import NavPolicy.Text.Utf8

/-!
# Lines of input

Input comes in pieces.  A line can be taken once the piece with its end has come, and what follows the
last line break once there is no more input.  The lines that one piece makes ready are a batch: whoever
takes them does not have to wait between them.

`batches` are those of input that is all there and is read in pieces of one size.
-/

namespace NavPolicy.CommandLine

/-- The most bytes of a piece of input. -/
def pieceSize : Nat := 8192

/-- The lines that a piece makes ready, given the start of the first of them, and the start of the line
that goes on after the piece. -/
def readyLines (start piece : List UInt8) : List (List UInt8) × List UInt8 :=
  let lines := (start ++ piece).splitOn '\n'.toUInt8
  (lines.dropLast, lines.getLastD [])

/-- The batches of pieces, given the start of the first line. -/
def batchesOf (start : List UInt8) : List (List UInt8) → List (List (List UInt8))
  | [] => if start.isEmpty then [] else [[start]]
  | piece :: pieces =>
    let (lines, start) := readyLines start piece
    lines :: batchesOf start pieces

/-- Cuts input into pieces.  `fuel` bounds their number. -/
def piecesOf : Nat → List UInt8 → List (List UInt8)
  | 0, _ => []
  | _ + 1, [] => []
  | fuel + 1, bytes => bytes.take pieceSize :: piecesOf fuel (bytes.drop pieceSize)

/-- The lines of a batch up to the first that is no text, and whether all of them are. -/
def textLines : List (List UInt8) → List String × Bool
  | [] => ([], true)
  | line :: lines =>
    match Text.ofUtf8? line with
    | none => ([], false)
    | some text =>
      let (texts, all) := textLines lines
      (text :: texts, all)

/-- The batches of input. -/
def batches (input : String) : List (List String) :=
  let bytes := Text.utf8Bytes input.toList
  (batchesOf [] (piecesOf bytes.length bytes)).map fun lines => (textLines lines).1

end NavPolicy.CommandLine
