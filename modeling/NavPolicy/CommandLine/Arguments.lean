/-!
# Arguments of a command

The arguments of a command are options, which have names, and operands, which have places.  An option
is given by `--name`, and one that takes a value also by `-l` with its letter.  The value follows as
the next argument, or stands in the same one: `--name=value`, `-lvalue`, `-l=value`.  The next argument
is no value if it has the look of an option; a single `-` has not.  After `--` all arguments are
operands.  Options and operands may be mixed, and no option may be given twice.

`Arguments.ofList` takes a list of arguments apart by what the command knows.
-/

namespace NavPolicy.CommandLine

/-- An option that a command knows. -/
inductive OptionForm where
  /-- One that is given or not. -/
  | flag (name : String)
  /-- One that takes a value. -/
  | valued (name : String) (letter : Option Char)
  deriving DecidableEq, Repr

namespace OptionForm

/-- The name. -/
def name : OptionForm → String
  | flag name => name
  | valued name _ => name

/-- The letter, if there is one. -/
def letter? : OptionForm → Option Char
  | flag _ => none
  | valued _ letter => letter

end OptionForm

/-- A command: its name, its options, and the names of its operands, all of which must be given. -/
structure CommandForm where
  name : String
  options : List OptionForm
  operands : List String
  deriving DecidableEq, Repr

/-- Why arguments cannot be followed. -/
inductive UsageError where
  | noCommand
  | unknownCommand (name : String)
  | unexpectedArgument (text : String)
  | missingValue (option : String)
  | unneededValue (option : String)
  | repeatedOption (option : String)
  | missingOption (option : String)
  | missingOperand (name : String)
  | invalidValue (option text : String)
  deriving DecidableEq, Repr

/-- The wording of an error. -/
def UsageError.message : UsageError → String
  | noCommand => "a command is required"
  | unknownCommand name => s!"unrecognized command '{name}'"
  | unexpectedArgument text => s!"unexpected argument '{text}'"
  | missingValue option => s!"a value is required for '--{option}'"
  | unneededValue option => s!"'--{option}' takes no value"
  | repeatedOption option => s!"'--{option}' cannot be given more than once"
  | missingOption option => s!"'--{option}' is required"
  | missingOperand name => s!"<{name}> is required"
  | invalidValue option text => s!"invalid value '{text}' for '--{option}'"

/-! ## The look of an argument -/

/-- What an argument looks like by itself. -/
inductive Shape where
  /-- The mark after which all arguments are operands. -/
  | mark
  /-- An option by its name, with a value if one stands after `=`. -/
  | long (name : String) (value : Option String)
  /-- An option by its letter, with what stands behind it. -/
  | short (letter : Char) (rest : List Char)
  /-- Anything else. -/
  | plain
  deriving DecidableEq, Repr

/-- Splits a name from the value after the first `=`. -/
def splitValue (cs : List Char) : String × Option String :=
  (String.ofList (cs.takeWhile (· ≠ '=')),
    match cs.dropWhile (· ≠ '=') with
    | [] => none
    | _ :: value => some (String.ofList value))

/-- The look of an argument. -/
def Shape.ofText (text : String) : Shape :=
  match text.toList with
  | ['-', '-'] => .mark
  | '-' :: '-' :: cs =>
    let (name, value) := splitValue cs
    .long name value
  | '-' :: c :: cs => .short c cs
  | _ => .plain

/-- The value that stands behind a letter, after `=` or at once. -/
def attachedValue? : List Char → Option String
  | [] => none
  | '=' :: cs => some (String.ofList cs)
  | cs => some (String.ofList cs)

/-! ## Taking arguments apart -/

/-- Arguments taken apart: the options with their values, and the operands in order. -/
structure Arguments where
  /-- The options that were given; a flag has no value. -/
  options : List (String × Option String)
  operands : List String
  deriving DecidableEq, Repr

namespace Arguments

/-- Adds an option. -/
def addOption (a : Arguments) (name : String) (value : Option String) :
    Except UsageError Arguments :=
  if a.options.any (·.1 = name) then .error (.repeatedOption name)
  else .ok { a with options := a.options ++ [(name, value)] }

/-- Adds an operand. -/
def addOperand (form : CommandForm) (a : Arguments) (text : String) :
    Except UsageError Arguments :=
  if a.operands.length < form.operands.length then
    .ok { a with operands := a.operands ++ [text] }
  else .error (.unexpectedArgument text)

/-- Adds operands. -/
def addOperands (form : CommandForm) (a : Arguments) (texts : List String) :
    Except UsageError Arguments :=
  texts.foldlM (addOperand form) a

/-- Takes arguments apart; those in `a` came before. -/
def scan (form : CommandForm) (a : Arguments) : List String → Except UsageError Arguments
  | [] => .ok a
  | text :: rest =>
    match Shape.ofText text with
    | .mark => a.addOperands form rest
    | .plain => do scan form (← a.addOperand form text) rest
    | .long name value =>
      match form.options.find? (·.name = name), value with
      | none, _ => .error (.unexpectedArgument text)
      | some (.flag _), some _ => .error (.unneededValue name)
      | some (.flag _), none => do scan form (← a.addOption name none) rest
      | some (.valued _ _), some value => do scan form (← a.addOption name (some value)) rest
      | some (.valued _ _), none => awaited name rest
    | .short letter behind =>
      match form.options.find? (·.letter? = some letter), attachedValue? behind with
      | none, _ => .error (.unexpectedArgument text)
      | some option, some value => do scan form (← a.addOption option.name (some value)) rest
      | some option, none => awaited option.name rest
where
  /-- Takes the next argument as the value of an option. -/
  awaited (name : String) : List String → Except UsageError Arguments
    | [] => .error (.missingValue name)
    | value :: rest =>
      if Shape.ofText value = .plain then do
        scan form (← a.addOption name (some value)) rest
      else .error (.missingValue name)

/-- Takes the arguments of a command apart. -/
def ofList (form : CommandForm) (texts : List String) : Except UsageError Arguments :=
  scan form ⟨[], []⟩ texts

/-- The value of an option, if it was given one. -/
def value? (a : Arguments) (name : String) : Option String :=
  (a.options.lookup name).join

/-- The value of an option that must be given. -/
def required (a : Arguments) (name : String) : Except UsageError String :=
  match a.value? name with
  | some value => .ok value
  | none => .error (.missingOption name)

/-- Whether a flag was given. -/
def has (a : Arguments) (name : String) : Bool := a.options.any (·.1 = name)

/-- An operand by its place, which must be given. -/
def operand (a : Arguments) (form : CommandForm) (place : Nat) : Except UsageError String :=
  match a.operands[place]? with
  | some text => .ok text
  | none => .error (.missingOperand (form.operands.getD place ""))

end Arguments

end NavPolicy.CommandLine
