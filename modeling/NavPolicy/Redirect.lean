import NavPolicy.Json.Persisted
import NavPolicy.Notice
import NavPolicy.Text.Percent

/-!
# Redirects

A redirect rule sends navigations that match its pattern elsewhere.  It has a destination of its own
and one that the whole policy falls back on, and each destination may name a remote page and hold an
inline document.

## Choosing a target

`RedirectRule.candidates` lists what may be tried, best first: the own remote page, the own inline
document, the fallback's remote page, the fallback's inline document.  A remote page counts only if it
answers; an inline document always does.  `Candidate.firstUsable` walks the list.
-/

namespace NavPolicy

/-- Where a redirect may lead. -/
structure Destination where
  inlineHtml : Option String
  remoteUrl : Option String
  deriving DecidableEq, Repr, Inhabited

/-- A pattern whose navigations lead elsewhere. -/
structure RedirectRule where
  pattern : String
  own : Destination
  fallback : Destination
  deriving DecidableEq, Repr

instance : Json.Persisted Destination where
  toJson d := .record <|
    (d.inlineHtml.map fun html => ("html", Json.toJson html)).toList ++
      (d.remoteUrl.map fun url => ("htmlsrc", Json.toJson url)).toList
  ofJson v := do
    let fields ← Json.Record.ofValue ["html", "htmlsrc"] v
    return ⟨← fields.optional "html" none, ← fields.optional "htmlsrc" none⟩

instance : Json.Persisted RedirectRule where
  toJson r := .record
    [("pattern", Json.toJson r.pattern), ("ruleConfig", Json.toJson r.own),
      ("globalConfig", Json.toJson r.fallback)]
  ofJson v := do
    let fields ← Json.Record.ofValue ["pattern", "ruleConfig", "globalConfig"] v
    return ⟨← fields.required "pattern", ← fields.required "ruleConfig",
      ← fields.required "globalConfig"⟩

/-! ## Inline documents -/

/-- How the URL of every inline document starts. -/
def inlineUrlStart : String := "data:text/html;charset=utf-8,"

/-- The URL that carries a document. -/
def inlineUrl (html : String) : String := inlineUrlStart ++ Text.percentEncode html

/-- The first characters of a URL, for notices. -/
def urlPreview (url : String) (count : Nat) : String := String.ofList (url.toList.take count)

/-! ## Candidates -/

namespace Destination

/-- The remote page, if one is named; an empty name is none. -/
def remote? (d : Destination) : Option String := d.remoteUrl.filter (· ≠ "")

/-- The inline document, if it has any text. -/
def inline? (d : Destination) : Option String := d.inlineHtml.filter (· ≠ "")

end Destination

/-- A target that may be tried. -/
inductive Candidate where
  /-- A remote page, usable if it answers. -/
  | remote (url : String)
  /-- The URL of an inline document, always usable. -/
  | inline (url : String)
  deriving DecidableEq, Repr

namespace Candidate

/-- The URL of the target. -/
def url : Candidate → String
  | remote url => url
  | inline url => url

/-- Whether the target has to answer before it may be used. -/
def needsProbe : Candidate → Bool
  | remote _ => true
  | inline _ => false

end Candidate

/-- The candidates of a destination. -/
def Destination.candidates (d : Destination) : List Candidate :=
  (d.remote?.map Candidate.remote).toList ++
    (d.inline?.map fun html => Candidate.inline (inlineUrl html)).toList

/-- The candidates of a destination and of the one to fall back on, best first. -/
def Destination.chain (own fallback : Destination) : List Candidate :=
  own.candidates ++ fallback.candidates

/-- The candidates of a rule, best first. -/
def RedirectRule.candidates (r : RedirectRule) : List Candidate := r.own.chain r.fallback

/-- What walking a list of candidates came to: the target, the remote pages that were tried, in
order, and the notices. -/
structure Walk where
  target : Option String
  tried : List String
  notices : List Notice
  deriving DecidableEq, Repr

namespace Candidate

/-- Walks candidates to the first usable one.  Whether a page answers may depend on how many were
tried before, which `count` starts from. -/
def firstUsable (answers : Nat → String → Bool) (count : Nat) : List Candidate → Walk
  | [] => ⟨none, [], []⟩
  | inline url :: _ => ⟨some url, [], []⟩
  | remote url :: rest =>
    if answers count url then ⟨some url, [url], []⟩
    else
      let walk := firstUsable answers (count + 1) rest
      ⟨walk.target, url :: walk.tried,
        .warn s!"Remote target {url} failed liveness check, falling back" :: walk.notices⟩

end Candidate

end NavPolicy
