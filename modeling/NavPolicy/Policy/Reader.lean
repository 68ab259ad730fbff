import NavPolicy.Policy.Document
import NavPolicy.Yaml.Value

/-!
# Reading policy documents

A policy is a mapping.  Below that nothing is an error: a lock is asked for by the truth value alone, a
text counts only where it is one, and an item of the list of URLs that is no mapping is an entry without
pattern.
-/

namespace NavPolicy

/-- Why a text is no policy document. -/
inductive PolicyError where
  | yaml (e : Yaml.Error)
  /-- The text means something else than a mapping. -/
  | notAMapping
  deriving DecidableEq, Repr

/-- The wording of an error. -/
def PolicyError.message : PolicyError → String
  | yaml e => e.message
  | notAMapping => "Policy content is not a valid object."

/-- The text under a key. -/
def textAt? (entries : List (Yaml.Value × Yaml.Value)) (key : String) : Option String :=
  match Yaml.Value.lookup key entries with
  | some (.string s) => some s
  | _ => none

/-- What a mapping says about redirects. -/
def RedirectClause.ofEntries (entries : List (Yaml.Value × Yaml.Value)) : RedirectClause :=
  ⟨(Yaml.Value.lookup "html" entries).isSome || (Yaml.Value.lookup "htmlsrc" entries).isSome,
    ⟨textAt? entries "html", textAt? entries "htmlsrc"⟩⟩

/-- The entry that an item of the list of URLs gives. -/
def PolicyEntry.ofValue : Yaml.Value → PolicyEntry
  | .mapping entries => ⟨textAt? entries "url", .ofEntries entries⟩
  | _ => ⟨none, .absent⟩

namespace PolicyDocument

/-- What the entries of a mapping say. -/
def ofEntries (entries : List (Yaml.Value × Yaml.Value)) : PolicyDocument where
  lock :=
    match Yaml.Value.lookup "lock" entries with
    | some (.bool true) => true
    | _ => false
  authn := textAt? entries "authn"
  defaultRedirect :=
    match Yaml.Value.lookup "global" entries with
    | some (.mapping entries) => .ofEntries entries
    | _ => .absent
  entries :=
    match Yaml.Value.lookup "urls" entries with
    | some (.sequence items) => items.map PolicyEntry.ofValue
    | _ => []

/-- The document that a value is. -/
def ofValue : Yaml.Value → Except PolicyError PolicyDocument
  | .mapping entries => .ok (ofEntries entries)
  | _ => .error .notAMapping

/-- The document that a text writes. -/
def ofText (text : String) : Except PolicyError PolicyDocument :=
  match Yaml.Value.ofText text with
  | .ok v => ofValue v
  | .error e => .error (.yaml e)

end PolicyDocument

end NavPolicy
