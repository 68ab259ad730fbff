import NavPolicy.Json.Persisted

/-!
# Navigations

A browser tells of the navigations in its tabs; the agent acts on those that have begun to load a URL
and answers some of them by an override, a URL that the tab is to load instead.
-/

namespace NavPolicy

/-- How far a navigation has come. -/
inductive NavigationPhase where
  | loading
  | complete
  deriving DecidableEq, Repr

/-- A change in a tab; it has a URL only if the URL has changed. -/
structure Navigation where
  tab : Int32
  phase : NavigationPhase
  url : Option String
  deriving DecidableEq, Repr

/-- A URL that a tab is to load instead. -/
structure Override where
  tab : Int32
  url : String
  deriving DecidableEq, Repr

/-- The name of a phase. -/
def NavigationPhase.name : NavigationPhase → String
  | loading => "loading"
  | complete => "complete"

instance : Json.Persisted NavigationPhase where
  toJson p := Json.toJson p.name
  ofJson v := do
    match ← Json.variantName v with
    | "loading" => return .loading
    | "complete" => return .complete
    | other => throw (.unknownVariant other)

instance : Json.Persisted Navigation where
  toJson n := .record
    [("tabId", Json.toJson n.tab), ("status", Json.toJson n.phase), ("url", Json.toJson n.url)]
  ofJson v := do
    let fields ← Json.Record.ofValue ["tabId", "status", "url"] v
    return ⟨← fields.required "tabId", ← fields.required "status", ← fields.nullable "url"⟩

instance : Json.Persisted Override where
  toJson o := .record [("tabId", Json.toJson o.tab), ("url", Json.toJson o.url)]
  ofJson v := do
    let fields ← Json.Record.ofValue ["tabId", "url"] v
    return ⟨← fields.required "tabId", ← fields.required "url"⟩

namespace Navigation

/-- A navigation that has begun to load a URL. -/
def loading (tab : Int32) (url : String) : Navigation := ⟨tab, .loading, some url⟩

/-- The URL to act on, if the navigation is one to act on. -/
def target? (n : Navigation) : Option String :=
  match n.phase with
  | .loading => n.url
  | .complete => none

end Navigation

end NavPolicy
