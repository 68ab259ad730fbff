import NavPolicy.Redirect

/-!
# Policy documents

What a policy says, before it is compiled: whether it asks for a lock, the digest of the password, the
redirect that holds for all entries, and the entries.  What is missing or of the wrong kind is simply
absent here.
-/

namespace NavPolicy

/-- What a mapping says about redirects: whether it has a redirect key at all, and the destination
that its texts give. -/
structure RedirectClause where
  declared : Bool
  destination : Destination
  deriving DecidableEq, Repr

/-- The clause of a mapping without redirect keys. -/
def RedirectClause.absent : RedirectClause := ⟨false, ⟨none, none⟩⟩

/-- The clause of a mapping whose redirect keys are just those of a destination. -/
def RedirectClause.ofDestination (d : Destination) : RedirectClause :=
  ⟨d.inlineHtml.isSome || d.remoteUrl.isSome, d⟩

/-- An entry of the list of URLs; without a pattern it has no effect. -/
structure PolicyEntry where
  pattern : Option String
  redirect : RedirectClause
  deriving DecidableEq, Repr

/-- What a policy says. -/
structure PolicyDocument where
  lock : Bool
  authn : Option String
  defaultRedirect : RedirectClause
  entries : List PolicyEntry
  deriving DecidableEq, Repr

end NavPolicy
