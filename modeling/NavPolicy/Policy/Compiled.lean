import NavPolicy.BlockRule
import NavPolicy.Lock
import NavPolicy.Policy.Document

/-!
# Compiled policies

A document is compiled into block rules, redirect rules and a lock.  An entry with a pattern becomes a
redirect rule if it or the policy as a whole has a redirect key, and else a block rule; the block rules
are numbered from one.  An entry without a pattern is skipped.
-/

namespace NavPolicy

/-- What a policy puts in force. -/
structure CompiledPolicy where
  blockRules : List BlockRule
  redirectRules : List RedirectRule
  lock : AccessLock
  deriving DecidableEq, Repr

/-- How the entries of a document were used. -/
structure CompileStats where
  entries : Nat
  skipped : Nat
  blockRules : Nat
  redirectRules : Nat
  deriving DecidableEq, Repr

instance : Json.Persisted CompiledPolicy where
  toJson p := .record
    [("block_rules", Json.toJson p.blockRules), ("redirect_rules", Json.toJson p.redirectRules),
      ("lock", Json.toJson p.lock)]
  ofJson v := do
    let fields ← Json.Record.ofValue ["block_rules", "redirect_rules", "lock"] v
    return ⟨← fields.required "block_rules", ← fields.required "redirect_rules",
      ← fields.required "lock"⟩

/-- What becomes of an entry. -/
inductive Ruling where
  | skip
  | block (pattern : String)
  | redirect (rule : RedirectRule)
  deriving DecidableEq, Repr

namespace Ruling

/-- The pattern to block, if that is the ruling. -/
def blocked? : Ruling → Option String
  | block pattern => some pattern
  | _ => none

/-- The redirect rule, if that is the ruling. -/
def redirected? : Ruling → Option RedirectRule
  | redirect rule => some rule
  | _ => none

end Ruling

namespace PolicyDocument

/-- What becomes of an entry of the document. -/
def ruling (doc : PolicyDocument) (entry : PolicyEntry) : Ruling :=
  match entry.pattern with
  | none => .skip
  | some pattern =>
    if entry.redirect.declared || doc.defaultRedirect.declared then
      .redirect ⟨pattern, entry.redirect.destination, doc.defaultRedirect.destination⟩
    else .block pattern

/-- The rulings on the entries, in order. -/
def rulings (doc : PolicyDocument) : List Ruling := doc.entries.map doc.ruling

/-- The block rules, numbered from one. -/
def blockRules (doc : PolicyDocument) : List BlockRule :=
  (doc.rulings.filterMap Ruling.blocked?).mapIdx fun i pattern => ⟨.ofNat (i + 1), pattern⟩

/-- The redirect rules. -/
def redirectRules (doc : PolicyDocument) : List RedirectRule :=
  doc.rulings.filterMap Ruling.redirected?

/-- The lock: it takes both the wish for one and a digest of the right form. -/
def accessLock (doc : PolicyDocument) : AccessLock :=
  match doc.lock, doc.authn with
  | true, some digest => if Digest.isWellFormed digest then .locked digest else .unlocked
  | _, _ => .unlocked

/-- The compiled policy. -/
def compile (doc : PolicyDocument) : CompiledPolicy :=
  ⟨doc.blockRules, doc.redirectRules, doc.accessLock⟩

/-- How the entries are used. -/
def stats (doc : PolicyDocument) : CompileStats :=
  ⟨doc.entries.length, doc.rulings.count .skip, doc.blockRules.length, doc.redirectRules.length⟩

/-- The notice about a lock that was asked for but cannot be had. -/
def lockNotice (doc : PolicyDocument) : List Notice :=
  if doc.lock && !doc.accessLock.isLocked then
    [.warn "Lock requested but authn is not a SHA-256 hex digest; lock disabled"]
  else []

/-- The notices about skipped entries, each with its place counted from zero. -/
def skipNotices (doc : PolicyDocument) : List Notice :=
  (doc.rulings.mapIdx fun i r =>
    if r = .skip then some (Notice.debug s!"Skipping policy entry {i}: no url pattern")
    else none).filterMap id

/-- The notices of compiling. -/
def notices (doc : PolicyDocument) : List Notice := doc.lockNotice ++ doc.skipNotices

end PolicyDocument

end NavPolicy
