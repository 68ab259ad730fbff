import NavPolicy.Digest
import NavPolicy.Json.Persisted
import NavPolicy.Notice

/-!
# The access lock

A policy may ask for a password before its source is changed.  The lock keeps the digest of the
password; a session that has presented the password may change the source from then on, under
whatever lock is in force later.
-/

namespace NavPolicy

/-- Whether changes ask for a password. -/
inductive LockStatus where
  | locked
  | unlocked
  deriving DecidableEq, Repr

/-- The name of a status. -/
def LockStatus.name : LockStatus → String
  | locked => "locked"
  | unlocked => "unlocked"

/-- The lock in force, with the digest of the password that opens it. -/
structure AccessLock where
  status : LockStatus
  digest : Option String
  deriving DecidableEq, Repr

instance : Json.Persisted LockStatus where
  toJson s := Json.toJson s.name
  ofJson v := do
    match ← Json.variantName v with
    | "locked" => return .locked
    | "unlocked" => return .unlocked
    | other => throw (.unknownVariant other)

instance : Json.Persisted AccessLock where
  toJson l := .record [("status", Json.toJson l.status), ("digest_hex", Json.toJson l.digest)]
  ofJson v := do
    let fields ← Json.Record.ofValue ["status", "digest_hex"] v
    return ⟨← fields.required "status", ← fields.optional "digest_hex" none⟩

namespace AccessLock

/-- The lock that asks for the password with this digest. -/
def locked (digest : String) : AccessLock := ⟨.locked, some digest⟩

/-- The lock that asks for nothing. -/
def unlocked : AccessLock := ⟨.unlocked, none⟩

/-- Whether changes ask for a password. -/
def isLocked (l : AccessLock) : Bool := l.status = .locked

/-- Whether a password is the one with the stored digest.  The empty password never is. -/
def accepts (password : String) (digest : Option String) : Bool :=
  password ≠ "" && digest = some (Digest.ofText password)

end AccessLock

/-- Whether a caller has presented the password. -/
structure Session where
  isUnlocked : Bool
  deriving DecidableEq, Repr

namespace Session

/-- A session that has presented no password. -/
def fresh : Session := ⟨false⟩

/-- The session after a password is presented; a wrong one changes nothing. -/
def unlock (s : Session) (password : String) (lock : AccessLock) : Session :=
  if AccessLock.accepts password lock.digest then ⟨true⟩ else s

/-- Whether the session may change the policy source under a lock. -/
def mayEdit (s : Session) (lock : AccessLock) : Bool := !lock.isLocked || s.isUnlocked

/-- The notice about a password that was refused. -/
def refusalNotice : Notice := .warn "Password verification failed"

end Session

end NavPolicy
