import NavPolicy.Proofs.Agent.Install
import NavPolicy.Proofs.CommandLine.Inspect
import NavPolicy.Proofs.Policy.Classification

/-!
# Which passwords are accepted

A password is presented to the agent, in a session, or on the command line against the file of a policy.
The agent goes by the lock that it has stored, and the command line compiles the lock anew.  After a
refresh from the text of the file all of them accept the same passwords, those of `Meaning.Opens`, which
is read off the mapping that the text means.

A digest that the command line gives out for a secret is taken back with the secret.  A digest with an
upper-case letter has the form that a policy asks for and is still the digest of no password, so the
policy that states it is locked for good.
-/

namespace NavPolicy

namespace Meaning

/-- Whether a policy asks for a lock and a password opens it: the policy states sixty-four hexadecimal
digits, and the password is not empty and has just them for its digest. -/
def Opens (root : Mapping) (password : String) : Prop :=
  Yaml.Value.lookup "lock" root = some (.bool true) ∧
    ∃ digest, Yaml.Value.lookup "authn" root = some (.string digest) ∧
      (digest.toList.length = 64 ∧ ∀ ch ∈ digest.toList, ch ∈ Digest.hexDigits) ∧
      password ≠ "" ∧ digest = Digest.ofText password

variable {root : Mapping}

/-- The lock of a document accepts the passwords that open it. -/
theorem accepts_accessLock_iff {password : String} :
    AccessLock.accepts password (PolicyDocument.ofEntries root).accessLock.digest = true ↔
      Opens root password := by
  rw [AccessLock.accepts, Bool.and_eq_true, decide_eq_true_iff, decide_eq_true_iff,
    digest_accessLock_iff, lock_ofEntries_iff, authn_ofEntries_iff, Digest.isWellFormed_iff, Opens]
  constructor
  · rintro ⟨hpassword, hlock, hauthn, hform⟩
    exact ⟨hlock, _, hauthn, hform, hpassword, rfl⟩
  · rintro ⟨hlock, digest, hauthn, hform, hpassword, rfl⟩
    exact ⟨hpassword, hlock, hauthn, hform⟩

/-- A locked policy that states the digest of a secret is opened by the secret. -/
theorem opens_of_authn {secret : String} (hsecret : secret ≠ "")
    (hlock : Yaml.Value.lookup "lock" root = some (.bool true))
    (hauthn : Yaml.Value.lookup "authn" root = some (.string (Digest.ofText secret))) :
    Opens root secret :=
  ⟨hlock, _, hauthn, Digest.isWellFormed_iff.1 (Digest.isWellFormed_ofText secret), hsecret, rfl⟩

/-- A policy that states a digest with an upper-case letter is opened by nothing. -/
theorem not_opens_of_upper {digest : String}
    (hauthn : Yaml.Value.lookup "authn" root = some (.string digest))
    (hupper : ∃ ch ∈ digest.toList, 'A' ≤ ch ∧ ch ≤ 'F') (password : String) :
    ¬ Opens root password := by
  rintro ⟨-, stated, hstated, -, -, hdigest⟩
  obtain rfl : digest = stated := by simpa using hauthn.symm.trans hstated
  exact Digest.ne_ofText_of_upper hupper password hdigest

end Meaning

namespace Agent

open CommandLine (verifyFile loadPolicy hashSecret)

/-- Whether a password is accepted wherever it is presented, to an agent in a state or against a file
with a text. -/
structure Accepts (env : Surroundings) (s : State) (text password : String) : Prop where
  verified : ((verifyPassword password).run env s).1 = .ok true
  unlocked : ((unlock .fresh password).run env s).1 = (.ok true, ⟨true⟩)
  checked : ∀ file elapsed other start,
    ((verifyFile file elapsed (loadPolicy file (.ok text)) password).run other start).1 =
      .ok ["Secret accepted"]

/-- Whether a password is refused wherever it is presented, to an agent in a state or against a file with
a text. -/
structure Refuses (env : Surroundings) (s : State) (text password : String) : Prop where
  verified : ((verifyPassword password).run env s).1 = .ok false
  unlocked : ((unlock .fresh password).run env s).1 = (.ok false, .fresh)
  checked : ∀ file elapsed other start, ∃ e,
    ((verifyFile file elapsed (loadPolicy file (.ok text)) password).run other start).1 = .error e

section Stored

variable {env : Surroundings} {s : State} {lock : AccessLock}
  (hfault : env.readFault Cell.accessLock.key = none)
  (htext : s.store.get? Cell.accessLock.key = some (Cell.accessLock.encode lock))

include hfault htext

/-- A password is checked against the stored lock. -/
theorem run_verifyPassword_of_text (password : String) :
    ((verifyPassword password).run env s).1 = .ok (AccessLock.accepts password lock.digest) := by
  rw [verifyPassword, Program.run_bind, run_storedLock_of_text hfault htext]
  rfl

/-- A fresh session is unlocked by the password of the stored lock. -/
theorem run_unlock_of_text (password : String) :
    ((unlock .fresh password).run env s).1 =
      (.ok (AccessLock.accepts password lock.digest),
        ⟨AccessLock.accepts password lock.digest⟩) := by
  rw [unlock, Program.run_bind, run_storedLock_of_text hfault htext]
  dsimp only
  rw [Session.unlock]
  cases AccessLock.accepts password lock.digest <;> rfl

end Stored

/-- An agent that has stored the lock of a text accepts the passwords that open it, and they are accepted
against a file with the text; all others are refused by both. -/
theorem accepts_or_refuses {env : Surroundings} {s : State} {text : String} {root : Meaning.Mapping}
    (hroot : Yaml.Value.ofText text = .ok (.mapping root))
    (hfault : env.readFault Cell.accessLock.key = none)
    (htext : s.store.get? Cell.accessLock.key =
      some (Cell.accessLock.encode (PolicyDocument.ofEntries root).accessLock)) (password : String) :
    (Meaning.Opens root password → Accepts env s text password) ∧
      (¬ Meaning.Opens root password → Refuses env s text password) := by
  have hdoc : PolicyDocument.ofText text = .ok (.ofEntries root) :=
    PolicyDocument.ofText_eq_ok_iff.2 ⟨root, hroot, rfl⟩
  have hverified := run_verifyPassword_of_text hfault htext password
  have hunlocked := run_unlock_of_text hfault htext password
  rw [← Meaning.accepts_accessLock_iff]
  refine ⟨fun haccepts => ?_, fun hrefuses => ?_⟩
  · rw [haccepts] at hverified hunlocked
    refine ⟨hverified, hunlocked, fun file elapsed other start => ?_⟩
    rw [CommandLine.run_verifyFile other start hdoc]
    exact CommandLine.verifySecret_of_accepts haccepts
  · rw [Bool.not_eq_true] at hrefuses
    rw [hrefuses] at hverified hunlocked
    refine ⟨hverified, hunlocked, fun file elapsed other start => ?_⟩
    rw [CommandLine.run_verifyFile other start hdoc]
    exact CommandLine.exists_verifySecret_eq_error hrefuses

/-- After a refresh from a text has applied it, as it does where nothing fails and the text has fewer than
2^32 entries, a password is accepted in all places or in none, and it is accepted exactly when it opens
the lock that the text asks for.  So a locked policy accepts a secret whose digest it states as it was
given out, and a policy whose digest has an upper-case letter accepts nothing. -/
theorem passwords_agree (c : Config) (env : Surroundings) (s : State) {url text : String}
    {root : Meaning.Mapping} (hurl : ((policyUrl c).run env s).1 = .ok (some url))
    (hsource : env.source s.fetched.length url = .ok text)
    (hroot : Yaml.Value.ofText text = .ok (.mapping root))
    (hlist : env.listFault = none) (hupdate : env.updateFault = none)
    (hwrite : ∀ cell ∈ [Cell.blockRules, .redirectRules, .accessLock],
      env.writeFault cell.key = none) :
    let doc := PolicyDocument.ofEntries root
    let t := ((refresh c).run env s).2
    (doc.entries.length < 2 ^ 32 → ((refresh c).run env s).1 = .ok (.applied doc.stats)) ∧
      ∀ stats, ((refresh c).run env s).1 = .ok (.applied stats) →
        ∀ later : Surroundings, later.readFault Cell.accessLock.key = none →
          (∀ password, (Meaning.Opens root password → Accepts later t text password) ∧
            (¬ Meaning.Opens root password → Refuses later t text password)) ∧
          (Yaml.Value.lookup "lock" root = some (.bool true) →
            (∀ secret, secret ≠ "" → ∃ digest, hashSecret secret = .ok [digest] ∧
              (Yaml.Value.lookup "authn" root = some (.string digest) →
                Accepts later t text secret)) ∧
            ∀ digest, Yaml.Value.lookup "authn" root = some (.string digest) →
              (∃ ch ∈ digest.toList, 'A' ≤ ch ∧ ch ≤ 'F') →
              ∀ password, Refuses later t text password) := by
  intro doc t
  have hdoc : PolicyDocument.ofText text = .ok doc :=
    PolicyDocument.ofText_eq_ok_iff.2 ⟨root, hroot, rfl⟩
  have hurl' : s.enforcement.policyUrl env c = .ok (some url) :=
    (gives_policyUrl env _ c s rfl).1.symm.trans hurl
  refine ⟨fun hentries => ?_, fun stats happlied later hfault => ?_⟩
  · exact (gives_refresh_of_document hurl' hsource hdoc hentries hlist hupdate hwrite s rfl).1
  · have hrefreshed : Refreshed env s.enforcement c ((refresh c).run env s).1 t.enforcement :=
      refreshed c s
    obtain ⟨url', text', doc', engine, hurl'', hsource', hdoc', -, hafter⟩ :=
      hrefreshed.exists_installed happlied
    -- the refresh has read the URL and the text that the hypotheses name
    obtain rfl := Enforcement.policyUrl_unique hurl' hurl''
    obtain rfl : text = text' := Except.ok.inj (hsource.symm.trans hsource')
    obtain rfl : doc = doc' := Except.ok.inj (hdoc.symm.trans hdoc')
    have htext : t.store.get? Cell.accessLock.key =
        some (Cell.accessLock.encode doc.accessLock) := by
      rw [get?_of_enforcement hafter, Enforcement.texts_installed_accessLock,
        if_pos (hwrite _ (by decide))]
      rfl
    have hpasswords := accepts_or_refuses hroot hfault htext
    refine ⟨hpasswords, fun hlock => ⟨fun secret hsecret => ?_, ?_⟩⟩
    · refine ⟨Digest.ofText secret, if_neg hsecret, fun hauthn => ?_⟩
      exact (hpasswords secret).1 (Meaning.opens_of_authn hsecret hlock hauthn)
    · intro digest hauthn hupper password
      exact (hpasswords password).2 (Meaning.not_opens_of_upper hauthn hupper password)

/-- The password whose digest a policy states is accepted, and the digest itself is not. -/
theorem passwords_agree_secret :
    let digest := "2bb80d537b1da3e38bd30361aa855686bde0eacd7162fef6a25fe97bf527a25b"
    let text := s!"lock: true\nauthn: {digest}\n"
    let c : Config := { Config.default with managedPolicyUrl := some "https://policy.example" }
    let env : Surroundings :=
      { Surroundings.offline "no route" ⟨0, 0⟩ with source := fun _ _ => .ok text }
    let t := ((refresh c).run env (State.initial .empty .empty)).2
    Accepts env t text "secret" ∧ Refuses env t text digest := by
  intro digest text c env t
  have hurl : ((policyUrl c).run env (State.initial .empty .empty)).1 =
      .ok (some "https://policy.example") := rfl
  have hdoc : PolicyDocument.ofText text = .ok ⟨true, some digest, .absent, []⟩ := by
    decide +kernel
  obtain ⟨root, hroot, heq⟩ := PolicyDocument.ofText_eq_ok_iff.1 hdoc
  -- the mapping is known by its document alone, which tells what stands under the two keys
  have hlock : Yaml.Value.lookup "lock" root = some (.bool true) :=
    Meaning.lock_ofEntries_iff.1 (by rw [← heq])
  have hauthn : Yaml.Value.lookup "authn" root = some (.string digest) :=
    Meaning.authn_ofEntries_iff.1 (by rw [← heq])
  obtain ⟨happlied, hpasswords⟩ :=
    passwords_agree c env (.initial .empty .empty) hurl rfl hroot rfl rfl fun _ _ => rfl
  obtain ⟨hopens, hlocked⟩ := hpasswords _ (happlied (by rw [← heq]; decide)) env rfl
  obtain ⟨printed, hprinted, haccepts⟩ := (hlocked hlock).1 "secret" (by decide)
  have hhash : hashSecret "secret" = .ok [digest] := by decide +kernel
  obtain rfl : printed = digest := by simpa using hprinted.symm.trans hhash
  refine ⟨haccepts hauthn, (hopens digest).2 ?_⟩
  rintro ⟨-, stated, hstated, -, -, hdigest⟩
  obtain rfl : digest = stated := by simpa using hauthn.symm.trans hstated
  exact absurd hdigest (by decide +kernel)

end Agent

end NavPolicy
