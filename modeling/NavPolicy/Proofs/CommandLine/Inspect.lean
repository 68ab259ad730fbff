import Mathlib.Data.List.Basic
import NavPolicy.CommandLine.Inspect
import NavPolicy.Proofs.Agent.Enforcement
import NavPolicy.Proofs.Json.Token
import NavPolicy.Proofs.Policy.Meaning

/-!
# What inspecting a policy file comes to

Every command that looks at a policy file does something with the compiled policy, and the notices before
it change nothing that counts (`exists_run_withPolicy`).

## Treatments

A URL is treated as blocked exactly when a block rule matches it, whether pages are asked or not
(`run_treatment_eq_blocked_iff`).  When none does and no page is asked, the treatment goes by the first
candidate of the redirect rules that match, all of them laid out in one list
(`exists_unprobed_eq_redirected_iff`).

The words for a treatment tell whether a rule blocks and which, and whether there is a target
(`Treatment.text_eq_iff`).  They do not always tell the target: a pattern may hold whatever the words put
between pattern and target.
-/

namespace NavPolicy.CommandLine

open Agent (Program Surroundings State)

/-! ## Files -/

section Files

variable {text : String} {doc : PolicyDocument}

/-- A file that holds the text of a document is loaded as the document. -/
theorem loadPolicy_of_ok (h : PolicyDocument.ofText text = .ok doc) (file : String) :
    loadPolicy file (.ok text) = .ok doc := by
  rw [loadPolicy, h]
  rfl

variable (env : Surroundings) (s : State)

/-- A command does with the compiled policy what it does, after notices. -/
theorem exists_run_withPolicy (file elapsed : String) (doc : PolicyDocument)
    (act : CompiledPolicy → Program Outcome) :
    ∃ t : State, (withPolicy file elapsed (.ok doc) act).run env s = (act doc.compile).run env t :=
  ⟨_, Program.run_bind env (Program.notes (loadNotices file elapsed doc)) _ s⟩

/-- Checking a secret against a file comes to checking it against the lock of its document. -/
theorem run_verifyFile (h : PolicyDocument.ofText text = .ok doc) (file elapsed secret : String) :
    ((verifyFile file elapsed (loadPolicy file (.ok text)) secret).run env s).1 =
      verifySecret doc.accessLock secret := by
  rw [loadPolicy_of_ok h, verifyFile]
  obtain ⟨t, ht⟩ := exists_run_withPolicy env s file elapsed doc _
  rw [ht]
  rfl

/-- Checking a URL against a file prints the words for its treatment. -/
theorem exists_run_checkFile (h : PolicyDocument.ofText text = .ok doc) (file elapsed url : String)
    (probing : Bool) (timeoutMs : UInt64) :
    ∃ t, ((checkFile file elapsed (loadPolicy file (.ok text)) url probing timeoutMs).run env s).1 =
      .ok [((treatment doc.compile url probing timeoutMs).run env t).1.text] := by
  rw [loadPolicy_of_ok h, checkFile]
  obtain ⟨t, ht⟩ := exists_run_withPolicy env s file elapsed doc _
  refine ⟨t, ?_⟩
  rw [ht, Program.run_bind]
  rfl

end Files

/-! ## Secrets -/

/-- A lock that a document asks for with a digest is locked. -/
theorem isLocked_accessLock {doc : PolicyDocument} {digest : String}
    (h : doc.accessLock.digest = some digest) : doc.accessLock.isLocked = true := by
  revert h
  rw [PolicyDocument.accessLock]
  split
  · split
    · exact fun _ => rfl
    · exact fun h => absurd h (by simp [AccessLock.unlocked])
  · exact fun h => absurd h (by simp [AccessLock.unlocked])

/-- The secret of a document's lock is accepted. -/
theorem verifySecret_of_accepts {doc : PolicyDocument} {secret : String}
    (h : AccessLock.accepts secret doc.accessLock.digest = true) :
    verifySecret doc.accessLock secret = .ok ["Secret accepted"] := by
  have hdigest : doc.accessLock.digest = some (Digest.ofText secret) := by
    rw [AccessLock.accepts, Bool.and_eq_true, decide_eq_true_iff, decide_eq_true_iff] at h
    exact h.2
  rw [verifySecret, isLocked_accessLock hdigest, if_neg (by simp), if_pos h]

/-- A secret that is not the one of the lock is refused, be there a lock or not. -/
theorem exists_verifySecret_eq_error {lock : AccessLock} {secret : String}
    (h : AccessLock.accepts secret lock.digest = false) :
    ∃ e, verifySecret lock secret = .error e := by
  rw [verifySecret, h]
  split
  · exact ⟨_, rfl⟩
  · exact ⟨_, rfl⟩

/-! ## Treatments -/

/-- Redirect rules block nothing, whether pages are asked or not. -/
theorem run_firstRedirect_ne_blocked (env : Surroundings) (s : State) (probing : Bool) (c : Config)
    (rules : List RedirectRule) (rule : BlockRule) :
    ((firstRedirect probing c rules).run env s).1 ≠ .blocked rule := by
  induction rules generalizing s with
  | nil => exact fun h => absurd h (by simp [firstRedirect, Program.run, pure])
  | cons r rules ih =>
    rw [firstRedirect, Program.run_bind]
    cases ((target? probing c r).run env s).1 with
    | some target => exact fun h => Treatment.noConfusion h
    | none => exact ih _

/-- A URL is treated as blocked by the first block rule that matches it, and by no other. -/
theorem run_treatment_eq_blocked_iff (env : Surroundings) (s : State) (p : CompiledPolicy)
    (url : String) (probing : Bool) (timeoutMs : UInt64) (rule : BlockRule) :
    ((treatment p url probing timeoutMs).run env s).1 = .blocked rule ↔
      blockingRule? p.blockRules url = some rule := by
  rw [treatment]
  cases blockingRule? p.blockRules url with
  | some r =>
    show Treatment.blocked r = .blocked rule ↔ _
    simp
  | none =>
    refine ⟨fun h => absurd h ?_, fun h => absurd h (by simp)⟩
    dsimp only
    rw [Program.run_bind]
    split
    · exact fun h => Treatment.noConfusion h
    · exact run_firstRedirect_ne_blocked env _ probing _ _ rule

/-- The first candidate of the rules, with the pattern of its rule. -/
def firstCandidate (rules : List RedirectRule) : Treatment :=
  (rules.findSome? fun r =>
    (r.candidates.findSome? (Meaning.usable? fun _ => true)).map (.redirected r.pattern)).getD
      .targetless

/-- Rules have a first candidate or none. -/
theorem firstCandidate_cases (rules : List RedirectRule) : firstCandidate rules = .targetless ∨
    ∃ pattern target, firstCandidate rules = .redirected pattern target := by
  rw [firstCandidate]
  cases hfirst : rules.findSome? fun r =>
      (r.candidates.findSome? (Meaning.usable? fun _ => true)).map (Treatment.redirected r.pattern) with
  | none => exact .inl rfl
  | some shown =>
    obtain ⟨r, -, hr⟩ := List.exists_of_findSome?_eq_some hfirst
    obtain ⟨target, -, rfl⟩ := Option.map_eq_some_iff.1 hr
    exact .inr ⟨_, target, rfl⟩

/-- Where no page is asked the first candidate is taken, and nothing else is done. -/
theorem firstRedirect_unprobed (c : Config) (rules : List RedirectRule) :
    firstRedirect false c rules = pure (firstCandidate rules) := by
  induction rules with
  | nil => rfl
  | cons r rules ih =>
    have htarget : target? false c r =
        pure (r.candidates.findSome? (Meaning.usable? fun _ => true)) :=
      congrArg pure (Meaning.target_firstUsable (fun _ _ => rfl) 0 r.candidates)
    rw [firstRedirect, htarget, firstCandidate, List.findSome?_cons]
    cases r.candidates.findSome? (Meaning.usable? fun _ => true) with
    | some target => rfl
    | none => exact ih

/-- The first candidate of the rules is the first of all their candidates. -/
theorem exists_firstCandidate_eq_redirected_iff (rules : List RedirectRule) (target : String) :
    (∃ pattern, firstCandidate rules = .redirected pattern target) ↔
      (rules.flatMap RedirectRule.candidates).findSome? (Meaning.usable? fun _ => true) =
        some target := by
  rw [Meaning.findSome?_flatMap]
  induction rules with
  | nil => simp [firstCandidate]
  | cons r rules ih =>
    rw [firstCandidate, List.findSome?_cons, List.findSome?_cons]
    cases r.candidates.findSome? (Meaning.usable? fun _ => true) with
    | some t => simp
    | none => exact ih

/-- How a policy treats a URL where no page is asked. -/
def unprobed (p : CompiledPolicy) (url : String) : Treatment :=
  match blockingRule? p.blockRules url with
  | some rule => .blocked rule
  | none =>
    match (Matcher.ofRules p.redirectRules).matching url with
    | [] => .unmatched
    | rules => firstCandidate rules

/-- Where no page is asked the treatment depends on nothing but the policy. -/
theorem run_treatment_unprobed (env : Surroundings) (s : State) (p : CompiledPolicy) (url : String)
    (timeoutMs : UInt64) : ((treatment p url false timeoutMs).run env s).1 = unprobed p url := by
  rw [treatment, unprobed]
  cases blockingRule? p.blockRules url with
  | some rule => rfl
  | none =>
    dsimp only
    rw [Program.run_bind]
    cases (Matcher.ofRules p.redirectRules).matching url with
    | nil => rfl
    | cons r rules =>
      dsimp only
      rw [firstRedirect_unprobed]
      rfl

section Unblocked

variable {p : CompiledPolicy} {url : String} (h : blockingRule? p.blockRules url = none)

include h

/-- A URL that no block rule matches is redirected to the first candidate of the redirect rules that
match it. -/
theorem exists_unprobed_eq_redirected_iff (target : String) :
    (∃ pattern, unprobed p url = .redirected pattern target) ↔
      (((Matcher.ofRules p.redirectRules).matching url).flatMap RedirectRule.candidates).findSome?
        (Meaning.usable? fun _ => true) = some target := by
  rw [unprobed, h]
  dsimp only
  cases (Matcher.ofRules p.redirectRules).matching url with
  | nil => simp
  | cons r rules => exact exists_firstCandidate_eq_redirected_iff (r :: rules) target

/-- A URL that no block rule matches goes on where it would if no redirect rule that matches it has a
candidate. -/
theorem unprobed_without_target_iff :
    unprobed p url = .unmatched ∨ unprobed p url = .targetless ↔
      (((Matcher.ofRules p.redirectRules).matching url).flatMap RedirectRule.candidates).findSome?
        (Meaning.usable? fun _ => true) = none := by
  have hredirected := exists_unprobed_eq_redirected_iff h
  constructor
  · intro hnone
    rw [Option.eq_none_iff_forall_ne_some]
    intro target htarget
    obtain ⟨pattern, hpattern⟩ := (hredirected target).2 htarget
    rw [hpattern] at hnone
    simp at hnone
  · intro hnone
    cases hshown : unprobed p url with
    | unmatched => exact .inl rfl
    | targetless => exact .inr rfl
    | redirected pattern target =>
      exact absurd ((hredirected target).1 ⟨pattern, hshown⟩) (by simp [hnone])
    | blocked rule =>
      rw [unprobed, h] at hshown
      dsimp only at hshown
      split at hshown
      · exact absurd hshown (by simp)
      · rcases firstCandidate_cases ((Matcher.ofRules p.redirectRules).matching url) with
          hfirst | ⟨pattern, target, hfirst⟩
        · exact absurd (hfirst.symm.trans hshown) (by simp)
        · exact absurd (hfirst.symm.trans hshown) (by simp)

end Unblocked

/-! ## Words -/

/-- Two numbers, each with something after it that starts with no digit, are told apart by how they are
written. -/
theorem natDigits_append_inj {m n : Nat} {xs ys : List Char}
    (hx : ∀ c ∈ xs.head?, c.isDigit = false) (hy : ∀ c ∈ ys.head?, c.isDigit = false)
    (h : Text.natDigits m ++ xs = Text.natDigits n ++ ys) : m = n ∧ xs = ys := by
  have hdigits (k : Nat) : ∀ c ∈ Text.natDigits k, c.isDigit = true :=
    fun _ => Text.isDigit_of_mem_natDigits
  obtain ⟨hm, hxs⟩ := Json.takeWhile_append_of_head (hdigits m) hx
  obtain ⟨hn, hys⟩ := Json.takeWhile_append_of_head (hdigits n) hy
  have hsame : Text.natDigits m = Text.natDigits n := by rw [← hm, ← hn, h]
  have hread : some m = some n := by
    rw [← Text.readNat?_natDigits m, ← Text.readNat?_natDigits n, hsame]
  exact ⟨Option.some.inj hread, by rw [← hxs, ← hys, h]⟩

namespace Treatment

/-- The words for a blocked URL, with the number of the rule between marks. -/
theorem toList_text_blocked (rule : BlockRule) : (blocked rule).text.toList =
    "Blocked by rule #".toList ++
      (Text.natDigits rule.id.toNat ++ ' ' :: '(' :: (rule.pattern.toList ++ [')'])) := by
  have htext : (blocked rule).text =
      "Blocked by rule #" ++ rule.id.toNat.repr ++ " (" ++ rule.pattern ++ ")" := rfl
  have hopen : " (".toList = [' ', '('] := rfl
  have hclose : ")".toList = [')'] := rfl
  rw [htext, String.toList_append, String.toList_append, String.toList_append, String.toList_append,
    Nat.toList_repr, hopen, hclose, Text.natDigits]
  simp only [List.append_assoc, List.cons_append, List.nil_append]

/-- The words for a treatment begin with a letter of its own. -/
theorem head?_text (shown : Treatment) : shown.text.toList.head? = some (match shown with
    | blocked _ => 'B'
    | unmatched => 'N'
    | redirected _ _ => 'R'
    | targetless => 'M') := by
  cases shown with
  | blocked rule =>
    rw [toList_text_blocked]
    rfl
  | redirected pattern target =>
    have htext : (redirected pattern target).text =
        "Redirect by '" ++ pattern ++ "' to " ++ target := rfl
    rw [htext, String.append_assoc, String.append_assoc, String.toList_append]
    rfl
  | unmatched => rfl
  | targetless => rfl

/-- The words for blocked URLs tell the rules apart. -/
theorem rule_eq_of_text_eq {r rule : BlockRule} (h : (blocked r).text = (blocked rule).text) :
    r = rule := by
  have hlist := congrArg String.toList h
  rw [toList_text_blocked, toList_text_blocked] at hlist
  obtain ⟨hid, hrest⟩ := natDigits_append_inj (by simp) (by simp) (List.append_cancel_left hlist)
  have hpattern : r.pattern.toList = rule.pattern.toList := by simpa using hrest
  cases r
  cases rule
  simp_all [UInt32.toNat_inj, String.toList_inj]

/-- The words for a treatment without a target are used for no other treatment. -/
theorem text_eq_iff {shown : Treatment} (other : Treatment)
    (hother : ∀ pattern target, other ≠ redirected pattern target) :
    shown.text = other.text ↔ shown = other := by
  refine ⟨fun h => ?_, fun h => by rw [h]⟩
  have hhead := congrArg (fun words => words.toList.head?) h
  simp only [head?_text] at hhead
  cases shown with
  | blocked r =>
    cases other with
    | blocked rule => rw [rule_eq_of_text_eq h]
    | _ => exact absurd hhead (by simp)
  | unmatched =>
    cases other with
    | unmatched => rfl
    | _ => exact absurd hhead (by simp)
  | targetless =>
    cases other with
    | targetless => rfl
    | _ => exact absurd hhead (by simp)
  | redirected pattern target =>
    cases other with
    | redirected pattern' target' => exact absurd rfl (hother pattern' target')
    | _ => exact absurd hhead (by simp)

end Treatment

end NavPolicy.CommandLine
