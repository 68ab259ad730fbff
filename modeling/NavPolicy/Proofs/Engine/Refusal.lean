import NavPolicy.Agent.State
import NavPolicy.Proofs.Engine

/-!
# When the engine refuses an update

The engine does not look for numbers that repeat.  It counts: the table of the rules that it keeps and
adds is shorter than their list just when a number occurs twice (`Table.length_ofList_eq_iff`).  Only then
does it search the list for the number to name, so there always is one (`apply_of_not_nodup`).

An update that is put to the engine of an agent is thus refused exactly for a number that occurs twice;
a refusal leaves the engine as it was, and an accepted update leaves the kept and the added rules, none of
them lost (`update_refused_iff_repeated`).
-/

namespace NavPolicy

namespace Engine

/-! ## The number that a refusal names -/

/-- Whether a rule is the first of a list whose number occurs before it. -/
def IsFirstRepeated (rules : List BlockRule) (r : BlockRule) : Prop :=
  ∃ earlier later, rules = earlier ++ r :: later ∧
    (earlier.map BlockRule.id).Nodup ∧ r.id ∈ earlier.map BlockRule.id

/-- The search finds nothing just when the numbers are distinct and none of them was seen before. -/
theorem firstRepeated?_eq_none_iff {seen : List UInt32} {rules : List BlockRule} :
    firstRepeated? seen rules = none ↔
      (rules.map BlockRule.id).Nodup ∧ ∀ r ∈ rules, r.id ∉ seen := by
  induction rules generalizing seen with
  | nil => simp [firstRepeated?]
  | cons r rules ih =>
    rw [firstRepeated?, List.map_cons, List.nodup_cons, List.forall_mem_cons]
    by_cases hseen : r.id ∈ seen
    · simp [hseen]
    · rw [if_neg hseen, ih]
      constructor
      · rintro ⟨hnodup, hlater⟩
        refine ⟨⟨fun hr => ?_, hnodup⟩, hseen, fun s hs hmem => ?_⟩
        · obtain ⟨s, hs, hsr⟩ := List.mem_map.1 hr
          exact hlater s hs (by simp [hsr])
        · exact hlater s hs (List.mem_cons_of_mem _ hmem)
      · rintro ⟨⟨hr, hnodup⟩, -, hlater⟩
        refine ⟨hnodup, fun s hs hmem => ?_⟩
        rcases List.mem_cons.1 hmem with heq | hmem
        · exact hr (heq ▸ List.mem_map_of_mem hs)
        · exact hlater s hs hmem

/-- The search finds the number of the first rule whose number was seen before or occurs before it. -/
theorem exists_of_firstRepeated? {seen : List UInt32} {rules : List BlockRule} {id : UInt32}
    (h : firstRepeated? seen rules = some id) :
    ∃ earlier r later, rules = earlier ++ r :: later ∧ r.id = id ∧
      (earlier.map BlockRule.id).Nodup ∧ (∀ s ∈ earlier, s.id ∉ seen) ∧
      (r.id ∈ seen ∨ r.id ∈ earlier.map BlockRule.id) := by
  induction rules generalizing seen with
  | nil => exact absurd h (by simp [firstRepeated?])
  | cons r rules ih =>
    rw [firstRepeated?] at h
    by_cases hseen : r.id ∈ seen
    · rw [if_pos hseen] at h
      exact ⟨[], r, rules, rfl, Option.some.inj h, .nil, by simp, .inl hseen⟩
    · rw [if_neg hseen] at h
      obtain ⟨earlier, s, later, rfl, hid, hnodup, hearlier, hs⟩ := ih h
      have hr : r.id ∉ earlier.map BlockRule.id := by
        intro hmem
        obtain ⟨t, ht, htr⟩ := List.mem_map.1 hmem
        exact hearlier t ht (by simp [htr])
      refine ⟨r :: earlier, s, later, rfl, hid, ?_, ?_, ?_⟩
      · exact List.nodup_cons.2 ⟨hr, hnodup⟩
      · rw [List.forall_mem_cons]
        exact ⟨hseen, fun t ht hmem => hearlier t ht (List.mem_cons_of_mem _ hmem)⟩
      · -- the number of `r` counts as seen for the rules after it
        rw [List.map_cons, List.mem_cons]
        rcases hs with hs | hs
        · exact (List.mem_cons.1 hs).symm.imp_right .inl
        · exact .inr (.inr hs)

/-- Where numbers repeat there is a first rule whose number does, and the search finds that number. -/
theorem firstRepeated?_of_not_nodup {rules : List BlockRule}
    (h : ¬ (rules.map BlockRule.id).Nodup) :
    ∃ r, IsFirstRepeated rules r ∧ firstRepeated? [] rules = some r.id := by
  cases hfound : firstRepeated? [] rules with
  | none => exact absurd (firstRepeated?_eq_none_iff.1 hfound).1 h
  | some id =>
    obtain ⟨earlier, r, later, hrules, rfl, hnodup, -, hr⟩ := exists_of_firstRepeated? hfound
    exact ⟨r, ⟨earlier, later, hrules, hnodup, hr.resolve_left List.not_mem_nil⟩, rfl⟩

/-! ## Updates -/

/-- An update that would leave a number twice is refused for the first that does. -/
theorem apply_of_not_nodup {u : RuleUpdate} {e : Engine}
    (h : ¬ ((u.kept e.rules ++ u.additions).map BlockRule.id).Nodup) :
    ∃ r, IsFirstRepeated (u.kept e.rules ++ u.additions) r ∧
      e.apply u = .error (.repeatedId r.id) := by
  obtain ⟨r, hfirst, hfound⟩ := firstRepeated?_of_not_nodup h
  have hlen : (u.apply e.rules).length ≠ (u.kept e.rules ++ u.additions).length := by
    rw [RuleUpdate.apply_eq_ofList]
    exact mt Table.length_ofList_eq_iff.1 h
  refine ⟨r, hfirst, ?_⟩
  rw [apply, if_neg hlen, hfound, Option.getD_some]

/-- The rules after an update are the kept and the added ones, if their numbers are distinct. -/
theorem apply_perm_of_nodup {u : RuleUpdate} {rules : List BlockRule}
    (h : ((u.kept rules ++ u.additions).map BlockRule.id).Nodup) :
    (u.apply rules).Perm (u.kept rules ++ u.additions) := by
  rw [RuleUpdate.apply_eq_ofList]
  exact Table.ofList_perm h

end Engine

namespace Agent

variable {env : Surroundings}

/-- An engine without failures of its own takes an update if it can apply it. -/
theorem answer_update_of_ok (hworks : env.updateFault = none) {s : State} {u : RuleUpdate}
    {engine : Engine} (h : s.engine.apply u = .ok engine) :
    (Action.update u).answer env s =
      (.ok (), { s with engine, notices := s.notices ++ engine.refusals }) := by
  rw [Action.answer, hworks]
  dsimp only
  rw [h]

/-- An engine that cannot apply an update says why, and nothing changes. -/
theorem answer_update_of_error (hworks : env.updateFault = none) {s : State} {u : RuleUpdate}
    {e : EngineError} (h : s.engine.apply u = .error e) :
    (Action.update u).answer env s = (.error e, s) := by
  rw [Action.answer, hworks]
  dsimp only
  rw [h]

/-- Whatever an engine holds, and whatever is to be removed and added, an update is refused exactly if a
number occurs twice among the rules that are kept and then added.  The refusal names the number of the
first of them whose number occurs before it, and the engine holds the same rules and blocks the same URLs
as before.  If the update is accepted, the engine holds just the kept and the added rules, ascending in
their number. -/
theorem update_refused_iff_repeated (hworks : env.updateFault = none) (s : State) (u : RuleUpdate) :
    let all := u.kept s.engine.rules ++ u.additions
    let answer := ((Action.update u).answer env s).1
    let after := ((Action.update u).answer env s).2.engine
    ((∃ e, answer = .error e) ↔ ¬ (all.map BlockRule.id).Nodup) ∧
      (∀ e, answer = .error e →
        (∃ r, Engine.IsFirstRepeated all r ∧
          e.message = s!"Rule update rejected: duplicate rule id {r.id.toNat}") ∧
        after.rules = s.engine.rules ∧
        ∀ url, after.blockingRule? url = s.engine.blockingRule? url) ∧
      (answer = .ok () → after.rules.Perm all ∧ Table.Ascending BlockRule.id after.rules) := by
  intro all answer after
  by_cases hnodup : (all.map BlockRule.id).Nodup
  · have hanswer := answer_update_of_ok hworks (Engine.apply_of_nodup hnodup)
    have hok : answer = .ok () := congrArg Prod.fst hanswer
    have hrules : after.rules = u.apply s.engine.rules :=
      congrArg (fun t : Except EngineError Unit × State => t.2.engine.rules) hanswer
    refine ⟨?_, fun e he => ?_, fun _ => ?_⟩
    · simp [hok, hnodup]
    · exact absurd (hok.symm.trans he) (by simp)
    · rw [hrules]
      refine ⟨Engine.apply_perm_of_nodup hnodup, ?_⟩
      rw [RuleUpdate.apply_eq_ofList]
      exact Table.ascending_ofList _ _
  · obtain ⟨r, hfirst, happly⟩ := Engine.apply_of_not_nodup hnodup
    have hanswer := answer_update_of_error hworks happly
    have herror : answer = .error (.repeatedId r.id) := congrArg Prod.fst hanswer
    have hafter : after = s.engine := congrArg (fun t => t.2.engine) hanswer
    refine ⟨?_, fun e he => ?_, fun hok => ?_⟩
    · simp [herror, hnodup]
    · obtain rfl : EngineError.repeatedId r.id = e := Except.error.inj (herror.symm.trans he)
      exact ⟨⟨r, hfirst, rfl⟩, congrArg Engine.rules hafter, fun url => by rw [hafter]⟩
    · exact absurd (herror.symm.trans hok) (by simp)

/-- An update that adds a rule under an installed number, and between two others of one number, is refused
for the installed number, which is the first to come again. -/
theorem update_refused_iff_repeated_installed :
    let env := Surroundings.offline "no route" ⟨0, 0⟩
    let s := State.initial .empty (.holding [⟨1, "*ads*"⟩, ⟨2, "*old*"⟩])
    let u : RuleUpdate := .ofLists [2] [⟨3, "a"⟩, ⟨1, "b"⟩, ⟨3, "c"⟩]
    let after := ((Action.update u).answer env s).2.engine
    (∃ e, ((Action.update u).answer env s).1 = .error e) ∧
      ((Action.update u).answer env s).1 = .error (.repeatedId 1) ∧
      after.rules = [⟨1, "*ads*"⟩, ⟨2, "*old*"⟩] ∧
      after.blockingRule? "xold" = some ⟨2, "*old*"⟩ := by
  intro env s u after
  have hworks : env.updateFault = none := rfl
  obtain ⟨hrefused, hrefusal, -⟩ := update_refused_iff_repeated hworks s u
  have hanswer : ((Action.update u).answer env s).1 = .error (.repeatedId 1) := by decide
  obtain ⟨-, hrules, hblocking⟩ := hrefusal _ hanswer
  refine ⟨hrefused.2 (by decide), hanswer, hrules, ?_⟩
  rw [hblocking]
  decide

end Agent

end NavPolicy
