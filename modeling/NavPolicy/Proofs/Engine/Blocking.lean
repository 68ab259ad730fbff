import NavPolicy.Agent.State
import NavPolicy.Proofs.BlockRule.Replacement
import NavPolicy.Proofs.Pattern.Wildcard

/-!
# What the engine blocks

The engine keeps its rules and their patterns in two lists, which are only ever made together: an engine
that has taken an update holds the rules after it, each with the pattern of its text, and the rules ascend
in their number (`IsInOrder`).  No other action of an agent touches the engine, so this holds after every
program (`isInOrder_run`), however many updates it puts to the engine and whichever of them are refused.

Going through rules that ascend in their number finds the one of least number, so a URL is blocked by the
least of the rules whose pattern stands for it (`blocks_by_least`).
-/

namespace NavPolicy

/-! ## Rules and URLs -/

/-- Whether the text of a rule is within the limit and stands, as a pattern, for a URL from start to
end. -/
def BlockRule.Blocks (url : String) (r : BlockRule) : Prop :=
  r.pattern.utf8ByteSize ≤ 8192 ∧ Pattern.Denotes r.pattern.toList url.toList

instance (url : String) (r : BlockRule) : Decidable (r.Blocks url) :=
  inferInstanceAs (Decidable (_ ∧ _))

namespace Engine

/-- The pattern of a rule accepts the URLs that the rule blocks. -/
theorem any_pattern?_iff {url : String} {r : BlockRule} :
    ((pattern? r).any fun p => p.accepts url) = true ↔ r.Blocks url := by
  rw [pattern?, Pattern.compile]
  by_cases hsize : r.pattern.utf8ByteSize ≤ Pattern.maxBytes
  · rw [dif_pos hsize]
    have haccepts := Pattern.accepts_iff_denotes ⟨r.pattern, hsize⟩ url
    exact haccepts.trans ⟨fun h => ⟨hsize, h⟩, fun h => h.2⟩
  · rw [dif_neg hsize]
    exact iff_of_false Bool.false_ne_true fun h => hsize h.1

/-! ## Slots -/

/-- Whether a slot is that of a rule: it is empty just where the text of the rule is over the limit, and
otherwise holds the pattern of the text. -/
def IsSlotOf (r : BlockRule) (slot : Option Pattern) : Prop :=
  (slot = none ↔ 8192 < r.pattern.utf8ByteSize) ∧ ∀ p ∈ slot, p.source = r.pattern

theorem isSlotOf_pattern? (r : BlockRule) : IsSlotOf r (pattern? r) := by
  rw [pattern?, Pattern.compile]
  by_cases hsize : r.pattern.utf8ByteSize ≤ Pattern.maxBytes
  · rw [dif_pos hsize]
    refine ⟨iff_of_false nofun (Nat.not_lt.2 hsize), ?_⟩
    rintro p ⟨⟩
    rfl
  · rw [dif_neg hsize]
    exact ⟨iff_of_true rfl (Nat.not_le.1 hsize), nofun⟩

/-- The slots of an engine are those of its rules, each at the place of its rule. -/
theorem forall₂_isSlotOf (rules : List BlockRule) :
    List.Forall₂ IsSlotOf (holding rules).rules (holding rules).patterns := by
  refine List.forall₂_map_right_iff.2 ?_
  exact List.forall₂_same.2 fun r _ => isSlotOf_pattern? r

/-! ## Engines in order -/

/-- Whether an engine has its rules ascending in their number, and with them their patterns. -/
structure IsInOrder (e : Engine) : Prop where
  ascending : Table.Ascending BlockRule.id e.rules
  eq_holding : e = holding e.rules

theorem isInOrder_empty : IsInOrder empty := ⟨.nil, rfl⟩

/-- An engine that has taken an update is in order. -/
theorem isInOrder_of_apply {u : RuleUpdate} {e e' : Engine} (h : e.apply u = .ok e') :
    IsInOrder e' := by
  obtain rfl := eq_holding_of_apply h
  refine ⟨?_, rfl⟩
  show Table.Ascending BlockRule.id (u.apply e.rules)
  rw [RuleUpdate.apply_eq_ofList]
  exact Table.ascending_ofList _ _

variable {e : Engine}

/-- An engine in order blocks a URL by the first of its rules that does. -/
theorem IsInOrder.blockingRule?_eq (h : e.IsInOrder) (url : String) :
    e.blockingRule? url = e.rules.find? fun r => r.Blocks url := by
  have hfirst := blockingRule?_holding e.rules url
  rw [← h.eq_holding] at hfirst
  simpa only [← any_pattern?_iff, Bool.decide_eq_true] using hfirst

/-- The first rule of an engine in order that blocks a URL is the least that does. -/
theorem IsInOrder.blockingRule?_eq_some_iff (h : e.IsInOrder) {url : String} {r : BlockRule} :
    e.blockingRule? url = some r ↔
      r ∈ e.rules ∧ r.Blocks url ∧ ∀ s ∈ e.rules, s.Blocks url → r.id ≤ s.id := by
  rw [h.blockingRule?_eq, h.ascending.search_eq_some_iff]
  simp only [decide_eq_true_iff]

/-- An engine in order blocks a URL unless none of its rules does. -/
theorem IsInOrder.blockingRule?_eq_none_iff (h : e.IsInOrder) {url : String} :
    e.blockingRule? url = none ↔ ∀ r ∈ e.rules, ¬ r.Blocks url := by
  rw [h.blockingRule?_eq, List.find?_eq_none]
  simp only [decide_eq_true_iff]

end Engine

namespace Agent

variable {α : Type} (env : Surroundings)

/-- No action takes the engine out of order. -/
theorem isInOrder_answer (a : Action) {s : State} (h : s.engine.IsInOrder) :
    (a.answer env s).2.engine.IsInOrder := by
  cases a with
  | update u =>
    rw [Action.answer]
    split
    · exact h
    · split
      · next happly => exact Engine.isInOrder_of_apply happly
      · exact h
  | read key => rw [Action.answer]; split <;> exact h
  | write key text => rw [Action.answer]; cases env.writeFault key <;> exact h
  | erase key => rw [Action.answer]; cases env.writeFault key <;> exact h
  | listRules => rw [Action.answer]; split <;> exact h
  | redirect o => rw [Action.answer]; split <;> exact h
  | _ => exact h

/-- No program takes the engine out of order. -/
theorem isInOrder_run (p : Program α) {s : State} (h : s.engine.IsInOrder) :
    (p.run env s).2.engine.IsInOrder := by
  induction p generalizing s with
  | done x => exact h
  | ask a next ih => exact ih _ (isInOrder_answer env a h)

/-- After every program on an engine that was empty, whatever updates it puts to the engine and whichever
of them are refused, the rules in force ascend in their number, each rule has its own slot with the pattern
of its text, empty just where the text is over the limit, and a URL is blocked by the rule of least number
whose pattern is within the limit and stands for the whole URL, or by none if there is no such rule. -/
theorem blocks_by_least (p : Program α) (s : State) :
    let e := (p.run env { s with engine := .empty }).2.engine
    Table.Ascending BlockRule.id e.rules ∧ List.Forall₂ Engine.IsSlotOf e.rules e.patterns ∧
      ∀ url,
        (∀ r, e.blockingRule? url = some r ↔
          r ∈ e.rules ∧ r.Blocks url ∧ ∀ t ∈ e.rules, t.Blocks url → r.id ≤ t.id) ∧
        (e.blockingRule? url = none ↔ ∀ r ∈ e.rules, ¬ r.Blocks url) := by
  intro e
  have horder : e.IsInOrder := isInOrder_run env p Engine.isInOrder_empty
  refine ⟨horder.ascending, ?_, fun url => ⟨fun r => ?_, ?_⟩⟩
  · rw [horder.eq_holding]
    exact Engine.forall₂_isSlotOf e.rules
  · exact horder.blockingRule?_eq_some_iff
  · exact horder.blockingRule?_eq_none_iff

/-- A program that puts an update to the empty engine, which is taken, and then one that repeats a number, which
is refused: the rules of the first stay in force, and of the three that stand for a URL the least blocks it. -/
theorem blocks_by_least_refusal :
    let env := Surroundings.offline "no route" ⟨0, 0⟩
    let taken := RuleUpdate.ofLists []
      [⟨7, "*shop*"⟩, ⟨5, "*.example/*"⟩, ⟨6, "https://*"⟩, ⟨2, "*/ads/*"⟩]
    let refused := RuleUpdate.ofLists [2] [⟨6, "*"⟩, ⟨1, "*"⟩]
    let p : Program (List (Except EngineError Unit)) := do
      let first ← Program.perform (.update taken)
      let second ← Program.perform (.update refused)
      return [first, second]
    let r := p.run env { State.initial .empty .empty with engine := .empty }
    r.1 = [.ok (), .error (.repeatedId 6)] ∧ r.2.engine.rules.map BlockRule.id = [2, 5, 6, 7] ∧
      r.2.engine.blockingRule? "https://shop.example/" = some ⟨5, "*.example/*"⟩ ∧
      r.2.engine.blockingRule? "http://other.test/" = none := by
  intro env taken refused p r
  obtain ⟨-, -, hblocks⟩ := blocks_by_least env p (.initial .empty .empty)
  refine ⟨by decide +kernel, by decide +kernel, ((hblocks _).1 _).2 ?_, (hblocks _).2.2 ?_⟩
  · decide +kernel
  · decide +kernel

end Agent

end NavPolicy
