import NavPolicy.Proofs.Agent.Navigating

/-!
# What resolving asks for

A walk along candidates asks the remote pages before the first inline document, one after the other, and
stops at the first that answers (`Candidate.IsFrugal`).  Resolving is such a walk, with the answers that
the pages give call by call, and nothing of it is kept: run again, it walks again from the start, with the
answers to the calls that come next (`resolve_probes_afresh`).
-/

namespace NavPolicy

namespace Candidate

/-! ## Walks -/

/-- The remote pages that come before the first inline document. -/
def pages (candidates : List Candidate) : List String :=
  (candidates.takeWhile needsProbe).map url

/-- The first inline document. -/
def document? (candidates : List Candidate) : Option String :=
  (candidates.find? fun c => !c.needsProbe).map url

/-- Whether none of some pages answers, asked one after the other when so many were asked before. -/
def Silent (answers : Nat → String → Bool) (count : Nat) (pages : List String) : Prop :=
  ∀ i (hi : i < pages.length), answers (count + i) pages[i] = false

/-- Whether a walk asks no page that it need not ask. -/
inductive IsFrugal (answers : Nat → String → Bool) (count : Nat) (candidates : List Candidate) :
    Walk → Prop
  /-- The walk ends at the first page that answers, before any inline document. -/
  | answered {silent later : List String} {page : String} (notices : List Notice) :
      pages candidates = silent ++ page :: later → Silent answers count silent →
      answers (count + silent.length) page = true →
      IsFrugal answers count candidates ⟨some page, silent ++ [page], notices⟩
  /-- No page before the first inline document answers, and the walk ends there. -/
  | unanswered (notices : List Notice) :
      Silent answers count (pages candidates) →
      IsFrugal answers count candidates ⟨document? candidates, pages candidates, notices⟩

variable {answers : Nat → String → Bool} {count : Nat}

theorem pages_inline (url : String) (rest : List Candidate) : pages (inline url :: rest) = [] := rfl

theorem pages_remote (url : String) (rest : List Candidate) :
    pages (remote url :: rest) = url :: pages rest := rfl

theorem document?_inline (url : String) (rest : List Candidate) :
    document? (inline url :: rest) = some url := rfl

theorem document?_remote (url : String) (rest : List Candidate) :
    document? (remote url :: rest) = document? rest := rfl

theorem silent_nil : Silent answers count [] := nofun

/-- A page that does not answer is one more silent page. -/
theorem Silent.cons {page : String} {pages : List String} (hpage : answers count page = false)
    (h : Silent answers (count + 1) pages) : Silent answers count (page :: pages) := by
  intro i hi
  cases i with
  | zero => exact hpage
  | succ i =>
    have hlater := h i (Nat.lt_of_succ_lt_succ hi)
    rwa [Nat.add_assoc, Nat.add_comm 1 i] at hlater

/-- A walk to the first usable candidate asks no page that it need not ask. -/
theorem isFrugal_firstUsable (candidates : List Candidate) :
    IsFrugal answers count candidates (firstUsable answers count candidates) := by
  induction candidates generalizing count with
  | nil => exact .unanswered [] silent_nil
  | cons candidate rest ih =>
    cases candidate with
    | inline url =>
      rw [firstUsable, ← document?_inline url rest, ← pages_inline url rest]
      exact .unanswered [] silent_nil
    | remote url =>
      rw [firstUsable]
      by_cases hurl : answers count url = true
      · rw [if_pos hurl]
        exact .answered [] (pages_remote url rest) silent_nil hurl
      · rw [if_neg hurl]
        have hsilent : answers count url = false := Bool.eq_false_iff.2 hurl
        have hlater : IsFrugal answers (count + 1) rest (firstUsable answers (count + 1) rest) := ih
        dsimp only
        generalize firstUsable answers (count + 1) rest = walk at hlater ⊢
        cases hlater with
        | @answered silent later page notices hpages hbefore hpage =>
          have hchain : pages (remote url :: rest) = url :: silent ++ page :: later := by
            rw [pages_remote, hpages, List.cons_append]
          refine .answered _ hchain (hbefore.cons hsilent) ?_
          rwa [List.length_cons, Nat.add_comm silent.length 1, ← Nat.add_assoc]
        | unanswered notices hbefore =>
          rw [← document?_remote url rest, ← pages_remote url rest]
          exact .unanswered _ (hbefore.cons hsilent)

/-- A frugal walk asks the pages before the first inline document, from the first on. -/
theorem IsFrugal.tried_prefix {candidates : List Candidate} {walk : Walk}
    (h : IsFrugal answers count candidates walk) : walk.tried <+: pages candidates := by
  cases h with
  | @answered silent later page notices hpages _ _ =>
    exact ⟨later, by rw [hpages, List.append_assoc, List.singleton_append]⟩
  | unanswered notices _ => exact List.prefix_refl _

/-! ## Walks along the chain of two destinations -/

variable (own fallback : Destination)

/-- The pages of a chain: that of the fallback is one of them only if there is no inline document
before it. -/
theorem pages_chain : pages (own.chain fallback) =
    own.remote?.toList ++ if own.inline?.isSome then [] else fallback.remote?.toList := by
  rw [Destination.chain, Destination.candidates, Destination.candidates]
  cases own.remote? <;> cases own.inline? <;> cases fallback.remote? <;>
    cases fallback.inline? <;> rfl

/-- There are two pages in a chain at most. -/
theorem length_pages_chain_le : (pages (own.chain fallback)).length ≤ 2 := by
  have hone (page? : Option String) : page?.toList.length ≤ 1 := by cases page? <;> simp
  have hown := hone own.remote?
  have hfallback := hone fallback.remote?
  rw [pages_chain, List.length_append]
  split
  · rw [List.length_nil]
    omega
  · omega

/-! ## Walks one after the other -/

/-- So many walks along the same candidates, each with the answers that follow those to the walks before
it. -/
def walks (answers : Nat → String → Bool) (candidates : List Candidate) : Nat → Nat → List Walk
  | 0, _ => []
  | n + 1, count =>
    let walk := firstUsable answers count candidates
    walk :: walks answers candidates n (count + walk.tried.length)

theorem length_walks (candidates : List Candidate) (n count : Nat) :
    (walks answers candidates n count).length = n := by
  induction n generalizing count with
  | zero => rfl
  | succ n ih => exact congrArg (· + 1) (ih _)

/-- Each walk begins anew, after as many calls as the walks before it have made. -/
theorem getElem_walks (candidates : List Candidate) (n count i : Nat)
    (hi : i < (walks answers candidates n count).length) :
    (walks answers candidates n count)[i] = firstUsable answers
      (count + (((walks answers candidates n count).take i).flatMap Walk.tried).length)
      candidates := by
  induction n generalizing count i with
  | zero => exact absurd hi (Nat.not_lt_zero i)
  | succ n ih =>
    cases i with
    | zero => rfl
    | succ i =>
      have hlater := ih (count + (firstUsable answers count candidates).tried.length) i
        (Nat.lt_of_succ_lt_succ hi)
      rw [Nat.add_assoc, ← List.length_append] at hlater
      exact hlater

end Candidate

namespace Agent

/-- Runs a program so many times, one after the other. -/
def Program.times {α : Type} (p : Program α) : Nat → Program (List α)
  | 0 => return []
  | n + 1 => do
    let x ← p
    let xs ← p.times n
    return x :: xs

variable {env : Surroundings} {x : Enforcement}

/-- Resolving so many times is walking so many times, with a target for each walk. -/
theorem gives_times_resolve (c : Config) (candidates : List Candidate) (n : Nat) :
    let walks := Candidate.walks env.answers candidates n x.probed.length
    ((resolve c candidates).times n).Gives env x (walks.map Walk.target)
      (x.probing (walks.flatMap Walk.tried)) := by
  induction n generalizing x with
  | zero =>
    have hempty : x.probing [] = x := by rw [Enforcement.probing, List.append_nil]
    intro walks
    show Program.Gives env (pure []) x [] (x.probing [])
    rw [hempty]
    exact .pure [] x
  | succ n ih =>
    intro walks
    refine .bind (gives_resolve c candidates) (.bind ih ?_)
    rw [length_probed_probing, probing_probing]
    exact .pure _ _

/-- Run any number of times on the chain of two destinations, whatever the pages answer call by call,
resolving gives each time the target of a walk along the chain with the answers to its own calls.  Its
calls ask the pages before the first inline document in turn, up to the first that answers: two at most,
and only the own page where there is an own inline document. -/
theorem resolve_probes_afresh (c : Config) (env : Surroundings) (own fallback : Destination) (n : Nat)
    (s : State) :
    let chain := own.chain fallback
    let resolved := ((resolve c chain).times n).run env s
    ∃ walks : List Walk, walks.length = n ∧ resolved.1 = walks.map Walk.target ∧
      resolved.2.probed = s.probed ++ walks.flatMap Walk.tried ∧
      ∀ i (hi : i < walks.length),
        let count := s.probed.length + ((walks.take i).flatMap Walk.tried).length
        walks[i] = Candidate.firstUsable env.answers count chain ∧
          Candidate.IsFrugal env.answers count chain walks[i] ∧
          walks[i].tried.length ≤ 2 ∧
          (own.inline?.isSome = true → walks[i].tried <+: own.remote?.toList) := by
  intro chain resolved
  have hgives : ((resolve c chain).times n).Gives env s.enforcement _ _ :=
    gives_times_resolve c chain n
  obtain ⟨htargets, hafter⟩ := hgives s rfl
  refine ⟨_, Candidate.length_walks chain n _, htargets, congrArg Enforcement.probed hafter, ?_⟩
  intro i hi count
  have hwalk : (Candidate.walks env.answers chain n s.probed.length)[i] =
      Candidate.firstUsable env.answers count chain := Candidate.getElem_walks chain n _ i hi
  have hfrugal : Candidate.IsFrugal env.answers count chain
      (Candidate.firstUsable env.answers count chain) := Candidate.isFrugal_firstUsable chain
  rw [← hwalk] at hfrugal
  refine ⟨hwalk, hfrugal, ?_, fun hinline => ?_⟩
  · exact Nat.le_trans hfrugal.tried_prefix.length_le (Candidate.length_pages_chain_le own fallback)
  · have hprefix := hfrugal.tried_prefix
    rwa [Candidate.pages_chain, if_pos hinline, List.append_nil] at hprefix

/-- Three runs on a chain of two pages and a document, where the first page answers only in the third run and the
second one only in the first: it is asked afresh each time. -/
theorem resolve_probes_afresh_silent_page :
    let env : Surroundings :=
      { Surroundings.offline "no route" ⟨0, 0⟩ with
        page := fun n _ => if n = 1 ∨ n = 4 then some (.ok ()) else none }
    let chain := Destination.chain ⟨none, some "p"⟩ ⟨some "x", some "q"⟩
    let resolved := ((resolve .default chain).times 3).run env (.initial .empty .empty)
    resolved.1 = [some "q", some (inlineUrl "x"), some "p"] ∧
      resolved.2.probed = ["p", "q", "p", "q", "p"] := by
  intro env chain resolved
  obtain ⟨walks, hlength, htargets, hprobed, hwalks⟩ :=
    resolve_probes_afresh .default env ⟨none, some "p"⟩ ⟨some "x", some "q"⟩ 3 (.initial .empty .empty)
  obtain ⟨w₀, w₁, w₂, rfl⟩ := List.length_eq_three.1 hlength
  -- each walk is found from the number of calls before it
  have h₀ : w₀.target = some "q" ∧ w₀.tried = ["p", "q"] := by
    rw [show w₀ = Candidate.firstUsable env.answers 0 chain from (hwalks 0 (show 0 < 3 by decide)).1]
    decide +kernel
  have h₁ : w₁.target = some (inlineUrl "x") ∧ w₁.tried = ["p", "q"] := by
    have hwalk : w₁ = Candidate.firstUsable env.answers (0 + (w₀.tried ++ []).length) chain :=
      (hwalks 1 (show 1 < 3 by decide)).1
    rw [hwalk, h₀.2]
    decide +kernel
  have h₂ : w₂.target = some "p" ∧ w₂.tried = ["p"] := by
    have hwalk : w₂ = Candidate.firstUsable env.answers (0 + (w₀.tried ++ (w₁.tried ++ [])).length) chain :=
      (hwalks 2 (show 2 < 3 by decide)).1
    rw [hwalk, h₀.2, h₁.2]
    decide +kernel
  refine ⟨htargets.trans ?_, hprobed.trans ?_⟩
  · show [w₀.target, w₁.target, w₂.target] = _
    rw [h₀.1, h₁.1, h₂.1]
  · show [] ++ (w₀.tried ++ (w₁.tried ++ (w₂.tried ++ []))) = _
    rw [h₀.2, h₁.2, h₂.2]
    rfl

end Agent

end NavPolicy
