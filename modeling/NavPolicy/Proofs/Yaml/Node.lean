import NavPolicy.Proofs.Json.RoundTrip
import NavPolicy.Yaml.Value

/-!
# Tokens read as nodes, and nodes as values

`Reader.Delivers` says of tokens that the reader makes a node of them wherever one is awaited, and `Node.Means`
of a node that it means a value wherever its collections may still be nested deep enough.  Both hold of flow
collections whenever they hold of the members.
-/

namespace NavPolicy.Yaml

namespace Reader

/-- Whether a node is awaited that has no properties yet and is no key: as a value or as an item. -/
def Awaits (r : Reader) : Prop :=
  r.stage = .node .none ∨
    (r.stage = .member ∧ ∃ props done frames, r.frames = .flowItems props done :: frames)

/-- Whether tokens write a node wherever one is awaited. -/
def Delivers (ts : List Token) (node : Node) : Prop :=
  ∀ (r : Reader) (rest : List Token), r.Awaits → r.run (ts ++ rest) = (r.deliver node).run rest

/-- A token that begins a node does so wherever one is awaited. -/
theorem step_of_awaits {r : Reader} (h : r.Awaits) {t : Token} (hkey : t ≠ .key)
    (hend : t ≠ .flowSequenceEnd) : r.step t = r.stepNode .none t := by
  obtain ⟨stage, frames, names, marked⟩ := r
  rcases h with hstage | ⟨hstage, props, done, outer, hframes⟩
  · obtain rfl : stage = _ := hstage
    rfl
  · obtain rfl : stage = _ := hstage
    obtain rfl : frames = _ := hframes
    cases t <;> first | rfl | contradiction

theorem run_cons {r r' : Reader} {t : Token} (h : r.step t = .ok r') (ts : List Token) :
    r.run (t :: ts) = r'.run ts := by
  rw [run, h]

/-- A scalar writes itself. -/
theorem delivers_scalar (style : ScalarStyle) (text : String) :
    Delivers [.scalar style text] (.scalar .none style text) := by
  intro r rest h
  exact run_cons (step_of_awaits h (by simp) (by simp)) rest

section Collections

variable {frames : List Frame} {names : Names} {marked : Bool}

/-- The items of a flow sequence are added to those before them, up to the closing bracket. -/
theorem run_items {tokenss : List (List Token)} {nodes : List Node}
    (h : List.Forall₂ Delivers tokenss nodes) (done : List Node) (rest : List Token) :
    (⟨.member, .flowItems .none done :: frames, names, marked⟩ : Reader).run
        (Json.separated [.flowEntry] tokenss ++ .flowSequenceEnd :: rest) =
      (deliver ⟨.mark, frames, names, marked⟩ (.sequence .none (done.reverse ++ nodes))).run rest := by
  have hawaits (done : List Node) :
      (⟨.member, .flowItems .none done :: frames, names, marked⟩ : Reader).Awaits :=
    .inr ⟨rfl, _, _, _, rfl⟩
  induction h generalizing done with
  | nil =>
    rw [List.append_nil]
    rfl
  | @cons ts node tokenss nodes hfirst hrest ih =>
    cases hrest with
    | nil =>
      rw [Json.separated, hfirst _ _ (hawaits done), ← List.reverse_cons]
      rfl
    | @cons us second tokenss nodes hsecond hlater =>
      rw [Json.separated, List.append_assoc, List.append_assoc, hfirst _ _ (hawaits done)]
      refine (ih (node :: done)).trans ?_
      rw [List.reverse_cons, List.append_assoc]
      rfl

/-- Whether tokens write an entry of a flow mapping wherever one may start. -/
def DeliversEntry (ts : List Token) (entry : Node × Node) : Prop :=
  ∀ (done : List (Node × Node)) (frames : List Frame) (names : Names) (marked keyMarked : Bool)
    (rest : List Token),
    (⟨.member, .flowEntries .none done none keyMarked :: frames, names, marked⟩ : Reader).run
        (ts ++ rest) =
      (⟨.mark, .flowEntries .none (entry :: done) none false :: frames, names, marked⟩ : Reader).run
        rest

/-- A key with its mark and a value with its mark write an entry. -/
theorem Delivers.entry {ts : List Token} {node : Node} (h : Delivers ts node) (style : ScalarStyle)
    (name : String) :
    DeliversEntry (.key :: .scalar style name :: .value :: ts) (.scalar .none style name, node) := by
  intro done frames names marked keyMarked rest
  exact h ⟨.node .none, .flowEntries .none done (some (.scalar .none style name)) true :: frames,
    names, marked⟩ rest (.inl rfl)

/-- The entries of a flow mapping are added to those before them, up to the closing brace. -/
theorem run_entries {tokenss : List (List Token)} {entries : List (Node × Node)}
    (h : List.Forall₂ DeliversEntry tokenss entries) (done : List (Node × Node)) (keyMarked : Bool)
    (rest : List Token) :
    (⟨.member, .flowEntries .none done none keyMarked :: frames, names, marked⟩ : Reader).run
        (Json.separated [.flowEntry] tokenss ++ .flowMappingEnd :: rest) =
      (deliver ⟨.mark, frames, names, marked⟩ (.mapping .none (done.reverse ++ entries))).run rest := by
  induction h generalizing done keyMarked with
  | nil =>
    rw [List.append_nil]
    rfl
  | @cons ts entry tokenss entries hfirst hrest ih =>
    cases hrest with
    | nil =>
      rw [Json.separated, hfirst, ← List.reverse_cons]
      rfl
    | @cons us second tokenss entries hsecond hlater =>
      rw [Json.separated, List.append_assoc, List.append_assoc, hfirst]
      refine (ih (entry :: done) false).trans ?_
      rw [List.reverse_cons, List.append_assoc]
      rfl

end Collections

/-- Nodes between brackets write a sequence. -/
theorem delivers_sequence {tokenss : List (List Token)} {nodes : List Node}
    (h : List.Forall₂ Delivers tokenss nodes) :
    Delivers (.flowSequenceStart :: (Json.separated [.flowEntry] tokenss ++ [.flowSequenceEnd]))
      (.sequence .none nodes) := by
  intro r rest hr
  rw [List.cons_append, List.append_assoc, List.singleton_append]
  have hstep : r.step .flowSequenceStart = .ok (r.openFrame .member (.flowItems .none [])) :=
    step_of_awaits hr (by simp) (by simp)
  rw [run_cons hstep]
  exact run_items h [] rest

/-- Entries between braces write a mapping. -/
theorem delivers_mapping {tokenss : List (List Token)} {entries : List (Node × Node)}
    (h : List.Forall₂ DeliversEntry tokenss entries) :
    Delivers (.flowMappingStart :: (Json.separated [.flowEntry] tokenss ++ [.flowMappingEnd]))
      (.mapping .none entries) := by
  intro r rest hr
  rw [List.cons_append, List.append_assoc, List.singleton_append]
  have hstep : r.step .flowMappingStart =
      .ok (r.openFrame .member (.flowEntries .none [] none false)) :=
    step_of_awaits hr (by simp) (by simp)
  rw [run_cons hstep]
  exact run_entries h [] false rest

end Reader

/-- Tokens that write a mapping and then end write a document. -/
theorem Document.ofTokens_of_delivers {ts : List Token} {node : Node}
    (h : Reader.Delivers (.flowMappingStart :: ts) node) :
    Document.ofTokens (.flowMappingStart :: ts ++ [.streamEnd]) = .ok ⟨some node⟩ := by
  have hrun : (⟨.node .none, [], Names.initial, false⟩ : Reader).run
      (.flowMappingStart :: ts ++ [.streamEnd]) =
        .ok ⟨.finished node, [], Names.initial, false⟩ := by
    rw [h _ _ (.inl rfl)]
    rfl
  have hne : Token.flowMappingStart :: ts ++ [.streamEnd] ≠ [.streamEnd] := by simp
  simp only [ofTokens, if_neg hne]
  show ((⟨.node .none, [], Names.initial, false⟩ : Reader).run
    (.flowMappingStart :: ts ++ [.streamEnd]) >>= _) = _
  rw [hrun]
  rfl

/-! ## What nodes mean -/

/-- Whether a node means a value in which collections are nested up to a height, whatever document it
stands in. -/
def Node.Means (node : Node) (v : Value) (height : Nat) : Prop :=
  ∀ (d : Document) (most depth followed : Nat), height ≤ depth →
    (Value.build d most depth node).run followed = .ok (v, followed)

/-- A computation that follows no alias goes on with what it gives. -/
theorem run_bind_of_ok {α β : Type} {x : Value.Following α} {f : α → Value.Following β} {a : α}
    {followed : Nat} (h : x.run followed = .ok (a, followed)) :
    (x >>= f).run followed = (f a).run followed := by
  rw [StateT.run_bind, h]
  rfl

namespace Node

/-- A scalar means the value of its text, at any depth. -/
theorem means_scalar {props : Properties} {style : ScalarStyle} {text : String} {v : Value}
    (h : Value.ofScalar props style text = .ok v) (height : Nat) :
    (Node.scalar props style text).Means v height := by
  intro d most depth followed _
  have hnode (value : Option (Node → Value.Following Value)) :
      (Value.ofNode value (.scalar props style text)).run followed = .ok (v, followed) := by
    show (Value.ofScalar props style text >>= _) = _
    rw [h]
    rfl
  cases depth with
  | zero => exact hnode none
  | succ depth => exact hnode (some (Value.build d most depth))

variable {height : Nat}

/-- A sequence means the values of its items. -/
theorem means_sequence {nodes : List Node} {vs : List Value}
    (h : List.Forall₂ (fun node v => node.Means v height) nodes vs) :
    (Node.sequence .none nodes).Means (.sequence vs) (height + 1) := by
  intro d most depth followed hdepth
  obtain ⟨depth, rfl⟩ : ∃ n, depth = n + 1 := ⟨depth - 1, by omega⟩
  have hitems : (nodes.mapM (Value.build d most depth)).run followed = .ok (vs, followed) := by
    induction h with
    | nil => rfl
    | cons hnode hnodes ih =>
      rw [List.mapM_cons, run_bind_of_ok (hnode d most depth followed (by omega)), run_bind_of_ok ih]
      rfl
  show ((nodes.mapM (Value.build d most depth)).run followed >>= _) = _
  rw [hitems]
  rfl

/-- Whether the nodes of an entry mean a text and a value. -/
def EntryMeans (entry : Node × Node) (named : String × Value) (height : Nat) : Prop :=
  entry.1.Means (.string named.1) height ∧ entry.2.Means named.2 height

/-- The entries of a mapping under texts. -/
def Named (named : List (String × Value)) : List (Value × Value) :=
  named.map fun (name, v) => (.string name, v)

/-- An entry under a new text comes after those there are. -/
theorem run_addEntry {entry : Node × Node} {f : String × Value} (h : EntryMeans entry f height)
    {done : List (String × Value)} (hnew : f.1 ∉ done.map Prod.fst) {d : Document}
    {most depth followed : Nat} (hdepth : height ≤ depth) :
    (Value.addEntry (Value.build d most depth) (Named done) entry).run followed =
      .ok (Named (done ++ [f]), followed) := by
  obtain ⟨hkey, hvalue⟩ := h
  have hfresh : ((Named done).any fun entry => Value.same entry.1 (.string f.1)) = false := by
    rw [List.any_eq_false, Named, List.forall_mem_map]
    intro g hg
    have hne : g.1 ≠ f.1 := fun heq => hnew (heq ▸ List.mem_map_of_mem (f := Prod.fst) hg)
    simp [Value.same, hne]
  rw [Value.addEntry, run_bind_of_ok (hkey d most depth followed hdepth)]
  simp only [hfresh]
  refine (run_bind_of_ok (hvalue d most depth followed hdepth)).trans ?_
  rw [Named, Named, List.map_append]
  rfl

/-- Entries under new texts that differ come one after the other, after those there are. -/
theorem run_addEntries {entries : List (Node × Node)} {named : List (String × Value)}
    (h : List.Forall₂ (fun entry named => EntryMeans entry named height) entries named)
    (done : List (String × Value)) (hnodup : ((done ++ named).map Prod.fst).Nodup) {d : Document}
    {most depth followed : Nat} (hdepth : height ≤ depth) :
    (entries.foldlM (Value.addEntry (Value.build d most depth)) (Named done)).run followed =
      .ok (Named (done ++ named), followed) := by
  induction h generalizing done with
  | nil =>
    rw [List.append_nil]
    rfl
  | @cons entry f entries named hentry hlater ih =>
    have hnew : f.1 ∉ done.map Prod.fst := by
      rw [List.map_append, List.map_cons, List.nodup_append] at hnodup
      exact fun hmem => hnodup.2.2 _ hmem _ List.mem_cons_self rfl
    rw [List.append_cons] at hnodup ⊢
    rw [List.foldlM_cons, run_bind_of_ok (run_addEntry hentry hnew hdepth), ih _ hnodup]

/-- A mapping means the values of its entries, if no two of its keys are the same text. -/
theorem means_mapping {entries : List (Node × Node)} {named : List (String × Value)}
    (h : List.Forall₂ (fun entry named => EntryMeans entry named height) entries named)
    (hnodup : (named.map Prod.fst).Nodup) :
    (Node.mapping .none entries).Means (.mapping (Named named)) (height + 1) := by
  intro d most depth followed hdepth
  obtain ⟨depth, rfl⟩ : ∃ n, depth = n + 1 := ⟨depth - 1, by omega⟩
  have hentries : (entries.foldlM (Value.addEntry (Value.build d most depth)) (Named [])).run followed =
      .ok (Named named, followed) := run_addEntries h [] hnodup (by omega)
  show ((entries.foldlM (Value.addEntry (Value.build d most depth)) (Named [])).run followed >>= _) = _
  rw [hentries]
  rfl

end Node

end NavPolicy.Yaml
