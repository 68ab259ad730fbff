import Mathlib.Data.List.Forall2
import NavPolicy.Proofs.Yaml.Flow
import NavPolicy.Proofs.Yaml.Node

/-!
# Compact JSON read as YAML

A JSON value is read as a YAML value (`ReadAs`) if its compact text is read as tokens, these as a node, and this
as the value.  Texts and truth values are read so, and arrays and objects if their members are; for objects the
names have to be short enough for keys and different from each other.
-/

namespace NavPolicy.Yaml

open Json (separated)

/-! ## Compact texts -/

theorem itemTokens_eq (items : List Json.Value) : Json.itemTokens items = items.map Json.Value.tokens := by
  induction items with
  | nil => rfl
  | cons v vs ih => rw [Json.itemTokens, ih, List.map_cons]

/-- The compact text of an array consists of those of its items. -/
theorem compactChars_array (items : List Json.Value) : (Json.Value.array items).compactChars =
    '[' :: (separated [','] (items.map Json.Value.compactChars) ++ [']']) := by
  rw [Json.Value.compactChars, Json.Value.tokens, ← Json.writeTokens, Json.writeTokens_enclosed,
    itemTokens_eq, List.map_map]
  rfl

/-- The compact text of a field. -/
def fieldChars (f : String × Json.Value) : List Char :=
  Json.writeText (some f.1) ++ ':' :: f.2.compactChars

/-- The compact text of an object consists of those of its fields. -/
theorem compactChars_record (fields : List (String × Json.Value)) :
    (Json.Value.record fields).compactChars =
      '\x7b' :: (separated [','] (fields.map fieldChars) ++ ['\x7d']) := by
  have htokens : (Json.fieldTokens (fields.map fun f => (some f.1, f.2))).map Json.writeTokens =
      fields.map fieldChars := by
    induction fields with
    | nil => rfl
    | cons f fields ih =>
      rw [List.map_cons, Json.fieldTokens, List.map_cons, ih, List.map_cons]
      rfl
  rw [Json.Value.compactChars, Json.Value.record, Json.Value.tokens, ← Json.writeTokens,
    Json.writeTokens_enclosed, htokens]
  rfl

/-! ## Values that mean the same in both languages -/

/-- Whether the compact text of a JSON value is read as a YAML value, with collections nested up to a height,
wherever it stands inside flow collections. -/
structure ReadAs (v : Json.Value) (y : Value) (height : Nat) : Prop where
  printable : ∀ c ∈ v.compactChars, IsPrintable c
  read : ∃ ts node, (∀ keyAllowed, Lexer.Yields keyAllowed v.compactChars ts) ∧
    Reader.Delivers ts node ∧ node.Means y height

/-- What comes about in two steps between the members of two lists does so through two lists. -/
theorem exists_of_forall₂ {α β γ δ : Type} {A : α → γ → Prop} {B : γ → δ → Prop}
    {C : δ → β → Prop} {as : List α} {bs : List β}
    (h : List.Forall₂ (fun a b => ∃ c d, A a c ∧ B c d ∧ C d b) as bs) :
    ∃ cs ds, List.Forall₂ A as cs ∧ List.Forall₂ B cs ds ∧ List.Forall₂ C ds bs := by
  induction h with
  | nil => exact ⟨[], [], .nil, .nil, .nil⟩
  | cons hfirst hlater ih =>
    obtain ⟨c, d, ha, hb, hc⟩ := hfirst
    obtain ⟨cs, ds, has, hbs, hcs⟩ := ih
    exact ⟨c :: cs, d :: ds, .cons ha has, .cons hb hbs, .cons hc hcs⟩

/-- What the members of a list have from those of another is had by all of them. -/
theorem forall_of_forall₂ {α β : Type} {R : α → β → Prop} {P : α → Prop} {as : List α}
    {bs : List β} (h : List.Forall₂ R as bs) (hR : ∀ a b, R a b → P a) : ∀ a ∈ as, P a := by
  induction h with
  | nil => exact fun a ha => absurd ha List.not_mem_nil
  | cons hfirst hlater ih => exact List.forall_mem_cons.2 ⟨hR _ _ hfirst, ih⟩

/-- Members of printable characters with commas between them have printable characters. -/
theorem printable_separated {members : List (List Char)}
    (h : ∀ member ∈ members, ∀ c ∈ member, IsPrintable c) :
    ∀ c ∈ separated [','] members, IsPrintable c := by
  cases members with
  | nil => exact fun c hc => absurd hc List.not_mem_nil
  | cons member members =>
    obtain ⟨hmember, hmembers⟩ := List.forall_mem_cons.1 h
    rw [Json.separated_cons, List.forall_mem_append]
    refine ⟨hmember, fun c hc => ?_⟩
    obtain ⟨other, hother, hc⟩ := List.mem_flatMap.1 hc
    rcases List.mem_append.1 hc with hc | hc
    · rw [List.mem_singleton.1 hc]
      decide
    · exact hmembers other hother c hc

/-- A text of printable characters is written with printable characters. -/
theorem printable_writeText {s : String} (h : ∀ c ∈ s.toList, IsPrintable c) :
    ∀ c ∈ Json.writeText (some s), IsPrintable c := by
  have hescape : ∀ c, IsPrintable c → ∀ d ∈ Json.escapeChar c, IsPrintable d := by
    intro c hc
    by_cases hquote : c = '"'
    · subst hquote
      decide
    by_cases hbackslash : c = '\\'
    · subst hbackslash
      decide
    rw [hc.escapeChar_eq hquote hbackslash]
    exact List.forall_mem_singleton.2 hc
  show ∀ c ∈ '"' :: (s.toList.flatMap Json.escapeChar ++ ['"']), IsPrintable c
  rw [List.forall_mem_cons, List.forall_mem_append, List.forall_mem_singleton]
  refine ⟨by decide, fun d hd => ?_, by decide⟩
  obtain ⟨c, hc, hd⟩ := List.mem_flatMap.1 hd
  exact hescape c (h c hc) d hd

namespace ReadAs

/-- A text of printable characters. -/
theorem string {s : String} (h : ∀ c ∈ s.toList, IsPrintable c) (height : Nat) :
    ReadAs (.ofString s) (.string s) height := by
  have hchars : (Json.Value.ofString s).compactChars = Json.writeText (some s) := List.append_nil _
  refine ⟨hchars ▸ printable_writeText h, _, _, fun _ => ?_, Reader.delivers_scalar .doubleQuoted s,
    Node.means_scalar rfl height⟩
  rw [hchars]
  exact Lexer.yields_writeText h

/-- A truth value. -/
theorem bool (b : Bool) (height : Nat) : ReadAs (.bool b) (.bool b) height := by
  have hchars : (Json.Value.bool b).compactChars = (if b then "true" else "false").toList := by
    cases b <;> rfl
  refine ⟨by rw [hchars]; cases b <;> decide, [.scalar .plain (if b then "true" else "false")], _,
    fun keyAllowed => ?_, Reader.delivers_scalar .plain _, Node.means_scalar ?_ height⟩
  · rw [hchars]
    cases b with
    | false => exact Lexer.yields_word (.inr rfl) (w := "alse".toList) (List.all_eq_true.1 rfl)
    | true => exact Lexer.yields_word (.inl rfl) (w := "rue".toList) (List.all_eq_true.1 rfl)
  · cases b <;> rfl

/-- An array of such values. -/
theorem array {height : Nat} {vs : List Json.Value} {ys : List Value}
    (h : List.Forall₂ (fun v y => ReadAs v y height) vs ys) :
    ReadAs (.array vs) (.sequence ys) (height + 1) := by
  obtain ⟨tokenss, nodes, hyields, hdelivers, hmeans⟩ :=
    exists_of_forall₂ (h.imp fun _ _ hread => hread.read)
  have hitems : List.Forall₂ (Lexer.Yields true) (vs.map Json.Value.compactChars) tokenss :=
    List.forall₂_map_left_iff.2 (hyields.imp fun _ _ hitem => hitem true)
  refine ⟨?_, _, _, fun keyAllowed => ?_, Reader.delivers_sequence hdelivers,
    Node.means_sequence hmeans⟩
  · have hprintable : ∀ cs ∈ vs.map Json.Value.compactChars, ∀ c ∈ cs, IsPrintable c :=
      List.forall_mem_map.2 (forall_of_forall₂ h fun _ _ hread => hread.printable)
    rw [compactChars_array, List.forall_mem_cons, List.forall_mem_append, List.forall_mem_singleton]
    exact ⟨by decide, printable_separated hprintable, by decide⟩
  · rw [compactChars_array]
    exact Lexer.yields_enclosed (.inl ⟨rfl, rfl⟩) (.inl ⟨rfl, rfl⟩) hitems

end ReadAs

/-- Whether a name may be a key: its characters are printable, and it is short. -/
def IsName (name : String) : Prop :=
  (∀ c ∈ name.toList, IsPrintable c) ∧
    Text.utf8Length (Json.writeText (some name)) ≤ Lexer.maxKeyLength

instance (name : String) : Decidable (IsName name) := inferInstanceAs (Decidable (_ ∧ _))

/-- Whether a JSON field is read as a YAML value under the same name. -/
structure FieldReadAs (f : String × Json.Value) (g : String × Value) (height : Nat) : Prop where
  name : f.1 = g.1
  isName : IsName f.1
  value : ReadAs f.2 g.2 height

theorem FieldReadAs.printable {f : String × Json.Value} {g : String × Value} {height : Nat}
    (h : FieldReadAs f g height) : ∀ c ∈ fieldChars f, IsPrintable c := by
  rw [fieldChars, List.forall_mem_append, List.forall_mem_cons]
  exact ⟨printable_writeText h.isName.1, by decide, h.value.printable⟩

/-- A field is read as tokens, the tokens as an entry, and the entry as a value under its name. -/
theorem FieldReadAs.exists_entry {f : String × Json.Value} {g : String × Value} {height : Nat}
    (h : FieldReadAs f g height) : ∃ ts entry, Lexer.Yields true (fieldChars f) ts ∧
      Reader.DeliversEntry ts entry ∧ Node.EntryMeans entry g height := by
  obtain ⟨hname, hisName, -, ts, node, hyields, hdelivers, hmeans⟩ := h
  refine ⟨_, _, Lexer.Yields.field hisName.1 hisName.2 (hyields false), hdelivers.entry .doubleQuoted f.1,
    ?_, hmeans⟩
  rw [hname]
  exact Node.means_scalar rfl height

section Records

variable {fields : List (String × Json.Value)} {named : List (String × Value)} {height : Nat}

theorem printable_record (h : List.Forall₂ (fun f g => FieldReadAs f g height) fields named) :
    ∀ c ∈ (Json.Value.record fields).compactChars, IsPrintable c := by
  have hfields : ∀ cs ∈ fields.map fieldChars, ∀ c ∈ cs, IsPrintable c :=
    List.forall_mem_map.2 (forall_of_forall₂ h fun _ _ hfield => hfield.printable)
  rw [compactChars_record, List.forall_mem_cons, List.forall_mem_append, List.forall_mem_singleton]
  exact ⟨by decide, printable_separated hfields, by decide⟩

/-- An object is read as a mapping, if no two of its names are the same. -/
theorem ReadAs.record (h : List.Forall₂ (fun f g => FieldReadAs f g height) fields named)
    (hnodup : (named.map Prod.fst).Nodup) :
    ReadAs (.record fields) (.mapping (Node.Named named)) (height + 1) := by
  obtain ⟨tokenss, entries, hyields, hdelivers, hmeans⟩ :=
    exists_of_forall₂ (h.imp fun _ _ hfield => hfield.exists_entry)
  refine ⟨printable_record h, _, _, fun keyAllowed => ?_, Reader.delivers_mapping hdelivers,
    Node.means_mapping hmeans hnodup⟩
  rw [compactChars_record]
  exact Lexer.yields_enclosed (.inr ⟨rfl, rfl⟩) (.inr ⟨rfl, rfl⟩)
    (List.forall₂_map_left_iff.2 hyields)

/-- Printable characters have no breaks to be made uniform. -/
theorem uniformBreaks_of_printable {cs : List Char} (h : ∀ c ∈ cs, IsPrintable c) :
    uniformBreaks cs = cs := by
  induction cs with
  | nil => rfl
  | cons c cs ih =>
    obtain ⟨hc, hcs⟩ := List.forall_mem_cons.1 h
    have hreturn : c ≠ '\r' := hc.ne (by decide)
    have hnext : c ≠ '\u0085' := hc.ne (by decide)
    rw [uniformBreaks, ih hcs]
    · simp [hreturn, hnext]
    · exact fun _ heq _ => hreturn heq

/-- The compact text of an object means the mapping that the object is read as. -/
theorem Value.ofText_compact (h : List.Forall₂ (fun f g => FieldReadAs f g height) fields named)
    (hnodup : (named.map Prod.fst).Nodup) (hheight : height < maxDepth) :
    Value.ofText (Json.Value.record fields).compact = .ok (.mapping (Node.Named named)) := by
  obtain ⟨tokenss, entries, hyields, hdelivers, hmeans⟩ :=
    exists_of_forall₂ (h.imp fun _ _ hfield => hfield.exists_entry)
  have hprintable := printable_record h
  have hallowed : (Json.Value.record fields).compactChars.all isAllowed = true :=
    List.all_eq_true.2 fun c hc => (hprintable c hc).isAllowed_eq_true
  have htokens : Token.ofText (Json.Value.record fields).compact =
      .ok (.flowMappingStart :: (Json.separated [.flowEntry] tokenss ++ [.flowMappingEnd]) ++
        [.streamEnd]) := by
    rw [Token.ofText, Json.Value.compact, String.toList_ofList, hallowed, if_pos rfl,
      uniformBreaks_of_printable hprintable, compactChars_record]
    exact Lexer.run_start_enclosed (.inr ⟨rfl, rfl⟩) (.inr ⟨rfl, rfl⟩)
      (List.forall₂_map_left_iff.2 hyields)
  have hdocument : Document.ofText (Json.Value.record fields).compact =
      .ok ⟨some (.mapping .none entries)⟩ := by
    rw [Document.ofText, htokens]
    exact Document.ofTokens_of_delivers (Reader.delivers_mapping hdelivers)
  have hvalue := Node.means_mapping hmeans hnodup ⟨some (.mapping .none entries)⟩
    ((Node.mapping .none entries).size * followsPerNode) maxDepth 0 hheight
  rw [Value.ofText, hdocument]
  show Prod.fst <$> (build _ _ maxDepth _).run 0 = _
  rw [hvalue]
  rfl

end Records

end NavPolicy.Yaml
