import Mathlib.Data.List.Nodup
import Mathlib.Data.List.Perm.Basic
import NavPolicy.Policy.Reader
import NavPolicy.Proofs.Yaml.Json

/-!
# Policies written as JSON

A policy whose texts are printable may be written as a JSON object, compactly and with its fields in any
order, and is read as the document that has just these fields (`PolicyDocument.ofText_of_isWrittenAs`).

The reading is done in two steps.  What is written in an object's fields is read as the values under the
same names (`Json.Value.IsRecordOf.exists_named`), in the order in which it is written; and what a policy
looks up under a name does not depend on that order (`lookup_named_of_perm`).
-/

namespace NavPolicy

open Yaml (IsPrintable IsName ReadAs FieldReadAs)
open Yaml.Node (Named)

/-! ## Fields that may be missing -/

/-- The fields that are there. -/
def present {α : Type} (fields : List (String × Option α)) : List (String × α) :=
  fields.filterMap fun (name, v) => v.map (name, ·)

theorem mem_present {α : Type} {fields : List (String × Option α)} {name : String} {v : α} :
    (name, v) ∈ present fields ↔ (name, some v) ∈ fields := by
  simp [present, List.mem_filterMap]

/-- The names of the fields that are there are among the names of all fields, in the same order. -/
theorem map_fst_present_sublist {α : Type} (fields : List (String × Option α)) :
    List.Sublist ((present fields).map Prod.fst) (fields.map Prod.fst) := by
  induction fields with
  | nil => exact .slnil
  | cons f fields ih =>
    obtain ⟨name, _ | v⟩ := f
    · exact ih.cons name
    · exact ih.cons_cons name

/-- Fields that are there, in whatever order, have different names if all fields do. -/
theorem nodup_of_perm_present {α : Type} {fields : List (String × Option α)}
    (hnodup : (fields.map Prod.fst).Nodup) {named : List (String × α)}
    (hperm : named.Perm (present fields)) : (named.map Prod.fst).Nodup :=
  (hperm.map Prod.fst).nodup_iff.2 (hnodup.sublist (map_fst_present_sublist fields))

/-- What is looked up among entries under different names is what stands there. -/
theorem lookup_named_eq_some_iff {named : List (String × Yaml.Value)}
    (hnodup : (named.map Prod.fst).Nodup) {name : String} {y : Yaml.Value} :
    Yaml.Value.lookup name (Named named) = some y ↔ (name, y) ∈ named := by
  induction named with
  | nil => simp [Yaml.Value.lookup, Named]
  | cons f named ih =>
    obtain ⟨hfresh, hnodup⟩ := List.nodup_cons.1 hnodup
    have hlookup : Yaml.Value.lookup name (Named (f :: named)) =
        if f.1 = name then some f.2 else Yaml.Value.lookup name (Named named) := by
      by_cases heq : f.1 = name <;> simp [Yaml.Value.lookup, Named, heq]
    rw [hlookup]
    by_cases heq : f.1 = name
    · have hlater : (name, y) ∉ named := fun hmem =>
        hfresh (heq ▸ List.mem_map_of_mem (f := Prod.fst) hmem)
      simp [heq, hlater, Prod.ext_iff, eq_comm]
    · simp [heq, ih hnodup, Prod.ext_iff, eq_comm]

/-- What is looked up under the name of a field is what the field holds, in whatever order the fields stand. -/
theorem lookup_named_of_perm {fields : List (String × Option Yaml.Value)}
    (hnodup : (fields.map Prod.fst).Nodup) {named : List (String × Yaml.Value)}
    (hperm : named.Perm (present fields)) {name : String} {y : Option Yaml.Value}
    (hmem : (name, y) ∈ fields) : Yaml.Value.lookup name (Named named) = y := by
  ext z
  rw [lookup_named_eq_some_iff (nodup_of_perm_present hnodup hperm), hperm.mem_iff, mem_present]
  constructor
  · intro hz
    have heq := List.inj_on_of_nodup_map hnodup hz hmem rfl
    exact (congrArg Prod.snd heq).symm
  · rintro rfl
    exact hmem

/-- A text is found under the name of the field that holds it, and none if the field is missing. -/
theorem textAt?_of_lookup {entries : List (Yaml.Value × Yaml.Value)} {name : String}
    {text : Option String} (h : Yaml.Value.lookup name entries = text.map .string) :
    textAt? entries name = text := by
  rw [textAt?, h]
  cases text <;> rfl

/-! ## Objects -/

/-- Whether a JSON value is an object of the fields that are there, in some order. -/
def Json.Value.IsRecordOf (v : Json.Value) (fields : List (String × Option Json.Value)) : Prop :=
  ∃ written : List (String × Json.Value), written.Perm (present fields) ∧ v = .record written

/-- Whether a field that may be missing is read as a value that may be missing, under the same name. -/
structure OptionalReadAs (f : String × Option Json.Value) (g : String × Option Yaml.Value) (height : Nat) :
    Prop where
  name : f.1 = g.1
  isName : IsName f.1
  value : Option.Rel (fun v y => ReadAs v y height) f.2 g.2

section Objects

variable {fields : List (String × Option Json.Value)} {values : List (String × Option Yaml.Value)}
  {height : Nat}

/-- The fields that are there are read as the values that are there. -/
theorem forall₂_present (h : List.Forall₂ (fun f g => OptionalReadAs f g height) fields values) :
    List.Forall₂ (fun f g => FieldReadAs f g height) (present fields) (present values) := by
  induction h with
  | nil => exact .nil
  | @cons f g fields values hfirst hlater ih =>
    obtain ⟨name, v⟩ := f
    obtain ⟨name', y⟩ := g
    obtain ⟨hname, hisName, hvalue⟩ := hfirst
    cases hvalue with
    | none => exact ih
    | some hread => exact .cons ⟨hname, hisName, hread⟩ ih

/-- The fields of an object are read one by one, as the values that are there in some order. -/
theorem Json.Value.IsRecordOf.exists_named {v : Json.Value} (hv : v.IsRecordOf fields)
    (h : List.Forall₂ (fun f g => OptionalReadAs f g height) fields values) :
    ∃ written named, v = .record written ∧ named.Perm (present values) ∧
      List.Forall₂ (fun f g => FieldReadAs f g height) written named := by
  obtain ⟨written, hperm, rfl⟩ := hv
  obtain ⟨named, hread, hnamed⟩ := List.perm_comp_forall₂ hperm (forall₂_present h)
  exact ⟨written, named, rfl, hnamed, hread⟩

end Objects

/-! ## Texts -/

/-- Texts that may be missing as values, under the same names. -/
def textsAs {α : Type} (text : String → α) (texts : List (String × Option String)) :
    List (String × Option α) :=
  texts.map fun (name, s) => (name, s.map text)

theorem mem_textsAs {α : Type} {text : String → α} {texts : List (String × Option String)}
    {name : String} {s : Option String} (h : (name, s) ∈ texts) :
    (name, s.map text) ∈ textsAs text texts :=
  List.mem_map_of_mem h

theorem map_fst_textsAs {α : Type} (text : String → α) (texts : List (String × Option String)) :
    (textsAs text texts).map Prod.fst = texts.map Prod.fst := by
  rw [textsAs, List.map_map]
  rfl

/-- Whether a text that may be missing has printable characters only. -/
def IsPrintableText (text : Option String) : Prop := ∀ s ∈ text, ∀ c ∈ s.toList, IsPrintable c

instance (text : Option String) : Decidable (IsPrintableText text) :=
  inferInstanceAs (Decidable (∀ s ∈ text, _))

section Texts

variable {texts : List (String × Option String)}

/-- A printable text that may be missing is read as itself. -/
theorem OptionalReadAs.text {name : String} {text : Option String} (hname : IsName name)
    (htext : IsPrintableText text) (height : Nat) :
    OptionalReadAs (name, text.map .ofString) (name, text.map .string) height := by
  refine ⟨rfl, hname, ?_⟩
  cases text with
  | none => exact .none
  | some s => exact .some (ReadAs.string (htext s rfl) height)

/-- Printable texts are read as themselves. -/
theorem forall₂_textsAs (hnames : ∀ f ∈ texts, IsName f.1) (htexts : ∀ f ∈ texts, IsPrintableText f.2)
    (height : Nat) :
    List.Forall₂ (fun f g => OptionalReadAs f g height) (textsAs .ofString texts)
      (textsAs .string texts) := by
  rw [textsAs, textsAs, List.forall₂_map_left_iff, List.forall₂_map_right_iff, List.forall₂_same]
  exact fun f hf => .text (hnames f hf) (htexts f hf) height

/-- An object of printable texts is read as a mapping in which each of them is found under its name. -/
theorem Json.Value.IsRecordOf.exists_mapping {v : Json.Value}
    (hv : v.IsRecordOf (textsAs .ofString texts)) (hnames : ∀ f ∈ texts, IsName f.1)
    (hnodup : (texts.map Prod.fst).Nodup) (htexts : ∀ f ∈ texts, IsPrintableText f.2) (height : Nat) :
    ∃ entries, ReadAs v (.mapping entries) (height + 1) ∧
      ∀ name s, (name, s) ∈ texts → Yaml.Value.lookup name entries = s.map .string := by
  obtain ⟨written, named, rfl, hperm, hread⟩ := hv.exists_named (forall₂_textsAs hnames htexts height)
  have hvalues : ((textsAs Yaml.Value.string texts).map Prod.fst).Nodup :=
    (map_fst_textsAs _ texts).symm ▸ hnodup
  exact ⟨_, ReadAs.record hread (nodup_of_perm_present hvalues hperm), fun name s hmem =>
    lookup_named_of_perm hvalues hperm (mem_textsAs hmem)⟩

end Texts

/-! ## Policies -/

/-- The texts of a destination. -/
def Destination.texts (d : Destination) : List (String × Option String) :=
  [("html", d.inlineHtml), ("htmlsrc", d.remoteUrl)]

/-- What is written of an entry: its pattern and where it leads. -/
structure EntryFields where
  pattern : Option String
  destination : Destination

namespace EntryFields

/-- The texts of an entry. -/
def texts (e : EntryFields) : List (String × Option String) := ("url", e.pattern) :: e.destination.texts

/-- The entry of these fields. -/
def entry (e : EntryFields) : PolicyEntry := ⟨e.pattern, .ofDestination e.destination⟩

end EntryFields

/-- What is written of a policy. -/
structure PolicyFields where
  lock : Bool
  authn : Option String
  global : Option Destination
  entries : List EntryFields

namespace PolicyFields

/-- The document of these fields. -/
def document (p : PolicyFields) : PolicyDocument :=
  ⟨p.lock, p.authn, (p.global.map .ofDestination).getD .absent, p.entries.map EntryFields.entry⟩

/-- Whether the characters of all texts are printable. -/
structure IsPrintable (p : PolicyFields) : Prop where
  authn : IsPrintableText p.authn
  global : ∀ d ∈ p.global, ∀ f ∈ d.texts, IsPrintableText f.2
  entries : ∀ e ∈ p.entries, ∀ f ∈ e.texts, IsPrintableText f.2

/-- The fields of the object, given those values in it that are objects themselves. -/
def fields (p : PolicyFields) (global : Option Json.Value) (items : List Json.Value) :
    List (String × Option Json.Value) :=
  [("lock", some (.bool p.lock)), ("authn", p.authn.map .ofString), ("global", global),
    ("urls", some (.array items))]

/-- Whether a JSON value is an object of these fields, with the fields of each object in some order. -/
def IsWrittenAs (p : PolicyFields) (v : Json.Value) : Prop :=
  ∃ (global : Option Json.Value) (items : List Json.Value),
    Option.Rel (fun v d => v.IsRecordOf (textsAs .ofString d.texts)) global p.global ∧
    List.Forall₂ (fun v e => v.IsRecordOf (textsAs .ofString e.texts)) items p.entries ∧
    v.IsRecordOf (p.fields global items)

/-- The fields as JSON, in the order in which they are listed here. -/
def json (p : PolicyFields) : Json.Value :=
  .record <| present <| p.fields (p.global.map fun d => .record (present (textsAs .ofString d.texts)))
    (p.entries.map fun e => .record (present (textsAs .ofString e.texts)))

/-- Every policy can be written. -/
theorem isWrittenAs_json (p : PolicyFields) : p.IsWrittenAs p.json := by
  refine ⟨_, _, ?_, ?_, _, .refl _, rfl⟩
  · cases p.global with
    | none => exact .none
    | some d => exact .some ⟨_, .refl _, rfl⟩
  · rw [List.forall₂_map_left_iff, List.forall₂_same]
    exact fun e _ => ⟨_, .refl _, rfl⟩

end PolicyFields

section Redirects

variable {v : Json.Value}

/-- The texts of a destination give its clause. -/
theorem RedirectClause.ofEntries_of_lookup {entries : List (Yaml.Value × Yaml.Value)} {d : Destination}
    (h : ∀ name s, (name, s) ∈ d.texts → Yaml.Value.lookup name entries = s.map .string) :
    RedirectClause.ofEntries entries = .ofDestination d := by
  have hhtml := h "html" d.inlineHtml (by simp [Destination.texts])
  have hhtmlsrc := h "htmlsrc" d.remoteUrl (by simp [Destination.texts])
  rw [ofEntries, hhtml, hhtmlsrc, textAt?_of_lookup hhtml, textAt?_of_lookup hhtmlsrc,
    Option.isSome_map, Option.isSome_map]
  rfl

/-- A destination is read as its clause. -/
theorem Destination.exists_mapping {d : Destination} (hv : v.IsRecordOf (textsAs .ofString d.texts))
    (hd : ∀ f ∈ d.texts, IsPrintableText f.2) (height : Nat) :
    ∃ entries, ReadAs v (.mapping entries) (height + 1) ∧
      RedirectClause.ofEntries entries = .ofDestination d := by
  have hnames : ∀ f ∈ d.texts, IsName f.1 := by
    simp only [texts, List.forall_mem_cons]
    exact ⟨by decide, by decide, List.forall_mem_nil _⟩
  have hnodup : ["html", "htmlsrc"].Nodup := by decide
  obtain ⟨entries, hread, hlookup⟩ := hv.exists_mapping hnames hnodup hd height
  exact ⟨entries, hread, RedirectClause.ofEntries_of_lookup hlookup⟩

/-- An entry is read as itself. -/
theorem EntryFields.exists_value {e : EntryFields} (hv : v.IsRecordOf (textsAs .ofString e.texts))
    (he : ∀ f ∈ e.texts, IsPrintableText f.2) (height : Nat) :
    ∃ y, ReadAs v y (height + 1) ∧ PolicyEntry.ofValue y = e.entry := by
  have hnames : ∀ f ∈ e.texts, IsName f.1 := by
    simp only [texts, Destination.texts, List.forall_mem_cons]
    exact ⟨by decide, by decide, by decide, List.forall_mem_nil _⟩
  have hnodup : ["url", "html", "htmlsrc"].Nodup := by decide
  obtain ⟨entries, hread, hlookup⟩ := hv.exists_mapping hnames hnodup he height
  have hpattern : textAt? entries "url" = e.pattern :=
    textAt?_of_lookup (hlookup "url" e.pattern List.mem_cons_self)
  have hredirect : RedirectClause.ofEntries entries = .ofDestination e.destination :=
    RedirectClause.ofEntries_of_lookup fun name s hmem => hlookup name s (List.mem_cons_of_mem _ hmem)
  refine ⟨.mapping entries, hread, ?_⟩
  rw [PolicyEntry.ofValue, hpattern, hredirect]
  rfl

end Redirects

namespace PolicyFields

variable {p : PolicyFields}

/-- The destination for all entries is read as its clause, if there is one. -/
theorem exists_global {global : Option Json.Value}
    (hglobal : Option.Rel (fun v d => v.IsRecordOf (textsAs .ofString d.texts)) global p.global)
    (hp : p.IsPrintable) (height : Nat) :
    ∃ shared : Option (List (Yaml.Value × Yaml.Value)),
      Option.Rel (fun v y => ReadAs v y (height + 1)) global (shared.map .mapping) ∧
        shared.map RedirectClause.ofEntries = p.global.map .ofDestination := by
  obtain ⟨lock, authn, d, entries⟩ := p
  cases hglobal with
  | none => exact ⟨none, .none, rfl⟩
  | some hv =>
    obtain ⟨entries, hread, hclause⟩ := Destination.exists_mapping hv (hp.global _ rfl) height
    exact ⟨some entries, .some hread, congrArg some hclause⟩

/-- The entries are read as themselves. -/
theorem exists_items {entries : List EntryFields} {items : List Json.Value}
    (hitems : List.Forall₂ (fun v e => v.IsRecordOf (textsAs .ofString e.texts)) items entries)
    (hentries : ∀ e ∈ entries, ∀ f ∈ e.texts, IsPrintableText f.2) (height : Nat) :
    ∃ ys, List.Forall₂ (fun v y => ReadAs v y (height + 1)) items ys ∧
      ys.map PolicyEntry.ofValue = entries.map EntryFields.entry := by
  induction hitems with
  | nil => exact ⟨[], .nil, rfl⟩
  | cons hfirst hlater ih =>
    obtain ⟨he, hentries⟩ := List.forall_mem_cons.1 hentries
    obtain ⟨y, hread, hentry⟩ := EntryFields.exists_value hfirst he height
    obtain ⟨ys, hreads, hys⟩ := ih hentries
    exact ⟨y :: ys, .cons hread hreads, by rw [List.map_cons, List.map_cons, hentry, hys]⟩

end PolicyFields

namespace PolicyDocument

section Values

variable (lock : Bool) (authn : Option String) (shared : Option (List (Yaml.Value × Yaml.Value)))
  (items : List Yaml.Value)

/-- The values under the names of a policy. -/
def values : List (String × Option Yaml.Value) :=
  [("lock", some (.bool lock)), ("authn", authn.map .string), ("global", shared.map .mapping),
    ("urls", some (.sequence items))]

theorem nodup_values : ((values lock authn shared items).map Prod.fst).Nodup := by
  show ["lock", "authn", "global", "urls"].Nodup
  decide

variable {lock authn shared items}

/-- The values of a policy say the same in whatever order they stand. -/
theorem ofEntries_named {named : List (String × Yaml.Value)}
    (hperm : named.Perm (present (values lock authn shared items))) :
    ofEntries (Named named) =
      ⟨lock, authn, (shared.map .ofEntries).getD .absent, items.map PolicyEntry.ofValue⟩ := by
  have hlookup {name : String} {y : Option Yaml.Value}
      (hmem : (name, y) ∈ values lock authn shared items) :
      Yaml.Value.lookup name (Named named) = y :=
    lookup_named_of_perm (nodup_values lock authn shared items) hperm hmem
  have hlock := hlookup (.head _)
  have hauthn := hlookup (.tail _ (.head _))
  have hshared := hlookup (.tail _ (.tail _ (.head _)))
  have hitems := hlookup (.tail _ (.tail _ (.tail _ (.head _))))
  rw [ofEntries, hlock, textAt?_of_lookup hauthn, hshared, hitems]
  cases lock <;> cases shared <;> rfl

end Values

/-- A policy of printable texts that is written as a JSON object is read as the document of its fields. -/
theorem ofText_of_isWrittenAs {p : PolicyFields} (hp : p.IsPrintable) {v : Json.Value}
    (hv : p.IsWrittenAs v) : ofText v.compact = .ok p.document := by
  obtain ⟨global, items, hglobal, hitems, hroot⟩ := hv
  obtain ⟨shared, hshared, hclause⟩ := PolicyFields.exists_global hglobal hp 1
  obtain ⟨ys, hys, hentries⟩ := PolicyFields.exists_items hitems hp.entries 0
  have hnames : IsName "lock" ∧ IsName "authn" ∧ IsName "global" ∧ IsName "urls" := by decide
  have hfields : List.Forall₂ (fun f g => OptionalReadAs f g 2) (p.fields global items)
      (values p.lock p.authn shared ys) :=
    .cons ⟨rfl, hnames.1, .some (ReadAs.bool p.lock 2)⟩ <|
      .cons (.text hnames.2.1 hp.authn 2) <|
      .cons ⟨rfl, hnames.2.2.1, hshared⟩ <|
      .cons ⟨rfl, hnames.2.2.2, .some (ReadAs.array hys)⟩ .nil
  obtain ⟨written, named, rfl, hperm, hread⟩ := hroot.exists_named hfields
  have hvalue : Yaml.Value.ofText (Json.Value.record written).compact = .ok (.mapping (Named named)) :=
    Yaml.Value.ofText_compact hread (nodup_of_perm_present (nodup_values ..) hperm) (by decide)
  rw [ofText, hvalue]
  show Except.ok (ofEntries (Named named)) = _
  rw [ofEntries_named hperm, hclause, hentries]
  rfl

/-- Texts with quotes, backslashes, colons, hashes and brackets, with spaces at their ends, and such that look
like a truth value, a number or nothing. -/
def lookalikes : PolicyFields :=
  ⟨true, some " \"true\" \\ # ", some ⟨some "a: [b, 'c'] ", none⟩,
    [⟨some "0x1F", ⟨some "null", some "~"⟩⟩, ⟨none, ⟨none, none⟩⟩,
      ⟨some "", ⟨none, some "- ? : , &a *b !c"⟩⟩]⟩

/-- The same as JSON, with the fields of all objects in reverse order. -/
def lookalikesJson : Json.Value :=
  .record [
    ("urls", .array [
      .record [("htmlsrc", .ofString "~"), ("html", .ofString "null"), ("url", .ofString "0x1F")],
      .record [],
      .record [("htmlsrc", .ofString "- ? : , &a *b !c"), ("url", .ofString "")]]),
    ("global", .record [("html", .ofString "a: [b, 'c'] ")]),
    ("authn", .ofString " \"true\" \\ # "),
    ("lock", .bool true)]

theorem ofText_of_isWrittenAs_lookalikes :
    lookalikes.IsPrintable ∧ lookalikes.IsWrittenAs lookalikesJson ∧
      ofText lookalikesJson.compact = .ok lookalikes.document ∧
      ofText lookalikes.json.compact = .ok lookalikes.document := by
  have hprintable : lookalikes.IsPrintable := ⟨by decide, by decide, by decide⟩
  have hwritten : lookalikes.IsWrittenAs lookalikesJson :=
    ⟨_, _, .some ⟨_, List.reverse_perm _, rfl⟩,
      .cons ⟨_, List.reverse_perm _, rfl⟩
        (.cons ⟨_, List.reverse_perm _, rfl⟩ (.cons ⟨_, List.reverse_perm _, rfl⟩ .nil)),
      _, List.reverse_perm _, rfl⟩
  exact ⟨hprintable, hwritten, ofText_of_isWrittenAs hprintable hwritten,
    ofText_of_isWrittenAs hprintable lookalikes.isWrittenAs_json⟩

end PolicyDocument

end NavPolicy
