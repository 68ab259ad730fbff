import Mathlib.Data.List.Basic
import NavPolicy.Proofs.Digest
import NavPolicy.Proofs.Policy.Meaning
import NavPolicy.Proofs.Policy.Numbering

/-!
# What becomes of the items of a policy

Whether a key is there, whether a text stands under it, and whether the text is empty are three questions,
and a policy asks different ones at different places.  An item counts if a text stands under `url`; it is
redirected if it, or the mapping for all items, has a redirect key, whatever stands under that; and a rule
carries only texts.

`ruling_cases` says what becomes of one item, in terms of the values under its keys alone.  From there the
lists of rules are those of the items of one kind, in order (`forall₂_filter_filterMap`), and each item is
of one kind (`length_rulings`).
-/

namespace NavPolicy

/-- A text stands under a key just where that is the value under it. -/
theorem textAt?_eq_some_iff {entries : List (Yaml.Value × Yaml.Value)} {key s : String} :
    textAt? entries key = some s ↔ Yaml.Value.lookup key entries = some (.string s) := by
  rw [textAt?]
  split
  · next t h => simp [h]
  · next h => exact ⟨fun hnone => absurd hnone (by simp), fun hsome => absurd hsome (h s)⟩

namespace Meaning

/-! ## Items -/

/-- What an item of the list of URLs says; one that is no mapping says nothing. -/
def fields : Yaml.Value → Mapping
  | .mapping entries => entries
  | _ => []

/-- Whether a text is what stands under a key; any value that is no text counts as none. -/
def HasText (entries : Mapping) (key : String) (text : Option String) : Prop :=
  ∀ s, text = some s ↔ Yaml.Value.lookup key entries = some (.string s)

theorem hasText_textAt? (entries : Mapping) (key : String) :
    HasText entries key (textAt? entries key) := fun _ => textAt?_eq_some_iff

/-- Whether a destination is made of the texts of a mapping. -/
structure HasDestination (entries : Mapping) (d : Destination) : Prop where
  inlineHtml : HasText entries "html" d.inlineHtml
  remoteUrl : HasText entries "htmlsrc" d.remoteUrl

theorem hasDestination_ofEntries (entries : Mapping) :
    HasDestination entries (RedirectClause.ofEntries entries).destination :=
  ⟨hasText_textAt? entries "html", hasText_textAt? entries "htmlsrc"⟩

/-- Whether an entry holds what an item says. -/
structure IsEntryOf (item : Yaml.Value) (entry : PolicyEntry) : Prop where
  pattern : HasText (fields item) "url" entry.pattern
  declared : entry.redirect.declared = true ↔ HasRedirectKey (fields item)
  destination : HasDestination (fields item) entry.redirect.destination

/-- An item is read by its keys, and as if it had none where it is no mapping. -/
theorem ofValue_eq (item : Yaml.Value) :
    PolicyEntry.ofValue item = ⟨textAt? (fields item) "url", .ofEntries (fields item)⟩ := by
  cases item <;> rfl

/-- A mapping has a redirect key just where its clause is declared. -/
theorem declared_ofEntries_iff {entries : Mapping} :
    (RedirectClause.ofEntries entries).declared = true ↔ HasRedirectKey entries := by
  rw [RedirectClause.ofEntries, Bool.or_eq_true, HasRedirectKey]

/-- An item is read as an entry that holds what it says. -/
theorem isEntryOf_ofValue (item : Yaml.Value) : IsEntryOf item (.ofValue item) := by
  rw [ofValue_eq]
  exact ⟨hasText_textAt? _ _, declared_ofEntries_iff, hasDestination_ofEntries _⟩

/-! ## Kinds of items -/

/-- Whether an item has a pattern. -/
def HasPattern (item : Yaml.Value) : Prop :=
  ∃ s, Yaml.Value.lookup "url" (fields item) = some (.string s)

/-- Whether an item is redirected, given what is said for all items. -/
def Redirects (all : Mapping) (item : Yaml.Value) : Prop :=
  HasPattern item ∧ (HasRedirectKey (fields item) ∨ HasRedirectKey all)

/-- Whether an item is blocked, given what is said for all items. -/
def Blocks (all : Mapping) (item : Yaml.Value) : Prop :=
  HasPattern item ∧ ¬ (HasRedirectKey (fields item) ∨ HasRedirectKey all)

/-- An item has a pattern if a text is read off it. -/
theorem isSome_textAt?_iff {item : Yaml.Value} :
    (textAt? (fields item) "url").isSome = true ↔ HasPattern item := by
  rw [Option.isSome_iff_exists, HasPattern]
  exact exists_congr fun _ => textAt?_eq_some_iff

instance (item : Yaml.Value) : Decidable (HasPattern item) :=
  decidable_of_iff _ isSome_textAt?_iff

instance (all : Mapping) (item : Yaml.Value) : Decidable (Redirects all item) :=
  inferInstanceAs (Decidable (_ ∧ _))

instance (all : Mapping) (item : Yaml.Value) : Decidable (Blocks all item) :=
  inferInstanceAs (Decidable (_ ∧ _))

/-- Whether a block rule is that of an item. -/
def IsBlockOf (item : Yaml.Value) (pattern : String) : Prop :=
  Yaml.Value.lookup "url" (fields item) = some (.string pattern)

/-- Whether a redirect rule is that of an item, given what is said for all items. -/
structure IsRedirectOf (all : Mapping) (item : Yaml.Value) (rule : RedirectRule) : Prop where
  pattern : Yaml.Value.lookup "url" (fields item) = some (.string rule.pattern)
  own : HasDestination (fields item) rule.own
  fallback : HasDestination all rule.fallback

/-- An item without pattern is skipped, and one with a pattern is redirected or blocked as its keys and
those for all items ask. -/
theorem ruling_cases (root : Mapping) (item : Yaml.Value) :
    let ruling := (PolicyDocument.ofEntries root).ruling (.ofValue item)
    (¬ HasPattern item ∧ ruling = .skip) ∨
      (Redirects (shared root) item ∧
        ∃ rule, ruling = .redirect rule ∧ IsRedirectOf (shared root) item rule) ∨
      (Blocks (shared root) item ∧ ∃ pattern, ruling = .block pattern ∧ IsBlockOf item pattern) := by
  intro ruling
  have hruling : ruling = (PolicyDocument.ofEntries root).ruling (.ofValue item) := rfl
  rw [PolicyDocument.ruling, ofValue_eq, defaultRedirect_ofEntries] at hruling
  dsimp only at hruling
  cases htext : textAt? (fields item) "url" with
  | none =>
    rw [htext] at hruling
    refine .inl ⟨fun hpattern => ?_, hruling⟩
    rw [← isSome_textAt?_iff, htext] at hpattern
    exact absurd hpattern Bool.false_ne_true
  | some pattern =>
    rw [htext] at hruling
    have hpattern := textAt?_eq_some_iff.1 htext
    have hkeys : ((RedirectClause.ofEntries (fields item)).declared ||
        (RedirectClause.ofEntries (shared root)).declared) = true ↔
          HasRedirectKey (fields item) ∨ HasRedirectKey (shared root) := by
      rw [Bool.or_eq_true, declared_ofEntries_iff, declared_ofEntries_iff]
    dsimp only at hruling
    by_cases hredirects : HasRedirectKey (fields item) ∨ HasRedirectKey (shared root)
    · rw [if_pos (hkeys.2 hredirects)] at hruling
      exact .inr (.inl ⟨⟨⟨pattern, hpattern⟩, hredirects⟩, _, hruling,
        ⟨hpattern, hasDestination_ofEntries _, hasDestination_ofEntries _⟩⟩)
    · rw [if_neg (mt hkeys.1 hredirects)] at hruling
      exact .inr (.inr ⟨⟨⟨pattern, hpattern⟩, hredirects⟩, pattern, hruling, hpattern⟩)

/-! ## Lists of rules -/

/-- What is made of the members of one kind, and of no others, stands in their order. -/
theorem forall₂_filter_filterMap {α β : Type} {R : α → β → Prop} {p : α → Prop} [DecidablePred p]
    {f : α → Option β} (h : ∀ a, (p a ∧ ∃ b, f a = some b ∧ R a b) ∨ (¬ p a ∧ f a = none))
    (l : List α) : List.Forall₂ R (l.filter fun a => p a) (l.filterMap f) := by
  induction l with
  | nil => exact .nil
  | cons a l ih =>
    rw [List.filter_cons, List.filterMap_cons]
    rcases h a with ⟨ha, b, hb, hab⟩ | ⟨ha, hnone⟩
    · rw [decide_eq_true ha, if_pos rfl, hb]
      exact .cons hab ih
    · rw [decide_eq_false ha, if_neg Bool.false_ne_true, hnone]
      exact ih

/-- Every ruling is of one of the three kinds. -/
theorem length_rulings (rulings : List Ruling) :
    rulings.length = rulings.count .skip + (rulings.filterMap Ruling.blocked?).length +
      (rulings.filterMap Ruling.redirected?).length := by
  induction rulings with
  | nil => rfl
  | cons ruling rulings ih =>
    rw [List.length_cons, ih, List.count_cons, List.filterMap_cons, List.filterMap_cons]
    cases ruling <;> simp [Ruling.blocked?, Ruling.redirected?] <;> omega

/-- The rulings of a document are those on its items. -/
theorem rulings_ofEntries (root : Mapping) :
    (PolicyDocument.ofEntries root).rulings = (items root).map fun item =>
      (PolicyDocument.ofEntries root).ruling (.ofValue item) := by
  rw [PolicyDocument.rulings, entries_ofEntries, List.map_map]
  rfl

/-- The redirect rules are those of the items that are redirected, in order. -/
theorem forall₂_redirectRules (root : Mapping) :
    List.Forall₂ (IsRedirectOf (shared root))
      ((items root).filter fun item => Redirects (shared root) item)
      (PolicyDocument.ofEntries root).redirectRules := by
  rw [PolicyDocument.redirectRules, rulings_ofEntries, List.filterMap_map]
  refine forall₂_filter_filterMap (fun item => ?_) (items root)
  rcases ruling_cases root item with
    ⟨hnone, hskip⟩ | ⟨hredirects, rule, hredirect, hrule⟩ | ⟨hblocks, pattern, hblock, -⟩
  · exact .inr ⟨fun hitem => hnone hitem.1, congrArg Ruling.redirected? hskip⟩
  · exact .inl ⟨hredirects, rule, congrArg Ruling.redirected? hredirect, hrule⟩
  · exact .inr ⟨fun hitem => hblocks.2 hitem.2, congrArg Ruling.redirected? hblock⟩

/-- The block rules have the patterns of the items that are blocked, in order. -/
theorem forall₂_blockRules (root : Mapping) :
    List.Forall₂ (fun item rule => IsBlockOf item rule.pattern)
      ((items root).filter fun item => Blocks (shared root) item)
      (PolicyDocument.ofEntries root).blockRules := by
  refine List.forall₂_map_right_iff.1 ?_
  rw [PolicyDocument.map_pattern_blockRules, rulings_ofEntries, List.filterMap_map]
  refine forall₂_filter_filterMap (fun item => ?_) (items root)
  rcases ruling_cases root item with
    ⟨hnone, hskip⟩ | ⟨hredirects, rule, hredirect, -⟩ | ⟨hblocks, pattern, hblock, hpattern⟩
  · exact .inr ⟨fun hitem => hnone hitem.1, congrArg Ruling.blocked? hskip⟩
  · exact .inr ⟨fun hitem => hitem.2 hredirects.2, congrArg Ruling.blocked? hredirect⟩
  · exact .inl ⟨hblocks, pattern, congrArg Ruling.blocked? hblock, hpattern⟩

/-- The items that are skipped are those without pattern. -/
theorem count_skip_rulings (root : Mapping) :
    (PolicyDocument.ofEntries root).rulings.count .skip =
      ((items root).filter fun item => ¬ HasPattern item).length := by
  rw [rulings_ofEntries, List.count, List.countP_map, List.countP_eq_length_filter]
  refine congrArg List.length (List.filter_congr fun item _ => ?_)
  rcases ruling_cases root item with
    ⟨hnone, hskip⟩ | ⟨hredirects, rule, hredirect, -⟩ | ⟨hblocks, pattern, hblock, -⟩
  · simp [hskip, hnone]
  · simp [hredirect, hredirects.1]
  · simp [hblock, hblocks.1]

/-! ## Locks -/

/-- Whether a policy asks for a lock by a digest: by the truth value alone, and by a text of sixty-four
hexadecimal digits. -/
def AsksForLock (root : Mapping) (digest : String) : Prop :=
  Yaml.Value.lookup "lock" root = some (.bool true) ∧
    Yaml.Value.lookup "authn" root = some (.string digest) ∧
    digest.toList.length = 64 ∧ ∀ ch ∈ digest.toList, ch ∈ Digest.hexDigits

variable {root : Mapping}

/-- A policy asks for a lock by the truth value alone. -/
theorem lock_ofEntries_iff : (PolicyDocument.ofEntries root).lock = true ↔
    Yaml.Value.lookup "lock" root = some (.bool true) := by
  rw [PolicyDocument.ofEntries]
  dsimp only
  split
  · next h => simp [h]
  · next h => simpa using h

/-- A policy states a digest by a text alone. -/
theorem authn_ofEntries_iff {digest : String} :
    (PolicyDocument.ofEntries root).authn = some digest ↔
      Yaml.Value.lookup "authn" root = some (.string digest) := textAt?_eq_some_iff

/-- A document has a lock with a digest if it asks for one and states the digest in its form. -/
theorem digest_accessLock_iff {doc : PolicyDocument} {digest : String} :
    doc.accessLock.digest = some digest ↔
      doc.lock = true ∧ doc.authn = some digest ∧ Digest.isWellFormed digest = true := by
  rw [PolicyDocument.accessLock]
  cases doc.lock with
  | false => simp [AccessLock.unlocked]
  | true =>
    cases doc.authn with
    | none => simp [AccessLock.unlocked]
    | some stated =>
      by_cases hform : Digest.isWellFormed stated = true
      · simp only [hform, if_true, AccessLock.locked, Option.some.injEq, true_and]
        constructor
        · rintro rfl
          exact ⟨rfl, hform⟩
        · exact fun h => h.1
      · simp only [hform, AccessLock.unlocked, Option.some.injEq, true_and]
        constructor
        · exact fun h => absurd h (by simp)
        · rintro ⟨rfl, h⟩
          exact absurd h hform

/-- A lock that has a digest asks for its password, and one that has none asks for nothing. -/
theorem accessLock_eq (doc : PolicyDocument) :
    doc.accessLock = doc.accessLock.digest.elim .unlocked .locked := by
  rw [PolicyDocument.accessLock]
  split
  · split <;> rfl
  · rfl

/-- A document has the lock for which its policy asks, and otherwise none. -/
theorem accessLock_cases (root : Mapping) :
    let lock := (PolicyDocument.ofEntries root).accessLock
    (∃ digest, AsksForLock root digest ∧ lock = .locked digest) ∨
      ((∀ digest, ¬ AsksForLock root digest) ∧ lock = .unlocked) := by
  intro lock
  have hasks (digest : String) : lock.digest = some digest ↔ AsksForLock root digest := by
    rw [digest_accessLock_iff, lock_ofEntries_iff, authn_ofEntries_iff, Digest.isWellFormed_iff,
      AsksForLock]
  have hlock : lock = lock.digest.elim .unlocked .locked := accessLock_eq _
  cases hdigest : lock.digest with
  | some digest =>
    rw [hdigest] at hlock
    exact .inl ⟨digest, (hasks digest).1 hdigest, hlock⟩
  | none =>
    rw [hdigest] at hlock
    refine .inr ⟨fun digest hdigest' => ?_, hlock⟩
    exact absurd (hdigest.symm.trans ((hasks digest).2 hdigest')) (by simp)

/-! ## Compiled policies -/

/-- Whether a policy is compiled to what its mapping says.  The items that are redirected and those that
are blocked each have their rules in their order, and the block rules are numbered from one; the items
without pattern are counted, so that every item is; and the lock is the one that the policy asks for. -/
structure IsCompiledTo (root : Mapping) (p : CompiledPolicy) (stats : CompileStats) : Prop where
  redirects : List.Forall₂ (IsRedirectOf (shared root))
    ((items root).filter fun item => Redirects (shared root) item) p.redirectRules
  blocks : List.Forall₂ (fun item rule => IsBlockOf item rule.pattern)
    ((items root).filter fun item => Blocks (shared root) item) p.blockRules
  numbers : p.blockRules.map (fun r => r.id.toNat) = List.range' 1 p.blockRules.length
  counts : stats = ⟨(items root).length, ((items root).filter fun item => ¬ HasPattern item).length,
    p.blockRules.length, p.redirectRules.length⟩
  total : stats.entries = stats.skipped + stats.blockRules + stats.redirectRules
  lock : (∃ digest, AsksForLock root digest ∧ p.lock = .locked digest) ∨
    ((∀ digest, ¬ AsksForLock root digest) ∧ p.lock = .unlocked)

/-- Every mapping with fewer than 2^32 items, whatever else stands in it, is a document with an entry for
each item, and is compiled to what it says. -/
theorem compiles_to_meaning (root : Mapping) (hitems : (items root).length < 2 ^ 32) :
    ∃ doc, PolicyDocument.ofValue (.mapping root) = .ok doc ∧
      (∀ text, Yaml.Value.ofText text = .ok (.mapping root) → PolicyDocument.ofText text = .ok doc) ∧
      List.Forall₂ IsEntryOf (items root) doc.entries ∧ IsCompiledTo root doc.compile doc.stats := by
  let doc := PolicyDocument.ofEntries root
  have hentries : doc.entries = (items root).map PolicyEntry.ofValue := entries_ofEntries root
  have hlength : doc.entries.length = (items root).length := by rw [hentries, List.length_map]
  have hblocks : doc.blockRules.length = (doc.rulings.filterMap Ruling.blocked?).length := by
    rw [← doc.map_pattern_blockRules, List.length_map]
  refine ⟨doc, rfl, fun text htext => ?_, ?_, ?_⟩
  · exact PolicyDocument.ofText_eq_ok_iff.2 ⟨root, htext, rfl⟩
  · rw [hentries, List.forall₂_map_right_iff]
    exact List.forall₂_same.2 fun item _ => isEntryOf_ofValue item
  · have hfew : doc.blockRules.length < 2 ^ 32 :=
      Nat.lt_of_le_of_lt doc.length_blockRules_le (hlength ▸ hitems)
    have hstats : doc.stats = ⟨(items root).length,
        ((items root).filter fun item => ¬ HasPattern item).length,
        doc.blockRules.length, doc.redirectRules.length⟩ := by
      rw [PolicyDocument.stats, hlength, count_skip_rulings]
    have htotal := length_rulings doc.rulings
    rw [← hblocks] at htotal
    refine ⟨forall₂_redirectRules root, forall₂_blockRules root, doc.map_id_blockRules hfew, hstats, ?_,
      accessLock_cases root⟩
    exact (List.length_map _).symm.trans htotal

/-- A redirect key with nothing under it redirects an item that has a pattern, a text in the place of the
mapping for all items redirects none, and an item without pattern takes no number. -/
theorem compiles_to_meaning_mixed :
    let digest := String.ofList (List.replicate 64 'A')
    let root : Mapping :=
      [(.string "lock", .bool true), (.string "authn", .string digest),
        (.string "global", .string "html"),
        (.string "urls", .sequence
          [.mapping [(.string "url", .string "a")],
            .mapping [(.string "html", .null), (.string "url", .string "r")],
            .mapping [(.string "url", .bool true), (.string "html", .string "x")],
            .string "bare",
            .mapping [(.string "url", .string "b")]])]
    (items root).length < 2 ^ 32 ∧
      IsCompiledTo root ⟨[⟨1, "a"⟩, ⟨2, "b"⟩], [⟨"r", ⟨none, none⟩, ⟨none, none⟩⟩], .locked digest⟩
        ⟨5, 2, 2, 1⟩ := by
  intro digest root
  have hitems : (items root).length < 2 ^ 32 := by decide
  obtain ⟨doc, hdoc, -, -, hcompiled⟩ := compiles_to_meaning root hitems
  obtain rfl : PolicyDocument.ofEntries root = doc := Except.ok.inj hdoc
  have hpolicy : (PolicyDocument.ofEntries root).compile =
      ⟨[⟨1, "a"⟩, ⟨2, "b"⟩], [⟨"r", ⟨none, none⟩, ⟨none, none⟩⟩], .locked digest⟩ := by decide
  have hstats : (PolicyDocument.ofEntries root).stats = ⟨5, 2, 2, 1⟩ := by decide
  rw [hpolicy, hstats] at hcompiled
  exact ⟨hitems, hcompiled⟩

end Meaning

end NavPolicy
