import NavPolicy.Policy.Compiled
import NavPolicy.Policy.Reader
import NavPolicy.Proofs.Pattern.Wildcard
import NavPolicy.Redirect.Matcher

/-!
# What policy texts mean for navigations

`Meaning.firstHit` reads off a policy text where a navigation leads, from the mapping that the text means
and without compiling anything: the entries are gone through in order, an entry counts if its pattern
stands for the URL and if it or the policy as a whole has a redirect key, and of an entry that counts the
own page, the own document, the page for all and the document for all are tried in this order.

The compiled policy says the same (`target_eq_firstHit`): the candidates of the rules that match a URL,
walked to the first that is usable, end where `firstHit` ends.
-/

namespace NavPolicy

/-! ## Documents -/

/-- A text writes a document exactly when it means a mapping, and then the one that this says. -/
theorem PolicyDocument.ofText_eq_ok_iff {text : String} {doc : PolicyDocument} :
    ofText text = .ok doc ↔
      ∃ root, Yaml.Value.ofText text = .ok (.mapping root) ∧ doc = ofEntries root := by
  rw [ofText]
  cases Yaml.Value.ofText text with
  | error e => simp
  | ok v => cases v <;> simp [ofValue, eq_comm]

/-- A text that means no mapping writes no document. -/
theorem PolicyDocument.exists_error_of_no_mapping {text : String}
    (h : ∀ root, Yaml.Value.ofText text ≠ .ok (.mapping root)) : ∃ e, ofText text = .error e := by
  cases hdoc : ofText text with
  | error e => exact ⟨e, rfl⟩
  | ok doc =>
    obtain ⟨root, hroot, -⟩ := ofText_eq_ok_iff.1 hdoc
    exact absurd hroot (h root)

namespace Meaning

/-- The keys and values of a mapping. -/
abbrev Mapping := List (Yaml.Value × Yaml.Value)

/-! ## The meaning of a policy -/

/-- The entries of a policy. -/
def items (root : Mapping) : List Yaml.Value :=
  match Yaml.Value.lookup "urls" root with
  | some (.sequence items) => items
  | _ => []

/-- What a policy says for all its entries. -/
def shared (root : Mapping) : Mapping :=
  match Yaml.Value.lookup "global" root with
  | some (.mapping entries) => entries
  | _ => []

/-- Whether a mapping has a redirect key, whatever stands under it. -/
def HasRedirectKey (entries : Mapping) : Prop :=
  (Yaml.Value.lookup "html" entries).isSome ∨ (Yaml.Value.lookup "htmlsrc" entries).isSome

instance (entries : Mapping) : Decidable (HasRedirectKey entries) :=
  inferInstanceAs (Decidable (_ ∨ _))

/-- The page that a mapping names, if it answers. -/
def livePage? (live : String → Bool) (entries : Mapping) : Option String :=
  (textAt? entries "htmlsrc").filter fun url => url ≠ "" && live url

/-- The URL of the document that a mapping holds, if there is any text to it. -/
def document? (entries : Mapping) : Option String :=
  ((textAt? entries "html").filter (· ≠ "")).map inlineUrl

/-- The target that an entry offers. -/
def offer? (live : String → Bool) (own all : Mapping) : Option String :=
  (livePage? live own).or ((document? own).or ((livePage? live all).or (document? all)))

/-- The target to which an entry leads a URL. -/
def hit? (live : String → Bool) (all : Mapping) (url : String) : Yaml.Value → Option String
  | .mapping entries =>
    match textAt? entries "url" with
    | some pattern =>
      if pattern.utf8ByteSize ≤ 8192 ∧ Pattern.Denotes pattern.toList url.toList ∧
          (HasRedirectKey entries ∨ HasRedirectKey all) then offer? live entries all
      else none
    | none => none
  | _ => none

/-- The target to which a policy leads a URL. -/
def firstHit (live : String → Bool) (root : Mapping) (url : String) : Option String :=
  (items root).findSome? (hit? live (shared root) url)

/-! ## Compiled policies -/

/-- The target that a candidate is, if it is usable. -/
def usable? (live : String → Bool) : Candidate → Option String
  | .inline url => some url
  | .remote url => if live url then some url else none

/-- Where pages answer always or never, a walk ends at the first usable candidate. -/
theorem target_firstUsable {answers : Nat → String → Bool} {live : String → Bool}
    (h : ∀ n url, answers n url = live url) (n : Nat) (candidates : List Candidate) :
    (Candidate.firstUsable answers n candidates).target = candidates.findSome? (usable? live) := by
  induction candidates generalizing n with
  | nil => rfl
  | cons candidate rest ih =>
    cases candidate with
    | inline url => rfl
    | remote url =>
      rw [Candidate.firstUsable, h, List.findSome?_cons, usable?]
      by_cases hlive : live url = true
      · rw [if_pos hlive, if_pos hlive]
      · rw [if_neg hlive, if_neg hlive]
        exact ih (n + 1)

/-- The page of a destination counts if it is live. -/
theorem findSome?_remote (live : String → Bool) (d : Destination) :
    (d.remote?.map Candidate.remote).toList.findSome? (usable? live) =
      d.remoteUrl.filter fun url => url ≠ "" && live url := by
  rw [Destination.remote?]
  cases d.remoteUrl with
  | none => rfl
  | some url =>
    by_cases hurl : url = ""
    · subst hurl
      rfl
    · simp [hurl, Option.filter, usable?]

/-- The document of a destination counts as it is. -/
theorem findSome?_inline (live : String → Bool) (d : Destination) :
    (d.inline?.map fun html => Candidate.inline (inlineUrl html)).toList.findSome? (usable? live) =
      (d.inlineHtml.filter (· ≠ "")).map inlineUrl := by
  rw [Destination.inline?]
  cases d.inlineHtml.filter (· ≠ "") <;> rfl

/-- The chain of two destinations offers what their mappings do. -/
theorem findSome?_chain (live : String → Bool) (own all : Mapping) :
    ((RedirectClause.ofEntries own).destination.chain
      (RedirectClause.ofEntries all).destination).findSome? (usable? live) =
        offer? live own all := by
  rw [Destination.chain, Destination.candidates, Destination.candidates, List.findSome?_append,
    List.findSome?_append, List.findSome?_append, findSome?_remote, findSome?_inline,
    findSome?_remote, findSome?_inline, offer?, Option.or_assoc]
  rfl

/-- Whether a redirect rule has a pattern that stands for a URL. -/
def Applies (url : String) (r : RedirectRule) : Prop :=
  r.pattern.utf8ByteSize ≤ 8192 ∧ Pattern.Denotes r.pattern.toList url.toList

instance (url : String) (r : RedirectRule) : Decidable (Applies url r) :=
  inferInstanceAs (Decidable (_ ∧ _))

/-- The first rule is found just where it applies. -/
theorem matching_ofRules_cons (r : RedirectRule) (rules : List RedirectRule) (url : String) :
    (Matcher.ofRules (r :: rules)).matching url =
      if Applies url r then r :: (Matcher.ofRules rules).matching url
      else (Matcher.ofRules rules).matching url := by
  rw [Matcher.matching, Matcher.ofRules, List.filterMap_cons, Matcher.entry?, Pattern.compile]
  by_cases hsize : r.pattern.utf8ByteSize ≤ Pattern.maxBytes
  · rw [dif_pos hsize]
    dsimp only
    have hiff := Pattern.accepts_iff_denotes ⟨r.pattern, hsize⟩ url
    rw [List.filter_cons]
    by_cases haccepts : Pattern.accepts ⟨r.pattern, hsize⟩ url = true
    · rw [if_pos haccepts, if_pos ⟨hsize, hiff.1 haccepts⟩]
      rfl
    · rw [if_neg haccepts, if_neg fun h => haccepts (hiff.2 h.2)]
      rfl
  · rw [dif_neg hsize, if_neg fun h => hsize h.1]
    rfl

/-- The rules that a matcher finds are those that apply, in order. -/
theorem matching_ofRules (rules : List RedirectRule) (url : String) :
    (Matcher.ofRules rules).matching url = rules.filter fun r => Applies url r := by
  induction rules with
  | nil => rfl
  | cons r rules ih => simp only [matching_ofRules_cons, ih, List.filter_cons, decide_eq_true_eq]

/-- What a policy says for all its entries is what its document has as default. -/
theorem defaultRedirect_ofEntries (root : Mapping) :
    (PolicyDocument.ofEntries root).defaultRedirect = .ofEntries (shared root) := by
  rw [PolicyDocument.ofEntries, shared]
  cases Yaml.Value.lookup "global" root with
  | none => rfl
  | some v => cases v <;> rfl

/-- The entries of a document are those of its mapping. -/
theorem entries_ofEntries (root : Mapping) :
    (PolicyDocument.ofEntries root).entries = (items root).map PolicyEntry.ofValue := by
  rw [PolicyDocument.ofEntries, items]
  cases Yaml.Value.lookup "urls" root with
  | none => rfl
  | some v => cases v <;> rfl

/-- An entry leads a URL where the redirect rule leads it that the entry is compiled to. -/
theorem hit?_eq (live : String → Bool) (root : Mapping) (url : String) (item : Yaml.Value) :
    hit? live (shared root) url item =
      (((PolicyDocument.ofEntries root).ruling (.ofValue item)).redirected?).bind fun r =>
        if Applies url r then r.candidates.findSome? (usable? live) else none := by
  cases item with
  | mapping entries =>
    rw [hit?, PolicyEntry.ofValue, PolicyDocument.ruling, defaultRedirect_ofEntries]
    dsimp only
    cases textAt? entries "url" with
    | none => rfl
    | some pattern =>
      dsimp only
      by_cases hkey : HasRedirectKey entries ∨ HasRedirectKey (shared root)
      · have hdeclared : ((RedirectClause.ofEntries entries).declared ||
            (RedirectClause.ofEntries (shared root)).declared) = true := by
          simpa [RedirectClause.ofEntries, HasRedirectKey] using hkey
        rw [if_pos hdeclared]
        simp only [hkey, and_true]
        exact if_congr Iff.rfl (findSome?_chain live entries (shared root)).symm rfl
      · have hdeclared : ¬ ((RedirectClause.ofEntries entries).declared ||
            (RedirectClause.ofEntries (shared root)).declared) = true := by
          simpa [RedirectClause.ofEntries, HasRedirectKey] using hkey
        rw [if_neg hdeclared, if_neg fun h => hkey h.2.2]
        rfl
  | _ => rfl

/-- A search through the rules of some rulings is one through the rulings. -/
theorem findSome?_rules {α : Type} (f : α → Option RedirectRule) (p : RedirectRule → Bool)
    (g : RedirectRule → Option String) (l : List α) :
    ((l.filterMap f).filter p).findSome? g =
      l.findSome? fun a => (f a).bind fun r => if p r then g r else none := by
  induction l with
  | nil => rfl
  | cons a l ih =>
    rw [List.filterMap_cons, List.findSome?_cons]
    cases f a with
    | none => exact ih
    | some r =>
      dsimp only [Option.bind_some]
      rw [List.filter_cons]
      by_cases hp : p r = true
      · rw [if_pos hp, if_pos hp, List.findSome?_cons, ih]
      · rw [if_neg hp, if_neg hp, ih]

/-- A search through the candidates of rules is one through the rules. -/
theorem findSome?_flatMap {α β γ : Type} (f : α → List β) (g : β → Option γ) (l : List α) :
    (l.flatMap f).findSome? g = l.findSome? fun a => (f a).findSome? g := by
  induction l with
  | nil => rfl
  | cons a l ih =>
    rw [List.flatMap_cons, List.findSome?_append, List.findSome?_cons, ih]
    cases (f a).findSome? g <;> rfl

/-- The candidates of the compiled rules that match a URL, walked to the first that is usable, end where
the policy leads the URL. -/
theorem target_eq_firstHit {answers : Nat → String → Bool} {live : String → Bool}
    (h : ∀ n url, answers n url = live url) (n : Nat) (root : Mapping) (url : String) :
    (Candidate.firstUsable answers n
      (((Matcher.ofRules (PolicyDocument.ofEntries root).redirectRules).matching url).flatMap
        RedirectRule.candidates)).target = firstHit live root url := by
  rw [target_firstUsable h, findSome?_flatMap, matching_ofRules, PolicyDocument.redirectRules,
    PolicyDocument.rulings, entries_ofEntries, List.map_map, List.filterMap_map, findSome?_rules,
    firstHit]
  congr 1
  funext item
  rw [hit?_eq]
  simp only [decide_eq_true_eq]
  rfl

end Meaning

end NavPolicy
