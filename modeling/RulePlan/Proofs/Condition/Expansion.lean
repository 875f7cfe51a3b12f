/-
  RulePlan.Proofs.Condition.Expansion — what conditions expand to.

  `Predicate.WellFormed` is what the readers of a plan count on: the predicate names a
  field, its operand fits its comparison and holds no blank text, only the image is
  asked for its absence, and a delimiter is recorded only where it is needed. It is
  carried from the submitted value through its reading as list or scalar, the reading
  as codes and patterns, and the expansion of sets. `Expanded` is the outline of an
  expansion: one predicate, memberships, or exclusions, and never none at all.
  Both hold of every expansion of every condition (`Condition.predicates_sound`).
-/

import RulePlan.Condition
import RulePlan.Proofs.Text.Strip

namespace RulePlan

/-! ## Well-formed predicates -/

/-- The comparison works on a list. -/
def Comparison.Listing (k : Comparison) : Prop := k = .oneOf ∨ k = .noneOf

instance (k : Comparison) : Decidable k.Listing := inferInstanceAs (Decidable (_ ∨ _))

/-- The operand is one that the comparison can work with. -/
structure Operand.Fits (o : Operand) (k : Comparison) : Prop where
  /-- A list with something in it, or one scalar. -/
  shape : if k.Listing then ∃ items, items ≠ [] ∧ o = .list items else ∃ s, o = .single s
  notBlank : ∀ s ∈ o.toList, s.isBlank = false
  pattern : k.takesPattern → ∃ body, o = .single (.text (String.ofList ('%' :: body ++ ['%'])))

structure Predicate.WellFormed (p : Predicate) : Prop where
  field_ne_empty : p.field ≠ ""
  field_trimmed : Text.trim p.field = p.field
  operand_fits : p.operand.Fits p.comparison
  absence : p.comparison = .isNull ∨ p.comparison = .notNull → p.field = imageField
  delimiter : ∀ d, p.delimiter? = some d →
    (p.comparison = .memberOf ∨ p.comparison = .notMemberOf) ∧ d ≠ "" ∧ d ≠ defaultDelimiter

/-- What a condition can expand to. -/
inductive Expanded : List Predicate → Prop
  | single (p : Predicate) : p.comparison ≠ .notMemberOf → Expanded [p]
  | members {ps : List Predicate} : ps ≠ [] → (∀ p ∈ ps, p.comparison = .memberOf) → Expanded ps
  | exclusions {ps : List Predicate} : ps ≠ [] → (∀ p ∈ ps, p.comparison = .notMemberOf) → Expanded ps

theorem Expanded.ne_nil {ps : List Predicate} (h : Expanded ps) : ps ≠ [] := by
  cases h with
  | single p _ => exact List.cons_ne_nil _ _
  | members hn _ => exact hn
  | exclusions hn _ => exact hn

/-- A condition either excludes with each of its predicates or with none. -/
theorem Expanded.excludes_or_not {ps : List Predicate} (h : Expanded ps) :
    (∀ p ∈ ps, p.comparison = .notMemberOf) ∨ ∀ p ∈ ps, p.comparison ≠ .notMemberOf := by
  cases h with
  | single p hp => exact .inr (by simpa using hp)
  | members _ hm => exact .inr fun p hp => by rw [hm p hp]; decide
  | exclusions _ hm => exact .inl hm

theorem Operand.mem_of_first? {o : Operand} {s : Scalar} (h : o.first? = some s) : s ∈ o.toList := by
  have hhead : o.first? = o.toList.head? := by cases o <;> rfl
  exact List.mem_of_head? (hhead.symm.trans h)

namespace Operand.Fits

variable {k : Comparison} {s : Scalar} {items : List Scalar}

theorem of_list (hk : k.Listing) (hn : items ≠ []) (hb : ∀ s ∈ items, s.isBlank = false) : (list items).Fits k := by
  refine ⟨by rw [if_pos hk]; exact ⟨items, hn, rfl⟩, hb, fun hp => ?_⟩
  rcases hk with rfl | rfl <;> cases hp

theorem of_single (hk : ¬ k.Listing) (hp : k.takesPattern = false) (hb : s.isBlank = false) : (single s).Fits k := by
  refine ⟨by rw [if_neg hk]; exact ⟨s, rfl⟩, fun t ht => ?_, fun h => by rw [hp] at h; cases h⟩
  rw [List.mem_singleton.mp ht]
  exact hb

theorem of_containsPattern (hk : ¬ k.Listing) : (single (containsPattern s)).Fits k := by
  refine ⟨by rw [if_neg hk]; exact ⟨_, rfl⟩, fun t ht => ?_, fun _ => ⟨_, rfl⟩⟩
  rw [List.mem_singleton.mp ht]
  have hb : Text.isBlank '%' = false := by decide
  simp [containsPattern, Scalar.isBlank, Text.allBlank, hb]

/-- An operand that fits has a first scalar, whatever the comparison. -/
theorem exists_first {o : Operand} (h : o.Fits k) : ∃ s, o.first? = some s := by
  have hs := h.shape
  split at hs
  · obtain ⟨items, hne, rfl⟩ := hs
    cases items with
    | nil => exact absurd rfl hne
    | cons s rest => exact ⟨s, rfl⟩
  · obtain ⟨s, rfl⟩ := hs
    exact ⟨s, rfl⟩

end Operand.Fits

/-! ## Submitted values -/

theorem Scalar.isBlank_asCode {s : Scalar} (h : s.isBlank = false) : s.asCode.isBlank = false := by
  unfold asCode
  split
  · split <;> rfl
  · split
    · rfl
    · exact h
  · exact h

theorem isBlank_of_mem_tokens {s t : String} (h : t ∈ tokens s) : (Scalar.text t).isBlank = false := by
  simp only [tokens, List.mem_map, List.mem_filter, Bool.not_eq_true', List.isEmpty_eq_false_iff] at h
  obtain ⟨piece, ⟨⟨raw, -, rfl⟩, hne⟩, rfl⟩ := h
  exact Text.allBlank_strip hne

namespace FormValue

/-- All that was submitted. -/
def scalars : FormValue → List Scalar
  | .absent => []
  | .single s => [s]
  | .list items => items

theorem mem_scalars_of_first? {v : FormValue} {s : Scalar} (h : v.first? = some s) : s ∈ v.scalars := by
  have hhead : v.first? = v.scalars.head? := by cases v <;> rfl
  exact List.mem_of_head? (hhead.symm.trans h)

theorem isBlank_of_mem_toList {v : FormValue} {s : Scalar} (h : s ∈ v.toList) : s.isBlank = false := by
  cases v with
  | absent => cases h
  | list items => simpa using (List.mem_filter.mp h).2
  | single t =>
    cases t with
    | text t =>
      obtain ⟨token, ht, rfl⟩ := List.mem_map.mp h
      exact isBlank_of_mem_tokens ht
    | bool b => rw [List.mem_singleton.mp h]; rfl
    | int n => rw [List.mem_singleton.mp h]; rfl
    | float x => rw [List.mem_singleton.mp h]; rfl

theorem operand?_list {v : FormValue} {o : Operand} (h : v.operand? true = some o) :
    ∃ items, items ≠ [] ∧ (∀ s ∈ items, s.isBlank = false) ∧ o = .list items := by
  simp only [operand?, if_true] at h
  split at h
  · cases h
  · split at h
    · cases h
    · rename_i hne
      cases h
      exact ⟨_, by simpa using hne, fun s hs => isBlank_of_mem_toList hs, rfl⟩

theorem operand?_single {v : FormValue} {o : Operand} (h : v.operand? false = some o) :
    ∃ s, s.isBlank = false ∧ o = .single s := by
  simp only [operand?, Bool.false_eq_true, if_false] at h
  split at h
  · cases h
  · obtain ⟨s, hs, rfl⟩ := Option.map_eq_some_iff.mp h
    exact ⟨s, by simpa using (Option.filter_eq_some_iff.mp hs).2, rfl⟩

end FormValue

/-! ## Operators -/

/-- Every symbol stands for the comparison of some operator, an unknown one for that of `is`. -/
theorem exists_operator_of_comparisonOf (symbol : String) : ∃ o : Operator, comparisonOf symbol = o.comparison := by
  unfold comparisonOf Comparison.resolve
  cases Operator.ofSymbol? symbol with
  | some o => exact ⟨o, rfl⟩
  | none => exact ⟨.is, rfl⟩

theorem Operator.takesList_comparison (o : Operator) : o.comparison.takesList = true ↔ o.comparison.Listing := by
  cases o <;> decide

theorem Operator.comparison_ne_notMemberOf (op : Operator) : op.comparison ≠ .notMemberOf := by
  cases op <;> decide

/-- The operator that lists where this one compares with a single value. -/
def Operator.listed : Operator → Operator
  | .is => .oneOf
  | .isNot => .notOneOf
  | op => op

theorem Condition.listComparison_comparison (op : Operator) : listComparison op.comparison = op.listed.comparison := by
  cases op <;> rfl

theorem normalize_fits (v : FormValue) (op : Operator) (storage : Storage) {o : Operand}
    (h : normalize v op.comparison storage = some o) : o.Fits op.comparison := by
  obtain ⟨x, hx, rfl⟩ := Option.map_eq_some_iff.mp h
  cases hl : op.comparison.takesList with
  | true =>
    rw [hl] at hx
    obtain ⟨items, hne, hb, rfl⟩ := FormValue.operand?_list hx
    have hk := op.takesList_comparison.mp hl
    unfold Operand.asCodes
    split
    · refine .of_list hk (by simpa using hne) fun s hs => ?_
      obtain ⟨t, ht, rfl⟩ := List.mem_map.mp hs
      exact Scalar.isBlank_asCode (hb t ht)
    · exact .of_list hk hne hb
  | false =>
    rw [hl] at hx
    obtain ⟨s, hb, rfl⟩ := FormValue.operand?_single hx
    have hk : ¬ op.comparison.Listing := fun hk => by simp [op.takesList_comparison.mpr hk] at hl
    -- the codes of a value that is not blank are not blank either, so both readings end alike
    obtain ⟨t, ht, he⟩ : ∃ t : Scalar, t.isBlank = false ∧ (Operand.single s).asCodes storage = .single t := by
      unfold Operand.asCodes
      split
      · exact ⟨s.asCode, Scalar.isBlank_asCode hb, rfl⟩
      · exact ⟨s, hb, rfl⟩
    rw [he]
    unfold Operand.asPattern
    cases hp : op.comparison.takesPattern with
    | true => exact .of_containsPattern hk
    | false => exact .of_single hk hp ht

/-! ## Predicates -/

namespace Predicate.WellFormed

variable {code : String} {o : Operand}

theorem of_operator (hc : code ≠ "") (ht : Text.trim code = code) (op : Operator) (hx : o.Fits op.comparison) :
    ({ field := code, comparison := op.comparison, operand := o } : Predicate).WellFormed := by
  refine ⟨hc, ht, hx, fun h => ?_, fun d hd => by cases hd⟩
  cases op <;> rcases h with h | h <;> cases h

/-- A test for membership or its absence, with the delimiter of the attribute. -/
theorem of_membership (hc : code ≠ "") (ht : Text.trim code = code) {k : Comparison}
    (hk : k = .memberOf ∨ k = .notMemberOf) {s : Scalar} (hb : s.isBlank = false) (delimiter : String) :
    ((Predicate.single code k s).withDelimiter delimiter).WellFormed := by
  have hl : ∀ k, k = Comparison.memberOf ∨ k = .notMemberOf → ¬ k.Listing ∧ k.takesPattern = false := by
    rintro _ (rfl | rfl) <;> decide
  refine ⟨hc, ht, .of_single (hl k hk).1 (hl k hk).2 hb, fun h => ?_, fun d hd => ⟨hk, ?_⟩⟩
  · rcases hk with rfl | rfl <;> rcases h with h | h <;> cases h
  · simp only [withDelimiter] at hd
    split at hd
    · cases hd
    · rename_i hne
      cases hd
      exact not_or.mp hne

end Predicate.WellFormed

namespace Condition

/-- An expansion has one of the outlines of `Expanded`, of predicates that are well formed. -/
def Sound (ps : List Predicate) : Prop := Expanded ps ∧ ∀ p ∈ ps, p.WellFormed

theorem sound_single {p : Predicate} (hp : p.WellFormed) (hk : p.comparison ≠ .notMemberOf) : Sound [p] :=
  ⟨.single p hk, by simpa using hp⟩

theorem sound_memberships {code : String} (hc : code ≠ "") (ht : Text.trim code = code) (delimiter : String)
    {k : Comparison} (hk : k = .memberOf ∨ k = .notMemberOf) {items : List Scalar} (hne : items ≠ [])
    (hb : ∀ s ∈ items, s.isBlank = false) :
    Sound (items.map fun s => (Predicate.single code k s).withDelimiter delimiter) := by
  have hall : ∀ p ∈ items.map (fun s => (Predicate.single code k s).withDelimiter delimiter), p.comparison = k := by
    intro p hp
    obtain ⟨s, -, rfl⟩ := List.mem_map.mp hp
    rfl
  refine ⟨?_, fun p hp => ?_⟩
  · rcases hk with rfl | rfl
    · exact .members (by simpa using hne) hall
    · exact .exclusions (by simpa using hne) hall
  · obtain ⟨s, hs, rfl⟩ := List.mem_map.mp hp
    exact .of_membership hc ht hk (hb s hs) delimiter

theorem setPredicates_sound {code : String} (hc : code ≠ "") (ht : Text.trim code = code) (delimiter : String)
    (op : Operator) {o : Operand} (hx : o.Fits op.comparison) :
    Sound (setPredicates code delimiter op.comparison o) := by
  have hplain := sound_single (.of_operator hc ht op hx) (Operator.comparison_ne_notMemberOf op)
  have hshape := hx.shape
  have hb := hx.notBlank
  by_cases hl : op.comparison.Listing
  · rw [if_pos hl] at hshape
    obtain ⟨items, hne, rfl⟩ := hshape
    rcases hl with hk | hk
    · rw [hk]
      exact sound_memberships hc ht delimiter (.inl rfl) hne hb
    · rw [hk]
      exact sound_memberships hc ht delimiter (.inr rfl) hne hb
  · rw [if_neg hl] at hshape
    obtain ⟨s, rfl⟩ := hshape
    have hone := fun k (hk : k = Comparison.memberOf ∨ k = .notMemberOf) =>
      sound_memberships hc ht delimiter hk (List.cons_ne_nil s []) hb
    cases op with
    | is => exact hone .memberOf (.inl rfl)
    | isNot => exact hone .notMemberOf (.inr rfl)
    | oneOf => exact absurd (.inl rfl) hl
    | notOneOf => exact absurd (.inr rfl) hl
    | atLeast | atMost | greaterThan | lessThan | contains | notContains => exact hplain

theorem attributePredicates_sound {c : Condition} {code : String} (hc : code ≠ "") (ht : Text.trim code = code)
    {a : Attribute} {ps : List Predicate} (h : c.attributePredicates code a = .ok ps) : Sound ps := by
  obtain ⟨op, hop⟩ := exists_operator_of_comparisonOf c.operator
  simp only [attributePredicates, hop] at h
  split at h
  · cases h
  · rename_i o ho
    have hx := normalize_fits c.value op a.storage ho
    split at h
    · cases h
      exact setPredicates_sound hc ht a.delimiter op hx
    · cases h
      exact sound_single (.of_operator hc ht op hx) (Operator.comparison_ne_notMemberOf op)

theorem imagePredicate_sound {c : Condition} {p : Predicate} (h : c.imagePredicate = .ok p) : Sound [p] := by
  simp only [imagePredicate] at h
  split at h
  · cases h
  · cases h
    have hk : ∀ b : Bool, (if b then Comparison.notNull else .isNull) ≠ .notMemberOf := by decide
    have hl : ∀ b : Bool, ¬ (if b then Comparison.notNull else .isNull).Listing := by decide
    have hp : ∀ b : Bool, (if b then Comparison.notNull else .isNull).takesPattern = false := by decide
    have hf : imageField ≠ "" ∧ Text.trim imageField = imageField := by decide
    exact sound_single ⟨hf.1, hf.2, .of_single (hl _) (hp _) rfl, fun _ => rfl, fun d hd => by cases hd⟩ (hk _)

theorem isBlank_of_mem_identifiers {v : FormValue} {s : Scalar} (h : s ∈ identifiers v) : s.isBlank = false := by
  obtain ⟨t, ht, rfl⟩ := List.mem_map.mp h
  refine Scalar.isBlank_asCode ?_
  obtain ⟨item, -, hi⟩ := List.mem_flatMap.mp ht
  split at hi
  · obtain ⟨token, htoken, rfl⟩ := List.mem_map.mp hi
    exact isBlank_of_mem_tokens htoken
  · rename_i hnot
    rw [List.mem_singleton.mp hi]
    cases item with
    | text s => exact absurd rfl (hnot s)
    | bool _ | int _ | float _ => rfl

theorem identifierPredicate_sound {c : Condition} {p : Predicate} (h : c.identifierPredicate = .ok p) : Sound [p] := by
  unfold identifierPredicate at h
  split at h
  · cases h
  · rename_i id ids hids
    have hb : ∀ s ∈ id :: ids, s.isBlank = false := fun s hs => isBlank_of_mem_identifiers (hids ▸ hs)
    obtain ⟨op, hop⟩ := exists_operator_of_comparisonOf c.operator
    simp only [hop, listComparison_comparison] at h
    generalize op.listed = op' at h
    cases h
    refine sound_single (.of_operator (by decide) (by decide) op' ?_) (Operator.comparison_ne_notMemberOf op')
    cases op' with
    | oneOf => exact .of_list (.inl rfl) (List.cons_ne_nil _ _) hb
    | notOneOf => exact .of_list (.inr rfl) (List.cons_ne_nil _ _) hb
    | contains | notContains => exact .of_containsPattern (by decide)
    | is | isNot | atLeast | atMost | greaterThan | lessThan => exact .of_single (by decide) rfl (hb id List.mem_cons_self)

theorem predicates_sound {c : Condition} {known : Option Attribute} {ps : List Predicate}
    (h : c.predicates known = .ok ps) : Sound ps := by
  simp only [predicates] at h
  split at h
  · cases h
  · rename_i hne
    split at h
    · cases hp : c.imagePredicate with
      | error e => rw [hp] at h; cases h
      | ok p => rw [hp] at h; cases h; exact imagePredicate_sound hp
    · split at h
      · cases hp : c.identifierPredicate with
        | error e => rw [hp] at h; cases h
        | ok p => rw [hp] at h; cases h; exact identifierPredicate_sound hp
      · cases known with
        | none => cases h
        | some a => exact attributePredicates_sound hne (Text.trim_trim c.field) h

end Condition

end RulePlan
