/-
  RulePlan.Proofs.Condition.Opposite — conditions that ask for the opposite.

  Every comparison has an opposite: what it lets through of the values that are there,
  the other keeps out. So has every operator of the rule form. Whatever is done to a
  submitted value on its way to an operand, for a list, a pattern, codes, identifiers
  or a stored set, is the same for both of them; hence the condition with the opposite
  operator has the opposite predicates, or is left out for the same reason
  (`Condition.expansion_opposite`).

  Two scalars are in some order as long as neither of them is a double that is no
  number. Without such doubles in the value, the predicates of a condition are decided
  (`Predicate.Decided`): of a record that has the field they let through what their
  opposites keep out, and a record without the field passes neither.
-/

import RulePlan.Proofs.Condition.Listing
import RulePlan.Proofs.Plan.Order

namespace RulePlan

/-! ## Opposites -/

def Comparison.opposite : Comparison → Comparison
  | .eq => .neq
  | .neq => .eq
  | .gt => .lte
  | .lte => .gt
  | .gte => .lt
  | .lt => .gte
  | .like => .nlike
  | .nlike => .like
  | .oneOf => .noneOf
  | .noneOf => .oneOf
  | .isNull => .notNull
  | .notNull => .isNull
  | .memberOf => .notMemberOf
  | .notMemberOf => .memberOf

def Operator.opposite : Operator → Operator
  | .is => .isNot
  | .isNot => .is
  | .atLeast => .lessThan
  | .lessThan => .atLeast
  | .atMost => .greaterThan
  | .greaterThan => .atMost
  | .contains => .notContains
  | .notContains => .contains
  | .oneOf => .notOneOf
  | .notOneOf => .oneOf

def Predicate.opposite (p : Predicate) : Predicate := { p with comparison := p.comparison.opposite }

namespace Comparison

@[simp] theorem opposite_opposite (k : Comparison) : k.opposite.opposite = k := by
  cases k <;> rfl

@[simp] theorem takesList_opposite (k : Comparison) : k.opposite.takesList = k.takesList := by
  cases k <;> rfl

@[simp] theorem takesPattern_opposite (k : Comparison) : k.opposite.takesPattern = k.takesPattern := by
  cases k <;> rfl

end Comparison

theorem Operator.comparison_opposite (o : Operator) : o.opposite.comparison = o.comparison.opposite := by
  cases o <;> rfl

@[simp] theorem Predicate.opposite_opposite (p : Predicate) : p.opposite.opposite = p := by
  simp [opposite]

/-! ## The same value for both -/

theorem Operand.asPattern_opposite (k : Comparison) (o : Operand) : o.asPattern k.opposite = o.asPattern k := by
  cases o <;> simp [asPattern]

/-- A comparison and its opposite get the same operand. -/
theorem normalize_opposite (v : FormValue) (k : Comparison) (storage : Storage) :
    normalize v k.opposite storage = normalize v k storage := by
  simp only [normalize, Comparison.takesList_opposite, Operand.asPattern_opposite]

namespace Condition

variable {lookup : Lookup} {f : String} {v : FormValue}

/-- A stored set is tested for the members that the opposite comparison excludes. -/
theorem setPredicates_opposite (code delimiter : String) (o : Operator) (x : Operand) :
    setPredicates code delimiter o.opposite.comparison x =
      (setPredicates code delimiter o.comparison x).map Predicate.opposite := by
  cases o <;> cases x <;> simp [setPredicates, Operator.opposite, Operator.comparison, Predicate.opposite,
    Predicate.withDelimiter, Predicate.single, Comparison.opposite]

theorem attributePredicates_opposite (o : Operator) (code : String) (a : Attribute) :
    (⟨f, o.opposite.symbol, v⟩ : Condition).attributePredicates code a =
      ((⟨f, o.symbol, v⟩ : Condition).attributePredicates code a).map (List.map Predicate.opposite) := by
  simp only [attributePredicates, comparisonOf_symbol, o.comparison_opposite, normalize_opposite]
  cases normalize v o.comparison a.storage with
  | none => rfl
  | some x =>
    by_cases hs : a.storage = .codeSet
    · simp only [if_pos hs, ← o.comparison_opposite, setPredicates_opposite, Except.map]
    · simp only [if_neg hs, Except.map, List.map_cons, List.map_nil, Predicate.opposite]

theorem identifierPredicate_opposite (o : Operator) :
    (⟨f, o.opposite.symbol, v⟩ : Condition).identifierPredicate =
      ((⟨f, o.symbol, v⟩ : Condition).identifierPredicate).map Predicate.opposite := by
  simp only [identifierPredicate, comparisonOf_symbol]
  cases identifiers v with
  | nil => rfl
  | cons id ids => cases o <;> rfl

/-- An image is asked for by `is` and by `is not`, one negating the other. -/
theorem imagePredicate_opposite :
    (⟨f, Operator.isNot.symbol, v⟩ : Condition).imagePredicate =
      ((⟨f, Operator.is.symbol, v⟩ : Condition).imagePredicate).map Predicate.opposite := by
  have his : Text.trim Operator.is.symbol ≠ Operator.isNot.symbol := by decide
  have hnot : Text.trim Operator.isNot.symbol = Operator.isNot.symbol := by decide
  have hxor : ∀ selected : Bool, (if selected ^^ true then Comparison.notNull else .isNull) =
      (if selected ^^ false then Comparison.notNull else .isNull).opposite := by decide
  unfold imagePredicate
  by_cases hv : v.isAbsent
  · simp only [if_pos hv, Except.map]
  · simp only [if_neg hv, his, hnot, decide_true, decide_false, Except.map, Predicate.opposite, Predicate.single, hxor]

/-- The condition with the opposite operator has the opposite predicates, or none for the same
    reason. -/
theorem expansion_opposite {o : Operator} (h : Text.trim f = hasImageField → o = .is) :
    (⟨f, o.opposite.symbol, v⟩ : Condition).expansion lookup =
      ((⟨f, o.symbol, v⟩ : Condition).expansion lookup).map (List.map Predicate.opposite) := by
  have hone : ∀ x : Except DropReason Predicate, (x.map Predicate.opposite).map ([·]) =
      (x.map ([·])).map (List.map Predicate.opposite) := by
    intro x
    cases x <;> rfl
  have hcode : (⟨f, o.opposite.symbol, v⟩ : Condition).code? = (⟨f, o.symbol, v⟩ : Condition).code? := rfl
  simp only [expansion, hcode, predicates]
  split
  · rfl
  · split
    · next himage =>
      obtain rfl := h himage
      rw [← hone, ← imagePredicate_opposite, Operator.opposite]
    · split
      · rw [← hone, ← identifierPredicate_opposite]
      · split
        · rfl
        · exact attributePredicates_opposite o _ _

end Condition

/-! ## Values without NaN -/

theorem Scalar.isNaN_asCode {s : Scalar} (h : s.isNaN = false) : s.asCode.isNaN = false := by
  unfold asCode
  split
  · split
    · rfl
    · exact h
  · split <;> rfl
  · exact h

namespace FormValue

variable {v : FormValue} (hv : ∀ s ∈ v.scalars, s.isNaN = false)
include hv

theorem isNaN_of_mem_toList : ∀ s ∈ v.toList, s.isNaN = false := by
  cases v with
  | absent => exact hv
  | list items =>
    intro s hs
    exact hv s (List.mem_of_mem_filter hs)
  | single t =>
    cases t with
    | text t =>
      rw [toList, List.forall_mem_map]
      intro token _
      rfl
    | bool | int | float => exact hv

theorem isNaN_of_first? {s : Scalar} (h : v.first? = some s) : s.isNaN = false := hv s (mem_scalars_of_first? h)

theorem isNaN_of_operand? {takesList : Bool} {o : Operand} (h : v.operand? takesList = some o) :
    ∀ s ∈ o.toList, s.isNaN = false := by
  unfold operand? at h
  split at h
  · cases h
  · split at h
    · split at h
      · cases h
      · cases h
        exact isNaN_of_mem_toList hv
    · obtain ⟨s, hs, rfl⟩ := Option.map_eq_some_iff.mp h
      intro t ht
      rw [List.mem_singleton.mp ht]
      exact isNaN_of_first? hv (Option.filter_eq_some_iff.mp hs).1

theorem isNaN_of_normalize {k : Comparison} {storage : Storage} {o : Operand} (h : normalize v k storage = some o) :
    ∀ s ∈ o.toList, s.isNaN = false := by
  have hreading : ∀ s : Scalar, s.isNaN = false → (storage.reading s).isNaN = false := by
    intro s hs
    unfold Storage.reading
    split
    · exact Scalar.isNaN_asCode hs
    · exact hs
  obtain ⟨x, hx, rfl⟩ := Option.map_eq_some_iff.mp h
  have hscalars := isNaN_of_operand? hv hx
  rw [Operand.asCodes_eq]
  cases x with
  | list items =>
    exact List.forall_mem_map.mpr fun s hs => hreading s (hscalars s hs)
  | single s =>
    intro t ht
    rw [List.mem_singleton.mp ht]
    split
    · rfl
    · exact hreading s (hscalars s (List.mem_singleton_self s))

theorem isNaN_of_mem_identifiers : ∀ s ∈ Condition.identifiers v, s.isNaN = false := by
  refine List.forall_mem_map.mpr fun s hs => Scalar.isNaN_asCode ?_
  obtain ⟨item, hitem, hs⟩ := List.mem_flatMap.mp hs
  split at hs
  · obtain ⟨token, -, rfl⟩ := List.mem_map.mp hs
    rfl
  · rw [List.mem_singleton.mp hs]
    exact isNaN_of_mem_toList hv item hitem

end FormValue

/-! ## Decided predicates -/

theorem Operator.comparison_asksForValue (o : Operator) : o.comparison ≠ .isNull ∧ o.comparison ≠ .notNull := by
  cases o <;> decide

namespace Predicate

variable {p : Predicate} {field : String} {actual : Scalar} {record : Record}

/-- Of a value that is there, a predicate says what its opposite denies. -/
theorem holdsOf_opposite {s : Scalar} (hfirst : p.operand.first? = some s) (hs : s.isNaN = false)
    (ha : actual.isNaN = false) : p.opposite.holdsOf actual = !p.holdsOf actual := by
  obtain ⟨order, horder⟩ := Scalar.looselyCompare_isSome ha hs
  have hle : [Ordering.lt, .eq].contains order = !([Ordering.gt].contains order) := by cases order <;> rfl
  have hlt : [Ordering.lt].contains order = !([Ordering.gt, .eq].contains order) := by cases order <;> rfl
  obtain ⟨field, k, operand, delimiter?⟩ := p
  simp only at hfirst
  cases k with
  | isNull | notNull => rfl
  | gt | gte | lt | lte =>
    simp only [opposite, Comparison.opposite, holdsOf, hfirst, horder, hle, hlt, Bool.not_not]
  | eq | neq | like | nlike | memberOf | notMemberOf =>
    simp only [opposite, Comparison.opposite, holdsOf, hfirst, delimiter, Bool.not_not]
  | oneOf | noneOf => simp only [opposite, Comparison.opposite, holdsOf, Bool.not_not]

/-- What a predicate needs to be decided by the value of a field: it is about that field, asks for
    more than whether the value is there, and has only numbers and texts to compare with. -/
structure Decided (p : Predicate) (field : String) : Prop where
  field_eq : p.field = field
  asksForValue : p.comparison ≠ .isNull ∧ p.comparison ≠ .notNull
  isNaN : ∀ s ∈ p.operand.toList, s.isNaN = false

namespace Decided

theorem matches_of_missing (h : p.Decided field) (hr : record field = none) : p.matches record = false := by
  rw [Predicate.matches, h.field_eq, hr]
  exact decide_eq_false h.asksForValue.1

theorem matches_opposite (h : p.Decided field) (hw : p.WellFormed) (hr : record field = some actual)
    (ha : actual.isNaN = false) : p.opposite.matches record = !p.matches record := by
  obtain ⟨s, hs⟩ := hw.operand_fits.exists_first
  have hfield : p.opposite.field = field := h.field_eq
  rw [Predicate.matches, Predicate.matches, hfield, h.field_eq, hr]
  exact holdsOf_opposite hs (h.isNaN s (Operand.mem_of_first? hs)) ha

/-- A predicate of an operator of the form. -/
theorem of_operator (o : Operator) {x : Operand} (hx : ∀ s ∈ x.toList, s.isNaN = false) :
    ({ field, comparison := o.comparison, operand := x } : Predicate).Decided field :=
  ⟨rfl, o.comparison_asksForValue, hx⟩

end Decided

/-- Whether a value is there is decided on every record. -/
theorem matches_opposite_of_absence (h : p.comparison = .isNull ∨ p.comparison = .notNull) (record : Record) :
    p.opposite.matches record = !p.matches record := by
  obtain ⟨field, k, operand, delimiter?⟩ := p
  cases hr : record field with
  | none => rcases h with rfl | rfl <;> simp [Predicate.matches, Predicate.opposite, Comparison.opposite, hr]
  | some actual =>
    rcases h with rfl | rfl <;> simp [Predicate.matches, Predicate.opposite, Comparison.opposite, holdsOf, hr]

end Predicate

namespace Condition

variable {lookup : Lookup} {c : Condition} {ps : List Predicate}

theorem setPredicates_decided {code delimiter : String} (o : Operator) {x : Operand}
    (hx : ∀ s ∈ x.toList, s.isNaN = false) :
    ∀ p ∈ setPredicates code delimiter o.comparison x, p.Decided code := by
  have htest : ∀ k, k = Comparison.memberOf ∨ k = .notMemberOf → ∀ s ∈ x.toList,
      ((Predicate.single code k s).withDelimiter delimiter).Decided code := by
    intro k hk s hs
    have hasks : k ≠ .isNull ∧ k ≠ .notNull := by rcases hk with rfl | rfl <;> decide
    exact ⟨rfl, hasks, List.forall_mem_singleton.mpr (hx s hs)⟩
  unfold setPredicates
  split
  · exact List.forall_mem_map.mpr (htest .memberOf (.inl rfl))
  · exact List.forall_mem_map.mpr (htest .notMemberOf (.inr rfl))
  · exact List.forall_mem_singleton.mpr (htest .memberOf (.inl rfl) _ (List.mem_singleton_self _))
  · exact List.forall_mem_singleton.mpr (htest .notMemberOf (.inr rfl) _ (List.mem_singleton_self _))
  · exact List.forall_mem_singleton.mpr (.of_operator o hx)

/-- The virtual field for images asks whether the image is there, and nothing else. -/
theorem absence_of_mem_granted (hf : Text.trim c.field = hasImageField) :
    ∀ p ∈ c.granted lookup, p.comparison = .isNull ∨ p.comparison = .notNull := by
  have hne : hasImageField ≠ "" := by decide
  have hasked : ∀ b : Bool, (if b then Comparison.notNull else .isNull) = .isNull ∨
      (if b then Comparison.notNull else .isNull) = .notNull := by decide
  intro p hp
  simp only [granted, expansion, predicates, hf, if_neg hne, if_true, imagePredicate] at hp
  split at hp
  · next ps h =>
    split at h
    · cases h
    · cases h
      rw [List.mem_singleton.mp hp]
      exact hasked _
  · cases hp

variable (hv : ∀ s ∈ c.value.scalars, s.isNaN = false)
include hv

theorem attributePredicates_decided {code : String} {a : Attribute} (h : c.attributePredicates code a = .ok ps) :
    ∀ p ∈ ps, p.Decided code := by
  obtain ⟨o, ho⟩ := exists_operator_of_comparisonOf c.operator
  simp only [attributePredicates, ho] at h
  split at h
  · cases h
  · next x hx =>
    have hscalars := FormValue.isNaN_of_normalize hv hx
    split at h
    · cases h
      exact setPredicates_decided o hscalars
    · cases h
      exact List.forall_mem_singleton.mpr (.of_operator o hscalars)

theorem identifierPredicate_decided {p : Predicate} (h : c.identifierPredicate = .ok p) :
    p.Decided entityIdField := by
  have hids := FormValue.isNaN_of_mem_identifiers hv
  unfold identifierPredicate at h
  split at h
  · cases h
  · next id ids hcons =>
    rw [hcons] at hids
    obtain ⟨o, ho⟩ := exists_operator_of_comparisonOf c.operator
    simp only [ho, listComparison_comparison] at h
    cases h
    refine .of_operator o.listed ?_
    split
    · exact hids
    · exact hids
    · exact List.forall_mem_singleton.mpr rfl
    · exact List.forall_mem_singleton.mpr rfl
    · exact List.forall_mem_singleton.mpr (hids id List.mem_cons_self)

/-- On every field but the virtual one for images, a condition without NaN has decided predicates. -/
theorem granted_decided (hf : Text.trim c.field ≠ hasImageField) :
    ∀ p ∈ c.granted lookup, p.Decided (Text.trim c.field) := by
  intro p hp
  unfold granted at hp
  split at hp
  · next ps h =>
    by_cases hne : Text.trim c.field = ""
    · simp [expansion, predicates, hne] at h
    · by_cases hid : Text.trim c.field = entityIdField
      · rw [expansion_of_identifier hid] at h
        cases hi : c.identifierPredicate with
        | error reason =>
          rw [hi] at h
          cases h
        | ok q =>
          rw [hi] at h
          cases h
          rw [List.mem_singleton.mp hp, hid]
          exact identifierPredicate_decided hv hi
      · rw [expansion_of_code (code?_eq_some_iff.mpr ⟨rfl, hne, hf, hid⟩)] at h
        split at h
        · cases h
        · exact attributePredicates_decided hv h p hp
  · cases hp

end Condition

end RulePlan
