/-
  RulePlan.Proofs.Plan.Order — scalars in some order.

  Equality and order choose each for itself between the numbers and the lower-cased
  texts of two scalars. They choose alike: two scalars are equal exactly when neither
  goes before the other (`Scalar.looselyEqual_iff`), whatever flags, integers, doubles
  and texts are compared, and only a double that is no number stands in no order to
  another scalar (`Scalar.looselyCompare_isSome`). So the comparisons that go by an
  order are one order: each lets through the orders that it lists
  (`Comparison.orders?`, `Predicate.holdsOf_iff_mem_orders`).

  Proved (`Predicate.comparisons_are_one_order`): of `lt`, `eq` and `gt` exactly one
  holds, `lte`, `gte` and `neq` hold as these three say, and the comparisons with a list
  ask for `eq` with each of its items.
-/

import Mathlib.Data.List.Basic
import RulePlan.Plan.Match
import RulePlan.Proofs.Number.Binary64

namespace RulePlan

/-! ## Two scalars -/

namespace Scalar

/-- A double that is no number. -/
def isNaN : Scalar → Bool
  | .float x => x.isNaN
  | _ => false

variable {a b s : Scalar}

theorem isNaN_of_asNumber? (h : s.isNaN = false) {x : Binary64} (hx : s.asNumber? = some x) : x.isNaN = false := by
  cases s with
  | bool b => cases hx
  | int n =>
    cases hx
    exact Binary64.isNaN_ofInt _
  | float y =>
    cases hx
    exact h
  | text t => exact Binary64.isNaN_of_isFinite (Option.filter_eq_some_iff.mp hx).2

/-- Only a double that is no number stands in no order to another scalar. -/
theorem looselyCompare_isSome (ha : a.isNaN = false) (hb : b.isNaN = false) : ∃ o, a.looselyCompare b = some o := by
  unfold looselyCompare
  split
  · next x y hx hy => exact ⟨_, Binary64.compare?_of_not_isNaN (isNaN_of_asNumber? ha hx) (isNaN_of_asNumber? hb hy)⟩
  · exact ⟨_, rfl⟩

/-- Equality and order read two scalars in the same way. -/
theorem looselyEqual_iff (a b : Scalar) : a.looselyEqual b ↔ a.looselyCompare b = some .eq := by
  unfold looselyEqual looselyCompare
  split
  · rw [decide_eq_true_eq]
  · rw [decide_eq_true_eq]
    constructor
    · intro h
      simp [h]
    · intro h
      by_contra hne
      simp only [if_neg hne, Option.some.injEq] at h
      split at h <;> cases h

end Scalar

/-! ## Comparisons with one scalar -/

/-- The orders of a value to the operand that a comparison lets through, if it goes by the order. -/
def Comparison.orders? : Comparison → Option (List Ordering)
  | .lt => some [.lt]
  | .lte => some [.lt, .eq]
  | .eq => some [.eq]
  | .gte => some [.gt, .eq]
  | .gt => some [.gt]
  | .neq => some [.lt, .gt]
  | _ => none

namespace Predicate

variable {p : Predicate} {record : Record} {actual v : Scalar}

theorem holdsOf_iff_mem_orders {accepted : List Ordering} {order : Ordering}
    (hk : p.comparison.orders? = some accepted) (hfirst : p.operand.first? = some v)
    (horder : actual.looselyCompare v = some order) : p.holdsOf actual ↔ order ∈ accepted := by
  have heq : actual.looselyEqual v ↔ order = .eq := by rw [Scalar.looselyEqual_iff, horder, Option.some.injEq]
  obtain ⟨field, k, operand, delimiter?⟩ := p
  simp only at hk hfirst
  cases k with
  | like | nlike | oneOf | noneOf | isNull | notNull | memberOf | notMemberOf => cases hk
  | lt | lte | gte | gt =>
    cases hk
    simp only [holdsOf, hfirst, horder, List.contains_eq_mem, decide_eq_true_eq]
  | eq =>
    cases hk
    simp only [holdsOf, hfirst, heq, List.mem_singleton]
  | neq =>
    cases hk
    simp only [holdsOf, hfirst, Bool.not_eq_true', ← Bool.not_eq_true, heq]
    cases order <;> decide

/-- The predicate with another comparison and operand. -/
def asking (p : Predicate) (k : Comparison) (o : Operand) : Predicate := { p with comparison := k, operand := o }

theorem asking_matches (hr : record p.field = some actual) (k : Comparison) (o : Operand) :
    (p.asking k o).matches record = (p.asking k o).holdsOf actual := by
  rw [Predicate.matches, show (p.asking k o).field = p.field from rfl, hr]

/-! ## Comparisons with a list -/

theorem asking_oneOf_iff (hr : record p.field = some actual) (o : Operand) :
    (p.asking .oneOf o).matches record ↔ ∃ s ∈ o.toList, (p.asking .eq (.single s)).matches record := by
  simp only [asking_matches hr]
  exact List.any_eq_true

theorem asking_noneOf_iff (hr : record p.field = some actual) (o : Operand) :
    (p.asking .noneOf o).matches record ↔ ∀ s ∈ o.toList, ¬ (p.asking .eq (.single s)).matches record := by
  have hopposite : (p.asking .noneOf o).matches record = !(p.asking .oneOf o).matches record := by
    simp only [asking_matches hr]
    rfl
  rw [hopposite, Bool.not_eq_true', ← Bool.not_eq_true, asking_oneOf_iff hr]
  simp

/-- On a record with the field, of `lt`, `eq` and `gt` exactly one holds, and the other comparisons
    with the same operand say so too; with a list, `eq` is asked for each of its items. -/
theorem comparisons_are_one_order (hr : record p.field = some actual) (hfirst : p.operand.first? = some v)
    (ha : actual.isNaN = false) (hv : v.isNaN = false) :
    let holds (k : Comparison) : Prop := (p.asking k p.operand).matches record
    (∃! k, k ∈ [Comparison.lt, .eq, .gt] ∧ holds k) ∧
      (holds .gte ↔ holds .gt ∨ holds .eq) ∧
      (holds .lte ↔ holds .lt ∨ holds .eq) ∧
      (holds .neq ↔ ¬ holds .eq) ∧
      ∀ o : Operand,
        ((p.asking .oneOf o).matches record ↔ ∃ s ∈ o.toList, (p.asking .eq (.single s)).matches record) ∧
        ((p.asking .noneOf o).matches record ↔ ¬ ∃ s ∈ o.toList, (p.asking .eq (.single s)).matches record) := by
  intro holds
  obtain ⟨order, horder⟩ := Scalar.looselyCompare_isSome ha hv
  have hholds : ∀ {k accepted}, k.orders? = some accepted → (holds k ↔ order ∈ accepted) := by
    intro k accepted hk
    show (p.asking k p.operand).matches record ↔ _
    rw [asking_matches hr]
    exact holdsOf_iff_mem_orders hk hfirst horder
  have hlt : holds .lt ↔ order ∈ [Ordering.lt] := hholds rfl
  have heq : holds .eq ↔ order ∈ [Ordering.eq] := hholds rfl
  have hgt : holds .gt ↔ order ∈ [Ordering.gt] := hholds rfl
  refine ⟨?_, ?_, ?_, ?_, fun o => ⟨asking_oneOf_iff hr o, by simpa using asking_noneOf_iff hr o⟩⟩
  · cases order with
    | lt => exact ⟨.lt, by simp [hlt], by simp [heq, hgt]⟩
    | eq => exact ⟨.eq, by simp [heq], by simp [hlt, hgt]⟩
    | gt => exact ⟨.gt, by simp [hgt], by simp [hlt, heq]⟩
  · rw [hholds (k := .gte) rfl, hgt, heq]
    simp
  · rw [hholds (k := .lte) rfl, hlt, heq]
    simp
  · rw [hholds (k := .neq) rfl, heq]
    cases order <;> simp

end Predicate

/-- A text and an integer are compared as numbers, a text and a flag as texts. -/
theorem a_text_stands_in_one_order_to_numbers_flags_and_texts :
    let p : Predicate := ⟨"price", .eq, .list [.int 9, .text "ten"], none⟩
    let record : Record := fun field => if field = "price" then some (.text " 10.0") else none
    let listed : Operand := .list [.bool true, .text "Ten", .int 10]
    record p.field = some (.text " 10.0") ∧ p.operand.first? = some (.int 9) ∧ (Scalar.text " 10.0").isNaN = false ∧
      (Scalar.int 9).isNaN = false ∧ (p.asking .gt p.operand).matches record ∧
      (p.asking .gte p.operand).matches record ∧ ¬ (p.asking .lt p.operand).matches record ∧
      (p.asking .oneOf listed).matches record := by
  intro p record listed
  have hr : record p.field = some (.text " 10.0") := rfl
  have hfirst : p.operand.first? = some (.int 9) := rfl
  have hgt : (p.asking .gt p.operand).matches record := by decide +kernel
  obtain ⟨hone, hgte, -, -, hlists⟩ := Predicate.comparisons_are_one_order hr hfirst rfl rfl
  refine ⟨hr, hfirst, rfl, rfl, hgt, hgte.mpr (.inl hgt), fun hlt => ?_, (hlists listed).1.mpr ⟨.int 10, by decide, ?_⟩⟩
  · exact absurd (hone.unique ⟨by decide, hlt⟩ ⟨by decide, hgt⟩) (by decide)
  · decide +kernel

end RulePlan
