/-
  RulePlan.Proofs.Plan.Wire — plans read back from their wire form.

  The wire form has no tags. An operand is written as a bare scalar or as a list, a
  scalar as a bare flag, number or text, and a delimiter that is not recorded is left
  out; the reader goes by the shape of what it finds. All the same, nothing but doubles
  that are not finite is lost: an integer and the double of the same value are different
  numbers of JSON, an empty list is not an empty operand, an empty group stays a group,
  and an empty delimiter is recorded as such.

  Each level is read back just when its parts are: scalars (`Scalar.ofJson?_toJson_eq`),
  operands, predicates, groups, plans. Proved (`Plan.wire_loses_nothing`): a plan is read back
  just when its doubles are finite, so a plan with finite doubles shares its wire form
  with no other plan.
-/

import RulePlan.Plan.Basic
import RulePlan.Proofs.Json.Carried

namespace RulePlan

/-! ## Operands -/

def Operand.Finite (o : Operand) : Prop := ∀ s ∈ o.toList, s.Finite

instance : DecidablePred Operand.Finite := fun o => List.decidableBAll _ o.toList

/-- No scalar has the form of a list. -/
theorem Operand.ofJson?_scalar (s : Scalar) : ofJson? s.toJson = (Scalar.ofJson? s.toJson).map .single := by
  cases s with
  | float x =>
    rw [Scalar.toJson]
    split <;> rfl
  | bool _ | int _ | text _ => rfl

theorem Operand.ofJson?_toJson (o : Operand) : ofJson? o.toJson = if o.Finite then some o else none := by
  cases o with
  | single s =>
    rw [toJson, ofJson?_scalar, Scalar.ofJson?_toJson_eq]
    by_cases h : s.Finite <;> simp [Finite, toList, h]
  | list items =>
    rw [toJson, ofJson?, Json.mapM_written Scalar.ofJson?_toJson_eq]
    exact apply_ite (Option.map list) _ _ _

/-! ## Predicates, groups and plans -/

def Predicate.Finite (p : Predicate) : Prop := p.operand.Finite

instance : DecidablePred Predicate.Finite := fun p => inferInstanceAs (Decidable p.operand.Finite)

theorem Predicate.ofJson?_toJson (p : Predicate) : ofJson? p.toJson = if p.Finite then some p else none := by
  obtain ⟨field, comparison, operand, delimiter?⟩ := p
  have hoperand := operand.ofJson?_toJson
  have hname := comparison.ofName?_name
  -- the members are looked up one by one, and the delimiter may not be among them
  have hread : ofJson? (toJson ⟨field, comparison, operand, delimiter?⟩) =
      (Operand.ofJson? operand.toJson).map fun o => ⟨field, comparison, o, delimiter?⟩ := by
    cases ho : Operand.ofJson? operand.toJson <;> cases delimiter? <;>
      simp [toJson, ofJson?, Json.record?, Json.required, Json.optional, Json.withDefault, Json.once?, Json.str?,
        Json.name?, hname, ho]
  rw [hread, hoperand]
  exact apply_ite (Option.map _) _ _ _

def Group.Finite (g : Group) : Prop := ∀ p ∈ g.predicates, p.Finite

instance : DecidablePred Group.Finite := fun g => List.decidableBAll _ g.predicates

theorem Group.ofJson?_toJson (g : Group) : ofJson? g.toJson = if g.Finite then some g else none := by
  rw [toJson, ofJson?, Json.list?, Json.mapM_written Predicate.ofJson?_toJson]
  exact apply_ite (Option.map Group.mk) _ _ _

/-- All doubles of the plan are finite. -/
def Plan.Finite (p : Plan) : Prop := ∀ g ∈ p.groups, g.Finite

instance : DecidablePred Plan.Finite := fun p => List.decidableBAll _ p.groups

theorem Plan.ofJson?_toJson (p : Plan) : ofJson? p.toJson = if p.Finite then some p else none := by
  rw [toJson, ofJson?, Json.list?, Json.mapM_written Group.ofJson?_toJson]
  exact apply_ite (Option.map Plan.mk) _ _ _

/-- The wire form of a plan is read back as the plan just when its doubles are finite, and then no
    other plan has the same wire form. -/
theorem Plan.wire_loses_nothing (p : Plan) :
    (ofJson? p.toJson = some p ↔ p.Finite) ∧ (p.Finite → ∀ q : Plan, q.toJson = p.toJson → q = p) := by
  constructor
  · rw [p.ofJson?_toJson]
    simp
  · intro hp q hq
    have hread : ofJson? q.toJson = some p := by rw [hq, p.ofJson?_toJson, if_pos hp]
    rw [q.ofJson?_toJson] at hread
    split at hread
    · exact Option.some.inj hread
    · cases hread

/-- An empty group, an empty list, an empty delimiter, the default delimiter and the numbers 1 and 1.0
    are all told apart. -/
theorem a_plan_with_an_empty_group_and_an_empty_list_is_read_back :
    let one : Scalar := .float (.ofInt 1)
    let plan : Plan := ⟨[⟨[]⟩, ⟨[⟨"size", .oneOf, .list [], none⟩, ⟨"size", .gt, .single one, none⟩]⟩,
      ⟨[⟨"tags", .memberOf, .single (.int 1), some ""⟩, ⟨"tags", .noneOf, .list [one, .bool false], some ","⟩]⟩]⟩
    plan.Finite ∧ Plan.ofJson? plan.toJson = some plan ∧ ∀ q : Plan, q.toJson = plan.toJson → q = plan := by
  intro one plan
  have h : plan.Finite := by decide +kernel
  obtain ⟨hread, hunique⟩ := plan.wire_loses_nothing
  exact ⟨h, hread.mpr h, hunique h⟩

end RulePlan
