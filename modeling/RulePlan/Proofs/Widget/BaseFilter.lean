/-
  RulePlan.Proofs.Widget.BaseFilter — what conditions can do to the search of a widget.

  The conditions of a widget come from outside: any document, or any text that may not
  even decode. Whatever they are, a tree is read from them, and its plan is set beside
  the plan of the attribute set and the active flag (`Search.ofParameters_value`). So
  they can narrow the search and do nothing else: a condition may name the fields of the
  base plan, an `any` may list them as alternatives, the tree may compile to nothing;
  every record that the search lets through still belongs to the attribute set and is
  active. The order and the page are read from other parameters.

  Proved, for every look-up, limit, default set, widget and page
  (`Search.conditions_only_narrow`).
-/

import RulePlan.Plan.Match
import RulePlan.Widget.Search

namespace RulePlan

/-! ## Plans of plans -/

theorem Plan.matches_extend (p q : Plan) (record : Record) :
    (p.extend q).matches record = (p.matches record && q.matches record) := List.all_append

namespace Search

/-- The attribute set that every record of the search belongs to. -/
def belongsTo (attributeSet : Int64) : Predicate := .single attributeSetField .eq (.int attributeSet)

def isActive : Predicate := .single activeField .eq (.bool true)

theorem basePlan_matches (attributeSet : Int64) (record : Record) :
    (basePlan attributeSet).matches record = ((belongsTo attributeSet).matches record && isActive.matches record) := by
  simp [basePlan, Plan.matches, Group.matches, Group.single, belongsTo, isActive]

/-! ## Searches -/

variable (lookup : Lookup) (limit : Nat) (defaultSet : Option Int64) (p : Parameters) (requested : UInt64)

/-- A widget that has an attribute set has a search, and its parts come from different parameters. -/
theorem ofParameters_value :
    (ofParameters lookup limit defaultSet p requested).value = (p.attributeSet?.or defaultSet).map fun attributeSet =>
      ⟨(basePlan attributeSet).extend (compile lookup limit p.tree.value).plan, p.sortOrder, pageOf p requested⟩ := by
  unfold ofParameters
  cases p.attributeSet?.or defaultSet with
  | none => rfl
  | some attributeSet => rfl

/-- A widget has no search just when neither it nor the default gives an attribute set. Otherwise a
    record is let through just when it belongs to the set, is active, and satisfies the plan of the
    conditions; and with other conditions there is a search as before, of the same order and page. -/
theorem conditions_only_narrow :
    ((ofParameters lookup limit defaultSet p requested).value = none ↔ p.attributeSet? = none ∧ defaultSet = none) ∧
      (∀ attributeSet, p.attributeSet?.or defaultSet = some attributeSet →
        ∃ s, (ofParameters lookup limit defaultSet p requested).value = some s ∧
          ∀ record, s.plan.matches record ↔
            (belongsTo attributeSet).matches record ∧ isActive.matches record ∧
              (compile lookup limit p.tree.value).plan.matches record) ∧
      ∀ conditionsEncoded conditions : Json,
        (ofParameters lookup limit defaultSet { p with conditionsEncoded, conditions } requested).value.map
            (fun s => (s.sort, s.page)) =
          (ofParameters lookup limit defaultSet p requested).value.map fun s => (s.sort, s.page) := by
  refine ⟨?_, fun attributeSet hset => ?_, fun conditionsEncoded conditions => ?_⟩
  · rw [ofParameters_value, Option.map_eq_none_iff, Option.or_eq_none_iff]
  · refine ⟨_, by rw [ofParameters_value, hset, Option.map_some], fun record => ?_⟩
    rw [Plan.matches_extend, basePlan_matches, Bool.and_eq_true, Bool.and_eq_true, and_assoc]
  · rw [ofParameters_value, ofParameters_value, Option.map_map, Option.map_map]
    rfl

/-- Conditions that list another attribute set and its inactive records as alternatives let a record
    through that the search still refuses. -/
theorem an_any_over_the_base_fields_lets_no_other_record_through :
    let lookup : Lookup := fun _ => .ok {}
    let condition (field : String) (value : Json) : Json :=
      .obj [("field", .str field), ("operator", .str "=="), ("value", value)]
    let p : Parameters := {
      attributeSetId := .str " 4 "
      conditions := .obj [("aggregator", .str "any"),
        ("children", .arr [condition "attribute_set_id" (.int 9), condition "is_active" (.int 0)])] }
    let record : Record := fun field => if field = "attribute_set_id" then some (.int 9) else some (.bool true)
    p.attributeSet?.or none = some 4 ∧ (compile lookup 32 p.tree.value).plan.matches record ∧
      ∃ s, (ofParameters lookup 32 none p 1).value = some s ∧ ¬ s.plan.matches record := by
  intro lookup condition p record
  have hset : p.attributeSet?.or none = some 4 := by decide +kernel
  have hconditions : (compile lookup 32 p.tree.value).plan.matches record := by decide +kernel
  obtain ⟨-, hnarrow, -⟩ := conditions_only_narrow lookup 32 none p 1
  obtain ⟨s, hs, hmatches⟩ := hnarrow 4 hset
  have hother : ¬ (belongsTo 4).matches record := by decide +kernel
  exact ⟨hset, hconditions, s, hs, fun h => hother ((hmatches record).mp h).1⟩

end Search

end RulePlan
