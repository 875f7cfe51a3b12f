/-
  RulePlan.Proofs.Json.Parts — the documents inside a document.

  `Json.parts` are the items of an array and the values of an object. A property holds of
  every document if it holds of each one whose parts have it (`byParts`). A reader of
  nodes passes from a node over the member that lists its children to the nodes in it,
  two steps down, so there the induction may assume the property of the parts of the
  parts (`byPartsOfParts`).
-/

import RulePlan.Json.Basic

namespace RulePlan.Json

/-- The documents directly inside a document. -/
def parts : Json → List Json
  | .arr items => items
  | .obj members => members.map (·.2)
  | _ => []

theorem sizeOf_lt_of_mem_parts {v w : Json} (h : w ∈ v.parts) : sizeOf w < sizeOf v := by
  cases v with
  | arr items =>
    have := List.sizeOf_lt_of_mem (show w ∈ items from h)
    simp only [arr.sizeOf_spec]
    omega
  | obj members =>
    obtain ⟨⟨key, w⟩, hm, rfl⟩ := List.mem_map.mp h
    have := List.sizeOf_lt_of_mem hm
    simp only [obj.sizeOf_spec, Prod.mk.sizeOf_spec] at this ⊢
    omega
  | null | bool _ | int _ | real _ | str _ => cases h

theorem byParts {motive : Json → Prop} (document : ∀ v, (∀ w ∈ v.parts, motive w) → motive v) (v : Json) :
    motive v :=
  document v fun w _ => byParts document w
termination_by sizeOf v
decreasing_by exact sizeOf_lt_of_mem_parts ‹_›

theorem byPartsOfParts {motive : Json → Prop}
    (document : ∀ v, (∀ w ∈ v.parts, ∀ u ∈ w.parts, motive u) → motive v) (v : Json) : motive v := by
  have both : motive v ∧ ∀ w ∈ v.parts, motive w := by
    induction v using byParts with
    | document v ih => exact ⟨document v fun w hw => (ih w hw).2, fun w hw => (ih w hw).1⟩
  exact both.1

end RulePlan.Json
