/-
  RulePlan.Proofs.Compile.Level — trees of one level.

  A tree whose children are conditions compiles to the predicates that they grant: what
  stands apart becomes a group of its own, what is shared goes into one last group
  (`level_matches_iff`). So an `any` of conditions that accept asks for one of the
  alternatives of all of them, unless there are none, and the predicates of a condition
  that refuses are all asked for, below an `any` as below an `all`.

  Proved from this: `is one of` with a list is the `any` of `is` with its members, and
  `is not one of` the `all` of `is not`; and a text in place of the list stands for its
  tokens (`compile_listing`). This is so for an attribute of any storage and for
  identifiers, and whichever values are blank or cannot be compared: they are left out
  on both sides.
-/

import RulePlan.Proofs.Compile.Meaning
import RulePlan.Proofs.Condition.Listing

namespace RulePlan

variable {lookup : Lookup} {limit : Nat} {record : Record}

/-! ## Plans of one level -/

namespace Condition.Accepts

variable {c : Condition} {ps : List Predicate}

theorem apart_any (h : Accepts lookup c ps) : Aggregator.any.apart (c.granted lookup) = [] := by
  simpa [Aggregator.apart, Comparison.mayShare] using h.shares

theorem shared_any (h : Accepts lookup c ps) : Aggregator.any.shared (c.granted lookup) = c.granted lookup := by
  simpa [Aggregator.shared, Comparison.mayShare] using h.shares

end Condition.Accepts

section

variable {ι : Type} {xs : List ι} {c : ι → Condition} {asked : ι → List Predicate}

theorem level_matches_iff (hlimit : 1 ≤ limit) (aggregator : Aggregator) :
    (compile lookup limit ⟨aggregator, xs.map fun x => .condition (c x)⟩).plan.matches record ↔
      (∀ x ∈ xs, ∀ p ∈ aggregator.apart ((c x).granted lookup), p.matches record) ∧
        ((∃ x ∈ xs, aggregator.shared ((c x).granted lookup) ≠ []) →
          ∃ x ∈ xs, ∃ p ∈ aggregator.shared ((c x).granted lookup), p.matches record) := by
  have hl : ¬ limit < 0 + 1 := by omega
  rw [compile_eq, Plan.matches, List.all_eq_true, Tree.toRule, Rule.groups_match_iff hl, List.forall_mem_map]
  refine and_congr (forall₂_congr fun x _ => Rule.finished_condition_match) ?_
  simp only [List.mem_map, exists_exists_and_eq_and, Rule.contribution_condition]

/-- An `any` of conditions that accept asks for one of all alternatives, if there is one. -/
theorem any_accepts_iff (hlimit : 1 ≤ limit) (h : ∀ x ∈ xs, Condition.Accepts lookup (c x) (asked x)) :
    (compile lookup limit ⟨.any, xs.map fun x => .condition (c x)⟩).plan.matches record ↔
      (xs.flatMap asked ≠ [] → ∃ p ∈ xs.flatMap asked, p.matches record) := by
  have hone : (∃ x ∈ xs, ∃ p ∈ Aggregator.any.shared ((c x).granted lookup), p.matches record) ↔
      ∃ p ∈ xs.flatMap asked, p.matches record := by
    constructor
    · rintro ⟨x, hx, hp⟩
      rw [(h x hx).shared_any, (h x hx).matches_iff] at hp
      obtain ⟨p, hp, hm⟩ := hp
      exact ⟨p, List.mem_flatMap.mpr ⟨x, hx, hp⟩, hm⟩
    · rintro ⟨p, hp, hm⟩
      obtain ⟨x, hx, hp⟩ := List.mem_flatMap.mp hp
      refine ⟨x, hx, ?_⟩
      rw [(h x hx).shared_any, (h x hx).matches_iff]
      exact ⟨p, hp, hm⟩
  have hsome : (∃ x ∈ xs, Aggregator.any.shared ((c x).granted lookup) ≠ []) ↔ xs.flatMap asked ≠ [] := by
    rw [ne_eq, List.flatMap_eq_nil_iff]
    push Not
    refine exists_congr fun x => and_congr_right fun hx => ?_
    rw [(h x hx).shared_any, ne_eq, (h x hx).granted_eq_nil_iff]
  have hnone : ∀ x ∈ xs, ∀ p ∈ Aggregator.any.apart ((c x).granted lookup), p.matches record := by
    intro x hx p hp
    rw [(h x hx).apart_any] at hp
    cases hp
  rw [level_matches_iff hlimit, hone, hsome]
  exact and_iff_right hnone

/-- An `all` of conditions that refuse asks for all of their predicates. -/
theorem all_refuses_iff (hlimit : 1 ≤ limit) (h : ∀ x ∈ xs, Condition.Refuses lookup (c x) (asked x)) :
    (compile lookup limit ⟨.all, xs.map fun x => .condition (c x)⟩).plan.matches record ↔
      ∀ p ∈ xs.flatMap asked, p.matches record := by
  rw [level_matches_iff hlimit, List.forall_mem_flatMap]
  simp only [Aggregator.apart, Aggregator.shared, ne_eq, not_true_eq_false, and_false, exists_false, false_implies,
    and_true]
  exact forall₂_congr fun x hx => (h x hx).matches_iff record

end

section

variable {c : Condition} {ps : List Predicate}

/-- A condition alone in its tree. -/
theorem lone_matches_iff (hlimit : 1 ≤ limit) (aggregator : Aggregator) :
    (compile lookup limit ⟨aggregator, [.condition c]⟩).plan.matches record ↔
      (∀ p ∈ aggregator.apart (c.granted lookup), p.matches record) ∧
        (aggregator.shared (c.granted lookup) ≠ [] →
          ∃ p ∈ aggregator.shared (c.granted lookup), p.matches record) := by
  have hlevel : (compile lookup limit ⟨aggregator, [c].map fun c => .condition c⟩).plan.matches record ↔ _ :=
    level_matches_iff hlimit aggregator
  simpa only [List.map_cons, List.map_nil, List.mem_singleton, forall_eq, exists_eq_left] using hlevel

theorem lone_accepts_iff (hlimit : 1 ≤ limit) (h : Condition.Accepts lookup c ps) :
    (compile lookup limit ⟨.any, [.condition c]⟩).plan.matches record ↔
      (ps ≠ [] → ∃ p ∈ ps, p.matches record) := by
  rw [lone_matches_iff hlimit, h.apart_any, h.shared_any, h.matches_iff, ne_eq, h.granted_eq_nil_iff]
  simp

/-- A condition that refuses is the same below either aggregator. -/
theorem lone_refuses_iff (hlimit : 1 ≤ limit) (h : Condition.Refuses lookup c ps) (aggregator : Aggregator) :
    (compile lookup limit ⟨aggregator, [.condition c]⟩).plan.matches record ↔ ∀ p ∈ ps, p.matches record := by
  rw [lone_matches_iff hlimit, ← h.matches_iff]
  cases aggregator with
  | all => simp [Aggregator.apart, Aggregator.shared]
  | any =>
    rcases h.apart with hall | ⟨p, hp⟩
    · have hapart : Aggregator.any.apart (c.granted lookup) = c.granted lookup := by
        simpa [Aggregator.apart, Comparison.mayShare] using hall
      have hshared : Aggregator.any.shared (c.granted lookup) = [] := by
        simpa [Aggregator.shared, Comparison.mayShare] using hall
      simp [hapart, hshared]
    · -- the one predicate is a group by itself, whether it may be shared or not
      rw [hp]
      by_cases hk : p.comparison.mayShare <;> simp [Aggregator.apart, Aggregator.shared, hk]

end

/-- Of a condition alone in its tree, the plan shows the expansion only. -/
theorem compile_congr {c d : Condition} (h : c.expansion lookup = d.expansion lookup) (hfield : c.field = d.field)
    (aggregator : Aggregator) :
    compile lookup limit ⟨aggregator, [.condition c]⟩ = compile lookup limit ⟨aggregator, [.condition d]⟩ := by
  have hgranted : c.granted lookup = d.granted lookup := by rw [Condition.granted, h, Condition.granted]
  have hrefusal : c.refusal? lookup = d.refusal? lookup := by
    rw [Condition.refusal?, h, hfield, Condition.refusal?]
  have hreports : (Rule.condition c).reports lookup limit 1 = (Rule.condition d).reports lookup limit 1 := by
    simp only [Rule.reports, Rule.nodes_condition, List.filterMap_cons, Rule.report?, hrefusal]
  rw [compile_eq, compile_eq]
  simp only [Tree.toRule, Rule.reports_combine, List.flatMap_cons, List.flatMap_nil, Nat.zero_add, hreports]
  by_cases hl : limit < 0 + 1
  · rw [Rule.contribution_below _ _ hl, Rule.contribution_below _ _ hl]
  · rw [Rule.contribution_within _ _ hl, Rule.contribution_within _ _ hl]
    simp [hgranted]

/-! ## Lists as conditions of their own -/

/-- On every field but the virtual one for images, `is one of` with a list lets through what the
    `any` of `is` with its members lets through, and `is not one of` what the `all` of `is not`
    does. A text in place of the list compiles as the list of its tokens. -/
theorem compile_listing (lookup : Lookup) (hlimit : 1 ≤ limit) {f : String} (hf : Text.trim f ≠ hasImageField) :
    (∀ (xs : List Scalar) (record : Record),
      (compile lookup limit ⟨.any, [.condition ⟨f, Operator.oneOf.symbol, .list xs⟩]⟩).plan.matches record ↔
        (compile lookup limit ⟨.any, xs.map fun x =>
          .condition ⟨f, Operator.is.symbol, .single x⟩⟩).plan.matches record) ∧
      (∀ (xs : List Scalar) (record : Record),
        (compile lookup limit ⟨.any, [.condition ⟨f, Operator.notOneOf.symbol, .list xs⟩]⟩).plan.matches record ↔
          (compile lookup limit ⟨.all, xs.map fun x =>
            .condition ⟨f, Operator.isNot.symbol, .single x⟩⟩).plan.matches record) ∧
      ∀ (s : String) (aggregator : Aggregator), ∀ o ∈ [Operator.oneOf, Operator.notOneOf],
        compile lookup limit ⟨aggregator, [.condition ⟨f, o.symbol, .single (.text s)⟩]⟩ =
          compile lookup limit ⟨aggregator, [.condition ⟨f, o.symbol, .list ((tokens s).map .text)⟩]⟩ := by
  obtain ⟨t, ht⟩ := FieldTest.exists_describes lookup hf
  refine ⟨fun xs record => ?_, fun xs record => ?_, fun s aggregator o ho => ?_⟩
  · rw [lone_accepts_iff hlimit (ht.oneOf xs), any_accepts_iff hlimit fun x _ => ht.is x, List.map_flatMap]
  · rw [lone_refuses_iff hlimit (ht.notOneOf xs), all_refuses_iff hlimit fun x _ => ht.isNot x, List.map_flatMap]
  · have hk : (comparisonOf o.symbol).Listing := by
      rw [comparisonOf_symbol]
      revert o
      decide
    exact compile_congr (Condition.expansion_tokens hf hk s) rfl aggregator

/-- A blank member of the list is no alternative. -/
theorem a_list_with_a_blank_matches_as_the_any_of_its_members :
    let sets : Lookup := fun _ => .ok { storage := .codeSet, delimiter := "|" }
    let members : List Scalar := [.text " ", .text "red", .text "blue"]
    let record : Record := fun field => if field = "color" then some (.text "green| Blue") else none
    1 ≤ 1 ∧ Text.trim " color " ≠ hasImageField ∧
      (compile sets 1 ⟨.any, [.condition ⟨" color ", "()", .list members⟩]⟩).plan.matches record ∧
      (compile sets 1 ⟨.any, members.map fun x => .condition ⟨" color ", "==", .single x⟩⟩).plan.matches record := by
  intro sets members record
  have hf : Text.trim " color " ≠ hasImageField := by decide
  have hm : (compile sets 1 ⟨.any, [.condition ⟨" color ", "()", .list members⟩]⟩).plan.matches record := by decide
  exact ⟨by decide, hf, hm, ((compile_listing sets (by decide) hf).1 members record).mp hm⟩

end RulePlan
