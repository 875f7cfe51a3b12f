/-
  RulePlan.Proofs.Compile.WellFormed — compiled plans are well formed.

  The readers of a plan have an answer ready for what should not be there: a predicate
  without a value fails, a statement compares with NULL, a list or a group with nothing
  in it becomes a constant. A compiled plan never asks for one of these answers. Its
  groups are made of well-formed predicates (`Condition.predicates_sound`); a group is
  closed only when something is in it, and what may not share a group never enters the
  bucket of an `any`.

  Proved, for every tree, look-up and limit (`compile_wellFormed`): the plan is well
  formed, every predicate has a first value, and in both dialects every group of the
  statement has a test and every test compares with values that are there.
-/

import RulePlan.Proofs.Compile.Contribution
import RulePlan.Proofs.Condition.Expansion
import RulePlan.Sql.Statement

namespace RulePlan

variable {lookup : Lookup} {limit : Nat}

/-! ## Well-formed plans -/

structure Group.WellFormed (g : Group) : Prop where
  predicates_ne_nil : g.predicates ≠ []
  exclusion_alone : ∀ p ∈ g.predicates, p.comparison = .notMemberOf → g.predicates = [p]
  predicates_wellFormed : ∀ p ∈ g.predicates, p.WellFormed

def Plan.WellFormed (p : Plan) : Prop := ∀ g ∈ p.groups, g.WellFormed

theorem Group.WellFormed.single {p : Predicate} (h : p.WellFormed) : (Group.single p).WellFormed := by
  refine ⟨List.cons_ne_nil _ _, fun q hq _ => ?_, fun q hq => ?_⟩
  · rw [List.mem_singleton.mp hq]
    rfl
  · rw [List.mem_singleton.mp hq]
    exact h

/-- The bucket of an `any` holds no exclusion, so no exclusion of it has to stand alone. -/
theorem Group.WellFormed.of_shared {ps : List Predicate} (hs : ∀ p ∈ ps, p.comparison ≠ .notMemberOf)
    (hp : ∀ p ∈ ps, p.WellFormed) {g : Group} (h : g ∈ (ofPredicates? ps).toList) : g.WellFormed := by
  unfold ofPredicates? at h
  split at h
  · cases h
  · rename_i hne
    rw [Option.toList_some, List.mem_singleton] at h
    subst h
    exact ⟨by simpa using hne, fun p hm hk => absurd hk (hs p hm), hp⟩

/-! ## Contributions -/

/-- Whatever a node hands to its parent is well formed. -/
structure Contribution.WellFormed (c : Contribution) : Prop where
  candidates : ∀ p ∈ c.candidates, p.WellFormed
  groups : ∀ g ∈ c.groups, g.WellFormed

theorem Condition.granted_wellFormed {c : Condition} {p : Predicate} (h : p ∈ c.granted lookup) : p.WellFormed := by
  unfold granted at h
  split at h
  · rename_i ps hps
    exact (predicates_sound hps).2 p h
  · cases h

theorem Aggregator.finished_wellFormed {aggregator : Aggregator} {c : Contribution} (hc : c.WellFormed) {g : Group}
    (h : g ∈ aggregator.finished c) : g.WellFormed := by
  rcases List.mem_append.mp h with h | h
  · obtain ⟨p, hp, rfl⟩ := List.mem_map.mp h
    exact .single (hc.candidates p (mem_of_mem_apart hp))
  · exact hc.groups g h

theorem Rule.contribution_wellFormed (r : Rule) (depth : Nat) :
    (r.contribution lookup limit depth).WellFormed := by
  induction r generalizing depth with
  | condition c =>
    rw [contribution_condition]
    exact ⟨fun p hp => Condition.granted_wellFormed hp, fun g hg => by cases hg⟩
  | combine aggregator children ih =>
    refine ⟨by simp, fun g hg => ?_⟩
    by_cases hl : limit < depth + 1
    · rw [contribution_below _ _ hl] at hg
      cases hg
    · rw [contribution_within _ _ hl] at hg
      rcases List.mem_append.mp hg with hg | hg
      · obtain ⟨r, hr, hg⟩ := List.mem_flatMap.mp hg
        exact Aggregator.finished_wellFormed (ih r hr (depth + 1)) hg
      · refine .of_shared (fun p hp => ?_) (fun p hp => ?_) hg
        · obtain ⟨r, -, hp⟩ := List.mem_flatMap.mp hp
          exact (Aggregator.mem_of_mem_shared hp).2
        · obtain ⟨r, hr, hp⟩ := List.mem_flatMap.mp hp
          exact (ih r hr (depth + 1)).candidates p (Aggregator.mem_of_mem_shared hp).1

/-! ## Values that are there -/

theorem Operand.toList_ne_nil {o : Operand} {s : Scalar} (h : o.first? = some s) : o.toList ≠ [] :=
  List.ne_nil_of_mem (mem_of_first? h)

namespace Sql

/-- NULL does not stand in the term for a value that is missing. -/
def Term.Given : Term → Prop
  | .null => False
  | .column _ => True
  | .value _ => True
  | .replaced t _ _ => t.Given

/-- The test compares with values that are there. -/
def Test.Given : Test → Prop
  | .compare _ left right => left.Given ∧ right.Given
  | .like _ t pattern => t.Given ∧ pattern ≠ ""
  | .oneOf _ t items => t.Given ∧ items ≠ [] ∧ ∀ i ∈ items, i.Given
  | .isNull _ t => t.Given
  | .inCommaList _ wanted stored => wanted.Given ∧ stored.Given
  | .amongParts _ wanted stored _ => wanted.Given ∧ stored.Given

theorem first_given {o : Operand} {s : Scalar} (h : o.first? = some s) : (Term.first o).Given := by
  simp [Term.first, h, Term.Given]

theorem membership_given (d : Dialect) (negated : Bool) {p : Predicate} {s : Scalar} (h : p.operand.first? = some s) :
    (membership d negated p).Given := by
  have hw := first_given h
  cases d with
  | mysql =>
    simp only [membership]
    split
    · exact ⟨hw, trivial⟩
    · exact ⟨hw, trivial⟩
  | postgres => exact ⟨hw, trivial⟩

theorem patternText_ne_empty {o : Operand} {k : Comparison} (h : o.Fits k) (hk : k.takesPattern) :
    patternText o ≠ "" := by
  obtain ⟨body, rfl⟩ := h.pattern hk
  intro he
  have := congrArg String.toList he
  simp [patternText, Operand.first?, Scalar.asText] at this

theorem ofPredicate_given (d : Dialect) {p : Predicate} (h : p.WellFormed) : (Test.ofPredicate d p).Given := by
  have hfits := h.operand_fits
  obtain ⟨s, hs⟩ := hfits.exists_first
  have hlist : Test.Given (.oneOf false (.column p.field) (p.operand.toList.map .value)) := by
    refine ⟨trivial, by simpa using Operand.toList_ne_nil hs, fun i hi => ?_⟩
    obtain ⟨v, -, rfl⟩ := List.mem_map.mp hi
    exact trivial
  unfold Test.ofPredicate
  cases hk : p.comparison with
  | eq | neq | gt | gte | lt | lte => exact ⟨trivial, first_given hs⟩
  | like | nlike => exact ⟨trivial, patternText_ne_empty hfits (by rw [hk]; rfl)⟩
  | oneOf | noneOf => exact hlist
  | isNull | notNull => exact trivial
  | memberOf | notMemberOf => exact membership_given d _ hs

end Sql

/-! ## Compiled plans -/

theorem compile_groups_wellFormed (lookup : Lookup) (limit : Nat) (t : Tree) :
    (compile lookup limit t).plan.WellFormed := by
  rw [compile_eq]
  exact (Rule.contribution_wellFormed t.toRule 0).groups

/-- The plan of a tree is well formed, so no reader of it falls back on an answer for a missing
    value, an empty list or an empty group. -/
theorem compile_wellFormed (lookup : Lookup) (limit : Nat) (t : Tree) :
    (compile lookup limit t).plan.WellFormed ∧
      (∀ p ∈ (compile lookup limit t).plan.predicates, (∃ s, p.operand.first? = some s) ∧ p.operand.toList ≠ []) ∧
      ∀ d, ∀ alternatives ∈ Sql.Clause.ofPlan d (compile lookup limit t).plan,
        alternatives ≠ [] ∧ ∀ test ∈ alternatives, test.Given := by
  have h := compile_groups_wellFormed lookup limit t
  refine ⟨h, fun p hp => ?_, fun d alternatives ha => ?_⟩
  · obtain ⟨g, hg, hp⟩ := List.mem_flatMap.mp hp
    obtain ⟨s, hs⟩ := ((h g hg).predicates_wellFormed p hp).operand_fits.exists_first
    exact ⟨⟨s, hs⟩, Operand.toList_ne_nil hs⟩
  · obtain ⟨g, hg, rfl⟩ := List.mem_map.mp ha
    refine ⟨by simpa using (h g hg).predicates_ne_nil, fun test ht => ?_⟩
    obtain ⟨p, hp, rfl⟩ := List.mem_map.mp ht
    exact Sql.ofPredicate_given d ((h g hg).predicates_wellFormed p hp)

end RulePlan
