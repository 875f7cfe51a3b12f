/-
  RulePlan.Proofs.Compile.Accounting — nothing is lost on the way to a plan.

  A condition is visited when every combination above it lies within the limit
  (`Rule.visited`). Compilation deals the predicates of the visited conditions out to
  groups: some get a group of their own, some wait in the shared group of an `any`, and
  the groups of an inner combination are handed up as they are. `Dealt` is what holds
  throughout: the groups and the shared list hold these predicates and no others, each
  as often as the conditions have it, and each of them in the order of declaration.

  Proved, for every tree, look-up and limit (`compile_accounts`): the predicates of the
  plan are a permutation of those of the visited conditions, every group has its
  predicates in declaration order, and the reports are those of the nodes in preorder.
-/

import RulePlan.Proofs.Compile.Contribution

namespace RulePlan

variable {lookup : Lookup} {limit : Nat}

/-! ## Dealing out -/

/-- The predicates `ps` are dealt out to finished groups and to one that is still open. -/
structure Dealt (ps : List Predicate) (groups : List Group) (shared : List Predicate) : Prop where
  perm : (groups.flatMap (·.predicates) ++ shared).Perm ps
  groupInOrder : ∀ g ∈ groups, g.predicates.Sublist ps
  sharedInOrder : shared.Sublist ps

namespace Dealt

variable {ps qs b c : List Predicate} {gs hs : List Group}

theorem gathered (ps : List Predicate) : Dealt ps [] ps := ⟨List.Perm.refl _, by simp, List.Sublist.refl _⟩

theorem append (h : Dealt ps gs b) (h' : Dealt qs hs c) : Dealt (ps ++ qs) (gs ++ hs) (b ++ c) := by
  refine ⟨?_, fun g hg => ?_, h.sharedInOrder.append h'.sharedInOrder⟩
  · refine List.Perm.trans ?_ (h.perm.append h'.perm)
    rw [List.flatMap_append, List.append_assoc, List.append_assoc]
    refine List.Perm.append_left _ ?_
    rw [← List.append_assoc, ← List.append_assoc]
    exact List.perm_append_comm.append_right _
  · rcases List.mem_append.mp hg with hg | hg
    · exact (h.groupInOrder g hg).trans (List.sublist_append_left ps qs)
    · exact (h'.groupInOrder g hg).trans (List.sublist_append_right ps qs)

/-- The open group is finished, if there is anything in it. -/
theorem close (h : Dealt ps gs b) : Dealt ps (gs ++ (Group.ofPredicates? b).toList) [] := by
  by_cases hb : b = []
  · subst hb
    simpa [Group.ofPredicates?] using h
  · have hg : (Group.ofPredicates? b).toList = [⟨b⟩] := by simp [Group.ofPredicates?, hb]
    rw [hg]
    refine ⟨by simpa using h.perm, fun g hg => ?_, List.nil_sublist _⟩
    rcases List.mem_append.mp hg with hg | hg
    · exact h.groupInOrder g hg
    · rw [List.mem_singleton.mp hg]
      exact h.sharedInOrder

theorem flatMap {α : Type} {rs : List α} {own : α → List Predicate} {done : α → List Group}
    {open_ : α → List Predicate} (h : ∀ r ∈ rs, Dealt (own r) (done r) (open_ r)) :
    Dealt (rs.flatMap own) (rs.flatMap done) (rs.flatMap open_) := by
  induction rs with
  | nil => exact gathered []
  | cons r rest ih => exact (h r List.mem_cons_self).append (ih fun r' hr' => h r' (List.mem_cons_of_mem _ hr'))

end Dealt

/-- A parent takes the candidates of a child apart and keeps what it was handed finished. -/
theorem Dealt.handUp {ps : List Predicate} {c : Contribution} (h : Dealt ps c.groups c.candidates)
    (aggregator : Aggregator) : Dealt ps (aggregator.finished c) (aggregator.shared c.candidates) := by
  have hparts := aggregator.apart_append_shared c.candidates
  have hsub : ∀ p ∈ aggregator.apart c.candidates, p ∈ ps := fun p hp =>
    h.sharedInOrder.subset (Aggregator.mem_of_mem_apart hp)
  refine ⟨?_, fun g hg => ?_, ?_⟩
  · have hsingle : ((aggregator.apart c.candidates).map Group.single).flatMap (·.predicates)
        = aggregator.apart c.candidates := by
      simp [List.flatMap_map, Group.single]
    rw [Aggregator.finished, List.flatMap_append, hsingle]
    refine List.Perm.trans ?_ h.perm
    rw [List.append_assoc]
    refine (List.perm_append_comm_assoc _ _ _).trans ?_
    exact List.Perm.append_left _ hparts
  · rcases List.mem_append.mp hg with hg | hg
    · obtain ⟨p, hp, rfl⟩ := List.mem_map.mp hg
      exact List.singleton_sublist.mpr (hsub p hp)
    · exact h.groupInOrder g hg
  · refine List.Sublist.trans ?_ h.sharedInOrder
    cases aggregator with
    | all => exact List.nil_sublist _
    | any => exact List.filter_sublist

/-! ## The conditions that count -/

namespace Rule

/-- The condition of a node, if all the combinations above it lie within the limit. -/
def visited? (limit : Nat) : Rule × Nat → Option Condition
  | (.condition c, above) => if above ≤ limit then some c else none
  | (.combine _ _, _) => none

def visited (limit : Nat) (r : Rule) (depth : Nat) : List Condition := (r.nodes depth).filterMap (visited? limit)

theorem visited_condition (c : Condition) {depth : Nat} (h : depth ≤ limit) :
    (condition c).visited limit depth = [c] := by
  simp [visited, visited?, h]

theorem visited_below (r : Rule) {depth : Nat} (h : limit < depth) : r.visited limit depth = [] := by
  refine List.filterMap_eq_nil_iff.mpr fun x hx => ?_
  have := le_of_mem_nodes hx
  obtain ⟨c | ⟨_, _⟩, above⟩ := x
  · exact if_neg (by simp only at this; omega)
  · rfl

theorem visited_combine (aggregator : Aggregator) (children : List Rule) (depth : Nat) :
    (combine aggregator children).visited limit depth = children.flatMap fun r => r.visited limit (depth + 1) := by
  rw [visited, nodes_combine, List.filterMap_cons_none rfl, List.filterMap_flatMap]
  rfl

/-- A node hands its parent the predicates of the conditions visited below it. -/
theorem contribution_dealt (lookup : Lookup) (r : Rule) : ∀ depth ≤ limit,
    Dealt ((r.visited limit depth).flatMap (·.granted lookup)) (r.contribution lookup limit depth).groups
      (r.contribution lookup limit depth).candidates := by
  induction r with
  | condition c =>
    intro depth hd
    rw [visited_condition c hd, contribution_condition, List.flatMap_singleton]
    simp only
    exact Dealt.gathered (c.granted lookup)
  | combine aggregator children ih =>
    intro depth hd
    rw [visited_combine, List.flatMap_assoc]
    by_cases hl : limit < depth + 1
    · have hn : (children.flatMap fun r => (r.visited limit (depth + 1)).flatMap (·.granted lookup)) = [] :=
        List.flatMap_eq_nil_iff.mpr fun r _ => by rw [visited_below r hl]; rfl
      rw [contribution_below _ _ hl, hn]
      exact Dealt.gathered []
    · rw [contribution_within _ _ hl]
      exact (Dealt.flatMap fun r hr => (ih r hr (depth + 1) (by omega)).handUp aggregator).close

end Rule

/-- The conditions of a tree that have all the combinations above them within the limit. -/
def Tree.visited (limit : Nat) (t : Tree) : List Condition := t.toRule.visited limit 0

/-- No condition is lost, duplicated or silently ignored: the plan holds the predicates of the
    visited conditions, each group in declaration order, and every visited condition without
    predicates and every combination just below the limit is reported once, in preorder. -/
theorem compile_accounts (lookup : Lookup) (limit : Nat) (t : Tree) :
    (compile lookup limit t).plan.predicates.Perm ((t.visited limit).flatMap (·.granted lookup)) ∧
      (∀ g ∈ (compile lookup limit t).plan.groups,
        g.predicates.Sublist ((t.visited limit).flatMap (·.granted lookup))) ∧
      (compile lookup limit t).dropped = (t.toRule.nodes 0).filterMap (Rule.report? lookup limit) := by
  have h : Dealt ((t.visited limit).flatMap (·.granted lookup)) (t.toRule.contribution lookup limit 0).groups [] := by
    have h := Rule.contribution_dealt lookup t.toRule 0 (Nat.zero_le limit)
    rwa [show (t.toRule.contribution lookup limit 0).candidates = [] from Rule.candidates_combine ..] at h
  rw [compile_eq]
  exact ⟨by simpa [Plan.predicates] using h.perm, h.groupInOrder, rfl⟩

end RulePlan
