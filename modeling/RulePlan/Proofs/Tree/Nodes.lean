/-
  RulePlan.Proofs.Tree.Nodes — the nodes of a rule in the order of their declaration.

  `Rule.nodes` lists every node before the nodes below it, each with the number of
  combinations above it. A combination with n combinations above it lies at depth
  n + 1, so that number is also the depth of the innermost combination around a node.
  Rules are nested in lists; `Rule.byChildren` is the induction in which a combination
  may assume the property of each of its children, `Rule.byNode` the one that does not
  tell conditions and combinations apart.
-/

import RulePlan.Tree.Basic

namespace RulePlan.Rule

@[elab_as_elim, induction_eliminator]
theorem byChildren {motive : Rule → Prop} (condition : ∀ c, motive (.condition c))
    (combine : ∀ aggregator children, (∀ r ∈ children, motive r) → motive (.combine aggregator children))
    (r : Rule) : motive r :=
  match r with
  | .condition c => condition c
  | .combine aggregator children => combine aggregator children fun child _ => byChildren condition combine child

def children : Rule → List Rule
  | .condition _ => []
  | .combine _ children => children

/-- The same induction, for what is true of both kinds of nodes for the same reason. -/
theorem byNode {motive : Rule → Prop} (node : ∀ r, (∀ child ∈ r.children, motive child) → motive r) (r : Rule) :
    motive r := by
  induction r with
  | condition c => exact node _ fun _ h => by cases h
  | combine aggregator children ih => exact node _ ih

mutual

/-- The nodes of a rule, each with the number of combinations above it. -/
def nodes : Rule → Nat → List (Rule × Nat)
  | .condition c, above => [(.condition c, above)]
  | .combine aggregator children, above => (.combine aggregator children, above) :: nodesOfAll children (above + 1)

def nodesOfAll : List Rule → Nat → List (Rule × Nat)
  | [], _ => []
  | r :: rest, above => nodes r above ++ nodesOfAll rest above

end

theorem nodesOfAll_eq_flatMap (rs : List Rule) (above : Nat) : nodesOfAll rs above = rs.flatMap (·.nodes above) := by
  induction rs with
  | nil => rfl
  | cons r rest ih => simp [nodesOfAll, ih]

@[simp] theorem nodes_condition (c : Condition) (above : Nat) :
    (condition c).nodes above = [(.condition c, above)] := rfl

@[simp] theorem nodes_combine (aggregator : Aggregator) (children : List Rule) (above : Nat) :
    (combine aggregator children).nodes above =
      (.combine aggregator children, above) :: children.flatMap (·.nodes (above + 1)) := by
  simp [nodes, nodesOfAll_eq_flatMap]

theorem forall_mem_nodes_combine {P : Rule × Nat → Prop} {aggregator : Aggregator} {children : List Rule} {above : Nat} :
    (∀ node ∈ (combine aggregator children).nodes above, P node) ↔
      P (combine aggregator children, above) ∧ ∀ r ∈ children, ∀ node ∈ r.nodes (above + 1), P node := by
  rw [nodes_combine, List.forall_mem_cons]
  refine and_congr_right fun _ => ⟨fun h r hr node hn => ?_, fun h node hn => ?_⟩
  · exact h node (List.mem_flatMap.mpr ⟨r, hr, hn⟩)
  · obtain ⟨r, hr, hn⟩ := List.mem_flatMap.mp hn
    exact h r hr node hn

theorem self_mem_nodes (r : Rule) (above : Nat) : (r, above) ∈ r.nodes above := by
  cases r with
  | condition c => simp
  | combine aggregator children => simp

theorem mem_nodes_of_child {r child : Rule} (hc : child ∈ r.children) {above : Nat} {node : Rule × Nat}
    (hn : node ∈ child.nodes (above + 1)) : node ∈ r.nodes above := by
  cases r with
  | condition c => cases hc
  | combine aggregator children =>
    rw [nodes_combine]
    exact List.mem_cons_of_mem _ (List.mem_flatMap.mpr ⟨child, hc, hn⟩)

theorem le_of_mem_nodes {r : Rule} {above : Nat} {x : Rule × Nat} (h : x ∈ r.nodes above) : above ≤ x.2 := by
  induction r generalizing above with
  | condition c =>
    rw [nodes_condition, List.mem_singleton] at h
    simp [h]
  | combine aggregator children ih =>
    rw [nodes_combine] at h
    rcases List.mem_cons.mp h with rfl | h
    · exact Nat.le_refl _
    · obtain ⟨r, hr, hx⟩ := List.mem_flatMap.mp h
      have := ih r hr hx
      omega

theorem depth_lt_of_mem (aggregator : Aggregator) {children : List Rule} {r : Rule} (h : r ∈ children) :
    r.depth < (combine aggregator children).depth := by
  have hle : ∀ rs : List Rule, r ∈ rs → r.depth ≤ deepest rs := by
    intro rs
    induction rs with
    | nil => intro hr; cases hr
    | cons r' rest ih =>
      intro hr
      rw [deepest]
      rcases List.mem_cons.mp hr with rfl | hr
      · omega
      · have := ih hr
        omega
  have := hle children h
  rw [depth]
  omega

end RulePlan.Rule
