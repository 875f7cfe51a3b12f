/-
  RulePlan.Proofs.Compile.Flattened — an `all` below an `all`.

  An `all` that is a child of another says nothing that its children would not say in
  its place (`Rule.Flattens`). There the conditions change what they do: handed up as
  candidates they get their groups from the outer `all`, before they came in finished
  groups of the inner one; and everything below moves up by a level. Neither shows, as
  long as the tree lies within the limit: an `all` gives each candidate a group of its
  own and shares none, and a rule that lies within the limit hands up the same wherever
  it stands (`Rule.contribution_eq_of_le`).

  Proved, for every look-up and limit (`compile_flattened`): a tree within the limit and
  the tree that is left after any number of such replacements, at any levels, have the
  same plan, leave out the same conditions in the same order and call the look-up for
  the same codes in the same order; and a condition alone has the plan that it has in
  any number of nested `all` combinations within the limit.
-/

import Mathlib.Logic.Relation
import RulePlan.Proofs.Compile.Memo
import RulePlan.Proofs.Compile.Meaning

namespace RulePlan

namespace Rule

/-- An `all` that is a child of an `all`, at any level, gives way to its own children. -/
inductive Flattens : Rule → Rule → Prop
  | here (before inner after : List Rule) :
      Flattens (.combine .all (before ++ .combine .all inner :: after)) (.combine .all (before ++ inner ++ after))
  | inside (aggregator : Aggregator) (before after : List Rule) {r s : Rule} (h : Flattens r s) :
      Flattens (.combine aggregator (before ++ r :: after)) (.combine aggregator (before ++ s :: after))

variable {lookup : Lookup} {limit depth : Nat} {r s : Rule}

/-! ## Depths -/

theorem deepest_append (rs ss : List Rule) : deepest (rs ++ ss) = max (deepest rs) (deepest ss) := by
  induction rs with
  | nil => simp [deepest]
  | cons r rest ih => rw [List.cons_append, deepest, deepest, ih, Nat.max_assoc]

theorem Flattens.depth_le (h : Flattens r s) : s.depth ≤ r.depth := by
  induction h with
  | here before inner after =>
    simp only [depth, deepest, deepest_append]
    omega
  | inside aggregator before after _ ih =>
    simp only [depth, deepest, deepest_append]
    omega

/-- The children of a rule that lies within the limit do so one level down. -/
theorem le_of_child {aggregator : Aggregator} {children : List Rule} {child : Rule}
    (h : depth + (combine aggregator children).depth ≤ limit) (hc : child ∈ children) :
    depth + 1 + child.depth ≤ limit := by
  have := depth_lt_of_mem aggregator hc
  omega

/-! ## Rules within the limit -/

theorem not_lt_of_depth_le {aggregator : Aggregator} {children : List Rule}
    (h : depth + (combine aggregator children).depth ≤ limit) : ¬ limit < depth + 1 := by
  rw [Rule.depth] at h
  omega

/-- Within the limit it does not matter how far down a rule stands. -/
theorem contribution_eq_of_le (r : Rule) : ∀ {depth depth' : Nat}, depth + r.depth ≤ limit → depth' + r.depth ≤ limit →
    r.contribution lookup limit depth = r.contribution lookup limit depth' := by
  induction r with
  | condition c => exact fun _ _ => rfl
  | combine aggregator children ih =>
    intro depth depth' h h'
    have hchildren : ∀ r ∈ children,
        r.contribution lookup limit (depth + 1) = r.contribution lookup limit (depth' + 1) :=
      fun r hr => ih r hr (le_of_child h hr) (le_of_child h' hr)
    have hfinished := List.flatMap_congr fun r hr => congrArg aggregator.finished (hchildren r hr)
    have hshared := List.flatMap_congr fun r hr => congrArg (aggregator.shared ·.candidates) (hchildren r hr)
    rw [contribution_within _ _ (not_lt_of_depth_le h), contribution_within _ _ (not_lt_of_depth_le h'), hfinished,
      hshared]

theorem visited_eq_of_le (r : Rule) : ∀ {depth depth' : Nat}, depth + r.depth ≤ limit → depth' + r.depth ≤ limit →
    r.visited limit depth = r.visited limit depth' := by
  induction r with
  | condition c =>
    intro depth depth' h h'
    rw [visited_condition c (Nat.le_of_add_right_le h), visited_condition c (Nat.le_of_add_right_le h')]
  | combine aggregator children ih =>
    intro depth depth' h h'
    rw [visited_combine, visited_combine]
    exact List.flatMap_congr fun r hr => ih r hr (le_of_child h hr) (le_of_child h' hr)

/-- Within the limit nothing but conditions is left out. -/
theorem reports_eq_of_le (r : Rule) : ∀ {depth : Nat}, depth + r.depth ≤ limit →
    r.reports lookup limit depth = (r.visited limit depth).filterMap (·.refusal? lookup) := by
  induction r with
  | condition c =>
    intro depth h
    have hd : depth ≤ limit := Nat.le_of_add_right_le h
    rw [reports_condition c hd, visited_condition c hd, List.filterMap_cons, List.filterMap_nil]
    cases c.refusal? lookup <;> rfl
  | combine aggregator children ih =>
    intro depth h
    have hne : depth ≠ limit := fun he => not_lt_of_depth_le h (by omega)
    rw [reports_combine, if_neg hne, List.nil_append, visited_combine, List.filterMap_flatMap]
    exact List.flatMap_congr fun r hr => ih r hr (le_of_child h hr)

/-! ## Flattened rules -/

/-- An `all` has the groups of its children, and no shared group. -/
theorem contribution_all (children : List Rule) (hl : ¬ limit < depth + 1) :
    (combine .all children).contribution lookup limit depth =
      { groups := children.flatMap fun r => Aggregator.all.finished (r.contribution lookup limit (depth + 1)) } := by
  have hshared : (children.flatMap fun r =>
      Aggregator.all.shared (r.contribution lookup limit (depth + 1)).candidates) = [] :=
    List.flatMap_eq_nil_iff.mpr fun _ _ => rfl
  rw [contribution_within _ _ hl, hshared]
  simp [Group.ofPredicates?]

theorem Flattens.contribution_eq (h : Flattens r s) : ∀ {depth : Nat}, depth + r.depth ≤ limit →
    r.contribution lookup limit depth = s.contribution lookup limit depth := by
  induction h with
  | here before inner after =>
    intro depth hd
    have hinner : depth + 1 + (combine .all inner).depth ≤ limit := le_of_child hd (by simp)
    have hmoved : ∀ r ∈ inner, r.contribution lookup limit (depth + 1 + 1) = r.contribution lookup limit (depth + 1) :=
      fun r hr => r.contribution_eq_of_le (le_of_child hinner hr) (by have := le_of_child hinner hr; omega)
    have hgroups : Aggregator.all.finished ((combine .all inner).contribution lookup limit (depth + 1)) =
        inner.flatMap fun r => Aggregator.all.finished (r.contribution lookup limit (depth + 1)) := by
      rw [finished_combine, contribution_all inner (not_lt_of_depth_le hinner)]
      exact List.flatMap_congr fun r hr => congrArg Aggregator.all.finished (hmoved r hr)
    rw [contribution_all _ (not_lt_of_depth_le hd), contribution_all _ (not_lt_of_depth_le hd)]
    simp only [List.flatMap_append, List.flatMap_cons, hgroups, List.append_assoc]
  | inside aggregator before after _ ih =>
    intro depth hd
    have hl := not_lt_of_depth_le hd
    rw [contribution_within _ _ hl, contribution_within _ _ hl]
    simp only [List.flatMap_append, List.flatMap_cons, ih (le_of_child hd (by simp))]

theorem Flattens.visited_eq (h : Flattens r s) : ∀ {depth : Nat}, depth + r.depth ≤ limit →
    r.visited limit depth = s.visited limit depth := by
  induction h with
  | here before inner after =>
    intro depth hd
    have hinner : depth + 1 + (combine .all inner).depth ≤ limit := le_of_child hd (by simp)
    have hmoved : (inner.flatMap fun r => r.visited limit (depth + 1 + 1)) =
        inner.flatMap fun r => r.visited limit (depth + 1) :=
      List.flatMap_congr fun r hr =>
        r.visited_eq_of_le (le_of_child hinner hr) (by have := le_of_child hinner hr; omega)
    simp only [visited_combine, List.flatMap_append, List.flatMap_cons, hmoved, List.append_assoc]
  | inside aggregator before after _ ih =>
    intro depth hd
    simp only [visited_combine, List.flatMap_append, List.flatMap_cons, ih (le_of_child hd (by simp))]

/-! ## Any number of replacements -/

/-- Within the limit the second rule does what the first one does, and it goes no deeper. -/
structure Replaces (lookup : Lookup) (limit : Nat) (s r : Rule) (depth : Nat) : Prop where
  depth_le : s.depth ≤ r.depth
  contribution_eq : r.contribution lookup limit depth = s.contribution lookup limit depth
  visited_eq : r.visited limit depth = s.visited limit depth

theorem replaces_of_flattens (h : Relation.ReflTransGen Flattens r s) (hd : depth + r.depth ≤ limit) :
    Replaces lookup limit s r depth := by
  induction h with
  | refl => exact ⟨Nat.le_refl _, rfl, rfl⟩
  | tail _ hstep ih =>
    have hfits := Nat.le_trans (Nat.add_le_add_left ih.depth_le depth) hd
    exact ⟨Nat.le_trans hstep.depth_le ih.depth_le, ih.contribution_eq.trans (hstep.contribution_eq hfits),
      ih.visited_eq.trans (hstep.visited_eq hfits)⟩

theorem Replaces.reports_eq (h : Replaces lookup limit s r depth) (hd : depth + r.depth ≤ limit) :
    r.reports lookup limit depth = s.reports lookup limit depth := by
  have hfits := Nat.le_trans (Nat.add_le_add_left h.depth_le depth) hd
  rw [reports_eq_of_le r hd, reports_eq_of_le s hfits, h.visited_eq]

/-- A rule in a number of combinations, each with the next as its only child. -/
def nested : Nat → Rule → Rule
  | 0, r => r
  | n + 1, r => .combine .all [nested n r]

theorem depth_nested (n : Nat) (r : Rule) : (nested n r).depth = n + r.depth := by
  induction n with
  | zero => simp [nested]
  | succ n ih =>
    simp only [nested, Rule.depth, deepest, ih]
    omega

theorem flattens_nested (n : Nat) (r : Rule) :
    Relation.ReflTransGen Flattens (.combine .all [nested n r]) (.combine .all [r]) := by
  induction n with
  | zero => exact .refl
  | succ n ih => exact .head (.here [] [nested n r] []) ih

end Rule

/-! ## Compiled plans -/

theorem compile_eq_of_flattens (lookup : Lookup) {limit : Nat} {t u : Tree}
    (h : Relation.ReflTransGen Rule.Flattens t.toRule u.toRule) (hd : t.depth ≤ limit) :
    compile lookup limit t = compile lookup limit u ∧
      (compileIn lookup limit t {}).2.calls = (compileIn lookup limit u {}).2.calls := by
  have hfits : 0 + t.toRule.depth ≤ limit := by rwa [Nat.zero_add]
  have hsame : Rule.Replaces lookup limit u.toRule t.toRule 0 := Rule.replaces_of_flattens h hfits
  have hvisited : t.visited limit = u.visited limit := hsame.visited_eq
  rw [compile_eq, compile_eq, hsame.contribution_eq, hsame.reports_eq hfits, calls_compileIn, calls_compileIn, hvisited]
  exact ⟨rfl, rfl⟩

/-- An `all` in an `all` may as well give way to its children, anywhere in a tree within the limit
    and any number of times: the plan, what is left out of it and the calls for attributes stay as they
    are, order included. So a condition alone has the plan of the condition in nested `all`
    combinations. -/
theorem compile_flattened (lookup : Lookup) (limit : Nat) :
    (∀ t u : Tree, Relation.ReflTransGen Rule.Flattens t.toRule u.toRule → t.depth ≤ limit →
        compile lookup limit t = compile lookup limit u ∧
          (compileIn lookup limit t {}).2.calls = (compileIn lookup limit u {}).2.calls) ∧
      ∀ (c : Condition) (n : Nat), n + 1 ≤ limit →
        compile lookup limit (Rule.condition c).toTree = compile lookup limit ⟨.all, [.nested n (.condition c)]⟩ := by
  refine ⟨fun t u h hd => compile_eq_of_flattens lookup h hd, fun c n hn => ?_⟩
  have hdepth : (⟨.all, [.nested n (.condition c)]⟩ : Tree).depth ≤ limit := by
    simp only [Tree.depth, Tree.toRule, Rule.depth, Rule.deepest, Rule.depth_nested]
    omega
  have hflat : Relation.ReflTransGen Rule.Flattens (⟨.all, [.nested n (.condition c)]⟩ : Tree).toRule
      (Rule.condition c).toTree.toRule := Rule.flattens_nested n (.condition c)
  exact (compile_eq_of_flattens lookup hflat hdepth).1.symm

/-- Two of the `all` combinations below an `any` go, and a condition moves up by two levels; the
    predicates of the set stay in groups of their own. -/
theorem an_all_in_an_all_below_an_any_gives_way_to_its_children :
    let lookup : Lookup := fun code => if code = "size" then .ok .missing else .ok { storage := .codeSet }
    let size : Rule := .condition ⟨"size", "==", .single (.int 7)⟩
    let color : Rule := .condition ⟨"color", "()", .single (.text "red,blue")⟩
    let shape : Rule := .condition ⟨"shape", "!()", .single (.text "round")⟩
    let t : Tree := ⟨.any, [shape, .combine .all [size, .combine .all [.combine .all [color], shape]]]⟩
    let u : Tree := ⟨.any, [shape, .combine .all [size, color, shape]]⟩
    Relation.ReflTransGen Rule.Flattens t.toRule u.toRule ∧ t.depth ≤ 4 ∧
      compile lookup 4 t = compile lookup 4 u ∧
      (compileIn lookup 4 t {}).2.calls = (compileIn lookup 4 u {}).2.calls ∧
      (compile lookup 4 u).plan.groups.length = 4 ∧ (compile lookup 4 u).dropped = [⟨"size", .unknownAttribute⟩] ∧
      2 + 1 ≤ 4 ∧ compile lookup 4 color.toTree = compile lookup 4 ⟨.all, [.nested 2 color]⟩ := by
  intro lookup size color shape t u
  have h : Relation.ReflTransGen Rule.Flattens t.toRule u.toRule :=
    .head (.inside .any [shape] [] (.here [size] [.combine .all [color], shape] []))
      (.single (.inside .any [shape] [] (.here [size] [color] [shape])))
  have hd : t.depth ≤ 4 := by decide
  obtain ⟨hflat, hnested⟩ := compile_flattened lookup 4
  obtain ⟨hplan, hcalls⟩ := hflat t u h hd
  exact ⟨h, hd, hplan, hcalls, by decide, by decide, by decide, hnested _ 2 (by decide)⟩

end RulePlan
