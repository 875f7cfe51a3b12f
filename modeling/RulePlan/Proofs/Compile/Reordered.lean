/-
  RulePlan.Proofs.Compile.Reordered — the order in which conditions are written.

  Two rules are reorderings of each other (`Rule.Reordered`) if they differ in the order
  of the children of combinations, at any level. A permutation of children moves the
  groups of a plan about, the alternatives within a group and the reports, and another
  condition may be the first to name a code. On a record all of that comes to the same:
  a reordered node offers the same predicates, and its groups let the record through or
  not together (`Contribution.SameOn`), since a combination asks for all groups that its
  children have finished and for one of the predicates that they share.

  Proved, for every look-up and limit (`compile_reordered`): the plans of reordered trees
  match the same records and hold as many predicates, what is left out is the same up to
  order, and the look-up is called for the same codes.
-/

import Mathlib.Data.List.Perm.Basic
import RulePlan.Proofs.Compile.Meaning
import RulePlan.Proofs.Compile.Memo

namespace RulePlan

variable {lookup : Lookup} {limit : Nat} {record : Record}

/-! ## Reorderings -/

/-- The children of combinations stand in another order, and so do those below them. -/
inductive Rule.Reordered : Rule → Rule → Prop
  | condition (c : Condition) : Reordered (.condition c) (.condition c)
  | combine (aggregator : Aggregator) {children moved children' : List Rule} (perm : children.Perm moved)
      (below : List.Forall₂ Reordered moved children') :
      Reordered (.combine aggregator children) (.combine aggregator children')

/-! ## Lists whose members correspond -/

section

variable {α β : Type} {P : α → Prop} {Q : β → Prop} {as : List α} {bs : List β}

theorem forall_mem_congr_of_forall₂ (h : List.Forall₂ (fun a b => P a ↔ Q b) as bs) :
    (∀ a ∈ as, P a) ↔ ∀ b ∈ bs, Q b := by
  induction h with
  | nil => simp
  | cons hab _ ih => rw [List.forall_mem_cons, List.forall_mem_cons, hab, ih]

theorem exists_mem_congr_of_forall₂ (h : List.Forall₂ (fun a b => P a ↔ Q b) as bs) :
    (∃ a ∈ as, P a) ↔ ∃ b ∈ bs, Q b := by
  induction h with
  | nil => simp
  | cons hab _ ih => rw [List.exists_mem_cons_iff, List.exists_mem_cons_iff, hab, ih]

theorem flatMap_perm_of_forall₂ {γ : Type} {f : α → List γ} {g : β → List γ}
    (h : List.Forall₂ (fun a b => (f a).Perm (g b)) as bs) : (as.flatMap f).Perm (bs.flatMap g) := by
  induction h with
  | nil => exact .refl []
  | cons hab _ ih => exact hab.append ih

end

namespace Rule

variable {r s : Rule} {aggregator : Aggregator} {children children' : List Rule}

/-- What reorderings of the children have in common with them, the children of a permutation have. -/
theorem Reordered.combine_cases {R : Rule → Rule → Prop} (h : Reordered (.combine aggregator children) s)
    (hR : ∀ r ∈ children, ∀ s, Reordered r s → R r s) :
    ∃ moved children', s = .combine aggregator children' ∧ children.Perm moved ∧ List.Forall₂ R moved children' := by
  cases h with
  | @combine _ _ moved children' perm below =>
    refine ⟨moved, children', rfl, perm, ?_⟩
    have hmoved : ∀ r ∈ moved, ∀ s, Reordered r s → R r s := fun r hr => hR r (perm.mem_iff.mpr hr)
    exact ((List.forall₂_and_left _ _).mpr ⟨hmoved, below⟩).imp fun r s h => h.1 s h.2

/-! ## What is visited and what is left out -/

theorem Reordered.visited_perm (r : Rule) : ∀ {s : Rule} {depth : Nat}, Reordered r s →
    (r.visited limit depth).Perm (s.visited limit depth) := by
  induction r with
  | condition c =>
    intro s depth h
    cases h
    exact .refl _
  | combine aggregator children ih =>
    intro s depth h
    obtain ⟨moved, children', rfl, perm, below⟩ :=
      h.combine_cases fun r hr s hs => @ih r hr s (depth + 1) hs
    rw [visited_combine, visited_combine]
    exact (perm.flatMap_right _).trans (flatMap_perm_of_forall₂ below)

theorem Reordered.reports_perm (r : Rule) : ∀ {s : Rule} {depth : Nat}, Reordered r s →
    (r.reports lookup limit depth).Perm (s.reports lookup limit depth) := by
  induction r with
  | condition c =>
    intro s depth h
    cases h
    exact .refl _
  | combine aggregator children ih =>
    intro s depth h
    obtain ⟨moved, children', rfl, perm, below⟩ :=
      h.combine_cases fun r hr s hs => @ih r hr s (depth + 1) hs
    rw [reports_combine, reports_combine]
    exact ((perm.flatMap_right _).trans (flatMap_perm_of_forall₂ below)).append_left _

end Rule

/-! ## Contributions on a record -/

/-- On a record, two contributions are the same to whoever takes them: they offer the same predicates,
    and their groups let the record through together. -/
structure Contribution.SameOn (record : Record) (c d : Contribution) : Prop where
  candidates_eq : c.candidates = d.candidates
  groups_iff : (∀ g ∈ c.groups, g.matches record) ↔ ∀ g ∈ d.groups, g.matches record

theorem Contribution.SameOn.finished_iff {c d : Contribution} (h : SameOn record c d) (aggregator : Aggregator) :
    (∀ g ∈ aggregator.finished c, g.matches record) ↔ ∀ g ∈ aggregator.finished d, g.matches record := by
  simp only [Aggregator.finished, List.forall_mem_append, h.candidates_eq, h.groups_iff]

namespace Rule

theorem Reordered.sameOn (r : Rule) : ∀ {s : Rule} {depth : Nat}, Reordered r s →
    (r.contribution lookup limit depth).SameOn record (s.contribution lookup limit depth) := by
  induction r with
  | condition c =>
    intro s depth h
    cases h
    exact ⟨rfl, Iff.rfl⟩
  | combine aggregator children ih =>
    intro s depth h
    obtain ⟨moved, children', rfl, perm, below⟩ :=
      h.combine_cases fun r hr s hs => @ih r hr s (depth + 1) hs
    refine ⟨by rw [candidates_combine, candidates_combine], ?_⟩
    by_cases hl : limit < depth + 1
    · rw [contribution_below _ _ hl, contribution_below _ _ hl]
    · rw [groups_match_iff hl, groups_match_iff hl]
      have hfinished := forall_mem_congr_of_forall₂ (below.imp fun r s h => h.finished_iff aggregator)
      have hshared (P : List Predicate → Prop) := exists_mem_congr_of_forall₂ (below.imp fun r s h =>
        show P (aggregator.shared (r.contribution lookup limit (depth + 1)).candidates) ↔
          P (aggregator.shared (s.contribution lookup limit (depth + 1)).candidates) by rw [h.candidates_eq])
      simp only [perm.mem_iff, hfinished, hshared (· ≠ []), hshared fun ps => ∃ p ∈ ps, p.matches record]

end Rule

/-! ## Plans -/

theorem Plan.predicateCount_eq (p : Plan) : p.predicateCount = p.predicates.length := by
  unfold predicateCount predicates
  induction p.groups with
  | nil => rfl
  | cons g rest ih => simp [ih]

theorem predicateCount_compile (lookup : Lookup) (limit : Nat) (t : Tree) :
    (compile lookup limit t).plan.predicateCount = ((t.visited limit).flatMap (·.granted lookup)).length := by
  have hcandidates : (t.toRule.contribution lookup limit 0).candidates = [] := Rule.candidates_combine ..
  have hdealt := (Rule.contribution_dealt lookup t.toRule 0 (Nat.zero_le limit)).perm
  rw [hcandidates, List.append_nil] at hdealt
  rw [Plan.predicateCount_eq, compile_eq]
  exact hdealt.length_eq

theorem eraseDups_perm {α : Type} [DecidableEq α] {l l' : List α} (h : l.Perm l') : l.eraseDups.Perm l'.eraseDups := by
  rw [List.perm_ext_iff_of_nodup (eraseDups_nodup l) (eraseDups_nodup l')]
  intro a
  rw [List.mem_eraseDups, List.mem_eraseDups, h.mem_iff]

/-- The order in which conditions are written does not change what is selected: the plans of reordered
    trees match the same records and have as many predicates, the same conditions are left out, and the
    look-up is called for the same codes, each once. -/
theorem compile_reordered (lookup : Lookup) (limit : Nat) {t u : Tree} (h : t.toRule.Reordered u.toRule) :
    (∀ record, (compile lookup limit t).plan.matches record = (compile lookup limit u).plan.matches record) ∧
      (compile lookup limit t).dropped.Perm (compile lookup limit u).dropped ∧
      (compile lookup limit t).plan.predicateCount = (compile lookup limit u).plan.predicateCount ∧
      (compileIn lookup limit t {}).2.calls.Perm (compileIn lookup limit u {}).2.calls := by
  have hvisited : (t.visited limit).Perm (u.visited limit) := h.visited_perm
  refine ⟨fun record => ?_, ?_, ?_, ?_⟩
  · have hsame : (t.toRule.contribution lookup limit 0).SameOn record (u.toRule.contribution lookup limit 0) := h.sameOn
    rw [Bool.eq_iff_iff, compile_eq, compile_eq, Plan.matches, Plan.matches, List.all_eq_true, List.all_eq_true]
    exact hsame.groups_iff
  · rw [compile_eq, compile_eq]
    exact h.reports_perm
  · rw [predicateCount_compile, predicateCount_compile]
    exact (hvisited.flatMap_right _).length_eq
  · rw [calls_compileIn, calls_compileIn]
    exact eraseDups_perm ((hvisited.map _).filter _)

/-- The root and the combination below it are written the other way round: the groups of the plan,
    the alternatives, the reports and the calls are in another order. -/
theorem a_tree_and_its_mirror_image_let_the_same_records_through :
    let lookup : Lookup := fun code => if code = "size" then .ok .missing else .ok { storage := .codeSet }
    let size : Rule := .condition ⟨"size", "==", .single (.int 7)⟩
    let color : Rule := .condition ⟨"color", "()", .single (.text "red,blue")⟩
    let shape : Rule := .condition ⟨"shape", "!()", .single (.text "round")⟩
    let empty : Rule := .condition ⟨"", "==", .absent⟩
    let t : Tree := ⟨.all, [size, .combine .any [color, shape], empty]⟩
    let u : Tree := ⟨.all, [empty, .combine .any [shape, color], size]⟩
    let record : Record := fun field => if field = "color" then some (.text "Blue") else some (.text "square")
    t.toRule.Reordered u.toRule ∧
      (compile lookup 2 t).plan.matches record = (compile lookup 2 u).plan.matches record ∧
      (compile lookup 2 t).plan.matches record ∧
      (compile lookup 2 t).dropped.Perm (compile lookup 2 u).dropped ∧
      (compile lookup 2 t).dropped ≠ (compile lookup 2 u).dropped ∧
      (compile lookup 2 t).plan.predicateCount = (compile lookup 2 u).plan.predicateCount ∧
      (compileIn lookup 2 t {}).2.calls.Perm (compileIn lookup 2 u {}).2.calls := by
  intro lookup size color shape empty t u record
  have hinner : (Rule.combine .any [color, shape]).Reordered (.combine .any [shape, color]) :=
    .combine .any (.swap shape color []) (.cons (.condition _) (.cons (.condition _) .nil))
  have hmoved : [size, .combine .any [color, shape], empty].Perm [empty, .combine .any [color, shape], size] :=
    (List.reverse_perm [size, .combine .any [color, shape], empty]).symm
  have h : t.toRule.Reordered u.toRule :=
    .combine .all hmoved (.cons (.condition _) (.cons hinner (.cons (.condition _) .nil)))
  obtain ⟨hmatches, hdropped, hcount, hcalls⟩ := compile_reordered lookup 2 h
  exact ⟨h, hmatches record, by decide, hdropped, by decide, hcount, hcalls⟩

end RulePlan
