/-
  RulePlan.Proofs.Compile.Pruning — what is left out of a plan leaves no trace in it.

  A tree is pruned (`Tree.pruned`) by taking out of it what compilation leaves out: the
  combinations below the limit, the conditions whose expansion fails, and then every
  combination below the root with no condition at or below it. A node of which nothing
  is kept has nothing to hand to its parent (`isSome_pruned?_iff`, by way of
  `Rule.live`); what is kept of any other node stands for it (`Rule.StandsFor`): it
  hands up the same predicates and groups, within any limit that it fits in, and
  nothing of it is reported.

  The counter of the compiler is the depth of the tree: if the tree goes deeper than the
  limit, there is a combination just below the limit on the way down
  (`exists_combine_at`), and that one is reported.

  Proved, for every tree, look-up and limit: the pruned tree has the plan of the tree,
  under its limit and under every other one that it fits in, nothing is left out of it,
  and a tree has something cut off for its depth just when it is deeper than the limit
  (`compile_pruned`).
-/

import RulePlan.Proofs.Compile.Meaning
import RulePlan.Proofs.Tree.Depth

namespace RulePlan

variable (lookup : Lookup) (limit : Nat)

/-! ## Pruned trees -/

namespace Rule

mutual

/-- What is kept of a rule; `above` counts the combinations above it. -/
def pruned? : Rule → Nat → Option Rule
  | .condition c, _ => if (c.expansion lookup).isOk then some (.condition c) else none
  | .combine aggregator children, above =>
    if limit < above + 1 then none
    else
      let kept := prunedAll children (above + 1)
      if conditionCounts kept = 0 then none else some (.combine aggregator kept)

def prunedAll : List Rule → Nat → List Rule
  | [], _ => []
  | r :: rest, above => (pruned? r above).toList ++ prunedAll rest above

end

end Rule

/-- The root stays, whatever is left below it. -/
def Tree.pruned (t : Tree) : Tree := ⟨t.aggregator, Rule.prunedAll lookup limit t.children 1⟩

namespace Rule

variable {lookup limit} {above : Nat} {r kept : Rule} {rs : List Rule}

theorem mem_prunedAll : kept ∈ prunedAll lookup limit rs above ↔ ∃ r ∈ rs, r.pruned? lookup limit above = some kept := by
  induction rs with
  | nil => simp [prunedAll]
  | cons r rest ih => simp [prunedAll, ih]

theorem conditionCounts_eq_zero : conditionCounts rs = 0 ↔ ∀ r ∈ rs, r.conditionCount = 0 := by
  induction rs with
  | nil => simp [conditionCounts]
  | cons r rest ih => simp [conditionCounts, ih]

theorem pruned?_combine_of_le {aggregator : Aggregator} {children : List Rule} (hl : ¬ limit < above + 1)
    (h : (combine aggregator children).pruned? lookup limit above = some kept) :
    kept = combine aggregator (prunedAll lookup limit children (above + 1)) := by
  rw [pruned?, if_neg hl] at h
  simp only at h
  split at h
  · cases h
  · cases h
    rfl

/-- There is a condition in whatever is kept. -/
theorem conditionCount_of_pruned? (h : r.pruned? lookup limit above = some kept) : kept.conditionCount ≠ 0 := by
  cases r with
  | condition c =>
    rw [pruned?] at h
    split at h
    · cases h
      simp [conditionCount]
    · cases h
  | combine aggregator children =>
    rw [pruned?] at h
    split at h
    · cases h
    · simp only at h
      split at h
      · cases h
      · next hne =>
        cases h
        exact hne

/-- Something is kept of the live rules and of no others. -/
theorem isSome_pruned?_iff (r : Rule) : ∀ {above : Nat},
    (r.pruned? lookup limit above).isSome ↔ r.live lookup limit above := by
  induction r with
  | condition c =>
    intro above
    rw [pruned?, live_condition]
    split
    · next h => simp [h]
    · next h => simp [h]
  | combine aggregator children ih =>
    intro above
    have hcount : conditionCounts (prunedAll lookup limit children (above + 1)) = 0 ↔
        ¬ ∃ r ∈ children, r.live lookup limit (above + 1) := by
      rw [conditionCounts_eq_zero]
      constructor
      · intro h hlive
        obtain ⟨r, hr, hlive⟩ := hlive
        obtain ⟨kept, hk⟩ := Option.isSome_iff_exists.mp ((ih r hr).mpr hlive)
        exact conditionCount_of_pruned? hk (h kept (mem_prunedAll.mpr ⟨r, hr, hk⟩))
      · intro h kept hk
        obtain ⟨r, hr, hk⟩ := mem_prunedAll.mp hk
        exact absurd ⟨r, hr, (ih r hr).mp (by simp [hk])⟩ h
    rw [live_combine, pruned?]
    by_cases hl : limit < above + 1
    · simp [hl]
    · by_cases hlive : ∃ r ∈ children, r.live lookup limit (above + 1)
      · have hne : conditionCounts (prunedAll lookup limit children (above + 1)) ≠ 0 := fun h => hcount.mp h hlive
        simp [hl, hne, hlive]
      · simp [hl, hcount.mpr hlive, hlive]

theorem contribution_of_pruned?_eq_none (h : r.pruned? lookup limit above = none) :
    r.contribution lookup limit above = {} := by
  apply contribution_of_not_live
  rw [← isSome_pruned?_iff, h]
  simp

/-! ## What is kept stands for the rule -/

/-- Under any limit that the kept rule fits in, it hands up what the rule does under its own, and
    nothing of it is reported. -/
structure StandsFor (lookup : Lookup) (limit : Nat) (kept r : Rule) (above : Nat) : Prop where
  depth_le : above + kept.depth ≤ max above limit
  contribution_eq : ∀ limit', above + kept.depth ≤ limit' →
    kept.contribution lookup limit' above = r.contribution lookup limit above
  reports_eq : ∀ limit', above + kept.depth ≤ limit' → kept.reports lookup limit' above = []

/-- The children of which nothing is kept do not show among those of which something is. -/
theorem flatMap_prunedAll {α : Type} {f g : Rule → List α}
    (hnone : ∀ r ∈ rs, r.pruned? lookup limit above = none → g r = [])
    (hsome : ∀ r ∈ rs, ∀ kept, r.pruned? lookup limit above = some kept → f kept = g r) :
    (prunedAll lookup limit rs above).flatMap f = rs.flatMap g := by
  induction rs with
  | nil => rfl
  | cons r rest ih =>
    have hrest := ih (fun s hs => hnone s (List.mem_cons_of_mem _ hs)) fun s hs => hsome s (List.mem_cons_of_mem _ hs)
    rw [prunedAll, List.flatMap_append, List.flatMap_cons, hrest]
    congr 1
    cases hk : r.pruned? lookup limit above with
    | none => exact (hnone r List.mem_cons_self hk).symm
    | some kept => simpa using hsome r List.mem_cons_self kept hk

theorem standsFor_condition {c : Condition} (h : (c.expansion lookup).isOk) :
    StandsFor lookup limit (condition c) (condition c) above := by
  refine ⟨Nat.le_max_left above limit, fun limit' _ => by simp, ?_⟩
  intro limit' hd
  have hrefusal : c.refusal? lookup = none := by
    unfold Condition.refusal?
    split
    · rfl
    · next he => simp [he, Except.isOk, Except.toBool] at h
  rw [reports_condition c (by simpa [depth] using hd), hrefusal]
  rfl

theorem standsFor_combine (aggregator : Aggregator) {children : List Rule} (hl : ¬ limit < above + 1)
    (h : ∀ r ∈ children, ∀ kept, r.pruned? lookup limit (above + 1) = some kept →
      StandsFor lookup limit kept r (above + 1)) :
    StandsFor lookup limit (combine aggregator (prunedAll lookup limit children (above + 1)))
      (combine aggregator children) above := by
  have hfits : ∀ limit', above + (combine aggregator (prunedAll lookup limit children (above + 1))).depth ≤ limit' →
      ∀ r ∈ children, ∀ kept, r.pruned? lookup limit (above + 1) = some kept → above + 1 + kept.depth ≤ limit' := by
    intro limit' hd r hr kept hk
    have := depth_lt_of_mem aggregator (mem_prunedAll.mpr ⟨r, hr, hk⟩)
    omega
  refine ⟨?_, ?_, ?_⟩
  · have hdeepest : deepest (prunedAll lookup limit children (above + 1)) ≤ limit - (above + 1) := by
      apply deepest_le
      intro kept hk
      obtain ⟨r, hr, hk⟩ := mem_prunedAll.mp hk
      have := (h r hr kept hk).depth_le
      omega
    rw [depth]
    omega
  · intro limit' hd
    have hl' : ¬ limit' < above + 1 := by
      rw [depth] at hd
      omega
    have hnone : ∀ r ∈ children, r.pruned? lookup limit (above + 1) = none →
        r.contribution lookup limit (above + 1) = {} := fun r _ hk => contribution_of_pruned?_eq_none hk
    have hsome := fun r hr kept hk => (h r hr kept hk).contribution_eq limit' (hfits limit' hd r hr kept hk)
    have hfinished : (prunedAll lookup limit children (above + 1)).flatMap
          (fun r => aggregator.finished (r.contribution lookup limit' (above + 1))) =
        children.flatMap fun r => aggregator.finished (r.contribution lookup limit (above + 1)) :=
      flatMap_prunedAll (fun r hr hk => by rw [hnone r hr hk, Aggregator.finished_empty])
        fun r hr kept hk => by rw [hsome r hr kept hk]
    have hshared : (prunedAll lookup limit children (above + 1)).flatMap
          (fun r => aggregator.shared (r.contribution lookup limit' (above + 1)).candidates) =
        children.flatMap fun r => aggregator.shared (r.contribution lookup limit (above + 1)).candidates :=
      flatMap_prunedAll (fun r hr hk => by rw [hnone r hr hk, Aggregator.shared_nil])
        fun r hr kept hk => by rw [hsome r hr kept hk]
    rw [contribution_within _ _ hl', contribution_within _ _ hl, hfinished, hshared]
  · intro limit' hd
    have hne : above ≠ limit' := by
      rw [depth] at hd
      omega
    rw [reports_combine, if_neg hne, List.nil_append]
    apply List.flatMap_eq_nil_iff.mpr
    intro kept hk
    obtain ⟨r, hr, hk⟩ := mem_prunedAll.mp hk
    exact (h r hr kept hk).reports_eq limit' (hfits limit' hd r hr kept hk)

theorem standsFor_pruned? (r : Rule) : ∀ {above : Nat} {kept : Rule}, r.pruned? lookup limit above = some kept →
    StandsFor lookup limit kept r above := by
  induction r with
  | condition c =>
    intro above kept h
    rw [pruned?] at h
    split at h
    · next hok =>
      cases h
      exact standsFor_condition hok
    · cases h
  | combine aggregator children ih =>
    intro above kept h
    by_cases hl : limit < above + 1
    · rw [pruned?, if_pos hl] at h
      cases h
    · rw [pruned?_combine_of_le hl h]
      exact standsFor_combine aggregator hl fun r hr kept hk => ih r hr hk

/-! ## Where the limit cuts -/

theorem exists_depth_gt_of_lt_deepest {n : Nat} (h : n < deepest rs) : ∃ r ∈ rs, n < r.depth := by
  by_contra hnone
  have hle : deepest rs ≤ n := deepest_le fun r hr => Nat.not_lt.mp fun hlt => hnone ⟨r, hr, hlt⟩
  omega

/-- A rule has a combination on each of its levels. -/
theorem exists_combine_at (r : Rule) : ∀ {above n : Nat}, above ≤ n → n < above + r.depth →
    ∃ aggregator children, (combine aggregator children, n) ∈ r.nodes above := by
  induction r with
  | condition c =>
    intro above n hle hlt
    rw [depth] at hlt
    omega
  | combine aggregator children ih =>
    intro above n hle hlt
    by_cases he : n = above
    · subst he
      exact ⟨aggregator, children, self_mem_nodes _ _⟩
    · have hdeepest : n - (above + 1) < deepest children := by
        rw [depth] at hlt
        omega
      obtain ⟨child, hc, hd⟩ := exists_depth_gt_of_lt_deepest hdeepest
      have hle' : above + 1 ≤ n := by omega
      have hlt' : n < above + 1 + child.depth := by omega
      obtain ⟨inner, below, hmem⟩ := ih child hc hle' hlt'
      exact ⟨inner, below, mem_nodes_of_child hc hmem⟩

end Rule

variable {lookup limit}

theorem exists_depthLimit_iff {t : Tree} :
    (∃ d ∈ (compile lookup limit t).dropped, d.reason = .depthLimit) ↔ limit < t.depth := by
  constructor
  · intro h
    obtain ⟨d, hd, hr⟩ := h
    by_contra hle
    exact reason_ne_depthLimit_of_depth_le (Nat.not_lt.mp hle) d hd hr
  · intro h
    have hlt : limit < 0 + t.toRule.depth := by rwa [Nat.zero_add]
    obtain ⟨aggregator, children, hmem⟩ := t.toRule.exists_combine_at (Nat.zero_le limit) hlt
    rw [compile_eq]
    refine ⟨⟨subtreeField, .depthLimit⟩, List.mem_filterMap.mpr ⟨_, hmem, ?_⟩, rfl⟩
    simp [Rule.report?]

/-! ## Compiled plans -/

/-- What is left out of a tree might as well not be in it: without it the tree has the same plan and
    nothing more is left out, and any limit that the rest fits in does as well. A combination is left
    out for its depth just when the tree is deeper than the limit. -/
theorem compile_pruned (lookup : Lookup) (limit : Nat) (t : Tree) (hl : 1 ≤ limit) :
    (compile lookup limit (t.pruned lookup limit)).plan = (compile lookup limit t).plan ∧
      (compile lookup limit (t.pruned lookup limit)).dropped = [] ∧
      (∀ limit', (t.pruned lookup limit).depth ≤ limit' →
        (compile lookup limit' (t.pruned lookup limit)).plan = (compile lookup limit t).plan) ∧
      ((∃ d ∈ (compile lookup limit t).dropped, d.reason = .depthLimit) ↔ limit < t.depth) := by
  have h : Rule.StandsFor lookup limit (t.pruned lookup limit).toRule t.toRule 0 :=
    Rule.standsFor_combine t.aggregator (by omega) fun r _ _ hk => r.standsFor_pruned? hk
  have hplan : ∀ limit', (t.pruned lookup limit).depth ≤ limit' →
      (compile lookup limit' (t.pruned lookup limit)).plan = (compile lookup limit t).plan := by
    intro limit' hd
    rw [compile_eq, compile_eq, h.contribution_eq limit' (by rwa [Nat.zero_add])]
  have hdepth : 0 + (t.pruned lookup limit).depth ≤ limit := Nat.le_trans h.depth_le (by omega)
  refine ⟨hplan limit (by omega), ?_, hplan, exists_depthLimit_iff⟩
  rw [compile_eq]
  exact h.reports_eq limit hdepth

/-- An unknown attribute, a combination on the third level of two and one with nothing in it: one
    condition is kept, and the tree has the plan of that condition. -/
theorem an_any_with_a_cut_an_unknown_and_an_empty_child_has_the_plan_of_the_last :
    let unknown : Lookup := fun code => .error (.unavailable code "")
    let id (n : Int64) : Rule := .condition ⟨"entity_id", "==", .single (.int n)⟩
    let t : Tree := ⟨.any, [.condition ⟨"size", "==", .single (.int 1)⟩, .combine .all [.combine .any [id 7]],
      .combine .all [], id 5]⟩
    1 ≤ 2 ∧ (t.pruned unknown 2).toRule.conditionCount = 1 ∧
      (compile unknown 2 (t.pruned unknown 2)).plan = (compile unknown 2 t).plan ∧
      (compile unknown 1 (t.pruned unknown 2)).plan = (compile unknown 2 t).plan ∧
      ∃ d ∈ (compile unknown 2 t).dropped, d.reason = .depthLimit := by
  intro unknown id t
  obtain ⟨hplan, -, hany, hcut⟩ := compile_pruned unknown 2 t (by decide)
  exact ⟨by decide, by decide, hplan, hany 1 (by decide), hcut.mpr (by decide)⟩

end RulePlan
