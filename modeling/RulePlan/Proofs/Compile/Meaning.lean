/-
  RulePlan.Proofs.Compile.Meaning — what a plan says about the tree it came from.

  On a record a rule has a meaning of its own. It is live (`Rule.live`) if something of
  it can be asked at all: a condition that has predicates, a combination within the
  limit with a live child. A live condition holds (`Condition.holds`) if one of its
  predicates matches, one that excludes members of a set if all of them do; an `all`
  holds if its live children do, an `any` if one of them does (`Rule.holds`).

  A plan is a flat conjunction of alternatives and cannot say all of that: below an
  `any`, inner combinations and exclusions become conjuncts, and below an `all` so do
  the members of a set. Each of these changes asks for more, never for less. Proved, for
  every tree, look-up, limit and record (`compile_meaning`): the plan is empty just when
  the tree is not live, a live tree holds on every record that its plan lets through,
  and for trees in which the changes do not show (`Rule.Exact`) the converse is true too.
-/

import Mathlib.Data.List.Perm.Subperm
import RulePlan.Plan.Match
import RulePlan.Proofs.Compile.Contribution
import RulePlan.Proofs.Condition.Expansion

namespace RulePlan

variable (lookup : Lookup) (limit : Nat)

/-! ## The meaning of a rule -/

/-- A condition that excludes members of a set holds if all of its predicates match. -/
def Condition.holds (c : Condition) (record : Record) : Bool :=
  match c.expansion lookup with
  | .ok ps =>
    if ps.all (·.comparison = .notMemberOf) then ps.all (·.matches record) else ps.any (·.matches record)
  | .error _ => false

namespace Rule

mutual

/-- Something of the rule can be asked of a record; `above` counts the combinations above it. -/
def live : Rule → Nat → Bool
  | .condition c, _ => (c.expansion lookup).isOk
  | .combine _ children, above => above + 1 ≤ limit && anyLive children (above + 1)

def anyLive : List Rule → Nat → Bool
  | [], _ => false
  | r :: rest, above => live r above || anyLive rest above

end

mutual

/-- Only the live children of a combination count. -/
def holds (record : Record) : Rule → Nat → Bool
  | .condition c, _ => c.holds lookup record
  | .combine .all children, above => allHold record children (above + 1)
  | .combine .any children, above => anyHolds record children (above + 1)

def allHold (record : Record) : List Rule → Nat → Bool
  | [], _ => true
  | r :: rest, above => (!r.live lookup limit above || holds record r above) && allHold record rest above

def anyHolds (record : Record) : List Rule → Nat → Bool
  | [], _ => false
  | r :: rest, above => (r.live lookup limit above && holds record r above) || anyHolds record rest above

end

/-- The groups of a node say the same as the node: an `any` with several live children has only
    conditions among them, none of which excludes, and no condition of an `all` expands to several
    members of a set. -/
def Exact : Rule × Nat → Prop
  | (.condition _, _) => True
  | (.combine .all children, _) =>
    ∀ c, condition c ∈ children → (c.granted lookup).countP (·.comparison = .memberOf) < 2
  | (.combine .any children, above) =>
    2 ≤ children.countP (live lookup limit · (above + 1)) → ∀ r ∈ children, r.live lookup limit (above + 1) →
      ∃ c, r = condition c ∧ ∀ p ∈ c.granted lookup, p.comparison ≠ .notMemberOf

variable {lookup limit} {record : Record}

theorem anyLive_iff {rs : List Rule} {above : Nat} :
    anyLive lookup limit rs above ↔ ∃ r ∈ rs, r.live lookup limit above := by
  induction rs with
  | nil => simp [anyLive]
  | cons r rest ih => simp [anyLive, ih]

theorem allHold_iff {rs : List Rule} {above : Nat} :
    allHold lookup limit record rs above ↔
      ∀ r ∈ rs, r.live lookup limit above → r.holds lookup limit record above := by
  induction rs with
  | nil => simp [allHold]
  | cons r rest ih =>
    have hor : ∀ a b : Bool, (!a || b) = true ↔ (a = true → b = true) := by decide
    simp [allHold, ih, hor]

theorem anyHolds_iff {rs : List Rule} {above : Nat} :
    anyHolds lookup limit record rs above ↔
      ∃ r ∈ rs, r.live lookup limit above ∧ r.holds lookup limit record above := by
  induction rs with
  | nil => simp [anyHolds]
  | cons r rest ih => simp [anyHolds, ih]

theorem live_condition (c : Condition) (above : Nat) :
    (condition c).live lookup limit above = (c.expansion lookup).isOk := by
  rw [live]

theorem holds_condition (c : Condition) (above : Nat) :
    (condition c).holds lookup limit record above = c.holds lookup record := by
  rw [holds]

theorem holds_all {children : List Rule} {above : Nat} :
    (combine .all children).holds lookup limit record above ↔
      ∀ r ∈ children, r.live lookup limit (above + 1) → r.holds lookup limit record (above + 1) := by
  rw [holds, allHold_iff]

theorem holds_any {children : List Rule} {above : Nat} :
    (combine .any children).holds lookup limit record above ↔
      ∃ r ∈ children, r.live lookup limit (above + 1) ∧ r.holds lookup limit record (above + 1) := by
  rw [holds, anyHolds_iff]

theorem live_combine {aggregator : Aggregator} {children : List Rule} {above : Nat} :
    (combine aggregator children).live lookup limit above ↔
      ¬ limit < above + 1 ∧ ∃ r ∈ children, r.live lookup limit (above + 1) := by
  rw [live, Bool.and_eq_true, decide_eq_true_iff, anyLive_iff, Nat.not_lt]

end Rule

variable {lookup limit} {record : Record}

/-! ## Conditions -/

namespace Condition

variable {c : Condition}

/-- Whatever a condition grants has the outline of an expansion. -/
theorem granted_expanded (h : c.granted lookup ≠ []) : Expanded (c.granted lookup) := by
  unfold granted at h ⊢
  split at h
  · next ps hps => exact (predicates_sound hps).1
  · exact absurd rfl h

theorem granted_ne_nil_iff : c.granted lookup ≠ [] ↔ (c.expansion lookup).isOk := by
  unfold granted
  cases h : c.expansion lookup with
  | ok ps => simpa [Except.isOk, Except.toBool] using (predicates_sound h).1.ne_nil
  | error e => simp [Except.isOk, Except.toBool]

/-- A condition that excludes asks for all of its predicates, any other for one of them. -/
theorem holds_cases (c : Condition) :
    ((∀ p ∈ c.granted lookup, p.comparison = .notMemberOf) ∧
        (c.holds lookup record ↔ ∀ p ∈ c.granted lookup, p.matches record)) ∨
      ((∀ p ∈ c.granted lookup, p.comparison ≠ .notMemberOf) ∧
        (c.holds lookup record ↔ ∃ p ∈ c.granted lookup, p.matches record)) := by
  unfold granted holds
  cases h : c.expansion lookup with
  | error e => exact .inr (by simp)
  | ok ps =>
    have hx := (predicates_sound h).1
    rcases hx.excludes_or_not with hall | hnone
    · refine .inl ⟨hall, ?_⟩
      have : ps.all (·.comparison = .notMemberOf) := by simpa using hall
      simp [this]
    · refine .inr ⟨hnone, ?_⟩
      have : ¬ ps.all (·.comparison = .notMemberOf) := by
        obtain ⟨p, hp⟩ := List.exists_mem_of_ne_nil ps hx.ne_nil
        intro hcon
        exact hnone p hp (by simpa using List.all_eq_true.mp hcon p hp)
      simp [this]

end Condition

/-! ## Nothing comes from nodes that are not live -/

namespace Rule

variable {aggregator : Aggregator} {r : Rule} {above : Nat}

theorem contribution_of_not_live (h : ¬ r.live lookup limit above) : r.contribution lookup limit above = {} := by
  induction r generalizing above with
  | condition c =>
    rw [live_condition, ← Condition.granted_ne_nil_iff, not_not] at h
    rw [contribution_condition, h]
  | combine aggregator children ih =>
    by_cases hl : limit < above + 1
    · exact contribution_below _ _ hl
    · have hnone : ∀ r ∈ children, r.contribution lookup limit (above + 1) = {} := by
        intro r hr
        exact ih r hr fun hlive => h (live_combine.mpr ⟨hl, r, hr, hlive⟩)
      have hf : (children.flatMap fun r => aggregator.finished (r.contribution lookup limit (above + 1))) = [] :=
        List.flatMap_eq_nil_iff.mpr fun r hr => by rw [hnone r hr, Aggregator.finished_empty]
      have hs : (children.flatMap fun r => aggregator.shared (r.contribution lookup limit (above + 1)).candidates)
          = [] :=
        List.flatMap_eq_nil_iff.mpr fun r hr => by rw [hnone r hr, Aggregator.shared_nil]
      rw [contribution_within _ _ hl, hf, hs]
      rfl

theorem live_of_mem_finished {g : Group} (h : g ∈ aggregator.finished (r.contribution lookup limit above)) :
    r.live lookup limit above := by
  by_contra hd
  rw [contribution_of_not_live hd, Aggregator.finished_empty] at h
  cases h

theorem live_of_mem_shared {p : Predicate}
    (h : p ∈ aggregator.shared (r.contribution lookup limit above).candidates) : r.live lookup limit above := by
  by_contra hd
  rw [contribution_of_not_live hd, Aggregator.shared_nil] at h
  cases h

end Rule

/-! ## Groups of a combination -/

theorem Group.mem_ofPredicates? {ps : List Predicate} {g : Group} :
    g ∈ (ofPredicates? ps).toList ↔ ps ≠ [] ∧ g = ⟨ps⟩ := by
  unfold ofPredicates?
  by_cases h : ps = []
  · simp [h]
  · simp [h]

theorem Group.matches_single {p : Predicate} : (Group.single p).matches record ↔ p.matches record := by
  simp [Group.matches, single]

/-- All groups of a combination match if those that its children have finished do and one of the
    predicates of the bucket does, unless the bucket is empty. -/
theorem Rule.groups_match_iff {aggregator : Aggregator} {children : List Rule} {above : Nat}
    (hl : ¬ limit < above + 1) :
    (∀ g ∈ ((combine aggregator children).contribution lookup limit above).groups, g.matches record) ↔
      (∀ r ∈ children, ∀ g ∈ aggregator.finished (r.contribution lookup limit (above + 1)), g.matches record) ∧
        ((∃ r ∈ children, aggregator.shared (r.contribution lookup limit (above + 1)).candidates ≠ []) →
          ∃ r ∈ children, ∃ p ∈ aggregator.shared (r.contribution lookup limit (above + 1)).candidates,
            p.matches record) := by
  rw [contribution_within _ _ hl]
  simp only [List.mem_append, or_imp, forall_and, List.mem_flatMap, Group.mem_ofPredicates?]
  refine and_congr ⟨fun h r hr g hg => h g ⟨r, hr, hg⟩, fun h g ⟨r, hr, hg⟩ => h r hr g hg⟩ ?_
  constructor
  · intro h hx
    obtain ⟨r, hr, hne⟩ := hx
    obtain ⟨p, hp⟩ := List.exists_mem_of_ne_nil _ hne
    have hm := h _ ⟨List.ne_nil_of_mem (List.mem_flatMap.mpr ⟨r, hr, hp⟩), rfl⟩
    obtain ⟨q, hq, hm⟩ := List.any_eq_true.mp hm
    obtain ⟨r', hr', hq⟩ := List.mem_flatMap.mp hq
    exact ⟨r', hr', q, hq, hm⟩
  · intro h g hx
    obtain ⟨hne, rfl⟩ := hx
    obtain ⟨p, hp⟩ := List.exists_mem_of_ne_nil _ hne
    obtain ⟨r, hr, hp⟩ := List.mem_flatMap.mp hp
    obtain ⟨r', hr', q, hq, hm⟩ := h ⟨r, hr, List.ne_nil_of_mem hp⟩
    exact List.any_eq_true.mpr ⟨q, List.mem_flatMap.mpr ⟨r', hr', hq⟩, hm⟩

/-! ## A plan never lets through what its tree rejects -/

namespace Rule

@[simp] theorem finished_combine (outer aggregator : Aggregator) (children : List Rule) (above : Nat) :
    outer.finished ((combine aggregator children).contribution lookup limit above) =
      ((combine aggregator children).contribution lookup limit above).groups := by
  rw [Aggregator.finished, candidates_combine, Aggregator.apart_nil]
  rfl

@[simp] theorem shared_combine (outer aggregator : Aggregator) (children : List Rule) (above : Nat) :
    outer.shared ((combine aggregator children).contribution lookup limit above).candidates = [] := by
  rw [candidates_combine, Aggregator.shared_nil]

theorem finished_condition_match {outer : Aggregator} {c : Condition} {above : Nat} :
    (∀ g ∈ outer.finished ((condition c).contribution lookup limit above), g.matches record) ↔
      ∀ p ∈ outer.apart (c.granted lookup), p.matches record := by
  simp [Aggregator.finished, Group.matches_single]

/-- A condition of which nothing is shared holds if all that it adds matches. -/
theorem holds_of_apart {outer : Aggregator} {c : Condition} (hlive : (c.expansion lookup).isOk)
    (hs : outer.shared (c.granted lookup) = []) (h : ∀ p ∈ outer.apart (c.granted lookup), p.matches record) :
    c.holds lookup record := by
  have hall : ∀ p ∈ c.granted lookup, p.matches record := by
    intro p hp
    refine h p ?_
    rcases List.mem_append.mp ((outer.apart_append_shared (c.granted lookup)).mem_iff.mpr hp) with hm | hm
    · exact hm
    · rw [hs] at hm
      cases hm
  rcases c.holds_cases with ⟨-, hiff⟩ | ⟨-, hiff⟩
  · exact hiff.mpr hall
  · obtain ⟨p, hp⟩ := List.exists_mem_of_ne_nil _ (Condition.granted_ne_nil_iff.mpr hlive)
    exact hiff.mpr ⟨p, hp, hall p hp⟩

/-- One match among the predicates that a condition shares is enough for it. -/
theorem holds_of_mem_shared {outer : Aggregator} {r : Rule} {above : Nat} {p : Predicate}
    (hp : p ∈ outer.shared (r.contribution lookup limit above).candidates) (hm : p.matches record) :
    r.live lookup limit above ∧ r.holds lookup limit record above := by
  refine ⟨live_of_mem_shared hp, ?_⟩
  cases r with
  | condition c =>
    obtain ⟨hp, hshare⟩ := Aggregator.mem_of_mem_shared hp
    simp only [contribution_condition] at hp
    rw [holds_condition]
    rcases c.holds_cases with ⟨hall, -⟩ | ⟨-, hiff⟩
    · exact absurd (hall p hp) hshare
    · exact hiff.mpr ⟨p, hp, hm⟩
  | combine aggregator children =>
    rw [shared_combine] at hp
    cases hp

theorem holds_of_finished (r : Rule) : ∀ {outer : Aggregator} {above : Nat}, r.live lookup limit above →
    outer.shared (r.contribution lookup limit above).candidates = [] →
    (∀ g ∈ outer.finished (r.contribution lookup limit above), g.matches record) →
    r.holds lookup limit record above := by
  induction r with
  | condition c =>
    intro outer above hlive hs h
    rw [live_condition] at hlive
    simp only [contribution_condition] at hs
    rw [finished_condition_match] at h
    rw [holds_condition]
    exact holds_of_apart hlive hs h
  | combine aggregator children ih =>
    intro outer above hlive hs h
    obtain ⟨hl, r, hr, hrlive⟩ := live_combine.mp hlive
    rw [finished_combine] at h
    obtain ⟨hfinished, hbucket⟩ := (groups_match_iff hl).mp h
    cases aggregator with
    | all => exact holds_all.mpr fun r hr hrlive => ih r hr hrlive rfl (hfinished r hr)
    | any =>
      refine holds_any.mpr ?_
      by_cases hsr : Aggregator.any.shared (r.contribution lookup limit (above + 1)).candidates = []
      · exact ⟨r, hr, hrlive, ih r hr hrlive hsr (hfinished r hr)⟩
      · obtain ⟨r', hr', p, hp, hm⟩ := hbucket ⟨r, hr, hsr⟩
        exact ⟨r', hr', holds_of_mem_shared hp hm⟩

/-! ## Where a plan says all that its tree does -/

/-- Two different members of a list are counted as two. -/
theorem two_le_countP_of_ne {α : Type} {p : α → Bool} {l : List α} {a b : α} (ha : a ∈ l) (hb : b ∈ l) (hne : a ≠ b)
    (hpa : p a) (hpb : p b) : 2 ≤ l.countP p := by
  have hnd : [a, b].Nodup := by simpa using hne
  have hsub : [a, b] ⊆ l := by
    intro x hx
    rcases List.mem_cons.mp hx with rfl | hx
    · exact ha
    · exact List.mem_singleton.mp hx ▸ hb
  have h := (hnd.subperm hsub).countP_le p
  simpa [hpa, hpb] using h

/-- With at most one member, a condition that holds has all of its predicates match. -/
theorem granted_match_of_holds {c : Condition} (h : c.holds lookup record)
    (hfew : (c.granted lookup).countP (·.comparison = .memberOf) < 2) : ∀ p ∈ c.granted lookup, p.matches record := by
  rcases c.holds_cases with ⟨-, hiff⟩ | ⟨hnone, hiff⟩
  · exact hiff.mp h
  · obtain ⟨q, hq, hm⟩ := hiff.mp h
    have hx := Condition.granted_expanded (List.ne_nil_of_mem hq)
    generalize c.granted lookup = ps at hx hq hfew hnone ⊢
    have hone : ps = [q] := by
      cases hx with
      | single p _ => rw [List.mem_singleton.mp hq]
      | members hne hmember =>
        have hlength : ps.length < 2 := by
          rwa [List.countP_eq_length.mpr (by simpa using hmember)] at hfew
        have hpos := List.length_pos_iff.mpr hne
        obtain ⟨p, rfl⟩ := List.length_eq_one_iff.mp (show ps.length = 1 by omega)
        rw [List.mem_singleton.mp hq]
      | exclusions _ hall => exact absurd (hall q hq) (hnone q hq)
    intro p hp
    rw [hone, List.mem_singleton] at hp
    rw [hp]
    exact hm

/-- What an `any` takes apart are exclusions, and these hold together. -/
theorem apart_match_of_holds {c : Condition} (h : c.holds lookup record) :
    ∀ p ∈ Aggregator.any.apart (c.granted lookup), p.matches record := by
  intro p hp
  obtain ⟨hp, hk⟩ := Aggregator.mem_apart_any.mp hp
  rcases c.holds_cases with ⟨-, hiff⟩ | ⟨hnone, -⟩
  · exact hiff.mp h p hp
  · exact absurd hk (hnone p hp)

/-- A condition that holds and shares something has a match among what it shares. -/
theorem exists_shared_match_of_holds {c : Condition} (h : c.holds lookup record) {p : Predicate}
    (hp : p ∈ c.granted lookup) (hk : p.comparison ≠ .notMemberOf) :
    ∃ q ∈ Aggregator.any.shared (c.granted lookup), q.matches record := by
  rcases c.holds_cases with ⟨hall, -⟩ | ⟨hnone, hiff⟩
  · exact absurd (hall p hp) hk
  · obtain ⟨q, hq, hm⟩ := hiff.mp h
    exact ⟨q, Aggregator.mem_shared_any.mpr ⟨hq, hnone q hq⟩, hm⟩

/-- Some live child of an exact `any` holds: then its groups match, and those of any other live
    child too, as there are none. -/
theorem groups_match_of_any {children : List Rule} {above : Nat} (hl : ¬ limit < above + 1)
    (hx : Exact lookup limit (combine .any children, above)) {r : Rule} (hr : r ∈ children)
    (hlive : r.live lookup limit (above + 1)) (h : r.holds lookup limit record (above + 1))
    (hr' : ∀ g ∈ Aggregator.any.finished (r.contribution lookup limit (above + 1)), g.matches record) :
    ∀ g ∈ ((combine .any children).contribution lookup limit above).groups, g.matches record := by
  have hother : ∀ s ∈ children, s.live lookup limit (above + 1) → s ≠ r → ∀ u ∈ children,
      u.live lookup limit (above + 1) → ∃ c, u = condition c ∧ ∀ p ∈ c.granted lookup, p.comparison ≠ .notMemberOf :=
    fun s hs hslive hne => hx (two_le_countP_of_ne hs hr hne hslive hlive)
  rw [groups_match_iff hl]
  constructor
  · intro s hs
    by_cases he : s = r
    · rw [he]
      exact hr'
    · intro g hg
      have hslive := live_of_mem_finished hg
      obtain ⟨c, rfl, hnone⟩ := hother s hs hslive he s hs hslive
      revert g
      rw [finished_condition_match]
      intro p hp
      obtain ⟨hp, hk⟩ := Aggregator.mem_apart_any.mp hp
      exact absurd hk (hnone p hp)
  · intro hbucket
    obtain ⟨s, hs, hne⟩ := hbucket
    obtain ⟨p, hp⟩ := List.exists_mem_of_ne_nil _ hne
    refine ⟨r, hr, ?_⟩
    by_cases he : s = r
    · subst he
      cases s with
      | condition c =>
        rw [holds_condition] at h
        simp only [contribution_condition] at hp ⊢
        obtain ⟨hp, hk⟩ := Aggregator.mem_of_mem_shared hp
        exact exists_shared_match_of_holds h hp hk
      | combine aggregator children =>
        rw [shared_combine] at hp
        cases hp
    · obtain ⟨c, rfl, hnone⟩ := hother s hs (live_of_mem_shared hp) he r hr hlive
      rw [live_condition, ← Condition.granted_ne_nil_iff] at hlive
      rw [holds_condition] at h
      simp only [contribution_condition]
      obtain ⟨q, hq⟩ := List.exists_mem_of_ne_nil _ hlive
      exact exists_shared_match_of_holds h hq (hnone q hq)

theorem finished_match_of_holds (r : Rule) : ∀ {outer : Aggregator} {above : Nat},
    (∀ node ∈ r.nodes above, Exact lookup limit node) →
    (outer = .all → ∀ c, r = condition c → (c.granted lookup).countP (·.comparison = .memberOf) < 2) →
    r.live lookup limit above → r.holds lookup limit record above →
    ∀ g ∈ outer.finished (r.contribution lookup limit above), g.matches record := by
  induction r with
  | condition c =>
    intro outer above _ hfew _ h
    rw [holds_condition] at h
    rw [finished_condition_match]
    cases outer with
    | all =>
      rw [Aggregator.apart]
      exact granted_match_of_holds h (hfew rfl c rfl)
    | any => exact apart_match_of_holds h
  | combine aggregator children ih =>
    intro outer above hx _ hlive h
    obtain ⟨hnode, hbelow⟩ := forall_mem_nodes_combine.mp hx
    have hl := (live_combine.mp hlive).1
    rw [finished_combine]
    cases aggregator with
    | all =>
      have hall := holds_all.mp h
      rw [groups_match_iff hl]
      constructor
      · intro r hr g hg
        have hrlive := live_of_mem_finished hg
        exact ih r hr (hbelow r hr) (fun _ c hc => hnode c (hc ▸ hr)) hrlive (hall r hr hrlive) g hg
      · intro hbucket
        obtain ⟨r, -, hne⟩ := hbucket
        exact absurd rfl hne
    | any =>
      obtain ⟨r, hr, hrlive, hrholds⟩ := holds_any.mp h
      refine groups_match_of_any hl hnode hr hrlive hrholds ?_
      exact ih r hr (hbelow r hr) (fun hcon => by cases hcon) hrlive hrholds

/-- A live combination has groups. -/
theorem groups_ne_nil_of_live (r : Rule) : ∀ {above : Nat}, r.live lookup limit above → ∀ outer : Aggregator,
    outer.finished (r.contribution lookup limit above) ≠ [] ∨
      outer.shared (r.contribution lookup limit above).candidates ≠ [] := by
  induction r with
  | condition c =>
    intro above hlive outer
    rw [live_condition, ← Condition.granted_ne_nil_iff] at hlive
    rw [contribution_condition]
    by_contra hcon
    rw [not_or, not_not, not_not] at hcon
    obtain ⟨hf, hs⟩ := hcon
    have hperm := outer.apart_append_shared (c.granted lookup)
    have hapart : outer.apart (c.granted lookup) = [] := by simpa [Aggregator.finished] using hf
    simp only at hs
    rw [hapart, hs] at hperm
    exact hlive hperm.symm.eq_nil
  | combine aggregator children ih =>
    intro above hlive outer
    obtain ⟨hl, r, hr, hrlive⟩ := live_combine.mp hlive
    refine .inl ?_
    rw [finished_combine, contribution_within _ _ hl]
    intro hnil
    obtain ⟨hf, hs⟩ := List.append_eq_nil_iff.mp hnil
    rcases ih r hr hrlive aggregator with hne | hne
    · exact hne (List.flatMap_eq_nil_iff.mp hf r hr)
    · have hb : (children.flatMap fun r => aggregator.shared (r.contribution lookup limit (above + 1)).candidates)
          ≠ [] := fun hcon => hne (List.flatMap_eq_nil_iff.mp hcon r hr)
      have hg := Group.mem_ofPredicates?.mpr ⟨hb, rfl⟩
      rw [hs] at hg
      cases hg

end Rule

/-! ## Compiled plans -/

/-- The plan of a tree is empty just when the tree is not live; a live tree holds on every record
    that the plan lets through; and if all nodes are exact, the plan lets through the records on
    which the tree holds and no others. -/
theorem compile_meaning (lookup : Lookup) (limit : Nat) (t : Tree) (record : Record) :
    ((compile lookup limit t).plan.groups = [] ↔ ¬ t.toRule.live lookup limit 0) ∧
      (t.toRule.live lookup limit 0 → (compile lookup limit t).plan.matches record →
        t.toRule.holds lookup limit record 0) ∧
      ((∀ node ∈ t.toRule.nodes 0, Rule.Exact lookup limit node) →
        ((compile lookup limit t).plan.matches record ↔
          (t.toRule.live lookup limit 0 → t.toRule.holds lookup limit record 0))) := by
  have hfinished : Aggregator.all.finished (t.toRule.contribution lookup limit 0) =
      (t.toRule.contribution lookup limit 0).groups := Rule.finished_combine ..
  have hmatch : (compile lookup limit t).plan.matches record ↔
      ∀ g ∈ (t.toRule.contribution lookup limit 0).groups, g.matches record := by
    rw [compile_eq]
    exact List.all_eq_true
  have hsound : t.toRule.live lookup limit 0 → (compile lookup limit t).plan.matches record →
      t.toRule.holds lookup limit record 0 := by
    intro hlive hm
    have hgroups := hmatch.mp hm
    rw [← hfinished] at hgroups
    exact Rule.holds_of_finished t.toRule hlive rfl hgroups
  refine ⟨?_, hsound, fun hx => ⟨fun hm hlive => hsound hlive hm, fun h => hmatch.mpr ?_⟩⟩
  · rw [compile_eq]
    constructor
    · intro hnil hlive
      rcases Rule.groups_ne_nil_of_live t.toRule hlive .all with hne | hne
      · rw [hfinished] at hne
        exact hne hnil
      · exact hne rfl
    · intro hdead
      simp only [Rule.contribution_of_not_live hdead]
  · by_cases hlive : t.toRule.live lookup limit 0
    · rw [← hfinished]
      exact Rule.finished_match_of_holds t.toRule hx (fun _ c hc => by cases hc) hlive (h hlive)
    · rw [Rule.contribution_of_not_live hlive]
      intro g hg
      cases hg

/-- An `any` of two conditions that share a group is exact. -/
theorem the_plan_of_an_exact_any_matches :
    let t : Tree := ⟨.any, [.condition ⟨"entity_id", "==", .single (.int 5)⟩,
      .condition ⟨"has_image", "==", .single (.bool true)⟩]⟩
    let unknown : Lookup := fun code => .error (.unavailable code "")
    let record : Record := fun field => if field = imageField then some (.text "a.png") else none
    t.toRule.live unknown 1 0 ∧ (∀ node ∈ t.toRule.nodes 0, Rule.Exact unknown 1 node) ∧
      (compile unknown 1 t).plan.matches record := by
  intro t unknown record
  have hx : ∀ node ∈ t.toRule.nodes 0, Rule.Exact unknown 1 node := by
    intro node hn
    simp only [t, Tree.toRule, Rule.nodes_combine, Rule.nodes_condition, List.flatMap_cons, List.flatMap_nil,
      List.mem_cons, List.mem_append, List.not_mem_nil, or_false] at hn
    rcases hn with rfl | rfl | rfl
    · intro _ r hr _
      simp only [List.mem_cons, List.not_mem_nil, or_false] at hr
      rcases hr with rfl | rfl
      · exact ⟨_, rfl, by decide⟩
      · exact ⟨_, rfl, by decide⟩
    · exact trivial
    · exact trivial
  exact ⟨by decide, hx, ((compile_meaning unknown 1 t record).2.2 hx).mpr fun _ => by decide⟩

end RulePlan
