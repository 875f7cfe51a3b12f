/-
  RulePlan.Proofs.Compile.Opposite — opposite operators split the records.

  A condition may grant one predicate, a membership test for each value, or an exclusion
  for each. Alone below an `any`, memberships are alternatives and exclusions are all
  asked for, so when each predicate of a condition is the opposite of one of the other,
  the two plans are complements: that none of the alternatives matches is what the
  exclusions ask for (`Condition.Opposes.splits`).

  Proved, for every look-up, limit and field (`compile_opposite`): the conditions with an
  operator and with its opposite are left out together and for the same reason; when they
  are not, exactly one of the two plans lets through a record that has the field, and
  neither a record without it. The value and the field hold no NaN. Of the virtual field
  for images this is so for `is` and `is not`, and on every record.
-/

import RulePlan.Proofs.Compile.Level
import RulePlan.Proofs.Compile.WellFormed
import RulePlan.Proofs.Condition.Opposite

namespace RulePlan

variable {lookup : Lookup} {limit : Nat} {record : Record} {c d : Condition}

/-! ## Conditions alone in their tree -/

/-- What is left out of the tree of one condition: the tree below the limit, or the condition. -/
theorem lone_dropped (lookup : Lookup) (limit : Nat) (aggregator : Aggregator) (c : Condition) :
    (compile lookup limit ⟨aggregator, [.condition c]⟩).dropped =
      if limit = 0 then [⟨subtreeField, .depthLimit⟩] else (c.refusal? lookup).toList := by
  rw [compile_eq, Tree.toRule, Rule.reports_combine, List.flatMap_singleton]
  by_cases hl : limit = 0
  · rw [if_pos hl, if_pos hl.symm, Rule.reports_below _ (by omega), List.append_nil]
  · rw [if_neg hl, if_neg (Ne.symm hl), Rule.reports_condition c (by omega), List.nil_append]

/-- A condition that is not left out has predicates, and its tree is within the limit. -/
theorem granted_of_lone_dropped {aggregator : Aggregator}
    (h : (compile lookup limit ⟨aggregator, [.condition c]⟩).dropped = []) : 1 ≤ limit ∧ c.granted lookup ≠ [] := by
  rw [lone_dropped] at h
  split at h
  · cases h
  · refine ⟨by omega, Condition.granted_ne_nil_iff.mpr ?_⟩
    unfold Condition.refusal? at h
    cases he : c.expansion lookup with
    | ok ps => rfl
    | error reason =>
      rw [he] at h
      cases h

/-- A condition none of whose predicates match lets no record through. -/
theorem lone_not_matches (hlimit : 1 ≤ limit) (hne : c.granted lookup ≠ [])
    (hnone : ∀ p ∈ c.granted lookup, p.matches record = false) (aggregator : Aggregator) :
    (compile lookup limit ⟨aggregator, [.condition c]⟩).plan.matches record = false := by
  have hfalse : ∀ p ∈ c.granted lookup, ¬ p.matches record := by simpa using hnone
  rw [← Bool.not_eq_true, lone_matches_iff hlimit]
  rintro ⟨hapart, hshared⟩
  by_cases hs : aggregator.shared (c.granted lookup) = []
  · obtain ⟨p, hp⟩ := List.exists_mem_of_ne_nil _ hne
    rcases List.mem_append.mp ((aggregator.apart_append_shared _).mem_iff.mpr hp) with hm | hm
    · exact hfalse p hp (hapart p hm)
    · rw [hs] at hm
      cases hm
  · obtain ⟨p, hp, hm⟩ := hshared hs
    exact hfalse p (Aggregator.mem_of_mem_shared hp).1 hm

/-! ## Conditions with opposite predicates -/

namespace Condition

/-- The second condition grants the opposites of what the first grants. -/
def Opposes (lookup : Lookup) (c d : Condition) : Prop :=
  d.granted lookup = (c.granted lookup).map Predicate.opposite

/-- One condition accepts what one of its predicates accepts, the other what all their opposites do. -/
theorem splits_of_accepts (hlimit : 1 ≤ limit) {ps : List Predicate} (hne : ps ≠ []) (hc : Accepts lookup c ps)
    (hd : Refuses lookup d (ps.map Predicate.opposite))
    (hmatch : ∀ p ∈ ps, p.opposite.matches record = !p.matches record) :
    (compile lookup limit ⟨.any, [.condition d]⟩).plan.matches record =
      !(compile lookup limit ⟨.any, [.condition c]⟩).plan.matches record := by
  rw [Bool.eq_iff_iff, Bool.not_eq_true', ← Bool.not_eq_true, lone_accepts_iff hlimit hc, lone_refuses_iff hlimit hd,
    List.forall_mem_map]
  simp only [hne, ne_eq, not_false_eq_true, true_imp_iff, not_exists, not_and]
  exact forall₂_congr fun p hp => by rw [hmatch p hp]; simp

theorem comparison_of_mem_opposites {ps : List Predicate} {k : Comparison} (h : ∀ p ∈ ps, p.comparison = k) :
    ∀ p ∈ ps.map Predicate.opposite, p.comparison = k.opposite := by
  refine List.forall_mem_map.mpr fun p hp => ?_
  rw [Predicate.opposite, h p hp]

theorem Opposes.splits (h : Opposes lookup c d) (hlimit : 1 ≤ limit) (hne : c.granted lookup ≠ [])
    (hmatch : ∀ p ∈ c.granted lookup, p.opposite.matches record = !p.matches record) :
    (compile lookup limit ⟨.any, [.condition d]⟩).plan.matches record =
      !(compile lookup limit ⟨.any, [.condition c]⟩).plan.matches record := by
  have hx := granted_expanded hne
  rw [Opposes] at h
  generalize hg : c.granted lookup = ps at h hmatch hx
  cases hx with
  | single p hp =>
    have hc : Accepts lookup c [p] := accepts_of_granted hg (List.forall_mem_singleton.mpr hp)
    exact splits_of_accepts hlimit (List.cons_ne_nil _ _) hc (refuses_of_granted h (.inr ⟨_, rfl⟩)) hmatch
  | members hps hall =>
    have hc : Accepts lookup c ps := accepts_of_granted hg fun p hp => by rw [hall p hp]; decide
    exact splits_of_accepts hlimit hps hc (refuses_of_granted h (.inl (comparison_of_mem_opposites hall))) hmatch
  | exclusions hps hall =>
    -- here the other condition is the one that accepts
    have hback : (ps.map Predicate.opposite).map Predicate.opposite = ps := by simp [Function.comp_def]
    have hmembers := comparison_of_mem_opposites hall
    have hd : Accepts lookup d (ps.map Predicate.opposite) :=
      accepts_of_granted h fun p hp => by rw [hmembers p hp]; decide
    have hc : Refuses lookup c ((ps.map Predicate.opposite).map Predicate.opposite) := by
      rw [hback]
      exact refuses_of_granted hg (.inl hall)
    have hmatch' : ∀ p ∈ ps.map Predicate.opposite, p.opposite.matches record = !p.matches record := by
      refine List.forall_mem_map.mpr fun p hp => ?_
      rw [Predicate.opposite_opposite, hmatch p hp, Bool.not_not]
    rw [splits_of_accepts hlimit (by simpa using hps) hd hc hmatch', Bool.not_not]

end Condition

/-! ## Opposite operators -/

section

variable {f : String} {v : FormValue} {o : Operator}

theorem Condition.opposes (h : Text.trim f = hasImageField → o = .is) :
    Opposes lookup ⟨f, o.symbol, v⟩ ⟨f, o.opposite.symbol, v⟩ := by
  rw [Opposes, granted, expansion_opposite h, granted]
  cases (⟨f, o.symbol, v⟩ : Condition).expansion lookup <;> rfl

theorem dropped_opposite (h : Text.trim f = hasImageField → o = .is) :
    (compile lookup limit ⟨.any, [.condition ⟨f, o.opposite.symbol, v⟩]⟩).dropped =
      (compile lookup limit ⟨.any, [.condition ⟨f, o.symbol, v⟩]⟩).dropped := by
  have hrefusal : (⟨f, o.opposite.symbol, v⟩ : Condition).refusal? lookup =
      (⟨f, o.symbol, v⟩ : Condition).refusal? lookup := by
    rw [Condition.refusal?, Condition.expansion_opposite h, Condition.refusal?]
    cases (⟨f, o.symbol, v⟩ : Condition).expansion lookup <;> rfl
  rw [lone_dropped, lone_dropped, hrefusal]

end

/-- On every field but the virtual one for images, the conditions with an operator and with its
    opposite are left out together, for the same reason; when they are not, one of their plans lets
    through a record that has the field and the other does not, and both reject a record without
    it. On the virtual field, `is` and `is not` split all records. -/
theorem compile_opposite (lookup : Lookup) (limit : Nat) (f : String) (v : FormValue) :
    let compiled (o : Operator) := compile lookup limit ⟨.any, [.condition ⟨f, o.symbol, v⟩]⟩
    (Text.trim f ≠ hasImageField → (∀ s ∈ v.scalars, s.isNaN = false) → ∀ o : Operator,
      (compiled o.opposite).dropped = (compiled o).dropped ∧
        ((compiled o).dropped = [] → ∀ record : Record,
          (∀ actual, record (Text.trim f) = some actual → actual.isNaN = false →
            (compiled o.opposite).plan.matches record = !(compiled o).plan.matches record) ∧
          (record (Text.trim f) = none →
            (compiled o).plan.matches record = false ∧ (compiled o.opposite).plan.matches record = false))) ∧
      (Text.trim f = hasImageField →
        (compiled .isNot).dropped = (compiled .is).dropped ∧
          ((compiled .is).dropped = [] → ∀ record : Record,
            (compiled .isNot).plan.matches record = !(compiled .is).plan.matches record)) := by
  dsimp only
  constructor
  · intro hf hv o
    have hop : Text.trim f = hasImageField → o = .is := fun h => absurd h hf
    have hdecided : ∀ o : Operator, ∀ p ∈ (⟨f, o.symbol, v⟩ : Condition).granted lookup, p.Decided (Text.trim f) :=
      fun _ => Condition.granted_decided hv hf
    refine ⟨dropped_opposite hop, fun hkept record => ⟨fun actual hr ha => ?_, fun hr => ⟨?_, ?_⟩⟩⟩
    · obtain ⟨hlimit, hne⟩ := granted_of_lone_dropped hkept
      refine (Condition.opposes hop).splits hlimit hne fun p hp => ?_
      exact (hdecided o p hp).matches_opposite (Condition.granted_wellFormed hp) hr ha
    · obtain ⟨hlimit, hne⟩ := granted_of_lone_dropped hkept
      exact lone_not_matches hlimit hne (fun p hp => (hdecided o p hp).matches_of_missing hr) .any
    · obtain ⟨hlimit, hne⟩ := granted_of_lone_dropped ((dropped_opposite hop).trans hkept)
      exact lone_not_matches hlimit hne (fun p hp => (hdecided o.opposite p hp).matches_of_missing hr) .any
  · intro hf
    have hop : Text.trim f = hasImageField → Operator.is = .is := fun _ => rfl
    have hnot : Operator.isNot = Operator.is.opposite := rfl
    have habsence : ∀ p ∈ (⟨f, Operator.is.symbol, v⟩ : Condition).granted lookup,
        p.comparison = .isNull ∨ p.comparison = .notNull := Condition.absence_of_mem_granted hf
    rw [hnot]
    refine ⟨dropped_opposite hop, fun hkept record => ?_⟩
    obtain ⟨hlimit, hne⟩ := granted_of_lone_dropped hkept
    refine (Condition.opposes hop).splits hlimit hne fun p hp => ?_
    exact p.matches_opposite_of_absence (habsence p hp) record

/-- One record has a color of the list among its colors, the other has an image and no colors. -/
theorem opposite_conditions_on_a_set_and_on_images_split_the_records :
    let sets : Lookup := fun _ => .ok { storage := .codeSet, delimiter := "|" }
    let named : FormValue := .list [.text "red", .text "blue"]
    let colors (o : Operator) := compile sets 1 ⟨.any, [.condition ⟨" color ", o.symbol, named⟩]⟩
    let images (o : Operator) := compile sets 1 ⟨.any, [.condition ⟨"has_image", o.symbol, .single (.text "no")⟩]⟩
    let painted : Record := fun field => if field = "color" then some (.text "green| Blue") else none
    let pictured : Record := fun field => if field = imageField then some (.text "a.png") else none
    ((colors .oneOf).dropped = [] ∧ (images .is).dropped = []) ∧
      (colors .oneOf).plan.matches painted ∧ (colors .notOneOf).plan.matches painted = false ∧
      (colors .oneOf).plan.matches pictured = false ∧ (colors .notOneOf).plan.matches pictured = false ∧
      (images .is).plan.matches pictured = false ∧ (images .isNot).plan.matches pictured := by
  intro sets named colors images painted pictured
  have hkept : (colors .oneOf).dropped = [] ∧ (images .is).dropped = [] := by decide
  have hv : ∀ s ∈ named.scalars, s.isNaN = false := by decide
  have hf : Text.trim " color " ≠ hasImageField := by decide
  have hin : (colors .oneOf).plan.matches painted := by decide
  have his : (images .is).plan.matches pictured = false := by decide
  have hcolors := ((compile_opposite sets 1 " color " named).1 hf hv .oneOf).2 hkept.1
  have himages := ((compile_opposite sets 1 "has_image" (.single (.text "no"))).2 (by decide)).2 hkept.2
  have hout : (colors .notOneOf).plan.matches painted = !(colors .oneOf).plan.matches painted :=
    (hcolors painted).1 (.text "green| Blue") (by decide) rfl
  have hmissing := (hcolors pictured).2 (by decide)
  refine ⟨hkept, hin, ?_, hmissing.1, hmissing.2, his, ?_⟩
  · rw [hout, hin]
    rfl
  · exact (himages pictured).trans (by rw [his]; rfl)

/-- A double that is no number is neither greater than another nor at most as great. -/
example :
    let prices : Lookup := fun _ => .ok {}
    let compiled (o : Operator) := compile prices 1 ⟨.any, [.condition ⟨"price", o.symbol, .single (.float .nan)⟩]⟩
    let record : Record := fun _ => some (.int 5)
    (compiled .greaterThan).plan.matches record = false ∧ (compiled .atMost).plan.matches record = false := by
  decide +kernel

end RulePlan
