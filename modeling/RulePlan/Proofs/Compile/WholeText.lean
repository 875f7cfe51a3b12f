/-
  RulePlan.Proofs.Compile.WholeText — whether a text that is the value contains it.

  Letter case does not count for `is` nor for `contains`, but each takes it away in its own
  manner: `is` lower-cases the whole texts, `contains` their characters one by one. So the
  value is found in every text that it is equal to, unless one of its words ends in a sigma:
  then there is a text with the other sigma in its place, equal as a whole and different in
  its characters (`Text.exists_other_sigma`).

  Proved (`compile_is_implies_contains_iff`), for every attribute of plain text and every value
  that is no number and has no backslash: a record that the plan of `is` lets through, the plan
  of `contains` lets through, just when no word of the value ends in a sigma.
  `a_word_that_is_the_value_does_not_contain_it` is such a record.
-/

import RulePlan.Proofs.Compile.Containing
import RulePlan.Proofs.Number.Numeral
import RulePlan.Proofs.Text.Sigma

namespace RulePlan

/-! ## Texts that are no numbers -/

theorem Scalar.textNumber?_eq_none {t : String} {c : Char} (hc : c ∈ t.toList) (hblank : Text.isBlank c = false)
    (hascii : ¬ Numeral.IsAscii c) : textNumber? t = none := by
  have hmem : c ∈ Text.strip t.toList := (Text.isBlank_or_mem_strip hc).resolve_left (by simp [hblank])
  cases h : Numeral.decimal? (Text.strip t.toList) with
  | none => rw [textNumber?, h, Option.filter_none]
  | some x => exact absurd (Numeral.isAscii_of_decimal? h c hmem) hascii

theorem Scalar.textNumber?_of_isFinalForm {t : String} {c : Char} (hc : c ∈ t.toList) (h : Text.isFinalForm c) :
    textNumber? t = none := by
  rcases Text.isFinalForm_iff.mp h with rfl | rfl
  · exact textNumber?_eq_none hc (by decide) (by decide)
  · exact textNumber?_eq_none hc (by decide) (by decide)

theorem Scalar.looselyEqual_text_iff {t v : String} (hv : textNumber? v = none) :
    (Scalar.text t).looselyEqual (.text v) ↔ Text.lower t = Text.lower v := by
  unfold looselyEqual
  split
  · next hy => exact absurd (hv.symm.trans hy) nofun
  · exact decide_eq_true_iff

/-! ## Equal texts -/

namespace Text

variable {t v : String}

/-- Some word of the text ends in a sigma. -/
def EndsAWordInSigma (v : String) : Prop := hasFinalSigma [] v.toList

instance (v : String) : Decidable (EndsAWordInSigma v) := inferInstanceAs (Decidable (_ = true))

theorem lower_eq_iff_lowerAfter : lower t = lower v ↔ lowerAfter [] t.toList = lowerAfter [] v.toList := by
  rw [lower, lower, String.ofList_inj]

/-- A text with the same lower case is too short to contain the value and more. -/
theorem contains_iff_of_lower_eq (h : lower t = lower v) : Contains t v ↔ lowerEach t.toList = lowerEach v.toList := by
  have hlength : (lowerEach t.toList).length = (lowerEach v.toList).length := by
    rw [← length_lowerAfter [], lower_eq_iff_lowerAfter.mp h, length_lowerAfter]
  constructor
  · exact fun hin => (hin.eq_of_length hlength.symm).symm
  · intro heq
    simp [Contains, heq]

theorem contains_of_lower_eq (hv : ¬ EndsAWordInSigma v) (h : lower t = lower v) : Contains t v :=
  (contains_iff_of_lower_eq h).mpr <|
    lowerEach_eq_of_lowerAfter_eq (Bool.eq_false_iff.mpr hv) (lower_eq_iff_lowerAfter.mp h)

/-- The text with the other sigma is equal to the value and does not contain it. -/
theorem exists_lower_eq_not_contains (hv : EndsAWordInSigma v) :
    ∃ t, Scalar.textNumber? t = none ∧ lower t = lower v ∧ ¬ Contains t v := by
  obtain ⟨r, hr, hne, c, hc, hfinal⟩ := exists_other_sigma hv
  have hlower : lower (String.ofList r) = lower v := by rwa [lower_eq_iff_lowerAfter, String.toList_ofList]
  refine ⟨String.ofList r, Scalar.textNumber?_of_isFinalForm (by rwa [String.toList_ofList]) hfinal, hlower, ?_⟩
  rwa [contains_iff_of_lower_eq hlower, String.toList_ofList]

end Text

/-! ## Plans -/

variable {lookup : Lookup} {limit : Nat} {f : String} {a : Attribute} {v t : String} {record : Record}

theorem StoresPlain.is_iff (h : StoresPlain lookup f a) (hlimit : 1 ≤ limit) (hv : Text.allBlank v = false)
    (hnumber : Scalar.textNumber? v = none) (hr : record (Text.trim f) = some (.text t)) (aggregator : Aggregator) :
    (compile lookup limit ⟨aggregator, [.condition ⟨f, Operator.is.symbol, .single (.text v)⟩]⟩).plan.matches record ↔
      Text.lower t = Text.lower v := by
  have hcode : (⟨f, Operator.is.symbol, .single (.text v)⟩ : Condition).code? = some (Text.trim f) :=
    Condition.code?_eq_some_iff.mpr ⟨rfl, h.named⟩
  have ha : usable? (lookup (Text.trim f)) = some a := by rw [h.known, usable?, if_pos h.present]
  have hgranted : (⟨f, Operator.is.symbol, .single (.text v)⟩ : Condition).granted lookup =
      [Predicate.single (Text.trim f) .eq (.text v)] := by
    rw [Condition.granted_single hcode ha rfl (.inl rfl) (comparisonOf_symbol .is)]
    simp [Scalar.isBlank, hv, Condition.singleTest, h.plain, Storage.reading, Storage.isCoded]
  rw [lone_refuses_iff hlimit (Condition.refuses_of_granted hgranted (.inr ⟨_, rfl⟩)) aggregator,
    List.forall_mem_singleton, ← Scalar.looselyEqual_text_iff hnumber]
  simp [Predicate.matches, Predicate.holdsOf, Predicate.single, hr, Operand.first?]

/-- On an attribute of plain text, the plan of `contains` lets through the texts that the plan of `is`
    lets through, just when no word of the value ends in a sigma. -/
theorem compile_is_implies_contains_iff (h : StoresPlain lookup f a) (hlimit : 1 ≤ limit)
    (hv : Text.allBlank v = false) (hnumber : Scalar.textNumber? v = none) (hbackslash : '\\' ∉ v.toList)
    (aggregator : Aggregator) :
    let plan (o : Operator) :=
      (compile lookup limit ⟨aggregator, [.condition ⟨f, o.symbol, .single (.text v)⟩]⟩).plan
    (∀ (record : Record) (t : String), record (Text.trim f) = some (.text t) → Scalar.textNumber? t = none →
      (plan .is).matches record → (plan .contains).matches record) ↔ ¬ Text.EndsAWordInSigma v := by
  intro plan
  have hcontains : ∀ {record : Record} {t : String}, record (Text.trim f) = some (.text t) →
      ((plan .contains).matches record ↔ Text.Contains t v) := fun hr =>
    (h.contains_iff hlimit hv hr aggregator).trans ((LikePattern.isLike_containsPattern_iff v).mpr hbackslash _)
  constructor
  · intro hall hsigma
    obtain ⟨t, ht, hlower, hnot⟩ := Text.exists_lower_eq_not_contains hsigma
    let record : Record := fun _ => some (.text t)
    have hr : record (Text.trim f) = some (.text t) := rfl
    have his := (h.is_iff hlimit hv hnumber hr aggregator).mpr hlower
    exact hnot ((hcontains hr).mp (hall record t hr ht his))
  · intro hsigma record t hr _ his
    exact (hcontains hr).mpr (Text.contains_of_lower_eq hsigma ((h.is_iff hlimit hv hnumber hr aggregator).mp his))

/-- A sigma within a word, and a sigma that stands alone, make no difference. -/
theorem a_text_with_sigmas_inside_words_is_found_in_itself :
    let lookup : Lookup := fun _ => .ok {}
    let plan (o : Operator) :=
      (compile lookup 1 ⟨.all, [.condition ⟨"name", o.symbol, .single (.text "ΜΟΥΣΑ Σ")⟩]⟩).plan
    let record : Record := fun field => if field = "name" then some (.text "Μουσα σ") else none
    StoresPlain lookup "name" {} ∧ 1 ≤ 1 ∧ Text.allBlank "ΜΟΥΣΑ Σ" = false ∧ Scalar.textNumber? "ΜΟΥΣΑ Σ" = none ∧
      '\\' ∉ "ΜΟΥΣΑ Σ".toList ∧ ¬ Text.EndsAWordInSigma "ΜΟΥΣΑ Σ" ∧
      record "name" = some (.text "Μουσα σ") ∧ Scalar.textNumber? "Μουσα σ" = none ∧
      (plan .is).matches record ∧ (plan .contains).matches record := by
  intro lookup plan record
  have hplain : StoresPlain lookup "name" {} := ⟨by decide, rfl, rfl, rfl⟩
  have hv : Text.allBlank "ΜΟΥΣΑ Σ" = false := by decide
  have hnumber : Scalar.textNumber? "ΜΟΥΣΑ Σ" = none := by decide +kernel
  have hbackslash : '\\' ∉ "ΜΟΥΣΑ Σ".toList := by decide
  have hsigma : ¬ Text.EndsAWordInSigma "ΜΟΥΣΑ Σ" := by decide +kernel
  have hr : record "name" = some (.text "Μουσα σ") := rfl
  have ht : Scalar.textNumber? "Μουσα σ" = none := by decide +kernel
  have his : (plan .is).matches record := by decide +kernel
  have hlimit : 1 ≤ 1 := by decide
  have himplies := (compile_is_implies_contains_iff hplain hlimit hv hnumber hbackslash .all).mpr hsigma
  exact ⟨hplain, hlimit, hv, hnumber, hbackslash, hsigma, hr, ht, his, himplies record _ hr ht his⟩

/-- The text is the value in capitals. -/
theorem a_word_that_is_the_value_does_not_contain_it :
    let lookup : Lookup := fun _ => .ok {}
    let plan (o : Operator) := (compile lookup 32 ⟨.all, [.condition ⟨"name", o.symbol, .single (.text "ας")⟩]⟩).plan
    let record : Record := fun field => if field = "name" then some (.text "ΑΣ") else none
    Text.allBlank "ας" = false ∧ Scalar.textNumber? "ας" = none ∧ '\\' ∉ "ας".toList ∧
      Scalar.textNumber? "ΑΣ" = none ∧ (plan .is).matches record ∧ ¬ (plan .contains).matches record := by
  decide +kernel

end RulePlan
