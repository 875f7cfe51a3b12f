/-
  RulePlan.Proofs.Condition.Codes — texts of integers as option codes.

  The code of a text that is an integer between blanks (`Denotes`) is the 64-bit integer
  nearest to it, or the text itself where the integer is too large to be a finite double
  (`codedAs`). So an integer is kept if it has 64 bits, and if it is too large; what lies
  between goes to the end of the 64-bit integers.

  Proved (`integers_share_codes_at_the_ends`): different integers get one code, as values
  of a coded attribute in any comparison or as identifiers, exactly when both are finite
  doubles and both lie at or beyond the same end of the 64-bit integers (`ShareACode`).
  `the_largest_code_is_shared` is such a pair.
-/

import RulePlan.Proofs.Condition.Listing
import RulePlan.Proofs.Number.Written

namespace RulePlan

/-! ## Texts of integers -/

/-- One decimal digit or more. -/
def IsDigits (digits : List Char) : Prop := digits ≠ [] ∧ digits.all Numeral.isDigit

instance (digits : List Char) : Decidable (IsDigits digits) := inferInstanceAs (Decidable (_ ∧ _))

theorem IsDigits.isDigit {digits : List Char} (h : IsDigits digits) : ∀ c ∈ digits, Numeral.isDigit c :=
  List.all_eq_true.mp h.2

/-- The text without the blanks at its ends is an integer, with an optional sign. -/
inductive Denotes (s : String) : Int → Prop
  | unsigned {digits : List Char} (h : Text.strip s.toList = digits) (hd : IsDigits digits) :
      Denotes s (Numeral.ofDigits digits)
  | plus {digits : List Char} (h : Text.strip s.toList = '+' :: digits) (hd : IsDigits digits) :
      Denotes s (Numeral.ofDigits digits)
  | minus {digits : List Char} (h : Text.strip s.toList = '-' :: digits) (hd : IsDigits digits) :
      Denotes s (-(Numeral.ofDigits digits : Int))

namespace Denotes

variable {s : String} {n : Int} {c : Char}

theorem exists_split (h : Denotes s n) : ∃ negative digits, IsDigits digits ∧
    Numeral.splitSign (Text.strip s.toList) = (negative, digits) ∧
      n = if negative then -(Numeral.ofDigits digits : Int) else Numeral.ofDigits digits := by
  cases h with
  | @unsigned digits h hd =>
    obtain ⟨c, r, hcr⟩ := List.exists_cons_of_ne_nil hd.1
    refine ⟨false, digits, hd, ?_, rfl⟩
    rw [h, hcr]
    exact Numeral.splitSign_of_isDigit (hd.isDigit c (hcr ▸ List.mem_cons_self))
  | @plus digits h hd =>
    refine ⟨false, digits, hd, ?_, rfl⟩
    rw [h]
    rfl
  | @minus digits h hd =>
    refine ⟨true, digits, hd, ?_, rfl⟩
    rw [h]
    rfl

theorem integer? (h : Denotes s n) : Numeral.integer? (Text.strip s.toList) = some n := by
  obtain ⟨negative, digits, hd, hsplit, rfl⟩ := h.exists_split
  simp only [Numeral.integer?, hsplit, Numeral.natural?_of_digits hd.1 hd.isDigit]
  rfl

theorem unique {m : Int} (hm : Denotes s m) (hn : Denotes s n) : m = n :=
  Option.some.inj (hm.integer?.symm.trans hn.integer?)

theorem of_strip_eq {t : String} (h : Denotes s n) (ht : Text.strip t.toList = Text.strip s.toList) : Denotes t n := by
  cases h with
  | unsigned h hd => exact .unsigned (ht.trans h) hd
  | plus h hd => exact .plus (ht.trans h) hd
  | minus h hd => exact .minus (ht.trans h) hd

theorem trim (h : Denotes s n) : Denotes (Text.trim s) n := h.of_strip_eq (by simp [Text.trim])

theorem toString (n : Int) : Denotes (ToString.toString n) n := by
  have hstrip := Text.strip_of_no_blank fun c hc => isBlank_of_mem_toString (n := n) hc
  have hd : IsDigits (Nat.toDigits 10 n.natAbs) :=
    ⟨Nat.toDigits_ne_nil, List.all_eq_true.mpr fun c hc => Numeral.isDigit_of_mem_toDigits hc⟩
  have hdigits := toList_toString n
  by_cases hn : n < 0
  · rw [if_pos hn, List.singleton_append] at hdigits
    have h := Denotes.minus (hstrip.trans hdigits) hd
    rwa [Numeral.ofDigits_toDigits, show -(n.natAbs : Int) = n by omega] at h
  · rw [if_neg hn, List.nil_append] at hdigits
    have h := Denotes.unsigned (hstrip.trans hdigits) hd
    rwa [Numeral.ofDigits_toDigits, show (n.natAbs : Int) = n by omega] at h

theorem strip_ne_nil (h : Denotes s n) : Text.strip s.toList ≠ [] := by
  cases h with
  | unsigned h hd => exact h ▸ hd.1
  | plus h hd => exact h ▸ List.cons_ne_nil _ _
  | minus h hd => exact h ▸ List.cons_ne_nil _ _

theorem isBlank_eq_false (h : Denotes s n) : (Scalar.text s).isBlank = false := by
  refine Bool.eq_false_iff.mpr fun hblank => h.strip_ne_nil ?_
  exact Text.strip_eq_nil_iff.mpr hblank

/-- There are blanks, digits and a sign in the text, nothing else. -/
theorem not_mem (h : Denotes s n) (hblank : Text.isBlank c = false) (hdigit : Numeral.isDigit c = false)
    (hsign : c ≠ '+' ∧ c ≠ '-') : c ∉ s.toList := by
  intro hc
  have hdigits : ∀ {digits}, IsDigits digits → c ∉ digits := fun hd hmem => by simp [hd.isDigit c hmem] at hdigit
  rcases Text.isBlank_or_mem_strip hc with hb | hmem
  · simp [hb] at hblank
  · cases h with
    | unsigned h hd => exact hdigits hd (h ▸ hmem)
    | plus h hd =>
      rcases List.mem_cons.mp (h ▸ hmem) with hplus | hmem
      · exact hsign.1 hplus
      · exact hdigits hd hmem
    | minus h hd =>
      rcases List.mem_cons.mp (h ▸ hmem) with hminus | hmem
      · exact hsign.2 hminus
      · exact hdigits hd hmem

theorem tokens_eq (h : Denotes s n) : tokens s = [Text.trim s] := by
  have hseparator : ∀ c ∈ s.toList, isTokenSeparator c = false := by
    intro c hc
    refine Bool.eq_false_iff.mpr fun hs => ?_
    rw [isTokenSeparator, Bool.or_eq_true, decide_eq_true_eq, decide_eq_true_eq] at hs
    rcases hs with rfl | rfl
    · exact h.not_mem (by decide) (by decide) (by decide) hc
    · exact h.not_mem (by decide) (by decide) (by decide) hc
  rw [tokens, Text.splitWhere_of_no_separator hseparator]
  simp [h.strip_ne_nil, Text.trim]

theorem escapeWildcards_eq (h : Denotes s n) : escapeWildcards s.toList = s.toList := by
  have hpercent := h.not_mem (c := '%') (by decide) (by decide) (by decide)
  have hunderscore := h.not_mem (c := '_') (by decide) (by decide) (by decide)
  have hplain : ∀ c ∈ s.toList, (if c = '%' || c = '_' then ['\\', c] else [c]) = [c] := by
    intro c hc
    have hp : c ≠ '%' := fun e => hpercent (e ▸ hc)
    have hu : c ≠ '_' := fun e => hunderscore (e ▸ hc)
    simp [hp, hu]
  rw [escapeWildcards, List.flatMap_congr hplain, List.flatMap_singleton']

end Denotes

/-! ## Their codes -/

/-- The integer that the code of an integer's text is or denotes. -/
def codedAs (n : Int) : Int :=
  if n.natAbs < Binary64.overflow then max Binary64.minInt64 (min n Binary64.maxInt64) else n

/-- Both integers are doubles and lie at or beyond the same end of the 64-bit integers. -/
def ShareACode (m n : Int) : Prop :=
  (m.natAbs < Binary64.overflow ∧ n.natAbs < Binary64.overflow) ∧
    (Binary64.maxInt64 ≤ m ∧ Binary64.maxInt64 ≤ n ∨ m ≤ Binary64.minInt64 ∧ n ≤ Binary64.minInt64)

instance (m n : Int) : Decidable (ShareACode m n) := inferInstanceAs (Decidable (_ ∧ _))

theorem codedAs_eq_iff {m n : Int} (hne : m ≠ n) : codedAs m = codedAs n ↔ ShareACode m n := by
  have hmin : Binary64.minInt64 = -2 ^ 63 := rfl
  have hmax : Binary64.maxInt64 = 2 ^ 63 - 1 := rfl
  have hlarge : 2 ^ 63 < Binary64.overflow := by decide +kernel
  unfold codedAs ShareACode
  generalize Binary64.overflow = overflow at *
  split <;> split <;> omega

theorem codedAs_eq_self_iff {n : Int} : codedAs n = n ↔
    (Binary64.minInt64 ≤ n ∧ n ≤ Binary64.maxInt64) ∨ Binary64.overflow ≤ n.natAbs := by
  have hmin : Binary64.minInt64 = -2 ^ 63 := rfl
  have hmax : Binary64.maxInt64 = 2 ^ 63 - 1 := rfl
  unfold codedAs
  generalize Binary64.overflow = overflow at *
  split <;> omega

/-- The code of an integer's text is the integer itself or the text as it was. -/
def KeepsInteger (s : String) (n : Int) : Prop :=
  (∃ c : Int64, (Scalar.text s).asCode = .int c ∧ c.toInt = n) ∨ (Scalar.text s).asCode = .text s

/-- The operand of a comparison with a single identifier. -/
def identifierOperand (k : Comparison) (id : Scalar) : Operand :=
  if k.Listing then .list [id] else (Operand.single id).asPattern k

namespace Denotes

variable {s : String} {n : Int}

theorem textNumber? (h : Denotes s n) (hout : ¬ (Binary64.minInt64 ≤ n ∧ n ≤ Binary64.maxInt64)) :
    Scalar.textNumber? s = if n.natAbs < Binary64.overflow then some (Binary64.ofInt n) else none := by
  obtain ⟨negative, digits, hd, hsplit, hn⟩ := h.exists_split
  have hmin : Binary64.minInt64 < 0 := by decide
  have hmax : 0 < Binary64.maxInt64 := by decide
  have habs : n.natAbs = Numeral.ofDigits digits := by
    rw [hn]
    split <;> omega
  -- a minus before zero would be lost here, but zero has 64 bits
  have hsign : decide (n < 0) = negative := by
    cases negative with
    | true =>
      simp only [if_true] at hn
      exact decide_eq_true (by omega)
    | false =>
      simp only [Bool.false_eq_true, if_false] at hn
      exact decide_eq_false (by omega)
  have hdecimal : Numeral.decimal? (Text.strip s.toList) = some (Binary64.ofInt n) := by
    rw [Numeral.decimal?_of_digits hsplit hd.1 hd.isDigit, Binary64.ofDecimal_whole, Binary64.ofInt, hsign, habs]
  rw [Scalar.textNumber?, hdecimal, Option.filter_some]
  simp only [Binary64.isFinite_ofInt_iff]

theorem textInteger? (h : Denotes s n) : Scalar.textInteger? s =
    if n.natAbs < Binary64.overflow then some (Binary64.clampInt64 n) else none := by
  rw [Scalar.textInteger?, Numeral.int64?, h.integer?, Option.bind_some]
  by_cases hin : Binary64.minInt64 ≤ n ∧ n ≤ Binary64.maxInt64
  · rw [if_pos hin, if_pos (Binary64.natAbs_lt_overflow hin), Binary64.clampInt64_of_mem hin, Option.some_or]
  · rw [if_neg hin, Option.none_or, h.textNumber? hin]
    split
    · rw [Option.map_some, Binary64.toInt64_ofInt hin]
    · rfl

theorem asCode_eq (h : Denotes s n) : (Scalar.text s).asCode =
    if n.natAbs < Binary64.overflow then .int (Binary64.clampInt64 n) else .text s := by
  simp only [Scalar.asCode, h.textInteger?]
  split <;> simp_all

theorem keepsInteger_iff (h : Denotes s n) : KeepsInteger s n ↔
    (Binary64.minInt64 ≤ n ∧ n ≤ Binary64.maxInt64) ∨ Binary64.overflow ≤ n.natAbs := by
  rw [← codedAs_eq_self_iff, KeepsInteger, h.asCode_eq, codedAs]
  split
  · rw [← Binary64.toInt_clampInt64]
    simp
  · simp

/-- Written out, the code is an integer again. -/
theorem asText_asCode (h : Denotes s n) : Denotes (Scalar.text s).asCode.asText (codedAs n) := by
  rw [h.asCode_eq, codedAs]
  split
  · rw [← Binary64.toInt_clampInt64]
    exact Denotes.toString _
  · exact h

/-! ## Two integers -/

section

variable {t : String} {m : Int} (hs : Denotes s m) (ht : Denotes t n)
include hs ht

theorem asCode_eq_of_shareACode (h : ShareACode m n) : (Scalar.text s).asCode = (Scalar.text t).asCode := by
  obtain ⟨⟨hm, hn⟩, hends⟩ := h
  rw [hs.asCode_eq, ht.asCode_eq, if_pos hm, if_pos hn]
  rcases hends with ⟨hm, hn⟩ | ⟨hm, hn⟩
  · rw [Binary64.clampInt64_of_ge hm, Binary64.clampInt64_of_ge hn]
  · rw [Binary64.clampInt64_of_le hm, Binary64.clampInt64_of_le hn]

/-- Patterns of codes differ if the codes do. -/
theorem asText_eq_of_containsPattern_eq
    (h : containsPattern (Scalar.text s).asCode = containsPattern (Scalar.text t).asCode) :
    (Scalar.text s).asCode.asText = (Scalar.text t).asCode.asText := by
  simpa [containsPattern, hs.asText_asCode.escapeWildcards_eq, ht.asText_asCode.escapeWildcards_eq,
    String.ofList_inj, String.toList_inj] using h

variable (hne : m ≠ n)
include hne

theorem shareACode_of_asText_eq (h : (Scalar.text s).asCode.asText = (Scalar.text t).asCode.asText) :
    ShareACode m n :=
  (codedAs_eq_iff hne).mp (hs.asText_asCode.unique (h ▸ ht.asText_asCode))

theorem asCode_eq_iff : (Scalar.text s).asCode = (Scalar.text t).asCode ↔ ShareACode m n :=
  ⟨fun h => hs.shareACode_of_asText_eq ht hne (congrArg Scalar.asText h), hs.asCode_eq_of_shareACode ht⟩

/-! ## Operands -/

theorem asPattern_eq_iff (k : Comparison) :
    (Operand.single (Scalar.text s).asCode).asPattern k = (Operand.single (Scalar.text t).asCode).asPattern k ↔
      ShareACode m n := by
  by_cases hpattern : k.takesPattern
  · simp only [Operand.asPattern, hpattern, if_true, Operand.single.injEq]
    constructor
    · intro h
      exact hs.shareACode_of_asText_eq ht hne (hs.asText_eq_of_containsPattern_eq ht h)
    · intro h
      rw [hs.asCode_eq_of_shareACode ht h]
  · simp only [Operand.asPattern, hpattern, Operand.single.injEq]
    exact hs.asCode_eq_iff ht hne

theorem among_eq_iff {before after : List Scalar} :
    (before ++ Scalar.text s :: after).map Scalar.asCode = (before ++ Scalar.text t :: after).map Scalar.asCode ↔
      ShareACode m n := by
  rw [List.map_append, List.map_append, List.map_cons, List.map_cons, List.append_cancel_left_eq, List.cons.injEq,
    and_iff_left rfl]
  exact hs.asCode_eq_iff ht hne

theorem normalize_list_eq_iff {storage : Storage} (hcoded : storage.isCoded) {k : Comparison} (hk : k.takesList)
    {v w : FormValue} {before after : List Scalar} (hv : v.toList = before ++ .text s :: after)
    (hw : w.toList = before ++ .text t :: after) : normalize v k storage = normalize w k storage ↔ ShareACode m n := by
  rw [normalize_list hk, normalize_list hk, if_neg (by simp [hv]), if_neg (by simp [hw]), hv, hw,
    Storage.reading_of_isCoded hcoded, Option.some.injEq, Operand.list.injEq]
  exact hs.among_eq_iff ht hne

end

theorem toList_single (h : Denotes s n) : (FormValue.single (.text s)).toList = [.text (Text.trim s)] := by
  rw [FormValue.toList, h.tokens_eq]
  rfl

theorem identifiers_single (h : Denotes s n) :
    Condition.identifiers (.single (.text s)) = [(Scalar.text (Text.trim s)).asCode] := by
  rw [FieldTest.identifiers_eq, FieldTest.flatMap_cut_single, FieldTest.cut, h.tokens_eq]
  rfl

theorem identifierPredicate_eq (h : Denotes s n) (field operator : String) :
    (⟨field, operator, .single (.text s)⟩ : Condition).identifierPredicate =
      let k := Condition.listComparison (comparisonOf operator)
      .ok ⟨entityIdField, k, identifierOperand k (Scalar.text (Text.trim s)).asCode, none⟩ := by
  simp only [Condition.identifierPredicate, h.identifiers_single]
  generalize Condition.listComparison (comparisonOf operator) = k
  generalize (Scalar.text (Text.trim s)).asCode = id
  cases k <;> rfl

section

variable {t : String} {m : Int} (hs : Denotes s m) (ht : Denotes t n) (hne : m ≠ n)
include hs ht hne

theorem normalize_single_eq_iff {storage : Storage} (hcoded : storage.isCoded) (k : Comparison) :
    normalize (.single (.text s)) k storage = normalize (.single (.text t)) k storage ↔ ShareACode m n := by
  cases hk : k.takesList with
  | true =>
    have hv : (FormValue.single (.text s)).toList = [] ++ .text (Text.trim s) :: [] := hs.toList_single
    have hw : (FormValue.single (.text t)).toList = [] ++ .text (Text.trim t) :: [] := ht.toList_single
    exact hs.trim.normalize_list_eq_iff ht.trim hne hcoded hk hv hw
  | false =>
    rw [normalize_single hk, normalize_single hk, hs.isBlank_eq_false, ht.isBlank_eq_false,
      Storage.reading_of_isCoded hcoded]
    simp only [Bool.false_eq_true, if_false, Option.some.injEq]
    exact hs.asPattern_eq_iff ht hne k

theorem identifierPredicate_eq_iff (field operator : String) :
    (⟨field, operator, .single (.text s)⟩ : Condition).identifierPredicate =
      (⟨field, operator, .single (.text t)⟩ : Condition).identifierPredicate ↔ ShareACode m n := by
  rw [hs.identifierPredicate_eq, ht.identifierPredicate_eq]
  simp only [Except.ok.injEq, Predicate.mk.injEq, true_and, and_true]
  generalize Condition.listComparison (comparisonOf operator) = k
  unfold identifierOperand
  by_cases hk : k.Listing
  · rw [if_pos hk, if_pos hk, Operand.list.injEq, List.cons.injEq, and_iff_left rfl]
    exact hs.trim.asCode_eq_iff ht.trim hne
  · rw [if_neg hk, if_neg hk]
    exact hs.trim.asPattern_eq_iff ht.trim hne k

end

end Denotes

/-- An integer is kept within 64 bits and when it is no finite double; different integers get one code,
    as values of a coded attribute and as identifiers, if both are doubles and both lie at or beyond the
    same end of the 64-bit integers. -/
theorem integers_share_codes_at_the_ends {s t : String} {m n : Int} (hs : Denotes s m) (ht : Denotes t n) :
    (KeepsInteger s m ↔ (Binary64.minInt64 ≤ m ∧ m ≤ Binary64.maxInt64) ∨ Binary64.overflow ≤ m.natAbs) ∧
      (m ≠ n →
        ((Scalar.text s).asCode = (Scalar.text t).asCode ↔ ShareACode m n) ∧
        (∀ storage : Storage, storage.isCoded → ∀ k : Comparison,
          (normalize (.single (.text s)) k storage = normalize (.single (.text t)) k storage ↔ ShareACode m n) ∧
          (k.takesList → ∀ v w before after, v.toList = before ++ .text s :: after →
            w.toList = before ++ .text t :: after →
            (normalize v k storage = normalize w k storage ↔ ShareACode m n))) ∧
        (∀ field operator,
          (⟨field, operator, .single (.text s)⟩ : Condition).identifierPredicate =
            (⟨field, operator, .single (.text t)⟩ : Condition).identifierPredicate ↔ ShareACode m n) ∧
        ∀ v w before after, v.toList.flatMap FieldTest.cut = before ++ .text s :: after →
          w.toList.flatMap FieldTest.cut = before ++ .text t :: after →
          (Condition.identifiers v = Condition.identifiers w ↔ ShareACode m n)) := by
  refine ⟨hs.keepsInteger_iff, fun hne => ⟨?_, fun storage hcoded k => ⟨?_, ?_⟩, ?_, ?_⟩⟩
  · exact hs.asCode_eq_iff ht hne
  · exact hs.normalize_single_eq_iff ht hne hcoded k
  · exact fun hk v w before after hv hw => hs.normalize_list_eq_iff ht hne hcoded hk hv hw
  · exact hs.identifierPredicate_eq_iff ht hne
  · intro v w before after hv hw
    rw [FieldTest.identifiers_eq, FieldTest.identifiers_eq, hv, hw]
    exact hs.among_eq_iff ht hne

/-- A sign, leading zeros and blanks belong to the text of an integer, not to its code. -/
theorem a_padded_integer_keeps_its_code :
    Denotes " +007" 7 ∧ Denotes "+007" 7 ∧ Denotes "12" 12 ∧ KeepsInteger " +007" 7 ∧
      normalize (.single (.text " +007")) .like .coded ≠ normalize (.single (.text "12")) .like .coded ∧
      Condition.identifiers (.list [.text "1, +007"]) ≠ Condition.identifiers (.list [.text "1,12"]) := by
  have hpadded : Denotes " +007" 7 := @Denotes.plus _ ['0', '0', '7'] (by decide) (by decide)
  have hseven : Denotes "+007" 7 := @Denotes.plus _ ['0', '0', '7'] (by decide) (by decide)
  have htwelve : Denotes "12" 12 := @Denotes.unsigned _ ['1', '2'] (by decide) (by decide)
  have hapart : ¬ ShareACode 7 12 := by decide +kernel
  obtain ⟨hkept, hcodes⟩ := integers_share_codes_at_the_ends hpadded htwelve
  obtain ⟨-, hoperands, -⟩ := hcodes (by decide)
  obtain ⟨-, -, -, hidentifiers⟩ := (integers_share_codes_at_the_ends hseven htwelve).2 (by decide)
  refine ⟨hpadded, hseven, htwelve, hkept.mpr (.inl (by decide)), fun h => ?_, fun h => ?_⟩
  · exact hapart ((hoperands .coded rfl .like).1.mp h)
  · exact hapart ((hidentifiers _ _ [.text "1"] [] (by decide) (by decide)).mp h)

/-- One more than the largest 64-bit integer has the code of the largest. -/
theorem the_largest_code_is_shared :
    Denotes "9223372036854775808" 9223372036854775808 ∧ Denotes "9223372036854775807" 9223372036854775807 ∧
      ¬ KeepsInteger "9223372036854775808" 9223372036854775808 ∧
      normalize (.single (.text "9223372036854775808")) .eq .coded =
        normalize (.single (.text "9223372036854775807")) .eq .coded ∧
      Condition.identifiers (.single (.text "9223372036854775808")) =
        Condition.identifiers (.single (.text "9223372036854775807")) := by
  have hbeyond : Denotes "9223372036854775808" 9223372036854775808 :=
    @Denotes.unsigned _ "9223372036854775808".toList (by decide) (by decide)
  have hlargest : Denotes "9223372036854775807" 9223372036854775807 :=
    @Denotes.unsigned _ "9223372036854775807".toList (by decide) (by decide)
  refine ⟨hbeyond, hlargest, fun hkept => ?_, by decide +kernel, by decide +kernel⟩
  exact absurd (hbeyond.keepsInteger_iff.mp hkept) (by decide +kernel)

end RulePlan
