/-
  RulePlan.Proofs.Plan.Integers — integers in comparisons.

  Integers are compared as the doubles next to them. Below 2⁵³ every integer has a double
  of its own, so that one which is compared with such an integer is told from it
  (`keptApart_of_lt`); further out, neighbours share a double (`SameDouble`) and are taken
  for each other. Rounding never exchanges two integers, so what is found to be less or
  greater is so.

  Proved (`Predicate.integers_compare_as_doubles`): the comparisons of a record's integer
  with another one answer as the integers exactly when the two are kept apart; those with
  a list, and with a stored set of decimals, exactly when the wanted integer is there or
  is kept apart from all that are. Delimiters are texts that are not made of digits and
  minus signs (`SeparatesIntegers`): the others cannot be told from what they separate.
  `an_identifier_lets_the_one_before_through` has two integers that share a double.
-/

import RulePlan.Proofs.Number.Written
import RulePlan.Proofs.Plan.Order
import RulePlan.Proofs.Text.Split

namespace RulePlan

/-! ## Integers that share a double -/

def SameDouble (a b : Int64) : Prop := (Binary64.ofInt a.toInt).key = (Binary64.ofInt b.toInt).key

instance (a b : Int64) : Decidable (SameDouble a b) := inferInstanceAs (Decidable (_ = _))

/-- Comparing them as doubles does not take one integer for the other. -/
def KeptApart (a b : Int64) : Prop := SameDouble a b → a = b

variable {a b x : Int64} {ys : List Int64}

/-- One integer below 2⁵³ is enough. -/
theorem keptApart_of_lt (h : a.toInt.natAbs < 2 ^ 53 ∨ b.toInt.natAbs < 2 ^ 53) : KeptApart a b := fun hsame =>
  Int64.toInt_inj.mp (Binary64.eq_of_key_eq h hsame)

theorem KeptApart.compare_key (h : KeptApart a b) :
    compare (Binary64.ofInt a.toInt).key (Binary64.ofInt b.toInt).key = compare a.toInt b.toInt :=
  Binary64.compare_key_of_ne fun hsame => congrArg Int64.toInt (h hsame)

/-- A test that goes by doubles answers as the list if it is there or no other integer is taken for it. -/
theorem finds_exactly_iff {has lacks : Prop} (hhas : has ↔ ∃ y ∈ ys, SameDouble x y) (hlacks : lacks ↔ ¬ has) :
    (has ↔ x ∈ ys) ∧ (lacks ↔ x ∉ ys) ↔ x ∈ ys ∨ ∀ y ∈ ys, KeptApart x y := by
  have hfound : x ∈ ys → has := fun hmem => hhas.mpr ⟨x, hmem, rfl⟩
  constructor
  · rintro ⟨hexact, -⟩
    by_cases hmem : x ∈ ys
    · exact .inl hmem
    · exact .inr fun y hy hsame => absurd (hexact.mp (hhas.mpr ⟨y, hy, hsame⟩)) hmem
  · intro h
    have hexact : has ↔ x ∈ ys := by
      refine ⟨fun hholds => ?_, hfound⟩
      obtain ⟨y, hy, hsame⟩ := hhas.mp hholds
      rcases h with hmem | hapart
      · exact hmem
      · rwa [hapart y hy hsame]
    exact ⟨hexact, by rw [hlacks, hexact]⟩

/-! ## Scalars -/

namespace Scalar

theorem looselyCompare_int (a b : Int64) :
    (Scalar.int a).looselyCompare (.int b) =
      some (compare (Binary64.ofInt a.toInt).key (Binary64.ofInt b.toInt).key) :=
  Binary64.compare?_ofInt _ _

theorem looselyEqual_int_iff (a b : Int64) : (Scalar.int a).looselyEqual (.int b) ↔ SameDouble a b := by
  rw [looselyEqual_iff, looselyCompare_int, Option.some.injEq, Int.compare_eq_eq]
  rfl

/-- A decimal is compared as the integer that it stands for. -/
theorem looselyEqual_decimal_iff {m : Int} (hm : m.natAbs < Binary64.overflow) (b : Int64) :
    (Scalar.text (toString m)).looselyEqual (.int b) ↔ (Binary64.ofInt m).key = (Binary64.ofInt b.toInt).key := by
  have hnumber : (Scalar.text (toString m)).asNumber? = some (Binary64.ofInt m) := textNumber?_toString hm
  unfold looselyEqual
  rw [hnumber]
  show decide ((Binary64.ofInt m).compare? (Binary64.ofInt b.toInt) = some .eq) ↔ _
  rw [Binary64.compare?_ofInt, decide_eq_true_eq, Option.some.injEq, Int.compare_eq_eq]

/-- What is no number is compared with the text of an integer. -/
theorem looselyEqual_of_no_number {s : String} (h : textNumber? s = none) (b : Int64) :
    (Scalar.text s).looselyEqual (.int b) ↔ s = toString b.toInt := by
  have hnumber : (Scalar.text s).asNumber? = none := h
  unfold looselyEqual
  rw [hnumber]
  show decide (Text.lower s = Text.lower (toString b.toInt)) ↔ _
  rw [decide_eq_true_eq]
  exact Text.lower_eq_iff fun c hc => isCaseless_of_mem_toString hc

theorem not_looselyEqual_empty (b : Int64) : ¬ (Scalar.text "").looselyEqual (.int b) := by
  rw [looselyEqual_of_no_number rfl]
  intro h
  have hdigits := congrArg String.toList h
  rw [toList_toString] at hdigits
  exact Nat.toDigits_ne_nil (List.append_eq_nil_iff.mp hdigits.symm).2

end Scalar

/-! ## Stored sets -/

/-- Some character of the delimiter stands in no integer. -/
def SeparatesIntegers (delimiter : String) : Prop :=
  delimiter.toList.any fun c => c ≠ '-' && !Numeral.isDigit c

instance (delimiter : String) : Decidable (SeparatesIntegers delimiter) := inferInstanceAs (Decidable (_ = _))

theorem SeparatesIntegers.exists_char {delimiter : String} (h : SeparatesIntegers delimiter) :
    ∃ c ∈ delimiter.toList, c ≠ '-' ∧ Numeral.isDigit c = false := by
  simpa [SeparatesIntegers] using h

/-- The decimals of integers with delimiters between them. -/
def joined (delimiter : String) (as : List Int64) : String :=
  delimiter.intercalate (as.map fun a => toString a.toInt)

variable {delimiter : String} {as : List Int64}

theorem splitOn_joined (hd : SeparatesIntegers delimiter) (hne : as ≠ []) :
    Text.splitOn delimiter.toList (joined delimiter as).toList = as.map fun a => (toString a.toInt).toList := by
  obtain ⟨c, hc, hminus, hdigit⟩ := hd.exists_char
  rw [joined, String.toList_intercalate, List.map_map]
  refine Text.splitOn_intercalate (by simpa using hne) hc fun piece hpiece hmem => ?_
  obtain ⟨a, -, rfl⟩ := List.mem_map.mp hpiece
  rw [Function.comp_apply, toList_toString] at hmem
  rcases List.mem_append.mp hmem with hsign | hdigits
  · split at hsign
    · exact hminus (List.mem_singleton.mp hsign)
    · cases hsign
  · exact Numeral.not_mem_toDigits hdigit hdigits

theorem setHas_joined_iff (hd : SeparatesIntegers delimiter) (as : List Int64) (b : Int64) :
    (Scalar.text (joined delimiter as)).setHas (.int b) delimiter ↔ ∃ a ∈ as, SameDouble b a := by
  unfold Scalar.setHas
  show (Text.splitOn delimiter.toList (joined delimiter as).toList).any _ ↔ _
  by_cases hne : as = []
  · -- the empty text has one piece, which is no number
    obtain ⟨c, hc, -⟩ := hd.exists_char
    have hempty : Text.splitOn delimiter.toList [] = [[]] := Text.splitOn_of_ne_nil (List.ne_nil_of_mem hc) []
    have hno : (Scalar.text "").looselyEqual (.int b) = false :=
      Bool.eq_false_iff.mpr (Scalar.not_looselyEqual_empty b)
    rw [hne, show (joined delimiter []).toList = [] by simp [joined], hempty]
    simpa [Text.strip_nil] using hno
  · rw [splitOn_joined hd hne, List.any_map, List.any_eq_true]
    refine exists_congr fun a => and_congr_right fun _ => ?_
    have hstrip := Text.strip_of_no_blank fun c hc => isBlank_of_mem_toString (n := a.toInt) hc
    have hdecimal := Scalar.looselyEqual_decimal_iff (Binary64.natAbs_lt_overflow (Binary64.toInt_range a)) b
    rw [Function.comp_apply, hstrip, String.ofList_toList]
    exact hdecimal.trans ⟨.symm, .symm⟩

/-! ## Predicates -/

/-- The comparisons with one integer hold as the order of the record's integer to it says. -/
structure ComparesExactly (holds : Comparison → Prop) (a b : Int64) : Prop where
  eq : holds .eq ↔ a = b
  neq : holds .neq ↔ a ≠ b
  gt : holds .gt ↔ b < a
  gte : holds .gte ↔ b ≤ a
  lt : holds .lt ↔ a < b
  lte : holds .lte ↔ a ≤ b

namespace Predicate

variable {p : Predicate} {record : Record} {o : Operand}

theorem asking_int_iff (hr : record p.field = some (.int a)) (hfirst : o.first? = some (.int b)) {k : Comparison}
    {accepted : List Ordering} (hk : k.orders? = some accepted) :
    (p.asking k o).matches record ↔
      compare (Binary64.ofInt a.toInt).key (Binary64.ofInt b.toInt).key ∈ accepted := by
  rw [asking_matches hr]
  exact holdsOf_iff_mem_orders (p := p.asking k o) hk hfirst (Scalar.looselyCompare_int a b)

theorem compares_exactly_iff (hr : record p.field = some (.int a)) (hfirst : o.first? = some (.int b)) :
    ComparesExactly (fun k => (p.asking k o).matches record) a b ↔ KeptApart a b := by
  constructor
  · intro h hsame
    refine h.eq.mp ((asking_int_iff hr hfirst rfl).mpr ?_)
    rw [List.mem_singleton, Int.compare_eq_eq]
    exact hsame
  · intro hapart
    have hholds : ∀ {k accepted}, k.orders? = some accepted →
        ((p.asking k o).matches record ↔ compare a.toInt b.toInt ∈ accepted) := by
      intro k accepted hk
      rw [asking_int_iff hr hfirst hk, hapart.compare_key]
    have hlt : compare a.toInt b.toInt = .lt ↔ a < b := Int.compare_eq_lt.trans Int64.lt_iff_toInt_lt.symm
    have hgt : compare a.toInt b.toInt = .gt ↔ b < a := Int.compare_eq_gt.trans Int64.lt_iff_toInt_lt.symm
    have heq : compare a.toInt b.toInt = .eq ↔ a = b := Int.compare_eq_eq.trans Int64.toInt_inj
    exact {
      eq := by rw [hholds rfl, List.mem_singleton, heq]
      neq := by
        rw [hholds rfl, ne_eq, ← heq]
        cases compare a.toInt b.toInt <;> decide
      gt := by rw [hholds rfl, List.mem_singleton, hgt]
      gte := by
        rw [hholds rfl, ← Int64.not_lt, ← hlt]
        cases compare a.toInt b.toInt <;> decide
      lt := by rw [hholds rfl, List.mem_singleton, hlt]
      lte := by
        rw [hholds rfl, ← Int64.not_lt, ← hgt]
        cases compare a.toInt b.toInt <;> decide }

/-- What doubles tell apart stands in the order of the integers. -/
theorem lt_of_asking_lt (hr : record p.field = some (.int a)) (hfirst : o.first? = some (.int b))
    (h : (p.asking .lt o).matches record) : a < b := by
  have hkey := Int.compare_eq_lt.mp (List.mem_singleton.mp ((asking_int_iff hr hfirst rfl).mp h))
  refine Int64.lt_iff_toInt_lt.mpr (Int.not_le.mp fun hle => ?_)
  exact absurd (Binary64.key_mono hle) (Int.not_le.mpr hkey)

theorem lt_of_asking_gt (hr : record p.field = some (.int a)) (hfirst : o.first? = some (.int b))
    (h : (p.asking .gt o).matches record) : b < a := by
  have hkey := Int.compare_eq_gt.mp (List.mem_singleton.mp ((asking_int_iff hr hfirst rfl).mp h))
  refine Int64.lt_iff_toInt_lt.mpr (Int.not_le.mp fun hle => ?_)
  exact absurd (Binary64.key_mono hle) (Int.not_le.mpr hkey)

theorem lists_exactly_iff (hr : record p.field = some (.int a)) (bs : List Int64) :
    let holds (k : Comparison) : Prop := (p.asking k (.list (bs.map .int))).matches record
    (holds .oneOf ↔ a ∈ bs) ∧ (holds .noneOf ↔ a ∉ bs) ↔ a ∈ bs ∨ ∀ b ∈ bs, KeptApart a b := by
  intro holds
  have hone : ∀ b : Int64, (p.asking .eq (.single (.int b))).matches record ↔ SameDouble a b := by
    intro b
    rw [asking_matches hr]
    exact Scalar.looselyEqual_int_iff a b
  refine finds_exactly_iff ?_ ?_
  · refine (asking_oneOf_iff hr _).trans ?_
    simp [Operand.toList, hone]
  · refine (asking_noneOf_iff hr _).trans ?_
    show _ ↔ ¬ (p.asking .oneOf _).matches record
    rw [asking_oneOf_iff hr]
    simp

theorem stores_exactly_iff (hd : SeparatesIntegers p.delimiter)
    (hr : record p.field = some (.text (joined p.delimiter as))) (hfirst : o.first? = some (.int b)) :
    let holds (k : Comparison) : Prop := (p.asking k o).matches record
    (holds .memberOf ↔ b ∈ as) ∧ (holds .notMemberOf ↔ b ∉ as) ↔ b ∈ as ∨ ∀ a ∈ as, KeptApart b a := by
  intro holds
  have hhas : holds .memberOf ↔ (Scalar.text (joined p.delimiter as)).setHas (.int b) p.delimiter := by
    show (p.asking .memberOf o).matches record ↔ _
    rw [asking_matches hr]
    simp only [holdsOf, asking, hfirst, delimiter]
  have hlacks : holds .notMemberOf ↔ ¬ (Scalar.text (joined p.delimiter as)).setHas (.int b) p.delimiter := by
    show (p.asking .notMemberOf o).matches record ↔ _
    rw [asking_matches hr]
    simp only [holdsOf, asking, hfirst, delimiter, Bool.not_eq_true', Bool.not_eq_true]
  exact finds_exactly_iff (hhas.trans (setHas_joined_iff hd as b)) (hlacks.trans (not_congr hhas.symm))

/-- Integers are compared with an integer, with a list of them and with a stored set of them as the
    doubles next to them: exactly where none is taken for another, which is never so below 2⁵³. -/
theorem integers_compare_as_doubles (p : Predicate) (record : Record) :
    (∀ a, record p.field = some (.int a) →
      (∀ b o, o.first? = some (.int b) →
        let holds (k : Comparison) : Prop := (p.asking k o).matches record
        (ComparesExactly holds a b ↔ KeptApart a b) ∧ (holds .lt → a < b) ∧ (holds .gt → b < a)) ∧
      ∀ bs : List Int64,
        let holds (k : Comparison) : Prop := (p.asking k (.list (bs.map .int))).matches record
        (holds .oneOf ↔ a ∈ bs) ∧ (holds .noneOf ↔ a ∉ bs) ↔ a ∈ bs ∨ ∀ b ∈ bs, KeptApart a b) ∧
      (∀ as b o, SeparatesIntegers p.delimiter → record p.field = some (.text (joined p.delimiter as)) →
        o.first? = some (.int b) →
        let holds (k : Comparison) : Prop := (p.asking k o).matches record
        (holds .memberOf ↔ b ∈ as) ∧ (holds .notMemberOf ↔ b ∉ as) ↔ b ∈ as ∨ ∀ a ∈ as, KeptApart b a) ∧
      ∀ a b : Int64, a.toInt.natAbs < 2 ^ 53 ∨ b.toInt.natAbs < 2 ^ 53 → KeptApart a b := by
  refine ⟨fun a hr => ⟨fun b o hfirst => ⟨?_, ?_, ?_⟩, lists_exactly_iff hr⟩, fun as b o hd hr hfirst => ?_,
    fun a b => keptApart_of_lt⟩
  · exact compares_exactly_iff hr hfirst
  · exact lt_of_asking_lt hr hfirst
  · exact lt_of_asking_gt hr hfirst
  · exact stores_exactly_iff hd hr hfirst

end Predicate

/-! ## Identifiers on both sides of 2⁵³ -/

def identifierPredicate : Predicate := ⟨"id", .eq, .single (.int 7), some "|"⟩

def identifierRecord (s : Scalar) : Record := fun field => if field = "id" then some s else none

/-- Below 2⁵³ an integer is told from its neighbour, alone, in a list and in a stored set. -/
theorem an_identifier_is_told_from_the_next_one :
    let p := identifierPredicate
    let integer := identifierRecord (.int 9007199254740991)
    let stored := identifierRecord (.text (joined "|" [-7, 9007199254740991]))
    let next : Operand := .single (.int 9007199254740992)
    SeparatesIntegers p.delimiter ∧ ¬ (p.asking .eq next).matches integer ∧ (p.asking .lt next).matches integer ∧
      (p.asking .noneOf (.list ([9007199254740992, 5].map .int))).matches integer ∧
      (p.asking .notMemberOf next).matches stored := by
  intro p integer stored next
  have hseparates : SeparatesIntegers p.delimiter := by decide
  obtain ⟨hinteger, -, hsmall⟩ := Predicate.integers_compare_as_doubles p integer
  obtain ⟨-, hstored, -⟩ := Predicate.integers_compare_as_doubles p stored
  obtain ⟨hone, hlist⟩ := hinteger 9007199254740991 rfl
  have hexact := (hone 9007199254740992 next rfl).1.mpr (hsmall _ _ (.inl (by decide)))
  refine ⟨hseparates, fun heq => absurd (hexact.eq.mp heq) (by decide), hexact.lt.mpr (by decide), ?_, ?_⟩
  · exact ((hlist [9007199254740992, 5]).mpr (.inr fun b _ => hsmall _ b (.inl (by decide)))).2.mpr (by decide)
  · have hapart : ∀ a ∈ ([-7, 9007199254740991] : List Int64), KeptApart 9007199254740992 a := by
      simp only [List.forall_mem_cons]
      exact ⟨hsmall _ _ (.inr (by decide)), hsmall _ _ (.inr (by decide)), by simp⟩
    exact ((hstored [-7, 9007199254740991] 9007199254740992 next hseparates rfl rfl).mpr (.inr hapart)).2.mpr
      (by decide)

/-- From 2⁵³ on the test for an identifier lets the record with the one before it through. -/
theorem an_identifier_lets_the_one_before_through :
    let p := identifierPredicate
    let integer := identifierRecord (.int 9007199254740992)
    let stored := identifierRecord (.text (joined "|" [9007199254740992]))
    let next : Operand := .single (.int 9007199254740993)
    (9007199254740992 : Int64) < 9007199254740993 ∧ (p.asking .eq next).matches integer ∧
      ¬ (p.asking .lt next).matches integer ∧ (p.asking .oneOf (.list [.int 9007199254740993])).matches integer ∧
      (p.asking .memberOf next).matches stored := by
  decide +kernel

end RulePlan
