/-
  RulePlan.Proofs.Sql.Membership — membership in a stored set, in each dialect.

  A membership test is read on a record with the functions of its dialect: the place of
  a text in a list with commas, replacing in a text, the parts of a text between
  delimiters. NULL has no answer. The stored texts here are clean: every part is free
  of blanks at its ends and either the text of an option code or not a number at all.

  Proved: on clean texts, PostgreSQL answers a test for a code as `Predicate.matches`
  does, whatever the delimiter. MySQL also finds a code between the commas inside a
  part, because it puts commas in the place of the delimiters and cuts at all of them;
  so it gives the same answer exactly when no code that stands so is missing from the
  parts (`membership_matches_iff`). The default delimiter, and parts without commas,
  are cases of that.
-/

import RulePlan.Proofs.Plan.Integers
import RulePlan.Proofs.Text.Replace
import RulePlan.Sql.Test

namespace RulePlan.Sql

/-! ## Membership tests on a record -/

/-- The parts of a text between delimiters, which are not empty. -/
def parts (delimiter s : String) : List String := (Text.splitOn delimiter.toList s.toList).map String.ofList

def replace (target replacement s : String) : String :=
  String.ofList (Text.replaceAll target.toList replacement.toList s.toList)

/-- The place of a text in a list with commas, counted from 1; 0 when it is not there. -/
def place (wanted list : String) : Nat :=
  if wanted ∈ parts "," list then (parts "," list).idxOf wanted + 1 else 0

/-- The text of a term. Flags and doubles are left out: the dialects write them in different ways. -/
def Term.text? (record : Record) : Term → Option String
  | .null => none
  | .column name => (record name).map Scalar.asText
  | .value (.int n) => some (toString n.toInt)
  | .value (.text s) => some s
  | .value _ => none
  | .replaced t target replacement => (t.text? record).map (replace target replacement)

/-- The answer of a membership test; NULL and tests of other kinds have none. -/
def Test.member? (record : Record) : Test → Option Bool
  | .inCommaList negated wanted stored => do
    let position := place (← wanted.text? record) (← stored.text? record)
    some (if negated then position = 0 else 0 < position)
  | .amongParts negated wanted stored delimiter => do
    let found := (← wanted.text? record) ∈ parts delimiter (← stored.text? record)
    some (if negated then ¬ found else found)
  | _ => none

/-- A part of a stored set that means a code or no number. -/
structure CleanPart (part : String) : Prop where
  trimmed : Text.trim part = part
  code_or_not : (∃ n, IsCode n ∧ part = toString n) ∨ Scalar.textNumber? part = none

/-! ## Parts of a text -/

variable {delimiter s part : String}

/-- The parts of a list with commas, which hold no comma. -/
theorem parts_comma (s : String) : parts "," s = (Text.splitWhere (· == ',') s.toList).map String.ofList :=
  congrArg _ (Text.splitOn_singleton ',' s.toList)

theorem parts_comma_of_not_mem (h : ',' ∉ s.toList) : parts "," s = [s] := by
  have hpiece : Text.splitWhere (· == ',') s.toList = [s.toList] :=
    Text.splitWhere_of_no_separator fun d hd => beq_eq_false_iff_ne.mpr fun e => h (e ▸ hd)
  rw [parts_comma, hpiece, List.map_singleton, String.ofList_toList]

theorem parts_comma_of_mem (h : part ∈ parts "," s) : parts "," part = [part] := by
  rw [parts_comma] at h
  obtain ⟨piece, hpiece, rfl⟩ := List.mem_map.mp h
  refine parts_comma_of_not_mem ?_
  rw [String.toList_ofList]
  intro hcomma
  exact absurd (Text.not_isSeparator_of_mem_piece hpiece ',' hcomma) (by decide)

/-- Where delimiters have become commas, the parts have parts of their own. -/
theorem parts_comma_replace (hd : delimiter ≠ "") (s : String) :
    parts "," (replace delimiter "," s) = (parts delimiter s).flatMap (parts ",") := by
  obtain ⟨c, separator, hdelimiter⟩ := List.exists_cons_of_ne_nil fun h => hd (String.toList_eq_nil_iff.mp h)
  have hreplace : (replace delimiter "," s).toList = [','].intercalate (Text.splitOn delimiter.toList s.toList) := by
    rw [replace, String.toList_ofList]
    rfl
  have hne : Text.splitOn delimiter.toList s.toList ≠ [] := by
    rw [hdelimiter]
    exact Text.splitAfter_ne_nil _ _ _
  rw [parts_comma, hreplace, Text.splitWhere_intercalate (by decide) hne, List.map_flatMap, parts, List.flatMap_map]
  refine List.flatMap_congr fun piece _ => ?_
  rw [parts_comma, String.toList_ofList]

/-! ## The evaluator on clean parts -/

variable {n : Int64} {record : Record}

theorem CleanPart.looselyEqual_iff (h : CleanPart part) (hn : IsCode n.toInt) :
    (Scalar.text part).looselyEqual (.int n) ↔ part = toString n.toInt := by
  obtain ⟨m, hm, rfl⟩ | hnone := h.code_or_not
  · rw [Scalar.looselyEqual_decimal_iff hm.lt_overflow]
    constructor
    · intro hkey
      exact congrArg toString (Binary64.eq_of_key_eq (.inr hn.lt_two_pow) hkey)
    · intro hsame
      rw [toString_injective hsame]
  · exact Scalar.looselyEqual_of_no_number hnone n

theorem setHas_iff (hclean : ∀ part ∈ parts delimiter s, CleanPart part) (hn : IsCode n.toInt) :
    (Scalar.text s).setHas (.int n) delimiter ↔ toString n.toInt ∈ parts delimiter s := by
  unfold Scalar.setHas
  rw [List.any_eq_true, parts, List.mem_map]
  refine exists_congr fun piece => and_congr_right fun hpiece => ?_
  have hpart := hclean (String.ofList piece) (List.mem_map_of_mem hpiece)
  have htrim : String.ofList (Text.strip piece) = String.ofList piece := by simpa [Text.trim] using hpart.trimmed
  rw [htrim]
  exact hpart.looselyEqual_iff hn

/-! ## The answers of the dialects -/

variable {negated : Bool} {wanted stored : Term} {x : String}

theorem place_pos_iff : 0 < place x s ↔ x ∈ parts "," s := by
  unfold place
  split <;> simp_all

theorem place_eq_zero_iff : place x s = 0 ↔ x ∉ parts "," s := by
  rw [← place_pos_iff, Nat.not_lt, Nat.le_zero_eq]

theorem member?_inCommaList (hwanted : wanted.text? record = some x) (hstored : stored.text? record = some s) :
    (Test.inCommaList negated wanted stored).member? record = some (negated ^^ decide (x ∈ parts "," s)) := by
  cases negated <;> simp [Test.member?, hwanted, hstored, place_pos_iff, place_eq_zero_iff]

theorem member?_amongParts (hwanted : wanted.text? record = some x) (hstored : stored.text? record = some s) :
    (Test.amongParts negated wanted stored delimiter).member? record =
      some (negated ^^ decide (x ∈ parts delimiter s)) := by
  cases negated <;> simp [Test.member?, hwanted, hstored]

/-- A predicate that asks for a code in the set of a column, or for its absence. -/
structure AsksForCode (p : Predicate) (negated : Bool) (n : Int64) : Prop where
  comparison : p.comparison = if negated then .notMemberOf else .memberOf
  wanted : p.operand.first? = some (.int n)

variable {p : Predicate}

namespace AsksForCode

theorem ofPredicate_eq (h : AsksForCode p negated n) (d : Dialect) :
    Test.ofPredicate d p = membership d negated p := by
  have hcomparison := h.comparison
  cases negated <;> simp [Test.ofPredicate, hcomparison]

theorem text?_first (h : AsksForCode p negated n) : (Term.first p.operand).text? record = some (toString n.toInt) := by
  rw [Term.first, h.wanted]
  rfl

theorem matches_eq (h : AsksForCode p negated n) (hn : IsCode n.toInt) (hstored : record p.field = some (.text s))
    (hclean : ∀ part ∈ parts p.delimiter s, CleanPart part) :
    p.matches record = (negated ^^ decide (toString n.toInt ∈ parts p.delimiter s)) := by
  have hcomparison := h.comparison
  have hset : (Scalar.text s).setHas (.int n) p.delimiter = decide (toString n.toInt ∈ parts p.delimiter s) :=
    Bool.eq_iff_iff.mpr ((setHas_iff hclean hn).trans decide_eq_true_iff.symm)
  rw [Predicate.matches, hstored, ← hset]
  cases negated <;> simp [Predicate.holdsOf, hcomparison, h.wanted]

theorem postgres_member? (h : AsksForCode p negated n) (hstored : record p.field = some (.text s)) :
    (Test.ofPredicate .postgres p).member? record =
      some (negated ^^ decide (toString n.toInt ∈ parts p.delimiter s)) := by
  rw [h.ofPredicate_eq]
  exact member?_amongParts h.text?_first (congrArg (Option.map Scalar.asText) hstored)

/-- The commas that stand for delimiters and those inside a part are one to MySQL. -/
theorem mysql_member? (h : AsksForCode p negated n) (hd : p.delimiter ≠ "")
    (hstored : record p.field = some (.text s)) :
    (Test.ofPredicate .mysql p).member? record =
      some (negated ^^ decide (toString n.toInt ∈ (parts p.delimiter s).flatMap (parts ","))) := by
  have hcolumn : (Term.column p.field).text? record = some s := congrArg (Option.map Scalar.asText) hstored
  rw [h.ofPredicate_eq, membership]
  by_cases hdefault : p.delimiter = defaultDelimiter
  · have hparts : (parts p.delimiter s).flatMap (parts ",") = parts "," s := by
      rw [hdefault]
      exact (List.flatMap_congr fun part hpart => parts_comma_of_mem hpart).trans (List.flatMap_singleton' _)
    rw [if_pos hdefault, hparts]
    exact member?_inCommaList h.text?_first hcolumn
  · have hreplaced :
        (Term.replaced (.column p.field) p.delimiter ",").text? record = some (replace p.delimiter "," s) :=
      congrArg (Option.map _) hcolumn
    rw [if_neg hdefault, ← parts_comma_replace hd]
    exact member?_inCommaList h.text?_first hreplaced

end AsksForCode

/-- PostgreSQL and the evaluator look for a code among the parts. MySQL looks among the parts of the parts,
    where each part that is a code is its own only part. -/
theorem membership_matches_iff (h : AsksForCode p negated n) (hn : IsCode n.toInt) (hd : p.delimiter ≠ "")
    (hstored : record p.field = some (.text s)) (hclean : ∀ part ∈ parts p.delimiter s, CleanPart part) :
    (Test.ofPredicate .postgres p).member? record = some (p.matches record) ∧
      ((Test.ofPredicate .mysql p).member? record = some (p.matches record) ↔
        ∀ part ∈ parts p.delimiter s, toString n.toInt ∈ parts "," part → toString n.toInt ∈ parts p.delimiter s) := by
  rw [h.matches_eq hn hstored hclean, h.postgres_member? hstored, h.mysql_member? hd hstored]
  refine ⟨rfl, ?_⟩
  have hself : toString n.toInt ∈ parts "," (toString n.toInt) := by
    rw [parts_comma_of_not_mem (comma_not_mem_toString _)]
    exact List.mem_singleton_self _
  rw [Option.some.injEq, Bool.xor_right_inj, decide_eq_decide, List.mem_flatMap]
  constructor
  · intro hsame part hpart hmem
    exact hsame.mp ⟨part, hpart, hmem⟩
  · intro hfound
    exact ⟨fun ⟨part, hpart, hmem⟩ => hfound part hpart hmem, fun hmem => ⟨_, hmem, hself⟩⟩

/-! ## Two stored sets -/

def sizesPredicate : Predicate := ⟨"sizes", .memberOf, .single (.int 12), some "|"⟩

def sizesRecord (stored : String) : Record := fun field => if field = "sizes" then some (.text stored) else none

/-- A part with a comma does no harm where no part of it is the code. -/
theorem a_code_beside_a_part_with_a_comma_is_found_by_all :
    let record := sizesRecord "12|a,b"
    (Test.ofPredicate .postgres sizesPredicate).member? record = some (sizesPredicate.matches record) ∧
      (Test.ofPredicate .mysql sizesPredicate).member? record = some (sizesPredicate.matches record) := by
  have hasks : AsksForCode sizesPredicate false 12 := ⟨rfl, rfl⟩
  have hstored : sizesRecord "12|a,b" sizesPredicate.field = some (.text "12|a,b") := rfl
  have hclean : ∀ part ∈ parts "|" "12|a,b", CleanPart part := by
    rw [show parts "|" "12|a,b" = ["12", "a,b"] by decide]
    simp only [List.forall_mem_cons]
    exact ⟨⟨by decide, .inl ⟨12, by decide, by decide⟩⟩, ⟨by decide, .inr (by decide)⟩, by simp⟩
  obtain ⟨hpostgres, hmysql⟩ := membership_matches_iff hasks (by decide) (by decide) hstored hclean
  exact ⟨hpostgres, hmysql.mpr (by decide)⟩

/-- The text under the default delimiter holds the code; under another one it is a single part. -/
theorem mysql_finds_a_code_inside_a_part :
    let record := sizesRecord "13,12"
    IsCode 12 ∧ (∀ part ∈ parts "|" "13,12", CleanPart part) ∧
      (Test.ofPredicate .mysql sizesPredicate).member? record = some true ∧
      (Test.ofPredicate .postgres sizesPredicate).member? record = some false ∧
      sizesPredicate.matches record = false := by
  have hclean : ∀ part ∈ parts "|" "13,12", CleanPart part := by
    rw [show parts "|" "13,12" = ["13,12"] by decide]
    simp only [List.forall_mem_cons]
    exact ⟨⟨by decide, .inr (by decide)⟩, by simp⟩
  exact ⟨by decide, hclean, by decide, by decide, by decide⟩

end RulePlan.Sql
