/-
  RulePlan.Proofs.Compile.StoredSets — attributes that store sets, end to end.

  Such an attribute stores a text; its members are the pieces between the delimiters,
  without the blanks around them (`Text.members`). A condition that lists is expanded to
  one membership test or one exclusion for each value, the delimiter goes along with
  every test, the aggregator decides which tests share a group, and the plan cuts the
  stored text anew for each of them.

  Proved, for every delimiter, value and stored text (`compile_storedSet`): `is one of`
  asks below an `any` for one of its values among the members and below an `all` for all
  of them, `is not one of` asks below both that none of them is. So the plan sees
  nothing of the text but which members it has: it may list them in another order,
  repeatedly, or with blanks around them.
-/

import RulePlan.Proofs.Compile.Level

namespace RulePlan

/-! ## Members -/

/-- The members of the set that is stored in a text. -/
def Text.members (delimiter stored : String) : List String :=
  (splitOn delimiter.toList stored.toList).map fun piece => String.ofList (strip piece)

/-- One of the members is equal to the scalar, as `eq` compares. -/
def Scalar.IsMember (delimiter stored : String) (w : Scalar) : Prop :=
  ∃ m ∈ Text.members delimiter stored, looselyEqual (.text m) w

theorem Scalar.setHas_text {stored delimiter : String} {w : Scalar} :
    (text stored).setHas w delimiter ↔ w.IsMember delimiter stored := by
  simp [setHas, IsMember, Text.members, asText]

/-- Only the set of the members counts. -/
theorem Scalar.isMember_congr {delimiter stored stored' : String} (w : Scalar)
    (h : ∀ m, m ∈ Text.members delimiter stored' ↔ m ∈ Text.members delimiter stored) :
    w.IsMember delimiter stored' ↔ w.IsMember delimiter stored := by
  constructor
  · rintro ⟨m, hm, he⟩
    exact ⟨m, (h m).mp hm, he⟩
  · rintro ⟨m, hm, he⟩
    exact ⟨m, (h m).mpr hm, he⟩

/-- The delimiter of the stored sets; the empty one stands for the default. -/
def Attribute.separator (a : Attribute) : String := if a.delimiter = "" then defaultDelimiter else a.delimiter

namespace Attribute

variable {a : Attribute} {code stored : String} {record : Record} {w : Scalar}

theorem delimiter_memberTest (a : Attribute) (code : String) (k : Comparison) (w : Scalar) :
    (a.memberTest code k w).delimiter = a.separator := by
  unfold memberTest Predicate.withDelimiter Predicate.delimiter separator
  by_cases he : a.delimiter = ""
  · simp [he]
  · by_cases hd : a.delimiter = defaultDelimiter
    · simp [hd]
    · simp [he, hd]

theorem matches_memberTest (hr : record code = some (.text stored)) (k : Comparison) :
    (a.memberTest code k w).matches record = (a.memberTest code k w).holdsOf (.text stored) := by
  have hfield : record (a.memberTest code k w).field = some (.text stored) := hr
  rw [Predicate.matches, hfield]

theorem memberTest_matches (hr : record code = some (.text stored)) :
    (a.memberTest code .memberOf w).matches record ↔ w.IsMember a.separator stored := by
  have hholds : (a.memberTest code .memberOf w).holdsOf (.text stored) =
      (Scalar.text stored).setHas w (a.memberTest code .memberOf w).delimiter := rfl
  rw [matches_memberTest hr, hholds, a.delimiter_memberTest, Scalar.setHas_text]

theorem exclusion_matches (hr : record code = some (.text stored)) :
    (a.memberTest code .notMemberOf w).matches record ↔ ¬ w.IsMember a.separator stored := by
  have hholds : (a.memberTest code .notMemberOf w).holdsOf (.text stored) =
      !(Scalar.text stored).setHas w (a.memberTest code .notMemberOf w).delimiter := rfl
  rw [matches_memberTest hr, hholds, a.delimiter_memberTest, ← Scalar.setHas_text, Bool.not_eq_true',
    Bool.not_eq_true]

end Attribute

/-! ## Plans -/

/-- The field names an attribute that is there and stores sets. -/
structure StoresSets (lookup : Lookup) (f : String) (a : Attribute) : Prop where
  named : Text.trim f ≠ "" ∧ Text.trim f ≠ hasImageField ∧ Text.trim f ≠ entityIdField
  known : lookup (Text.trim f) = .ok a
  present : a.present
  codeSet : a.storage = .codeSet

namespace StoresSets

variable {lookup : Lookup} {limit : Nat} {f : String} {a : Attribute} {v : FormValue} {record : Record} {stored : String}

/-- One test for each value that is listed. -/
theorem granted_eq (h : StoresSets lookup f a) (v : FormValue) {o : Operator} (hk : o.comparison.Listing) :
    (⟨f, o.symbol, v⟩ : Condition).granted lookup =
      (v.toList.map Scalar.asCode).map (a.memberTest (Text.trim f) o.comparison.membership) := by
  have hcode : (⟨f, o.symbol, v⟩ : Condition).code? = some (Text.trim f) :=
    Condition.code?_eq_some_iff.mpr ⟨rfl, h.named⟩
  have ha : usable? (lookup (Text.trim f)) = some a := by rw [h.known, usable?, if_pos h.present]
  have hreading : a.storage.reading = Scalar.asCode := by
    rw [h.codeSet]
    rfl
  rw [Condition.granted_members hcode ha h.codeSet hk (comparisonOf_symbol o), hreading]

theorem any_oneOf_iff (h : StoresSets lookup f a) (hlimit : 1 ≤ limit) (hv : v.toList ≠ [])
    (hr : record (Text.trim f) = some (.text stored)) :
    (compile lookup limit ⟨.any, [.condition ⟨f, Operator.oneOf.symbol, v⟩]⟩).plan.matches record ↔
      ∃ w ∈ v.toList.map Scalar.asCode, w.IsMember a.separator stored := by
  have hshares : ∀ p ∈ (v.toList.map Scalar.asCode).map (a.memberTest (Text.trim f) .memberOf),
      p.comparison ≠ .notMemberOf := by
    intro p hp
    rw [Attribute.comparison_of_memberTest hp]
    decide
  have haccepts := Condition.accepts_of_granted (h.granted_eq v (o := .oneOf) (.inl rfl)) hshares
  rw [lone_accepts_iff hlimit haccepts]
  constructor
  · intro hm
    obtain ⟨p, hp, hm⟩ := hm (by simpa using hv)
    obtain ⟨w, hw, rfl⟩ := List.mem_map.mp hp
    exact ⟨w, hw, (Attribute.memberTest_matches hr).mp hm⟩
  · rintro ⟨w, hw, hmember⟩ -
    exact ⟨_, List.mem_map_of_mem hw, (Attribute.memberTest_matches hr).mpr hmember⟩

theorem all_oneOf_iff (h : StoresSets lookup f a) (hlimit : 1 ≤ limit)
    (hr : record (Text.trim f) = some (.text stored)) :
    (compile lookup limit ⟨.all, [.condition ⟨f, Operator.oneOf.symbol, v⟩]⟩).plan.matches record ↔
      ∀ w ∈ v.toList.map Scalar.asCode, w.IsMember a.separator stored := by
  rw [lone_matches_iff hlimit, h.granted_eq v (.inl rfl), Aggregator.apart, Aggregator.shared, List.forall_mem_map]
  simp only [ne_eq, not_true_eq_false, false_implies, and_true]
  exact forall₂_congr fun w _ => Attribute.memberTest_matches hr

theorem notOneOf_iff (h : StoresSets lookup f a) (hlimit : 1 ≤ limit)
    (hr : record (Text.trim f) = some (.text stored)) (aggregator : Aggregator) :
    (compile lookup limit ⟨aggregator, [.condition ⟨f, Operator.notOneOf.symbol, v⟩]⟩).plan.matches record ↔
      ∀ w ∈ v.toList.map Scalar.asCode, ¬ w.IsMember a.separator stored := by
  have hexcludes : ∀ p ∈ (v.toList.map Scalar.asCode).map (a.memberTest (Text.trim f) .notMemberOf),
      p.comparison = .notMemberOf := fun p hp => Attribute.comparison_of_memberTest hp
  have hrefuses := Condition.refuses_of_granted (h.granted_eq v (o := .notOneOf) (.inr rfl)) (.inl hexcludes)
  rw [lone_refuses_iff hlimit hrefuses, List.forall_mem_map]
  exact forall₂_congr fun w _ => Attribute.exclusion_matches hr

end StoresSets

/-- On an attribute that stores sets, `is one of` asks below an `any` for one of the listed codes
    among the members of the stored text and below an `all` for all of them, and `is not one of`
    asks below both that none of them is a member. Texts with the same members get the same
    answers. -/
theorem compile_storedSet {lookup : Lookup} {limit : Nat} {f : String} {a : Attribute} {v : FormValue} {record : Record}
    {stored : String} (h : StoresSets lookup f a) (hlimit : 1 ≤ limit) (hv : v.toList ≠ [])
    (hr : record (Text.trim f) = some (.text stored)) :
    let wanted := v.toList.map Scalar.asCode
    let plan (aggregator : Aggregator) (o : Operator) :=
      (compile lookup limit ⟨aggregator, [.condition ⟨f, o.symbol, v⟩]⟩).plan
    ((plan .any .oneOf).matches record ↔ ∃ w ∈ wanted, w.IsMember a.separator stored) ∧
      ((plan .all .oneOf).matches record ↔ ∀ w ∈ wanted, w.IsMember a.separator stored) ∧
      (∀ aggregator, (plan aggregator .notOneOf).matches record ↔ ∀ w ∈ wanted, ¬ w.IsMember a.separator stored) ∧
      ∀ (other : Record) (stored' : String), other (Text.trim f) = some (.text stored') →
        (∀ m, m ∈ Text.members a.separator stored' ↔ m ∈ Text.members a.separator stored) →
        ∀ aggregator, ∀ o ∈ [Operator.oneOf, Operator.notOneOf],
          (plan aggregator o).matches other = (plan aggregator o).matches record := by
  intro wanted plan
  refine ⟨h.any_oneOf_iff hlimit hv hr, h.all_oneOf_iff hlimit hr, h.notOneOf_iff hlimit hr, ?_⟩
  intro other stored' hother hsame aggregator o ho
  have hmember : ∀ w : Scalar, w.IsMember a.separator stored' ↔ w.IsMember a.separator stored :=
    fun w => w.isMember_congr hsame
  rw [Bool.eq_iff_iff]
  rcases List.mem_pair.mp ho with rfl | rfl
  · cases aggregator with
    | all =>
      rw [h.all_oneOf_iff hlimit hother, h.all_oneOf_iff hlimit hr]
      simp only [hmember]
    | any =>
      rw [h.any_oneOf_iff hlimit hv hother, h.any_oneOf_iff hlimit hv hr]
      simp only [hmember]
  · rw [h.notOneOf_iff hlimit hother, h.notOneOf_iff hlimit hr]
    simp only [hmember]

/-- The second text lists the members of the first in another order, one of them twice, and with
    blanks around them. -/
theorem a_set_with_a_listed_code_matches_however_it_is_written :
    let colors : Attribute := { storage := .codeSet, delimiter := "|" }
    let lookup : Lookup := fun _ => .ok colors
    let v : FormValue := .single (.text "blue; red")
    let tree : Tree := ⟨.any, [.condition ⟨" color", "()", v⟩]⟩
    let stored (s : String) : Record := fun field => if field = "color" then some (.text s) else none
    StoresSets lookup " color" colors ∧ 1 ≤ 1 ∧ v.toList ≠ [] ∧
      stored "1|Red" (Text.trim " color") = some (.text "1|Red") ∧
      (compile lookup 1 tree).plan.matches (stored "1|Red") ∧
      (compile lookup 1 tree).plan.matches (stored "Red | 1|1 ") := by
  intro colors lookup v tree stored
  have h : StoresSets lookup " color" colors := ⟨by decide, rfl, rfl, rfl⟩
  have hv : v.toList ≠ [] := by decide
  have hr : stored "1|Red" (Text.trim " color") = some (.text "1|Red") := by decide
  have hr' : stored "Red | 1|1 " (Text.trim " color") = some (.text "Red | 1|1 ") := by decide
  have hsame : ∀ m, m ∈ Text.members colors.separator "Red | 1|1 " ↔ m ∈ Text.members colors.separator "1|Red" := by
    have hmembers : Text.members colors.separator "1|Red" = ["1", "Red"] := by decide
    have hmembers' : Text.members colors.separator "Red | 1|1 " = ["Red", "1", "1"] := by decide
    intro m
    rw [hmembers, hmembers']
    simp [or_comm]
  obtain ⟨hany, -, -, hcongr⟩ := compile_storedSet h (Nat.le_refl 1) hv hr
  have hm : (compile lookup 1 tree).plan.matches (stored "1|Red") :=
    hany.mpr ⟨.text "red", by decide, "Red", by decide, by decide⟩
  refine ⟨h, by decide, hv, hr, hm, ?_⟩
  exact (hcongr (stored "Red | 1|1 ") "Red | 1|1 " hr' hsame .any .oneOf (by decide)).trans hm

end RulePlan
