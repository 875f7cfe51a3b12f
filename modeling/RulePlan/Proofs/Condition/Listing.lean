/-
  RulePlan.Proofs.Condition.Listing — what conditions that list say of a record.

  `is one of` and `is not one of` take a list, `is` and `is not` a single scalar, and
  they come by their predicates in different ways: an identifier is always listed and
  every text among the identifiers is cut into tokens, an attribute that stores sets
  gets one membership test for each value, any other attribute one predicate with the
  whole list. What they say is the same. `Condition.Accepts` and `Condition.Refuses`
  compare a condition with a list of predicates: it lets a record through if one of
  them does, or if all of them do.

  Each field has its tests (`FieldTest`): the scalars that a submitted scalar stands
  for, a predicate that asks for such a scalar and one that asks for its absence.
  Proved: `is one of` accepts what one of the tests for the listed values accepts, as
  does `is` for its value; `is not one of` and `is not` refuse what the tests against
  these values refuse (`FieldTest.exists_describes`). And a text says the same to a
  condition that lists as the list of its tokens (`Condition.expansion_tokens`).
-/

import RulePlan.Plan.Match
import RulePlan.Proofs.Compile.Contribution
import RulePlan.Proofs.Condition.Expansion
import RulePlan.Proofs.Tokens

namespace RulePlan

variable {lookup : Lookup} {record : Record}

/-! ## Lists of alternatives -/

namespace Predicate

variable {field : String} {ws : List Scalar}

theorem oneOf_matches_iff : ({ field, comparison := .oneOf, operand := .list ws } : Predicate).matches record ↔
    ∃ w ∈ ws, (single field .eq w).matches record := by
  cases h : record field with
  | none => simp [Predicate.matches, single, h]
  | some actual => simp [Predicate.matches, single, h, holdsOf, Operand.toList, Operand.first?]

theorem noneOf_matches_iff (hne : ws ≠ []) :
    ({ field, comparison := .noneOf, operand := .list ws } : Predicate).matches record ↔
      ∀ w ∈ ws, (single field .neq w).matches record := by
  cases h : record field with
  | none =>
    obtain ⟨w, hw⟩ := List.exists_mem_of_ne_nil ws hne
    simp only [Predicate.matches, single, h]
    constructor
    · intro hcon
      cases hcon
    · intro hall
      exact absurd (hall w hw) (by simp)
  | some actual => simp [Predicate.matches, single, h, holdsOf, Operand.toList, Operand.first?]

/-- One predicate for a whole list, none for the empty one. -/
def listed (field : String) (k : Comparison) (ws : List Scalar) : List Predicate :=
  if ws = [] then [] else [{ field, comparison := k, operand := .list ws }]

end Predicate

/-! ## Operands -/

theorem FormValue.toList_of_isAbsent {v : FormValue} (h : v.isAbsent) : v.toList = [] := by
  cases v with
  | absent => rfl
  | list items => simpa [toList, isAbsent] using h
  | single s =>
    cases s with
    | text s =>
      have hblank : Text.allBlank s := h
      simp [toList, tokens_of_allBlank hblank]
    | bool | int | float => cases h

/-- The scalar that a submitted one is compared as. -/
def Storage.reading (storage : Storage) (s : Scalar) : Scalar := if storage.isCoded then s.asCode else s

theorem Storage.reading_of_isCoded {storage : Storage} (h : storage.isCoded) : storage.reading = Scalar.asCode :=
  funext fun _ => if_pos h

theorem Operand.asCodes_eq (storage : Storage) (o : Operand) : o.asCodes storage = o.map storage.reading := by
  unfold asCodes
  split
  · next h => rw [Storage.reading_of_isCoded h]
  · next h =>
    have hr : storage.reading = id := by
      funext s
      simp [Storage.reading, h]
    rw [hr]
    cases o <;> simp [Operand.map]

theorem Comparison.Listing.takesList {k : Comparison} (h : k.Listing) : k.takesList := by
  rcases h with rfl | rfl <;> rfl

theorem normalize_list {k : Comparison} (hk : k.takesList) (v : FormValue) (storage : Storage) :
    normalize v k storage = if v.toList = [] then none else some (.list (v.toList.map storage.reading)) := by
  rw [normalize, hk, FormValue.operand?]
  by_cases hv : v.toList = []
  · simp [hv]
  · have hpresent : ¬ v.isAbsent := fun h => hv (FormValue.toList_of_isAbsent h)
    simp [hv, hpresent, Operand.asCodes_eq, Operand.map, Operand.asPattern]

theorem normalize_single {k : Comparison} (hk : k.takesList = false) (x : Scalar) (storage : Storage) :
    normalize (.single x) k storage =
      if x.isBlank then none else some ((Operand.single (storage.reading x)).asPattern k) := by
  rw [normalize, hk, FormValue.operand?]
  cases hb : x.isBlank with
  | true => simp [FormValue.isAbsent, hb]
  | false => simp [FormValue.isAbsent, FormValue.first?, hb, Operand.asCodes_eq, Operand.map]

/-! ## What conditions grant -/

/-- A test for the membership of a scalar in the stored set of an attribute, or against it. -/
def Attribute.memberTest (a : Attribute) (code : String) (k : Comparison) (w : Scalar) : Predicate :=
  (Predicate.single code k w).withDelimiter a.delimiter

theorem Attribute.comparison_of_memberTest {a : Attribute} {code : String} {k : Comparison} {ws : List Scalar}
    {p : Predicate} (hp : p ∈ ws.map (a.memberTest code k)) : p.comparison = k := by
  obtain ⟨w, -, rfl⟩ := List.mem_map.mp hp
  rfl

/-- The comparison with the members of a set that a comparison comes down to. -/
def Comparison.membership : Comparison → Comparison
  | .oneOf | .eq => .memberOf
  | .noneOf | .neq => .notMemberOf
  | k => k

namespace Condition

variable {c : Condition} {code : String} {a : Attribute}

theorem code?_eq_some_iff : c.code? = some code ↔
    Text.trim c.field = code ∧ code ≠ "" ∧ code ≠ hasImageField ∧ code ≠ entityIdField := by
  unfold code?
  simp only
  split
  · next h =>
    simp only [reduceCtorEq, false_iff]
    rintro ⟨rfl, hne⟩
    rcases h with h | h | h
    · exact hne.1 h
    · exact hne.2.1 h
    · exact hne.2.2 h
  · next h =>
    rw [Option.some.injEq]
    constructor
    · rintro rfl
      exact ⟨rfl, by simpa using h⟩
    · exact fun hc => hc.1

theorem expansion_of_code (hcode : c.code? = some code) :
    c.expansion lookup = match usable? (lookup code) with
      | none => .error .unknownAttribute
      | some a => c.attributePredicates code a := by
  obtain ⟨rfl, hne, himage, hid⟩ := code?_eq_some_iff.mp hcode
  cases ha : usable? (lookup (Text.trim c.field)) with
  | none => simp [expansion, hcode, ha, predicates, hne, himage, hid]
  | some a => simp [expansion, hcode, ha, predicates, hne, himage, hid]

theorem expansion_of_identifier (hfield : Text.trim c.field = entityIdField) :
    c.expansion lookup = c.identifierPredicate.map ([·]) := by
  have hne : entityIdField ≠ "" ∧ entityIdField ≠ hasImageField := by decide
  simp [expansion, predicates, hfield, hne]

theorem granted_of_error {reason : DropReason} (h : c.expansion lookup = .error reason) : c.granted lookup = [] := by
  simp [granted, h]

theorem granted_of_ok {ps : List Predicate} (h : c.expansion lookup = .ok ps) : c.granted lookup = ps := by
  simp [granted, h]

/-- Identifiers are listed whether the condition lists them or not. -/
theorem granted_identifiers (hfield : Text.trim c.field = entityIdField) {k : Comparison} (hk : k.Listing)
    (hop : listComparison (comparisonOf c.operator) = k) :
    c.granted lookup = Predicate.listed entityIdField k (identifiers c.value) := by
  have he : c.expansion lookup = c.identifierPredicate.map ([·]) := expansion_of_identifier hfield
  unfold identifierPredicate at he
  unfold Predicate.listed
  split at he
  · next hids =>
    rw [if_pos hids]
    exact granted_of_error he
  · next id ids hids =>
    rw [hids, if_neg (List.cons_ne_nil id ids)]
    simp only [hop] at he
    rcases hk with rfl | rfl
    · exact granted_of_ok he
    · exact granted_of_ok he

/-- What a condition on a usable attribute grants, by its operand. -/
theorem granted_of_attribute (hcode : c.code? = some code) (ha : usable? (lookup code) = some a) :
    c.granted lookup =
      match normalize c.value (comparisonOf c.operator) a.storage with
      | none => []
      | some operand =>
        if a.storage = .codeSet then setPredicates code a.delimiter (comparisonOf c.operator) operand
        else [{ field := code, comparison := comparisonOf c.operator, operand }] := by
  rw [granted, expansion_of_code hcode, ha]
  simp only [attributePredicates]
  cases normalize c.value (comparisonOf c.operator) a.storage with
  | none => rfl
  | some operand => by_cases hs : a.storage = .codeSet <;> simp [hs]

theorem setPredicates_list {k : Comparison} (hk : k.Listing) (items : List Scalar) :
    setPredicates code a.delimiter k (.list items) = items.map (a.memberTest code k.membership) := by
  rcases hk with rfl | rfl <;> rfl

theorem setPredicates_single {k : Comparison} (hk : k = .eq ∨ k = .neq) (w : Scalar) :
    setPredicates code a.delimiter k (.single w) = [a.memberTest code k.membership w] := by
  rcases hk with rfl | rfl <;> rfl

/-- A list that is compared with a single stored value. -/
theorem granted_listed (hcode : c.code? = some code) (ha : usable? (lookup code) = some a) (hs : a.storage ≠ .codeSet)
    {k : Comparison} (hk : k.Listing) (hop : comparisonOf c.operator = k) :
    c.granted lookup = Predicate.listed code k (c.value.toList.map a.storage.reading) := by
  rw [granted_of_attribute hcode ha, hop, normalize_list hk.takesList, Predicate.listed]
  by_cases hv : c.value.toList = []
  · simp [hv]
  · simp [hv, hs]

/-- A list that is compared with a stored set: one test for each value. -/
theorem granted_members (hcode : c.code? = some code) (ha : usable? (lookup code) = some a) (hs : a.storage = .codeSet)
    {k : Comparison} (hk : k.Listing) (hop : comparisonOf c.operator = k) :
    c.granted lookup = (c.value.toList.map a.storage.reading).map (a.memberTest code k.membership) := by
  rw [granted_of_attribute hcode ha, hop, normalize_list hk.takesList]
  by_cases hv : c.value.toList = []
  · simp [hv]
  · simp only [if_neg hv, if_pos hs]
    exact setPredicates_list hk _

/-- The test that a single scalar gets. -/
def singleTest (a : Attribute) (code : String) (k : Comparison) (w : Scalar) : Predicate :=
  if a.storage = .codeSet then a.memberTest code k.membership w else Predicate.single code k w

theorem granted_single (hcode : c.code? = some code) (ha : usable? (lookup code) = some a) {x : Scalar}
    (hx : c.value = .single x) {k : Comparison} (hk : k = .eq ∨ k = .neq) (hop : comparisonOf c.operator = k) :
    c.granted lookup = if x.isBlank then [] else [singleTest a code k (a.storage.reading x)] := by
  have hlist : k.takesList = false := by rcases hk with rfl | rfl <;> rfl
  have hpattern : k.takesPattern = false := by rcases hk with rfl | rfl <;> rfl
  have hplain : ∀ w, (Operand.single w).asPattern k = .single w := fun w => by simp [Operand.asPattern, hpattern]
  rw [granted_of_attribute hcode ha, hop, hx, normalize_single hlist, hplain]
  cases hb : x.isBlank with
  | true => simp
  | false =>
    by_cases hs : a.storage = .codeSet
    · simp [singleTest, hs, setPredicates_single hk]
    · simp [singleTest, hs, Predicate.single]

/-! ## What conditions say -/

/-- The condition accepts the records that one of the predicates accepts. Its own predicates may
    share a group. -/
structure Accepts (lookup : Lookup) (c : Condition) (ps : List Predicate) : Prop where
  granted_eq_nil_iff : c.granted lookup = [] ↔ ps = []
  shares : ∀ p ∈ c.granted lookup, p.comparison ≠ .notMemberOf
  matches_iff : ∀ record, (∃ p ∈ c.granted lookup, p.matches record) ↔ ∃ p ∈ ps, p.matches record

/-- The condition accepts the records that all of the predicates accept. Its own predicates stand
    apart, or it has one only. -/
structure Refuses (lookup : Lookup) (c : Condition) (ps : List Predicate) : Prop where
  apart : (∀ p ∈ c.granted lookup, p.comparison = .notMemberOf) ∨ ∃ p, c.granted lookup = [p]
  matches_iff : ∀ record, (∀ p ∈ c.granted lookup, p.matches record) ↔ ∀ p ∈ ps, p.matches record

variable {ps : List Predicate} {field : String} {ws : List Scalar}

theorem accepts_of_granted (h : c.granted lookup = ps) (hs : ∀ p ∈ ps, p.comparison ≠ .notMemberOf) :
    Accepts lookup c ps := by
  subst h
  exact ⟨Iff.rfl, hs, fun _ => Iff.rfl⟩

theorem refuses_of_granted (h : c.granted lookup = ps)
    (ht : (∀ p ∈ ps, p.comparison = .notMemberOf) ∨ ∃ p, ps = [p]) : Refuses lookup c ps := by
  subst h
  exact ⟨ht, fun _ => Iff.rfl⟩

theorem accepts_of_listed (h : c.granted lookup = Predicate.listed field .oneOf ws) :
    Accepts lookup c (ws.map (Predicate.single field .eq)) := by
  unfold Predicate.listed at h
  by_cases hne : ws = []
  · rw [if_pos hne] at h
    refine ⟨by simp [h, hne], by simp [h], ?_⟩
    simp [h, hne]
  · rw [if_neg hne] at h
    refine ⟨by simp [h, hne], by simp [h], ?_⟩
    intro record
    simp [h, Predicate.oneOf_matches_iff]

theorem refuses_of_listed (h : c.granted lookup = Predicate.listed field .noneOf ws) :
    Refuses lookup c (ws.map (Predicate.single field .neq)) := by
  unfold Predicate.listed at h
  by_cases hne : ws = []
  · rw [if_pos hne] at h
    refine ⟨.inl (by simp [h]), ?_⟩
    simp [h, hne]
  · rw [if_neg hne] at h
    refine ⟨.inr ⟨_, h⟩, ?_⟩
    intro record
    simp [h, Predicate.noneOf_matches_iff hne]

end Condition

/-! ## Tests of a field -/

/-- The scalars that a submitted scalar stands for, and the predicates for and against each. -/
structure FieldTest where
  words : Scalar → List Scalar
  has : Scalar → Predicate
  hasNot : Scalar → Predicate

/-- The conditions on a field say what its tests say. -/
structure FieldTest.Describes (lookup : Lookup) (t : FieldTest) (f : String) : Prop where
  oneOf : ∀ xs, Condition.Accepts lookup ⟨f, Operator.oneOf.symbol, .list xs⟩ ((xs.flatMap t.words).map t.has)
  is : ∀ x, Condition.Accepts lookup ⟨f, Operator.is.symbol, .single x⟩ ((t.words x).map t.has)
  notOneOf : ∀ xs, Condition.Refuses lookup ⟨f, Operator.notOneOf.symbol, .list xs⟩ ((xs.flatMap t.words).map t.hasNot)
  isNot : ∀ x, Condition.Refuses lookup ⟨f, Operator.isNot.symbol, .single x⟩ ((t.words x).map t.hasNot)

theorem comparisonOf_symbol (o : Operator) : comparisonOf o.symbol = o.comparison := by
  simp [comparisonOf, Comparison.resolve, Operator.ofSymbol?_symbol]

namespace FieldTest

variable {f code : String} {a : Attribute}

/-- Without an attribute, conditions on the field are left out. -/
theorem describes_nothing (h : ∀ operator value, ∃ reason,
    (⟨f, operator, value⟩ : Condition).expansion lookup = .error reason) :
    FieldTest.Describes lookup ⟨fun _ => [], Predicate.single f .eq, Predicate.single f .neq⟩ f := by
  have hnil : ∀ operator value, (⟨f, operator, value⟩ : Condition).granted lookup = [] := by
    intro operator value
    obtain ⟨reason, he⟩ := h operator value
    exact Condition.granted_of_error he
  have hwords : ∀ xs : List Scalar, xs.flatMap (fun _ => ([] : List Scalar)) = [] := by
    intro xs
    simp
  refine ⟨fun xs => ?_, fun x => ?_, fun xs => ?_, fun x => ?_⟩
  · rw [hwords]
    exact Condition.accepts_of_granted (hnil _ _) (by simp)
  · exact Condition.accepts_of_granted (hnil _ _) (by simp)
  · rw [hwords]
    exact Condition.refuses_of_granted (hnil _ _) (.inl (by simp))
  · exact Condition.refuses_of_granted (hnil _ _) (.inl (by simp))

/-- The pieces of a scalar among identifiers: a text is cut into its tokens. -/
def cut : Scalar → List Scalar
  | .text t => (tokens t).map Scalar.text
  | s => [s]

theorem cut_of_isBlank {x : Scalar} (h : x.isBlank) : cut x = [] := by
  cases x with
  | text s =>
    have hblank : Text.allBlank s := h
    simp [cut, tokens_of_allBlank hblank]
  | bool | int | float => cases h

theorem flatMap_cut_single (x : Scalar) : (FormValue.single x).toList.flatMap cut = cut x := by
  cases x with
  | text s =>
    have hagain : ((tokens s).map Scalar.text).flatMap cut = ((tokens s).flatMap tokens).map Scalar.text := by
      rw [List.flatMap_map, List.map_flatMap]
      rfl
    rw [FormValue.toList, hagain, tokens_flatMap_tokens, cut]
  | bool | int | float => rfl

theorem flatMap_cut_list (xs : List Scalar) : (FormValue.list xs).toList.flatMap cut = xs.flatMap cut := by
  induction xs with
  | nil => rfl
  | cons x rest ih =>
    rw [List.flatMap_cons, ← ih]
    cases hb : x.isBlank with
    | true => simp [FormValue.toList, hb, cut_of_isBlank hb]
    | false => simp [FormValue.toList, hb]

theorem identifiers_eq (v : FormValue) : Condition.identifiers v = (v.toList.flatMap cut).map Scalar.asCode := rfl

/-- Identifiers are found one by one. -/
theorem identifiers_list (xs : List Scalar) :
    Condition.identifiers (.list xs) = xs.flatMap fun x => Condition.identifiers (.single x) := by
  simp only [identifiers_eq, flatMap_cut_single, flatMap_cut_list, List.map_flatMap]

theorem describes_identifiers (hf : Text.trim f = entityIdField) :
    FieldTest.Describes lookup
      ⟨fun x => Condition.identifiers (.single x), Predicate.single entityIdField .eq,
        Predicate.single entityIdField .neq⟩ f := by
  have hlist : ∀ (o : Operator) (v : FormValue) (k : Comparison), k.Listing → Condition.listComparison o.comparison = k →
      (⟨f, o.symbol, v⟩ : Condition).granted lookup = Predicate.listed entityIdField k (Condition.identifiers v) := by
    intro o v k hk ho
    have hop : Condition.listComparison (comparisonOf o.symbol) = k := by rw [comparisonOf_symbol, ho]
    exact Condition.granted_identifiers (c := ⟨f, o.symbol, v⟩) hf hk hop
  refine ⟨fun xs => ?_, fun x => ?_, fun xs => ?_, fun x => ?_⟩
  · rw [← identifiers_list]
    exact Condition.accepts_of_listed (hlist .oneOf _ .oneOf (.inl rfl) rfl)
  · exact Condition.accepts_of_listed (hlist .is _ .oneOf (.inl rfl) rfl)
  · rw [← identifiers_list]
    exact Condition.refuses_of_listed (hlist .notOneOf _ .noneOf (.inr rfl) rfl)
  · exact Condition.refuses_of_listed (hlist .isNot _ .noneOf (.inr rfl) rfl)

/-- An attribute is compared with the scalars that are not blank. -/
def ofAttribute (a : Attribute) (code : String) : FieldTest where
  words x := if x.isBlank then [] else [a.storage.reading x]
  has := Condition.singleTest a code .eq
  hasNot := Condition.singleTest a code .neq

theorem words_list (a : Attribute) (code : String) (xs : List Scalar) :
    xs.flatMap (ofAttribute a code).words = (FormValue.list xs).toList.map a.storage.reading := by
  induction xs with
  | nil => rfl
  | cons x rest ih =>
    rw [List.flatMap_cons, ih]
    cases hb : x.isBlank <;> simp [FormValue.toList, ofAttribute, hb]

theorem has_of_codeSet (hs : a.storage = .codeSet) : (ofAttribute a code).has = a.memberTest code .memberOf := by
  funext w
  simp [ofAttribute, Condition.singleTest, Comparison.membership, hs]

theorem hasNot_of_codeSet (hs : a.storage = .codeSet) :
    (ofAttribute a code).hasNot = a.memberTest code .notMemberOf := by
  funext w
  simp [ofAttribute, Condition.singleTest, Comparison.membership, hs]

theorem has_of_ne_codeSet (hs : a.storage ≠ .codeSet) : (ofAttribute a code).has = Predicate.single code .eq := by
  funext w
  simp [ofAttribute, Condition.singleTest, hs]

theorem hasNot_of_ne_codeSet (hs : a.storage ≠ .codeSet) :
    (ofAttribute a code).hasNot = Predicate.single code .neq := by
  funext w
  simp [ofAttribute, Condition.singleTest, hs]

theorem comparison_has (a : Attribute) (code : String) (w : Scalar) :
    ((ofAttribute a code).has w).comparison ≠ .notMemberOf := by
  by_cases hs : a.storage = .codeSet
  · rw [has_of_codeSet hs]
    exact Comparison.noConfusion
  · rw [has_of_ne_codeSet hs]
    exact Comparison.noConfusion

theorem describes_attribute (hcode : ∀ operator value, (⟨f, operator, value⟩ : Condition).code? = some code)
    (ha : usable? (lookup code) = some a) : (ofAttribute a code).Describes lookup f := by
  have hsingle : ∀ (o : Operator) (x : Scalar) (k : Comparison), k = .eq ∨ k = .neq → o.comparison = k →
      (⟨f, o.symbol, .single x⟩ : Condition).granted lookup =
        ((ofAttribute a code).words x).map (Condition.singleTest a code k) := by
    intro o x k hk ho
    rw [Condition.granted_single (hcode _ _) ha rfl hk (by rw [comparisonOf_symbol, ho])]
    simp only [ofAttribute]
    split <;> rfl
  refine ⟨fun xs => ?_, fun x => ?_, fun xs => ?_, fun x => ?_⟩
  · have hop : comparisonOf Operator.oneOf.symbol = .oneOf := comparisonOf_symbol .oneOf
    rw [words_list]
    by_cases hs : a.storage = .codeSet
    · refine Condition.accepts_of_granted ?_ ?_
      · rw [has_of_codeSet hs]
        exact Condition.granted_members (hcode _ _) ha hs (.inl rfl) hop
      · intro p hp
        obtain ⟨w, -, rfl⟩ := List.mem_map.mp hp
        exact comparison_has a code w
    · rw [has_of_ne_codeSet hs]
      exact Condition.accepts_of_listed (Condition.granted_listed (hcode _ _) ha hs (.inl rfl) hop)
  · refine Condition.accepts_of_granted (hsingle .is x .eq (.inl rfl) rfl) ?_
    intro p hp
    obtain ⟨w, -, rfl⟩ := List.mem_map.mp hp
    exact comparison_has a code w
  · have hop : comparisonOf Operator.notOneOf.symbol = .noneOf := comparisonOf_symbol .notOneOf
    rw [words_list]
    by_cases hs : a.storage = .codeSet
    · rw [hasNot_of_codeSet hs]
      refine Condition.refuses_of_granted (Condition.granted_members (hcode _ _) ha hs (.inr rfl) hop) (.inl ?_)
      exact fun p hp => Attribute.comparison_of_memberTest hp
    · rw [hasNot_of_ne_codeSet hs]
      exact Condition.refuses_of_listed (Condition.granted_listed (hcode _ _) ha hs (.inr rfl) hop)
  · refine Condition.refuses_of_granted (hsingle .isNot x .neq (.inr rfl) rfl) ?_
    simp only [ofAttribute]
    split
    · exact .inl (by simp)
    · exact .inr ⟨_, rfl⟩

/-- Every field but the virtual one for images has its tests. -/
theorem exists_describes (lookup : Lookup) (hf : Text.trim f ≠ hasImageField) :
    ∃ t : FieldTest, t.Describes lookup f := by
  by_cases hne : Text.trim f = ""
  · refine ⟨_, describes_nothing fun operator value => ⟨.missingField, ?_⟩⟩
    simp [Condition.expansion, Condition.predicates, hne]
  · by_cases hid : Text.trim f = entityIdField
    · exact ⟨_, describes_identifiers hid⟩
    · have hcode : ∀ operator value, (⟨f, operator, value⟩ : Condition).code? = some (Text.trim f) :=
        fun _ _ => Condition.code?_eq_some_iff.mpr ⟨rfl, hne, hf, hid⟩
      cases ha : usable? (lookup (Text.trim f)) with
      | some a => exact ⟨_, describes_attribute hcode ha⟩
      | none =>
        refine ⟨_, describes_nothing fun operator value => ⟨.unknownAttribute, ?_⟩⟩
        rw [Condition.expansion_of_code (hcode operator value), ha]

end FieldTest

/-! ## Texts and their tokens -/

namespace Condition

variable {f operator : String} {v w : FormValue}

theorem identifierPredicate_congr (h : v.toList = w.toList) :
    (⟨f, operator, v⟩ : Condition).identifierPredicate = (⟨f, operator, w⟩ : Condition).identifierPredicate := by
  have hids : identifiers v = identifiers w := by rw [FieldTest.identifiers_eq, FieldTest.identifiers_eq, h]
  simp only [identifierPredicate, hids]

theorem attributePredicates_congr (hk : (comparisonOf operator).Listing) (h : v.toList = w.toList) (code : String)
    (a : Attribute) : (⟨f, operator, v⟩ : Condition).attributePredicates code a =
      (⟨f, operator, w⟩ : Condition).attributePredicates code a := by
  simp only [attributePredicates, normalize_list hk.takesList, h]

/-- A condition that lists takes its value for the list that it is read as. -/
theorem expansion_congr (hf : Text.trim f ≠ hasImageField) (hk : (comparisonOf operator).Listing)
    (h : v.toList = w.toList) :
    (⟨f, operator, v⟩ : Condition).expansion lookup = (⟨f, operator, w⟩ : Condition).expansion lookup := by
  have hcode : (⟨f, operator, v⟩ : Condition).code? = (⟨f, operator, w⟩ : Condition).code? := rfl
  simp only [expansion, hcode, predicates, if_neg hf, identifierPredicate_congr h, attributePredicates_congr hk h]

/-- A text and the list of its tokens are read as the same list. -/
theorem toList_tokens (s : String) : (FormValue.list ((tokens s).map .text)).toList = (tokens s).map .text := by
  apply List.filter_eq_self.mpr
  intro x hx
  obtain ⟨t, ht, rfl⟩ := List.mem_map.mp hx
  simp [isBlank_of_mem_tokens ht]

theorem expansion_tokens (hf : Text.trim f ≠ hasImageField) (hk : (comparisonOf operator).Listing) (s : String) :
    (⟨f, operator, .single (.text s)⟩ : Condition).expansion lookup =
      (⟨f, operator, .list ((tokens s).map .text)⟩ : Condition).expansion lookup := by
  apply expansion_congr hf hk
  rw [toList_tokens]
  rfl

end Condition

end RulePlan
