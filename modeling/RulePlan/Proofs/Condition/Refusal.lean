/-
  RulePlan.Proofs.Condition.Refusal — why a condition is refused.

  A condition is refused because it names no field, because nobody knows its attribute,
  or because there is nothing in its value to compare with, and the first of these
  reasons is the one that is given. Whether a value is empty depends on who reads it:
  - among identifiers a value is empty if it has neither a token in any of its texts nor
    a scalar that is no text (`FormValue.HasNoIdentifier`);
  - an operator that lists finds nothing in a text without tokens and in a list of
    blanks, whose items it takes whole (`FormValue.HasNoToken`);
  - any other operator looks at the first scalar only (`FormValue.StartsBlank`).
  How the attribute stores its values does not matter. `Condition.Outcome` says what an
  expansion can end in; every condition on another field than `has_image` ends in one of
  its cases (`Condition.expansion_outcome`), which gives the exact condition for each
  reason (`Condition.refused_exactly`).

  The condition on images goes by the first scalar too, but takes a value for empty only
  if all of it is blank. So a list that begins with a blank and has more after it says
  nothing to any attribute, while `is` asks for a record without image there and `is not`
  for one with an image; on all other values the two are refused alike
  (`Condition.image_and_attribute_refuse_alike_iff`).
-/

import RulePlan.Proofs.Condition.Listing

namespace RulePlan

/-! ## Empty values -/

/-- Cut at its separators, the text falls into blanks. -/
def HasOnlyBlankPieces (s : String) : Prop :=
  ∀ piece ∈ Text.splitWhere isTokenSeparator s.toList, piece.all Text.isBlank

instance (s : String) : Decidable (HasOnlyBlankPieces s) := inferInstanceAs (Decidable (∀ piece ∈ _, _))

theorem tokens_eq_nil_iff {s : String} : tokens s = [] ↔ HasOnlyBlankPieces s := by
  simp [tokens, HasOnlyBlankPieces, Text.strip_eq_nil_iff]

/-- The scalar is a text, and there is no token in it. -/
def Scalar.HasNoToken : Scalar → Prop
  | .text t => HasOnlyBlankPieces t
  | _ => False

instance : (s : Scalar) → Decidable s.HasNoToken
  | .text t => inferInstanceAs (Decidable (HasOnlyBlankPieces t))
  | .bool _ | .int _ | .float _ => inferInstanceAs (Decidable False)

namespace FormValue

/-- There is no first scalar, or it is blank. -/
def StartsBlank (v : FormValue) : Prop := ∀ s ∈ v.first?, s.isBlank

/-- For an operator that lists: a text is cut into its tokens, the items of a list stay whole. -/
def HasNoToken : FormValue → Prop
  | .absent => True
  | .single s => s.HasNoToken
  | .list items => ∀ s ∈ items, s.isBlank

/-- Among identifiers: every text is cut into its tokens, and a scalar that is no text is one. -/
def HasNoIdentifier (v : FormValue) : Prop := ∀ s ∈ v.scalars, s.HasNoToken

/-- The value begins with a blank, and not all of it is blank. -/
def BeginsWithBlank (v : FormValue) : Prop := v.StartsBlank ∧ ∃ s ∈ v.scalars, s.isBlank = false

instance (v : FormValue) : Decidable v.StartsBlank := inferInstanceAs (Decidable (∀ s ∈ v.first?, _))

instance : (v : FormValue) → Decidable v.HasNoToken
  | .absent => inferInstanceAs (Decidable True)
  | .single s => inferInstanceAs (Decidable s.HasNoToken)
  | .list items => inferInstanceAs (Decidable (∀ s ∈ items, _))

instance (v : FormValue) : Decidable v.HasNoIdentifier := inferInstanceAs (Decidable (∀ s ∈ v.scalars, _))

instance (v : FormValue) : Decidable v.BeginsWithBlank := inferInstanceAs (Decidable (_ ∧ ∃ s ∈ v.scalars, _))

variable {v : FormValue}

theorem isAbsent_iff : v.isAbsent ↔ ∀ s ∈ v.scalars, s.isBlank := by
  cases v <;> simp [isAbsent, scalars]

theorem startsBlank_of_isAbsent (h : v.isAbsent) : v.StartsBlank :=
  fun s hs => isAbsent_iff.mp h s (mem_scalars_of_first? hs)

theorem toList_eq_nil_iff : v.toList = [] ↔ v.HasNoToken := by
  cases v with
  | absent => simp [toList, HasNoToken]
  | list items => simp [toList, HasNoToken]
  | single s =>
    cases s with
    | text t => simp [toList, HasNoToken, Scalar.HasNoToken, tokens_eq_nil_iff]
    | bool _ | int _ | float _ => simp [toList, HasNoToken, Scalar.HasNoToken]

theorem operand?_eq_none_iff (takesList : Bool) :
    v.operand? takesList = none ↔ if takesList then v.HasNoToken else v.StartsBlank := by
  rw [operand?]
  cases takesList with
  | true =>
    rw [← toList_eq_nil_iff]
    by_cases habsent : v.isAbsent
    · simp [habsent, toList_of_isAbsent habsent]
    · simp [habsent]
  | false =>
    by_cases habsent : v.isAbsent
    · simp [habsent, startsBlank_of_isAbsent habsent]
    · simp [habsent, StartsBlank, Option.filter_eq_none_iff]

end FormValue

namespace FieldTest

theorem cut_eq_nil_iff {s : Scalar} : cut s = [] ↔ s.HasNoToken := by
  cases s with
  | text t => simp [cut, Scalar.HasNoToken, tokens_eq_nil_iff]
  | bool _ | int _ | float _ => simp [cut, Scalar.HasNoToken]

theorem flatMap_cut_toList (v : FormValue) : v.toList.flatMap cut = v.scalars.flatMap cut := by
  cases v with
  | absent => rfl
  | single s => rw [flatMap_cut_single, FormValue.scalars, List.flatMap_singleton]
  | list items => exact flatMap_cut_list items

end FieldTest

theorem Condition.identifiers_eq_nil_iff {v : FormValue} : identifiers v = [] ↔ v.HasNoIdentifier := by
  rw [FieldTest.identifiers_eq, List.map_eq_nil_iff, FieldTest.flatMap_cut_toList, List.flatMap_eq_nil_iff]
  simp only [FieldTest.cut_eq_nil_iff, FormValue.HasNoIdentifier]

/-! ## Operators that list -/

/-- The operator is `one of` or `not one of`; blanks around its symbol do not count. -/
def Lists (symbol : String) : Prop :=
  Text.trim symbol = Operator.oneOf.symbol ∨ Text.trim symbol = Operator.notOneOf.symbol

instance (symbol : String) : Decidable (Lists symbol) := inferInstanceAs (Decidable (_ ∨ _))

theorem Operator.takesList_iff (o : Operator) :
    o.comparison.takesList ↔ o.symbol = oneOf.symbol ∨ o.symbol = notOneOf.symbol := by
  cases o <;> decide

theorem takesList_comparisonOf (symbol : String) : (comparisonOf symbol).takesList ↔ Lists symbol := by
  unfold comparisonOf Comparison.resolve
  cases ho : Operator.ofSymbol? symbol with
  | some o =>
    have hsymbol : o.symbol = Text.trim symbol := by simpa using List.find?_some ho
    rw [o.takesList_iff, hsymbol, Lists]
  | none =>
    have hother : ∀ o ∈ Operator.all, o.symbol ≠ Text.trim symbol := by simpa [Operator.ofSymbol?] using ho
    have hone := hother .oneOf (by decide)
    have hnone := hother .notOneOf (by decide)
    simp [Lists, hone.symm, hnone.symm, Comparison.takesList]

/-- For an operator on an attribute. -/
def FormValue.IsEmptyFor (v : FormValue) (symbol : String) : Prop :=
  if Lists symbol then v.HasNoToken else v.StartsBlank

instance (v : FormValue) (symbol : String) : Decidable (v.IsEmptyFor symbol) :=
  inferInstanceAs (Decidable (if Lists symbol then _ else _))

theorem normalize_eq_none_iff (v : FormValue) (symbol : String) (storage : Storage) :
    normalize v (comparisonOf symbol) storage = none ↔ v.IsEmptyFor symbol := by
  rw [normalize, Option.map_eq_none_iff, FormValue.operand?_eq_none_iff, FormValue.IsEmptyFor]
  simp only [takesList_comparisonOf]

/-! ## What an expansion ends in -/

/-- The look-up fails, or answers that there is no such attribute. -/
def HasNoAttribute : Except LookupError Attribute → Prop
  | .error _ => True
  | .ok a => a.present = false

instance : (answer : Except LookupError Attribute) → Decidable (HasNoAttribute answer)
  | .error _ => inferInstanceAs (Decidable True)
  | .ok a => inferInstanceAs (Decidable (a.present = false))

theorem usable?_eq_none_iff {answer : Except LookupError Attribute} :
    usable? answer = none ↔ HasNoAttribute answer := by
  cases answer with
  | error e => simp [usable?, HasNoAttribute]
  | ok a => simp [usable?, HasNoAttribute]

namespace Condition

/-- The field should name an attribute, but there is none. -/
def IsUnknown (lookup : Lookup) (c : Condition) : Prop :=
  Text.trim c.field ≠ entityIdField ∧ HasNoAttribute (lookup (Text.trim c.field))

instance (lookup : Lookup) (c : Condition) : Decidable (c.IsUnknown lookup) := inferInstanceAs (Decidable (_ ∧ _))

/-- There is nothing in the value to compare with. -/
def IsEmpty (c : Condition) : Prop :=
  if Text.trim c.field = entityIdField then c.value.HasNoIdentifier else c.value.IsEmptyFor c.operator

instance (c : Condition) : Decidable c.IsEmpty :=
  inferInstanceAs (Decidable (if Text.trim c.field = entityIdField then _ else _))

/-- What the expansion of a condition may end in; the reasons against it come in this order. -/
inductive Outcome (lookup : Lookup) (c : Condition) : Except DropReason (List Predicate) → Prop
  | unnamed (hnamed : Text.trim c.field = "") : Outcome lookup c (.error .missingField)
  | unknown (hnamed : Text.trim c.field ≠ "") (hknown : c.IsUnknown lookup) :
      Outcome lookup c (.error .unknownAttribute)
  | empty (hnamed : Text.trim c.field ≠ "") (hknown : ¬ c.IsUnknown lookup) (hempty : c.IsEmpty) :
      Outcome lookup c (.error .emptyValue)
  | granted {ps : List Predicate} (hnamed : Text.trim c.field ≠ "") (hknown : ¬ c.IsUnknown lookup)
      (hempty : ¬ c.IsEmpty) (hps : ps ≠ []) : Outcome lookup c (.ok ps)

variable {lookup : Lookup} {c : Condition}

theorem expansion_ne_nil {ps : List Predicate} (h : c.expansion lookup = .ok ps) : ps ≠ [] :=
  (predicates_sound h).1.ne_nil

theorem identifierPredicate_outcome (c : Condition) :
    (c.value.HasNoIdentifier ∧ c.identifierPredicate = .error .emptyValue) ∨
      ¬ c.value.HasNoIdentifier ∧ ∃ p, c.identifierPredicate = .ok p := by
  rw [← identifiers_eq_nil_iff, identifierPredicate]
  cases identifiers c.value with
  | nil => exact .inl ⟨rfl, rfl⟩
  | cons id ids => exact .inr ⟨List.cons_ne_nil id ids, _, rfl⟩

theorem attributePredicates_outcome (c : Condition) (code : String) (a : Attribute) :
    (c.value.IsEmptyFor c.operator ∧ c.attributePredicates code a = .error .emptyValue) ∨
      ¬ c.value.IsEmptyFor c.operator ∧ ∃ ps, c.attributePredicates code a = .ok ps := by
  rw [← normalize_eq_none_iff c.value c.operator a.storage, attributePredicates]
  cases normalize c.value (comparisonOf c.operator) a.storage with
  | none => exact .inl ⟨rfl, rfl⟩
  | some operand =>
    refine .inr ⟨Option.some_ne_none operand, ?_⟩
    simp only
    split
    · exact ⟨_, rfl⟩
    · exact ⟨_, rfl⟩

theorem outcome_of_identifier (hid : Text.trim c.field = entityIdField) : c.Outcome lookup (c.expansion lookup) := by
  have hnamed : Text.trim c.field ≠ "" := by rw [hid]; decide
  have hknown : ¬ c.IsUnknown lookup := fun h => h.1 hid
  have hempty : c.IsEmpty ↔ c.value.HasNoIdentifier := by rw [IsEmpty, if_pos hid]
  rcases c.identifierPredicate_outcome with ⟨he, h⟩ | ⟨he, p, h⟩
  · rw [expansion_of_identifier hid, h]
    exact .empty hnamed hknown (hempty.mpr he)
  · rw [expansion_of_identifier hid, h]
    exact .granted hnamed hknown (mt hempty.mp he) (List.cons_ne_nil p [])

theorem outcome_of_code {code : String} (hcode : c.code? = some code) : c.Outcome lookup (c.expansion lookup) := by
  obtain ⟨hfield, hnamed, -, hid⟩ := code?_eq_some_iff.mp hcode
  rw [← hfield] at hnamed hid
  have hunknown : c.IsUnknown lookup ↔ usable? (lookup code) = none := by
    rw [IsUnknown, usable?_eq_none_iff, and_iff_right hid, hfield]
  have hempty : c.IsEmpty ↔ c.value.IsEmptyFor c.operator := by rw [IsEmpty, if_neg hid]
  cases ha : usable? (lookup code) with
  | none =>
    have h : c.expansion lookup = .error .unknownAttribute := by rw [expansion_of_code hcode, ha]
    rw [h]
    exact .unknown hnamed (hunknown.mpr ha)
  | some a =>
    have h : c.expansion lookup = c.attributePredicates code a := by rw [expansion_of_code hcode, ha]
    have hknown : ¬ c.IsUnknown lookup := by simp [hunknown, ha]
    rcases c.attributePredicates_outcome code a with ⟨he, hp⟩ | ⟨he, ps, hp⟩
    · rw [h, hp]
      exact .empty hnamed hknown (hempty.mpr he)
    · rw [h, hp]
      exact .granted hnamed hknown (mt hempty.mp he) (expansion_ne_nil (h.trans hp))

/-- The reason that is given is the first one in the order of `Outcome`, and without a reason there
    are predicates. -/
theorem expansion_outcome (lookup : Lookup) {c : Condition} (hf : Text.trim c.field ≠ hasImageField) :
    c.Outcome lookup (c.expansion lookup) := by
  by_cases hnamed : Text.trim c.field = ""
  · have h : c.expansion lookup = .error .missingField := by simp [expansion, predicates, hnamed]
    rw [h]
    exact .unnamed hnamed
  · by_cases hid : Text.trim c.field = entityIdField
    · exact outcome_of_identifier hid
    · exact outcome_of_code (code?_eq_some_iff.mpr ⟨rfl, hnamed, hf, hid⟩)

namespace Outcome

variable {result : Except DropReason (List Predicate)}

theorem missingField_iff (h : c.Outcome lookup result) : result = .error .missingField ↔ Text.trim c.field = "" := by
  cases h with
  | unnamed hnamed => exact iff_of_true rfl hnamed
  | unknown hnamed | empty hnamed | granted hnamed => exact iff_of_false (by simp) hnamed

theorem unknownAttribute_iff (h : c.Outcome lookup result) :
    result = .error .unknownAttribute ↔ Text.trim c.field ≠ "" ∧ c.IsUnknown lookup := by
  cases h with
  | unnamed hnamed => exact iff_of_false (by simp) fun h => h.1 hnamed
  | unknown hnamed hknown => exact iff_of_true rfl ⟨hnamed, hknown⟩
  | empty _ hknown | granted _ hknown => exact iff_of_false (by simp) fun h => hknown h.2

theorem emptyValue_iff (h : c.Outcome lookup result) :
    result = .error .emptyValue ↔ Text.trim c.field ≠ "" ∧ ¬ c.IsUnknown lookup ∧ c.IsEmpty := by
  cases h with
  | unnamed hnamed => exact iff_of_false (by simp) fun h => h.1 hnamed
  | unknown _ hknown => exact iff_of_false (by simp) fun h => h.2.1 hknown
  | empty hnamed hknown hempty => exact iff_of_true rfl ⟨hnamed, hknown, hempty⟩
  | granted _ _ hempty => exact iff_of_false (by simp) fun h => hempty h.2.2

theorem granted_iff (h : c.Outcome lookup result) :
    (∃ ps, ps ≠ [] ∧ result = .ok ps) ↔ Text.trim c.field ≠ "" ∧ ¬ c.IsUnknown lookup ∧ ¬ c.IsEmpty := by
  cases h with
  | unnamed hnamed => exact iff_of_false (by simp) fun h => h.1 hnamed
  | unknown _ hknown => exact iff_of_false (by simp) fun h => h.2.1 hknown
  | empty _ _ hempty => exact iff_of_false (by simp) fun h => h.2.2 hempty
  | granted hnamed hknown hempty hps => exact iff_of_true ⟨_, hps, rfl⟩ ⟨hnamed, hknown, hempty⟩

/-- Beyond whether the attribute is known, a look-up has no say in the reason. -/
theorem error_iff {other : Lookup} {result' : Except DropReason (List Predicate)} (h : c.Outcome lookup result)
    (h' : c.Outcome other result') (hknown : c.IsUnknown other ↔ c.IsUnknown lookup) (reason : DropReason) :
    result' = .error reason ↔ result = .error reason := by
  cases reason with
  | missingField => rw [h.missingField_iff, h'.missingField_iff]
  | unknownAttribute => rw [h.unknownAttribute_iff, h'.unknownAttribute_iff, hknown]
  | emptyValue => rw [h.emptyValue_iff, h'.emptyValue_iff, hknown]
  | depthLimit =>
    refine iff_of_false ?_ ?_
    · rintro rfl; cases h'
    · rintro rfl; cases h

end Outcome

/-- On every field but the one for images, an expansion within a session fails just for the reasons
    that there are against the condition, the first of them being given, and otherwise there are
    predicates. Of the answers of the look-up it matters only whether there is an attribute. -/
theorem refused_exactly {s : Session} (hs : s.Faithful lookup) (hf : Text.trim c.field ≠ hasImageField) :
    let outcome := (c.expand lookup s).1
    (outcome = .error .missingField ↔ Text.trim c.field = "") ∧
      (outcome = .error .unknownAttribute ↔ Text.trim c.field ≠ "" ∧ c.IsUnknown lookup) ∧
      (outcome = .error .emptyValue ↔ Text.trim c.field ≠ "" ∧ ¬ c.IsUnknown lookup ∧ c.IsEmpty) ∧
      ((∃ ps, ps ≠ [] ∧ outcome = .ok ps) ↔ Text.trim c.field ≠ "" ∧ ¬ c.IsUnknown lookup ∧ ¬ c.IsEmpty) ∧
      ∀ (other : Lookup) (t : Session), t.Faithful other → (c.IsUnknown other ↔ c.IsUnknown lookup) →
        ∀ reason, (c.expand other t).1 = .error reason ↔ outcome = .error reason := by
  intro outcome
  have h : c.Outcome lookup outcome := by
    rw [show outcome = c.expansion lookup from (Session.expand_eq hs c).1]
    exact expansion_outcome lookup hf
  refine ⟨h.missingField_iff, h.unknownAttribute_iff, h.emptyValue_iff, h.granted_iff, ?_⟩
  intro other t ht hknown reason
  rw [(Session.expand_eq ht c).1]
  exact h.error_iff (expansion_outcome other hf) hknown reason

/-- A list of blanks and separators names no identifier, but an operator that lists takes its second
    item whole, on an attribute of any kind. -/
theorem separators_are_items_of_a_list_and_no_identifiers :
    let lookup : Lookup := fun code =>
      if code = "color" then .ok { storage := .codeSet } else .error (.unavailable code "")
    let separators : FormValue := .list [.text " ", .text ",;"]
    let ids : Condition := ⟨"entity_id ", "!=", separators⟩
    let colors : Condition := ⟨" color", " !()", separators⟩
    Session.Faithful lookup {} ∧ Text.trim ids.field ≠ hasImageField ∧ Text.trim colors.field ≠ hasImageField ∧
      (ids.expand lookup {}).1 = .error .emptyValue ∧
      (∃ ps, ps ≠ [] ∧ (colors.expand lookup {}).1 = .ok ps) ∧
      ∀ reason, (colors.expand (fun _ => .ok {}) {}).1 ≠ .error reason := by
  intro lookup separators ids colors
  have hs : Session.Faithful lookup {} := Session.faithful_empty lookup
  have hids : Text.trim ids.field ≠ hasImageField := by decide
  have hcolors : Text.trim colors.field ≠ hasImageField := by decide
  obtain ⟨-, -, hempty, -, -⟩ := refused_exactly hs hids
  obtain ⟨-, -, -, hgranted, hother⟩ := refused_exactly hs hcolors
  obtain ⟨ps, hne, hps⟩ := hgranted.mpr (by decide)
  refine ⟨hs, hids, hcolors, hempty.mpr (by decide), ⟨ps, hne, hps⟩, fun reason hreason => ?_⟩
  have herror := (hother (fun _ => .ok {}) {} (Session.faithful_empty _) (by decide) reason).mp hreason
  simp [hps] at herror

end Condition

/-! ## Images -/

theorem Scalar.isTruthy_of_isBlank {s : Scalar} (h : s.isBlank) : s.isTruthy = false := by
  cases s with
  | text t =>
    have hstrip : Text.strip t.toList = [] := Text.strip_eq_nil_iff.mpr h
    rw [isTruthy, textInteger?, textNumber?, hstrip]
    rfl
  | bool _ | int _ | float _ => cases h

namespace FormValue

variable {v : FormValue}

theorem beginsWithBlank_iff : v.BeginsWithBlank ↔ v.StartsBlank ∧ ¬ v.isAbsent := by
  rw [BeginsWithBlank, isAbsent_iff]
  simp

theorem BeginsWithBlank.exists_first (h : v.BeginsWithBlank) : ∃ s, v.first? = some s ∧ s.isBlank := by
  obtain ⟨hstart, s, hs, -⟩ := h
  cases v with
  | absent => cases hs
  | single t => exact ⟨t, rfl, hstart t rfl⟩
  | list items =>
    cases items with
    | nil => cases hs
    | cons t rest => exact ⟨t, rfl, hstart t rfl⟩

end FormValue

namespace Condition

variable {lookup : Lookup} {c : Condition} {f g : String} {o : Operator} {v : FormValue}

theorem expansion_of_image (hc : Text.trim c.field = hasImageField) :
    c.expansion lookup = c.imagePredicate.map ([·]) := by
  have hne : hasImageField ≠ "" := by decide
  simp [expansion, predicates, hc, hne]

theorem image_refused_iff (hc : Text.trim c.field = hasImageField) :
    c.expansion lookup = .error .emptyValue ↔ c.value.isAbsent := by
  simp only [expansion_of_image hc, imagePredicate]
  by_cases habsent : c.value.isAbsent
  · simp [habsent, Except.map]
  · simp [habsent, Except.map]

/-- A blank in the first place is no choice, whatever comes after it. -/
theorem expansion_of_beginsWithBlank (hc : Text.trim c.field = hasImageField) (ho : o = .is ∨ o = .isNot)
    (hop : c.operator = o.symbol) (hv : c.value.BeginsWithBlank) :
    c.expansion lookup = .ok [.single imageField (if o = .is then .isNull else .notNull) (.bool true)] := by
  obtain ⟨-, habsent⟩ := FormValue.beginsWithBlank_iff.mp hv
  obtain ⟨s, hfirst, hblank⟩ := hv.exists_first
  rw [expansion_of_image hc, imagePredicate, hop]
  simp only [if_neg habsent, hfirst, Scalar.isTruthy_of_isBlank hblank]
  rcases ho with rfl | rfl <;> rfl

theorem attribute_refused_iff {code : String} {a : Attribute} (hcode : c.code? = some code)
    (ha : usable? (lookup code) = some a) (ho : o = .is ∨ o = .isNot) (hop : c.operator = o.symbol) :
    c.expansion lookup = .error .emptyValue ↔ c.value.StartsBlank := by
  have hlists : ¬ Lists o.symbol := by rcases ho with rfl | rfl <;> decide
  have hempty : c.value.StartsBlank ↔ c.value.IsEmptyFor c.operator := by rw [FormValue.IsEmptyFor, hop, if_neg hlists]
  rw [expansion_of_code hcode, ha, hempty]
  rcases c.attributePredicates_outcome code a with ⟨he, h⟩ | ⟨he, ps, h⟩
  · exact iff_of_true h he
  · exact iff_of_false (by simp [h]) he

/-- With `is` and `is not`, a condition on the image and one on an attribute are refused for the same
    values, but for those that begin with a blank and go on with something: these say nothing to
    the attribute, and to the image they say that it is not there. -/
theorem image_and_attribute_refuse_alike_iff {s : Session} {a : Attribute} (hs : s.Faithful lookup)
    (hg : Text.trim g = hasImageField)
    (hf : Text.trim f ≠ "" ∧ Text.trim f ≠ hasImageField ∧ Text.trim f ≠ entityIdField)
    (ha : lookup (Text.trim f) = .ok a) (hpresent : a.present) (ho : o = .is ∨ o = .isNot) (v : FormValue) :
    let onImage := ((⟨g, o.symbol, v⟩ : Condition).expand lookup s).1
    let onField := ((⟨f, o.symbol, v⟩ : Condition).expand lookup s).1
    ((onImage = .error .emptyValue ↔ onField = .error .emptyValue) ↔ ¬ v.BeginsWithBlank) ∧
      (v.BeginsWithBlank → onField = .error .emptyValue ∧
        onImage = .ok [.single imageField (if o = .is then .isNull else .notNull) (.bool true)]) := by
  intro onImage onField
  have himage : onImage = (⟨g, o.symbol, v⟩ : Condition).expansion lookup := (Session.expand_eq hs _).1
  have hfield : onField = (⟨f, o.symbol, v⟩ : Condition).expansion lookup := (Session.expand_eq hs _).1
  have hcode : (⟨f, o.symbol, v⟩ : Condition).code? = some (Text.trim f) := code?_eq_some_iff.mpr ⟨rfl, hf⟩
  have husable : usable? (lookup (Text.trim f)) = some a := by rw [ha, usable?, if_pos hpresent]
  rw [himage, hfield, image_refused_iff (c := ⟨g, o.symbol, v⟩) hg, attribute_refused_iff hcode husable ho rfl,
    FormValue.beginsWithBlank_iff]
  refine ⟨⟨?_, ?_⟩, fun hv => ⟨hv.1, ?_⟩⟩
  · rintro h ⟨hstart, habsent⟩
    exact habsent (h.mpr hstart)
  · intro h
    exact ⟨FormValue.startsBlank_of_isAbsent, fun hstart => by_contra fun habsent => h ⟨hstart, habsent⟩⟩
  · exact expansion_of_beginsWithBlank (c := ⟨g, o.symbol, v⟩) hg ho rfl (FormValue.beginsWithBlank_iff.mpr hv)

/-- A list of blanks asks neither for an image nor for a name, and a number after a blank does not
    count for either. -/
theorem blanks_choose_nothing :
    let lookup : Lookup := fun code => if code = "name" then .ok {} else .ok .missing
    let outcome (field : String) (v : FormValue) := ((⟨field, Operator.isNot.symbol, v⟩ : Condition).expand lookup {}).1
    let blanks : FormValue := .list [.text "", .text " \t"]
    let later : FormValue := .list [.text " ", .int 1]
    Session.Faithful lookup {} ∧ Text.trim " has_image" = hasImageField ∧
      (Text.trim "name" ≠ "" ∧ Text.trim "name" ≠ hasImageField ∧ Text.trim "name" ≠ entityIdField) ∧
      lookup (Text.trim "name") = .ok {} ∧ ({} : Attribute).present ∧
      ¬ blanks.BeginsWithBlank ∧ outcome " has_image" blanks = .error .emptyValue ∧
      outcome "name" blanks = .error .emptyValue ∧
      later.BeginsWithBlank ∧ outcome " has_image" later = .ok [.single imageField .notNull (.bool true)] ∧
      outcome "name" later = .error .emptyValue := by
  intro lookup outcome blanks later
  have hs : Session.Faithful lookup {} := Session.faithful_empty lookup
  have hg : Text.trim " has_image" = hasImageField := by decide
  have hf : Text.trim "name" ≠ "" ∧ Text.trim "name" ≠ hasImageField ∧ Text.trim "name" ≠ entityIdField := by decide
  have ha : lookup (Text.trim "name") = .ok {} := by decide
  have hpresent : ({} : Attribute).present := by decide
  have hblanks : ¬ blanks.BeginsWithBlank := by decide
  have hlater : later.BeginsWithBlank := by decide
  have hrefused : outcome " has_image" blanks = .error .emptyValue := by decide
  obtain ⟨halike, -⟩ := image_and_attribute_refuse_alike_iff hs hg hf ha hpresent (.inr rfl) blanks
  obtain ⟨-, hdiffer⟩ := image_and_attribute_refuse_alike_iff hs hg hf ha hpresent (.inr rfl) later
  obtain ⟨hname, himage⟩ := hdiffer hlater
  exact ⟨hs, hg, hf, ha, hpresent, hblanks, hrefused, (halike.mpr hblanks).mp hrefused, hlater, himage, hname⟩

/-- A list of a blank and a one is no value of a name, but it asks for a record without image. -/
theorem a_blank_before_a_choice_asks_for_no_image :
    let lookup : Lookup := fun code => if code = "name" then .ok {} else .ok .missing
    let choices : FormValue := .list [.text "", .text "1"]
    choices.StartsBlank ∧
      ((⟨"has_image", Operator.is.symbol, choices⟩ : Condition).expand lookup {}).1 =
        .ok [.single imageField .isNull (.bool true)] ∧
      ((⟨"name", Operator.is.symbol, choices⟩ : Condition).expand lookup {}).1 = .error .emptyValue := by
  decide

end Condition

end RulePlan
