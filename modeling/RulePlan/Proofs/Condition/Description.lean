/-
  RulePlan.Proofs.Condition.Description — which values a description lists.

  A condition that lists is described by the values that were submitted and compares with
  the codes they are read as, and each of the two takes the submitted value apart for itself.
  The description cuts a text at its commas only, keeps the pieces between them that are
  blank and, without a comma, the blanks at the ends of the text, and it keeps the blanks of
  a list; and it never reads a value as a code. So the items of the description are the codes
  if its pieces are tokens or its list has no blanks (`FormValue.ListsTokens`), and if no
  value has another text as a code.

  Two different lists of texts may give the same line, since options may be labelled in any
  way. But there are labels that tell them apart (`Attribute.labels_tell_apart`). Proved
  (`describe_shows_codes_iff`), for every condition that lists values of an attribute: its
  description shows the codes, with their labels and in their order, for all options that the
  attribute may have, just when the items are the codes.
-/

import RulePlan.Proofs.Condition.Refusal
import RulePlan.Proofs.Keyed
import RulePlan.Proofs.Number.Written
import RulePlan.Proofs.Text.Replace

namespace RulePlan

/-! ## Labels -/

/-- The label of the option that has the text, or the text itself. -/
def Attribute.labelOf (a : Attribute) (t : String) : String :=
  ((a.choices.find? fun c => c.value.asText = t).map (·.label)).getD t

theorem Condition.valueLabel_eq (a : Attribute) : valueLabel (some a) = fun s => a.labelOf s.asText := rfl

namespace Attribute

variable {a : Attribute} {texts xs ys : List String} {t : String}

theorem map_labelOf (a : Attribute) (items : List Scalar) :
    items.map (fun s => a.labelOf s.asText) = (items.map Scalar.asText).map a.labelOf := by
  rw [List.map_map]
  rfl

/-- As many ones as there are texts before this one. -/
def placeLabel (texts : List String) (t : String) : String := String.ofList (List.replicate (texts.idxOf t) '1')

/-- Options for some texts, each labelled by its place among them. -/
def placeChoices (texts : List String) : List Choice := texts.map fun t => ⟨.text t, placeLabel texts t⟩

theorem find?_eq_some (h : t ∈ texts) : texts.find? (fun u => decide (u = t)) = some t := by
  induction texts with
  | nil => cases h
  | cons u texts ih =>
    by_cases hu : u = t
    · simp [hu]
    · simp [hu, ih ((List.mem_cons.mp h).resolve_left (Ne.symm hu))]

theorem labelOf_placeChoices (ha : a.choices = placeChoices texts) (h : t ∈ texts) :
    a.labelOf t = placeLabel texts t := by
  have htext : (fun c : Choice => decide (c.value.asText = t)) ∘ (fun u => ⟨.text u, placeLabel texts u⟩) =
      fun u => decide (u = t) := rfl
  rw [labelOf, ha, placeChoices, List.find?_map, htext, find?_eq_some h]
  rfl

theorem placeLabel_inj (hxs : xs ⊆ texts) (hys : ys ⊆ texts)
    (h : xs.map (placeLabel texts) = ys.map (placeLabel texts)) : xs = ys := by
  have hback : ∀ {zs : List String}, zs ⊆ texts →
      (zs.map (placeLabel texts)).map (fun l => texts[l.length]?) = zs.map some := by
    intro zs hzs
    rw [List.map_map]
    refine List.map_congr_left fun t ht => ?_
    simp [placeLabel, List.getElem?_idxOf (hzs ht)]
  have hsome : xs.map some = ys.map some := by rw [← hback hxs, ← hback hys, h]
  exact List.map_injective_iff.mpr (fun _ _ => Option.some.inj) hsome

theorem intercalate_inj (hxs : xs ≠ []) (hys : ys ≠ []) (hx : ∀ t ∈ xs, ',' ∉ t.toList) (hy : ∀ t ∈ ys, ',' ∉ t.toList)
    (h : ", ".intercalate xs = ", ".intercalate ys) : xs = ys := by
  have hback : ∀ {zs : List String}, zs ≠ [] → (∀ t ∈ zs, ',' ∉ t.toList) →
      Text.splitOn ", ".toList (", ".intercalate zs).toList = zs.map String.toList := by
    intro zs hne hz
    rw [String.toList_intercalate]
    exact Text.splitOn_intercalate (c := ',') (by simpa using hne) (by decide) (by simpa using hz)
  have hlists : xs.map String.toList = ys.map String.toList := by rw [← hback hxs hx, ← hback hys hy, h]
  exact List.map_injective_iff.mpr (fun _ _ => String.toList_inj.mp) hlists

/-- There are options whose labels tell two lists of texts apart in one line. -/
theorem labels_tell_apart (hxs : xs ≠ []) (hys : ys ≠ []) (ha : a.choices = placeChoices (xs ++ ys))
    (h : ", ".intercalate (xs.map a.labelOf) = ", ".intercalate (ys.map a.labelOf)) : xs = ys := by
  have hsub : xs ⊆ xs ++ ys ∧ ys ⊆ xs ++ ys := ⟨List.subset_append_left _ _, List.subset_append_right _ _⟩
  have hlabels : ∀ {zs : List String}, zs ⊆ xs ++ ys → zs.map a.labelOf = zs.map (placeLabel (xs ++ ys)) :=
    fun hzs => List.map_congr_left fun t ht => labelOf_placeChoices ha (hzs ht)
  have hcomma : ∀ {zs : List String}, ∀ l ∈ zs.map (placeLabel (xs ++ ys)), ',' ∉ l.toList := by
    intro zs l hl
    obtain ⟨t, -, rfl⟩ := List.mem_map.mp hl
    simp [placeLabel, List.mem_replicate]
  rw [hlabels hsub.1, hlabels hsub.2] at h
  exact placeLabel_inj hsub.1 hsub.2 (intercalate_inj (by simpa using hxs) (by simpa using hys) hcomma hcomma h)

end Attribute

/-! ## Items -/

/-- What is listed of a text: the pieces between its commas, or the whole text. -/
def listedTexts (s : String) : List String :=
  if ',' ∈ s.toList then (Text.splitWhere (· = ',') s.toList).map fun piece => String.ofList (Text.strip piece)
  else [s]

theorem Condition.listedValues_text (s : String) :
    listedValues (.single (.text s)) = (listedTexts s).map .text := by
  unfold listedValues listedTexts
  by_cases hcomma : ',' ∈ s.toList <;> simp [hcomma]

/-- A text that is cut at its commas is cut at its semicolons afterwards. -/
theorem tokens_eq_flatMap (s : String) :
    tokens s = (Text.splitWhere (· = ',') s.toList).flatMap fun piece => tokens (String.ofList piece) := by
  have hcut : Text.splitWhere isTokenSeparator s.toList =
      (Text.splitWhere (· = ',') s.toList).flatMap (Text.splitWhere isTokenSeparator) := by
    rw [← Text.splitWhere_intercalate (c := ',') (by decide) (Text.splitWhere_ne_nil _ _), Text.intercalate_splitWhere]
  rw [tokens, hcut]
  simp only [tokens, List.map_flatMap, List.filter_flatMap, String.toList_ofList]

theorem tokens_of_isToken_strip {piece : List Char} (h : IsToken (String.ofList (Text.strip piece))) :
    tokens (String.ofList piece) = [String.ofList (Text.strip piece)] := by
  have hne : Text.strip piece ≠ [] := by simpa using h.ne_empty
  have hseparator : ∀ c ∈ piece, isTokenSeparator c = false := by
    intro c hc
    rcases Text.isBlank_or_mem_strip hc with hblank | hmem
    · exact isTokenSeparator_of_isBlank hblank
    · exact h.no_separator c (by rwa [String.toList_ofList])
  rw [tokens_of_no_separator hseparator, if_neg hne]

/-- What is listed of a text is its tokens if it is tokens. -/
theorem listedTexts_eq_tokens {s : String} (h : ∀ t ∈ listedTexts s, IsToken t) : listedTexts s = tokens s := by
  unfold listedTexts at h ⊢
  split at h
  · next hcomma =>
    have hpieces : ∀ piece ∈ Text.splitWhere (· = ',') s.toList,
        tokens (String.ofList piece) = [String.ofList (Text.strip piece)] :=
      fun piece hp => tokens_of_isToken_strip (h _ (List.mem_map_of_mem hp))
    rw [if_pos hcomma, tokens_eq_flatMap, List.flatMap_congr hpieces, List.map_eq_flatMap]
  · next hcomma => rw [if_neg hcomma, (h s (List.mem_singleton_self s)).tokens_eq]

theorem isToken_toString (n : Int) : IsToken (toString n) := by
  have hstrip := Text.strip_of_no_blank fun c hc => isBlank_of_mem_toString (n := n) hc
  refine ⟨fun h => ?_, by rw [Text.trim, hstrip, String.ofList_toList], fun c hc => ?_⟩
  · have hdigits := congrArg String.toList h
    rw [toList_toString] at hdigits
    exact Nat.toDigits_ne_nil (List.append_eq_nil_iff.mp hdigits).2
  · have hbounds := bounds_of_mem_toString hc
    rw [isTokenSeparator, Bool.or_eq_false_iff, decide_eq_false_iff_not, decide_eq_false_iff_not]
    constructor
    · rintro rfl
      exact absurd hbounds (by decide)
    · rintro rfl
      exact absurd hbounds (by decide)

/-- The code of a token is written as a token. -/
theorem isToken_asText_reading {t : String} (h : IsToken t) (storage : Storage) :
    IsToken (storage.reading (.text t)).asText := by
  unfold Storage.reading
  split
  · rw [Scalar.asCode]
    split
    · exact isToken_toString _
    · exact h
  · exact h

namespace FormValue

variable {v : FormValue} {storage : Storage}

/-- The items of the description are the ones that an operator lists: those of a text are tokens, a
    list has no blanks. -/
def ListsTokens : FormValue → Prop
  | .single (.text s) => ∀ t ∈ listedTexts s, IsToken t
  | .list items => ∀ s ∈ items, s.isBlank = false
  | _ => True

theorem ListsTokens.listedValues_eq (h : v.ListsTokens) : Condition.listedValues v = v.toList := by
  cases v with
  | absent => rfl
  | list items =>
    have hall : ∀ s ∈ items, !s.isBlank := by simpa [ListsTokens] using h
    exact (List.filter_eq_self.mpr hall).symm
  | single s =>
    cases s with
    | text s => rw [Condition.listedValues_text, listedTexts_eq_tokens h, toList]
    | bool _ | int _ | float _ => rfl

theorem listsTokens_of_texts_eq
    (h : (Condition.listedValues v).map Scalar.asText = (v.toList.map storage.reading).map Scalar.asText) :
    v.ListsTokens := by
  cases v with
  | absent => trivial
  | list items =>
    have hlength : items.length = (items.filter (!·.isBlank)).length := by
      simpa [Condition.listedValues, toList] using congrArg List.length h
    simpa [ListsTokens] using List.length_filter_eq_length_iff.mp hlength.symm
  | single s =>
    cases s with
    | text s =>
      intro t ht
      have hmem : t ∈ (Condition.listedValues (.single (.text s))).map Scalar.asText := by
        rw [Condition.listedValues_text, List.map_map]
        exact List.mem_map.mpr ⟨t, ht, rfl⟩
      rw [h, toList, List.map_map, List.map_map] at hmem
      obtain ⟨u, hu, rfl⟩ := List.mem_map.mp hmem
      exact isToken_asText_reading (isToken_of_mem_tokens hu) storage
    | bool _ | int _ | float _ => trivial

/-- The items have the texts of the codes, in the same order. -/
theorem texts_eq_iff :
    (Condition.listedValues v).map Scalar.asText = (v.toList.map storage.reading).map Scalar.asText ↔
      v.ListsTokens ∧ ∀ s ∈ v.toList, (storage.reading s).asText = s.asText := by
  constructor
  · intro h
    have hlists := listsTokens_of_texts_eq h
    rw [hlists.listedValues_eq, List.map_map] at h
    exact ⟨hlists, fun s hs => (List.map_inj_left.mp h s hs).symm⟩
  · rintro ⟨hlists, hkept⟩
    rw [hlists.listedValues_eq, List.map_map]
    exact List.map_congr_left fun s hs => (hkept s hs).symm

end FormValue

/-! ## Descriptions -/

namespace Condition

variable {lookup : Lookup} {c : Condition} {code : String} {a : Attribute}

/-- What predicates compare with, in their order. -/
def codes (ps : List Predicate) : List Scalar := ps.flatMap (·.operand.toList)

/-- What the description says before it lists the values. -/
def heading (c : Condition) (a : Attribute) : String := a.label.getD c.field ++ " " ++ symbolLabel c.operator ++ " "

theorem listing_of_lists {symbol : String} (h : Lists symbol) : (comparisonOf symbol).Listing := by
  obtain ⟨o, ho⟩ := exists_operator_of_comparisonOf symbol
  rw [ho, ← o.takesList_comparison, ← ho, takesList_comparisonOf]
  exact h

theorem expansion_lists (hcode : c.code? = some code) (ha : usable? (lookup code) = some a)
    (hk : (comparisonOf c.operator).Listing) (hv : c.value.toList ≠ []) :
    ∃ ps, c.expansion lookup = .ok ps ∧ codes ps = c.value.toList.map a.storage.reading := by
  rw [expansion_of_code hcode, ha]
  simp only [attributePredicates, normalize_list hk.takesList, if_neg hv]
  by_cases hs : a.storage = .codeSet
  · refine ⟨_, if_pos hs, ?_⟩
    rw [setPredicates_list hk, codes, List.flatMap_map]
    exact List.flatMap_singleton' _
  · exact ⟨_, if_neg hs, List.flatMap_singleton _ _⟩

/-- The predicates compare with the values as they are listed and read as codes. -/
theorem expand_lists {catalog : Catalog} (hcode : c.code? = some code) (hop : Lists c.operator)
    (hv : c.value.toList ≠ []) (ha : catalog.find? code = some a) (hpresent : a.present) :
    ∃ ps, (c.expand catalog.lookup {}).1 = .ok ps ∧ codes ps = c.value.toList.map a.storage.reading := by
  have husable : usable? (catalog.lookup code) = some a := by simp [Catalog.lookup, ha, usable?, hpresent]
  rw [(Session.expand_eq (Session.faithful_empty _) c).1]
  exact expansion_lists hcode husable (listing_of_lists hop) hv

theorem describe_eq (hv : c.value.toList ≠ []) :
    c.describe (some a) =
      c.heading a ++ ", ".intercalate ((listedValues c.value).map fun s => a.labelOf s.asText) := by
  have hpresent : ¬ c.value.isAbsent := fun h => hv (FormValue.toList_of_isAbsent h)
  rw [describe, valueText, if_neg hpresent, valueLabel_eq]
  rfl

theorem listedValues_ne_nil {v : FormValue} (hv : v.toList ≠ []) : listedValues v ≠ [] := by
  cases v with
  | absent => exact absurd rfl hv
  | list items =>
    rintro rfl
    exact hv rfl
  | single s =>
    cases s with
    | text s =>
      rw [listedValues_text, Ne, List.map_eq_nil_iff, listedTexts]
      split
      · simpa using Text.splitWhere_ne_nil _ _
      · exact List.cons_ne_nil s []
    | bool _ | int _ | float _ => exact List.cons_ne_nil _ []

/-- The description of a condition that lists shows the codes it compares with, whatever options the
    attribute has, just when the items that it lists are tokens and no item changes its text as a code. -/
theorem describe_shows_codes_iff (hcode : c.code? = some code) (hop : Lists c.operator)
    (hv : ¬ c.value.HasNoToken) (storage : Storage) :
    (∀ (catalog : Catalog) (a : Attribute), catalog.find? code = some a → a.present → a.storage = storage →
      ∃ ps, (c.expand catalog.lookup {}).1 = .ok ps ∧
        c.describe (catalog.find? code) =
          c.heading a ++ ", ".intercalate ((codes ps).map fun s => a.labelOf s.asText)) ↔
      c.value.ListsTokens ∧ ∀ s ∈ c.value.toList, (storage.reading s).asText = s.asText := by
  have hne : c.value.toList ≠ [] := mt FormValue.toList_eq_nil_iff.mp hv
  rw [← FormValue.texts_eq_iff]
  constructor
  · intro h
    let shown := (listedValues c.value).map Scalar.asText
    let compared := (c.value.toList.map storage.reading).map Scalar.asText
    let a : Attribute := { storage, choices := Attribute.placeChoices (shown ++ compared) }
    have ha : (({} : Catalog).insert code a).find? code = some a :=
      (Keyed.find?_insert code code a []).trans (if_pos rfl)
    obtain ⟨ps, hps, hdescribe⟩ := h _ a ha rfl rfl
    obtain ⟨ps', hps', hcodes⟩ := expand_lists hcode hop hne ha rfl
    obtain rfl : ps = ps' := Except.ok.inj (hps.symm.trans hps')
    rw [ha, describe_eq hne, hcodes, a.map_labelOf, a.map_labelOf] at hdescribe
    have hshown : shown ≠ [] := by simpa [shown] using listedValues_ne_nil hne
    have hcompared : compared ≠ [] := by simpa [compared] using hne
    exact Attribute.labels_tell_apart hshown hcompared rfl (by simpa [← String.toList_inj] using hdescribe)
  · intro htexts catalog a ha hpresent hstorage
    obtain ⟨ps, hps, hcodes⟩ := expand_lists hcode hop hne ha hpresent
    refine ⟨ps, hps, ?_⟩
    rw [ha, describe_eq hne, hcodes, hstorage, a.map_labelOf, a.map_labelOf, htexts]

end Condition

/-- Blanks after the commas make no difference. -/
theorem a_list_of_codes_is_described_by_their_labels :
    let choices : List Choice := [⟨.int 12, "Red"⟩, ⟨.int 13, "Blue"⟩]
    let color : Attribute := { storage := .codeSet, label := some "Color", choices }
    let catalog : Catalog := ({} : Catalog).insert "color" color
    let c : Condition := ⟨" color ", "()", .single (.text "13, 12")⟩
    c.code? = some "color" ∧ Lists c.operator ∧ ¬ c.value.HasNoToken ∧
      c.value.ListsTokens ∧ (∀ s ∈ c.value.toList, (Storage.codeSet.reading s).asText = s.asText) ∧
      catalog.find? "color" = some color ∧
      (∃ ps, (c.expand catalog.lookup {}).1 = .ok ps ∧
        c.describe (catalog.find? "color") =
          c.heading color ++ ", ".intercalate ((Condition.codes ps).map fun s => color.labelOf s.asText)) ∧
      c.describe (catalog.find? "color") = "Color is one of Blue, Red" := by
  intro choices color catalog c
  have hcode : c.code? = some "color" := by decide +kernel
  have hop : Lists c.operator := by decide +kernel
  have hv : ¬ c.value.HasNoToken := by decide +kernel
  have htokens : c.value.ListsTokens := by
    have hlisted : listedTexts "13, 12" = ["13", "12"] := by decide +kernel
    intro t ht
    have hone : t = "13" ∨ t = "12" := by simpa [hlisted] using ht
    rcases hone with rfl | rfl
    · exact isToken_toString 13
    · exact isToken_toString 12
  have hkept : ∀ s ∈ c.value.toList, (Storage.codeSet.reading s).asText = s.asText := by decide +kernel
  have ha : catalog.find? "color" = some color := by decide +kernel
  have hshown :=
    (Condition.describe_shows_codes_iff hcode hop hv .codeSet).mpr ⟨htokens, hkept⟩ catalog color ha rfl rfl
  exact ⟨hcode, hop, hv, htokens, hkept, ha, hshown, by decide +kernel⟩

/-- The semicolon separates the codes and is kept in the description. -/
theorem codes_between_semicolons_are_shown_as_one :
    let choices : List Choice := [⟨.int 12, "Red"⟩, ⟨.int 13, "Blue"⟩]
    let color : Attribute := { storage := .coded, label := some "Color", choices }
    let catalog : Catalog := ({} : Catalog).insert "color" color
    let c : Condition := ⟨"color", "()", .single (.text "12;13")⟩
    let codes : List Scalar := [.int 12, .int 13]
    (c.expand catalog.lookup {}).1 = .ok [{ field := "color", comparison := .oneOf, operand := .list codes }] ∧
      c.heading color ++ ", ".intercalate (codes.map fun s => color.labelOf s.asText) = "Color is one of Red, Blue" ∧
      c.describe (catalog.find? "color") = "Color is one of 12;13" := by
  decide +kernel

end RulePlan
