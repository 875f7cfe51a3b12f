/-
  RulePlan.Proofs.Tree.Variants — the ways of writing one tree.

  A node may list its children as `children` or `conditions` and name its field as `field`
  or `attribute`; letter case and blanks of its aggregator do not count, nor do blanks
  around its type (`Variant`). Among children may stand what is no node: anything but an
  object, an object with a type of its own and no field, a combination whose aggregator
  nobody knows (`Garbage`). It is noted and left out, and its siblings are read as if it
  were not there.

  Proved (`Tree.ofJson_variants`): documents that arise from each other by any number of
  such changes, wherever they have nodes, have the same tree, and an array has the tree
  of a node with these children. A null for an aggregator is no garbage, it stands for
  `all`, and a type of blanks is none (`what_looks_like_garbage_may_be_a_combination`).
-/

import Mathlib.Logic.Relation
import RulePlan.Proofs.Text.Strip
import RulePlan.Proofs.Tree.Positions

namespace RulePlan

namespace Node

/-! ## One node, written in two ways -/

/-- The same members, one of them under another name that no member had. -/
structure Renamed (old new : String) (ms ns : List (String × Json)) : Prop where
  moved : ∃ v, Keyed.find? old ms = some v ∧ Keyed.find? new ns = some v
  unused : Keyed.find? new ms = none
  left : Keyed.find? old ns = none
  others : ∀ key, key ≠ old → key ≠ new → Keyed.find? key ms = Keyed.find? key ns

/-- The same members, the text of one of them written in another way. -/
structure Respelled (name : String) (Same : String → String → Prop) (ms ns : List (String × Json)) : Prop where
  texts : ∃ s t, Keyed.find? name ms = some (.str s) ∧ Keyed.find? name ns = some (.str t) ∧ Same s t
  others : ∀ key, key ≠ name → Keyed.find? key ms = Keyed.find? key ns

/-- The second text is the first one between blanks. -/
def Padded (s t : String) : Prop :=
  ∃ before after, before.all Text.isBlank ∧ after.all Text.isBlank ∧ t.toList = before ++ s.toList ++ after

/-- The texts differ at most in the case of ASCII letters. -/
def Recased (s t : String) : Prop := s.toList.map Char.toLower = t.toList.map Char.toLower

variable {ms ns : List (String × Json)} {s t : String} {v w g : Json}

theorem Padded.strip_eq (h : Padded s t) : Text.strip t.toList = Text.strip s.toList := by
  obtain ⟨before, after, hbefore, hafter, ht⟩ := h
  rw [ht, Text.strip_append_blank hafter, Text.strip_blank_append hbefore]

theorem Padded.ofName?_eq (h : Padded s t) : Aggregator.ofName? t = Aggregator.ofName? s := by
  rw [Aggregator.ofName?, h.strip_eq, Aggregator.ofName?]

theorem Recased.ofName?_eq (h : Recased s t) : Aggregator.ofName? t = Aggregator.ofName? s := by
  rw [Aggregator.ofName?, ← Text.strip_map Text.isBlank_toLower, ← h, Text.strip_map Text.isBlank_toLower,
    Aggregator.ofName?]

theorem Renamed.sameRule_children (h : Renamed "children" "conditions" ms ns) : SameRule (.obj ms) (.obj ns) := by
  obtain ⟨v, hold, hnew⟩ := h.moved
  have hother : ∀ key, ¬ ChildName key → Keyed.find? key ms = Keyed.find? key ns := fun key hkey =>
    h.others key (fun e => hkey (.inl e)) fun e => hkey (.inr e)
  have hkind : ∀ nodeType, isCombine nodeType ms = isCombine nodeType ns := by
    intro nodeType
    simp [isCombine, Keyed.contains, hold, hnew]
  refine sameRule_members ?_ ?_ ?_ fun depth => ?_
  · rw [typeOf_congr (hother "type" (by decide)), hkind]
  · rw [aggregatorOf_congr (hother "aggregator" (by decide))]
  · refine condition?_congr ?_ (hother "operator" (by decide)) (hother "value" (by decide))
    rw [hother "field" (by decide), hother "attribute" (by decide)]
  · rw [childMember?, childMember?, hold, h.left, hnew]
    rfl

/-- Two nodes with the same children that say the same of themselves. -/
theorem sameRule_of_find?
    (hother : ∀ key ∈ ["operator", "value", "children", "conditions"], Keyed.find? key ms = Keyed.find? key ns)
    (htype : typeOf ms = typeOf ns) (hgiven : Keyed.contains "aggregator" ms = Keyed.contains "aggregator" ns)
    (haggregator : (aggregatorOf ms).toOption = (aggregatorOf ns).toOption)
    (hfield : (Keyed.find? "field" ms).or (Keyed.find? "attribute" ms) =
      (Keyed.find? "field" ns).or (Keyed.find? "attribute" ns)) : SameRule (.obj ms) (.obj ns) := by
  simp only [List.forall_mem_cons] at hother
  obtain ⟨hoperator, hvalue, hchildren, hconditions, -⟩ := hother
  refine sameRule_members ?_ haggregator (condition?_congr hfield hoperator hvalue) fun depth => ?_
  · rw [htype, isCombine, hgiven, Keyed.contains_congr hchildren, Keyed.contains_congr hconditions, isCombine]
  · rw [childMember?, hchildren, hconditions, childMember?]

theorem Renamed.sameRule_field (h : Renamed "field" "attribute" ms ns) : SameRule (.obj ms) (.obj ns) := by
  obtain ⟨v, hold, hnew⟩ := h.moved
  have haggregator := h.others "aggregator" (by decide) (by decide)
  refine sameRule_of_find? (fun key hkey => ?_) (typeOf_congr (h.others "type" (by decide) (by decide))) ?_ ?_ ?_
  · exact h.others key (ne_of_mem_of_not_mem hkey (by decide)) (ne_of_mem_of_not_mem hkey (by decide))
  · exact Keyed.contains_congr haggregator
  · rw [aggregatorOf_congr haggregator]
  · rw [hold, h.left, hnew]
    rfl

theorem Respelled.sameRule_aggregator {Same : String → String → Prop}
    (hsame : ∀ s t, Same s t → Aggregator.ofName? t = Aggregator.ofName? s) (h : Respelled "aggregator" Same ms ns) :
    SameRule (.obj ms) (.obj ns) := by
  obtain ⟨s, t, hs, ht, hst⟩ := h.texts
  refine sameRule_of_find? (fun key hkey => ?_) (typeOf_congr (h.others "type" (by decide))) ?_ ?_ ?_
  · exact h.others key (ne_of_mem_of_not_mem hkey (by decide))
  · rw [Keyed.contains, Keyed.contains, hs, ht]
    rfl
  · -- an unknown name is noted as it is written, and there is no aggregator either way
    simp only [aggregatorOf, hs, ht, hsame s t hst]
    cases Aggregator.ofName? s <;> rfl
  · rw [h.others "field" (by decide), h.others "attribute" (by decide)]

theorem Respelled.sameRule_type (h : Respelled "type" Padded ms ns) : SameRule (.obj ms) (.obj ns) := by
  obtain ⟨s, t, hs, ht, hst⟩ := h.texts
  have haggregator := h.others "aggregator" (by decide)
  refine sameRule_of_find? (fun key hkey => ?_) ?_ ?_ ?_ ?_
  · exact h.others key (ne_of_mem_of_not_mem hkey (by decide))
  · simp only [typeOf, hs, ht, Option.bind_some, Json.str?, Option.getD_some, Text.trim, hst.strip_eq]
  · exact Keyed.contains_congr haggregator
  · rw [aggregatorOf_congr haggregator]
  · rw [h.others "field" (by decide), h.others "attribute" (by decide)]

/-! ## What is no node -/

/-- Documents among children that say nothing. -/
inductive Garbage : Json → Prop
  | notAnObject {v : Json} (h : ∀ members, v ≠ .obj members) : Garbage v
  /-- A type that is no combination, and nothing that a condition could be about. -/
  | noField {members : List (String × Json)} {nodeType : String}
      (htype : Keyed.find? "type" members = some (.str nodeType)) (hblank : Text.allBlank nodeType = false)
      (hkind : isCombine (Text.trim nodeType) members = false)
      (hfield : ∀ s, Keyed.find? "field" members ≠ some (.str s))
      (hattribute : ∀ s, Keyed.find? "attribute" members ≠ some (.str s)) : Garbage (.obj members)
  | unknownAggregator {members : List (String × Json)} {name : String}
      (hkind : isCombine (typeOf members) members) (h : Keyed.find? "aggregator" members = some (.str name))
      (hname : Aggregator.ofName? name = none) : Garbage (.obj members)
  | otherAggregator {members : List (String × Json)} {v : Json} (hkind : isCombine (typeOf members) members)
      (h : Keyed.find? "aggregator" members = some v) (hnull : v ≠ .null) (hstr : ∀ s, v ≠ .str s) :
      Garbage (.obj members)

theorem condition?_of_no_field (hfield : ∀ s, Keyed.find? "field" ms ≠ some (.str s))
    (hattribute : ∀ s, Keyed.find? "attribute" ms ≠ some (.str s)) : condition? ms = none := by
  unfold condition?
  split
  · next s h =>
    rcases Option.or_eq_some_iff.mp h with h | ⟨-, h⟩
    · exact absurd h (hfield s)
    · exact absurd h (hattribute s)
  · rfl

theorem combination?_of_error {e : Event} (h : aggregatorOf ms = .error e) (depth : Nat) :
    combination? ms depth = none := by
  simp only [combination?, h, ite_self]

theorem Garbage.value_read (h : Garbage g) (depth : Nat) : (read g depth).value = none := by
  cases h with
  | notAnObject h =>
    refine Option.eq_none_iff_forall_ne_some.mpr fun r hr => ?_
    obtain ⟨members, rfl⟩ := exists_obj_of_read hr
    exact h members rfl
  | noField htype hblank hkind hfield hattribute =>
    rw [value_read_obj, typeOf, htype]
    simp only [Option.bind_some, Json.str?, Option.getD_some, hkind, condition?_of_no_field hfield hattribute]
    rfl
  | @unknownAggregator _ name hkind h hname =>
    rw [value_read_obj, if_pos hkind]
    refine combination?_of_error (e := .unknownAggregator name) ?_ depth
    rw [aggregatorOf, h]
    simp only [hname]
  | @otherAggregator _ v hkind h hnull hstr =>
    rw [value_read_obj, if_pos hkind]
    refine combination?_of_error (e := .aggregatorNotAString v.kindName) ?_ depth
    rw [aggregatorOf, h]
    cases v with
    | null => exact absurd rfl hnull
    | str s => exact absurd rfl (hstr s)
    | bool | int | real | arr | obj => rfl

theorem Garbage.rulesOf_eq (h : Garbage g) (first last : List Json) (depth : Nat) :
    rulesOf (first ++ g :: last) depth = rulesOf (first ++ last) depth := by
  simp only [rulesOf, List.filterMap_append, List.filterMap_cons, h.value_read depth]

/-! ## Variants -/

/-- The second document is the first one with a change that does not count. -/
inductive Variant : Json → Json → Prop
  | children {ms ns : List (String × Json)} (h : Renamed "children" "conditions" ms ns) : Variant (.obj ms) (.obj ns)
  | field {ms ns : List (String × Json)} (h : Renamed "field" "attribute" ms ns) : Variant (.obj ms) (.obj ns)
  | aggregatorCase {ms ns : List (String × Json)} (h : Respelled "aggregator" Recased ms ns) :
      Variant (.obj ms) (.obj ns)
  | aggregatorBlanks {ms ns : List (String × Json)} (h : Respelled "aggregator" Padded ms ns) :
      Variant (.obj ms) (.obj ns)
  | typeBlanks {ms ns : List (String × Json)} (h : Respelled "type" Padded ms ns) : Variant (.obj ms) (.obj ns)
  | garbage {name : String} (hname : ChildName name) (before after : List (String × Json)) (first last : List Json)
      {g : Json} (hg : Garbage g) :
      Variant (withMember name before after (.arr (first ++ last)))
        (withMember name before after (.arr (first ++ g :: last)))

theorem Variant.sameRule (h : Variant v w) : SameRule v w := by
  cases h with
  | children h => exact h.sameRule_children
  | field h => exact h.sameRule_field
  | aggregatorCase h => exact h.sameRule_aggregator fun _ _ => Recased.ofName?_eq
  | aggregatorBlanks h => exact h.sameRule_aggregator fun _ _ => Padded.ofName?_eq
  | typeBlanks h => exact h.sameRule_type
  | garbage hname before after first last hg =>
    exact sameRule_withMember hname fun depth => (hg.rulesOf_eq first last depth).symm

/-- A member that is no path keeps its object from being a flat form. -/
theorem isNested_of_find? {key : String} (hkey : Path.ofKey? key = none) (h : Keyed.find? key ms = some v) :
    IsNested (.obj ms) :=
  ⟨ms, rfl, Path.isFlat_of_not_path (Keyed.mem_of_find? h) hkey⟩

theorem Renamed.isNested {old new : String} (h : Renamed old new ms ns) (hold : Path.ofKey? old = none)
    (hnew : Path.ofKey? new = none) : IsNested (.obj ms) ∧ IsNested (.obj ns) := by
  obtain ⟨v, hms, hns⟩ := h.moved
  exact ⟨isNested_of_find? hold hms, isNested_of_find? hnew hns⟩

theorem Respelled.isNested {name : String} {Same : String → String → Prop} (h : Respelled name Same ms ns)
    (hname : Path.ofKey? name = none) : IsNested (.obj ms) ∧ IsNested (.obj ns) := by
  obtain ⟨s, t, hs, ht, -⟩ := h.texts
  exact ⟨isNested_of_find? hname hs, isNested_of_find? hname ht⟩

theorem Variant.isNested (h : Variant v w) : IsNested v ∧ IsNested w := by
  cases h with
  | children h => exact h.isNested (by decide) (by decide)
  | field h => exact h.isNested (by decide) (by decide)
  | aggregatorCase h => exact h.isNested (by decide)
  | aggregatorBlanks h => exact h.isNested (by decide)
  | typeBlanks h => exact h.isNested (by decide)
  | garbage hname before after =>
    exact ⟨isNested_withMember hname before after _, isNested_withMember hname before after _⟩

/-- The second document is the first one with a change at a place where it has a node, or among the nodes
    of an array at the root. -/
inductive Revised : Json → Json → Prop
  | node {v w : Json} (h : In Variant v w) : Revised v w
  | garbage (first last : List Json) {g : Json} (hg : Garbage g) :
      Revised (.arr (first ++ last)) (.arr (first ++ g :: last))

theorem Revised.value_ofJson_eq (h : Revised v w) : (Tree.ofJson v).value = (Tree.ofJson w).value := by
  cases h with
  | node h => exact h.value_ofJson_eq fun v w h => ⟨h.sameRule, h.isNested⟩
  | garbage first last hg => rw [value_ofJson_arr, value_ofJson_arr, hg.rulesOf_eq]

end Node

/-- Documents that come from each other by changes that do not count have the same tree, and so have an array
    of children and a node that lists them. A flat form is never changed so: it has only paths for keys. -/
theorem Tree.ofJson_variants :
    (∀ v w, Relation.EqvGen Node.Revised v w → (ofJson v).value = (ofJson w).value) ∧
      ∀ items, (ofJson (.arr items)).value = (ofJson (.obj [("children", .arr items)])).value := by
  refine ⟨fun v w h => ?_, fun items => ?_⟩
  · induction h with
    | rel v w h => exact h.value_ofJson_eq
    | refl v => rfl
    | symm v w _ ih => exact ih.symm
    | trans u v w _ _ hfirst hsecond => exact hfirst.trans hsecond
  · exact (Node.value_ofJson_arr items).trans (Node.value_ofJson_children (.arr items)).symm

/-- An `any` with one condition, as it is written at first and after five changes. -/
theorem an_any_is_read_in_other_letters_under_other_names_and_beside_garbage :
    let written := Json.obj [("aggregator", .str "any"), ("children", .arr [.obj [("field", .str "sku")]])]
    let varied := Json.obj [("aggregator", .str " ANY"), ("conditions", .arr [.null, .obj [("attribute", .str "sku")]])]
    (Tree.ofJson written).value = (Tree.ofJson varied).value ∧
      (Tree.ofJson varied).value = ⟨.any, [.condition ⟨"sku", "==", .absent⟩]⟩ := by
  intro written varied
  let node (aggregator : String) (children : String × Json) : Json := .obj [("aggregator", .str aggregator), children]
  let sku : Json := .obj [("field", .str "sku")]
  have hrecased : Node.Variant (node "any" ("children", .arr [sku])) (node "ANY" ("children", .arr [sku])) :=
    .aggregatorCase ⟨⟨"any", "ANY", rfl, rfl, rfl⟩, fun key hkey => by simp [Keyed.find?, hkey.symm]⟩
  have hpadded : Node.Variant (node "ANY" ("children", .arr [sku])) (node " ANY" ("children", .arr [sku])) :=
    .aggregatorBlanks ⟨⟨"ANY", " ANY", rfl, rfl, [' '], [], by decide, by decide, by decide⟩,
      fun key hkey => by simp [Keyed.find?, hkey.symm]⟩
  have hrenamed : Node.Variant (node " ANY" ("children", .arr [sku])) (node " ANY" ("conditions", .arr [sku])) :=
    .children ⟨⟨.arr [sku], rfl, rfl⟩, rfl, rfl, fun key hold hnew => by simp [Keyed.find?, hold.symm, hnew.symm]⟩
  have hgarbage : Node.Variant (node " ANY" ("conditions", .arr [sku]))
      (node " ANY" ("conditions", .arr [.null, sku])) :=
    .garbage (.inr rfl) [("aggregator", .str " ANY")] [] [] [sku] (.notAnObject fun _ h => by cases h)
  have hfield : Node.At Node.Variant (node " ANY" ("conditions", .arr [.null, sku])) varied :=
    .child (.inr rfl) [("aggregator", .str " ANY")] [] [.null] [] rfl rfl (.here (.field
      ⟨⟨.str "sku", rfl, rfl⟩, rfl, rfl, fun key hold hnew => by simp [Keyed.find?, hold.symm, hnew.symm]⟩))
  have hroot : ∀ {v w}, Node.Variant v w → Relation.EqvGen Node.Revised v w :=
    fun h => .rel _ _ (.node (.root (.here h)))
  refine ⟨Tree.ofJson_variants.1 _ _ ?_, rfl⟩
  exact (hroot hrecased).trans _ _ _ ((hroot hpadded).trans _ _ _ ((hroot hrenamed).trans _ _ _
    ((hroot hgarbage).trans _ _ _ (.rel _ _ (.node (.root hfield))))))

/-- A combination may have a null for an aggregator, and an object may be one in spite of a type of blanks. -/
theorem what_looks_like_garbage_may_be_a_combination :
    (¬ ∀ (members : List (String × Json)) (v : Json), Node.isCombine (Node.typeOf members) members →
      Keyed.find? "aggregator" members = some v → (∀ s, v ≠ .str s) →
        (Tree.ofJson (.arr [.obj members])).value = (Tree.ofJson (.arr [])).value) ∧
      ¬ ∀ (members : List (String × Json)) (nodeType : String), Keyed.find? "type" members = some (.str nodeType) →
        nodeType ≠ "" → Node.isCombine nodeType [] = false → Keyed.find? "field" members = none →
        Keyed.find? "attribute" members = none →
          (Tree.ofJson (.arr [.obj members])).value = (Tree.ofJson (.arr [])).value := by
  constructor
  · intro h
    have heq := h [("aggregator", .null)] .null rfl rfl (fun s hs => by cases hs)
    exact absurd (congrArg (·.children.length) heq) (by decide)
  · intro h
    have heq := h [("type", .str " "), ("children", .arr [])] " " rfl (by decide) (by decide) rfl rfl
    exact absurd (congrArg (·.children.length) heq) (by decide)

end RulePlan
