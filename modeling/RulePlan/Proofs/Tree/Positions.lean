/-
  RulePlan.Proofs.Tree.Positions — the places where a nested document has its nodes.

  A node stands at the root, in an array at the root, or among the children of a node,
  which `children` or `conditions` lists in an array or an object. A reader takes a node
  by itself: its siblings and the nodes above see nothing of it but the rule it gives.
  So documents that are read alike as nodes can stand for each other wherever a nested
  document has a node (`In.ofJson_eq`): the tree is the same, and so is what is noted.
  Documents that give the same rule as nodes, and may have other events noted, can stand
  for each other as far as the tree goes (`In.value_ofJson_eq`).
-/

import RulePlan.Proofs.Tree.ExtraMembers

namespace RulePlan

namespace Node

/-- The members that may list the children of a node. -/
def ChildName (name : String) : Prop := name = "children" ∨ name = "conditions"

instance (name : String) : Decidable (ChildName name) := inferInstanceAs (Decidable (_ ∨ _))

/-- A node with a member at a place between others. -/
def withMember (name : String) (before after : List (String × Json)) (v : Json) : Json :=
  .obj (before ++ (name, v) :: after)

variable {name key : String} {before after : List (String × Json)} {v w : Json} {R : Json → Json → Prop}

/-! ## The member that lists the children -/

theorem find?_member_of_ne (h : name ≠ key) (v w : Json) :
    Keyed.find? key (before ++ (name, v) :: after) = Keyed.find? key (before ++ (name, w) :: after) := by
  simp only [Keyed.find?_append, Keyed.find?, if_neg h]

theorem find?_member (v : Json) :
    Keyed.find? name (before ++ (name, v) :: after) = (Keyed.find? name before).or (some v) := by
  rw [Keyed.find?_append, Keyed.find?, if_pos rfl]

theorem contains_member (key : String) (v w : Json) :
    Keyed.contains key (before ++ (name, v) :: after) = Keyed.contains key (before ++ (name, w) :: after) := by
  by_cases h : name = key
  · subst h
    simp [Keyed.contains, find?_member]
  · exact Keyed.contains_congr (find?_member_of_ne h v w)

/-- If both are read alike as children, it does not matter which of them is listed, nor whether another
    member goes before it. -/
theorem childMember?_congr {α : Type} {read : Json → α} (hname : ChildName name) (h : read v = read w) :
    (childMember? (before ++ (name, v) :: after)).map read =
      (childMember? (before ++ (name, w) :: after)).map read := by
  unfold childMember?
  rcases hname with rfl | rfl
  · rw [find?_member, find?_member, find?_member_of_ne (by decide) v w]
    cases Keyed.find? "children" before with
    | some u => rfl
    | none => exact congrArg some h
  · rw [find?_member, find?_member, find?_member_of_ne (by decide) v w]
    cases Keyed.find? "children" (before ++ ("conditions", w) :: after) with
    | some u => rfl
    | none =>
      cases Keyed.find? "conditions" before with
      | some u => rfl
      | none => exact congrArg some h

theorem find?_beside_children (hname : ChildName name) (h : ¬ ChildName key) (v w : Json) :
    Keyed.find? key (before ++ (name, v) :: after) = Keyed.find? key (before ++ (name, w) :: after) :=
  find?_member_of_ne (fun he => h (by rwa [← he])) v w

theorem typeOf_member (hname : ChildName name) (v w : Json) :
    typeOf (before ++ (name, v) :: after) = typeOf (before ++ (name, w) :: after) :=
  typeOf_congr (find?_beside_children hname (by decide) v w)

theorem aggregatorOf_member (hname : ChildName name) (v w : Json) :
    aggregatorOf (before ++ (name, v) :: after) = aggregatorOf (before ++ (name, w) :: after) :=
  aggregatorOf_congr (find?_beside_children hname (by decide) v w)

theorem isCombine_member (nodeType : String) (v w : Json) :
    isCombine nodeType (before ++ (name, v) :: after) = isCombine nodeType (before ++ (name, w) :: after) := by
  simp only [isCombine, contains_member _ v w]

theorem condition?_member (hname : ChildName name) (v w : Json) :
    condition? (before ++ (name, v) :: after) = condition? (before ++ (name, w) :: after) := by
  have hfind : ∀ key, ¬ ChildName key → Keyed.find? key (before ++ (name, v) :: after) =
      Keyed.find? key (before ++ (name, w) :: after) := fun key hkey => find?_beside_children hname hkey v w
  refine condition?_congr ?_ (hfind "operator" (by decide)) (hfind "value" (by decide))
  rw [hfind "field" (by decide), hfind "attribute" (by decide)]

theorem alike_withMember (hname : ChildName name) (h : ∀ depth, readChildren v depth = readChildren w depth) :
    Alike (withMember name before after v) (withMember name before after w) :=
  alike_members (typeOf_member hname v w) (isCombine_member _ v w) (aggregatorOf_member hname v w)
    (condition?_member hname v w) fun depth => childMember?_congr hname (h depth)

/-! ## Documents that give the same rule -/

/-- Wherever they stand, the documents give the same rule, or none. -/
def SameRule (v w : Json) : Prop := ∀ depth, (read v depth).value = (read w depth).value

/-- The rules that some documents give, one after the other. -/
def rulesOf (items : List Json) (depth : Nat) : List Rule := items.filterMap fun v => (read v depth).value

theorem rulesOf_replaced (first last : List Json) (h : SameRule v w) (depth : Nat) :
    rulesOf (first ++ v :: last) depth = rulesOf (first ++ w :: last) depth := by
  simp only [rulesOf, List.filterMap_append, List.filterMap_cons, h depth]

/-- What the rule of an object is made of. -/
theorem sameRule_members {ms ns : List (String × Json)} (hkind : isCombine (typeOf ms) ms = isCombine (typeOf ns) ns)
    (haggregator : (aggregatorOf ms).toOption = (aggregatorOf ns).toOption) (hcondition : condition? ms = condition? ns)
    (hchildren : ∀ depth,
      (childMember? ms).map (rulesOf ·.parts depth) = (childMember? ns).map (rulesOf ·.parts depth)) :
    SameRule (.obj ms) (.obj ns) := by
  have hrules : ∀ (members : List (String × Json)) depth, rulesOf (childDocuments members) depth =
      ((childMember? members).map (rulesOf ·.parts depth)).getD [] := by
    intro members depth
    unfold childDocuments
    cases childMember? members <;> rfl
  have hcombination : ∀ (members : List (String × Json)) depth, combination? members depth =
      if maxNesting < depth then none
      else (aggregatorOf members).toOption.map fun a => .combine a (rulesOf (childDocuments members) (depth + 1)) := by
    intro members depth
    unfold combination?
    cases aggregatorOf members <;> rfl
  intro depth
  rw [value_read_obj, value_read_obj, hkind, hcondition, hcombination, hcombination, haggregator, hrules, hrules,
    hchildren]

theorem sameRule_withMember (hname : ChildName name) (h : ∀ depth, rulesOf v.parts depth = rulesOf w.parts depth) :
    SameRule (withMember name before after v) (withMember name before after w) := by
  refine sameRule_members ?_ ?_ (condition?_member hname v w) fun depth => childMember?_congr hname ?_
  · rw [typeOf_member hname v w, isCombine_member _ v w]
  · rw [aggregatorOf_member hname v w]
  · exact h depth

/-! ## Below a node -/

/-- Documents that are the same but for one node at or below their top, for which the relation holds. -/
inductive At (R : Json → Json → Prop) : Json → Json → Prop
  | here {v w : Json} (h : R v w) : At R v w
  | child {name : String} (hname : ChildName name) (before after : List (String × Json)) (first last : List Json)
      {a b v w : Json} (ha : a.parts = first ++ v :: last) (hb : b.parts = first ++ w :: last) (h : At R v w) :
      At R (withMember name before after a) (withMember name before after b)

theorem readItems_replaced (first last : List Json) (h : Alike v w) (depth : Nat) :
    readItems (first ++ v :: last) depth = readItems (first ++ w :: last) depth := by
  induction first with
  | nil => rw [List.nil_append, List.nil_append, readItems, readItems, h depth]
  | cons u rest ih => rw [List.cons_append, List.cons_append, readItems, readItems, ih]

theorem At.alike (hR : ∀ v w, R v w → Alike v w) (h : At R v w) : Alike v w := by
  induction h with
  | here h => exact hR _ _ h
  | child hname before after first last ha hb _ ih =>
    refine alike_withMember hname fun depth => ?_
    rw [readChildren_eq, readChildren_eq, ha, hb, readItems_replaced first last ih]

theorem At.sameRule (hR : ∀ v w, R v w → SameRule v w) (h : At R v w) : SameRule v w := by
  induction h with
  | here h => exact hR _ _ h
  | child hname before after first last ha hb _ ih =>
    refine sameRule_withMember hname fun depth => ?_
    rw [ha, hb, rulesOf_replaced first last ih]

/-! ## In a document -/

/-- At the root a document may also be an array of nodes. -/
inductive In (R : Json → Json → Prop) : Json → Json → Prop
  | root {v w : Json} (h : At R v w) : In R v w
  | item (first last : List Json) {v w : Json} (h : At R v w) :
      In R (.arr (first ++ v :: last)) (.arr (first ++ w :: last))

/-- The document is a node, and no flat form of one. -/
def IsNested (v : Json) : Prop := ∃ members, v = .obj members ∧ Path.isFlat members = false

theorem isNested_withMember (hname : ChildName name) (before after : List (String × Json)) (v : Json) :
    IsNested (withMember name before after v) := by
  have hkey : Path.ofKey? name = none := by rcases hname with rfl | rfl <;> decide
  exact ⟨_, rfl, Path.isFlat_of_not_path (List.mem_append_right before List.mem_cons_self) hkey⟩

theorem IsNested.ofJson_eq (hv : IsNested v) (hw : IsNested w) (h : Alike v w) : Tree.ofJson v = Tree.ofJson w := by
  obtain ⟨ms, rfl, hms⟩ := hv
  obtain ⟨ns, rfl, hns⟩ := hw
  rw [Tree.ofJson, Tree.ofJson, Path.nested_of_not_isFlat hms, Path.nested_of_not_isFlat hns, pure_bind, pure_bind,
    Tree.ofNested, Tree.ofNested, h 1]

theorem ofJson_arr (items : List Json) :
    Tree.ofJson (.arr items) = readItems items 2 >>= fun children => pure ⟨.all, children⟩ := by
  rw [Tree.ofJson, Path.nested, pure_bind, Tree.ofNested]
  simp

theorem At.isNested (hR : ∀ v w, R v w → IsNested v ∧ IsNested w) (h : At R v w) : IsNested v ∧ IsNested w := by
  cases h with
  | here h => exact hR v w h
  | child hname => exact ⟨isNested_withMember hname _ _ _, isNested_withMember hname _ _ _⟩

/-- What is read alike as a node can be replaced wherever a document has a node. -/
theorem In.ofJson_eq (hR : ∀ v w, R v w → Alike v w ∧ IsNested v ∧ IsNested w) (h : In R v w) :
    Tree.ofJson v = Tree.ofJson w := by
  have halike : ∀ v w, R v w → Alike v w := fun v w h => (hR v w h).1
  cases h with
  | root h =>
    obtain ⟨hv, hw⟩ := h.isNested fun v w h => (hR v w h).2
    exact hv.ofJson_eq hw (h.alike halike)
  | item first last h => rw [ofJson_arr, ofJson_arr, readItems_replaced first last (h.alike halike)]

theorem value_ofJson_arr (items : List Json) : (Tree.ofJson (.arr items)).value = ⟨.all, rulesOf items 2⟩ := by
  rw [ofJson_arr, Noted.value_bind, Noted.value_pure, value_readItems, rulesOf]

theorem IsNested.value_ofJson (h : IsNested v) :
    (Tree.ofJson v).value = ((read v 1).value.map Rule.toTree).getD {} := by
  obtain ⟨members, rfl, hflat⟩ := h
  rw [Tree.ofJson, Path.nested_of_not_isFlat hflat, pure_bind, Tree.value_ofNested_obj]

/-- The tree of a node that has children and nothing else. -/
theorem value_ofJson_children (v : Json) :
    (Tree.ofJson (withMember "children" [] [] v)).value = ⟨.all, rulesOf v.parts 2⟩ := by
  rw [(isNested_withMember (.inl rfl) [] [] v).value_ofJson, withMember, List.nil_append, value_read_obj]
  rfl

/-- What gives the same rule as a node can be replaced as far as the tree goes. -/
theorem In.value_ofJson_eq (hR : ∀ v w, R v w → SameRule v w ∧ IsNested v ∧ IsNested w) (h : In R v w) :
    (Tree.ofJson v).value = (Tree.ofJson w).value := by
  have hsame : ∀ v w, R v w → SameRule v w := fun v w h => (hR v w h).1
  cases h with
  | root h =>
    obtain ⟨hv, hw⟩ := h.isNested fun v w h => (hR v w h).2
    rw [hv.value_ofJson, hw.value_ofJson, h.sameRule hsame 1]
  | item first last h => rw [value_ofJson_arr, value_ofJson_arr, rulesOf_replaced first last (h.sameRule hsame)]

end Node

end RulePlan
