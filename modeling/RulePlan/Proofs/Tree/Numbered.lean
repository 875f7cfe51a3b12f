/-
  RulePlan.Proofs.Tree.Numbered — children under the numbers of their positions.

  An array that is kept by number arrives as an object: its items stand under `0`, `1`
  and so on, in decimal. A reader of nodes takes the members of such an object in their
  order, and the order of keys is that of texts, where the decimal of 10 comes before
  that of 2. So what is read are the items in the order of the decimals of their
  positions as texts (`Json.parts_numbered`). Up to ten items that is the order of the
  array; from eleven items on the item under `10` comes third, before the one under `2`.

  Proved (`Tree.ofJson_numbered`):
  - wherever a nested document has a node that lists children, an object of numbered
    items can be replaced by the array of the items in the order of texts;
  - with at most ten items, by the array of the items as they are;
  - with more than ten items that are read as different rules the tree of the object is
    never that of the array, and eleven conditions are such items
    (`the_eleventh_child_comes_third`).
-/

import Mathlib.Data.List.Nodup
import RulePlan.Proofs.Number.Written
import RulePlan.Proofs.Tree.Positions

namespace RulePlan

namespace Json

/-- The items of an array under their positions. -/
def numberedEntries (items : List Json) : List (String × Json) := items.mapIdx fun i v => (toString i, v)

/-- The object that an array becomes when it is kept by number. -/
def numbered (items : List Json) : Json := .obj (Keyed.ofList (numberedEntries items))

def byKey (a b : String × Json) : Bool := decide (a.1 ≤ b.1)

def sortedEntries (items : List Json) : List (String × Json) := (numberedEntries items).mergeSort byKey

/-- The items of an array in the order of their positions as texts. -/
def inTextOrder (items : List Json) : List Json := (sortedEntries items).map (·.2)

variable {items : List Json}

theorem decimal_injective {i j : Nat} (h : toString i = toString j) : i = j :=
  Int.ofNat_inj.mp (toString_injective (m := i) (n := j) h)

theorem length_numberedEntries (items : List Json) : (numberedEntries items).length = items.length := by
  simp [numberedEntries]

theorem keys_numberedEntries (items : List Json) :
    (numberedEntries items).map (·.1) = (List.range items.length).map fun i => toString i :=
  List.ext_getElem (by simp [numberedEntries]) fun i _ _ => by simp [numberedEntries]

theorem values_numberedEntries (items : List Json) : (numberedEntries items).map (·.2) = items :=
  List.ext_getElem (by simp [numberedEntries]) fun i _ _ => by simp [numberedEntries]

theorem nodup_numberedEntries (items : List Json) : ((numberedEntries items).map (·.1)).Nodup := by
  rw [keys_numberedEntries]
  exact List.nodup_range.map fun i j => decimal_injective

/-! ## The order of texts -/

theorem sortedEntries_perm (items : List Json) : (sortedEntries items).Perm (numberedEntries items) :=
  List.mergeSort_perm _ _

theorem sortedEntries_pairwise (items : List Json) : (sortedEntries items).Pairwise fun a b => a.1 ≤ b.1 := by
  have htrans : ∀ a b c : String × Json, byKey a b → byKey b c → byKey a c := by
    intro a b c hab hbc
    exact decide_eq_true (String.le_trans (of_decide_eq_true hab) (of_decide_eq_true hbc))
  have htotal : ∀ a b : String × Json, byKey a b || byKey b a := by
    intro a b
    simpa [byKey] using String.le_total a.1 b.1
  exact (List.pairwise_mergeSort htrans htotal (numberedEntries items)).imp of_decide_eq_true

theorem ascending_sortedEntries (items : List Json) : Keyed.Ascending (sortedEntries items) := by
  have hnd := ((sortedEntries_perm items).map (·.1)).nodup_iff.mpr (nodup_numberedEntries items)
  refine (sortedEntries_pairwise items).imp₂ (fun a b hle hne => ?_) (List.pairwise_map.mp hnd)
  exact Std.lt_of_le_of_ne hle hne

/-- What a reader finds in an object of numbered items. -/
theorem parts_numbered (items : List Json) : (numbered items).parts = inTextOrder items := by
  rw [numbered, Keyed.ofList_eq_of_perm (sortedEntries_perm items) (ascending_sortedEntries items)]
  rfl

theorem inTextOrder_perm (items : List Json) : (inTextOrder items).Perm items := by
  have h := (sortedEntries_perm items).map (·.2)
  rwa [values_numberedEntries] at h

/-! ## Up to ten items -/

theorem pairwise_numberedEntries (h : items.length ≤ 10) : (numberedEntries items).Pairwise fun a b => a.1 ≤ b.1 := by
  have digits : ∀ j < 10, ∀ i < j, toString i ≤ toString j := by decide
  rw [List.pairwise_iff_getElem]
  intro i j hi hj hij
  rw [length_numberedEntries] at hj
  simpa [numberedEntries] using digits j (by omega) i hij

theorem inTextOrder_eq_self (h : items.length ≤ 10) : inTextOrder items = items := by
  have hsorted : sortedEntries items = numberedEntries items :=
    List.mergeSort_of_pairwise ((pairwise_numberedEntries h).imp decide_eq_true)
  rw [inTextOrder, hsorted, values_numberedEntries]

/-! ## More items -/

theorem sortedEntries_ne (h : 10 < items.length) : sortedEntries items ≠ numberedEntries items := by
  intro heq
  have hle := List.pairwise_iff_getElem.mp (sortedEntries_pairwise items) 2 10
    (by rw [heq, length_numberedEntries]; omega) (by rw [heq, length_numberedEntries]; omega) (by decide)
  simp only [heq, numberedEntries, List.getElem_mapIdx] at hle
  exact absurd hle (by decide)

/-- A rearrangement that no function of different values sees is none. -/
theorem eq_of_map_eq {α β : Type} {xs ys : List α} {f : α → β} (hp : xs.Perm ys) (hnd : (ys.map f).Nodup)
    (h : xs.map f = ys.map f) : xs = ys := by
  refine List.ext_getElem hp.length_eq fun i hx hy => ?_
  refine List.inj_on_of_nodup_map hnd (hp.mem_iff.mp (List.getElem_mem hx)) (List.getElem_mem hy) ?_
  have hi := List.getElem_of_eq h (i := i) (by simpa using hx)
  simpa using hi

theorem map_inTextOrder_ne {β : Type} {f : Json → β} (h : 10 < items.length) (hnd : (items.map f).Nodup) :
    (inTextOrder items).map f ≠ items.map f := by
  have hvalues : (numberedEntries items).map (f ·.2) = items.map f := by
    rw [← congrArg (List.map f) (values_numberedEntries items), List.map_map]
    rfl
  intro heq
  refine sortedEntries_ne h (eq_of_map_eq (f := (f ·.2)) (sortedEntries_perm items) (hvalues ▸ hnd) ?_)
  rw [hvalues, ← heq, inTextOrder, List.map_map]
  rfl

/-- Nothing is lost where the function has a value for each item. -/
theorem map_some_filterMap {β : Type} {f : Json → Option β} (h : ∀ v ∈ items, (f v).isSome) :
    (items.filterMap f).map some = items.map f := by
  rw [List.map_filterMap_some_eq_filter_map_isSome, List.filter_eq_self]
  exact List.forall_mem_map.mpr h

end Json

namespace Node

/-- Two nodes that differ only in what lists their children. -/
inductive Relisted (x y : Json) : Json → Json → Prop
  | intro {name : String} (hname : ChildName name) (before after : List (String × Json)) :
      Relisted x y (withMember name before after x) (withMember name before after y)

variable {x y v w : Json}

theorem Relisted.alike (hparts : x.parts = y.parts) (h : Relisted x y v w) :
    Alike v w ∧ IsNested v ∧ IsNested w := by
  obtain ⟨hname, before, after⟩ := h
  refine ⟨alike_withMember hname fun depth => ?_, isNested_withMember hname _ _ _, isNested_withMember hname _ _ _⟩
  rw [readChildren_eq, readChildren_eq, hparts]

/-- Children are the same if they are listed in the same order, in whatever they are listed. -/
theorem ofJson_relisted (hparts : x.parts = y.parts) (h : In (Relisted x y) v w) : Tree.ofJson v = Tree.ofJson w :=
  h.ofJson_eq fun _ _ => Relisted.alike hparts

end Node

/-- Children in an object under the numbers of their positions are read in the order of these numbers as
    texts. That is the order of an array of at most ten, and never that of more that are read as
    different rules. -/
theorem Tree.ofJson_numbered (items : List Json) :
    (∀ v w, Node.In (Node.Relisted (.numbered items) (.arr (Json.inTextOrder items))) v w → ofJson v = ofJson w) ∧
    (items.length ≤ 10 →
      ∀ v w, Node.In (Node.Relisted (.numbered items) (.arr items)) v w → ofJson v = ofJson w) ∧
    (10 < items.length →
      ∀ rules : List Rule, items.map (fun v => (Node.read v 2).value) = rules.map some → rules.Nodup →
        (ofJson (Node.withMember "children" [] [] (.numbered items))).value ≠
          (ofJson (Node.withMember "children" [] [] (.arr items))).value) := by
  refine ⟨fun v w => Node.ofJson_relisted (Json.parts_numbered items), ?_, ?_⟩
  · intro h v w
    refine Node.ofJson_relisted ?_
    rw [Json.parts_numbered, Json.inTextOrder_eq_self h]
    rfl
  · intro h rules hrules hnd heq
    have hread : ∀ v ∈ items, (Node.read v 2).value.isSome := by
      intro v hv
      obtain ⟨r, -, hr⟩ := List.mem_map.mp (hrules ▸ List.mem_map_of_mem hv)
      exact hr ▸ rfl
    rw [Node.value_ofJson_children, Node.value_ofJson_children, Json.parts_numbered] at heq
    have hsame : (Json.inTextOrder items).filterMap (fun v => (Node.read v 2).value) =
        items.filterMap fun v => (Node.read v 2).value := congrArg Tree.children heq
    refine Json.map_inTextOrder_ne h (f := fun v => (Node.read v 2).value) ?_ ?_
    · rw [hrules]
      exact hnd.map (Option.some_injective _)
    · rw [← Json.map_some_filterMap hread, ← hsame]
      exact (Json.map_some_filterMap fun v hv => hread v ((Json.inTextOrder_perm items).mem_iff.mp hv)).symm

def conditionsOn (positions : List Nat) : List Json := positions.map fun i => .obj [("field", .str (toString i))]

def rulesOn (positions : List Nat) : List Rule := positions.map fun i => .condition ⟨toString i, "==", .absent⟩

/-- Three children of an `any` below the root may be numbered. Eleven that are numbered come in another order,
    and at the root that makes another tree. -/
theorem three_children_may_be_numbered_but_not_eleven :
    let anyOf := fun children => Node.withMember "children" [] [] (.arr [.null,
      Node.withMember "conditions" [("aggregator", .str "any")] [("type", .str "combine")] children])
    let eleven := conditionsOn (List.range 11)
    Tree.ofJson (anyOf (.numbered (conditionsOn [0, 1, 2]))) = Tree.ofJson (anyOf (.arr (conditionsOn [0, 1, 2]))) ∧
      Tree.ofJson (anyOf (.numbered eleven)) =
        Tree.ofJson (anyOf (.arr (conditionsOn [0, 1, 10, 2, 3, 4, 5, 6, 7, 8, 9]))) ∧
      (Tree.ofJson (Node.withMember "children" [] [] (.numbered eleven))).value ≠
        (Tree.ofJson (Node.withMember "children" [] [] (.arr eleven))).value := by
  intro anyOf eleven
  have hin : ∀ x y, Node.In (Node.Relisted x y) (anyOf x) (anyOf y) := fun x y =>
    .root (.child (.inl rfl) [] [] [.null] [] rfl rfl (.here (.intro (.inr rfl) _ _)))
  have horder : Json.inTextOrder eleven = conditionsOn [0, 1, 10, 2, 3, 4, 5, 6, 7, 8, 9] := by
    rw [← Json.parts_numbered]
    rfl
  have hnd : (rulesOn (List.range 11)).Nodup :=
    List.nodup_range.map fun i j h => Json.decimal_injective (congrArg Condition.field (Rule.condition.inj h))
  refine ⟨(Tree.ofJson_numbered (conditionsOn [0, 1, 2])).2.1 (by decide) _ _ (hin _ _), ?_,
    (Tree.ofJson_numbered eleven).2.2 (by decide) (rulesOn (List.range 11)) rfl hnd⟩
  rw [← horder]
  exact (Tree.ofJson_numbered eleven).1 _ _ (hin _ _)

/-- The child under `10` stands before the one under `2`, in the array it is the last. -/
theorem the_eleventh_child_comes_third :
    ¬ ∀ items v w, Node.In (Node.Relisted (.numbered items) (.arr items)) v w →
      (Tree.ofJson v).value = (Tree.ofJson w).value := by
  intro h
  have heq := h (conditionsOn (List.range 11)) _ _ (.root (.here (.intro (.inl rfl) [] [])))
  have hnumbered : (Tree.ofJson (Node.withMember "children" [] [] (.numbered (conditionsOn (List.range 11))))).value =
      ⟨.all, rulesOn [0, 1, 10, 2, 3, 4, 5, 6, 7, 8, 9]⟩ := rfl
  have hlisted : (Tree.ofJson (Node.withMember "children" [] [] (.arr (conditionsOn (List.range 11))))).value =
      ⟨.all, rulesOn [0, 1, 2, 3, 4, 5, 6, 7, 8, 9, 10]⟩ := rfl
  rw [hnumbered, hlisted] at heq
  have hthird : toString 10 = toString 2 := by
    have hfields := congrArg (fun t : Tree => t.children[2]?) heq
    exact congrArg Condition.field (Rule.condition.inj (Option.some.inj hfields))
  exact absurd hthird (by decide)

end RulePlan
