/-
  RulePlan.Proofs.Tree.Document — rules written as nested documents and read back.

  A condition is written with the members that a reader of nodes looks for, a
  combination with its children in an array; the names of the two types are any that a
  reader takes for them (`NodeTypes`). What JSON cannot carry, or a reader takes for
  something else, is left to `Rule.Writable`: doubles that are not finite, the flag
  false as a single value, blank operators.

  Proved: a writable rule is read back from its nested form at every depth at which its
  combinations still fit (`Node.read_nestedForm`), so a writable tree of at most
  `maxNesting` levels is read back, and nothing is noted (`Tree.ofJson_nestedForm`).
-/

import Mathlib.Data.List.Forall2
import RulePlan.Proofs.Json.Carried
import RulePlan.Proofs.Tree.Nodes
import RulePlan.Tree.Reader

namespace RulePlan

/-! ## Values -/

namespace FormValue

/-- The value is not one that JSON, or a reader of JSON, takes for another. -/
def Writable : FormValue → Prop
  | .absent => True
  | .single s => s ≠ .bool false ∧ s.Finite
  | .list items => ∀ s ∈ items, s.Finite

def toJson : FormValue → Json
  | .absent => .null
  | .single s => s.toJson
  | .list items => .arr (items.map Scalar.toJson)

theorem ofJson_toJson {v : FormValue} (h : v.Writable) : ofJson v.toJson = v := by
  cases v with
  | absent => rfl
  | single s =>
    obtain ⟨hne, hf⟩ := h
    have hs := Scalar.ofJson?_toJson hf
    cases s with
    | bool b =>
      cases b with
      | true => rfl
      | false => exact absurd rfl hne
    | int n => simp only [toJson, Scalar.toJson, ofJson] at hs ⊢; rw [hs]
    | float x =>
      have hx : x.isFinite = true := hf
      simp only [toJson, Scalar.toJson, hx, if_true, ofJson] at hs ⊢
      rw [hs]
    | text s => rfl
  | list items =>
    have hall : (items.map Scalar.toJson).filterMap Scalar.ofJson? = items := by
      have hsome : ∀ s ∈ items, (Scalar.ofJson? ∘ Scalar.toJson) s = some s := fun s hs => Scalar.ofJson?_toJson (h s hs)
      rw [List.filterMap_map, List.filterMap_congr hsome, List.filterMap_some]
    simp only [toJson, ofJson, hall]

end FormValue

/-! ## Nodes -/

theorem Aggregator.ofName?_name (aggregator : Aggregator) : ofName? aggregator.name = some aggregator := by
  cases aggregator <;> decide

/-- Names of types that a reader of nodes tells apart. -/
structure NodeTypes where
  combination : String
  condition : String
  combination_isCombine : Node.isCombine (Text.trim combination) [] = true
  condition_ne_blank : Text.trim condition ≠ ""
  condition_not_isCombine : Node.isCombine (Text.trim condition) [] = false

/-- The members of a condition; its field stands under one of two names. -/
def Condition.members (types : NodeTypes) (fieldName : String) (c : Condition) : List (String × Json) :=
  [(fieldName, .str c.field), ("operator", .str c.operator), ("type", .str types.condition), ("value", c.value.toJson)]

namespace Rule

/-- The node itself loses nothing when it is written. -/
def Writable : Rule → Prop
  | .condition c => Text.allBlank c.operator = false ∧ c.value.Writable
  | .combine _ children => children.length < UInt32.size

mutual

def nestedForm (types : NodeTypes) : Rule → Json
  | .condition c => .obj (c.members types "field")
  | .combine aggregator children =>
    .obj [("aggregator", .str aggregator.name), ("children", .arr (nestedForms types children)),
      ("type", .str types.combination)]

def nestedForms (types : NodeTypes) : List Rule → List Json
  | [] => []
  | r :: rest => nestedForm types r :: nestedForms types rest

end

theorem nestedForms_eq_map (types : NodeTypes) (rs : List Rule) : nestedForms types rs = rs.map (nestedForm types) := by
  induction rs with
  | nil => rfl
  | cons r rest ih => rw [nestedForms, ih, List.map_cons]

end Rule

def Tree.nestedForm (types : NodeTypes) (t : Tree) : Json := t.toRule.nestedForm types

namespace Node

variable {types : NodeTypes}

theorem isCombine_of_ne_empty {name : String} (h : name ≠ "") (members : List (String × Json)) :
    isCombine name members = isCombine name [] := by
  simp only [isCombine, if_neg h]

theorem isCombine_combination (members : List (String × Json)) :
    isCombine (Text.trim types.combination) members = true := by
  have hne : Text.trim types.combination ≠ "" := by
    intro he
    have := types.combination_isCombine
    rw [he] at this
    cases this
  rw [isCombine_of_ne_empty hne, types.combination_isCombine]

theorem isCombine_condition (members : List (String × Json)) :
    isCombine (Text.trim types.condition) members = false := by
  rw [isCombine_of_ne_empty types.condition_ne_blank, types.condition_not_isCombine]

/-- A condition is read from its members, whichever of the two names its field has. -/
theorem read_condition {c : Condition} (h : (Rule.condition c).Writable) {fieldName : String}
    (hf : fieldName = "field" ∨ fieldName = "attribute") (depth : Nat) :
    read (.obj (c.members types fieldName)) depth = pure (some (.condition c)) := by
  obtain ⟨hop, hv⟩ := h
  have htype : typeOf (c.members types fieldName) = Text.trim types.condition := by
    rcases hf with rfl | rfl <;> rfl
  have hkeep : (some c.operator).filter (!Text.allBlank ·) = some c.operator := by
    rw [Option.filter_some, if_pos (by simp [hop])]
  have hc : condition? (c.members types fieldName) = some c := by
    rcases hf with rfl | rfl <;>
      simp [condition?, Condition.members, Keyed.find?, Json.str?, hkeep, FormValue.ofJson_toJson hv]
  rw [read, htype]
  simp only [isCombine_condition, hc, Bool.false_eq_true, if_false]

/-- A combination within the limit is read if its children are, under whichever name. -/
theorem read_combination {members : List (String × Json)} {aggregator : Aggregator} {children : List Rule}
    {depth : Nat} (htype : Keyed.find? "type" members = some (.str types.combination))
    (hagg : Keyed.find? "aggregator" members = some (.str aggregator.name)) (hd : depth ≤ maxNesting)
    (hchildren : ((readNamed "children" members (depth + 1)).or (readNamed "conditions" members (depth + 1))).getD
      (pure []) = pure children) :
    read (.obj members) depth = pure (some (.combine aggregator children)) := by
  have hname : typeOf members = Text.trim types.combination := by rw [typeOf, htype]; rfl
  have ha : aggregatorOf members = .ok aggregator := by simp only [aggregatorOf, hagg, Aggregator.ofName?_name]
  rw [read, hname]
  simp only [isCombine_combination, if_true, if_neg (Nat.not_lt.mpr hd), ha, hchildren, pure_bind]

theorem readItems_of_forall₂ {docs : List Json} {rs : List Rule} {depth : Nat}
    (h : List.Forall₂ (fun v r => read v depth = pure (some r)) docs rs) : readItems docs depth = pure rs := by
  induction h with
  | nil => rw [readItems]
  | cons hr _ ih =>
    rw [readItems, hr, ih]
    rfl

theorem read_nestedForm (r : Rule) : ∀ {depth above : Nat}, (∀ node ∈ r.nodes above, node.1.Writable) →
    depth + r.depth ≤ maxNesting + 1 → read (r.nestedForm types) depth = pure (some r) := by
  induction r with
  | condition c =>
    intro depth above hw _
    rw [Rule.nestedForm]
    exact read_condition (hw _ List.mem_cons_self) (.inl rfl) depth
  | combine aggregator children ih =>
    intro depth above hw hd
    obtain ⟨-, hbelow⟩ := Rule.forall_mem_nodes_combine.mp hw
    rw [Rule.nestedForm]
    refine read_combination rfl rfl (by rw [Rule.depth] at hd; omega) ?_
    show readItems (Rule.nestedForms types children) (depth + 1) = pure children
    refine readItems_of_forall₂ ?_
    rw [Rule.nestedForms_eq_map, List.forall₂_map_left_iff, List.forall₂_same]
    intro r hr
    have := Rule.depth_lt_of_mem aggregator hr
    exact ih r hr (hbelow r hr) (by omega)

end Node

/-- A writable tree that fits is read back from its nested form, and nothing is noted. -/
theorem Tree.ofJson_nestedForm (types : NodeTypes) {t : Tree} (hw : ∀ node ∈ t.toRule.nodes 0, node.1.Writable)
    (hd : t.depth ≤ maxNesting) : Tree.ofJson (t.nestedForm types) = pure t := by
  have hread : Node.read (t.nestedForm types) 1 = pure (some t.toRule) :=
    Node.read_nestedForm t.toRule hw (by rw [Tree.depth] at hd; omega)
  rw [Tree.nestedForm, Tree.toRule, Rule.nestedForm] at hread ⊢
  rw [Tree.ofJson, Path.nested, if_neg (by simp [Path.isFlat, Path.rootKey, Keyed.contains, Keyed.find?]), pure_bind,
    Tree.ofNested, hread, pure_bind]
  rfl

end RulePlan
