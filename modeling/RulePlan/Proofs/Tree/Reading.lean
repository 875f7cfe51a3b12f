/-
  RulePlan.Proofs.Tree.Reading — what a reader of nodes takes from a document.

  Left to itself a reader notes events and goes through arrays and objects one document
  after the other. Here is the value it arrives at: the documents that the children of a
  combination are read from are listed (`childDocuments`), each gives a rule or nothing,
  and the node has the rules it got, in order (`value_readChildren`, `value_read_obj`).
-/

import RulePlan.Proofs.Json.Parts
import RulePlan.Proofs.Keyed
import RulePlan.Tree.Reader

namespace RulePlan

namespace Node

variable {members : List (String × Json)} {depth : Nat}

theorem readNamed_eq (name : String) (members : List (String × Json)) (depth : Nat) :
    readNamed name members depth = (Keyed.find? name members).map (readChildren · depth) := by
  induction members with
  | nil => rfl
  | cons m rest ih =>
    obtain ⟨key, v⟩ := m
    rw [readNamed, Keyed.find?]
    split
    · rfl
    · exact ih

/-! ## Children -/

/-- The member that lists the children of a combination; `children` goes before `conditions`. -/
def childMember? (members : List (String × Json)) : Option Json :=
  (Keyed.find? "children" members).or (Keyed.find? "conditions" members)

/-- The documents that the children of a combination are read from. -/
def childDocuments (members : List (String × Json)) : List Json :=
  match childMember? members with
  | some v => v.parts
  | none => []

/-- Of the two members that may list children one is read. -/
theorem readNamed_or_eq (members : List (String × Json)) (depth : Nat) :
    (readNamed "children" members depth).or (readNamed "conditions" members depth) =
      (childMember? members).map (readChildren · depth) := by
  rw [readNamed_eq, readNamed_eq, childMember?]
  cases Keyed.find? "children" members <;> rfl

theorem value_readItems (items : List Json) (depth : Nat) :
    (readItems items depth).value = items.filterMap fun v => (read v depth).value := by
  induction items with
  | nil => rw [readItems]; rfl
  | cons v rest ih =>
    rw [readItems, Noted.value_bind, Noted.value_bind, Noted.value_pure, ih, List.filterMap_cons]
    cases (read v depth).value with
    | none => rfl
    | some r => rfl

theorem readMembers_eq (members : List (String × Json)) (depth : Nat) :
    readMembers members depth = readItems (members.map (·.2)) depth := by
  induction members with
  | nil => rw [List.map_nil, readMembers, readItems]
  | cons m rest ih => rw [List.map_cons, readMembers, readItems, ih]

/-- Whatever lists the children, its parts are read one after the other. -/
theorem readChildren_eq (v : Json) (depth : Nat) : readChildren v depth = readItems v.parts depth := by
  cases v with
  | arr items => rw [readChildren]; rfl
  | obj members => rw [readChildren, readMembers_eq]; rfl
  | null | bool _ | int _ | real _ | str _ =>
    rw [Json.parts, readItems, readChildren]
    all_goals simp

theorem value_readChildren (v : Json) (depth : Nat) :
    (readChildren v depth).value = v.parts.filterMap fun w => (read w depth).value := by
  rw [readChildren_eq, value_readItems]

/-! ## Nodes -/

/-- The rule of a combination node, unless it lies too deep or its aggregator is unknown. -/
def combination? (members : List (String × Json)) (depth : Nat) : Option Rule :=
  if maxNesting < depth then none
  else match aggregatorOf members with
    | .error _ => none
    | .ok aggregator =>
      some (.combine aggregator ((childDocuments members).filterMap fun v => (read v (depth + 1)).value))

theorem value_read_obj (members : List (String × Json)) (depth : Nat) :
    (read (.obj members) depth).value =
      if isCombine (typeOf members) members then combination? members depth
      else (condition? members).map .condition := by
  rw [read, readNamed_or_eq]
  split
  · unfold combination?
    split
    · rfl
    · cases aggregatorOf members with
      | error e => rfl
      | ok aggregator =>
        simp only [Noted.value_bind, Noted.value_pure, childDocuments]
        cases childMember? members with
        | none => rfl
        | some v => simp only [Option.map_some, Option.getD_some, value_readChildren]
  · cases condition? members with
    | none => rfl
    | some c => rfl

/-- Only objects are nodes. -/
theorem exists_obj_of_read {v : Json} {r : Rule} (h : (read v depth).value = some r) : ∃ members, v = .obj members := by
  cases v with
  | obj members => exact ⟨members, rfl⟩
  | null | bool _ | int _ | real _ | str _ | arr _ => cases h

/-- A rule that is read is the condition of its node, or a combination of what its child documents
    give one level down. -/
theorem read_cases {r : Rule} (h : (read (.obj members) depth).value = some r) :
    (∃ c, r = .condition c ∧ condition? members = some c) ∨
      (∃ aggregator, r = .combine aggregator ((childDocuments members).filterMap fun v => (read v (depth + 1)).value) ∧
        aggregatorOf members = .ok aggregator ∧ depth ≤ maxNesting) := by
  rw [value_read_obj] at h
  split at h
  · unfold combination? at h
    split at h
    · cases h
    · next hd =>
      split at h
      · cases h
      · next aggregator ha =>
        cases h
        exact .inr ⟨aggregator, rfl, ha, Nat.not_lt.mp hd⟩
  · obtain ⟨c, hc, rfl⟩ := Option.map_eq_some_iff.mp h
    exact .inl ⟨c, rfl, hc⟩

theorem mem_parts_of_childDocuments {w : Json} (h : w ∈ childDocuments members) :
    ∃ v ∈ Json.parts (.obj members), w ∈ v.parts := by
  have hfind : ∀ {key : String} {v : Json}, Keyed.find? key members = some v → v ∈ Json.parts (.obj members) := by
    intro key v hv
    exact List.mem_map.mpr ⟨(key, v), Keyed.mem_of_find? hv, rfl⟩
  unfold childDocuments childMember? at h
  split at h
  · next v hv =>
    refine ⟨v, ?_, h⟩
    rcases Option.or_eq_some_iff.mp hv with hv | ⟨-, hv⟩
    · exact hfind hv
    · exact hfind hv
  · cases h

end Node

/-- An object that is not flat is read as the tree of its node; if that is left out, the tree is empty. -/
theorem Tree.value_ofNested_obj (members : List (String × Json)) :
    (ofNested (.obj members)).value = ((Node.read (.obj members) 1).value.map Rule.toTree).getD {} := by
  rw [ofNested, Noted.value_bind]
  cases (Node.read (.obj members) 1).value <;> rfl

end RulePlan
