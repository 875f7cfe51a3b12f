/-
  RulePlan.Proofs.Tree.Flat — rules written as flat documents and read back.

  The flat form has one entry for each node, under the key of its path: the root has the
  path 1, the i-th child of a node the path of the node with i added. A reader takes the
  entries in the order of their keys, looks the entry of a path up and counts the steps
  below it; both depend on nothing but the node that stands at the path
  (`Rule.mem_entries`), so what is built below a path is the document of that node.

  What is built has at most `maxNesting` levels, and a condition takes up one as a
  combination does; a combination may lie as deep, but in the nested form its conditions
  are one level deeper. So the two forms differ on the last level. Proved, for every
  writable tree: the flat form is read as the tree without its nodes below `maxNesting`
  combinations (`Tree.ofJson_flatForm`); hence a tree that fits is read back from both
  forms if no condition lies below `maxNesting` combinations, and otherwise from the
  nested form alone (`Tree.forms_agree_iff`).
-/

import RulePlan.Proofs.Keyed
import RulePlan.Proofs.Tree.Document
import RulePlan.Proofs.Tree.Path

namespace RulePlan

namespace Rule

/-! ## Nodes at paths -/

/-- The node at a path from this one; children are counted from 1. -/
def at? : Rule → Path → Option Rule
  | r, [] => some r
  | _, 0 :: _ => none
  | r, (i + 1) :: rest => (r.children[i]?).bind (at? · rest)

theorem at?_append (r : Rule) (p q : Path) : r.at? (p ++ q) = (r.at? p).bind (·.at? q) := by
  induction p generalizing r with
  | nil => rfl
  | cons n rest ih =>
    cases n with
    | zero => rfl
    | succ i =>
      rw [List.cons_append, at?, at?]
      cases r.children[i]? with
      | none => rfl
      | some child => exact ih child

theorem at?_step (r : Rule) (i : Nat) : r.at? [i + 1] = r.children[i]? := by
  rw [at?]
  cases r.children[i]? with
  | none => rfl
  | some child => rfl

theorem exists_at?_step_iff {r : Rule} {n : Nat} :
    (∃ s, r.at? [n] = some s) ↔ 1 ≤ n ∧ n ≤ r.children.length := by
  cases n with
  | zero => simp [at?]
  | succ i =>
    rw [at?_step]
    constructor
    · intro h
      obtain ⟨s, hs⟩ := h
      have := (List.getElem?_eq_some_iff.mp hs).1
      omega
    · intro h
      obtain ⟨-, hi⟩ := h
      exact ⟨_, List.getElem?_eq_getElem (by omega)⟩

/-- What stands at a path is a node, and the numbers of the path are those of children of nodes. -/
theorem mem_nodes_of_at? {q : Path} : ∀ {r s : Rule} {above : Nat}, r.at? q = some s →
    (s, above + q.length) ∈ r.nodes above ∧ ∀ n ∈ q, ∃ node ∈ r.nodes above, n ≤ node.1.children.length := by
  induction q with
  | nil =>
    intro r s above h
    cases h
    exact ⟨r.self_mem_nodes above, fun n hn => by cases hn⟩
  | cons n rest ih =>
    intro r s above h
    cases n with
    | zero => cases h
    | succ i =>
      obtain ⟨child, hc, hs⟩ := Option.bind_eq_some_iff.mp h
      have hchild : child ∈ r.children := List.mem_of_getElem? hc
      obtain ⟨hmem, hle⟩ := @ih child s (above + 1) hs
      refine ⟨?_, fun m hm => ?_⟩
      · have := mem_nodes_of_child hchild hmem
        rwa [Nat.add_right_comm] at this
      · rcases List.mem_cons.mp hm with rfl | hm
        · exact ⟨(r, above), r.self_mem_nodes above, (List.getElem?_eq_some_iff.mp hc).1⟩
        · obtain ⟨node, hn, hle⟩ := hle m hm
          exact ⟨node, mem_nodes_of_child hchild hn, hle⟩

/-! ## The entries of a rule -/

variable (types : NodeTypes)

/-- What the entry of a node says about the node itself. -/
def ownMembers : Rule → List (String × Json)
  | .condition c => c.members types "attribute"
  | .combine aggregator _ => [("aggregator", .str aggregator.name), ("type", .str types.combination)]

mutual

/-- The entries of a rule that stands at a path. -/
def entries : Rule → Path → List (Path × Json)
  | .condition c, p => [(p, .obj ((condition c).ownMembers types))]
  | .combine aggregator children, p =>
    (p, .obj ((combine aggregator children).ownMembers types)) :: entriesOfAll children p 1

def entriesOfAll : List Rule → Path → Nat → List (Path × Json)
  | [], _, _ => []
  | r :: rest, p, n => entries r (p ++ [n]) ++ entriesOfAll rest p (n + 1)

end

variable {types}

theorem entries_eq (r : Rule) (p : Path) :
    r.entries types p = (p, .obj (r.ownMembers types)) :: entriesOfAll types r.children p 1 := by
  cases r with
  | condition c => rfl
  | combine aggregator children => rfl

theorem mem_entriesOfAll {rs : List Rule} {p : Path} {n : Nat} {e : Path × Json} :
    e ∈ entriesOfAll types rs p n ↔ ∃ (i : Nat) (r : Rule), rs[i]? = some r ∧ e ∈ r.entries types (p ++ [n + i]) := by
  induction rs generalizing n with
  | nil => simp [entriesOfAll]
  | cons r rest ih =>
    rw [entriesOfAll, List.mem_append, ih]
    constructor
    · intro h
      rcases h with h | ⟨i, s, hs, h⟩
      · exact ⟨0, r, rfl, h⟩
      · exact ⟨i + 1, s, hs, by rwa [show n + (i + 1) = n + 1 + i by omega]⟩
    · intro h
      obtain ⟨i, s, hs, h⟩ := h
      cases i with
      | zero =>
        cases hs
        exact .inl h
      | succ i => exact .inr ⟨i, s, hs, by rwa [show n + 1 + i = n + (i + 1) by omega]⟩

/-- A rule has one entry for each node, which speaks of that node alone. -/
theorem mem_entries {r : Rule} {p q : Path} {v : Json} :
    (q, v) ∈ r.entries types p ↔ ∃ below s, q = p ++ below ∧ r.at? below = some s ∧ v = .obj (s.ownMembers types) := by
  induction r using byNode generalizing p with
  | node r ih =>
    rw [entries_eq, List.mem_cons, mem_entriesOfAll]
    constructor
    · intro h
      rcases h with h | ⟨i, child, hc, h⟩
      · cases h
        exact ⟨[], r, by rw [List.append_nil], rfl, rfl⟩
      · obtain ⟨below, s, rfl, hs, rfl⟩ := (ih child (List.mem_of_getElem? hc)).mp h
        refine ⟨(i + 1) :: below, s, by simp [Nat.add_comm], ?_, rfl⟩
        rw [at?, hc]
        exact hs
    · intro h
      obtain ⟨below, s, rfl, hs, rfl⟩ := h
      cases below with
      | nil =>
        cases hs
        exact .inl (by rw [List.append_nil])
      | cons n rest =>
        cases n with
        | zero => cases hs
        | succ i =>
          obtain ⟨child, hc, hs⟩ := Option.bind_eq_some_iff.mp hs
          refine .inr ⟨i, child, hc, (ih child (List.mem_of_getElem? hc)).mpr ⟨rest, s, ?_, hs, rfl⟩⟩
          simp [Nat.add_comm]

theorem path_of_mem_entriesOfAll {rs : List Rule} {p q : Path} {n : Nat}
    (h : q ∈ (entriesOfAll types rs p n).map (·.1)) : ∃ i below, q = p ++ (n + i) :: below := by
  obtain ⟨⟨q, v⟩, he, rfl⟩ := List.mem_map.mp h
  obtain ⟨i, r, -, he⟩ := mem_entriesOfAll.mp he
  obtain ⟨below, s, rfl, -, -⟩ := mem_entries.mp he
  exact ⟨i, below, by simp⟩

/-- The paths of different children part at the number of the child. -/
theorem entriesOfAll_nodup {rs : List Rule} {p : Path}
    (h : ∀ r ∈ rs, ∀ q, ((r.entries types q).map (·.1)).Nodup) (n : Nat) :
    ((entriesOfAll types rs p n).map (·.1)).Nodup := by
  induction rs generalizing n with
  | nil => exact List.nodup_nil
  | cons r rest ih =>
    rw [entriesOfAll, List.map_append]
    refine List.nodup_append.mpr ⟨h r List.mem_cons_self _,
      ih (fun r hr => h r (List.mem_cons_of_mem _ hr)) (n + 1), fun a ha b hb he => ?_⟩
    obtain ⟨⟨q, v⟩, hq, rfl⟩ := List.mem_map.mp ha
    obtain ⟨below, s, rfl, -, -⟩ := mem_entries.mp hq
    obtain ⟨i, below', rfl⟩ := path_of_mem_entriesOfAll hb
    simp only [List.append_assoc, List.cons_append, List.append_cancel_left_eq, List.cons.injEq] at he
    omega

theorem entries_nodup (r : Rule) (p : Path) : ((r.entries types p).map (·.1)).Nodup := by
  induction r using byNode generalizing p with
  | node r ih =>
    rw [entries_eq, List.map_cons]
    refine List.nodup_cons.mpr ⟨fun hp => ?_, entriesOfAll_nodup ih 1⟩
    obtain ⟨i, below, he⟩ := path_of_mem_entriesOfAll hp
    simp at he

/-! ## Levels -/

mutual

/-- The rule with as many levels below it as are left. -/
def cut : Rule → Nat → Rule
  | .condition c, _ => .condition c
  | .combine aggregator _, 0 => .combine aggregator []
  | .combine aggregator children, levels + 1 => .combine aggregator (cutAll children levels)

def cutAll : List Rule → Nat → List Rule
  | [], _ => []
  | r :: rest, levels => cut r levels :: cutAll rest levels

end

theorem cutAll_eq_map (rs : List Rule) (levels : Nat) : cutAll rs levels = rs.map (·.cut levels) := by
  induction rs with
  | nil => rfl
  | cons r rest ih => rw [cutAll, ih, List.map_cons]

theorem cut_childless (aggregator : Aggregator) (levels : Nat) :
    (combine aggregator []).cut levels = .combine aggregator [] := by
  cases levels with
  | zero => rfl
  | succ levels => rfl

/-- Nothing is cut off just when no node lies below the levels that are left. -/
theorem cut_eq_self_iff {r : Rule} {levels : Nat} (above : Nat) :
    r.cut levels = r ↔ ∀ node ∈ r.nodes above, node.2 ≤ above + levels := by
  induction r generalizing above levels with
  | condition c => simp [cut]
  | combine aggregator children ih =>
    rw [forall_mem_nodes_combine]
    cases levels with
    | zero =>
      constructor
      · intro h
        cases h
        simp
      · intro h
        obtain ⟨-, h⟩ := h
        cases children with
        | nil => rfl
        | cons r rest =>
          -- the first child alone lies too deep
          have := h r List.mem_cons_self _ (r.self_mem_nodes (above + 1))
          simp only at this
          omega
    | succ levels =>
      have hchildren : cutAll children levels = children ↔ ∀ r ∈ children, r.cut levels = r := by
        rw [cutAll_eq_map]
        constructor
        · intro h r hr
          exact List.map_inj_left.mp (h.trans (List.map_id children).symm) r hr
        · intro h
          exact (List.map_congr_left h).trans (List.map_id children)
      rw [cut, combine.injEq, hchildren]
      constructor
      · intro h
        obtain ⟨-, h⟩ := h
        refine ⟨Nat.le_add_right _ _, fun r hr node hn => ?_⟩
        have := (ih r hr (above + 1)).mp (h r hr) node hn
        omega
      · intro h
        obtain ⟨-, h⟩ := h
        refine ⟨rfl, fun r hr => (ih r hr (above + 1)).mpr fun node hn => ?_⟩
        have := h r hr node hn
        omega

end Rule

/-! ## The table of a flat document -/

variable {types : NodeTypes}

/-- The entries of a rule under the keys of their paths. -/
def Rule.keyedEntries (types : NodeTypes) (r : Rule) : List (String × Json) :=
  (r.entries types Path.root).map fun e => (Path.key e.1, e.2)

/-- The flat document of a tree, whose root is a combination. -/
def Tree.flatForm (types : NodeTypes) (t : Tree) : Json := .obj (Keyed.ofList (t.toRule.keyedEntries types))

namespace Rule

variable {r s : Rule} {q : Path} {table : List (Path × Json)}

theorem membersOf_entryAt? (ht : table.Perm (r.entries types Path.root)) (hs : r.at? q = some s) :
    Path.membersOf (Path.entryAt? (Path.root ++ q) table) = s.ownMembers types := by
  have hnd : (table.map (·.1)).Nodup := (ht.map _).nodup_iff.mpr (r.entries_nodup _)
  have hmem : (Path.root ++ q, Json.obj (s.ownMembers types)) ∈ table :=
    ht.mem_iff.mpr (mem_entries.mpr ⟨q, s, rfl, hs, rfl⟩)
  rw [Path.entryAt?_eq_some hnd hmem]
  rfl

theorem stepsBelow_eq (ht : table.Perm (r.entries types Path.root)) (hs : r.at? q = some s) :
    Path.stepsBelow (Path.root ++ q) table = List.range' 1 s.children.length := by
  refine Path.stepsBelow_eq_range' fun n => ?_
  rw [← exists_at?_step_iff]
  have hstep : ∀ u, r.at? (q ++ [n]) = some u ↔ s.at? [n] = some u := by
    intro u
    rw [at?_append, hs, Option.bind_some]
  constructor
  · intro h
    obtain ⟨v, hv⟩ := h
    obtain ⟨below, u, hpath, hu, -⟩ := mem_entries.mp (ht.mem_iff.mp hv)
    rw [List.append_assoc] at hpath
    rw [← List.append_cancel_left hpath] at hu
    exact ⟨u, (hstep u).mp hu⟩
  · intro h
    obtain ⟨u, hu⟩ := h
    exact ⟨_, ht.mem_iff.mpr (mem_entries.mpr ⟨q ++ [n], u, List.append_assoc .., (hstep u).mpr hu, rfl⟩)⟩

/-- What is built below a path is read as the node that stands there, cut off where no level
    is left. -/
theorem read_build (ht : table.Perm (r.entries types Path.root)) (hw : ∀ node ∈ r.nodes 0, node.1.Writable) :
    ∀ {q : Path} {levels depth : Nat}, r.at? q = some s → depth + levels ≤ maxNesting →
      Node.read (Path.build table levels (Path.root ++ q)).value depth = pure (some (s.cut levels)) := by
  induction s with
  | condition c =>
    intro q levels depth hs _
    have hsteps : Path.stepsBelow (Path.root ++ q) table = [] := stepsBelow_eq ht hs
    have hc : (condition c).Writable := hw _ (mem_nodes_of_at? hs).1
    rw [Path.build_of_no_steps hsteps, Noted.value_pure, membersOf_entryAt? ht hs, cut]
    exact Node.read_condition hc (.inr rfl) depth
  | combine aggregator children ih =>
    intro q levels depth hs hd
    have hsteps : Path.stepsBelow (Path.root ++ q) table = List.range' 1 children.length := stepsBelow_eq ht hs
    have hmembers := membersOf_entryAt? ht hs
    have hbare : Node.read (.obj ((combine aggregator children).ownMembers types)) depth =
        pure (some (.combine aggregator [])) := Node.read_combination rfl rfl (by omega) rfl
    by_cases hne : children = []
    · subst hne
      rw [Path.build_of_no_steps hsteps, Noted.value_pure, hmembers, hbare, cut_childless]
    · cases levels with
      | zero => rw [Path.value_build_zero, hmembers, hbare, cut]
      | succ left =>
        have hnil : Path.stepsBelow (Path.root ++ q) table ≠ [] := by simpa [hsteps] using hne
        rw [Path.value_build_succ hnil, hmembers, hsteps, cut, cutAll_eq_map]
        refine Node.read_combination rfl rfl (by omega) ?_
        refine Node.readItems_of_forall₂ ?_
        rw [List.forall₂_map_left_iff, List.forall₂_map_right_iff, List.forall₂_iff_get]
        refine ⟨by simp, fun i hi hi' => ?_⟩
        have hchild : r.at? (q ++ [1 + i]) = some children[i] := by
          rw [at?_append, hs, Option.bind_some, Nat.add_comm, at?_step]
          exact List.getElem?_eq_getElem hi'
        have := ih children[i] (List.getElem_mem hi') hchild (show depth + 1 + left ≤ maxNesting by omega)
        rw [← List.append_assoc] at this
        simpa using this

/-! ## Keys -/

theorem children_length_lt (h : r.Writable) : r.children.length < UInt32.size := by
  cases r with
  | condition c => exact Nat.zero_lt_succ _
  | combine aggregator children => exact h

theorem ofKey?_key_of_mem (hw : ∀ node ∈ r.nodes 0, node.1.Writable) {e : Path × Json}
    (he : e ∈ r.entries types Path.root) : Path.ofKey? (Path.key e.1) = some e.1 := by
  obtain ⟨p, v⟩ := e
  obtain ⟨below, s, rfl, hs, -⟩ := mem_entries.mp he
  refine Path.ofKey?_key (List.cons_ne_nil _ _) fun n hn => ?_
  rcases List.mem_append.mp hn with hn | hn
  · rw [List.mem_singleton.mp hn]
    decide
  · obtain ⟨node, hnode, hle⟩ := (mem_nodes_of_at? hs).2 n hn
    exact Nat.lt_of_le_of_lt hle (children_length_lt (hw node hnode))

theorem keys_nodup (hw : ∀ node ∈ r.nodes 0, node.1.Writable) :
    ((r.keyedEntries types).map (·.1)).Nodup := by
  have hnd : ((r.entries types Path.root).map (·.1)).Nodup := r.entries_nodup _
  have hinj : ∀ p ∈ (r.entries types Path.root).map (·.1), ∀ q ∈ (r.entries types Path.root).map (·.1),
      Path.key p = Path.key q → p = q := by
    intro p hp q hq h
    obtain ⟨e, he, rfl⟩ := List.mem_map.mp hp
    obtain ⟨e', he', rfl⟩ := List.mem_map.mp hq
    have hread := ofKey?_key_of_mem hw he
    rw [h, ofKey?_key_of_mem hw he'] at hread
    exact (Option.some.inj hread).symm
  have hkeys := hnd.map_on hinj
  rw [List.map_map] at hkeys
  rwa [keyedEntries, List.map_map]

/-- The entries are read from their keys, in whatever order the keys stand. -/
theorem entries_ofList_perm (types : NodeTypes) (hw : ∀ node ∈ r.nodes 0, node.1.Writable) :
    (Path.entries (Keyed.ofList (r.keyedEntries types))).Perm (r.entries types Path.root) := by
  have hread : (r.keyedEntries types).filterMap (fun m => (Path.ofKey? m.1).map (·, m.2)) =
      r.entries types Path.root := by
    have hsome : ∀ e ∈ r.entries types Path.root,
        ((fun m : String × Json => (Path.ofKey? m.1).map (·, m.2)) ∘ fun e => (Path.key e.1, e.2)) e = some e := by
      intro e he
      simp only [Function.comp_apply, ofKey?_key_of_mem hw he, Option.map_some]
    rw [keyedEntries, List.filterMap_map, List.filterMap_congr hsome, List.filterMap_some]
  have hp : (Keyed.ofList (r.keyedEntries types)).Perm (r.keyedEntries types) := Keyed.ofList_perm (keys_nodup hw)
  have := hp.filterMap fun m => (Path.ofKey? m.1).map (·, m.2)
  rwa [hread] at this

theorem isFlat_keyedEntries (hw : ∀ node ∈ r.nodes 0, node.1.Writable) :
    Path.isFlat (Keyed.ofList (r.keyedEntries types)) = true := by
  have hp : (Keyed.ofList (r.keyedEntries types)).Perm (r.keyedEntries types) := Keyed.ofList_perm (keys_nodup hw)
  rw [Path.isFlat, Bool.and_eq_true, Keyed.contains_iff, List.all_eq_true]
  constructor
  · refine (hp.map _).mem_iff.mpr (List.mem_map.mpr ⟨(Path.rootKey, .obj (r.ownMembers types)), ?_, rfl⟩)
    rw [keyedEntries, entries_eq, List.map_cons, Path.key_root]
    exact List.mem_cons_self
  · intro m hm
    obtain ⟨e, he, rfl⟩ := List.mem_map.mp (hp.mem_iff.mp hm)
    simp only [ofKey?_key_of_mem hw he, Option.isSome_some]

end Rule

/-! ## The two forms -/

/-- A root alone is taken out of its entry instead of being built. -/
theorem Path.nestedRoot_childless (aggregator : Aggregator) :
    Path.nestedRoot (Keyed.ofList ((Rule.combine aggregator []).keyedEntries types)) (pure (.obj [])) =
      pure (.obj ((Rule.combine aggregator []).ownMembers types)) := by
  have hone : Keyed.ofList ((Rule.combine aggregator []).keyedEntries types) =
      [(Path.rootKey, .obj ((Rule.combine aggregator []).ownMembers types))] := by
    rw [← Path.key_root]
    rfl
  have hroot : Path.ofKey? Path.rootKey = some Path.root := by
    rw [← Path.key_root]
    exact Path.ofKey?_key (by decide) (by decide)
  have hflat : Path.isFlat ((Rule.combine aggregator []).ownMembers types) = false := by
    simp [Path.isFlat, Rule.ownMembers, Path.rootKey, Keyed.contains, Keyed.find?]
  rw [hone, Path.nestedRoot_cons, if_pos hroot, Path.nestedRoot_nil]
  simp only
  rw [Path.nested, if_neg (by rw [hflat]; decide)]

/-- The nested document of a flat one is what is built below the root, also for a root alone. -/
theorem Tree.value_nested_flatForm {t : Tree} (hw : ∀ node ∈ t.toRule.nodes 0, node.1.Writable) :
    (Path.nested (t.flatForm types)).value =
      (Path.build (Path.entries (Keyed.ofList (t.toRule.keyedEntries types))) (maxNesting - 1) Path.root).value := by
  obtain ⟨aggregator, children⟩ := t
  have hp := Rule.entries_ofList_perm types hw
  have hsteps := Rule.stepsBelow_eq (q := []) hp rfl
  have hmembers := Rule.membersOf_entryAt? (q := []) hp rfl
  rw [List.append_nil] at hsteps hmembers
  rw [Tree.flatForm, Path.nested, if_pos (Rule.isFlat_keyedEntries hw)]
  split
  · next hnil =>
    have hnone : children = [] := by
      rw [hsteps] at hnil
      simpa [Tree.toRule, Rule.children] using hnil
    subst hnone
    rw [Path.build_of_no_steps (by simpa using hnil), hmembers, Tree.toRule, Path.nestedRoot_childless]
  · rfl

/-- A writable tree is read from its flat form without what stands below `maxNesting` combinations. -/
theorem Tree.value_ofJson_flatForm (types : NodeTypes) {t : Tree}
    (hw : ∀ node ∈ t.toRule.nodes 0, node.1.Writable) :
    (Tree.ofJson (t.flatForm types)).value = (t.toRule.cut (maxNesting - 1)).toTree := by
  have hread : Node.read (Path.nested (t.flatForm types)).value 1 =
      pure (some (t.toRule.cut (maxNesting - 1))) := by
    rw [Tree.value_nested_flatForm hw, ← List.append_nil Path.root]
    exact Rule.read_build (Rule.entries_ofList_perm types hw) hw rfl (by decide)
  rw [Tree.ofJson, Noted.value_bind]
  generalize (Path.nested (t.flatForm types)).value = v at hread ⊢
  cases v with
  | obj members =>
    rw [Tree.ofNested, hread]
    rfl
  | null | bool _ | int _ | real _ | str _ | arr _ => cases congrArg Noted.value hread

theorem Tree.toTree_cut_eq_iff {t : Tree} {levels : Nat} :
    (t.toRule.cut levels).toTree = t ↔ ∀ node ∈ t.toRule.nodes 0, node.2 < levels + 1 := by
  have hself : (t.toRule.cut levels).toTree = t ↔ t.toRule.cut levels = t.toRule := by
    obtain ⟨aggregator, children⟩ := t
    cases levels with
    | zero => simp [Tree.toRule, Rule.cut, Rule.toTree]
    | succ levels => simp [Tree.toRule, Rule.cut, Rule.toTree]
  rw [hself, Rule.cut_eq_self_iff 0]
  simp only [Nat.zero_add, Nat.lt_succ_iff]

/-- The nested form of a writable tree that fits is read as the tree. So is the flat form, provided
    that no node, and that is no condition, lies below `maxNesting` combinations. -/
theorem Tree.forms_agree_iff (types : NodeTypes) (t : Tree) (hw : ∀ node ∈ t.toRule.nodes 0, node.1.Writable)
    (hd : t.depth ≤ maxNesting) :
    (Tree.ofJson (t.nestedForm types)).value = t ∧
      ((Tree.ofJson (t.flatForm types)).value = t ↔ ∀ node ∈ t.toRule.nodes 0, node.2 < maxNesting) := by
  constructor
  · rw [Tree.ofJson_nestedForm types hw hd, Noted.value_pure]
  · rw [Tree.value_ofJson_flatForm types hw]
    exact Tree.toTree_cut_eq_iff

/-! ## The last level -/

def NodeTypes.plain : NodeTypes where
  combination := "combine"
  condition := "condition"
  combination_isCombine := by decide
  condition_ne_blank := by decide
  condition_not_isCombine := by decide

namespace Rule

/-- A condition with nothing but a number of combinations around it. -/
def buried (c : Condition) : Nat → Rule
  | 0 => .condition c
  | levels + 1 => .combine .all [buried c levels]

variable {c : Condition}

theorem depth_buried (levels : Nat) : (buried c levels).depth = levels := by
  induction levels with
  | zero => rfl
  | succ levels ih =>
    rw [buried, depth, deepest, deepest, ih]
    omega

theorem mem_nodes_buried (levels above : Nat) : (condition c, above + levels) ∈ (buried c levels).nodes above := by
  induction levels generalizing above with
  | zero => exact List.mem_cons_self
  | succ levels ih =>
    rw [buried, nodes_combine, List.flatMap_singleton]
    refine List.mem_cons_of_mem _ ?_
    have := ih (above + 1)
    rwa [Nat.add_right_comm] at this

theorem of_mem_nodes_buried (hc : (condition c).Writable) (levels above : Nat) :
    ∀ node ∈ (buried c levels).nodes above, node.1.Writable ∧ node.2 ≤ above + levels := by
  induction levels generalizing above with
  | zero =>
    intro node hn
    rw [List.mem_singleton.mp hn]
    exact ⟨hc, Nat.le_refl _⟩
  | succ levels ih =>
    intro node hn
    rw [buried, nodes_combine, List.flatMap_singleton] at hn
    rcases List.mem_cons.mp hn with rfl | hn
    · exact ⟨show 1 < UInt32.size by decide, Nat.le_add_right _ _⟩
    · obtain ⟨hw, hle⟩ := ih (above + 1) node hn
      exact ⟨hw, by omega⟩

end Rule

/-- On the level before the last one both forms keep a condition. -/
theorem a_condition_below_127_combinations_is_read_from_both_forms :
    let t := (Rule.buried ⟨"sku", "==", .single (.text "A")⟩ 127).toTree
    (∀ node ∈ t.toRule.nodes 0, node.1.Writable) ∧ t.depth ≤ maxNesting ∧
      (Tree.ofJson (t.nestedForm .plain)).value = t ∧ (Tree.ofJson (t.flatForm .plain)).value = t := by
  intro t
  have hc : (Rule.condition ⟨"sku", "==", .single (.text "A")⟩).Writable := ⟨by decide, by decide, trivial⟩
  have hnodes := Rule.of_mem_nodes_buried hc 127 0
  have hw : ∀ node ∈ t.toRule.nodes 0, node.1.Writable := fun node hn => (hnodes node hn).1
  have hd : t.depth ≤ maxNesting := by
    show (Rule.buried _ 127).depth ≤ maxNesting
    rw [Rule.depth_buried]
    decide
  obtain ⟨hnested, hflat⟩ := Tree.forms_agree_iff .plain t hw hd
  refine ⟨hw, hd, hnested, hflat.mpr fun node hn => ?_⟩
  exact Nat.lt_of_le_of_lt (hnodes node hn).2 (by decide)

/-- On the last level the nested form keeps a condition and the flat form does not, though no
    combination of the tree is too deep for either. -/
theorem the_flat_form_loses_a_condition_below_128_combinations :
    let t := (Rule.buried ⟨"sku", "==", .single (.text "A")⟩ 128).toTree
    (∀ node ∈ t.toRule.nodes 0, node.1.Writable) ∧ t.depth ≤ maxNesting ∧
      (Tree.ofJson (t.nestedForm .plain)).value = t ∧ (Tree.ofJson (t.flatForm .plain)).value ≠ t := by
  intro t
  have hc : (Rule.condition ⟨"sku", "==", .single (.text "A")⟩).Writable := ⟨by decide, by decide, trivial⟩
  have hw : ∀ node ∈ t.toRule.nodes 0, node.1.Writable :=
    fun node hn => (Rule.of_mem_nodes_buried hc 128 0 node hn).1
  have hd : t.depth ≤ maxNesting := by
    show (Rule.buried _ 128).depth ≤ maxNesting
    rw [Rule.depth_buried]
    decide
  refine ⟨hw, hd, by rw [Tree.ofJson_nestedForm .plain hw hd, Noted.value_pure], fun h => ?_⟩
  rw [Tree.value_ofJson_flatForm .plain hw] at h
  have hlow := Tree.toTree_cut_eq_iff.mp h _ (Rule.mem_nodes_buried 128 0)
  exact absurd hlow (by decide)

end RulePlan
