/-
  RulePlan.Proofs.Tree.ExtraMembers — members of an entry that say nothing about its node.

  The nodes below an entry of a flat document are put into it as its `conditions`. A
  reader of the node looks for `children` first and for `conditions` only after that, so
  of the members of a combination that has nodes below it four are read: its type, its
  aggregator, `children`, and the `conditions` that were put there.

  Proved (`Tree.ofJson_extra_member`), for every flat document whose paths are distinct and
  at most `maxNesting` long and every combination in it that has nodes below it:
  - a member of any other name can be added to its entry, or replaced there, with the
    same outcome;
  - without a member `children` its child documents are those of the paths below it;
  - with one, every entry below its path can be left out with the same outcome.
-/

import RulePlan.Proofs.Tree.Described
import RulePlan.Proofs.Tree.Document

namespace RulePlan

namespace Node

variable {ms ns : List (String × Json)} {a b : Json}

/-! ## Documents that are read alike -/

/-- Wherever they stand, the documents give the same rule, and the same is noted. -/
def Alike (a b : Json) : Prop := ∀ depth, read a depth = read b depth

theorem Alike.refl (a : Json) : Alike a a := fun _ => rfl

theorem Alike.trans {c : Json} (hab : Alike a b) (hbc : Alike b c) : Alike a c :=
  fun depth => (hab depth).trans (hbc depth)

theorem typeOf_congr (h : Keyed.find? "type" ms = Keyed.find? "type" ns) : typeOf ms = typeOf ns := by
  rw [typeOf, h, typeOf]

theorem aggregatorOf_congr (h : Keyed.find? "aggregator" ms = Keyed.find? "aggregator" ns) :
    aggregatorOf ms = aggregatorOf ns := by
  rw [aggregatorOf, h, aggregatorOf]

theorem condition?_congr
    (hfield : (Keyed.find? "field" ms).or (Keyed.find? "attribute" ms) =
      (Keyed.find? "field" ns).or (Keyed.find? "attribute" ns))
    (hoperator : Keyed.find? "operator" ms = Keyed.find? "operator" ns)
    (hvalue : Keyed.find? "value" ms = Keyed.find? "value" ns) : condition? ms = condition? ns := by
  rw [condition?, hfield, hoperator, hvalue, condition?]

/-- A node is a combination by its type or, without one, by a member that lists children. -/
theorem isCombine_of_child {nodeType : String} (h : nodeType = "" ∨ isCombine nodeType [])
    (hchild : (childMember? ms).isSome) : isCombine nodeType ms := by
  by_cases hne : nodeType = ""
  · have hlists : Keyed.contains "children" ms || Keyed.contains "conditions" ms := by
      rwa [childMember?, Option.isSome_or] at hchild
    rw [isCombine, if_pos hne, Bool.or_assoc, hlists, Bool.or_true]
  · rw [isCombine_of_ne_empty hne]
    exact h.resolve_left hne

/-- What a reader takes from an object. -/
theorem alike_members (htype : typeOf ms = typeOf ns) (hkind : isCombine (typeOf ns) ms = isCombine (typeOf ns) ns)
    (haggregator : aggregatorOf ms = aggregatorOf ns) (hcondition : condition? ms = condition? ns)
    (hchildren : ∀ depth, (childMember? ms).map (readChildren · depth) = (childMember? ns).map (readChildren · depth)) :
    Alike (.obj ms) (.obj ns) := by
  intro depth
  rw [read, read, readNamed_or_eq, readNamed_or_eq, htype, hkind, haggregator, hcondition, hchildren]

/-- What a reader of combinations takes from an object. -/
theorem alike_combination (hm : isCombine (typeOf ms) ms) (hn : isCombine (typeOf ns) ns)
    (haggregator : Keyed.find? "aggregator" ms = Keyed.find? "aggregator" ns)
    (hchildren : ∀ depth, (childMember? ms).map (readChildren · depth) = (childMember? ns).map (readChildren · depth)) :
    Alike (.obj ms) (.obj ns) := by
  intro depth
  rw [read, read, readNamed_or_eq, readNamed_or_eq, if_pos hm, if_pos hn, aggregatorOf_congr haggregator, hchildren]

theorem readItems_congr {ι : Type} {xs : List ι} {f g : ι → Json} (h : ∀ x ∈ xs, Alike (f x) (g x)) (depth : Nat) :
    readItems (xs.map f) depth = readItems (xs.map g) depth := by
  induction xs with
  | nil => rfl
  | cons x xs ih =>
    rw [List.map_cons, List.map_cons, readItems, readItems, h x List.mem_cons_self,
      ih fun y hy => h y (List.mem_cons_of_mem _ hy)]

end Node

namespace Path

open Node (Alike)

variable {entries others : List (Path × Json)} {members : List (String × Json)} {p q : Path}

theorem typeOf_withConditions (below : List Json) (members : List (String × Json)) :
    Node.typeOf (withConditions below members) = Node.typeOf members :=
  Node.typeOf_congr (find?_withConditions (by decide) _ _)

theorem isCombine_withConditions (nodeType : String) (members : List (String × Json)) {xs ys : List Json}
    (h : xs.length = ys.length) :
    Node.isCombine nodeType (withConditions xs members) = Node.isCombine nodeType (withConditions ys members) := by
  have hconditions : Keyed.contains "conditions" (withConditions xs members) =
      Keyed.contains "conditions" (withConditions ys members) := by
    cases xs with
    | nil => rw [List.length_eq_zero_iff.mp h.symm]
    | cons x xs =>
      cases ys with
      | nil => cases h
      | cons y ys => simp [withConditions, Keyed.contains, Keyed.find?_insert]
  have hrest : ∀ name ≠ "conditions", Keyed.contains name (withConditions xs members) =
      Keyed.contains name (withConditions ys members) := by
    intro name hne
    exact Keyed.contains_congr (by rw [find?_withConditions hne, find?_withConditions hne])
  rw [Node.isCombine, hconditions, hrest _ (by decide), hrest _ (by decide), Node.isCombine]

theorem childMember?_withConditions (below : List Json) (members : List (String × Json)) :
    Node.childMember? (withConditions below members) = (Keyed.find? "children" members).or
      (if below.isEmpty then Keyed.find? "conditions" members else some (.arr below)) := by
  rw [Node.childMember?, find?_withConditions (by decide), withConditions]
  split
  · rfl
  · rw [Keyed.find?_insert, if_pos rfl]

/-- Documents that are read alike can stand for each other below a node. -/
theorem alike_withConditions {ι : Type} {xs : List ι} {f g : ι → Json} (h : ∀ x ∈ xs, Alike (f x) (g x))
    (members : List (String × Json)) :
    Alike (.obj (withConditions (xs.map f) members)) (.obj (withConditions (xs.map g) members)) := by
  have hkind : ∀ t, Node.isCombine t (withConditions (xs.map f) members) =
      Node.isCombine t (withConditions (xs.map g) members) :=
    fun t => isCombine_withConditions t members (by rw [List.length_map, List.length_map])
  refine Node.alike_members ?_ (hkind _) ?_ ?_ fun depth => ?_
  · rw [typeOf_withConditions, typeOf_withConditions]
  · rw [aggregatorOf_withConditions, aggregatorOf_withConditions]
  · rw [condition?_withConditions, condition?_withConditions]
  · rw [childMember?_withConditions, childMember?_withConditions]
    cases Keyed.find? "children" members with
    | some v => rfl
    | none =>
      cases xs with
      | nil => rfl
      | cons x xs => exact congrArg some (Node.readItems_congr h depth)

/-! ## Building -/

/-- Where no path is too long, nothing is noted. -/
theorem build_eq_pure (hshort : ∀ e ∈ entries, e.1.length ≤ maxNesting) (levels : Nat) :
    ∀ {p : Path}, maxNesting ≤ p.length + levels → build entries levels p = pure (build entries levels p).value := by
  induction levels with
  | zero =>
    intro p hp
    rw [build_of_no_steps (stepsBelow_eq_nil hshort hp)]
    rfl
  | succ levels ih =>
    intro p hp
    have hbelow : ∀ k ∈ stepsBelow p entries,
        build entries levels (p ++ [k]) = pure (build entries levels (p ++ [k])).value :=
      fun k _ => ih (by simp only [List.length_append, List.length_singleton]; omega)
    rw [build_succ_eq hbelow]
    rfl

theorem value_build_succ_eq (levels : Nat) (p : Path) :
    (build entries (levels + 1) p).value =
      .obj (withConditions ((stepsBelow p entries).map fun k => (build entries levels (p ++ [k])).value)
        (membersOf (entryAt? p entries))) := by
  by_cases hnil : stepsBelow p entries = []
  · rw [build_of_no_steps hnil, hnil]
    rfl
  · rw [value_build_succ hnil, withConditions, if_neg (by simpa using hnil)]

/-- Entries and others that have the same at all paths in a scope but one are built into documents
    that are read alike, if those of that path are. -/
theorem alike_build (scope : Path → Prop) (p : Path) (hstep : ∀ q k, scope q → q ≠ p → scope (q ++ [k]))
    (hsame : ∀ q, scope q → q ≠ p →
      stepsBelow q others = stepsBelow q entries ∧ entryAt? q others = entryAt? q entries)
    (hp : scope p → ∀ levels, maxNesting ≤ p.length + levels →
      Alike (build others levels p).value (build entries levels p).value)
    (levels : Nat) : ∀ {q : Path}, scope q → maxNesting ≤ q.length + levels →
      Alike (build others levels q).value (build entries levels q).value := by
  induction levels with
  | zero =>
    intro q hq hl
    by_cases he : q = p
    · subst he
      exact hp hq 0 hl
    · rw [value_build_zero, value_build_zero, (hsame q hq he).2]
      exact .refl _
  | succ levels ih =>
    intro q hq hl
    by_cases he : q = p
    · subst he
      exact hp hq _ hl
    · obtain ⟨hsteps, hentry⟩ := hsame q hq he
      rw [value_build_succ_eq, value_build_succ_eq, hsteps, hentry]
      refine alike_withConditions (fun k _ => ih (hstep q k hq he) ?_) _
      simp only [List.length_append, List.length_singleton]
      omega

/-! ## The root -/

theorem exists_obj_build (entries : List (Path × Json)) (levels : Nat) (p : Path) :
    ∃ ms, (build entries levels p).value = .obj ms := by
  cases levels with
  | zero => exact ⟨_, value_build_zero⟩
  | succ levels => exact ⟨_, value_build_succ_eq levels p⟩

theorem nested_eq_build (hflat : isFlat members) (hshort : ∀ e ∈ Path.entries members, e.1.length ≤ maxNesting)
    (h : stepsBelow root (Path.entries members) = [] →
      ∃ v, entryAt? root (Path.entries members) = some v ∧ isFlat (membersOf (some v)) = false) :
    nested (.obj members) = pure (build (Path.entries members) (maxNesting - 1) root).value := by
  rw [nested, if_pos hflat]
  split
  · next hempty =>
    have hsteps : stepsBelow root (Path.entries members) = [] := by simpa using hempty
    obtain ⟨v, hentry, hroot⟩ := h hsteps
    rw [nestedRoot_eq, build_of_no_steps hsteps, hentry]
    exact nested_of_not_isFlat hroot
  · exact build_eq_pure hshort _ (by decide)

/-- Without nodes below the root its entry is all that counts. -/
theorem nested_congr {ms ns : List (String × Json)} (hms : isFlat ms) (hns : isFlat ns)
    (hms' : stepsBelow root (Path.entries ms) = []) (hns' : stepsBelow root (Path.entries ns) = [])
    (hentry : entryAt? root (Path.entries ms) = entryAt? root (Path.entries ns)) :
    nested (.obj ms) = nested (.obj ns) := by
  rw [nested, nested, if_pos hms, if_pos hns, hms', hns', List.isEmpty_nil, if_pos rfl, if_pos rfl, nestedRoot_eq,
    nestedRoot_eq, hentry]

/-! ## What depends on the paths alone -/

theorem stepsBelow_congr (h : others.map (·.1) = entries.map (·.1)) (p : Path) :
    stepsBelow p others = stepsBelow p entries := by
  have hpaths : ∀ es : List (Path × Json),
      es.filterMap (fun e => stepBelow? p e.1) = (es.map (·.1)).filterMap (stepBelow? p) := by
    intro es
    rw [List.filterMap_map]
    rfl
  rw [stepsBelow, stepsBelow, hpaths, hpaths, h]

theorem isFlat_congr {ms ns : List (String × Json)} (h : ms.map (·.1) = ns.map (·.1)) : isFlat ms = isFlat ns := by
  have hroot : Keyed.contains rootKey ms = Keyed.contains rootKey ns := by
    rw [Bool.eq_iff_iff, Keyed.contains_iff, Keyed.contains_iff, h]
  have hall : ∀ l : List (String × Json),
      (l.all fun m => (ofKey? m.1).isSome) = (l.map (·.1)).all fun key => (ofKey? key).isSome := by
    intro l
    rw [List.all_map]
    rfl
  rw [isFlat, isFlat, hroot, hall, hall, h]

/-- A flat form has paths for keys. -/
theorem isFlat_of_not_path {name : String} {v : Json} (h : (name, v) ∈ members) (hkey : ofKey? name = none) :
    isFlat members = false := by
  refine Bool.eq_false_iff.mpr fun hflat => ?_
  have hpath := List.all_eq_true.mp (Bool.and_eq_true_iff.mp hflat).2 _ h
  rw [hkey] at hpath
  cases hpath

theorem isFlat_of_children {v : Json} (h : Keyed.find? "children" members = some v) : isFlat members = false :=
  isFlat_of_not_path (Keyed.mem_of_find? h) (by decide)

theorem entryAt?_middle (before after : List (Path × Json)) (hne : q ≠ p) (v w : Json) :
    entryAt? q (before ++ (p, v) :: after) = entryAt? q (before ++ (p, w) :: after) := by
  simp [entryAt?_eq_getLast?, Ne.symm hne]

/-! ## Below a path -/

/-- The path leads on from another. -/
def IsBelow (q p : Path) : Prop := p <+: q ∧ q ≠ p

instance (q p : Path) : Decidable (IsBelow q p) := inferInstanceAs (Decidable (_ ∧ _))

theorem IsBelow.step (h : IsBelow q p) (k : Nat) : IsBelow (q ++ [k]) p := by
  refine ⟨h.1.trans (List.prefix_append q [k]), ?_⟩
  intro he
  have := h.1.length_le
  rw [← he, List.length_append, List.length_singleton] at this
  omega

theorem not_isBelow_step (h : ¬ IsBelow q p) (hne : q ≠ p) (k : Nat) : ¬ IsBelow (q ++ [k]) p := by
  rintro ⟨hfrom, hlast⟩
  rcases List.prefix_concat_iff.mp hfrom with rfl | hfrom
  · exact hlast rfl
  · exact h ⟨hfrom, hne⟩

theorem isBelow_step_self (p : Path) (k : Nat) : IsBelow (p ++ [k]) p := ⟨List.prefix_append p [k], by simp⟩

/-- The member is no entry below a path. -/
def isNotBelow (p : Path) (m : String × Json) : Bool := !(ofKey? m.1).any fun q => decide (IsBelow q p)

theorem entries_filter (p : Path) (members : List (String × Json)) :
    Path.entries (members.filter (isNotBelow p)) = (Path.entries members).filter fun e => !decide (IsBelow e.1 p) := by
  unfold Path.entries
  rw [List.filterMap_filter, List.filter_filterMap]
  refine List.filterMap_congr fun m _ => ?_
  unfold isNotBelow
  cases ofKey? m.1 with
  | none => simp
  | some q => by_cases h : IsBelow q p <;> simp [h, Option.filter]

theorem stepsBelow_filter (h : ¬ IsBelow q p) (hne : q ≠ p) :
    stepsBelow q (entries.filter fun e => !decide (IsBelow e.1 p)) = stepsBelow q entries := by
  refine stepsBelow_ascending.eq_of_mem_iff stepsBelow_ascending fun k => ?_
  rw [mem_stepsBelow, mem_stepsBelow]
  simp [not_isBelow_step h hne k]

theorem stepsBelow_filter_self : stepsBelow p (entries.filter fun e => !decide (IsBelow e.1 p)) = [] := by
  refine List.eq_nil_iff_forall_not_mem.mpr fun k hk => ?_
  obtain ⟨v, hv⟩ := mem_stepsBelow.mp hk
  have := (List.mem_filter.mp hv).2
  simp [isBelow_step_self p k] at this

theorem entryAt?_filter (h : ¬ IsBelow q p) :
    entryAt? q (entries.filter fun e => !decide (IsBelow e.1 p)) = entryAt? q entries := by
  rw [entryAt?_eq_getLast?, entryAt?_eq_getLast?, List.filter_filter]
  congr 2
  refine List.filter_congr fun e _ => ?_
  by_cases he : e.1 = q
  · simp [he, h]
  · simp [he]

theorem ofKey?_ne_nil {key : String} (h : ofKey? key = some p) : p ≠ [] := by
  obtain ⟨piece, pieces, hpieces⟩ := List.exists_cons_of_ne_nil (Text.splitOn_ne_nil separator key.toList)
  rintro rfl
  rw [ofKey?, hpieces, List.mapM_cons] at h
  simp [Option.bind_eq_some_iff] at h

theorem not_isBelow_root (hp : p ≠ []) : ¬ IsBelow root p := by
  rintro ⟨hfrom, hne⟩
  rcases List.prefix_cons_iff.mp hfrom with rfl | ⟨rest, rfl, hrest⟩
  · exact hp rfl
  · exact hne (by rw [List.prefix_nil.mp hrest]; rfl)

theorem isNotBelow_of_root (hp : p ≠ []) {m : String × Json} (hm : m.1 = rootKey) : isNotBelow p m = true := by
  simp [isNotBelow, hm, ofKey?_rootKey, not_isBelow_root hp]

/-! ## A combination among other entries -/

/-- A document with an entry of some members between others. -/
def formWith (before after : List (String × Json)) (key : String) (entry : List (String × Json)) :
    List (String × Json) :=
  before ++ (key, .obj entry) :: after

/-- A flat document with distinct paths, none of them too long, and in it the entry of a
    combination that has nodes below it. Without a type, these make it a combination. -/
structure Parent (before after : List (String × Json)) (key : String) (p : Path) (entry : List (String × Json)) :
    Prop where
  flat : isFlat (formWith before after key entry)
  distinct : ((Path.entries (formWith before after key entry)).map (·.1)).Nodup
  short : ∀ e ∈ Path.entries (formWith before after key entry), e.1.length ≤ maxNesting
  path : ofKey? key = some p
  combination : Node.typeOf entry = "" ∨ Node.isCombine (Node.typeOf entry) []
  above : stepsBelow p (Path.entries (formWith before after key entry)) ≠ []

namespace Parent

variable {before after : List (String × Json)} {key name : String} {entry : List (String × Json)} {v : Json}

theorem entries_eq (h : Parent before after key p entry) (ms : List (String × Json)) :
    Path.entries (formWith before after key ms) = Path.entries before ++ (p, .obj ms) :: Path.entries after := by
  simp [formWith, Path.entries, h.path]

theorem paths_eq (h : Parent before after key p entry) (ms ns : List (String × Json)) :
    (Path.entries (formWith before after key ms)).map (·.1) =
      (Path.entries (formWith before after key ns)).map (·.1) := by
  rw [h.entries_eq, h.entries_eq, List.map_append, List.map_append, List.map_cons, List.map_cons]

theorem entryAt?_of_ne (h : Parent before after key p entry) (hne : q ≠ p) (ms ns : List (String × Json)) :
    entryAt? q (Path.entries (formWith before after key ms)) =
      entryAt? q (Path.entries (formWith before after key ns)) := by
  rw [h.entries_eq, h.entries_eq]
  exact entryAt?_middle _ _ hne _ _

theorem typeOf_insert (hname : name ≠ "type") (v : Json) (entry : List (String × Json)) :
    Node.typeOf (Keyed.insert name v entry) = Node.typeOf entry :=
  Node.typeOf_congr (by rw [Keyed.find?_insert, if_neg hname])

/-- With another member the entry is still that of a combination, unless it is a type. -/
theorem insert (h : Parent before after key p entry) (hname : name ≠ "type") (v : Json) :
    Parent before after key p (Keyed.insert name v entry) := by
  have hkeys : (formWith before after key (Keyed.insert name v entry)).map (·.1) =
      (formWith before after key entry).map (·.1) := by simp [formWith]
  have hpaths := h.paths_eq (Keyed.insert name v entry) entry
  refine ⟨?_, ?_, ?_, h.path, ?_, ?_⟩
  · rw [isFlat_congr hkeys]
    exact h.flat
  · rw [hpaths]
    exact h.distinct
  · intro e he
    have hmem : e.1 ∈ (Path.entries (formWith before after key entry)).map (·.1) :=
      hpaths ▸ List.mem_map_of_mem he
    obtain ⟨e', he', heq⟩ := List.mem_map.mp hmem
    exact heq ▸ h.short e' he'
  · rw [typeOf_insert hname]
    exact h.combination
  · rw [stepsBelow_congr hpaths]
    exact h.above

theorem entryAt?_eq (h : Parent before after key p entry) :
    entryAt? p (Path.entries (formWith before after key entry)) = some (.obj entry) := by
  refine entryAt?_eq_some h.distinct ?_
  rw [h.entries_eq]
  exact List.mem_append_right _ List.mem_cons_self

/-- The paths below that of the entry are still short enough to be built. -/
theorem length_lt (h : Parent before after key p entry) : p.length < maxNesting := by
  by_contra hlt
  exact h.above (stepsBelow_eq_nil h.short (Nat.not_lt.mp hlt))

theorem exists_level (h : Parent before after key p entry) {levels : Nat} (hl : maxNesting ≤ p.length + levels) :
    ∃ left, levels = left + 1 := by
  have := h.length_lt
  exact Nat.exists_eq_add_one.mpr (by omega)

/-- The node that is built at the path of the entry. -/
theorem value_build (h : Parent before after key p entry) (levels : Nat) :
    (build (Path.entries (formWith before after key entry)) (levels + 1) p).value =
      .obj (withConditions ((stepsBelow p (Path.entries (formWith before after key entry))).map fun k =>
        (build (Path.entries (formWith before after key entry)) levels (p ++ [k])).value) entry) := by
  rw [value_build_succ_eq, h.entryAt?_eq]
  rfl

/-- The children come from the paths below, unless the entry says where else to look for them. -/
theorem childDocuments_build (h : Parent before after key p entry) (hnone : Keyed.find? "children" entry = none)
    (levels : Nat) :
    ∃ node, (build (Path.entries (formWith before after key entry)) (levels + 1) p).value = .obj node ∧
      Node.childDocuments node = (stepsBelow p (Path.entries (formWith before after key entry))).map fun k =>
        (build (Path.entries (formWith before after key entry)) levels (p ++ [k])).value := by
  refine ⟨_, h.value_build levels, ?_⟩
  rw [Node.childDocuments, childMember?_withConditions, hnone, Option.none_or, if_neg (by simpa using h.above)]
  rfl

/-! ### A member of any name but that of children -/

/-- Below its own path the entry does not count. -/
theorem alike_below (h : Parent before after key p entry) (ms ns : List (String × Json)) (levels : Nat)
    (hq : IsBelow q p) (hl : maxNesting ≤ q.length + levels) :
    Alike (build (Path.entries (formWith before after key ms)) levels q).value
      (build (Path.entries (formWith before after key ns)) levels q).value :=
  alike_build (IsBelow · p) p (fun _ k hq _ => hq.step k)
    (fun q _ hne => ⟨stepsBelow_congr (h.paths_eq ms ns) q, h.entryAt?_of_ne hne ms ns⟩)
    (fun hself => absurd rfl hself.2) levels hq hl

/-- With nodes below it, a combination is read from its type, its aggregator and `children`. -/
theorem alike_extra (h : Parent before after key p entry) (htype : name ≠ "type") (haggregator : name ≠ "aggregator")
    (hchildren : name ≠ "children") (v : Json) {below : List Json} (hbelow : below ≠ []) :
    Alike (.obj (withConditions below (Keyed.insert name v entry))) (.obj (withConditions below entry)) := by
  have hfind : ∀ sought, name ≠ sought → Keyed.find? sought (Keyed.insert name v entry) = Keyed.find? sought entry :=
    fun sought hne => by rw [Keyed.find?_insert, if_neg hne]
  have hchild : ∀ ms : List (String × Json), Node.childMember? (withConditions below ms) =
      (Keyed.find? "children" ms).or (some (.arr below)) := by
    intro ms
    rw [childMember?_withConditions, if_neg (by simpa using hbelow)]
  refine Node.alike_combination ?_ ?_ ?_ fun depth => ?_
  · rw [typeOf_withConditions, typeOf_insert htype]
    exact Node.isCombine_of_child h.combination (by rw [hchild]; simp)
  · rw [typeOf_withConditions]
    exact Node.isCombine_of_child h.combination (by rw [hchild]; simp)
  · rw [find?_withConditions (by decide), find?_withConditions (by decide), hfind _ haggregator]
  · rw [hchild, hchild, hfind _ hchildren]

theorem alike_insert (h : Parent before after key p entry) (htype : name ≠ "type") (haggregator : name ≠ "aggregator")
    (hchildren : name ≠ "children") (v : Json) {levels : Nat} (hl : maxNesting ≤ p.length + levels) :
    Alike (build (Path.entries (formWith before after key (Keyed.insert name v entry))) levels p).value
      (build (Path.entries (formWith before after key entry)) levels p).value := by
  obtain ⟨left, rfl⟩ := h.exists_level hl
  have hsteps := stepsBelow_congr (h.paths_eq (Keyed.insert name v entry) entry) p
  rw [(h.insert htype v).value_build, h.value_build, hsteps]
  refine .trans (alike_withConditions (fun k _ => ?_) _)
    (h.alike_extra htype haggregator hchildren v (by simpa using h.above))
  refine h.alike_below _ _ left (isBelow_step_self p k) ?_
  simp only [List.length_append, List.length_singleton]
  omega

/-! ### A member that lists children -/

/-- A member `children` takes the place of the nodes below. -/
theorem alike_children (h : Parent before after key p entry) (hv : Keyed.find? "children" entry = some v)
    (below : List Json) : Alike (.obj entry) (.obj (withConditions below entry)) := by
  have hchild : Node.childMember? entry = some v := by rw [Node.childMember?, hv, Option.some_or]
  have hchild' : Node.childMember? (withConditions below entry) = some v := by
    rw [childMember?_withConditions, hv, Option.some_or]
  refine Node.alike_combination (Node.isCombine_of_child h.combination (by rw [hchild]; rfl)) ?_ ?_ fun depth => ?_
  · rw [typeOf_withConditions]
    exact Node.isCombine_of_child h.combination (by rw [hchild']; rfl)
  · rw [find?_withConditions (by decide)]
  · rw [hchild, hchild']

/-- Without the entries below, the node of the entry is read as with them. -/
theorem alike_filter (h : Parent before after key p entry) (hv : Keyed.find? "children" entry = some v) {levels : Nat}
    (hl : maxNesting ≤ p.length + levels) :
    Alike
      (build ((Path.entries (formWith before after key entry)).filter fun e => !decide (IsBelow e.1 p)) levels p).value
      (build (Path.entries (formWith before after key entry)) levels p).value := by
  obtain ⟨left, rfl⟩ := h.exists_level hl
  have hself : ¬ IsBelow p p := fun hp => hp.2 rfl
  rw [build_of_no_steps stepsBelow_filter_self, entryAt?_filter hself, h.entryAt?_eq, h.value_build]
  exact h.alike_children hv _

/-! ### Trees -/

theorem ofJson_of_alike {ms ns : List (String × Json)} {levels : Nat}
    (hms : nested (.obj ms) = pure (build others levels root).value)
    (hns : nested (.obj ns) = pure (build entries levels root).value)
    (h : Alike (build others levels root).value (build entries levels root).value) :
    Tree.ofJson (.obj ms) = Tree.ofJson (.obj ns) := by
  obtain ⟨a, ha⟩ := exists_obj_build others levels root
  obtain ⟨b, hb⟩ := exists_obj_build entries levels root
  rw [ha, hb] at h
  rw [Tree.ofJson, Tree.ofJson, hms, hns, pure_bind, pure_bind, ha, hb, Tree.ofNested, Tree.ofNested, h 1]

theorem ofJson_insert (h : Parent before after key p entry) (htype : name ≠ "type") (haggregator : name ≠ "aggregator")
    (hchildren : name ≠ "children") (v : Json) :
    Tree.ofJson (.obj (formWith before after key (Keyed.insert name v entry))) =
      Tree.ofJson (.obj (formWith before after key entry)) := by
  have h' := h.insert htype v
  have hsteps := stepsBelow_congr (h.paths_eq (Keyed.insert name v entry) entry)
  by_cases hroot : stepsBelow root (Path.entries (formWith before after key entry)) = []
  · have hne : root ≠ p := fun he => h.above (he ▸ hroot)
    rw [Tree.ofJson, Tree.ofJson, nested_congr h'.flat h.flat ((hsteps root).trans hroot) hroot
      (h.entryAt?_of_ne hne _ _)]
  · refine ofJson_of_alike (nested_eq_build h'.flat h'.short fun hnil => absurd ((hsteps root).symm.trans hnil) hroot)
      (nested_eq_build h.flat h.short fun hnil => absurd hnil hroot) ?_
    exact alike_build (fun _ => True) p (fun _ _ _ _ => trivial) (fun q _ hne => ⟨hsteps q, h.entryAt?_of_ne hne _ _⟩)
      (fun _ levels hl => h.alike_insert htype haggregator hchildren v hl) _ trivial (by decide)

theorem ofJson_filter (h : Parent before after key p entry) (hv : Keyed.find? "children" entry = some v) :
    Tree.ofJson (.obj ((formWith before after key entry).filter (isNotBelow p))) =
      Tree.ofJson (.obj (formWith before after key entry)) := by
  have hp := ofKey?_ne_nil h.path
  have hflat := isFlat_filter (fun m _ => isNotBelow_of_root hp (m := m)) h.flat
  have hentries := entries_filter p (formWith before after key entry)
  have hentry : entryAt? root (List.filter (fun e => !decide (IsBelow e.1 p)) _) =
      entryAt? root (Path.entries (formWith before after key entry)) := entryAt?_filter (not_isBelow_root hp)
  have hshort : ∀ e ∈ Path.entries ((formWith before after key entry).filter (isNotBelow p)),
      e.1.length ≤ maxNesting := by
    intro e he
    rw [hentries] at he
    exact h.short e (List.mem_of_mem_filter he)
  by_cases hroot : stepsBelow root (Path.entries (formWith before after key entry)) = []
  · have hne : root ≠ p := fun he => h.above (he ▸ hroot)
    have hnil := (stepsBelow_filter (not_isBelow_root hp) hne).trans hroot
    rw [Tree.ofJson, Tree.ofJson, nested_congr hflat h.flat (hentries ▸ hnil) hroot (hentries ▸ hentry)]
  · refine ofJson_of_alike (nested_eq_build hflat hshort fun hnil => ?_)
      (nested_eq_build h.flat h.short fun hnil => absurd hnil hroot) ?_
    · -- nothing is left below the root only if the entry is that of the root
      have hself : root = p := by
        by_contra hne
        rw [hentries, stepsBelow_filter (not_isBelow_root hp) hne] at hnil
        exact hroot hnil
      refine ⟨.obj entry, ?_, isFlat_of_children hv⟩
      rw [hentries, hentry, hself, h.entryAt?_eq]
    · rw [hentries]
      exact alike_build (¬ IsBelow · p) p (fun q k hq hne => not_isBelow_step hq hne k)
        (fun q hq hne => ⟨stepsBelow_filter hq hne, entryAt?_filter hq⟩) (fun _ levels hl => h.alike_filter hv hl) _
        (not_isBelow_root hp) (by decide)

end Parent

end Path

/-- In a flat document whose paths are distinct and not too long, a combination that has nodes below
    it may get another member of any name but `type`, `aggregator` and `children` with the same
    outcome, and unless it has a member `children` its child documents are those of the paths
    below it. With such a member the entries below its path can be left out. -/
theorem Tree.ofJson_extra_member {before after : List (String × Json)} {key : String} {p : Path}
    {entry : List (String × Json)} (h : Path.Parent before after key p entry) :
    let form := Path.formWith before after key
    (∀ (name : String) (v : Json), name ≠ "type" → name ≠ "aggregator" → name ≠ "children" →
      ofJson (.obj (form (Keyed.insert name v entry))) = ofJson (.obj (form entry))) ∧
    (Keyed.find? "children" entry = none → ∀ levels, ∃ node,
      (Path.build (Path.entries (form entry)) (levels + 1) p).value = .obj node ∧
        Node.childDocuments node = (Path.stepsBelow p (Path.entries (form entry))).map fun k =>
          (Path.build (Path.entries (form entry)) levels (p ++ [k])).value) ∧
    ∀ v, ofJson (.obj (form (Keyed.insert "children" v entry))) =
      ofJson (.obj ((form (Keyed.insert "children" v entry)).filter (Path.isNotBelow p))) := by
  intro form
  refine ⟨fun name v htype haggregator hchildren => h.ofJson_insert htype haggregator hchildren v,
    fun hnone levels => h.childDocuments_build hnone levels, fun v => ?_⟩
  have hfind : Keyed.find? "children" (Keyed.insert "children" v entry) = some v := by
    rw [Keyed.find?_insert, if_pos rfl]
  exact ((h.insert (by decide) v).ofJson_filter hfind).symm

/-- An `any` of two conditions, without more than it needs. -/
def bareEntry : List (String × Json) := [("aggregator", .str "any"), ("type", .str "combine")]

def entriesBelow : List (String × Json) :=
  [("1--1", .obj [("attribute", .str "sku"), ("operator", .str "=="), ("value", .str "A")]),
   ("1--2", .obj [("attribute", .str "size"), ("operator", .str "=="), ("value", .str "L")])]

/-- What a member `conditions` lists does not count. -/
theorem conditions_beside_entries_below_do_not_count :
    let form := Path.formWith [] entriesBelow "1"
    Path.Parent [] entriesBelow "1" Path.root bareEntry ∧
      (Tree.ofJson (.obj (form (Keyed.insert "conditions" (.arr [.null]) bareEntry)))).value =
        ⟨.any, [.condition ⟨"sku", "==", .single (.text "A")⟩, .condition ⟨"size", "==", .single (.text "L")⟩]⟩ := by
  intro form
  have h : Path.Parent [] entriesBelow "1" Path.root bareEntry :=
    ⟨by decide, by decide, by decide, by decide, by decide, by decide⟩
  refine ⟨h, ?_⟩
  rw [(Tree.ofJson_extra_member h).1 "conditions" _ (by decide) (by decide) (by decide)]
  rfl

/-- What a member `children` lists takes the place of the entries below. -/
theorem children_beside_entries_below_detach_them :
    let form := Path.formWith [] entriesBelow "1"
    Path.isFlat (form bareEntry) ∧ ((Path.entries (form bareEntry)).map (·.1)).Nodup ∧
      (∀ e ∈ Path.entries (form bareEntry), e.1.length ≤ maxNesting) ∧
      Node.isCombine (Node.typeOf bareEntry) bareEntry ∧
      Path.stepsBelow Path.root (Path.entries (form bareEntry)) = [1, 2] ∧
      "children" ≠ "type" ∧ "children" ≠ "aggregator" ∧
      (Tree.ofJson (.obj (form (Keyed.insert "children" .null bareEntry)))).value = ⟨.any, []⟩ ∧
      (Tree.ofJson (.obj (form bareEntry))).value ≠ ⟨.any, []⟩ := by
  refine ⟨by decide, by decide, by decide, by decide, by decide, by decide, by decide, rfl, ?_⟩
  have hread : (Tree.ofJson (.obj (Path.formWith [] entriesBelow "1" bareEntry))).value =
      ⟨.any, [.condition ⟨"sku", "==", .single (.text "A")⟩, .condition ⟨"size", "==", .single (.text "L")⟩]⟩ := rfl
  rw [hread]
  simp

end RulePlan
