/-
  RulePlan.Proofs.Tree.Described — the nested document that the paths of a flat one describe.

  A flat document says which node stands at which path and nothing else. `Describes` says
  what nested document that is, without saying how to build it: at a path stands the
  entry of the path, and its conditions are the documents described at the paths one
  step below that have an entry, in the order of their numbers. An entry counts only if
  every path on the way to its own has one (`Detached` is the opposite).

  Proved for a flat document whose paths are distinct and at most `maxNesting` long and
  whose entries hold no children of their own (`Regular`):
  - it is read as the one nested document that its paths describe, and the same is noted;
  - the nodes of the tree come, in preorder, from different entries (`Origins`);
  and for every flat document: entries that are detached make no difference, whether
  they are taken out or put in. `Tree.ofJson_flat` says this together.
-/

import RulePlan.Proofs.Tree.Path
import RulePlan.Proofs.Tree.Reading
import RulePlan.Proofs.Tree.Nodes

namespace RulePlan

namespace Path

variable {entries : List (Path × Json)} {members : List (String × Json)} {p q : Path}

/-! ## Described documents -/

/-- The members of a node with the documents below it as its conditions, if there are any. -/
def withConditions (below : List Json) (members : List (String × Json)) : List (String × Json) :=
  if below.isEmpty then members else Keyed.insert "conditions" (.arr below) members

/-- The document that entries describe at a path. -/
inductive Describes (entries : List (Path × Json)) : Path → Json → Prop
  | node {p : Path} {v : Json} {steps : List Nat} (below : Nat → Json) (entry : (p, v) ∈ entries)
      (ascending : steps.Pairwise (· < ·)) (present : ∀ k, k ∈ steps ↔ ∃ w, (p ++ [k], w) ∈ entries)
      (conditions : ∀ k ∈ steps, Describes entries (p ++ [k]) (below k)) :
      Describes entries p (.obj (withConditions (steps.map below) (membersOf (some v))))

/-- The entries speak of one node each, none of them too deep, and name no nodes of their own. -/
structure Regular (entries : List (Path × Json)) : Prop where
  distinct : (entries.map (·.1)).Nodup
  short : ∀ e ∈ entries, e.1.length ≤ maxNesting
  bare : ∀ e ∈ entries, ∀ m ∈ membersOf (some e.2), m.1 ≠ "children" ∧ m.1 ≠ "conditions" ∧ ofKey? m.1 = none

theorem Describes.unique (hd : (entries.map (·.1)).Nodup) {a b : Json} (ha : Describes entries p a)
    (hb : Describes entries p b) : a = b := by
  induction ha generalizing b with
  | @node p v steps below entry ascending present conditions ih =>
    cases hb with
    | @node _ v' steps' below' entry' ascending' present' conditions' =>
      have hv : v = v' := congrArg Prod.snd (List.inj_on_of_nodup_map hd entry entry' rfl)
      have hsteps : steps = steps' :=
        ascending.eq_of_mem_iff ascending' fun k => (present k).trans (present' k).symm
      subst hv hsteps
      have hbelow : steps.map below = steps.map below' :=
        List.map_congr_left fun k hk => ih k hk (conditions' k hk)
      rw [hbelow]

theorem Describes.of_stepsBelow {v : Json} (hv : entryAt? p entries = some v) (hmem : (p, v) ∈ entries)
    {below : Nat → Json} (h : ∀ k ∈ stepsBelow p entries, Describes entries (p ++ [k]) (below k)) :
    Describes entries p
      (.obj (withConditions ((stepsBelow p entries).map below) (membersOf (entryAt? p entries)))) := by
  rw [hv]
  exact .node below hmem stepsBelow_ascending (fun _ => mem_stepsBelow) h

/-! ## Building -/

theorem build_zero_eq (h : stepsBelow p entries = []) (below : Nat → Json) :
    build entries 0 p =
      pure (.obj (withConditions ((stepsBelow p entries).map below) (membersOf (entryAt? p entries)))) := by
  rw [build_of_no_steps h, h]
  rfl

theorem build_succ_eq {levels : Nat} {below : Nat → Json}
    (h : ∀ k ∈ stepsBelow p entries, build entries levels (p ++ [k]) = pure (below k)) :
    build entries (levels + 1) p =
      pure (.obj (withConditions ((stepsBelow p entries).map below) (membersOf (entryAt? p entries)))) := by
  by_cases hnil : stepsBelow p entries = []
  · rw [build_of_no_steps hnil, hnil]
    rfl
  · have hmapM : (stepsBelow p entries).mapM (fun k => build entries levels (p ++ [k])) =
        pure ((stepsBelow p entries).map below) := by
      rw [mapM_congr_of_mem h, List.mapM_pure]
    rw [build]
    split
    · next he => exact absurd he hnil
    · simp only [hmapM, pure_bind, withConditions]
      rw [if_neg (by simpa using hnil)]

/-- What is built of regular entries is the document that they describe, and nothing is noted. -/
theorem build_describes (h : Regular entries) (levels : Nat) : ∀ {p : Path} {v : Json}, (p, v) ∈ entries →
    maxNesting ≤ p.length + levels → ∃ doc, build entries levels p = pure doc ∧ Describes entries p doc := by
  induction levels with
  | zero =>
    intro p v hv hd
    have hsteps := stepsBelow_eq_nil h.short hd
    refine ⟨_, build_zero_eq hsteps fun _ => .null, .of_stepsBelow (entryAt?_eq_some h.distinct hv) hv ?_⟩
    rw [hsteps]
    exact fun k hk => absurd hk List.not_mem_nil
  | succ levels ih =>
    intro p v hv hd
    have hbelow : ∀ k ∈ stepsBelow p entries, ∃ doc,
        build entries levels (p ++ [k]) = pure doc ∧ Describes entries (p ++ [k]) doc := by
      intro k hk
      obtain ⟨w, hw⟩ := mem_stepsBelow.mp hk
      exact ih hw (by simp only [List.length_append, List.length_singleton]; omega)
    choose! below hbuild hdescribes using hbelow
    exact ⟨_, build_succ_eq hbuild, .of_stepsBelow (entryAt?_eq_some h.distinct hv) hv hdescribes⟩

/-! ## The root -/

theorem ofKey?_rootKey : ofKey? rootKey = some root := by
  rw [← key_root]
  exact ofKey?_key (by decide) (by decide)

theorem mem_entries {v : Json} : (p, v) ∈ Path.entries members ↔ ∃ key, (key, v) ∈ members ∧ ofKey? key = some p := by
  unfold Path.entries
  rw [List.mem_filterMap]
  constructor
  · rintro ⟨⟨key, w⟩, hm, he⟩
    obtain ⟨q, hq, he⟩ := Option.map_eq_some_iff.mp he
    cases he
    exact ⟨key, hm, hq⟩
  · rintro ⟨key, hm, hkey⟩
    exact ⟨(key, v), hm, by rw [hkey]; rfl⟩

theorem exists_root_entry (h : isFlat members = true) : ∃ v, (root, v) ∈ Path.entries members := by
  rw [isFlat, Bool.and_eq_true, Keyed.contains_iff] at h
  obtain ⟨⟨key, v⟩, hm, hkey⟩ := List.mem_map.mp h.1
  obtain rfl : key = rootKey := hkey
  exact ⟨v, mem_entries.mpr ⟨rootKey, hm, ofKey?_rootKey⟩⟩

/-- A document is not flat without a member for its root. -/
theorem isFlat_eq_false (h : Keyed.find? rootKey members = none) : isFlat members = false := by
  rw [isFlat, Keyed.contains, h]
  rfl

theorem find?_withConditions {name : String} (h : name ≠ "conditions") (below : List Json)
    (members : List (String × Json)) : Keyed.find? name (withConditions below members) = Keyed.find? name members := by
  unfold withConditions
  split
  · rfl
  · rw [Keyed.find?_insert, if_neg (Ne.symm h)]

/-- No entry of regular ones is a flat document in turn. -/
theorem Regular.find?_rootKey (h : Regular entries) {v : Json} (hv : (p, v) ∈ entries) :
    Keyed.find? rootKey (membersOf (some v)) = none := by
  refine Keyed.find?_eq_none fun m hm hkey => ?_
  have := (h.bare _ hv m hm).2.2
  rw [hkey, ofKey?_rootKey] at this
  cases this

theorem Describes.nested_eq (h : Regular entries) {doc : Json} (hd : Describes entries p doc) :
    nested doc = pure doc := by
  cases hd with
  | @node _ v steps below entry _ _ _ =>
    refine nested_of_not_isFlat (isFlat_eq_false ?_)
    rw [find?_withConditions (by decide)]
    exact h.find?_rootKey entry

/-- A flat document of regular entries stands for the document that they describe. -/
theorem nested_describes (hflat : isFlat members = true) (h : Regular (Path.entries members)) :
    ∃ doc, nested (.obj members) = pure doc ∧ Describes (Path.entries members) root doc := by
  obtain ⟨v, hv⟩ := exists_root_entry hflat
  have hentry := entryAt?_eq_some h.distinct hv
  rw [nested, if_pos hflat]
  split
  · next hnil =>
    have hsteps : stepsBelow root (Path.entries members) = [] := by simpa using hnil
    have hdescribes : Describes (Path.entries members) root (.obj (membersOf (some v))) := by
      have := @Describes.of_stepsBelow _ root v hentry hv (fun _ => .null) (by rw [hsteps]; simp)
      rwa [hsteps, hentry] at this
    rw [nestedRoot_eq, hentry]
    exact ⟨_, hdescribes.nested_eq h, hdescribes⟩
  · exact build_describes h _ hv (by decide)

/-! ## Where the nodes come from -/

/-- The entry is that of the condition, or of a combination with this aggregator. -/
def Says (v : Json) : Rule → Prop
  | .condition c => Node.condition? (membersOf (some v)) = some c
  | .combine aggregator _ => Node.aggregatorOf (membersOf (some v)) = .ok aggregator

/-- The nodes come one by one from the entries of some paths at a path or below it. The paths
    ascend, so that no two nodes come from one entry. -/
structure Origins (entries : List (Path × Json)) (p : Path) (nodes : List (Rule × Nat)) (used : List Path) : Prop where
  ascending : used.Pairwise (· < ·)
  below : ∀ q ∈ used, p <+: q
  said : List.Forall₂ (fun node q => ∃ v, (q, v) ∈ entries ∧ Says v node.1) nodes used

theorem lt_of_step_prefix {k : Nat} (h : p ++ [k] <+: q) : p < q := by
  obtain ⟨rest, rfl⟩ := h
  calc p = p ++ [] := (List.append_nil p).symm
    _ < p ++ ([k] ++ rest) := List.append_left_lt (List.nil_lt_cons k rest)
    _ = p ++ [k] ++ rest := (List.append_assoc _ _ _).symm

theorem lt_of_step_prefixes {r : Path} {j k : Nat} (hlt : j < k) (hq : p ++ [j] <+: q) (hr : p ++ [k] <+: r) : q < r := by
  obtain ⟨rest, rfl⟩ := hq
  obtain ⟨rest', rfl⟩ := hr
  rw [List.append_assoc, List.append_assoc]
  exact List.append_left_lt (List.cons_lt_cons_iff.mpr (.inl hlt))

theorem Origins.nil : Origins entries p [] [] := ⟨.nil, fun _ h => absurd h List.not_mem_nil, .nil⟩

/-- A node comes from the entry of its path, the nodes below it from entries below that. -/
theorem Origins.node {v : Json} (hv : (p, v) ∈ entries) {r : Rule} (hr : Says v r) (above : Nat) {steps : List Nat}
    (hsteps : steps.Pairwise (· < ·)) {nodesAt : Nat → List (Rule × Nat)} {usedAt : Nat → List Path}
    (h : ∀ k ∈ steps, Origins entries (p ++ [k]) (nodesAt k) (usedAt k)) :
    Origins entries p ((r, above) :: steps.flatMap nodesAt) (p :: steps.flatMap usedAt) where
  ascending := by
    refine List.pairwise_cons.mpr ⟨fun q hq => ?_, List.pairwise_flatMap.mpr ⟨fun k hk => (h k hk).ascending, ?_⟩⟩
    · obtain ⟨k, hk, hq⟩ := List.mem_flatMap.mp hq
      exact lt_of_step_prefix ((h k hk).below q hq)
    · refine hsteps.imp_of_mem fun hj hk hlt q hq q' hq' => ?_
      exact lt_of_step_prefixes hlt ((h _ hj).below q hq) ((h _ hk).below q' hq')
  below := by
    intro q hq
    rcases List.mem_cons.mp hq with rfl | hq
    · exact List.prefix_rfl
    · obtain ⟨k, hk, hq⟩ := List.mem_flatMap.mp hq
      exact (List.prefix_append p [k]).trans ((h k hk).below q hq)
  said := by
    have hself : List.Forall₂ (fun j k => j = k ∧ k ∈ steps) steps steps :=
      List.forall₂_same.mpr fun k hk => ⟨rfl, hk⟩
    refine .cons ⟨v, hv, hr⟩ (List.rel_flatMap hself fun j k hjk => ?_)
    obtain ⟨rfl, hk⟩ := hjk
    exact (h j hk).said

theorem condition?_withConditions (below : List Json) (members : List (String × Json)) :
    Node.condition? (withConditions below members) = Node.condition? members := by
  rw [Node.condition?, find?_withConditions (by decide), find?_withConditions (by decide),
    find?_withConditions (by decide), find?_withConditions (by decide)]
  rfl

theorem aggregatorOf_withConditions (below : List Json) (members : List (String × Json)) :
    Node.aggregatorOf (withConditions below members) = Node.aggregatorOf members := by
  rw [Node.aggregatorOf, find?_withConditions (by decide)]
  rfl

/-- The children of a node without children of its own are the documents put below it. -/
theorem childDocuments_withConditions (below : List Json)
    (h : ∀ m ∈ members, m.1 ≠ "children" ∧ m.1 ≠ "conditions" ∧ ofKey? m.1 = none) :
    Node.childDocuments (withConditions below members) = below := by
  have hchildren : Keyed.find? "children" members = none := Keyed.find?_eq_none fun m hm => (h m hm).1
  have hconditions : Keyed.find? "conditions" members = none := Keyed.find?_eq_none fun m hm => (h m hm).2.1
  unfold Node.childDocuments Node.childMember?
  rw [find?_withConditions (by decide), hchildren, Option.none_or, withConditions]
  cases below with
  | nil => rw [List.isEmpty_nil, if_pos rfl, hconditions]
  | cons v rest =>
    rw [List.isEmpty_cons, if_neg Bool.false_ne_true, Keyed.find?_insert, if_pos rfl]
    rfl

theorem Describes.origins (h : Regular entries) {doc : Json} (hd : Describes entries p doc) (depth above : Nat) :
    ∃ used, Origins entries p ((Node.read doc depth).value.toList.flatMap (·.nodes above)) used := by
  induction hd generalizing depth above with
  | @node p v steps below entry ascending present conditions ih =>
    cases hr : (Node.read (.obj (withConditions (steps.map below) (membersOf (some v)))) depth).value with
    | none => exact ⟨[], .nil⟩
    | some r =>
      rw [Option.toList_some, List.flatMap_singleton]
      rcases Node.read_cases hr with ⟨c, rfl, hc⟩ | ⟨aggregator, rfl, ha, -⟩
      · -- a condition takes the entry of its path and leaves those below it unused
        have hsaid : Says v (.condition c) := (condition?_withConditions _ _).symm.trans hc
        have hnone : ∀ k ∈ ([] : List Nat), Origins entries (p ++ [k]) [] [] := fun _ _ => .nil
        exact ⟨_, .node entry hsaid above .nil hnone⟩
      · have hsaid : ∀ children, Says v (.combine aggregator children) :=
          fun _ => (aggregatorOf_withConditions _ _).symm.trans ha
        choose! usedAt hused using fun k hk => ih k hk (depth + 1) (above + 1)
        have hbelow : ((steps.map below).filterMap fun w => (Node.read w (depth + 1)).value).flatMap (·.nodes (above + 1)) =
            steps.flatMap fun k => (Node.read (below k) (depth + 1)).value.toList.flatMap (·.nodes (above + 1)) := by
          rw [List.filterMap_eq_flatMap_toList, List.flatMap_assoc, List.flatMap_map]
        rw [childDocuments_withConditions _ (h.bare _ entry), Rule.nodes_combine, hbelow]
        exact ⟨_, .node entry (hsaid _) above ascending hused⟩

/-! ## Detached entries -/

/-- The way to a path does not begin at the root, or has no entry somewhere before its end. -/
def Detached (entries : List (Path × Json)) (p : Path) : Prop :=
  p.head? ≠ some 1 ∨ ∃ q, q ≠ [] ∧ q <+: p ∧ q ≠ p ∧ ∀ v, (q, v) ∉ entries

theorem not_detached_root : ¬ Detached entries root := by
  rintro (h | ⟨q, hne, hq, hroot, -⟩)
  · exact h rfl
  · rcases List.prefix_cons_iff.mp hq with rfl | ⟨rest, rfl, hrest⟩
    · exact hne rfl
    · rw [List.prefix_nil.mp hrest] at hroot
      exact hroot rfl

/-- The paths one step below an entry are no more detached than the entry. -/
theorem not_detached_step (hp : ¬ Detached entries p) {v : Json} (hv : (p, v) ∈ entries) (k : Nat) :
    ¬ Detached entries (p ++ [k]) := by
  obtain ⟨hhead, hway⟩ := not_or.mp hp
  rintro (h | ⟨q, hne, hq, hlast, hnone⟩)
  · cases p with
    | nil => exact hhead (by simp)
    | cons n rest => exact hhead h
  · rcases List.prefix_concat_iff.mp hq with rfl | hq
    · exact hlast rfl
    · by_cases he : q = p
      · exact hnone v (he ▸ hv)
      · exact hway ⟨q, hne, hq, he, hnone⟩

theorem entryAt?_eq_getLast? (p : Path) (entries : List (Path × Json)) :
    entryAt? p entries = (entries.filter fun e => e.1 = p).getLast?.map (·.2) := by
  rw [entryAt?, ← List.head?_filter, List.filter_reverse, List.head?_reverse]

theorem mem_iff_mem_filter {v : Json} : (p, v) ∈ entries ↔ (p, v) ∈ entries.filter fun e => e.1 = p := by
  simp

section

/-! Entries beside some of them that have the same at every path that is not detached. -/

variable {kept : List (Path × Json)}
  (h : ∀ p, ¬ Detached kept p → (kept.filter fun e => e.1 = p) = entries.filter fun e => e.1 = p)

include h

theorem stepsBelow_eq_of_kept (hp : ¬ Detached kept p) {v : Json} (hv : (p, v) ∈ kept) :
    stepsBelow p kept = stepsBelow p entries := by
  refine stepsBelow_ascending.eq_of_mem_iff stepsBelow_ascending fun k => ?_
  have hk := h _ (not_detached_step hp hv k)
  rw [mem_stepsBelow, mem_stepsBelow]
  exact exists_congr fun w => by rw [mem_iff_mem_filter, hk, ← mem_iff_mem_filter]

theorem entryAt?_eq_of_kept (hp : ¬ Detached kept p) : entryAt? p kept = entryAt? p entries := by
  rw [entryAt?_eq_getLast?, entryAt?_eq_getLast?, h p hp]

theorem build_eq_of_kept (levels : Nat) : ∀ {p : Path} {v : Json}, ¬ Detached kept p → (p, v) ∈ kept →
    build kept levels p = build entries levels p := by
  induction levels with
  | zero =>
    intro p v hp hv
    rw [build, build, stepsBelow_eq_of_kept h hp hv, entryAt?_eq_of_kept h hp]
  | succ levels ih =>
    intro p v hp hv
    have hbelow : ∀ k ∈ stepsBelow p entries,
        build kept levels (p ++ [k]) = build entries levels (p ++ [k]) := by
      intro k hk
      rw [← stepsBelow_eq_of_kept h hp hv] at hk
      obtain ⟨w, hw⟩ := mem_stepsBelow.mp hk
      exact ih (not_detached_step hp hv k) hw
    rw [build, build, stepsBelow_eq_of_kept h hp hv, entryAt?_eq_of_kept h hp]
    generalize stepsBelow p entries = steps at hbelow ⊢
    cases steps with
    | nil => rfl
    | cons k rest => simp only [mapM_congr_of_mem hbelow]

end

/-- Only detached entries of a flat document are left out of what is kept. -/
def KeepsAttached (members : List (String × Json)) (keep : String × Json → Bool) : Prop :=
  ∀ m ∈ members, keep m = false → ∀ p, ofKey? m.1 = some p → Detached (Path.entries (members.filter keep)) p

variable {keep : String × Json → Bool}

theorem KeepsAttached.filter_entries (h : KeepsAttached members keep)
    (hp : ¬ Detached (Path.entries (members.filter keep)) p) :
    ((Path.entries (members.filter keep)).filter fun e => e.1 = p) = (Path.entries members).filter fun e => e.1 = p := by
  unfold Path.entries
  rw [List.filterMap_filter, List.filter_filterMap, List.filter_filterMap]
  refine List.filterMap_congr fun m hm => ?_
  by_cases hk : keep m = true
  · rw [if_pos hk]
  · rw [if_neg hk, Option.filter_none]
    cases hkey : ofKey? m.1 with
    | none => rfl
    | some q =>
      have hq : q ≠ p := fun e => hp (h m hm (by simpa using hk) p (e ▸ hkey))
      rw [Option.map_some, Option.filter_some, if_neg (by simpa using hq)]

/-- A flat document is flat as long as it keeps the member of the root. -/
theorem isFlat_filter (hkeep : ∀ m ∈ members, m.1 = rootKey → keep m = true) (hflat : isFlat members = true) :
    isFlat (members.filter keep) = true := by
  rw [isFlat, Bool.and_eq_true, Keyed.contains_iff] at hflat ⊢
  obtain ⟨hroot, hall⟩ := hflat
  constructor
  · obtain ⟨m, hm, hkey⟩ := List.mem_map.mp hroot
    exact List.mem_map.mpr ⟨m, List.mem_filter.mpr ⟨hm, hkeep m hm hkey⟩, hkey⟩
  · exact List.all_eq_true.mpr fun m hm => List.all_eq_true.mp hall m (List.mem_of_mem_filter hm)

theorem KeepsAttached.isFlat_filter (h : KeepsAttached members keep) (hflat : isFlat members = true) :
    isFlat (members.filter keep) = true := by
  refine Path.isFlat_filter (fun m hm hkey => ?_) hflat
  by_contra hk
  exact not_detached_root (h m hm (by simpa using hk) root (hkey ▸ ofKey?_rootKey))

/-- Entries that are detached do not show in the nested document. -/
theorem KeepsAttached.nested_eq (h : KeepsAttached members keep) (hflat : isFlat members = true) :
    nested (.obj (members.filter keep)) = nested (.obj members) := by
  have hsame := fun p hp => h.filter_entries (p := p) hp
  obtain ⟨v, hv⟩ := exists_root_entry (h.isFlat_filter hflat)
  have hroot := stepsBelow_eq_of_kept hsame not_detached_root hv
  have hentry := entryAt?_eq_of_kept hsame not_detached_root
  rw [nested, nested, if_pos (h.isFlat_filter hflat), if_pos hflat, hroot, nestedRoot_eq, nestedRoot_eq, hentry,
    build_eq_of_kept hsame _ not_detached_root hv]

end Path

/-- A flat document of regular entries is read as the one nested document that its paths describe,
    each node from an entry of its own. Whether or not the entries are regular, those that are
    detached can be left out, or put in, with the same outcome. -/
theorem Tree.ofJson_flat {members : List (String × Json)} (hflat : Path.isFlat members = true) :
    (Path.Regular (Path.entries members) → ∃ doc,
      Path.Describes (Path.entries members) Path.root doc ∧
      (∀ other, Path.Describes (Path.entries members) Path.root other → other = doc) ∧
      ofJson (.obj members) = ofJson doc ∧
      (ofJson doc).value = ((Node.read doc 1).value.map Rule.toTree).getD {} ∧
      ∃ used, Path.Origins (Path.entries members) Path.root ((Node.read doc 1).value.toList.flatMap (·.nodes 0)) used) ∧
    ∀ keep, Path.KeepsAttached members keep → ofJson (.obj (members.filter keep)) = ofJson (.obj members) := by
  constructor
  · intro h
    obtain ⟨doc, hnested, hdoc⟩ := Path.nested_describes hflat h
    have hself := hdoc.nested_eq h
    refine ⟨doc, hdoc, fun other hother => hother.unique h.distinct hdoc, ?_, ?_, hdoc.origins h 1 0⟩
    · rw [ofJson, ofJson, hnested, hself]
    · rw [ofJson, hself, pure_bind]
      cases hdoc with
      | node => exact value_ofNested_obj _
  · intro keep hkeep
    rw [ofJson, ofJson, hkeep.nested_eq hflat]

/-- An `all` of two conditions, the one of the greater number first, beside an entry that is not an
    object and two that are detached. -/
def formWithOrphans : List (String × Json) :=
  [("1", .obj [("type", .str "combine"), ("aggregator", .str "all")]),
   ("1--10", .obj [("attribute", .str "color"), ("value", .str "red")]),
   ("1--2", .obj [("attribute", .str "sku"), ("value", .str "A")]),
   ("1--3", .null),
   ("1--7--1", .obj [("attribute", .str "size"), ("value", .str "L")]),
   ("2", .obj [("attribute", .str "size"), ("value", .str "M")])]

def isNoOrphan (m : String × Json) : Bool := m.1 ≠ "1--7--1" && m.1 ≠ "2"

theorem keepsAttached_formWithOrphans : Path.KeepsAttached formWithOrphans isNoOrphan := by
  have hpaths : ∀ m ∈ formWithOrphans, isNoOrphan m = false →
      Path.ofKey? m.1 = some [1, 7, 1] ∨ Path.ofKey? m.1 = some [2] := by decide
  have hmissing : [1, 7] ∉ (Path.entries (formWithOrphans.filter isNoOrphan)).map (·.1) := by decide
  intro m hm hk p hp
  rcases hpaths m hm hk with hkey | hkey
  · obtain rfl : [1, 7, 1] = p := Option.some.inj (hkey.symm.trans hp)
    exact .inr ⟨[1, 7], by decide, by decide, by decide, fun v hv => hmissing (List.mem_map_of_mem hv)⟩
  · obtain rfl : [2] = p := Option.some.inj (hkey.symm.trans hp)
    exact .inl (by decide)

/-- The conditions come in the order of their numbers, and the detached entries do not count. -/
theorem a_flat_form_is_read_in_the_order_of_its_numbers_without_its_orphans :
    Path.isFlat formWithOrphans = true ∧ Path.Regular (Path.entries formWithOrphans) ∧
      Path.KeepsAttached formWithOrphans isNoOrphan ∧
      (∃ doc, Path.Describes (Path.entries formWithOrphans) Path.root doc ∧
        Tree.ofJson (.obj formWithOrphans) = Tree.ofJson doc) ∧
      (Tree.ofJson (.obj (formWithOrphans.filter isNoOrphan))).value =
        ⟨.all, [.condition ⟨"sku", "==", .single (.text "A")⟩, .condition ⟨"color", "==", .single (.text "red")⟩]⟩ := by
  have hflat : Path.isFlat formWithOrphans = true := by decide
  have hregular : Path.Regular (Path.entries formWithOrphans) := ⟨by decide, by decide, by decide⟩
  obtain ⟨hdescribed, hkept⟩ := Tree.ofJson_flat hflat
  obtain ⟨doc, hdoc, -, hsame, -, -⟩ := hdescribed hregular
  refine ⟨hflat, hregular, keepsAttached_formWithOrphans, ⟨doc, hdoc, hsame⟩, ?_⟩
  rw [hkept _ keepsAttached_formWithOrphans]
  rfl

end RulePlan
