/-
  RulePlan.Proofs.Tree.Depth — how deep a tree can be that was read.

  A tree comes from a document, from a JSON text, from a text in the encoding of widgets
  or from the parameters of a widget (`Tree.IsRead`). A document may be nested, flat, a
  flat document with nested children in its entries, a flat document in the root entry
  of a flat one; in the end all of them are read by `Node.read`, which takes a
  combination at depth d only if d is at most `maxNesting`. So what is read at depth d
  has at most `maxNesting + 1 - d` levels (`Node.depth_read_le`), wherever the reading
  starts: the items of an array start at depth 2, below the combination around them.

  Proved: no tree that was read is deeper than `maxNesting`, so a compiler whose limit
  is at least that leaves no combination of it out for its depth
  (`Tree.IsRead.compiles_whole`).
-/

import RulePlan.Proofs.Compile.Contribution
import RulePlan.Proofs.Tree.Reading
import RulePlan.Widget.Parameters

namespace RulePlan

/-! ## Depths of rules -/

namespace Rule

theorem deepest_le {rs : List Rule} {n : Nat} (h : ∀ r ∈ rs, r.depth ≤ n) : deepest rs ≤ n := by
  induction rs with
  | nil => exact Nat.zero_le n
  | cons r rest ih =>
    rw [deepest]
    exact Nat.max_le.mpr ⟨h r List.mem_cons_self, ih fun s hs => h s (List.mem_cons_of_mem _ hs)⟩

/-- The levels above a node and those of the node itself are levels of the rule. -/
theorem add_depth_le_of_mem_nodes {r : Rule} {above : Nat} {node : Rule × Nat} (h : node ∈ r.nodes above) :
    node.2 + node.1.depth ≤ above + r.depth := by
  induction r generalizing above with
  | condition c =>
    rw [nodes_condition, List.mem_singleton] at h
    subst h
    exact Nat.le_refl _
  | combine aggregator children ih =>
    rw [nodes_combine] at h
    rcases List.mem_cons.mp h with rfl | h
    · exact Nat.le_refl _
    · obtain ⟨child, hc, hn⟩ := List.mem_flatMap.mp h
      have hbelow := ih child hc hn
      have hlt := depth_lt_of_mem aggregator hc
      omega

theorem depth_toTree (r : Rule) : r.toTree.depth = max 1 r.depth := by
  cases r with
  | condition c => rfl
  | combine aggregator children =>
    show 1 + deepest children = max 1 (1 + deepest children)
    omega

end Rule

/-! ## Reading -/

theorem Node.depth_read_le {v : Json} : ∀ {depth : Nat} {r : Rule},
    (Node.read v depth).value = some r → r.depth ≤ maxNesting + 1 - depth := by
  induction v using Json.byPartsOfParts with
  | document v ih =>
    intro depth r h
    obtain ⟨members, rfl⟩ := exists_obj_of_read h
    rcases read_cases h with ⟨c, rfl, -⟩ | ⟨aggregator, rfl, -, hd⟩
    · exact Nat.zero_le _
    · have hchildren : ∀ child ∈ (childDocuments members).filterMap fun w => (read w (depth + 1)).value,
          child.depth ≤ maxNesting - depth := by
        intro child hc
        obtain ⟨w, hw, hread⟩ := List.mem_filterMap.mp hc
        obtain ⟨u, hu, hwu⟩ := mem_parts_of_childDocuments hw
        have := ih u hu w hwu hread
        omega
      have := Rule.deepest_le hchildren
      rw [Rule.depth]
      omega

namespace Tree

theorem depth_empty_le : ({} : Tree).depth ≤ maxNesting := by decide

theorem depth_ofNested_le (v : Json) : (ofNested v).value.depth ≤ maxNesting := by
  cases v with
  | arr items =>
    have hitems : ∀ r ∈ (Node.readItems items 2).value, r.depth ≤ maxNesting - 1 := by
      rw [Node.value_readItems]
      intro r hr
      obtain ⟨w, -, hread⟩ := List.mem_filterMap.mp hr
      exact Node.depth_read_le hread
    have := Rule.deepest_le hitems
    show 1 + Rule.deepest (Node.readItems items 2).value ≤ 128
    simp only [maxNesting] at this
    omega
  | obj members =>
    rw [value_ofNested_obj]
    cases hr : (Node.read (.obj members) 1).value with
    | none => exact depth_empty_le
    | some r =>
      rw [Option.map_some, Option.getD_some, Rule.depth_toTree]
      exact Nat.max_le.mpr ⟨by decide, Node.depth_read_le hr⟩
  | null | bool _ | int _ | real _ | str _ => exact depth_empty_le

theorem depth_ofJson_le (v : Json) : (ofJson v).value.depth ≤ maxNesting := by
  rw [ofJson, Noted.value_bind]
  exact depth_ofNested_le _

theorem depth_ofText?_le {text : String} {t : Noted Tree} (h : ofText? text = .ok t) : t.value.depth ≤ maxNesting := by
  unfold ofText? at h
  split at h
  · cases h
    exact depth_ofJson_le _
  · cases h

end Tree

theorem Parameters.depth_tree_le (p : Parameters) : p.tree.value.depth ≤ maxNesting := by
  unfold tree
  split
  · split
    · next t h => exact Tree.depth_ofText?_le h
    · exact Tree.depth_empty_le
  · exact Tree.depth_empty_le
  · exact Tree.depth_ofJson_le _

namespace Tree

/-- The trees that documents, texts and parameters of widgets are read as. -/
inductive IsRead : Tree → Prop
  | ofJson (v : Json) : IsRead (Tree.ofJson v).value
  | ofText {text : String} {t : Noted Tree} (h : ofText? text = .ok t) : IsRead t.value
  | ofEncoded {encoded : String} {t : Noted Tree} (h : ofEncoded? encoded = .ok t) : IsRead t.value
  | ofParameters (p : Parameters) : IsRead p.tree.value

theorem IsRead.depth_le {t : Tree} (h : t.IsRead) : t.depth ≤ maxNesting := by
  cases h with
  | ofJson v => exact depth_ofJson_le v
  | ofText h => exact depth_ofText?_le h
  | ofEncoded h => exact depth_ofText?_le h
  | ofParameters p => exact p.depth_tree_le

end Tree

/-! ## Compiling -/

theorem Condition.predicates_ne_depthLimit (c : Condition) (known : Option Attribute) :
    c.predicates known ≠ .error .depthLimit := by
  unfold predicates
  simp only
  split
  · simp
  · split
    · unfold imagePredicate
      split <;> simp [Except.map]
    · split
      · unfold identifierPredicate
        split <;> simp [Except.map]
      · split
        · simp
        · unfold attributePredicates
          simp only
          split
          · simp
          · split <;> simp

theorem Condition.refusal?_ne_depthLimit {lookup : Lookup} {c : Condition} {d : Dropped}
    (h : c.refusal? lookup = some d) : d.reason ≠ .depthLimit := by
  unfold refusal? at h
  split at h
  · cases h
  · next reason he =>
    cases h
    rintro rfl
    exact c.predicates_ne_depthLimit _ he

/-- Nothing is left out for its depth of a tree that lies within the limit. -/
theorem reason_ne_depthLimit_of_depth_le {lookup : Lookup} {limit : Nat} {t : Tree} (ht : t.depth ≤ limit) :
    ∀ d ∈ (compile lookup limit t).dropped, d.reason ≠ .depthLimit := by
  intro d hd
  rw [compile_eq] at hd
  obtain ⟨⟨r, above⟩, hn, hr⟩ := List.mem_filterMap.mp hd
  cases r with
  | condition c =>
    rw [Rule.report?] at hr
    split at hr
    · exact Condition.refusal?_ne_depthLimit hr
    · cases hr
  | combine aggregator children =>
    have hle := Rule.add_depth_le_of_mem_nodes hn
    have hpos : 1 ≤ (Rule.combine aggregator children).depth := by rw [Rule.depth]; omega
    have hlt : above ≠ limit := by
      rw [Tree.depth] at ht
      simp only at hle
      omega
    rw [Rule.report?, if_neg hlt] at hr
    cases hr

/-- A tree that was read is no deeper than a document may nest, and a compiler that goes as deep
    leaves no combination of it out for its depth. -/
theorem Tree.IsRead.compiles_whole {t : Tree} (h : t.IsRead) :
    t.depth ≤ maxNesting ∧ ∀ (lookup : Lookup) (limit : Nat), maxNesting ≤ limit →
      ∀ d ∈ (compile lookup limit t).dropped, d.reason ≠ .depthLimit :=
  ⟨h.depth_le, fun _ _ hl => reason_ne_depthLimit_of_depth_le (Nat.le_trans h.depth_le hl)⟩

/-- A condition in nested combinations, each of which holds its child in an object. -/
def deepDocument : Nat → Json
  | 0 => .obj [("field", .str "sku"), ("value", .str "A")]
  | levels + 1 => .obj [("aggregator", .str "any"), ("conditions", .obj [("1", deepDocument levels)])]

/-- Of 133 combinations around a condition 128 are read, and these compile without a cut. -/
theorem a_document_of_133_combinations_is_read_as_128_that_compile_whole :
    let t := (Tree.ofJson (deepDocument 133)).value
    t.IsRead ∧ t.depth = maxNesting ∧ t.depth ≤ maxNesting ∧
      ∀ d ∈ (compile (Catalog.lookup {}) 128 t).dropped, d.reason ≠ .depthLimit := by
  intro t
  have hread : t.IsRead := .ofJson _
  obtain ⟨hdepth, hwhole⟩ := Tree.IsRead.compiles_whole hread
  exact ⟨hread, by decide +kernel, hdepth, hwhole _ 128 (by decide)⟩

end RulePlan
