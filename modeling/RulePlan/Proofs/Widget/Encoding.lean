/-
  RulePlan.Proofs.Widget.Encoding — conditions made fit for the parameters of a widget.

  A page escapes the text of the conditions for markup, then puts a stand-in in the
  place of each character that has a meaning in the text of a widget (`encode`). Both
  act on single characters, so the encoded text is made of one piece for each character
  that was written. Decoding replaces twelve targets in turn throughout the text. A
  piece is left alone by a target or is that target as a whole, and at the end of the
  list it is the character again; that is a computation for each of the eight characters
  that are escaped (`replaced?_code`). The order matters: an entity that was written in
  the text begins with an escaped `&`, which is restored last.

  Proved: decoding undoes encoding on every text that holds no stand-in of its own
  (`decode_encode`), so an encoded text is read as the text itself, and a widget takes
  the same conditions from either (`encoding_is_undone`).
-/

import RulePlan.Proofs.Json.Parts
import RulePlan.Proofs.Text.Replace
import RulePlan.Widget.Parameters

namespace RulePlan.Widget

/-! ## Encoding -/

/-- A character as it is written in markup. -/
def escapeMarkup : Char → List Char
  | '&' => "&amp;".toList
  | '"' => "&quot;".toList
  | '\x27' => "&#039;".toList
  | '<' => "&lt;".toList
  | '>' => "&gt;".toList
  | c => [c]

/-- A character as it is written in the parameters of a widget. -/
def standIn : Char → List Char
  | '\x7b' => "^[".toList
  | '\x7d' => "^]".toList
  | '"' => "\x60".toList
  | '\\' => "|".toList
  | '<' => "^(".toList
  | '>' => "^)".toList
  | c => [c]

def encode (text : String) : String := String.ofList ((text.toList.flatMap escapeMarkup).flatMap standIn)

/-- The text holds none of the characters that stand-ins are made with. -/
def WithoutStandIns (text : String) : Prop := ∀ c ∈ text.toList, c ≠ '\x60' ∧ c ≠ '|' ∧ c ≠ '^'

instance (text : String) : Decidable (WithoutStandIns text) := List.decidableBAll _ text.toList

/-! ## One character -/

/-- The piece of a character in an encoded text. -/
def code (c : Char) : List Char := (escapeMarkup c).flatMap standIn

/-- The replacements of decoding, in their order. -/
def replacements : List (String × String) := Tree.entities ++ Tree.reserved

theorem head_of_mem_replacements :
    ∀ p ∈ replacements, p.1.toList ≠ [] ∧ p.1.toList.head? ∈ [some '&', some '^', some '\x60', some '|'] := by
  decide

/-- The characters that are not written as they are. -/
def escaped : List Char := ['&', '"', '\x27', '<', '>', '\x7b', '\x7d', '\\']

theorem code_of_not_mem_escaped {c : Char} (h : c ∉ escaped) : code c = [c] := by
  have hmarkup : escapeMarkup c = [c] := by
    unfold escapeMarkup
    split <;> simp_all [escaped]
  have hstandIn : standIn c = [c] := by
    unfold standIn
    split <;> simp_all [escaped]
  rw [code, hmarkup, List.flatMap_singleton, hstandIn]

/-- Decoding brings each character back from its piece. -/
theorem replaced?_code {c : Char} (h : c ≠ '\x60' ∧ c ≠ '|' ∧ c ≠ '^') :
    Text.replaced? replacements (code c) = some [c] := by
  by_cases hc : c ∈ escaped
  · -- `all`, since a `∀` over characters would be decided by going through every one there is
    have hall : (escaped.all fun d => Text.replaced? replacements (code d) = some [d]) = true := by decide
    exact of_decide_eq_true (List.all_eq_true.mp hall c hc)
  · obtain ⟨htick, hbar, hcaret⟩ := h
    have hamp : c ≠ '&' := fun e => hc (e ▸ List.mem_cons_self)
    rw [code_of_not_mem_escaped hc]
    refine Text.replaced?_singleton fun p hp => ?_
    obtain ⟨hne, hhead⟩ := head_of_mem_replacements p hp
    refine ⟨hne, fun he => ?_⟩
    rw [he] at hhead
    simp [hamp, htick, hbar, hcaret] at hhead

/-! ## Texts -/

theorem decode_encode {text : String} (h : WithoutStandIns text) : Tree.decode (encode text) = text := by
  have hdecode : ∀ s, Tree.replaceEach Tree.reserved (Tree.replaceEach Tree.entities s) =
      replacements.foldl (fun t p => Text.replaceAll p.1.toList p.2.toList t) s := by
    intro s
    rw [replacements, List.foldl_append]
    rfl
  have hpieces : (text.toList.flatMap escapeMarkup).flatMap standIn = text.toList.flatMap code := List.flatMap_assoc
  rw [Tree.decode, encode, String.toList_ofList, hdecode, hpieces,
    Text.foldl_replaceAll_flatMap (fun p hp => (head_of_mem_replacements p hp).1) fun c hc => replaced?_code (h c hc),
    List.flatMap_singleton', String.ofList_toList]

/-- A text that a whole document was read from is not taken for a missing parameter. -/
theorem isTruthy_encode {text : String} (h : WithoutStandIns text) {v : Json} (hv : Json.ofText? text = some v)
    (hparts : v.parts ≠ []) : Parameters.isTruthy (.str (encode text)) = true := by
  have hback : ∀ s, encode text = s → text = Tree.decode s := by
    rintro s rfl
    exact (decode_encode h).symm
  have hempty : encode text ≠ "" := by
    intro he
    have hnone : Json.ofText? (Tree.decode "") = none := by rfl
    rw [hback _ he, hnone] at hv
    cases hv
  have hzero : encode text ≠ "0" := by
    intro he
    have hint : Json.ofText? (Tree.decode "0") = some (.int 0) := by rfl
    rw [hback _ he, hint] at hv
    cases hv
    exact hparts rfl
  simp [Parameters.isTruthy, hempty, hzero]

theorem tree_of_encoded {p : Parameters} {encoded : String} (h : p.conditionsEncoded = .str encoded)
    (ht : Parameters.isTruthy (.str encoded) = true) {t : Noted Tree} (hread : Tree.ofEncoded? encoded = .ok t) :
    p.tree = t := by
  unfold Parameters.tree
  rw [h, if_pos ht]
  simp only [hread]

theorem tree_of_conditions {p : Parameters} {v : Json} (he : Parameters.isTruthy p.conditionsEncoded = false)
    (h : p.conditions = v) (hparts : v.parts ≠ []) : p.tree = Tree.ofJson v := by
  unfold Parameters.tree
  rw [he, if_neg Bool.false_ne_true, h]
  cases v with
  | arr items => rfl
  | obj members => rfl
  | null | bool _ | int _ | real _ | str _ => exact absurd rfl hparts

/-- An encoded text is read as the text that was encoded, so a widget has the same conditions
    whether it is given a list or an object of them or their encoded text. -/
theorem encoding_is_undone {text : String} (h : WithoutStandIns text) :
    Tree.ofEncoded? (encode text) = Tree.ofText? text ∧
      ∀ v, Json.ofText? text = some v → v.parts ≠ [] → ∀ p q : Parameters,
        p.conditionsEncoded = .str (encode text) → Parameters.isTruthy q.conditionsEncoded = false →
          q.conditions = v → p.tree = q.tree := by
  have hread : Tree.ofEncoded? (encode text) = Tree.ofText? text := by rw [Tree.ofEncoded?, decode_encode h]
  refine ⟨hread, fun v hv hparts p q hp hq hcond => ?_⟩
  have htext : Tree.ofText? text = .ok (Tree.ofJson v) := by simp only [Tree.ofText?, hv]
  rw [tree_of_encoded hp (isTruthy_encode h hv hparts) (hread.trans htext), tree_of_conditions hq hcond hparts]

/-- An entity that was written in the text comes back as it was written. -/
theorem a_list_with_markup_and_an_entity_in_it_is_read_from_its_encoding :
    let text := "[\x7b\"field\":\"<it's &lt;\"\x7d]"
    let v : Json := .arr [.obj [("field", .str "<it's &lt;")]]
    WithoutStandIns text ∧ Json.ofText? text = some v ∧ v.parts ≠ [] ∧
      encode text = "[^[&quot;field&quot;:&quot;&lt;it&#039;s &amp;lt;&quot;^]]" ∧
      Tree.ofEncoded? (encode text) = Tree.ofText? text ∧
      ({ conditionsEncoded := .str (encode text) } : Parameters).tree = ({ conditions := v } : Parameters).tree := by
  intro text v
  have h : WithoutStandIns text := by decide
  have htokens : Json.tokens? text.toList = some [.openArray, .openObject, .text (some "field"), .colon,
      .text (some "<it's &lt;"), .closeObject, .closeArray] := by
    simp only [text]
    rfl
  have hv : Json.ofText? text = some v := by
    rw [Json.ofText?, Json.read?, Json.written?, htokens]
    rfl
  have hparts : v.parts ≠ [] := List.cons_ne_nil _ _
  obtain ⟨hread, htree⟩ := encoding_is_undone h
  exact ⟨h, hv, hparts, by decide, hread, htree v hv hparts _ _ rfl rfl rfl⟩

end RulePlan.Widget
