/-
  RulePlan.Proofs.Sql.Expression — the expressions of predicates as tokens.

  Every term and every test is written in pieces that are read one by one, and its
  tokens are balanced and free of the keywords of junctions. So a test is one operand
  wherever it stands: by itself it is read as the expression that it is, and so it is in
  the parentheses that it gets beside another test (`Test.stands`, `Test.stands_beside`).
-/

import RulePlan.Proofs.Number.Written
import RulePlan.Proofs.Sql.Reading
import RulePlan.Sql.Test

namespace RulePlan.Sql

variable {d : Dialect}

/-! ## Words and numbers -/

/-- What is no part of words. -/
theorem isWordChar_eq_false :
    ∀ c ∈ separators ++ ['\'', '"', '\x60'] ++ "+-*/<>=~!@%^&|?:".toList, isWordChar c = false :=
  List.all_iff_forall_prop.mp (by decide)

theorem readNext_wordChar {c : Char} (h : isWordChar c) (complete : List Token) :
    readNext d complete c = some (complete, .word [c]) := by
  have hne : ∀ e, isWordChar e = false → c ≠ e := by
    rintro e he rfl
    rw [h] at he
    cases he
  have hmark : isMark c = false := by
    simp [isMark, hne '(' rfl, hne ')' rfl, hne ',' rfl, hne ';' rfl]
  have hseparator : c ∉ separators := fun hc => hne c (isWordChar_eq_false c (by simp [hc])) rfl
  have hquote : c ≠ nameQuote d := by cases d <;> exact hne _ rfl
  simp [readNext, hmark, hseparator, hquote, quote?, hne '\'' rfl, hne '"' rfl, h]

theorem run_word {cs : List Char} (h : ∀ c ∈ cs, isWordChar c) (read : List Char) :
    run d (.word read) cs = some ([], .word (cs.reverse ++ read)) := by
  induction cs generalizing read with
  | nil => rfl
  | cons c r ih =>
    have hstep : step d (.word read) c = some ([], .word (c :: read)) := if_pos (h c List.mem_cons_self)
    rw [run_cons hstep, ih fun e he => h e (List.mem_cons_of_mem _ he)]
    simp

theorem lex_word {cs : List Char} (hne : cs ≠ []) (h : ∀ c ∈ cs, isWordChar c) : lex d cs = some [.word cs] := by
  obtain ⟨c, r, rfl⟩ := List.exists_cons_of_ne_nil hne
  have hstep : step d .between c = some ([], .word [c]) := readNext_wordChar (h c List.mem_cons_self) []
  rw [lex, run_cons hstep, run_word fun e he => h e (List.mem_cons_of_mem _ he)]
  simp [Mode.tokens?]

theorem lex_minus {cs : List Char} (hne : cs ≠ []) (h : ∀ c ∈ cs, isWordChar c) :
    lex d ('-' :: cs) = some [.sign ['-'], .word cs] := by
  obtain ⟨c, r, rfl⟩ := List.exists_cons_of_ne_nil hne
  have hc := h c List.mem_cons_self
  -- A second minus would open a comment.
  have hdash : c ≠ '-' := by
    rintro rfl
    exact absurd hc (by decide)
  have hsign : isSignChar c = false := by
    refine Bool.eq_false_iff.mpr fun hs => ?_
    have hmem : c ∈ "+-*/<>=~!@%^&|?:".toList := List.contains_iff_mem.mp hs
    rw [isWordChar_eq_false c (List.mem_append_right _ hmem)] at hc
    cases hc
  have hminus : step d .between '-' = some ([], .sign ['-']) := by cases d <;> rfl
  have hstep : step d (.sign ['-']) c = some ([.sign ['-']], .word [c]) := by
    simp [step, opensComment, hdash, hsign, readNext_wordChar hc]
  rw [lex, run_cons hminus, run_cons hstep, run_word fun e he => h e (List.mem_cons_of_mem _ he)]
  simp [Mode.tokens?]

/-! ### Numerals -/

def isNumeralChar (c : Char) : Bool := Numeral.isDigit c || ".Nainf".toList.contains c

/-- An optional minus and the characters of a number. -/
def IsNumeral (s : List Char) : Prop :=
  ∃ cs, cs ≠ [] ∧ (∀ c ∈ cs, isNumeralChar c) ∧ (s = cs ∨ s = '-' :: cs)

theorem of_isNumeralChar {c : Char} (h : isNumeralChar c) : isWordChar c ∧ c ≠ 'R' ∧ c ≠ 'D' := by
  rw [isNumeralChar, Bool.or_eq_true] at h
  rcases h with h | h
  · have hdigit : c.isDigit = true := h
    refine ⟨by simp [isWordChar, Char.isAlphanum, hdigit], ?_, ?_⟩ <;>
    · rintro rfl
      exact absurd h (by decide)
  · have hall : ∀ c ∈ ".Nainf".toList, isWordChar c ∧ c ≠ 'R' ∧ c ≠ 'D' := List.all_iff_forall_prop.mp (by decide)
    exact hall c (List.contains_iff_mem.mp h)

theorem isNumeral_toString (n : Int) : IsNumeral (toString n).toList := by
  refine ⟨Nat.toDigits 10 n.natAbs, Nat.toDigits_ne_nil, fun c hc => ?_, ?_⟩
  · rw [isNumeralChar, Numeral.isDigit_of_mem_toDigits hc]
    rfl
  · rw [toList_toString]
    split
    · exact .inr rfl
    · exact .inl rfl

theorem isNumeralChar_of_mem_withPoint {digits : List Char} (h : ∀ c ∈ digits, isNumeralChar c) {places : Nat}
    {c : Char} (hc : c ∈ Numeral.withPoint digits places) : isNumeralChar c := by
  have hpadded : ∀ c ∈ List.replicate (places + 1 - digits.length) '0' ++ digits, isNumeralChar c := by
    intro c hc
    rcases List.mem_append.mp hc with hc | hc
    · rw [(List.mem_replicate.mp hc).2]
      rfl
    · exact h c hc
  rcases List.mem_append.mp hc with hc | hc
  · exact hpadded c (List.mem_of_mem_take hc)
  · rcases List.mem_cons.mp hc with rfl | hc
    · rfl
    · exact hpadded c (List.mem_of_mem_drop hc)

theorem isNumeralChar_of_mem_positional {x : Decimal} {c : Char} (hc : c ∈ Numeral.positional x) : isNumeralChar c := by
  have hdigits : ∀ c ∈ Nat.toDigits 10 x.digits, isNumeralChar c := fun c hc => by
    rw [isNumeralChar, Numeral.isDigit_of_mem_toDigits hc]
    rfl
  unfold Numeral.positional at hc
  split at hc
  · rcases List.mem_append.mp hc with hc | hc
    · exact hdigits c hc
    · split at hc
      · cases hc
      · rw [(List.mem_replicate.mp hc).2]
        rfl
  · exact isNumeralChar_of_mem_withPoint hdigits hc

theorem positional_ne_nil (x : Decimal) : Numeral.positional x ≠ [] := by
  unfold Numeral.positional
  split
  · simp [Nat.toDigits_ne_nil]
  · simp [Numeral.withPoint]

theorem isNumeral_ofBinary64 (x : Binary64) : IsNumeral (Numeral.ofBinary64 x).toList := by
  unfold Numeral.ofBinary64
  split
  · exact ⟨"NaN".toList, by decide, List.all_iff_forall_prop.mp (by decide), .inl rfl⟩
  · rw [String.toList_ofList]
    have hbody : ∀ body, body ≠ [] → (∀ c ∈ body, isNumeralChar c) →
        IsNumeral (if x.negative then '-' :: body else body) := by
      intro body hne hall
      refine ⟨body, hne, hall, ?_⟩
      split
      · exact .inr rfl
      · exact .inl rfl
    refine hbody _ ?_ ?_
    · split
      · exact positional_ne_nil _
      · decide
    · split
      · exact fun c hc => isNumeralChar_of_mem_positional hc
      · exact List.all_iff_forall_prop.mp (by decide)

/-! ## Quiet tokens -/

/-- A token that is no parenthesis and no keyword of a junction. -/
def Token.isQuiet (t : Token) : Bool := !List.contains [.mark '(', .mark ')', keyword "OR", keyword "AND"] t

/-- Tokens in which no junction is cut. -/
structure Quiet (ts : List Token) : Prop where
  balanced : Balanced ts
  no_or : keyword "OR" ∉ ts
  no_and : keyword "AND" ∉ ts

namespace Quiet

variable {a b : List Token}

theorem nil : Quiet [] := ⟨.nil, List.not_mem_nil, List.not_mem_nil⟩

theorem append (ha : Quiet a) (hb : Quiet b) : Quiet (a ++ b) where
  balanced := ha.balanced.append hb.balanced
  no_or h := (List.mem_append.mp h).elim ha.no_or hb.no_or
  no_and h := (List.mem_append.mp h).elim ha.no_and hb.no_and

theorem parens (ha : Quiet a) : Quiet (parens a) where
  balanced := ha.balanced.parens
  no_or h := by
    rcases List.mem_cons.mp h with h | h
    · cases h
    · rcases List.mem_append.mp h with h | h
      · exact ha.no_or h
      · cases List.mem_singleton.mp h
  no_and h := by
    rcases List.mem_cons.mp h with h | h
    · cases h
    · rcases List.mem_append.mp h with h | h
      · exact ha.no_and h
      · cases List.mem_singleton.mp h

theorem of_all {ts : List Token} (h : ts.all Token.isQuiet) : Quiet ts := by
  induction ts with
  | nil => exact nil
  | cons t r ih =>
    rw [List.all_cons, Bool.and_eq_true, Token.isQuiet, Bool.not_eq_true', List.contains_eq_mem,
      decide_eq_false_iff_not] at h
    obtain ⟨ht, hr⟩ := h
    simp only [List.mem_cons, not_or] at ht
    obtain ⟨hopen, hclose, hor, hand, -⟩ := ht
    have hsingle : Quiet [t] := ⟨.token hopen hclose .nil, by simpa using Ne.symm hor, by simpa using Ne.symm hand⟩
    exact hsingle.append (ih hr)

end Quiet

/-! ## Pieces that stay whole -/

theorem tokens_append (d : Dialect) (x y : List Piece) : tokens d (x ++ y) = tokens d x ++ tokens d y :=
  List.flatMap_append

/-- Pieces that are read one by one, as tokens that begin with no parenthesis and that no junction cuts. -/
structure IsWhole (d : Dialect) (pieces : List Piece) : Prop where
  lexes : Lexes d pieces
  quiet : Quiet (tokens d pieces)
  head : ∃ t r, tokens d pieces = t :: r ∧ t ≠ .mark '('

/-- Code between two parts of an expression. -/
def Separates (d : Dialect) (s : String) : Prop :=
  beginsApart s ∧ endsBetween d s ∧ (Piece.tokens d (.code s)).all Token.isQuiet

instance (s : String) : Decidable (Separates d s) := inferInstanceAs (Decidable (_ ∧ _ ∧ _))

/-- Code that opens a parenthesis at its end, behind a word. -/
def Opens (d : Dialect) (s : String) : Prop :=
  endsBetween d s ∧ ∃ t r, Piece.tokens d (.code s) = t :: r ++ [.mark '('] ∧ (t :: r).all Token.isQuiet

/-- Code that begins with the parenthesis that closes. -/
def Closes (d : Dialect) (s : String) : Prop :=
  beginsApart s ∧ (lex d s.toList).isSome ∧ ∃ r, Piece.tokens d (.code s) = .mark ')' :: r ∧ r.all Token.isQuiet

namespace IsWhole

variable {s front back : String} {x y : List Piece} {ts before after : List Token}

theorem code (hlex : lex d s.toList = some ts) (hquiet : ts.all Token.isQuiet) (hne : ts ≠ []) :
    IsWhole d [.code s] := by
  have htokens : tokens d [.code s] = ts := by simp [tokens, Piece.tokens, hlex]
  obtain ⟨t, r, rfl⟩ := List.exists_cons_of_ne_nil hne
  refine ⟨.code (by rw [hlex]; rfl), htokens ▸ .of_all hquiet, t, r, htokens, ?_⟩
  rintro rfl
  cases hquiet

theorem word (hne : s.toList ≠ []) (hword : s.toList.all isWordChar) (hquiet : [Token.word s.toList].all Token.isQuiet) :
    IsWhole d [.code s] :=
  code (lex_word hne (List.all_eq_true.mp hword)) hquiet (List.cons_ne_nil _ _)

theorem name (d : Dialect) (s : String) : IsWhole d [.name s] :=
  ⟨.name d s, .of_all (by simp [tokens, Piece.tokens, Token.isQuiet, keyword]), _, _, rfl, by simp⟩

theorem text (d : Dialect) (s : String) : IsWhole d [.text s] :=
  ⟨.text d s, .of_all (by simp [tokens, Piece.tokens, Token.isQuiet, keyword]), _, _, rfl, by simp⟩

theorem numeral (h : IsNumeral s.toList) : IsWhole d [.code s] := by
  obtain ⟨cs, hne, hall, hs⟩ := h
  have hword : ∀ c ∈ cs, isWordChar c := fun c hc => (of_isNumeralChar (hall c hc)).1
  have hquiet : Token.isQuiet (.word cs) := by
    have hor : cs ≠ ['O', 'R'] := fun h => (of_isNumeralChar (hall 'R' (h ▸ by decide))).2.1 rfl
    have hand : cs ≠ ['A', 'N', 'D'] := fun h => (of_isNumeralChar (hall 'D' (h ▸ by decide))).2.2 rfl
    simp [Token.isQuiet, keyword, hor, hand]
  rcases hs with hs | hs
  · exact code (by rw [hs]; exact lex_word hne hword) (by simp [hquiet]) (List.cons_ne_nil _ _)
  · exact code (by rw [hs]; exact lex_minus hne hword) (by simpa [hquiet] using (by decide)) (List.cons_ne_nil _ _)

theorem value (s : Scalar) : IsWhole d [valuePiece s] := by
  cases s with
  | bool b => cases b <;> exact word (by decide) (by decide) (by decide)
  | int n => exact numeral (isNumeral_toString _)
  | float x => exact numeral (isNumeral_ofBinary64 x)
  | text s => exact text d s

theorem followed (hx : IsWhole d x) (hs : beginsApart s) (hy : Lexes d (.code s :: y))
    (hq : Quiet (tokens d (.code s :: y))) : IsWhole d (x ++ .code s :: y) := by
  obtain ⟨t, r, hhead, ht⟩ := hx.head
  refine ⟨hx.lexes.closing hs hy, ?_, t, r ++ tokens d (.code s :: y), ?_, ht⟩
  · rw [tokens_append]
    exact hx.quiet.append hq
  · rw [tokens_append, hhead, List.cons_append]

theorem between (hx : IsWhole d x) (hs : Separates d s) (hy : IsWhole d y) : IsWhole d (x ++ .code s :: y) :=
  hx.followed hs.1 (hy.lexes.opening hs.2.1) ((Quiet.of_all hs.2.2).append hy.quiet)

theorem joined {parts : List (List Piece)} (hs : Separates d s) (hne : parts ≠ []) (h : ∀ x ∈ parts, IsWhole d x) :
    IsWhole d (joined s parts) :=
  forall_joined (fun hx hy => hx.between hs hy) hne h

theorem enclosed (hfront : Opens d front) (hx : IsWhole d x) (hback : Closes d back) :
    IsWhole d (.code front :: x ++ [.code back]) := by
  obtain ⟨hends, t, before, hopen, hbefore⟩ := hfront
  obtain ⟨hapart, hlex, after, hclose, hafter⟩ := hback
  have htokens : tokens d (.code front :: x ++ [.code back]) = t :: before ++ (parens (tokens d x) ++ after) := by
    rw [tokens_append]
    simp [tokens, hopen, hclose, parens]
  refine ⟨(hx.lexes.opening hends).closing hapart (.code hlex), ?_, t, _, htokens, ?_⟩
  · rw [htokens]
    exact (Quiet.of_all hbefore).append (hx.quiet.parens.append (.of_all hafter))
  · rintro rfl
    cases hbefore

end IsWhole

/-! ## Terms and tests -/

theorem separates_comma (d : Dialect) : Separates d ", " := by cases d <;> decide

theorem closes_parenthesis (d : Dialect) : Closes d ")" :=
  ⟨by decide, by cases d <;> decide, [], by cases d <;> decide, rfl⟩

theorem Term.isWhole (t : Term) : IsWhole d t.pieces := by
  induction t with
  | null => exact .word (by decide) (by decide) (by decide)
  | column name => exact .name d name
  | value s => exact .value s
  | replaced t target replacement ih =>
    have hopen : Opens d "REPLACE(" := ⟨by cases d <;> decide, keyword "REPLACE", [], by cases d <;> decide, by decide⟩
    have hparts := (IsWhole.text d target).between (separates_comma d) (.text d replacement)
    have hwhole := IsWhole.enclosed hopen (ih.between (separates_comma d) hparts) (closes_parenthesis d)
    simpa [Term.pieces] using hwhole

theorem isWhole_items {items : List Term} (hne : items ≠ []) : IsWhole d (joined ", " (items.map Term.pieces)) :=
  .joined (separates_comma d) (by simpa using hne) (List.forall_mem_map.mpr fun t _ => t.isWhole)

/-- The comparison of a value with the parts of a text, where a parenthesis closes in the middle of the code. -/
theorem isWhole_amongParts (wanted stored : Term) (delimiter : String) :
    IsWhole d (.code "CAST(" :: wanted.pieces ++ .code " AS TEXT) = ANY(string_to_array(" :: stored.pieces
      ++ [.code ", ", .text delimiter, .code "))"]) := by
  have hcast : Piece.tokens d (.code "CAST(") = [keyword "CAST", .mark '('] := by cases d <;> decide
  have hany : Piece.tokens d (.code " AS TEXT) = ANY(string_to_array(") = [keyword "AS", keyword "TEXT", .mark ')',
      .sign ['='], keyword "ANY", .mark '(', keyword "string_to_array", .mark '('] := by cases d <;> decide
  have hclose : Piece.tokens d (.code "))") = [.mark ')', .mark ')'] := by cases d <;> decide
  have hparts := stored.isWhole.between (separates_comma d) (.text d delimiter)
  have hcastEnds : endsBetween d "CAST(" := by cases d <;> decide
  have hanyEnds : endsBetween d " AS TEXT) = ANY(string_to_array(" := by cases d <;> decide
  have hend : Lexes d [.code "))"] := .code (by cases d <;> decide)
  have hlexes := (wanted.isWhole.lexes.opening hcastEnds).closing (by decide)
    ((hparts.lexes.closing (by decide) hend).opening hanyEnds)
  have htokens : tokens d (.code "CAST(" :: wanted.pieces ++ .code " AS TEXT) = ANY(string_to_array(" :: stored.pieces
        ++ [.code ", ", .text delimiter, .code "))"]) =
      keyword "CAST" :: (parens (tokens d wanted.pieces ++ [keyword "AS", keyword "TEXT"]) ++
        ([.sign ['='], keyword "ANY"] ++
          parens (keyword "string_to_array" :: parens (tokens d (stored.pieces ++ [.code ", ", .text delimiter]))))) := by
    simp [tokens, hcast, hany, hclose, parens]
  refine ⟨by simpa using hlexes, ?_, _, _, htokens, by decide⟩
  rw [htokens]
  have hword : Quiet [keyword "CAST"] := .of_all (by decide)
  have htype : Quiet (tokens d wanted.pieces ++ [keyword "AS", keyword "TEXT"]) :=
    wanted.isWhole.quiet.append (.of_all (by decide))
  have hequal : Quiet [.sign ['='], keyword "ANY"] := .of_all (by decide)
  have harray : Quiet [keyword "string_to_array"] := .of_all (by decide)
  exact hword.append (htype.parens.append (hequal.append (harray.append hparts.quiet.parens).parens))

theorem Test.isWhole (t : Test) : IsWhole d t.pieces := by
  cases t with
  | compare sign left right =>
    have hsign : Separates d sign.text := by cases d <;> cases sign <;> decide
    exact left.isWhole.between hsign right.isWhole
  | like negated t pattern =>
    have hlike : Separates d (if negated then " NOT LIKE " else " LIKE ") := by cases d <;> cases negated <;> decide
    have hescape : Separates d " ESCAPE " := by cases d <;> decide
    exact t.isWhole.between hlike ((IsWhole.text d pattern).between hescape (.text d likeEscape))
  | oneOf negated t items =>
    cases items with
    | nil =>
      have hlex : lex d (if negated then "1 = 1" else "1 = 2").toList =
          some [.word ['1'], .sign ['='], .word [if negated then '1' else '2']] := by
        cases d <;> cases negated <;> decide
      exact .code hlex (by cases negated <;> decide) (List.cons_ne_nil _ _)
    | cons item rest =>
      have hopen : Opens d (if negated then " NOT IN (" else " IN (") := by
        cases negated
        · exact ⟨by cases d <;> decide, keyword "IN", [], by cases d <;> decide, by decide⟩
        · exact ⟨by cases d <;> decide, keyword "NOT", [keyword "IN"], by cases d <;> decide, by decide⟩
      have hlist := IsWhole.enclosed hopen (isWhole_items (List.cons_ne_nil item rest)) (closes_parenthesis d)
      have hwhole := t.isWhole.followed (by cases negated <;> decide) hlist.lexes hlist.quiet
      simpa [Test.pieces] using hwhole
  | isNull negated t =>
    have hlex : lex d (if negated then " IS NOT NULL" else " IS NULL").toList =
        some (keyword "IS" :: (if negated then [keyword "NOT", keyword "NULL"] else [keyword "NULL"])) := by
      cases d <;> cases negated <;> decide
    have hnull := IsWhole.code hlex (by cases negated <;> decide) (List.cons_ne_nil _ _)
    exact t.isWhole.followed (by cases negated <;> decide) hnull.lexes hnull.quiet
  | inCommaList negated wanted stored =>
    have hopen : Opens d "FIND_IN_SET(" :=
      ⟨by cases d <;> decide, keyword "FIND_IN_SET", [], by cases d <;> decide, by decide⟩
    have hclose : Closes d (if negated then ") = 0" else ") > 0") :=
      ⟨by cases negated <;> decide, by cases d <;> cases negated <;> decide,
        [.sign [if negated then '=' else '>'], .word ['0']], by cases d <;> cases negated <;> decide, by cases negated <;> decide⟩
    have hwhole := IsWhole.enclosed hopen (wanted.isWhole.between (separates_comma d) stored.isWhole) hclose
    simpa [Test.pieces] using hwhole
  | amongParts negated wanted stored delimiter =>
    have hopen : Opens d "NOT (" := ⟨by cases d <;> decide, keyword "NOT", [], by cases d <;> decide, by decide⟩
    cases negated
    · exact isWhole_amongParts wanted stored delimiter
    · exact .enclosed hopen (isWhole_amongParts wanted stored delimiter) (closes_parenthesis d)

/-! ## Tests as operands -/

/-- A test is not a constant: it has another token than FALSE. -/
theorem Test.exists_token (t : Test) : ∃ x ∈ tokens d t.pieces, x ≠ keyword "FALSE" := by
  have hmem : ∀ {pieces : List Piece} (piece : Piece) (x : Token), piece ∈ pieces → x ∈ piece.tokens d →
      x ≠ keyword "FALSE" → ∃ x ∈ tokens d pieces, x ≠ keyword "FALSE" :=
    fun piece x hpiece hx hne => ⟨x, List.mem_flatMap.mpr ⟨piece, hpiece, hx⟩, hne⟩
  cases t with
  | compare sign left right =>
    obtain ⟨o, ho⟩ : ∃ o, Piece.tokens d (.code sign.text) = [.sign o] := by
      cases d <;> cases sign <;> exact ⟨_, rfl⟩
    exact hmem (.code sign.text) (.sign o) (by simp [Test.pieces]) (by simp [ho]) (by simp [keyword])
  | like negated t pattern =>
    exact hmem (.text pattern) _ (by simp [Test.pieces]) (List.mem_singleton_self _) (by simp [keyword])
  | oneOf negated t items =>
    cases items with
    | nil =>
      exact hmem (.code (if negated then "1 = 1" else "1 = 2")) (.sign ['=']) (List.mem_singleton_self _)
        (by cases d <;> cases negated <;> decide) (by decide)
    | cons item rest => exact hmem (.code ")") (.mark ')') (by simp [Test.pieces]) (by cases d <;> decide) (by decide)
  | isNull negated t =>
    exact hmem (.code (if negated then " IS NOT NULL" else " IS NULL")) (keyword "NULL") (by simp [Test.pieces])
      (by cases d <;> cases negated <;> decide) (by decide)
  | inCommaList negated wanted stored =>
    exact hmem (.code ", ") (.mark ',') (by simp [Test.pieces]) (by cases d <;> decide) (by decide)
  | amongParts negated wanted stored delimiter =>
    exact hmem (.text delimiter) _ (by cases negated <;> simp [Test.pieces]) (List.mem_singleton_self _)
      (by simp [keyword])

theorem Test.stands (t : Test) : Stands (tokens d t.pieces) (.atom (tokens d t.pieces)) := by
  have hwhole := t.isWhole (d := d)
  obtain ⟨first, r, hhead, hopen⟩ := hwhole.head
  obtain ⟨x, hx, hne⟩ := t.exists_token (d := d)
  refine ⟨hwhole.quiet.balanced, uncut_of_balanced hwhole.quiet.balanced (by decide) hwhole.quiet.no_or,
    uncut_of_balanced hwhole.quiet.balanced (by decide) hwhole.quiet.no_and, ?_⟩
  have henclosed : enclosed? (tokens d t.pieces) = none := by
    rw [hhead]
    unfold enclosed?
    split
    · next h => exact absurd (List.cons.inj h).1 hopen
    · rfl
  have hconst : tokens d t.pieces ≠ [keyword "FALSE"] := fun h => hne (List.mem_singleton.mp (h ▸ hx))
  rw [readOperand, henclosed]
  exact if_neg hconst

theorem lexes_parenthesised {x : List Piece} (hx : Lexes d x) : Lexes d (parenthesised x) := by
  have hopen : endsBetween d "(" := by cases d <;> decide
  exact (hx.opening hopen).closing (by decide) (.code (by cases d <;> decide))

theorem tokens_parenthesised (d : Dialect) (x : List Piece) : tokens d (parenthesised x) = parens (tokens d x) := by
  have hopen : Piece.tokens d (.code "(") = [.mark '('] := by cases d <;> decide
  have hclose : Piece.tokens d (.code ")") = [.mark ')'] := by cases d <;> decide
  simp [parenthesised, tokens, parens, hopen, hclose]

theorem Test.piecesBeside_cases (t : Test) : t.piecesBeside = t.pieces ∨ t.piecesBeside = parenthesised t.pieces := by
  cases t <;> first | exact .inl rfl | exact .inr rfl

theorem Test.lexes_beside (t : Test) : Lexes d t.piecesBeside := by
  rcases t.piecesBeside_cases with h | h <;> rw [h]
  · exact t.isWhole.lexes
  · exact lexes_parenthesised t.isWhole.lexes

theorem Test.stands_beside (t : Test) : Stands (tokens d t.piecesBeside) (.atom (tokens d t.pieces)) := by
  rcases t.piecesBeside_cases with h | h <;> rw [h]
  · exact t.stands
  · rw [tokens_parenthesised, ← t.stands.read]
    exact .parenthesised t.isWhole.quiet.balanced

end RulePlan.Sql
