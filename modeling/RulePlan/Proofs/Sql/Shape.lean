/-
  RulePlan.Proofs.Sql.Shape — what stands outside the quotes of a statement.

  Names and texts stand inside quotes, so the tokens outside quotes are known from the
  shape of a plan: what is left of it without names and texts. MySQL has an expression of
  its own for stored sets with the default delimiter, so there the shape says which of
  the delimiters are the default one, and nothing else about them.

  Proved: a statement says what its plan says, and plans of one shape have the same
  tokens outside quotes (`Plan.sql_says_the_plan`).
-/

import RulePlan.Proofs.Sql.Statement

namespace RulePlan.Sql

variable {d : Dialect}

/-! ## Without what stands inside quotes -/

/-- A token without what stands inside its quotes. -/
def Token.hidden : Token → Token
  | .name _ => .name []
  | .text _ => .text []
  | t => t

def Piece.hidden : Piece → Piece
  | .name _ => .name ""
  | .text _ => .text ""
  | piece => piece

def hide (pieces : List Piece) : List Piece := pieces.map Piece.hidden

theorem hide_append (x y : List Piece) : hide (x ++ y) = hide x ++ hide y := List.map_append

theorem hide_cons (piece : Piece) (x : List Piece) : hide (piece :: x) = piece.hidden :: hide x := rfl

theorem map_hidden_tokens (d : Dialect) (x : List Piece) :
    (tokens d x).map Token.hidden = (tokens d (hide x)).map Token.hidden := by
  rw [tokens, tokens, hide, List.flatMap_map, List.map_flatMap, List.map_flatMap]
  refine List.flatMap_congr fun piece _ => ?_
  cases piece <;> rfl

theorem hide_joined (s : String) (parts : List (List Piece)) : hide (joined s parts) = joined s (parts.map hide) :=
  apply_intercalate rfl hide_append _ _

theorem hide_parenthesised (x : List Piece) : hide (parenthesised x) = parenthesised (hide x) := by
  simp [hide, parenthesised, Piece.hidden]

/-- Two tests that differ inside quotes only. -/
structure Test.Alike (t u : Test) : Prop where
  pieces : hide t.pieces = hide u.pieces
  beside : hide t.piecesBeside = hide u.piecesBeside

variable {α : Type} {f g : α → Test}

theorem hide_alternatives (alone : Bool) {items : List α} (h : ∀ i ∈ items, (f i).Alike (g i)) :
    hide (alternativesPieces alone (items.map f)) = hide (alternativesPieces alone (items.map g)) := by
  match items with
  | [] => rfl
  | [i] =>
    have hi := h i (List.mem_singleton_self i)
    cases alone
    · exact hi.beside
    · exact hi.pieces
  | i :: j :: rest =>
    have hbeside : hide (joined " OR " ((f i :: f j :: rest.map f).map Test.piecesBeside)) =
        hide (joined " OR " ((g i :: g j :: rest.map g).map Test.piecesBeside)) := by
      have hmap : ((i :: j :: rest).map f).map (hide ∘ Test.piecesBeside) =
          ((i :: j :: rest).map g).map (hide ∘ Test.piecesBeside) := by
        rw [List.map_map, List.map_map]
        exact List.map_congr_left fun i hi => (h i hi).beside
      rw [hide_joined, hide_joined, List.map_map, List.map_map]
      exact congrArg _ hmap
    cases alone
    · show hide (parenthesised _) = hide (parenthesised _)
      rw [hide_parenthesised, hide_parenthesised]
      exact congrArg _ hbeside
    · exact hbeside

theorem hide_clause {groups : List (List α)} (h : ∀ group ∈ groups, ∀ i ∈ group, (f i).Alike (g i)) :
    hide (Clause.pieces (groups.map (·.map f))) = hide (Clause.pieces (groups.map (·.map g))) := by
  rw [Clause.pieces, Clause.pieces, hide_joined, hide_joined]
  simp only [List.length_map, List.map_map]
  refine congrArg _ (List.map_congr_left fun group hgroup => ?_)
  exact hide_alternatives _ (h group hgroup)

/-- A scalar without its text. -/
def withoutText : Scalar → Scalar
  | .text _ => .text ""
  | s => s

def isMembership (q : Predicate) : Bool := [Comparison.memberOf, .notMemberOf].contains q.comparison

/-- A predicate without its field and texts. MySQL keeps a mark for a delimiter that is not the default one. -/
def shapeOf (d : Dialect) (q : Predicate) : Predicate where
  field := ""
  comparison := q.comparison
  operand := q.operand.map withoutText
  delimiter? := if d = .mysql ∧ isMembership q ∧ q.delimiter ≠ defaultDelimiter then some "" else none

theorem hide_value (s : Scalar) : hide [valuePiece (withoutText s)] = hide [valuePiece s] := by
  cases s with
  | bool b => rfl
  | int n => rfl
  | float x => rfl
  | text s => rfl

theorem hide_first (o : Operand) : hide (Term.first (o.map withoutText)).pieces = hide (Term.first o).pieces := by
  cases o with
  | single s => exact hide_value s
  | list items =>
    cases items with
    | nil => rfl
    | cons s rest => exact hide_value s

namespace Test.Alike

variable {t u : Test}

theorem bare (h : hide t.pieces = hide u.pieces) (ht : t.piecesBeside = t.pieces) (hu : u.piecesBeside = u.pieces) :
    t.Alike u :=
  ⟨h, by rw [ht, hu, h]⟩

theorem enclosed (h : hide t.pieces = hide u.pieces) (ht : t.piecesBeside = parenthesised t.pieces)
    (hu : u.piecesBeside = parenthesised u.pieces) : t.Alike u :=
  ⟨h, by rw [ht, hu, hide_parenthesised, hide_parenthesised, h]⟩

end Test.Alike

theorem hide_compare (sign : Sign) (name : String) (o : Operand) :
    hide (Test.compare sign (.column "") (Term.first (o.map withoutText))).pieces =
      hide (Test.compare sign (.column name) (Term.first o)).pieces := by
  have h := hide_first o
  simp only [hide, Test.pieces, Term.pieces, List.map_append, List.map_cons, List.map_nil, Piece.hidden] at h ⊢
  rw [h]

theorem hide_items (negated : Bool) (name : String) {items items' : List Term}
    (h : items.map (fun t => hide t.pieces) = items'.map fun t => hide t.pieces) :
    hide (Test.oneOf negated (.column "") items).pieces = hide (Test.oneOf negated (.column name) items').pieces := by
  cases items with
  | nil =>
    cases items' with
    | nil => rfl
    | cons item rest => cases h
  | cons item rest =>
    cases items' with
    | nil => cases h
    | cons item' rest' =>
      have hjoined : hide (joined ", " ((item :: rest).map Term.pieces)) =
          hide (joined ", " ((item' :: rest').map Term.pieces)) := by
        rw [hide_joined, hide_joined, List.map_map, List.map_map]
        exact congrArg _ h
      simp only [Test.pieces, Term.pieces, hide_append]
      rw [show hide (Piece.code _ :: joined ", " ((item :: rest).map Term.pieces)) = _ :: _ from congrArg _ hjoined]
      rfl

theorem hide_oneOf (negated : Bool) (name : String) (o : Operand) :
    hide (Test.oneOf negated (.column "") ((o.map withoutText).toList.map .value)).pieces =
      hide (Test.oneOf negated (.column name) (o.toList.map .value)).pieces := by
  refine hide_items negated name ?_
  cases o with
  | single s => exact congrArg (fun x => [x]) (hide_value s)
  | list items =>
    show ((items.map withoutText).map _).map _ = (items.map _).map _
    rw [List.map_map, List.map_map, List.map_map]
    exact List.map_congr_left fun s _ => hide_value s

theorem delimiter_shapeOf {q : Predicate} (hq : isMembership q) :
    (shapeOf .mysql q).delimiter = defaultDelimiter ↔ q.delimiter = defaultDelimiter := by
  show (if Dialect.mysql = .mysql ∧ isMembership q ∧ q.delimiter ≠ defaultDelimiter then some "" else none).getD
    defaultDelimiter = _ ↔ _
  by_cases hd : q.delimiter = defaultDelimiter
  · rw [if_neg fun h => h.2.2 hd]
    exact ⟨fun _ => hd, fun _ => rfl⟩
  · rw [if_pos ⟨rfl, hq, hd⟩]
    exact ⟨fun h => absurd h (by decide), fun h => absurd h hd⟩

theorem hide_membership (d : Dialect) (negated : Bool) {q : Predicate} (hq : isMembership q) :
    hide (membership d negated (shapeOf d q)).pieces = hide (membership d negated q).pieces := by
  have hwanted : hide (Term.first (shapeOf d q).operand).pieces = hide (Term.first q.operand).pieces :=
    hide_first q.operand
  cases d with
  | postgres =>
    simp only [membership, Test.pieces, Term.pieces]
    cases negated <;> simp [hide_append, hide_cons, hwanted, Piece.hidden]
  | mysql =>
    -- The default delimiter is not replaced, and the shape keeps just that.
    by_cases hd : q.delimiter = defaultDelimiter
    · simp only [membership, if_pos hd, if_pos ((delimiter_shapeOf hq).mpr hd), Test.pieces, Term.pieces]
      simp [hide_append, hide_cons, hwanted, Piece.hidden]
    · simp only [membership, if_neg hd, if_neg (mt (delimiter_shapeOf hq).mp hd), Test.pieces, Term.pieces]
      simp [hide_append, hide_cons, hwanted, Piece.hidden]

theorem alike_membership (d : Dialect) (negated : Bool) {q : Predicate} (hq : isMembership q) :
    (membership d negated (shapeOf d q)).Alike (membership d negated q) := by
  have hbeside : ∀ q, (membership d negated q).piecesBeside = parenthesised (membership d negated q).pieces := by
    intro q
    cases d
    · simp only [membership]
      split <;> rfl
    · rfl
  exact .enclosed (hide_membership d negated hq) (hbeside _) (hbeside q)

theorem alike_shapeOf (d : Dialect) (q : Predicate) :
    (Test.ofPredicate d (shapeOf d q)).Alike (Test.ofPredicate d q) := by
  have hmember : ∀ negated, isMembership q → (membership d negated (shapeOf d q)).Alike (membership d negated q) :=
    fun negated hq => alike_membership d negated hq
  obtain ⟨field, comparison, operand, delimiter?⟩ := q
  cases comparison with
  | isNull => exact .bare rfl rfl rfl
  | notNull => exact .bare rfl rfl rfl
  | like => exact .bare rfl rfl rfl
  | nlike => exact .bare rfl rfl rfl
  | oneOf => exact .bare (hide_oneOf false field operand) rfl rfl
  | noneOf => exact .bare (hide_oneOf true field operand) rfl rfl
  | memberOf => exact hmember false rfl
  | notMemberOf => exact hmember true rfl
  | _ => exact .bare (hide_compare _ field operand) rfl rfl

end RulePlan.Sql

namespace RulePlan

open Sql

/-- What is left of a plan without names and texts. -/
def Plan.shape (p : Plan) (d : Dialect) : Plan := ⟨p.groups.map fun g => ⟨g.predicates.map (shapeOf d)⟩⟩

theorem hide_selection (d : Dialect) (table : String) (p : Plan) :
    hide (selection d "" (p.shape d)) = hide (selection d table p) := by
  have hclause : hide (Clause.ofPlan d (p.shape d)).pieces = hide (Clause.ofPlan d p).pieces := by
    have hshape : Clause.ofPlan d (p.shape d) =
        (p.groups.map (·.predicates)).map (·.map fun q => Test.ofPredicate d (shapeOf d q)) := by
      simp [Clause.ofPlan, Plan.shape, Function.comp_def]
    have hplan : Clause.ofPlan d p = (p.groups.map (·.predicates)).map (·.map (Test.ofPredicate d)) := by
      simp [Clause.ofPlan, Function.comp_def]
    rw [hshape, hplan]
    exact hide_clause fun group _ q _ => alike_shapeOf d q
  have hall : (p.shape d).matchesEverything = p.matchesEverything := by simp [Plan.shape, Plan.matchesEverything]
  rw [selection, selection, hall, hide_append, hide_append]
  split
  · rfl
  · show _ ++ _ :: hide (Clause.ofPlan d (p.shape d)).pieces = _
    rw [hclause]
    rfl

/-- The tokens of a statement, without what stands inside quotes. -/
def Plan.outsideQuotes (p : Plan) (d : Dialect) (table : String) : Option (List Token) :=
  (lex d (p.sql d table).toList).map (·.map Token.hidden)

theorem outsideQuotes_eq (p : Plan) (d : Dialect) (table : String) :
    p.outsideQuotes d table = some ((Sql.tokens d (hide (selection d "" (p.shape d)))).map Token.hidden) := by
  rw [Plan.outsideQuotes, Plan.sql, lexes_selection d table p, Option.map_some, map_hidden_tokens, hide_selection]

/-! ## What a statement says -/

/-- The statement is read as a selection from its table. There is a condition just when the plan has groups, and
    it says what these say. Plans of one shape have the same tokens outside quotes. -/
theorem Plan.sql_says_the_plan (p : Plan) (d : Dialect) (table : String) :
    (∃ selection, (lex d (p.sql d table).toList).bind readSelection = some selection ∧
      selection.table = table.toList ∧ (selection.condition = none ↔ p.groups = []) ∧
      ∀ condition ∈ selection.condition, Says d condition p) ∧
    ∀ (q : Plan) (other : String), p.shape d = q.shape d → p.outsideQuotes d table = q.outsideQuotes d other := by
  constructor
  · have hlex : lex d (p.sql d table).toList = some (Sql.tokens d (selection d table p)) := lexes_selection d table p
    refine ⟨_, by rw [hlex, Option.bind_some, readSelection_selection], rfl, ?_, fun condition h => ?_⟩
    · by_cases hgroups : p.groups = [] <;> simp [hgroups]
    · by_cases hgroups : p.groups = []
      · simp [hgroups] at h
      · obtain rfl : _ = condition := by simpa [hgroups] using h
        exact says_ofGroups d p
  · intro q other hshape
    rw [outsideQuotes_eq, outsideQuotes_eq, hshape]

/-- Quotes and comments in a name, a text and a delimiter open and close nothing; and where neither
    alternative is true, the condition is not. -/
theorem quotes_in_names_and_texts_stay_inside_quotes :
    let plan (name value delimiter : String) : Plan :=
      ⟨[⟨[.single name .eq (.text value), (Predicate.single "sizes" .memberOf (.int 12)).withDelimiter delimiter]⟩]⟩
    let hostile := plan "x\x60 = 1 OR \x60y" "' OR 1 = 1 -- " "') OR ('"
    hostile.outsideQuotes .mysql "t\x60 WHERE 1 = 1 -- " = (plan "name" "Ada" "|").outsideQuotes .mysql "t" ∧
      ∃ condition, Says .mysql condition hostile ∧ (condition.assign [.no, .yes]).truth = .yes ∧
        (condition.assign [.no, .unknown]).truth ≠ .yes := by
  intro plan hostile
  obtain ⟨⟨selection, -, -, hcondition, hmeaning⟩, htokens⟩ := hostile.sql_says_the_plan .mysql "t\x60 WHERE 1 = 1 -- "
  obtain ⟨condition, h⟩ := Option.ne_none_iff_exists'.mp (mt hcondition.mp (by decide))
  have htruth := (hmeaning condition h).truth_iff
  refine ⟨htokens _ _ (by decide), condition, hmeaning condition h, ?_, ?_⟩
  · exact (htruth [[.no, .yes]] (by decide)).mpr (by decide)
  · exact mt (htruth [[.no, .unknown]] (by decide)).mp (by decide)

/-- MySQL replaces a delimiter that is not the comma, and the function that does it stands outside quotes. -/
theorem a_delimiter_other_than_the_comma_is_seen_outside_quotes :
    let plan (delimiter : String) : Plan :=
      ⟨[⟨[(Predicate.single "sizes" .memberOf (.int 12)).withDelimiter delimiter]⟩]⟩
    (plan ",").shape .postgres = (plan "|").shape .postgres ∧
      (plan ",").outsideQuotes .mysql "t" ≠ (plan "|").outsideQuotes .mysql "t" := by
  intro plan
  refine ⟨by decide, ?_⟩
  rw [outsideQuotes_eq, outsideQuotes_eq]
  decide

end RulePlan
