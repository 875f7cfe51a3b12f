/-
  RulePlan.Plan.LikePattern — patterns with wildcards.

  In a pattern `%` stands for any run of characters, `_` for one character, and a
  backslash makes the next character stand for itself, as it does itself at the end.
  Letter case does not count: the literal characters and the text are lower-cased,
  each character on its own. `isMatch` works through the pattern from its end and
  keeps, for each rest of the text, whether the pattern so far matches that rest.
-/

import RulePlan.Text.Case

namespace RulePlan.LikePattern

inductive Token where
  | run
  | one
  | literal (c : Char)
  deriving DecidableEq, Repr

def literals (c : Char) : List Token := (Text.lowerChar c).map .literal

def tokens : List Char → List Token
  | [] => []
  | '%' :: r => .run :: tokens r
  | '_' :: r => .one :: tokens r
  | '\\' :: c :: r => literals c ++ tokens r
  | c :: r => literals c ++ tokens r

/-- The row for a token in front of a pattern, from the row of that pattern. A row has an entry for
    each rest of the text, the whole text first and the empty rest last. -/
def prepend (token : Token) : List Char → List Bool → List Bool
  | _, [] => []
  | [], here :: _ => [match token with
    | .run => here
    | _ => false]
  | c :: text, here :: row =>
    let later := prepend token text row
    (match token with
      | .run => here || later.headD false
      | .one => row.headD false
      | .literal p => decide (p = c) && row.headD false) :: later

/-- The row of the empty pattern, which matches the empty rest only. -/
def emptyRow : List Char → List Bool
  | [] => [true]
  | _ :: text => false :: emptyRow text

def row (tokens : List Token) (text : List Char) : List Bool :=
  tokens.foldr (fun token row => prepend token text row) (emptyRow text)

def isMatch (text pattern : List Char) : Bool := (row (tokens pattern) (Text.lowerEach text)).headD false

end RulePlan.LikePattern
