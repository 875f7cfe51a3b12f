/-
  RulePlan.Text.Split — cutting texts at separators and putting pieces in their place.

  Separators are found from the left and do not overlap. A text with n separators
  has n + 1 pieces, the empty ones included. `replaceAll` joins the pieces between
  the occurrences of one text by another.
-/

namespace RulePlan.Text

/-- Puts a character in front of the first piece. -/
def extendFirst (c : Char) : List (List Char) → List (List Char)
  | [] => [[c]]
  | piece :: pieces => (c :: piece) :: pieces

/-- The pieces between the characters that are separators. -/
def splitWhere (isSeparator : Char → Bool) : List Char → List (List Char)
  | [] => [[]]
  | c :: r => if isSeparator c then [] :: splitWhere isSeparator r else extendFirst c (splitWhere isSeparator r)

/-- The pieces of a text whose first `skip` characters belong to a separator already found. -/
def splitAfter (separator : List Char) : Nat → List Char → List (List Char)
  | _, [] => [[]]
  | skip + 1, _ :: r => splitAfter separator skip r
  | 0, c :: r =>
    if separator.isPrefixOf (c :: r) then [] :: splitAfter separator (separator.length - 1) r
    else extendFirst c (splitAfter separator 0 r)

/-- The pieces between the occurrences of a separator. The empty separator stands before
    every character and at both ends. -/
def splitOn (separator text : List Char) : List (List Char) :=
  match separator with
  | [] => [] :: text.map ([·]) ++ [[]]
  | _ => splitAfter separator 0 text

def replaceAll (target replacement text : List Char) : List Char :=
  replacement.intercalate (splitOn target text)

/-- The text before and after the first occurrence of a character. -/
def splitFirst (separator : Char) : List Char → Option (List Char × List Char)
  | [] => none
  | c :: r => if c = separator then some ([], r) else (splitFirst separator r).map fun p => (c :: p.1, p.2)

theorem splitWhere_ne_nil (p : Char → Bool) (s : List Char) : splitWhere p s ≠ [] := by
  cases s with
  | nil => simp [splitWhere]
  | cons c r =>
    by_cases h : p c
    · simp [splitWhere, h]
    · cases hr : splitWhere p r <;> simp [splitWhere, h, hr, extendFirst]

end RulePlan.Text
