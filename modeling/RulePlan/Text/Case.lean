/-
  RulePlan.Text.Case — lower-casing.

  `lowerChar` lower-cases a character on its own; the result is one character, save
  for U+0130, which becomes an i and a combining dot. `lower` lower-cases a text: the
  one difference is the capital sigma, which becomes a final ς at the end of a word,
  that is, where a cased letter stands before it and none after it, case-ignorable
  characters being passed over on both sides.
-/

import RulePlan.Text.CaseTable
import RulePlan.Text.Ranges

namespace RulePlan.Text

def capitalSigma : Char := '\u03A3'

def smallSigma : Char := '\u03C3'

def finalSigma : Char := '\u03C2'

def isCased (c : Char) : Bool := inRanges c.toNat casedRanges

def isCaseIgnorable (c : Char) : Bool := inRanges c.toNat caseIgnorableRanges

/-- The lower case of a code point by runs that are listed in ascending order. -/
def lowerPoint (n : Nat) : List LowerRun → Nat
  | [] => n
  | run :: rest =>
    if n < run.first then n
    else if n ≤ run.last then
      if (n - run.first) % run.step = 0 then ((n : Int) + run.offset).toNat else lowerPoint n rest
    else lowerPoint n rest

def lowerChar (c : Char) : List Char :=
  if c = '\u0130' then ['i', '\u0307'] else [Char.ofNat (lowerPoint c.toNat lowerRuns)]

/-- Lower-casing of every character on its own. -/
def lowerEach (s : List Char) : List Char := s.flatMap lowerChar

/-- The first character that is not case-ignorable is a cased one. -/
def meetsCased (s : List Char) : Bool :=
  match s.dropWhile isCaseIgnorable with
  | [] => false
  | c :: _ => isCased c

/-- Lower-casing of a text that follows the characters of `before`, the nearest first. -/
def lowerAfter (before : List Char) : List Char → List Char
  | [] => []
  | c :: r =>
    (if c = capitalSigma then [if meetsCased before && !meetsCased r then finalSigma else smallSigma]
      else lowerChar c) ++ lowerAfter (c :: before) r

def lower (s : String) : String := String.ofList (lowerAfter [] s.toList)

end RulePlan.Text
