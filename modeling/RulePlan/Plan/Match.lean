/-
  RulePlan.Plan.Match — which records a plan lets through.

  A record gives a scalar for some fields. A field that is missing satisfies only
  `isNull`. Two values are compared as numbers if both have a reading as number and
  else as lower-cased texts, in the order of code points. A stored set is a text whose
  members stand between delimiters; blanks around a member do not count. Patterns are
  those of `LikePattern`.
-/

import RulePlan.Plan.Basic
import RulePlan.Plan.LikePattern

namespace RulePlan

abbrev Record := String → Option Scalar

namespace Scalar

def looselyEqual (a b : Scalar) : Bool :=
  match a.asNumber?, b.asNumber? with
  | some x, some y => x.compare? y = some .eq
  | _, _ => Text.lower a.asText = Text.lower b.asText

/-- There is no order when both are read as numbers and one is not a number. -/
def looselyCompare (a b : Scalar) : Option Ordering :=
  match a.asNumber?, b.asNumber? with
  | some x, some y => x.compare? y
  | _, _ =>
    let s := Text.lower a.asText
    let t := Text.lower b.asText
    some (if s < t then .lt else if s = t then .eq else .gt)

/-- A member of the set that is stored in a text. -/
def setHas (stored wanted : Scalar) (delimiter : String) : Bool :=
  (Text.splitOn delimiter.toList stored.asText.toList).any fun piece =>
    looselyEqual (.text (String.ofList (Text.strip piece))) wanted

def isLike (value pattern : Scalar) : Bool := LikePattern.isMatch value.asText.toList pattern.asText.toList

end Scalar

/-- The comparison of a value that is there. Without a first scalar, a comparison that needs one
    fails, its negation too. -/
def Predicate.holdsOf (p : Predicate) (actual : Scalar) : Bool :=
  let holds (test : Scalar → Bool) : Bool := match p.operand.first? with
    | some v => test v
    | none => false
  let ordered (accepted : List Ordering) : Bool := holds fun v =>
    match actual.looselyCompare v with
    | some o => accepted.contains o
    | none => false
  match p.comparison with
  | .isNull => false
  | .notNull => true
  | .eq => holds actual.looselyEqual
  | .neq => holds fun v => !actual.looselyEqual v
  | .gt => ordered [.gt]
  | .gte => ordered [.gt, .eq]
  | .lt => ordered [.lt]
  | .lte => ordered [.lt, .eq]
  | .like => holds actual.isLike
  | .nlike => holds fun v => !actual.isLike v
  | .oneOf => p.operand.toList.any actual.looselyEqual
  | .noneOf => !p.operand.toList.any actual.looselyEqual
  | .memberOf => holds fun v => actual.setHas v p.delimiter
  | .notMemberOf => holds fun v => !actual.setHas v p.delimiter

def Predicate.matches (p : Predicate) (r : Record) : Bool :=
  match r p.field with
  | none => p.comparison = .isNull
  | some actual => p.holdsOf actual

def Group.matches (g : Group) (r : Record) : Bool := g.predicates.any (·.matches r)

def Plan.matches (p : Plan) (r : Record) : Bool := p.groups.all (·.matches r)

end RulePlan
