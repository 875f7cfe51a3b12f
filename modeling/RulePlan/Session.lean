/-
  RulePlan.Session — the state of one compilation.

  A session remembers the attributes it has asked for, so that the look-up is called
  once for each code; a code without a usable attribute is remembered too. It also
  keeps the calls it made, the conditions left out and the events, each in order.
-/

import RulePlan.Attribute
import RulePlan.Event

namespace RulePlan

/-- Why a condition adds nothing to a plan. -/
inductive DropReason where
  /-- The condition names no field. -/
  | missingField
  /-- No usable attribute has the code. -/
  | unknownAttribute
  /-- There is no value to compare with. -/
  | emptyValue
  /-- The combination lies below the depth limit. -/
  | depthLimit
  deriving DecidableEq, Repr

def DropReason.text : DropReason → String
  | .missingField => "missing field"
  | .unknownAttribute => "unknown attribute"
  | .emptyValue => "empty value"
  | .depthLimit => "nested too deep"

/-- A condition, or a whole combination with the field `*`, that was left out. -/
structure Dropped where
  field : String
  reason : DropReason
  deriving DecidableEq, Repr

/-- Answers by code, in the order in which the codes were first asked for. -/
abbrev Memo := List (String × Option Attribute)

structure Session where
  memo : Memo := []
  calls : List String := []
  dropped : List Dropped := []
  events : List Event := []

/-- What is noted about the answer for a code. -/
def answerEvents (code : String) : Except LookupError Attribute → List Event
  | .ok a => if a.present then [] else [.unknownAttribute code]
  | .error e => [.lookupFailed code e.message]

namespace Session

def note (s : Session) (e : Event) : Session := { s with events := s.events ++ [e] }

def drop (s : Session) (d : Dropped) : Session := { s with dropped := s.dropped ++ [d] }

/-- Calls the look-up. -/
def resolve (lookup : Lookup) (code : String) (s : Session) : Except LookupError Attribute × Session :=
  (lookup code, { s with calls := s.calls ++ [code] })

/-- The usable attribute of a code, from memory if the code was asked for before. -/
def ask (lookup : Lookup) (code : String) (s : Session) : Option Attribute × Session :=
  match Keyed.find? code s.memo with
  | some known => (known, s)
  | none =>
    let (answer, asked) := s.resolve lookup code
    let found := usable? answer
    (found, { asked with memo := asked.memo ++ [(code, found)], events := asked.events ++ answerEvents code answer })

end Session

end RulePlan
