/-
  RulePlan.Json.Basic — JSON documents.

  An object is the list of its members as they were written. `ordered` puts the
  members of every object in key order, the last of each key kept: the form in which
  all documents but the settings file are read.
-/

import RulePlan.Keyed
import RulePlan.Number.Binary64

namespace RulePlan

inductive Json where
  | null
  | bool (b : Bool)
  | int (n : Int)
  | real (x : Binary64)
  | str (s : String)
  | arr (items : List Json)
  | obj (members : List (String × Json))
  deriving Repr, Inhabited

namespace Json

mutual

def ordered : Json → Json
  | .arr items => .arr (orderedItems items)
  | .obj members => .obj (orderedMembers members [])
  | v => v

def orderedItems : List Json → List Json
  | [] => []
  | v :: rest => ordered v :: orderedItems rest

def orderedMembers : List (String × Json) → List (String × Json) → List (String × Json)
  | [], done => done
  | (key, v) :: rest, done => orderedMembers rest (Keyed.insert key (ordered v) done)

end

/-- The member of an object. -/
def member? (key : String) : Json → Option Json
  | .obj members => Keyed.find? key members
  | _ => none

def str? : Json → Option String
  | .str s => some s
  | _ => none

/-- What kind of document it is, in the words of messages. -/
def kindName : Json → String
  | .null => "null"
  | .bool _ => "bool"
  | .int _ => "number"
  | .real _ => "number"
  | .str _ => "string"
  | .arr _ => "array"
  | .obj _ => "object"

end Json

end RulePlan
