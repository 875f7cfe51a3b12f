/-
  RulePlan.Json.Field — reading records.

  A record is an object whose members are named. A named member that is repeated makes
  the object invalid; members that are not named are passed over. A record may also be
  written as an array, with the values of the fields in their order.
-/

import RulePlan.Json.Basic

namespace RulePlan.Json

/-- The members of a record. The items of an array belong to the fields in their order, the last of
    which may have none. -/
def record? (fields : List String) : Json → Option (List (String × Json))
  | .obj members => some members
  | .arr items => if items.length ≤ fields.length then some (fields.zip items) else none
  | _ => none

/-- The member of a name if there is one, and nothing at all when it is repeated. -/
def once? (key : String) (members : List (String × Json)) : Option (Option Json) :=
  match members.filter (·.1 = key) with
  | [] => some none
  | [(_, v)] => some (some v)
  | _ => none

def required {α : Type} (key : String) (read : Json → Option α) (members : List (String × Json)) : Option α :=
  (once? key members).bind fun found => found.bind read

def withDefault {α : Type} (key : String) (default : α) (read : Json → Option α)
    (members : List (String × Json)) : Option α :=
  (once? key members).bind fun found =>
    match found with
    | none => some default
    | some v => read v

/-- A member that may be missing or null. -/
def optional {α : Type} (key : String) (read : Json → Option α) (members : List (String × Json)) :
    Option (Option α) :=
  withDefault key none (fun v => match v with
    | .null => some none
    | v => (read v).map some) members

def bool? : Json → Option Bool
  | .bool b => some b
  | _ => none

/-- One of several names, as a text or as the one member of an object, with null. -/
def name? : Json → Option String
  | .str s => some s
  | .obj [(name, .null)] => some name
  | _ => none

def list? {α : Type} (read : Json → Option α) : Json → Option (List α)
  | .arr items => items.mapM read
  | _ => none

end RulePlan.Json
