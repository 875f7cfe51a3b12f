/-
  RulePlan.Json.Written — documents as they are written, and what is read of them.

  A document can be well written although some part of it denotes nothing: a number
  beyond the doubles, a string with half of a surrogate pair. Such a part matters only
  where it is read. A `Shape` says what is read of a document: of a record only the
  members that it names, or the items of an array that stand for them. `prune` leaves
  out the others, whatever they hold, and `value?` is the document that is left, if all
  its parts denote something and it nests no deeper than it may.
-/

import RulePlan.Json.Basic

namespace RulePlan.Json

/-- A document with all members as written. A leaf or a key that denotes nothing has no value. -/
inductive Written where
  | leaf (v : Option Json)
  | arr (items : List Written)
  | obj (members : List (Option String × Written))
  deriving Repr, Inhabited

/-- How deep arrays and objects nest in what is read. -/
def maxNesting : Nat := 127

mutual

/-- The document, if its parts have values and its arrays and objects nest at most `room` deep. -/
def Written.value? : Written → Nat → Option Json
  | .leaf v, _ => v
  | .arr items, room => if room = 0 then none else (valuesOf? items (room - 1)).map .arr
  | .obj members, room => if room = 0 then none else (membersOf? members (room - 1)).map .obj

def valuesOf? : List Written → Nat → Option (List Json)
  | [], _ => some []
  | w :: rest, room => do some ((← w.value? room) :: (← valuesOf? rest room))

def membersOf? : List (Option String × Written) → Nat → Option (List (String × Json))
  | [], _ => some []
  | (key, w) :: rest, room => do some ((← key, ← w.value? room) :: (← membersOf? rest room))

end

/-- What is read of a document. -/
inductive Shape where
  | whole
  /-- An array of documents of one shape. -/
  | list (items : Shape)
  /-- An object with any keys, whose members have one shape. -/
  | table (values : Shape)
  /-- An object of which some members are read, or an array of their values. -/
  | record (fields : List (String × Shape))
  deriving Repr, Inhabited

mutual

/-- The document without the members that are not read. The key of a member is read either way. -/
def Shape.prune : Shape → Written → Written
  | .list items, .arr ws => .arr (ws.map items.prune)
  | .table values, .obj members => .obj (members.map fun m => (m.1, values.prune m.2))
  | .record fields, .obj members => .obj (members.filterMap fun m =>
      match m.1 with
      | some key => (pruneField fields key m.2).map (some key, ·)
      | none => some m)
  | .record fields, .arr ws => .arr (pruneItems fields ws)
  | _, w => w

def pruneField : List (String × Shape) → String → Written → Option Written
  | [], _, _ => none
  | (name, shape) :: rest, key, w => if name = key then some (shape.prune w) else pruneField rest key w

def pruneItems : List (String × Shape) → List Written → List Written
  | (_, shape) :: rest, w :: ws => shape.prune w :: pruneItems rest ws
  | _, ws => ws

end

end RulePlan.Json
