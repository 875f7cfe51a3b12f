/-
  RulePlan.Tree.Node — rules from nested documents.

  A node is an object. It is a combination if its type says so, or, without a type, if
  it has an aggregator or children; otherwise it is a condition. Children are an array,
  or an object whose members are taken in their order. A node that is malformed is
  noted and left out, its siblings are not touched; so is a combination below
  `maxNesting`.
-/

import RulePlan.Event
import RulePlan.Operator
import RulePlan.Tree.Basic

namespace RulePlan

/-- How deep combinations may nest in a document. -/
def maxNesting : Nat := 128

namespace Node

/-- The trimmed type of a node, empty when it has none. -/
def typeOf (members : List (String × Json)) : String :=
  Text.trim (((Keyed.find? "type" members).bind Json.str?).getD "")

def isCombine (nodeType : String) (members : List (String × Json)) : Bool :=
  if nodeType = "" then
    Keyed.contains "aggregator" members || Keyed.contains "children" members || Keyed.contains "conditions" members
  else
    "Combine".toList.isSuffixOf nodeType.toList || nodeType.toList.map Char.toLower = "combine".toList

/-- The aggregator of a combination; `all` where none is given. -/
def aggregatorOf (members : List (String × Json)) : Except Event Aggregator :=
  match Keyed.find? "aggregator" members with
  | none => .ok .all
  | some .null => .ok .all
  | some (.str name) => match Aggregator.ofName? name with
    | some a => .ok a
    | none => .error (.unknownAggregator name)
  | some v => .error (.aggregatorNotAString v.kindName)

/-- The condition of a node, if it names a field. A blank operator counts as `is`. -/
def condition? (members : List (String × Json)) : Option Condition :=
  match (Keyed.find? "field" members).or (Keyed.find? "attribute" members) with
  | some (.str field) =>
    let written := ((Keyed.find? "operator" members).bind Json.str?).filter (!Text.allBlank ·)
    let value := match Keyed.find? "value" members with
      | some v => FormValue.ofJson v
      | none => .absent
    some ⟨field, written.getD Operator.is.symbol, value⟩
  | _ => none

mutual

/-- The rule of a node at a depth; the root has depth 1. -/
def read : Json → Nat → Noted (Option Rule)
  | .obj members, depth =>
    let nodeType := typeOf members
    if isCombine nodeType members then
      if maxNesting < depth then Noted.note (.combineTooDeep depth) none
      else match aggregatorOf members with
        | .error e => Noted.note e none
        | .ok aggregator => do
          let named := (readNamed "children" members (depth + 1)).or (readNamed "conditions" members (depth + 1))
          let children ← named.getD (pure [])
          pure (some (.combine aggregator children))
    else match condition? members with
      | some c => pure (some (.condition c))
      | none => Noted.note (.conditionWithoutField nodeType) none
  | v, _ => Noted.note (.nodeNotAnObject v.kindName) none

/-- The rules in the member of a name, if there is one. -/
def readNamed (name : String) : List (String × Json) → Nat → Option (Noted (List Rule))
  | [], _ => none
  | (key, v) :: rest, depth => if key = name then some (readChildren v depth) else readNamed name rest depth

def readChildren : Json → Nat → Noted (List Rule)
  | .arr items, depth => readItems items depth
  | .obj members, depth => readMembers members depth
  | _, _ => pure []

def readItems : List Json → Nat → Noted (List Rule)
  | [], _ => pure []
  | v :: rest, depth => do
    let first ← read v depth
    let others ← readItems rest depth
    pure (first.toList ++ others)

def readMembers : List (String × Json) → Nat → Noted (List Rule)
  | [], _ => pure []
  | (_, v) :: rest, depth => do
    let first ← read v depth
    let others ← readMembers rest depth
    pure (first.toList ++ others)

end

end Node

end RulePlan
