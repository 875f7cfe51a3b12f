/-
  RulePlan.Json.Reader — documents from JSON text.

  The tokens drive a stack machine: a `Frame` for each array or object that is open,
  and a `Place` that says what may come next. It yields the document as it is written;
  `ofText?` reads all of it, its members in key order, and `read?` reads what a shape
  asks for, with the members as written.
-/

import RulePlan.Json.Token
import RulePlan.Json.Written

namespace RulePlan.Json

/-- An array or object that is open, with what it holds so far, the last first; an object waits
    for the value of `key`. -/
inductive Frame where
  | array (items : List Written)
  | object (members : List (Option String × Written)) (key : Option String)
  deriving Repr

inductive Place where
  /-- A value comes next; the array just opened may also close. -/
  | value (outer : List Frame) (mayClose : Bool)
  /-- A key comes next; the object just opened may also close. -/
  | key (outer : List Frame) (members : List (Option String × Written)) (mayClose : Bool)
  | colon (outer : List Frame) (members : List (Option String × Written)) (key : Option String)
  /-- A whole value has been read. -/
  | after (outer : List Frame) (w : Written)
  deriving Repr

def Place.step (place : Place) (token : Token) : Option Place :=
  match place, token with
  | .value outer _, .value v => some (.after outer (.leaf v))
  | .value outer _, .text s => some (.after outer (.leaf (s.map .str)))
  | .value outer _, .openArray => some (.value (.array [] :: outer) true)
  | .value outer _, .openObject => some (.key outer [] true)
  | .value (.array [] :: outer) true, .closeArray => some (.after outer (.arr []))
  | .key outer members _, .text name => some (.colon outer members name)
  | .key outer [] true, .closeObject => some (.after outer (.obj []))
  | .colon outer members name, .colon => some (.value (.object members name :: outer) false)
  | .after (.array items :: outer) w, .comma => some (.value (.array (w :: items) :: outer) false)
  | .after (.array items :: outer) w, .closeArray => some (.after outer (.arr (w :: items).reverse))
  | .after (.object members name :: outer) w, .comma => some (.key outer ((name, w) :: members) false)
  | .after (.object members name :: outer) w, .closeObject =>
    some (.after outer (.obj ((name, w) :: members).reverse))
  | _, _ => none

def ofTokens? (tokens : List Token) : Option Written :=
  match tokens.foldlM Place.step (.value [] false) with
  | some (.after [] w) => some w
  | _ => none

/-- The document as it is written. -/
def written? (text : String) : Option Written := (tokens? text.toList).bind ofTokens?

/-- What a shape asks for, with the members as written. -/
def read? (shape : Shape) (text : String) : Option Json :=
  (written? text).bind fun w => (shape.prune w).value? maxNesting

/-- The whole document with its members in key order. -/
def ofText? (text : String) : Option Json := (read? .whole text).map ordered

end RulePlan.Json
