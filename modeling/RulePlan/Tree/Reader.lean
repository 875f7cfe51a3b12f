/-
  RulePlan.Tree.Reader — condition trees from documents and texts.

  `ofJson` never fails: what is malformed is left out. A document may be nested, flat
  (`Tree.Path`), a list of children of an `all`, or a single condition. `ofText?` fails
  on texts that are no JSON and on nothing else. `ofEncoded?` first restores a text
  that was made fit for the parameters of a widget: markup entities, then the reserved
  characters, each in a fixed order.
-/

import RulePlan.Json.Reader
import RulePlan.Tree.Path

namespace RulePlan

/-- The one way in which a text is refused. -/
inductive TreeError where
  | invalidJson
  deriving DecidableEq, Repr

def TreeError.message : TreeError → String
  | .invalidJson => "条件不是合法的JSON"

namespace Tree

/-- The tree of a document that is not flat. -/
def ofNested : Json → Noted Tree
  | .arr items => do
    let children ← Node.readItems items 2
    pure ⟨.all, children⟩
  | .obj members => do
    match ← Node.read (.obj members) 1 with
    | some r => pure r.toTree
    | none => Noted.note .rootMalformed {}
  | v => Noted.note (.rootNotAnObject v.kindName) {}

def ofJson (v : Json) : Noted Tree := Path.nested v >>= ofNested

/-! ## Texts -/

def ofText? (text : String) : Except TreeError (Noted Tree) :=
  match Json.ofText? text with
  | some v => .ok (ofJson v)
  | none => .error .invalidJson

/-- Markup entities and what they stand for, in the order of their replacement. -/
def entities : List (String × String) :=
  [("&quot;", "\""), ("&#039;", "'"), ("&#39;", "'"), ("&lt;", "<"), ("&gt;", ">"), ("&amp;", "&")]

/-- The stand-ins of reserved characters, in the order of their replacement. -/
def reserved : List (String × String) :=
  [("^[", "\x7b"), ("^]", "\x7d"), ("\x60", "\""), ("|", "\\"), ("^(", "<"), ("^)", ">")]

def replaceEach (pairs : List (String × String)) (text : List Char) : List Char :=
  pairs.foldl (fun s p => Text.replaceAll p.1.toList p.2.toList s) text

def decode (encoded : String) : String :=
  String.ofList (replaceEach reserved (replaceEach entities encoded.toList))

def ofEncoded? (encoded : String) : Except TreeError (Noted Tree) := ofText? (decode encoded)

end Tree

end RulePlan
