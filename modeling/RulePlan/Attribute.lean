/-
  RulePlan.Attribute — attributes, catalogs and look-ups.

  An attribute says how its values are stored, which text separates the members of a
  stored set, and how it and its options are labelled. A catalog holds attributes by
  code in code order. A `Lookup` answers for every code; a code that it does not know
  is answered by an attribute that is not present.
-/

import RulePlan.Json.Field
import RulePlan.Json.Written
import RulePlan.Operator
import RulePlan.Scalar

namespace RulePlan

/-! ## Storage -/

/-- How the values of an attribute are stored. -/
inductive Storage where
  /-- Free text or numbers. -/
  | plain
  /-- One option, stored as its code. -/
  | coded
  /-- Several options, stored as codes with a delimiter between them. -/
  | codeSet
  | date
  /-- Yes or no, stored as a code. -/
  | flag
  deriving DecidableEq, Repr

namespace Storage

def all : List Storage := [.plain, .coded, .codeSet, .date, .flag]

def name : Storage → String
  | .plain => "scalar"
  | .coded => "coded"
  | .codeSet => "multiValueSet"
  | .date => "date"
  | .flag => "boolean"

/-- The name shown in listings. -/
def title : Storage → String
  | .plain => "Scalar"
  | .coded => "Coded"
  | .codeSet => "MultiValueSet"
  | .date => "Date"
  | .flag => "Boolean"

def ofName? (name : String) : Option Storage := all.find? (·.name = name)

theorem ofName?_name (s : Storage) : ofName? s.name = some s := by
  cases s <;> decide

/-- Values are option codes. -/
def isCoded : Storage → Bool
  | .coded | .codeSet | .flag => true
  | _ => false

def inputKind : Storage → InputKind
  | .plain => .text
  | .coded => .select
  | .codeSet => .multiselect
  | .date => .date
  | .flag => .boolean

end Storage

/-! ## Attributes -/

structure Choice where
  value : Scalar
  label : String
  deriving DecidableEq, Repr

/-- The delimiter of stored sets unless the attribute names another. -/
def defaultDelimiter : String := ","

structure Attribute where
  present : Bool := true
  storage : Storage := .plain
  delimiter : String := defaultDelimiter
  label : Option String := none
  choices : List Choice := []
  deriving DecidableEq, Repr

namespace Attribute

/-- The answer for a code that nobody knows. -/
def missing : Attribute := { present := false }

/-- The label of the option whose value has the same text. -/
def choiceLabel? (a : Attribute) (value : Scalar) : Option String :=
  (a.choices.find? fun c => c.value.asText = value.asText).map (·.label)

end Attribute

def Choice.fields : List (String × Json.Shape) := [("value", .whole), ("label", .whole)]

def Choice.ofJson? (v : Json) : Option Choice := do
  let members ← Json.record? (fields.map (·.1)) v
  let value ← Json.required "value" Scalar.ofJson? members
  let label ← Json.required "label" Json.str? members
  some ⟨value, label⟩

def Choice.toJson (c : Choice) : Json := .obj [("label", .str c.label), ("value", c.value.toJson)]

def Attribute.fields : List (String × Json.Shape) :=
  [("exists", .whole), ("valueType", .whole), ("storageDelimiter", .whole), ("label", .whole),
    ("options", .list (.record Choice.fields))]

def Attribute.ofJson? (v : Json) : Option Attribute := do
  let members ← Json.record? (fields.map (·.1)) v
  let present ← Json.withDefault "exists" true Json.bool? members
  let storage ← Json.withDefault "valueType" .plain (fun v => (Json.name? v).bind Storage.ofName?) members
  let delimiter ← Json.withDefault "storageDelimiter" defaultDelimiter Json.str? members
  let label ← Json.optional "label" Json.str? members
  let choices ← Json.withDefault "options" [] (Json.list? Choice.ofJson?) members
  some { present, storage, delimiter, label, choices }

/-- A missing label and an empty list of options are left out. -/
def Attribute.toJson (a : Attribute) : Json :=
  .obj ([("exists", .bool a.present)]
    ++ (match a.label with
      | some s => [("label", .str s)]
      | none => [])
    ++ (if a.choices.isEmpty then [] else [("options", .arr (a.choices.map Choice.toJson))])
    ++ [("storageDelimiter", .str a.delimiter), ("valueType", .str a.storage.name)])

/-! ## Catalogs -/

structure Catalog where
  entries : List (String × Attribute) := []
  ascending : Keyed.Ascending entries := by decide

namespace Catalog

def insert (c : Catalog) (code : String) (a : Attribute) : Catalog :=
  ⟨Keyed.insert code a c.entries, Keyed.ascending_insert code a c.ascending⟩

def find? (c : Catalog) (code : String) : Option Attribute := Keyed.find? code c.entries

/-- The codes in code order. -/
def codes (c : Catalog) : List String := c.entries.map (·.1)

def size (c : Catalog) : Nat := c.entries.length

def ofList (entries : List (String × Attribute)) : Catalog :=
  ⟨Keyed.ofList entries, Keyed.ascending_ofList entries⟩

def shape : Json.Shape := .table (.record Attribute.fields)

/-- Of a code that is repeated, the last attribute counts. -/
def ofJson? : Json → Option Catalog
  | .obj members => (members.mapM fun m => (Attribute.ofJson? m.2).map (m.1, ·)).map ofList
  | _ => none

def toJson (c : Catalog) : Json := .obj (c.entries.map fun e => (e.1, e.2.toJson))

end Catalog

/-! ## Look-ups -/

inductive LookupError where
  | unavailable (code reason : String)
  deriving DecidableEq, Repr

def LookupError.message : LookupError → String
  | .unavailable code reason => "attribute metadata for \x60" ++ code ++ "\x60 is unavailable: " ++ reason

/-- Whoever knows the attributes. -/
abbrev Lookup := String → Except LookupError Attribute

def Catalog.lookup (c : Catalog) : Lookup := fun code => .ok ((c.find? code).getD .missing)

/-- The attribute of an answer, if it can be used. -/
def usable? : Except LookupError Attribute → Option Attribute
  | .ok a => if a.present then some a else none
  | .error _ => none

end RulePlan
