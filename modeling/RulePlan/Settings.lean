/-
  RulePlan.Settings — the settings file.

  Settings name the table, the dialect, the depth limit, an attribute set for widgets
  that name none, and the catalog. Members that are missing have their default value;
  the default catalog is a sample. A file that is not there, one that cannot be read as
  text and one that does not hold settings are refused, each in its own words.
-/

import RulePlan.Compile
import RulePlan.Json.Reader
import RulePlan.Sql.Quoted

namespace RulePlan

def statusChoices : List Choice := [⟨.int 1, "Enabled"⟩, ⟨.int 2, "Disabled"⟩]

def featuredChoices : List Choice := [⟨.int 0, "No"⟩, ⟨.int 1, "Yes"⟩]

def colorChoices : List Choice := [⟨.int 12, "Red"⟩, ⟨.int 13, "Blue"⟩, ⟨.int 14, "Green"⟩]

def sampleCatalog : Catalog := .ofList
  [("name", { label := some "Name" }),
   ("sku", { label := some "SKU" }),
   ("price", { label := some "Price" }),
   ("created_at", { storage := .date, label := some "Created At" }),
   ("status", { storage := .coded, label := some "Status", choices := statusChoices }),
   ("is_featured", { storage := .flag, label := some "Featured", choices := featuredChoices }),
   ("color", { storage := .codeSet, label := some "Color", choices := colorChoices })]

def defaultTable : String := "smile_custom_entity"

structure Settings where
  table : String := defaultTable
  dialect : Dialect := .mysql
  maxDepth : UInt64 := UInt64.ofNat defaultMaxDepth
  defaultAttributeSet : Option Int64 := none
  catalog : Catalog := sampleCatalog

namespace Settings

/-! ## JSON -/

def count? : Json → Option UInt64
  | .int n => if 0 ≤ n ∧ n < UInt64.size then some (UInt64.ofNat n.toNat) else none
  | _ => none

def identifier? : Json → Option Int64
  | .int n => if Binary64.minInt64 ≤ n ∧ n ≤ Binary64.maxInt64 then some (Int64.ofInt n) else none
  | _ => none

/-- Members of other names are passed over, whatever they hold. -/
def fields : List (String × Json.Shape) :=
  [("entityTable", .whole), ("dialect", .whole), ("maxDepth", .whole), ("defaultAttributeSetId", .whole),
    ("attributes", Catalog.shape)]

def ofJson? (v : Json) : Option Settings := do
  let members ← Json.record? (fields.map (·.1)) v
  let table ← Json.withDefault "entityTable" defaultTable Json.str? members
  let dialect ← Json.withDefault "dialect" .mysql Dialect.ofJson? members
  let maxDepth ← Json.withDefault "maxDepth" (UInt64.ofNat defaultMaxDepth) count? members
  let defaultAttributeSet ← Json.optional "defaultAttributeSetId" identifier? members
  let catalog ← Json.withDefault "attributes" sampleCatalog Catalog.ofJson? members
  some { table, dialect, maxDepth, defaultAttributeSet, catalog }

def toJson (s : Settings) : Json :=
  .obj [("attributes", s.catalog.toJson),
    ("defaultAttributeSetId", match s.defaultAttributeSet with
      | some n => .int n.toInt
      | none => .null),
    ("dialect", .str s.dialect.name), ("entityTable", .str s.table), ("maxDepth", .int s.maxDepth.toNat)]

/-! ## Files -/

/-- What is found where the settings file should be. -/
inductive Source where
  | missing
  | unreadable
  | bytes (content : ByteArray)

inductive LoadError where
  | notFound
  | unreadable
  | malformed
  deriving DecidableEq, Repr

def LoadError.message (path : String) : LoadError → String
  | .notFound => "配置文件不存在: " ++ path
  | .unreadable => "无法读取配置文件 " ++ path
  | .malformed => "无法解析JSON配置文件 " ++ path

def ofText? (text : String) : Except LoadError Settings :=
  match (Json.read? (.record fields) text).bind ofJson? with
  | some s => .ok s
  | none => .error .malformed

/-- A file is text if its bytes are valid UTF-8. -/
def load : Source → Except LoadError Settings
  | .missing => .error .notFound
  | .unreadable => .error .unreadable
  | .bytes content => match String.fromUTF8? content with
    | some text => ofText? text
    | none => .error .unreadable

end Settings

end RulePlan
