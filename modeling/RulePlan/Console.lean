/-
  RulePlan.Console — the text of a console session.

  A session opens with the settings and a sample widget: its conditions, its plan, its
  page and its statement. Then each line of input is a command or a condition tree,
  which is described, compiled and written as a plan, as wire JSON and as a statement.
  `transcript` is the whole output as lines and the way the session ends, for given
  settings and input.
-/

import RulePlan.Console.Line
import RulePlan.Json.Printer
import RulePlan.Settings
import RulePlan.Widget.Search

namespace RulePlan.Console

/-! ## Trees in words -/

def indentation (level : Nat) : String := String.ofList (List.replicate (2 * level) ' ')

def heading (aggregator : Aggregator) : String :=
  "If " ++ aggregator.name.map Char.toUpper ++ " of these conditions are TRUE:"

mutual

def describe (catalog : Catalog) : Rule → Nat → List String
  | .condition c, level => [indentation level ++ "- " ++ c.describe (catalog.find? c.field)]
  | .combine aggregator children, level =>
    (indentation level ++ heading aggregator) :: describeAll catalog children (level + 1)

def describeAll (catalog : Catalog) : List Rule → Nat → List String
  | [], _ => []
  | r :: rest, level => describe catalog r level ++ describeAll catalog rest level

end

/-! ## The sample widget -/

def sampleConditions : String :=
  "^[\x601\x60:^[\x60type\x60:\x60Combine\x60,\x60aggregator\x60:\x60any\x60^]," ++
  "\x601--1\x60:^[\x60attribute\x60:\x60color\x60,\x60operator\x60:\x60()\x60,\x60value\x60:\x6012,13\x60^]," ++
  "\x601--2\x60:^[\x60attribute\x60:\x60color\x60,\x60operator\x60:\x60!()\x60,\x60value\x60:\x6014\x60^]," ++
  "\x601--3\x60:^[\x60attribute\x60:\x60has_image\x60,\x60operator\x60:\x60==\x60,\x60value\x60:\x601\x60^]^]"

def sampleWidget : Parameters where
  attributeSetId := .str "4"
  sortBy := .str "created_at"
  sortDirection := .str "asc"
  showPager := .str "1"
  itemsCount := .str "10"
  conditionsEncoded := .str sampleConditions

def widgetLines (settings : Settings) : List String :=
  let search := Search.ofParameters settings.catalog.lookup settings.maxDepth.toNat settings.defaultAttributeSet
    sampleWidget 2
  ["", "[组件条件]:"] ++ describe settings.catalog sampleWidget.tree.value.toRule 0
    ++ match search.value with
      | some s =>
        ["", "[过滤计划]:", s.plan.text, "",
          "[排序/分页]: " ++ s.sort.field.label ++ " " ++ s.sort.direction.name ++ ", 第 " ++
            toString s.page.number.toNat ++ " 页, 每页 " ++ toString s.page.size.toNat,
          "", "[生成的 SQL]:", s.sql settings.dialect settings.table]
      | none => ["组件没有可用的属性集"]

def opening (settings : Settings) : List String :=
  ["--- Condition Compiler: 条件树到过滤计划编译器 ---", "", "[配置信息]:",
    "实体表: " ++ settings.table ++ " (" ++ settings.dialect.title ++ ")",
    "属性: " ++ ", ".intercalate settings.catalog.codes]
  ++ widgetLines settings
  ++ ["", "输入条件树 JSON 或组件编码字符串；:attrs 列出属性，:ops <属性> 列出运算符，:quit 退出"]

/-! ## Commands -/

/-- A text with blanks after it, up to a width in characters. -/
def padded (width : Nat) (s : String) : String := s ++ String.ofList (List.replicate (width - s.length) ' ')

def attributeLines (catalog : Catalog) : List String :=
  catalog.entries.map fun e => "  " ++ padded 14 e.1 ++ " " ++ e.2.storage.title

def operatorLines (catalog : Catalog) (code : String) : List String :=
  match catalog.find? code with
  | some a => a.storage.inputKind.operators.map fun o => "  " ++ padded 4 o.symbol ++ " " ++ o.label
  | none => ["未知属性: " ++ code]

/-- A line that starts like a document is one; any other is in the encoding of widgets. -/
def tree? (input : String) : Except TreeError (Noted Tree) :=
  match input.toList with
  | '\x7b' :: _ => Tree.ofText? input
  | '[' :: _ => Tree.ofText? input
  | _ => Tree.ofEncoded? input

def treeLines (settings : Settings) (input : String) : List String :=
  match tree? input with
  | .error e => ["✗ " ++ e.message]
  | .ok read =>
    let tree := read.value
    let plan := (compile settings.catalog.lookup settings.maxDepth.toNat tree).plan
    describe settings.catalog tree.toRule 0 ++
      ["条件数: " ++ toString tree.conditionCount ++ ", 深度: " ++ toString tree.depth,
        "计划: " ++ plan.text, plan.toJson.pretty, plan.sql settings.dialect settings.table]

inductive Command where
  | quit
  | attributes
  | operators (code : String)
  | tree (input : String)
  deriving DecidableEq, Repr

/-- A trimmed line; its first word may be a command. -/
def Command.ofLine (input : String) : Command :=
  let (word, argument) := (Text.splitFirst ' ' input.toList).getD (input.toList, [])
  let name := String.ofList word
  if name = ":quit" ∨ name = ":q" then .quit
  else if name = ":attrs" then .attributes
  else if name = ":ops" then .operators (String.ofList (Text.strip argument))
  else .tree input

/-! ## Sessions -/

inductive Ending where
  /-- The input ended, or the command to quit was given. -/
  | finished
  /-- A line could not be edited. -/
  | broken
  deriving DecidableEq, Repr

def Ending.exitCode : Ending → UInt32
  | .finished => 0
  | .broken => 101

/-- What a line does: it is answered, or it ends the session. -/
inductive Reply where
  | answer (lines : List String)
  | stop (ending : Ending)
  deriving DecidableEq, Repr

def reply (settings : Settings) (line : List Char) : Reply :=
  match lineText? line with
  | none => .stop .broken
  | some text =>
    let input := Text.trim (String.ofList text)
    if input = "" then .answer []
    else match Command.ofLine input with
      | .quit => .stop .finished
      | .attributes => .answer (attributeLines settings.catalog)
      | .operators code => .answer (operatorLines settings.catalog code)
      | .tree text => .answer (treeLines settings text)

/-- The output of a session as lines, each of which may hold line breaks of its own. -/
structure Transcript where
  lines : List String := []
  ending : Ending := .finished
  deriving DecidableEq, Repr

def Transcript.after (lines : List String) (t : Transcript) : Transcript := { t with lines := lines ++ t.lines }

/-- The answers to the lines of input, up to the one that ends the session. -/
def answers (settings : Settings) : List (List Char) → Transcript
  | [] => {}
  | line :: rest =>
    match reply settings line with
    | .answer lines => (answers settings rest).after lines
    | .stop ending => { ending }

/-- Settings that cannot be loaded are replaced by the default ones. -/
def settingsOf (source : Settings.Source) : Settings :=
  match Settings.load source with
  | .ok s => s
  | .error _ => {}

def transcript (source : Settings.Source) (input : List (List Char)) : Transcript :=
  let settings := settingsOf source
  (answers settings input).after (opening settings)

end RulePlan.Console
