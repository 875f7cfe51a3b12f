/-
  RulePlan.Tree.Path — documents that are given by paths.

  A form submits a tree as one flat object: each key is a path of numbers with `--`
  between them, and the node of the path `1--2` stands below that of `1`. `nested`
  builds the nested document: every node gets the nodes one step below it as its
  `conditions`, in the order of their numbers. Entries that cannot be reached from the
  path `1` are left out, as are those of paths that are too long, which is noted. If
  the root has no nodes below it, its entry may be such an object in turn.
-/

import RulePlan.Tree.Node

namespace RulePlan

abbrev Path := List Nat

namespace Path

def separator : List Char := ['-', '-']

def rootKey : String := "1"

def root : Path := [1]

def ofKey? (key : String) : Option Path := (Text.splitOn separator key.toList).mapM Numeral.uint32?

/-- The object has the root, and all of its keys are paths. -/
def isFlat (members : List (String × Json)) : Bool :=
  Keyed.contains rootKey members && members.all fun m => (ofKey? m.1).isSome

/-- The entries of a flat object by path. -/
def entries (members : List (String × Json)) : List (Path × Json) :=
  members.filterMap fun m => (ofKey? m.1).map (·, m.2)

/-- The entry of a path; of several spellings of one path the last counts. -/
def entryAt? (path : Path) (entries : List (Path × Json)) : Option Json :=
  (entries.reverse.find? fun e => e.1 = path).map (·.2)

/-- The last number of a path that is one step below another. -/
def stepBelow? (parent path : Path) : Option Nat :=
  match path.getLast? with
  | some n => if path = parent ++ [n] then some n else none
  | none => none

/-- A number at its place in an ascending list without repetitions. -/
def insertNumber (n : Nat) : List Nat → List Nat
  | [] => [n]
  | m :: rest => if n < m then n :: m :: rest else if n = m then m :: rest else m :: insertNumber n rest

/-- The numbers of the entries one step below a path, in ascending order. -/
def stepsBelow (parent : Path) (entries : List (Path × Json)) : List Nat :=
  (entries.filterMap fun e => stepBelow? parent e.1).foldr insertNumber []

/-- The members of an entry; one that is not an object has none. -/
def membersOf : Option Json → List (String × Json)
  | some (.obj members) => members
  | _ => []

/-- The nested document below a path, with as many levels as are left. -/
def build (entries : List (Path × Json)) : Nat → Path → Noted Json
  | levels, path =>
    let members := membersOf (entryAt? path entries)
    match stepsBelow path entries with
    | [] => pure (.obj members)
    | steps => match levels with
      | 0 => Noted.note (.pathsTooDeep path.length steps.length) (.obj members)
      | left + 1 => do
        let children ← steps.mapM fun n => build entries left (path ++ [n])
        pure (.obj (Keyed.insert "conditions" (.arr children) members))

mutual

/-- The nested document that a document stands for; itself, when it is not flat. -/
def nested : Json → Noted Json
  | .obj members =>
    if isFlat members then
      if (stepsBelow root (entries members)).isEmpty then nestedRoot members (pure (.obj []))
      else build (entries members) (maxNesting - 1) root
    else pure (.obj members)
  | v => pure v

/-- The nested document of the last entry of the root path. -/
def nestedRoot : List (String × Json) → Noted Json → Noted Json
  | [], found => found
  | (key, v) :: rest, found =>
    nestedRoot rest
      (if ofKey? key = some root then
        match v with
        | .obj members => nested (.obj members)
        | _ => pure (.obj [])
      else found)

end

end Path

end RulePlan
