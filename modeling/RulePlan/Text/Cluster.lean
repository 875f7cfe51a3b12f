/-
  RulePlan.Text.Cluster — the characters of a text as a reader counts them.

  A cluster is what a reader takes for one character: a letter with its marks, a
  syllable of Hangul, two regional indicators that make a flag, pictographs tied by
  joiners, consonants tied by a linker. The rules are those of the extended grapheme
  clusters of Unicode. Whether a character joins the cluster before it depends on the
  class of the character just before it and, for flags, pictographs and conjuncts, on
  what came earlier; a `Context` holds as much of that as the rules ask for.

  `clusters` cuts a text into its clusters: together they are the text
  (`flatten_clusters`). A control character is a cluster of its own.
-/

import RulePlan.Text.ClusterTable
import RulePlan.Text.Ranges

namespace RulePlan.Text

/-! ## Classes of characters -/

/-- What a character does at the boundary of a cluster. -/
inductive ClusterClass where
  | carriageReturn
  | lineFeed
  | control
  /-- A mark that belongs to the character before it. -/
  | extend
  /-- The zero width joiner. -/
  | joiner
  | spacingMark
  /-- A sign that belongs to the character after it. -/
  | prepend
  /-- Half of a flag. -/
  | regional
  /-- A leading consonant of Hangul. -/
  | leading
  | vowel
  | trailing
  /-- A syllable of Hangul that ends with its vowel. -/
  | openSyllable
  | closedSyllable
  | pictograph
  /-- A consonant that a linker can tie to the one before it. -/
  | consonant
  | other
  deriving DecidableEq, Repr

def nonJoiner : Char := '\u200C'

/-- The class of a character of Hangul; the composed syllables are in rows of 28, the first of each
    row without a trailing consonant. -/
def hangulClass? (n : Nat) : Option ClusterClass :=
  if inRanges n [(0x1100, 0x115F), (0xA960, 0xA97C)] then some .leading
  else if inRanges n [(0x1160, 0x11A7), (0xD7B0, 0xD7C6), (0x16D63, 0x16D63), (0x16D67, 0x16D6A)] then
    some .vowel
  else if inRanges n [(0x11A8, 0x11FF), (0xD7CB, 0xD7FB)] then some .trailing
  else if inRanges n [(0xAC00, 0xD7A3)] then
    some (if (n - 0xAC00) % 28 = 0 then .openSyllable else .closedSyllable)
  else none

def clusterClass (c : Char) : ClusterClass :=
  let n := c.toNat
  if c = '\r' then .carriageReturn
  else if c = '\n' then .lineFeed
  else if c = '\u200D' then .joiner
  else if inRanges n controlRanges then .control
  else if inRanges n extendRanges then .extend
  else if inRanges n spacingMarkRanges then .spacingMark
  else if inRanges n prependRanges then .prepend
  else if inRanges n [(0x1F1E6, 0x1F1FF)] then .regional
  else if inRanges n pictographRanges then .pictograph
  else if inRanges n conjunctConsonantRanges then .consonant
  else (hangulClass? n).getD .other

/-- Ties the consonants on both sides of it. -/
def isLinker (c : Char) : Bool := inRanges c.toNat conjunctLinkerRanges

/-! ## What came before -/

/-- How far a sequence of several parts has come. -/
inductive Progress where
  | none
  /-- Its first part is there. -/
  | begun
  /-- What ties the next part to it is there too. -/
  | tied
  deriving DecidableEq, Repr

/-- What the rules ask about the characters before a place. -/
structure Context where
  /-- The class of the last character. -/
  last : ClusterClass
  /-- A pictograph and marks; then a joiner ties the next one. -/
  pictographs : Progress := .none
  /-- A consonant and marks; then a linker among the marks ties the next one. -/
  conjunct : Progress := .none
  /-- An odd number of regional indicators in a row. -/
  halfFlag : Bool := false
  deriving DecidableEq, Repr

def pictographsAfter (before : Progress) : ClusterClass → Progress
  | .pictograph => .begun
  | .extend => if before = .begun then .begun else .none
  | .joiner => if before = .begun then .tied else .none
  | _ => .none

def conjunctAfter (before : Progress) (c : Char) : Progress :=
  match clusterClass c with
  | .consonant => .begun
  | .joiner => before
  | .extend =>
    if c = nonJoiner then .none
    else if isLinker c then (if before = .none then .none else .tied)
    else before
  | _ => .none

/-- The context at the start of a text, as after a line break. -/
def Context.start : Context := { last := .control }

def Context.after (x : Context) (c : Char) : Context where
  last := clusterClass c
  pictographs := pictographsAfter x.pictographs (clusterClass c)
  conjunct := conjunctAfter x.conjunct c
  halfFlag := clusterClass c = .regional && !x.halfFlag

/-- Whether a character of a class belongs to the same cluster as the one before it. -/
def Context.joins (x : Context) (next : ClusterClass) : Bool :=
  match x.last, next with
  | .carriageReturn, .lineFeed => true
  | .carriageReturn, _ | .lineFeed, _ | .control, _ => false
  | _, .carriageReturn | _, .lineFeed | _, .control => false
  | .leading, .leading | .leading, .vowel | .leading, .openSyllable | .leading, .closedSyllable => true
  | .openSyllable, .vowel | .openSyllable, .trailing | .vowel, .vowel | .vowel, .trailing => true
  | .closedSyllable, .trailing | .trailing, .trailing => true
  | _, .extend | _, .joiner | _, .spacingMark => true
  | .prepend, _ => true
  | _, .consonant => x.conjunct = .tied
  | .joiner, .pictograph => x.pictographs = .tied
  | .regional, .regional => x.halfFlag
  | _, _ => false

/-! ## Clusters -/

/-- Puts a character before clusters, into the first of them or apart from it. -/
def attach (c : Char) (joins : Bool) : List (List Char) → List (List Char)
  | [] => [[c]]
  | cluster :: more => if joins then (c :: cluster) :: more else [c] :: cluster :: more

/-- The clusters of a text that follows other characters, the first of which begins anew. -/
def clustersAfter (x : Context) : List Char → List (List Char)
  | [] => []
  | [c] => [[c]]
  | c :: next :: rest =>
    let y := x.after c
    attach c (y.joins (clusterClass next)) (clustersAfter y (next :: rest))

def clusters (s : List Char) : List (List Char) := clustersAfter .start s

theorem flatten_attach (c : Char) (joins : Bool) (cs : List (List Char)) :
    (attach c joins cs).flatten = c :: cs.flatten := by
  cases cs with
  | nil => rfl
  | cons cluster more => cases joins <;> rfl

theorem flatten_clustersAfter (x : Context) (s : List Char) : (clustersAfter x s).flatten = s := by
  fun_induction clustersAfter x s with
  | case1 => rfl
  | case2 => rfl
  | case3 x c next rest y ih => rw [flatten_attach, ih]

/-- The clusters together are the text. -/
theorem flatten_clusters (s : List Char) : (clusters s).flatten = s := flatten_clustersAfter .start s

end RulePlan.Text
