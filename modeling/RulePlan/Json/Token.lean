/-
  RulePlan.Json.Token — the tokens of JSON text.

  `tokens?` reads a text one character at a time; what has been read of an unfinished
  token is a `Pending`. Blanks are space, tab, line feed and carriage return. Strings
  hold no raw character below U+0020. Numbers and words run as far as their characters
  go and are checked as a whole. A number is an integer if 64 bits hold it and otherwise
  a double, which is computed from the digits that 64 bits hold (`leading`) and may be a
  neighbour of the nearest one. A token may be well written and still denote nothing: a
  number beyond the doubles, or a string with an escaped surrogate outside a pair.
-/

import RulePlan.Json.Basic
import RulePlan.Number.Numeral

namespace RulePlan.Json

inductive Token where
  | openArray
  | closeArray
  | openObject
  | closeObject
  | comma
  | colon
  /-- A word or a number, with the value it denotes. -/
  | value (v : Option Json)
  | text (s : Option String)
  deriving Repr, Inhabited

/-! ## Numbers and words -/

/-- The point and the digits that must follow it; none at all is no fraction. -/
def fraction? : List Char → Option (List Char × List Char)
  | '.' :: r => if (r.takeWhile Numeral.isDigit).isEmpty then none else some (Numeral.splitFraction ('.' :: r))
  | s => some ([], s)

/-- The number that `n` becomes with further digits, as many as 64 bits hold, and the digits left over. -/
def leading (n : Nat) : List Char → Nat × List Char
  | [] => (n, [])
  | c :: r =>
    let longer := 10 * n + Numeral.digitValue c
    if longer < UInt64.size then leading longer r else (n, c :: r)

/-- A number without point and exponent, of which 64 bits hold all digits: an integer, unless it is
    minus zero or too small for 64 bits with a sign. -/
def wholeNumber (negative : Bool) (n : Nat) : Json :=
  if negative then
    if n ≠ 0 ∧ n ≤ Nat.pow 2 63 then .int (-(n : Int)) else .real (.ofRatio true n 1)
  else .int n

/-- Numbers have no plus sign and no leading zeros. The value is there if it is finite. -/
def number? (s : List Char) : Option (Option Json) := do
  let (negative, body) := match s with
    | '-' :: r => (true, r)
    | s => (false, s)
  let whole := body.takeWhile Numeral.isDigit
  if whole.isEmpty ∨ (whole.length ≠ 1 ∧ whole.head? = some '0') then none
  let (fraction, rest) ← fraction? (body.dropWhile Numeral.isDigit)
  let exponent ← Numeral.exponent? rest
  let (n, wholeLeft) := leading 0 whole
  if fraction.isEmpty && rest.isEmpty && wholeLeft.isEmpty then some (some (wholeNumber negative n))
  else
    -- digits left over before the point move it, those after it do not count
    let (n, fractionLeft) := leading n fraction
    let places : Int := (fraction.length : Int) - fractionLeft.length
    let x := (Binary64.ofRatio negative n 1).scale (exponent + wholeLeft.length - places)
    some (if x.isFinite then some (.real x) else none)

def word? (s : List Char) : Option Json :=
  match String.ofList s with
  | "null" => some .null
  | "true" => some (.bool true)
  | "false" => some (.bool false)
  | _ => none

/-! ## Strings -/

inductive TextPart where
  | char (c : Char)
  /-- An escaped half of a pair, from 0xD800 to 0xDFFF. -/
  | surrogate (n : Nat)
  deriving Repr

/-- The character of an escaped code unit, or half of one. -/
def TextPart.ofUnit (n : Nat) : TextPart :=
  if 0xD800 ≤ n ∧ n ≤ 0xDFFF then .surrogate n else .char (Char.ofNat n)

/-- The characters of parts whose last one comes first, before characters that follow them. A high
    surrogate and the low one after it are one character. -/
def textBefore? (after : List Char) : List TextPart → Option (List Char)
  | [] => some after
  | .char c :: rest => textBefore? (c :: after) rest
  | .surrogate low :: .surrogate high :: rest =>
    if high < 0xDC00 ∧ 0xDC00 ≤ low then
      textBefore? (Char.ofNat (0x10000 + (high - 0xD800) * 0x400 + (low - 0xDC00)) :: after) rest
    else none
  | .surrogate _ :: _ => none

/-! ## Characters -/

/-- A token of which some characters have been read; `read` holds them, the last first. -/
inductive Pending where
  | nothing
  | word (read : List Char)
  | number (read : List Char)
  | text (read : List TextPart)
  | escape (read : List TextPart)
  /-- Inside four hexadecimal digits. -/
  | unicode (read : List TextPart) (digitsLeft value : Nat)
  deriving Repr

structure Scan where
  /-- The last token first. -/
  done : List Token
  pending : Pending
  deriving Repr

def hexValue? (c : Char) : Option Nat :=
  if '0' ≤ c ∧ c ≤ '9' then some (c.toNat - '0'.toNat)
  else if 'a' ≤ c ∧ c ≤ 'f' then some (c.toNat - 'a'.toNat + 10)
  else if 'A' ≤ c ∧ c ≤ 'F' then some (c.toNat - 'A'.toNat + 10)
  else none

/-- The character that an escape letter stands for. -/
def escaped? : Char → Option Char
  | '"' => some '"'
  | '\\' => some '\\'
  | '/' => some '/'
  | 'b' => some '\x08'
  | 'f' => some '\x0C'
  | 'n' => some '\n'
  | 'r' => some '\r'
  | 't' => some '\t'
  | _ => none

/-- Ends a number or a word. -/
def Scan.close (s : Scan) : Option Scan :=
  match s.pending with
  | .nothing => some s
  | .word read => (word? read.reverse).map fun v => ⟨.value (some v) :: s.done, .nothing⟩
  | .number read => (number? read.reverse).map fun v => ⟨.value v :: s.done, .nothing⟩
  | _ => none

def isSpace (c : Char) : Bool := c = ' ' || c = '\t' || c = '\n' || c = '\r'

def isLetter (c : Char) : Bool := 'a' ≤ c && c ≤ 'z'

def continuesNumber (c : Char) : Bool :=
  Numeral.isDigit c || c = '-' || c = '+' || c = '.' || c = 'e' || c = 'E'

/-- A character that belongs to no token begun before it. -/
def start (done : List Token) (c : Char) : Option Scan :=
  match c with
  | '[' => some ⟨.openArray :: done, .nothing⟩
  | ']' => some ⟨.closeArray :: done, .nothing⟩
  | '\x7b' => some ⟨.openObject :: done, .nothing⟩
  | '\x7d' => some ⟨.closeObject :: done, .nothing⟩
  | ',' => some ⟨.comma :: done, .nothing⟩
  | ':' => some ⟨.colon :: done, .nothing⟩
  | '"' => some ⟨done, .text []⟩
  | _ =>
    if isSpace c then some ⟨done, .nothing⟩
    else if Numeral.isDigit c || c = '-' then some ⟨done, .number [c]⟩
    else if isLetter c then some ⟨done, .word [c]⟩
    else none

def Scan.step (s : Scan) (c : Char) : Option Scan :=
  match s.pending with
  | .nothing => start s.done c
  | .word read => if isLetter c then some ⟨s.done, .word (c :: read)⟩ else s.close.bind (start ·.done c)
  | .number read => if continuesNumber c then some ⟨s.done, .number (c :: read)⟩ else s.close.bind (start ·.done c)
  | .text read =>
    if c = '"' then some ⟨.text ((textBefore? [] read).map String.ofList) :: s.done, .nothing⟩
    else if c = '\\' then some ⟨s.done, .escape read⟩
    else if c.toNat < 0x20 then none
    else some ⟨s.done, .text (.char c :: read)⟩
  | .escape read =>
    if c = 'u' then some ⟨s.done, .unicode read 3 0⟩
    else (escaped? c).map fun e => ⟨s.done, .text (.char e :: read)⟩
  | .unicode read digitsLeft value =>
    (hexValue? c).map fun d =>
      match digitsLeft with
      | 0 => ⟨s.done, .text (.ofUnit (16 * value + d) :: read)⟩
      | left + 1 => ⟨s.done, .unicode read left (16 * value + d)⟩

def tokens? (text : List Char) : Option (List Token) :=
  ((text.foldlM Scan.step ⟨[], .nothing⟩).bind Scan.close).map (·.done.reverse)

end RulePlan.Json
