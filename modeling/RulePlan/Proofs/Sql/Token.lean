/-
  RulePlan.Proofs.Sql.Token — the tokens of a statement.

  A statement is cut into tokens one character at a time by the quoting rules of its
  dialect. A quote inside a name is doubled, and so is one inside a text; MySQL also
  reads backslashes in its texts and has texts in double quotes, PostgreSQL reads
  backslashes in the texts with an E in front. There is no reading of an open quote
  and of a comment.

  Proved: a token that is complete ends at a separator, so pieces of a statement may be
  read one by one where they meet at one (`Lexes.opening`, `Lexes.closing`). A quoted
  name is the one token of that name and a quoted text one text, whatever is in them
  (`Lexes.name`, `Lexes.text`).
-/

import Mathlib.Data.Bool.AllAny
import RulePlan.Sql.Quoted

namespace RulePlan.Sql

inductive Token where
  | name (s : List Char)
  /-- A text as it stands between its quotes. -/
  | text (body : List Char)
  | word (s : List Char)
  | sign (s : List Char)
  | mark (c : Char)
  deriving DecidableEq, Repr

inductive Quote where
  | single
  | double
  deriving DecidableEq, Repr

def Quote.char : Quote → Char
  | .single => '\''
  | .double => '"'

/-- What a text is in the middle of, with the characters read so far, the latest first. -/
inductive Mode where
  | between
  | word (read : List Char)
  | sign (read : List Char)
  | name (read : List Char)
  /-- A quote in a name: its end, or the first of two. -/
  | nameQuote (read : List Char)
  | text (q : Quote) (escapes : Bool) (read : List Char)
  | escaped (q : Quote) (read : List Char)
  | textQuote (q : Quote) (escapes : Bool) (read : List Char)
  deriving DecidableEq, Repr

/-! ## Characters -/

def separators : List Char := [' ', '\t', '\n', '\r', '(', ')', ',', ';']

def isMark (c : Char) : Bool := ['(', ')', ',', ';'].contains c

/-- Letters, digits and the points of decimals. -/
def isWordChar (c : Char) : Bool := c.isAlphanum || ['_', '$', '.'].contains c || 0x80 ≤ c.toNat

def isSignChar (c : Char) : Bool := "+-*/<>=~!@%^&|?:".toList.contains c

/-- The quote that a text may begin with. -/
def quote? (d : Dialect) (c : Char) : Option Quote :=
  if c = '\'' then some .single else if d = .mysql && c = '"' then some .double else none

def opensComment (read : List Char) (c : Char) : Bool :=
  (read.head? = some '-' && c = '-') || (read.head? = some '/' && c = '*')

/-! ## Reading -/

/-- The tokens that are complete if the text ends here. -/
def Mode.tokens? : Mode → Option (List Token)
  | .between => some []
  | .word read => some [.word read.reverse]
  | .sign read => some [.sign read.reverse]
  | .nameQuote read => some [.name read.reverse]
  | .textQuote _ _ read => some [.text read.reverse]
  | .name _ | .text .. | .escaped .. => none

/-- A character that begins something new, after tokens that it completes. -/
def readNext (d : Dialect) (complete : List Token) (c : Char) : Option (List Token × Mode) :=
  if isMark c then some (complete ++ [.mark c], .between)
  else if separators.contains c then some (complete, .between)
  else if c = nameQuote d then some (complete, .name [])
  else match quote? d c with
    | some q => some (complete, .text q (d = .mysql) [])
    | none =>
      if isWordChar c then some (complete, .word [c])
      else if isSignChar c then some (complete, .sign [c])
      else none

def step (d : Dialect) : Mode → Char → Option (List Token × Mode)
  | .between, c => readNext d [] c
  | .word read, c =>
    if isWordChar c then some ([], .word (c :: read))
    else if d = .postgres && (read = ['E'] || read = ['e']) && c = '\'' then some ([], .text .single true [])
    else readNext d [.word read.reverse] c
  | .sign read, c =>
    if opensComment read c then none
    else if isSignChar c then some ([], .sign (c :: read))
    else readNext d [.sign read.reverse] c
  | .name read, c => if c = nameQuote d then some ([], .nameQuote read) else some ([], .name (c :: read))
  | .nameQuote read, c => if c = nameQuote d then some ([], .name (c :: read)) else readNext d [.name read.reverse] c
  | .text q escapes read, c =>
    if c = q.char then some ([], .textQuote q escapes read)
    else if escapes && c = '\\' then some ([], .escaped q (c :: read))
    else some ([], .text q escapes (c :: read))
  | .escaped q read, c => some ([], .text q true (c :: read))
  | .textQuote q escapes read, c =>
    if c = q.char then some ([], .text q escapes (c :: c :: read)) else readNext d [.text read.reverse] c

/-- The tokens that are completed on the way, and where the text ends. -/
def run (d : Dialect) (m : Mode) : List Char → Option (List Token × Mode)
  | [] => some ([], m)
  | c :: r => (step d m c).bind fun s => (run d s.2 r).map fun t => (s.1 ++ t.1, t.2)

def lex (d : Dialect) (s : List Char) : Option (List Token) :=
  (run d .between s).bind fun t => t.2.tokens?.map (t.1 ++ ·)

/-! ## Runs -/

variable {d : Dialect} {m m' : Mode} {a b : List Char} {ts us : List Token} {c : Char}

theorem run_cons (h : step d m c = some (ts, m')) :
    run d m (c :: b) = (run d m' b).map fun t => (ts ++ t.1, t.2) := by
  rw [run, h]
  rfl

theorem run_append (h : run d m a = some (ts, m')) :
    run d m (a ++ b) = (run d m' b).map fun t => (ts ++ t.1, t.2) := by
  induction a generalizing m ts with
  | nil =>
    cases h
    simp
  | cons c r ih =>
    obtain ⟨⟨first, m₁⟩, hstep, h⟩ := Option.bind_eq_some_iff.mp h
    obtain ⟨⟨rest, m₂⟩, hrun, h⟩ := Option.map_eq_some_iff.mp h
    cases h
    rw [List.cons_append, run_cons hstep, ih hrun, Option.map_map]
    simp [Function.comp_def]

/-- What is read from a place where nothing is open does not depend on what stands before it. -/
theorem lex_append_of_between (h : run d .between a = some (ts, .between)) :
    lex d (a ++ b) = (lex d b).map (ts ++ ·) := by
  rw [lex, lex, run_append h, Option.bind_map, Option.map_bind]
  simp [Function.comp_def]

/-- Separators belong to no word, sign and quote. -/
theorem of_mem_separators :
    ∀ c ∈ separators, isWordChar c = false ∧ isSignChar c = false ∧ c ≠ '\'' ∧ c ≠ '"' ∧ c ≠ '\x60' ∧ c ≠ '-' ∧
      c ≠ '*' :=
  List.all_iff_forall_prop.mp (by decide)

theorem nameQuote_ne (hc : c ∈ separators) : c ≠ nameQuote d := by
  obtain ⟨-, -, -, hdouble, hback, -⟩ := of_mem_separators c hc
  cases d
  · exact hback
  · exact hdouble

theorem Quote.char_ne (q : Quote) (hc : c ∈ separators) : c ≠ q.char := by
  obtain ⟨-, -, hsingle, hdouble, -⟩ := of_mem_separators c hc
  cases q
  · exact hsingle
  · exact hdouble

/-- A separator completes what is open. -/
theorem step_separator (hc : c ∈ separators) (hm : m.tokens? = some ts) : step d m c = readNext d ts c := by
  obtain ⟨hword, hsign, hsingle, -, -, hdash, hstar⟩ := of_mem_separators c hc
  cases m with
  | between =>
    cases hm
    rfl
  | word read =>
    cases hm
    simp [step, hword, hsingle]
  | sign read =>
    cases hm
    simp [step, hsign, opensComment, hdash, hstar]
  | nameQuote read =>
    cases hm
    simp [step, nameQuote_ne hc]
  | textQuote q escapes read =>
    cases hm
    simp [step, q.char_ne hc]
  | name read => cases hm
  | text q escapes read => cases hm
  | escaped q read => cases hm

theorem readNext_append (ts us : List Token) (c : Char) :
    readNext d (ts ++ us) c = (readNext d us c).map fun t => (ts ++ t.1, t.2) := by
  unfold readNext
  split
  · simp
  · split
    · rfl
    · split
      · rfl
      · split
        · rfl
        · split
          · rfl
          · split <;> rfl

theorem lex_append_of_separator (ha : lex d a = some ts) (hc : c ∈ separators) :
    lex d (a ++ c :: b) = (lex d (c :: b)).map (ts ++ ·) := by
  obtain ⟨⟨complete, m⟩, hrun, ha⟩ := Option.bind_eq_some_iff.mp ha
  obtain ⟨rest, hrest, rfl⟩ := Option.map_eq_some_iff.mp ha
  have hstep : step d m c = (step d .between c).map fun t => (rest ++ t.1, t.2) := by
    rw [step_separator hc hrest]
    exact (congrArg (readNext d · c) (List.append_nil rest)).symm.trans (readNext_append rest [] c)
  rw [lex, lex, run_append hrun]
  simp only [run, hstep]
  cases step d .between c with
  | none => rfl
  | some t =>
    cases hb : run d t.2 b with
    | none => simp [hb]
    | some u =>
      cases hu : u.2.tokens? <;> simp [hb, hu]

/-! ## Quoted names and texts -/

variable {s read : List Char}

theorem run_name (d : Dialect) (s read : List Char) :
    run d (.name read) (s.flatMap fun c => if c = nameQuote d then [nameQuote d, nameQuote d] else [c]) =
      some ([], .name (s.reverse ++ read)) := by
  induction s generalizing read with
  | nil => rfl
  | cons c r ih =>
    have hone : run d (.name read) (if c = nameQuote d then [nameQuote d, nameQuote d] else [c]) =
        some ([], .name (c :: read)) := by
      split
      · next hc => simp [run, step, hc]
      · next hc => simp [run, step, hc]
    rw [List.flatMap_cons, run_append hone, ih]
    simp

theorem nameQuote_not_separator (d : Dialect) : isMark (nameQuote d) = false ∧ nameQuote d ∉ separators := by
  cases d <;> decide

theorem lex_quoteName (d : Dialect) (s : String) : lex d (quoteName d s).toList = some [.name s.toList] := by
  obtain ⟨hmark, hseparator⟩ := nameQuote_not_separator d
  have hopen : step d .between (nameQuote d) = some ([], .name []) := by simp [step, readNext, hmark, hseparator]
  have hclose : run d (.name s.toList.reverse) [nameQuote d] = some ([], .nameQuote s.toList.reverse) := by
    simp [run, step]
  have hrun := run_name d s.toList []
  rw [List.append_nil] at hrun
  rw [quoteName, String.toList_ofList, lex, List.cons_append, run_cons hopen, run_append hrun, hclose]
  simp [Mode.tokens?]

theorem escapeChar_cases (c : Char) :
    (∃ e, escapeChar c = ['\\', e]) ∨ (escapeChar c = [c] ∧ c ≠ '\'' ∧ c ≠ '\\') := by
  unfold escapeChar
  split <;> first | exact .inl ⟨_, rfl⟩ | exact .inr ⟨rfl, by assumption, by assumption⟩

/-- Behind a backslash nothing ends a text, and a quote never stands without one. -/
theorem run_escaped (d : Dialect) (s read : List Char) :
    run d (.text .single true read) (s.flatMap escapeChar) =
      some ([], .text .single true ((s.flatMap escapeChar).reverse ++ read)) := by
  induction s generalizing read with
  | nil => rfl
  | cons c r ih =>
    have hone : run d (.text .single true read) (escapeChar c) =
        some ([], .text .single true ((escapeChar c).reverse ++ read)) := by
      rcases escapeChar_cases c with ⟨e, he⟩ | ⟨hc, hquote, hback⟩
      · simp [he, run, step, Quote.char]
      · simp [hc, run, step, Quote.char, hquote, hback]
    rw [List.flatMap_cons, run_append hone, ih]
    simp

/-- Without backslashes nothing was escaped, so there is no quote. -/
theorem run_plain (d : Dialect) {s : List Char} (h : '\\' ∉ s.flatMap escapeChar) (read : List Char) :
    run d (.text .single false read) (s.flatMap escapeChar) =
      some ([], .text .single false ((s.flatMap escapeChar).reverse ++ read)) := by
  induction s generalizing read with
  | nil => rfl
  | cons c r ih =>
    rw [List.flatMap_cons, List.mem_append, not_or] at h
    have hone : run d (.text .single false read) (escapeChar c) =
        some ([], .text .single false ((escapeChar c).reverse ++ read)) := by
      rcases escapeChar_cases c with ⟨e, he⟩ | ⟨hc, hquote, hback⟩
      · exact absurd (he ▸ List.mem_cons_self) h.1
      · simp [hc, run, step, Quote.char, hquote]
    rw [List.flatMap_cons, run_append hone, ih h.2]
    simp

theorem lex_text (start : List Char) {body : List Char} {escapes : Bool}
    (hstart : run d .between start = some ([], .text .single escapes []))
    (hbody : run d (.text .single escapes []) body = some ([], .text .single escapes body.reverse)) :
    lex d (start ++ (body ++ ['\''])) = some [.text body] := by
  have hend : run d (.text .single escapes body.reverse) ['\''] =
      some ([], .textQuote .single escapes body.reverse) := by
    simp [run, step, Quote.char]
  rw [lex, run_append hstart, run_append hbody, hend]
  simp [Mode.tokens?]

theorem lex_quoteText (d : Dialect) (s : String) :
    lex d (quoteText d s).toList = some [.text (s.toList.flatMap escapeChar)] := by
  have hescaped := run_escaped d s.toList []
  rw [List.append_nil] at hescaped
  rw [quoteText, String.toList_ofList, List.append_assoc]
  cases d with
  | mysql => exact lex_text ['\''] rfl hescaped
  | postgres =>
    by_cases hback : '\\' ∈ s.toList.flatMap escapeChar
    · have hcontains : (s.toList.flatMap escapeChar).contains '\\' = true := List.contains_iff_mem.mpr hback
      rw [hcontains]
      exact lex_text ['E', '\''] rfl hescaped
    · have hcontains : (s.toList.flatMap escapeChar).contains '\\' = false := by simpa using hback
      have hplain := run_plain .postgres hback []
      rw [List.append_nil] at hplain
      rw [hcontains]
      exact lex_text ['\''] rfl hplain

/-! ## Pieces -/

/-- The tokens of a piece by itself. -/
def Piece.tokens (d : Dialect) : Piece → List Token
  | .code s => (lex d s.toList).getD []
  | .name s => [.name s.toList]
  | .text s => [.text (s.toList.flatMap escapeChar)]

def tokens (d : Dialect) (pieces : List Piece) : List Token := pieces.flatMap (Piece.tokens d)

/-- The pieces are read one by one. -/
def Lexes (d : Dialect) (pieces : List Piece) : Prop := lex d (write d pieces).toList = some (tokens d pieces)

/-- Code after which nothing is open. -/
def endsBetween (d : Dialect) (s : String) : Bool := (run d .between s.toList).any (·.2 = .between)

/-- Code that completes what stands before it. -/
def beginsApart (s : String) : Bool := s.toList.head?.any separators.contains

namespace Lexes

variable {s : String} {x y : List Piece}

theorem toList_write (d : Dialect) (x : List Piece) :
    (write d x).toList = x.flatMap fun piece => (piece.write d).toList := by
  rw [write, String.toList_join, List.flatMap_map]

theorem of_piece {piece : Piece} (h : lex d (piece.write d).toList = some (piece.tokens d)) : Lexes d [piece] := by
  rw [Lexes, toList_write, List.flatMap_singleton, h]
  simp [tokens]

theorem code (h : (lex d s.toList).isSome) : Lexes d [.code s] := by
  obtain ⟨ts, hts⟩ := Option.isSome_iff_exists.mp h
  refine of_piece (hts.trans ?_)
  simp [Piece.tokens, hts]

theorem name (d : Dialect) (s : String) : Lexes d [.name s] := of_piece (lex_quoteName d s)

theorem text (d : Dialect) (s : String) : Lexes d [.text s] := of_piece (lex_quoteText d s)

theorem opening (hs : endsBetween d s) (hx : Lexes d x) : Lexes d (.code s :: x) := by
  obtain ⟨⟨ts, m⟩, hrun, hm⟩ := (Option.any_eq_true _ _).mp hs
  obtain rfl : m = .between := of_decide_eq_true hm
  have hts : lex d s.toList = some ts := by simp [lex, hrun, Mode.tokens?]
  rw [Lexes, toList_write] at hx ⊢
  rw [List.flatMap_cons]
  refine (lex_append_of_between hrun).trans ?_
  rw [hx]
  simp [tokens, Piece.tokens, hts]

theorem closing (hx : Lexes d x) (hs : beginsApart s) (hy : Lexes d (.code s :: y)) : Lexes d (x ++ .code s :: y) := by
  obtain ⟨c, hc, hseparator⟩ := (Option.any_eq_true _ _).mp hs
  obtain ⟨r, hr⟩ := List.head?_eq_some_iff.mp hc
  have hhead : (write d (.code s :: y)).toList = c :: (r ++ (write d y).toList) := by
    rw [toList_write, List.flatMap_cons, ← toList_write]
    show s.toList ++ _ = _
    rw [hr, List.cons_append]
  rw [Lexes, toList_write, List.flatMap_append, ← toList_write, ← toList_write, hhead,
    lex_append_of_separator hx (List.contains_iff_mem.mp hseparator), ← hhead, hy]
  simp [tokens]

end Lexes

/-- What holds of two parts with code between them holds of a junction. -/
theorem forall_joined {P : List Piece → Prop} {s : String} (hstep : ∀ {x y}, P x → P y → P (x ++ .code s :: y))
    {parts : List (List Piece)} (hne : parts ≠ []) (h : ∀ x ∈ parts, P x) : P (joined s parts) := by
  induction parts with
  | nil => exact absurd rfl hne
  | cons x rest ih =>
    have hx := h x List.mem_cons_self
    cases rest with
    | nil =>
      rw [joined, List.intercalate_singleton]
      exact hx
    | cons y rest =>
      rw [joined, List.intercalate_cons_cons, List.append_assoc]
      exact hstep hx (ih (List.cons_ne_nil _ _) fun z hz => h z (List.mem_cons_of_mem _ hz))

theorem lexes_joined {d : Dialect} {s : String} (hs : beginsApart s) (he : endsBetween d s)
    {parts : List (List Piece)} (hne : parts ≠ []) (h : ∀ x ∈ parts, Lexes d x) : Lexes d (joined s parts) :=
  forall_joined (fun hx hy => hx.closing hs (hy.opening he)) hne h

end RulePlan.Sql
