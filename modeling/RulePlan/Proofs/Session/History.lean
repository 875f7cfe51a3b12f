/-
  RulePlan.Proofs.Session.History — a memo over a catalog that changes.

  A desk is a catalog that others write to, a look-up that reads it and a session that
  remembers the answers. Entries are inserted or replaced, the whole catalog is
  exchanged, the look-up begins or ceases to fail, it is called directly, and the memo
  is asked, in any order (`Desk.Step`, `Desk.run`). The memo knows nothing of the
  writers: what it holds for a code is what the look-up answered when the code was
  first asked for.

  `Desk.Remembers` says so of a desk and its history; it holds at the start and is kept
  by every step (`Remembers.after`), so it holds after every run (`run_remembers`). It
  gives the answer to every later question and the calls that questions make: proved
  for every catalog, failures and history (`memo_keeps_first_answers`).
-/

import Mathlib.Data.List.TakeWhile
import RulePlan.Proofs.Compile.Memo

namespace RulePlan

/-- A catalog, the codes for which the look-up fails, and the session that asks it. -/
structure Desk where
  catalog : Catalog
  outage : String → Option LookupError
  session : Session := {}

namespace Desk

/-- The look-up as it answers now. -/
def lookup (d : Desk) : Lookup := fun code =>
  match d.outage code with
  | some e => .error e
  | none => d.catalog.lookup code

inductive Step where
  /-- A new entry of the catalog, or another one in the place of an old. -/
  | insert (code : String) (a : Attribute)
  | replace (c : Catalog)
  /-- From now on the look-up fails for other codes. -/
  | fail (outage : String → Option LookupError)
  /-- The look-up is called past the memo. -/
  | resolve (code : String)
  | get (code : String)

/-- The code that a step asks the memo for. -/
def Step.code? : Step → Option String
  | .get code => some code
  | _ => none

def after (d : Desk) : Step → Desk
  | .insert code a => { d with catalog := d.catalog.insert code a }
  | .replace c => { d with catalog := c }
  | .fail outage => { d with outage }
  | .resolve code => { d with session := (d.session.resolve d.lookup code).2 }
  | .get code => { d with session := (d.session.ask d.lookup code).2 }

def run (d : Desk) (steps : List Step) : Desk := steps.foldl after d

/-- What the memo answers when it is asked now. -/
def answer (d : Desk) (code : String) : Option Attribute := (d.session.ask d.lookup code).1

/-- The calls of the look-up that a step makes. -/
def callsOf (d : Desk) (step : Step) : List String :=
  (d.after step).session.calls.drop d.session.calls.length

/-- The calls that the memo makes in the course of a history. -/
def memoCalls : Desk → List Step → List String
  | _, [] => []
  | d, step :: rest => (if step.code?.isSome then d.callsOf step else []) ++ memoCalls (d.after step) rest

/-- The codes that the memo was asked for, each as often as it was asked for. -/
def asked (steps : List Step) : List String := steps.filterMap Step.code?

/-- The history up to the first question for a code. -/
def beforeFirst (code : String) (steps : List Step) : List Step := steps.takeWhile (·.code? ≠ some code)

/-! ## Histories -/

variable {code : String} {steps : List Step} {step : Step}

theorem run_concat (d : Desk) (steps : List Step) (step : Step) : d.run (steps ++ [step]) = (d.run steps).after step := by
  simp [run]

theorem asked_concat (steps : List Step) (step : Step) : asked (steps ++ [step]) = asked steps ++ step.code?.toList := by
  cases h : step.code? <;> simp [asked, h]

theorem memoCalls_concat (d : Desk) (steps : List Step) (step : Step) :
    d.memoCalls (steps ++ [step]) =
      d.memoCalls steps ++ (if step.code?.isSome then (d.run steps).callsOf step else []) := by
  induction steps generalizing d with
  | nil => simp [memoCalls, run]
  | cons first rest ih => simp [memoCalls, run, ih]

theorem beforeFirst_of_not_mem (h : code ∉ asked steps) : beforeFirst code steps = steps := by
  apply List.takeWhile_eq_self_iff.mpr
  intro step hs
  have hne : step.code? ≠ some code := fun hc => h (List.mem_filterMap.mpr ⟨step, hs, hc⟩)
  simpa using hne

theorem beforeFirst_append (h : code ∈ asked steps) (more : List Step) :
    beforeFirst code (steps ++ more) = beforeFirst code steps := by
  induction steps with
  | nil => cases h
  | cons first rest ih =>
    simp only [beforeFirst, List.cons_append, List.takeWhile_cons]
    split
    · next hne =>
      have hrest : code ∈ asked rest := by
        obtain ⟨step, hs, hc⟩ := List.mem_filterMap.mp h
        rcases List.mem_cons.mp hs with rfl | hs
        · simp [hc] at hne
        · exact List.mem_filterMap.mpr ⟨step, hs, hc⟩
      exact congrArg _ (ih hrest)
    · rfl

/-- The question that a history ends with is the first for its code, or there was one before. -/
theorem beforeFirst_concat (h : code ∈ asked (steps ++ [step])) :
    beforeFirst code (steps ++ [step]) = beforeFirst code steps := by
  by_cases hold : code ∈ asked steps
  · exact beforeFirst_append hold [step]
  · have hnew : step.code? = some code := by
      rw [asked_concat] at h
      simpa [hold] using h
    have hpass : ∀ s ∈ steps, decide (s.code? ≠ some code) = true := List.takeWhile_eq_self_iff.mp (beforeFirst_of_not_mem hold)
    rw [beforeFirst_of_not_mem hold, beforeFirst, List.takeWhile_append_of_pos hpass]
    simp [hnew]

/-! ## What the memo remembers -/

/-- After a history the memo holds the codes asked for, in the order of the first questions, and
    for each code what the look-up answered to the first one. -/
structure Remembers (start : Desk) (steps : List Step) (d : Desk) : Prop where
  codes_eq : d.session.memo.map (·.1) = (asked steps).eraseDups
  known_eq : ∀ code known, Keyed.find? code d.session.memo = some known →
    known = usable? ((start.run (beforeFirst code steps)).lookup code)

namespace Remembers

variable {start d : Desk}

theorem find?_isSome (h : Remembers start steps d) (code : String) :
    (Keyed.find? code d.session.memo).isSome ↔ code ∈ asked steps := by
  rw [← List.mem_eraseDups, ← h.codes_eq]
  exact Keyed.contains_iff

theorem mem_asked (h : Remembers start steps d) {known : Option Attribute}
    (hf : Keyed.find? code d.session.memo = some known) : code ∈ asked steps :=
  (h.find?_isSome code).mp (by simp [hf])

theorem not_mem_asked (h : Remembers start steps d) (hf : Keyed.find? code d.session.memo = none) :
    code ∉ asked steps := by
  intro hm
  simpa [hf] using (h.find?_isSome code).mpr hm

/-- A step that does not ask the memo leaves it as it is. -/
theorem of_memo_eq (h : Remembers start steps d) {d' : Desk} (hm : d'.session.memo = d.session.memo)
    (hs : step.code? = none) : Remembers start (steps ++ [step]) d' := by
  have hasked : asked (steps ++ [step]) = asked steps := by simp [asked_concat, hs]
  refine ⟨by rw [hm, hasked, h.codes_eq], ?_⟩
  intro code known hk
  rw [hm] at hk
  rw [beforeFirst_append (h.mem_asked hk)]
  exact h.known_eq code known hk

theorem ask (h : Remembers start steps (start.run steps)) (code : String) :
    Remembers start (steps ++ [.get code]) ((start.run steps).after (.get code)) := by
  have hcodes := asked_concat steps (.get code)
  simp only [Step.code?, Option.toList_some] at hcodes
  cases hf : Keyed.find? code (start.run steps).session.memo with
  | some known =>
    have hold : code ∈ asked steps := h.mem_asked hf
    have hsame : (start.run steps).after (.get code) = start.run steps := by simp [after, Session.ask, hf]
    rw [hsame]
    refine ⟨by rw [hcodes, eraseDups_concat, if_pos hold, h.codes_eq], ?_⟩
    intro c known' hk
    rw [beforeFirst_append (h.mem_asked hk)]
    exact h.known_eq c known' hk
  | none =>
    have hnew : code ∉ asked steps := h.not_mem_asked hf
    have hmemo : ((start.run steps).after (.get code)).session.memo =
        (start.run steps).session.memo ++ [(code, usable? ((start.run steps).lookup code))] := by
      simp [after, Session.ask, Session.resolve, hf]
    refine ⟨by rw [hmemo, hcodes, eraseDups_concat, if_neg hnew, List.map_append, h.codes_eq]; rfl, ?_⟩
    intro c known hk
    rw [hmemo, Session.find?_snoc _ _ _ _ hf] at hk
    split at hk
    · next he =>
      subst he
      cases hk
      rw [beforeFirst_concat (by simp [hcodes]), beforeFirst_of_not_mem hnew]
    · rw [beforeFirst_append (h.mem_asked hk)]
      exact h.known_eq c known hk

theorem after (h : Remembers start steps (start.run steps)) (step : Step) :
    Remembers start (steps ++ [step]) ((start.run steps).after step) := by
  cases step with
  | get code => exact h.ask code
  | insert code a => exact h.of_memo_eq rfl rfl
  | replace c => exact h.of_memo_eq rfl rfl
  | fail outage => exact h.of_memo_eq rfl rfl
  | resolve code => exact h.of_memo_eq rfl rfl

end Remembers

/-- The desk after a history that began with nothing asked. -/
def reached (catalog : Catalog) (outage : String → Option LookupError) (steps : List Step) : Desk :=
  run { catalog, outage } steps

variable (catalog : Catalog) (outage : String → Option LookupError)

theorem run_remembers (steps : List Step) : Remembers { catalog, outage } steps (reached catalog outage steps) := by
  induction steps using List.reverseRecOn with
  | nil =>
    refine ⟨rfl, ?_⟩
    intro code known h
    cases h
  | append_singleton steps step ih =>
    rw [reached, run_concat]
    exact ih.after step

/-! ## Answers and calls -/

theorem answer_eq (steps : List Step) (code : String) :
    (reached catalog outage steps).answer code =
      usable? ((reached catalog outage (beforeFirst code steps)).lookup code) := by
  have h := run_remembers catalog outage steps
  unfold answer Session.ask
  split
  · next known hf => exact h.known_eq code known hf
  · next hf =>
    rw [beforeFirst_of_not_mem (h.not_mem_asked hf)]
    rfl

theorem callsOf_get (steps : List Step) (code : String) :
    (reached catalog outage steps).callsOf (.get code) = if code ∈ asked steps then [] else [code] := by
  have h := run_remembers catalog outage steps
  rw [callsOf, after]
  cases hf : Keyed.find? code (reached catalog outage steps).session.memo with
  | some known =>
    have hold : code ∈ asked steps := h.mem_asked hf
    simp [Session.ask, hf, hold]
  | none =>
    have hnew : code ∉ asked steps := h.not_mem_asked hf
    simp [Session.ask, Session.resolve, hf, hnew]

theorem memoCalls_eq (steps : List Step) : memoCalls { catalog, outage } steps = (asked steps).eraseDups := by
  induction steps using List.reverseRecOn with
  | nil => rfl
  | append_singleton steps step ih =>
    rw [memoCalls_concat, asked_concat, ih]
    cases step with
    | get code =>
      have hcalls := callsOf_get catalog outage steps code
      rw [reached] at hcalls
      simp only [Step.code?, Option.isSome_some, if_true, Option.toList_some, hcalls, eraseDups_concat]
      split <;> simp
    | insert | replace | fail | resolve => simp [Step.code?]

theorem usable?_eq_some_iff {answer : Except LookupError Attribute} {a : Attribute} :
    usable? answer = some a ↔ answer = .ok a ∧ a.present := by
  cases answer with
  | error e => simp [usable?]
  | ok b =>
    by_cases hp : b.present
    · simp only [usable?, hp, if_true, Option.some.injEq, Except.ok.injEq]
      exact ⟨fun e => ⟨e, e ▸ hp⟩, fun e => e.1⟩
    · simp only [usable?, hp, Bool.false_eq_true, if_false, Except.ok.injEq, reduceCtorEq, false_iff, not_and]
      rintro rfl
      exact hp

/-- After any history, the memo answers a question for a code by what the look-up said when the code
    was first asked for, if that was an attribute that is present, and by nothing otherwise; the
    question calls the look-up only if it is the first. The memo has as many entries as there were
    different codes asked for, and as many as its questions made calls. -/
theorem memo_keeps_first_answers (steps : List Step) (code : String) :
    (∀ a, (reached catalog outage steps).answer code = some a ↔
        (reached catalog outage (beforeFirst code steps)).lookup code = .ok a ∧ a.present) ∧
      (reached catalog outage steps).callsOf (.get code) = (if code ∈ asked steps then [] else [code]) ∧
      (reached catalog outage steps).session.memo.length = (asked steps).eraseDups.length ∧
      (reached catalog outage steps).session.memo.length = (memoCalls { catalog, outage } steps).length := by
  have hlength : (reached catalog outage steps).session.memo.length = (asked steps).eraseDups.length := by
    rw [← (run_remembers catalog outage steps).codes_eq, List.length_map]
  refine ⟨?_, callsOf_get catalog outage steps code, hlength, by rw [hlength, memoCalls_eq]⟩
  intro a
  rw [answer_eq]
  exact usable?_eq_some_iff

/-- A code that the look-up failed for stays unknown when the failure is over, though the look-up
    would find the attribute by then. -/
example :
    let timeout : String → Option LookupError := fun code =>
      if code = "size" then some (.unavailable code "timeout") else none
    let d := reached {} timeout [.insert "size" {}, .get "size", .fail fun _ => none, .resolve "size", .get "color"]
    d.answer "size" = none ∧ d.lookup "size" = .ok {} ∧ d.session.memo.length = 2 ∧ d.session.calls.length = 3 := by
  decide

end Desk

end RulePlan
