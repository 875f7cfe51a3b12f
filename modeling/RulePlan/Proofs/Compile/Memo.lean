/-
  RulePlan.Proofs.Compile.Memo — the memo of a session saves calls and does nothing else.

  `Rule.contributeBy` is the way through a rule that compilation takes, with the
  expansion of a condition left open. Two ways of expanding are compared along it: if
  they give the same predicates and keep two sessions related, condition by condition,
  the contributions of a rule are the same and the sessions stay related
  (`contributeBy_simulates`); the relation may speak of the conditions visited so far.

  The compiler that forgets is the same one with the memo emptied before each condition,
  so it calls the look-up for every condition that names a code. Beside it a session
  with a memo reports the same and has called for the distinct codes only, in the order
  in which they were first named (`Session.Saves`). Proved, for every tree, look-up and
  limit: the plan and the reports are those of the compiler that forgets, and the calls
  are the first ones of each code (`compile_saves_calls`).
-/

import Mathlib.Data.List.Induction
import Mathlib.Data.List.Nodup
import RulePlan.Proofs.Compile.Accounting
import RulePlan.Proofs.Keyed

namespace RulePlan

/-! ## The way through a rule -/

/-- How the predicates of a condition are found in a session. -/
abbrev Expansion := Condition → Session → List Predicate × Session

namespace Rule

mutual

def contributeBy (expand : Expansion) (limit : Nat) : Rule → Nat → Session → Contribution × Session
  | .condition c, _, s =>
    let (ps, s) := expand c s
    ({ candidates := ps }, s)
  | .combine aggregator children, depth, s =>
    if limit < depth + 1 then ({}, s.dropSubtree (depth + 1))
    else
      let ((groups, bucket), s) := contributeAllBy expand limit aggregator children (depth + 1) s
      ({ groups := groups ++ (Group.ofPredicates? bucket).toList }, s)

def contributeAllBy (expand : Expansion) (limit : Nat) (aggregator : Aggregator) :
    List Rule → Nat → Session → (List Group × List Predicate) × Session
  | [], _, s => (([], []), s)
  | r :: rest, depth, s =>
    let (c, s) := contributeBy expand limit r depth s
    let ((groups, bucket), s) := contributeAllBy expand limit aggregator rest depth s
    ((aggregator.finished c ++ groups, aggregator.shared c.candidates ++ bucket), s)

end

variable {limit : Nat}

theorem contributeAll_eq_contributeAllBy {lookup : Lookup} {aggregator : Aggregator} {depth : Nat} {rs : List Rule}
    (h : ∀ r ∈ rs, ∀ s, contribute lookup limit r depth s = contributeBy (fun c s => s.candidates lookup c) limit r depth s)
    (s : Session) : contributeAll lookup limit aggregator rs depth s =
      contributeAllBy (fun c s => s.candidates lookup c) limit aggregator rs depth s := by
  induction rs generalizing s with
  | nil => rfl
  | cons r rest ih =>
    rw [contributeAll, contributeAllBy, h r List.mem_cons_self]
    simp only [ih fun r' hr' => h r' (List.mem_cons_of_mem _ hr'), Aggregator.finished]

theorem contribute_eq_contributeBy (lookup : Lookup) (r : Rule) : ∀ (depth : Nat) (s : Session),
    contribute lookup limit r depth s = contributeBy (fun c s => s.candidates lookup c) limit r depth s := by
  induction r with
  | condition c => exact fun _ _ => rfl
  | combine aggregator children ih =>
    intro depth s
    rw [contribute, contributeBy, contributeAll_eq_contributeAllBy fun r hr s => ih r hr (depth + 1) s]

/-! ## Two sessions side by side -/

/-- Two ways of expanding conditions give the same predicates and keep sessions related. The
    relation also sees the conditions visited before. -/
structure Simulates (f g : Expansion) (R : List Condition → Session → Session → Prop) : Prop where
  condition : ∀ {visited s t} (c : Condition), R visited s t → (f c s).1 = (g c t).1 ∧ R (visited ++ [c]) (f c s).2 (g c t).2
  dropSubtree : ∀ {visited s t} (depth : Nat), R visited s t → R visited (s.dropSubtree depth) (t.dropSubtree depth)

variable {f g : Expansion} {R : List Condition → Session → Session → Prop}

theorem contributeAllBy_simulates {aggregator : Aggregator} {depth : Nat} {rs : List Rule}
    (h : ∀ r ∈ rs, ∀ {visited s t}, R visited s t →
      (contributeBy f limit r depth s).1 = (contributeBy g limit r depth t).1 ∧
        R (visited ++ r.visited limit depth) (contributeBy f limit r depth s).2 (contributeBy g limit r depth t).2) :
    ∀ {visited s t}, R visited s t →
      (contributeAllBy f limit aggregator rs depth s).1 = (contributeAllBy g limit aggregator rs depth t).1 ∧
        R (visited ++ rs.flatMap fun r => r.visited limit depth) (contributeAllBy f limit aggregator rs depth s).2
          (contributeAllBy g limit aggregator rs depth t).2 := by
  induction rs with
  | nil =>
    intro visited s t hR
    rw [List.flatMap_nil, List.append_nil]
    exact ⟨rfl, hR⟩
  | cons r rest ih =>
    intro visited s t hR
    obtain ⟨hv, hR⟩ := h r List.mem_cons_self hR
    obtain ⟨hv', hR⟩ := ih (fun r' hr' => h r' (List.mem_cons_of_mem _ hr')) hR
    rw [List.flatMap_cons, ← List.append_assoc, contributeAllBy, contributeAllBy]
    simp only [hv, hv']
    exact ⟨trivial, hR⟩

theorem contributeBy_simulates (h : Simulates f g R) (r : Rule) : ∀ {depth : Nat}, depth ≤ limit →
    ∀ {visited s t}, R visited s t →
      (contributeBy f limit r depth s).1 = (contributeBy g limit r depth t).1 ∧
        R (visited ++ r.visited limit depth) (contributeBy f limit r depth s).2 (contributeBy g limit r depth t).2 := by
  induction r with
  | condition c =>
    intro depth hd visited s t hR
    obtain ⟨hv, hR⟩ := h.condition c hR
    rw [visited_condition c hd, contributeBy, contributeBy]
    simp only [hv]
    exact ⟨trivial, hR⟩
  | combine aggregator children ih =>
    intro depth hd visited s t hR
    rw [visited_combine, contributeBy, contributeBy]
    by_cases hl : limit < depth + 1
    · have hn : (children.flatMap fun r => r.visited limit (depth + 1)) = [] :=
        List.flatMap_eq_nil_iff.mpr fun r _ => visited_below r hl
      rw [if_pos hl, if_pos hl, hn, List.append_nil]
      exact ⟨rfl, h.dropSubtree _ hR⟩
    · have hchildren := fun r hr => @ih r hr (depth + 1) (by omega)
      obtain ⟨hv, hR⟩ := @contributeAllBy_simulates _ _ _ _ aggregator _ _ hchildren _ _ _ hR
      rw [if_neg hl, if_neg hl]
      simp only [hv]
      exact ⟨trivial, hR⟩

end Rule

/-! ## First occurrences -/

theorem eraseDups_concat {α : Type} [DecidableEq α] (l : List α) (a : α) :
    (l ++ [a]).eraseDups = if a ∈ l then l.eraseDups else l.eraseDups ++ [a] := by
  rw [List.eraseDups_append]
  split
  · next h => simp [List.removeAll, h]
  · next h => simp [List.removeAll, h, List.eraseDups_cons]

theorem eraseDups_nodup {α : Type} [DecidableEq α] (l : List α) : l.eraseDups.Nodup := by
  induction l using List.reverseRecOn with
  | nil => exact List.nodup_nil
  | append_singleton l a ih =>
    rw [eraseDups_concat]
    split
    · exact ih
    · next h => exact List.nodup_append_comm.mp (List.nodup_cons.mpr ⟨fun hm => h (List.mem_eraseDups.mp hm), ih⟩)

/-! ## The compiler that forgets -/

namespace Session

def forget (s : Session) : Session := { s with memo := [] }

/-- The predicates of a condition, the look-up being called anew. -/
def candidatesAfresh (lookup : Lookup) (c : Condition) (s : Session) : List Predicate × Session :=
  s.forget.candidates lookup c

variable {lookup : Lookup}

theorem forget_faithful (s : Session) : s.forget.Faithful lookup := by
  intro code known h
  cases h

/-- A session with a memo beside one without, after conditions that named these codes: it reports
    the same and has called for each code once, when it was first named. -/
structure Saves (lookup : Lookup) (s afresh : Session) (named : List String) : Prop where
  faithful : s.Faithful lookup
  dropped_eq : s.dropped = afresh.dropped
  calls_afresh : afresh.calls = named
  calls_eq : s.calls = named.eraseDups
  memo_codes : s.memo.map (·.1) = s.calls

theorem saves_empty : Saves lookup {} {} [] := ⟨faithful_empty lookup, rfl, rfl, rfl, rfl⟩

variable {s afresh : Session} {named : List String}

theorem Saves.ask (h : Saves lookup s afresh named) (code : String) :
    Saves lookup (s.ask lookup code).2 (afresh.forget.ask lookup code).2 (named ++ [code]) := by
  obtain ⟨-, hfaithful, hdropped⟩ := ask_eq h.faithful code
  have hafresh : (afresh.forget.ask lookup code).2.calls = afresh.calls ++ [code] := rfl
  have hreports : (afresh.forget.ask lookup code).2.dropped = afresh.dropped := rfl
  have hknown : (Keyed.find? code s.memo).isSome ↔ code ∈ named := by
    rw [← List.mem_eraseDups, ← h.calls_eq, ← h.memo_codes]
    exact Keyed.contains_iff
  refine ⟨hfaithful, by rw [hdropped, hreports, h.dropped_eq], by rw [hafresh, h.calls_afresh], ?_, ?_⟩
  · rw [eraseDups_concat, Session.ask]
    split
    · next known hf => rw [if_pos (hknown.mp (by rw [hf]; rfl)), h.calls_eq]
    · next hf =>
      rw [if_neg fun hm => by simpa [hf] using hknown.mpr hm, ← h.calls_eq]
      rfl
  · rw [Session.ask]
    split
    · exact h.memo_codes
    · simp only [resolve, List.map_append, h.memo_codes, List.map_cons, List.map_nil]

theorem Saves.expand (h : Saves lookup s afresh named) (c : Condition) :
    (c.expand lookup s).1 = (c.expand lookup afresh.forget).1 ∧
      Saves lookup (c.expand lookup s).2 (c.expand lookup afresh.forget).2 (named ++ c.code?.toList) := by
  obtain ⟨hv, -, -⟩ := expand_eq h.faithful c
  obtain ⟨hv', -, -⟩ := expand_eq (@forget_faithful lookup afresh) c
  refine ⟨hv.trans hv'.symm, ?_⟩
  unfold Condition.expand
  cases c.code? with
  | none =>
    rw [Option.toList_none, List.append_nil]
    exact ⟨h.faithful, h.dropped_eq, h.calls_afresh, h.calls_eq, h.memo_codes⟩
  | some code => exact h.ask code

/-- What a session notes for its log does not count. -/
theorem Saves.candidates (h : Saves lookup s afresh named) (c : Condition) :
    (s.candidates lookup c).1 = (afresh.candidatesAfresh lookup c).1 ∧
      Saves lookup (s.candidates lookup c).2 (afresh.candidatesAfresh lookup c).2 (named ++ c.code?.toList) := by
  obtain ⟨hv, hs⟩ := h.expand c
  unfold candidatesAfresh Session.candidates
  generalize c.expand lookup s = x at hv hs ⊢
  generalize c.expand lookup afresh.forget = y at hv hs ⊢
  obtain ⟨result, s'⟩ := x
  obtain ⟨_, afresh'⟩ := y
  obtain rfl : result = _ := hv
  cases result with
  | ok ps => exact ⟨rfl, hs⟩
  | error reason =>
    refine ⟨rfl, hs.faithful, ?_, hs.calls_afresh, hs.calls_eq, hs.memo_codes⟩
    exact congrArg (· ++ [_]) hs.dropped_eq

theorem Saves.dropSubtree (h : Saves lookup s afresh named) (depth : Nat) :
    Saves lookup (s.dropSubtree depth) (afresh.dropSubtree depth) named :=
  ⟨h.faithful, congrArg (· ++ [_]) h.dropped_eq, h.calls_afresh, h.calls_eq, h.memo_codes⟩

theorem saves_simulates (lookup : Lookup) :
    Rule.Simulates (fun c s => s.candidates lookup c) (fun c s => s.candidatesAfresh lookup c)
      (fun visited s afresh => Saves lookup s afresh (visited.filterMap Condition.code?)) where
  condition := by
    intro visited s afresh c h
    have hone : [c].filterMap Condition.code? = c.code?.toList := by
      rw [List.filterMap_cons, List.filterMap_nil]
      cases c.code? <;> rfl
    rw [List.filterMap_append, hone]
    exact h.candidates c
  dropSubtree := fun depth h => h.dropSubtree depth

end Session

/-- A tree compiled without a memo, and the calls that this takes. -/
def compileAfresh (lookup : Lookup) (limit : Nat) (t : Tree) : Compiled × List String :=
  let (c, s) := t.toRule.contributeBy (fun c s => s.candidatesAfresh lookup c) limit 0 {}
  (⟨⟨c.groups⟩, s.dropped⟩, s.calls)

/-- The fields of conditions that name attributes, without the blanks around them. -/
def attributeCodes (cs : List Condition) : List String :=
  (cs.map fun c => Text.trim c.field).filter fun field => field ≠ "" ∧ field ≠ hasImageField ∧ field ≠ entityIdField

theorem filterMap_code? (cs : List Condition) : cs.filterMap Condition.code? = attributeCodes cs := by
  rw [attributeCodes, ← List.filterMap_eq_filter, List.filterMap_map]
  refine List.filterMap_congr fun c _ => ?_
  simp only [Condition.code?, Function.comp_apply, Option.guard, ne_eq, ← not_or, decide_eq_true_eq, ite_not]

/-- The look-up is called for the codes that the visited conditions name, for each of them when it is
    first named. -/
theorem calls_compileIn (lookup : Lookup) (limit : Nat) (t : Tree) :
    (compileIn lookup limit t {}).2.calls = (attributeCodes (t.visited limit)).eraseDups := by
  have hstart : Session.Saves lookup {} {} ([].filterMap Condition.code?) := Session.saves_empty
  obtain ⟨-, hs⟩ := Rule.contributeBy_simulates (Session.saves_simulates lookup) t.toRule (Nat.zero_le limit) hstart
  rw [List.nil_append, filterMap_code?, ← Rule.contribute_eq_contributeBy] at hs
  exact hs.calls_eq

/-- The memo shows in the calls alone: without it the plan and the reports are the same and every
    visited condition that names a code makes a call; with it each code is called for once, when it
    is first named. -/
theorem compile_saves_calls (lookup : Lookup) (limit : Nat) (t : Tree) :
    compile lookup limit t = (compileAfresh lookup limit t).1 ∧
      (compileAfresh lookup limit t).2 = attributeCodes (t.visited limit) ∧
      (compileIn lookup limit t {}).2.calls = (attributeCodes (t.visited limit)).eraseDups ∧
      (compileIn lookup limit t {}).2.calls.Nodup := by
  have hstart : Session.Saves lookup {} {} ([].filterMap Condition.code?) := Session.saves_empty
  obtain ⟨hv, hs⟩ := Rule.contributeBy_simulates (Session.saves_simulates lookup) t.toRule (Nat.zero_le limit) hstart
  rw [List.nil_append, filterMap_code?] at hs
  rw [← Rule.contribute_eq_contributeBy] at hv hs
  have hcalls : (compileIn lookup limit t {}).2.calls = (attributeCodes (t.visited limit)).eraseDups := hs.calls_eq
  refine ⟨?_, hs.calls_afresh, hcalls, hcalls ▸ eraseDups_nodup _⟩
  unfold compile compileIn compileAfresh
  simp only [hv, Session.note, hs.dropped_eq]

/-- A code is not called for again when the call has failed. -/
example :
    let t : Tree := ⟨.all, [.condition ⟨"size", "==", .absent⟩, .condition ⟨"entity_id", "==", .absent⟩,
      .combine .any [.condition ⟨" size ", "==", .absent⟩, .condition ⟨"color", "==", .absent⟩]]⟩
    (compileIn (fun code => .error (.unavailable code "timeout")) 32 t {}).2.calls = ["size", "color"] := by
  decide

end RulePlan
