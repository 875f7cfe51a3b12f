/-
  RulePlan.Proofs.Compile.Needed — what a compilation needs to know of the attributes.

  A condition asks the look-up for the attribute that its field names and uses three
  things of the answer: whether there is a usable attribute, how it stores its values
  and, if it stores sets, what separates their members. A failed look-up and an
  attribute that is not present are the same to it, and so are the empty delimiter and
  the default one. Answers that are the same in this way (`SameUse`) give the condition
  the same expansion, and a rule shows nothing of a look-up but the expansions of the
  conditions visited in it (`Rule.contribution_congr`, `Rule.reports_congr`).

  Proved, for every tree and limit (`compile_needs`): look-ups whose answers are of the
  same use for the codes that the tree names give the same plan, leave out the same
  conditions and are called for the same codes.
-/

import RulePlan.Proofs.Compile.Memo
import RulePlan.Proofs.Compile.StoredSets

namespace RulePlan

/-- Two answers for a code that no condition tells apart: neither gives a usable attribute, or both
    do, with the same storage and, if they store sets, the same delimiter. -/
inductive SameUse (x y : Except LookupError Attribute) : Prop
  | unusable (hx : usable? x = none) (hy : usable? y = none)
  | usable {a b : Attribute} (hx : usable? x = some a) (hy : usable? y = some b) (storage_eq : a.storage = b.storage)
      (separator_eq : a.storage = .codeSet → a.separator = b.separator)

/-! ## One condition -/

theorem Predicate.withDelimiter_eq (p : Predicate) (a : Attribute) :
    p.withDelimiter a.delimiter =
      { p with delimiter? := if a.separator = defaultDelimiter then none else some a.separator } := by
  unfold withDelimiter Attribute.separator
  by_cases he : a.delimiter = ""
  · simp [he]
  · simp [he]

namespace Condition

variable {a b : Attribute} {first second : Lookup} {c : Condition}

theorem setPredicates_congr (h : a.separator = b.separator) (code : String) (k : Comparison) (o : Operand) :
    setPredicates code a.delimiter k o = setPredicates code b.delimiter k o := by
  simp only [setPredicates, Predicate.withDelimiter_eq, h]

theorem attributePredicates_sameUse (c : Condition) (code : String) (hs : a.storage = b.storage)
    (hd : a.storage = .codeSet → a.separator = b.separator) :
    c.attributePredicates code a = c.attributePredicates code b := by
  unfold attributePredicates
  rw [← hs]
  by_cases hset : a.storage = .codeSet
  · simp only [hset, if_true, setPredicates_congr (hd hset)]
  · simp only [hset, if_false]

theorem expansion_sameUse (h : ∀ code, c.code? = some code → SameUse (first code) (second code)) :
    c.expansion first = c.expansion second := by
  cases hcode : c.code? with
  | none => simp only [expansion, hcode, Option.bind_none]
  | some code =>
    rw [expansion_of_code hcode, expansion_of_code hcode]
    cases h code hcode with
    | unusable hx hy => rw [hx, hy]
    | usable hx hy hs hd =>
      rw [hx, hy]
      exact c.attributePredicates_sameUse code hs hd

end Condition

/-! ## Rules -/

variable {first second : Lookup} {limit : Nat}

theorem Condition.granted_congr {c : Condition} (h : c.expansion first = c.expansion second) :
    c.granted first = c.granted second := by
  rw [granted, h, granted]

theorem Condition.refusal?_congr {c : Condition} (h : c.expansion first = c.expansion second) :
    c.refusal? first = c.refusal? second := by
  rw [refusal?, h, refusal?]

namespace Rule

/-- Of the look-up, a contribution shows the expansions of the visited conditions only. -/
theorem contribution_congr (r : Rule) : ∀ {depth : Nat}, depth ≤ limit →
    (∀ c ∈ r.visited limit depth, c.expansion first = c.expansion second) →
    r.contribution first limit depth = r.contribution second limit depth := by
  induction r with
  | condition c =>
    intro depth hd h
    rw [visited_condition c hd] at h
    rw [contribution_condition, contribution_condition, Condition.granted_congr (h c List.mem_cons_self)]
  | combine aggregator children ih =>
    intro depth hd h
    by_cases hl : limit < depth + 1
    · rw [contribution_below _ _ hl, contribution_below _ _ hl]
    · have hchildren : ∀ r ∈ children,
          r.contribution first limit (depth + 1) = r.contribution second limit (depth + 1) := by
        intro r hr
        refine ih r hr (by omega) fun c hc => h c ?_
        rw [visited_combine]
        exact List.mem_flatMap.mpr ⟨r, hr, hc⟩
      have hfinished := List.flatMap_congr fun r hr => congrArg aggregator.finished (hchildren r hr)
      have hshared := List.flatMap_congr fun r hr => congrArg (aggregator.shared ·.candidates) (hchildren r hr)
      rw [contribution_within _ _ hl, contribution_within _ _ hl, hfinished, hshared]

theorem reports_congr {r : Rule} {depth : Nat}
    (h : ∀ c ∈ r.visited limit depth, c.expansion first = c.expansion second) :
    r.reports first limit depth = r.reports second limit depth := by
  refine List.filterMap_congr fun node hn => ?_
  obtain ⟨c | ⟨aggregator, children⟩, above⟩ := node
  · simp only [report?]
    split
    · next hle => exact Condition.refusal?_congr (h c (List.mem_filterMap.mpr ⟨_, hn, if_pos hle⟩))
    · rfl
  · rfl

end Rule

/-- A compilation depends on its look-up through the answers for the codes that visited conditions
    name, and of an answer it sees whether there is a usable attribute, its storage and the delimiter
    of its sets. Which codes it calls for does not depend on the look-up at all. -/
theorem compile_needs (first second : Lookup) (limit : Nat) (t : Tree)
    (h : ∀ code ∈ attributeCodes (t.visited limit), SameUse (first code) (second code)) :
    compile first limit t = compile second limit t ∧
      (compileIn first limit t {}).2.calls = (compileIn second limit t {}).2.calls := by
  have hexpansion : ∀ c ∈ t.visited limit, c.expansion first = c.expansion second := by
    intro c hc
    refine Condition.expansion_sameUse fun code hcode => h code ?_
    rw [← filterMap_code?]
    exact List.mem_filterMap.mpr ⟨c, hc, hcode⟩
  rw [compile_eq, compile_eq, Rule.contribution_congr t.toRule (Nat.zero_le limit) hexpansion,
    Rule.reports_congr hexpansion, calls_compileIn, calls_compileIn]
  exact ⟨rfl, rfl⟩

/-- A label, an option, an empty delimiter in place of the default one, and a failure in place of an
    attribute that is not present. -/
theorem labels_and_the_kind_of_failure_do_not_show_in_a_plan :
    let first : Lookup := fun code =>
      if code = "color" then
        .ok { storage := .codeSet, delimiter := "", label := some "Color", choices := [⟨.int 1, "Red"⟩] }
      else .error (.unavailable code "timeout")
    let second : Lookup := fun code => if code = "color" then .ok { storage := .codeSet } else .ok .missing
    let t : Tree := ⟨.any, [.condition ⟨"size", "==", .single (.int 7)⟩,
      .combine .all [.condition ⟨" color", "()", .single (.text "1,2")⟩]]⟩
    (∀ code ∈ attributeCodes (t.visited 2), SameUse (first code) (second code)) ∧
      compile first 2 t = compile second 2 t ∧
      (compileIn first 2 t {}).2.calls = (compileIn second 2 t {}).2.calls ∧
      (compile first 2 t).plan.predicateCount = 2 ∧ (compileIn first 2 t {}).2.calls = ["size", "color"] := by
  intro first second t
  have hcodes : attributeCodes (t.visited 2) = ["size", "color"] := by decide
  have h : ∀ code ∈ attributeCodes (t.visited 2), SameUse (first code) (second code) := by
    intro code hcode
    rw [hcodes] at hcode
    rcases List.mem_pair.mp hcode with rfl | rfl
    · exact .unusable rfl rfl
    · exact .usable rfl rfl rfl fun _ => by decide
  obtain ⟨hplan, hcalls⟩ := compile_needs first second 2 t h
  exact ⟨h, hplan, hcalls, by decide, by decide⟩

end RulePlan
