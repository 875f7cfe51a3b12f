/-
  RulePlan.Proofs.Compile.Contribution — compilation without a session.

  A session only saves calls: as long as its memo holds what the look-up answers
  (`Session.Faithful`), a condition has the predicates that it has on its own
  (`Condition.expansion`). `Rule.contribution` and `Rule.reports` say what a rule adds
  to a plan and what is left out of it, with no state passed along; the reports are
  read off the nodes of the rule. `compile_eq` puts the two together.
-/

import RulePlan.Compile
import RulePlan.Proofs.Tree.Nodes

namespace RulePlan

variable (lookup : Lookup) (limit : Nat)

/-! ## One condition -/

namespace Condition

/-- The predicates of a condition, the look-up being asked afresh. -/
def expansion (c : Condition) : Except DropReason (List Predicate) :=
  c.predicates (c.code?.bind fun code => usable? (lookup code))

/-- What a condition adds to a plan: nothing if its expansion fails. -/
def granted (c : Condition) : List Predicate :=
  match c.expansion lookup with
  | .ok ps => ps
  | .error _ => []

/-- The report of a condition whose expansion fails. -/
def refusal? (c : Condition) : Option Dropped :=
  match c.expansion lookup with
  | .ok _ => none
  | .error reason => some ⟨c.field, reason⟩

end Condition

/-! ## The memo -/

namespace Session

/-- The memo holds what the look-up answers. -/
def Faithful (s : Session) : Prop :=
  ∀ code known, Keyed.find? code s.memo = some known → known = usable? (lookup code)

theorem faithful_empty : Faithful lookup {} := by
  intro code known h
  simp [Keyed.find?] at h

variable {lookup}

theorem find?_snoc (code asked : String) (known : Option Attribute) (memo : Memo)
    (h : Keyed.find? asked memo = none) :
    Keyed.find? code (memo ++ [(asked, known)]) = if asked = code then some known else Keyed.find? code memo := by
  induction memo with
  | nil => simp [Keyed.find?]
  | cons e rest ih =>
    simp only [Keyed.find?] at h
    split at h
    · cases h
    · simp only [List.cons_append, Keyed.find?, ih h]
      split
      · next ne he => rw [if_neg (by rintro rfl; exact ne he)]
      · rfl

theorem ask_eq {s : Session} (hs : s.Faithful lookup) (code : String) :
    (s.ask lookup code).1 = usable? (lookup code) ∧ (s.ask lookup code).2.Faithful lookup ∧
      (s.ask lookup code).2.dropped = s.dropped := by
  unfold ask
  split
  · next known hf => exact ⟨hs code known hf, hs, rfl⟩
  · next hf =>
    refine ⟨rfl, fun c known h => ?_, rfl⟩
    simp only [resolve, find?_snoc _ _ _ _ hf] at h
    split at h
    · next e => subst e; cases h; rfl
    · exact hs c known h

theorem expand_eq {s : Session} (hs : s.Faithful lookup) (c : Condition) :
    (c.expand lookup s).1 = c.expansion lookup ∧ (c.expand lookup s).2.Faithful lookup ∧
      (c.expand lookup s).2.dropped = s.dropped := by
  unfold Condition.expand Condition.expansion
  cases c.code? with
  | none =>
    simp only [Option.bind_none]
    exact ⟨trivial, hs, trivial⟩
  | some code =>
    obtain ⟨ha, hf, hd⟩ := ask_eq hs code
    simp only [Option.bind_some, ← ha]
    exact ⟨trivial, hf, hd⟩

theorem candidates_eq {s : Session} (hs : s.Faithful lookup) (c : Condition) :
    (s.candidates lookup c).1 = c.granted lookup ∧ (s.candidates lookup c).2.Faithful lookup ∧
      (s.candidates lookup c).2.dropped = s.dropped ++ (c.refusal? lookup).toList := by
  obtain ⟨he, hf, hd⟩ := expand_eq hs c
  unfold candidates Condition.granted Condition.refusal?
  rw [← he]
  split
  · next ps s' h =>
    rw [h] at hf hd ⊢
    exact ⟨rfl, hf, by simpa using hd⟩
  · next reason s' h =>
    rw [h] at hf hd ⊢
    exact ⟨rfl, hf, congrArg (· ++ [_]) hd⟩

end Session

/-! ## Candidates -/

namespace Aggregator

variable {aggregator : Aggregator} {ps : List Predicate} {p : Predicate}

theorem mem_apart_any : p ∈ any.apart ps ↔ p ∈ ps ∧ p.comparison = .notMemberOf := by
  simp [apart, Comparison.mayShare]

theorem mem_shared_any : p ∈ any.shared ps ↔ p ∈ ps ∧ p.comparison ≠ .notMemberOf := by
  simp [shared, Comparison.mayShare]

@[simp] theorem apart_nil (aggregator : Aggregator) : aggregator.apart [] = [] := by
  cases aggregator <;> rfl

@[simp] theorem shared_nil (aggregator : Aggregator) : aggregator.shared [] = [] := by
  cases aggregator <;> rfl

theorem mem_of_mem_shared (h : p ∈ aggregator.shared ps) : p ∈ ps ∧ p.comparison ≠ .notMemberOf := by
  cases aggregator with
  | all => cases h
  | any => exact mem_shared_any.mp h

/-- A candidate gets a group of its own or is shared. -/
theorem apart_append_shared (aggregator : Aggregator) (ps : List Predicate) :
    (aggregator.apart ps ++ aggregator.shared ps).Perm ps := by
  cases aggregator with
  | all => simp [apart, shared]
  | any =>
    have h := List.filter_append_perm (fun p : Predicate => p.comparison.mayShare) ps
    exact List.perm_append_comm.trans h

theorem mem_of_mem_apart (h : p ∈ aggregator.apart ps) : p ∈ ps :=
  (aggregator.apart_append_shared ps).subset (List.mem_append_left _ h)

end Aggregator

/-! ## Rules -/

/-- The groups that a child with this contribution adds to those of its parent. -/
def Aggregator.finished (aggregator : Aggregator) (c : Contribution) : List Group :=
  (aggregator.apart c.candidates).map Group.single ++ c.groups

@[simp] theorem Aggregator.finished_empty (aggregator : Aggregator) : aggregator.finished {} = [] := by
  simp [finished]

namespace Rule

mutual

/-- What a node hands to its parent, each condition being expanded on its own. -/
def contribution : Rule → Nat → Contribution
  | .condition c, _ => { candidates := c.granted lookup }
  | .combine aggregator children, depth =>
    if limit < depth + 1 then {}
    else
      let (groups, bucket) := contributionAll aggregator children (depth + 1)
      { groups := groups ++ (Group.ofPredicates? bucket).toList }

def contributionAll (aggregator : Aggregator) : List Rule → Nat → List Group × List Predicate
  | [], _ => ([], [])
  | r :: rest, depth =>
    let c := contribution r depth
    let (groups, bucket) := contributionAll aggregator rest depth
    (aggregator.finished c ++ groups, aggregator.shared c.candidates ++ bucket)

end

/-- What is reported about a node: a condition within the limit whose expansion fails, and a
    combination just below the limit. -/
def report? : Rule × Nat → Option Dropped
  | (.condition c, above) => if above ≤ limit then c.refusal? lookup else none
  | (.combine _ _, above) => if above = limit then some ⟨subtreeField, .depthLimit⟩ else none

def reports (r : Rule) (depth : Nat) : List Dropped := (r.nodes depth).filterMap (report? lookup limit)

variable {lookup limit}

theorem contributionAll_eq (aggregator : Aggregator) (rs : List Rule) (depth : Nat) :
    contributionAll lookup limit aggregator rs depth =
      (rs.flatMap fun r => aggregator.finished (r.contribution lookup limit depth),
        rs.flatMap fun r => aggregator.shared (r.contribution lookup limit depth).candidates) := by
  induction rs with
  | nil => rfl
  | cons r rest ih => simp [contributionAll, ih]

@[simp] theorem contribution_condition (c : Condition) (depth : Nat) :
    (condition c).contribution lookup limit depth = { candidates := c.granted lookup } := rfl

theorem contribution_below (aggregator : Aggregator) (children : List Rule) {depth : Nat} (h : limit < depth + 1) :
    (combine aggregator children).contribution lookup limit depth = {} := by
  rw [contribution, if_pos h]

theorem contribution_within (aggregator : Aggregator) (children : List Rule) {depth : Nat} (h : ¬ limit < depth + 1) :
    (combine aggregator children).contribution lookup limit depth =
      { groups := (children.flatMap fun r => aggregator.finished (r.contribution lookup limit (depth + 1))) ++
          (Group.ofPredicates?
            (children.flatMap fun r => aggregator.shared (r.contribution lookup limit (depth + 1)).candidates)).toList } := by
  rw [contribution, if_neg h, contributionAll_eq]

/-- A combination has finished its groups. -/
@[simp] theorem candidates_combine (aggregator : Aggregator) (children : List Rule) (depth : Nat) :
    ((combine aggregator children).contribution lookup limit depth).candidates = [] := by
  rw [contribution]
  split <;> rfl

theorem reports_condition (c : Condition) {depth : Nat} (h : depth ≤ limit) :
    (condition c).reports lookup limit depth = (c.refusal? lookup).toList := by
  simp only [reports, nodes_condition, List.filterMap_cons, report?, if_pos h, List.filterMap_nil]
  cases c.refusal? lookup <;> rfl

theorem reports_below (r : Rule) {depth : Nat} (h : limit < depth) : r.reports lookup limit depth = [] := by
  refine List.filterMap_eq_nil_iff.mpr fun x hx => ?_
  have := le_of_mem_nodes hx
  obtain ⟨r | ⟨_, _⟩, above⟩ := x
  · exact if_neg (by simp only at this; omega)
  · exact if_neg (by simp only at this; omega)

theorem reports_combine (aggregator : Aggregator) (children : List Rule) (depth : Nat) :
    (combine aggregator children).reports lookup limit depth =
      (if depth = limit then [⟨subtreeField, .depthLimit⟩] else []) ++
        children.flatMap fun r => r.reports lookup limit (depth + 1) := by
  simp only [reports, nodes_combine, List.filterMap_cons, report?, List.filterMap_flatMap]
  split <;> simp_all

/-! ## The two compilations agree -/

/-- A computation in a faithful session has the value that it has on its own, keeps the session
    faithful and reports what it leaves out. -/
structure Agrees (lookup : Lookup) {α : Type} (x : α × Session) (s : Session) (value : α) (left : List Dropped) :
    Prop where
  value_eq : x.1 = value
  faithful : x.2.Faithful lookup
  dropped_eq : x.2.dropped = s.dropped ++ left

theorem contributeAll_agrees (aggregator : Aggregator) (depth : Nat) {rs : List Rule}
    (h : ∀ r ∈ rs, ∀ s : Session, s.Faithful lookup →
      Agrees lookup (contribute lookup limit r depth s) s (r.contribution lookup limit depth)
        (r.reports lookup limit depth)) :
    ∀ s : Session, s.Faithful lookup →
      Agrees lookup (contributeAll lookup limit aggregator rs depth s) s
        (contributionAll lookup limit aggregator rs depth)
        (rs.flatMap fun r => r.reports lookup limit depth) := by
  induction rs with
  | nil =>
    intro s hs
    rw [contributeAll, contributionAll]
    exact ⟨rfl, hs, by simp⟩
  | cons r rest ih =>
    intro s hs
    obtain ⟨hv, hf, hd⟩ := h r List.mem_cons_self s hs
    obtain ⟨hv', hf', hd'⟩ := ih (fun r' hr' => h r' (List.mem_cons_of_mem _ hr')) _ hf
    rw [contributeAll, contributionAll, ← hv, ← hv']
    generalize contribute lookup limit r depth s = x at hd hd' hf' ⊢
    obtain ⟨c, t⟩ := x
    simp only at hd hd' hf' ⊢
    generalize contributeAll lookup limit aggregator rest depth t = y at hd' hf' ⊢
    obtain ⟨⟨groups, bucket⟩, u⟩ := y
    refine ⟨rfl, hf', ?_⟩
    rw [List.flatMap_cons, ← List.append_assoc, ← hd]
    exact hd'

theorem contribute_agrees (r : Rule) : ∀ depth ≤ limit, ∀ s : Session, s.Faithful lookup →
    Agrees lookup (contribute lookup limit r depth s) s (r.contribution lookup limit depth)
      (r.reports lookup limit depth) := by
  induction r with
  | condition c =>
    intro depth hd s hs
    obtain ⟨hv, hf, hr⟩ := Session.candidates_eq hs c
    rw [contribute, contribution_condition, reports_condition c hd]
    generalize s.candidates lookup c = x at hv hf hr ⊢
    obtain ⟨ps, t⟩ := x
    obtain rfl : ps = c.granted lookup := hv
    exact ⟨rfl, hf, hr⟩
  | combine aggregator children ih =>
    intro depth hd s hs
    rw [reports_combine]
    by_cases hl : limit < depth + 1
    · -- here the combination itself is the first node below the limit
      have he : depth = limit := by omega
      have hn : (children.flatMap fun r => r.reports lookup limit (depth + 1)) = [] :=
        List.flatMap_eq_nil_iff.mpr fun r _ => reports_below r hl
      rw [contribute, if_pos hl, contribution_below _ _ hl, hn, if_pos he]
      exact ⟨rfl, hs, by simp [Session.dropSubtree, Session.drop, Session.note]⟩
    · obtain ⟨hv, hf, hr⟩ := contributeAll_agrees aggregator (depth + 1)
        (fun r hr s hs => ih r hr (depth + 1) (by omega) s hs) s hs
      rw [contributionAll_eq] at hv
      rw [contribute, if_neg hl, contribution_within _ _ hl, if_neg (by omega)]
      generalize contributeAll lookup limit aggregator children (depth + 1) s = x at hv hf hr ⊢
      obtain ⟨gathered, t⟩ := x
      obtain rfl : gathered = _ := hv
      exact ⟨rfl, hf, hr⟩

end Rule

variable {lookup limit}

/-- The plan and the reports of a tree, without the session that saves calls. -/
theorem compile_eq (t : Tree) :
    compile lookup limit t =
      ⟨⟨(t.toRule.contribution lookup limit 0).groups⟩, t.toRule.reports lookup limit 0⟩ := by
  obtain ⟨hv, -, hd⟩ := Rule.contribute_agrees t.toRule 0 (Nat.zero_le limit) {} (Session.faithful_empty lookup)
  simp only [compile, compileIn, Session.note, hv, hd, List.nil_append]

end RulePlan
