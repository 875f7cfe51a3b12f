/-
  RulePlan.Proofs.Sql.Formula — formulas with three truth values.

  A formula joins its atoms by AND and OR, which follow the rules of SQL for UNKNOWN. A
  junction of one operand is that operand, and one of none is a constant: alternatives
  of which there are none are false.

  Proved: a formula is known by its shape and its atoms (`Formula.eq_of_shape`). Whatever
  takes the place of the atoms of a conjunction of alternatives goes to its groups in
  order (`Formula.assign_ofGroups`), and truth values there make it true when every group
  has a true one (`Formula.truth_ofGroups`).
-/

namespace RulePlan.Sql

/-! ## Truth values -/

inductive Truth where
  | yes
  | no
  | unknown
  deriving DecidableEq, Repr

namespace Truth

def and : Truth → Truth → Truth
  | .no, _ => .no
  | .yes, b => b
  | .unknown, .no => .no
  | .unknown, _ => .unknown

def or : Truth → Truth → Truth
  | .yes, _ => .yes
  | .no, b => b
  | .unknown, .yes => .yes
  | .unknown, _ => .unknown

theorem and_eq_yes {a b : Truth} : a.and b = .yes ↔ a = .yes ∧ b = .yes := by
  cases a <;> cases b <;> decide

theorem or_eq_yes {a b : Truth} : a.or b = .yes ↔ a = .yes ∨ b = .yes := by
  cases a <;> cases b <;> decide

end Truth

/-! ## Formulas -/

inductive Formula (α : Type) where
  | atom (a : α)
  | const (b : Bool)
  | and (f g : Formula α)
  | or (f g : Formula α)
  deriving DecidableEq, Repr

namespace Formula

variable {α β : Type}

def map (φ : α → β) : Formula α → Formula β
  | .atom a => .atom (φ a)
  | .const b => .const b
  | .and f g => .and (f.map φ) (g.map φ)
  | .or f g => .or (f.map φ) (g.map φ)

/-- From the left to the right. -/
def atoms : Formula α → List α
  | .atom a => [a]
  | .const _ => []
  | .and f g => f.atoms ++ g.atoms
  | .or f g => f.atoms ++ g.atoms

def truth : Formula Truth → Truth
  | .atom a => a
  | .const b => if b then .yes else .no
  | .and f g => f.truth.and g.truth
  | .or f g => f.truth.or g.truth

/-- The formula with other atoms, taken from a list in order. -/
def assign : Formula α → List β → Formula β
  | .atom _, [] => .const false
  | .atom _, b :: _ => .atom b
  | .const b, _ => .const b
  | .and f g, bs => .and (f.assign (bs.take f.atoms.length)) (g.assign (bs.drop f.atoms.length))
  | .or f g, bs => .or (f.assign (bs.take f.atoms.length)) (g.assign (bs.drop f.atoms.length))

/-- The formula without its atoms. -/
def shape (f : Formula α) : Formula Unit := f.map fun _ => ()

/-- A junction of one operand is that operand. -/
def all : List (Formula α) → Formula α
  | [] => .const true
  | [f] => f
  | f :: g :: rest => .and f (all (g :: rest))

def any : List (Formula α) → Formula α
  | [] => .const false
  | [f] => f
  | f :: g :: rest => .or f (any (g :: rest))

/-- A conjunction of alternatives. -/
def ofGroups (groups : List (List α)) : Formula α := all (groups.map fun group => any (group.map .atom))

theorem map_all (φ : α → β) (fs : List (Formula α)) : (all fs).map φ = all (fs.map (map φ)) := by
  induction fs using all.induct with
  | case1 => rfl
  | case2 f => rfl
  | case3 f g rest ih => exact congrArg (Formula.and _) ih

theorem map_any (φ : α → β) (fs : List (Formula α)) : (any fs).map φ = any (fs.map (map φ)) := by
  induction fs using any.induct with
  | case1 => rfl
  | case2 f => rfl
  | case3 f g rest ih => exact congrArg (Formula.or _) ih

theorem atoms_all (fs : List (Formula α)) : (all fs).atoms = fs.flatMap atoms := by
  induction fs using all.induct with
  | case1 => rfl
  | case2 f => simp [all]
  | case3 f g rest ih => exact congrArg (f.atoms ++ ·) ih

theorem atoms_any (fs : List (Formula α)) : (any fs).atoms = fs.flatMap atoms := by
  induction fs using any.induct with
  | case1 => rfl
  | case2 f => simp [any]
  | case3 f g rest ih => exact congrArg (f.atoms ++ ·) ih

theorem truth_all {fs : List (Formula Truth)} : (all fs).truth = .yes ↔ ∀ f ∈ fs, f.truth = .yes := by
  induction fs using all.induct with
  | case1 => simp [all, truth]
  | case2 f => simp [all]
  | case3 f g rest ih =>
    rw [all, truth, Truth.and_eq_yes, ih]
    simp

theorem truth_any {fs : List (Formula Truth)} : (any fs).truth = .yes ↔ ∃ f ∈ fs, f.truth = .yes := by
  induction fs using any.induct with
  | case1 => simp [any, truth]
  | case2 f => simp [any]
  | case3 f g rest ih =>
    rw [any, truth, Truth.or_eq_yes, ih]
    simp

theorem atoms_ofGroups (groups : List (List α)) : (ofGroups groups).atoms = groups.flatten := by
  rw [ofGroups, atoms_all, List.flatMap_map]
  simp [atoms_any, List.flatMap_map, atoms]

theorem map_ofGroups (φ : α → β) (groups : List (List α)) :
    (ofGroups groups).map φ = ofGroups (groups.map (·.map φ)) := by
  rw [ofGroups, map_all, ofGroups]
  simp [map_any, Function.comp_def, map]

theorem truth_ofGroups {values : List (List Truth)} :
    (ofGroups values).truth = .yes ↔ ∀ group ∈ values, .yes ∈ group := by
  rw [ofGroups, truth_all, List.forall_mem_map]
  refine forall_congr' fun group => forall_congr' fun _ => ?_
  rw [truth_any]
  constructor
  · rintro ⟨f, hf, htrue⟩
    obtain ⟨a, ha, rfl⟩ := List.mem_map.mp hf
    exact (show a = .yes from htrue) ▸ ha
  · intro h
    exact ⟨.atom .yes, List.mem_map_of_mem h, rfl⟩

theorem length_atoms {f : Formula α} {g : Formula β} (h : f.shape = g.shape) : f.atoms.length = g.atoms.length := by
  have hshape : ∀ {γ : Type} (f : Formula γ), f.shape.atoms.length = f.atoms.length := by
    intro γ f
    induction f with
    | atom a => rfl
    | const b => rfl
    | and f g ihf ihg => simp_all [shape, map, atoms]
    | or f g ihf ihg => simp_all [shape, map, atoms]
  rw [← hshape, h, hshape]

theorem eq_of_shape {f g : Formula α} (hshape : f.shape = g.shape) (hatoms : f.atoms = g.atoms) : f = g := by
  induction f generalizing g with
  | atom a =>
    cases g with
    | atom b => exact congrArg Formula.atom (List.singleton_inj.mp hatoms)
    | _ => cases hshape
  | const b =>
    cases g with
    | const c => exact congrArg Formula.const (Formula.const.inj hshape)
    | _ => cases hshape
  | and f₁ f₂ ih₁ ih₂ =>
    cases g with
    | and g₁ g₂ =>
      obtain ⟨h₁, h₂⟩ := Formula.and.inj hshape
      obtain ⟨ha₁, ha₂⟩ := List.append_inj hatoms (length_atoms h₁)
      rw [ih₁ h₁ ha₁, ih₂ h₂ ha₂]
    | _ => cases hshape
  | or f₁ f₂ ih₁ ih₂ =>
    cases g with
    | or g₁ g₂ =>
      obtain ⟨h₁, h₂⟩ := Formula.or.inj hshape
      obtain ⟨ha₁, ha₂⟩ := List.append_inj hatoms (length_atoms h₁)
      rw [ih₁ h₁ ha₁, ih₂ h₂ ha₂]
    | _ => cases hshape

theorem length_shared {f g : Formula α} {bs : List β} (h : bs.length = (f.atoms ++ g.atoms).length) :
    (bs.take f.atoms.length).length = f.atoms.length ∧ (bs.drop f.atoms.length).length = g.atoms.length := by
  rw [List.length_append] at h
  rw [List.length_take, List.length_drop]
  omega

theorem atoms_assign {f : Formula α} {bs : List β} (h : bs.length = f.atoms.length) : (f.assign bs).atoms = bs := by
  induction f generalizing bs with
  | atom a =>
    obtain ⟨b, rfl⟩ := List.length_eq_one_iff.mp h
    rfl
  | const b => exact (List.eq_nil_of_length_eq_zero h).symm
  | and f g ihf ihg | or f g ihf ihg =>
    obtain ⟨hf, hg⟩ := length_shared h
    rw [assign, atoms, ihf hf, ihg hg, List.take_append_drop]

theorem shape_assign {f : Formula α} {bs : List β} (h : bs.length = f.atoms.length) :
    (f.assign bs).shape = f.shape := by
  induction f generalizing bs with
  | atom a =>
    obtain ⟨b, rfl⟩ := List.length_eq_one_iff.mp h
    rfl
  | const b => rfl
  | and f g ihf ihg | or f g ihf ihg =>
    obtain ⟨hf, hg⟩ := length_shared h
    have hfshape := ihf hf
    have hgshape := ihg hg
    rw [shape] at hfshape hgshape
    rw [assign, shape, map, hfshape, hgshape]
    rfl

/-- The atoms of a conjunction of alternatives go to its groups in order. -/
theorem assign_ofGroups {groups : List (List α)} {values : List (List β)}
    (h : values.map List.length = groups.map List.length) :
    (ofGroups groups).assign values.flatten = ofGroups values := by
  have hlength : values.flatten.length = (ofGroups groups).atoms.length := by
    rw [atoms_ofGroups, List.length_flatten, List.length_flatten, h]
  have hunits : ∀ {γ : Type} (groups : List (List γ)),
      groups.map (·.map fun _ => ()) = (groups.map List.length).map fun n => List.replicate n () := by
    intro γ groups
    rw [List.map_map]
    exact List.map_congr_left fun group _ => List.map_const'
  refine eq_of_shape ?_ ?_
  · rw [shape_assign hlength, shape, shape, map_ofGroups, map_ofGroups, hunits, hunits, h]
  · rw [atoms_assign hlength, atoms_ofGroups]

end Formula

end RulePlan.Sql
