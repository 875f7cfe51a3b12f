/-
  RulePlan.Proofs.Sql.Reading — conditions read as formulas.

  The tokens of a condition are cut at OR and then at AND, so AND binds closer;
  keywords inside parentheses cut nothing. Parentheses count where they enclose a whole
  operand, which is then read in its turn. FALSE by itself is a constant, and any other
  operand is an expression, taken as it stands.

  Proved: operands that no keyword cuts come back from a junction of them
  (`read_disjunction`, `read_conjunction`), and balanced tokens in parentheses are such
  an operand, whatever keywords are in them (`Stands.parenthesised`).
-/

import RulePlan.Proofs.Sql.Formula
import RulePlan.Proofs.Sql.Token

namespace RulePlan.Sql

def keyword (s : String) : Token := .word s.toList

def Token.depthAfter (depth : Nat) : Token → Nat
  | .mark '(' => depth + 1
  | .mark ')' => depth - 1
  | _ => depth

/-- Puts tokens in front of the first part. -/
def prepend (front : List Token) : List (List Token) → List (List Token)
  | [] => [front]
  | part :: parts => (front ++ part) :: parts

/-- The parts between the keywords that stand outside parentheses; `depth` are open already. -/
def cutAt (k : Token) : Nat → List Token → List (List Token)
  | _, [] => [[]]
  | depth, t :: r => if depth = 0 ∧ t = k then [] :: cutAt k 0 r else prepend [t] (cutAt k (t.depthAfter depth) r)

/-- The tokens before the parenthesis that closes one more than `depth`, if it is the last token. -/
def inner? : Nat → List Token → Option (List Token)
  | _, [] => none
  | depth, t :: r =>
    if depth = 0 ∧ t = .mark ')' then (if r = [] then some [] else none)
    else (inner? (t.depthAfter depth) r).map (t :: ·)

/-- What parentheses enclose that begin with the first token and end with the last. -/
def enclosed? : List Token → Option (List Token)
  | .mark '(' :: r => inner? 0 r
  | _ => none

/-! ## What is cut and enclosed is shorter -/

theorem length_le_of_mem_prepend {front part : List Token} {parts : List (List Token)} {n : Nat}
    (h : part ∈ prepend front parts) (hparts : ∀ q ∈ parts, q.length ≤ n) : part.length ≤ front.length + n := by
  cases parts with
  | nil =>
    rw [List.mem_singleton.mp h]
    omega
  | cons first rest =>
    rcases List.mem_cons.mp h with rfl | h
    · rw [List.length_append]
      have := hparts first List.mem_cons_self
      omega
    · have := hparts part (List.mem_cons_of_mem _ h)
      omega

theorem length_le_of_mem_cutAt {k : Token} {ts part : List Token} {depth : Nat} (h : part ∈ cutAt k depth ts) :
    part.length ≤ ts.length := by
  induction ts generalizing depth part with
  | nil =>
    obtain rfl := List.mem_singleton.mp h
    exact Nat.le_refl _
  | cons t r ih =>
    rw [cutAt] at h
    split at h
    · rcases List.mem_cons.mp h with rfl | h
      · exact Nat.zero_le _
      · exact Nat.le_succ_of_le (ih h)
    · have hle := length_le_of_mem_prepend h fun q hq => ih hq
      simpa [Nat.add_comm] using hle

theorem length_lt_of_inner? {ts inner : List Token} {depth : Nat} (h : inner? depth ts = some inner) :
    inner.length < ts.length := by
  induction ts generalizing depth inner with
  | nil => cases h
  | cons t r ih =>
    rw [inner?] at h
    split at h
    · split at h
      · cases h
        exact Nat.succ_pos _
      · cases h
    · obtain ⟨rest, hrest, rfl⟩ := Option.map_eq_some_iff.mp h
      exact Nat.succ_lt_succ (ih hrest)

theorem length_lt_of_enclosed? {ts inner : List Token} (h : enclosed? ts = some inner) : inner.length < ts.length := by
  unfold enclosed? at h
  split at h
  · exact Nat.lt_succ_of_lt (length_lt_of_inner? h)
  · cases h

/-! ## Reading -/

/-- The formula of a condition over its expressions. -/
def read (ts : List Token) : Formula (List Token) :=
  .any ((cutAt (keyword "OR") 0 ts).attach.map fun alternative =>
    .all ((cutAt (keyword "AND") 0 alternative.1).attach.map fun operand =>
      match _h : enclosed? operand.1 with
      | some inner => read inner
      | none => if operand.1 = [keyword "FALSE"] then .const false else .atom operand.1))
termination_by ts.length
decreasing_by
  have h₁ := length_lt_of_enclosed? _h
  have h₂ := length_le_of_mem_cutAt operand.2
  have h₃ := length_le_of_mem_cutAt alternative.2
  omega

/-- An operand of a junction. -/
def readOperand (ts : List Token) : Formula (List Token) :=
  match enclosed? ts with
  | some inner => read inner
  | none => if ts = [keyword "FALSE"] then .const false else .atom ts

theorem read_eq (ts : List Token) :
    read ts = .any ((cutAt (keyword "OR") 0 ts).map fun alternative =>
      .all ((cutAt (keyword "AND") 0 alternative).map readOperand)) := by
  have hoperand : ∀ ts, (match _h : enclosed? ts with
      | some inner => read inner
      | none => if ts = [keyword "FALSE"] then .const false else .atom ts) = readOperand ts := by
    intro ts
    unfold readOperand
    split <;> simp_all
  rw [read]
  simp only [hoperand]
  simp only [List.map_attach_eq_pmap, List.pmap_eq_map]

/-! ## Balanced tokens -/

/-- Every parenthesis has its other one. -/
inductive Balanced : List Token → Prop where
  | nil : Balanced []
  | token {t : Token} {r : List Token} (hopen : t ≠ .mark '(') (hclose : t ≠ .mark ')') (hr : Balanced r) :
    Balanced (t :: r)
  | group {a r : List Token} (ha : Balanced a) (hr : Balanced r) : Balanced (.mark '(' :: a ++ .mark ')' :: r)

theorem balanced_keyword (s : String) : Balanced [keyword s] := .token (by simp [keyword]) (by simp [keyword]) .nil

theorem Balanced.append {a b : List Token} (ha : Balanced a) (hb : Balanced b) : Balanced (a ++ b) := by
  induction ha with
  | nil => exact hb
  | token hopen hclose hr ih => exact .token hopen hclose ih
  | group ha hr iha ihr =>
    rw [List.append_assoc]
    exact .group ha ihr

def parens (ts : List Token) : List Token := .mark '(' :: ts ++ [.mark ')']

theorem Balanced.parens {a : List Token} (ha : Balanced a) : Balanced (parens a) := .group ha .nil

theorem depthAfter_of_ne {t : Token} (hopen : t ≠ .mark '(') (hclose : t ≠ .mark ')') (depth : Nat) :
    t.depthAfter depth = depth := by
  unfold Token.depthAfter
  split
  · exact absurd rfl hopen
  · exact absurd rfl hclose
  · rfl

/-! ## Cutting at keywords -/

variable {k : Token} {a b ts : List Token} {depth : Nat}

theorem cutAt_ne_nil (k : Token) (depth : Nat) (ts : List Token) : cutAt k depth ts ≠ [] := by
  cases ts with
  | nil => exact List.cons_ne_nil _ _
  | cons t r =>
    rw [cutAt]
    split
    · exact List.cons_ne_nil _ _
    · cases cutAt k (t.depthAfter depth) r <;> exact List.cons_ne_nil _ _

theorem prepend_prepend (a b : List Token) (parts : List (List Token)) :
    prepend a (prepend b parts) = prepend (a ++ b) parts := by
  cases parts <;> simp [prepend]

theorem prepend_nil {parts : List (List Token)} (h : parts ≠ []) : prepend [] parts = parts := by
  cases parts with
  | nil => exact absurd rfl h
  | cons part rest => rfl

theorem cutAt_cons {t : Token} (h : depth ≠ 0 ∨ t ≠ k) (ts : List Token) :
    cutAt k depth (t :: ts) = prepend [t] (cutAt k (t.depthAfter depth) ts) := by
  rw [cutAt, if_neg fun hk => h.elim (absurd hk.1) (absurd hk.2)]

/-- Nothing is cut inside parentheses. -/
theorem cutAt_inside (ha : Balanced a) (depth : Nat) (b : List Token) :
    cutAt k (depth + 1) (a ++ b) = prepend a (cutAt k (depth + 1) b) := by
  -- The depth is free, since a group inside is read one level deeper and left again.
  induction ha generalizing depth b with
  | nil => rw [List.nil_append, prepend_nil (cutAt_ne_nil _ _ _)]
  | token hopen hclose hr ih =>
    rw [List.cons_append, cutAt_cons (.inl (Nat.succ_ne_zero _)), depthAfter_of_ne hopen hclose, ih, prepend_prepend]
    rfl
  | @group a r ha hr iha ihr =>
    have hopen : (Token.mark '(').depthAfter (depth + 1) = depth + 2 := rfl
    have hclose : (Token.mark ')').depthAfter (depth + 2) = depth + 1 := rfl
    rw [List.append_assoc, List.cons_append, List.cons_append, cutAt_cons (.inl (Nat.succ_ne_zero _)), hopen, iha,
      cutAt_cons (.inl (Nat.succ_ne_zero _)), hclose, ihr, prepend_prepend, prepend_prepend, prepend_prepend]
    simp

/-- The keyword cuts these tokens nowhere. -/
def Uncut (k : Token) (a : List Token) : Prop := ∀ b, cutAt k 0 (a ++ b) = prepend a (cutAt k 0 b)

theorem uncut_nil (k : Token) : Uncut k [] := fun _ => (prepend_nil (cutAt_ne_nil _ _ _)).symm

theorem Uncut.append (ha : Uncut k a) (hb : Uncut k b) : Uncut k (a ++ b) := fun c => by
  rw [List.append_assoc, ha, hb, prepend_prepend]

theorem Uncut.single (h : Uncut k a) : cutAt k 0 a = [a] := by
  have hcut := h []
  rw [List.append_nil] at hcut
  rw [hcut]
  simp [cutAt, prepend]

theorem uncut_parens (ha : Balanced a) (hk : k ≠ .mark '(') : Uncut k (parens a) := fun b => by
  have hopen : (Token.mark '(').depthAfter 0 = 1 := rfl
  have hclose : (Token.mark ')').depthAfter 1 = 0 := rfl
  rw [parens, List.append_assoc, List.cons_append, cutAt_cons (.inr (Ne.symm hk)), hopen, cutAt_inside ha,
    List.cons_append, cutAt_cons (.inl Nat.one_ne_zero), hclose, List.nil_append, prepend_prepend, prepend_prepend]
  simp

theorem uncut_of_balanced (ha : Balanced a) (hk : k ≠ .mark '(') (hno : k ∉ a) : Uncut k a := by
  induction ha with
  | nil => exact uncut_nil k
  | token hopen hclose hr ih =>
    intro b
    rw [List.mem_cons, not_or] at hno
    rw [List.cons_append, cutAt_cons (.inr (Ne.symm hno.1)), depthAfter_of_ne hopen hclose, ih hno.2, prepend_prepend]
    rfl
  | @group a r ha hr iha ihr =>
    have hr : k ∉ r := fun hmem => hno (List.mem_append_right _ (List.mem_cons_of_mem _ hmem))
    have hsplit : Token.mark '(' :: a ++ .mark ')' :: r = parens a ++ r := by simp [parens]
    rw [hsplit]
    exact (uncut_parens ha hk).append (ihr hr)

/-! ## Junctions -/

variable {xs : List (List Token)}

theorem cutAt_intercalate (hne : xs ≠ []) (h : ∀ x ∈ xs, Uncut k x) : cutAt k 0 ([k].intercalate xs) = xs := by
  induction xs with
  | nil => exact absurd rfl hne
  | cons x rest ih =>
    have hx := h x List.mem_cons_self
    cases rest with
    | nil =>
      rw [List.intercalate_singleton]
      exact hx.single
    | cons y rest =>
      have hrest := ih (List.cons_ne_nil _ _) fun z hz => h z (List.mem_cons_of_mem _ hz)
      rw [List.intercalate_cons_cons, List.append_assoc, hx, List.singleton_append, cutAt, if_pos ⟨rfl, rfl⟩, hrest]
      simp [prepend]

/-- What holds of tokens and of any tokens that are made of such ones holds of a junction. -/
theorem forall_intercalate {P : List Token → Prop} (hnil : P []) (happend : ∀ {a b}, P a → P b → P (a ++ b))
    {separator : List Token} (hs : P separator) (h : ∀ x ∈ xs, P x) : P (separator.intercalate xs) := by
  induction xs with
  | nil => exact hnil
  | cons x rest ih =>
    have hx := h x List.mem_cons_self
    cases rest with
    | nil =>
      rw [List.intercalate_singleton]
      exact hx
    | cons y rest =>
      rw [List.intercalate_cons_cons]
      exact happend (happend hx hs) (ih fun z hz => h z (List.mem_cons_of_mem _ hz))

theorem inner?_append (ha : Balanced a) (depth : Nat) (b : List Token) :
    inner? depth (a ++ b) = (inner? depth b).map (a ++ ·) := by
  induction ha generalizing depth b with
  | nil => simp
  | token hopen hclose hr ih =>
    rw [List.cons_append, inner?, if_neg fun h => hclose h.2, depthAfter_of_ne hopen hclose, ih, Option.map_map]
    rfl
  | @group a r ha hr iha ihr =>
    have hopen : (Token.mark '(').depthAfter depth = depth + 1 := rfl
    have hclose : (Token.mark ')').depthAfter (depth + 1) = depth := rfl
    rw [List.append_assoc, List.cons_append, List.cons_append, inner?, if_neg (by simp), hopen, iha, inner?,
      if_neg (by simp), hclose, ihr, Option.map_map, Option.map_map, Option.map_map]
    simp [Function.comp_def]

theorem enclosed?_parens (ha : Balanced a) : enclosed? (parens a) = some a := by
  show inner? 0 (a ++ [.mark ')']) = some a
  rw [inner?_append ha]
  simp [inner?]

/-- Tokens that are one operand of any junction, with the formula that they are read as. -/
structure Stands (x : List Token) (f : Formula (List Token)) : Prop where
  balanced : Balanced x
  uncut_or : Uncut (keyword "OR") x
  uncut_and : Uncut (keyword "AND") x
  read_eq : readOperand x = f

theorem Stands.read (h : Stands a f) : read a = f := by
  rw [Sql.read_eq, h.uncut_or.single, List.map_singleton, h.uncut_and.single, List.map_singleton, h.read_eq]
  rfl

theorem Stands.parenthesised (ha : Balanced a) : Stands (parens a) (Sql.read a) where
  balanced := ha.parens
  uncut_or := uncut_parens ha (by decide)
  uncut_and := uncut_parens ha (by decide)
  read_eq := by rw [readOperand, enclosed?_parens ha]

theorem stands_false : Stands [keyword "FALSE"] (.const false) where
  balanced := balanced_keyword _
  uncut_or := uncut_of_balanced (balanced_keyword _) (by decide) (by decide)
  uncut_and := uncut_of_balanced (balanced_keyword _) (by decide) (by decide)
  read_eq := rfl

variable {α : Type} {x : α → List Token} {f : α → Formula (List Token)}

theorem read_disjunction {items : List α} (hne : items ≠ []) (h : ∀ i ∈ items, Stands (x i) (f i)) :
    read ([keyword "OR"].intercalate (items.map x)) = .any (items.map f) := by
  have huncut : ∀ y ∈ items.map x, Uncut (keyword "OR") y := List.forall_mem_map.mpr fun i hi => (h i hi).uncut_or
  rw [read_eq, cutAt_intercalate (by simpa using hne) huncut, List.map_map]
  refine congrArg Formula.any (List.map_congr_left fun i hi => ?_)
  rw [Function.comp_apply, (h i hi).uncut_and.single, List.map_singleton, (h i hi).read_eq]
  rfl

theorem read_conjunction {items : List α} (hne : items ≠ []) (h : ∀ i ∈ items, Stands (x i) (f i)) :
    read ([keyword "AND"].intercalate (items.map x)) = .all (items.map f) := by
  have huncut : ∀ y ∈ items.map x, Uncut (keyword "AND") y := List.forall_mem_map.mpr fun i hi => (h i hi).uncut_and
  have hwhole : Uncut (keyword "OR") ([keyword "AND"].intercalate (items.map x)) :=
    forall_intercalate (uncut_nil _) .append (uncut_of_balanced (balanced_keyword _) (by decide) (by decide))
      (List.forall_mem_map.mpr fun i hi => (h i hi).uncut_or)
  rw [read_eq, hwhole.single, List.map_singleton, cutAt_intercalate (by simpa using hne) huncut, List.map_map]
  refine congrArg Formula.all (List.map_congr_left fun i hi => ?_)
  exact (h i hi).read_eq

end RulePlan.Sql
