/-
  RulePlan.Console.Line — a line of input as it is read.

  A line loses the carriage return at its end, and its backspaces are carried out: each
  takes away the cluster before it. What a backspace removes is counted in bytes, and
  the count of a cluster is one byte wide, so after a cluster of 256 bytes and more it
  removes less, and it fails where that would cut a character in two. A line without
  backspaces is read as it is (`applyBackspaces?_of_not_mem`).
-/

import RulePlan.Text.Cluster

namespace RulePlan.Console

/-- A line while its backspaces are carried out. -/
structure Edited where
  /-- The last character first. -/
  text : List Char := []
  /-- The size noted for each cluster that a backspace can still reach, the last first. -/
  sizes : List Nat := []

def utf8Size (s : List Char) : Nat := s.foldr (fun c n => c.utf8Size + n) 0

/-- A text, the last character first, without the bytes at its end; it is never cut inside a
    character. -/
def dropBytes? : Nat → List Char → Option (List Char)
  | 0, s => some s
  | _, [] => none
  | n, c :: rest => if c.utf8Size ≤ n then dropBytes? (n - c.utf8Size) rest else none

/-- The size of a cluster is noted in one byte, so larger ones lose a multiple of 256. -/
def Edited.push (e : Edited) (cluster : List Char) : Edited :=
  ⟨cluster.reverse ++ e.text, utf8Size cluster % 256 :: e.sizes⟩

/-- Takes away as many bytes as are noted for the last cluster. -/
def Edited.backspace? (e : Edited) : Option Edited :=
  match e.sizes with
  | [] => some e
  | size :: rest => (dropBytes? size e.text).map (⟨·, rest⟩)

def Edited.step (e : Edited) (cluster : List Char) : Option Edited :=
  if cluster = ['\x08'] then e.backspace? else some (e.push cluster)

/-- A line with its backspaces carried out; none if one of them would cut a character in two. -/
def applyBackspaces? (s : List Char) : Option (List Char) :=
  ((Text.clusters s).foldlM Edited.step {}).map (·.text.reverse)

/-- A line as it is read: without the carriage return at its end. -/
def lineText? (line : List Char) : Option (List Char) :=
  applyBackspaces? (if line.getLast? = some '\r' then line.dropLast else line)

theorem foldlM_step_of_no_backspace {cs : List (List Char)} (h : ∀ c ∈ cs, c ≠ ['\x08']) (e : Edited) :
    ∃ done, cs.foldlM Edited.step e = some done ∧ done.text = cs.flatten.reverse ++ e.text := by
  induction cs generalizing e with
  | nil => exact ⟨e, rfl, rfl⟩
  | cons c rest ih =>
    obtain ⟨done, hd, ht⟩ := ih (fun x hx => h x (List.mem_cons_of_mem _ hx)) (e.push c)
    refine ⟨done, ?_, ?_⟩
    · have hs : e.step c = some (e.push c) := if_neg (h c List.mem_cons_self)
      simp [hs, hd]
    · simp [ht, Edited.push]

theorem applyBackspaces?_of_not_mem {s : List Char} (h : '\x08' ∉ s) : applyBackspaces? s = some s := by
  have hc : ∀ c ∈ Text.clusters s, c ≠ ['\x08'] := by
    intro c hc e
    apply h
    rw [← Text.flatten_clusters s]
    exact List.mem_flatten.mpr ⟨c, hc, by simp [e]⟩
  obtain ⟨done, hd, ht⟩ := foldlM_step_of_no_backspace hc {}
  simp [applyBackspaces?, hd, ht, Text.flatten_clusters]

end RulePlan.Console
