/-
  RulePlan.Text.Blank — blank characters and trimming.

  A character is blank when it has the Unicode property White_Space: 25 code points
  in ten ranges. `strip` removes the blanks at both ends of a text and keeps those
  inside; a text is blank when nothing is left of it.
-/

namespace RulePlan.Text

/-- The code points with the property White_Space, as inclusive ranges. -/
def blankRanges : List (Nat × Nat) :=
  [(0x09, 0x0D), (0x20, 0x20), (0x85, 0x85), (0xA0, 0xA0), (0x1680, 0x1680), (0x2000, 0x200A),
   (0x2028, 0x2029), (0x202F, 0x202F), (0x205F, 0x205F), (0x3000, 0x3000)]

def isBlank (c : Char) : Bool :=
  blankRanges.any fun r => r.1 ≤ c.toNat && c.toNat ≤ r.2

/-- The text without the blanks at its ends. -/
def strip (s : List Char) : List Char :=
  ((s.dropWhile isBlank).reverse.dropWhile isBlank).reverse

def trim (s : String) : String := String.ofList (strip s.toList)

/-- A text of blanks only, the empty one among them. -/
def allBlank (s : String) : Bool := s.toList.all isBlank

theorem strip_nil : strip [] = [] := rfl

theorem strip_of_all_blank {s : List Char} (h : s.all isBlank) : strip s = [] := by
  have hd : s.dropWhile isBlank = [] := by
    induction s with
    | nil => rfl
    | cons c r ih =>
      simp only [List.all_cons, Bool.and_eq_true] at h
      simp [h.1, ih h.2]
  simp [strip, hd]

end RulePlan.Text
