/-!
# Blank text

A text is blank when it holds white space only. White space is the Unicode property
White_Space: 25 characters, the no-break and the ideographic space among them, the zero-width
space and the byte order mark not.
-/

namespace Rollout.Text

/-- The characters with the property White_Space. -/
def isBlankChar (c : Char) : Bool :=
  let n := c.toNat
  (9 ≤ n && n ≤ 13) || n == 0x20 || n == 0x85 || n == 0xA0 || n == 0x1680 ||
    (0x2000 ≤ n && n ≤ 0x200A) || n == 0x2028 || n == 0x2029 || n == 0x202F || n == 0x205F ||
    n == 0x3000

theorem isBlankChar_of_isWhitespace {c : Char} (h : c.isWhitespace = true) :
    isBlankChar c = true := by
  simp only [Char.isWhitespace, Bool.or_eq_true, decide_eq_true_eq] at h
  rcases h with ((rfl | rfl) | rfl) | rfl <;> decide

def trimStart (cs : List Char) : List Char := cs.dropWhile isBlankChar

def trimEnd (cs : List Char) : List Char := (cs.reverse.dropWhile isBlankChar).reverse

/-- The text without the white space at its two ends. -/
def trim (s : String) : String := String.ofList (trimEnd (trimStart s.toList))

def isBlank (s : String) : Bool := s.toList.all isBlankChar

/-- The text itself, untrimmed, unless it is blank. -/
def nonBlank? (s : String) : Option String := if isBlank s then none else some s

theorem nonBlank?_eq_some_iff {s t : String} :
    nonBlank? s = some t ↔ isBlank s = false ∧ t = s := by
  unfold nonBlank?
  cases h : isBlank s <;> simp [eq_comm]

end Rollout.Text
