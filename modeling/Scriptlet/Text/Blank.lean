/-!
# Blank characters

The characters with the `White_Space` property. A text made only of them carries no source.
This set is larger than the four separators that the scanner skips: a no-break space makes a
text blank when nothing else is there, and is an illegal character otherwise.
-/

namespace Scriptlet.Text

/-- Membership in the `White_Space` property. -/
def isBlank (c : Char) : Bool :=
  let code := c.toNat
  (0x9 ≤ code && code ≤ 0xD) || code == 0x20 || code == 0x85 || code == 0xA0 ||
    code == 0x1680 || (0x2000 ≤ code && code ≤ 0x200A) || code == 0x2028 || code == 0x2029 ||
    code == 0x202F || code == 0x205F || code == 0x3000

/-- A text is blank when all of its characters are; the empty text is blank. -/
def allBlank (text : List Char) : Bool := text.all isBlank

/-- The four separators of the scanner are blank. -/
theorem isBlank_of_isWhitespace {c : Char} (separator : c.isWhitespace = true) :
    isBlank c = true := by
  simp only [Char.isWhitespace, Bool.or_eq_true, decide_eq_true_eq] at separator
  rcases separator with ((rfl | rfl) | rfl) | rfl <;> decide

end Scriptlet.Text
