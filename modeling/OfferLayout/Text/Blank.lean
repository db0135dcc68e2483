/-
**Blank characters and trimming.**

Expressions, operands and event lines are read with the blanks around them ignored.  A blank is a
character with the Unicode property `White_Space`; the table below lists the ranges of that
property.  The zero width space, the byte order mark and the separators U+001C to U+001F do not
have the property and stay.

Main definitions:

* `Text.isBlank` — the property;
* `Text.trimStart`, `Text.trimEnd`, `Text.trim` — a text without the blanks at one or both ends.

Main results:

* `Text.trimStart_eq_self` — a text that starts with no blank loses nothing at its start.
-/

set_option relaxedAutoImplicit false
set_option autoImplicit false

namespace OfferLayout

namespace Text

/-- The ranges of code points with the Unicode property `White_Space`, both ends included. -/
def blankRanges : List (Nat × Nat) :=
  [(0x09, 0x0D), (0x20, 0x20), (0x85, 0x85), (0xA0, 0xA0), (0x1680, 0x1680), (0x2000, 0x200A),
    (0x2028, 0x2029), (0x202F, 0x202F), (0x205F, 0x205F), (0x3000, 0x3000)]

/-- Whether the character has the property `White_Space`. -/
def isBlank (c : Char) : Bool :=
  blankRanges.any fun r => r.1 ≤ c.toNat && c.toNat ≤ r.2

/-- The text without the blanks at its start. -/
def trimStart (s : List Char) : List Char := s.dropWhile isBlank

/-- The text without the blanks at its end. -/
def trimEnd (s : List Char) : List Char := (s.reverse.dropWhile isBlank).reverse

/-- The text without the blanks at both ends. -/
def trim (s : List Char) : List Char := trimEnd (trimStart s)

/-- Whether the text holds nothing but blanks. -/
def isAllBlank (s : List Char) : Bool := s.all isBlank

@[simp] theorem trimStart_nil : trimStart [] = [] := rfl

@[simp] theorem trimEnd_nil : trimEnd [] = [] := rfl

@[simp] theorem trim_nil : trim [] = [] := rfl

/-- A text that starts with no blank loses nothing at its start. -/
theorem trimStart_eq_self {c : Char} {s : List Char} (h : isBlank c = false) :
    trimStart (c :: s) = c :: s := by
  simp [trimStart, h]

/-- A text that ends with no blank loses nothing at its end. -/
theorem trimEnd_eq_self {c : Char} {s : List Char} (h : isBlank c = false) :
    trimEnd (s ++ [c]) = s ++ [c] := by
  simp [trimEnd, h]

end Text

end OfferLayout
