/-
**Values of a settings text.**

A settings text is written in TOML.  A value is a text, a number, a truth value, a date or time, an
array or a table.

Main definitions:

* `Toml.Value` — a value;
* `Toml.isBlank`, `Toml.skipBlanks` — the blanks within a line;
* `Toml.isPlain` — the characters that may stand in comments and strings;
* `Toml.lineEnd?`, `Toml.skipLines` — the end of a line, and what separates the parts of an array.
-/

import OfferLayout.Number.Binary

set_option relaxedAutoImplicit false
set_option autoImplicit false

namespace OfferLayout

namespace Toml

/-- A value of a settings text. -/
inductive Value where
  /-- A text. -/
  | text (s : String)
  /-- An integer. -/
  | integer (n : Int)
  /-- A floating-point number, and its value if it is finite. -/
  | float (x : Option Binary)
  /-- A truth value. -/
  | bool (b : Bool)
  /-- A date, a time or both, as they are written. -/
  | dateTime (s : String)
  /-- An array. -/
  | array (items : List Value)
  /-- A table. -/
  | table (members : List (String × Value))

instance : Inhabited Value := ⟨.bool false⟩

/-! ### Lines and what separates values -/

/-- Whether a character is a blank within a line. -/
def isBlank (c : Char) : Bool := c = ' ' || c = '\t'

/-- The text after the blanks it starts with. -/
def skipBlanks (s : List Char) : List Char := s.dropWhile isBlank

/-- Whether a character may stand for itself in comments and strings: control characters other than
the tab may not. -/
def isPlain (c : Char) : Bool := c = '\t' || (32 ≤ c.toNat && c.toNat ≠ 127)

/-- The text after the comment it starts with, if it starts with one. -/
def skipComment : List Char → List Char
  | '#' :: s => s.dropWhile isPlain
  | s => s

/-- The text after the end of a line, if nothing but blanks and a comment come before it. -/
def lineEnd? (s : List Char) : Option (List Char) :=
  match skipComment (skipBlanks s) with
  | [] => some []
  | '\n' :: r => some r
  | '\r' :: '\n' :: r => some r
  | _ => none

theorem length_dropWhile_le (p : Char → Bool) (s : List Char) :
    (s.dropWhile p).length ≤ s.length := (List.dropWhile_suffix p).length_le

/-- The text after the blanks, comments and line ends it starts with. -/
def skipLines : List Char → List Char
  | [] => []
  | c :: s =>
      if isBlank c ∨ c = '\n' then skipLines s
      else if c = '#' then skipLines (s.dropWhile isPlain)
      else if c = '\r' ∧ s.head? = some '\n' then skipLines s
      else c :: s
termination_by s => s.length
decreasing_by
  · simp
  · have := length_dropWhile_le isPlain s
    simp only [List.length_cons]
    omega
  · simp

end Toml

end OfferLayout
