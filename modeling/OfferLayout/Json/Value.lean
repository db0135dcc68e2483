/-
**Documents.**

A document is built from null, truth values, numbers, strings, arrays and objects.  The members of
an object stand in a fixed order; the *canonical* form of a document has them by increasing name,
with the last of several members of one name.

Main definitions:

* `Json.Number` — an integer or a floating-point number;
* `Json.Value` — a document;
* `Json.Value.canonical` — its canonical form;
* `Json.Value.get?` and its companions — looking into a document;
* `Json.Value.text`, `Json.Value.pretty` — the compact and the indented spelling.
-/

import OfferLayout.Dict
import OfferLayout.Number.Shortest

set_option relaxedAutoImplicit false
set_option autoImplicit false

namespace OfferLayout

namespace Json

/-- A number of a document.  Integers between -2⁶³ and 2⁶⁴ are kept exactly; every other number is
the nearest floating-point number of 64 bits. -/
inductive Number where
  /-- An integer. -/
  | integer (n : Int)
  /-- A floating-point number. -/
  | real (x : Binary)
deriving DecidableEq, Repr

/-- The spelling of a number: an integer in decimal, any other number by its shortest digits. -/
def Number.text : Number → String
  | .integer n => Text.integer n
  | .real x => String.ofList x.text

/-- A document. -/
inductive Value where
  /-- Null. -/
  | null
  /-- A truth value. -/
  | bool (b : Bool)
  /-- A number. -/
  | number (n : Number)
  /-- A string. -/
  | string (s : String)
  /-- An array. -/
  | array (items : List Value)
  /-- An object, with its members in order. -/
  | object (members : List (String × Value))

instance : Inhabited Value := ⟨.null⟩

/-- The number with the given integer value. -/
def Value.ofInt (n : Int) : Value := .number (.integer n)

/-- The integer of a natural number. -/
def Value.ofNat (n : Nat) : Value := .number (.integer n)

namespace Value

/-! ### Looking into a document -/

/-- The text of a string. -/
def string? : Value → Option String
  | .string s => some s
  | _ => none

/-- The truth value. -/
def bool? : Value → Option Bool
  | .bool b => some b
  | _ => none

/-- The number. -/
def number? : Value → Option Number
  | .number n => some n
  | _ => none

/-- The integer; a number with a point or an exponent is none. -/
def integer? : Value → Option Int
  | .number (.integer n) => some n
  | _ => none

/-- The elements of an array. -/
def items? : Value → Option (List Value)
  | .array items => some items
  | _ => none

/-- The member of an object with the given name; a document of another kind has none. -/
def get? : Value → String → Option Value
  | .object members, name => members.lookup name
  | _, _ => none

@[simp] theorem get?_object (members : List (String × Value)) (name : String) :
    (Value.object members).get? name = members.lookup name := rfl

/-! ### The canonical form -/

mutual

/-- The document with the members of every object by increasing name, the last one of each name. -/
def canonical : Value → Value
  | .array items => .array (canonicalItems items)
  | .object members => .object (Dict.ofList (canonicalMembers members)).entries
  | v => v

/-- The canonical forms of the elements of an array. -/
def canonicalItems : List Value → List Value
  | [] => []
  | v :: rest => canonical v :: canonicalItems rest

/-- The members of an object with the canonical forms of their values. -/
def canonicalMembers : List (String × Value) → List (String × Value)
  | [] => []
  | (name, v) :: rest => (name, canonical v) :: canonicalMembers rest

end

/-! ### Spelling -/

/-- The digit character of a number below sixteen. -/
def hexDigit (n : Nat) : Char := if n < 10 then Char.ofNat (48 + n) else Char.ofNat (87 + n)

/-- The spelling of a character within a string: a quote, a backslash and the control characters
are escaped, every other character stands for itself. -/
def escape (c : Char) : List Char :=
  if c = '"' then ['\\', '"']
  else if c = '\\' then ['\\', '\\']
  else if c.toNat = 8 then ['\\', 'b']
  else if c.toNat = 9 then ['\\', 't']
  else if c.toNat = 10 then ['\\', 'n']
  else if c.toNat = 12 then ['\\', 'f']
  else if c.toNat = 13 then ['\\', 'r']
  else if c.toNat < 32 then ['\\', 'u', '0', '0', hexDigit (c.toNat / 16), hexDigit (c.toNat % 16)]
  else [c]

/-- A string in quotes. -/
def quoted (s : String) : List Char := '"' :: s.toList.flatMap escape ++ ['"']

mutual

/-- The compact spelling of a document, without any blanks. -/
def chars : Value → List Char
  | .null => ['n', 'u', 'l', 'l']
  | .bool true => ['t', 'r', 'u', 'e']
  | .bool false => ['f', 'a', 'l', 's', 'e']
  | .number n => n.text.toList
  | .string s => quoted s
  | .array items => '[' :: charsItems items ++ [']']
  | .object members => '{' :: charsMembers members ++ ['}']

/-- The compact spelling of the elements of an array, with commas between them. -/
def charsItems : List Value → List Char
  | [] => []
  | [v] => chars v
  | v :: rest => chars v ++ ',' :: charsItems rest

/-- The compact spelling of the members of an object, with commas between them. -/
def charsMembers : List (String × Value) → List Char
  | [] => []
  | [(name, v)] => quoted name ++ ':' :: chars v
  | (name, v) :: rest => quoted name ++ ':' :: (chars v ++ ',' :: charsMembers rest)

end

/-- **The compact spelling of a document.** -/
def text (v : Value) : String := String.ofList v.chars

/-- A new line with two blanks for every level. -/
def newLine (level : Nat) : List Char := '\n' :: List.replicate (2 * level) ' '

mutual

/-- The indented spelling of a document that stands at the given level. -/
def prettyChars (level : Nat) : Value → List Char
  | .array [] => ['[', ']']
  | .object [] => ['{', '}']
  | .array items => '[' :: prettyItems (level + 1) items ++ newLine level ++ [']']
  | .object members => '{' :: prettyMembers (level + 1) members ++ newLine level ++ ['}']
  | .null => ['n', 'u', 'l', 'l']
  | .bool true => ['t', 'r', 'u', 'e']
  | .bool false => ['f', 'a', 'l', 's', 'e']
  | .number n => n.text.toList
  | .string s => quoted s

/-- The indented spelling of the elements of an array, one on a line. -/
def prettyItems (level : Nat) : List Value → List Char
  | [] => []
  | [v] => newLine level ++ prettyChars level v
  | v :: rest => newLine level ++ prettyChars level v ++ ',' :: prettyItems level rest

/-- The indented spelling of the members of an object, one on a line. -/
def prettyMembers (level : Nat) : List (String × Value) → List Char
  | [] => []
  | [(name, v)] => newLine level ++ quoted name ++ ':' :: ' ' :: prettyChars level v
  | (name, v) :: rest =>
      newLine level ++ quoted name ++ ':' :: ' ' :: prettyChars level v ++
        ',' :: prettyMembers level rest

end

/-- **The indented spelling of a document**, one element or member on a line. -/
def pretty (v : Value) : String := String.ofList (v.prettyChars 0)

end Value

end Json

end OfferLayout
