/-
**Tokens of document text.**

The text of a document is a sequence of tokens with blanks between them: the six punctuation marks,
three words, numbers and strings.  A number or a string can be well formed and still denote
nothing — a number beyond the greatest floating-point number, a string with half a surrogate pair.
Its token then carries no value, and whether that matters is decided by who reads the token.

Main definitions:

* `Json.Token` — a token;
* `Json.scanString` — the pieces of a string up to its closing quote;
* `Json.assemble` — the text that the pieces denote;
* `Json.scanNumber` — a number;
* `Json.tokens` — the tokens of a text.
-/

import OfferLayout.Json.Value
import OfferLayout.Number.Scaled

set_option relaxedAutoImplicit false
set_option autoImplicit false

namespace OfferLayout

namespace Json

/-- A token of document text. -/
inductive Token where
  /-- The mark that opens an object. -/
  | openBrace
  /-- The mark that closes an object. -/
  | closeBrace
  /-- The mark that opens an array. -/
  | openBracket
  /-- The mark that closes an array. -/
  | closeBracket
  /-- The mark between elements or members. -/
  | comma
  /-- The mark between a name and its value. -/
  | colon
  /-- The word for null. -/
  | null
  /-- The words for the truth values. -/
  | bool (b : Bool)
  /-- A number, and its value if it has one. -/
  | number (n : Option Number)
  /-- A string, and its text if it has one. -/
  | string (s : Option String)
deriving DecidableEq, Repr

/-! ### Strings -/

/-- A piece of a string: a character, or a unit of 16 bits given by its four digits. -/
inductive Piece where
  /-- A character that stands for itself or is escaped by a letter. -/
  | char (c : Char)
  /-- A unit of 16 bits. -/
  | unit (n : Nat)
deriving DecidableEq, Repr

/-- The character that a letter stands for after a backslash. -/
def unescape? (c : Char) : Option Char :=
  if c = '"' ∨ c = '\\' ∨ c = '/' then some c
  else if c = 'b' then some (Char.ofNat 8)
  else if c = 'f' then some (Char.ofNat 12)
  else if c = 'n' then some '\n'
  else if c = 'r' then some (Char.ofNat 13)
  else if c = 't' then some '\t'
  else none

/-- The pieces of a string up to its closing quote, and the text after that quote. -/
def scanString : List Char → Option (List Piece × List Char)
  | [] => none
  | '\\' :: 'u' :: a :: b :: c :: d :: s =>
      (Text.hexNumber? [a, b, c, d]).bind fun n =>
        (scanString s).map fun r => (.unit n :: r.1, r.2)
  | '\\' :: e :: s =>
      (unescape? e).bind fun c => (scanString s).map fun r => (.char c :: r.1, r.2)
  | c :: s =>
      if c = '"' then some ([], s)
      else if c = '\\' ∨ c.toNat < 32 then none
      else (scanString s).map fun r => (.char c :: r.1, r.2)

/-- Whether a unit is the first half of a surrogate pair. -/
def isHighSurrogate (n : Nat) : Bool := 0xD800 ≤ n && n < 0xDC00

/-- Whether a unit is the second half of a surrogate pair. -/
def isLowSurrogate (n : Nat) : Bool := 0xDC00 ≤ n && n < 0xE000

/-- **The text that pieces denote**: a surrogate pair is one character, and half a pair has no
meaning. -/
def assemble : List Piece → Option (List Char)
  | [] => some []
  | .char c :: rest => (assemble rest).map (c :: ·)
  | .unit hi :: .unit lo :: rest =>
      if isHighSurrogate hi then
        if isLowSurrogate lo then
          (assemble rest).map (Char.ofNat (0x10000 + (hi - 0xD800) * 0x400 + (lo - 0xDC00)) :: ·)
        else none
      else if isLowSurrogate hi then none
      else (assemble (.unit lo :: rest)).map (Char.ofNat hi :: ·)
  | .unit n :: rest =>
      if isHighSurrogate n || isLowSurrogate n then none
      else (assemble rest).map (Char.ofNat n :: ·)

/-- The text of a string token. -/
def stringOfPieces (pieces : List Piece) : Option String := (assemble pieces).map String.ofList

/-! ### Numbers -/

/-- The digits a text starts with, and the rest. -/
def takeDigits (s : List Char) : List Char × List Char :=
  (s.takeWhile Char.isDigit, s.dropWhile Char.isDigit)

/-- The digits of the integer part: a zero alone, or digits that start with another one. -/
def scanWhole : List Char → Option (List Char × List Char)
  | '0' :: s => some (['0'], s)
  | s => if (takeDigits s).1.isEmpty then none else some (takeDigits s)

/-- The digits after the point, if there is a point; then there is at least one digit. -/
def scanFraction : List Char → Option (List Char × List Char)
  | '.' :: s => if (takeDigits s).1.isEmpty then none else some (takeDigits s)
  | s => some ([], s)

/-- The digits of a power of ten, at least one. -/
def scanUnsignedPower (down : Bool) (s : List Char) : Option ((Bool × List Char) × List Char) :=
  if (takeDigits s).1.isEmpty then none else some ((down, (takeDigits s).1), (takeDigits s).2)

/-- The digits of a power of ten after a sign that may stand in front of them. -/
def scanPower : List Char → Option ((Bool × List Char) × List Char)
  | '-' :: s => scanUnsignedPower true s
  | '+' :: s => scanUnsignedPower false s
  | s => scanUnsignedPower false s

/-- The power of ten after an exponent letter, if there is one: its sign and its digits. -/
def scanExponent : List Char → Option (Option (Bool × List Char) × List Char)
  | 'e' :: s => (scanPower s).map fun r => (some r.1, r.2)
  | 'E' :: s => (scanPower s).map fun r => (some r.1, r.2)
  | s => some (none, s)

/-- The value of a text of digits. -/
def digitsValue (s : List Char) : Nat := s.foldl (fun n c => 10 * n + (c.toNat - 48)) 0

/-- The value of a number given by its parts: an integer if it has neither a fraction nor an
exponent, is not the negative zero and fits a word of 64 bits; else the floating-point number of its
digits, if there is one. -/
def numberOf? (negative : Bool) (whole fraction : List Char) (power : Option (Bool × List Char)) :
    Option Number :=
  let n := digitsValue whole
  if fraction.isEmpty ∧ power.isNone ∧
      (if negative then 0 < n ∧ n ≤ 9223372036854775808 else n ≤ maxWord) then
    some (.integer (if negative then -(n : Int) else n))
  else
    let scale : Int :=
      match power with
      | none => 0
      | some (down, s) => if down then -(digitsValue s : Int) else digitsValue s
    (ScaledDigits.ofNumeral whole fraction scale).binary?.map fun x => .real { x with negative }

/-- A number without its sign, and the text after it. -/
def scanUnsigned (negative : Bool) (s : List Char) : Option (Token × List Char) :=
  (scanWhole s).bind fun (whole, s) =>
    (scanFraction s).bind fun (fraction, s) =>
      (scanExponent s).map fun (power, s) => (.number (numberOf? negative whole fraction power), s)

/-- A number, and the text after it. -/
def scanNumber : List Char → Option (Token × List Char)
  | '-' :: s => scanUnsigned true s
  | s => scanUnsigned false s

/-! ### Tokens -/

/-- The token a text starts with, and the text after it. -/
def scanToken : List Char → Option (Token × List Char)
  | '{' :: s => some (.openBrace, s)
  | '}' :: s => some (.closeBrace, s)
  | '[' :: s => some (.openBracket, s)
  | ']' :: s => some (.closeBracket, s)
  | ',' :: s => some (.comma, s)
  | ':' :: s => some (.colon, s)
  | 'n' :: 'u' :: 'l' :: 'l' :: s => some (.null, s)
  | 't' :: 'r' :: 'u' :: 'e' :: s => some (.bool true, s)
  | 'f' :: 'a' :: 'l' :: 's' :: 'e' :: s => some (.bool false, s)
  | '"' :: s => (scanString s).map fun r => (.string (stringOfPieces r.1), r.2)
  | s => scanNumber s

/-- Whether a character may stand between tokens. -/
def isSpace (c : Char) : Bool := c = ' ' || c = '\t' || c = '\n' || c.toNat = 13

/-- **The tokens of a text**, if it is made of tokens and blanks.  Every token takes at least one
character, so a scan that does not shorten the text is none. -/
def tokens (s : List Char) : Option (List Token) :=
  match s.dropWhile isSpace with
  | [] => some []
  | c :: r =>
      match scanToken (c :: r) with
      | none => none
      | some (t, rest) =>
          if rest.length < s.length then (tokens rest).map (t :: ·) else none
termination_by s.length

end Json

end OfferLayout
