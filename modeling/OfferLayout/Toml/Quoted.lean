/-
**Quoted texts of a settings text.**

A text stands in double quotes, with escapes, or in single quotes, without.  Three quotes of a kind
open a text that may span lines; there a line end right after the opening quotes is dropped, and up
to two quotes may stand before the closing ones.

Main definitions:

* `Toml.escaped?` — the character that an escape stands for;
* `Toml.lineText?`, `Toml.spanText?` — a text up to its closing quotes;
* `Toml.closing?` — the closing quotes of a text that may span lines;
* `Toml.quoted?` — **a quoted text**.
-/

import OfferLayout.Toml.Value
import OfferLayout.Text.Numeral

set_option relaxedAutoImplicit false
set_option autoImplicit false

namespace OfferLayout

namespace Toml

/-! ### Escapes -/

/-- The character with a given code point, if there is one. -/
def character? (n : Nat) : Option Char :=
  if n < 0xD800 ∨ (0xDFFF < n ∧ n < 0x110000) then some (Char.ofNat n) else none

/-- The character given by the first `count` hexadecimal digits of a text, and the text after
them. -/
def escapedPoint? (count : Nat) (s : List Char) : Option (Char × List Char) :=
  if (s.take count).length = count then
    ((Text.hexNumber? (s.take count)).bind character?).map fun c => (c, s.drop count)
  else none

/-- The character that the text after a backslash stands for, and the text after that. -/
def escaped? : List Char → Option (Char × List Char)
  | 'b' :: s => some (Char.ofNat 8, s)
  | 't' :: s => some ('\t', s)
  | 'n' :: s => some ('\n', s)
  | 'f' :: s => some (Char.ofNat 12, s)
  | 'r' :: s => some (Char.ofNat 13, s)
  | '"' :: s => some ('"', s)
  | '\\' :: s => some ('\\', s)
  | 'u' :: s => escapedPoint? 4 s
  | 'U' :: s => escapedPoint? 8 s
  | _ => none

/-! ### Within a line -/

/-- A text up to its closing quote, and what follows that quote.  Only double quotes admit
escapes. -/
def lineText? (quote : Char) (s : List Char) : Option (List Char × List Char) :=
  match s with
  | [] => none
  | c :: r =>
      if c = quote then some ([], r)
      else if c = '\\' ∧ quote = '"' then
        match escaped? r with
        | none => none
        | some (d, rest) =>
            if rest.length < r.length then
              (lineText? quote rest).map fun t => (d :: t.1, t.2)
            else none
      else if isPlain c then (lineText? quote r).map fun t => (c :: t.1, t.2)
      else none
termination_by s.length

/-! ### Over lines -/

/-- The quotes with which a text that may span lines is closed: the last three of a run of at most
five.  The others belong to the text. -/
def closing? (quote : Char) (s : List Char) : Option (List Char × List Char) :=
  let n := min 5 (s.takeWhile (· = quote)).length
  if 3 ≤ n then some (List.replicate (n - 3) quote, s.drop n) else none

/-- The text after a line end, if it starts with one. -/
def afterLineEnd? : List Char → Option (List Char)
  | '\n' :: s => some s
  | '\r' :: '\n' :: s => some s
  | _ => none

/-- The text after the blanks and line ends it starts with. -/
def skipBlankLines : List Char → List Char
  | [] => []
  | c :: s =>
      if isBlank c ∨ c = '\n' ∨ (c = '\r' ∧ s.head? = some '\n') then skipBlankLines s else c :: s

/-- A text over lines up to its closing quotes, and what follows them.  A line end counts as one
character however it is written, and in double quotes a backslash at the end of a line joins the
line to what stands next after it. -/
def spanText? (quote : Char) (s : List Char) : Option (List Char × List Char) :=
  match s with
  | [] => none
  | c :: r =>
      if c = quote then
        match closing? quote s with
        | some t => some t
        | none => (spanText? quote r).map fun t => (c :: t.1, t.2)
      else if c = '\\' ∧ quote = '"' then
        match afterLineEnd? (skipBlanks r) with
        | some rest =>
            if (skipBlankLines rest).length ≤ r.length then spanText? quote (skipBlankLines rest)
            else none
        | none =>
            match escaped? r with
            | none => none
            | some (d, rest) =>
                if rest.length ≤ r.length then
                  (spanText? quote rest).map fun t => (d :: t.1, t.2)
                else none
      else
        match afterLineEnd? s with
        | some rest =>
            if rest.length ≤ r.length then
              (spanText? quote rest).map fun t => ('\n' :: t.1, t.2)
            else none
        | none =>
            if isPlain c then (spanText? quote r).map fun t => (c :: t.1, t.2) else none
termination_by s.length

/-- **A quoted text**, and what follows it. -/
def quoted? : List Char → Option (String × List Char)
  | '"' :: '"' :: '"' :: s =>
      (spanText? '"' ((afterLineEnd? s).getD s)).map fun t => (String.ofList t.1, t.2)
  | '\'' :: '\'' :: '\'' :: s =>
      (spanText? '\'' ((afterLineEnd? s).getD s)).map fun t => (String.ofList t.1, t.2)
  | '"' :: s => (lineText? '"' s).map fun t => (String.ofList t.1, t.2)
  | '\'' :: s => (lineText? '\'' s).map fun t => (String.ofList t.1, t.2)
  | _ => none

end Toml

end OfferLayout
