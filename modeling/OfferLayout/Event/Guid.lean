/-
**Identifiers of events.**

A new event bears an identifier of 128 bits, all random but six: four of them tell that it is a
random one, and two tell the layout of its bits.  It is written in hexadecimal, in groups of eight,
four, four, four and twelve digits.

Main definitions:

* `Guid` — an identifier;
* `Guid.ofRandom` — the identifier made from random bits;
* `Guid.text` — how it is written.

Main results:

* `Guid.version_ofRandom` — the digit that tells the kind.
-/

import OfferLayout.Json.Value

set_option relaxedAutoImplicit false
set_option autoImplicit false

namespace OfferLayout

/-- An identifier of 128 bits, in four-bit digits by groups. -/
structure Guid where
  /-- The digits of the five groups. -/
  groups : List (List Nat)
deriving DecidableEq, Repr

namespace Guid

/-- The `count` last hexadecimal digits of a number, most significant first. -/
def nibbles (n : Nat) : Nat → List Nat
  | 0 => []
  | count + 1 => nibbles (n / 16) count ++ [n % 16]

/-- **The identifier made from random bits.** -/
def ofRandom (n : Nat) : Guid :=
  ⟨[nibbles (n >>> 96) 8, nibbles (n >>> 80) 4, 4 :: nibbles (n >>> 64) 3,
    (8 + n >>> 60 % 4) :: nibbles (n >>> 48) 3, nibbles n 12]⟩

/-- How an identifier is written. -/
def text (g : Guid) : String :=
  String.ofList (List.intercalate ['-'] (g.groups.map fun group => group.map Json.Value.hexDigit))

/-- The third group of a random identifier starts with the digit of its kind. -/
theorem version_ofRandom (n : Nat) :
    ((ofRandom n).groups[2]?.bind List.head?) = some 4 := rfl

end Guid

end OfferLayout
