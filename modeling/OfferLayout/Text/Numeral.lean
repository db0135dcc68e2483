/-
**Decimal numerals.**

Natural numbers are written without leading zeros.  Reading is more lenient: leading zeros are
allowed, and, for the word types, one sign in front.

Main definitions:

* `Text.digits` — the decimal digits of a number;
* `Text.natural?` — the number a text of digits stands for;
* `Text.integer?` — the same with an optional sign;
* `Text.numberOfBase?` — the number that digits of another base stand for;
* `Text.int32?`, `Text.int64?`, `Text.uint32?`, `Text.uint64?` — the numerals of machine words.

Main results:

* `Text.natural?_digits`, `Text.integer?_integer` — a written number reads back;
* `Text.digit?_ne_none_of_mem_digits` — and consists of digits.
-/

set_option relaxedAutoImplicit false
set_option autoImplicit false

namespace OfferLayout

namespace Text

/-- The digit character of a number below ten. -/
def digitChar (d : Nat) : Char := Char.ofNat (48 + d % 10)

/-- The decimal digits of a number, most significant first. -/
def digits (n : Nat) : List Char :=
  if n < 10 then [digitChar n] else digits (n / 10) ++ [digitChar n]

/-- The decimal digits of a number as a string. -/
def natural (n : Nat) : String := String.ofList (digits n)

/-- The decimal digits of an integer, after a minus sign if it is negative. -/
def integer (n : Int) : String :=
  if n < 0 then String.ofList ('-' :: digits n.natAbs) else natural n.natAbs

/-- The value of a digit character. -/
def digit? (c : Char) : Option Nat :=
  if 48 ≤ c.toNat ∧ c.toNat ≤ 57 then some (c.toNat - 48) else none

/-- Reads digits onto the number read so far. -/
def readDigits (acc : Nat) : List Char → Option Nat
  | [] => some acc
  | c :: s => (digit? c).bind fun d => readDigits (10 * acc + d) s

/-- The number that a nonempty text of digits stands for. -/
def natural? (s : List Char) : Option Nat :=
  if s.isEmpty then none else readDigits 0 s

/-- The number that a text of digits with an optional plus sign stands for. -/
def plusNatural? : List Char → Option Nat
  | '+' :: s => natural? s
  | s => natural? s

/-- The number that a text of digits with an optional sign stands for. -/
def integer? : List Char → Option Int
  | '-' :: s => (natural? s).map fun n => -(n : Int)
  | s => (plusNatural? s).map fun n => (n : Int)

/-! ### Other bases -/

/-- The value of a hexadecimal digit. -/
def hexValue? (c : Char) : Option Nat :=
  if '0' ≤ c ∧ c ≤ '9' then some (c.toNat - 48)
  else if 'a' ≤ c ∧ c ≤ 'f' then some (c.toNat - 87)
  else if 'A' ≤ c ∧ c ≤ 'F' then some (c.toNat - 55)
  else none

/-- The value of a digit in a base of at most sixteen. -/
def digitOfBase? (base : Nat) (c : Char) : Option Nat :=
  (hexValue? c).bind fun d => if d < base then some d else none

/-- The value of digits in a base of at most sixteen. -/
def numberOfBase? (base : Nat) (s : List Char) : Option Nat :=
  s.foldl (fun acc c => acc.bind fun n => (digitOfBase? base c).map fun d => base * n + d) (some 0)

/-- The value of hexadecimal digits. -/
def hexNumber? (s : List Char) : Option Nat := numberOfBase? 16 s

/-! ### Machine words -/

/-- The word of 32 bits with the given signed value, if it is in range. -/
def toInt32? (n : Int) : Option Int32 :=
  if -2147483648 ≤ n ∧ n < 2147483648 then some (Int32.ofInt n) else none

/-- The word of 32 bits with the given unsigned value, if it is in range. -/
def toUInt32? (n : Int) : Option UInt32 :=
  if 0 ≤ n ∧ n < 4294967296 then some (UInt32.ofNat n.toNat) else none

/-- The word of 64 bits with the given unsigned value, if it is in range. -/
def toUInt64? (n : Int) : Option UInt64 :=
  if 0 ≤ n ∧ n < 18446744073709551616 then some (UInt64.ofNat n.toNat) else none

/-- Reads a signed numeral of 32 bits. -/
def int32? (s : List Char) : Option Int32 := (integer? s).bind toInt32?

/-- Reads a signed numeral of 64 bits. -/
def int64? (s : List Char) : Option Int :=
  (integer? s).bind fun n =>
    if -9223372036854775808 ≤ n ∧ n < 9223372036854775808 then some n else none

/-- Reads an unsigned numeral of 32 bits. -/
def uint32? (s : List Char) : Option UInt32 := (plusNatural? s).bind fun n => toUInt32? n

/-- Reads an unsigned numeral of 64 bits. -/
def uint64? (s : List Char) : Option UInt64 := (plusNatural? s).bind fun n => toUInt64? n

/-- The value of a word read from an integer is that integer. -/
theorem toInt_of_toInt32? {n : Int} {w : Int32} (h : toInt32? n = some w) : w.toInt = n := by
  unfold toInt32? at h
  split at h
  · next hn =>
      cases h
      exact Int32.toInt_ofInt_of_le hn.1 hn.2
  · cases h

/-! ### Reading back -/

theorem digit?_digitChar (n : Nat) : digit? (digitChar n) = some (n % 10) := by
  have h : ∀ d, d < 10 → digit? (Char.ofNat (48 + d)) = some d := by decide
  simpa [digitChar] using h (n % 10) (Nat.mod_lt _ (by decide))

theorem range_of_digit? {c : Char} (h : digit? c ≠ none) : 48 ≤ c.toNat ∧ c.toNat ≤ 57 := by
  simpa [digit?] using h

theorem readDigits_append (acc : Nat) (s t : List Char) :
    readDigits acc (s ++ t) = (readDigits acc s).bind fun n => readDigits n t := by
  induction s generalizing acc with
  | nil => rfl
  | cons c s ih =>
      simp only [List.cons_append, readDigits]
      cases digit? c <;> simp [ih]

theorem readDigits_digits (n : Nat) : readDigits 0 (digits n) = some n := by
  fun_induction digits n with
  | case1 n h =>
      simp only [readDigits, digit?_digitChar, Option.bind_some, Option.some.injEq]
      omega
  | case2 n h ih =>
      simp only [readDigits_append, ih, readDigits, digit?_digitChar, Option.bind_some,
        Option.some.injEq]
      omega

theorem digits_ne_nil (n : Nat) : digits n ≠ [] := by
  unfold digits
  split <;> simp

/-- A written number consists of digits. -/
theorem digit?_ne_none_of_mem_digits {n : Nat} {c : Char} (h : c ∈ digits n) : digit? c ≠ none := by
  fun_induction digits n with
  | case1 n hn =>
      obtain rfl := List.mem_singleton.1 h
      simp [digit?_digitChar]
  | case2 n hn ih =>
      rcases List.mem_append.1 h with h | h
      · exact ih h
      · obtain rfl := List.mem_singleton.1 h
        simp [digit?_digitChar]

/-- **A written number reads back.** -/
theorem natural?_digits (n : Nat) : natural? (digits n) = some n := by
  simp [natural?, digits_ne_nil, readDigits_digits]

theorem natural?_natural (n : Nat) : natural? (natural n).toList = some n := by
  rw [natural, String.toList_ofList, natural?_digits]

/-- A written number starts with a digit. -/
theorem exists_digits_eq_cons (n : Nat) : ∃ c s, digits n = c :: s ∧ digit? c ≠ none := by
  obtain ⟨c, s, h⟩ := List.exists_cons_of_ne_nil (digits_ne_nil n)
  exact ⟨c, s, h, digit?_ne_none_of_mem_digits (h ▸ List.mem_cons_self)⟩

/-- **A written integer reads back.** -/
theorem integer?_integer (n : Int) : integer? (integer n).toList = some n := by
  rw [integer]
  split
  · next hneg =>
      have habs : -(n.natAbs : Int) = n := by omega
      rw [String.toList_ofList, integer?, natural?_digits]
      exact congrArg some habs
  · next hneg =>
      have habs : (n.natAbs : Int) = n := by omega
      obtain ⟨c, s, hs, hc⟩ := exists_digits_eq_cons n.natAbs
      have hminus : c ≠ '-' := fun h => hc (h ▸ by decide)
      have hplus : c ≠ '+' := fun h => hc (h ▸ by decide)
      have hread : natural? (c :: s) = some n.natAbs := hs ▸ natural?_digits n.natAbs
      simp [natural, hs, integer?, plusNatural?, hminus, hplus, hread, habs]

end Text

end OfferLayout
