/-
**Numerals without a point are the texts that are read as integers.**

The reader of integers takes one sign, or none, and then digits to the end.  What it accepts are the
numerals without a point, and it gives their value; nothing else is read as an integer, and leading
zeros do not matter.

Main definitions:

* `Numeral.ofDigits` — the numeral of digits after a sign or none.

Main results:

* `Numeral.readDigits_eq_some_iff` — digits are read as the number that they stand for;
* `Numeral.integer?_eq_some_iff` — **the texts that are read as integers**.
-/

import OfferLayout.Proofs.Number.Value
import OfferLayout.Proofs.Text.Numeral

set_option relaxedAutoImplicit false
set_option autoImplicit false

namespace OfferLayout

namespace Numeral

open Text (digit? digitChar digit?_digitChar readDigits natural? plusNatural? integer?)

/-! ### Digits -/

theorem digit?_eq_some_iff {c : Char} {d : ℕ} : digit? c = some d ↔ d < 10 ∧ c = digitChar d := by
  constructor
  · intro h
    unfold digit? at h
    split at h
    · next hc =>
        cases h
        have hlt : c.toNat - 48 < 10 := by omega
        have hsum : 48 + (c.toNat - 48) = c.toNat := by omega
        refine ⟨hlt, ?_⟩
        rw [digitChar, Nat.mod_eq_of_lt hlt, hsum, Char.ofNat_toNat]
    · cases h
  · rintro ⟨hd, rfl⟩
    rw [digit?_digitChar, Nat.mod_eq_of_lt hd]

/-- **Digits are read as the number that they stand for**, and nothing else is read. -/
theorem readDigits_eq_some_iff {acc n : ℕ} {s : List Char} :
    readDigits acc s = some n ↔
      ∃ ds : List (Fin 10), s = digitChars ds ∧ n = acc * 10 ^ ds.length + natural ds := by
  induction s generalizing acc with
  | nil =>
      constructor
      · intro h
        cases h
        exact ⟨[], rfl, by simp⟩
      · rintro ⟨_ | ⟨d, ds⟩, hs, rfl⟩
        · simp [readDigits]
        · cases hs
  | cons c s ih =>
      -- a digit more is a power of ten more for what was read before it
      have hstep : ∀ (d : Fin 10) (ds : List (Fin 10)),
          (10 * acc + d) * 10 ^ ds.length + natural ds =
            acc * 10 ^ (d :: ds).length + natural (d :: ds) := by
        intro d ds
        rw [natural_cons, List.length_cons, pow_succ]
        ring
      rw [readDigits, Option.bind_eq_some_iff]
      constructor
      · rintro ⟨d, hd, hrest⟩
        obtain ⟨hlt, rfl⟩ := digit?_eq_some_iff.1 hd
        obtain ⟨ds, rfl, rfl⟩ := ih.1 hrest
        exact ⟨⟨d, hlt⟩ :: ds, rfl, hstep ⟨d, hlt⟩ ds⟩
      · rintro ⟨_ | ⟨d, ds⟩, hs, rfl⟩
        · cases hs
        · obtain ⟨rfl, rfl⟩ := List.cons.inj hs
          exact ⟨d, digit?_eq_some_iff.2 ⟨d.isLt, rfl⟩, ih.2 ⟨ds, rfl, (hstep d ds).symm⟩⟩

theorem natural?_eq_some_iff {n : ℕ} {s : List Char} :
    natural? s = some n ↔ ∃ ds : List (Fin 10), ds ≠ [] ∧ s = digitChars ds ∧ n = natural ds := by
  cases s with
  | nil =>
      constructor
      · intro h
        cases h
      · rintro ⟨_ | ⟨d, ds⟩, hne, hs, -⟩
        · exact absurd rfl hne
        · cases hs
  | cons c s =>
      have hread : natural? (c :: s) = readDigits 0 (c :: s) := rfl
      simp only [hread, readDigits_eq_some_iff, Nat.zero_mul, Nat.zero_add]
      constructor
      · rintro ⟨ds, hs, hn⟩
        refine ⟨ds, ?_, hs, hn⟩
        rintro rfl
        cases hs
      · rintro ⟨ds, -, hs, hn⟩
        exact ⟨ds, hs, hn⟩

/-! ### Integers -/

/-- The numeral of digits after a sign or none. -/
def ofDigits (sign : Sign) (ds : List (Fin 10)) (h : ds ≠ []) : Numeral :=
  ⟨sign, ds, none, by simpa using h⟩

theorem chars_ofDigits {sign : Sign} {ds : List (Fin 10)} (h : ds ≠ []) :
    (ofDigits sign ds h).chars = sign.chars ++ digitChars ds := by
  simp [chars, ofDigits, pointChars]

theorem value_ofDigits {sign : Sign} {ds : List (Fin 10)} (h : ds ≠ []) :
    (ofDigits sign ds h).value =
      ((if sign.isMinus then -(natural ds : ℤ) else (natural ds : ℤ) : ℤ) : ℚ) := by
  rw [value, magnitude_eq]
  cases hminus : sign.isMinus <;> simp [ofDigits, hminus, digits, places]

/-- Without a point a numeral is digits after a sign or none. -/
theorem eq_ofDigits {x : Numeral} (h : x.fraction = none) :
    ∃ sign ds hne, x = ofDigits sign ds hne := by
  obtain ⟨sign, ds, fraction, hne⟩ := x
  cases h
  exact ⟨sign, ds, by simpa using hne, rfl⟩

/-- Digits after a sign or none are read as an integer. -/
theorem integer?_sign_digits (sign : Sign) {ds : List (Fin 10)} (h : ds ≠ []) :
    integer? (sign.chars ++ digitChars ds) =
      some (if sign.isMinus then -(natural ds : ℤ) else natural ds) := by
  have hread : natural? (digitChars ds) = some (natural ds) :=
    natural?_eq_some_iff.2 ⟨ds, h, rfl, rfl⟩
  cases sign with
  | minus => simp [Sign.chars, Sign.isMinus, integer?, hread]
  | plus => simp [Sign.chars, Sign.isMinus, integer?, plusNatural?, hread]
  | none =>
      obtain ⟨d, ds, rfl⟩ := List.exists_cons_of_ne_nil h
      obtain ⟨hplus, hminus⟩ := (ofDigits .none (d :: ds) h).not_sign_of_head? rfl
      rw [digitChars_cons] at hread ⊢
      simp [Sign.chars, Sign.isMinus, integer?, plusNatural?, hplus, hminus, hread]

/-- **The texts that are read as integers** are the numerals without a point. -/
theorem integer?_eq_some_iff {n : ℤ} {s : List Char} :
    integer? s = some n ↔ ∃ x : Numeral, x.fraction = none ∧ x.chars = s ∧ x.value = n := by
  constructor
  · intro h
    have hdigits : ∀ {body : List Char} {f : ℕ → Option ℤ} {k : ℤ},
        (natural? body).bind f = some k → ∃ ds, ds ≠ [] ∧ body = digitChars ds := by
      intro body f k hbody
      obtain ⟨m, hm, -⟩ := Option.bind_eq_some_iff.1 hbody
      obtain ⟨ds, hne, hds, -⟩ := natural?_eq_some_iff.1 hm
      exact ⟨ds, hne, hds⟩
    have hnumeral : ∃ sign ds, ds ≠ [] ∧ s = Sign.chars sign ++ digitChars ds := by
      unfold integer? at h
      split at h <;> obtain ⟨k, hk, -⟩ := Option.map_eq_some_iff.1 h
      · obtain ⟨ds, hne, rfl⟩ := hdigits hk
        exact ⟨.minus, ds, hne, rfl⟩
      · unfold plusNatural? at hk
        split at hk
        · obtain ⟨ds, hne, rfl⟩ := hdigits hk
          exact ⟨.plus, ds, hne, rfl⟩
        · obtain ⟨ds, hne, rfl⟩ := hdigits hk
          exact ⟨.none, ds, hne, rfl⟩
    obtain ⟨sign, ds, hne, rfl⟩ := hnumeral
    rw [integer?_sign_digits sign hne] at h
    cases h
    exact ⟨ofDigits sign ds hne, rfl, chars_ofDigits hne, value_ofDigits hne⟩
  · rintro ⟨x, hx, rfl, hvalue⟩
    obtain ⟨sign, ds, hne, rfl⟩ := eq_ofDigits hx
    rw [chars_ofDigits, integer?_sign_digits sign hne, Option.some.injEq]
    rw [value_ofDigits] at hvalue
    exact_mod_cast hvalue

end Numeral

end OfferLayout
