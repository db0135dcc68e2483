/-
**Texts are in the order of their bytes.**

The order of texts is that of their characters, one by one.  The encoding of characters by bytes
keeps it: of two different characters, the encoding of the lesser one is less at the first byte
where the two differ, and such a byte there is, as no encoding is the beginning of another.  So the
names of a map increase by their bytes, too.

Main definitions:

* `Text.bytes` — the bytes of a text.

Main results:

* `Text.utf8EncodeChar_append_lt` — the encodings of two characters are in their order, whatever
  comes after them;
* `Text.bytes_lt_iff` — **texts are in the order of their bytes**.
-/

import Mathlib.Data.String.Basic
import Mathlib.Data.Char

set_option relaxedAutoImplicit false
set_option autoImplicit false

namespace OfferLayout

namespace Text

/-- The bytes of a text. -/
def bytes (s : String) : List UInt8 := s.toByteArray.data.toList

theorem bytes_eq_flatMap (s : String) : bytes s = s.toList.flatMap String.utf8EncodeChar := by
  rw [bytes, ← String.utf8Encode_toList, List.utf8Encode, List.toList_data_toByteArray]

theorem toNat_lt_of_char (c : Char) : c.val.toNat < 0x110000 := by
  rcases c.valid with h | h
  · exact Nat.lt_trans h (by decide)
  · exact h.2

/-- **The encodings of two characters are in the order of these**, whatever comes after them. -/
theorem utf8EncodeChar_append_lt {c d : Char} (h : c < d) (rest rest' : List UInt8) :
    String.utf8EncodeChar c ++ rest < String.utf8EncodeChar d ++ rest' := by
  have hlt : c.val.toNat < d.val.toNat := h
  have hmax := toNat_lt_of_char d
  -- the bytes are the digits of the code point in base 64
  have hdigits : ∀ n : Nat, n / 4096 = n / 64 / 64 ∧ n / 262144 = n / 64 / 64 / 64 := by omega
  unfold String.utf8EncodeChar
  generalize c.val.toNat = m at *
  generalize d.val.toNat = n at *
  simp only [hdigits m, hdigits n]
  split_ifs <;>
    simp only [List.cons_append, List.nil_append, List.cons_lt_cons_iff,
      UInt8.lt_iff_toNat_lt, ← UInt8.toNat_inj, UInt8.toNat_ofNat'] <;> omega

theorem utf8EncodeChar_ne_nil (c : Char) : String.utf8EncodeChar c ≠ [] := by
  rw [← List.length_pos_iff, String.length_utf8EncodeChar]
  exact c.utf8Size_pos

theorem flatMap_utf8EncodeChar_lt {s t : List Char} (h : s < t) :
    s.flatMap String.utf8EncodeChar < t.flatMap String.utf8EncodeChar := by
  induction s generalizing t with
  | nil =>
      cases t with
      | nil => exact absurd h (List.lt_irrefl _)
      | cons d t =>
          obtain ⟨b, rest, hb⟩ := List.exists_cons_of_ne_nil (utf8EncodeChar_ne_nil d)
          rw [List.flatMap_nil, List.flatMap_cons, hb, List.cons_append]
          exact List.nil_lt_cons _ _
  | cons c s ih =>
      cases t with
      | nil => exact absurd h (List.not_lt_nil _)
      | cons d t =>
          rw [List.flatMap_cons, List.flatMap_cons]
          rcases List.cons_lt_cons_iff.1 h with hcd | ⟨rfl, hst⟩
          · exact utf8EncodeChar_append_lt hcd _ _
          · exact List.append_left_lt (ih hst)

/-- **Texts are in the order of their bytes.** -/
theorem bytes_lt_iff {s t : String} : bytes s < bytes t ↔ s < t := by
  have hforward : ∀ {s t : String}, s < t → bytes s < bytes t := by
    intro s t h
    rw [bytes_eq_flatMap, bytes_eq_flatMap]
    exact flatMap_utf8EncodeChar_lt h
  constructor
  · intro h
    by_contra hlt
    rcases eq_or_lt_of_le (not_lt.1 hlt) with rfl | hlt
    · exact List.lt_irrefl _ h
    · exact List.lt_asymm h (hforward hlt)
  · exact hforward

end Text

end OfferLayout
