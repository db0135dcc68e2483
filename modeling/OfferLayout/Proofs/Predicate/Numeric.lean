/-
**Exact comparison of numerals.**

A numeric predicate expands two templates, trims what they expand to, reads two decimals, and
compares them.  If both texts are plain numerals that fit, none of these steps loses anything, and
the predicate holds exactly if the values of the numerals compare as asked.  The amounts of a
catalog item are expanded to the digits by which they are written, so integers among them, which
have 20 digits at most, are compared as integers, with one another and with integers in a document.

Main definitions:

* `Condition.Relates` — what a condition says of two numbers;
* `CatalogItem.Amount` — an amount of a catalog item, and the template that names it;
* `Json.InRange` — the integers that a document keeps.

Main results:

* `Subject.holds_numeric_iff` — **numerals are compared by their values**;
* `Snapshot.operand?_template` — an amount is expanded to its digits;
* `Predicate.numeric_comparison_is_exact` — all of this, and the spellings that do not matter.
-/

import OfferLayout.Proofs.Number.Value
import OfferLayout.Proofs.Predicate.Conditions
import OfferLayout.Proofs.Predicate.Copy
import OfferLayout.Proofs.Predicate.Documents

set_option relaxedAutoImplicit false
set_option autoImplicit false

namespace OfferLayout

open Json (Value)

/-! ### Numbers in relation -/

/-- What a condition says of an actual and an expected number; the other conditions say nothing that
could be true of numbers. -/
def Condition.Relates {α : Type} [LT α] : Condition → α → α → Prop
  | equal, actual, expected => actual = expected
  | different, actual, expected => actual ≠ expected
  | above, actual, expected => expected < actual
  | below, actual, expected => actual < expected
  | _, _, _ => False

namespace Condition

theorem admits_compare_iff {α : Type} [LinearOrder α] {c : Condition} {x y : α} :
    c.admits (compare x y) = true ↔ c.Relates x y := by
  cases c <;> simp [admits, Relates, compare_gt_iff_gt, compare_lt_iff_lt]

theorem relates_intCast_iff {c : Condition} {m n : ℤ} :
    c.Relates (m : ℚ) (n : ℚ) ↔ c.Relates m n := by
  cases c <;> simp [Relates]

end Condition

/-- A text is a numeral between blanks. -/
def Numeral.Spells (n : Numeral) (text : String) : Prop := Text.trim text.toList = n.chars

instance (n : Numeral) (text : String) : Decidable (n.Spells text) :=
  inferInstanceAs (Decidable (_ = _))

/-- An integer is written as its numeral, without blanks. -/
theorem Numeral.spells_integer (n : ℤ) : (Numeral.ofInt n).Spells (Text.integer n) := by
  rw [Spells, Text.trim_integer, chars_ofInt]

/-- **Numerals are compared by their values.** -/
theorem Subject.holds_numeric_iff {s : Snapshot} {input value a b : String} {x y : Numeral}
    (ha : s.operand? input = some a) (hb : s.operand? value = some b) (hx : x.Spells a)
    (hy : y.Spells b) (hxfits : x.Fits) (hyfits : y.Fits) (c : Condition) :
    (Subject.placeholderNumeric input value).holds s c = true ↔ c.Relates x.value y.value := by
  have hactual : (Subject.placeholderNumeric input value).actual? s = some x.value := by
    rw [actual?, ha, Option.bind_some, Decimal.parse?_eq_toDecimal hx hxfits, Option.map_some,
      Numeral.value_toDecimal]
  have htarget : (Subject.placeholderNumeric input value).target? s = some y.value := by
    rw [target?, hb, Option.bind_some, Decimal.parse?_eq_toDecimal hy hyfits, Option.map_some,
      Numeral.value_toDecimal]
  rw [holds_of_quantities hactual htarget, Condition.admits_compare_iff]

/-! ### Integers -/

/-- The integers that a document keeps: those of 64 bits, with or without a sign. -/
def Json.InRange (n : ℤ) : Prop := -2 ^ 63 ≤ n ∧ n < 2 ^ 64

instance : DecidablePred Json.InRange := fun _ => inferInstanceAs (Decidable (_ ∧ _))

theorem Json.InRange.fits {n : ℤ} (h : Json.InRange n) : (Numeral.ofInt n).Fits := by
  obtain ⟨hmin, hmax⟩ := h
  exact Numeral.fits_ofInt (by omega)

/-- **Integers are compared as integers.** -/
theorem Subject.holds_numeric_integers_iff {s : Snapshot} {input value : String} {m n : ℤ}
    (hm : s.operand? input = some (Text.integer m)) (hn : s.operand? value = some (Text.integer n))
    (hmrange : Json.InRange m) (hnrange : Json.InRange n) (c : Condition) :
    (Subject.placeholderNumeric input value).holds s c = true ↔ c.Relates m n := by
  rw [holds_numeric_iff hm hn (Numeral.spells_integer m) (Numeral.spells_integer n) hmrange.fits
    hnrange.fits, Numeral.value_ofInt, Numeral.value_ofInt, Condition.relates_intCast_iff]

/-! ### Amounts of a catalog item -/

namespace CatalogItem

/-- An amount of a catalog item. -/
inductive Amount where
  /-- The price. -/
  | price
  /-- The price before a reduction. -/
  | originalPrice
  /-- The quantity. -/
  | quantity
deriving DecidableEq, Repr

namespace Amount

/-- The field of an amount. -/
def field : Amount → String
  | price => "price"
  | originalPrice => "originalPrice"
  | quantity => "quantity"

/-- The amount of an item. -/
def of (i : CatalogItem) : Amount → Option Json.Number
  | price => i.price
  | originalPrice => i.originalPrice
  | quantity => i.quantity

/-- The link to an amount. -/
def link (a : Amount) : Link := .keyed (.data .catalogItem a.field) false

/-- The expression of the link. -/
def expression (a : Amount) : String := "DATA.catalogItem." ++ a.field

/-- **The template that names an amount.** -/
def template (a : Amount) : String := "%^" ++ a.expression ++ "^%"

/-- The expression is read as the link. -/
theorem parse_expression (a : Amount) : Chain.parse a.expression.toList = .ok [a.link] := by
  have hprint : a.expression = Chain.print [a.link] := by
    cases a <;> decide
  have hwellFormed : a.link.WellFormed := by
    cases a <;> decide
  rw [hprint]
  exact Chain.parse_print (List.cons_ne_nil _ _) (by simpa using hwellFormed)

theorem noEnd_expression (a : Amount) : ¬ ['^', '%'] <:+: a.expression.toList := by
  cases a <;> decide +kernel

/-- The field of an amount is a text, that of its number. -/
theorem walk_field {a : Amount} {i : CatalogItem} {n : Json.Number} (h : a.of i = some n) :
    i.asField.walk a.field = some n.text := by
  have hsegments : Field.segments a.field = [a.field.toList] := by
    cases a <;> decide
  rw [Field.walk, hsegments, asField, Field.follow, String.ofList_toList]
  cases a <;> rw [of] at h <;>
    simp [field, h, List.lookup_append, lookup_textField, lookup_optionalField, Field.follow]

end Amount

end CatalogItem

open CatalogItem (Amount)

/-- **An integer amount is expanded to its digits**, whatever else is in view. -/
theorem Snapshot.operand?_template {s : Snapshot} {i : CatalogItem} {a : Amount} {n : ℤ}
    (hi : s.catalogItem = some i) (hn : a.of i = some (.integer n)) :
    s.operand? a.template = some (Text.integer n) := by
  have hscope : firstOutside s.source.scope [a.link] = none := by
    cases hc : s.creative <;>
      simp [source, hi, hc, firstOutside, Source.ofRecords, Source.item, Source.offerWithItem,
        Namespace.catalogScope, Namespace.fullScope, Amount.link, Link.scope?, Target.scope]
  have hfind : s.source.find? .catalogItem a.field = some (Text.integer n) := by
    have hnonempty : (Text.integer n).isEmpty = false := by
      simpa using Text.integer_ne_empty n
    simp [Source.find?, Source.findText?, source, hi, Amount.walk_field hn, Json.Number.text,
      hnonempty]
  have hchain : resolveChain s.source [a.link] = .ok (some (.text (Text.integer n))) := by
    simp [Amount.link, resolveChain, Target.find?, hfind]
  have hfill := substitute_markedText a.parse_expression a.noEnd_expression hscope hchain
  rw [Amount.template, operand?_of_substitute hfill, BoundText.pushFound,
    BoundText.render_pushText, BoundText.render_empty, String.empty_append]

/-- A written integer holds no placeholder. -/
theorem Snapshot.operand?_integer (s : Snapshot) (n : ℤ) :
    s.operand? (Text.integer n) = some (Text.integer n) := by
  refine operand?_of_plain (plain_of_notMem fun hmem => ?_)
  rcases Text.mem_integer hmem with h | h
  · exact absurd h (by decide)
  · exact h (by decide)

/-! ### Documents -/

/-- A numeric predicate is decoded from a document that has an integer for its value. -/
theorem Predicate.ofValue?_numeric {c : Condition} {input : String} {n : ℤ}
    {members : List (String × Value)}
    (h : members.Perm [("condition", .string c.name), ("input", .string input),
      ("value", .ofInt n)]) :
    ofValue? (.object [("placeholderNumeric", .object members)]) =
      .ok ⟨c, .placeholderNumeric input (Text.integer n)⟩ :=
  ofValue?_of_isWrittenAs ⟨_, members, Or.inr ⟨n, rfl, rfl⟩, h, rfl⟩

/-- **Numerals are compared exactly.**  Two operands whose expansions are numerals that fit, between
blanks, satisfy a condition exactly if their values do; zeros at either end, a plus sign, a bare
point and the sign of zero do not change the value.  Integer amounts of a catalog item, whatever
creative is in view, are compared as integers, with one another and with an integer in the document
of the predicate. -/
theorem Predicate.numeric_comparison_is_exact :
    (∀ (s : Snapshot) (input value a b : String) (x y : Numeral),
      s.operand? input = some a → s.operand? value = some b → x.Spells a → y.Spells b →
      x.Fits → y.Fits → ∀ c, Predicate.holds ⟨c, .placeholderNumeric input value⟩ s = true ↔
        c.Relates x.value y.value) ∧
    (∀ x y : Numeral, x.Respells y → x.value = y.value) ∧
    ∀ (s : Snapshot) (i : CatalogItem) (a : Amount) (m n : ℤ), s.catalogItem = some i →
      a.of i = some (.integer m) → Json.InRange m → Json.InRange n → ∀ c : Condition,
      (∀ b : Amount, b.of i = some (.integer n) →
        (Predicate.holds ⟨c, .placeholderNumeric a.template b.template⟩ s = true ↔
          c.Relates m n)) ∧
      ∀ members : List (String × Value),
        members.Perm [("condition", .string c.name), ("input", .string a.template),
          ("value", .ofInt n)] →
        ∃ p, ofValue? (.object [("placeholderNumeric", .object members)]) = .ok p ∧
          (p.holds s = true ↔ c.Relates m n) := by
  refine ⟨?_, fun x y h => h.value_eq, ?_⟩
  · intro s input value a b x y ha hb hx hy hxfits hyfits c
    exact Subject.holds_numeric_iff ha hb hx hy hxfits hyfits c
  · intro s i a m n hi hm hmrange hnrange c
    have hoperand : s.operand? a.template = some (Text.integer m) :=
      Snapshot.operand?_template hi hm
    constructor
    · intro b hn
      exact Subject.holds_numeric_integers_iff hoperand (Snapshot.operand?_template hi hn)
        hmrange hnrange c
    · intro members hmembers
      exact ⟨_, ofValue?_numeric hmembers, Subject.holds_numeric_integers_iff hoperand
        (s.operand?_integer n) hmrange hnrange c⟩

/-- The greatest integers of a document are told apart, in an offer in which a price is written with
a blank, a plus sign and more zeros than needed. -/
theorem Predicate.numeric_comparison_is_exact_in_offer :
    let i : CatalogItem :=
      { price := some (.integer 18446744073709551615),
        originalPrice := some (.integer 18446744073709551614) }
    let s : Snapshot :=
      { creative := some { copy := Dict.ofList [("price", " +010.50")] }, catalogItem := some i }
    Predicate.holds ⟨.above, .placeholderNumeric "%^DATA.catalogItem.price^%"
      "%^DATA.catalogItem.originalPrice^%"⟩ s = true ∧
    Predicate.holds ⟨.equal, .placeholderNumeric "%^DATA.creativeCopy.price^%" "10.5"⟩ s = true ∧
    ∃ p, ofValue? (.object [("placeholderNumeric", .object [
        ("value", .ofInt (-9223372036854775808)), ("input", .string "%^DATA.catalogItem.price^%"),
        ("condition", .string "isAbove")])]) = .ok p ∧ p.holds s = true := by
  intro i s
  obtain ⟨hnumerals, hrespelled, hamounts⟩ := numeric_comparison_is_exact
  have hprice : Amount.price.template = "%^DATA.catalogItem.price^%" := by decide
  have horiginal : Amount.originalPrice.template = "%^DATA.catalogItem.originalPrice^%" := by
    decide
  have hmax : Json.InRange 18446744073709551615 := by decide
  rw [← hprice, ← horiginal]
  refine ⟨?_, ?_, ?_⟩
  · have hnext : Json.InRange 18446744073709551614 := by decide
    obtain ⟨hboth, -⟩ := hamounts s i .price _ _ rfl rfl hmax hnext .above
    exact (hboth .originalPrice rfl).2 (by simp [Condition.Relates])
  · let x : Numeral := ⟨.plus, [0, 1, 0], some [5, 0], by decide⟩
    let y : Numeral := ⟨.none, [1, 0], some [5], by decide⟩
    have hx : x.Fits := ⟨by decide, by decide⟩
    have hy : y.Fits := ⟨by decide, by decide⟩
    have hxy : x.Respells y := ⟨by decide, by decide, Or.inl rfl⟩
    exact (hnumerals s _ _ " +010.50" "10.5" x y (by decide +kernel) (by decide +kernel)
      (by decide +kernel) (by decide +kernel) hx hy .equal).2 (hrespelled x y hxy)
  · have hmin : Json.InRange (-9223372036854775808) := by decide
    obtain ⟨-, hdocument⟩ := hamounts s i .price _ _ rfl rfl hmax hmin .above
    obtain ⟨p, hp, hholds⟩ := hdocument _ (List.reverse_perm _)
    exact ⟨p, hp, hholds.2 (by simp [Condition.Relates])⟩

end OfferLayout
