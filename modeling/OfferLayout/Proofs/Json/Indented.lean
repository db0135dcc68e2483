/-
**An indented document is read back.**

In an indented spelling the tokens stand apart, and blanks between tokens do not matter: a token
takes at least one character, so the scan of a text never comes to a halt before its end.  What is
left to look at are the numbers.  A number goes on as long as there are characters that could belong
to it, so its spelling *begins* a text with one token only where the text goes on with something
else: a comma, a new line, or nothing.

So a spelling is looked at together with what it is read as.  That may be another number: an integer
beyond the greatest word is read as a floating-point number.

Main definitions:

* `Json.EndsNumber` — no number goes on with a text;
* `Json.Spells` — **a spelling begins every text that ends a number after it with the given
  tokens**;
* `Json.numeralTree` — what the numeral of a number is read as.

Main results:

* `Json.length_lt_of_scanToken` — a token takes at least one character;
* `Json.Begins.blanks` — **blanks between tokens do not matter**;
* `Json.Spells.digits` — a numeral is one token;
* `Json.Begins.prettyArray`, `Json.Begins.prettyObject` — **indented arrays and objects are read as
  what their parts are read as**;
* `Json.Spells.pretty` — so are plain documents;
* `Json.Value.ofStringRaw?_pretty`, `Json.Value.ofString?_pretty` — **the indented text of a plain
  document is read as the document**, or as its canonical form.
-/

import Mathlib.Data.List.Forall2
import OfferLayout.Proofs.Json.Machine

set_option relaxedAutoImplicit false
set_option autoImplicit false

namespace OfferLayout

namespace Json

/-! ### Tokens take characters -/

theorem length_lt_of_scanString {s : List Char} {r : List Piece × List Char}
    (h : scanString s = some r) : r.2.length < s.length := by
  fun_induction scanString s generalizing r with
  | case1 => cases h
  | case2 a b c d s ih =>
      obtain ⟨n, -, hr⟩ := Option.bind_eq_some_iff.1 h
      obtain ⟨r', hr', rfl⟩ := Option.map_eq_some_iff.1 hr
      have hlt := ih hr'
      simp only [List.length_cons]
      omega
  | case3 e s _ ih =>
      obtain ⟨c, -, hr⟩ := Option.bind_eq_some_iff.1 h
      obtain ⟨r', hr', rfl⟩ := Option.map_eq_some_iff.1 hr
      have hlt := ih hr'
      simp only [List.length_cons]
      omega
  | case4 s =>
      cases h
      exact Nat.lt_succ_self _
  | case5 => cases h
  | case6 c s _ _ _ _ ih =>
      obtain ⟨r', hr', rfl⟩ := Option.map_eq_some_iff.1 h
      have hlt := ih hr'
      simp only [List.length_cons]
      omega

theorem length_takeDigits (s : List Char) :
    (takeDigits s).1.length + (takeDigits s).2.length = s.length := by
  rw [takeDigits, ← List.length_append, List.takeWhile_append_dropWhile]

theorem length_lt_of_takeDigits {s : List Char} (h : (takeDigits s).1.isEmpty ≠ true) :
    (takeDigits s).2.length < s.length := by
  have hlength := length_takeDigits s
  have hpos : 0 < (takeDigits s).1.length := by
    rw [List.length_pos_iff]
    exact fun hnil => h (List.isEmpty_iff.2 hnil)
  omega

theorem length_lt_of_scanWhole {s : List Char} {r : List Char × List Char}
    (h : scanWhole s = some r) : r.2.length < s.length := by
  unfold scanWhole at h
  split at h
  · cases h
    exact Nat.lt_succ_self _
  · obtain ⟨hsome, h⟩ := Option.ite_none_left_eq_some.1 h
    cases h
    exact length_lt_of_takeDigits hsome

theorem length_le_of_scanFraction {s : List Char} {r : List Char × List Char}
    (h : scanFraction s = some r) : r.2.length ≤ s.length := by
  unfold scanFraction at h
  split at h
  · obtain ⟨hsome, h⟩ := Option.ite_none_left_eq_some.1 h
    cases h
    have hlt := length_lt_of_takeDigits hsome
    rw [List.length_cons]
    omega
  · cases h
    exact Nat.le_refl _

theorem length_lt_of_scanUnsignedPower {down : Bool} {s : List Char}
    {r : (Bool × List Char) × List Char} (h : scanUnsignedPower down s = some r) :
    r.2.length < s.length := by
  obtain ⟨hsome, h⟩ := Option.ite_none_left_eq_some.1 h
  cases h
  exact length_lt_of_takeDigits hsome

theorem length_lt_of_scanPower {s : List Char} {r : (Bool × List Char) × List Char}
    (h : scanPower s = some r) : r.2.length < s.length := by
  unfold scanPower at h
  split at h
  · exact Nat.lt_succ_of_lt (length_lt_of_scanUnsignedPower h)
  · exact Nat.lt_succ_of_lt (length_lt_of_scanUnsignedPower h)
  · exact length_lt_of_scanUnsignedPower h

theorem length_le_of_scanExponent {s : List Char} {r : Option (Bool × List Char) × List Char}
    (h : scanExponent s = some r) : r.2.length ≤ s.length := by
  unfold scanExponent at h
  split at h
  · obtain ⟨r', hr', rfl⟩ := Option.map_eq_some_iff.1 h
    exact Nat.le_of_lt (Nat.lt_succ_of_lt (length_lt_of_scanPower hr'))
  · obtain ⟨r', hr', rfl⟩ := Option.map_eq_some_iff.1 h
    exact Nat.le_of_lt (Nat.lt_succ_of_lt (length_lt_of_scanPower hr'))
  · cases h
    exact Nat.le_refl _

theorem length_lt_of_scanUnsigned {negative : Bool} {s : List Char} {r : Token × List Char}
    (h : scanUnsigned negative s = some r) : r.2.length < s.length := by
  obtain ⟨⟨whole, s₁⟩, hwhole, h⟩ := Option.bind_eq_some_iff.1 h
  obtain ⟨⟨fraction, s₂⟩, hfraction, h⟩ := Option.bind_eq_some_iff.1 h
  obtain ⟨⟨power, s₃⟩, hpower, rfl⟩ := Option.map_eq_some_iff.1 h
  calc s₃.length ≤ s₂.length := length_le_of_scanExponent hpower
    _ ≤ s₁.length := length_le_of_scanFraction hfraction
    _ < s.length := length_lt_of_scanWhole hwhole

theorem length_lt_of_scanNumber {s : List Char} {r : Token × List Char}
    (h : scanNumber s = some r) : r.2.length < s.length := by
  unfold scanNumber at h
  split at h
  · exact Nat.lt_succ_of_lt (length_lt_of_scanUnsigned h)
  · exact length_lt_of_scanUnsigned h

/-- **A token takes at least one character.** -/
theorem length_lt_of_scanToken {s : List Char} {r : Token × List Char}
    (h : scanToken s = some r) : r.2.length < s.length := by
  unfold scanToken at h
  split at h
  case h_10 =>
    obtain ⟨r', hr', rfl⟩ := Option.map_eq_some_iff.1 h
    exact Nat.lt_succ_of_lt (length_lt_of_scanString hr')
  case h_11 => exact length_lt_of_scanNumber h
  all_goals
    cases h
    simp only [List.length_cons]
    omega

/-! ### Blanks -/

/-- A blank at the beginning of a text does not matter. -/
theorem tokens_cons_of_isSpace {c : Char} (hc : isSpace c = true) (s : List Char) :
    tokens (c :: s) = tokens s := by
  rw [tokens, tokens.eq_1 s, List.dropWhile_cons_of_pos hc]
  cases hdrop : s.dropWhile isSpace with
  | nil => rfl
  | cons d r =>
      have hle : (d :: r).length ≤ s.length := by
        rw [← hdrop]
        exact (List.dropWhile_suffix isSpace).length_le
      cases hscan : scanToken (d :: r) with
      | none => simp [hscan]
      | some p =>
          -- whether the scan shortens the text is not in question
          have hlt : p.2.length < (d :: r).length := length_lt_of_scanToken hscan
          have hshort : p.2.length < s.length := by omega
          have hshort' : p.2.length < (c :: s).length := by rw [List.length_cons]; omega
          simp only [hscan]
          rw [if_pos hshort', if_pos hshort]

namespace Begins

/-- **Blanks between tokens do not matter.** -/
theorem blanks {s : List Char} (h : ∀ c ∈ s, isSpace c = true) : Begins s [] := by
  induction s with
  | nil => exact nil
  | cons c s ih =>
      obtain ⟨hc, hs⟩ := List.forall_mem_cons.1 h
      intro rest
      rw [List.cons_append, tokens_cons_of_isSpace hc, ih hs rest]

theorem newLine (level : Nat) : Begins (Value.newLine level) [] := by
  refine blanks (List.forall_mem_cons.2 ⟨rfl, ?_⟩)
  intro c hc
  rw [List.eq_of_mem_replicate hc]
  rfl

end Begins

/-! ### Numerals -/

/-- **No number goes on with a text.** -/
def EndsNumber (rest : List Char) : Prop :=
  ∀ c ∈ rest.head?, c.isDigit = false ∧ c ≠ '.' ∧ c ≠ 'e' ∧ c ≠ 'E'

theorem endsNumber_comma (rest : List Char) : EndsNumber (',' :: rest) := by
  intro c hc
  obtain rfl := Option.some.inj hc
  decide

theorem endsNumber_newLine (rest : List Char) : EndsNumber ('\n' :: rest) := by
  intro c hc
  obtain rfl := Option.some.inj hc
  decide

theorem isDigit_iff_range {c : Char} : c.isDigit = true ↔ 48 ≤ c.toNat ∧ c.toNat ≤ 57 := by
  simp [Char.isDigit, UInt32.le_iff_toNat_le]

theorem isDigit_of_digit? {c : Char} (h : Text.digit? c ≠ none) : c.isDigit = true :=
  isDigit_iff_range.2 (Text.range_of_digit? h)

/-- No digit may stand between tokens. -/
theorem isSpace_of_isDigit {c : Char} (h : c.isDigit = true) : isSpace c = false := by
  obtain ⟨hge, -⟩ := isDigit_iff_range.1 h
  have hne : ∀ d : Char, d.toNat < 48 → c ≠ d := by
    rintro d hd rfl
    omega
  have hreturn : c.toNat ≠ 13 := by omega
  simp [isSpace, hne ' ' (by decide), hne '\t' (by decide), hne '\n' (by decide), hreturn]

theorem endsNumber_of_isSpace {s : List Char} (h : ∀ c ∈ s, isSpace c = true) : EndsNumber s := by
  intro c hc
  have hspace : isSpace c = true := h c (List.mem_of_mem_head? hc)
  refine ⟨?_, ?_, ?_, ?_⟩
  · cases hdigit : c.isDigit with
    | false => rfl
    | true => exact absurd (isSpace_of_isDigit hdigit) (by simp [hspace])
  · rintro rfl
    cases hspace
  · rintro rfl
    cases hspace
  · rintro rfl
    cases hspace

theorem isDigit_of_mem_digits {n : Nat} {c : Char} (h : c ∈ Text.digits n) : c.isDigit = true :=
  isDigit_of_digit? (Text.digit?_ne_none_of_mem_digits h)

/-- Only the numeral of zero begins with a zero. -/
theorem eq_zero_of_head?_digits {n : Nat} (h : (Text.digits n).head? = some '0') : n = 0 := by
  fun_induction Text.digits n with
  | case1 n hn =>
      have hdigit : ∀ d < 10, [Text.digitChar d].head? = some '0' → d = 0 := by decide
      exact hdigit n hn h
  | case2 n hn ih =>
      obtain ⟨c, s, hcons⟩ := List.exists_cons_of_ne_nil (Text.digits_ne_nil (n / 10))
      rw [hcons, List.cons_append, List.head?_cons] at h
      rw [hcons, List.head?_cons] at ih
      have hzero := ih h
      omega

theorem takeDigits_digits_append (n : Nat) {rest : List Char} (h : EndsNumber rest) :
    takeDigits (Text.digits n ++ rest) = (Text.digits n, rest) := by
  have hdigits : ∀ c ∈ Text.digits n, c.isDigit = true := fun c hc => isDigit_of_mem_digits hc
  have hrest : rest.takeWhile Char.isDigit = [] ∧ rest.dropWhile Char.isDigit = rest := by
    cases rest with
    | nil => exact ⟨rfl, rfl⟩
    | cons c rest =>
        obtain ⟨hc, -⟩ := h c rfl
        simp [hc]
  rw [takeDigits, List.takeWhile_append_of_pos hdigits, List.dropWhile_append_of_pos hdigits,
    hrest.1, hrest.2, List.append_nil]

theorem scanWhole_digits_append (n : Nat) {rest : List Char} (h : EndsNumber rest) :
    scanWhole (Text.digits n ++ rest) = some (Text.digits n, rest) := by
  obtain ⟨c, s, hcons, -⟩ := Text.exists_digits_eq_cons n
  by_cases hc : c = '0'
  · subst hc
    obtain rfl : n = 0 := eq_zero_of_head?_digits (by rw [hcons]; rfl)
    have hzero : Text.digits 0 = ['0'] := by simp [Text.digits, Text.digitChar]
    rw [hzero]
    rfl
  · have htake := takeDigits_digits_append n h
    rw [hcons, List.cons_append] at htake ⊢
    unfold scanWhole
    split
    · next heq => exact absurd (List.cons.inj heq).1 hc
    · rw [htake]
      rfl

theorem scanFraction_of_endsNumber {rest : List Char} (h : EndsNumber rest) :
    scanFraction rest = some ([], rest) := by
  unfold scanFraction
  split
  · exact absurd rfl (h '.' rfl).2.1
  · rfl

theorem scanExponent_of_endsNumber {rest : List Char} (h : EndsNumber rest) :
    scanExponent rest = some (none, rest) := by
  unfold scanExponent
  split
  · exact absurd rfl (h 'e' rfl).2.2.1
  · exact absurd rfl (h 'E' rfl).2.2.2
  · rfl

/-- What begins with a digit is a number without a sign. -/
theorem scanToken_of_isDigit {c : Char} (hc : c.isDigit = true) (s : List Char) :
    scanToken (c :: s) = scanUnsigned false (c :: s) := by
  unfold scanToken
  split
  case h_11 =>
    unfold scanNumber
    split
    · next heq =>
        obtain ⟨rfl, -⟩ := List.cons.inj heq
        cases hc
    · rfl
  all_goals
    next heq =>
      obtain ⟨rfl, -⟩ := List.cons.inj heq
      cases hc

/-- **A numeral is one token** where no number goes on. -/
theorem scanToken_digits_append (n : Nat) {rest : List Char} (h : EndsNumber rest) :
    scanToken (Text.digits n ++ rest) =
      some (.number (numberOf? false (Text.digits n) [] none), rest) := by
  obtain ⟨c, s, hcons, hc⟩ := Text.exists_digits_eq_cons n
  have hscan := scanToken_of_isDigit (isDigit_of_digit? hc) (s ++ rest)
  rw [← List.cons_append, ← hcons] at hscan
  rw [hscan, scanUnsigned, scanWhole_digits_append n h]
  simp only [Option.bind_some, scanFraction_of_endsNumber h, scanExponent_of_endsNumber h,
    Option.map_some]

theorem foldl_eq_of_readDigits {s : List Char} {acc n : Nat} (h : Text.readDigits acc s = some n) :
    s.foldl (fun n c => 10 * n + (c.toNat - 48)) acc = n := by
  induction s generalizing acc with
  | nil => exact Option.some.inj h
  | cons c s ih =>
      obtain ⟨d, hd, hrest⟩ := Option.bind_eq_some_iff.1 h
      obtain ⟨-, hd⟩ := Option.ite_none_right_eq_some.1 hd
      rw [← Option.some.inj hd] at hrest
      exact ih hrest

theorem digitsValue_digits (n : Nat) : digitsValue (Text.digits n) = n :=
  foldl_eq_of_readDigits (Text.readDigits_digits n)

/-- **What the numeral of a number is read as.** -/
def numeralTree (n : Nat) : Tree := .number (numberOf? false (Text.digits n) [] none)

/-- Up to the greatest word, a numeral is read as its integer. -/
theorem numeralTree_eq {n : Nat} (h : n ≤ maxWord) : numeralTree n = (Value.ofNat n).tree := by
  simp [numeralTree, numberOf?, digitsValue_digits, h, Value.ofNat, Value.tree]

/-! ### Spellings -/

/-- **A spelling begins with the given tokens every text that ends a number after it.** -/
def Spells (s : List Char) (ts : List Token) : Prop :=
  ∀ rest, EndsNumber rest → tokens (s ++ rest) = (tokens rest).map (ts ++ ·)

theorem Begins.spells {s : List Char} {ts : List Token} (h : Begins s ts) : Spells s ts :=
  fun rest _ => h rest

theorem Begins.append_spells {s s' : List Char} {ts ts' : List Token} (h : Begins s ts)
    (h' : Spells s' ts') : Spells (s ++ s') (ts ++ ts') := by
  intro rest hrest
  rw [List.append_assoc, h, h' rest hrest, map_append_map_append]

namespace Spells

/-- What comes after a number ends it. -/
theorem append {s s' : List Char} {ts ts' : List Token} (h : Spells s ts) (h' : Spells s' ts')
    (hends : ∀ rest, EndsNumber (s' ++ rest)) : Spells (s ++ s') (ts ++ ts') := by
  intro rest hrest
  rw [List.append_assoc, h _ (hends rest), h' rest hrest, map_append_map_append]

/-- A closing mark stands on a line of its own. -/
theorem append_mark {s : List Char} {ts : List Token} (h : Spells s ts) (level : Nat) {c : Char}
    {t : Token} (hmark : Begins [c] [t]) :
    Begins (s ++ (Value.newLine level ++ [c])) (ts ++ [t]) := by
  intro rest
  have hline := ((Begins.newLine level).append hmark) rest
  have hbefore := h (Value.newLine level ++ [c] ++ rest) (endsNumber_newLine _)
  rw [List.append_assoc, hbefore, hline, map_append_map_append, List.nil_append]

/-- A numeral is read as one token. -/
theorem digits (n : Nat) : Spells (Text.digits n) (numeralTree n).tokens := by
  intro rest hrest
  have hscan := scanToken_digits_append n hrest
  obtain ⟨c, s, hcons, hc⟩ := Text.exists_digits_eq_cons n
  rw [hcons, List.cons_append] at hscan
  rw [numeralTree, Tree.tokens, hcons, List.cons_append]
  exact tokens_of_scanToken hscan (isSpace_of_isDigit (isDigit_of_digit? hc)) (by simp)

theorem prettyOfNat (n level : Nat) :
    Spells ((Value.ofNat n).prettyChars level) (numeralTree n).tokens := by
  have htext : (Value.ofNat n).prettyChars level = Text.digits n := by
    rw [Value.ofNat, Value.prettyChars, Number.text, Text.integer,
      if_neg (Int.not_lt.2 (Int.natCast_nonneg n)), Int.natAbs_natCast, Text.natural,
      String.toList_ofList]
  rw [htext]
  exact digits n

theorem prettyItems {level : Nat} {items : List Value} {trees : List Tree}
    (h : List.Forall₂ (fun v t => Spells (v.prettyChars level) t.tokens) items trees) :
    Spells (Value.prettyItems level items) (Tree.tokensItems trees) := by
  induction h with
  | nil => exact Begins.nil.spells
  | @cons v t items trees hv hrest ih =>
      have hitem := (Begins.newLine level).append_spells hv
      cases hrest with
      | nil => exact hitem
      | cons hw hrest =>
          have hmore := hitem.append (Begins.comma.append_spells ih) fun _ => endsNumber_comma _
          simpa [Value.prettyItems, Tree.tokensItems] using hmore

theorem prettyMembers {level : Nat} {members : List (String × Value)}
    {trees : List (Option String × Tree)}
    (h : List.Forall₂ (fun m t => t.1 = some m.1 ∧ Spells (m.2.prettyChars level) t.2.tokens)
      members trees) :
    Spells (Value.prettyMembers level members) (Tree.tokensMembers trees) := by
  induction h with
  | nil => exact Begins.nil.spells
  | @cons m t members trees hm hrest ih =>
      obtain ⟨name, v⟩ := m
      obtain ⟨_, t⟩ := t
      obtain ⟨rfl, hv⟩ := hm
      have hblank : Begins [' '] [] := Begins.blanks (List.forall_mem_singleton.2 rfl)
      have hname := ((Begins.newLine level).append (Begins.quoted name)).append
        (Begins.colon.append hblank)
      have hmember := hname.append_spells hv
      cases hrest with
      | nil => simpa [Value.prettyMembers, Tree.tokensMembers] using hmember
      | cons hw hrest =>
          have hmore := hmember.append (Begins.comma.append_spells ih) fun _ => endsNumber_comma _
          simpa [Value.prettyMembers, Tree.tokensMembers] using hmore

end Spells

/-- **An indented array is read as what its elements are read as.** -/
theorem Begins.prettyArray {level : Nat} {items : List Value} {trees : List Tree}
    (h : List.Forall₂ (fun v t => Spells (v.prettyChars (level + 1)) t.tokens) items trees) :
    Begins ((Value.array items).prettyChars level) (Tree.array trees).tokens := by
  have opening : Begins ['['] [.openBracket] := mark (fun _ => rfl) rfl
  have closing : Begins [']'] [.closeBracket] := mark (fun _ => rfl) rfl
  cases h with
  | nil => exact opening.append closing
  | cons hv hrest =>
      have hitems := (opening.append_spells (Spells.prettyItems (.cons hv hrest))).append_mark level
        closing
      simpa [Value.prettyChars, Tree.tokens] using hitems

/-- **An indented object is read as what its members are read as.** -/
theorem Begins.prettyObject {level : Nat} {members : List (String × Value)}
    {trees : List (Option String × Tree)}
    (h : List.Forall₂ (fun m t => t.1 = some m.1 ∧ Spells (m.2.prettyChars (level + 1)) t.2.tokens)
      members trees) :
    Begins ((Value.object members).prettyChars level) (Tree.object trees).tokens := by
  have opening : Begins ['{'] [.openBrace] := mark (fun _ => rfl) rfl
  have closing : Begins ['}'] [.closeBrace] := mark (fun _ => rfl) rfl
  cases h with
  | nil => exact opening.append closing
  | cons hm hrest =>
      have hmembers := (opening.append_spells (Spells.prettyMembers (.cons hm hrest))).append_mark
        level closing
      simpa [Value.prettyChars, Tree.tokens] using hmembers

/-- **A plain document is read as its tree.** -/
theorem Spells.pretty {n : Nat} {v : Value} (h : v.IsPlain n) (level : Nat) :
    Spells (v.prettyChars level) v.tree.tokens := by
  induction h generalizing level with
  | @null n => exact (Begins.chars (.null (n := n))).spells
  | @bool n b =>
      have hchars := (Begins.chars (.bool (n := n) b)).spells
      cases b <;> exact hchars
  | string s => exact (Begins.quoted s).spells
  | array h ih =>
      refine (Begins.prettyArray ?_).spells
      rw [Value.treeItems_eq_map, List.forall₂_map_right_iff, List.forall₂_same]
      exact fun v hv => ih v hv (level + 1)
  | object h ih =>
      refine (Begins.prettyObject ?_).spells
      rw [Value.treeMembers_eq_map, List.forall₂_map_right_iff, List.forall₂_same]
      exact fun m hm => ⟨rfl, ih m hm (level + 1)⟩

/-! ### Texts -/

/-- A spelling that nothing but blanks comes after is read as what it spells. -/
theorem Tree.ofString?_of_spells {s after : List Char} {t : Tree} (h : Spells s t.tokens)
    (hafter : ∀ c ∈ after, isSpace c = true) :
    ofString? (String.ofList (s ++ after)) = some t := by
  have hblanks := Begins.blanks hafter []
  rw [List.append_nil, tokens_nil] at hblanks
  have htokens := h after (endsNumber_of_isSpace hafter)
  rw [hblanks] at htokens
  refine ofString?_of_tokens (htokens.trans ?_)
  simp

namespace Value

/-- **The indented text of a plain document is read as the document.** -/
theorem ofStringRaw?_pretty {v : Value} (h : v.IsPlain maxDepth) :
    ofStringRaw? v.pretty = some v := by
  have hread : Tree.ofString? (String.ofList (v.prettyChars 0 ++ [])) = some v.tree :=
    Tree.ofString?_of_spells (Spells.pretty h 0) fun _ hc => nomatch hc
  rw [List.append_nil] at hread
  exact ofStringRaw?_of_tree hread (Tree.depth_le h)

/-- The indented text of a plain document is that of a document, in canonical form. -/
theorem ofString?_pretty {v : Value} (h : v.IsPlain maxDepth) :
    ofString? v.pretty = some v.canonical := by
  rw [ofString?, ofStringRaw?_pretty h, Option.map_some]

end Value

end Json

end OfferLayout
