/-
**A document can be told from its spelling.**

A string is spelled character by character.  The spelling of a character is scanned as one piece
whatever stands after it, and the piece denotes that character, so the scan of a string ends at the
closing quote and gives the string back.

The spelling of a document is a sequence of tokens without blanks.  A mark, a word and a quoted
string end where they end, but a number goes on as long as digits follow; the documents considered
here have no numbers in them.  For those, the spelling *begins* a text with its tokens, and this is
kept when spellings are put one after the other.

Main definitions:

* `Json.Value.IsPlain` — documents without numbers, nested to a limited depth;
* `Json.Tree.tokens` — the tokens of a tree;
* `Json.Begins` — **a spelling begins every text with the given tokens**;
* `Json.Printable` — a text without control characters.

Main results:

* `Json.Value.induct` — induction over a document;
* `Json.escape_cases` — **how a character is spelled**;
* `Json.scanString_flatMap_escape` — a spelled string is scanned to its end and denotes the string;
* `Json.Begins.chars` — **the spelling of a plain document begins a text with its tokens**;
* `Json.Printable.chars` — no control character occurs in it.
-/

import OfferLayout.Json.Tree

set_option relaxedAutoImplicit false
set_option autoImplicit false

namespace OfferLayout

namespace Json

open Value (hexDigit escape)

/-! ### Documents by their parts -/

/-- What holds of a document if it holds of its parts holds of every document. -/
@[elab_as_elim] theorem Value.induct {P : Value → Prop} (null : P .null) (bool : ∀ b, P (.bool b))
    (number : ∀ n, P (.number n)) (string : ∀ s, P (.string s))
    (array : ∀ items, (∀ v ∈ items, P v) → P (.array items))
    (object : ∀ members : List (String × Value), (∀ m ∈ members, P m.2) → P (.object members))
    (v : Value) : P v :=
  @Value.rec P (fun items => ∀ v ∈ items, P v) (fun members => ∀ m ∈ members, P m.2)
    (fun m => P m.2) null bool number string array object
    (fun _ hv => nomatch hv) (fun _ _ hv hrest => List.forall_mem_cons.2 ⟨hv, hrest⟩)
    (fun _ hm => nomatch hm) (fun _ _ hm hrest => List.forall_mem_cons.2 ⟨hm, hrest⟩)
    (fun _ _ hv => hv) v

/-- **A document is plain to the depth `n`** if there is no number in it, and at most `n` arrays and
objects enclose any place of it. -/
inductive Value.IsPlain : Nat → Value → Prop where
  | null {n : Nat} : IsPlain n .null
  | bool {n : Nat} (b : Bool) : IsPlain n (.bool b)
  | string {n : Nat} (s : String) : IsPlain n (.string s)
  | array {n : Nat} {items : List Value} (h : ∀ v ∈ items, IsPlain n v) :
      IsPlain (n + 1) (.array items)
  | object {n : Nat} {members : List (String × Value)} (h : ∀ m ∈ members, IsPlain n m.2) :
      IsPlain (n + 1) (.object members)

/-! ### Strings -/

/-- A control character is spelled by a letter of its own or by its digits. -/
theorem escape_control : ∀ n < 32,
    -- the letters stand in a list: a quantifier over characters is decided by trying all of them
    (['b', 't', 'n', 'f', 'r'].any fun l => l ≠ 'u' ∧ 32 ≤ l.toNat ∧
      unescape? l = some (Char.ofNat n) ∧ escape (Char.ofNat n) = ['\\', l]) ∨
    escape (Char.ofNat n) = ['\\', 'u', '0', '0', hexDigit (n / 16), hexDigit (n % 16)] := by
  decide

/-- **How a character is spelled**: as itself, by a letter, or by its digits. -/
theorem escape_cases (c : Char) :
    (c ≠ '"' ∧ c ≠ '\\' ∧ 32 ≤ c.toNat ∧ escape c = [c]) ∨
    (∃ l, l ≠ 'u' ∧ 32 ≤ l.toNat ∧ unescape? l = some c ∧ escape c = ['\\', l]) ∨
    (c.toNat < 32 ∧
      escape c = ['\\', 'u', '0', '0', hexDigit (c.toNat / 16), hexDigit (c.toNat % 16)]) := by
  by_cases hquote : c = '"'
  · subst hquote
    exact Or.inr (Or.inl ⟨'"', by decide⟩)
  by_cases hslash : c = '\\'
  · subst hslash
    exact Or.inr (Or.inl ⟨'\\', by decide⟩)
  by_cases hcontrol : c.toNat < 32
  · have hc := escape_control c.toNat hcontrol
    rw [Char.ofNat_toNat] at hc
    rcases hc with hletter | hescape
    · obtain ⟨l, -, hl⟩ := List.any_eq_true.1 hletter
      exact Or.inr (Or.inl ⟨l, of_decide_eq_true hl⟩)
    · exact Or.inr (Or.inr ⟨hcontrol, hescape⟩)
  · refine Or.inl ⟨hquote, hslash, by omega, ?_⟩
    have hne : ∀ n < 32, c.toNat ≠ n := by omega
    simp [escape, hquote, hslash, hcontrol, hne]

theorem hexNumber?_hexDigit :
    ∀ n < 32, Text.hexNumber? ['0', '0', hexDigit (n / 16), hexDigit (n % 16)] = some n := by
  decide

theorem assemble_unit {n : Nat} (h : n < 0xD800) (pieces : List Piece) :
    assemble (.unit n :: pieces) = (assemble pieces).map (Char.ofNat n :: ·) := by
  have hhigh : isHighSurrogate n = false := by simp [isHighSurrogate]; omega
  have hlow : isLowSurrogate n = false := by simp [isLowSurrogate]; omega
  cases pieces with
  | nil => simp [assemble, hhigh, hlow]
  | cons p pieces => cases p <;> simp [assemble, hhigh, hlow]

/-- **The spelling of a character is scanned as one piece**, which denotes the character. -/
theorem exists_piece (c : Char) : ∃ piece : Piece,
    (∀ s, scanString (escape c ++ s) = (scanString s).map fun r => (piece :: r.1, r.2)) ∧
      ∀ pieces, assemble (piece :: pieces) = (assemble pieces).map (c :: ·) := by
  rcases escape_cases c with ⟨hquote, hslash, hc, hescape⟩ | ⟨l, hl, -, hunescape, hescape⟩ |
      ⟨hc, hescape⟩
  · refine ⟨.char c, fun s => ?_, fun _ => rfl⟩
    have hlt : ¬ c.toNat < 32 := by omega
    rw [hescape, List.singleton_append, scanString]
    -- the scan reaches its last equation, since no backslash is met
    · simp [hquote, hslash, hlt]
    · simp [hslash]
    · simp [hslash]
  · refine ⟨.char c, fun s => ?_, fun _ => rfl⟩
    rw [hescape]
    simp [scanString, hl, hunescape]
  · refine ⟨.unit c.toNat, fun s => ?_, fun pieces => ?_⟩
    · rw [hescape]
      simp [scanString, hexNumber?_hexDigit _ hc]
    · rw [assemble_unit (by omega), Char.ofNat_toNat]

/-- **A spelled string is scanned up to its closing quote**, and what was scanned denotes it. -/
theorem scanString_flatMap_escape (s : List Char) : ∃ pieces, assemble pieces = some s ∧
    ∀ rest, scanString (s.flatMap escape ++ '"' :: rest) = some (pieces, rest) := by
  induction s with
  | nil => exact ⟨[], rfl, fun rest => by simp [scanString]⟩
  | cons c s ih =>
      obtain ⟨pieces, hassemble, hscan⟩ := ih
      obtain ⟨piece, hpiece, hdenotes⟩ := exists_piece c
      refine ⟨piece :: pieces, ?_, fun rest => ?_⟩
      · rw [hdenotes, hassemble, Option.map_some]
      · rw [List.flatMap_cons, List.append_assoc, hpiece, hscan, Option.map_some]

/-! ### Tokens -/

mutual

/-- The tokens of a tree. -/
def Tree.tokens : Tree → List Token
  | .null => [.null]
  | .bool b => [.bool b]
  | .number n => [.number n]
  | .string s => [.string s]
  | .array items => .openBracket :: Tree.tokensItems items ++ [.closeBracket]
  | .object members => .openBrace :: Tree.tokensMembers members ++ [.closeBrace]

/-- The tokens of the elements of an array, with commas between them. -/
def Tree.tokensItems : List Tree → List Token
  | [] => []
  | [t] => Tree.tokens t
  | t :: rest => Tree.tokens t ++ .comma :: Tree.tokensItems rest

/-- The tokens of the members of an object, with commas between them. -/
def Tree.tokensMembers : List (Option String × Tree) → List Token
  | [] => []
  | [(name, t)] => .string name :: .colon :: Tree.tokens t
  | (name, t) :: rest =>
      .string name :: .colon :: (Tree.tokens t ++ .comma :: Tree.tokensMembers rest)

end

theorem tokens_nil : tokens [] = some [] := by
  rw [tokens]
  rfl

theorem tokens_of_scanToken {c : Char} {s rest : List Char} {t : Token}
    (hscan : scanToken (c :: s) = some (t, rest)) (hc : isSpace c = false)
    (hlen : rest.length ≤ s.length) :
    tokens (c :: s) = (tokens rest).map (t :: ·) := by
  have hlt : rest.length < (c :: s).length := by rw [List.length_cons]; omega
  rw [tokens]
  simp only [List.dropWhile_cons, hc, Bool.false_eq_true, if_false, hscan, hlt, if_true]

theorem map_append_map_append (ts ts' : List Token) (us : Option (List Token)) :
    (us.map (ts' ++ ·)).map (ts ++ ·) = us.map (ts ++ ts' ++ ·) := by
  cases us <;> simp

/-- **A spelling begins every text with the given tokens**, whatever stands after it. -/
def Begins (s : List Char) (ts : List Token) : Prop :=
  ∀ rest, tokens (s ++ rest) = (tokens rest).map (ts ++ ·)

namespace Begins

theorem nil : Begins [] [] := by
  intro rest
  simp

theorem append {s s' : List Char} {ts ts' : List Token} (h : Begins s ts) (h' : Begins s' ts') :
    Begins (s ++ s') (ts ++ ts') := by
  intro rest
  rw [List.append_assoc, h, h', map_append_map_append]

theorem mark {c : Char} {t : Token} (h : ∀ s, scanToken (c :: s) = some (t, s))
    (hc : isSpace c = false) : Begins [c] [t] := fun rest =>
  tokens_of_scanToken (h rest) hc (Nat.le_refl _)

theorem comma : Begins [','] [.comma] := mark (fun _ => rfl) rfl

theorem colon : Begins [':'] [.colon] := mark (fun _ => rfl) rfl

theorem quoted (s : String) : Begins (Value.quoted s) [.string (some s)] := by
  intro rest
  obtain ⟨pieces, hassemble, hpieces⟩ := scanString_flatMap_escape s.toList
  have hscan : scanToken ('"' :: (s.toList.flatMap escape ++ '"' :: rest)) =
      some (.string (some s), rest) := by
    rw [scanToken, hpieces, Option.map_some, stringOfPieces, hassemble, Option.map_some,
      String.ofList_toList]
  have hfirst := tokens_of_scanToken hscan rfl (by simp; omega)
  simpa [Value.quoted] using hfirst

theorem items {items : List Value} (h : ∀ v ∈ items, Begins v.chars v.tree.tokens) :
    Begins (Value.charsItems items) (Tree.tokensItems (Value.treeItems items)) := by
  induction items with
  | nil => exact nil
  | cons v rest ih =>
      obtain ⟨hv, hrest⟩ := List.forall_mem_cons.1 h
      cases rest with
      | nil => exact hv
      | cons w rest => exact hv.append (comma.append (ih hrest))

theorem members {members : List (String × Value)}
    (h : ∀ m ∈ members, Begins m.2.chars m.2.tree.tokens) :
    Begins (Value.charsMembers members) (Tree.tokensMembers (Value.treeMembers members)) := by
  induction members with
  | nil => exact nil
  | cons m rest ih =>
      obtain ⟨name, v⟩ := m
      obtain ⟨hv, hrest⟩ := List.forall_mem_cons.1 h
      have hmember := (quoted name).append (colon.append hv)
      cases rest with
      | nil => exact hmember
      | cons w rest =>
          have hmembers := hmember.append (comma.append (ih hrest))
          simpa [Value.charsMembers, Value.treeMembers, Tree.tokensMembers] using hmembers

/-- **The spelling of a plain document begins a text with its tokens.** -/
theorem chars {n : Nat} {v : Value} (h : v.IsPlain n) :
    Begins v.chars v.tree.tokens := by
  induction h with
  | null => exact fun rest => tokens_of_scanToken rfl rfl (by simp; omega)
  | bool b => cases b <;> exact fun rest => tokens_of_scanToken rfl rfl (by simp; omega)
  | string s => exact quoted s
  | array _ ih =>
      have opening : Begins ['['] [.openBracket] := mark (fun _ => rfl) rfl
      have closing : Begins [']'] [.closeBracket] := mark (fun _ => rfl) rfl
      exact (opening.append (items ih)).append closing
  | object _ ih =>
      have opening : Begins ['{'] [.openBrace] := mark (fun _ => rfl) rfl
      have closing : Begins ['}'] [.closeBrace] := mark (fun _ => rfl) rfl
      exact (opening.append (members ih)).append closing

end Begins

/-! ### Control characters -/

/-- No control character occurs in a text. -/
def Printable (s : List Char) : Prop := ∀ c ∈ s, 32 ≤ c.toNat

instance (s : List Char) : Decidable (Printable s) :=
  List.decidableBAll (fun c => 32 ≤ Char.toNat c) s

namespace Printable

theorem nil : Printable [] := fun _ hc => nomatch hc

theorem cons {c : Char} {s : List Char} (hc : 32 ≤ c.toNat) (hs : Printable s) :
    Printable (c :: s) := List.forall_mem_cons.2 ⟨hc, hs⟩

theorem append {s t : List Char} (hs : Printable s) (ht : Printable t) : Printable (s ++ t) :=
  List.forall_mem_append.2 ⟨hs, ht⟩

theorem escape (c : Char) : Printable (Value.escape c) := by
  have hdigit : ∀ n < 16, 32 ≤ (hexDigit n).toNat := by decide
  rcases escape_cases c with ⟨-, -, hc, hescape⟩ | ⟨l, -, hl, -, hescape⟩ | ⟨hc, hescape⟩
  · rw [hescape]
    exact cons hc nil
  · rw [hescape]
    exact cons (by decide) (cons hl nil)
  · have hhigh := hdigit (c.toNat / 16) (by omega)
    have hlow := hdigit (c.toNat % 16) (by omega)
    rw [hescape]
    exact cons (by decide) (cons (by decide) (cons (by decide) (cons (by decide)
      (cons hhigh (cons hlow nil)))))

theorem quoted (s : String) : Printable (Value.quoted s) := by
  have hinner : Printable (s.toList.flatMap Value.escape) := by
    intro c hc
    obtain ⟨d, -, hd⟩ := List.mem_flatMap.1 hc
    exact escape d c hd
  exact cons (by decide) (hinner.append (cons (by decide) nil))

theorem items {items : List Value} (h : ∀ v ∈ items, Printable v.chars) :
    Printable (Value.charsItems items) := by
  induction items with
  | nil => exact nil
  | cons v rest ih =>
      obtain ⟨hv, hrest⟩ := List.forall_mem_cons.1 h
      cases rest with
      | nil => exact hv
      | cons w rest => exact hv.append (cons (by decide) (ih hrest))

theorem members {members : List (String × Value)} (h : ∀ m ∈ members, Printable m.2.chars) :
    Printable (Value.charsMembers members) := by
  induction members with
  | nil => exact nil
  | cons m rest ih =>
      obtain ⟨name, v⟩ := m
      obtain ⟨hv, hrest⟩ := List.forall_mem_cons.1 h
      have hcolon : 32 ≤ ':'.toNat := by decide
      have hcomma : 32 ≤ ','.toNat := by decide
      cases rest with
      | nil => exact (quoted name).append (cons hcolon hv)
      | cons w rest =>
          have hmore := hv.append (cons hcomma (ih hrest))
          exact (quoted name).append (cons hcolon hmore)

/-- **No control character occurs in the spelling of a plain document**, so it takes one line. -/
theorem chars {n : Nat} {v : Value} (h : v.IsPlain n) : Printable v.chars := by
  induction h with
  | null => decide
  | bool b => cases b <;> decide
  | string s => exact quoted s
  | array _ ih => exact cons (by decide) ((items ih).append (cons (by decide) nil))
  | object _ ih => exact cons (by decide) ((members ih).append (cons (by decide) nil))

end Printable

end Json

end OfferLayout
