/-
**A spelled document is read back.**

The machine that reads tokens meets the tokens of a tree in the state that waits for a value, and
leaves them in the state after that value, with the tree, whatever was open before and whatever
comes next.  The tree of a document denotes the document again.  So the text of a plain document
that is not nested too deeply is read as that document.

Main results:

* `Json.Tree.induct` — induction over a tree;
* `Json.Reading.run_tokens` — **the machine reads the tokens of a tree as that tree**;
* `Json.Tree.ofString?_of_tokens` — so a text with the tokens of a tree is read as it;
* `Json.Tree.value?_tree` — the tree of a document denotes the document;
* `Json.Tree.ofString?_text` — the text of a plain document is read as its tree;
* `Json.Value.ofStringRaw?_text`, `Json.Value.ofString?_text` — **and as the document**, or as its
  canonical form;
* `Json.Value.text_inj` — different plain documents have different texts.
-/

import OfferLayout.Proofs.Json.Spelling

set_option relaxedAutoImplicit false
set_option autoImplicit false

namespace OfferLayout

namespace Json

/-- What holds of a tree if it holds of its parts holds of every tree. -/
@[elab_as_elim] theorem Tree.induct {P : Tree → Prop} (null : P .null) (bool : ∀ b, P (.bool b))
    (number : ∀ n, P (.number n)) (string : ∀ s, P (.string s))
    (array : ∀ items, (∀ t ∈ items, P t) → P (.array items))
    (object : ∀ members : List (Option String × Tree), (∀ m ∈ members, P m.2) →
      P (.object members))
    (t : Tree) : P t :=
  @Tree.rec P (fun items => ∀ t ∈ items, P t) (fun members => ∀ m ∈ members, P m.2)
    (fun m => P m.2) null bool number string array object
    (fun _ ht => nomatch ht) (fun _ _ ht hrest => List.forall_mem_cons.2 ⟨ht, hrest⟩)
    (fun _ hm => nomatch hm) (fun _ _ hm hrest => List.forall_mem_cons.2 ⟨hm, hrest⟩)
    (fun _ _ ht => ht) t

/-! ### The machine -/

namespace Reading

/-- In a fresh array, no value is mistaken for the closing mark. -/
theorem run_firstItem (t : Tree) (rest : List Tree) (opened : List Frame) (us : List Token) :
    (firstItem opened).run (Tree.tokensItems (t :: rest) ++ us) =
      (value (.array [] :: opened)).run (Tree.tokensItems (t :: rest) ++ us) := by
  have ht : ∀ us, (firstItem opened).run (t.tokens ++ us) =
      (value (.array [] :: opened)).run (t.tokens ++ us) := by
    intro us
    cases t <;> simp [Tree.tokens, run, step]
  cases rest with
  | nil => exact ht us
  | cons w rest => simpa [Tree.tokensItems] using ht _

/-- The elements of an array are read after those that were read before. -/
theorem run_tokensItems {t : Tree} {rest : List Tree}
    (h : ∀ w ∈ t :: rest, ∀ opened us,
      (value opened).run (w.tokens ++ us) = (after w opened).run us)
    (before : List Tree) (opened : List Frame) (us : List Token) :
    (value (.array before :: opened)).run (Tree.tokensItems (t :: rest) ++ .closeBracket :: us) =
      (after (.array (before.reverse ++ t :: rest)) opened).run us := by
  induction rest generalizing t before with
  | nil => simp [Tree.tokensItems, h, run, step]
  | cons w rest ih =>
      obtain ⟨ht, hrest⟩ := List.forall_mem_cons.1 h
      -- the element was read last, so it is the first of those that were read before
      have hmore := ih hrest (t :: before)
      simpa [Tree.tokensItems, ht, run, step] using hmore

/-- The members of an object are read after those that were read before. -/
theorem run_tokensMembers {m : Option String × Tree} {rest : List (Option String × Tree)}
    (h : ∀ w ∈ m :: rest, ∀ opened us,
      (value opened).run (w.2.tokens ++ us) = (after w.2 opened).run us)
    (before : List (Option String × Tree)) (first : Bool) (opened : List Frame) (us : List Token) :
    (memberName before first opened).run (Tree.tokensMembers (m :: rest) ++ .closeBrace :: us) =
      (after (.object (before.reverse ++ m :: rest)) opened).run us := by
  induction rest generalizing m before first with
  | nil =>
      obtain ⟨name, t⟩ := m
      have ht := h _ List.mem_cons_self
      simp [Tree.tokensMembers, ht, run, step]
  | cons w rest ih =>
      obtain ⟨name, t⟩ := m
      obtain ⟨ht, hrest⟩ := List.forall_mem_cons.1 h
      have hmore := ih hrest ((name, t) :: before) false
      simpa [Tree.tokensMembers, ht, run, step] using hmore

/-- **The machine reads the tokens of a tree as that tree**, whatever is open and whatever comes
next. -/
theorem run_tokens (t : Tree) (opened : List Frame) (us : List Token) :
    (value opened).run (t.tokens ++ us) = (after t opened).run us := by
  induction t using Tree.induct generalizing opened us with
  | null => rfl
  | bool b => rfl
  | number n => rfl
  | string s => rfl
  | array items ih =>
      cases items with
      | nil => rfl
      | cons t rest =>
          have hitems := run_tokensItems ih [] opened us
          rw [← run_firstItem] at hitems
          simpa [Tree.tokens, run, step, startValue] using hitems
  | object members ih =>
      cases members with
      | nil => rfl
      | cons m rest =>
          have hmembers := run_tokensMembers ih [] true opened us
          simpa [Tree.tokens, run, step, startValue] using hmembers

end Reading

/-! ### Trees -/

theorem Value.treeItems_eq_map (items : List Value) : treeItems items = items.map tree := by
  induction items with
  | nil => rfl
  | cons v rest ih => rw [treeItems, ih, List.map_cons]

theorem Value.treeMembers_eq_map (members : List (String × Value)) :
    treeMembers members = members.map fun m => (some m.1, m.2.tree) := by
  induction members with
  | nil => rfl
  | cons m rest ih => rw [treeMembers, ih, List.map_cons]

namespace Tree

theorem valueItems?_treeItems {items : List Value} (h : ∀ v ∈ items, value? v.tree = some v) :
    valueItems? (Value.treeItems items) = some items := by
  induction items with
  | nil => rfl
  | cons v rest ih =>
      obtain ⟨hv, hrest⟩ := List.forall_mem_cons.1 h
      simp [Value.treeItems, valueItems?, hv, ih hrest]

theorem valueMembers?_treeMembers {members : List (String × Value)}
    (h : ∀ m ∈ members, value? m.2.tree = some m.2) :
    valueMembers? (Value.treeMembers members) = some members := by
  induction members with
  | nil => rfl
  | cons m rest ih =>
      obtain ⟨hv, hrest⟩ := List.forall_mem_cons.1 h
      simp [Value.treeMembers, valueMembers?, hv, ih hrest]

/-- **The tree of a document denotes the document.** -/
theorem value?_tree (v : Value) : value? v.tree = some v := by
  induction v using Value.induct with
  | null => rfl
  | bool b => rfl
  | number n => rfl
  | string s => rfl
  | array items ih => rw [Value.tree, value?, valueItems?_treeItems ih, Option.map_some]
  | object members ih => rw [Value.tree, value?, valueMembers?_treeMembers ih, Option.map_some]

theorem depthItems_le {n : Nat} {items : List Tree} (h : ∀ t ∈ items, t.depth ≤ n) :
    depthItems items ≤ n := by
  induction items with
  | nil => exact Nat.zero_le n
  | cons t rest ih =>
      obtain ⟨ht, hrest⟩ := List.forall_mem_cons.1 h
      exact Nat.max_le.2 ⟨ht, ih hrest⟩

theorem depthMembers_le {n : Nat} {members : List (Option String × Tree)}
    (h : ∀ m ∈ members, m.2.depth ≤ n) : depthMembers members ≤ n := by
  induction members with
  | nil => exact Nat.zero_le n
  | cons m rest ih =>
      obtain ⟨hm, hrest⟩ := List.forall_mem_cons.1 h
      exact Nat.max_le.2 ⟨hm, ih hrest⟩

theorem depth_le {n : Nat} {v : Value} (h : v.IsPlain n) : v.tree.depth ≤ n := by
  induction h with
  | null => exact Nat.zero_le _
  | bool b => exact Nat.zero_le _
  | string s => exact Nat.zero_le _
  | array _ ih =>
      rw [Value.tree, depth, Value.treeItems_eq_map]
      exact Nat.succ_le_succ (depthItems_le (List.forall_mem_map.2 ih))
  | object _ ih =>
      rw [Value.tree, depth, Value.treeMembers_eq_map]
      exact Nat.succ_le_succ (depthMembers_le (List.forall_mem_map.2 ih))

/-! ### Texts -/

/-- **A text that has the tokens of a tree is read as that tree.** -/
theorem ofString?_of_tokens {s : List Char} {t : Tree} (h : Json.tokens s = some t.tokens) :
    ofString? (String.ofList s) = some t := by
  have hrun : (Reading.value []).run t.tokens = some (.after t []) := by
    have htree := Reading.run_tokens t [] []
    rwa [List.append_nil] at htree
  rw [ofString?, String.toList_ofList, h, Option.bind_some, hrun]
  rfl

/-- **The text of a plain document is read as its tree.** -/
theorem ofString?_text {n : Nat} {v : Value} (h : v.IsPlain n) :
    ofString? v.text = some v.tree := by
  have hchars := Begins.chars h []
  rw [List.append_nil, tokens_nil, Option.map_some, List.append_nil] at hchars
  exact ofString?_of_tokens hchars

end Tree

namespace Value

/-- A text that is read as the tree of a document is read as the document, if that is not nested too
deeply. -/
theorem ofStringRaw?_of_tree {s : String} {v : Value} (h : Tree.ofString? s = some v.tree)
    (hdepth : v.tree.depth ≤ maxDepth) : ofStringRaw? s = some v := by
  rw [ofStringRaw?, h, Option.bind_some, if_pos hdepth, Tree.value?_tree]

/-- **The text of a plain document is read as the document.** -/
theorem ofStringRaw?_text {v : Value} (h : v.IsPlain maxDepth) : ofStringRaw? v.text = some v :=
  ofStringRaw?_of_tree (Tree.ofString?_text h) (Tree.depth_le h)

/-- The text of a plain document is that of a document, in canonical form. -/
theorem ofString?_text {v : Value} (h : v.IsPlain maxDepth) :
    ofString? v.text = some v.canonical := by
  rw [ofString?, ofStringRaw?_text h, Option.map_some]

/-- **Different plain documents have different texts.** -/
theorem text_inj {v w : Value} (hv : v.IsPlain maxDepth) (hw : w.IsPlain maxDepth) :
    v.text = w.text ↔ v = w := by
  refine ⟨fun h => ?_, fun h => congrArg text h⟩
  have hread := ofStringRaw?_text hv
  rw [h, ofStringRaw?_text hw] at hread
  exact (Option.some.inj hread).symm

end Value

end Json

end OfferLayout
