/-
**Lists that are read element by element.**

Many readers of the library go through a list and stop at the first element that they cannot read.
Such a reader succeeds if it can read every element, and fails otherwise with the fault of the
first one that it cannot.  Success is `List.Forall₂`; this module adds the other half.

Main definitions:

* `FirstFault` — **the fault of the first element** that cannot be read;
* `ReadsEach` — a reader of lists goes through them element by element.

Main results:

* `firstFault_cons_iff` — the fault of a list is that of its head, or that of its tail after a head
  that can be read;
* `exists_forall₂_iff` — a list can be read exactly if each of its elements can;
* `ReadsEach.eq_ok_iff`, `ReadsEach.eq_error_iff` — **what such a reader reads**, and how it fails;
* `forall_left_of_forall₂` — what follows for each element of a list that was read.
-/

import Mathlib.Data.List.Forall2

set_option relaxedAutoImplicit false
set_option autoImplicit false

namespace OfferLayout

variable {α β γ ε : Type}

/-- **The fault of the first element that cannot be read.** -/
def FirstFault (read : α → Except ε β) (l : List α) (e : ε) : Prop :=
  ∃ before x after, l = before ++ x :: after ∧ (∀ y ∈ before, ∃ b, read y = .ok b) ∧
    read x = .error e

theorem not_firstFault_nil (read : α → Except ε β) (e : ε) : ¬ FirstFault read [] e := by
  rintro ⟨before, x, after, h, -⟩
  simp at h

/-- The fault of a list is that of its head, or that of its tail after a head that can be read. -/
theorem firstFault_cons_iff {read : α → Except ε β} {a : α} {l : List α} {e : ε} :
    FirstFault read (a :: l) e ↔
      read a = .error e ∨ ∃ b, read a = .ok b ∧ FirstFault read l e := by
  constructor
  · rintro ⟨before, x, after, heq, hbefore, hx⟩
    cases before with
    | nil =>
        simp only [List.nil_append, List.cons.injEq] at heq
        exact Or.inl (heq.1 ▸ hx)
    | cons y before =>
        simp only [List.cons_append, List.cons.injEq] at heq
        obtain ⟨rfl, rfl⟩ := heq
        obtain ⟨b, hb⟩ := hbefore a (List.mem_cons_self ..)
        exact Or.inr ⟨b, hb, before, x, after, rfl,
          fun z hz => hbefore z (List.mem_cons_of_mem _ hz), hx⟩
  · rintro (ha | ⟨b, hb, before, x, after, rfl, hbefore, hx⟩)
    · exact ⟨[], a, l, rfl, by simp, ha⟩
    · refine ⟨a :: before, x, after, rfl, ?_, hx⟩
      rintro y (_ | ⟨_, hy⟩)
      · exact ⟨b, hb⟩
      · exact hbefore y hy

/-- What is read of the elements may be read of what they stand for. -/
theorem firstFault_map_iff {read : α → Except ε β} {f : γ → α} {l : List γ} {e : ε} :
    FirstFault read (l.map f) e ↔ FirstFault (fun c => read (f c)) l e := by
  induction l with
  | nil => exact iff_of_false (not_firstFault_nil _ _) (not_firstFault_nil _ _)
  | cons c l ih => rw [List.map_cons, firstFault_cons_iff, firstFault_cons_iff, ih]

/-- A list can be read if each of its elements can. -/
theorem exists_forall₂_iff {read : α → Except ε β} {l : List α} :
    (∃ bs, List.Forall₂ (fun a b => read a = .ok b) l bs) ↔ ∀ a ∈ l, ∃ b, read a = .ok b := by
  induction l with
  | nil => simp
  | cons a l ih =>
      rw [List.forall_mem_cons, ← ih]
      constructor
      · rintro ⟨_, h⟩
        cases h with
        | cons ha hl => exact ⟨⟨_, ha⟩, _, hl⟩
      · rintro ⟨⟨b, ha⟩, bs, hl⟩
        exact ⟨b :: bs, List.Forall₂.cons ha hl⟩

/-- A reader of lists goes through them element by element, and stops at the first fault. -/
structure ReadsEach (read : α → Except ε β) (readAll : List α → Except ε (List β)) : Prop where
  /-- Nothing is read from nothing. -/
  nil : readAll [] = .ok []
  /-- The first element is read first. -/
  cons (a : α) (l : List α) : readAll (a :: l) = (read a).bind fun b => (readAll l).map (b :: ·)

namespace ReadsEach

variable {read : α → Except ε β} {readAll : List α → Except ε (List β)}

/-- **A list is read if each of its elements is**, in their order. -/
theorem eq_ok_iff (h : ReadsEach read readAll) {l : List α} {bs : List β} :
    readAll l = .ok bs ↔ List.Forall₂ (fun a b => read a = .ok b) l bs := by
  induction l generalizing bs with
  | nil => simp [h.nil, eq_comm]
  | cons a l ih =>
      rw [h.cons, List.forall₂_cons_left_iff]
      simp only [← ih]
      cases read a <;> cases readAll l <;> simp [Except.bind, Except.map, eq_comm]

/-- **A list is not read for the fault of its first element that cannot be.** -/
theorem eq_error_iff (h : ReadsEach read readAll) {l : List α} {e : ε} :
    readAll l = .error e ↔ FirstFault read l e := by
  induction l with
  | nil => simp [h.nil, not_firstFault_nil]
  | cons a l ih =>
      rw [h.cons, firstFault_cons_iff, ← ih]
      cases read a <;> cases readAll l <;> simp [Except.bind, Except.map]

end ReadsEach

/-- What follows for each element on the left of related lists. -/
theorem forall_left_of_forall₂ {R : α → β → Prop} {p : α → Prop} {l : List α} {l' : List β}
    (h : List.Forall₂ R l l') (hp : ∀ a, ∀ b ∈ l', R a b → p a) : ∀ a ∈ l, p a := by
  induction h with
  | nil => simp
  | cons hab _ ih =>
      rintro a (_ | ⟨_, ha⟩)
      · exact hp _ _ (List.mem_cons_self ..) hab
      · exact ih (fun a b hb => hp a b (List.mem_cons_of_mem _ hb)) a ha

/-- Related lists have related elements at each place. -/
theorem getElem?_of_forall₂ {R : α → β → Prop} {l : List α} {l' : List β}
    (h : List.Forall₂ R l l') (i : Nat) : Option.Rel R l[i]? l'[i]? := by
  induction h generalizing i with
  | nil => exact Option.Rel.none
  | cons hab _ ih =>
      cases i with
      | zero => exact Option.Rel.some hab
      | succ i => simpa only [List.getElem?_cons_succ] using ih i

/-- What holds of some element holds of some related one, if it holds of related ones alike. -/
theorem exists_iff_of_forall₂ {R : α → β → Prop} {p : α → Prop} {q : β → Prop} {l : List α}
    {l' : List β} (h : List.Forall₂ R l l') (hpq : ∀ a b, R a b → (p a ↔ q b)) :
    (∃ a ∈ l, p a) ↔ ∃ b ∈ l', q b := by
  induction h with
  | nil => simp
  | cons hab _ ih => rw [List.exists_mem_cons_iff, List.exists_mem_cons_iff, ih, hpq _ _ hab]

/-- What is made of the elements of a list and what was read of them. -/
theorem forall₂_map_zip {R : α → β → Prop} {S : α → γ → Prop} {g : α × β → γ} {l : List α}
    {l' : List β} (h : List.Forall₂ R l l') (hg : ∀ a ∈ l, ∀ b, R a b → S a (g (a, b))) :
    List.Forall₂ S l ((l.zip l').map g) := by
  induction h with
  | nil => exact List.Forall₂.nil
  | cons hab _ ih =>
      refine List.Forall₂.cons (hg _ (List.mem_cons_self ..) _ hab) (ih ?_)
      intro a ha
      exact hg a (List.mem_cons_of_mem _ ha)

end OfferLayout
