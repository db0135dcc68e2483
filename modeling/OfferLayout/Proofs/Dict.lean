/-
**Maps and the lists they are made of.**

A map that is made of a list has the last value that the list has for each name.  It is determined
by the values at its names.  Where the entries of two lists correspond, so do the maps.

Main definitions:

* `IsLast` — the value of a name in a list of entries is that of its last entry.

Main results:

* `Dict.get?_ofList_eq_some_iff` — **what is found in a map that is made of a list**;
* `Dict.mem_entries_iff` — the entries of a map are what is found in it;
* `Dict.ext_get?` — a map is determined by what is found in it;
* `Dict.get?_ofList_of_forall₂` — what is found where entries correspond.
-/

import Mathlib.Data.List.Forall2
import Mathlib.Data.List.Induction
import Mathlib.Data.List.Nodup
import Mathlib.Data.List.Perm.Basic
import OfferLayout.Dict

set_option relaxedAutoImplicit false
set_option autoImplicit false

namespace OfferLayout

variable {α β : Type}

/-- **The value of a name in a list of entries** is that of its last entry. -/
def IsLast (l : List (String × α)) (name : String) (value : α) : Prop :=
  ∃ before after, l = before ++ (name, value) :: after ∧ ∀ e ∈ after, e.1 ≠ name

theorem IsLast.mem {l : List (String × α)} {name : String} {value : α} (h : IsLast l name value) :
    (name, value) ∈ l := by
  obtain ⟨before, after, rfl, -⟩ := h
  exact List.mem_append_right _ List.mem_cons_self

namespace Dict

theorem get?_ofList_eq_lookup_reverse (l : List (String × α)) (name : String) :
    (ofList l).get? name = l.reverse.lookup name := by
  induction l using List.reverseRecOn with
  | nil => rfl
  | append_singleton l e ih =>
      have hinsert : ofList (l ++ [e]) = (ofList l).insert e.1 e.2 := by
        rw [ofList, List.foldl_append, List.foldl_cons, List.foldl_nil, ofList]
      rw [hinsert, get?_insert, ih, List.reverse_append, List.reverse_singleton,
        List.singleton_append, lookup_cons_ite]

/-- **What is found in a map that is made of a list** is the last value of the name. -/
theorem get?_ofList_eq_some_iff {l : List (String × α)} {name : String} {value : α} :
    (ofList l).get? name = some value ↔ IsLast l name value := by
  rw [get?_ofList_eq_lookup_reverse, List.lookup_eq_some_iff]
  constructor
  · rintro ⟨after, before, heq, hafter⟩
    refine ⟨before.reverse, after.reverse, ?_, fun e he => ?_⟩
    · rw [← List.reverse_reverse l, heq]
      simp
    · exact (bne_iff_ne.1 (hafter e (List.mem_reverse.1 he))).symm
  · rintro ⟨before, after, rfl, hafter⟩
    refine ⟨after.reverse, before.reverse, by simp, fun e he => ?_⟩
    exact bne_iff_ne.2 (hafter e (List.mem_reverse.1 he)).symm

/-- The entries of a map are what is found in it. -/
theorem mem_entries_iff {d : Dict α} {name : String} {value : α} :
    (name, value) ∈ d.entries ↔ d.get? name = some value := by
  constructor
  · exact lookup_of_mem d.nodup_names
  · intro h
    obtain ⟨before, after, heq, -⟩ := List.lookup_eq_some_iff.1 h
    rw [heq]
    exact List.mem_append_right _ List.mem_cons_self

/-- **A map is determined by what is found in it.** -/
theorem ext_get? {d e : Dict α} (h : ∀ name, d.get? name = e.get? name) : d = e := by
  have hmem : ∀ m, m ∈ d.entries ↔ m ∈ e.entries := by
    rintro ⟨name, value⟩
    rw [mem_entries_iff, mem_entries_iff, h]
  have hperm : d.entries.Perm e.entries :=
    (List.perm_ext_iff_of_nodup (List.Nodup.of_map _ d.nodup_names)
      (List.Nodup.of_map _ e.nodup_names)).2 hmem
  refine ext (hperm.eq_of_pairwise ?_ d.ascending e.ascending)
  intro a b _ _ hab hba
  exact absurd (String.lt_trans hab hba) (String.lt_irrefl _)

end Dict

/-! ### Entries that correspond -/

section

variable {R : α → β → Prop} {l : List (String × α)} {l' : List (String × β)}

/-- Entries that correspond have the same names. -/
theorem map_fst_of_forall₂ (h : List.Forall₂ (fun m m' => m.1 = m'.1 ∧ R m.2 m'.2) l l') :
    l.map Prod.fst = l'.map Prod.fst := by
  induction h with
  | nil => rfl
  | cons hm _ ih => rw [List.map_cons, List.map_cons, hm.1, ih]

/-- Where entries correspond, so does what is found in them. -/
theorem lookup_of_forall₂ (h : List.Forall₂ (fun m m' => m.1 = m'.1 ∧ R m.2 m'.2) l l')
    (name : String) : Option.Rel R (l.lookup name) (l'.lookup name) := by
  induction h with
  | nil => exact Option.Rel.none
  | @cons m m' _ _ hm _ ih =>
      obtain ⟨other, a⟩ := m
      obtain ⟨other', b⟩ := m'
      obtain ⟨rfl, hab⟩ : other = other' ∧ R a b := hm
      rw [lookup_cons_ite, lookup_cons_ite]
      split
      · exact Option.Rel.some hab
      · exact ih

/-- **A map that is made of entries that correspond to those of another** corresponds to it. -/
theorem Dict.get?_ofList_of_forall₂ {d : Dict α}
    (h : List.Forall₂ (fun m m' => m.1 = m'.1 ∧ R m.2 m'.2) d.entries l') (name : String) :
    Option.Rel R (d.get? name) ((ofList l').get? name) := by
  have hnodup : (l'.map Prod.fst).Nodup := map_fst_of_forall₂ h ▸ d.nodup_names
  rw [get?_ofList hnodup]
  exact lookup_of_forall₂ h name

end

end OfferLayout
