/-
**Maps from names to values, in the order of the names.**

A map is the list of its entries with strictly increasing names.  Names are compared character by
character by code point, which is also the order of their UTF-8 bytes.  Since the order of the
entries is fixed, two maps with the same entries are equal.

Main definitions:

* `Dict` — a map;
* `Dict.insert`, `Dict.ofList` — adding entries; a later entry replaces an earlier one of its name;
* `Dict.get?` — the value at a name.

Main results:

* `Ascending.insertEntry` — insertion keeps the order of the entries;
* `Dict.ofList_entries` — a map is rebuilt from its own entries;
* `Dict.mem_of_mem_ofList` — a map has the entries only that it was made of;
* `Dict.get?_ofList` — what stands in a list with different names is found in its map.
-/

set_option relaxedAutoImplicit false
set_option autoImplicit false

namespace OfferLayout

universe u v

variable {α : Type u} {β : Type v}

/-! ### Lists of entries -/

/-- The names of the entries increase strictly. -/
def Ascending (l : List (String × α)) : Prop := l.Pairwise fun a b => a.1 < b.1

/-- Adds an entry at its place; an entry of the same name is replaced. -/
def insertEntry (name : String) (value : α) : List (String × α) → List (String × α)
  | [] => [(name, value)]
  | (other, w) :: rest =>
      if name < other then (name, value) :: (other, w) :: rest
      else if name = other then (name, value) :: rest
      else (other, w) :: insertEntry name value rest

theorem lt_of_not_lt_of_ne {a b : String} (h : ¬ a < b) (hne : a ≠ b) : b < a := by
  apply Decidable.byContradiction
  intro h'
  exact hne (String.le_antisymm (String.not_lt.1 h') (String.not_lt.1 h))

/-- The entries after an insertion are the new one and old ones. -/
theorem mem_of_mem_insertEntry {name : String} {value : α} {l : List (String × α)}
    {e : String × α} (h : e ∈ insertEntry name value l) : e = (name, value) ∨ e ∈ l := by
  induction l with
  | nil => simpa [insertEntry] using h
  | cons p l ih =>
      obtain ⟨other, w⟩ := p
      simp only [insertEntry] at h
      split at h
      · simpa using h
      · split at h
        · rcases List.mem_cons.1 h with h | h
          · exact Or.inl h
          · exact Or.inr (List.mem_cons_of_mem _ h)
        · rcases List.mem_cons.1 h with h | h
          · exact Or.inr (h ▸ List.mem_cons_self)
          · rcases ih h with h | h
            · exact Or.inl h
            · exact Or.inr (List.mem_cons_of_mem _ h)

/-- **Insertion keeps the order.** -/
theorem Ascending.insertEntry {name : String} {value : α} {l : List (String × α)}
    (h : Ascending l) : Ascending (insertEntry name value l) := by
  induction l with
  | nil => simp [Ascending, OfferLayout.insertEntry]
  | cons p l ih =>
      obtain ⟨other, w⟩ := p
      have hl : Ascending l := (List.pairwise_cons.1 h).2
      have hp := (List.pairwise_cons.1 h).1
      simp only [OfferLayout.insertEntry]
      split
      · next hlt =>
          refine List.pairwise_cons.2 ⟨fun b hb => ?_, h⟩
          rcases List.mem_cons.1 hb with rfl | hb
          · exact hlt
          · exact String.lt_trans hlt (hp b hb)
      · split
        · next heq => subst heq; exact List.pairwise_cons.2 ⟨hp, hl⟩
        · next hlt hne =>
            refine List.pairwise_cons.2 ⟨fun b hb => ?_, ih hl⟩
            rcases mem_of_mem_insertEntry hb with rfl | hb
            · exact lt_of_not_lt_of_ne hlt hne
            · exact hp b hb

theorem lookup_cons_ite (name other : String) (value : α) (l : List (String × α)) :
    ((other, value) :: l).lookup name = if name = other then some value else l.lookup name := by
  rw [List.lookup_cons]
  split
  · next h => rw [if_pos (eq_of_beq h)]
  · next h => rw [if_neg (ne_of_beq_false h)]

/-- After an insertion the value is found at its name, and nothing changes at the others. -/
theorem lookup_insertEntry (name : String) (value : α) (l : List (String × α)) (other : String) :
    (insertEntry name value l).lookup other =
      if other = name then some value else l.lookup other := by
  induction l with
  | nil => exact lookup_cons_ite other name value []
  | cons e l ih =>
      obtain ⟨k, w⟩ := e
      rw [insertEntry]
      split
      · exact lookup_cons_ite other name value _
      · split
        · next heq =>
            subst heq
            rw [lookup_cons_ite, lookup_cons_ite]
            split <;> rfl
        · next hne =>
            rw [lookup_cons_ite, lookup_cons_ite, ih]
            by_cases hother : other = k
            · rw [if_pos hother, if_pos hother, if_neg (hother ▸ Ne.symm hne)]
            · rw [if_neg hother, if_neg hother]

/-! ### Maps -/

/-- A map from names to values. -/
structure Dict (α : Type u) where
  /-- The entries, by increasing name. -/
  entries : List (String × α)
  /-- The names increase strictly. -/
  ascending : Ascending entries

namespace Dict

/-- The map without entries. -/
def empty : Dict α := ⟨[], List.Pairwise.nil⟩

instance : EmptyCollection (Dict α) := ⟨empty⟩

instance : Inhabited (Dict α) := ⟨empty⟩

@[ext] theorem ext {d e : Dict α} (h : d.entries = e.entries) : d = e := by
  cases d; cases e; simp_all

instance [DecidableEq α] : DecidableEq (Dict α) := fun d e =>
  if h : d.entries = e.entries then isTrue (ext h) else isFalse fun he => h (he ▸ rfl)

/-- Adds an entry; an entry of the same name is replaced. -/
def insert (d : Dict α) (name : String) (value : α) : Dict α :=
  ⟨insertEntry name value d.entries, d.ascending.insertEntry⟩

/-- The map with the given entries; a later entry replaces an earlier one of its name. -/
def ofList (l : List (String × α)) : Dict α :=
  l.foldl (fun d e => d.insert e.1 e.2) empty

/-- The value at a name. -/
def get? (d : Dict α) (name : String) : Option α := d.entries.lookup name

/-- Whether the map has no entry. -/
def isEmpty (d : Dict α) : Bool := d.entries.isEmpty

/-- The map with the same names and the images of the values. -/
def mapValues (f : α → β) (d : Dict α) : Dict β :=
  ⟨d.entries.map fun e => (e.1, f e.2), List.pairwise_map.2 (d.ascending.imp id)⟩

@[simp] theorem entries_empty : (empty : Dict α).entries = [] := rfl

theorem isEmpty_iff {d : Dict α} : d.isEmpty = true ↔ d = ∅ :=
  ⟨fun h => ext (List.isEmpty_iff.1 h), fun h => h ▸ rfl⟩

@[simp] theorem get?_empty (name : String) : (empty : Dict α).get? name = none := rfl

@[simp] theorem entries_mapValues (f : α → β) (d : Dict α) :
    (d.mapValues f).entries = d.entries.map fun e => (e.1, f e.2) := rfl

end Dict

/-- An entry whose name comes after all others is put at the end. -/
theorem insertEntry_eq_append {name : String} {value : α} {l : List (String × α)}
    (h : ∀ e ∈ l, e.1 < name) : insertEntry name value l = l ++ [(name, value)] := by
  induction l with
  | nil => rfl
  | cons p l ih =>
      obtain ⟨other, w⟩ := p
      have hlt : other < name := h (other, w) List.mem_cons_self
      have hne : name ≠ other := fun he => String.lt_irrefl other (he ▸ hlt)
      simp only [insertEntry, String.lt_asymm hlt, hne, if_false, List.cons_append]
      rw [ih fun e he => h e (List.mem_cons_of_mem _ he)]

namespace Dict

/-- Adding ascending entries that come after those of the map appends them. -/
theorem entries_foldl_insert (l : List (String × α)) (d : Dict α)
    (h : Ascending (d.entries ++ l)) :
    (l.foldl (fun d e => d.insert e.1 e.2) d).entries = d.entries ++ l := by
  induction l generalizing d with
  | nil => simp
  | cons e l ih =>
      obtain ⟨name, value⟩ := e
      have hlt : ∀ a ∈ d.entries, a.1 < name := fun a ha =>
        (List.pairwise_append.1 h).2.2 a ha (name, value) List.mem_cons_self
      have hins : (d.insert name value).entries = d.entries ++ [(name, value)] :=
        insertEntry_eq_append hlt
      rw [List.foldl_cons, ih _ (by rw [hins]; simpa using h), hins]
      simp

/-- **A map is rebuilt from its own entries.** -/
@[simp] theorem ofList_entries (d : Dict α) : ofList d.entries = d :=
  ext (by simpa [ofList] using entries_foldl_insert d.entries empty (by simpa using d.ascending))

/-- Every entry of a map is one of those that the map was made of. -/
theorem mem_of_mem_ofList {l : List (String × α)} {e : String × α} (h : e ∈ (ofList l).entries) :
    e ∈ l := by
  have hfold : ∀ d : Dict α, e ∈ (l.foldl (fun d e => d.insert e.1 e.2) d).entries →
      e ∈ d.entries ∨ e ∈ l := by
    clear h
    induction l with
    | nil => exact fun d h => Or.inl h
    | cons m l ih =>
        intro d h
        rcases ih (d.insert m.1 m.2) h with h | h
        · rcases mem_of_mem_insertEntry h with rfl | h
          · exact Or.inr List.mem_cons_self
          · exact Or.inl h
        · exact Or.inr (List.mem_cons_of_mem m h)
  exact (hfold empty h).resolve_left (by simp)

/-! ### Finding entries -/

theorem nodup_names (d : Dict α) : (d.entries.map Prod.fst).Nodup := by
  refine List.pairwise_map.2 (d.ascending.imp ?_)
  intro a b hlt heq
  rw [heq] at hlt
  exact String.lt_irrefl _ hlt

/-- An entry of a list with different names is found by its name. -/
theorem lookup_of_mem {l : List (String × α)} (h : (l.map Prod.fst).Nodup) {e : String × α}
    (he : e ∈ l) : l.lookup e.1 = some e.2 := by
  induction l with
  | nil => cases he
  | cons m l ih =>
      obtain ⟨name, value⟩ := m
      rw [List.map_cons, List.nodup_cons] at h
      rw [lookup_cons_ite]
      rcases List.mem_cons.1 he with rfl | he
      · rw [if_pos rfl]
      · have hne : e.1 ≠ name := fun heq => h.1 (List.mem_map.2 ⟨e, he, heq⟩)
        rw [if_neg hne, ih h.2 he]

theorem get?_insert (d : Dict α) (name : String) (value : α) (other : String) :
    (d.insert name value).get? other = if other = name then some value else d.get? other :=
  lookup_insertEntry name value d.entries other

theorem get?_foldl_insert {l : List (String × α)} (h : (l.map Prod.fst).Nodup) (d : Dict α)
    (name : String) :
    (l.foldl (fun d e => d.insert e.1 e.2) d).get? name = (l.lookup name).or (d.get? name) := by
  induction l generalizing d with
  | nil => rfl
  | cons e l ih =>
      obtain ⟨k, value⟩ := e
      obtain ⟨hk, hl⟩ := List.nodup_cons.1 h
      rw [List.foldl_cons, ih hl, get?_insert, lookup_cons_ite]
      split
      · next heq =>
          have hnone : l.lookup name = none := by
            rw [List.lookup_eq_none_iff]
            intro p hp
            rw [bne_iff_ne, heq]
            exact fun he => hk (List.mem_map.2 ⟨p, hp, he.symm⟩)
          rw [hnone]
          rfl
      · rfl

/-- **What stands in a list with different names is found in its map.** -/
theorem get?_ofList {l : List (String × α)} (h : (l.map Prod.fst).Nodup) (name : String) :
    (ofList l).get? name = l.lookup name := by
  rw [ofList, get?_foldl_insert h, get?_empty, Option.or_none]

end Dict

end OfferLayout
