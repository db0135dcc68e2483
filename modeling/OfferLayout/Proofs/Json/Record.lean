/-
**Records are read back field by field.**

What is written of a record has a member for each field that is there.  Each field is found again by
its name in that document, also in the canonical form of it, so a record is read back if each of its
fields is.  A document may have been spelled in another way than it is written; still, what is read
from it is in normal form when it is written, and so are lists and maps of what is.

Main definitions:

* `Json.membersOf` — the members of the fields that are there;
* `Json.Value.IsWriting` — the ways in which a document is written;
* `Json.Value.NormalForm` — **what is read is in normal form when it is written**.

Main results:

* `Json.lookup_membersOf` — a field is found by its name if it is there;
* `Json.Value.elim_nullable?` — an optional field is read back if its value is;
* `Json.Value.Faithful.fields_membersOf` — **the fields that are read are those that are written**;
* `Json.Value.IsWriting.of_value?` — the fields of a document that is written as it stands are too;
* `Json.Value.NormalForm.list`, `Json.Value.NormalForm.dict` — lists and maps in normal form.
-/

import OfferLayout.Proofs.Json.Faithful

set_option relaxedAutoImplicit false
set_option autoImplicit false

namespace OfferLayout

namespace Json

universe u

variable {α : Type u}

/-! ### Members -/

/-- **The members of the fields that are there.** -/
def membersOf (fields : List (String × Option Value)) : List (String × Value) :=
  fields.filterMap fun m => m.2.map fun v => (m.1, v)

@[simp] theorem membersOf_nil : membersOf [] = [] := rfl

@[simp] theorem membersOf_some (name : String) (v : Value) (rest : List (String × Option Value)) :
    membersOf ((name, some v) :: rest) = (name, v) :: membersOf rest := rfl

@[simp] theorem membersOf_map (name : String) (encode : α → Value) (a? : Option α)
    (rest : List (String × Option Value)) :
    membersOf ((name, a?.map encode) :: rest) =
      optionalMember name encode a? ++ membersOf rest := by
  cases a? <;> rfl

theorem sublist_membersOf (fields : List (String × Option Value)) :
    ((membersOf fields).map Prod.fst).Sublist (fields.map Prod.fst) := by
  induction fields with
  | nil => exact List.Sublist.refl []
  | cons m rest ih =>
      obtain ⟨name, _ | v⟩ := m
      · exact ih.cons name
      · exact ih.cons_cons name

/-- **A field is found by its name** if it is there. -/
theorem lookup_membersOf {fields : List (String × Option Value)}
    (h : (fields.map Prod.fst).Nodup) (name : String) :
    (membersOf fields).lookup name = (fields.lookup name).join := by
  induction fields with
  | nil => rfl
  | cons m rest ih =>
      obtain ⟨other, v?⟩ := m
      rw [List.map_cons, List.nodup_cons] at h
      rw [lookup_cons_ite]
      cases v? with
      | some v =>
          rw [membersOf_some, lookup_cons_ite, ih h.2]
          split <;> rfl
      | none =>
          have hskip : membersOf ((other, none) :: rest) = membersOf rest := rfl
          rw [hskip]
          split
          · next heq =>
              -- the name of a field that is not there belongs to no other field
              have hother : name ∉ (membersOf rest).map Prod.fst :=
                fun hmem => h.1 (heq ▸ (sublist_membersOf rest).subset hmem)
              rw [Option.join_some, List.lookup_eq_none_iff]
              intro m hm
              have hne : name ≠ m.1 := fun h => hother (h ▸ List.mem_map_of_mem hm)
              simpa using hne
          · exact ih h.2

/-! ### Reading fields -/

theorem Value.nullable?_eq {decode : Value → Option α} {v : Value} (h : v ≠ .null) :
    nullable? decode v = (decode v).map some := by
  cases v with
  | null => exact absurd rfl h
  | _ => rfl

namespace Fields

theorem optional?_eq (f : Fields) (name : String) (decode : Value → Option α) :
    f.optional? name decode = (f.value? name).elim (some none) (Value.nullable? decode) := by
  unfold optional?
  cases f.value? name <;> rfl

theorem defaulted?_eq (f : Fields) (name : String) (decode : Value → Option α) (otherwise : α) :
    f.defaulted? name decode otherwise = (f.value? name).elim (some otherwise) decode := by
  unfold defaulted?
  cases f.value? name <;> rfl

/-- What an optional field holds is what is there, unless that is null. -/
theorem eq_some_iff_of_optional? {f : Fields} {name : String} {v? : Option Value}
    (h : f.optional? name some = some v?) (v : Value) :
    v? = some v ↔ f.value? name = some v ∧ v ≠ .null := by
  rw [optional?_eq] at h
  cases hfield : f.value? name with
  | none =>
      rw [hfield] at h
      cases h
      simp
  | some w =>
      rw [hfield, Option.elim_some] at h
      by_cases hw : w = .null
      · subst hw
        cases h
        simp only [reduceCtorEq, false_iff, not_and, Option.some.injEq]
        exact fun heq hne => hne heq.symm
      · rw [Value.nullable?_eq hw, Option.map_some, Option.some.injEq] at h
        subst h
        simp only [Option.some.injEq, iff_self_and]
        rintro rfl
        exact hw

/-- **An optional field holds something exactly if it is there and not null.** -/
theorem isSome_iff_of_optional? {f : Fields} {name : String} {decode : Value → Option α}
    {a? : Option α} (h : f.optional? name decode = some a?) :
    a?.isSome ↔ ∃ v, f.value? name = some v ∧ v ≠ .null := by
  rw [optional?_eq] at h
  cases hfield : f.value? name with
  | none =>
      rw [hfield] at h
      cases h
      simp
  | some w =>
      rw [hfield, Option.elim_some] at h
      by_cases hw : w = .null
      · subst hw
        cases h
        simp
      · rw [Value.nullable?_eq hw] at h
        obtain ⟨a, -, rfl⟩ := Option.map_eq_some_iff.1 h
        simp [hw]

/-- The number that an optional field holds is the one that is there. -/
theorem eq_some_iff_of_number? {f : Fields} {name : String} {n? : Option Number}
    (h : f.optional? name Value.number? = some n?) (n : Number) :
    n? = some n ↔ f.value? name = some (.number n) := by
  rw [optional?_eq] at h
  cases hv : f.value? name with
  | none =>
      rw [hv] at h
      cases h
      simp
  | some v =>
      rw [hv] at h
      cases v with
      | null =>
          cases h
          simp
      | number m =>
          cases h
          simp
      | _ => cases h

end Fields

namespace Value

variable {write : Value → Value}

/-- **An optional field is read back** if its value is, and null is none of its values. -/
theorem elim_nullable? {decode : Value → Option α} {encode : α → Value}
    (hnull : decode .null = none) (hread : ∀ a, decode (write (encode a)) = some a)
    (a? : Option α) :
    ((a?.map encode).map write).elim (some none) (nullable? decode) = some a? := by
  cases a? with
  | none => rfl
  | some a =>
      -- null would be read as a field that is not there
      have hne : write (encode a) ≠ .null := by
        intro h
        have hnone := hread a
        rw [h, hnull] at hnone
        cases hnone
      rw [Option.map_some, Option.map_some, Option.elim_some, nullable?_eq hne, hread,
        Option.map_some]

namespace Faithful

theorem elim_string (hw : Faithful write) (s? : Option String) :
    ((s?.map Value.string).map write).elim (some none) (nullable? string?) = some s? :=
  elim_nullable? rfl hw.string?_string s?

theorem elim_number (hw : Faithful write) (n? : Option Number) :
    ((n?.map Value.number).map write).elim (some none) (nullable? number?) = some n? :=
  elim_nullable? rfl hw.number?_number n?

/-- **The fields that are read are those that are written.** -/
theorem fields_membersOf (hw : Faithful write) {fields : List (String × Option Value)}
    (h : (fields.map Prod.fst).Nodup) (names : List String) :
    (write (.object (membersOf fields))).fields? names =
      some ⟨fun name => (fields.lookup name).join.map write⟩ := by
  rw [hw.fields ((sublist_membersOf fields).nodup h)]
  simp only [lookup_membersOf h]

end Faithful

/-! ### Documents that are written -/

/-- **The ways in which a document is written**: as it stands, or in canonical form. -/
def IsWriting (write : Value → Value) : Prop := write = id ∨ write = canonical

namespace IsWriting

theorem faithful (hw : IsWriting write) : Faithful write := by
  rcases hw with rfl | rfl
  · exact faithful_id
  · exact faithful_canonical

/-- **A field is found in what is written** if it is there. -/
theorem get?_membersOf (hw : IsWriting write) {fields : List (String × Option Value)}
    (h : (fields.map Prod.fst).Nodup) (name : String) :
    (write (.object (membersOf fields))).get? name = (fields.lookup name).join.map write := by
  rw [← lookup_membersOf h]
  rcases hw with rfl | rfl
  · simp
  · obtain ⟨entries, hcanonical, -, hlookup⟩ :=
      exists_canonical rfl ((sublist_membersOf fields).nodup h)
    rw [hcanonical, get?_object, hlookup]

/-- An array that is written as it stands has elements that are. -/
theorem of_mem_items (hw : IsWriting write) {items : List Value}
    (h : write (.array items) = .array items) : ∀ v ∈ items, write v = v := by
  rcases hw with rfl | rfl
  · exact fun _ _ => rfl
  · rw [canonical, canonicalItems_eq_map, array.injEq] at h
    exact List.map_inj_left.1 (h.trans (List.map_id items).symm)

/-- An object that is written as it stands has values that are. -/
theorem of_mem_members (hw : IsWriting write) {members : List (String × Value)}
    (h : write (.object members) = .object members) : ∀ m ∈ members, write m.2 = m.2 := by
  rcases hw with rfl | rfl
  · exact fun _ _ => rfl
  · intro m hm
    -- members in canonical form have different names, so each is found by its own
    have hentries := object.inj h
    have hnodup : (members.map Prod.fst).Nodup := by
      rw [← hentries]
      exact Dict.nodup_names _
    obtain ⟨entries, hcanonical, -, hlookup⟩ := exists_canonical rfl hnodup
    obtain rfl : entries = members := object.inj (hcanonical.symm.trans h)
    have hfound := hlookup m.1
    rw [Dict.lookup_of_mem hnodup hm, Option.map_some, Option.some.injEq] at hfound
    exact hfound.symm

/-- The fields of a document that is written as it stands are written as they stand. -/
theorem of_value? (hw : IsWriting write) {v : Value} (hv : write v = v) {names : List String}
    {f : Fields} (hf : v.fields? names = some f) {name : String} {field : Value}
    (h : f.value? name = some field) : write field = field := by
  cases v with
  | array items =>
      rw [fields?] at hf
      split at hf
      · cases hf
        obtain ⟨before, after, heq, -⟩ := List.lookup_eq_some_iff.1 h
        have hmem : (name, field) ∈ names.zip items := by simp [heq]
        exact hw.of_mem_items hv field (List.of_mem_zip hmem).2
      · cases hf
  | object members =>
      rw [fields?] at hf
      split at hf
      · cases hf
      · cases hf
        obtain ⟨before, after, heq, -⟩ := List.lookup_eq_some_iff.1 h
        exact hw.of_mem_members hv (name, field) (by simp [heq])
  | _ => cases hf

end IsWriting

/-! ### Normal forms -/

/-- **What is read is in normal form when it is written**: whatever is read from a document, what is
written of it is read as the same again, and written again as the same document. -/
def NormalForm (write : Value → Value) (decode : Value → Option α) (encode : α → Value) : Prop :=
  ∀ v a, write v = v → decode v = some a →
    decode (write (encode a)) = some a ∧
      (decode (write (encode a))).map (fun b => write (encode b)) = some (write (encode a))

theorem NormalForm.of_reads {decode : Value → Option α} {encode : α → Value}
    (h : ∀ v a, write v = v → decode v = some a → decode (write (encode a)) = some a) :
    NormalForm write decode encode := by
  intro v a hv ha
  have hread := h v a hv ha
  exact ⟨hread, by rw [hread, Option.map_some]⟩

/-- Each result of a decoding, one by one, comes from one of the things that were decoded. -/
theorem exists_of_mem_mapM {β γ : Type} {decode : β → Option γ} {l : List β} {l' : List γ}
    (h : l.mapM decode = some l') : ∀ c ∈ l', ∃ b ∈ l, decode b = some c := by
  induction l generalizing l' with
  | nil =>
      cases h
      simp
  | cons b l ih =>
      rw [List.mapM_cons, Option.bind_eq_bind, Option.bind_eq_some_iff] at h
      obtain ⟨c, hc, h⟩ := h
      rw [Option.bind_eq_bind, Option.bind_eq_some_iff] at h
      obtain ⟨rest, hrest, heq⟩ := h
      cases heq
      rintro d (_ | ⟨_, hd⟩)
      · exact ⟨b, List.mem_cons_self, hc⟩
      · obtain ⟨b', hb', hd⟩ := ih hrest d hd
        exact ⟨b', List.mem_cons_of_mem b hb', hd⟩

/-- **A list is in normal form** if its elements are. -/
theorem NormalForm.list {α : Type} (hw : IsWriting write) {decode : Value → Option α}
    {encode : α → Value} (h : NormalForm write decode encode) :
    NormalForm write (list? decode) (ofList encode) := by
  refine .of_reads fun v l hv hl => hw.faithful.list?_ofList_of_mem fun a ha => ?_
  cases v with
  | array items =>
      obtain ⟨x, hx, hdecode⟩ := exists_of_mem_mapM hl a ha
      exact (h x a (hw.of_mem_items hv x hx) hdecode).1
  | _ => cases hl

/-- **A map is in normal form** if its values are. -/
theorem NormalForm.dict {α : Type} (hw : IsWriting write) {decode : Value → Option α}
    {encode : α → Value} (h : NormalForm write decode encode) :
    NormalForm write (dict? decode) (ofDict encode) := by
  refine .of_reads fun v d hv hd => hw.faithful.dict?_ofDict_of_mem fun e he => ?_
  cases v with
  | object members =>
      obtain ⟨entries, hentries, rfl⟩ := Option.map_eq_some_iff.1 hd
      -- of several members of one name the map keeps one, which was decoded like the others
      obtain ⟨m, hm, hdecode⟩ := exists_of_mem_mapM hentries e (Dict.mem_of_mem_ofList he)
      obtain ⟨a, ha, rfl⟩ := Option.map_eq_some_iff.1 hdecode
      exact (h m.2 a (hw.of_mem_members hv m hm) ha).1
  | _ => cases hd

end Value

end Json

end OfferLayout
