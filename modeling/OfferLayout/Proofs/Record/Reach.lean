/-
**What a path leads to, without walking.**

A path is a list of names, and a tree of records says where a list of names leads: through one
field after another, as long as there are records.  A path finds a text exactly if some of its
first names lead to that text and no name is left, or lead to a map which holds the text at the
names that are left, joined again.  How many names are passed is determined by the tree, so nothing
is found in two ways.

Main definitions:

* `Field.Passes` — the field that names lead to, through the fields of nested records;
* `Field.names` — the names that a path is made of;
* `Field.LeadsTo` — a path leads to a text after so many names;
* `Field.withoutPointed` — a tree without the fields that have a point in their names.

Main results:

* `Field.follow_of_passes` — a walk goes on from every field that it passes;
* `Field.follow_eq_some_iff` — **a walk finds what the names lead to**;
* `Field.LeadsTo.unique` — at one place only;
* `Field.follow_withoutPointed` — a field with a point in its name is never passed;
* `Field.walk_finds_what_names_lead_to` — all of this for paths, and for the copy of a creative.
-/

import OfferLayout.Expansion.Source
import OfferLayout.Proofs.Record.Path

set_option relaxedAutoImplicit false
set_option autoImplicit false

namespace OfferLayout

namespace Field

/-! ### Ways through nested records -/

/-- Names lead from a field to another one, through the fields of nested records. -/
inductive Passes : Field → List String → Field → Prop where
  /-- No name leads away. -/
  | here (f : Field) : Passes f [] f
  /-- A name leads to the field of that name. -/
  | field {fields : List (String × Field)} {name : String} {names : List String} {f g : Field}
      (hname : fields.lookup name = some f) (hrest : Passes f names g) :
      Passes (record fields) (name :: names) g

theorem passes_nil_iff {f g : Field} : Passes f [] g ↔ g = f := by
  constructor
  · intro h
    cases h
    rfl
  · rintro rfl
    exact Passes.here g

theorem passes_cons_iff {f g : Field} {name : String} {names : List String} :
    Passes f (name :: names) g ↔
      ∃ fields next, f = record fields ∧ fields.lookup name = some next ∧
        Passes next names g := by
  constructor
  · intro h
    cases h with
    | field hname hrest => exact ⟨_, _, rfl, hname, hrest⟩
  · rintro ⟨fields, next, rfl, hname, hrest⟩
    exact Passes.field hname hrest

/-- **A walk goes on from every field that it passes.** -/
theorem follow_of_passes {root f : Field} {segments : List (List Char)} {k : Nat}
    (h : Passes root ((segments.take k).map String.ofList) f) :
    root.follow segments = f.follow (segments.drop k) := by
  induction k generalizing root segments with
  | zero =>
      rw [passes_nil_iff.1 h]
      rfl
  | succ k ih =>
      cases segments with
      | nil =>
          rw [passes_nil_iff.1 h]
          rfl
      | cons segment segments =>
          obtain ⟨fields, next, rfl, hname, hrest⟩ := passes_cons_iff.1 h
          rw [follow, hname]
          exact ih hrest

/-! ### Where names lead -/

/-- The first `k` names lead to the text `v`, or to a map with `v` at the other names. -/
def LeadsTo (root : Field) (names : List String) (k : Nat) (v : String) : Prop :=
  (k = names.length ∧ Passes root names (text v)) ∨
    (k < names.length ∧ ∃ entries, Passes root (names.take k) (map entries) ∧
      entries.get? (".".intercalate (names.drop k)) = some v)

theorem leadsTo_text_iff {s v : String} {names : List String} {k : Nat} :
    (text s).LeadsTo names k v ↔ names = [] ∧ k = 0 ∧ v = s := by
  cases names with
  | nil => simp [LeadsTo, passes_nil_iff]
  | cons name names =>
      cases k with
      | zero => simp [LeadsTo, passes_nil_iff]
      | succ k => simp [LeadsTo, passes_cons_iff]

theorem leadsTo_map_iff {entries : Dict String} {v : String} {names : List String} {k : Nat} :
    (map entries).LeadsTo names k v ↔
      names ≠ [] ∧ k = 0 ∧ entries.get? (".".intercalate names) = some v := by
  cases names with
  | nil => simp [LeadsTo, passes_nil_iff]
  | cons name names =>
      cases k with
      | zero => simp [LeadsTo, passes_nil_iff, passes_cons_iff]
      | succ k => simp [LeadsTo, passes_cons_iff]

theorem not_leadsTo_record_nil {fields : List (String × Field)} {v : String} {k : Nat} :
    ¬ (record fields).LeadsTo [] k v := by
  simp [LeadsTo, passes_nil_iff]

/-- From a record, the first name leads to the field of that name. -/
theorem leadsTo_record_cons_iff {fields : List (String × Field)} {name v : String}
    {names : List String} {k : Nat} :
    (record fields).LeadsTo (name :: names) k v ↔
      ∃ f j, fields.lookup name = some f ∧ k = j + 1 ∧ f.LeadsTo names j v := by
  cases k with
  | zero => simp [LeadsTo, passes_nil_iff]
  | succ j =>
      constructor
      · rintro (⟨hk, hpasses⟩ | ⟨hk, entries, hpasses, hget⟩)
        · obtain ⟨_, f, heq, hname, hrest⟩ := passes_cons_iff.1 hpasses
          cases heq
          exact ⟨f, j, hname, rfl, Or.inl ⟨Nat.succ.inj hk, hrest⟩⟩
        · obtain ⟨_, f, heq, hname, hrest⟩ := passes_cons_iff.1 hpasses
          cases heq
          exact ⟨f, j, hname, rfl, Or.inr ⟨Nat.lt_of_succ_lt_succ hk, entries, hrest, hget⟩⟩
      · rintro ⟨f, i, hname, hk, hleads⟩
        obtain rfl : j = i := Nat.succ.inj hk
        rcases hleads with ⟨hj, hrest⟩ | ⟨hj, entries, hrest, hget⟩
        · exact Or.inl ⟨congrArg Nat.succ hj, Passes.field hname hrest⟩
        · exact Or.inr ⟨Nat.succ_lt_succ hj, entries, Passes.field hname hrest, hget⟩

/-- Segments joined again are joined as names. -/
theorem ofList_intercalate (segments : List (List Char)) :
    String.ofList (['.'].intercalate segments) =
      ".".intercalate (segments.map String.ofList) := by
  rw [← String.toList_inj, String.toList_intercalate, String.toList_ofList, List.map_map]
  have hmap : segments.map (String.toList ∘ String.ofList) = segments :=
    List.map_id'' (fun _ => String.toList_ofList) segments
  rw [hmap]
  rfl

/-- **A walk finds what the names lead to**, by induction on the segments: a text or a map ends the
walk, a record passes it on. -/
theorem follow_eq_some_iff {root : Field} {segments : List (List Char)} {v : String} :
    root.follow segments = some v ↔ ∃ k, root.LeadsTo (segments.map String.ofList) k v := by
  induction segments generalizing root with
  | nil =>
      cases root with
      | text s => simp [follow, leadsTo_text_iff, eq_comm]
      | map entries => simp [follow, leadsTo_map_iff]
      | record fields => simp [follow, not_leadsTo_record_nil]
  | cons segment segments ih =>
      cases root with
      | text s => simp [follow, leadsTo_text_iff]
      | map entries => simp [follow, leadsTo_map_iff, ofList_intercalate]
      | record fields =>
          rw [follow, Option.bind_eq_some_iff]
          simp only [List.map_cons, leadsTo_record_cons_iff, ih]
          constructor
          · rintro ⟨f, hname, k, hleads⟩
            exact ⟨k + 1, f, k, hname, rfl, hleads⟩
          · rintro ⟨_, f, k, hname, -, hleads⟩
            exact ⟨f, hname, k, hleads⟩

/-- **Names lead to a text at one place only.** -/
theorem LeadsTo.unique {root : Field} {names : List String} {j k : Nat} {v w : String}
    (hj : root.LeadsTo names j v) (hk : root.LeadsTo names k w) : j = k := by
  induction names generalizing root j k with
  | nil =>
      cases root with
      | text s => rw [(leadsTo_text_iff.1 hj).2.1, (leadsTo_text_iff.1 hk).2.1]
      | map entries => exact absurd rfl (leadsTo_map_iff.1 hj).1
      | record fields => exact absurd hj not_leadsTo_record_nil
  | cons name names ih =>
      cases root with
      | text s => rw [(leadsTo_text_iff.1 hj).2.1, (leadsTo_text_iff.1 hk).2.1]
      | map entries => rw [(leadsTo_map_iff.1 hj).2.1, (leadsTo_map_iff.1 hk).2.1]
      | record fields =>
          obtain ⟨f, i, hf, rfl, hi⟩ := leadsTo_record_cons_iff.1 hj
          obtain ⟨g, l, hg, rfl, hl⟩ := leadsTo_record_cons_iff.1 hk
          rw [hf, Option.some.injEq] at hg
          subst hg
          rw [ih hi hl]

/-! ### Names with points -/

mutual

/-- The tree without the fields that have a point in their names. -/
def withoutPointed : Field → Field
  | text s => text s
  | record fields => record (fieldsWithoutPointed fields)
  | map entries => map entries

/-- The fields without those that have a point in their names, also further down. -/
def fieldsWithoutPointed : List (String × Field) → List (String × Field)
  | [] => []
  | (name, f) :: fields =>
      if '.' ∈ name.toList then fieldsWithoutPointed fields
      else (name, withoutPointed f) :: fieldsWithoutPointed fields

end

theorem lookup_fieldsWithoutPointed {name : String} (h : '.' ∉ name.toList)
    (fields : List (String × Field)) :
    (fieldsWithoutPointed fields).lookup name = (fields.lookup name).map withoutPointed := by
  induction fields with
  | nil => rfl
  | cons entry fields ih =>
      obtain ⟨other, f⟩ := entry
      rw [fieldsWithoutPointed, lookup_cons_ite]
      split
      · next hpoint =>
          have hne : name ≠ other := by
            rintro rfl
            exact h hpoint
          rw [if_neg hne, ih]
      · rw [lookup_cons_ite, ih]
        split <;> rfl

/-- **A field with a point in its name is never passed.** -/
theorem follow_withoutPointed {root : Field} {segments : List (List Char)}
    (h : ∀ segment ∈ segments, '.' ∉ segment) :
    root.withoutPointed.follow segments = root.follow segments := by
  induction segments generalizing root with
  | nil => cases root <;> rfl
  | cons segment segments ih =>
      cases root with
      | text s => rfl
      | map entries => rfl
      | record fields =>
          have hsegment : '.' ∉ (String.ofList segment).toList := by
            rw [String.toList_ofList]
            exact h segment List.mem_cons_self
          have hsegments : ∀ segment ∈ segments, '.' ∉ segment :=
            fun _ hmem => h _ (List.mem_cons_of_mem _ hmem)
          rw [withoutPointed, follow, follow, lookup_fieldsWithoutPointed hsegment]
          cases fields.lookup (String.ofList segment) with
          | none => rfl
          | some f => exact ih hsegments

theorem notMem_of_mem_segments {path : String} {segment : List Char}
    (h : segment ∈ segments path) : '.' ∉ segment := by
  by_cases hpath : path = ""
  · subst hpath
    exact absurd h List.not_mem_nil
  · rw [segments_of_ne_empty hpath] at h
    exact Text.notMem_of_mem_fields h

theorem walk_withoutPointed (root : Field) (path : String) :
    root.withoutPointed.walk path = root.walk path :=
  follow_withoutPointed fun _ => notMem_of_mem_segments

/-! ### Paths -/

/-- The names that a path is made of, one more than it has points. -/
def names (path : String) : List String := (path.toList.splitOn '.').map String.ofList

theorem names_eq_map_segments {path : String} (h : path ≠ "") :
    names path = (segments path).map String.ofList := by
  rw [names, segments_of_ne_empty h, Text.fields_eq_splitOn]

theorem walk_eq_some_iff {root : Field} {path v : String} (h : path ≠ "") :
    root.walk path = some v ↔ ∃ k, root.LeadsTo (names path) k v := by
  rw [names_eq_map_segments h]
  exact follow_eq_some_iff

/-- A walk along a path goes on from every field that it passes. -/
theorem walk_of_passes {root f : Field} {path : String} {k : Nat} (h : path ≠ "")
    (hpasses : Passes root ((names path).take k) f) :
    root.walk path = f.follow ((segments path).drop k) := by
  rw [names_eq_map_segments h, ← List.map_take] at hpasses
  exact follow_of_passes hpasses

theorem length_names {path : String} (h : path ≠ "") :
    (names path).length = (segments path).length := by
  rw [names_eq_map_segments h, List.length_map]

/-- Nothing is found at a field that is not a text if the path ends there. -/
theorem walk_eq_none_of_passes {root f : Field} {path : String} (h : path ≠ "")
    (hpasses : Passes root (names path) f) (hf : ∀ s, f ≠ text s) : root.walk path = none := by
  rw [← List.take_length (l := names path)] at hpasses
  rw [walk_of_passes h hpasses, length_names h, List.drop_length]
  cases f with
  | text s => exact absurd rfl (hf s)
  | map entries => rfl
  | record fields => rfl

/-- Nothing is found past a text. -/
theorem walk_eq_none_of_passes_text {root : Field} {path s : String} {k : Nat} (h : path ≠ "")
    (hk : k < (names path).length) (hpasses : Passes root ((names path).take k) (text s)) :
    root.walk path = none := by
  rw [length_names h] at hk
  rw [walk_of_passes h hpasses, List.drop_eq_getElem_cons hk, follow]

/-- **A path finds what its names lead to**, at one place only: not at a record or a map at which
it ends, not past a text, and never through a name with a point.  The copy of a creative is one
map, and the whole path is its key. -/
theorem walk_finds_what_names_lead_to {path : String} (h : path ≠ "") (root : Field) :
    (∀ v, root.walk path = some v ↔ ∃ k, root.LeadsTo (names path) k v) ∧
    (∀ j k v w, root.LeadsTo (names path) j v → root.LeadsTo (names path) k w → j = k) ∧
    (∀ other : Field, other.withoutPointed = root.withoutPointed →
      ∀ p, other.walk p = root.walk p) ∧
    (∀ fields, Passes root (names path) (record fields) → root.walk path = none) ∧
    (∀ entries, Passes root (names path) (map entries) → root.walk path = none) ∧
    (∀ k s, k < (names path).length → Passes root ((names path).take k) (text s) →
      root.walk path = none) ∧
    (∀ fields, (record fields).walk "" = none) ∧
    ∀ s : Source, s.lookup (.data .creativeCopy) path =
      (s.creative.bind fun c => c.copy.get? path).filter fun v => !v.isEmpty := by
  refine ⟨fun v => walk_eq_some_iff h, fun j k v w hj hk => hj.unique hk, ?_, ?_, ?_, ?_,
    walk_record_empty, ?_⟩
  · intro other hother p
    rw [← walk_withoutPointed other, hother, walk_withoutPointed]
  · intro fields hpasses
    exact walk_eq_none_of_passes h hpasses fun _ heq => Field.noConfusion heq
  · intro entries hpasses
    exact walk_eq_none_of_passes h hpasses fun _ heq => Field.noConfusion heq
  · intro k s hk hpasses
    exact walk_eq_none_of_passes_text h hk hpasses
  · intro s
    simp only [Source.lookup, Source.find?, Source.findText?, walk_map h]

/-- A record with a map in it, and beside the map a field with a point in its name. -/
def pointedTree : Field :=
  record [("a", record [("b.x", text "w"), ("b", map (Dict.ofList [("x.y", "v")]))])]

/-- Two names pass records, and the other two are the key of a map. -/
theorem walk_finds_what_names_lead_to_pointed_key :
    "a.b.x.y" ≠ "" ∧ pointedTree.LeadsTo (names "a.b.x.y") 2 "v" ∧
      pointedTree.walk "a.b.x.y" = some "v" := by
  have hpath : "a.b.x.y" ≠ "" := by decide
  have hleads : pointedTree.LeadsTo (names "a.b.x.y") 2 "v" := by
    refine Or.inr ⟨by decide, Dict.ofList [("x.y", "v")], ?_, by decide⟩
    exact Passes.field rfl (Passes.field rfl (Passes.here _))
  exact ⟨hpath, hleads, ((walk_finds_what_names_lead_to hpath pointedTree).1 "v").2 ⟨2, hleads⟩⟩

end Field

end OfferLayout
