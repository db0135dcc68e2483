/-
**Records do not notice the canonical form of a document.**

A record is written as an object whose members have different names.  In the canonical form of that
object the members stand in another order, and their values are in canonical form as well; each of
them is still found by its name.  Strings stay as they are, and lists and maps keep their elements
and entries.  So whatever decodes the document as it is written decodes its canonical form too, and
a record has to be looked at once for both.

Main definitions:

* `Json.Value.Faithful` — **a way to rewrite documents that records do not notice**.

Main results:

* `Json.Value.exists_canonical` — the members of the canonical form are the canonical forms of the
  members;
* `Json.Value.faithful_id`, `Json.Value.faithful_canonical` — the two ways that matter;
* `Json.Value.Faithful.list?_ofList`, `Json.Value.Faithful.dict?_ofDict` — lists and maps are read
  back if their elements are;
* `Json.Tree.restrict_tree` — a record keeps all of a tree that has only its fields.
-/

import OfferLayout.Json.Fields
import OfferLayout.Proofs.Json.Machine

set_option relaxedAutoImplicit false
set_option autoImplicit false

namespace OfferLayout

namespace Json

universe u

variable {α : Type u}

theorem repeats_eq_false {names : List String} {members : List (String × Value)}
    (h : (members.map Prod.fst).Nodup) : repeats names members = false := by
  rw [repeats, List.any_eq_false]
  intro name _
  have hcount : (members.filter fun m => m.1 = name).length =
      (members.map Prod.fst).count name := by
    rw [List.count, List.countP_map, List.countP_eq_length_filter]
    congr 1
  have hle := List.nodup_iff_count.1 h name
  rw [hcount, decide_eq_true_eq]
  omega

namespace Value

/-! ### The canonical form -/

theorem canonicalItems_eq_map (items : List Value) :
    canonicalItems items = items.map canonical := by
  induction items with
  | nil => rfl
  | cons v rest ih => rw [canonicalItems, ih, List.map_cons]

theorem canonicalMembers_eq_map (members : List (String × Value)) :
    canonicalMembers members = members.map fun m => (m.1, m.2.canonical) := by
  induction members with
  | nil => rfl
  | cons m rest ih => rw [canonicalMembers, ih, List.map_cons]

theorem canonical_array {items : List Value} (h : ∀ v ∈ items, v.canonical = v) :
    (array items).canonical = array items := by
  rw [canonical, canonicalItems_eq_map, List.map_congr_left (g := id) h, List.map_id]

/-- An object with its members by increasing name stays, if their values stay. -/
theorem canonical_object {members : List (String × Value)} (h : Ascending members)
    (hvalues : ∀ m ∈ members, m.2.canonical = m.2) :
    (object members).canonical = object members := by
  have hmembers : canonicalMembers members = members := by
    have hsame : ∀ m ∈ members, (m.1, m.2.canonical) = id m :=
      fun m hm => Prod.ext rfl (hvalues m hm)
    rw [canonicalMembers_eq_map, List.map_congr_left hsame, List.map_id]
  have hentries : Dict.ofList members = ⟨members, h⟩ := Dict.ofList_entries ⟨members, h⟩
  rw [canonical, hmembers, hentries]

/-- The values in the canonical form of an object are the canonical forms of its values. -/
theorem exists_of_mem_canonical {members : List (String × Value)} {e : String × Value}
    (he : e ∈ (Dict.ofList (canonicalMembers members)).entries) :
    ∃ m ∈ members, e = (m.1, m.2.canonical) := by
  have hmem := Dict.mem_of_mem_ofList he
  rw [canonicalMembers_eq_map] at hmem
  obtain ⟨m, hm, rfl⟩ := List.mem_map.1 hmem
  exact ⟨m, hm, rfl⟩

/-- **The canonical form of a document is in canonical form.** -/
theorem canonical_canonical (v : Value) : v.canonical.canonical = v.canonical := by
  induction v using Value.induct with
  | null => rfl
  | bool b => rfl
  | number n => rfl
  | string s => rfl
  | array items ih =>
      rw [canonical, canonicalItems_eq_map]
      exact canonical_array (List.forall_mem_map.2 ih)
  | object members ih =>
      refine canonical_object (Dict.ascending _) fun e he => ?_
      obtain ⟨m, hm, rfl⟩ := exists_of_mem_canonical he
      exact ih m hm

/-- The canonical form of a plain document is plain. -/
theorem IsPlain.canonical {n : Nat} {v : Value} (h : v.IsPlain n) : v.canonical.IsPlain n := by
  induction h with
  | null => exact .null
  | bool b => exact .bool b
  | string s => exact .string s
  | array _ ih =>
      rw [Value.canonical, canonicalItems_eq_map]
      exact .array (List.forall_mem_map.2 ih)
  | object _ ih =>
      refine .object fun e he => ?_
      obtain ⟨m, hm, rfl⟩ := exists_of_mem_canonical he
      exact ih m hm

theorem canonical_ofList (encode : α → Value) (l : List α) :
    (ofList encode l).canonical = ofList (fun a => (encode a).canonical) l := by
  rw [ofList, canonical, canonicalItems_eq_map, List.map_map]
  rfl

theorem canonical_ofDict (encode : α → Value) (d : Dict α) :
    (ofDict encode d).canonical = ofDict (fun a => (encode a).canonical) d := by
  have hentries : canonicalMembers (d.entries.map fun e => (e.1, encode e.2)) =
      (d.mapValues fun a => (encode a).canonical).entries := by
    rw [canonicalMembers_eq_map, List.map_map]
    rfl
  rw [ofDict, canonical, hentries, Dict.ofList_entries]
  rfl

theorem lookup_map_snd (f : Value → Value) (members : List (String × Value)) (name : String) :
    (members.map fun m => (m.1, f m.2)).lookup name = (members.lookup name).map f := by
  induction members with
  | nil => rfl
  | cons m rest ih =>
      rw [List.map_cons, lookup_cons_ite, lookup_cons_ite, ih]
      split <;> rfl

/-- **The members of the canonical form are the canonical forms of the members.** -/
theorem exists_canonical {v : Value} {members : List (String × Value)} (hv : v = object members)
    (h : (members.map Prod.fst).Nodup) :
    ∃ entries, v.canonical = object entries ∧ (entries.map Prod.fst).Nodup ∧
      ∀ name, entries.lookup name = (members.lookup name).map canonical := by
  subst hv
  have hnames : ((canonicalMembers members).map Prod.fst).Nodup := by
    rw [canonicalMembers_eq_map, List.map_map]
    exact h
  refine ⟨(Dict.ofList (canonicalMembers members)).entries, rfl, Dict.nodup_names _, fun name => ?_⟩
  have hget := Dict.get?_ofList hnames name
  rw [canonicalMembers_eq_map, lookup_map_snd, ← canonicalMembers_eq_map] at hget
  exact hget

/-! ### Rewriting that records do not notice -/

/-- **A way to rewrite documents that records do not notice.** -/
structure Faithful (write : Value → Value) : Prop where
  /-- Strings stay. -/
  string : ∀ s, write (.string s) = .string s
  /-- Numbers stay. -/
  number : ∀ n, write (.number n) = .number n
  /-- Truth values stay. -/
  bool : ∀ b, write (.bool b) = .bool b
  /-- The elements of a list are rewritten where they are. -/
  list : ∀ {α : Type} (encode : α → Value) (l : List α),
    write (ofList encode l) = ofList (fun a => write (encode a)) l
  /-- The values of a map are rewritten where they are. -/
  dict : ∀ {α : Type} (encode : α → Value) (d : Dict α),
    write (ofDict encode d) = ofDict (fun a => write (encode a)) d
  /-- Every member of an object is found by its name. -/
  fields : ∀ {members : List (String × Value)}, (members.map Prod.fst).Nodup → ∀ names,
    (write (.object members)).fields? names = some ⟨fun name => (members.lookup name).map write⟩

theorem faithful_id : Faithful id where
  string _ := rfl
  number _ := rfl
  bool _ := rfl
  list _ _ := rfl
  dict _ _ := rfl
  fields {members} h names := by
    rw [id, fields?_object (repeats_eq_false h)]
    simp

/-- **The canonical form is not noticed.** -/
theorem faithful_canonical : Faithful canonical where
  string _ := rfl
  number _ := rfl
  bool _ := rfl
  list := canonical_ofList
  dict := canonical_ofDict
  fields h names := by
    obtain ⟨entries, hcanonical, hnames, hlookup⟩ := exists_canonical rfl h
    rw [hcanonical, fields?_object (repeats_eq_false hnames), funext hlookup]

variable {write : Value → Value}

theorem Faithful.string?_string (hw : Faithful write) (s : String) :
    string? (write (.string s)) = some s := by
  rw [hw.string]
  rfl

theorem Faithful.number?_number (hw : Faithful write) (n : Number) :
    number? (write (.number n)) = some n := by
  rw [hw.number]
  rfl

theorem Faithful.bool?_bool (hw : Faithful write) (b : Bool) : bool? (write (.bool b)) = some b := by
  rw [hw.bool]
  rfl

/-- A list is read back if its elements are. -/
theorem Faithful.list?_ofList_of_mem {α : Type} (hw : Faithful write) {encode : α → Value}
    {decode : Value → Option α} {l : List α} (h : ∀ a ∈ l, decode (write (encode a)) = some a) :
    list? decode (write (ofList encode l)) = some l := by
  rw [hw.list, ofList, list?]
  induction l with
  | nil => rfl
  | cons a l ih =>
      obtain ⟨ha, hl⟩ := List.forall_mem_cons.1 h
      simp [ha, ih hl]

theorem Faithful.list?_ofList {α : Type} (hw : Faithful write) {encode : α → Value}
    {decode : Value → Option α} (h : ∀ a, decode (write (encode a)) = some a) (l : List α) :
    list? decode (write (ofList encode l)) = some l :=
  hw.list?_ofList_of_mem fun a _ => h a

/-- A map is read back if its values are. -/
theorem Faithful.dict?_ofDict_of_mem {α : Type} (hw : Faithful write) {encode : α → Value}
    {decode : Value → Option α} {d : Dict α}
    (h : ∀ e ∈ d.entries, decode (write (encode e.2)) = some e.2) :
    dict? decode (write (ofDict encode d)) = some d := by
  have hentries : ∀ l : List (String × α), (∀ e ∈ l, decode (write (encode e.2)) = some e.2) →
      (l.map fun e => (e.1, write (encode e.2))).mapM
        (fun m => (decode m.2).map fun a => (m.1, a)) = some l := by
    intro l h
    induction l with
    | nil => rfl
    | cons e l ih =>
        obtain ⟨he, hl⟩ := List.forall_mem_cons.1 h
        simp [he, ih hl]
  rw [hw.dict, ofDict, dict?, hentries d.entries h, Option.map_some, Dict.ofList_entries]

theorem Faithful.dict?_ofDict {α : Type} (hw : Faithful write) {encode : α → Value}
    {decode : Value → Option α} (h : ∀ a, decode (write (encode a)) = some a) (d : Dict α) :
    dict? decode (write (ofDict encode d)) = some d :=
  hw.dict?_ofDict_of_mem fun e _ => h e.2

/-! ### Lists and maps that are plain -/

theorem IsPlain.ofList {n : Nat} {encode : α → Value} (h : ∀ a, (encode a).IsPlain n) (l : List α) :
    (ofList encode l).IsPlain (n + 1) :=
  .array (List.forall_mem_map.2 fun a _ => h a)

theorem IsPlain.ofDict {n : Nat} {encode : α → Value} (h : ∀ a, (encode a).IsPlain n) (d : Dict α) :
    (ofDict encode d).IsPlain (n + 1) :=
  .object (List.forall_mem_map.2 fun e _ => h e.2)

end Value

/-! ### What a record keeps of a tree -/

namespace Tree

/-- **A record keeps all of a tree that has only its fields**, if each of them is kept. -/
theorem restrict_tree {names : List String} {change : String → Tree → Tree}
    {members : List (String × Value)}
    (h : ∀ m ∈ members, m.1 ∈ names ∧ change m.1 m.2.tree = m.2.tree) :
    restrict names change (Value.object members).tree = (Value.object members).tree := by
  rw [Value.tree, restrict, Value.treeMembers_eq_map, List.filterMap_map]
  congr 1
  induction members with
  | nil => rfl
  | cons m rest ih =>
      obtain ⟨hm, hrest⟩ := List.forall_mem_cons.1 h
      rw [List.filterMap_cons_some, ih hrest, List.map_cons]
      simp [hm.1, hm.2]

theorem mapItems_tree {change : Tree → Tree} {encode : α → Value}
    (h : ∀ a, change (encode a).tree = (encode a).tree) (l : List α) :
    mapItems change (Value.ofList encode l).tree = (Value.ofList encode l).tree := by
  rw [Value.ofList, Value.tree, mapItems, Value.treeItems_eq_map, List.map_map, List.map_map,
    List.map_map]
  congr 1
  exact List.map_congr_left fun a _ => h a

end Tree

end Json

end OfferLayout
