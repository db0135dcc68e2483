/-
**Copy that shows is copy that a placeholder finds.**

Whether there is copy at a key can be asked in two ways.  A predicate looks the key up in the copy
of the creative, and then in that of the catalog item.  A placeholder that names the key in both
maps, in the same order, is read, held against the scope, and followed along its path.  This module
shows that the two ways agree for every key that a placeholder can name: the predicate holds exactly
if the placeholder leaves a text.

Main definitions:

* `IsCopyKey` — a key that a placeholder can name;
* `Snapshot.copyTemplate?` — **the placeholder that names a key in the copy in view**;
* `Snapshot.shownCopy?` — the copy that is shown at a key.

Main results:

* `Snapshot.parse_copyLinks` — the placeholder is a chain of links to the copy in view;
* `Snapshot.resolveChain_copyLinks` — **the chain finds the copy that is shown**;
* `Predicate.holds_creativeCopy` — the agreement, and that with the length of the text.
-/

import OfferLayout.Predicate.Holds
import OfferLayout.Proofs.Expansion.Filling
import OfferLayout.Proofs.Record.Path
import OfferLayout.Proofs.Template.LinkSpelling

set_option relaxedAutoImplicit false
set_option autoImplicit false

namespace OfferLayout

/-! ### Keys and placeholders -/

/-- **A key that a placeholder can name**: nothing in it ends the link or the placeholder, and
nothing at its end is taken for a blank or a mark. -/
structure IsCopyKey (key : String) : Prop where
  /-- It is not empty. -/
  nonempty : key ≠ ""
  /-- There is no bar in it. -/
  noBar : '|' ∉ key.toList
  /-- No placeholder ends in it. -/
  noEnd : ¬ ['^', '%'] <:+: key.toList
  /-- It does not end with a blank. -/
  trimmed : Text.trimEnd key.toList = key.toList
  /-- It does not end with an exclamation mark. -/
  unmarked : key.toList.getLast? ≠ some '!'

/-- The link to a key of the copy of the creative. -/
def creativeCopyLink (key : String) : Link := .keyed (.data .creativeCopy key) false

/-- The link to a key of the copy of the catalog item. -/
def itemCopyLink (key : String) : Link := .keyed (.data .catalogItem ("copy." ++ key)) false

namespace IsCopyKey

variable {key : String}

theorem wellFormed_creativeCopyLink (h : IsCopyKey key) : (creativeCopyLink key).WellFormed :=
  ⟨h.nonempty, h.noBar, h.trimmed, fun _ => h.unmarked⟩

theorem wellFormed_itemCopyLink (h : IsCopyKey key) : (itemCopyLink key).WellFormed := by
  have hpath : ("copy." ++ key).toList = "copy.".toList ++ key.toList := String.toList_append
  obtain ⟨c, cs, hkey⟩ := List.exists_cons_of_ne_nil (mt String.toList_eq_nil_iff.1 h.nonempty)
  have hlast : ("copy." ++ key).toList.getLast? = key.toList.getLast? := by
    rw [hpath, hkey, List.getLast?_append, List.getLast?_cons]
    rfl
  refine ⟨?_, ?_, ?_, fun _ => ?_⟩
  · intro hempty
    simp [Target.key] at hempty
  · rw [Target.key, hpath, List.mem_append, not_or]
    exact ⟨by decide, h.noBar⟩
  · rw [Target.key, Text.trimEnd_eq_self_iff, hlast, ← Text.trimEnd_eq_self_iff]
    exact h.trimmed
  · rw [Target.key, hlast]
    exact h.unmarked

theorem noEnd_creativeCopyLink (h : IsCopyKey key) :
    ¬ ['^', '%'] <:+: (creativeCopyLink key).print.toList := by
  have hname := Target.not_infix_name (t := .data .creativeCopy key) h.noEnd
  simpa [creativeCopyLink, Link.print] using hname

theorem noEnd_itemCopyLink (h : IsCopyKey key) :
    ¬ ['^', '%'] <:+: (itemCopyLink key).print.toList := by
  have hpath : ¬ ['^', '%'] <:+: ("copy." ++ key).toList := by
    rw [String.toList_append]
    exact Text.not_infix_append (by decide) (by simp) h.noEnd
  have hname := Target.not_infix_name (t := .data .catalogItem ("copy." ++ key)) hpath
  simpa [itemCopyLink, Link.print] using hname

end IsCopyKey

namespace Snapshot

/-- **The placeholder that names a key in the copy in view**: in that of the creative first, and
next in that of the catalog item.  There is none if neither is in view. -/
def copyTemplate? (s : Snapshot) (key : String) : Option String :=
  match s.creative, s.catalogItem with
  | some _, some _ =>
      some ("%^DATA.creativeCopy." ++ key ++ "|DATA.catalogItem.copy." ++ key ++ "^%")
  | some _, none => some ("%^DATA.creativeCopy." ++ key ++ "^%")
  | none, some _ => some ("%^DATA.catalogItem.copy." ++ key ++ "^%")
  | none, none => none

/-- The links to a key of the copy in view. -/
def copyLinks (s : Snapshot) (key : String) : List Link :=
  (s.creative.toList.map fun _ => creativeCopyLink key) ++
    s.catalogItem.toList.map fun _ => itemCopyLink key

/-- The copy that is shown at a key. -/
def shownCopy? (s : Snapshot) (key : String) : Option String :=
  (s.creative.bind fun c => copyAt? c.copy key).or (s.catalogItem.bind fun i => copyAt? i.copy key)

variable {s : Snapshot} {key t : String}

theorem eq_of_mem_copyLinks {link : Link} (h : link ∈ s.copyLinks key) :
    link = creativeCopyLink key ∨ link = itemCopyLink key := by
  rw [copyLinks, List.mem_append, List.mem_map, List.mem_map] at h
  rcases h with ⟨-, -, rfl⟩ | ⟨-, -, rfl⟩
  · exact Or.inl rfl
  · exact Or.inr rfl

theorem hasCopy_eq_isSome : s.hasCopy key = (s.shownCopy? key).isSome := by
  rw [hasCopy, shownCopy?, Option.isSome_or]

/-- Copy that is shown is not empty. -/
theorem ne_empty_of_shownCopy? {text : String} (h : s.shownCopy? key = some text) : text ≠ "" := by
  have hnonempty : ∀ {copy : Dict String}, copyAt? copy key = some text → text ≠ "" := by
    intro copy hcopy
    simpa using (Option.filter_eq_some_iff.1 hcopy).2
  rcases Option.or_eq_some_iff.1 h with hc | ⟨-, hi⟩
  · obtain ⟨c, -, hcopy⟩ := Option.bind_eq_some_iff.1 hc
    exact hnonempty hcopy
  · obtain ⟨i, -, hcopy⟩ := Option.bind_eq_some_iff.1 hi
    exact hnonempty hcopy

/-! ### The placeholder as a chain -/

/-- The placeholder is the spelling of the links, between two marks. -/
theorem eq_of_copyTemplate? (h : s.copyTemplate? key = some t) :
    t = "%^" ++ Chain.print (s.copyLinks key) ++ "^%" ∧ s.copyLinks key ≠ [] := by
  have hfirst :
      (creativeCopyLink key).print.toList = "DATA.creativeCopy.".toList ++ key.toList := by
    simp [creativeCopyLink, Link.print, Target.name, Target.scope, Target.key, Namespace.name,
      DataSpace.segment]
  have hnext :
      (itemCopyLink key).print.toList = "DATA.catalogItem.copy.".toList ++ key.toList := by
    simp [itemCopyLink, Link.print, Target.name, Target.scope, Target.key, Namespace.name,
      DataSpace.segment]
  unfold copyTemplate? at h
  -- the placeholder is spelled out for each choice of records, the links are listed once
  split at h
  case h_4 => cases h
  all_goals
    next hc hi =>
      cases h
      refine ⟨String.toList_inj.1 ?_, by simp [copyLinks, hc, hi]⟩
      simp [copyLinks, hc, hi, Chain.toList_print, hfirst, hnext, List.intercalate]

/-- **The placeholder is read as a chain of links to the copy in view.** -/
theorem parse_copyLinks (hkey : IsCopyKey key) (hne : s.copyLinks key ≠ []) :
    Chain.parse (Chain.print (s.copyLinks key)).toList = .ok (s.copyLinks key) ∧
      ¬ ['^', '%'] <:+: (Chain.print (s.copyLinks key)).toList := by
  constructor
  · refine Chain.parse_print hne fun link hlink => ?_
    rcases eq_of_mem_copyLinks hlink with rfl | rfl
    · exact hkey.wellFormed_creativeCopyLink
    · exact hkey.wellFormed_itemCopyLink
  · rw [Chain.toList_print]
    cases hc : s.creative with
    | none =>
        cases hi : s.catalogItem with
        | none => simp [copyLinks, hc, hi] at hne
        | some i => simpa [copyLinks, hc, hi, List.intercalate] using hkey.noEnd_itemCopyLink
    | some c =>
        cases hi : s.catalogItem with
        | none => simpa [copyLinks, hc, hi, List.intercalate] using hkey.noEnd_creativeCopyLink
        | some i =>
            -- a key may end with the first half of the end mark, but a bar comes next
            have hbar : ¬ ['^', '%'] <:+: ['|'] ++ (itemCopyLink key).print.toList :=
              Text.not_infix_append (by decide) (by simp) hkey.noEnd_itemCopyLink
            have hboth := Text.not_infix_append hkey.noEnd_creativeCopyLink (by simp) hbar
            simpa [copyLinks, hc, hi, List.intercalate] using hboth

/-! ### What the chain finds -/

/-- Nothing that the links name is out of scope. -/
theorem firstOutside_copyLinks : firstOutside s.source.scope (s.copyLinks key) = none := by
  cases hc : s.creative <;> cases hi : s.catalogItem <;>
    simp [source, copyLinks, hc, hi, firstOutside, Source.ofRecords, Source.offer, Source.item,
      Source.offerWithItem, Namespace.offerScope, Namespace.catalogScope, Namespace.fullScope,
      creativeCopyLink, itemCopyLink, Link.scope?, Target.scope]

theorem find?_creativeCopyLink (hkey : key ≠ "") :
    (creativeCopyLink key).find? s.source =
      (s.creative.bind fun c => copyAt? c.copy key).map .text := by
  cases hc : s.creative <;>
    simp [creativeCopyLink, Link.find?, Target.find?, Source.find?, Source.findText?, source, hc,
      Field.walk_map hkey, copyAt?]

theorem find?_itemCopyLink (hkey : key ≠ "") :
    (itemCopyLink key).find? s.source =
      (s.catalogItem.bind fun i => copyAt? i.copy key).map .text := by
  cases hi : s.catalogItem <;>
    simp [itemCopyLink, Link.find?, Target.find?, Source.find?, Source.findText?, source, hi,
      CatalogItem.walk_copy _ hkey, copyAt?]

/-- **The chain finds the copy that is shown.** -/
theorem resolveChain_copyLinks (hkey : key ≠ "") :
    resolveChain s.source (s.copyLinks key) = .ok ((s.shownCopy? key).map .text) := by
  have hoptional : ∀ link ∈ s.copyLinks key, link.isMandatory = false := by
    intro link hlink
    rcases eq_of_mem_copyLinks hlink with rfl | rfl <;> rfl
  -- each part of the chain finds what the predicate looks up in the same record
  have hcreative : ((s.creative.toList.map fun _ => creativeCopyLink key).findSome? fun link =>
      link.find? s.source) = (s.creative.bind fun c => copyAt? c.copy key).map .text := by
    rw [← find?_creativeCopyLink hkey]
    cases hc : s.creative with
    | none => simp [find?_creativeCopyLink hkey, hc]
    | some c => simp
  have hitem : ((s.catalogItem.toList.map fun _ => itemCopyLink key).findSome? fun link =>
      link.find? s.source) = (s.catalogItem.bind fun i => copyAt? i.copy key).map .text := by
    rw [← find?_itemCopyLink hkey]
    cases hi : s.catalogItem with
    | none => simp [find?_itemCopyLink hkey, hi]
    | some i => simp
  rw [resolveChain_of_optional hoptional, copyLinks, List.findSome?_append, hcreative, hitem,
    shownCopy?, Option.map_or]

/-- The placeholder is filled with the copy that is shown. -/
theorem substitute_copyTemplate? (hkey : IsCopyKey key) (h : s.copyTemplate? key = some t) :
    substitute t s.source =
      .ok (BoundText.empty.pushFound t ((s.shownCopy? key).map .text)) := by
  obtain ⟨rfl, hne⟩ := eq_of_copyTemplate? h
  obtain ⟨hparse, hend⟩ := parse_copyLinks hkey hne
  exact substitute_markedText hparse hend firstOutside_copyLinks
    (resolveChain_copyLinks hkey.nonempty)

/-- A template that is filled is an operand, with live state filled in. -/
theorem operand?_of_substitute {b : BoundText} (h : substitute t s.source = .ok b) :
    s.operand? t = some (b.render s.values) := by
  rw [operand?, expandWithState, h]
  rfl

/-- An operand without placeholders stands for itself. -/
theorem operand?_of_plain (h : Plain t.toList) : s.operand? t = some t := by
  rw [operand?_of_substitute (substitute_of_plain h s.source), BoundText.render_pushText,
    BoundText.render_empty, String.empty_append]

end Snapshot

/-! ### The agreement -/

variable {s : Snapshot} {key t : String}

/-- The length of an operand, compared with zero. -/
theorem Subject.holds_textLength_zero {text : String} (h : s.operand? t = some text)
    (c : Condition) :
    (Subject.placeholderTextLength t "0").holds s c = c.admits (compare (text.length : Int) 0) := by
  have hzero : s.operand? "0" = some "0" :=
    Snapshot.operand?_of_plain (plain_of_notMem (by decide))
  have hread : Text.int64? (Text.trim "0".toList) = some 0 := by decide +kernel
  simp only [Subject.holds, h, hzero, Option.map_some, Option.bind_some, hread, bothHold]

/-- **Copy that shows is copy that a placeholder finds.**  Without any copy in view there is none at
any key.  Otherwise the placeholder that names the key in the copy in view expands to a text, and
there is copy at the key exactly if this text is not empty, that is, if its length is above zero. -/
theorem Predicate.holds_creativeCopy (hkey : IsCopyKey key) (s : Snapshot) :
    (s.copyTemplate? key = none →
      Predicate.holds ⟨.present, .creativeCopy key⟩ s = false ∧
        Predicate.holds ⟨.absent, .creativeCopy key⟩ s = true) ∧
    ∀ t, s.copyTemplate? key = some t → ∃ text,
      expand t s.source = .ok text ∧ (∀ v, expandWithState t s.source v = .ok text) ∧
      (Predicate.holds ⟨.present, .creativeCopy key⟩ s = true ↔ text ≠ "") ∧
      Predicate.holds ⟨.present, .creativeCopy key⟩ s =
        Predicate.holds ⟨.above, .placeholderTextLength t "0"⟩ s ∧
      Predicate.holds ⟨.absent, .creativeCopy key⟩ s =
        Predicate.holds ⟨.equal, .placeholderTextLength t "0"⟩ s := by
  have hpresent : Predicate.holds ⟨.present, .creativeCopy key⟩ s = (s.shownCopy? key).isSome :=
    Snapshot.hasCopy_eq_isSome
  have habsent : Predicate.holds ⟨.absent, .creativeCopy key⟩ s = (s.shownCopy? key).isNone := by
    rw [← Option.not_isSome, ← hpresent]
    rfl
  rw [hpresent, habsent]
  constructor
  · intro hnone
    have hshown : s.shownCopy? key = none := by
      unfold Snapshot.copyTemplate? at hnone
      split at hnone
      case h_4 hc hi => simp [Snapshot.shownCopy?, hc, hi]
      all_goals cases hnone
    simp [hshown]
  · intro t ht
    have hfill := Snapshot.substitute_copyTemplate? hkey ht
    have htexts : ∀ v, expand t s.source = .ok ((s.shownCopy? key).getD "") ∧
        expandWithState t s.source v = .ok ((s.shownCopy? key).getD "") := by
      intro v
      rw [expand, expandWithState, hfill]
      cases s.shownCopy? key <;> simp [collapse, Except.map, BoundText.pushFound]
    have hoperand : s.operand? t = some ((s.shownCopy? key).getD "") := by
      rw [Snapshot.operand?, (htexts s.values).2]
      rfl
    have hlength : ∀ c, Predicate.holds ⟨c, .placeholderTextLength t "0"⟩ s =
        c.admits (compare (((s.shownCopy? key).getD "").length : Int) 0) :=
      fun c => Subject.holds_textLength_zero hoperand c
    refine ⟨(s.shownCopy? key).getD "", (htexts s.values).1, fun v => (htexts v).2, ?_⟩
    rw [hlength, hlength]
    cases hshown : s.shownCopy? key with
    | none => simp [Condition.admits]
    | some text =>
        have hne : text ≠ "" := Snapshot.ne_empty_of_shownCopy? hshown
        have hcompare : compare (text.length : Int) 0 = .gt := by
          rw [Int.compare_eq_gt]
          have hpos : text.length ≠ 0 := mt String.length_eq_zero_iff.1 hne
          omega
        simp [hne, hcompare, Condition.admits]

/-- Copy of the catalog item shows through an empty text of the creative, at a key with points, a
blank and the start of a placeholder in it. -/
theorem Predicate.holds_creativeCopy_of_item :
    let key := "..é  %^b."
    let s : Snapshot :=
      { creative := some { copy := Dict.ofList [(key, "")] },
        catalogItem := some { copy := Dict.ofList [(key, "Hi")] } }
    IsCopyKey key ∧
      s.copyTemplate? key =
        some "%^DATA.creativeCopy...é  %^b.|DATA.catalogItem.copy...é  %^b.^%" ∧
      Predicate.holds ⟨.present, .creativeCopy key⟩ s = true ∧
      Predicate.holds ⟨.above, .placeholderTextLength
        "%^DATA.creativeCopy...é  %^b.|DATA.catalogItem.copy...é  %^b.^%" "0"⟩ s = true ∧
      Predicate.holds ⟨.absent, .creativeCopy key⟩ {} = true := by
  intro key s
  have hkey : IsCopyKey key :=
    { nonempty := by decide
      noBar := by decide
      noEnd := by decide +kernel
      trimmed := by decide +kernel
      unmarked := by decide }
  have htemplate : s.copyTemplate? key =
      some "%^DATA.creativeCopy...é  %^b.|DATA.catalogItem.copy...é  %^b.^%" := by
    decide +kernel
  have hpresent : Predicate.holds ⟨.present, .creativeCopy key⟩ s = true := by decide +kernel
  obtain ⟨text, -, -, -, habove, -⟩ := (Predicate.holds_creativeCopy hkey s).2 _ htemplate
  exact ⟨hkey, htemplate, hpresent, habove.symm.trans hpresent,
    ((Predicate.holds_creativeCopy hkey {}).1 rfl).2⟩

end OfferLayout
