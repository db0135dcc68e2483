/-
**The links that can be written, and the way they are read.**

Not every link is the reading of some text.  A key that ends with an exclamation mark is mandatory
or has a second mark after it, a bar ends the link, blanks around it are lost, and a literal that
begins like a key is one.  This module says which links are well formed in this sense, and that
these are the ones that reading gives and writing keeps: a chain of them is written in one way and
read again, also as the only placeholder of a text.

Main definitions:

* `Link.WellFormed` — **a link that can be written**.

Main results:

* `Link.parse_cases` — what reading a piece gives, by what it looks like;
* `Link.wellFormed_of_parse` — what is read is well formed;
* `Link.parse_print` — a well-formed link reads back;
* `Chain.wellFormed_and_parse_print` — **the chains that are read are those that can be written**.
-/

import OfferLayout.Proofs.Template.Decomposition
import OfferLayout.Proofs.Template.Pieces

set_option relaxedAutoImplicit false
set_option autoImplicit false

namespace OfferLayout

/-! ### The spelling of targets -/

namespace Target

/-- What stands before the key in the spelling of a target. -/
def lead (t : Target) : List Char := (t.scope.name ++ ".").toList

theorem toList_name (t : Target) : t.name.toList = t.lead ++ t.key.toList := by
  rw [name, String.toList_append, lead]

theorem bar_notMem_lead (t : Target) : '|' ∉ t.lead := by
  rcases t with ⟨space, path⟩ | ⟨key⟩
  · cases space <;> simp [lead, scope, Namespace.name, DataSpace.segment]
  · simp [lead, scope, Namespace.name]

/-- No blank is removed at the start of a text that starts like a target. -/
theorem trimStart_lead_append (t : Target) (s : List Char) :
    Text.trimStart (t.lead ++ s) = t.lead ++ s := by
  obtain ⟨c, hc, hblank⟩ : ∃ c, t.lead.head? = some c ∧ Text.isBlank c = false := by
    rcases t with ⟨space, path⟩ | ⟨key⟩
    · exact ⟨'D', by simp [lead, scope, Namespace.name], by decide⟩
    · exact ⟨'S', by simp [lead, scope, Namespace.name], by decide⟩
  rw [Text.trimStart_eq_self_iff]
  intro d hd
  rw [List.head?_append, hc] at hd
  exact Option.some.inj hd ▸ hblank

theorem getLast?_name {t : Target} (h : t.key ≠ "") :
    t.name.toList.getLast? = t.key.toList.getLast? := by
  obtain ⟨c, s, hkey⟩ := List.exists_cons_of_ne_nil (mt String.toList_eq_nil_iff.1 h)
  rw [toList_name, hkey, List.getLast?_append, List.getLast?_cons]
  rfl

/-- The spelling of a target ends with a blank only if its key does. -/
theorem trimEnd_name_iff {t : Target} (h : t.key ≠ "") :
    Text.trimEnd t.name.toList = t.name.toList ↔ Text.trimEnd t.key.toList = t.key.toList := by
  rw [Text.trimEnd_eq_self_iff, Text.trimEnd_eq_self_iff, getLast?_name h]

/-- The end of a placeholder is in the spelling of a target only if it is in its key. -/
theorem not_infix_name {t : Target} (h : ¬ ['^', '%'] <:+: t.key.toList) :
    ¬ ['^', '%'] <:+: t.name.toList := by
  have hlead (n : Namespace) :
      ¬ ['^', '%'] <:+: (n.name ++ ".").toList ∧ (n.name ++ ".").toList.getLast? ≠ some '^' := by
    rcases n with space | _
    · cases space <;> decide +kernel
    · decide +kernel
  rw [toList_name]
  exact Text.not_infix_append (hlead t.scope).1 (fun hseam => (hlead t.scope).2 hseam.1) h

end Target

namespace Link

/-! ### The mark at the end of a link -/

theorem splitMark_append {body : List Char} :
    splitMark (body ++ ['!']) = (Text.trimEnd body, true) := by
  rw [splitMark, Text.dropLast?_eq_some_iff.2 rfl]

theorem splitMark_of_getLast?_ne {piece : List Char} (h : piece.getLast? ≠ some '!') :
    splitMark piece = (piece, false) := by
  rw [splitMark, Text.dropLast?, if_neg h]

/-- A piece ends with an exclamation mark, or it is divided before its end. -/
theorem splitMark_cases (piece : List Char) :
    (∃ body, piece = body ++ ['!'] ∧ splitMark piece = (Text.trimEnd body, true)) ∨
      (piece.getLast? ≠ some '!' ∧ splitMark piece = (piece, false)) := by
  by_cases h : piece.getLast? = some '!'
  · have hpiece := (List.dropLast_append_getLast? '!' h).symm
    refine Or.inl ⟨piece.dropLast, hpiece, ?_⟩
    conv_lhs => rw [hpiece]
    exact splitMark_append
  · exact Or.inr ⟨h, splitMark_of_getLast?_ne h⟩

theorem mem_of_mem_splitMark {piece : List Char} {c : Char} (h : c ∈ (splitMark piece).1) :
    c ∈ piece := by
  rcases splitMark_cases piece with ⟨body, rfl, hmark⟩ | ⟨-, hmark⟩
  · rw [hmark] at h
    obtain ⟨after, -, hbody⟩ := Text.exists_trimEnd_append body
    rw [hbody]
    exact List.mem_append_left _ (List.mem_append_left _ h)
  · rwa [hmark] at h

/-- A piece does not end with a blank before its mark. -/
theorem trimEnd_splitMark {piece : List Char} (h : Text.trimEnd piece = piece) :
    Text.trimEnd (splitMark piece).1 = (splitMark piece).1 := by
  rcases splitMark_cases piece with ⟨body, rfl, hmark⟩ | ⟨-, hmark⟩
  · rw [hmark]
    exact Text.trimEnd_trimEnd body
  · rwa [hmark]

theorem getLast?_splitMark {piece : List Char} (h : (splitMark piece).2 = false) :
    (splitMark piece).1.getLast? ≠ some '!' := by
  rcases splitMark_cases piece with ⟨body, rfl, hmark⟩ | ⟨hlast, hmark⟩
  · rw [hmark] at h
    cases h
  · rwa [hmark]

/-! ### Reading a piece -/

/-- A piece that is the spelling of a target before its mark is a key. -/
theorem parse_of_name {piece : List Char} {target : Target} {mandatory : Bool}
    (hkey : target.key ≠ "") (h : splitMark piece = (target.name.toList, mandatory)) :
    parse piece = .ok (.keyed target mandatory) := by
  rw [parse, h]
  rcases target with ⟨space, path⟩ | ⟨key⟩
  · have hname : (Target.data space path).name.toList =
        "DATA.".toList ++ (space.segment.toList ++ '.' :: path.toList) := by
      simp [Target.name, Target.scope, Target.key, Namespace.name]
    have hpoint : '.' ∉ space.segment.toList := by
      cases space <;> decide
    have hsplit : Text.splitFirst '.' (space.segment.toList ++ '.' :: path.toList) =
        (space.segment.toList, some path.toList) :=
      Text.splitFirst_eq_some_iff.2 ⟨rfl, hpoint⟩
    obtain ⟨c, s, hpath⟩ : ∃ c s, path.toList = c :: s :=
      List.exists_cons_of_ne_nil (mt String.toList_eq_nil_iff.1 hkey)
    simp only [Text.after?_eq_some_iff.2 hname, hsplit, String.ofList_toList,
      DataSpace.ofSegment?_segment]
    simp only [hpath]
    rw [← hpath, String.ofList_toList]
  · have hname : (Target.state key).name.toList = "STATE.".toList ++ key.toList := by
      simp [Target.name, Target.scope, Target.key, Namespace.name]
    have hdata : Text.after? "DATA.".toList (Target.state key).name.toList = none := by
      rw [Text.after?_eq_none_iff, hname]
      simp
    obtain ⟨c, s, hstate⟩ : ∃ c s, key.toList = c :: s :=
      List.exists_cons_of_ne_nil (mt String.toList_eq_nil_iff.1 hkey)
    simp only [hdata, Text.after?_eq_some_iff.2 hname]
    simp only [hstate]
    rw [← hstate, String.ofList_toList]

/-- A piece that begins like no key before its mark is a literal. -/
theorem parse_of_not_lead {piece : List Char} (hdata : ¬ "DATA.".toList <+: (splitMark piece).1)
    (hstate : ¬ "STATE.".toList <+: (splitMark piece).1) :
    parse piece = .ok (.literal (String.ofList piece)) := by
  simp only [parse, Text.after?_eq_none_iff.2 hdata, Text.after?_eq_none_iff.2 hstate]

/-- **What reading a piece gives**: a key, if the piece before its mark is the spelling of a target,
or a literal, if that begins like no key. -/
theorem parse_cases {piece : List Char} {link : Link} (h : parse piece = .ok link) :
    (∃ target : Target, target.key ≠ "" ∧ (splitMark piece).1 = target.name.toList ∧
        link = .keyed target (splitMark piece).2) ∨
      (¬ "DATA.".toList <+: (splitMark piece).1 ∧ ¬ "STATE.".toList <+: (splitMark piece).1 ∧
        link = .literal (String.ofList piece)) := by
  rw [parse] at h
  split at h
  next body mandatory hmark =>
  rw [hmark]
  split at h
  · next rest hdata =>
      rw [Text.after?_eq_some_iff] at hdata
      split at h
      next segment path hsplit =>
      split at h
      · cases h
      · next space hspace =>
          split at h
          · cases h
          · cases h
          · next path hne =>
              rw [Text.splitFirst_eq_some_iff] at hsplit
              cases h
              refine Or.inl ⟨.data space (String.ofList path), ?_, ?_, rfl⟩
              · intro hempty
                exact hne (by simpa [Target.key] using hempty)
              · simp [hdata, hsplit.1, Target.name, Target.scope, Target.key, Namespace.name,
                  DataSpace.segment_of_ofSegment? hspace]
  · next hdata =>
      rw [Text.after?_eq_none_iff] at hdata
      split at h
      · cases h
      · next key hne hstate =>
          rw [Text.after?_eq_some_iff] at hstate
          cases h
          refine Or.inl ⟨.state (String.ofList key), ?_, ?_, rfl⟩
          · intro hempty
            exact hne (by simpa [Target.key] using hempty)
          · simp [hstate, Target.name, Target.scope, Target.key, Namespace.name]
      · next hstate =>
          rw [Text.after?_eq_none_iff] at hstate
          cases h
          exact Or.inr ⟨hdata, hstate, rfl⟩

/-! ### Well-formed links -/

/-- **A link that can be written**: its key is not empty, has no bar and does not end with a blank,
nor with an exclamation mark if the link is not mandatory; a literal is a piece, and does not begin
like a key before its mark. -/
def WellFormed : Link → Prop
  | .keyed target mandatory =>
      target.key ≠ "" ∧ '|' ∉ target.key.toList ∧
        Text.trimEnd target.key.toList = target.key.toList ∧
        (mandatory = false → target.key.toList.getLast? ≠ some '!')
  | .literal text =>
      Chain.IsPiece text.toList ∧ ¬ "DATA.".toList <+: (splitMark text.toList).1 ∧
        ¬ "STATE.".toList <+: (splitMark text.toList).1

instance : DecidablePred WellFormed
  | .keyed target mandatory => inferInstanceAs (Decidable (target.key ≠ "" ∧
      '|' ∉ target.key.toList ∧ Text.trimEnd target.key.toList = target.key.toList ∧
      (mandatory = false → target.key.toList.getLast? ≠ some '!')))
  | .literal text => inferInstanceAs (Decidable (Chain.IsPiece text.toList ∧
      ¬ "DATA.".toList <+: (splitMark text.toList).1 ∧
      ¬ "STATE.".toList <+: (splitMark text.toList).1))

/-- **What is read is well formed.** -/
theorem wellFormed_of_parse {piece : List Char} {link : Link} (hpiece : Chain.IsPiece piece)
    (h : parse piece = .ok link) : link.WellFormed := by
  rcases parse_cases h with ⟨target, hkey, hname, rfl⟩ | ⟨hdata, hstate, rfl⟩
  · refine ⟨hkey, ?_, ?_, ?_⟩
    · intro hbar
      refine hpiece.noBar (mem_of_mem_splitMark ?_)
      rw [hname, Target.toList_name]
      exact List.mem_append_right target.lead hbar
    · rw [← Target.trimEnd_name_iff hkey, ← hname]
      exact trimEnd_splitMark (Text.trim_eq_self_iff.1 hpiece.trimmed).2
    · intro hmandatory
      rw [← Target.getLast?_name hkey, ← hname]
      exact getLast?_splitMark hmandatory
  · rw [WellFormed, String.toList_ofList]
    exact ⟨hpiece, hdata, hstate⟩

/-- The spelling of a target is a piece, with or without a mark after it. -/
theorem isPiece_name {target : Target} (hkey : target.key ≠ "") (hbar : '|' ∉ target.key.toList)
    (hend : Text.trimEnd target.key.toList = target.key.toList) :
    Chain.IsPiece target.name.toList ∧ Chain.IsPiece (target.name.toList ++ ['!']) := by
  have hname : '|' ∉ target.name.toList := by
    rw [Target.toList_name, List.mem_append, not_or]
    exact ⟨target.bar_notMem_lead, hbar⟩
  have hstart (s : List Char) :
      Text.trimStart (target.name.toList ++ s) = target.name.toList ++ s := by
    rw [Target.toList_name, List.append_assoc]
    exact target.trimStart_lead_append (target.key.toList ++ s)
  have hne : target.name.toList ≠ [] := by
    rw [Target.toList_name]
    exact List.append_ne_nil_of_right_ne_nil _ (mt String.toList_eq_nil_iff.1 hkey)
  constructor
  · refine { nonempty := hne, trimmed := ?_, noBar := hname }
    have hself := hstart []
    rw [List.append_nil] at hself
    exact Text.trim_eq_self_iff.2 ⟨hself, (Target.trimEnd_name_iff hkey).2 hend⟩
  · refine { nonempty := by simp, trimmed := ?_, noBar := ?_ }
    · exact Text.trim_eq_self_iff.2 ⟨hstart ['!'], Text.trimEnd_eq_self (by decide)⟩
    · rw [List.mem_append, not_or]
      exact ⟨hname, by decide⟩

/-- **A well-formed link reads back.** -/
theorem parse_print {link : Link} (h : link.WellFormed) :
    Chain.IsPiece link.print.toList ∧ parse link.print.toList = .ok link := by
  cases link with
  | literal text =>
      obtain ⟨hpiece, hdata, hstate⟩ := h
      refine ⟨hpiece, ?_⟩
      rw [print, parse_of_not_lead hdata hstate, String.ofList_toList]
  | keyed target mandatory =>
      obtain ⟨hkey, hbar, hend, hlast⟩ := h
      obtain ⟨hpiece, hmarked⟩ := isPiece_name hkey hbar hend
      cases mandatory with
      | false =>
          have htext : (keyed target false).print = target.name := by simp [print]
          have hmark : splitMark target.name.toList = (target.name.toList, false) :=
            splitMark_of_getLast?_ne (Target.getLast?_name hkey ▸ hlast rfl)
          rw [htext]
          exact ⟨hpiece, parse_of_name hkey hmark⟩
      | true =>
          have htext : (keyed target true).print.toList = target.name.toList ++ ['!'] := by
            simp [print]
          have hmark : splitMark (target.name.toList ++ ['!']) = (target.name.toList, true) := by
            rw [splitMark_append, (Target.trimEnd_name_iff hkey).2 hend]
          rw [htext]
          exact ⟨hmarked, parse_of_name hkey hmark⟩

end Link

namespace Chain

/-! ### Chains of well-formed links -/

theorem toList_print (links : List Link) :
    (print links).toList = ['|'].intercalate (links.map fun link => link.print.toList) := by
  rw [print, String.toList_intercalate, List.map_map]
  rfl

/-- **A chain of well-formed links reads back.** -/
theorem parse_print {links : List Link} (hne : links ≠ []) (h : ∀ link ∈ links, link.WellFormed) :
    parse (print links).toList = .ok links := by
  have hpieces : pieces (print links).toList = links.map fun link => link.print.toList := by
    rw [toList_print]
    refine pieces_intercalate ?_
    intro piece hpiece
    obtain ⟨link, hlink, rfl⟩ := List.mem_map.1 hpiece
    exact (Link.parse_print (h link hlink)).1
  rw [parse_eq_ok_iff, hpieces, List.forall₂_map_left_iff, List.forall₂_same]
  exact ⟨by simpa using hne, fun link hlink => (Link.parse_print (h link hlink)).2⟩

/-- **What is read is a chain of well-formed links.** -/
theorem wellFormed_of_parse {e : List Char} {links : List Link} (h : parse e = .ok links) :
    ∀ link ∈ links, link.WellFormed := by
  obtain ⟨-, hlinks⟩ := parse_eq_ok_iff.1 h
  refine forall_left_of_forall₂ (List.Forall₂.flip hlinks) ?_
  intro link piece hpiece hparse
  exact Link.wellFormed_of_parse (isPiece_of_mem_pieces hpiece) hparse

/-- A text between two marks is one placeholder, if it is a chain without the end of one in it. -/
theorem placeholdersOf_markedText {e : String} {links : List Link}
    (h : parse e.toList = .ok links) (hend : ¬ ['^', '%'] <:+: e.toList) :
    placeholdersOf ("%^" ++ e ++ "^%") =
      .ok [⟨"%^" ++ e ++ "^%", 0, ("%^" ++ e ++ "^%").utf8ByteSize, links⟩] := by
  have htext : ("%^" ++ e ++ "^%").toList = markedText e.toList := by
    simp [markedText]
  rw [placeholdersOf_eq_ok_iff, utf8ByteSize_eq_byteSize, htext, cutMarks_markedText hend]
  refine ⟨[⟨[], e.toList, links⟩], ?_, ?_⟩
  · simp only [Template.parseMarks, h]
  · rw [Template.placeholdersFrom, Template.placeholdersFrom, Mark.raw, ← htext,
      String.ofList_toList]
    simp [htext]

/-- **The chains that are read are those that can be written.**  Every chain that is read has a
link, and its links are well formed.  Every list of well-formed links that is not empty reads back
as it is written, and if there is no end of a placeholder in what is written, it is the only
placeholder of that text between two marks. -/
theorem wellFormed_and_parse_print :
    (∀ e links, parse e = .ok links → links ≠ [] ∧ ∀ link ∈ links, link.WellFormed) ∧
    ∀ links : List Link, links ≠ [] → (∀ link ∈ links, link.WellFormed) →
      parse (print links).toList = .ok links ∧
      (¬ ['^', '%'] <:+: (print links).toList →
        placeholdersOf ("%^" ++ print links ++ "^%") =
          .ok [⟨"%^" ++ print links ++ "^%", 0, ("%^" ++ print links ++ "^%").utf8ByteSize,
            links⟩]) := by
  constructor
  · intro e links h
    exact ⟨ne_nil_of_parse h, wellFormed_of_parse h⟩
  · intro links hne hlinks
    have hparse := parse_print hne hlinks
    exact ⟨hparse, placeholdersOf_markedText hparse⟩

/-- The mark of a mandatory key comes after one that belongs to the key; a literal keeps its own. -/
theorem parse_print_marks :
    parse "DATA.creativeCopy..a!!|STATE. é|DATA !".toList =
      .ok [.keyed (.data .creativeCopy ".a!") true, .keyed (.state " é") false,
        .literal "DATA !"] ∧
    placeholdersOf "%^DATA.creativeCopy..a!!|STATE. é|DATA !^%" =
      .ok [⟨"%^DATA.creativeCopy..a!!|STATE. é|DATA !^%", 0, 43,
        [.keyed (.data .creativeCopy ".a!") true, .keyed (.state " é") false,
          .literal "DATA !"]⟩] := by
  have hprint : print [.keyed (.data .creativeCopy ".a!") true, .keyed (.state " é") false,
      .literal "DATA !"] = "DATA.creativeCopy..a!!|STATE. é|DATA !" := by
    decide +kernel
  obtain ⟨hparse, hplaced⟩ := wellFormed_and_parse_print.2
    [.keyed (.data .creativeCopy ".a!") true, .keyed (.state " é") false, .literal "DATA !"]
    (by simp) (by decide +kernel)
  rw [hprint] at hparse hplaced
  exact ⟨hparse, (hplaced (by decide +kernel)).trans (by decide +kernel)⟩

end Chain

end OfferLayout
