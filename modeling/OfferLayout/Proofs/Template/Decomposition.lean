/-
**The placeholders of a text are determined by what lies outside and inside them.**

`cutMarks` finds the placeholders of a text from left to right.  What it finds can be said without
the search: no placeholder starts in the plain text before or between placeholders, no placeholder
ends before its end, and no placeholder starts and ends in the plain text after the last one.  Only
one choice of spans has these properties, so they determine the places of all placeholders, their
texts and their links, and the fault that is reported where an expression is no chain.

Main definitions:

* `Cut.IsProper` — nothing is left to be cut in the plain text of a cut, and nothing too much in
  its expressions;
* `Delimits` — **the spans of the placeholders of a text**, described by what they hold and what
  lies between them.

Main results:

* `cutMarks_eq_iff` — a text has one proper cut;
* `delimits_iff` — a text is delimited by the spans of its proper cut only;
* `placeholdersOf_iff_delimits` — **the placeholders of a text, or the first fault in one**, are
  those of the only spans that delimit it.
-/

import OfferLayout.Proofs.FirstFault
import OfferLayout.Proofs.Text.Marker
import OfferLayout.Proofs.Text.Span
import OfferLayout.Template.Basic

set_option relaxedAutoImplicit false
set_option autoImplicit false

namespace OfferLayout

open Text (byteSize)

/-! ### The proper cut of a text -/

/-- No placeholder starts in the text and ends in it. -/
def Plain (s : List Char) : Prop :=
  ∀ u v, s = u ++ '%' :: '^' :: v → ¬ ['^', '%'] <:+: v

theorem plain_of_notMem {s : List Char} (h : '%' ∉ s) : Plain s := by
  rintro u v rfl
  simp at h

/-- A cut with nothing left to be cut in its plain text and nothing too much in its expressions. -/
structure Cut.IsProper (c : Cut) : Prop where
  /-- No placeholder starts before the first one, or between two of them. -/
  gap : ∀ m ∈ c.marks, ¬ ['%', '^'] <:+: m.1
  /-- No placeholder ends within its expression. -/
  expression : ∀ m ∈ c.marks, ¬ ['^', '%'] <:+: m.2
  /-- There is no placeholder after the last one. -/
  rest : Plain c.rest

/-- The first placeholder of a text starts where none starts before, and ends where none ends
before. -/
theorem firstMark?_eq_some_iff {s gap expression after : List Char} :
    firstMark? s = some (gap, expression, after) ↔
      s = gap ++ markedText expression ++ after ∧
        ¬ ['%', '^'] <:+: gap ∧ ¬ ['^', '%'] <:+: expression := by
  constructor
  · intro h
    obtain ⟨⟨u, w⟩, hu, hw⟩ := Option.bind_eq_some_iff.1 h
    obtain ⟨⟨x, v⟩, hx, heq⟩ := Option.map_eq_some_iff.1 hw
    simp only [Prod.mk.injEq] at heq
    obtain ⟨rfl, rfl, rfl⟩ := heq
    exact ⟨eq_of_firstMark? h, Text.not_infix_of_cutAt? hu, Text.not_infix_of_cutAt? hx⟩
  · rintro ⟨rfl, hgap, hexpression⟩
    have hs : gap ++ markedText expression ++ after =
        gap ++ '%' :: '^' :: (expression ++ '^' :: '%' :: after) := by
      simp [markedText]
    have hstart := (Text.cutAt?_eq_some_iff (by decide)).2 ⟨hs, hgap⟩
    have hend : Text.cutAt? '^' '%' (expression ++ '^' :: '%' :: after) =
        some (expression, after) :=
      (Text.cutAt?_eq_some_iff (by decide)).2 ⟨rfl, hexpression⟩
    simp only [firstMark?, hstart, hend, Option.bind_some, Option.map_some]

/-- Where a text has no first placeholder, none starts and ends in it. -/
theorem firstMark?_eq_none_iff {s : List Char} : firstMark? s = none ↔ Plain s := by
  cases hs : Text.cutAt? '%' '^' s with
  | none =>
      have hno := Text.cutAt?_eq_none_iff.1 hs
      simp only [firstMark?, hs, Option.bind_none, true_iff]
      intro u v huv
      exact absurd ⟨u, v, by rw [huv]; simp⟩ hno
  | some cut =>
      obtain ⟨u, v⟩ := cut
      simp only [firstMark?, hs, Option.bind_some, Option.map_eq_none_iff,
        Text.cutAt?_eq_none_iff]
      constructor
      · intro hv u' v' huv hin
        -- an end after any start is an end after the first one
        exact hv (hin.trans (Text.suffix_of_cutAt? (by decide) hs huv).isInfix)
      · intro h
        exact h u v (Text.eq_of_cutAt? hs)

theorem flatten_cons (m : List Char × List Char) (ms : List (List Char × List Char))
    (rest : List Char) :
    Cut.flatten ⟨m :: ms, rest⟩ = m.1 ++ markedText m.2 ++ Cut.flatten ⟨ms, rest⟩ := by
  simp [Cut.flatten]

/-- The cut of a text is proper. -/
theorem isProper_cutMarks (s : List Char) : (cutMarks s).IsProper := by
  fun_induction cutMarks s with
  | case1 s h =>
      exact { gap := by simp, expression := by simp, rest := firstMark?_eq_none_iff.1 h }
  | case2 s gap expression after h c ih =>
      obtain ⟨-, hgap, hexpression⟩ := firstMark?_eq_some_iff.1 h
      refine { gap := ?_, expression := ?_, rest := ih.rest }
      · rintro m (_ | ⟨_, hm⟩)
        · exact hgap
        · exact ih.gap m hm
      · rintro m (_ | ⟨_, hm⟩)
        · exact hexpression
        · exact ih.expression m hm

/-- A proper cut is found again in its text. -/
theorem cutMarks_flatten {c : Cut} (h : c.IsProper) : cutMarks c.flatten = c := by
  obtain ⟨marks, rest⟩ := c
  induction marks with
  | nil =>
      have hnone : firstMark? rest = none := firstMark?_eq_none_iff.2 h.rest
      simpa [Cut.flatten] using cutMarks_of_none hnone
  | cons m marks ih =>
      have htail : Cut.IsProper ⟨marks, rest⟩ :=
        { gap := fun x hx => h.gap x (List.mem_cons_of_mem m hx)
          expression := fun x hx => h.expression x (List.mem_cons_of_mem m hx)
          rest := h.rest }
      have hfirst : firstMark? (Cut.flatten ⟨m :: marks, rest⟩) =
          some (m.1, m.2, Cut.flatten ⟨marks, rest⟩) := by
        rw [firstMark?_eq_some_iff, flatten_cons]
        exact ⟨rfl, h.gap m (List.mem_cons_self ..), h.expression m (List.mem_cons_self ..)⟩
      rw [cutMarks_of_some hfirst, ih htail]

/-- **A text has one proper cut.** -/
theorem cutMarks_eq_iff {s : List Char} {c : Cut} :
    cutMarks s = c ↔ c.IsProper ∧ c.flatten = s := by
  constructor
  · rintro rfl
    exact ⟨isProper_cutMarks s, flatten_cutMarks s⟩
  · rintro ⟨h, rfl⟩
    exact cutMarks_flatten h

/-- A text between two marks is one expression, if there is no end of a placeholder in it. -/
theorem cutMarks_markedText {e : List Char} (h : ¬ ['^', '%'] <:+: e) :
    cutMarks (markedText e) = ⟨[([], e)], []⟩ := by
  rw [cutMarks_eq_iff]
  refine ⟨{ gap := by simp, expression := by simpa using h, rest := ?_ }, ?_⟩
  · intro u v huv
    simp at huv
  · simp [Cut.flatten]

/-! ### The spans of a cut -/

/-- The spans of placeholders after `start` bytes of text. -/
def markSpans (start : Nat) : List (List Char × List Char) → List Span
  | [] => []
  | m :: rest =>
      let first := start + byteSize m.1
      let stop := first + byteSize (markedText m.2)
      ⟨first, stop⟩ :: markSpans stop rest

/-- The span of a placeholder. -/
def Placeholder.span (p : Placeholder) : Span := ⟨p.start, p.stop⟩

theorem map_span_placeholdersFrom (start : Nat) (marks : List Mark) :
    (Template.placeholdersFrom start marks).map Placeholder.span =
      markSpans start (marks.map fun m => (m.gap, m.expression)) := by
  induction marks generalizing start with
  | nil => rfl
  | cons m marks ih =>
      simp only [Template.placeholdersFrom, List.map_cons, markSpans]
      rw [ih]
      rfl

/-- **The spans of the placeholders of a text.** -/
structure Delimits (t : String) (spans : List Span) : Prop where
  /-- They lie within the text, and start and stop between characters. -/
  valid : ∀ x ∈ spans,
    (⟨x.start⟩ : String.Pos.Raw).IsValid t ∧ (⟨x.stop⟩ : String.Pos.Raw).IsValid t
  /-- None of them is empty. -/
  nonempty : ∀ x ∈ spans, x.start < x.stop
  /-- None starts before all earlier ones have stopped. -/
  ordered : spans.Pairwise fun x y => x.stop ≤ y.start
  /-- Each holds a placeholder that ends nowhere before its end. -/
  marked : ∀ x ∈ spans,
    ∃ expression, x.slice? t.toList = some (markedText expression) ∧ ¬ ['^', '%'] <:+: expression
  /-- No placeholder starts before the first one, or between two of them. -/
  gap : ∀ x ∈ Span.gaps 0 spans, ∃ gap, x.slice? t.toList = some gap ∧ ¬ ['%', '^'] <:+: gap
  /-- No placeholder starts and ends after the last one. -/
  rest : ∃ rest, (Span.mk (Span.finish 0 spans) t.utf8ByteSize).slice? t.toList = some rest ∧
    Plain rest

/-! ### What the spans of a cut hold -/

theorem byteSize_markedText (expression : List Char) :
    byteSize (markedText expression) = byteSize expression + 4 := by
  have h : '%'.utf8Size = 1 ∧ '^'.utf8Size = 1 := by decide
  simp only [markedText, List.cons_append, Text.byteSize_cons, Text.byteSize_append,
    Text.byteSize_nil, h]
  omega

theorem markedText_injective {e e' : List Char} (h : markedText e = markedText e') : e = e' := by
  simpa [markedText] using h

/-- The spans after a first part of a text, by the texts that end where they start and stop. -/
theorem markSpans_cons (pre : List Char) (m : List Char × List Char)
    (ms : List (List Char × List Char)) :
    markSpans (byteSize pre) (m :: ms) =
      ⟨byteSize (pre ++ m.1), byteSize (pre ++ m.1 ++ markedText m.2)⟩ ::
        markSpans (byteSize (pre ++ m.1 ++ markedText m.2)) ms := by
  simp only [markSpans, Text.byteSize_append]

theorem append_flatten_cons (pre : List Char) (m : List Char × List Char)
    (ms : List (List Char × List Char)) (rest : List Char) :
    pre ++ Cut.flatten ⟨m :: ms, rest⟩ =
      pre ++ m.1 ++ markedText m.2 ++ Cut.flatten ⟨ms, rest⟩ := by
  rw [flatten_cons, List.append_assoc, List.append_assoc, List.append_assoc]

/-- The spans of a cut hold its placeholders. -/
theorem slice?_markSpans (pre : List Char) (c : Cut) :
    List.Forall₂ (fun x m => x.slice? (pre ++ c.flatten) = some (markedText m.2))
      (markSpans (byteSize pre) c.marks) c.marks := by
  obtain ⟨marks, rest⟩ := c
  induction marks generalizing pre with
  | nil => exact List.Forall₂.nil
  | cons m marks ih =>
      rw [markSpans_cons]
      refine List.Forall₂.cons ?_ ?_
      · rw [append_flatten_cons, List.append_assoc (pre ++ m.1)]
        exact Span.slice?_append_iff.2 ⟨_, rfl, rfl⟩
      · rw [append_flatten_cons]
        exact ih (pre ++ m.1 ++ markedText m.2)

/-- What lies before and between the spans of a cut is its plain text. -/
theorem slice?_gaps_markSpans (pre : List Char) (c : Cut) :
    List.Forall₂ (fun x m => x.slice? (pre ++ c.flatten) = some m.1)
      (Span.gaps (byteSize pre) (markSpans (byteSize pre) c.marks)) c.marks := by
  obtain ⟨marks, rest⟩ := c
  induction marks generalizing pre with
  | nil => exact List.Forall₂.nil
  | cons m marks ih =>
      rw [markSpans_cons]
      refine List.Forall₂.cons ?_ ?_
      · rw [append_flatten_cons, List.append_assoc (pre ++ m.1),
          List.append_assoc pre m.1 (markedText m.2 ++ _)]
        exact Span.slice?_append_iff.2 ⟨_, rfl, rfl⟩
      · rw [append_flatten_cons]
        exact ih (pre ++ m.1 ++ markedText m.2)

/-- What lies after the spans of a cut is the rest of its plain text. -/
theorem slice?_finish_markSpans (pre : List Char) (c : Cut) :
    (Span.mk (Span.finish (byteSize pre) (markSpans (byteSize pre) c.marks))
      (byteSize (pre ++ c.flatten))).slice? (pre ++ c.flatten) = some c.rest := by
  obtain ⟨marks, rest⟩ := c
  induction marks generalizing pre with
  | nil => exact Span.slice?_to_end pre rest
  | cons m marks ih =>
      rw [markSpans_cons, append_flatten_cons]
      exact ih (pre ++ m.1 ++ markedText m.2)

theorem le_start_of_mem_markSpans {n : Nat} {ms : List (List Char × List Char)} {x : Span}
    (h : x ∈ markSpans n ms) : n ≤ x.start := by
  induction ms generalizing n with
  | nil => simp [markSpans] at h
  | cons m ms ih =>
      rcases List.mem_cons.1 h with rfl | h
      · exact Nat.le_add_right n _
      · have := ih h
        omega

theorem pairwise_markSpans (n : Nat) (ms : List (List Char × List Char)) :
    (markSpans n ms).Pairwise fun x y => x.stop ≤ y.start := by
  induction ms generalizing n with
  | nil => exact List.Pairwise.nil
  | cons m ms ih =>
      refine List.Pairwise.cons ?_ (ih _)
      intro y hy
      exact le_start_of_mem_markSpans hy

/-- Spans whose ends and contents are right come from a proper cut.  The text is divided where the
first span that is left may start. -/
theorem exists_cut_of_slices {pre w : List Char} {spans : List Span}
    (hmarked : ∀ x ∈ spans, ∃ expression,
      x.slice? (pre ++ w) = some (markedText expression) ∧ ¬ ['^', '%'] <:+: expression)
    (hgap : ∀ x ∈ Span.gaps (byteSize pre) spans, ∃ gap,
      x.slice? (pre ++ w) = some gap ∧ ¬ ['%', '^'] <:+: gap)
    (hrest : ∃ rest, (Span.mk (Span.finish (byteSize pre) spans) (byteSize (pre ++ w))).slice?
      (pre ++ w) = some rest ∧ Plain rest) :
    ∃ c : Cut, c.IsProper ∧ c.flatten = w ∧ spans = markSpans (byteSize pre) c.marks := by
  induction spans generalizing pre w with
  | nil =>
      obtain ⟨rest, hr, hplain⟩ := hrest
      have hw : w = rest := by
        have hall := Span.slice?_to_end pre w
        simp only [Span.finish] at hr
        exact Option.some_inj.1 (hall.symm.trans hr)
      subst hw
      refine ⟨⟨[], w⟩, { gap := by simp, expression := by simp, rest := hplain }, ?_, rfl⟩
      simp [Cut.flatten]
  | cons x spans ih =>
      -- the plain text before the first span, and what the span holds, are cut off
      obtain ⟨gap, hg, hgapno⟩ := hgap ⟨byteSize pre, x.start⟩ (List.mem_cons_self ..)
      obtain ⟨w₁, rfl, hstart⟩ := Span.slice?_append_iff.1 hg
      obtain ⟨expression, hm, hexpno⟩ := hmarked x (List.mem_cons_self ..)
      rw [← List.append_assoc] at hm
      have hx : x = ⟨byteSize (pre ++ gap), x.stop⟩ := by rw [hstart]
      rw [hx] at hm
      obtain ⟨w₂, rfl, hstop⟩ := Span.slice?_append_iff.1 hm
      have hassoc : pre ++ (gap ++ (markedText expression ++ w₂)) =
          pre ++ gap ++ markedText expression ++ w₂ := by
        simp only [List.append_assoc]
      rw [hassoc] at hmarked hgap hrest
      simp only [Span.gaps, Span.finish, ← hstop] at hgap hrest
      obtain ⟨c, hc, hflat, hspans⟩ := ih (fun y hy => hmarked y (List.mem_cons_of_mem x hy))
        (fun y hy => hgap y (List.mem_cons_of_mem _ hy)) hrest
      refine ⟨⟨(gap, expression) :: c.marks, c.rest⟩, ?_, ?_, ?_⟩
      · exact
          { gap := by rintro m (_ | ⟨_, h⟩); exacts [hgapno, hc.gap m h]
            expression := by rintro m (_ | ⟨_, h⟩); exacts [hexpno, hc.expression m h]
            rest := hc.rest }
      · rw [flatten_cons, List.append_assoc, hflat]
      · rw [markSpans_cons, ← hspans, hx]
        simp only [hstop]

/-! ### The spans that delimit a text -/

theorem utf8ByteSize_eq_byteSize (t : String) : t.utf8ByteSize = byteSize t.toList := by
  rw [← Text.utf8ByteSize_ofList, String.ofList_toList]

/-- **A text is delimited by the spans of its proper cut only.** -/
theorem delimits_iff {t : String} {spans : List Span} :
    Delimits t spans ↔ spans = markSpans 0 (cutMarks t.toList).marks := by
  constructor
  · intro h
    have hrest := h.rest
    rw [utf8ByteSize_eq_byteSize] at hrest
    obtain ⟨c, hc, hflat, hspans⟩ :=
      @exists_cut_of_slices [] t.toList spans h.marked h.gap hrest
    rw [cutMarks_eq_iff.2 ⟨hc, hflat⟩]
    exact hspans
  · rintro rfl
    have hproper := isProper_cutMarks t.toList
    have hflat := flatten_cutMarks t.toList
    generalize cutMarks t.toList = c at hproper hflat ⊢
    have hmarked := slice?_markSpans [] c
    have hgaps := slice?_gaps_markSpans [] c
    have hrest := slice?_finish_markSpans [] c
    rw [List.nil_append, hflat] at hmarked hgaps hrest
    refine
      { valid := ?_, nonempty := ?_, ordered := pairwise_markSpans 0 c.marks, marked := ?_,
        gap := ?_, rest := ?_ }
    · refine forall_left_of_forall₂ hmarked ?_
      intro x m _ hx
      have := Span.isValid_of_slice? hx
      rwa [String.ofList_toList] at this
    · refine forall_left_of_forall₂ hmarked ?_
      intro x m _ hx
      obtain ⟨u, v, -, hstart, hstop⟩ := Span.slice?_eq_some_iff.1 hx
      rw [Text.byteSize_append, byteSize_markedText] at hstop
      omega
    · exact forall_left_of_forall₂ hmarked fun x m hm hx => ⟨m.2, hx, hproper.expression m hm⟩
    · exact forall_left_of_forall₂ hgaps fun x m hm hx => ⟨m.1, hx, hproper.gap m hm⟩
    · rw [utf8ByteSize_eq_byteSize]
      exact ⟨c.rest, hrest, hproper.rest⟩

/-! ### Reading the expressions -/

theorem parseMarks_cons_eq_ok_iff {m : List Char × List Char} {ms : List (List Char × List Char)}
    {marks : List Mark} :
    Template.parseMarks (m :: ms) = .ok marks ↔
      ∃ links rest, Chain.parse m.2 = .ok links ∧ Template.parseMarks ms = .ok rest ∧
        marks = ⟨m.1, m.2, links⟩ :: rest := by
  cases hm : Chain.parse m.2 with
  | error e => simp [Template.parseMarks, hm]
  | ok links =>
      cases hms : Template.parseMarks ms with
      | error e => simp [Template.parseMarks, hm, hms]
      | ok rest => simp [Template.parseMarks, hm, hms, eq_comm]

theorem parseMarks_cons_eq_error_iff {m : List Char × List Char}
    {ms : List (List Char × List Char)} {e : PlaceholderError} :
    Template.parseMarks (m :: ms) = .error e ↔
      Chain.parse m.2 = .error e ∨
        ∃ links, Chain.parse m.2 = .ok links ∧ Template.parseMarks ms = .error e := by
  cases hm : Chain.parse m.2 with
  | error e => simp [Template.parseMarks, hm]
  | ok links =>
      cases hms : Template.parseMarks ms with
      | error e => simp [Template.parseMarks, hm, hms]
      | ok rest => simp [Template.parseMarks, hm, hms]

/-- The links of every placeholder that is read are those of its expression. -/
theorem parse_expression_of_parseMarks {ms : List (List Char × List Char)} {marks : List Mark}
    (h : Template.parseMarks ms = .ok marks) :
    ∀ m ∈ marks, Chain.parse m.expression = .ok m.links := by
  induction ms generalizing marks with
  | nil =>
      cases h
      simp
  | cons m ms ih =>
      obtain ⟨links, rest, hm, hrest, rfl⟩ := parseMarks_cons_eq_ok_iff.1 h
      rintro k (_ | ⟨_, hk⟩)
      · exact hm
      · exact ih hrest k hk

/-- Reading keeps what was found in the text. -/
theorem map_expression_of_parseMarks {ms : List (List Char × List Char)} {marks : List Mark}
    (h : Template.parseMarks ms = .ok marks) :
    marks.map (fun m => (m.gap, m.expression)) = ms := by
  induction ms generalizing marks with
  | nil =>
      cases h
      rfl
  | cons m ms ih =>
      obtain ⟨links, rest, -, hrest, rfl⟩ := parseMarks_cons_eq_ok_iff.1 h
      rw [List.map_cons, ih hrest]

/-- The placeholders that are read have the spans, the texts and the links of those that were
found. -/
theorem placeholdersFrom_parseMarks_iff {start : Nat} {ms : List (List Char × List Char)}
    {ps : List Placeholder} :
    (∃ marks, Template.parseMarks ms = .ok marks ∧ Template.placeholdersFrom start marks = ps) ↔
      ps.map Placeholder.span = markSpans start ms ∧
        List.Forall₂ (fun p m => p.raw = String.ofList (markedText m.2) ∧
          Chain.parse m.2 = .ok p.links) ps ms := by
  induction ms generalizing start ps with
  | nil =>
      constructor
      · rintro ⟨marks, h, rfl⟩
        simp only [Template.parseMarks, Except.ok.injEq] at h
        subst h
        exact ⟨rfl, List.Forall₂.nil⟩
      · rintro ⟨-, h⟩
        exact ⟨[], rfl, (List.forall₂_nil_right_iff.1 h).symm⟩
  | cons m ms ih =>
      constructor
      · rintro ⟨marks, h, rfl⟩
        obtain ⟨links, rest, hm, hrest, rfl⟩ := parseMarks_cons_eq_ok_iff.1 h
        obtain ⟨hspans, hread⟩ := ih.1 ⟨rest, hrest, rfl⟩
        refine ⟨?_, List.Forall₂.cons ⟨rfl, hm⟩ hread⟩
        simp only [Template.placeholdersFrom, List.map_cons, markSpans]
        exact congrArg _ hspans
      · rintro ⟨hspans, hread⟩
        cases hread with
        | @cons p _ ps _ hp hread =>
            simp only [List.map_cons, markSpans, List.cons.injEq, Placeholder.span,
              Span.mk.injEq] at hspans
            obtain ⟨⟨hstart, hstop⟩, hspans⟩ := hspans
            obtain ⟨rest, hrest, hps⟩ := ih.2 ⟨hspans, hread⟩
            refine ⟨⟨m.1, m.2, p.links⟩ :: rest, ?_, ?_⟩
            · exact parseMarks_cons_eq_ok_iff.2 ⟨p.links, rest, hp.2, hrest, rfl⟩
            · simp only [Template.placeholdersFrom, Mark.raw, hps, ← hp.1]
              rw [← hstop, ← hstart]

/-- The fault that is reported is that of the first expression that is no chain. -/
theorem parseMarks_eq_error_iff {ms : List (List Char × List Char)} {e : PlaceholderError} :
    Template.parseMarks ms = .error e ↔ FirstFault Chain.parse (ms.map Prod.snd) e := by
  induction ms with
  | nil => exact iff_of_false (by simp [Template.parseMarks]) (not_firstFault_nil _ _)
  | cons m ms ih => rw [parseMarks_cons_eq_error_iff, ih, List.map_cons, firstFault_cons_iff]

/-! ### The placeholders of a text -/

theorem placeholdersOf_eq_ok_iff {t : String} {ps : List Placeholder} :
    placeholdersOf t = .ok ps ↔
      ∃ marks, Template.parseMarks (cutMarks t.toList).marks = .ok marks ∧
        Template.placeholdersFrom 0 marks = ps := by
  simp only [placeholdersOf, Template.parse]
  cases Template.parseMarks (cutMarks t.toList).marks with
  | error e => simp [Except.map]
  | ok marks => simp [Except.map, Template.placeholders]

theorem placeholdersOf_eq_error_iff {t : String} {e : PlaceholderError} :
    placeholdersOf t = .error e ↔
      Template.parseMarks (cutMarks t.toList).marks = .error e := by
  simp only [placeholdersOf, Template.parse]
  cases Template.parseMarks (cutMarks t.toList).marks <;> simp [Except.map]

/-- The text with the spans of a cut replaced is its plain text with the replacements in between. -/
theorem splice_markSpans (pre rest : List Char)
    (l : List ((List Char × List Char) × List Char)) :
    Span.splice (pre ++ Cut.flatten ⟨l.map Prod.fst, rest⟩) (byteSize pre)
        ((markSpans (byteSize pre) (l.map Prod.fst)).zip (l.map Prod.snd)) =
      some (l.flatMap (fun x => x.1.1 ++ x.2) ++ rest) := by
  induction l generalizing pre with
  | nil => exact Span.slice?_to_end pre rest
  | cons x l ih =>
      have hgap : (Span.mk (byteSize pre) (byteSize (pre ++ x.1.1))).slice?
          (pre ++ x.1.1 ++ markedText x.1.2 ++ Cut.flatten ⟨l.map Prod.fst, rest⟩) =
            some x.1.1 := by
        rw [List.append_assoc (pre ++ x.1.1), List.append_assoc pre x.1.1 (markedText x.1.2 ++ _)]
        exact Span.slice?_append_iff.2 ⟨_, rfl, rfl⟩
      rw [List.map_cons, List.map_cons, markSpans_cons, append_flatten_cons, List.zip_cons_cons,
        Span.splice, hgap, Option.bind_some, ih (pre ++ x.1.1 ++ markedText x.1.2)]
      simp

/-- Spans hold one list of expressions at most. -/
theorem expressions_unique {s : List Char} {spans : List Span} {l l' : List (List Char)}
    (h : List.Forall₂ (fun x expression => x.slice? s = some (markedText expression)) spans l)
    (h' : List.Forall₂ (fun x expression => x.slice? s = some (markedText expression)) spans l') :
    l = l' := by
  refine List.right_unique_forall₂' ?_ h h'
  intro x e e' he he'
  exact markedText_injective (Option.some_inj.1 (he.symm.trans he'))

/-- Placeholders that stand where the expressions of a cut were found are read from them exactly
when each of them is read from what its span holds. -/
theorem forall₂_read_iff {s : List Char} {ps : List Placeholder}
    {ms : List (List Char × List Char)} (hno : ∀ m ∈ ms, ¬ ['^', '%'] <:+: m.2)
    (h : List.Forall₂ (fun p m => p.span.slice? s = some (markedText m.2)) ps ms) :
    List.Forall₂ (fun p m => p.raw = String.ofList (markedText m.2) ∧
        Chain.parse m.2 = .ok p.links) ps ms ↔
      ∀ p ∈ ps, p.span.slice? s = some p.raw.toList ∧
        ∃ expression, p.raw = String.ofList (markedText expression) ∧
          ¬ ['^', '%'] <:+: expression ∧ Chain.parse expression = .ok p.links := by
  constructor
  · intro hread
    have hboth := List.Forall₂.mp (fun p m hs hr => And.intro hs hr) h hread
    refine forall_left_of_forall₂ hboth ?_
    rintro p m hm ⟨hslice, hraw, hlinks⟩
    refine ⟨?_, m.2, hraw, hno m hm, hlinks⟩
    rw [hslice, hraw, String.toList_ofList]
  · intro hall
    refine ((List.forall₂_and_left ps ms).2 ⟨hall, h⟩).imp ?_
    rintro p m ⟨⟨hraw, expression, heq, -, hlinks⟩, hslice⟩
    have hsame : expression = m.2 := by
      rw [hslice, heq, String.toList_ofList, Option.some_inj] at hraw
      exact (markedText_injective hraw).symm
    subst hsame
    exact ⟨heq, hlinks⟩

/-- A text whose placeholders are replaced by themselves is the text itself. -/
theorem splice_placeholders {t : String} {ps : List Placeholder} (h : placeholdersOf t = .ok ps) :
    Span.splice t.toList 0 (ps.map fun p => (p.span, p.raw.toList)) = some t.toList := by
  obtain ⟨hspans, hread⟩ := placeholdersFrom_parseMarks_iff.1 (placeholdersOf_eq_ok_iff.1 h)
  have hflat := flatten_cutMarks t.toList
  generalize cutMarks t.toList = c at hspans hread hflat
  obtain ⟨ms, rest⟩ := c
  have hraws : ps.map (fun p => p.raw.toList) = ms.map fun m => markedText m.2 := by
    rw [← List.forall₂_eq_eq_eq, List.forall₂_map_left_iff, List.forall₂_map_right_iff]
    refine hread.imp ?_
    rintro p m ⟨hraw, -⟩
    rw [hraw, String.toList_ofList]
  have hsplice := splice_markSpans [] rest (ms.map fun m => (m, markedText m.2))
  simp only [List.map_map, Function.comp_def, List.map_id', List.nil_append,
    Text.byteSize_nil, List.flatMap_map] at hsplice
  rw [← List.zip_map', hraws, hspans, ← hflat, hsplice]
  rfl

/-- **The placeholders of a text, or the first fault in one.**  The only spans that delimit the
text are those of its placeholders; each placeholder is the text in its span, and its links are
those of its expression.  What lies outside the spans and in them makes up the text.  If an
expression is no chain, the fault is that of the first such expression. -/
theorem placeholdersOf_iff_delimits (t : String) :
    (∃! spans, Delimits t spans) ∧
    (∀ ps, placeholdersOf t = .ok ps ↔
      Delimits t (ps.map Placeholder.span) ∧
      ∀ p ∈ ps, p.span.slice? t.toList = some p.raw.toList ∧
        ∃ expression, p.raw = String.ofList (markedText expression) ∧
          ¬ ['^', '%'] <:+: expression ∧ Chain.parse expression = .ok p.links) ∧
    (∀ ps, placeholdersOf t = .ok ps →
      Span.splice t.toList 0 (ps.map fun p => (p.span, p.raw.toList)) = some t.toList) ∧
    ∀ e, placeholdersOf t = .error e ↔
      ∃ spans expressions, Delimits t spans ∧
        List.Forall₂ (fun x expression => x.slice? t.toList = some (markedText expression))
          spans expressions ∧
        FirstFault Chain.parse expressions e := by
  have hproper := isProper_cutMarks t.toList
  have hmarked := slice?_markSpans [] (cutMarks t.toList)
  rw [List.nil_append, flatten_cutMarks, Text.byteSize_nil] at hmarked
  refine ⟨?_, ?_, fun ps h => splice_placeholders h, ?_⟩
  · exact ⟨_, delimits_iff.2 rfl, fun spans h => delimits_iff.1 h⟩
  · intro ps
    rw [placeholdersOf_eq_ok_iff, placeholdersFrom_parseMarks_iff, delimits_iff]
    refine and_congr_right fun hspans => ?_
    rw [← hspans, List.forall₂_map_left_iff] at hmarked
    exact forall₂_read_iff hproper.expression hmarked
  · intro e
    rw [placeholdersOf_eq_error_iff, parseMarks_eq_error_iff]
    have hheld : List.Forall₂ (fun x expression => x.slice? t.toList = some (markedText expression))
        (markSpans 0 (cutMarks t.toList).marks) ((cutMarks t.toList).marks.map Prod.snd) :=
      List.forall₂_map_right_iff.2 hmarked
    constructor
    · intro h
      exact ⟨_, _, delimits_iff.2 rfl, hheld, h⟩
    · rintro ⟨spans, expressions, hspans, hslices, h⟩
      rw [delimits_iff] at hspans
      subst hspans
      rwa [expressions_unique hheld hslices]

/-- In this text a start is preceded by its own first character, and an end by its own first
character; a second start overlaps the end, and a third one has no end. -/
theorem placeholdersOf_overlapping_marks :
    placeholdersOf "é%%^a^^%^% %^b" = .ok [⟨"%^a^^%", 3, 9, [.literal "a^"]⟩] ∧
      Span.splice "é%%^a^^%^% %^b".toList 0 [(⟨3, 9⟩, "%^a^^%".toList)] =
        some "é%%^a^^%^% %^b".toList := by
  have h : placeholdersOf "é%%^a^^%^% %^b" = .ok [⟨"%^a^^%", 3, 9, [.literal "a^"]⟩] := by
    decide +kernel
  exact ⟨h, (placeholdersOf_iff_delimits _).2.2.1 _ h⟩

end OfferLayout
