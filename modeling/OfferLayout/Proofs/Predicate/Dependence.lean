/-
**What a predicate reads of a snapshot.**

A predicate looks at a small part of a snapshot, which part depends on the kind of its subject.  Two
snapshots that are the same there cannot be told apart by it, whatever else they hold.  The operands
that are templates read the two records, and the progress and the number of items as far as these
are shown; an operand that is not bound to live state does not read even those, and neither does one
that is not bound at all.

Main definitions:

* `Subject.AgreeOn` — **two snapshots are the same in what a subject reads**;
* `Subject.templates` — the operands of a subject that are templates;
* `Subject.AwaitsState` — one of these operands is bound to live state.

Main results:

* `expandWithState_congr_of_fixed` — what is not bound to live state does not depend on it;
* `Subject.holds_of_operands` — **templates are read through their expansions only**;
* `Subject.holds_of_agreeOn` — a subject reads nothing else;
* `Predicate.holds_reads` — the whole of it.
-/

import OfferLayout.Predicate.Holds
import OfferLayout.Proofs.Expansion.LiveState
import OfferLayout.Proofs.Expansion.Scope

set_option relaxedAutoImplicit false
set_option autoImplicit false

namespace OfferLayout

/-! ### Templates without live state -/

/-- **A template that is not bound to live state** reads the same for all values of the state, also
if it is not bound at all. -/
theorem expandWithState_congr_of_fixed {t : String} {s : Source}
    (h : ∀ b, bindTemplate t s ≠ .ok (.state b)) (v v' : StateValues) :
    expandWithState t s v = expandWithState t s v' := by
  cases hb : bindTemplate t s with
  | error e =>
      have hfilled : ∀ v, expandWithState t s v = (expansions t s).filled v := fun _ => rfl
      rw [hfilled, hfilled, expansions_of_error (bindTemplate_eq_error_iff.1 hb)]
      cases e.collapses <;> rfl
  | ok b =>
      have hfixed : b.inner.hasState = false := by
        obtain ⟨filled, -, rfl⟩ := bindTemplate_eq_ok_iff.1 hb
        cases hbinding : filled.binding with
        | value text =>
            rw [← hbinding, inner_binding, ← isState_binding, hbinding]
            rfl
        | state text => exact absurd (hbinding ▸ hb) (h text)
      rw [expandWithState_eq_of_bindTemplate hb, expandWithState_eq_of_bindTemplate hb,
        render_eq_text_of_hasState_eq_false hfixed, render_eq_text_of_hasState_eq_false hfixed]

/-! ### What is read -/

namespace Subject

/-- **Two snapshots are the same in what a subject reads.**  Numbers below zero are shown as zero in
a text. -/
def AgreeOn (s s' : Snapshot) : Subject → Prop
  | progression _ => s.progress = s'.progress ∧ s.total = s'.total
  | position _ => s.position = s'.position ∧ s.total = s'.total
  | breakpoint _ => s.breakpoints = s'.breakpoints ∧ s.width = s'.width
  | darkMode _ => s.darkMode = s'.darkMode
  | customState key _ =>
      s.position = s'.position ∧
        s.customState.get? s.position key = s'.customState.get? s'.position key
  | staticBoolean _ => True
  | staticString _ _ => True
  | creativeCopy key =>
      ((s.creative.bind fun c => c.copy.get? key) = s'.creative.bind fun c => c.copy.get? key) ∧
        (s.catalogItem.bind fun i => i.copy.get? key) =
          s'.catalogItem.bind fun i => i.copy.get? key
  | placeholderTextValue _ _ | placeholderTextLength _ _ | placeholderNumeric _ _ =>
      s.creative = s'.creative ∧ s.catalogItem = s'.catalogItem ∧
        max 0 s.progress.toInt = max 0 s'.progress.toInt ∧
        max 0 s.total.toInt = max 0 s'.total.toInt

/-- The operands of a subject that are templates. -/
def templates : Subject → List String
  | placeholderTextValue input value => [input, value]
  | placeholderTextLength input value => [input, value]
  | placeholderNumeric input value => [input, value]
  | _ => []

/-- One of the operands of a subject is bound to live state. -/
def AwaitsState (s : Snapshot) (subject : Subject) : Prop :=
  ∃ t ∈ subject.templates, ∃ b, bindTemplate t s.source = .ok (.state b)

end Subject

variable {s s' : Snapshot}

theorem Snapshot.source_congr (hcreative : s.creative = s'.creative)
    (hitem : s.catalogItem = s'.catalogItem) : s.source = s'.source := by
  rw [source, source, hcreative, hitem]

/-- Live state shows numbers below zero as zero. -/
theorem Snapshot.values_congr (hprogress : max 0 s.progress.toInt = max 0 s'.progress.toInt)
    (htotal : max 0 s.total.toInt = max 0 s'.total.toInt) : s.values = s'.values := by
  have hprogress' : s.progress.toInt.toNat = s'.progress.toInt.toNat := by omega
  have htotal' : s.total.toInt.toNat = s'.total.toInt.toNat := by omega
  rw [values, values, hprogress', htotal']

theorem Snapshot.operand?_congr {t : String}
    (h : expandWithState t s.source s.values = expandWithState t s'.source s'.values) :
    s.operand? t = s'.operand? t := by
  rw [operand?, operand?, h]

namespace Subject

/-- **Templates are read through their expansions only.** -/
theorem holds_of_operands {subject : Subject} (hne : subject.templates ≠ [])
    (h : ∀ t ∈ subject.templates, s.operand? t = s'.operand? t) (c : Condition) :
    subject.holds s c = subject.holds s' c := by
  cases subject with
  | placeholderTextValue input value =>
      simp only [holds, h input (by simp [templates]), h value (by simp [templates])]
  | placeholderTextLength input value =>
      simp only [holds, h input (by simp [templates]), h value (by simp [templates])]
  | placeholderNumeric input value =>
      simp only [holds, h input (by simp [templates]), h value (by simp [templates])]
  | _ => exact absurd rfl hne

/-- **A subject reads nothing else.** -/
theorem holds_of_agreeOn {subject : Subject} (h : subject.AgreeOn s s') (c : Condition) :
    subject.holds s c = subject.holds s' c := by
  have htemplates : ∀ {subject : Subject}, subject.templates ≠ [] →
      (s.creative = s'.creative ∧ s.catalogItem = s'.catalogItem ∧
        max 0 s.progress.toInt = max 0 s'.progress.toInt ∧
        max 0 s.total.toInt = max 0 s'.total.toInt) →
      subject.holds s c = subject.holds s' c := by
    rintro subject hne ⟨hcreative, hitem, hprogress, htotal⟩
    refine holds_of_operands hne (fun t _ => Snapshot.operand?_congr ?_) c
    rw [Snapshot.source_congr hcreative hitem, Snapshot.values_congr hprogress htotal]
  cases subject with
  | progression value => simp only [holds, h.1, h.2]
  | position value => simp only [holds, h.1, h.2]
  | breakpoint value => simp only [holds, h.1, h.2]
  | darkMode value =>
      have hdark : s.darkMode = s'.darkMode := h
      simp only [holds, hdark]
  | customState key value =>
      have hentry : s.custom? key = s'.custom? key := h.2
      simp only [holds, hentry]
  | staticBoolean value => rfl
  | staticString input value => rfl
  | creativeCopy key =>
      have hcopy : s.hasCopy key = s'.hasCopy key := by
        rw [Bool.eq_iff_iff, Snapshot.hasCopy_eq_true_iff, Snapshot.hasCopy_eq_true_iff, h.1, h.2]
      simp only [holds, hcopy]
  | placeholderTextValue input value => exact htemplates (by simp [templates]) h
  | placeholderTextLength input value => exact htemplates (by simp [templates]) h
  | placeholderNumeric input value => exact htemplates (by simp [templates]) h

end Subject

/-- **What a predicate reads of a snapshot.**  It holds alike in two snapshots that are the same in
what its subject reads.  Of the custom state that is one entry: any other one may be added, also one
at the same key without a position.  If the operands are templates and none is bound to live state,
the two records alone decide. -/
theorem Predicate.holds_reads (p : Predicate) (s s' : Snapshot) :
    (p.subject.AgreeOn s s' → p.holds s = p.holds s') ∧
    (∀ key value, p.subject = .customState key value →
      ∀ position other n, (position, other) ≠ (s.position, key) →
        p.holds { s with customState := s.customState.set position other n } = p.holds s) ∧
    (p.subject.templates ≠ [] → ¬ p.subject.AwaitsState s → s.creative = s'.creative →
      s.catalogItem = s'.catalogItem → p.holds s = p.holds s') := by
  refine ⟨fun h => Subject.holds_of_agreeOn h p.condition, ?_, ?_⟩
  · intro key value hsubject position other n hne
    refine Subject.holds_of_agreeOn ?_ p.condition
    rw [hsubject]
    exact ⟨rfl, (CustomState.get?_set ..).trans (if_neg hne)⟩
  · intro hne hfixed hcreative hitem
    refine Subject.holds_of_operands hne (fun t ht => Snapshot.operand?_congr ?_) p.condition
    rw [← Snapshot.source_congr hcreative hitem]
    exact expandWithState_congr_of_fixed (fun b hb => hfixed ⟨t, ht, b, hb⟩) _ _

/-- A part of an offer that stands at a position: an entry of the custom state without a position is
not seen, the place of the offer is shown alike below zero and at zero, and a title stays when the
place changes. -/
theorem Predicate.holds_reads_at_position :
    let s : Snapshot :=
      { progress := -7, total := 2, position := some 1,
        customState := CustomState.set [] (some 1) "count" 5,
        creative := some { copy := Dict.ofList [("title", "Hi")] } }
    let count : Predicate := ⟨.equal, .customState "count" 5⟩
    let place : Predicate := ⟨.equal, .placeholderTextValue "%^STATE.IndicatorPosition^%" "1"⟩
    let title : Predicate := ⟨.equal, .placeholderTextValue "%^DATA.creativeCopy.title^%" "Hi"⟩
    count.holds { s with customState := s.customState.set none "count" 9 } = true ∧
    place.holds { s with progress := 0, darkMode := true } = true ∧
    place.holds { s with progress := 3 } = false ∧
    title.holds { s with progress := 3, total := 9 } = true := by
  intro s count place title
  refine ⟨?_, ?_, by decide +kernel, ?_⟩
  · rw [(count.holds_reads s s).2.1 "count" 5 rfl none "count" 9 (by decide)]
    decide +kernel
  · have hsame := (place.holds_reads s { s with progress := 0, darkMode := true }).1
      ⟨rfl, rfl, by decide, rfl⟩
    exact hsame.symm.trans (by decide +kernel)
  · have hfixed : ¬ title.subject.AwaitsState s := by
      rintro ⟨t, ht, b, hb⟩
      have hvalue : ∀ t ∈ title.subject.templates,
          (bindTemplate t s.source).toOption.map Binding.isState = some false := by
        decide +kernel
      simpa [hb, Except.toOption, Binding.isState] using hvalue t ht
    have hsame := (title.holds_reads s { s with progress := 3, total := 9 }).2.2
      (by decide) hfixed rfl rfl
    exact hsame.symm.trans (by decide +kernel)

end OfferLayout
