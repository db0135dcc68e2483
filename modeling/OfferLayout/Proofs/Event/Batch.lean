/-
**Which submissions a batch holds.**

The submissions of a run are told apart by the numbers of their steps.  Those that are queued go
into batches in order, so the lengths of the batches say which numbers each of them holds.  Neither
the lengths nor the numbers depend on more of an event than its key: two runs with the same steps,
on events that differ in nothing else, send the same numbers in the same batches.

Main definitions:

* `Pipeline.batchNumbers` — **the numbers of the steps whose events each batch holds**;
* `Pipeline.Action.Alike` — the same step, on events that agree in what makes up the key;
* `Pipeline.Reaction.Alike` — the same outcome, and a batch of the same length;
* `Pipeline.SameShape` — states that differ at most in the pending events, but not in their number.

Main results:

* `Pipeline.map_batchNumbers` — the events of a batch are those of the steps with its numbers;
* `Pipeline.SameShape.step` — alike steps keep states in the same shape, and have alike answers;
* `Pipeline.run_alike` — **alike runs have the same outcomes and the same numbers in each batch**.
-/

import Mathlib.Data.List.Forall2
import Mathlib.Data.List.SplitLengths
import OfferLayout.Proofs.Event.Conservation

set_option relaxedAutoImplicit false
set_option autoImplicit false

namespace OfferLayout

/-! ### Cutting lists -/

variable {α β : Type}

theorem map_splitLengths (f : α → β) (sizes : List Nat) (l : List α) :
    (sizes.splitLengths l).map (List.map f) = sizes.splitLengths (l.map f) := by
  induction sizes generalizing l with
  | nil => rfl
  | cons n sizes ih =>
      rw [List.splitLengths_cons, List.splitLengths_cons, List.map_cons, ih, List.map_take,
        List.map_drop]

/-- Lists that are put together are found again by their lengths. -/
theorem splitLengths_flatten_append (parts : List (List α)) (rest : List α) :
    (parts.map List.length).splitLengths (parts.flatten ++ rest) = parts := by
  induction parts with
  | nil => rfl
  | cons part parts ih =>
      rw [List.map_cons, List.splitLengths_cons, List.flatten_cons, List.append_assoc,
        List.take_left, List.drop_left, ih]

namespace Pipeline

/-! ### Numbering the submissions -/

/-- The numbers of the steps whose event was queued, where the first step has the given number. -/
def queuedFrom (number : Nat) : List Reaction → List Nat
  | [] => []
  | r :: rest =>
      if r.outcome = some .queued then number :: queuedFrom (number + 1) rest
      else queuedFrom (number + 1) rest

/-- **The numbers of the steps whose events each batch holds.** -/
def batchNumbers (reactions : List Reaction) : List (List Nat) :=
  ((batches reactions).map List.length).splitLengths (queuedFrom 0 reactions)

/-- The numbers of the queued submissions lead to the queued events. -/
theorem map_queuedFrom (mode : IntegrationMode) (p : Pipeline) (before actions : List Action) :
    (queuedFrom before.length (p.run mode actions).1).map (fun n => (before ++ actions)[n]?) =
      (queuedEvents actions (p.run mode actions).1).map fun e => some (.submit e) := by
  induction actions generalizing p before with
  | nil => rfl
  | cons a actions ih =>
      have hrest := ih (p.step mode a).2 (before ++ [a])
      rw [List.append_assoc, List.singleton_append, List.length_append, List.length_singleton]
        at hrest
      rw [run, queuedEvents_cons, queuedFrom, List.map_append, ← hrest]
      cases a with
      | submit e =>
          by_cases h : ((p.step mode (.submit e)).1.outcome = some .queued)
          · simp [h, Action.queued?]
          · simp [h, Action.queued?]
      | flush => simp [step, Action.queued?]
      | fire w => simp [step, Action.queued?]

/-- **The events of a batch are those of the steps with its numbers.** -/
theorem map_batchNumbers (mode : IntegrationMode) (actions : List Action) :
    (batchNumbers (run mode {} actions).1).map (fun numbers => numbers.map fun n => actions[n]?) =
      (batches (run mode {} actions).1).map fun batch => batch.map fun e => some (.submit e) := by
  have hqueued := map_queuedFrom mode {} [] actions
  have hevents := run_conserves mode {} actions
  simp only [List.nil_append, List.length_nil] at hqueued hevents
  have hlengths : (batches (run mode {} actions).1).map List.length =
      ((batches (run mode {} actions).1).map fun batch =>
        batch.map fun e => some (Action.submit e)).map List.length := by
    rw [List.map_map]
    exact List.map_congr_left fun batch _ => (List.length_map _).symm
  -- the numbers are cut as the events are, and the events that are cut are the batches
  rw [batchNumbers, map_splitLengths, hqueued, ← hevents, List.map_append, List.map_flatten,
    hlengths]
  exact splitLengths_flatten_append _ _

/-- The same outcome, and a batch of the same length. -/
def Reaction.Alike (r r' : Reaction) : Prop :=
  r.outcome = r'.outcome ∧ r.batch.length = r'.batch.length

theorem map_outcome_congr {rs rs' : List Reaction} (h : List.Forall₂ Reaction.Alike rs rs') :
    rs.map Reaction.outcome = rs'.map Reaction.outcome := by
  induction h with
  | nil => rfl
  | cons hr _ ih => rw [List.map_cons, List.map_cons, hr.1, ih]

/-- The numbers in each batch depend on the outcomes and on the lengths of the batches only. -/
theorem batchNumbers_congr {rs rs' : List Reaction} (h : List.Forall₂ Reaction.Alike rs rs') :
    batchNumbers rs = batchNumbers rs' := by
  have hqueued : ∀ n, queuedFrom n rs = queuedFrom n rs' := by
    induction h with
    | nil => exact fun _ => rfl
    | cons hr _ ih =>
        intro n
        rw [queuedFrom, queuedFrom, hr.1, ih]
  have hlengths : (batches rs).map List.length = (batches rs').map List.length := by
    clear hqueued
    induction h with
    | nil => rfl
    | @cons r r' rs rs' hr _ ih =>
        have hempty : r.batch.isEmpty = r'.batch.isEmpty := by
          rw [Bool.eq_iff_iff, List.isEmpty_iff_length_eq_zero, List.isEmpty_iff_length_eq_zero,
            hr.2]
        simp only [batches, List.map_cons, List.filter_cons, hempty] at ih ⊢
        cases r'.batch.isEmpty <;> simp [ih, hr.2]
  rw [batchNumbers, batchNumbers, hqueued, hlengths]

/-! ### Alike runs -/

/-- **The same step**, except that the identifier, the instant, the metadata, the object and the
token of a submitted event may be others. -/
def Action.Alike : Action → Action → Prop
  | .submit e, .submit e' =>
      e' = { e with
        instanceGuid := e'.instanceGuid
        time := e'.time
        metadata := e'.metadata
        object := e'.object
        token := e'.token }
  | .flush, .flush => True
  | .fire w, .fire w' => w = w'
  | _, _ => False

/-- The same state, except that other events may be pending, in the same number. -/
structure SameShape (p p' : Pipeline) : Prop where
  seen : p.seen = p'.seen
  pending : p.pending.length = p'.pending.length
  window : p.window = p'.window
  timer : p.timer = p'.timer

theorem SameShape.refl (p : Pipeline) : SameShape p p := ⟨rfl, rfl, rfl, rfl⟩

theorem SameShape.enqueue {p p' : Pipeline} (h : SameShape p p') {e e' : Event}
    (hkey : e'.key = e.key) (hsignal : e'.signal = e.signal) :
    SameShape (p.enqueue e) (p'.enqueue e') := by
  refine ⟨?_, ?_, ?_, ?_⟩
  · rw [seen_enqueue, seen_enqueue, hkey, hsignal, h.seen]
  · rw [pending_enqueue, pending_enqueue, List.length_append, List.length_append, h.pending]
    rfl
  · cases htimer : p.timer with
    | some w =>
        rw [(enqueue_of_armed htimer e).2, (enqueue_of_armed (h.timer ▸ htimer) e').2, h.window]
    | none =>
        rw [(enqueue_of_not_armed htimer e).2, (enqueue_of_not_armed (h.timer ▸ htimer) e').2,
          h.window]
  · cases htimer : p.timer with
    | some w => rw [(enqueue_of_armed htimer e).1, (enqueue_of_armed (h.timer ▸ htimer) e').1]
    | none =>
        rw [(enqueue_of_not_armed htimer e).1, (enqueue_of_not_armed (h.timer ▸ htimer) e').1,
          h.window]

theorem SameShape.flush {p p' : Pipeline} (h : SameShape p p') :
    SameShape p.flush.2 p'.flush.2 := ⟨h.seen, rfl, h.window, rfl⟩

/-- **Alike steps keep states in the same shape**, and have the same outcome and batches of the same
length. -/
theorem SameShape.step {p p' : Pipeline} (h : SameShape p p') (mode : IntegrationMode)
    {a a' : Action} (ha : a.Alike a') :
    (p.step mode a).1.Alike (p'.step mode a').1 ∧
      SameShape (p.step mode a).2 (p'.step mode a').2 := by
  match a, a', ha with
  | .submit e, .submit e', ha =>
      have hkey : e'.key = e.key := by rw [ha]; rfl
      have hsignal : e'.signal = e.signal := by rw [ha]
      have houtcome : p.outcome mode e = p'.outcome mode e' := by
        rw [outcome, outcome, hkey, hsignal, h.seen]
      simp only [Pipeline.step, submit_eq, houtcome, Reaction.Alike, true_and]
      by_cases hq : p'.outcome mode e' = .queued
      · rw [if_pos hq, if_pos hq]
        exact h.enqueue hkey hsignal
      · rw [if_neg hq, if_neg hq]
        exact h
  | .flush, .flush, _ => exact ⟨⟨rfl, h.pending⟩, h.flush⟩
  | .fire w, .fire w', ha =>
      obtain rfl : w = w' := ha
      simp only [Pipeline.step, fire, h.window, h.timer, Reaction.Alike, true_and]
      by_cases hw : p'.window = w ∧ p'.timer.isSome = true
      · rw [if_pos hw, if_pos hw]
        exact ⟨h.pending, h.flush⟩
      · rw [if_neg hw, if_neg hw]
        exact ⟨rfl, h⟩

/-- **Alike runs have the same outcomes, and the same numbers in each batch.** -/
theorem run_alike {p p' : Pipeline} (h : SameShape p p') (mode : IntegrationMode)
    {actions actions' : List Action} (ha : List.Forall₂ Action.Alike actions actions') :
    List.Forall₂ Reaction.Alike (p.run mode actions).1 (p'.run mode actions').1 := by
  induction ha generalizing p p' with
  | nil => exact List.Forall₂.nil
  | cons ha _ ih =>
      obtain ⟨hr, hnext⟩ := h.step mode ha
      exact List.Forall₂.cons hr (ih hnext)

end Pipeline

end OfferLayout
