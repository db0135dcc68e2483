/-
**Windows and their timers.**

A timer is armed exactly while events are pending, and it is that of the window that was opened
last.  Timers are never really stopped: one whose window was closed may still fire, at any time and
any number of times.  It then finds another number, or no timer, and does nothing.  All this follows
from an account of the windows of a run: those that were opened are, in order, those that were
closed and then the one whose timer is armed.

Main definitions:

* `Pipeline.IsTimed` — what holds of the timer between any two steps;
* `Pipeline.openedBy`, `Pipeline.closedBy` — the window that one step opens or closes;
* `Pipeline.opened`, `Pipeline.closed` — **the windows that a run opens and closes**.

Main results:

* `Pipeline.IsTimed.step` — every step keeps the timer in order;
* `Pipeline.opened_eq_closed_append` — **the account of windows**;
* `Pipeline.pairwise_opened` — the windows are numbered upwards;
* `Pipeline.length_batches` — each window that is closed sends one batch;
* `Pipeline.run_windows` — what this says of every state that can be reached.
-/

import OfferLayout.Proofs.Event.Conservation

set_option relaxedAutoImplicit false
set_option autoImplicit false

namespace OfferLayout

namespace Pipeline

/-! ### The timer between two steps -/

/-- **A timer is armed exactly while events are pending**, and it is that of the last window. -/
structure IsTimed (p : Pipeline) : Prop where
  /-- Events are pending exactly while a timer is armed. -/
  pending_iff : p.pending ≠ [] ↔ p.timer.isSome = true
  /-- The timer is that of the window that was opened last. -/
  eq_window : ∀ w, p.timer = some w → w = p.window

theorem isTimed_start : IsTimed {} := ⟨by simp, by simp⟩

theorem IsTimed.enqueue {p : Pipeline} (hp : p.IsTimed) (e : Event) : (p.enqueue e).IsTimed := by
  cases htimer : p.timer with
  | some w =>
      obtain ⟨ht, hw⟩ := enqueue_of_armed htimer e
      constructor
      · simp [ht]
      · intro w' hw'
        rw [hw]
        exact hp.eq_window w' (by rw [htimer, ← ht, hw'])
  | none =>
      obtain ⟨ht, hw⟩ := enqueue_of_not_armed htimer e
      constructor
      · simp [ht]
      · intro w' hw'
        rw [hw]
        exact Option.some.inj (hw'.symm.trans ht)

/-- **Every step keeps the timer in order.** -/
theorem IsTimed.step {p : Pipeline} (hp : p.IsTimed) (mode : IntegrationMode) (a : Action) :
    (p.step mode a).2.IsTimed := by
  rcases step_cases mode p a with ⟨e, -, -, h⟩ | ⟨e, -, -, h⟩ | ⟨-, h⟩ | ⟨w, -, -, h⟩
  · rw [h]
    exact hp.enqueue e
  · rw [h]
    exact hp
  · rw [h]
    exact ⟨by simp, by simp⟩
  · rw [h]
    exact hp

theorem isTimed_run (mode : IntegrationMode) (actions : List Action) :
    (run mode {} actions).2.IsTimed :=
  run_keeps (fun _ a hp => hp.step mode a) isTimed_start actions

/-- **A timer that is not armed does nothing** when it fires. -/
theorem IsTimed.fire_of_not_armed {p : Pipeline} (hp : p.IsTimed) {w : UInt64}
    (hw : p.timer ≠ some w) : p.fire w = ([], p) := by
  have hnot : ¬ (p.window = w ∧ p.timer.isSome = true) := by
    rintro ⟨rfl, hsome⟩
    obtain ⟨w', hw'⟩ := Option.isSome_iff_exists.1 hsome
    exact hw (hp.eq_window w' hw' ▸ hw')
  rw [fire, if_neg hnot]

/-- The timer that is armed takes all that is pending, as a flush does. -/
theorem IsTimed.fire_of_armed {p : Pipeline} (hp : p.IsTimed) {w : UInt64}
    (hw : p.timer = some w) : p.fire w = p.flush := by
  have heq : p.window = w := (hp.eq_window w hw).symm
  rw [fire, if_pos ⟨heq, by rw [hw, Option.isSome_some]⟩]

/-! ### The windows of a run -/

/-- The window that is opened between two states: the one whose timer is armed, if none was. -/
def openedBy (p p' : Pipeline) : Option UInt64 := if p.timer.isSome then none else p'.timer

/-- The window that is closed between two states: the one whose timer was armed, if none is. -/
def closedBy (p p' : Pipeline) : Option UInt64 := if p'.timer.isSome then none else p.timer

/-- What the steps of a run make of the windows, in order. -/
def changes (change : Pipeline → Pipeline → Option UInt64) (mode : IntegrationMode) (p : Pipeline) :
    List Action → List UInt64
  | [] => []
  | a :: rest =>
      (change p (p.step mode a).2).toList ++ changes change mode (p.step mode a).2 rest

/-- **The windows that a run opens**, in order; each of them has a timer. -/
def opened (mode : IntegrationMode) (p : Pipeline) (actions : List Action) : List UInt64 :=
  changes openedBy mode p actions

/-- **The windows that a run closes**, in order. -/
def closed (mode : IntegrationMode) (p : Pipeline) (actions : List Action) : List UInt64 :=
  changes closedBy mode p actions

/-- What a step makes of the windows: it leaves the timer alone, or arms one, or takes one away. -/
theorem timer_step_cases (mode : IntegrationMode) (p : Pipeline) (a : Action) :
    ((p.step mode a).2.timer = p.timer ∧ (p.step mode a).2.window = p.window) ∨
    (p.timer = none ∧ (p.step mode a).2.timer = some (p.window + 1) ∧
      (p.step mode a).2.window = p.window + 1) ∨
    ((p.step mode a).2.timer = none ∧ (p.step mode a).2.window = p.window) := by
  rcases step_cases mode p a with ⟨e, -, -, h⟩ | ⟨e, -, -, h⟩ | ⟨-, h⟩ | ⟨w, -, -, h⟩
  · rw [h]
    cases htimer : p.timer with
    | some w => exact Or.inl (enqueue_of_armed htimer e)
    | none => exact Or.inr (Or.inl ⟨rfl, enqueue_of_not_armed htimer e⟩)
  · rw [h]
    exact Or.inl ⟨rfl, rfl⟩
  · rw [h]
    exact Or.inr (Or.inr ⟨rfl, rfl⟩)
  · rw [h]
    exact Or.inl ⟨rfl, rfl⟩

/-- One step accounts for the windows. -/
theorem step_account (mode : IntegrationMode) (p : Pipeline) (a : Action) :
    p.timer.toList ++ (openedBy p (p.step mode a).2).toList =
      (closedBy p (p.step mode a).2).toList ++ (p.step mode a).2.timer.toList := by
  rcases timer_step_cases mode p a with ⟨ht, -⟩ | ⟨hp, ht, -⟩ | ⟨ht, -⟩
  · rw [openedBy, closedBy, ht]
    cases p.timer <;> rfl
  · rw [openedBy, closedBy, hp, ht]
    rfl
  · rw [openedBy, closedBy, ht]
    cases p.timer <;> rfl

/-- **The account of windows**: the one whose timer is armed at first and those that are opened are
those that are closed and the one whose timer is armed in the end. -/
theorem timer_append_opened (mode : IntegrationMode) (p : Pipeline) (actions : List Action) :
    p.timer.toList ++ opened mode p actions =
      closed mode p actions ++ (p.run mode actions).2.timer.toList := by
  induction actions generalizing p with
  | nil => simp [opened, closed, changes, run]
  | cons a actions ih =>
      have hstep := step_account mode p a
      have hrest := ih (p.step mode a).2
      simp only [opened, closed, changes, run] at hrest ⊢
      rw [← List.append_assoc, hstep, List.append_assoc, hrest, List.append_assoc]

theorem opened_eq_closed_append (mode : IntegrationMode) (actions : List Action) :
    opened mode {} actions = closed mode {} actions ++ (run mode {} actions).2.timer.toList :=
  timer_append_opened mode {} actions

/-! ### The numbers of the windows -/

theorem toNat_add_one {w : UInt64} (h : w.toNat + 1 < UInt64.size) :
    (w + 1).toNat = w.toNat + 1 := by
  rw [UInt64.toNat_add]
  exact Nat.mod_eq_of_lt h

/-- A window that is opened has the next number, and otherwise the number stays. -/
theorem openedBy_step_cases (mode : IntegrationMode) (p : Pipeline) (a : Action) :
    (openedBy p (p.step mode a).2 = none ∧ (p.step mode a).2.window = p.window) ∨
    (openedBy p (p.step mode a).2 = some (p.window + 1) ∧
      (p.step mode a).2.window = p.window + 1) := by
  rcases timer_step_cases mode p a with ⟨ht, hw⟩ | ⟨hp, ht, hw⟩ | ⟨ht, hw⟩
  · refine Or.inl ⟨?_, hw⟩
    rw [openedBy, ht]
    cases p.timer <;> rfl
  · refine Or.inr ⟨?_, hw⟩
    rw [openedBy, hp, ht]
    rfl
  · refine Or.inl ⟨?_, hw⟩
    rw [openedBy, ht]
    cases p.timer <;> rfl

/-- **The windows are numbered upwards**, beginning after the last number in use, as long as the
numbers do not run out. -/
theorem pairwise_opened (mode : IntegrationMode) (p : Pipeline) (actions : List Action)
    (h : p.window.toNat + (opened mode p actions).length < UInt64.size) :
    (opened mode p actions).Pairwise (· < ·) ∧
      (∀ w ∈ opened mode p actions, p.window < w ∧ w ≤ (p.run mode actions).2.window) ∧
      p.window ≤ (p.run mode actions).2.window := by
  induction actions generalizing p with
  | nil => simp [opened, changes, run]
  | cons a actions ih =>
      have hcons : opened mode p (a :: actions) =
          (openedBy p (p.step mode a).2).toList ++ opened mode (p.step mode a).2 actions := rfl
      rw [run]
      rcases openedBy_step_cases mode p a with ⟨hopened, hw⟩ | ⟨hopened, hw⟩
      · rw [hopened, Option.toList_none, List.nil_append] at hcons
        rw [hcons] at h ⊢
        rw [← hw] at h ⊢
        exact ih _ h
      · rw [hopened, Option.toList_some, List.singleton_append] at hcons
        rw [hcons] at h ⊢
        rw [List.length_cons] at h
        have hnat : (p.window + 1).toNat = p.window.toNat + 1 := toNat_add_one (by omega)
        have hlt : p.window < p.window + 1 := by
          rw [UInt64.lt_iff_toNat_lt, hnat]
          omega
        -- the windows of the other steps come after the one that is opened here
        obtain ⟨hpairwise, hrest, hlast⟩ := ih (p.step mode a).2 (by rw [hw, hnat]; omega)
        rw [hw] at hrest hlast
        refine ⟨List.pairwise_cons.2 ⟨fun w hmem => (hrest w hmem).1, hpairwise⟩, ?_,
          UInt64.le_trans (UInt64.le_of_lt hlt) hlast⟩
        rintro w (_ | ⟨_, hmem⟩)
        · exact ⟨hlt, hlast⟩
        · exact ⟨UInt64.lt_trans hlt (hrest w hmem).1, (hrest w hmem).2⟩

/-! ### Batches and windows -/

/-- A step sends a batch exactly if it closes a window. -/
theorem length_batches_step {p : Pipeline} (hp : p.IsTimed) (mode : IntegrationMode) (a : Action) :
    (batches [(p.step mode a).1]).length = (closedBy p (p.step mode a).2).toList.length := by
  rcases step_cases mode p a with ⟨e, -, -, h⟩ | ⟨e, -, -, h⟩ | ⟨-, h⟩ | ⟨w, -, -, h⟩
  · rw [h]
    cases htimer : p.timer with
    | some w => simp [batches, closedBy, (enqueue_of_armed htimer e).1]
    | none => simp [batches, closedBy, (enqueue_of_not_armed htimer e).1]
  · rw [h]
    cases htimer : p.timer <;> simp [batches, closedBy, htimer]
  · rw [h]
    have hpending := hp.pending_iff
    cases htimer : p.timer with
    | some w =>
        have hne : p.pending ≠ [] := hpending.2 (by rw [htimer]; rfl)
        simp [batches, closedBy, htimer, hne]
    | none =>
        have hnil : p.pending = [] := by simpa [htimer] using hpending
        simp [batches, closedBy, htimer, hnil]
  · rw [h]
    cases htimer : p.timer <;> simp [batches, closedBy, htimer]

/-- **Each window that is closed sends one batch.** -/
theorem length_batches {p : Pipeline} (hp : p.IsTimed) (mode : IntegrationMode)
    (actions : List Action) :
    (batches (p.run mode actions).1).length = (closed mode p actions).length := by
  induction actions generalizing p with
  | nil => rfl
  | cons a actions ih =>
      have hstep := length_batches_step hp mode a
      have hrest := ih (hp.step mode a)
      rw [run, batches_cons, List.length_append, hstep, hrest, closed, closed, changes,
        List.length_append]

/-- **The timer and the windows in every state that can be reached.**  Whatever has happened, in
whatever order, as long as the numbers of the windows have not run out: events are pending exactly
while a timer is armed, and it is the one of the last window; the windows were numbered upwards, and
those that were opened are those that were closed, each with one batch, and then the one whose timer
is armed.  Every other timer is that of a closed window, has a smaller number than the one that is
armed, and does nothing when it fires.  The one that is armed sends all that is pending; and a
flush right after another sends nothing and changes nothing. -/
theorem run_windows (mode : IntegrationMode) (actions : List Action)
    (h : (opened mode {} actions).length < UInt64.size) :
    ((run mode {} actions).2.pending ≠ [] ↔ (run mode {} actions).2.timer.isSome = true) ∧
      (∀ w, (run mode {} actions).2.timer = some w →
        w = (run mode {} actions).2.window ∧ w ∈ opened mode {} actions) ∧
      (opened mode {} actions).Pairwise (· < ·) ∧
      opened mode {} actions = closed mode {} actions ++ (run mode {} actions).2.timer.toList ∧
      (batches (run mode {} actions).1).length = (closed mode {} actions).length ∧
      (∀ w ∈ opened mode {} actions, (run mode {} actions).2.timer ≠ some w →
        w ∈ closed mode {} actions ∧
          (∀ armed, (run mode {} actions).2.timer = some armed → w < armed) ∧
          (run mode {} actions).2.step mode (.fire w) = ({}, (run mode {} actions).2)) ∧
      (∀ w, (run mode {} actions).2.timer = some w →
        (run mode {} actions).2.step mode (.fire w) =
          ({ batch := (run mode {} actions).2.pending },
            { (run mode {} actions).2 with pending := [], timer := none })) ∧
      ((run mode {} actions).2.step mode .flush).2.step mode .flush =
        ({}, ((run mode {} actions).2.step mode .flush).2) := by
  have htimed := isTimed_run mode actions
  have haccount := opened_eq_closed_append mode actions
  obtain ⟨hpairwise, -, -⟩ := pairwise_opened mode {} actions (by simpa using h)
  refine ⟨htimed.pending_iff, ?_, hpairwise, haccount, length_batches isTimed_start mode actions,
    ?_, ?_, rfl⟩
  · intro w hw
    refine ⟨htimed.eq_window w hw, ?_⟩
    rw [haccount, hw]
    simp
  · intro w hmem hne
    have hclosed : w ∈ closed mode {} actions := by
      rw [haccount, List.mem_append] at hmem
      rcases hmem with hmem | hmem
      · exact hmem
      · exact absurd (Option.mem_toList.1 hmem) hne
    refine ⟨hclosed, ?_, ?_⟩
    · intro armed harmed
      rw [haccount, harmed, List.pairwise_append] at hpairwise
      exact hpairwise.2.2 w hclosed armed (by simp)
    · rw [step, htimed.fire_of_not_armed hne]
  · intro w hw
    rw [step, htimed.fire_of_armed hw]
    rfl

/-- The timer of a window that was flushed fires into the next window, and does nothing; that
window's own timer closes it. -/
theorem run_windows_late_timer :
    let viewed := Event.observed "1" "" .viewed "session" "parent" "page" ""
    let closedView := Event.observed "2" "" .dismissal "session" "parent" "page" ""
    let actions : List Action := [.submit viewed, .flush, .submit closedView]
    (opened .client {} actions).length < UInt64.size ∧
      opened .client {} actions = [1, 2] ∧ closed .client {} actions = [1] ∧
      (run .client {} actions).2.timer = some 2 ∧
      (run .client {} actions).2.step .client (.fire 1) = ({}, (run .client {} actions).2) ∧
      ((run .client {} actions).2.step .client (.fire 2)).1 = { batch := [closedView] } := by
  intro viewed closedView actions
  have hopened : opened .client {} actions = [1, 2] := by decide +kernel
  have hsize : (opened .client {} actions).length < UInt64.size := by
    rw [hopened]
    decide
  have htimer : (run .client {} actions).2.timer = some 2 := by decide +kernel
  have hpending : (run .client {} actions).2.pending = [closedView] := by decide +kernel
  obtain ⟨-, -, -, -, -, hlate, harmed, -⟩ := run_windows .client actions hsize
  obtain ⟨-, -, hone⟩ := hlate 1 (by rw [hopened]; decide) (by rw [htimer]; decide)
  have htwo := harmed 2 htimer
  refine ⟨hsize, hopened, by decide +kernel, htimer, hone, ?_⟩
  rw [htwo, hpending]

end Pipeline

end OfferLayout
