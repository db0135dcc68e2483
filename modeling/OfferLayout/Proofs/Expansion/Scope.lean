/-
**The scope is a gate.**

Every namespace that a template names must be in scope, also where it would never be looked up.  A
template that passes this gate is expanded as if everything were in scope, and one that does not
fails in all three ways of expansion.  A template that cannot be read never gets to the gate.

Main definitions:

* `Expansions`, `expansions` — the results of the three ways to expand a template;
* `Expansions.failed`, `Expansions.collapsed` — **what they are for a fault** that is reported by
  all three, and for one that only the binding reports.

Main results:

* `expansions_of_error` — what the expansions are for a fault;
* `collapses_of_parse` — a fault in an expression is reported by the binding only;
* `expansions_withScope` — beyond the gate, the scope makes no difference;
* `expansions_withScope_of_subset` — a greater scope changes nothing but what is out of scope;
* `expandWithState_eq_error_iff` — a text fails for a namespace out of scope only;
* `expansions_gate` — **the scope as a gate, and the order of the faults**.
-/

import OfferLayout.Proofs.Expansion.Filling
import OfferLayout.Proofs.Template.Pieces

set_option relaxedAutoImplicit false
set_option autoImplicit false

namespace OfferLayout

/-! ### The three ways to expand a template -/

/-- The results of the three ways to expand a template. -/
structure Expansions where
  /-- The binding. -/
  bound : Except PlaceholderError (Binding BoundText)
  /-- The text with live state left as it stands. -/
  plain : Except PlaceholderError String
  /-- The text with live state filled in. -/
  filled : StateValues → Except PlaceholderError String

/-- The three expansions of a template. -/
def expansions (t : String) (s : Source) : Expansions :=
  ⟨bindTemplate t s, expand t s, expandWithState t s⟩

/-- The expansions where all three fail. -/
def Expansions.failed (e : PlaceholderError) : Expansions :=
  ⟨.error e, .error e, fun _ => .error e⟩

/-- **The expansions where only the binding fails** and the texts are empty. -/
def Expansions.collapsed (e : PlaceholderError) : Expansions :=
  ⟨.error e, .ok "", fun _ => .ok ""⟩

theorem expansions_congr {t : String} {s s' : Source} (h : substitute t s = substitute t s') :
    expansions t s = expansions t s' := by
  simp only [expansions, bindTemplate, expand, Expansions.mk.injEq, h, true_and]
  funext v
  rw [expandWithState, expandWithState, h]

/-- A fault that collapses is reported by the binding only, any other fault by all three. -/
theorem expansions_of_error {t : String} {s : Source} {e : PlaceholderError}
    (h : substitute t s = .error e) :
    expansions t s = if e.collapses then .collapsed e else .failed e := by
  have hfilled : expandWithState t s =
      fun _ => if e.collapses then .ok "" else .error e := by
    funext v
    cases he : e.collapses <;> simp [expandWithState, h, collapse, he, Except.map]
  rw [expansions, hfilled]
  cases he : e.collapses <;>
    simp [bindTemplate, expand, h, collapse, he, Except.map, Expansions.collapsed,
      Expansions.failed]

/-! ### Faults in an expression -/

/-- A link that cannot be read is no matter of the scope. -/
theorem collapses_of_linkParse {piece : List Char} {e : PlaceholderError}
    (h : Link.parse piece = .error e) : e.collapses = true := by
  unfold Link.parse at h
  split at h
  repeat' split at h
  all_goals cases h <;> rfl

/-- **A fault in an expression is reported by the binding only.** -/
theorem collapses_of_parse {expression : List Char} {e : PlaceholderError}
    (h : Chain.parse expression = .error e) : e.collapses = true := by
  rcases Chain.parse_eq_error_iff.1 h with ⟨-, rfl⟩ | ⟨before, piece, after, -, -, hpiece⟩
  · rfl
  · exact collapses_of_linkParse hpiece

theorem collapses_of_placeholdersOf {t : String} {e : PlaceholderError}
    (h : placeholdersOf t = .error e) : e.collapses = true := by
  rw [placeholdersOf_eq_error_iff, parseMarks_eq_error_iff] at h
  obtain ⟨before, expression, after, -, -, hparse⟩ := h
  exact collapses_of_parse hparse

/-! ### Beyond the gate -/

/-- The second pass does not ask for the scope. -/
theorem fillMarks_withScope (s : Source) (scope : List Namespace) (b : BoundText)
    (marks : List Mark) :
    Template.fillMarks { s with scope } b marks = Template.fillMarks s b marks :=
  fillMarks_congr fun m _ => resolveChain_withScope s scope m.links

/-- **Beyond the gate, the scope makes no difference.** -/
theorem expansions_withScope {t : String} {s : Source} {scope : List Namespace}
    {ps : List Placeholder} (hps : placeholdersOf t = .ok ps)
    (hs : firstOutside s.scope (ps.flatMap Placeholder.links) = none)
    (hscope : firstOutside scope (ps.flatMap Placeholder.links) = none) :
    expansions t { s with scope } = expansions t s := by
  obtain ⟨marks, hmarks, rfl⟩ := placeholdersOf_eq_ok_iff.1 hps
  rw [flatMap_links_placeholdersFrom] at hs hscope
  -- both templates pass the first examination, and the second does not ask for the scope
  refine expansions_congr ?_
  simp only [substitute, Template.parse, hmarks, Except.map, Template.fill, checkMarks_eq,
    checkLinks_eq, hs, hscope, fillMarks_withScope]

/-- Everything is in the full scope. -/
theorem firstOutside_fullScope (links : List Link) :
    firstOutside Namespace.fullScope links = none :=
  firstOutside_eq_none_iff.2 fun _ _ n _ => Namespace.mem_fullScope n

/-! ### The order of the faults -/

/-- A template that cannot be read is bound to nothing, whatever it names. -/
theorem expansions_of_unread {t : String} {e : PlaceholderError} (h : placeholdersOf t = .error e)
    (s : Source) : expansions t s = .collapsed e := by
  rw [expansions_of_error (substitute_eq_error_iff.2 (Or.inl h)), collapses_of_placeholdersOf h]
  rfl

/-- A template fails with the first of its namespaces that is out of scope. -/
theorem expansions_of_outside {t : String} {s : Source} {ps : List Placeholder}
    (hps : placeholdersOf t = .ok ps) {n : Namespace}
    (h : firstOutside s.scope (ps.flatMap Placeholder.links) = some n) :
    expansions t s = .failed (.illegalNamespace n) := by
  have hfault : substitute t s = .error (.illegalNamespace n) :=
    substitute_eq_error_iff.2 (Or.inr ⟨ps, hps, Or.inl ⟨n, h, rfl⟩⟩)
  exact expansions_of_error hfault

/-- Beyond the gate, a template is not bound exactly if a mandatory key is missing. -/
theorem bindTemplate_eq_error_iff_missesFirst {t : String} {s : Source} {ps : List Placeholder}
    (hps : placeholdersOf t = .ok ps)
    (h : firstOutside s.scope (ps.flatMap Placeholder.links) = none) {e : PlaceholderError} :
    bindTemplate t s = .error e ↔
      ∃ target, MissesFirst s ps target ∧ e = .mandatoryEmpty target := by
  rw [bindTemplate_eq_error_iff, substitute_eq_error_iff, hps]
  simp [h]

/-- Only a namespace that is out of scope does not collapse. -/
theorem collapses_eq_false_iff {e : PlaceholderError} :
    e.collapses = false ↔ ∃ n, e = .illegalNamespace n := by
  cases e <;> simp [PlaceholderError.collapses]

/-- Only a namespace that is out of scope makes a text fail. -/
theorem illegalNamespace_of_collapse {r : Except PlaceholderError BoundText}
    {f : BoundText → String} {e : PlaceholderError} (h : (collapse r).map f = .error e) :
    ∃ n, e = .illegalNamespace n := by
  cases r with
  | ok b => simp [collapse, Except.map] at h
  | error e' =>
      cases he : e'.collapses with
      | true => simp [collapse, he, Except.map] at h
      | false =>
          simp only [collapse, he, Bool.false_eq_true, if_false, Except.map,
            Except.error.injEq] at h
          exact h ▸ collapses_eq_false_iff.1 he

/-- **A greater scope changes nothing**, except where a namespace is out of scope. -/
theorem expansions_withScope_of_subset (t : String) {s : Source} {scope : List Namespace}
    (hsub : s.scope ⊆ scope) :
    expansions t { s with scope } = expansions t s ∨
      ∃ n, expansions t s = .failed (.illegalNamespace n) := by
  cases hps : placeholdersOf t with
  | error e =>
      left
      rw [expansions_of_unread hps, expansions_of_unread hps]
  | ok ps =>
      -- what is in scope stays in the greater one, so only the gate of the smaller one matters
      cases hs : firstOutside s.scope (ps.flatMap Placeholder.links) with
      | some n => exact Or.inr ⟨n, expansions_of_outside hps hs⟩
      | none => exact Or.inl (expansions_withScope hps hs (firstOutside_eq_none_mono hsub hs))

/-- A template with live state filled in fails with the first of its namespaces that is out of
scope, and for no other reason. -/
theorem expandWithState_eq_error_iff {t : String} {s : Source} {v : StateValues}
    {e : PlaceholderError} :
    expandWithState t s v = .error e ↔
      ∃ ps n, placeholdersOf t = .ok ps ∧
        firstOutside s.scope (ps.flatMap Placeholder.links) = some n ∧ e = .illegalNamespace n := by
  have hfilled : expandWithState t s v = (expansions t s).filled v := rfl
  constructor
  · intro h
    cases hsub : substitute t s with
    | ok b =>
        rw [expandWithState, hsub] at h
        cases h
    | error e' =>
        rw [hfilled] at h
        rcases substitute_eq_error_iff.1 hsub with hunread | ⟨ps, hps, hfault⟩
        · rw [expansions_of_unread hunread] at h
          cases h
        · rcases hfault with ⟨n, hn, rfl⟩ | ⟨-, target, -, rfl⟩
          · rw [expansions_of_outside hps hn] at h
            cases h
            exact ⟨ps, n, hps, hn, rfl⟩
          · rw [expansions_of_error hsub] at h
            cases h
  · rintro ⟨ps, n, hps, hn, rfl⟩
    rw [hfilled, expansions_of_outside hps hn]
    rfl

/-- **The scope is a gate, and the faults have an order.**  A template that cannot be read is not
bound and its texts are empty, whatever it names.  Otherwise the first namespace out of scope fails
all three expansions, whatever is found.  Otherwise they are those under the full scope: the only
fault of the binding is the first missing mandatory key, and then the texts are empty.  Hence a text
fails for a namespace out of scope only, and a greater scope keeps every result. -/
theorem expansions_gate (t : String) (s : Source) :
    (∀ e, placeholdersOf t = .error e → expansions t s = .collapsed e) ∧
    (∀ ps, placeholdersOf t = .ok ps →
      (∀ n, firstOutside s.scope (ps.flatMap Placeholder.links) = some n →
        expansions t s = .failed (.illegalNamespace n)) ∧
      (firstOutside s.scope (ps.flatMap Placeholder.links) = none →
        expansions t s = expansions t { s with scope := Namespace.fullScope } ∧
        (∀ e, bindTemplate t s = .error e ↔
          ∃ target, MissesFirst s ps target ∧ e = .mandatoryEmpty target) ∧
        ∀ e, bindTemplate t s = .error e → expansions t s = .collapsed e)) ∧
    (∀ e, expand t s = .error e ∨ (∃ v, expandWithState t s v = .error e) →
      ∃ n, e = .illegalNamespace n) ∧
    ∀ scope, s.scope ⊆ scope →
      (∀ b, bindTemplate t s = .ok b → bindTemplate t { s with scope } = .ok b) ∧
      (∀ text, expand t s = .ok text → expand t { s with scope } = .ok text) ∧
      ∀ v text, expandWithState t s v = .ok text →
        expandWithState t { s with scope } v = .ok text := by
  refine ⟨fun e h => expansions_of_unread h s, ?_, ?_, ?_⟩
  · intro ps hps
    refine ⟨fun n hn => expansions_of_outside hps hn, ?_⟩
    intro hs
    refine ⟨(expansions_withScope hps hs (firstOutside_fullScope _)).symm,
      fun e => bindTemplate_eq_error_iff_missesFirst hps hs, ?_⟩
    intro e he
    obtain ⟨target, -, rfl⟩ := (bindTemplate_eq_error_iff_missesFirst hps hs).1 he
    exact expansions_of_error (bindTemplate_eq_error_iff.1 he)
  · rintro e (h | ⟨v, h⟩)
    · exact illegalNamespace_of_collapse h
    · exact illegalNamespace_of_collapse h
  · intro scope hsub
    rcases expansions_withScope_of_subset t hsub with h | ⟨n, h⟩
    · simp only [expansions, Expansions.mk.injEq] at h
      obtain ⟨hbound, hplain, hfilled⟩ := h
      refine ⟨fun b hb => hbound ▸ hb, fun text ht => hplain ▸ ht, ?_⟩
      intro v text ht
      rw [hfilled, ht]
    · simp only [expansions, Expansions.failed, Expansions.mk.injEq] at h
      obtain ⟨hbound, hplain, hfilled⟩ := h
      simp [hbound, hplain, hfilled]

/-- Under the scope of an offer: an expression without links counts before a namespace out of scope,
that counts before a missing mandatory key and although the literal before it is found, and the
missing key that counts is one before which nothing is found in its chain. -/
theorem expansions_order_of_faults :
    expansions "%^DATA.catalogItem.title^%%^|^%" (.offer {}) = .collapsed (.noLinks "|") ∧
      expansions "%^DATA.creativeCopy.a!^%%^x|DATA.catalogItem.title^%" (.offer {}) =
        .failed (.illegalNamespace (.data .catalogItem)) ∧
      expansions "%^x|DATA.creativeCopy.a!^%%^DATA.creativeCopy.b!^%" (.offer {}) =
        .collapsed (.mandatoryEmpty (.data .creativeCopy "b")) ∧
      expand "a%^DATA.creativeCopy.b|x^%" { Source.offer {} with scope := Namespace.fullScope } =
        .ok "ax" := by
  refine ⟨?_, ?_, ?_, ?_⟩
  · exact (expansions_gate _ _).1 _ (by decide +kernel)
  · have hps : placeholdersOf "%^DATA.creativeCopy.a!^%%^x|DATA.catalogItem.title^%" =
        .ok [⟨"%^DATA.creativeCopy.a!^%", 0, 24, [.keyed (.data .creativeCopy "a") true]⟩,
          ⟨"%^x|DATA.catalogItem.title^%", 24, 52,
            [.literal "x", .keyed (.data .catalogItem "title") false]⟩] := by
      decide +kernel
    exact ((expansions_gate _ _).2.1 _ hps).1 _ (by decide)
  · have hps : placeholdersOf "%^x|DATA.creativeCopy.a!^%%^DATA.creativeCopy.b!^%" =
        .ok [⟨"%^x|DATA.creativeCopy.a!^%", 0, 26,
            [.literal "x", .keyed (.data .creativeCopy "a") true]⟩,
          ⟨"%^DATA.creativeCopy.b!^%", 26, 50, [.keyed (.data .creativeCopy "b") true]⟩] := by
      decide +kernel
    exact (((expansions_gate _ _).2.1 _ hps).2 (by decide)).2.2 _ (by decide +kernel)
  · exact ((expansions_gate _ (.offer {})).2.2.2 _ (by decide)).2.1 _ (by decide +kernel)

end OfferLayout
