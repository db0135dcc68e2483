/-
**The ways to expand a template agree.**

A template can be bound, or written as a text with live state left as it stands or filled in.  Each
way decides by itself what becomes of a fault, and the command decides once more.  This module shows
that they all decide alike: the texts are those of the binding, and where there is none, they are
empty or fail with the fault of the binding.

Main results:

* `texts_of_error` — what the texts are for a fault;
* `ExpandRequest.source_eq_ok_iff` — when the data for the command exist;
* `ExpandRequest.map_rendered_run` — the command writes the text with live state filled in;
* `Invocation.run_expand_text` — **what the command prints**;
* `expansion_ways_agree` — the agreement of all ways, and what the kind of binding tells.
-/

import OfferLayout.Command.Run
import OfferLayout.Proofs.Expansion.LiveState

set_option relaxedAutoImplicit false
set_option autoImplicit false

namespace OfferLayout

/-- A fault that collapses makes both texts empty, and any other fault is theirs too. -/
theorem texts_of_error {t : String} {s : Source} {e : PlaceholderError}
    (h : bindTemplate t s = .error e) (v : StateValues) :
    expand t s = (if e.collapses then .ok "" else .error e) ∧
      expandWithState t s v = (if e.collapses then .ok "" else .error e) := by
  rw [bindTemplate_eq_error_iff] at h
  cases he : e.collapses with
  | true => simp [expand, expandWithState, h, collapse, he, Except.map]
  | false => simp [expand, expandWithState, h, collapse, he, Except.map]

/-! ### The command -/

namespace ExpandRequest

/-- **The data for the command exist** if there is an offer in the slot, and in it the catalog item
that is named. -/
theorem source_eq_ok_iff {r : ExpandRequest} {layout : Layout} {s : Source} :
    r.source layout = .ok s ↔
      ∃ offer, layout.offer? r.slot = some offer ∧
        ((r.catalogItem = none ∧ s = { Source.offer offer.creative with response := r.response }) ∨
          ∃ index item, r.catalogItem = some index ∧ offer.catalogItems[index]? = some item ∧
            s = { Source.offerWithItem offer.creative item with response := r.response }) := by
  unfold source
  cases layout.offer? r.slot with
  | none => simp
  | some offer =>
      cases r.catalogItem with
      | none => simp [eq_comm]
      | some index =>
          cases hitem : offer.catalogItems[index]? with
          | none => simp [hitem]
          | some item =>
              simp only [hitem, Except.ok.injEq]
              constructor
              · rintro rfl
                exact ⟨offer, rfl, Or.inr ⟨index, item, rfl, hitem, rfl⟩⟩
              · rintro ⟨_, ⟨⟩, ⟨hnone, -⟩ | ⟨_, item', ⟨⟩, hitem', rfl⟩⟩
                · cases hnone
                · obtain rfl := Option.some.inj (hitem.symm.trans hitem')
                  rfl

/-- The command collapses a template as the expansion with live state does. -/
theorem map_render_bind (r : ExpandRequest) (s : Source) (v : StateValues) :
    (r.bind s).map (fun b => b.inner.render v) =
      (expandWithState r.template s v).mapError .badTemplate := by
  cases hb : bindTemplate r.template s with
  | ok b =>
      rw [bind_eq hb, expandWithState_eq_of_bindTemplate hb v]
      rfl
  | error e =>
      rw [(texts_of_error hb v).2, ExpandRequest.bind, hb]
      cases he : e.collapses <;> simp [he, Except.map, Except.mapError, Binding.inner]

/-- **The command writes the text with live state filled in**, or fails with its fault. -/
theorem map_rendered_run {r : ExpandRequest} {files : Files} {layout : Layout} {s : Source}
    (hlayout : files.layout r.schema = .ok layout) (hsource : r.source layout = .ok s) :
    (r.run files).map Expansion.rendered =
      (expandWithState r.template s (r.values layout)).mapError .badTemplate := by
  rw [← map_render_bind, run, hlayout]
  simp only [Bind.bind, Except.bind, hsource]
  cases r.bind s <;> rfl

end ExpandRequest

/-- **What the command prints**, where something is to be shown, and as text: the text with live
state filled in, on a line; or the fault, on a line of the other output. -/
theorem Invocation.run_expand_text {r : ExpandRequest} {files : Files} {layout : Layout}
    {s : Source} (hlayout : files.layout r.schema = .ok layout) (hsource : r.source layout = .ok s) :
    Invocation.run ⟨.text, false, .expand r⟩ files =
      match expandWithState r.template s (r.values layout) with
      | .ok text => { exit := 0, stdout := text ++ "\n", stderr := "" }
      | .error e => { exit := 1, stdout := "", stderr := "error: " ++ e.message ++ "\n" } := by
  have hrun := ExpandRequest.map_rendered_run hlayout hsource
  cases htext : expandWithState r.template s (r.values layout) with
  | ok text =>
      rw [htext] at hrun
      cases hr : r.run files with
      | error f => simp [hr, Except.map, Except.mapError] at hrun
      | ok e =>
          simp only [hr, Except.map, Except.mapError, Except.ok.injEq] at hrun
          simp [Invocation.run, Command.run, hr, Except.map, Expansion.report, lineOf, hrun]
  | error fault =>
      rw [htext] at hrun
      cases hr : r.run files with
      | ok e => simp [hr, Except.map, Except.mapError] at hrun
      | error f =>
          simp only [hr, Except.map, Except.mapError, Except.error.injEq] at hrun
          subst hrun
          simp only [Invocation.run, Command.run, hr, Except.map]
          rfl

/-! ### All ways -/

/-- **The ways to expand a template agree.**  Where a template is bound, its texts are those of the
binding; where it is not, they are empty if the fault collapses, and fail with it otherwise.  The
command takes the creative of the offer in the slot, with the catalog item and the response that
were asked for; it prints the text with the live state that was asked for and the number of slots
filled in, and fails exactly if that text does.  A binding is to live state exactly if a placeholder
is; its text with the state filled in then never reads as it stands, and otherwise always does. -/
theorem expansion_ways_agree (t : String) (s : Source) (v : StateValues) :
    (∀ b, bindTemplate t s = .ok b →
      expand t s = .ok b.inner.text ∧ expandWithState t s v = .ok (b.inner.render v)) ∧
    (∀ e, bindTemplate t s = .error e →
      (e.collapses = true → expand t s = .ok "" ∧ expandWithState t s v = .ok "") ∧
      (e.collapses = false → expand t s = .error e ∧ expandWithState t s v = .error e)) ∧
    (∀ (r : ExpandRequest) (files : Files) (layout : Layout) (offer : Offer),
      files.layout r.schema = .ok layout → layout.offer? r.slot = some offer →
      (∀ index, r.catalogItem = some index → index < offer.catalogItems.length) →
      ∃ source, r.source layout = .ok source ∧
        ((r.catalogItem = none ∧
            source = { Source.offer offer.creative with response := r.response }) ∨
          ∃ index item, r.catalogItem = some index ∧ offer.catalogItems[index]? = some item ∧
            source = { Source.offerWithItem offer.creative item with response := r.response }) ∧
        Invocation.run ⟨.text, false, .expand r⟩ files =
          match expandWithState r.template source
              { indicatorPosition := r.position, totalOffers := .ofNat layout.slots.length } with
          | .ok text => { exit := 0, stdout := text ++ "\n", stderr := "" }
          | .error e => { exit := 1, stdout := "", stderr := "error: " ++ e.message ++ "\n" }) ∧
    (∀ b ps, bindTemplate t s = .ok b → placeholdersOf t = .ok ps →
      ((∃ bound, b = .state bound) ↔ ∃ p ∈ ps, ∃ name, resolve p.raw s = .ok (.state name))) ∧
    (∀ bound, bindTemplate t s = .ok (.value bound) → bound.render v = bound.text) ∧
    ∀ bound, bindTemplate t s = .ok (.state bound) → bound.render v ≠ bound.text := by
  refine ⟨?_, ?_, ?_, ?_, ?_, ?_⟩
  · intro b hb
    exact ⟨expand_eq_of_bindTemplate hb, expandWithState_eq_of_bindTemplate hb v⟩
  · intro e he
    have htexts := texts_of_error he v
    exact ⟨fun hc => by simpa [hc] using htexts, fun hc => by simpa [hc] using htexts⟩
  · intro r files layout offer hlayout hoffer hitem
    obtain ⟨source, hdata⟩ : ∃ source,
        (r.catalogItem = none ∧
            source = { Source.offer offer.creative with response := r.response }) ∨
          ∃ index item, r.catalogItem = some index ∧ offer.catalogItems[index]? = some item ∧
            source = { Source.offerWithItem offer.creative item with response := r.response } := by
      cases hindex : r.catalogItem with
      | none => exact ⟨_, Or.inl ⟨rfl, rfl⟩⟩
      | some index =>
          have hget := List.getElem?_eq_getElem (hitem index hindex)
          exact ⟨_, Or.inr ⟨index, _, rfl, hget, rfl⟩⟩
    have hsource : r.source layout = .ok source :=
      ExpandRequest.source_eq_ok_iff.2 ⟨offer, hoffer, hdata⟩
    exact ⟨source, hsource, hdata, Invocation.run_expand_text hlayout hsource⟩
  · intro b ps hb hps
    rw [← isState_bindTemplate_iff hps hb]
    cases b <;> simp [Binding.isState]
  · intro bound hb
    obtain ⟨filled, -, hfilled⟩ := bindTemplate_eq_ok_iff.1 hb
    obtain rfl : filled = bound := by
      rw [← inner_binding filled, hfilled]
      rfl
    refine render_eq_text_of_hasState_eq_false ?_ v
    rw [← isState_binding, hfilled]
    rfl
  · intro bound hb
    obtain ⟨filled, hsubstitute, hfilled⟩ := bindTemplate_eq_ok_iff.1 hb
    obtain rfl : filled = bound := by
      rw [← inner_binding filled, hfilled]
      rfl
    have hstate : filled.hasState = true := by
      rw [← isState_binding, hfilled]
      rfl
    have hless := percentSigns_render_lt hsubstitute hstate v
    intro heq
    rw [heq] at hless
    exact lt_irrefl _ hless

/-- A layout is known by an offer in it and the number of its slots. -/
theorem Files.exists_layout {files : Files} {path : String} {slot slots : Nat} {offer : Offer}
    (h : (files.layout path).toOption.map (fun l => (l.offer? slot, l.slots.length)) =
      some (some offer, slots)) :
    ∃ layout, files.layout path = .ok layout ∧ layout.offer? slot = some offer ∧
      layout.slots.length = slots := by
  cases hlayout : files.layout path with
  | error f => simp [hlayout, Except.toOption] at h
  | ok layout =>
      simp only [hlayout, Except.toOption, Option.map_some, Option.some.injEq, Prod.mk.injEq] at h
      exact ⟨layout, rfl, h⟩

/-- On an offer without copy: a missing mandatory key empties the texts, a namespace out of scope
fails them, what is not found is bound as a value, and live state is bound as state; the command
shows the place of the offer counted from one, and the number of slots.  On an offer with copy and
an item, the command shows what the template asks of both. -/
theorem expansion_ways_on_offers :
    expand "a%^DATA.creativeCopy.b!^%" (.offer {}) = .ok "" ∧
    expand "a%^DATA.catalogItem.title^%" (.offer {}) =
      .error (.illegalNamespace (.data .catalogItem)) ∧
    bindTemplate "a%^DATA.creativeCopy.b^%" (.offer {}) = .ok (.value ⟨[.text "a"]⟩) ∧
    (∀ v, BoundText.render ⟨[.text "a"]⟩ v = "a") ∧
    (∀ v, expandWithState "%^STATE.TotalOffers^%" (.offer {}) v ≠ .ok "%^STATE.TotalOffers^%") ∧
    (∃ name, resolve "%^STATE.TotalOffers^%" (.offer {}) = .ok (.state name)) ∧
    Invocation.run ⟨.text, false, .expand
        { template := "%^STATE.IndicatorPosition^%/%^STATE.TotalOffers^%", schema := "s",
          position := 1 }⟩
        (fun _ => .ok "\x7b\"breakpoints\":\x7b\x7d,\"slots\":[\x7b\"offer\":\x7b\x7d\x7d]\x7d") =
      { exit := 0, stdout := "2/1\n", stderr := "" } ∧
    Invocation.run ⟨.text, false, .expand
        { template := "%^DATA.creativeCopy.a^%: %^DATA.catalogItem.title^%", schema := "s",
          catalogItem := some 1 }⟩
        (fun _ => .ok ("\x7b\"breakpoints\":\x7b\x7d,\"slots\":[\x7b\"offer\":\x7b" ++
          "\"creative\":\x7b\"copy\":\x7b\"a\":\"Buy\"\x7d\x7d," ++
          "\"catalogItems\":[\x7b\x7d,\x7b\"title\":\"a hat\"\x7d]\x7d\x7d]\x7d")) =
      { exit := 0, stdout := "Buy: a hat\n", stderr := "" } := by
  have hvalue : bindTemplate "a%^DATA.creativeCopy.b^%" (.offer {}) =
      .ok (.value ⟨[.text "a"]⟩) := by
    decide +kernel
  have hstate : bindTemplate "%^STATE.TotalOffers^%" (.offer {}) =
      .ok (.state ⟨[.state "%^STATE.TotalOffers^%" .totalOffers]⟩) := by
    decide +kernel
  refine ⟨?_, ?_, hvalue, ?_, ?_, ?_, ?_, ?_⟩
  · exact (((expansion_ways_agree _ _ {}).2.1 (.mandatoryEmpty (.data .creativeCopy "b"))
      (by decide +kernel)).1 rfl).1
  · exact (((expansion_ways_agree _ _ {}).2.1 (.illegalNamespace (.data .catalogItem))
      (by decide +kernel)).2 rfl).1
  · intro v
    exact (expansion_ways_agree _ _ v).2.2.2.2.1 _ hvalue
  · intro v heq
    have hfilled := ((expansion_ways_agree _ _ v).1 _ hstate).2
    exact (expansion_ways_agree _ _ v).2.2.2.2.2 _ hstate (Except.ok.inj (hfilled.symm.trans heq))
  · have hps : placeholdersOf "%^STATE.TotalOffers^%" =
        .ok [⟨"%^STATE.TotalOffers^%", 0, 21, [.keyed (.state "TotalOffers") false]⟩] := by
      decide +kernel
    obtain ⟨p, hp, name, hname⟩ := ((expansion_ways_agree _ _ {}).2.2.2.1 _ _ hstate hps).1 ⟨_, rfl⟩
    obtain rfl := List.mem_singleton.1 hp
    exact ⟨name, hname⟩
  · let r : ExpandRequest :=
      { template := "%^STATE.IndicatorPosition^%/%^STATE.TotalOffers^%", schema := "s",
        position := 1 }
    let files : Files :=
      fun _ => .ok "\x7b\"breakpoints\":\x7b\x7d,\"slots\":[\x7b\"offer\":\x7b\x7d\x7d]\x7d"
    obtain ⟨layout, hlayout, hoffer, hslots⟩ : ∃ layout, files.layout r.schema = .ok layout ∧
        layout.offer? r.slot = some {} ∧ layout.slots.length = 1 :=
      Files.exists_layout (by decide +kernel)
    obtain ⟨source, -, ⟨-, rfl⟩ | ⟨index, item, hindex, -, -⟩, hrun⟩ :=
      (expansion_ways_agree "" .stateOnly {}).2.2.1 r files layout {} hlayout hoffer (by simp [r])
    · rw [hslots] at hrun
      rw [hrun]
      decide +kernel
    · cases hindex
  · let r : ExpandRequest :=
      { template := "%^DATA.creativeCopy.a^%: %^DATA.catalogItem.title^%", schema := "s",
        catalogItem := some 1 }
    let files : Files :=
      fun _ => .ok ("\x7b\"breakpoints\":\x7b\x7d,\"slots\":[\x7b\"offer\":\x7b" ++
          "\"creative\":\x7b\"copy\":\x7b\"a\":\"Buy\"\x7d\x7d," ++
          "\"catalogItems\":[\x7b\x7d,\x7b\"title\":\"a hat\"\x7d]\x7d\x7d]\x7d")
    let offer : Offer :=
      { creative := { copy := Dict.ofList [("a", "Buy")] }
        catalogItems := [{}, { title := "a hat" }] }
    obtain ⟨layout, hlayout, hoffer, hslots⟩ : ∃ layout, files.layout r.schema = .ok layout ∧
        layout.offer? r.slot = some offer ∧ layout.slots.length = 1 :=
      Files.exists_layout (by decide +kernel)
    obtain ⟨source, -, ⟨hnone, -⟩ | ⟨index, item, hindex, hitem, rfl⟩, hrun⟩ :=
      (expansion_ways_agree "" .stateOnly {}).2.2.1 r files layout offer hlayout hoffer
        (by simp [r, offer])
    · cases hnone
    · obtain rfl : 1 = index := Option.some.inj hindex
      obtain rfl : { title := "a hat" } = item := Option.some.inj hitem
      rw [hslots] at hrun
      rw [hrun]
      decide +kernel

end OfferLayout
