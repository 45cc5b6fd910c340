import PageWidgets.Proofs.Widget.OverlayRuns
import PageWidgets.Widget.Startup

/-! From its start on, the page of the consent overlay agrees with its session. -/

namespace PageWidgets
namespace Widget

open Consent Calendar Page

/-! ### Collecting the anchors -/

namespace Anchors

variable {p : Page} {a : Anchors} {overlay : Nat} {settings : ConsentSettings}

/-- What anchors are made of, when they are found. -/
theorem exists_of_collect (h : collect p overlay settings = .ok (some a)) : ∃ accept controls toggles views targets,
    findHtml p overlay (settings.actionSelector "accept") = .ok (some accept) ∧
      findControls p overlay settings optionalControls = .ok controls ∧
      findAll p overlay settings.categorySelector = .ok toggles ∧ findAll p overlay settings.viewSelector = .ok views ∧
      findAll p overlay settings.focusSelector = .ok targets ∧
      a =
        { overlay
          controls := ("accept", accept) :: controls
          toggles := toggles.filterMap (toggle? p settings)
          views := views.filterMap (view? p settings)
          summaryFocus := firstOf .summary (targets.filterMap (focusView? p settings))
          settingsFocus := firstOf .settings (targets.filterMap (focusView? p settings)) } := by
  unfold collect at h
  split at h
  · cases h
  · split at h
    · cases h
    · cases h
    · next accept haccept =>
      cases hcontrols : findControls p overlay settings optionalControls with
      | error f => simp [hcontrols, bind, Except.bind] at h
      | ok controls =>
        cases htoggles : findAll p overlay settings.categorySelector with
        | error f => simp [hcontrols, htoggles, bind, Except.bind] at h
        | ok toggles =>
          cases hviews : findAll p overlay settings.viewSelector with
          | error f => simp [hcontrols, htoggles, hviews, bind, Except.bind] at h
          | ok views =>
            cases htargets : findAll p overlay settings.focusSelector with
            | error f => simp [hcontrols, htoggles, hviews, htargets, bind, Except.bind] at h
            | ok targets =>
              simp only [hcontrols, htoggles, hviews, htargets, bind, Except.bind] at h
              cases h
              exact ⟨accept, controls, toggles, views, targets, haccept, rfl, rfl, rfl, rfl, rfl⟩

theorem views_of_collect (h : collect p overlay settings = .ok (some a)) :
    a.overlay = overlay ∧ ∃ found, findAll p overlay settings.viewSelector = .ok found ∧
      a.views = found.filterMap (view? p settings) := by
  obtain ⟨accept, controls, toggles, views, targets, -, -, -, hviews, -, rfl⟩ := exists_of_collect h
  exact ⟨rfl, views, hviews, rfl⟩

/-- What is found below an element is below it, each element once. -/
theorem sublist_of_findAll {selector : String} {found : List Nat} (h : findAll p overlay selector = .ok found) :
    found.Sublist (p.descendants overlay) := by
  unfold findAll queryAll at h
  split at h
  · cases h
  · next found' hfound =>
    cases h
    split at hfound
    · cases hfound
    · cases hfound
      exact List.filter_sublist

theorem sublist_views (found : List Nat) :
    ((found.filterMap (view? p settings)).map (·.2)).Sublist found := by
  induction found with
  | nil => exact List.Sublist.refl _
  | cons id found ih =>
    cases hview : view? p settings id with
    | none =>
      rw [List.filterMap_cons_none hview]
      exact ih.cons id
    | some e =>
      have hid : e.2 = id := by
        unfold view? at hview
        split at hview
        · cases hview
        · obtain ⟨v, -, rfl⟩ := Option.map_eq_some_iff.mp hview
          rfl
      rw [List.filterMap_cons_some hview, List.map_cons, hid]
      exact ih.cons_cons id

theorem body?_known (hp : p.WellFormed) {body : Nat} (h : p.body? = some body) : body < p.elements.length := by
  unfold Page.body? at h
  split at h
  · cases h
  · next root hroot =>
    have hmem : body ∈ p.descendants root := Node.mem_of_mem_elementsAmong (List.mem_of_find?_eq_some h)
    exact (hp.descendants root).2.2 body hmem

/-- Collected anchors fit a page where every element stands once. -/
theorem fits_of_collect (hp : p.WellFormed) (hoverlay : overlay ∈ p.documentElements)
    (h : collect p overlay settings = .ok (some a)) : a.Fits p := by
  obtain ⟨rfl, found, hfound, hviews⟩ := views_of_collect h
  obtain ⟨hself, hdistinct, hknown⟩ := hp.descendants a.overlay
  have hsub : (a.views.map (·.2)).Sublist (p.descendants a.overlay) := by
    rw [hviews]
    exact (sublist_views found).trans (sublist_of_findAll hfound)
  have hbelow : ∀ e ∈ a.views, e.2 ∈ p.descendants a.overlay := fun e he => hsub.subset (List.mem_map_of_mem he)
  refine ⟨hp.documentElements hoverlay, fun body hbody => body?_known hp hbody, fun e he => hknown _ (hbelow e he),
    hdistinct.sublist hsub, fun e he heq => ?_⟩
  exact hself (heq ▸ hbelow e he)

end Anchors

/-! ### The start -/

namespace Live

variable {p : Page} {a : Anchors}

theorem initConsent_eq {l : Live} {settings : ConsentSettings} (h : (l.initConsent settings).2 = true) :
    ∃ overlay a, l.page.byId? settings.overlayId = some overlay ∧
      Anchors.collect l.page overlay settings = .ok (some a) ∧ (l.initConsent settings).1 = l.startOverlay a settings := by
  unfold initConsent at h ⊢
  split at h
  · cases h
  · next hdocument =>
    rw [if_neg hdocument]
    split at h
    · cases h
    · next overlay hoverlay =>
      split at h
      · cases h
      · next hrequired =>
        rw [if_neg hrequired]
        split at h
        · cases h
        · cases h
        · next a hcollect =>
          simp only [hoverlay]
          exact ⟨overlay, a, rfl, hcollect, rfl⟩

/-- Every control gets its listener, in order. -/
theorem foldl_listenPassive (l : Live) (controls : List (String × Nat)) :
    ∃ base next, List.Forall₂ (fun x c => x = controlListener x.id c) base controls ∧
      controls.foldl (fun l c => l.listenPassive "click" (c.2, .control c.1)) l =
        { l with listeners := l.listeners ++ base, nextListener := next } := by
  induction controls generalizing l with
  | nil => exact ⟨[], l.nextListener, .nil, by simp⟩
  | cons c controls ih =>
    obtain ⟨base, next, hbase, hfold⟩ := ih (l.listenPassive "click" (c.2, .control c.1))
    refine ⟨controlListener l.nextListener c :: base, next, .cons rfl hbase, ?_⟩
    rw [List.foldl_cons, hfold]
    simp [listenPassive, listen, controlListener]

/-- The first work of a session reveals the overlay on its summary. -/
theorem agrees_first (h : a.Fits p) :
    Agrees p a ([Effect.reveal, .showView .summary, .focusView .summary].foldl
      (Overlay.after ⟨a, {}, ⟨.visible .summary⟩⟩) p) ⟨.visible .summary⟩ (some .summary) [] := by
  let o : Overlay := ⟨a, {}, ⟨.visible .summary⟩⟩
  have ho : o.settings = {} := rfl
  have hfits₁ : a.Fits (o.after p .reveal) := Overlay.fits_after ho h
  have hfits₂ : a.Fits (o.after (o.after p .reveal) (.showView .summary)) := Overlay.fits_after ho hfits₁
  have hedited := ((o.edited_after p .reveal).trans (o.edited_after _ (.showView .summary))).trans
    (o.edited_after _ (.focusView .summary))
  have hrevealed : a.Revealed true (o.after (o.after p .reveal) (.showView .summary)) :=
    Overlay.revealed_after ho hfits₁ ⟨nofun, nofun⟩ (Overlay.revealed_reveal ho h)
  have hviewing := Overlay.viewing_showView ho hfits₁ .summary
  have hmarked := Overlay.marked_showView ho hfits₁ .summary
  exact
    { fits := Overlay.fits_after ho hfits₂
      shows := .visible (Overlay.revealed_after ho hfits₂ ⟨nofun, nofun⟩ hrevealed)
        (Overlay.viewing_focusView ho hfits₂ hviewing) (Overlay.marked_after ho hfits₂ ⟨nofun, nofun⟩ hmarked)
      surroundings := hedited.surroundings
      since := Int.le_of_eq hedited.now.symm
      overflowed := hedited.overflowed
      wrote := .nothing hedited.jar
      unwritten := fun _ => rfl }

/-- Once it is started, the overlay runs with its summary in view. -/
theorem lived_startOverlay (h : a.Fits p) :
    ((ofPage p).startOverlay a {}).page.now = p.now ∧
      ∃ base, Lived p a base ((ofPage p).startOverlay a {}) ⟨.visible .summary⟩ (some .summary) [] := by
  obtain ⟨base, next, hcontrols, hbound⟩ := foldl_listenPassive
    { (ofPage p).unlisten Handler.ofOverlay with timer := none, overlay := some ⟨a, {}, .fresh⟩ } a.controls
  let l : Live := { ofPage p with listeners := base, nextListener := next, overlay := some ⟨a, {}, .fresh⟩ }
  have hstart : (ofPage p).startOverlay a {} = l.answer .show_ := congrArg (·.answer .show_) hbound
  have hrunning : Running a base l .fresh := ⟨rfl, hcontrols, .inl ⟨rfl, nofun⟩, nofun⟩
  obtain ⟨log, hlog⟩ := answer_eq hrunning.overlay .show_
  obtain ⟨hlived, hsame⟩ := hrunning.edit (t := ⟨.visible .summary⟩) log
    [.reveal, .showView .summary, .focusView .summary] (by simp) nofun (agrees_first h)
  rw [hstart, hlog]
  exact ⟨hsame.now, base, hlived⟩

theorem ne_show_of_mem_history {l : Live} {os : List Occasion} {c : Session.Call} (h : c ∈ a.history l os) :
    c ≠ .show_ := by
  induction os generalizing l with
  | nil => exact absurd h List.not_mem_nil
  | cons o os ih =>
    rcases List.mem_append.mp h with h | h
    · cases o with
      | click id =>
        simp only [Anchors.calls] at h
        split at h
        · exact absurd h List.not_mem_nil
        · exact ne_show_of_mem_heard h
      | event e => exact ne_show_of_mem_heard h
      | pick native index => exact absurd h List.not_mem_nil
      | pass ms =>
        simp only [Anchors.calls] at h
        split at h
        · split at h
          · rw [List.mem_singleton.mp h]
            exact nofun
          · exact absurd h List.not_mem_nil
        · exact absurd h List.not_mem_nil
    · exact ih h

/-- After any occasions the page agrees with the session that answered all calls: the overlay is revealed exactly in
    a visible phase, with the elements of that view and no others unhidden and the view as its mark; the mark still
    names the last view while the overlay waits to be gone, and is absent after that. A choice is written to the
    jar once, when the first call that decides comes, and never before. -/
theorem overlay_agrees_with_session {p : Page} (hp : p.WellFormed)
    (hstart : ((ofPage p).initConsent {}).2 = true) (os : List Occasion)
    (hclock : p.now + elapsed os + 365 * dayMillis ≤ Instant.latest) :
    ∃ overlay a, p.byId? "cookieConsent" = some overlay ∧ Anchors.collect p overlay {} = .ok (some a) ∧
      let start := ((ofPage p).initConsent {}).1
      let l := start.meetAll os
      let calls := a.history start os
      let session := (Session.fresh.run (.show_ :: calls)).1
      l.overlay = some ⟨a, {}, session⟩ ∧
        a.Shows l.page session.phase (Session.fresh.lastView none (.show_ :: calls)) ∧
        Session.fresh.records (.show_ :: calls) = (calls.findSome? Session.Call.decision?).toList ∧
        Wrote p l.page (Session.fresh.records (.show_ :: calls)) ∧
        l.page.overflowed = p.overflowed := by
  obtain ⟨overlay, a, hoverlay, hcollect, heq⟩ := initConsent_eq hstart
  have hmem : overlay ∈ p.documentElements := by
    unfold ofPage Page.byId? at hoverlay
    split at hoverlay
    · cases hoverlay
    · exact List.mem_of_find?_eq_some hoverlay
  obtain ⟨hnow, base, hlived⟩ := lived_startOverlay (Anchors.fits_of_collect hp hmem hcollect)
  rw [← heq] at hnow hlived
  obtain ⟨hreached, -⟩ := hlived.meetAll os (by rw [hnow]; exact hclock)
  have hcalls : ∀ c ∈ a.history ((ofPage p).initConsent {}).1 os, c ≠ .show_ := fun c hc => ne_show_of_mem_history hc
  have hrecords := Session.records_of_visible (s := ⟨.visible .summary⟩) rfl hcalls
  exact ⟨overlay, a, hoverlay, hcollect, hreached.running.overlay, hreached.agrees.shows, hrecords,
    hreached.agrees.wrote, hreached.agrees.overflowed⟩

/-- An overlay with a control to customize in its summary and one to accept in its settings. -/
def twoViews : Page :=
  (default : Page).withDocument (.element "html" true [] [.element "body" true [("style", "margin: 0")]
    [.element "div" true [("id", "cookieConsent"), ("aria-hidden", "true")]
      [.element "div" true [("data-cookie-consent-view", "summary")]
        [.element "button" true [("data-cookie-consent", "customize")] []],
       .element "div" true [("data-cookie-consent-view", "settings"), ("hidden", "")]
        [.element "button" true [("data-cookie-consent", "accept")] []]]]])

/-- The elements that the overlay of that page works with. -/
def twoViewsAnchors : Anchors :=
  ⟨2, [("accept", 6), ("customize", 4)], [], [(.summary, 3), (.settings, 5)], none, none⟩

/-- A visitor goes to the settings and accepts there, and the transition of an element ends. -/
def accepting (id : Nat) : List Occasion :=
  [.click 4, .click 6, .event ⟨"transitionend", .element id, true, false, none⟩]

/-- When the transition of an element below the overlay ends, the settings are still the last view; when its own
    ends, the mark is gone. The choice is written either way. -/
theorem overlay_agrees_after_accepting :
    twoViews.WellFormed ∧ ((ofPage twoViews).initConsent {}).2 = true ∧
      (let below := (((ofPage twoViews).initConsent {}).1.meetAll (accepting 5)).page
       let own := (((ofPage twoViews).initConsent {}).1.meetAll (accepting 2)).page
       twoViewsAnchors.Revealed false below ∧ twoViewsAnchors.Marked (some .settings) below ∧
         Wrote twoViews below [.accepted] ∧
         twoViewsAnchors.Revealed false own ∧ twoViewsAnchors.Marked none own ∧ Wrote twoViews own [.accepted]) := by
  have hp : twoViews.WellFormed := ⟨by decide, by decide⟩
  have hbyId : twoViews.byId? "cookieConsent" = some 2 := by decide
  have hanchors : Anchors.collect twoViews 2 {} = .ok (some twoViewsAnchors) := by decide +kernel
  have hinit : (ofPage twoViews).initConsent {} = ((ofPage twoViews).startOverlay twoViewsAnchors {}, true) := by
    have hdocument : (!(ofPage twoViews).page.hasDocument) = false := by decide
    have hrequired : (!overlayRequired (ofPage twoViews).page.cookies {}) = false := by decide
    have hoverlay : (ofPage twoViews).page.byId? ({} : ConsentSettings).overlayId = some 2 := hbyId
    have hcollect : Anchors.collect (ofPage twoViews).page 2 {} = .ok (some twoViewsAnchors) := hanchors
    simp only [initConsent, hdocument, hoverlay, hrequired, hcollect, Bool.false_eq_true, if_false]
  have hstart : ((ofPage twoViews).initConsent {}).2 = true := by rw [hinit]
  have hfound : ∀ {overlay a}, twoViews.byId? "cookieConsent" = some overlay →
      Anchors.collect twoViews overlay {} = .ok (some a) → a = twoViewsAnchors := by
    intro overlay a hoverlay hcollect
    rw [hbyId] at hoverlay
    rw [← Option.some.inj hoverlay, hanchors] at hcollect
    exact (Option.some.inj (Except.ok.inj hcollect)).symm
  obtain ⟨overlay, a, hoverlay, hcollect, -, hbelow, -, hwroteBelow, -⟩ :=
    overlay_agrees_with_session hp hstart (accepting 5) (by decide)
  obtain rfl := hfound hoverlay hcollect
  obtain ⟨overlay', a, hoverlay', hcollect', -, hown, -, hwroteOwn, -⟩ :=
    overlay_agrees_with_session hp hstart (accepting 2) (by decide)
  obtain rfl := hfound hoverlay' hcollect'
  have hcallsBelow : twoViewsAnchors.history ((ofPage twoViews).initConsent {}).1 (accepting 5) =
      [.apply .customize, .apply .accept] := by
    rw [hinit]
    decide
  have hcallsOwn : twoViewsAnchors.history ((ofPage twoViews).initConsent {}).1 (accepting 2) =
      [.apply .customize, .apply .accept, .finishTeardown] := by
    rw [hinit]
    decide
  rw [hcallsBelow] at hbelow hwroteBelow
  rw [hcallsOwn] at hown hwroteOwn
  obtain _ | _ | ⟨hconcealed, hmarked⟩ := hbelow
  obtain ⟨hgone, hunmarked⟩ := hown
  exact ⟨hp, hstart, hconcealed, hmarked, hwroteBelow, hgone, hunmarked, hwroteOwn⟩

end Live
end Widget
end PageWidgets
