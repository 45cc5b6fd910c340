import PageWidgets.Proofs.Widget.Toggles

/-! When the consent overlay is set up. It is due on a page whose first element with the overlay's identifier is an HTML
    element, whose cookies hold none of the name of consent, and whose first control to accept is an HTML element
    (`Due`); whether the value of that cookie could be read makes no difference. Then, and only then, the overlay is set
    up (`WiredUp`), and otherwise no more than a line is written to the log: every look-up comes before the first change. -/

namespace PageWidgets

namespace Consent

/-- One of the pieces between the semicolons of a document's text gives a value to that name, whatever the value is. -/
def Bears (document name : String) : Prop :=
  ∃ piece ∈ Text.split ';' document.toList, ∃ value, pair? piece = some (name, value)

theorem hasCookie_iff_bears {document name : String} : hasCookie document name = true ↔ Bears document name := by
  unfold hasCookie findCookie Bears
  rw [List.findSome?_isSome_iff]
  constructor
  · rintro ⟨⟨n, value⟩, hmem, hnamed⟩
    obtain ⟨piece, hpiece, hpair⟩ := List.mem_filterMap.mp hmem
    obtain rfl : n = name := by
      by_contra hne
      simp [hne] at hnamed
    exact ⟨piece, hpiece, value, hpair⟩
  · rintro ⟨piece, hpiece, value, hpair⟩
    exact ⟨(name, value), List.mem_filterMap.mpr ⟨piece, hpiece, hpair⟩, by simp⟩

theorem overlayRequired_iff {document : String} {s : ConsentSettings} :
    overlayRequired document s = true ↔ ¬Bears document s.cookieName := by
  rw [overlayRequired, Bool.not_eq_true', ← Bool.not_eq_true, hasCookie_iff_bears]

end Consent

namespace Page

/-- The first element below `root` that is marked as the control of that name, when it is an HTML element. -/
def control? (p : Page) (root : Nat) (name : String) : Option Nat :=
  ((p.descendants root).find? fun id => (p.element id).attr? "data-cookie-consent" == some name).filter fun id =>
    (p.element id).html

/-- The view that an element is marked as part of. -/
def viewOf? (p : Page) (id : Nat) : Option Consent.View :=
  ((p.element id).attr? "data-cookie-consent-view").bind Consent.View.ofName?

end Page

namespace Widget

open Consent Page

namespace Anchors

variable {p : Page} {a : Anchors} {overlay id : Nat} {name : String} {v : View}

/-! ### What is collected -/

/-- The controls that an overlay listens to: of each name the first below it, when that is an HTML element. -/
def controlsBelow (p : Page) (overlay : Nat) : List (String × Nat) :=
  ("accept" :: optionalControls).filterMap fun name => (p.control? overlay name).map (name, ·)

theorem findHtml_eq (h : name ∈ "accept" :: optionalControls) :
    findHtml p overlay (({} : ConsentSettings).actionSelector name) = .ok (p.control? overlay name) := by
  unfold findHtml query queryAll control?
  rw [read_actionSelector h]
  dsimp only
  rw [List.head?_filter]
  simp [Element.isSelected, Element.meets]

theorem findControls_eq {names : List String} (h : ∀ name ∈ names, name ∈ "accept" :: optionalControls) :
    findControls p overlay {} names = .ok (names.filterMap fun name => (p.control? overlay name).map (name, ·)) := by
  induction names with
  | nil => rfl
  | cons name names ih =>
    unfold findControls
    rw [findHtml_eq (h name List.mem_cons_self), ih fun n hn => h n (List.mem_cons_of_mem name hn)]
    cases hfound : p.control? overlay name with
    | none =>
      rw [List.filterMap_cons_none (by rw [hfound]; rfl)]
      rfl
    | some id =>
      rw [List.filterMap_cons_some (by rw [hfound]; rfl)]
      rfl

theorem findAll_eq {selector : String} {s : Selector} (hread : Selector.read selector = .ok s) :
    findAll p overlay selector = .ok ((p.descendants overlay).filter fun id => (p.element id).isSelected s) := by
  unfold findAll queryAll
  rw [hread]

/-- An overlay that is an HTML element with an HTML control to accept is all that collecting asks for. -/
theorem exists_collect_iff : (∃ a, collect p overlay {} = .ok (some a)) ↔
    (p.element overlay).html = true ∧ (p.control? overlay "accept").isSome = true := by
  have hcategory : Selector.read ({} : ConsentSettings).categorySelector =
      .ok ⟨some "input", [.attr "data-cookie-category"]⟩ := rfl
  have hview : Selector.read ({} : ConsentSettings).viewSelector = .ok ⟨none, [.attr "data-cookie-consent-view"]⟩ := rfl
  have hfocus : Selector.read ({} : ConsentSettings).focusSelector = .ok ⟨none, [.attr "data-cookie-consent-focus"]⟩ := rfl
  have hoptional : findControls p overlay {} optionalControls =
      .ok (optionalControls.filterMap fun name => (p.control? overlay name).map (name, ·)) :=
    findControls_eq fun name hname => List.mem_cons_of_mem "accept" hname
  unfold collect
  rw [findHtml_eq List.mem_cons_self, hoptional, findAll_eq hcategory, findAll_eq hview, findAll_eq hfocus]
  cases hhtml : (p.element overlay).html with
  | false => simp
  | true =>
    cases haccept : p.control? overlay "accept" with
    | none => simp
    | some accept => simp [bind, Except.bind]

theorem controls_eq (h : collect p overlay {} = .ok (some a)) : a.controls = controlsBelow p overlay := by
  obtain ⟨accept, controls, toggles, views, targets, haccept, hcontrols, -, -, -, rfl⟩ := exists_of_collect h
  rw [findHtml_eq List.mem_cons_self] at haccept
  rw [findControls_eq fun name hname => List.mem_cons_of_mem "accept" hname] at hcontrols
  unfold controlsBelow
  rw [List.filterMap_cons_some (by rw [Except.ok.inj haccept]; rfl), Except.ok.inj hcontrols]

/-- Every element of a view is collected with it. -/
theorem mem_views (h : collect p overlay {} = .ok (some a)) (hid : id ∈ p.descendants overlay)
    (hview : p.viewOf? id = some v) : (v, id) ∈ a.views := by
  obtain ⟨text, htext, hname⟩ := Option.bind_eq_some_iff.mp hview
  obtain ⟨-, found, hfound, hviews⟩ := views_of_collect h
  have hread : Selector.read ({} : ConsentSettings).viewSelector = .ok ⟨none, [.attr "data-cookie-consent-view"]⟩ := rfl
  rw [findAll_eq hread] at hfound
  cases hfound
  have hselected : (p.element id).isSelected ⟨none, [.attr "data-cookie-consent-view"]⟩ = true := by
    simp [Element.isSelected, Element.meets, Element.hasAttr, htext]
  rw [hviews]
  refine List.mem_filterMap.mpr ⟨id, List.mem_filter.mpr ⟨hid, hselected⟩, ?_⟩
  have hattr : (p.element id).attr? ({} : ConsentSettings).viewAttr = some text := htext
  unfold view?
  rw [hattr]
  exact Option.map_eq_some_iff.mpr ⟨v, hname, rfl⟩

/-- No element is listened to as two controls. -/
theorem nodup_controlsBelow (p : Page) (overlay : Nat) : ((controlsBelow p overlay).map (·.2)).Nodup := by
  have hnamed : ∀ name id, p.control? overlay name = some id →
      (p.element id).attr? "data-cookie-consent" = some name := by
    intro name id hid
    obtain ⟨hfirst, -⟩ := Option.filter_eq_some_iff.mp hid
    have hmarked := List.find?_some hfirst
    exact beq_iff_eq.mp hmarked
  have hdistinct : ("accept" :: optionalControls).Nodup := by decide
  unfold controlsBelow List.Nodup
  rw [List.map_filterMap, List.pairwise_filterMap]
  refine hdistinct.imp fun {name name'} hne id hid id' hid' heq => ?_
  rw [Option.map_map, Option.map_eq_some_iff] at hid hid'
  obtain ⟨_, hid, rfl⟩ := hid
  obtain ⟨_, hid', rfl⟩ := hid'
  dsimp only [Function.comp] at heq
  rw [← heq] at hid'
  exact hne (Option.some.inj ((hnamed _ _ hid).symm.trans (hnamed _ _ hid')))

end Anchors

namespace Live

/-- The overlay is due on a page. -/
structure Due (p : Page) (overlay : Nat) : Prop where
  document : p.hasDocument = true
  first : p.byId? "cookieConsent" = some overlay
  html : (p.element overlay).html = true
  unanswered : ¬Bears p.cookies "fsqr_cookie_consent"
  accept : (p.control? overlay "accept").isSome = true

/-- A live page after the overlay was set up on it. The summary is shown, and of the elements that belong to a view only
    those of the summary are not hidden. The controls are listened to, each for clicks and once; whatever an overlay
    before listened to is not. -/
structure WiredUp (overlay : Nat) (l m : Live) : Prop where
  session : ∃ a, a.overlay = overlay ∧ m.overlay = some ⟨a, {}, ⟨.visible .summary⟩⟩
  visible : (m.page.element overlay).hasClass "is-visible" = true
  readable : (m.page.element overlay).attr? "aria-hidden" = some "false"
  marked : (m.page.element overlay).attr? "data-active-view" = some "summary"
  still : ∀ body, l.page.body? = some body → (m.page.element body).styleValue? "overflow" = some "hidden"
  views : ∀ id ∈ l.page.descendants overlay, ∀ v, l.page.viewOf? id = some v →
    (m.page.element id).hasAttr "hidden" = decide (v ≠ .summary) ∧
      (m.page.element id).attr? "aria-hidden" = some (if v = .summary then "false" else "true")
  listeners : ∃ new, m.listeners = (l.listeners.filter fun x => !x.handler.ofOverlay) ++ new ∧
    List.Forall₂ (fun x c => x = controlListener x.id c) new (Anchors.controlsBelow l.page overlay)
  apart : ((Anchors.controlsBelow l.page overlay).map (·.2)).Nodup
  trees : m.page.tree = l.page.tree ∧ m.page.loose = l.page.loose
  jar : m.page.jar = l.page.jar
  others : m.selects = l.selects ∧ m.timer = none

variable {l : Live} {overlay : Nat} {a : Anchors}

theorem due_iff : Due l.page overlay ↔ l.page.hasDocument = true ∧ l.page.byId? "cookieConsent" = some overlay ∧
    overlayRequired l.page.cookies {} = true ∧ ∃ a, Anchors.collect l.page overlay {} = .ok (some a) := by
  rw [overlayRequired_iff, Anchors.exists_collect_iff]
  exact ⟨fun h => ⟨h.document, h.first, h.unanswered, h.html, h.accept⟩,
    fun ⟨hdocument, hfirst, hunanswered, hhtml, haccept⟩ => ⟨hdocument, hfirst, hhtml, hunanswered, haccept⟩⟩

/-- An overlay that is due is started, and nothing is done where none is. -/
theorem initConsent_cases (l : Live) :
    (∃ overlay a, Due l.page overlay ∧ Anchors.collect l.page overlay {} = .ok (some a) ∧
        l.initConsent {} = (l.startOverlay a {}, true)) ∨
      (∀ overlay, ¬Due l.page overlay) ∧ ∃ log, l.initConsent {} = ({ l with log }, false) := by
  simp only [due_iff]
  unfold initConsent
  split
  · next hdocument => exact .inr ⟨fun overlay h => absurd h.1 (by simpa using hdocument), l.log, rfl⟩
  · next hdocument =>
    have hbyId : ∀ {found}, l.page.byId? ({} : ConsentSettings).overlayId = found →
        l.page.byId? "cookieConsent" = found := id
    split
    · next hmissing => exact .inr ⟨fun overlay h => absurd ((hbyId hmissing).symm.trans h.2.1) nofun, _, rfl⟩
    · next overlay hfirst =>
      have hsame : ∀ {id}, l.page.byId? "cookieConsent" = some id → id = overlay := fun h =>
        Option.some.inj (h.symm.trans (hbyId hfirst))
      split
      · next hanswered => exact .inr ⟨fun id h => absurd h.2.2.1 (by simpa using hanswered), _, rfl⟩
      · next hrequired =>
        have hnone : ∀ {found}, Anchors.collect l.page overlay {} = found → (∀ a, found ≠ .ok (some a)) →
            ∀ id, ¬(l.page.hasDocument = true ∧ l.page.byId? "cookieConsent" = some id ∧
              overlayRequired l.page.cookies {} = true ∧ ∃ a, Anchors.collect l.page id {} = .ok (some a)) := by
          rintro found hfound hne id ⟨-, hid, -, a, ha⟩
          rw [hsame hid, hfound] at ha
          exact hne a ha
        split
        · next f hfailed => exact .inr ⟨hnone hfailed nofun, _, rfl⟩
        · next hincomplete => exact .inr ⟨hnone hincomplete nofun, _, rfl⟩
        · next a hcollect =>
          exact .inl ⟨overlay, a, ⟨by simpa using hdocument, hbyId hfirst, by simpa using hrequired, a, hcollect⟩,
            hcollect, rfl⟩

/-- The work of an overlay moves no element. -/
theorem kept_foldl_after {o : Overlay} (ho : o.settings = {}) (p : Page) (es : List Effect) :
    (es.foldl o.after p).tree = p.tree ∧ (es.foldl o.after p).loose = p.loose ∧ (es.foldl o.after p).body? = p.body? := by
  induction es generalizing p with
  | nil => exact ⟨rfl, rfl, rfl⟩
  | cons e es ih =>
    obtain ⟨htree, hloose, hbody⟩ := ih (o.after p e)
    obtain ⟨htree', hloose'⟩ : (o.after p e).tree = p.tree ∧ (o.after p e).loose = p.loose := Overlay.trees_after ho
    exact ⟨htree.trans htree', hloose.trans hloose', hbody.trans (Overlay.body?_after ho p e)⟩

/-- What starting an overlay on its anchors does to a live page. -/
theorem startOverlay_eq (l : Live) (a : Anchors) : ∃ base next log,
    List.Forall₂ (fun x c => x = controlListener x.id c) base a.controls ∧ l.startOverlay a {} =
      { l with
        page := [Effect.reveal, .showView .summary, .focusView .summary].foldl
          (Overlay.after ⟨a, {}, ⟨.visible .summary⟩⟩) l.page
        listeners := (l.unlisten Handler.ofOverlay).listeners ++ base
        nextListener := next
        timer := none
        overlay := some ⟨a, {}, ⟨.visible .summary⟩⟩
        log } := by
  obtain ⟨base, next, hcontrols, hbound⟩ := anchored_eq l a
  obtain ⟨log, hlog⟩ := answer_eq (l := l.anchored a) (s := .fresh) (by rw [hbound]) .show_
  refine ⟨base, next, log, hcontrols, ?_⟩
  have hstart : l.startOverlay a {} = (l.anchored a).answer .show_ := rfl
  rw [hstart, hlog, hbound]
  exact foldl_applyOverlay rfl rfl [.reveal, .showView .summary, .focusView .summary] (by simp)

theorem wiredUp_startOverlay (hp : l.page.WellFormed) (hoverlay : overlay ∈ l.page.documentElements)
    (hcollect : Anchors.collect l.page overlay {} = .ok (some a)) : WiredUp overlay l (l.startOverlay a {}) := by
  obtain ⟨base, next, log, hcontrols, hstart⟩ := startOverlay_eq l a
  have hagrees := agrees_first (Anchors.fits_of_collect hp hoverlay hcollect)
  obtain ⟨htree, hloose, hbody⟩ := kept_foldl_after (o := ⟨a, {}, ⟨.visible .summary⟩⟩) rfl l.page
    [.reveal, .showView .summary, .focusView .summary]
  obtain rfl : a.overlay = overlay := Anchors.overlay_of_collect hcollect
  rw [hstart]
  generalize [Effect.reveal, .showView .summary, .focusView .summary].foldl
    (Overlay.after ⟨a, {}, ⟨.visible .summary⟩⟩) l.page = q at htree hloose hbody hagrees ⊢
  obtain ⟨-, hshows, -, -, -, hwrote, -⟩ := hagrees
  cases hwrote with
  | nothing hjar =>
    cases hshows with
    | visible revealed viewing marked =>
      exact
        { session := ⟨a, rfl, rfl⟩
          visible := revealed.visible
          readable := revealed.hidden
          marked := marked
          still := fun body hfound => revealed.scroll body (hbody.trans hfound)
          views := fun id hid v hview => viewing (v, id) (Anchors.mem_views hcollect hid hview)
          listeners := ⟨base, rfl, Anchors.controls_eq hcollect ▸ hcontrols⟩
          apart := Anchors.nodup_controlsBelow l.page a.overlay
          trees := ⟨htree, hloose⟩
          jar := hjar
          others := ⟨rfl, rfl⟩ }

/-- The overlay is set up exactly when it is due, on any page; when it is not, the live page is what it was but for its
    log; and when it is, its summary is shown and its controls, and nothing else, are listened to. -/
theorem overlay_wired_exactly_when_due {l : Live} (hp : l.page.WellFormed) :
    ((l.initConsent {}).2 = true ↔ ∃ overlay, Due l.page overlay) ∧
      ((l.initConsent {}).2 = false → ∃ log, (l.initConsent {}).1 = { l with log }) ∧
      ∀ overlay, Due l.page overlay → WiredUp overlay l (l.initConsent {}).1 := by
  rcases initConsent_cases l with ⟨overlay, a, hdue, hcollect, heq⟩ | ⟨hnone, log, heq⟩
  · rw [heq]
    refine ⟨⟨fun _ => ⟨overlay, hdue⟩, fun _ => rfl⟩, nofun, fun id hid => ?_⟩
    obtain rfl : overlay = id := Option.some.inj (hdue.first.symm.trans hid.first)
    exact wiredUp_startOverlay hp (mem_documentElements_of_byId? hdue.first) hcollect
  · rw [heq]
    exact ⟨⟨nofun, fun ⟨overlay, hdue⟩ => absurd hdue (hnone overlay)⟩, fun _ => ⟨log, rfl⟩,
      fun overlay hdue => absurd hdue (hnone overlay)⟩

/-- A page with a consent cookie whose value stands for no choice. -/
def spoiltCookie : Page := { twoViews with jar := ⟨.ofList [("fsqr_cookie_consent", "%zz")]⟩ }

/-- The overlay is set up on a page with two views, and nothing is done on it when the cookie is there. -/
theorem two_views_wired : twoViews.WellFormed ∧ Due twoViews 2 ∧ Anchors.controlsBelow twoViews 2 = [("accept", 6), ("customize", 4)] ∧
    WiredUp 2 (ofPage twoViews) ((ofPage twoViews).initConsent {}).1 ∧ spoiltCookie.WellFormed ∧
      ∃ log, ((ofPage spoiltCookie).initConsent {}).1 = { ofPage spoiltCookie with log } := by
  have hp : twoViews.WellFormed := ⟨by decide, by decide⟩
  have hspoilt : spoiltCookie.WellFormed := hp.congr rfl rfl
  have hunanswered : overlayRequired twoViews.cookies {} = true := by decide
  have hdue : Due twoViews 2 := ⟨by decide, by decide, by decide, overlayRequired_iff.mp hunanswered, by decide⟩
  have hrefused : ((ofPage spoiltCookie).initConsent {}).2 = false := by decide +kernel
  obtain ⟨-, -, hwired⟩ := overlay_wired_exactly_when_due (l := ofPage twoViews) hp
  obtain ⟨-, hidle, -⟩ := overlay_wired_exactly_when_due (l := ofPage spoiltCookie) hspoilt
  exact ⟨hp, hdue, by decide, hwired 2 hdue, hspoilt, hidle hrefused⟩

end Live
end Widget
end PageWidgets
