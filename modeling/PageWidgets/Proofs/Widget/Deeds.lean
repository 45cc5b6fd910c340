import PageWidgets.Proofs.Widget.Enhance
import PageWidgets.Proofs.Widget.OverlayAgrees
import PageWidgets.Proofs.Widget.SelectAgrees

/-! Whatever the program, the visitor and the tests do to a live page, every enhanced select stays seated: it stands
    where it was made, apart from the others, and its listeners are where they belong (`Seated`). So no wrapper is ever
    enhanced twice, and setting up the selects at any time does for each wrapper what it awaits then. -/

namespace PageWidgets
namespace Widget

open Consent Page

/-! ### Where the overlay takes the focus -/

namespace Anchors

variable {p : Page} {a : Anchors} {overlay t : Nat}

theorem exists_of_firstOf {v : View} {l : List (View × Nat)} (h : firstOf v l = some t) : ∃ w, (w, t) ∈ l := by
  obtain ⟨⟨w, i⟩, hfind, rfl⟩ := Option.map_eq_some_iff.mp h
  exact ⟨w, List.mem_of_find?_eq_some hfind⟩

theorem mem_of_findAll {selector : String} {s : Selector} {found : List Nat} (hread : Selector.read selector = .ok s)
    (h : findAll p overlay selector = .ok found) (ht : t ∈ found) :
    t ∈ p.descendants overlay ∧ (p.element t).isSelected s = true := by
  unfold findAll queryAll at h
  rw [hread] at h
  cases h
  exact List.mem_filter.mp ht

/-- The overlay focuses what is marked for it, or a checkbox. -/
theorem focusTarget_of_collect (h : collect p overlay {} = .ok (some a)) {v : View} (ht : a.focusTarget v = some t) :
    t ∈ p.descendants overlay ∧
      ((p.element t).hasAttr "data-cookie-consent-focus" = true ∨ (p.element t).isA "input" = true) := by
  obtain ⟨accept, controls, toggles, views, targets, -, -, htoggles, -, htargets, rfl⟩ := exists_of_collect h
  have hread : Selector.read ({} : ConsentSettings).focusSelector = .ok ⟨none, [.attr "data-cookie-consent-focus"]⟩ := rfl
  have hread' : Selector.read ({} : ConsentSettings).categorySelector =
      .ok ⟨some "input", [.attr "data-cookie-category"]⟩ := rfl
  have hfocus : ∀ w, firstOf w (targets.filterMap (focusView? p {})) = some t → t ∈ p.descendants overlay ∧
      ((p.element t).hasAttr "data-cookie-consent-focus" = true ∨ (p.element t).isA "input" = true) := by
    intro w hw
    obtain ⟨w', hmem⟩ := exists_of_firstOf hw
    obtain ⟨i, hi, hview⟩ := List.mem_filterMap.mp hmem
    unfold focusView? at hview
    split at hview
    · obtain ⟨-, rfl⟩ := Prod.mk.inj (Option.some.inj hview)
      obtain ⟨hbelow, hselected⟩ := mem_of_findAll hread htargets hi
      refine ⟨hbelow, .inl ?_⟩
      simpa [Element.isSelected, Element.meets] using hselected
    · cases hview
  cases v with
  | summary => exact hfocus .summary ht
  | settings =>
    rcases Option.or_eq_some_iff.mp ht with ht | ⟨-, ht⟩
    · exact hfocus .settings ht
    · obtain ⟨⟨name, i⟩, hhead, rfl⟩ := Option.map_eq_some_iff.mp ht
      obtain ⟨j, hj, htoggle⟩ := List.mem_filterMap.mp (List.mem_of_head? hhead)
      unfold toggle? at htoggle
      split at htoggle
      · cases htoggle
      · split at htoggle
        · next hinput =>
          obtain ⟨-, rfl⟩ := Prod.mk.inj (Option.some.inj htoggle)
          exact ⟨(mem_of_findAll hread' htoggles hj).1, .inr hinput.1⟩
        · cases htoggle

end Anchors

/-! ### Seated selects -/

/-- A listener hears its kind of events, only that for the complete document is called once, and that of a select is where
    it belongs. -/
structure Listener.Homed (ps : List Parts) (x : Listener) : Prop where
  type : x.type = x.handler.hears
  lasting : x.once = true → x.type = "DOMContentLoaded"
  place : ∀ k, x.handler.owner? = some k → ∃ a, ps[k]? = some a ∧ a.Places x.handler x.place

/-- The overlay focuses elements of the page that are no trigger of a select. -/
def Anchors.SparesTriggers (a : Anchors) (l : Live) : Prop :=
  ∀ v t, a.focusTarget v = some t → t < l.page.elements.length ∧ ∀ w ∈ l.selects, w.parts.trigger ≠ t

/-- Every select of a live page is seated, apart from the others. -/
structure Seated (u : Surroundings) (l : Live) : Prop where
  page : l.page.WellFormed
  surroundings : l.page.surroundings = u
  selects : ∀ w ∈ l.selects, w.settings = {} ∧ Seat l.page w.parts ∧ Listbox.Coherent w.state.entries w.state
  apart : (l.selects.map (·.parts)).Pairwise Parts.Apart
  listeners : ∀ x ∈ l.listeners, x.Homed (l.selects.map (·.parts))
  overlay : ∀ o, l.overlay = some o → o.settings = {} ∧ o.anchors.SparesTriggers l

namespace Live

/-- The live page of an overlay on its anchors before its session begins. -/
def anchored (l : Live) (a : Anchors) : Live :=
  a.controls.foldl (fun l c => l.listenPassive "click" (c.2, .control c.1))
    { l.unlisten Handler.ofOverlay with timer := none, overlay := some ⟨a, {}, .fresh⟩ }

theorem anchored_eq (l : Live) (a : Anchors) : ∃ base next,
    List.Forall₂ (fun x c => x = controlListener x.id c) base a.controls ∧ l.anchored a =
      { l with listeners := (l.unlisten Handler.ofOverlay).listeners ++ base, nextListener := next, timer := none,
               overlay := some ⟨a, {}, .fresh⟩ } :=
  foldl_listenPassive { l.unlisten Handler.ofOverlay with timer := none, overlay := some ⟨a, {}, .fresh⟩ } a.controls

/-- The program does nothing else to announce a change than what keeps selects seated. -/
def Seating (announce : Live → Nat → Live) : Prop := ∀ u l native, Seated u l → Seated u (announce l native)

end Live

namespace Seated

open Live

variable {u : Surroundings} {l m : Live} {k : Nat} {w : Select} {announce : Live → Nat → Live}

theorem seat (h : Seated u l) (hw : l.selects[k]? = some w) : Seat l.page w.parts :=
  (h.selects w (List.mem_of_getElem? hw)).2.1

/-- The page may grow, and listeners may come and go. -/
theorem goes (h : Seated u l) (hpage : Hosts l.page m.page) (hsurroundings : m.page.surroundings = l.page.surroundings)
    (hselects : m.selects = l.selects)
    (hlisteners : ∀ x ∈ m.listeners, x ∈ l.listeners ∨ x.Homed (l.selects.map (·.parts)))
    (hoverlay : m.overlay = l.overlay) : Seated u m where
  page := hpage.wellFormed
  surroundings := hsurroundings.trans h.surroundings
  selects w hw := by
    rw [hselects] at hw
    obtain ⟨hsettings, hseat, hcoherent⟩ := h.selects w hw
    exact ⟨hsettings, hseat.hosted h.page hpage, hcoherent⟩
  apart := by
    rw [hselects]
    exact h.apart
  listeners x hx := by
    rw [hselects]
    rcases hlisteners x hx with hx | hx
    · exact h.listeners x hx
    · exact hx
  overlay o ho := by
    rw [hoverlay] at ho
    obtain ⟨hsettings, hspares⟩ := h.overlay o ho
    refine ⟨hsettings, fun v t ht => ?_⟩
    obtain ⟨hknown, htriggers⟩ := hspares v t ht
    rw [hselects]
    exact ⟨Nat.lt_of_lt_of_le hknown hpage.grown.length, htriggers⟩

theorem hosted (h : Seated u l) {q : Page} (hpage : Hosts l.page q) (hsurroundings : q.surroundings = l.page.surroundings) :
    Seated u { l with page := q } :=
  h.goes hpage hsurroundings rfl (fun _ hx => .inl hx) rfl

/-- The same page, with listeners that come and go. -/
theorem heard (h : Seated u l) (hpage : m.page = l.page) (hselects : m.selects = l.selects)
    (hlisteners : ∀ x ∈ m.listeners, x ∈ l.listeners ∨ x.Homed (l.selects.map (·.parts)))
    (hoverlay : m.overlay = l.overlay) : Seated u m :=
  h.goes (by rw [hpage]; exact .of_attrs h.page rfl rfl rfl (fun _ => rfl) (fun _ => rfl) fun _ => rfl)
    (by rw [hpage]) hselects hlisteners hoverlay

theorem write (h : Seated u l) (level : Level) (part text : String) : Seated u (l.write level part text) :=
  h.heard rfl rfl (fun _ hx => .inl hx) rfl

theorem unlisten (h : Seated u l) (drop : Handler → Bool) : Seated u (l.unlisten drop) :=
  h.heard rfl rfl (fun _ hx => .inl (List.mem_filter.mp hx).1) rfl

/-! ### Work of selects -/

theorem applySelect (hann : Seating announce) (h : Seated u l) (k : Nat) (e : Listbox.Effect) :
    Seated u (applySelect announce k l e) := by
  cases hw : l.selects[k]? with
  | none =>
    unfold Live.applySelect
    rw [hw]
    exact h
  | some w =>
    obtain ⟨hsettings, hseat, -⟩ := h.selects w (List.mem_of_getElem? hw)
    have hparts : (l.selects.map (·.parts))[k]? = some w.parts := getElem?_parts rfl hw
    by_cases hedit : e ≠ .listen ∧ e ≠ .unlisten ∧ e ≠ .notify
    · rw [applySelect_eq hw hsettings hedit]
      exact h.hosted (.after_select h.page hsettings hseat.fits.leaf e) (w.edited_after l.page e).surroundings
    · unfold Live.applySelect
      rw [hw]
      cases e with
      | listen =>
        refine h.heard rfl rfl (fun x hx => ?_) rfl
        obtain ⟨m, n, hlisteners⟩ := listeners_subscribe (l := l) (k := k)
        rw [hlisteners] at hx
        rcases List.mem_append.mp hx with hx | hx
        · exact .inl (List.mem_filter.mp hx).1
        · rcases List.mem_cons.mp hx with rfl | hx
          · refine .inr ⟨rfl, nofun, fun j hj => ?_⟩
            cases hj
            exact ⟨_, hparts, .documentPointer k⟩
          · rw [List.mem_singleton.mp hx]
            refine .inr ⟨rfl, nofun, fun j hj => ?_⟩
            cases hj
            exact ⟨_, hparts, .documentKey k⟩
      | unlisten => exact h.unlisten _
      | notify =>
        exact hann u _ _ (h.hosted (.of_attrs h.page rfl rfl rfl (fun _ => rfl) (fun _ => rfl) fun _ => rfl) rfl)
      | _ => exact absurd ⟨nofun, nofun, nofun⟩ hedit

theorem work (hann : Seating announce) (h : Seated u l) (k : Nat) (es : List Listbox.Effect) :
    Seated u (es.foldl (Live.applySelect announce k) l) := by
  induction es generalizing l with
  | nil => exact h
  | cons e es ih => exact ih (h.applySelect hann k e)

theorem setState (h : Seated u l) (k : Nat) {t : Listbox.State} (hcoherent : Listbox.Coherent t.entries t) :
    Seated u (l.setState k t) := by
  have hparts := parts_setState (l := l) (k := k) t
  have hold : ∀ v ∈ (l.setState k t).selects, ∃ w ∈ l.selects, v.parts = w.parts ∧ v.settings = w.settings ∧
      (v.state = w.state ∨ v.state = t) := by
    intro v hv
    obtain ⟨j, hj⟩ := List.mem_iff_getElem?.mp hv
    rw [selects_setState] at hj
    split at hj
    · obtain ⟨w, hw, rfl⟩ := Option.map_eq_some_iff.mp hj
      exact ⟨w, List.mem_of_getElem? hw, rfl, rfl, .inr rfl⟩
    · exact ⟨v, List.mem_of_getElem? hj, rfl, rfl, .inl rfl⟩
  refine ⟨h.page, h.surroundings, fun v hv => ?_, ?_, ?_, fun o ho => ?_⟩
  · obtain ⟨w, hw, hp, hs, hstate⟩ := hold v hv
    obtain ⟨hsettings, hseat, hcoherent'⟩ := h.selects w hw
    refine ⟨hs.trans hsettings, hp ▸ hseat, ?_⟩
    rcases hstate with heq | heq <;> rw [heq]
    · exact hcoherent'
    · exact hcoherent
  · rw [hparts]
    exact h.apart
  · rw [hparts]
    exact h.listeners
  · obtain ⟨hsettings, hspares⟩ := h.overlay o ho
    refine ⟨hsettings, fun v t ht => ⟨(hspares v t ht).1, fun w hw => ?_⟩⟩
    obtain ⟨w', hw', hp, -, -⟩ := hold w hw
    rw [hp]
    exact (hspares v t ht).2 w' hw'

theorem answered (h : Seated u l) (hw : l.selects[k]? = some w) (op : Listbox.Operation) :
    Seated u (l.setState k (w.state.perform op).1) := by
  obtain ⟨-, -, hcoherent⟩ := h.selects w (List.mem_of_getElem? hw)
  have hanswers := w.state.perform_answers op
  refine h.setState k ?_
  rw [hanswers.entries]
  exact hanswers.coherent hcoherent

theorem callSelect (hann : Seating announce) (h : Seated u l) (k : Nat) (op : Listbox.Operation) :
    Seated u (l.callSelect announce k (·.perform op)) := by
  unfold Live.callSelect
  split
  · exact h
  · next w hw => exact (h.answered hw op).work hann k _

/-! ### Work of the overlay -/

theorem aside (h : Seated u l) {q : Page} (htree : q.tree = l.page.tree) (hloose : q.loose = l.page.loose)
    (helements : q.elements = l.page.elements) (hsurroundings : q.surroundings = l.page.surroundings) :
    Seated u { l with page := q } := by
  have helement : ∀ id, q.element id = l.page.element id := by
    intro id
    unfold Page.element
    rw [helements]
  exact h.hosted (.of_attrs h.page htree hloose (by rw [helements]) (fun id => by rw [helement])
    (fun id => by rw [helement]) fun id => by rw [helement]) hsurroundings

theorem assignCookie (h : Seated u l) (assignment : String) : Seated u (l.assignCookie assignment) := by
  unfold Live.assignCookie
  split
  · split
    · exact h.aside rfl rfl rfl rfl
    · exact h.write _ _ _
  · exact h

theorem persist (h : Seated u l) (c : Cookie) (r : Record) : Seated u (l.persist c r) := by
  unfold Live.persist
  split
  · exact h.aside rfl rfl rfl rfl
  · exact h.assignCookie _

theorem armTeardown (h : Seated u l) (o : Overlay) : Seated u (l.armTeardown o) := by
  refine (h.unlisten (· = .transitionEnd)).heard rfl rfl (fun x hx => ?_) rfl
  rcases List.mem_append.mp hx with hx | hx
  · exact .inl hx
  · rw [List.mem_singleton.mp hx]
    exact .inr ⟨rfl, nofun, fun _ => nofun⟩

theorem applyOverlay (h : Seated u l) (e : Effect) : Seated u (l.applyOverlay e) := by
  cases ho : l.overlay with
  | none =>
    unfold Live.applyOverlay
    rw [ho]
    exact h
  | some o =>
    obtain ⟨hsettings, -⟩ := h.overlay o ho
    by_cases hpersist : ∃ r, e = .persist r
    · obtain ⟨r, rfl⟩ := hpersist
      unfold Live.applyOverlay
      rw [ho]
      exact h.persist o.cookie r
    · have hafter := h.hosted (.after_overlay h.page hsettings e) (o.edited_after l.page e).surroundings
      rw [applyOverlay_edits ho hsettings fun r heq => hpersist ⟨r, heq⟩]
      split
      · exact hafter.armTeardown o
      · exact hafter

theorem callOverlay (h : Seated u l) (f : Session → Session × List Effect) : Seated u (l.callOverlay f) := by
  have hwork : ∀ (es : List Effect) {m : Live}, Seated u m → Seated u (es.foldl Live.applyOverlay m) := by
    intro es
    induction es with
    | nil => exact fun hm => hm
    | cons e es ih => exact fun hm => ih (hm.applyOverlay e)
  unfold Live.callOverlay
  split
  · exact h
  · next o ho =>
    dsimp only
    refine hwork _ ?_
    obtain ⟨log, hlog⟩ := foldl_noteRecord { l with overlay := some { o with session := (f o.session).1 } } (f o.session).2
    rw [hlog]
    refine ⟨h.page, h.surroundings, h.selects, h.apart, h.listeners, fun o' ho' => ?_⟩
    obtain rfl := Option.some.inj ho'
    exact h.overlay o ho

theorem pressControl (h : Seated u l) (name : String) : Seated u (l.pressControl name) := by
  unfold Live.pressControl
  split
  · exact h
  · dsimp only
    split
    · exact h
    · exact h.callOverlay _

/-! ### Events -/

section
variable {ready : Bool → Live → Live}

theorem handle (hann : Seating announce) (hready : ∀ test m, Seated u m → Seated u (ready test m)) (event : Event)
    (x : Handler) (h : Seated u l) : Seated u (handle announce ready event x l).1 := by
  have hselect : x.OfSelect → Seated u (Live.handle announce ready event x l).1 := by
    intro hx
    have hcases : (Live.handle announce ready event x l).1 = l ∨
        ∃ k op, (Live.handle announce ready event x l).1 = l.callSelect announce k (·.perform op) := handle_cases hx
    rcases hcases with heq | ⟨k, op, heq⟩
    · rw [heq]
      exact h
    · rw [heq]
      exact h.callSelect hann k op
  cases x with
  | ready test => exact hready test l h
  | control name => exact h.pressControl name
  | transitionEnd =>
    dsimp only [Live.handle]
    split
    · exact h
    · dsimp only
      split
      · exact h.callOverlay _
      · exact h
  | _ => exact hselect trivial

theorem deliver (hann : Seating announce) (hready : ∀ test m, Seated u m → Seated u (ready test m)) (event : Event)
    (h : Seated u l) : Seated u (l.deliver (Live.handle announce ready) event).1 := by
  refine deliver_keeps (I := fun _ => True) ⟨fun _ _ _ _ => trivial, fun m x hm _ _ _ => ?_, fun m x hm _ _ => ?_⟩ h
  · exact hm.heard rfl rfl (fun y hy => .inl (List.mem_filter.mp hy).1) rfl
  · exact hm.handle hann hready event x.handler

end

theorem seating_announceChange : Seating announceChange := fun _ _ native h =>
  h.deliver (fun _ _ _ hm => hm) (fun _ _ hm => hm) (changeOf native)

/-! ### Setting up -/

/-- What was home stays home when there are more selects. -/
theorem homed_append {ps : List Parts} {x : Listener} (hx : x.Homed ps) (more : List Parts) : x.Homed (ps ++ more) := by
  refine ⟨hx.type, hx.lasting, fun k hk => ?_⟩
  obtain ⟨a, ha, hplace⟩ := hx.place k hk
  have hlt := (List.getElem?_eq_some_iff.mp ha).1
  exact ⟨a, by rw [List.getElem?_append_left hlt]; exact ha, hplace⟩

theorem anchored (h : Seated u l) {a : Anchors} (ha : a.SparesTriggers l) : Seated u (l.anchored a) := by
  obtain ⟨base, next, hcontrols, heq⟩ := anchored_eq l a
  rw [heq]
  refine ⟨h.page, h.surroundings, h.selects, h.apart, fun x hx => ?_, fun o ho => ?_⟩
  · rcases List.mem_append.mp hx with hx | hx
    · exact h.listeners x (List.mem_filter.mp hx).1
    · obtain ⟨c, -, hcontrol⟩ := exists_control hcontrols hx
      rw [hcontrol]
      exact ⟨rfl, nofun, fun _ => nofun⟩
  · obtain rfl := Option.some.inj ho
    exact ⟨rfl, ha⟩

theorem startOverlay (h : Seated u l) {a : Anchors} (ha : a.SparesTriggers l) : Seated u (l.startOverlay a {}) :=
  (h.anchored ha).callOverlay (·.show_)

/-- Collected anchors are not the triggers of seated selects. -/
theorem sparesTriggers (h : Seated u l) {a : Anchors} {overlay : Nat}
    (ha : Anchors.collect l.page overlay {} = .ok (some a)) : a.SparesTriggers l := by
  intro v t ht
  obtain ⟨hbelow, hfound⟩ := Anchors.focusTarget_of_collect ha ht
  refine ⟨(h.page.descendants overlay).2.2 t hbelow, fun w hw => ?_⟩
  rintro rfl
  obtain ⟨-, hseat, -⟩ := h.selects w hw
  rcases hfound with hfocus | hinput
  · unfold Element.hasAttr at hfocus
    rw [hseat.unfound _ (.inl rfl) _ (by simp)] at hfocus
    cases hfocus
  · have hbutton := hseat.button
    unfold Element.isA at hinput hbutton
    simp only [Bool.and_eq_true, beq_iff_eq] at hinput hbutton
    exact absurd (hinput.2.symm.trans hbutton.2) (by decide)

theorem initConsent (h : Seated u l) : Seated u (l.initConsent {}).1 := by
  unfold Live.initConsent
  split
  · exact h
  · split
    · exact h.write _ _ _
    · split
      · exact h.write _ _ _
      · split
        · exact h.write _ _ _
        · exact h.write _ _ _
        · next a ha => exact h.startOverlay (h.sparesTriggers ha)

theorem added (h : Seated u l) {a : Parts} {entries : List Listbox.Entry} (hadded : Added l a entries m)
    (hfresh : (l.page.element a.wrapper).attr? "data-retention-enhanced" ≠ some "true") : Seated u m := by
  have hpage := hadded.furnished.hosts
  have hmade := hadded.furnished.made a List.mem_cons_self
  have hparts : m.selects.map (·.parts) = l.selects.map (·.parts) ++ [a] := by
    rw [hadded.selects, List.map_append]
    rfl
  refine ⟨hpage.wellFormed, hadded.furnished.surroundings.trans h.surroundings, fun w hw => ?_, ?_, fun x hx => ?_,
    fun o ho => ?_⟩
  · rw [hadded.selects] at hw
    rcases List.mem_append.mp hw with hw | hw
    · obtain ⟨hsettings, hseat, hcoherent⟩ := h.selects w hw
      exact ⟨hsettings, hseat.hosted h.page hpage, hcoherent⟩
    · rw [List.mem_singleton.mp hw]
      exact ⟨rfl, hmade.seat, .ofEntries entries⟩
  · rw [hparts, List.pairwise_append]
    refine ⟨h.apart, List.pairwise_singleton _ a, fun b hb c hc => ?_⟩
    obtain ⟨w, hw, rfl⟩ := List.mem_map.mp hb
    rw [List.mem_singleton.mp hc]
    exact hadded.furnished.apart List.mem_cons_self (h.selects w hw).2.1 hfresh
  · rw [hparts]
    obtain ⟨new, hlisteners, hbound⟩ := hadded.listeners
    rw [hlisteners] at hx
    rcases List.mem_append.mp hx with hx | hx
    · exact homed_append (h.listeners x hx) [a]
    · have hx' := hbound x hx
      refine ⟨hx'.type, fun honce => absurd (hx'.lasting.symm.trans honce) Bool.false_ne_true, fun k hk => ⟨a, ?_, hx'.place⟩⟩
      obtain rfl := Option.some.inj (hx'.owner.symm.trans hk)
      rw [← List.length_map (f := (·.parts)), List.getElem?_concat_length]
  · rw [hadded.overlay] at ho
    obtain ⟨hsettings, hspares⟩ := h.overlay o ho
    refine ⟨hsettings, fun v t ht => ?_⟩
    obtain ⟨hknown, htriggers⟩ := hspares v t ht
    refine ⟨Nat.lt_of_lt_of_le hknown hpage.grown.length, fun w hw => ?_⟩
    rw [hadded.selects] at hw
    rcases List.mem_append.mp hw with hw | hw
    · exact htriggers w hw
    · rw [List.mem_singleton.mp hw]
      exact Nat.ne_of_gt (Nat.lt_of_lt_of_le hknown (hmade.new _ (.inl rfl)))

theorem enhance (h : Seated u l) {wrapper : Nat} (hwrapper : wrapper ∈ Node.idsOf l.page.trees)
    (hmarker : (l.page.element wrapper).hasAttr "data-retention-select" = true) :
    Seated u (l.enhance wrapper {}).1 ∧ Hosts l.page (l.enhance wrapper {}).1.page := by
  rcases enhance_spec h.page hwrapper hmarker with
    ⟨log, heq, -⟩ | ⟨f, q, heq, -, -, hprimed⟩ | ⟨a, entries, m, heq, hawaits, -, rfl, hadded⟩
  · rw [heq]
    exact ⟨h.heard rfl rfl (fun _ hx => .inl hx) rfl,
      .of_attrs h.page rfl rfl rfl (fun _ => rfl) (fun _ => rfl) fun _ => rfl⟩
  · rw [heq]
    exact ⟨h.hosted hprimed.hosts hprimed.surroundings, hprimed.hosts⟩
  · rw [heq]
    refine ⟨h.added hadded fun hmark => ?_, hadded.furnished.hosts⟩
    cases (awaits_of_enhanced hmark).symm.trans hawaits

/-- What enhancing one wrapper keeps, enhancing all of them keeps. -/
theorem enhanceAll_keeps {P : Live → Prop} (hwrite : ∀ l level part text, P l → P (l.write level part text))
    (hone : ∀ l wrapper, Seated u l → wrapper ∈ Node.idsOf l.page.trees →
      (l.page.element wrapper).hasAttr "data-retention-select" = true → P l → P (l.enhance wrapper {}).1)
    (h : Seated u l) (hl : P l) {ids : List Nat}
    (hids : ∀ id ∈ ids, id ∈ Node.idsOf l.page.trees ∧ (l.page.element id).hasAttr "data-retention-select" = true) :
    Seated u (enhanceAll {} l ids).1 ∧ P (enhanceAll {} l ids).1 := by
  induction ids generalizing l with
  | nil => exact ⟨h, hl⟩
  | cons wrapper rest ih =>
    obtain ⟨hwrapper, hmarker⟩ := hids wrapper List.mem_cons_self
    obtain ⟨hseated, hhosts⟩ := h.enhance hwrapper hmarker
    have hkept := hone l wrapper h hwrapper hmarker hl
    have hrest : ∀ id ∈ rest, id ∈ Node.idsOf (l.enhance wrapper {}).1.page.trees ∧
        ((l.enhance wrapper {}).1.page.element id).hasAttr "data-retention-select" = true := by
      intro id hid
      obtain ⟨hplace, hmarked⟩ := hids id (List.mem_cons_of_mem wrapper hid)
      exact ⟨hhosts.grown.placed id hplace, (hhosts.hasAttr (h.page.known id hplace) (by simp)).trans hmarked⟩
    unfold Live.enhanceAll
    generalize l.enhance wrapper {} = r at hseated hkept hrest
    obtain ⟨m, f | _ | k⟩ := r
    · exact ih (hseated.write _ _ _) (hwrite _ _ _ _ hkept) hrest
    · exact ih hseated hkept hrest
    · exact ih hseated hkept hrest

theorem initSelects_keeps {P : Live → Prop} (hwrite : ∀ l level part text, P l → P (l.write level part text))
    (hone : ∀ l wrapper, Seated u l → wrapper ∈ Node.idsOf l.page.trees →
      (l.page.element wrapper).hasAttr "data-retention-select" = true → P l → P (l.enhance wrapper {}).1)
    (h : Seated u l) (hl : P l) : Seated u (l.initSelects {}).1 ∧ P (l.initSelects {}).1 := by
  by_cases hdocument : l.page.hasDocument = true
  · rw [initSelects_eq hdocument]
    split
    · exact enhanceAll_keeps hwrite hone h hl (wrappers_spec h.page).2
    · exact ⟨h, hl⟩
  · unfold Live.initSelects
    rw [if_neg hdocument]
    exact ⟨h, hl⟩

theorem initSelects (h : Seated u l) : Seated u (l.initSelects {}).1 :=
  (initSelects_keeps (P := fun _ => True) (fun _ _ _ _ _ => trivial) (fun _ _ _ _ _ _ => trivial) h trivial).1

/-! ### The program -/

theorem whenReady (h : Seated u l) (test : Bool) : Seated u (whenReady test l) := by
  have hinit : Seated u l.init.1 := h.initConsent.initSelects.write _ _ _
  have hinstall : Seated u l.init.1.install := by
    unfold Live.install
    split
    · exact hinit
    · split
      · exact hinit.write _ _ _
      · exact hinit.heard rfl rfl (fun _ hx => .inl hx) rfl
  unfold Live.whenReady
  cases test
  · exact hinit
  · exact hinstall

theorem dispatch (h : Seated u l) (event : Event) : Seated u (l.dispatch event).1 :=
  h.deliver seating_announceChange (fun test _ hm => hm.whenReady test) event

theorem start (h : Seated u l) : Seated u l.start := by
  have hlevel : ∀ level, Seated u (l.setLevel level) := fun level => h.heard rfl rfl (fun _ hx => .inl hx) rfl
  unfold Live.start
  dsimp only
  generalize (if l.testMode = true then Level.debug else Level.info) = level
  split
  · exact hlevel _
  · split
    · refine (hlevel level).heard rfl rfl (fun x hx => ?_) rfl
      rcases List.mem_append.mp hx with hx | hx
      · exact .inl hx
      · rw [List.mem_singleton.mp hx]
        exact .inr ⟨rfl, fun _ => rfl, fun _ => nofun⟩
    · exact (hlevel _).whenReady _

theorem callHook (h : Seated u l) (c : HookCall) : Seated u (l.callHook c).1 := by
  cases c with
  | state => exact h
  | reset =>
    dsimp only [Live.callHook]
    split
    · exact h.assignCookie _
    · exact h
  | enhance => exact h.initSelects

theorem flip (h : Seated u l) (id : Nat) : Seated u (l.flip id) :=
  h.hosted (.of_alike h.page (.modify fun _ => ⟨rfl, rfl, rfl⟩)) rfl

theorem meet (h : Seated u l) (o : Occasion) : Seated u (l.meet o) := by
  cases o with
  | click id =>
    show Seated u (l.click id).1
    unfold Live.click
    dsimp only
    split
    · exact h
    · split
      · split
        · exact ((h.flip id).dispatch _).flip id
        · exact (h.flip id).dispatch _
      · exact h.dispatch _
  | event e => exact h.dispatch e
  | pick native index =>
    show Seated u (l.pick native index).1
    unfold Live.pick
    dsimp only
    split
    · have halike := alike_choose l.page native index
      exact (h.hosted (.of_alike h.page halike) halike.surroundings).dispatch _
    · exact h.dispatch _
  | pass ms =>
    have hlater : ∀ {l : Live} (now : Calendar.Instant), Seated u l → Seated u { l with page := { l.page with now } } :=
      fun now hl => hl.aside rfl rfl rfl rfl
    have htimer : ∀ {l : Live}, Seated u l → Seated u l.fireTimer := fun {l} hl =>
      callOverlay (l := { l with timer := none }) (hl.heard rfl rfl (fun _ hx => .inl hx) rfl) _
    show Seated u (l.advance ms)
    unfold Live.advance
    dsimp only
    split
    · split
      · exact hlater _ (htimer (hlater _ h))
      · exact hlater _ h
    · exact hlater _ h

end Seated

/-! ### Histories -/

/-- What the program, a test or the visitor does to a live page. -/
inductive Deed where
  | start
  | complete
  | consent
  | hook (c : Live.HookCall)
  | occasion (o : Occasion)
  deriving DecidableEq, Repr

namespace Live

/-- The live page after a deed. -/
def deed (l : Live) : Deed → Live
  | .start => l.start
  | .complete => l.complete
  | .consent => (l.initConsent {}).1
  | .hook c => (l.callHook c).1
  | .occasion o => l.meet o

def doAll (l : Live) (ds : List Deed) : Live := ds.foldl deed l

end Live

variable {u : Surroundings} {l : Live} {p : Page}

theorem Seated.deed (h : Seated u l) (d : Deed) : Seated u (l.deed d) := by
  cases d with
  | start => exact h.start
  | complete =>
    exact (h.aside (q := { l.page with loading := false }) rfl rfl rfl rfl).dispatch _
  | consent => exact h.initConsent
  | hook c => exact h.callHook c
  | occasion o => exact h.meet o

namespace Live

theorem seated_ofPage (hp : p.WellFormed) : Seated p.surroundings (ofPage p) :=
  ⟨hp, rfl, fun _ hw => absurd hw List.not_mem_nil, .nil, fun _ hx => absurd hx List.not_mem_nil, fun _ => nofun⟩

/-- Every history leaves all selects seated. -/
theorem seated_doAll (hp : p.WellFormed) (ds : List Deed) : Seated p.surroundings ((ofPage p).doAll ds) := by
  have hrun : ∀ {l : Live}, Seated p.surroundings l → Seated p.surroundings (l.doAll ds) := by
    induction ds with
    | nil => exact fun h => h
    | cons d ds ih => exact fun h => ih (h.deed d)
  exact hrun (seated_ofPage hp)

/-- Whenever the selects of a page are set up, at the start or later, each wrapper that can be enhanced then is, and no
    other; and after any history no two selects have the same wrapper. -/
theorem wrappers_enhanced_once :
    (∀ l : Live, l.page.WellFormed → SetUp l (l.initSelects {}).1 (l.initSelects {}).2) ∧
      ∀ p : Page, p.WellFormed → ∀ ds : List Deed, ((ofPage p).doAll ds).page.WellFormed ∧
        (((ofPage p).doAll ds).selects.map (·.parts.wrapper)).Nodup := by
  refine ⟨fun l hl => setUp_initSelects hl, fun p hp ds => ?_⟩
  have h := seated_doAll hp ds
  refine ⟨h.page, ?_⟩
  rw [← Function.comp_def Parts.wrapper, ← List.map_map]
  exact h.apart.map _ fun a b hab => hab.wrapper

/-- A wrapper around another one, with one select for both, and a wrapper without any. -/
def nestedWrappers : Page :=
  (default : Page).withDocument (.element "html" true [] [.element "body" true []
    [.element "div" true [("data-retention-select", "")]
      [.element "div" true [("data-retention-select", "")]
        [.element "select" true [("id", "keep")] [.element "option" true [] [.text "30 days"]]]],
     .element "div" true [("data-retention-select", "")] []]])

/-- Both get a select of their own at the start, and setting up again, while a menu is open, finds nothing to do. -/
theorem nested_wrappers_enhanced_once :
    nestedWrappers.WellFormed ∧ nestedWrappers.enhanceable = [2, 3] ∧
      SetUp (ofPage nestedWrappers) ((ofPage nestedWrappers).initSelects {}).1 2 ∧
      let l := (ofPage nestedWrappers).doAll [.start, .occasion (.click 7)]
      l.page.WellFormed ∧ l.selects.map (·.parts.wrapper) = [2, 3] ∧ (l.selects.map (·.parts.wrapper)).Nodup ∧
        l.selects.map (·.state.isOpen) = [true, false] ∧ SetUp l (l.initSelects {}).1 0 := by
  obtain ⟨hsetUp, hhistories⟩ := wrappers_enhanced_once
  have hp : nestedWrappers.WellFormed := wellFormed_default.withDocument _
  obtain ⟨hpage, hdistinct⟩ := hhistories nestedWrappers hp [.start, .occasion (.click 7)]
  have hfirst : ((ofPage nestedWrappers).initSelects {}).2 = 2 := by decide +kernel
  have hagain : (((ofPage nestedWrappers).doAll [.start, .occasion (.click 7)]).initSelects {}).2 = 0 := by decide +kernel
  refine ⟨hp, by decide +kernel, ?_, hpage, by decide +kernel, hdistinct, by decide +kernel, ?_⟩
  · exact hfirst ▸ hsetUp (ofPage nestedWrappers) hp
  · exact hagain ▸ hsetUp _ hpage

/-- A wrapper in a document that is no HTML document. -/
def foreignDocument : Page :=
  { retentionTimes with surroundings := { document := .xml } }

/-- Not every marked wrapper of a page that waits for it is enhanced: a document that is no HTML document makes no
    buttons. -/
theorem awaited_in_vain : ¬∀ p : Page, p.WellFormed → p.hasDocument = true → ((ofPage p).initSelects {}).2 =
    ((p.documentElements.filter fun id => (p.element id).hasAttr "data-retention-select").filter p.awaits).length := by
  intro h
  have hp : foreignDocument.WellFormed :=
    (wellFormed_default.withDocument _ : retentionTimes.WellFormed).congr rfl rfl
  have hcount : ((ofPage foreignDocument).initSelects {}).2 = 0 := by decide +kernel
  have hwaiting : ((foreignDocument.documentElements.filter fun id =>
      (foreignDocument.element id).hasAttr "data-retention-select").filter foreignDocument.awaits).length = 1 := by
    decide +kernel
  have hboth := h foreignDocument hp (by decide)
  rw [hcount, hwaiting] at hboth
  cases hboth

end Live
end Widget
end PageWidgets
