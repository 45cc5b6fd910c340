import PageWidgets.Proofs.Consent.Stores
import PageWidgets.Proofs.Widget.Attended

/-! Saving stores exactly the toggles. A click on the control that saves goes past listeners that do not touch the
    overlay (`Bypasses`) until the first control hears it, which writes the choices as the boxes are then; whoever
    hears the click after that finds the session over, and leaves the jar alone (`Saved`). What a test reads off the
    page then is the record of these choices. -/

namespace PageWidgets

open Consent Calendar

namespace Widget

open Page

namespace Live

variable {u : Surroundings} {spent : List Nat} {l m : Live} {a : Anchors} {id : Nat} {view : View}

/-- Where there are cookies, a record that was stored is in the jar. -/
theorem jar_of_stored {r : Record} {t : Instant} {j k : Jar} (h : Stored u r t j k)
    (hcookies : u.document = .html ∧ u.cookies = true) (hclock : t.told + 365 * dayMillis ≤ Instant.latest) :
    k = ⟨j.cookies.insert ({} : ConsentSettings).cookieName r.cookieValue⟩ := by
  obtain ⟨header, hheader, hk⟩ := h
  obtain ⟨expiry, hexpiry⟩ := exists_plusDays hclock
  have hname : Nameable ({} : ConsentSettings).cookieName := by
    refine ⟨by decide, by decide, fun c hc => ?_⟩
    have hfirst : some 'f' = some c := hc
    rw [← Option.some.inj hfirst]
    rfl
  have hassigned : (Cookie.ofSettings {}).header r t.told = .ok _ := Cookie.header_of_plusDays hexpiry
  -- A year covers the second that the written date is rounded down by.
  have hlater : ¬expiry.wholeSecond ≤ t.told := by
    have hyear : ∀ c : Int, ¬(c + (365 : Nat) * 86400000) / 1000 * 1000 ≤ c := by
      intro c
      omega
    rw [Cookie.eq_of_plusDays hexpiry]
    exact hyear t.told
  obtain rfl := Except.ok.inj (hassigned.symm.trans hheader)
  rw [hk, if_pos hcookies]
  exact (Jar.store_assignment hname (cookieValue_chars r) j expiry t.told).trans (if_neg fun h => hlater h.2)

/-! ### The press -/

/-- Saving writes the choices, and the overlay waits to be gone. -/
theorem pressControl_save (ho : m.overlay = some ⟨a, {}, ⟨.visible view⟩⟩)
    (hclock : m.page.clock + 365 * dayMillis ≤ Instant.latest) :
    (m.pressControl "save").overlay = some ⟨a, {}, ⟨.dismissing⟩⟩ ∧
      Stored m.page.surroundings (.ofChoices (a.choices m.page)) m.page.now m.page.jar
        (m.pressControl "save").page.jar := by
  let r := Record.ofChoices (a.choices m.page)
  obtain ⟨log, hlog⟩ := answer_eq ho (.apply (.save (a.choices m.page)))
  obtain ⟨log', jar, hpersist, hstored⟩ := persist_eq (l := m.withSession a ⟨.dismissing⟩ log) hclock r
  have hpress : m.pressControl "save" =
      [Effect.persist r, .conceal].foldl applyOverlay (m.withSession a ⟨.dismissing⟩ log) :=
    (pressControl_eq ho "save").trans hlog
  have hfirst : applyOverlay (m.withSession a ⟨.dismissing⟩ log) (.persist r) =
      { m.withSession a ⟨.dismissing⟩ log' with page := { m.page with jar } } := hpersist
  have hedited := Overlay.edited_after ⟨a, {}, ⟨.dismissing⟩⟩ { m.page with jar } .conceal
  have hconceal : ∀ r, Effect.conceal ≠ .persist r := fun _ => nofun
  rw [hpress, List.foldl_cons, hfirst, List.foldl_cons, List.foldl_nil,
    applyOverlay_edits (o := ⟨a, {}, ⟨.dismissing⟩⟩) rfl rfl hconceal, if_pos rfl]
  refine ⟨rfl, ?_⟩
  show Stored m.page.surroundings r m.page.now m.page.jar
    (Overlay.after ⟨a, {}, ⟨.dismissing⟩⟩ { m.page with jar } .conceal).jar
  rw [hedited.jar]
  exact hstored

/-! ### After the press -/

/-- The choice is made: the overlay waits to be gone, and the jar is what it was left as. -/
structure Saved (u : Surroundings) (a : Anchors) (j : Jar) (m : Live) : Prop where
  seated : Seated u m
  overlay : m.overlay = some ⟨a, {}, ⟨.dismissing⟩⟩
  jar : m.page.jar = j

theorem control_or_select_of_hears {x : Handler} (h : x.hears = "click") : (∃ name, x = .control name) ∨ x.OfSelect := by
  cases x with
  | control name => exact .inl ⟨name, rfl⟩
  | ready test => simp [Handler.hears] at h
  | transitionEnd => simp [Handler.hears] at h
  | _ => exact .inr trivial

/-- Whatever control hears the click too finds nothing to do. -/
theorem pressControl_of_dismissing (ho : m.overlay = some ⟨a, {}, ⟨.dismissing⟩⟩) (name : String) :
    m.pressControl name = m := by
  rw [pressControl_eq ho, Anchors.asked]
  cases (if name = "save" then some (Action.save (a.choices m.page)) else Action.ofControl? name) with
  | none => rfl
  | some action => exact answer_rest (s := ⟨.dismissing⟩) (c := .apply action) ho (by cases action <;> rfl)

theorem select_bypasses (h : Seated u l) (e : Event) {x : Handler} (hx : x.OfSelect) :
    Seated u (handle announceChange whenReady e x l).1 ∧ Bypasses l (handle announceChange whenReady e x l).1 :=
  Bypasses.handle Seated.seating_announceChange bypassing_announceChange h whenReady e hx

theorem Saved.kept (j : Jar) {e : Event} (he : e.type = "click") (ss : List Stop) :
    Kept (handle announceChange whenReady) e ss (Saved u a j) Usual := by
  refine ⟨fun m hm x hx => usual_of_seated hm.seated hx, fun m x _ hx hears honce => ?_, fun m x hm hx hears => ?_⟩
  · rw [hx.lasting (hears.1.trans he) (by decide)] at honce
    cases honce
  · rcases control_or_select_of_hears (hx.1.symm.trans (hears.1.trans he)) with ⟨name, hcontrol⟩ | hselect
    · rw [hcontrol]
      show Saved u a j (m.pressControl name)
      rw [pressControl_of_dismissing hm.overlay]
      exact hm
    · obtain ⟨hseated, hbypasses⟩ := select_bypasses hm.seated e hselect
      exact ⟨hseated, hbypasses.overlay.trans hm.overlay, hbypasses.jar.trans hm.jar⟩

/-! ### Before the press -/

theorem call_cases {h : Event → Handler → Live → Live × Bool} {e : Event} {x : Listener} (honce : x.once = false)
    (at_ : Live × Bool) : (call h e at_ x).1 = at_.1 ∨ (call h e at_ x).1 = (h e x.handler at_.1).1 := by
  unfold call
  dsimp only
  split
  · rw [honce]
    exact .inr rfl
  · exact .inl rfl

/-- Whoever hears the click but no control leaves the overlay, the boxes and the jar as they are. -/
theorem calls_bypass {e : Event} {xs : List Listener}
    (hxs : ∀ x ∈ xs, Usual x ∧ x.type = "click" ∧ x.handler.ofControl = false) {at_ : Live × Bool}
    (h : Seated u at_.1 ∧ Bypasses l at_.1) :
    Seated u (xs.foldl (call (handle announceChange whenReady) e) at_).1 ∧
      Bypasses l (xs.foldl (call (handle announceChange whenReady) e) at_).1 := by
  induction xs generalizing at_ with
  | nil => exact h
  | cons x xs ih =>
    obtain ⟨husual, hclick, hother⟩ := hxs x List.mem_cons_self
    refine ih (fun y hy => hxs y (List.mem_cons_of_mem x hy)) ?_
    rcases call_cases (h := handle announceChange whenReady) (e := e) (husual.lasting hclick (by decide)) at_ with heq | heq
    · rw [heq]
      exact h
    · rcases control_or_select_of_hears (husual.1.symm.trans hclick) with ⟨name, hcontrol⟩ | hselect
      · rw [hcontrol] at hother
        cases hother
      · rw [heq]
        obtain ⟨hseated, hbypasses⟩ := select_bypasses h.1 e hselect
        exact ⟨hseated, h.2.trans hbypasses⟩

theorem descent_bypasses (ha : a.Served l) {e : Event} (he : e.type = "click") {ss : List Stop}
    (hss : ∀ s ∈ ss, s.capture = true) (at_ : Live × Bool) (h : Seated u at_.1 ∧ Bypasses l at_.1) :
    Seated u (ss.foldl (visit (handle announceChange whenReady) e) at_).1 ∧
      Bypasses l (ss.foldl (visit (handle announceChange whenReady) e) at_).1 := by
  induction ss generalizing at_ with
  | nil => exact h
  | cons s ss ih =>
    refine ih (fun t ht => hss t (List.mem_cons_of_mem s ht)) _ (calls_bypass (fun x hx => ?_) h)
    obtain ⟨hmem, hcond⟩ := List.mem_filter.mp hx
    have hheard : x.place = s.place ∧ x.type = e.type ∧ x.capture = s.capture := by simpa using hcond
    refine ⟨usual_of_seated h.1 hmem, hheard.2.1.trans he, ?_⟩
    rw [Bool.eq_false_iff]
    intro hcontrol
    -- Controls do not listen on the way down.
    obtain ⟨c, -, hc⟩ := exists_control (ha.goes h.2.attends).controls (mem_controlListeners.mpr ⟨hmem, hcontrol⟩)
    have hcapture : x.capture = false := by
      rw [hc]
      rfl
    exact absurd (hcapture.symm.trans (hheard.2.2.trans (hss s List.mem_cons_self))) (by decide)

/-! ### The click -/

theorem exists_listener {xs : List Listener} {cs : List (String × Nat)}
    (hxs : List.Forall₂ (fun x c => x = controlListener x.id c) xs cs) {c : String × Nat} (hc : c ∈ cs) :
    ∃ x ∈ xs, x = controlListener x.id c := by
  induction hxs with
  | nil => exact absurd hc List.not_mem_nil
  | cons heq _ ih =>
    rcases List.mem_cons.mp hc with rfl | hc
    · exact ⟨_, List.mem_cons_self, heq⟩
    · obtain ⟨x, hx, heq⟩ := ih hc
      exact ⟨x, List.mem_cons_of_mem _ hx, heq⟩

/-- Of the controls that hear a click at the one that saves, this is the first: no element is two controls. -/
theorem exists_first_control (ha : a.Served m) (hsave : ("save", id) ∈ a.controls) {e : Event} (he : e.type = "click") :
    ∃ x before after, m.listeners.filter (fun y => y.place = .element id ∧ y.type = e.type ∧ y.capture = false) =
        before ++ x :: after ∧
      x ∈ m.controlListeners ∧ x = controlListener x.id ("save", id) ∧ ∀ y ∈ before, y.handler.ofControl = false := by
  obtain ⟨y, hy, hlistener⟩ := exists_listener ha.controls hsave
  have hheard : y ∈ m.listeners.filter fun y => y.place = .element id ∧ y.type = e.type ∧ y.capture = false := by
    refine List.mem_filter.mpr ⟨(mem_controlListeners.mp hy).1, ?_⟩
    rw [hlistener]
    simp [controlListener, he]
  obtain ⟨x, hx⟩ := Option.isSome_iff_exists.mp
    (List.find?_isSome (p := fun y => y.handler.ofControl).mpr ⟨y, hheard, (mem_controlListeners.mp hy).2⟩)
  obtain ⟨hcontrol, before, after, hsplit, hbefore⟩ := List.find?_eq_some_iff_append.mp hx
  obtain ⟨hmem, hcond⟩ := List.mem_filter.mp (List.mem_of_find?_eq_some hx)
  have hfirst : x ∈ m.controlListeners := mem_controlListeners.mpr ⟨hmem, hcontrol⟩
  refine ⟨x, before, after, hsplit, hfirst, ?_, fun z hz => by simpa using hbefore z hz⟩
  obtain ⟨c, hc, heq⟩ := exists_control ha.controls hfirst
  have hplace : x.place = .element id := (of_decide_eq_true hcond).1
  have hid : c.2 = id := by
    rw [heq] at hplace
    exact Target.element.inj hplace
  have hname : c.1 = "save" := ha.named c hc _ hsave hid
  rw [← hname, ← hid]
  exact heq

theorem saved_at_target (ha : a.Served l) (ho : l.overlay = some ⟨a, {}, ⟨.visible view⟩⟩)
    (hsave : ("save", id) ∈ a.controls) (hclock : l.page.clock + 365 * dayMillis ≤ Instant.latest) {e : Event}
    (he : e.type = "click") {at_ : Live × Bool} (h : Seated u at_.1 ∧ Bypasses l at_.1) :
    ∃ j, Saved u a j (visit (handle announceChange whenReady) e at_ ⟨.element id, false⟩).1 ∧
      Stored u (.ofChoices (a.choices l.page)) l.page.now l.page.jar j := by
  -- Those who hear the click before the control that saves bypass the overlay, and those after it find the session over.
  obtain ⟨x, before, after, hsplit, hcontrol, hlistener, hbefore⟩ := exists_first_control (ha.goes h.2.attends) hsave he
  have hheard : ∀ y ∈ before ++ x :: after, Usual y ∧ Hears e [⟨.element id, false⟩] y := by
    rw [← hsplit]
    intro y hy
    obtain ⟨hmem, hcond⟩ := List.mem_filter.mp hy
    obtain ⟨hplace, htype, -⟩ := of_decide_eq_true hcond
    exact ⟨usual_of_seated h.1 hmem, htype, _, List.mem_singleton_self _, hplace⟩
  let m := before.foldl (call (handle announceChange whenReady) e) at_
  obtain ⟨hseated, hbypasses⟩ : Seated u m.1 ∧ Bypasses l m.1 := by
    refine calls_bypass (fun y hy => ?_) h
    obtain ⟨husual, hears⟩ := hheard y (List.mem_append_left _ hy)
    exact ⟨husual, hears.1.trans he, hbefore y hy⟩
  have hpressed : (call (handle announceChange whenReady) e m x).1 = m.1.pressControl "save" := by
    have hthere : x ∈ m.1.listeners := by
      rw [h.2.attends.controls, ← hbypasses.attends.controls] at hcontrol
      exact (mem_controlListeners.mp hcontrol).1
    have honce : x.once = false := by
      rw [hlistener]
      rfl
    have hcall : call (handle announceChange whenReady) e (m.1, m.2) x = _ := call_of_mem hthere honce
    have hhandler : x.handler = .control "save" := by
      rw [hlistener]
      rfl
    rw [hhandler] at hcall
    exact congrArg Prod.fst hcall
  have hsame : m.1.page.clock = l.page.clock := congrArg Instant.told hbypasses.untouched.now
  obtain ⟨hoverlay, hstored⟩ := pressControl_save (hbypasses.overlay.trans ho) (hsame ▸ hclock)
  rw [hseated.surroundings, hbypasses.untouched.choices, hbypasses.untouched.now, hbypasses.jar] at hstored
  have hvisit : visit (handle announceChange whenReady) e at_ ⟨.element id, false⟩ =
      after.foldl (call (handle announceChange whenReady) e) (call (handle announceChange whenReady) e m x) := by
    unfold visit
    rw [hsplit, List.foldl_append, List.foldl_cons]
  refine ⟨_, ?_, hstored⟩
  rw [hvisit]
  refine (Saved.kept _ he _).calls_keep
    (fun y hy => hheard y (List.mem_append_right _ (List.mem_cons_of_mem x hy))) ?_
  rw [hpressed]
  exact ⟨hseated.pressControl "save", hoverlay, rfl⟩

/-- A click that reaches the control that saves stores the choices as they are when it comes. -/
theorem saved_dispatch (h : Attended u spent l) (ho : l.overlay = some ⟨a, {}, ⟨.visible view⟩⟩)
    (hsave : ("save", id) ∈ a.controls) (hclock : l.page.clock + 365 * dayMillis ≤ Instant.latest) :
    ∃ j, Saved u a j (l.dispatch ⟨"click", .element id, true, true, none⟩).1 ∧
      Stored u (.ofChoices (a.choices l.page)) l.page.now l.page.jar j := by
  let e : Event := ⟨"click", .element id, true, true, none⟩
  let above := (l.page.route e.target).dropLast
  let down := above.map (Stop.mk · true) ++ [⟨.element id, true⟩]
  let up := above.reverse.map (Stop.mk · false)
  have hstops : l.page.stops e = down ++ ⟨.element id, false⟩ :: up := by
    simp [stops, down, up, above, e]
  have hdown : ∀ s ∈ down, s.capture = true := by
    intro s hs
    rcases List.mem_append.mp hs with hs | hs
    · obtain ⟨t, -, rfl⟩ := List.mem_map.mp hs
      rfl
    · rw [List.mem_singleton.mp hs]
  have ha := h.overlay _ ho
  have harrived := descent_bypasses ha (e := e) rfl hdown (l, false) ⟨h.seated, .refl l⟩
  obtain ⟨j, hsaved, hstored⟩ := saved_at_target ha ho hsave hclock (e := e) rfl harrived
  refine ⟨j, ?_, hstored⟩
  unfold dispatch deliver
  rw [hstops, List.foldl_append, List.foldl_cons]
  exact (Saved.kept j rfl up).visits_keep (fun _ hs => hs) hsaved

theorem Saved.flip {j : Jar} (h : Saved u a j m) (id : Nat) : Saved u a j (m.flip id) :=
  ⟨h.seated.flip id, h.overlay, h.jar⟩

/-- The live page as those who hear a click find it: a checkbox is turned over by then. -/
def clicked (l : Live) (id : Nat) : Live := if (l.page.element id).isCheckbox then l.flip id else l

theorem overlay_clicked (l : Live) (id : Nat) : (l.clicked id).overlay = l.overlay := by
  unfold clicked
  split <;> rfl

theorem attended_clicked (h : Attended u spent l) (id : Nat) : Attended u spent (l.clicked id) := by
  unfold clicked
  split
  · exact h.flip id
  · exact h

theorem saved_click (h : Attended u spent l) (ho : l.overlay = some ⟨a, {}, ⟨.visible view⟩⟩)
    (hsave : ("save", id) ∈ a.controls) (hactive : (l.page.element id).isInert = false)
    (hclock : l.page.clock + 365 * dayMillis ≤ Instant.latest) :
    ∃ j, Saved u a j (l.click id).1 ∧
      Stored u (.ofChoices (a.choices (l.clicked id).page)) l.page.now l.page.jar j := by
  unfold click clicked
  simp only [hactive, Bool.false_eq_true, if_false]
  split
  · obtain ⟨j, hsaved, hstored⟩ := saved_dispatch (h.flip id) ho hsave hclock
    refine ⟨j, ?_, hstored⟩
    dsimp only
    split
    · exact hsaved.flip id
    · exact hsaved
  · exact saved_dispatch h ho hsave hclock

/-! ### What tests see -/

/-- A cookie in the jar that grants what is necessary is told as it was stored. -/
theorem Saved.consentState {j : Jar} (h : Saved u a j m) (hlegible : j.Legible)
    (hcookies : u.window = true ∧ u.document = .html ∧ u.cookies = true) {r : Record} (hr : r.GrantsNecessary)
    (hstored : j.cookies.get? ({} : ConsentSettings).cookieName = some r.cookieValue) :
    m.consentState = ⟨true, some r, none, some .dismissing⟩ := by
  obtain ⟨hwindow, hdocument, hallowed⟩ := hcookies
  have hread : m.page.cookies = j.document := by
    unfold cookies hasDocument
    rw [h.seated.surroundings, hwindow, hdocument, hallowed, h.jar]
    rfl
  have hphase : m.phase? = some .dismissing := by
    unfold phase?
    rw [h.overlay]
    rfl
  unfold Live.consentState State.ofDocument
  rw [hread, Jar.findCookie_document hlegible, hstored, hphase]
  dsimp only
  rw [Record.decode_of_grants hr]

/-- Saving tells the toggles: while the overlay is visible, a click on its control that saves leaves a record that
    grants what is necessary, for every other category what the last input with it said, and nothing else. -/
def SavesToggles (l : Live) : Prop :=
  ∀ o view save, l.overlay = some o → o.session.phase = .visible view → ("save", save) ∈ o.anchors.controls →
    (l.page.element save).isInert = false →
    ∃ granted : NameMap Bool,
      (l.click save).1.consentState = ⟨true, some (.categories granted), none, some .dismissing⟩ ∧
      ∀ name, granted.get? name = if name = necessary then some true else
        ((l.clicked save).page.categoryInputs o.anchors.overlay name).getLast?.map fun i =>
          ((l.clicked save).page.element i).checked

/-- Whatever inputs a page has, whatever is in its jar and whatever has come about since, saving tells the toggles as
    long as the calendar holds the date on which the cookie ends. Past the calendar it does, since the program takes the
    year to be 1970 then. -/
theorem saving_tells_toggles {p : Page} (hp : p.WellFormed) (stores : List (String × Instant))
    (hjar : p.jar = Jar.empty.storeAll stores)
    (hcookies : p.surroundings.window = true ∧ p.surroundings.document = .html ∧ p.surroundings.cookies = true)
    (ts : List Turn) (hclock : ((ofPage p).turnAll ts).page.clock + 365 * dayMillis ≤ Instant.latest) :
    ((ofPage p).turnAll ts).SavesToggles := by
  intro o view save ho hvisible hsave hactive
  have hlegible : p.jar.Legible := hjar ▸ Jar.Legible.empty.storeAll stores
  obtain ⟨spent, h⟩ := attended_turnAll hp hlegible ts
  generalize (ofPage p).turnAll ts = l at *
  obtain ⟨a, settings, ⟨phase⟩⟩ := o
  obtain rfl : settings = {} := (h.seated.overlay _ ho).1
  obtain rfl : phase = .visible view := hvisible
  obtain ⟨j, hsaved, hstored⟩ := saved_click h ho hsave hactive hclock
  have hinserted := jar_of_stored hstored hcookies.2 hclock
  have hreadable : j.Legible := by
    obtain ⟨header, -, hj⟩ := hstored
    rw [hj, if_pos hcookies.2]
    exact h.legible.store header _
  let granted := (a.choices (l.clicked save).page).insert necessary true
  refine ⟨granted, ?_, fun name => ?_⟩
  · refine hsaved.consentState (r := .categories granted) hreadable hcookies ?_ ?_
    · exact (NameMap.get?_insert _ necessary necessary true).trans (if_pos rfl)
    · rw [hinserted]
      exact (NameMap.get?_insert _ _ _ _).trans (if_pos rfl)
  · have htoggles := (attended_clicked h save).overlay _ ((overlay_clicked l save).trans ho)
    rw [NameMap.get?_insert, Anchors.get?_choices htoggles.toggles]
    simp only [eq_comm]

/-- An input with a category. -/
def categoryInput (category : String) (attrs : List (String × String)) : Markup :=
  .element "input" true (("type", "checkbox") :: ("data-cookie-category", category) :: attrs) []

/-- An overlay with a category that two inputs have, a blank one, the necessary one and one with signs in its name. -/
def manyToggles (now : Instant) : Page :=
  ({ (default : Page) with now } : Page).withDocument (.element "html" true [] [.element "body" true []
    [.element "div" true [("id", "cookieConsent")]
      [categoryInput " statistics" [("checked", "")], categoryInput "statistics " [],
       categoryInput " " [("checked", "")], categoryInput "necessary" [], categoryInput "50%; new" [],
       .element "button" true [("data-cookie-consent", "accept")] [],
       .element "button" true [("data-cookie-consent", "save")] []]]])

theorem wellFormed_manyToggles (now : Instant) : (manyToggles now).WellFormed :=
  (wellFormed_default.congr (q := { (default : Page) with now }) rfl rfl).withDocument _

/-- Somebody assigns a cookie, the overlay is set up, and the last of its boxes is checked. -/
def choosing : List Turn := [.cookie "theme=dark", .deed .consent, .check 7 true]

/-- Of two inputs with a category the last one counts, a blank category is none, and what is necessary is granted. -/
def TellsLastToggle (s : State) : Prop :=
  ∃ granted : NameMap Bool, s = ⟨true, some (.categories granted), none, some .dismissing⟩ ∧
    granted.get? "statistics" = some false ∧ granted.get? "" = none ∧ granted.get? "necessary" = some true ∧
      granted.get? "50%; new" = some true

/-- Saving tells the last toggle in 1970 and right after the last year alike. -/
theorem saving_tells_last_toggle :
    TellsLastToggle (((ofPage (manyToggles 0)).turnAll choosing).click 9).1.consentState ∧
      TellsLastToggle (((ofPage (manyToggles (Instant.latest + 1))).turnAll choosing).click 9).1.consentState := by
  have hseen : ∀ now ∈ [0, Instant.latest + 1],
      let l := (ofPage (manyToggles now)).turnAll choosing
      l.overlay.map (fun o => (o.session.phase, o.anchors.controls, o.anchors.overlay)) =
          some (.visible .summary, [("accept", 8), ("save", 9)], 2) ∧
        (l.page.element 9).isInert = false ∧ l.page.clock + 365 * dayMillis ≤ Instant.latest ∧
        ∀ e ∈ [("statistics", some false), ("", none), ("50%; new", some true)],
          (((l.clicked 9).page.categoryInputs 2 e.1).getLast?.map fun i => ((l.clicked 9).page.element i).checked) =
            e.2 := by
    decide +kernel
  have htells : ∀ now ∈ [0, Instant.latest + 1],
      TellsLastToggle (((ofPage (manyToggles now)).turnAll choosing).click 9).1.consentState := by
    intro now hnow
    obtain ⟨hoverlay, hactive, hclock, hlast⟩ := hseen now hnow
    obtain ⟨o, ho, heq⟩ := Option.map_eq_some_iff.mp hoverlay
    obtain ⟨hphase, hcontrols, hroot⟩ : o.session.phase = .visible .summary ∧
        o.anchors.controls = [("accept", 8), ("save", 9)] ∧ o.anchors.overlay = 2 := by simpa using heq
    obtain ⟨granted, hstate, hgranted⟩ := saving_tells_toggles (wellFormed_manyToggles now) [] rfl
      ⟨rfl, rfl, rfl⟩ choosing hclock o .summary 9 ho hphase (by rw [hcontrols]; decide) hactive
    rw [hroot] at hgranted
    have htold : ∀ e ∈ [("statistics", some false), ("", none), ("50%; new", some true)], granted.get? e.1 = e.2 := by
      intro e he
      have hother : ∀ e ∈ [("statistics", some false), ("", none), ("50%; new", some true)], e.1 ≠ necessary := by decide
      rw [hgranted, if_neg (hother e he)]
      exact hlast e he
    refine ⟨granted, hstate, htold ("statistics", _) (by decide), htold ("", _) (by decide), ?_,
      htold ("50%; new", _) (by decide)⟩
    exact (hgranted _).trans (if_pos rfl)
  exact ⟨htells _ (by decide), htells _ (by decide)⟩

/-- In the last year of the calendar there is no date for the cookie to end on. Saving ends the program then, and tells
    nothing. -/
theorem saving_lost_in_last_year :
    let late := manyToggles Instant.latest
    let l := (ofPage late).turnAll choosing
    late.WellFormed ∧ late.jar = Jar.empty.storeAll [] ∧
      (late.surroundings.window = true ∧ late.surroundings.document = .html ∧ late.surroundings.cookies = true) ∧
      (l.click 9).1.page.overflowed = true ∧ ¬l.SavesToggles := by
  have hrun :
      let l := (ofPage (manyToggles Instant.latest)).turnAll choosing
      l.overlay.map (fun o => (o.session.phase, o.anchors.controls)) =
          some (.visible .summary, [("accept", 8), ("save", 9)]) ∧
        (l.page.element 9).isInert = false ∧ (l.click 9).1.page.overflowed = true ∧
        (l.click 9).1.consentState = ⟨false, none, none, some .dismissing⟩ := by
    decide +kernel
  obtain ⟨hseen, hactive, hoverflowed, hstate⟩ := hrun
  refine ⟨wellFormed_manyToggles _, rfl, ⟨rfl, rfl, rfl⟩, hoverflowed, fun h => ?_⟩
  obtain ⟨o, ho, heq⟩ := Option.map_eq_some_iff.mp hseen
  obtain ⟨hphase, hcontrols⟩ := Prod.mk.inj heq
  obtain ⟨granted, htold, -⟩ := h o .summary 9 ho hphase (by rw [hcontrols]; decide) hactive
  rw [hstate] at htold
  cases htold

end Live
end Widget
end PageWidgets
