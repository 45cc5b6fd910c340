import Mathlib.Data.List.Forall2
import PageWidgets.Proofs.Consent.Cookie
import PageWidgets.Proofs.Consent.Session
import PageWidgets.Proofs.Page.Tree
import PageWidgets.Proofs.Widget.Delivery
import PageWidgets.Proofs.Widget.OverlayFace

/-! The consent overlay at work. Every event is a list of calls on its session, which can be read off the way of the
    event and the controls (`Anchors.heard`); the timer is one more. Each call leaves a page that shows the phase the
    session is in, so after any occasions the page agrees with the session that answered all their calls. -/

namespace PageWidgets

/-! ### The time that is told -/

namespace Calendar.Instant

theorem earliest_le_told (t : Instant) : earliest ≤ t.told := by
  unfold told
  split
  · next h => exact (Bool.and_eq_true_iff.mp h).1 |> of_decide_eq_true
  · decide

/-- The time that is told leaves a year in the calendar where the clock does. -/
theorem told_add_year_le {t : Instant} (h : t + 365 * dayMillis ≤ latest) : t.told + 365 * dayMillis ≤ latest := by
  unfold told
  split
  · exact h
  · decide

end Calendar.Instant

namespace Widget

open Consent Calendar Page

/-! ### Calls -/

namespace Anchors

/-- What the control of that name asks of the session. -/
def asked (a : Anchors) (p : Page) (name : String) : Option Session.Call :=
  (if name = "save" then some (.save (a.choices p)) else Action.ofControl? name).map .apply

/-- The calls that an event makes at one of its stops: clicks those of the controls there, and the end of the
    overlay's own transition that of its teardown. -/
def heardAt (a : Anchors) (p : Page) (e : Event) (s : Stop) : List Session.Call :=
  if s.capture then []
  else if e.type = "click" then
    (a.controls.filter fun c => s.place = .element c.2).flatMap fun c => (a.asked p c.1).toList
  else if e.type = "transitionend" ∧ s.place = .element a.overlay ∧ e.target = .element a.overlay then
    [.finishTeardown]
  else []

/-- The calls that an event makes on its way. -/
def heard (a : Anchors) (p : Page) (e : Event) : List Session.Call := (p.stops e).flatMap (a.heardAt p e)

/-- The calls that an occasion makes. A click on a checkbox is heard with the box turned over. -/
def calls (a : Anchors) (l : Live) : Occasion → List Session.Call
  | .click id =>
    let e := l.page.element id
    if e.isInert then []
    else a.heard (if e.isCheckbox then (l.flip id).page else l.page) ⟨"click", .element id, true, true, none⟩
  | .event e => a.heard l.page e
  | .pick _ _ => []
  | .pass ms =>
    match l.timer with
    | some due => if due ≤ l.page.now + ms then [.finishTeardown] else []
    | none => []

/-- The calls that occasions make, one after the other. -/
def history (a : Anchors) : Live → List Occasion → List Session.Call
  | _, [] => []
  | l, o :: os => a.calls l o ++ a.history (l.meet o) os

end Anchors

namespace Live

/-- The session of the overlay answers a call. -/
def answer (l : Live) (c : Session.Call) : Live := l.callOverlay (·.answer c)

/-! ### The work of a call -/

section
variable {l : Live} {o : Overlay}

theorem applyOverlay_edits (ho : l.overlay = some o) (hs : o.settings = {}) {effect : Effect}
    (heffect : ∀ r, effect ≠ .persist r) : l.applyOverlay effect =
      if effect = .conceal then { l with page := o.after l.page effect }.armTeardown o
      else { l with page := o.after l.page effect } := by
  unfold applyOverlay
  rw [ho]
  cases effect with
  | persist r => exact absurd rfl (heffect r)
  | _ => simp only [Overlay.perform_edits hs]

/-- Effects that neither write nor conceal only change the page. -/
theorem foldl_applyOverlay (ho : l.overlay = some o) (hs : o.settings = {}) (effects : List Effect)
    (heffects : ∀ e ∈ effects, (∀ r, e ≠ .persist r) ∧ e ≠ .conceal) :
    effects.foldl applyOverlay l = { l with page := effects.foldl o.after l.page } := by
  induction effects generalizing l with
  | nil => rfl
  | cons e effects ih =>
    obtain ⟨hpersist, hconceal⟩ := heffects e List.mem_cons_self
    rw [List.foldl_cons, List.foldl_cons, applyOverlay_edits ho hs hpersist, if_neg hconceal]
    exact ih ho fun f hf => heffects f (List.mem_cons_of_mem e hf)

theorem foldl_noteRecord (l : Live) (effects : List Effect) :
    ∃ log, effects.foldl noteRecord l = { l with log } := by
  induction effects generalizing l with
  | nil => exact ⟨l.log, rfl⟩
  | cons e effects ih =>
    have hone : ∃ log, noteRecord l e = { l with log } := by
      cases e <;> exact ⟨_, rfl⟩
    obtain ⟨log, hlog⟩ := hone
    obtain ⟨log', hlog'⟩ := ih { l with log }
    exact ⟨log', by rw [List.foldl_cons, hlog, hlog']⟩

/-- A call sets the session and does the work on what is otherwise the same live page, up to the log. -/
theorem answer_eq {s : Session} {a : Anchors} {settings : ConsentSettings} (ho : l.overlay = some ⟨a, settings, s⟩)
    (c : Session.Call) : ∃ log, l.answer c =
      (s.answer c).2.foldl applyOverlay { l with overlay := some ⟨a, settings, (s.answer c).1⟩, log } := by
  obtain ⟨log, hlog⟩ := foldl_noteRecord { l with overlay := some ⟨a, settings, (s.answer c).1⟩ } (s.answer c).2
  refine ⟨log, ?_⟩
  unfold answer callOverlay
  rw [ho]
  exact congrArg (fun m => (s.answer c).2.foldl applyOverlay m) hlog

end

/-! ### Writing the cookie -/

/-- One jar is the other with a record stored at an instant, where the page takes cookies. -/
def Stored (u : Surroundings) (r : Record) (t : Instant) (j k : Jar) : Prop :=
  ∃ header, (Cookie.ofSettings {}).header r t.told = .ok header ∧
    k = if u.document = .html ∧ u.cookies = true then j.store header t.told else j

/-- A year ahead of the time that is told is told too, unless that is past the end of the range. -/
theorem exists_plusDays {t : Instant} (h : t.told + 365 * dayMillis ≤ Instant.latest) :
    ∃ u, Instant.plusDays? t.told 365 = some u := by
  have hearliest : Instant.earliest ≤ t.told + (365 : Nat) * dayMillis :=
    Int.le_trans (Instant.earliest_le_told t) (Int.le_add_of_nonneg_right (by decide))
  have hlater : Instant.inRange (t.told + (365 : Nat) * dayMillis) = true := by
    simp only [Instant.inRange, Bool.and_eq_true, decide_eq_true_eq]
    exact ⟨hearliest, h⟩
  exact ⟨_, if_pos hlater⟩

theorem persist_eq {l : Live} (h : l.page.clock + 365 * dayMillis ≤ Instant.latest) (r : Record) :
    ∃ log jar, l.persist (.ofSettings {}) r = { l with page := { l.page with jar }, log } ∧
      Stored l.page.surroundings r l.page.now l.page.jar jar := by
  obtain ⟨u, hu⟩ := exists_plusDays h
  have hheader : (Cookie.ofSettings {}).header r l.page.now.told = .ok _ := Cookie.header_of_plusDays hu
  unfold persist clock
  rw [hheader]
  unfold assignCookie
  by_cases hhtml : l.page.surroundings.document = .html
  · by_cases hcookies : l.page.surroundings.cookies = true
    · exact ⟨l.log, _, by simp only [if_pos hhtml, if_pos hcookies]; rfl, _, hheader,
        (if_pos ⟨hhtml, hcookies⟩).symm⟩
    · exact ⟨_, l.page.jar, by simp only [if_pos hhtml, if_neg hcookies]; rfl, _, hheader,
        (if_neg fun both => hcookies both.2).symm⟩
  · exact ⟨l.log, l.page.jar, by simp only [if_neg hhtml], _, hheader, (if_neg fun both => hhtml both.1).symm⟩

/-- The records that were written between two pages: none, or one at an instant between them. -/
inductive Wrote (p q : Page) : List Record → Prop where
  | nothing (jar : q.jar = p.jar) : Wrote p q []
  | once {r : Record} {t : Instant} (since : p.now ≤ t) (before : t ≤ q.now)
      (stored : Stored p.surroundings r t p.jar q.jar) : Wrote p q [r]

/-! ### The invariant -/

/-- The listener that a control gets. -/
def controlListener (n : Nat) (c : String × Nat) : Listener :=
  ⟨n, .element c.2, "click", false, true, false, .control c.1⟩

/-- The listener that waits for the end of the overlay's transition. -/
def endListener (a : Anchors) (n : Nat) : Listener :=
  ⟨n, .element a.overlay, "transitionend", false, true, false, .transitionEnd⟩

/-- The overlay runs with that session: the controls are listened to, and so is the end of the transition at the
    latest when the session waits for it. -/
structure Running (a : Anchors) (base : List Listener) (l : Live) (s : Session) : Prop where
  overlay : l.overlay = some ⟨a, {}, s⟩
  controls : List.Forall₂ (fun x c => x = controlListener x.id c) base a.controls
  listeners : l.listeners = base ∧ s.phase ≠ .dismissing ∨ ∃ n, l.listeners = base ++ [endListener a n]
  timer : ∀ due, l.timer = some due → l.page.now ≤ due

/-- A page that came from page `p` agrees with the session, `last` being the last view that was visible and `rs`
    the records that were written. -/
structure Agrees (p : Page) (a : Anchors) (q : Page) (s : Session) (last : Option View) (rs : List Record) :
    Prop where
  fits : a.Fits q
  shows : a.Shows q s.phase last
  surroundings : q.surroundings = p.surroundings
  since : p.now ≤ q.now
  overflowed : q.overflowed = p.overflowed
  wrote : Wrote p q rs
  unwritten : s.isVisible = true → rs = []

section
variable {p q r : Page} {a : Anchors} {base : List Listener} {l : Live} {s t : Session} {last last' : Option View}
  {rs : List Record}

theorem Wrote.later (h : Wrote p q rs) (hjar : r.jar = q.jar) (hnow : q.now ≤ r.now) : Wrote p r rs := by
  cases h with
  | nothing jar => exact .nothing (hjar.trans jar)
  | once since before stored => exact .once since (Int.le_trans before hnow) (hjar ▸ stored)

/-- Edits that leave the body where it is keep what is not shown. -/
theorem Agrees.edited (h : Agrees p a q s last rs) (hedited : Edited q r) (hbody : r.body? = q.body?)
    (hshows : a.Shows r t.phase last') (hvisible : t.isVisible = true → s.isVisible = true) :
    Agrees p a r t last' rs where
  fits := h.fits.congr hedited.length hbody
  shows := hshows
  surroundings := hedited.surroundings.trans h.surroundings
  since := by rw [hedited.now]; exact h.since
  overflowed := hedited.overflowed.trans h.overflowed
  wrote := h.wrote.later hedited.jar (Int.le_of_eq hedited.now.symm)
  unwritten := fun ht => h.unwritten (hvisible ht)

theorem Agrees.switch (h : Agrees p a q s last rs) {v : View} (hv : s.phase = .visible v) (w : View) :
    Agrees p a ([Effect.showView w, .focusView w].foldl (Overlay.after ⟨a, {}, ⟨.visible w⟩⟩) q) ⟨.visible w⟩
      (some w) rs := by
  let o : Overlay := ⟨a, {}, ⟨.visible w⟩⟩
  have ho : o.settings = {} := rfl
  have hshows := h.shows
  rw [hv] at hshows
  obtain _ | ⟨hrevealed, -, -⟩ := hshows
  have hfits : a.Fits (o.after q (.showView w)) := Overlay.fits_after ho h.fits
  refine h.edited ((o.edited_after q _).trans (o.edited_after _ _))
    ((Overlay.body?_after ho _ _).trans (Overlay.body?_after ho _ _)) (.visible ?_ ?_ ?_) fun _ => ?_
  · exact Overlay.revealed_after ho hfits ⟨nofun, nofun⟩ (Overlay.revealed_after ho h.fits ⟨nofun, nofun⟩ hrevealed)
  · exact Overlay.viewing_focusView ho hfits (Overlay.viewing_showView ho h.fits w)
  · exact Overlay.marked_after ho hfits ⟨nofun, nofun⟩ (Overlay.marked_showView ho h.fits w)
  · simp [Session.isVisible, Session.view?, hv]

theorem Agrees.clear (h : Agrees p a q s last rs) (hs : s.phase = .dismissing) :
    Agrees p a (Overlay.after ⟨a, {}, ⟨.hidden⟩⟩ q .clearViewMarker) ⟨.hidden⟩ last rs := by
  let o : Overlay := ⟨a, {}, ⟨.hidden⟩⟩
  have ho : o.settings = {} := rfl
  have hshows := h.shows
  rw [hs] at hshows
  obtain _ | _ | ⟨hconcealed, -⟩ := hshows
  refine h.edited (o.edited_after q _) (Overlay.body?_after ho _ _) (.hidden ?_ ?_) fun ht => by cases ht
  · exact Overlay.revealed_after ho h.fits ⟨nofun, nofun⟩ hconcealed
  · exact Overlay.marked_clearViewMarker ho h.fits

theorem Agrees.dismiss (h : Agrees p a q s last rs) {v : View} (hv : s.phase = .visible v) {jar : Jar} {record : Record}
    (hjar : Stored q.surroundings record q.now q.jar jar) :
    Agrees p a (Overlay.after ⟨a, {}, ⟨.dismissing⟩⟩ { q with jar } .conceal) ⟨.dismissing⟩ last [record] := by
  let o : Overlay := ⟨a, {}, ⟨.dismissing⟩⟩
  have ho : o.settings = {} := rfl
  have hvisible : s.isVisible = true := by simp [Session.isVisible, Session.view?, hv]
  have hshows := h.shows
  rw [hv] at hshows
  obtain _ | ⟨-, -, hmarked⟩ := hshows
  have hwrote := h.wrote
  rw [h.unwritten hvisible] at hwrote
  obtain ⟨hsame⟩ := hwrote
  have hfits : a.Fits { q with jar } := h.fits.congr rfl rfl
  have hedited := o.edited_after { q with jar } .conceal
  exact
    { fits := hfits.congr hedited.length (Overlay.body?_after ho _ _)
      shows := .dismissing (Overlay.revealed_conceal ho hfits) (Overlay.marked_after ho hfits ⟨nofun, nofun⟩ hmarked)
      surroundings := hedited.surroundings.trans h.surroundings
      since := by rw [hedited.now]; exact h.since
      overflowed := hedited.overflowed.trans h.overflowed
      wrote := by
        refine .once h.since (Int.le_of_eq hedited.now.symm) ?_
        rw [hedited.jar, ← h.surroundings, ← hsame]
        exact hjar
      unwritten := nofun }

theorem exists_control {xs : List Listener} {cs : List (String × Nat)}
    (hxs : List.Forall₂ (fun x c => x = controlListener x.id c) xs cs) {x : Listener} (hx : x ∈ xs) :
    ∃ c ∈ cs, x = controlListener x.id c := by
  induction hxs with
  | nil => exact absurd hx List.not_mem_nil
  | cons heq _ ih =>
    rcases List.mem_cons.mp hx with rfl | hx
    · exact ⟨_, List.mem_cons_self, heq⟩
    · obtain ⟨c, hc, heq⟩ := ih hx
      exact ⟨c, List.mem_cons_of_mem _ hc, heq⟩

theorem Running.of_mem_base (h : Running a base l s) {x : Listener} (hx : x ∈ base) :
    ∃ c ∈ a.controls, x = controlListener x.id c :=
  exists_control h.controls hx

theorem Running.unlisten (h : Running a base l s) : (l.unlisten (· = .transitionEnd)).listeners = base := by
  have hbase : base.filter (fun x => !decide (x.handler = .transitionEnd)) = base := by
    rw [List.filter_eq_self]
    intro x hx
    obtain ⟨c, -, hcontrol⟩ := h.of_mem_base hx
    rw [hcontrol]
    rfl
  show l.listeners.filter (fun x => !decide (x.handler = .transitionEnd)) = base
  rcases h.listeners with ⟨heq, -⟩ | ⟨n, heq⟩
  · rw [heq, hbase]
  · rw [heq, List.filter_append, hbase]
    simp [endListener]

/-- Nothing but the page, the session and the log is different. -/
theorem Running.same (h : Running a base l s) {m : Live} (hlisteners : m.listeners = l.listeners)
    (htimer : m.timer = l.timer) (hnow : m.page.now = l.page.now) (hm : m.overlay = some ⟨a, {}, t⟩)
    (hphase : s.phase ≠ .dismissing → t.phase ≠ .dismissing) : Running a base m t where
  overlay := hm
  controls := h.controls
  listeners := by
    rw [hlisteners]
    rcases h.listeners with ⟨heq, hs⟩ | hlast
    · exact .inl ⟨heq, hphase hs⟩
    · exact .inr hlast
  timer := by rw [htimer, hnow]; exact h.timer

end

/-- A live page on which the overlay runs and the page agrees with its session. -/
structure Lived (p : Page) (a : Anchors) (base : List Listener) (l : Live) (s : Session) (last : Option View)
    (rs : List Record) : Prop where
  running : Running a base l s
  agrees : Agrees p a l.page s last rs

section
variable {p : Page} {a : Anchors} {base : List Listener} {l m : Live} {s : Session}
  {last last' : Option View} {rs : List Record}

/-- What a call of the session leaves as it was. -/
structure Untouched (l m : Live) : Prop where
  now : m.page.now = l.page.now
  checked : ∀ id, (m.page.element id).checked = (l.page.element id).checked

theorem Untouched.choices (h : Untouched l m) (a : Anchors) : a.choices m.page = a.choices l.page := by
  unfold Anchors.choices
  simp only [h.checked]

/-- The live page of a call, before its work: only the session and the log are set. -/
def withSession (l : Live) (a : Anchors) (s : Session) (log : Log) : Live := { l with overlay := some ⟨a, {}, s⟩, log }

/-- Work that neither writes nor conceals, on a page that agrees with the session after it. -/
theorem Running.edit (h : Running a base l s) {t : Session} (log : Log) (effects : List Effect)
    (heffects : ∀ e ∈ effects, (∀ r, e ≠ .persist r) ∧ e ≠ .conceal) (ht : t.phase ≠ .dismissing)
    (hagrees : Agrees p a (effects.foldl (Overlay.after ⟨a, {}, t⟩) l.page) t last' rs) :
    Lived p a base (effects.foldl applyOverlay (l.withSession a t log)) t last' rs ∧
      Untouched l (effects.foldl applyOverlay (l.withSession a t log)) := by
  have hedited : ∀ (effects : List Effect) (q : Page), Edited q (effects.foldl (Overlay.after ⟨a, {}, t⟩) q) := by
    intro effects
    induction effects with
    | nil => exact Edited.refl
    | cons e effects ih => exact fun q => (Overlay.edited_after _ q e).trans (ih _)
  have hpage := hedited effects l.page
  rw [foldl_applyOverlay (l := l.withSession a t log) rfl rfl effects heffects]
  exact ⟨⟨h.same rfl rfl hpage.now rfl fun _ => ht, hagrees⟩, hpage.now, hpage.checked⟩

/-- The work of a decision: the record is written, and the overlay waits to be gone. -/
theorem Lived.dismiss (h : Lived p a base l s last rs) (hclock : l.page.now + 365 * dayMillis ≤ Instant.latest)
    {v : View} (hv : s.phase = .visible v) (log : Log) (r : Record) :
    Lived p a base ([Effect.persist r, .conceal].foldl applyOverlay (l.withSession a ⟨.dismissing⟩ log)) ⟨.dismissing⟩
        last [r] ∧
      Untouched l ([Effect.persist r, .conceal].foldl applyOverlay (l.withSession a ⟨.dismissing⟩ log)) := by
  obtain ⟨log', jar, hpersist, hstored⟩ := persist_eq (l := l.withSession a ⟨.dismissing⟩ log)
    (Instant.told_add_year_le hclock) r
  have hfirst : applyOverlay (l.withSession a ⟨.dismissing⟩ log) (.persist r) =
      { l.withSession a ⟨.dismissing⟩ log' with page := { l.page with jar } } := hpersist
  have hedited := Overlay.edited_after ⟨a, {}, ⟨.dismissing⟩⟩ { l.page with jar } .conceal
  have hconceal : ∀ r, Effect.conceal ≠ .persist r := fun _ => nofun
  rw [List.foldl_cons, hfirst, List.foldl_cons, List.foldl_nil,
    applyOverlay_edits (o := ⟨a, {}, ⟨.dismissing⟩⟩) rfl rfl hconceal, if_pos rfl]
  refine ⟨⟨⟨rfl, h.running.controls, .inr ⟨l.nextListener, ?_⟩, ?_⟩, h.agrees.dismiss hv hstored⟩, hedited.now,
    hedited.checked⟩
  · exact congrArg (· ++ [endListener a l.nextListener]) h.running.unlisten
  · rintro due hdue
    obtain rfl := Option.some.inj hdue
    exact Int.le_add_of_nonneg_right (Int.natCast_nonneg _)

/-- One call keeps the page in agreement with the session. -/
theorem Lived.step (h : Lived p a base l s last rs) (hclock : l.page.now + 365 * dayMillis ≤ Instant.latest)
    {c : Session.Call} (hc : c ≠ .show_) :
    Lived p a base (l.answer c) (s.answer c).1 ((s.answer c).1.view?.or last)
      (rs ++ (s.answer c).2.filterMap Effect.record?) ∧ Untouched l (l.answer c) := by
  obtain ⟨log, hlog⟩ := answer_eq h.running.overlay c
  rw [hlog]
  rcases s.answer_cases hc with hrest | ⟨v, w, hv, hswitch⟩ | ⟨v, r, hv, hdismiss⟩ | ⟨hs, hclear⟩
  · rw [hrest]
    have hlast : s.view?.or last = last := by
      have hshows := h.agrees.shows
      unfold Session.view?
      cases hphase : s.phase with
      | visible v =>
        rw [hphase] at hshows
        cases hshows
        rfl
      | hidden => rfl
      | dismissing => rfl
    rw [hlast, List.filterMap_nil, List.append_nil]
    exact ⟨⟨h.running.same rfl rfl rfl rfl id, h.agrees⟩, rfl, fun _ => rfl⟩
  · have hnone : [Effect.showView w, .focusView w].filterMap Effect.record? = [] := rfl
    rw [hswitch, Session.switchTo, hnone, List.append_nil]
    exact h.running.edit log _ (by simp) (by simp) (h.agrees.switch hv w)
  · have hvisible : s.isVisible = true := by simp [Session.isVisible, Session.view?, hv]
    rw [hdismiss, Session.dismiss, h.agrees.unwritten hvisible]
    exact h.dismiss hclock hv log r
  · have hnone : [Effect.clearViewMarker].filterMap Effect.record? = [] := rfl
    rw [hclear, hnone, List.append_nil]
    exact h.running.edit log _ (by simp) (by simp) (h.agrees.clear hs)

theorem Untouched.trans {n : Live} (h : Untouched l m) (h' : Untouched m n) : Untouched l n :=
  ⟨h'.now.trans h.now, fun id => (h'.checked id).trans (h.checked id)⟩

/-- Calls one after the other keep the page in agreement with the session that answers them all. -/
theorem Lived.steps (h : Lived p a base l s last rs) (hclock : l.page.now + 365 * dayMillis ≤ Instant.latest)
    (calls : List Session.Call) (hcalls : ∀ c ∈ calls, c ≠ .show_) :
    Lived p a base (calls.foldl answer l) (s.run calls).1 (s.lastView last calls) (rs ++ s.records calls) ∧
      Untouched l (calls.foldl answer l) := by
  induction calls generalizing l s last rs with
  | nil =>
    have hnone : s.records [] = [] := rfl
    rw [hnone, List.append_nil]
    exact ⟨h, rfl, fun _ => rfl⟩
  | cons c calls ih =>
    obtain ⟨hone, hsame⟩ := h.step hclock (hcalls c List.mem_cons_self)
    obtain ⟨hrest, hlater⟩ := ih hone (by rw [hsame.now]; exact hclock) fun d hd =>
      hcalls d (List.mem_cons_of_mem c hd)
    rw [Session.records_cons, ← List.append_assoc]
    exact ⟨hrest, hsame.trans hlater⟩

/-! ### Events -/

/-- A call that the session has no work for changes nothing. -/
theorem answer_rest (ho : l.overlay = some ⟨a, {}, s⟩) {c : Session.Call} (hc : s.answer c = (s, [])) :
    l.answer c = l := by
  obtain ⟨log, hlog⟩ := answer_eq ho c
  unfold answer callOverlay
  rw [ho]
  have hsame : ({ l with overlay := some ⟨a, {}, s⟩ } : Live) = l := by
    rw [← ho]
  simp only [hc]
  exact hsame

theorem pressControl_eq (ho : l.overlay = some ⟨a, {}, s⟩) (name : String) :
    l.pressControl name = (a.asked l.page name).toList.foldl answer l := by
  unfold pressControl
  rw [ho, Anchors.asked]
  dsimp only
  cases (if name = "save" then some (Action.save (a.choices l.page)) else Action.ofControl? name) with
  | none => rfl
  | some action => rfl

section
variable {announce : Live → Nat → Live} {ready : Bool → Live → Live} {e : Event} {stop : Stop}

/-- The controls at a stop hear a click, each as the others left the live page. -/
theorem Lived.controls_hear (h : Lived p a base l s last rs)
    (hclock : l.page.now + 365 * dayMillis ≤ Instant.latest) {q : Page} (hq : a.choices l.page = a.choices q)
    {xs : List Listener} {cs : List (String × Nat)} (hxs : List.Forall₂ (fun x c => x = controlListener x.id c) xs cs)
    (hmem : ∀ x ∈ xs, x ∈ base) :
    (xs.filter fun x => x.place = stop.place).foldl (call (handle announce ready) e) (l, false) =
      (((cs.filter fun c => stop.place = .element c.2).flatMap fun c => (a.asked q c.1).toList).foldl answer l,
        false) := by
  -- The induction is on the controls. No call touches a box, so each control reads the choices that `q` has.
  induction hxs generalizing l s last rs with
  | nil => rfl
  | @cons x c xs cs hx hrest ih =>
    have hxbase := hmem x List.mem_cons_self
    have hrestbase : ∀ y ∈ xs, y ∈ base := fun y hy => hmem y (List.mem_cons_of_mem x hy)
    by_cases hplace : x.place = stop.place
    · have hcplace : stop.place = .element c.2 := by rw [← hplace, hx]; rfl
      have hthere : x ∈ l.listeners := by
        rcases h.running.listeners with ⟨heq, -⟩ | ⟨n, heq⟩
        · rw [heq]
          exact hxbase
        · rw [heq]
          exact List.mem_append_left _ hxbase
      have hasked : a.asked l.page c.1 = a.asked q c.1 := by
        unfold Anchors.asked
        rw [hq]
      have hcall : call (handle announce ready) e (l, false) x = ((a.asked q c.1).toList.foldl answer l, false) := by
        rw [call_of_mem hthere (by rw [hx]; rfl), hx, ← hasked, ← pressControl_eq h.running.overlay]
        simp [handle, controlListener]
      have hdecided : ∀ d ∈ (a.asked q c.1).toList, d ≠ .show_ := by
        intro d hd
        obtain ⟨action, -, rfl⟩ := Option.map_eq_some_iff.mp (Option.mem_toList.mp hd)
        exact nofun
      obtain ⟨hlived, hsame⟩ := h.steps hclock _ hdecided
      rw [List.filter_cons_of_pos (by simpa using hplace), List.filter_cons_of_pos (by simpa using hcplace),
        List.foldl_cons, hcall, List.flatMap_cons, List.foldl_append]
      exact ih hlived (by rw [hsame.now]; exact hclock) ((hsame.choices a).trans hq) hrestbase
    · have hcplace : ¬stop.place = .element c.2 := by
        intro heq
        rw [hx] at hplace
        exact hplace heq.symm
      rw [List.filter_cons_of_neg (by simpa using hplace), List.filter_cons_of_neg (by simpa using hcplace)]
      exact ih h hclock hq hrestbase

/-- Is the listener called at the stop? -/
def hears (e : Event) (stop : Stop) (x : Listener) : Bool :=
  x.place = stop.place ∧ x.type = e.type ∧ x.capture = stop.capture

theorem visit_of_hears (hear : Event → Handler → Live → Live × Bool) (at_ : Live × Bool) :
    visit hear e at_ stop = (at_.1.listeners.filter (hears e stop)).foldl (call hear e) at_ := rfl

theorem hears_end (a : Anchors) (n : Nat) : hears e stop (endListener a n) = true ↔
    e.type = "transitionend" ∧ stop.place = .element a.overlay ∧ stop.capture = false := by
  simp only [hears, endListener]
  grind

theorem Running.hears_control (h : Running a base l s) {x : Listener} (hx : x ∈ base) :
    hears e stop x = true ↔ e.type = "click" ∧ x.place = stop.place ∧ stop.capture = false := by
  obtain ⟨c, -, hcontrol⟩ := h.of_mem_base hx
  rw [hcontrol]
  simp only [hears, controlListener]
  grind

theorem Running.nobody_hears (h : Running a base l s) (hclick : ¬(e.type = "click" ∧ stop.capture = false))
    (hend : ¬(e.type = "transitionend" ∧ stop.place = .element a.overlay ∧ stop.capture = false)) :
    l.listeners.filter (hears e stop) = [] := by
  rw [List.filter_eq_nil_iff]
  have hbase : ∀ x ∈ base, ¬hears e stop x = true := fun x hx hh =>
    hclick ⟨((h.hears_control hx).mp hh).1, ((h.hears_control hx).mp hh).2.2⟩
  intro x hx
  rcases h.listeners with ⟨heq, -⟩ | ⟨n, heq⟩
  · exact hbase x (heq ▸ hx)
  · rcases List.mem_append.mp (heq ▸ hx) with hx | hx
    · exact hbase x hx
    · rw [List.mem_singleton.mp hx]
      exact fun hh => hend ((hears_end a n).mp hh)

/-- A click at a stop is heard by the controls there. -/
theorem Running.hear_click (h : Running a base l s) (hclick : e.type = "click") (hup : stop.capture = false) :
    l.listeners.filter (hears e stop) = base.filter fun x => x.place = stop.place := by
  have hbase : base.filter (hears e stop) = base.filter fun x => x.place = stop.place := by
    refine List.filter_congr fun x hx => ?_
    rw [Bool.eq_iff_iff, h.hears_control hx, decide_eq_true_iff]
    exact ⟨fun hh => hh.2.1, fun hplace => ⟨hclick, hplace, hup⟩⟩
  rcases h.listeners with ⟨heq, -⟩ | ⟨n, heq⟩
  · rw [heq, hbase]
  · have hlast : ¬hears e stop (endListener a n) = true := by
      intro hh
      have htype := ((hears_end a n).mp hh).1
      rw [hclick] at htype
      exact absurd htype (by decide)
    rw [heq, List.filter_append, hbase, List.filter_cons_of_neg hlast, List.filter_nil, List.append_nil]

/-- The end of a transition is answered when the overlay itself was in it. When nobody waits for it, the session has
    no work for it either. -/
theorem Running.visit_end (h : Running a base l s) (htype : e.type = "transitionend")
    (hplace : stop.place = .element a.overlay) (hup : stop.capture = false) :
    visit (handle announce ready) e (l, false) stop =
      (if e.target = .element a.overlay then l.answer .finishTeardown else l, false) := by
  have hbase : base.filter (hears e stop) = [] := by
    rw [List.filter_eq_nil_iff]
    intro x hx hh
    have hclick := ((h.hears_control hx).mp hh).1
    rw [htype] at hclick
    exact absurd hclick (by decide)
  rw [visit_of_hears]
  rcases h.listeners with ⟨heq, hs⟩ | ⟨n, heq⟩
  · have hrest : s.answer .finishTeardown = (s, []) := by
      obtain ⟨phase⟩ := s
      cases phase with
      | dismissing => exact absurd rfl hs
      | hidden => rfl
      | visible v => rfl
    rw [heq, hbase, answer_rest h.overlay hrest, ite_self]
    rfl
  · have hthere : endListener a n ∈ l.listeners := by
      rw [heq]
      exact List.mem_append_right _ List.mem_cons_self
    have hlast : hears e stop (endListener a n) = true := (hears_end a n).mpr ⟨htype, hplace, hup⟩
    have hhandle : handle announce ready e .transitionEnd l =
        (if e.target = .element a.overlay then l.answer .finishTeardown else l, false) := by
      simp only [handle, h.overlay]
      rfl
    rw [heq, List.filter_append, hbase, List.filter_cons_of_pos hlast, List.filter_nil, List.nil_append,
      List.foldl_cons, List.foldl_nil, call_of_mem hthere rfl]
    show ((handle announce ready e .transitionEnd l).1, false || (handle announce ready e .transitionEnd l).2 && _ && _) = _
    rw [hhandle]
    rfl

/-- At a stop the calls are made that can be read off it. -/
theorem Lived.visit_eq (h : Lived p a base l s last rs) (hclock : l.page.now + 365 * dayMillis ≤ Instant.latest)
    {q : Page} (hq : a.choices l.page = a.choices q) :
    visit (handle announce ready) e (l, false) stop = ((a.heardAt q e stop).foldl answer l, false) := by
  have hrunning := h.running
  rw [Anchors.heardAt]
  by_cases hcapture : stop.capture = true
  · have hdown : ¬stop.capture = false := by simp [hcapture]
    rw [if_pos hcapture, visit_of_hears,
      hrunning.nobody_hears (fun hh => hdown hh.2) fun hh => hdown hh.2.2]
    rfl
  have hup : stop.capture = false := by simpa using hcapture
  rw [if_neg hcapture]
  by_cases hclick : e.type = "click"
  · rw [if_pos hclick, visit_of_hears, hrunning.hear_click hclick hup]
    exact h.controls_hear hclock hq hrunning.controls fun x hx => hx
  rw [if_neg hclick]
  by_cases hend : e.type = "transitionend" ∧ stop.place = .element a.overlay
  · rw [hrunning.visit_end hend.1 hend.2 hup]
    by_cases htarget : e.target = .element a.overlay
    · rw [if_pos htarget, if_pos ⟨hend.1, hend.2, htarget⟩]
      rfl
    · rw [if_neg htarget, if_neg fun hall => htarget hall.2.2]
      rfl
  · rw [if_neg fun hall => hend ⟨hall.1, hall.2.1⟩, visit_of_hears,
      hrunning.nobody_hears (fun hh => hclick hh.1) fun hh => hend ⟨hh.1, hh.2.1⟩]
    rfl

theorem ne_show_of_mem_heard {q : Page} {c : Session.Call} (hc : c ∈ a.heard q e) : c ≠ .show_ := by
  obtain ⟨stop, -, hc⟩ := List.mem_flatMap.mp hc
  unfold Anchors.heardAt at hc
  split at hc
  · exact absurd hc List.not_mem_nil
  · split at hc
    · obtain ⟨control, -, hc⟩ := List.mem_flatMap.mp hc
      obtain ⟨action, -, rfl⟩ := Option.map_eq_some_iff.mp (Option.mem_toList.mp hc)
      exact nofun
    · split at hc
      · rw [List.mem_singleton.mp hc]
        exact nofun
      · exact absurd hc List.not_mem_nil

/-- An event makes the calls that can be read off its way, and its default is not prevented. -/
theorem Lived.deliver_eq (h : Lived p a base l s last rs) (hclock : l.page.now + 365 * dayMillis ≤ Instant.latest) :
    l.deliver (handle announce ready) e = ((a.heard l.page e).foldl answer l, false) := by
  have hvisits : ∀ (stops : List Stop) {m : Live} {t : Session} {last' : Option View} {rs' : List Record},
      Lived p a base m t last' rs' → Untouched l m → (∀ stop ∈ stops, stop ∈ l.page.stops e) →
      stops.foldl (visit (handle announce ready) e) (m, false) =
        ((stops.flatMap (a.heardAt l.page e)).foldl answer m, false) := by
    intro stops
    -- The calls are read off the page as it was before the event: what is carried along is that the clock and the
    -- boxes are as they were.
    induction stops with
    | nil => exact fun _ _ _ => rfl
    | cons stop stops ih =>
      intro m t last' rs' hm hsame hstops
      have hnow : m.page.now + 365 * dayMillis ≤ Instant.latest := by
        rw [hsame.now]
        exact hclock
      have hcalls : ∀ c ∈ a.heardAt l.page e stop, c ≠ .show_ := fun c hc =>
        ne_show_of_mem_heard (List.mem_flatMap.mpr ⟨stop, hstops stop List.mem_cons_self, hc⟩)
      obtain ⟨hlived, hstep⟩ := hm.steps hnow _ hcalls
      rw [List.foldl_cons, hm.visit_eq hnow (hsame.choices a), List.flatMap_cons, List.foldl_append]
      exact ih hlived (hsame.trans hstep) fun other hother => hstops other (List.mem_cons_of_mem stop hother)
  exact hvisits _ h ⟨rfl, fun _ => rfl⟩ fun _ hstop => hstop

end

/-! ### Occasions -/

theorem alike_flip (l : Live) (id : Nat) : Alike l.page (l.flip id).page := .modify fun _ => ⟨rfl, rfl, rfl⟩

/-- The same attributes, later, on the same elements: the overlay runs, and the page agrees with its session. -/
theorem Lived.alike (h : Lived p a base l s last rs) (halike : Alike l.page m.page)
    (hoverlay : m.overlay = l.overlay) (hlisteners : m.listeners = l.listeners) (hnow : l.page.now ≤ m.page.now)
    (htimer : ∀ due, m.timer = some due → m.page.now ≤ due) : Lived p a base m s last rs := by
  have hbody : m.page.body? = l.page.body? :=
    Anchors.body?_congr halike.tree halike.loose fun id => halike.isA id "body"
  constructor
  · exact ⟨hoverlay.trans h.running.overlay, h.running.controls, by rw [hlisteners]; exact h.running.listeners, htimer⟩
  · exact
      { fits := h.agrees.fits.congr halike.length hbody
        shows := h.agrees.shows.congr hbody halike.attr?
        surroundings := halike.surroundings.trans h.agrees.surroundings
        since := Int.le_trans h.agrees.since hnow
        overflowed := halike.overflowed.trans h.agrees.overflowed
        wrote := h.agrees.wrote.later halike.jar hnow
        unwritten := h.agrees.unwritten }

/-- The live page agrees with the session after those calls, at that instant. -/
def Reached (p : Page) (a : Anchors) (base : List Listener) (s : Session) (last : Option View) (rs : List Record)
    (calls : List Session.Call) (now : Instant) (m : Live) : Prop :=
  Lived p a base m (s.run calls).1 (s.lastView last calls) (rs ++ s.records calls) ∧ m.page.now = now

theorem Lived.reached (h : Lived p a base l s last rs) {now : Instant} (hnow : l.page.now = now) :
    Reached p a base s last rs [] now l := by
  have hnone : s.records [] = [] := rfl
  unfold Reached
  rw [hnone, List.append_nil]
  exact ⟨h, hnow⟩

theorem Lived.dispatch (h : Lived p a base l s last rs) (hclock : l.page.now + 365 * dayMillis ≤ Instant.latest)
    (e : Event) :
    (l.dispatch e).2 = false ∧ Reached p a base s last rs (a.heard l.page e) l.page.now (l.dispatch e).1 := by
  obtain ⟨hlived, hsame⟩ := h.steps hclock (a.heard l.page e) fun c hc => ne_show_of_mem_heard hc
  unfold Live.dispatch
  rw [h.deliver_eq hclock]
  exact ⟨rfl, hlived, hsame.now⟩

theorem Lived.click (h : Lived p a base l s last rs) (hclock : l.page.now + 365 * dayMillis ≤ Instant.latest)
    (id : Nat) : Reached p a base s last rs (a.calls l (.click id)) l.page.now (l.click id).1 := by
  unfold Live.click Anchors.calls
  by_cases hinert : (l.page.element id).isInert = true
  · simp only [hinert, if_true]
    exact h.reached rfl
  · by_cases hbox : (l.page.element id).isCheckbox = true
    · have hflip : Lived p a base (l.flip id) s last rs :=
        h.alike (alike_flip l id) rfl rfl (Int.le_refl _) h.running.timer
      obtain ⟨hdefault, hreached⟩ := hflip.dispatch hclock ⟨"click", .element id, true, true, none⟩
      simp only [hinert, hbox, hdefault, if_true, if_false, Bool.false_eq_true]
      exact hreached
    · obtain ⟨-, hreached⟩ := h.dispatch hclock ⟨"click", .element id, true, true, none⟩
      simp only [hinert, hbox, if_false, Bool.false_eq_true]
      exact hreached

theorem heard_changeOf (q : Page) (native : Nat) : a.heard q (changeOf native) = [] := by
  have hclick : (changeOf native).type ≠ "click" := show "change" ≠ "click" by decide
  have hend : (changeOf native).type ≠ "transitionend" := show "change" ≠ "transitionend" by decide
  refine List.flatMap_eq_nil_iff.mpr fun stop _ => ?_
  unfold Anchors.heardAt
  rw [if_neg hclick, if_neg (c := _ ∧ _) fun hall => hend hall.1, ite_self]

theorem Lived.pick (h : Lived p a base l s last rs) (hclock : l.page.now + 365 * dayMillis ≤ Instant.latest)
    (native : Nat) (index : Option Nat) :
    Reached p a base s last rs [] l.page.now (l.pick native index).1 := by
  have hdispatch : ∀ m : Live, Lived p a base m s last rs → m.page.now = l.page.now →
      Reached p a base s last rs [] l.page.now (m.dispatch (changeOf native)).1 := by
    intro m hm hnow
    obtain ⟨-, hreached⟩ := hm.dispatch (by rw [hnow]; exact hclock) (changeOf native)
    rw [heard_changeOf, hnow] at hreached
    exact hreached
  unfold Live.pick
  split
  · obtain ⟨chosen, heq⟩ := l.page.choose_spec native index
    have hnow : (l.page.choose native index).now = l.page.now := by
      rw [heq]
      exact (chooseOnly_spec _ _ _).1.now
    refine hdispatch { l with page := l.page.choose native index } ?_ hnow
    refine h.alike (alike_choose l.page native index) rfl rfl (Int.le_of_eq hnow.symm) fun due hdue => ?_
    exact Int.le_trans (Int.le_of_eq hnow) (h.running.timer due hdue)
  · exact hdispatch l h rfl

/-- Ending the teardown leaves the timer alone. -/
theorem timer_finishTeardown (ho : l.overlay = some ⟨a, {}, s⟩) : (l.answer .finishTeardown).timer = l.timer := by
  obtain ⟨log, hlog⟩ := answer_eq ho .finishTeardown
  rw [hlog]
  obtain ⟨phase⟩ := s
  cases phase with
  | hidden => rfl
  | visible v => rfl
  | dismissing =>
    have hwork := foldl_applyOverlay (l := l.withSession a ⟨.hidden⟩ log) rfl rfl [.clearViewMarker] (by simp)
    exact (congrArg Live.timer hwork).trans rfl

/-- Time goes by, and no timer falls due. -/
theorem Lived.wait (h : Lived p a base l s last rs) {now : Instant} (hnow : l.page.now ≤ now) (timer : Option Instant)
    (htimer : ∀ due, timer = some due → now ≤ due) :
    Lived p a base { l with page := { l.page with now }, timer } s last rs :=
  h.alike ⟨rfl, rfl, rfl, rfl, rfl, rfl, fun _ => rfl, fun _ => rfl, fun _ => rfl⟩ rfl rfl hnow htimer

theorem Lived.advance (h : Lived p a base l s last rs) (ms : Nat)
    (hclock : l.page.now + ms + 365 * dayMillis ≤ Instant.latest) :
    Reached p a base s last rs (a.calls l (.pass ms)) (l.page.now + ms) (l.advance ms) := by
  have hlater : l.page.now ≤ l.page.now + ms := Int.le_add_of_nonneg_right (Int.natCast_nonneg ms)
  unfold Live.advance Anchors.calls
  cases htimer : l.timer with
  | none =>
    refine Lived.reached (h.wait hlater _ fun due hdue => ?_) rfl
    rw [htimer] at hdue
    cases hdue
  | some due =>
    by_cases hdue : due ≤ l.page.now + ms
    · simp only [hdue, if_true]
      have hdueClock : due + 365 * dayMillis ≤ Instant.latest := Int.le_trans (Int.add_le_add_right hdue _) hclock
      have hat := h.wait (h.running.timer due htimer) none nofun
      obtain ⟨hfired, hsame⟩ := hat.steps hdueClock [.finishTeardown] (by simp)
      have hnotimer := timer_finishTeardown hat.running.overlay
      refine ⟨hfired.wait (Int.le_trans (Int.le_of_eq hsame.now) hdue) _ fun d hd => ?_, rfl⟩
      cases hnotimer.symm.trans hd
    · simp only [hdue, if_false]
      refine Lived.reached (h.wait hlater _ fun d hd => ?_) rfl
      rw [htimer] at hd
      cases hd
      exact Int.le_of_lt (Int.not_le.mp hdue)

/-- Whatever happens keeps the page in agreement with the session. -/
theorem Lived.meet (h : Lived p a base l s last rs) (o : Occasion)
    (hclock : l.page.now + o.duration + 365 * dayMillis ≤ Instant.latest) :
    Reached p a base s last rs (a.calls l o) (l.page.now + o.duration) (l.meet o) := by
  have hnow : ∀ o : Occasion, o.duration = 0 → l.page.now + o.duration = l.page.now := by
    intro o ho
    rw [ho]
    exact Int.add_zero _
  cases o with
  | click id =>
    rw [hnow _ rfl] at hclock ⊢
    exact h.click hclock id
  | event e =>
    rw [hnow _ rfl] at hclock ⊢
    exact (h.dispatch hclock e).2
  | pick native index =>
    rw [hnow _ rfl] at hclock ⊢
    exact h.pick hclock native index
  | pass ms => exact h.advance ms hclock

theorem Lived.meetAll (h : Lived p a base l s last rs) (os : List Occasion)
    (hclock : l.page.now + elapsed os + 365 * dayMillis ≤ Instant.latest) :
    Reached p a base s last rs (a.history l os) (l.page.now + elapsed os) (l.meetAll os) := by
  induction os generalizing l s last rs with
  | nil => exact h.reached (Int.add_zero _).symm
  | cons o os ih =>
    have hsum : l.page.now + o.duration + elapsed os = l.page.now + elapsed (o :: os) := by
      simp [elapsed, Int.add_assoc]
    have hfirst : l.page.now + o.duration + 365 * dayMillis ≤ Instant.latest := by
      refine Int.le_trans (Int.add_le_add_right ?_ _) hclock
      rw [← hsum]
      exact Int.le_add_of_nonneg_right (Int.natCast_nonneg _)
    obtain ⟨hlived, hnow⟩ := h.meet o hfirst
    obtain ⟨hrest, hend⟩ := ih hlived (by rw [hnow, hsum]; exact hclock)
    rw [hnow, hsum] at hend
    refine ⟨?_, hend⟩
    rw [Anchors.history, Session.run_append, Session.lastView_append, Session.records_append, ← List.append_assoc]
    exact hrest

end

end Live
end Widget
end PageWidgets
