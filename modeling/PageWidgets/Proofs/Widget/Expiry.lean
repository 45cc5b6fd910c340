import PageWidgets.Proofs.Consent.Naming
import PageWidgets.Proofs.Consent.Session
import PageWidgets.Proofs.Widget.OverlayRuns

/-! When a choice outlives the calendar. The check of settings asks that a choice is kept for a day at least, and sets no
    limit to the days. As long as the calendar holds the expiry date, a decision writes its cookie and goes on to conceal
    the overlay. Past that there is no date to write: the decision ends the program, with the session already gone from
    its visible phase. -/

namespace PageWidgets

open Calendar Consent

/-! ### Expiry dates -/

namespace Calendar.Instant

theorem plusDays?_eq {t : Instant} (ht : 0 ≤ t) (n : Nat) :
    t.plusDays? n = if t + n * dayMillis ≤ latest then some (t + n * dayMillis) else none := by
  have hearliest : earliest ≤ 0 := by decide
  have hsum : 0 ≤ t + n * dayMillis := Int.add_nonneg ht (Int.mul_nonneg (Int.natCast_nonneg n) (by decide))
  simp only [plusDays?, inRange, Bool.and_eq_true, decide_eq_true_eq, Int.le_trans hearliest hsum, true_and]

/-- So many days after any instant of a year of four digits, the calendar goes on. -/
theorem le_latest_of_days_le {t : Instant} (ht : t < 253402300800000) {n : Nat} (hn : n ≤ 92093340) :
    t + n * dayMillis ≤ latest := by
  have hlatest : latest = 8210266876799999 := by decide
  have hsum : ∀ a : Int, a < 253402300800000 → a + n * 86400000 ≤ 8210266876799999 := by
    intro a ha
    omega
  rw [hlatest]
  exact hsum t ht

end Calendar.Instant

namespace Consent

namespace Cookie

variable {c : Cookie} {now : Instant}

theorem expiresAt_eq (hnow : 0 ≤ now) : c.expiresAt now =
    if now + c.durationDays * dayMillis ≤ Instant.latest then .ok (now + c.durationDays * dayMillis)
    else .error .dateOverflow := by
  rw [expiresAt, Instant.plusDays?_eq hnow]
  by_cases h : now + c.durationDays * dayMillis ≤ Instant.latest
  · rw [if_pos h, if_pos h]
  · rw [if_neg h, if_neg h]

theorem header_eq (hnow : 0 ≤ now) (r : Record) : c.header r now =
    if now + c.durationDays * dayMillis ≤ Instant.latest then
      .ok (assignment c.name r.cookieValue (now + c.durationDays * dayMillis))
    else .error .dateOverflow := by
  rw [header, expiresAt_eq hnow]
  by_cases h : now + c.durationDays * dayMillis ≤ Instant.latest
  · rw [if_pos h, if_pos h]
  · rw [if_neg h, if_neg h]

end Cookie
end Consent

namespace Widget.Live

variable {l : Live} {a : Anchors} {settings : ConsentSettings} {action : Action} {r : Record} {view : View}

/-- A decision on a visible overlay writes the cookie, and what is left to do then is to conceal the overlay. -/
theorem performAction_of_decision? (hr : Session.Call.decision? (.apply action) = some r)
    (ho : l.overlay = some ⟨a, settings, ⟨.visible view⟩⟩) : ∃ log, l.performAction action =
      (({ l with overlay := some ⟨a, settings, ⟨.dismissing⟩⟩, log } : Live).persist (.ofSettings settings) r).applyOverlay
        .conceal := by
  obtain ⟨log, hlog⟩ := answer_eq ho (.apply action)
  rw [Session.answer, Session.apply_of_decision? hr] at hlog
  exact ⟨log, hlog⟩

/-- Assigning a cookie is no business of the overlay's, and it overflows nothing. -/
theorem assignCookie_spec {m : Live} (h : m.page = l.page) (assignment : String) :
    (m.assignCookie assignment).overlay = m.overlay ∧
      (m.assignCookie assignment).page = (l.assignCookie assignment).page ∧
      (m.assignCookie assignment).page.overflowed = l.page.overflowed := by
  unfold assignCookie
  rw [h]
  split
  · split
    · exact ⟨rfl, rfl, rfl⟩
    · exact ⟨rfl, h, congrArg Page.overflowed h⟩
  · exact ⟨rfl, h, congrArg Page.overflowed h⟩

theorem overflowed_applyOverlay_conceal (l : Live) : (l.applyOverlay .conceal).page.overflowed = l.page.overflowed := by
  unfold applyOverlay
  cases l.overlay with
  | none => rfl
  | some o =>
    have hedited := Page.edited_perform l.page (o.edits l.page .conceal)
    dsimp only
    split
    · next q f hq =>
      rw [hq] at hedited
      exact hedited.overflowed
    · next q hq =>
      rw [hq] at hedited
      exact hedited.overflowed

/-- When there is an assignment to keep the decision, it is made, and the overlay goes. -/
theorem performAction_of_header (hr : Session.Call.decision? (.apply action) = some r)
    (ho : l.overlay = some ⟨a, settings, ⟨.visible view⟩⟩) {header : String}
    (hheader : (Cookie.ofSettings settings).header r l.page.clock = .ok header) :
    ∃ m : Live, l.performAction action = m.applyOverlay .conceal ∧ m.phase? = some .dismissing ∧
      m.page = (l.assignCookie header).page ∧ (l.performAction action).page.overflowed = l.page.overflowed := by
  obtain ⟨log, hlog⟩ := performAction_of_decision? hr ho
  rw [persist, hheader] at hlog
  obtain ⟨hoverlay, hpage, hoverflowed⟩ := assignCookie_spec (l := l)
    (m := { l with overlay := some ⟨a, settings, ⟨.dismissing⟩⟩, log }) rfl header
  refine ⟨_, hlog, ?_, hpage, ?_⟩
  · rw [phase?, hoverlay]
    rfl
  · rw [hlog, overflowed_applyOverlay_conceal]
    exact hoverflowed

/-- When there is none, the program ends. -/
theorem performAction_of_no_header (hr : Session.Call.decision? (.apply action) = some r)
    (ho : l.overlay = some ⟨a, settings, ⟨.visible view⟩⟩) {f : DateOverflow}
    (hheader : (Cookie.ofSettings settings).header r l.page.clock = .error f) :
    (l.performAction action).page.overflowed = true := by
  obtain ⟨log, hlog⟩ := performAction_of_decision? hr ho
  rw [hlog, overflowed_applyOverlay_conceal, persist, hheader]

end Widget.Live

namespace Widget

/-- With settings that were accepted, a decision is kept just as long as the calendar holds its expiry date. Then its
    assignment is made, a session that is visible stores it and goes on to conceal the overlay, and so does the page;
    some ninety million days are never too many. When the calendar ends before the expiry date, the decision ends the
    program instead. -/
theorem decision_kept_within_calendar {text : String} {s : Settings} (hs : Settings.ofJson text = .ok s) {now : Instant}
    (hfrom : 0 ≤ now) (hto : now < 253402300800000) {action : Action} {r : Record}
    (hr : Session.Call.decision? (.apply action) = some r) :
    let c := Cookie.ofSettings s.consent
    let expiry : Instant := now + s.consent.durationDays * dayMillis
    (s.consent.durationDays ≤ 92093340 → expiry ≤ Instant.latest) ∧
    (expiry ≤ Instant.latest → c.expiresAt now = .ok expiry ∧ ∃ header, c.header r now = .ok header ∧
      (Nameable c.name → ∀ stores, findCookie ((Jar.empty.storeAll stores).store header now).document c.name =
        some r.cookieValue) ∧
      (∀ (v : Visits) (view : View), v.session = some ⟨.visible view⟩ →
        v.step s.consent (.control (some action)) now = .ok (⟨v.jar.store header now, some ⟨.dismissing⟩⟩,
          ⟨none, [.persist r, .conceal], some header⟩)) ∧
      ∀ (l : Live) (a : Anchors) (view : View), l.overlay = some ⟨a, s.consent, ⟨.visible view⟩⟩ → l.page.clock = now →
        ∃ m : Live, l.performAction action = m.applyOverlay .conceal ∧ m.phase? = some .dismissing ∧
          m.page = (l.assignCookie header).page ∧ (l.performAction action).page.overflowed = l.page.overflowed) ∧
    (Instant.latest < expiry → c.expiresAt now = .error .dateOverflow ∧ c.header r now = .error .dateOverflow ∧
      (∀ (v : Visits) (view : View), v.session = some ⟨.visible view⟩ →
        v.step s.consent (.control (some action)) now = .error .dateOverflow) ∧
      ∀ (l : Live) (a : Anchors) (view : View), l.overlay = some ⟨a, s.consent, ⟨.visible view⟩⟩ → l.page.clock = now →
        (l.performAction action).page.overflowed = true) := by
  intro c expiry
  refine ⟨fun hdays => Instant.le_latest_of_days_le hto hdays, fun hexpiry => ?_, fun hexpiry => ?_⟩
  · have hheader : c.header r now = .ok (Cookie.assignment c.name r.cookieValue expiry) := by
      rw [Cookie.header_eq hfrom]
      exact if_pos hexpiry
    refine ⟨(Cookie.expiresAt_eq hfrom).trans (if_pos hexpiry), _, hheader, fun hname stores => ?_, fun v view hv => ?_,
      fun l a view ho hclock => ?_⟩
    · have hrange : (now.plusDays? c.durationDays).isSome = true := by
        rw [Instant.plusDays?_eq hfrom]
        exact congrArg Option.isSome (if_pos hexpiry)
      obtain ⟨header, hheader', -, hfound⟩ := Jar.overlayRequired_store_header hname
        (Settings.admitted_of_ofJson hs).lasting hrange stores r
      obtain rfl := Except.ok.inj (hheader.symm.trans hheader')
      exact hfound
    · rw [Visits.step_of_decision? hr hv, show (Cookie.ofSettings s.consent).header r now = _ from hheader]
      rfl
    · exact Live.performAction_of_header hr ho (by rw [hclock]; exact hheader)
  · have hheader : c.header r now = .error .dateOverflow := by
      rw [Cookie.header_eq hfrom]
      exact if_neg (Int.not_le.mpr hexpiry)
    refine ⟨(Cookie.expiresAt_eq hfrom).trans (if_neg (Int.not_le.mpr hexpiry)), hheader, fun v view hv => ?_,
      fun l a view ho hclock => ?_⟩
    · rw [Visits.step_of_decision? hr hv, show (Cookie.ofSettings s.consent).header r now = _ from hheader]
      rfl
    · exact Live.performAction_of_no_header hr ho (by rw [hclock]; exact hheader)

/-- Settings that keep a choice for as many days as a document can say. -/
def endlessSettings : Settings := { consent := { durationDays := 4294967295 } }

def endlessDocument : String := "\x7b\"consent\": \x7b\"duration_days\": 4294967295\x7d\x7d"

theorem ofJson_endlessDocument : Settings.ofJson endlessDocument = .ok endlessSettings := by decide +kernel

/-- With the settings as they are without a document's say, accepting is kept for a year; kept for as many days as a
    document can say, it ends the program. -/
theorem decision_kept_for_a_year :
    Settings.ofJson "\x7b\x7d" = .ok {} ∧
      (∃ header, (Cookie.ofSettings {}).header .accepted 1740830401000 = .ok header ∧
        ((⟨.empty, some ⟨.visible .settings⟩⟩ : Visits).step {} (.control (some .accept)) 1740830401000).map (·.1) =
          .ok ⟨Jar.empty.store header 1740830401000, some ⟨.dismissing⟩⟩) ∧
      Settings.ofJson endlessDocument = .ok endlessSettings ∧
      (⟨.empty, some ⟨.visible .settings⟩⟩ : Visits).step endlessSettings.consent (.control (some .accept))
        1740830401000 = .error .dateOverflow := by
  have hdefault : Settings.ofJson "\x7b\x7d" = .ok {} := by decide +kernel
  have hdecision : Session.Call.decision? (.apply .accept) = some .accepted := rfl
  have hfrom : (0 : Instant) ≤ 1740830401000 := by decide
  have hto : (1740830401000 : Instant) < 253402300800000 := by decide
  obtain ⟨hlong, hkept, -⟩ := decision_kept_within_calendar hdefault hfrom hto hdecision
  obtain ⟨-, -, hlost⟩ := decision_kept_within_calendar ofJson_endlessDocument hfrom hto hdecision
  obtain ⟨-, header, hheader, -, hstep, -⟩ := hkept (hlong (by decide))
  obtain ⟨-, -, hfails, -⟩ := hlost (by decide)
  refine ⟨hdefault, ⟨header, hheader, ?_⟩, ofJson_endlessDocument, hfails _ .settings rfl⟩
  rw [hstep ⟨.empty, some ⟨.visible .settings⟩⟩ .settings rfl]
  rfl

/-- Not every accepted document lets a decision be kept. -/
theorem decision_lost_past_calendar : ¬∀ (text : String) (s : Settings), Settings.ofJson text = .ok s →
    ∀ now : Instant, 0 ≤ now → now < 253402300800000 →
      ∀ r : Record, ∃ header, (Cookie.ofSettings s.consent).header r now = .ok header := by
  intro h
  obtain ⟨header, hheader⟩ :=
    h endlessDocument endlessSettings ofJson_endlessDocument 1740830401000 (by decide) (by decide) .accepted
  rw [Cookie.header_eq (by decide), if_neg (by decide)] at hheader
  cases hheader

end Widget
end PageWidgets
