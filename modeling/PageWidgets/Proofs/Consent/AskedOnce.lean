import PageWidgets.Consent.Visit
import PageWidgets.Proofs.Consent.Cookie

/-! Consent is asked for once. Whatever visitors do, and whatever other cookies are stored, the cookie is in the jar
    exactly when a choice was written since the cookie was last deleted, and while it is there no overlay is visible
    that could write another. -/

namespace PageWidgets
namespace Consent

open Calendar Text

/-! ### Sessions -/

/-- Work that writes the cookie. -/
def Effect.isPersist : Effect → Bool
  | .persist _ => true
  | _ => false

namespace Session

/-- A visible overlay may write a choice and go. Nothing else writes, and an overlay that is not visible stays so. -/
theorem apply_cases (s : Session) (a : Action) :
    (s.isVisible = true ∧ ∃ r, s.apply a = dismiss r) ∨
      ((s.apply a).2.any Effect.isPersist = false ∧ (s.isVisible = false → (s.apply a).1.isVisible = false)) := by
  obtain ⟨phase⟩ := s
  cases phase with
  | hidden => exact .inr ⟨rfl, id⟩
  | dismissing => exact .inr ⟨rfl, id⟩
  | visible view =>
    cases a with
    | customize => exact .inr ⟨rfl, fun h => by cases h⟩
    | back => exact .inr ⟨rfl, fun h => by cases h⟩
    | accept => exact .inl ⟨rfl, _, rfl⟩
    | reject => exact .inl ⟨rfl, _, rfl⟩
    | save choices => exact .inl ⟨rfl, _, rfl⟩

theorem finishTeardown_quiet (s : Session) :
    s.finishTeardown.2.any Effect.isPersist = false ∧ (s.isVisible = false → s.finishTeardown.1.isVisible = false) := by
  obtain ⟨phase⟩ := s
  cases phase with
  | hidden => exact ⟨rfl, id⟩
  | visible view => exact ⟨rfl, id⟩
  | dismissing => exact ⟨rfl, fun _ => rfl⟩

end Session

/-- A page tells that the cookie is there whether or not its value can be decoded. -/
theorem State.present_ofDocument (document cookieName : String) (phase : Option Phase) :
    (State.ofDocument document cookieName phase).present = (findCookie document cookieName).isSome := by
  unfold ofDocument
  split
  · next h => rw [h]; rfl
  · next raw h =>
    rw [h]
    split <;> rfl

namespace Visits

/-! ### Runs -/

/-- A step that was taken: the visits before and after it, and what it led to. -/
structure Entry where
  prior : Visits
  step : Step
  outcome : Outcome
  after : Visits

/-- Takes steps one after the other and notes each. -/
def run (settings : ConsentSettings) (v : Visits) : List (Step × Instant) → Except DateOverflow (List Entry)
  | [] => .ok []
  | (s, now) :: rest =>
    match v.step settings s now with
    | .error e => .error e
    | .ok (w, outcome) =>
      match run settings w rest with
      | .error e => .error e
      | .ok log => .ok (⟨v, s, outcome, w⟩ :: log)

/-- Counts the writings of the cookie since it was last deleted, after one step more. -/
def Entry.count (n : Nat) (e : Entry) : Nat :=
  (if e.step = .delete then 0 else n) + e.outcome.effects.countP Effect.isPersist

/-- How many times the cookie was written since it was last deleted, or since the start. -/
def written (log : List Entry) : Nat := log.foldl Entry.count 0

/-- A step that may be taken at an instant: a choice made then is kept for as long as the settings say, and a cookie
    that someone else stores has another name. -/
structure Admissible (settings : ConsentSettings) (s : Step) (now : Instant) : Prop where
  since_epoch : 0 ≤ now
  in_range : (now.plusDays? settings.durationDays).isSome = true
  other_name : ∀ assignment, s = .store assignment → ∀ e, assigned? assignment = some e → e.1 ≠ settings.cookieName

/-! ### The invariant -/

/-- What `n` writings since the last deletion say of the visits. -/
structure Ledger (settings : ConsentSettings) (n : Nat) (v : Visits) : Prop where
  legible : v.jar.Legible
  at_most_one : n ≤ 1
  present_iff : (v.jar.cookies.get? settings.cookieName).isSome = true ↔ n = 1
  /-- Once a choice is written, no overlay is left to ask again. -/
  settled : n = 1 → v.session.any Session.isVisible = false

namespace Ledger

variable {settings : ConsentSettings} {n : Nat} {v : Visits}

theorem start : Ledger settings 0 start where
  legible := .empty
  at_most_one := by decide
  present_iff := by simp [Visits.start, Jar.empty]
  settled := fun h => by cases h

theorem present (h : Ledger settings n v) : (v.state settings).present = true ↔ n = 1 := by
  rw [← h.present_iff, ← Jar.findCookie_document h.legible, Visits.state, State.present_ofDocument]

theorem overlayRequired (h : Ledger settings n v) :
    overlayRequired v.jar.document settings = true ↔ n = 0 := by
  have hone := h.at_most_one
  have hpresent := h.present_iff
  unfold Consent.overlayRequired
  rw [Jar.hasCookie_document h.legible, Bool.not_eq_true', ← Bool.not_eq_true, hpresent]
  omega

/-- Nothing about the cookie changes, and no overlay asks again. -/
theorem keep (h : Ledger settings n v) {j : Jar} {u : Option Session} (hj : j.Legible)
    (hget : j.cookies.get? settings.cookieName = v.jar.cookies.get? settings.cookieName)
    (hu : n = 1 → u.any Session.isVisible = false) : Ledger settings n ⟨j, u⟩ where
  legible := hj
  at_most_one := h.at_most_one
  present_iff := by rw [hget, h.present_iff]
  settled := hu

/-- The first writing puts the cookie into the jar, and the overlay goes. -/
theorem write {j : Jar} {value : String} (hj : j.Legible)
    (hget : j.cookies.get? settings.cookieName = some value) : Ledger settings 1 ⟨j, some ⟨.dismissing⟩⟩ where
  legible := hj
  at_most_one := Nat.le_refl 1
  present_iff := by simp [hget]
  settled := fun _ => rfl

/-- A deletion starts over, whatever session is left. -/
theorem delete {j : Jar} (hj : j.Legible) (hget : j.cookies.get? settings.cookieName = none) (u : Option Session) :
    Ledger settings 0 ⟨j, u⟩ where
  legible := hj
  at_most_one := Nat.zero_le 1
  present_iff := by simp [hget]
  settled := fun h => by cases h

end Ledger

/-! ### Steps -/

theorem persist_quiet (c : Cookie) (now : Instant) (j : Jar) (last : Option String) {effects : List Effect}
    (h : effects.any Effect.isPersist = false) : persist c now j last effects = .ok (j, last) := by
  induction effects with
  | nil => rfl
  | cons e rest ih =>
    rw [List.any_cons, Bool.or_eq_false_iff] at h
    cases e with
    | persist r => cases h.1
    | reveal => exact ih h.2
    | showView view => exact ih h.2
    | focusView view => exact ih h.2
    | conceal => exact ih h.2
    | clearViewMarker => exact ih h.2

theorem count_quiet {n : Nat} {e : Entry} (hstep : e.step ≠ .delete)
    (h : e.outcome.effects.any Effect.isPersist = false) : e.count n = n := by
  rw [Entry.count, if_neg hstep, List.countP_eq_zero.mpr, Nat.add_zero]
  exact fun x hx hp => by
    rw [List.any_eq_false] at h
    exact h x hx hp

/-- A step whose session work writes nothing leaves the jar as the step itself left it. -/
theorem step_quiet {settings : ConsentSettings} {v : Visits} {s : Step} {now : Instant}
    {u : Option Session} {required : Option Bool} {effects : List Effect}
    (h : v.sessionStep settings s = (u, required, effects)) (hquiet : effects.any Effect.isPersist = false) :
    v.step settings s now =
      .ok (⟨jarStep (.ofSettings settings) v.jar now s, u⟩, ⟨required, effects, none⟩) := by
  simp only [step, h, persist_quiet _ _ _ _ hquiet]

theorem required_of_step {settings : ConsentSettings} {v w : Visits} {s : Step} {now : Instant} {outcome : Outcome}
    (h : v.step settings s now = .ok (w, outcome)) : outcome.required = (v.sessionStep settings s).2.1 := by
  simp only [step] at h
  split at h
  · cases h
  · cases h
    rfl

theorem required_of_visit {settings : ConsentSettings} {v w : Visits} {now : Instant} {outcome : Outcome}
    (h : v.step settings .visit now = .ok (w, outcome)) :
    outcome.required = some (Consent.overlayRequired v.jar.document settings) := by
  rw [required_of_step h]
  simp only [sessionStep]
  split
  · next hrequired => rw [hrequired]
  · next hrequired => rw [Bool.not_eq_true] at hrequired; rw [hrequired]

namespace Ledger

variable {settings : ConsentSettings} {n : Nat} {v : Visits} {s : Step} {now : Instant}

/-- A step that writes nothing and leaves the cookie in the jar alone. -/
theorem quiet (h : Ledger settings n v) (hs : s ≠ .delete) {u : Option Session} {required : Option Bool}
    {effects : List Effect} (hsession : v.sessionStep settings s = (u, required, effects))
    (hquiet : effects.any Effect.isPersist = false)
    (hj : (jarStep (.ofSettings settings) v.jar now s).Legible)
    (hget : (jarStep (.ofSettings settings) v.jar now s).cookies.get? settings.cookieName =
      v.jar.cookies.get? settings.cookieName)
    (hu : n = 1 → u.any Session.isVisible = false) :
    ∃ w outcome, v.step settings s now = .ok (w, outcome) ∧ Ledger settings (Entry.count n ⟨v, s, outcome, w⟩) w := by
  refine ⟨_, _, step_quiet hsession hquiet, ?_⟩
  rw [count_quiet hs hquiet]
  exact h.keep hj hget hu

/-- A call on the session that writes nothing and makes no overlay visible. -/
theorem call (h : Ledger settings n v) (hs : s ≠ .delete) (hjar : jarStep (.ofSettings settings) v.jar now s = v.jar)
    {f : Session → Session × List Effect}
    (hsession : v.sessionStep settings s = ((v.call f).1, none, (v.call f).2))
    (hf : ∀ t, v.session = some t →
      (f t).2.any Effect.isPersist = false ∧ (t.isVisible = false → (f t).1.isVisible = false)) :
    ∃ w outcome, v.step settings s now = .ok (w, outcome) ∧
      Ledger settings (Entry.count n ⟨v, s, outcome, w⟩) w := by
  refine h.quiet hs hsession ?_ (by rw [hjar]; exact h.legible) (by rw [hjar]) fun hn => ?_
  · unfold Visits.call
    cases hv : v.session with
    | none => rfl
    | some t => exact (hf t hv).1
  · have hsettled := h.settled hn
    unfold Visits.call
    cases hv : v.session with
    | none => rfl
    | some t =>
      rw [hv] at hsettled
      simpa using (hf t hv).2 (by simpa using hsettled)

/-- A choice is made on a visible overlay, which there is only before anything was written. -/
theorem dismiss (h : Ledger settings n v) (hname : Nameable settings.cookieName) (hdays : 1 ≤ settings.durationDays)
    {a : Action} (hs : Admissible settings (.control (some a)) now) {t : Session} {r : Record}
    (hv : v.session = some t) (hvisible : t.isVisible = true) (hr : t.apply a = Session.dismiss r) :
    ∃ w outcome, v.step settings (.control (some a)) now = .ok (w, outcome) ∧
      Ledger settings (Entry.count n ⟨v, .control (some a), outcome, w⟩) w := by
  have hn : n = 0 := by
    have hone := h.at_most_one
    have hsettled := h.settled
    rw [hv, Option.any_some, hvisible] at hsettled
    have : n ≠ 1 := fun h => by cases hsettled h
    omega
  subst hn
  obtain ⟨header, hheader, hstore⟩ :=
    Jar.store_header (c := .ofSettings settings) hname hdays hs.in_range v.jar r
  refine ⟨⟨v.jar.store header now, some ⟨.dismissing⟩⟩, ⟨none, [.persist r, .conceal], some header⟩, ?_, ?_⟩
  · simp only [Visits.step, sessionStep, Visits.call, hv, hr, Session.dismiss, persist, hheader, jarStep]
  · exact write (h.legible.store header now) (by rw [hstore]; exact (NameMap.get?_insert _ _ _ _).trans (if_pos rfl))

/-- One step succeeds and keeps the invariant for the new count. -/
theorem step (h : Ledger settings n v) (hname : Nameable settings.cookieName) (hdays : 1 ≤ settings.durationDays)
    (hs : Admissible settings s now) :
    ∃ w outcome, v.step settings s now = .ok (w, outcome) ∧
      Ledger settings (Entry.count n ⟨v, s, outcome, w⟩) w := by
  cases s with
  | visit =>
    cases hrequired : Consent.overlayRequired v.jar.document settings with
    | true =>
      -- The new overlay is visible, and nothing was written.
      have hn := h.overlayRequired.mp hrequired
      exact h.quiet nofun (by simp only [sessionStep, hrequired, if_true]; rfl) rfl h.legible rfl fun hone => by omega
    | false => exact h.quiet nofun (by simp only [sessionStep, hrequired]; rfl) rfl h.legible rfl fun _ => rfl
  | control action =>
    cases action with
    | none => exact h.quiet nofun rfl rfl h.legible rfl h.settled
    | some a =>
      by_cases hdismiss : ∃ t r, v.session = some t ∧ t.isVisible = true ∧ t.apply a = Session.dismiss r
      · obtain ⟨t, r, hv, hvisible, hr⟩ := hdismiss
        exact h.dismiss hname hdays hs hv hvisible hr
      · refine h.call nofun rfl rfl fun t hv => ?_
        rcases t.apply_cases a with ⟨hvisible, r, hr⟩ | hquiet
        · exact absurd ⟨t, r, hv, hvisible, hr⟩ hdismiss
        · exact hquiet
  | finishTeardown => exact h.call nofun rfl rfl fun t _ => t.finishTeardown_quiet
  | store assignment =>
    exact h.quiet nofun rfl rfl (h.legible.store assignment now)
      (Jar.get?_store_of_ne (hs.other_name assignment rfl)) h.settled
  | delete =>
    refine ⟨_, _, step_quiet rfl rfl, ?_⟩
    refine delete (h.legible.store _ now) ?_ v.session
    rw [Jar.store_deletion (c := .ofSettings settings) hname hs.since_epoch v.jar]
    exact (NameMap.get?_erase _ _ _).trans (if_pos rfl)

end Ledger

/-! ### Whole runs -/

/-- Along a run, the invariant holds before and after each step for the count of what came before it. -/
theorem run_spec {settings : ConsentSettings} (hname : Nameable settings.cookieName)
    (hdays : 1 ≤ settings.durationDays) {steps : List (Step × Instant)}
    (hsteps : ∀ x ∈ steps, Admissible settings x.1 x.2) {n : Nat} {v : Visits} (h : Ledger settings n v) :
    ∃ log, run settings v steps = .ok log ∧ log.map Entry.step = steps.map (·.1) ∧
      ∀ before e after, log = before ++ e :: after →
        Ledger settings (before.foldl Entry.count n) e.prior ∧
          Ledger settings (e.count (before.foldl Entry.count n)) e.after ∧
          (e.step = .visit → e.outcome.required = some (overlayRequired e.prior.jar.document settings)) := by
  induction steps generalizing n v with
  | nil =>
    refine ⟨[], rfl, rfl, fun before e after heq => ?_⟩
    simp at heq
  | cons x rest ih =>
    obtain ⟨s, now⟩ := x
    obtain ⟨w, outcome, hstep, hw⟩ := h.step hname hdays (hsteps _ List.mem_cons_self)
    obtain ⟨log, hlog, htaken, hentries⟩ := ih (fun x hx => hsteps x (List.mem_cons_of_mem _ hx)) hw
    refine ⟨⟨v, s, outcome, w⟩ :: log, by simp only [run, hstep, hlog], by simp only [List.map_cons, htaken],
      fun before e after heq => ?_⟩
    cases before with
    | nil =>
      obtain ⟨rfl, -⟩ := List.cons.inj heq
      refine ⟨h, hw, fun hs => ?_⟩
      subst hs
      exact required_of_visit hstep
    | cons b before =>
      obtain ⟨rfl, htail⟩ := List.cons.inj heq
      exact hentries before e after htail

/-- What it is to be asked for consent once. -/
structure AskedOnce (settings : ConsentSettings) (log : List Entry) : Prop where
  /-- A visit finds the overlay needed exactly when nothing was written since the last deletion. -/
  asked : ∀ before e after, log = before ++ e :: after → e.step = .visit →
    e.outcome.required = some (overlayRequired e.prior.jar.document settings) ∧
      (overlayRequired e.prior.jar.document settings = true ↔ written before = 0)
  /-- The cookie is written once at most before it is deleted again. -/
  written_once : ∀ before e after, log = before ++ e :: after → written (before ++ [e]) ≤ 1
  /-- After it was written, and until it is deleted, the page tells that it is there. -/
  told : ∀ before e after, log = before ++ e :: after → 1 ≤ written (before ++ [e]) →
    (e.after.state settings).present = true

theorem written_append (before : List Entry) (e : Entry) : written (before ++ [e]) = e.count (written before) := by
  rw [written, List.foldl_append]
  rfl

/-- Every run from an empty jar asks for consent once, for any times and whatever other cookies are stored. -/
theorem consent_asked_once {settings : ConsentSettings} (hname : Nameable settings.cookieName)
    (hdays : 1 ≤ settings.durationDays) {steps : List (Step × Instant)}
    (hsteps : ∀ x ∈ steps, Admissible settings x.1 x.2) :
    ∃ log, run settings start steps = .ok log ∧ log.map Entry.step = steps.map (·.1) ∧ AskedOnce settings log := by
  obtain ⟨log, hlog, htaken, hentries⟩ := run_spec hname hdays hsteps Ledger.start
  refine ⟨log, hlog, htaken, fun before e after heq hvisit => ?_, fun before e after heq => ?_,
    fun before e after heq hone => ?_⟩
  · obtain ⟨hprior, -, hrequired⟩ := hentries before e after heq
    exact ⟨hrequired hvisit, hprior.overlayRequired⟩
  · obtain ⟨-, hafter, -⟩ := hentries before e after heq
    rw [written_append]
    exact hafter.at_most_one
  · obtain ⟨-, hafter, -⟩ := hentries before e after heq
    rw [written_append] at hone
    exact hafter.present.mpr (Nat.le_antisymm hafter.at_most_one hone)

/-- A visitor who rejects, comes back, deletes the cookie and comes back once more, by a clock that is set back. -/
theorem consent_asked_once_after_reject :
    ∃ log, run {} start [(.visit, 0), (.control (some .reject), 5000), (.store "theme=dark", 9000), (.visit, 1000),
        (.delete, 2000), (.visit, 0)] = .ok log ∧
      log.map Entry.step = [.visit, .control (some .reject), .store "theme=dark", .visit, .delete, .visit] ∧
      AskedOnce {} log := by
  refine consent_asked_once ⟨by decide, by decide, fun c hc => ?_⟩ (by decide) ?_
  · have hfirst : some 'f' = some c := hc
    rw [← Option.some.inj hfirst]
    rfl
  · intro x hx
    simp only [List.mem_cons, List.not_mem_nil, or_false] at hx
    rcases hx with rfl | rfl | rfl | rfl | rfl | rfl
    · exact ⟨by decide, by decide, nofun⟩
    · exact ⟨by decide, by decide, nofun⟩
    · refine ⟨by decide, by decide, fun assignment ha e he => ?_⟩
      cases ha
      have htheme : some ("theme", "dark") = some e := he
      rw [← Option.some.inj htheme]
      decide
    · exact ⟨by decide, by decide, nofun⟩
    · exact ⟨by decide, by decide, nofun⟩
    · exact ⟨by decide, by decide, nofun⟩

end Visits
end Consent
end PageWidgets
