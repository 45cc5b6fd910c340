import PageWidgets.Consent.Visit

/-! What calls make of a session. A visible overlay that is called again and again writes one record, that of the
    first call that decides, and nothing once it is no longer visible (`records_of_visible`). -/

namespace PageWidgets
namespace Consent

/-- The record that an effect writes. -/
def Effect.record? : Effect → Option Record
  | .persist r => some r
  | _ => none

namespace Session

/-- The record that a visible overlay writes when it gets the call: accepting, rejecting and saving decide. -/
def Call.decision? : Call → Option Record
  | .apply .accept => some .accepted
  | .apply .reject => some .rejected
  | .apply (.save choices) => some (.ofChoices choices)
  | _ => none

/-- The view that was visible last after calls, when `last` was so before them. -/
def lastView (s : Session) (last : Option View) : List Call → Option View
  | [] => last
  | c :: calls => (s.answer c).1.lastView ((s.answer c).1.view?.or last) calls

/-- The records that calls make a session write, in order. -/
def records (s : Session) (calls : List Call) : List Record := (s.run calls).2.flatten.filterMap Effect.record?

variable (s : Session)

theorem run_cons (c : Call) (calls : List Call) :
    s.run (c :: calls) = (((s.answer c).1.run calls).1, (s.answer c).2 :: ((s.answer c).1.run calls).2) := rfl

theorem run_append (calls more : List Call) :
    s.run (calls ++ more) = (((s.run calls).1.run more).1, (s.run calls).2 ++ ((s.run calls).1.run more).2) := by
  induction calls generalizing s with
  | nil => rfl
  | cons c calls ih => simp only [List.cons_append, run_cons, ih]

theorem records_cons (c : Call) (calls : List Call) :
    s.records (c :: calls) = (s.answer c).2.filterMap Effect.record? ++ (s.answer c).1.records calls := by
  rw [records, run_cons, List.flatten_cons, List.filterMap_append, records]

theorem records_append (calls more : List Call) :
    s.records (calls ++ more) = s.records calls ++ (s.run calls).1.records more := by
  rw [records, run_append, List.flatten_append, List.filterMap_append, records, records]

theorem lastView_append (last : Option View) (calls more : List Call) :
    s.lastView last (calls ++ more) = (s.run calls).1.lastView (s.lastView last calls) more := by
  induction calls generalizing s last with
  | nil => rfl
  | cons c calls ih => exact ih _ _

variable {s}

/-- A call that does not show the overlay does nothing, or it switches views, decides, or ends the teardown. -/
theorem answer_cases (s : Session) {c : Call} (hc : c ≠ .show_) :
    s.answer c = (s, []) ∨ (∃ v w, s.phase = .visible v ∧ s.answer c = switchTo w) ∨
      (∃ v r, s.phase = .visible v ∧ s.answer c = dismiss r) ∨
      s.phase = .dismissing ∧ s.answer c = (⟨.hidden⟩, [.clearViewMarker]) := by
  obtain ⟨phase⟩ := s
  cases c with
  | show_ => exact absurd rfl hc
  | finishTeardown =>
    cases phase with
    | hidden => exact .inl rfl
    | visible v => exact .inl rfl
    | dismissing => exact .inr (.inr (.inr ⟨rfl, rfl⟩))
  | apply a =>
    cases phase with
    | hidden => exact .inl rfl
    | dismissing => exact .inl rfl
    | visible v =>
      cases a with
      | customize => exact .inr (.inl ⟨v, .settings, rfl, rfl⟩)
      | back => exact .inr (.inl ⟨v, .summary, rfl, rfl⟩)
      | accept => exact .inr (.inr (.inl ⟨v, .accepted, rfl, rfl⟩))
      | reject => exact .inr (.inr (.inl ⟨v, .rejected, rfl, rfl⟩))
      | save choices => exact .inr (.inr (.inl ⟨v, .ofChoices choices, rfl, rfl⟩))

/-- An overlay that is not visible stays so and writes nothing, unless it is shown again. -/
theorem answer_of_not_visible (hs : s.isVisible = false) {c : Call} (hc : c ≠ .show_) :
    (s.answer c).1.isVisible = false ∧ (s.answer c).2.filterMap Effect.record? = [] := by
  obtain ⟨phase⟩ := s
  cases phase with
  | visible v => cases hs
  | hidden =>
    cases c with
    | show_ => exact absurd rfl hc
    | apply a => exact ⟨rfl, rfl⟩
    | finishTeardown => exact ⟨rfl, rfl⟩
  | dismissing =>
    cases c with
    | show_ => exact absurd rfl hc
    | apply a => exact ⟨rfl, rfl⟩
    | finishTeardown => exact ⟨rfl, rfl⟩

/-- A visible overlay writes the record that the call decides on, and is visible no more. -/
theorem answer_of_visible (hs : s.isVisible = true) (c : Call) :
    (s.answer c).1.isVisible = c.decision?.isNone ∧
      (s.answer c).2.filterMap Effect.record? = c.decision?.toList := by
  obtain ⟨phase⟩ := s
  cases phase with
  | hidden => cases hs
  | dismissing => cases hs
  | visible v =>
    cases c with
    | show_ => exact ⟨rfl, rfl⟩
    | finishTeardown => exact ⟨rfl, rfl⟩
    | apply a => cases a <;> exact ⟨rfl, rfl⟩

/-- A visible session answers a call that decides by recording and letting the overlay go. -/
theorem apply_of_decision? {action : Action} {r : Record} (h : Call.decision? (.apply action) = some r)
    (view : View) : (Session.mk (.visible view)).apply action = dismiss r := by
  cases action with
  | customize => cases h
  | back => cases h
  | accept | reject | save choices =>
    cases h
    rfl

theorem records_of_not_visible (hs : s.isVisible = false) {calls : List Call} (hcalls : ∀ c ∈ calls, c ≠ .show_) :
    s.records calls = [] := by
  induction calls generalizing s with
  | nil => rfl
  | cons c calls ih =>
    obtain ⟨hvisible, hnone⟩ := answer_of_not_visible hs (hcalls c List.mem_cons_self)
    rw [records_cons, hnone, ih hvisible fun d hd => hcalls d (List.mem_cons_of_mem c hd)]
    rfl

/-- A visible overlay writes the record of the first call that decides, and no other. -/
theorem records_of_visible (hs : s.isVisible = true) {calls : List Call} (hcalls : ∀ c ∈ calls, c ≠ .show_) :
    s.records calls = (calls.findSome? Call.decision?).toList := by
  induction calls generalizing s with
  | nil => rfl
  | cons c calls ih =>
    obtain ⟨hvisible, hrecord⟩ := answer_of_visible hs c
    have hrest : ∀ d ∈ calls, d ≠ .show_ := fun d hd => hcalls d (List.mem_cons_of_mem c hd)
    rw [records_cons, hrecord, List.findSome?_cons]
    cases hc : c.decision? with
    | none =>
      rw [hc] at hvisible
      rw [ih hvisible hrest]
      rfl
    | some r =>
      rw [hc] at hvisible
      rw [records_of_not_visible hvisible hrest]
      rfl

end Session

namespace Visits

variable {settings : ConsentSettings} {now : Calendar.Instant} {action : Action} {r : Record} {view : View}

/-- A decision in a visible session comes down to the assignment that keeps it. -/
theorem step_of_decision? (hr : Session.Call.decision? (.apply action) = some r) {v : Visits}
    (hv : v.session = some ⟨.visible view⟩) : v.step settings (.control (some action)) now =
      ((Cookie.ofSettings settings).header r now).map fun header =>
        (⟨v.jar.store header now, some ⟨.dismissing⟩⟩, ⟨none, [.persist r, .conceal], some header⟩) := by
  simp only [step, sessionStep, call, hv, Session.apply_of_decision? hr, Session.dismiss, jarStep, persist]
  cases (Cookie.ofSettings settings).header r now <;> rfl

end Visits
end Consent
end PageWidgets
