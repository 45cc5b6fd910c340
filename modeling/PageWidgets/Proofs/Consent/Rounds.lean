import Mathlib.Data.List.Induction
import PageWidgets.Proofs.Consent.Session
import PageWidgets.Proofs.NameMap

/-! The work of a session comes in rounds. In a round the overlay is shown on its summary, goes from view to view,
    writes a record as it leaves, and is cleared away. However calls are mixed, all the work so far is some whole rounds
    and the beginning of one more, cut between two calls, and the phase tells where in a round the work stands. -/

namespace PageWidgets
namespace Consent

/-- A round: the views that were gone to after the summary, and the record. -/
structure Round where
  views : List View
  record : Record

/-- Where in a round the work stands. -/
inductive Place where
  | between
  | shown (views : List View)
  | leaving (views : List View) (record : Record)

def turnTo (v : View) : List Effect := [.showView v, .focusView v]

/-- The work of showing the overlay and going from view to view. -/
def showing (views : List View) : List Effect := .reveal :: (.summary :: views).flatMap turnTo

namespace Place

def work : Place → List Effect
  | between => []
  | shown views => showing views
  | leaving views r => showing views ++ [.persist r, .conceal]

/-- The phase at that place: a shown overlay is at the view that it went to last. -/
def phase : Place → Phase
  | between => .hidden
  | shown views => .visible (views.getLast?.getD .summary)
  | leaving _ _ => .dismissing

end Place

def Round.work (r : Round) : List Effect := showing r.views ++ [.persist r.record, .conceal, .clearViewMarker]

def recordsOf (t : List Effect) : List Record := t.filterMap Effect.record?

theorem showing_concat (views : List View) (v : View) : showing (views ++ [v]) = showing views ++ turnTo v := by
  simp [showing, List.flatMap_append]

theorem Place.exists_prefix (place : Place) : ∃ r : Round, place.work <+: r.work := by
  cases place with
  | between => exact ⟨⟨[], .accepted⟩, List.nil_prefix⟩
  | shown views => exact ⟨⟨views, .accepted⟩, List.prefix_append _ _⟩
  | leaving views r =>
    refine ⟨⟨views, r⟩, [.clearViewMarker], ?_⟩
    rw [Place.work, Round.work, List.append_assoc]
    rfl

/-! ### Stages

A reader of the work who sees one effect after the other. It refuses what is out of order; in between two calls, its
stage is the phase. -/

/-- How far the reader is. -/
inductive Stage where
  | hidden
  | visible (view : View)
  | recorded
  | dismissing
  deriving DecidableEq

namespace Stage

/-- The stage after one more effect, unless that is out of order. -/
def next? : Stage → Effect → Option Stage
  | hidden, .reveal => some (visible .summary)
  | visible _, .showView w => some (visible w)
  | visible v, .focusView w => if w = v then some (visible v) else none
  | visible _, .persist _ => some recorded
  | recorded, .conceal => some dismissing
  | dismissing, .clearViewMarker => some hidden
  | _, _ => none

def follow? : Stage → List Effect → Option Stage
  | s, [] => some s
  | s, e :: t => (s.next? e).bind (follow? · t)

def ofPhase : Phase → Stage
  | .hidden => hidden
  | .visible v => visible v
  | .dismissing => dismissing

theorem ofPhase_inj {p q : Phase} (h : ofPhase p = ofPhase q) : p = q := by
  cases p <;> cases q <;> simp_all [ofPhase]

theorem follow?_append (s : Stage) (t u : List Effect) :
    s.follow? (t ++ u) = (s.follow? t).bind (follow? · u) := by
  induction t generalizing s with
  | nil => rfl
  | cons e t ih =>
    rw [List.cons_append, follow?, follow?]
    cases s.next? e with
    | none => rfl
    | some s' => exact ih s'

theorem follow?_append_eq_some {s s'' : Stage} {t u : List Effect} (h : s.follow? (t ++ u) = some s'') :
    ∃ s', s.follow? t = some s' ∧ s'.follow? u = some s'' := by
  rw [follow?_append] at h
  exact Option.bind_eq_some_iff.mp h

theorem follow?_turnTo (v w : View) : (visible v).follow? (turnTo w) = some (visible w) := by
  simp [turnTo, follow?, next?]

theorem follow?_showing (views : List View) :
    hidden.follow? (showing views) = some (visible (views.getLast?.getD .summary)) := by
  induction views using List.reverseRecOn with
  | nil => rfl
  | append_singleton views v ih => rw [showing_concat, follow?_append, ih, List.getLast?_concat, Option.bind_some,
      follow?_turnTo, Option.getD_some]

theorem follow?_round (r : Round) : hidden.follow? r.work = some hidden := by
  rw [Round.work, follow?_append, follow?_showing]
  rfl

/-- However work is taken apart into rounds, the place that is left over tells the stage. -/
theorem follow?_rounds (rounds : List Round) (place : Place) :
    hidden.follow? (rounds.flatMap Round.work ++ place.work) = some (ofPhase place.phase) := by
  induction rounds with
  | nil =>
    cases place with
    | between => rfl
    | shown views => exact follow?_showing views
    | leaving views r =>
      show hidden.follow? (showing views ++ [Effect.persist r, .conceal]) = _
      rw [follow?_append, follow?_showing]
      rfl
  | cons r rounds ih => rw [List.flatMap_cons, List.append_assoc, follow?_append, follow?_round, Option.bind_some, ih]

/-! ### Counting -/

/-- Is the overlay revealed with no record written yet? -/
def recordsDue : Stage → Nat
  | visible _ => 1
  | _ => 0

/-- Is the overlay concealed with its marker not cleared yet? -/
def clearsDue : Stage → Nat
  | dismissing => 1
  | _ => 0

theorem recordsDue_le (s : Stage) : s.recordsDue ≤ 1 := by
  cases s <;> simp [recordsDue]

theorem clearsDue_le (s : Stage) : s.clearsDue ≤ 1 := by
  cases s <;> simp [clearsDue]

theorem count_of_next? {s s' : Stage} {e : Effect} (h : s.next? e = some s') :
    s.recordsDue + [e].count .reveal = (recordsOf [e]).length + s'.recordsDue ∧
      s.clearsDue + [e].count .conceal = [e].count .clearViewMarker + s'.clearsDue := by
  cases s <;> cases e <;> simp [next?] at h
  case visible.focusView v w =>
    obtain ⟨-, rfl⟩ := h
    exact ⟨rfl, rfl⟩
  all_goals
    subst h
    exact ⟨rfl, rfl⟩

/-- A revealed overlay is due to write one record, and a concealed one to be cleared once. -/
theorem count_of_follow? {s s' : Stage} {t : List Effect} (h : s.follow? t = some s') :
    s.recordsDue + t.count .reveal = (recordsOf t).length + s'.recordsDue ∧
      s.clearsDue + t.count .conceal = t.count .clearViewMarker + s'.clearsDue := by
  induction t generalizing s with
  | nil =>
    cases h
    simp [recordsOf]
  | cons e t ih =>
    obtain ⟨u, hnext, hrest⟩ := Option.bind_eq_some_iff.mp h
    obtain ⟨hrecords, hclears⟩ := ih hrest
    obtain ⟨hrecord, hclear⟩ := count_of_next? hnext
    have hsum : (recordsOf (e :: t)).length = (recordsOf [e]).length + (recordsOf t).length := by
      rw [← List.singleton_append, recordsOf, List.filterMap_append, List.length_append]
      rfl
    rw [hsum, ← List.singleton_append, List.count_append, List.count_append, List.count_append]
    omega

/-- Until the overlay is revealed again, one record at most is written. -/
theorem records_le_of_follow? {s s' : Stage} {t : List Effect} (h : s.follow? t = some s') :
    (recordsOf (t.takeWhile (· ≠ .reveal))).length ≤ 1 := by
  rw [← List.takeWhile_append_dropWhile (p := (· ≠ .reveal)) (l := t)] at h
  obtain ⟨u, hfirst, -⟩ := follow?_append_eq_some h
  have hnone : (t.takeWhile (· ≠ .reveal)).count .reveal = 0 := by
    rw [List.count_eq_zero]
    intro hmem
    simpa using List.all_eq_true.mp List.all_takeWhile _ hmem
  have hcount := (count_of_follow? hfirst).1
  have hdue := recordsDue_le s
  omega

/-- Until the overlay is concealed again, its marker is cleared once at most. -/
theorem clears_le_of_follow? {s s' : Stage} {t : List Effect} (h : s.follow? t = some s') :
    (t.takeWhile (· ≠ .conceal)).count .clearViewMarker ≤ 1 := by
  rw [← List.takeWhile_append_dropWhile (p := (· ≠ .conceal)) (l := t)] at h
  obtain ⟨u, hfirst, -⟩ := follow?_append_eq_some h
  have hnone : (t.takeWhile (· ≠ .conceal)).count .conceal = 0 := by
    rw [List.count_eq_zero]
    intro hmem
    simpa using List.all_eq_true.mp List.all_takeWhile _ hmem
  have hcount := (count_of_follow? hfirst).2
  have hdue := clearsDue_le s
  omega

/-- A record is written while one is due, and the overlay is concealed at once. -/
theorem conceal_of_follow? {a b : List Effect} {r : Record} {phase : Phase}
    (h : hidden.follow? (a ++ .persist r :: b) = some (ofPhase phase)) :
    b.head? = some .conceal ∧ a.count .reveal = (recordsOf a).length + 1 := by
  obtain ⟨s, hbefore, hafter⟩ := follow?_append_eq_some h
  obtain ⟨u, hpersist, hrest⟩ := Option.bind_eq_some_iff.mp hafter
  have hs : s.recordsDue = 1 ∧ u = recorded := by
    cases s <;> simp [next?] at hpersist
    exact ⟨rfl, hpersist.symm⟩
  obtain ⟨hdue, rfl⟩ := hs
  have hcount := (count_of_follow? hbefore).1
  have hstart : hidden.recordsDue = 0 := rfl
  refine ⟨?_, by omega⟩
  -- No phase is the stage in between, so something follows, and there is only one effect that may.
  cases b with
  | nil =>
    have hstage : recorded = ofPhase phase := Option.some.inj hrest
    cases phase <;> cases hstage
  | cons e b =>
    obtain ⟨v, hnext, -⟩ := Option.bind_eq_some_iff.mp hrest
    cases e <;> simp [next?] at hnext
    rfl

end Stage

namespace Session

/-! ### Calls -/

/-- What a call may do: nothing, or go on to the next place. -/
inductive Onward (s : Session) (c : Call) : Session × List Effect → Prop where
  | rest : Onward s c (s, [])
  | reveal (h : s.phase = .hidden) : Onward s c (⟨.visible .summary⟩, showing [])
  | turn {v : View} (h : s.phase = .visible v) (w : View) : Onward s c (⟨.visible w⟩, turnTo w)
  | decide {v : View} {r : Record} (h : s.phase = .visible v) (hr : c.decision? = some r) :
      Onward s c (⟨.dismissing⟩, [.persist r, .conceal])
  | clear (h : s.phase = .dismissing) : Onward s c (⟨.hidden⟩, [.clearViewMarker])

theorem answer_onward (s : Session) (c : Call) : Onward s c (s.answer c) := by
  obtain ⟨phase⟩ := s
  cases c with
  | show_ =>
    cases phase with
    | hidden => exact .reveal rfl
    | visible v => exact .rest
    | dismissing => exact .rest
  | finishTeardown =>
    cases phase with
    | hidden => exact .rest
    | visible v => exact .rest
    | dismissing => exact .clear rfl
  | apply a =>
    cases phase with
    | hidden => exact .rest
    | dismissing => exact .rest
    | visible v =>
      cases a with
      | customize => exact .turn rfl .settings
      | back => exact .turn rfl .summary
      | accept => exact .decide rfl rfl
      | reject => exact .decide rfl rfl
      | save choices => exact .decide rfl rfl

def trace (s : Session) (calls : List Call) : List Effect := (s.run calls).2.flatten

theorem run_concat (s : Session) (calls : List Call) (c : Call) :
    (s.run (calls ++ [c])).1 = ((s.run calls).1.answer c).1 ∧
      s.trace (calls ++ [c]) = s.trace calls ++ ((s.run calls).1.answer c).2 := by
  simp [trace, run_append, run]

/-- However calls are mixed, their work is whole rounds and the beginning of one more. -/
theorem exists_rounds (calls : List Call) : ∃ (rounds : List Round) (place : Place),
    fresh.trace calls = rounds.flatMap Round.work ++ place.work ∧ (fresh.run calls).1.phase = place.phase := by
  induction calls using List.reverseRecOn with
  | nil => exact ⟨[], .between, rfl, rfl⟩
  | append_singleton calls c ih =>
    obtain ⟨rounds, place, htrace, hphase⟩ := ih
    obtain ⟨hrun, hwork⟩ := fresh.run_concat calls c
    rw [hrun, hwork, htrace]
    have hon := (fresh.run calls).1.answer_onward c
    generalize (fresh.run calls).1.answer c = r at hon
    cases hon with
    | rest => exact ⟨rounds, place, by rw [List.append_nil], hphase⟩
    | reveal h =>
      rw [h] at hphase
      cases place with
      | between => exact ⟨rounds, .shown [], by rw [Place.work, List.append_nil]; rfl, rfl⟩
      | shown views => cases hphase
      | leaving views r => cases hphase
    | turn h w =>
      rw [h] at hphase
      cases place with
      | between => cases hphase
      | shown views =>
        refine ⟨rounds, .shown (views ++ [w]), ?_, ?_⟩
        · rw [Place.work, Place.work, showing_concat, List.append_assoc]
        · rw [Place.phase, List.getLast?_concat]
          rfl
      | leaving views r => cases hphase
    | @decide v r h hr =>
      rw [h] at hphase
      cases place with
      | between => cases hphase
      | shown views => exact ⟨rounds, .leaving views r, List.append_assoc _ _ _, rfl⟩
      | leaving views r => cases hphase
    | clear h =>
      rw [h] at hphase
      cases place with
      | between => cases hphase
      | shown views => cases hphase
      | leaving views r =>
        refine ⟨rounds ++ [⟨views, r⟩], .between, ?_, rfl⟩
        simp [Place.work, Round.work]

theorem follow?_trace (calls : List Call) :
    Stage.hidden.follow? (fresh.trace calls) = some (.ofPhase (fresh.run calls).1.phase) := by
  obtain ⟨rounds, place, htrace, hphase⟩ := exists_rounds calls
  rw [htrace, hphase]
  exact Stage.follow?_rounds rounds place

theorem saved_of_decision? {c : Call} {granted : NameMap Bool} (h : c.decision? = some (.categories granted)) :
    ∃ choices, c = .apply (.save choices) ∧ granted = choices.insert necessary true := by
  cases c with
  | show_ => cases h
  | finishTeardown => cases h
  | apply a =>
    cases a <;> simp [Call.decision?, Record.ofChoices] at h
    exact ⟨_, rfl, h.symm⟩

/-- A record of choices is written when they are saved: the necessary category is granted, and the others as chosen. -/
theorem choices_of_persist (s : Session) (calls : List Call) :
    ∀ x ∈ calls.zip (s.run calls).2, ∀ granted, .persist (.categories granted) ∈ x.2 →
      ∃ choices, x.1 = .apply (.save choices) ∧ granted.get? necessary = some true ∧
        ∀ name, name ≠ necessary → granted.get? name = choices.get? name := by
  induction calls generalizing s with
  | nil => exact fun x hx => absurd hx List.not_mem_nil
  | cons c calls ih =>
    intro x hx granted hmem
    rw [run_cons, List.zip_cons_cons] at hx
    rcases List.mem_cons.mp hx with rfl | hx
    · have hon := s.answer_onward c
      generalize s.answer c = r at hon hmem
      cases hon with
      | rest => exact absurd hmem List.not_mem_nil
      | reveal h => simp [showing, turnTo] at hmem
      | turn h w => simp [turnTo] at hmem
      | clear h => simp at hmem
      | @decide v record h hr =>
        obtain rfl : record = .categories granted := by simpa [eq_comm] using hmem
        obtain ⟨choices, rfl, rfl⟩ := saved_of_decision? hr
        refine ⟨choices, rfl, ?_, fun name hname => ?_⟩
        · rw [NameMap.get?_insert, if_pos rfl]
        · rw [NameMap.get?_insert, if_neg (Ne.symm hname)]
    · exact ih _ x hx granted hmem

/-- The work of calls on a new session comes in rounds, and the phase tells where in a round it stands. No more than one
    record is written each time the overlay is revealed, and none while it is not; the overlay is concealed with it, and
    its marker cleared once at most. A record of choices grants the necessary category, and the others as chosen. -/
theorem work_comes_in_rounds (calls : List Call) :
    let trace := fresh.trace calls
    (∃ (rounds : List Round) (place : Place), trace = rounds.flatMap Round.work ++ place.work ∧
      ∃ r : Round, place.work <+: r.work) ∧
    (∀ (rounds : List Round) (place : Place), trace = rounds.flatMap Round.work ++ place.work →
      (fresh.run calls).1.phase = place.phase) ∧
    (∀ a b, trace = a ++ .reveal :: b → (recordsOf (b.takeWhile (· ≠ .reveal))).length ≤ 1) ∧
    (∀ a r b, trace = a ++ .persist r :: b →
      b.head? = some .conceal ∧ a.count .reveal = (recordsOf a).length + 1) ∧
    (∀ a b, trace = a ++ .conceal :: b → (b.takeWhile (· ≠ .conceal)).count .clearViewMarker ≤ 1) ∧
    (∀ x ∈ calls.zip (fresh.run calls).2, ∀ granted, .persist (.categories granted) ∈ x.2 →
      ∃ choices, x.1 = .apply (.save choices) ∧ granted.get? necessary = some true ∧
        ∀ name, name ≠ necessary → granted.get? name = choices.get? name) := by
  have hfollow := follow?_trace calls
  refine ⟨?_, fun rounds place htrace => ?_, fun a b htrace => ?_, fun a r b htrace => ?_, fun a b htrace => ?_,
    fresh.choices_of_persist calls⟩
  · obtain ⟨rounds, place, htrace, -⟩ := exists_rounds calls
    exact ⟨rounds, place, htrace, place.exists_prefix⟩
  · rw [htrace, Stage.follow?_rounds] at hfollow
    exact (Stage.ofPhase_inj (Option.some.inj hfollow)).symm
  · rw [htrace] at hfollow
    obtain ⟨s, -, hafter⟩ := Stage.follow?_append_eq_some hfollow
    obtain ⟨u, -, hrest⟩ := Option.bind_eq_some_iff.mp hafter
    exact Stage.records_le_of_follow? hrest
  · rw [htrace] at hfollow
    exact Stage.conceal_of_follow? hfollow
  · rw [htrace] at hfollow
    obtain ⟨s, -, hafter⟩ := Stage.follow?_append_eq_some hfollow
    obtain ⟨u, -, hrest⟩ := Option.bind_eq_some_iff.mp hafter
    exact Stage.clears_le_of_follow? hrest

end Session
end Consent
end PageWidgets
