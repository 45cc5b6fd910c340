import PageWidgets.Proofs.Consent.Naming
import PageWidgets.Proofs.Consent.Session
import PageWidgets.Proofs.Tester.Names
import PageWidgets.Tester.Program

/-! Runs of checks. Every check passes whenever the calendar goes on for a year, also when the expiry date has a year
    that the jar cannot read: a cookie whose date is not read is kept. So a run without browsers reports one passed
    result for each name that leads to a scenario with a check, in order, and ends well when its report can be written. -/

namespace PageWidgets
namespace Tester

open Calendar Consent

namespace Check

/-! ### Consent -/

section

variable {now : Instant} {a : Action} {r : Record}

theorem nameable_default : Nameable ({} : ConsentSettings).cookieName where
  no_equals := by decide
  no_semicolon := by decide
  no_blank_first := fun c hc => by
    obtain rfl := Option.some.inj hc
    rfl

/-- A visible overlay keeps a decision, and what is kept is found. -/
theorem exists_decided (hnow : (now.plusDays? 365).isSome = true) (hr : Session.Call.decision? (.apply a) = some r)
    (view : View) : ∃ jar outcome,
      (Visits.mk .empty (some ⟨.visible view⟩)).step {} (.control (some a)) now =
        .ok (⟨jar, some ⟨.dismissing⟩⟩, outcome) ∧
      overlayRequired jar.document {} = false ∧
      findCookie jar.document ({} : ConsentSettings).cookieName = some r.cookieValue := by
  obtain ⟨header, hheader, hhidden, hfound⟩ :=
    Jar.overlayRequired_store_header (s := {}) nameable_default (by decide) hnow [] r
  refine ⟨Jar.empty.store header now, ⟨none, [.persist r, .conceal], some header⟩, ?_, hhidden, hfound⟩
  rw [Visits.step_of_decision? hr rfl, hheader]
  rfl

/-- A new site shows the overlay on its summary. -/
theorem step_start (now : Instant) : Visits.start.step {} .visit now =
    .ok (⟨.empty, some ⟨.visible .summary⟩⟩,
      ⟨some true, [.reveal, .showView .summary, .focusView .summary], none⟩) := rfl

theorem step_customize (now : Instant) :
    (Visits.mk .empty (some ⟨.visible .summary⟩)).step {} (.control (some .customize)) now =
      .ok (⟨.empty, some ⟨.visible .settings⟩⟩, ⟨none, [.showView .settings, .focusView .settings], none⟩) := rfl

theorem bind_of_ok {α β : Type} {x : Except DateOverflow α} {b : α} (h : x = .ok b) (f : α → Except DateOverflow β) :
    x >>= f = f b := by
  rw [h]
  rfl

theorem storedOnce_passes (hnow : (now.plusDays? 365).isSome = true)
    (hr : Session.Call.decision? (.apply a) = some r) :
    storedOnce now a = .ok [⟨true, "overlay must show on first visit (" ++ a.shown ++ ")"⟩,
      ⟨true, "overlay must stay hidden once " ++ a.shown ++ " was stored"⟩] := by
  obtain ⟨jar, outcome, hstep, hhidden, -⟩ := exists_decided hnow hr .summary
  have hfirst : play now .start [a] = .ok (true, ⟨jar, some ⟨.dismissing⟩⟩) := by
    refine (bind_of_ok (step_start now) _).trans ?_
    simp only [List.foldlM, hstep, bind, Except.bind]
    rfl
  have hsecond : play now ⟨jar, some ⟨.dismissing⟩⟩ [] = .ok (false, ⟨jar, none⟩) := by
    have hvisit : (Visits.mk jar (some ⟨.dismissing⟩)).step {} .visit now =
        .ok (⟨jar, none⟩, ⟨some false, [], none⟩) := by
      simp only [Visits.step, Visits.sessionStep, hhidden]
      rfl
    exact bind_of_ok hvisit _
  exact (bind_of_ok hfirst _).trans (bind_of_ok hsecond _)

theorem cookieIdempotence_passes (hnow : (now.plusDays? 365).isSome = true) :
    ∃ l, cookieIdempotence now = .ok l ∧ Expectation.firstUnmet l = none := by
  exact ⟨_, (bind_of_ok (storedOnce_passes hnow (a := .accept) rfl) _).trans
    ((bind_of_ok (storedOnce_passes hnow (a := .reject) rfl) _).trans
      (bind_of_ok (storedOnce_passes hnow (a := .save .empty) rfl) _)), rfl⟩

theorem customizeRoundtrip_passes (hnow : (now.plusDays? 365).isSome = true) :
    ∃ l, customizeRoundtrip now = .ok l ∧ Expectation.firstUnmet l = none := by
  have hexpected : Record.ofChoices choices = expectedRecord := by decide +kernel
  obtain ⟨jar, outcome, hstep, -, hfound⟩ :=
    exists_decided (a := .save choices) (r := expectedRecord) hnow (congrArg some hexpected) .settings
  have hplay : play now .start [.customize, .save choices] = .ok (true, ⟨jar, some ⟨.dismissing⟩⟩) := by
    refine (bind_of_ok (step_start now) _).trans ?_
    simp only [List.foldlM, step_customize, hstep, bind, Except.bind, pure, Except.pure]
    rfl
  have hgrants : expectedRecord.GrantsNecessary := by
    rw [← hexpected]
    exact (NameMap.get?_insert _ _ _ _).trans (if_pos rfl)
  have hstored : stored ⟨jar, some ⟨.dismissing⟩⟩ = .ok expectedRecord := by
    simp only [stored, hfound, Record.decode_of_grants hgrants]
  refine ⟨_, bind_of_ok hplay _, ?_⟩
  simp only [storedExpectation, hstored, decide_true]
  rfl

end

end Check

/-- Every check passes as long as the calendar goes on for a year. -/
theorem Scenario.check?_passes {now : Instant} (hnow : (now.plusDays? 365).isSome = true) (s : Scenario) :
    s.check? now = none ∨ ∃ l, s.check? now = some (.ok l) ∧ Expectation.firstUnmet l = none := by
  cases s with
  | cookieIdempotence =>
    obtain ⟨l, hl, hpasses⟩ := Check.cookieIdempotence_passes hnow
    exact .inr ⟨l, congrArg some hl, hpasses⟩
  | customizeRoundtrip =>
    obtain ⟨l, hl, hpasses⟩ := Check.customizeRoundtrip_passes hnow
    exact .inr ⟨l, congrArg some hl, hpasses⟩
  | viewTransitions => exact .inr ⟨_, rfl, by decide⟩
  | initialFallback => exact .inr ⟨_, rfl, by decide⟩
  | keyboardWrap => exact .inr ⟨_, rfl, by decide⟩
  | commitChange => exact .inr ⟨_, rfl, by decide⟩
  | doubleEnhance => exact .inl rfl
  | outsideClose => exact .inr ⟨_, rfl, by decide⟩

/-! ### Runs -/

namespace Run

/-- The result that a name leads to when the check of its scenario passes; none without a scenario or a check. -/
def passedCheck? (e : Environment) (name : String) : Option Result :=
  (Scenario.ofName? name).bind fun s =>
    (s.check? e.now).map fun _ => ⟨s.name, "logic", true, [], e.spent name⟩

variable {e : Environment} {o : Options}

theorem checkEntry_passes (hnow : (e.now.plusDays? 365).isSome = true) (verbose : Bool) (name : String) :
    ∃ entry, checkEntry e verbose name = .ok entry ∧ entry.result = passedCheck? e name := by
  unfold checkEntry passedCheck?
  cases hname : Scenario.ofName? name with
  | none => exact ⟨_, rfl, rfl⟩
  | some s =>
    obtain hnone | ⟨l, hl, hpasses⟩ := s.check?_passes hnow
    · simp only [hnone, Option.bind_some]
      exact ⟨_, rfl, rfl⟩
    · simp only [hl, Option.bind_some]
      exact ⟨_, rfl, by simp [checked, hpasses, Result.ofOutcome]⟩

theorem checkEntries_pass (hnow : (e.now.plusDays? 365).isSome = true) (verbose : Bool) (names : List String) :
    ∃ entries, checkEntries e verbose names = .ok entries ∧
      entries.map (·.result) = names.map (passedCheck? e) := by
  induction names with
  | nil => exact ⟨[], rfl, rfl⟩
  | cons name names ih =>
    obtain ⟨entry, hentry, hresult⟩ := checkEntry_passes hnow verbose name
    obtain ⟨entries, hentries, hresults⟩ := ih
    refine ⟨entry :: entries, ?_, by rw [List.map_cons, hresult, hresults, List.map_cons]⟩
    simp only [checkEntries, hentry, hentries, Except.map]

theorem ofChecks_passes (hnow : (e.now.plusDays? 365).isSome = true) (hmode : o.mode.runsChecks = true) :
    ∃ run, ofChecks e o = .ok run ∧ run.results = (expandNames o.scenarios).filterMap (passedCheck? e) := by
  obtain ⟨entries, hentries, hresults⟩ := checkEntries_pass hnow o.verbose (expandNames o.scenarios)
  refine ⟨⟨_, entries.filterMap (·.result), []⟩, by simp only [ofChecks, hmode, hentries]; rfl, ?_⟩
  have hall := congrArg (List.filterMap id) hresults
  rw [List.filterMap_map, List.filterMap_map] at hall
  exact hall

theorem passed_of_mem_checks {names : List String} {r : Result} (h : r ∈ names.filterMap (passedCheck? e)) :
    r.target = "logic" ∧ r.passed = true ∧ r.failures = [] := by
  obtain ⟨name, -, hname⟩ := List.mem_filterMap.mp h
  obtain ⟨s, -, hs⟩ := Option.bind_eq_some_iff.mp hname
  obtain ⟨x, -, rfl⟩ := Option.map_eq_some_iff.mp hs
  exact ⟨rfl, rfl, rfl⟩

/-- A scenario that is asked for has a result when it has a check. -/
theorem exists_result_of_resolved {names : List String} {s : Scenario} (h : s ∈ resolved names)
    (hcheck : (s.check? e.now).isSome = true) : ∃ r ∈ names.filterMap (passedCheck? e), r.scenario = s.name := by
  obtain ⟨name, hname, hs⟩ := List.mem_filterMap.mp h
  obtain ⟨x, hx⟩ := Option.isSome_iff_exists.mp hcheck
  exact ⟨_, List.mem_filterMap.mpr ⟨name, hname, by rw [passedCheck?, hs, Option.bind_some, hx]; rfl⟩, rfl⟩

/-- A run without scripts passes when its checks do. -/
theorem exists_passed_run {checks : Run} (hchecks : ofChecks e o = .ok checks) (hmode : o.mode = .logic)
    (hpassed : ∀ r ∈ checks.results, r.passed = true) : ∃ run, ofOptions e o = .ok run ∧ run.passed = true := by
  have hscripts : ofScripts e o = ⟨[], [], []⟩ := by
    rw [ofScripts, hmode]
    rfl
  refine ⟨_, by rw [ofOptions, hchecks, hscripts], ?_⟩
  show (checks.results ++ []).all (·.passed) = true
  rw [List.append_nil]
  exact List.all_eq_true.mpr hpassed

/-- The code that a plan ends with stands when its document can be written. -/
theorem code_finish (plan : Plan) {writable : Except OutputFault Unit} (h : plan.output = none ∨ writable = .ok ())
    (total : Duration) : (plan.finish writable total).code = plan.code := by
  obtain ⟨lines, filed, document, output, code⟩ := plan
  cases document with
  | none => rfl
  | some document =>
    cases output with
    | none => rfl
    | some path =>
      obtain h | rfl := h
      · cases h
      · rfl

theorem exists_plan_of_passed {run : Run} (hrun : ofOptions e o = .ok run) (hpassed : run.passed = true) :
    ∃ plan, Plan.ofOptions e o = .ok plan ∧ plan.output = o.output ∧ plan.code = 0 := by
  unfold Plan.ofOptions
  split
  · exact ⟨_, rfl, rfl, rfl⟩
  · rw [hrun]
    exact ⟨_, rfl, rfl, if_pos hpassed⟩

/-- As long as the calendar goes on for a year, the part of a run without browsers reports one passed result for each
    name that leads to a scenario with a check, in order. The word for every scenario stands for the keys that the list
    does not spell. -/
theorem checks_reported (e : Environment) (o : Options) (hmode : o.mode = .logic ∨ o.mode = .both)
    (hnow : (e.now.plusDays? 365).isSome = true) :
    ∃ checks, ofChecks e o = .ok checks ∧
      checks.results = (expandNames o.scenarios).filterMap (passedCheck? e) ∧
      (∀ r ∈ checks.results, r.target = "logic" ∧ r.passed = true ∧ r.failures = []) ∧
      (∃ run, ofOptions e o = .ok run ∧ run.results = checks.results ++ (ofScripts e o).results) ∧
      (o.mode = .logic → ∃ plan, Plan.ofOptions e o = .ok plan ∧ ∀ writable total,
        (o.output = none ∨ writable = .ok ()) → (plan.finish writable total).code = 0) ∧
      (everything ∈ splitList o.scenarios →
        expandNames o.scenarios = otherNames o.scenarios ++
          (Scenario.all.map Scenario.key).filter (· ∉ otherNames o.scenarios) ∧
        ∀ s : Scenario, (s.check? e.now).isSome = true → ∃ r ∈ checks.results, r.scenario = s.name) ∧
      (everything ∉ splitList o.scenarios → expandNames o.scenarios = splitList o.scenarios) := by
  have hruns : o.mode.runsChecks = true := by
    obtain h | h := hmode <;> rw [h] <;> rfl
  obtain ⟨checks, hchecks, hresults⟩ := ofChecks_passes hnow hruns
  have hpassed : ∀ r ∈ checks.results, r.target = "logic" ∧ r.passed = true ∧ r.failures = [] := fun r hr =>
    passed_of_mem_checks (hresults ▸ hr)
  refine ⟨checks, hchecks, hresults, hpassed, ⟨_, by rw [ofOptions, hchecks], rfl⟩,
    fun hlogic => ?_, fun hall => ⟨expandNames_of_mem hall, fun s hcheck => ?_⟩, expandNames_of_not_mem⟩
  · obtain ⟨run, hrun, hall⟩ := exists_passed_run hchecks hlogic fun r hr => (hpassed r hr).2.1
    obtain ⟨plan, hplan, houtput, hcode⟩ := exists_plan_of_passed hrun hall
    exact ⟨plan, hplan, fun writable total h => (code_finish plan (houtput ▸ h) total).trans hcode⟩
  · rw [hresults]
    exact exists_result_of_resolved (mem_resolved_expandNames hall s) hcheck

/-- An environment in the year 10000, whose name in an expiry date no jar reads. -/
def tenThousand : Environment := ⟨253402300800000, fun _ => .zero, ⟨false⟩, fun _ => .error "", fun _ => false⟩

/-- A list with a short key, a blank name, a stranger and the word for every scenario in two spellings. -/
theorem checks_reported_in_ten_thousand :
    ∃ checks, ofChecks tenThousand { scenarios := " Keyboard,all, ,ALL,nonsense" } = .ok checks ∧
      checks.results = (expandNames " Keyboard,all, ,ALL,nonsense").filterMap (passedCheck? tenThousand) ∧
      checks.results.length = 8 := by
  obtain ⟨checks, hchecks, hresults, -⟩ :=
    checks_reported tenThousand { scenarios := " Keyboard,all, ,ALL,nonsense" } (.inl rfl) (by decide)
  refine ⟨checks, hchecks, hresults, ?_⟩
  rw [hresults]
  decide +kernel

end Run
end Tester
end PageWidgets
