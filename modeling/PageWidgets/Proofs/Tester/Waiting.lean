import PageWidgets.Proofs.Tester.Replies

/-! Waiting for the hook of a page. The page is asked again until it shows the hook or the browser fails, fifty times at
    most; each question takes one answer, and none is taken after the one that decides. So a page that is loaded without
    its cookie is only reset once its hook was seen, is loaded again after that, and is ready when the hook was seen
    again. -/

namespace PageWidgets
namespace Tester

/-- An answer that decides nothing: neither a failure nor the truth value `true`. -/
def Reply.Undecided : Reply → Prop
  | .value v => v ≠ .bool true
  | .failure _ => False

/-- The question whether the hook is there. -/
def hookQuestion : Command := .execute "return !!window.__fsqrTest" []

/-- The command that deletes the cookie. -/
def resetCommand : Command := .execute "window.__fsqrTest.reset()" []

/-- How waiting comes out when the page is asked a limited number of times: after how many questions, and as what. -/
inductive Settles (answers : Nat → Reply) (attempts : Nat) : Nat → Except Failure Unit → Prop
  | seen {i : Nat} (hi : i < attempts) (hanswer : answers i = .value (.bool true))
    (hbefore : ∀ j < i, (answers j).Undecided) : Settles answers attempts (i + 1) (.ok ())
  | broken {i : Nat} {text : String} (hi : i < attempts) (hanswer : answers i = .failure text)
    (hbefore : ∀ j < i, (answers j).Undecided) : Settles answers attempts (i + 1) (.error (.remote text))
  | exhausted (hall : ∀ i < attempts, (answers i).Undecided) : Settles answers attempts attempts (.error .hookAbsent)

/-- How loading a page and waiting for its hook comes out, and what was sent. -/
inductive Loads (address : String) (answers : Nat → Reply) : List Command → Except Failure Unit → Prop
  | refused {f : Address.Fault} (haddress : Address.complete address = .error f) :
    Loads address answers [] (.error (.address f))
  | unloaded {full text : String} (haddress : Address.complete address = .ok full)
    (hanswer : answers 0 = .failure text) : Loads address answers [.visit full] (.error (.remote text))
  | waited {full : String} {v : Json.Value} {count : Nat} {outcome : Except Failure Unit}
    (haddress : Address.complete address = .ok full) (hanswer : answers 0 = .value v)
    (hsettles : Settles (fun i => answers (i + 1)) 50 count outcome) :
    Loads address answers (.visit full :: List.replicate count hookQuestion) outcome

/-- How loading a page without its cookie comes out, and what was sent. -/
inductive Freshens (address : String) (answers : Nat → Reply) : List Command → Except Failure Unit → Prop
  | unloaded {sent : List Command} {f : Failure} (hload : Loads address answers sent (.error f)) :
    Freshens address answers sent (.error f)
  | unreset {sent : List Command} {text : String} (hload : Loads address answers sent (.ok ()))
    (hanswer : answers sent.length = .failure text) :
    Freshens address answers (sent ++ [resetCommand]) (.error (.remote text))
  | reloaded {sent sent' : List Command} {v : Json.Value} {outcome : Except Failure Unit}
    (hload : Loads address answers sent (.ok ())) (hanswer : answers sent.length = .value v)
    (hreload : Loads address (fun i => answers (i + (sent.length + 1))) sent' outcome) :
    Freshens address answers (sent ++ resetCommand :: sent') outcome

variable {address : String} {answers : Nat → Reply} {attempts count : Nat} {outcome : Except Failure Unit}
  {sent : List Command}

/-! ### Questions -/

theorem shows_hook_iff {v : Json.Value} : v.asBool?.getD false = true ↔ v = .bool true := by
  cases v <;> simp [Json.Value.asBool?]

theorem Reply.not_undecided {r : Reply} : ¬r.Undecided ↔ r = .value (.bool true) ∨ ∃ text, r = .failure text := by
  cases r <;> simp [Reply.Undecided]

namespace Settles

/-- An answer that decides nothing costs one attempt. -/
theorem later (hfirst : (answers 0).Undecided) (h : Settles (fun i => answers (i + 1)) attempts count outcome) :
    Settles answers (attempts + 1) (count + 1) outcome := by
  have hbefore : ∀ {i}, (∀ j < i, (answers (j + 1)).Undecided) → ∀ j < i + 1, (answers j).Undecided := by
    intro i hi j hj
    cases j with
    | zero => exact hfirst
    | succ j => exact hi j (Nat.lt_of_succ_lt_succ hj)
  cases h with
  | seen hi hanswer hundecided => exact .seen (Nat.succ_lt_succ hi) hanswer (hbefore hundecided)
  | broken hi hanswer hundecided => exact .broken (Nat.succ_lt_succ hi) hanswer (hbefore hundecided)
  | exhausted hall => exact .exhausted (hbefore hall)

/-- The last question is the first one with an answer that decides, or the last that may be asked. -/
theorem count_eq (h : Settles answers attempts count outcome) :
    (∃ i < attempts, count = i + 1 ∧ (answers i = .value (.bool true) ∨ ∃ text, answers i = .failure text) ∧
      ∀ j < i, (answers j).Undecided) ∨
    count = attempts ∧ ∀ i < attempts, (answers i).Undecided := by
  cases h with
  | seen hi hanswer hbefore => exact .inl ⟨_, hi, rfl, .inl hanswer, hbefore⟩
  | broken hi hanswer hbefore => exact .inl ⟨_, hi, rfl, .inr ⟨_, hanswer⟩, hbefore⟩
  | exhausted hall => exact .inr ⟨rfl, hall⟩

/-- An answer that decides comes to the same place as any other that has none before it. -/
theorem of_decided {i : Nat} (h : Settles answers attempts count outcome) (hi : i < attempts)
    (hdecided : ¬(answers i).Undecided) (hbefore : ∀ j < i, (answers j).Undecided) :
    (answers i = .value (.bool true) ∧ outcome = .ok ()) ∨
      ∃ text, answers i = .failure text ∧ outcome = .error (.remote text) := by
  have hfirst : ∀ {k}, ¬(answers k).Undecided → (∀ j < k, (answers j).Undecided) → k = i := by
    intro k hk hbefore'
    rcases Nat.lt_trichotomy k i with hlt | rfl | hlt
    · exact absurd (hbefore k hlt) hk
    · rfl
    · exact absurd (hbefore' i hlt) hdecided
  cases h with
  | seen _ hanswer hbefore' =>
    obtain rfl := hfirst (Reply.not_undecided.mpr (.inl hanswer)) hbefore'
    exact .inl ⟨hanswer, rfl⟩
  | broken _ hanswer hbefore' =>
    obtain rfl := hfirst (Reply.not_undecided.mpr (.inr ⟨_, hanswer⟩)) hbefore'
    exact .inr ⟨_, hanswer, rfl⟩
  | exhausted hall => exact absurd (hall i hi) hdecided

theorem ok_iff (h : Settles answers attempts count outcome) :
    outcome = .ok () ↔
      ∃ i < attempts, answers i = .value (.bool true) ∧ ∀ j < i, (answers j).Undecided := by
  constructor
  · rintro rfl
    cases h with
    | seen hi hanswer hbefore => exact ⟨_, hi, hanswer, hbefore⟩
  · rintro ⟨i, hi, hanswer, hbefore⟩
    obtain ⟨-, rfl⟩ | ⟨text, hfailure, -⟩ := h.of_decided hi (Reply.not_undecided.mpr (.inl hanswer)) hbefore
    · rfl
    · cases hanswer.symm.trans hfailure

theorem remote_iff (h : Settles answers attempts count outcome) (text : String) :
    outcome = .error (.remote text) ↔
      ∃ i < attempts, answers i = .failure text ∧ ∀ j < i, (answers j).Undecided := by
  constructor
  · rintro rfl
    cases h with
    | broken hi hanswer hbefore => exact ⟨_, hi, hanswer, hbefore⟩
  · rintro ⟨i, hi, hanswer, hbefore⟩
    obtain ⟨hseen, -⟩ | ⟨text', hfailure, rfl⟩ := h.of_decided hi (Reply.not_undecided.mpr (.inr ⟨_, hanswer⟩)) hbefore
    · cases hanswer.symm.trans hseen
    · cases hanswer.symm.trans hfailure
      rfl

theorem hookAbsent_iff (h : Settles answers attempts count outcome) :
    outcome = .error .hookAbsent ↔ ∀ i < attempts, (answers i).Undecided := by
  constructor
  · rintro rfl
    cases h with
    | exhausted hall => exact hall
  · intro hall
    cases h with
    | seen hi hanswer _ => exact absurd (hall _ hi) (Reply.not_undecided.mpr (.inl hanswer))
    | broken hi hanswer _ => exact absurd (hall _ hi) (Reply.not_undecided.mpr (.inr ⟨_, hanswer⟩))
    | exhausted _ => rfl

end Settles

namespace Step

variable {α β : Type} {step : Step α} {f : α → Step β} {s : Session}

theorem does_pure (a : α) : Does (ExceptT.run (pure a : Step α)) s ⟨.ok a, [], []⟩ := by
  rw [ExceptT.run_pure]
  exact Tester.does_pure

theorem does_throw (failure : Failure) : Does (ExceptT.run (throw failure : Step α)) s ⟨.error failure, [], []⟩ := by
  rw [ExceptT.run_throw]
  exact Tester.does_pure

theorem does_bind {a : α} {d : Doing (Except Failure β)} (h : Does (ExceptT.run step) s ⟨.ok a, sent, []⟩)
    (hf : Does (ExceptT.run (f a)) ((⟨a, sent, []⟩ : Doing α).after s) d) :
    Does (ExceptT.run (step >>= f)) s ⟨d.outcome, sent ++ d.sent, d.notes⟩ := by
  rw [ExceptT.run_bind]
  exact h.bind hf

theorem does_bind_of_error {failure : Failure} (h : Does (ExceptT.run step) s ⟨.error failure, sent, []⟩) :
    Does (ExceptT.run (step >>= f)) s ⟨.error failure, sent, []⟩ := by
  intro t ht
  rw [ExceptT.run_bind, StateT.run_bind, h t ht]
  rfl

/-- A command whose answer is not looked at. -/
theorem does_command (c : Command) (s : Session) :
    Does (ExceptT.run (do let _ ← send c : Step Unit)) s
      ⟨match s.reply 0 with
        | .value _ => .ok ()
        | .failure text => .error (.remote text), [c], []⟩ := by
  have hsend := does_send c s
  cases hanswer : s.reply 0 with
  | failure text =>
    rw [hanswer] at hsend
    exact does_bind_of_error hsend
  | value v =>
    rw [hanswer] at hsend
    exact does_bind (d := ⟨.ok (), [], []⟩) hsend (does_pure ())

theorem awaitHook_succ (attempts : Nat) :
    awaitHook (attempts + 1) =
      send hookQuestion >>= fun v => if v.asBool?.getD false then pure () else awaitHook attempts := rfl

theorem does_awaitHook (attempts : Nat) (s : Session) :
    ∃ count outcome, Settles s.reply attempts count outcome ∧
      Does (ExceptT.run (awaitHook attempts)) s ⟨outcome, List.replicate count hookQuestion, []⟩ := by
  induction attempts generalizing s with
  | zero => exact ⟨0, _, .exhausted nofun, does_throw _⟩
  | succ attempts ih =>
    have hsend := does_send hookQuestion s
    rw [awaitHook_succ]
    cases hanswer : s.reply 0 with
    | failure text =>
      rw [hanswer] at hsend
      exact ⟨1, _, .broken (Nat.succ_pos _) hanswer nofun, does_bind_of_error hsend⟩
    | value v =>
      rw [hanswer] at hsend
      by_cases hv : v = .bool true
      · refine ⟨1, _, .seen (Nat.succ_pos _) (hv ▸ hanswer) nofun, ?_⟩
        refine does_bind (d := ⟨.ok (), [], []⟩) hsend ?_
        rw [if_pos (shows_hook_iff.mpr hv)]
        exact does_pure ()
      · obtain ⟨count, outcome, hsettles, hdoes⟩ := ih ((⟨v, [hookQuestion], []⟩ : Doing Json.Value).after s)
        rw [Doing.reply_after (n := 1) rfl] at hsettles
        refine ⟨count + 1, outcome, hsettles.later (hanswer ▸ hv), ?_⟩
        refine does_bind (d := ⟨outcome, List.replicate count hookQuestion, []⟩) hsend ?_
        rw [if_neg (shows_hook_iff.not.mpr hv)]
        exact hdoes

/-! ### Loading the page -/

theorem does_reload (address : String) (s : Session) :
    ∃ sent outcome, Loads address s.reply sent outcome ∧
      Does (ExceptT.run (reload address)) s ⟨outcome, sent, []⟩ := by
  unfold reload visit
  cases haddress : Address.complete address with
  | error fault => exact ⟨[], _, .refused haddress, does_bind_of_error (does_throw _)⟩
  | ok full =>
    have hvisit := does_command (.visit full) s
    cases hanswer : s.reply 0 with
    | failure text =>
      rw [hanswer] at hvisit
      exact ⟨_, _, .unloaded haddress hanswer, does_bind_of_error hvisit⟩
    | value v =>
      rw [hanswer] at hvisit
      obtain ⟨count, outcome, hsettles, hdoes⟩ :=
        does_awaitHook hookAttempts ((⟨(), [.visit full], []⟩ : Doing Unit).after s)
      rw [Doing.reply_after (n := 1) rfl] at hsettles
      exact ⟨_, _, .waited haddress hanswer hsettles,
        does_bind (d := ⟨outcome, List.replicate count hookQuestion, []⟩) hvisit hdoes⟩

theorem does_freshPage (address : String) (s : Session) :
    ∃ sent outcome, Freshens address s.reply sent outcome ∧
      Does (ExceptT.run (freshPage address)) s ⟨outcome, sent, []⟩ := by
  obtain ⟨sent, outcome, hload, hdoes⟩ := does_reload address s
  unfold freshPage reset
  cases outcome with
  | error failure => exact ⟨sent, _, .unloaded hload, does_bind_of_error hdoes⟩
  | ok _ =>
    have hreset := does_command resetCommand ((⟨(), sent, []⟩ : Doing Unit).after s)
    have hnext : ((⟨(), sent, []⟩ : Doing Unit).after s).reply 0 = s.reply sent.length := (Doing.follows _ s).reply 0
    rw [hnext] at hreset
    cases hanswer : s.reply sent.length with
    | failure text =>
      rw [hanswer] at hreset
      exact ⟨_, _, .unreset hload hanswer,
        does_bind (d := ⟨.error (.remote text), [resetCommand], []⟩) hdoes (does_bind_of_error hreset)⟩
    | value v =>
      rw [hanswer] at hreset
      obtain ⟨sent', outcome, hreload, hdoes'⟩ := does_reload address
        ((⟨(), [resetCommand], []⟩ : Doing Unit).after ((⟨(), sent, []⟩ : Doing Unit).after s))
      have hanswers : ((⟨(), [resetCommand], []⟩ : Doing Unit).after ((⟨(), sent, []⟩ : Doing Unit).after s)).reply =
          fun i => s.reply (i + (sent.length + 1)) := by
        rw [Doing.reply_after (n := 1) rfl, Doing.reply_after (n := sent.length) rfl]
        funext i
        exact congrArg s.reply (by omega)
      rw [hanswers] at hreload
      exact ⟨_, _, .reloaded hload hanswer hreload,
        does_bind (d := ⟨outcome, resetCommand :: sent', []⟩) hdoes
          (does_bind (d := ⟨outcome, sent', []⟩) hreset hdoes')⟩

end Step

namespace Loads

theorem no_reset (h : Loads address answers sent outcome) : resetCommand ∉ sent := by
  have hvisit : ∀ full, resetCommand ≠ .visit full := nofun
  have hquestion : resetCommand ≠ hookQuestion := fun h => absurd (Command.execute.inj h).1 (by decide)
  cases h with
  | refused => exact List.not_mem_nil
  | unloaded => simp [hvisit]
  | waited => simp [hvisit, hquestion]

/-- The hook was seen in the last answer. -/
theorem seen (h : Loads address answers sent (.ok ())) :
    ∃ asked, sent = asked ++ [hookQuestion] ∧ answers asked.length = .value (.bool true) := by
  cases h with
  | @waited full v _ _ haddress hanswer hsettles =>
    cases hsettles with
    | @seen i hi hseen hbefore =>
      refine ⟨.visit full :: List.replicate i hookQuestion, ?_, ?_⟩
      · rw [List.replicate_succ', List.cons_append]
      · simpa using hseen

/-- A load that sends anything starts with the visit. -/
theorem head (h : Loads address answers sent outcome) {full : String} (haddress : Address.complete address = .ok full) :
    sent.head? = some (.visit full) := by
  cases h with
  | refused hrefused => cases haddress.symm.trans hrefused
  | unloaded hfull | waited hfull =>
    cases haddress.symm.trans hfull
    rfl

theorem complete (h : Loads address answers sent (.ok ())) : ∃ full, Address.complete address = .ok full := by
  cases h with
  | waited haddress => exact ⟨_, haddress⟩

end Loads

namespace Freshens

variable {before after : List Command}

/-- There is one reset at most: it follows a load that came out well, and when it does too, the other load follows. -/
theorem cut (h : Freshens address answers sent outcome) (hsent : sent = before ++ resetCommand :: after) :
    Loads address answers before (.ok ()) ∧
      ((∃ text, answers before.length = .failure text) ∨
        Loads address (fun i => answers (i + (before.length + 1))) after outcome) := by
  cases h with
  | unloaded hload => exact absurd (hsent ▸ List.mem_append_right _ List.mem_cons_self) hload.no_reset
  | unreset hload hanswer =>
    obtain ⟨rfl, -, -⟩ := (List.append_cons_inj_of_notMem hload.no_reset List.not_mem_nil).mp hsent
    exact ⟨hload, .inl ⟨_, hanswer⟩⟩
  | reloaded hload hanswer hreload =>
    obtain ⟨rfl, -, rfl⟩ := (List.append_cons_inj_of_notMem hload.no_reset hreload.no_reset).mp hsent
    exact ⟨hload, .inr hreload⟩

theorem reloads (h : Freshens address answers sent outcome) (hsent : sent = before ++ resetCommand :: after)
    {v : Json.Value} (hanswer : answers before.length = .value v) :
    ∃ full, Address.complete address = .ok full ∧ after.head? = some (.visit full) := by
  obtain ⟨hload, ⟨text, hfailure⟩ | hreload⟩ := h.cut hsent
  · cases hanswer.symm.trans hfailure
  · obtain ⟨full, haddress⟩ := hload.complete
    exact ⟨full, haddress, hreload.head haddress⟩

theorem seen_again (h : Freshens address answers sent (.ok ())) :
    ∃ before asked, sent = before ++ resetCommand :: (asked ++ [hookQuestion]) ∧
      (∃ v, answers before.length = .value v) ∧ answers (before.length + 1 + asked.length) = .value (.bool true) := by
  cases h with
  | @reloaded before after _ _ _ hanswer hreload =>
    obtain ⟨asked, rfl, hseen⟩ := hreload.seen
    refine ⟨before, asked, rfl, ⟨_, hanswer⟩, ?_⟩
    rwa [Nat.add_comm]

end Freshens

/-- Waiting for the hook asks until an answer is `true` or a failure, fifty times at most, and leaves the other answers
    to come. It comes out well exactly when the first such answer is `true`, as the failure when it is one, and as the
    lack of a hook when there is none. A page that is loaded without its cookie is only reset right after its hook was
    seen; when that comes out well, the page is loaded again, and all has come out well only once the hook was seen
    after that. -/
theorem hook_seen_before_and_after_reset (s : Session) :
    (∃ count outcome, Does (ExceptT.run Step.ensureHook) s ⟨outcome, List.replicate count hookQuestion, []⟩ ∧
      ((∃ i < 50, count = i + 1 ∧ (s.reply i = .value (.bool true) ∨ ∃ text, s.reply i = .failure text) ∧
          ∀ j < i, (s.reply j).Undecided) ∨
        count = 50 ∧ ∀ i < 50, (s.reply i).Undecided) ∧
      (outcome = .ok () ↔ ∃ i < 50, s.reply i = .value (.bool true) ∧ ∀ j < i, (s.reply j).Undecided) ∧
      (∀ text, outcome = .error (.remote text) ↔
        ∃ i < 50, s.reply i = .failure text ∧ ∀ j < i, (s.reply j).Undecided) ∧
      (outcome = .error .hookAbsent ↔ ∀ i < 50, (s.reply i).Undecided)) ∧
    Failure.hookAbsent.text = "__fsqrTest is not available. Did you pass ?test=1 to the page?" ∧
    ∀ address, ∃ sent outcome, Does (ExceptT.run (Step.freshPage address)) s ⟨outcome, sent, []⟩ ∧
      Freshens address s.reply sent outcome ∧
      (∀ before after, sent = before ++ resetCommand :: after →
        (∃ asked, before = asked ++ [hookQuestion] ∧ s.reply asked.length = .value (.bool true)) ∧
        ∀ v, s.reply before.length = .value v →
          ∃ full, Address.complete address = .ok full ∧ after.head? = some (.visit full)) ∧
      (outcome = .ok () → ∃ before asked, sent = before ++ resetCommand :: (asked ++ [hookQuestion]) ∧
        (∃ v, s.reply before.length = .value v) ∧
        s.reply (before.length + 1 + asked.length) = .value (.bool true)) := by
  refine ⟨?_, rfl, fun address => ?_⟩
  · obtain ⟨count, outcome, hsettles, hdoes⟩ := Step.does_awaitHook 50 s
    exact ⟨count, outcome, hdoes, hsettles.count_eq, hsettles.ok_iff, hsettles.remote_iff, hsettles.hookAbsent_iff⟩
  · obtain ⟨sent, outcome, hfreshens, hdoes⟩ := Step.does_freshPage address s
    refine ⟨sent, outcome, hdoes, hfreshens, fun before after hsent => ?_, ?_⟩
    · exact ⟨(hfreshens.cut hsent).1.seen, fun v hanswer => hfreshens.reloads hsent hanswer⟩
    · rintro rfl
      exact hfreshens.seen_again

end Tester
end PageWidgets
