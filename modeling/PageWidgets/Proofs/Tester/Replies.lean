import Mathlib.Data.List.Basic
import PageWidgets.Tester.Script

/-! What a test reads of a session. Every command takes one reply, in order, and nothing else of the session has an
    influence on what comes of a test: two sessions that answer its commands alike see the same commands and notes, and
    it comes to the same. This goes through every way to put steps together, so it holds of every script. -/

namespace PageWidgets
namespace Tester

namespace Session

/-- The reply to the command of that number, counted from the next one. -/
def reply (s : Session) (i : Nat) : Reply := s.replies.getD i (.value .null)

theorem nextReply_eq (s : Session) : s.nextReply = s.reply 0 := by
  cases h : s.replies <;> simp [nextReply, reply, h]

end Session

/-- The session after some more commands, with the replies that they left. -/
structure Session.Follows (s after : Session) (commands : List Command) : Prop where
  sent : after.sent = s.sent ++ commands
  replies : after.replies = s.replies.drop commands.length

namespace Session.Follows

variable {s t u : Session} {commands more : List Command}

theorem refl (s : Session) : s.Follows s [] := ⟨(List.append_nil _).symm, rfl⟩

theorem trans (h : s.Follows t commands) (h' : t.Follows u more) : s.Follows u (commands ++ more) where
  sent := by rw [h'.sent, h.sent, List.append_assoc]
  replies := by rw [h'.replies, h.replies, List.drop_drop, List.length_append]

theorem reply (h : s.Follows t commands) (i : Nat) : t.reply i = s.reply (commands.length + i) := by
  simp [Session.reply, h.replies, List.getD_eq_getElem?_getD]

theorem unique (h : s.Follows t commands) (h' : s.Follows t more) : commands = more :=
  List.append_cancel_left (h.sent.symm.trans h'.sent)

theorem length_sent (h : s.Follows t commands) : t.sent.length = s.sent.length + commands.length := by
  rw [h.sent, List.length_append]

end Session.Follows

/-- What a computation did in a session: what it came to, the commands it sent, and the notes it took. -/
structure Doing (α : Type) where
  outcome : α
  sent : List Command
  notes : List String

/-- The session afterwards. -/
def Doing.after {α : Type} (d : Doing α) (s : Session) : Session :=
  ⟨s.replies.drop d.sent.length, s.sent ++ d.sent, s.notes ++ d.notes⟩

theorem Doing.follows {α : Type} (d : Doing α) (s : Session) : s.Follows (d.after s) d.sent := ⟨rfl, rfl⟩

/-- The replies that are left after some were taken. -/
theorem Doing.reply_after {α : Type} {d : Doing α} {s : Session} {n : Nat} (h : d.sent.length = n) :
    (d.after s).reply = fun i => s.reply (i + n) := by
  funext i
  rw [(d.follows s).reply, h, Nat.add_comm]

/-- The computation does this in every session that answers its commands as `s` does. -/
def Does {α : Type} (m : StateM Session α) (s : Session) (d : Doing α) : Prop :=
  ∀ t : Session, (∀ i < d.sent.length, t.reply i = s.reply i) → m.run t = (d.outcome, d.after t)

/-- In every session there is something that the computation does. -/
def Orderly {α : Type} (m : StateM Session α) : Prop := ∀ s, ∃ d, Does m s d

section Computations

variable {α β : Type} {m : StateM Session α} {f : α → StateM Session β} {s : Session}

theorem Does.run {d : Doing α} (h : Does m s d) : m.run s = (d.outcome, d.after s) := h s fun _ _ => rfl

/-- Replies that were not taken have no influence. -/
theorem Does.of_replies {d : Doing α} {t : Session} (h : Does m s d)
    (ht : ∀ i < d.sent.length, t.reply i = s.reply i) : Does m t d :=
  fun u hu => h u fun i hi => (hu i hi).trans (ht i hi)

theorem does_pure {a : α} : Does (pure a) s ⟨a, [], []⟩ := fun t _ => by
  simp only [Doing.after, List.length_nil, List.drop_zero, List.append_nil]
  rfl

theorem orderly_pure (a : α) : Orderly (pure a : StateM Session α) := fun _ => ⟨_, does_pure⟩

/-- What follows finds the replies that are left. -/
theorem Does.bind {d : Doing α} {d' : Doing β} (h : Does m s d) (h' : Does (f d.outcome) (d.after s) d') :
    Does (m >>= f) s ⟨d'.outcome, d.sent ++ d'.sent, d.notes ++ d'.notes⟩ := by
  intro t ht
  simp only [List.length_append] at ht
  have hfirst := h t fun i hi => ht i (by omega)
  have hnext := h' (d.after t) fun i hi => by
    rw [(d.follows t).reply, (d.follows s).reply]
    exact ht _ (by omega)
  rw [StateT.run_bind, hfirst]
  refine hnext.trans ?_
  simp [Doing.after, List.drop_drop]

/-- The same for computations that take no notes. -/
theorem does_bind {a : α} {b : β} {sent sent' : List Command} (h : Does m s ⟨a, sent, []⟩)
    (h' : Does (f a) ((⟨a, sent, []⟩ : Doing α).after s) ⟨b, sent', []⟩) : Does (m >>= f) s ⟨b, sent ++ sent', []⟩ :=
  h.bind h'

theorem Orderly.bind (hm : Orderly m) (hf : ∀ a, Orderly (f a)) : Orderly (m >>= f) := by
  intro s
  obtain ⟨d, hd⟩ := hm s
  obtain ⟨d', hd'⟩ := hf d.outcome (d.after s)
  exact ⟨_, hd.bind hd'⟩

end Computations

namespace Step

variable {α β : Type} {step : Step α} {f : α → Step β}

/-- Whether it fails or not, the step does something. -/
def Orderly (step : Step α) : Prop := Tester.Orderly (ExceptT.run step)

@[simp] theorem orderly_pure (a : α) : Orderly (pure a) := by
  rw [Orderly, ExceptT.run_pure]
  exact Tester.orderly_pure (Except.ok a)

@[simp] theorem orderly_throw (failure : Failure) : Orderly (throw failure : Step α) := by
  rw [Orderly, ExceptT.run_throw]
  exact Tester.orderly_pure (Except.error failure)

/-- A failure ends the steps. -/
@[simp] theorem orderly_bind (h : Orderly step) (hf : ∀ a, Orderly (f a)) : Orderly (step >>= f) := by
  rw [Orderly, ExceptT.run_bind]
  refine Tester.Orderly.bind h fun result => ?_
  cases result with
  | ok a => exact hf a
  | error failure => exact Tester.orderly_pure (Except.error failure)

@[simp] theorem orderly_map (h : Orderly step) (g : α → β) : Orderly (g <$> step) := by
  rw [← bind_pure_comp]
  exact orderly_bind h fun _ => orderly_pure _

/-! ### Single steps -/

theorem run_send (c : Command) (s : Session) :
    (ExceptT.run (send c)).run s =
      (match s.nextReply with
        | .value v => .ok v
        | .failure text => .error (.remote text), s.afterSending c) := by
  change (ExceptT.run (match s.nextReply with
    | .value v => pure v
    | .failure text => throw (.remote text) : Step Json.Value)).run (s.afterSending c) = _
  cases s.nextReply <;> rfl

/-- A command takes one reply, and comes to what it says. -/
theorem does_send (c : Command) (s : Session) :
    Does (ExceptT.run (send c)) s
      ⟨match s.reply 0 with
        | .value v => .ok v
        | .failure text => .error (.remote text), [c], []⟩ := by
  intro t ht
  have hreply : t.reply 0 = s.reply 0 := ht 0 Nat.one_pos
  rw [run_send, t.nextReply_eq, hreply]
  simp [Doing.after, Session.afterSending]

@[simp] theorem orderly_send (c : Command) : Orderly (send c) := fun s => ⟨_, does_send c s⟩

@[simp] theorem orderly_note (text : String) : Orderly (note text) := fun _ => by
  refine ⟨⟨.ok (), [], [text]⟩, fun t _ => ?_⟩
  simp only [Doing.after, List.length_nil, List.drop_zero, List.append_nil]
  rfl

@[simp] theorem orderly_ensure (condition : Bool) (expectation : String) : Orderly (ensure condition expectation) := by
  cases condition <;> simp [ensure]

@[simp] theorem orderly_lift (attempt : Except Failure α) : Orderly (lift attempt) := by
  cases attempt <;> simp [lift]

@[simp] theorem orderly_execute (script : String) (arguments : List Json.Value) :
    Orderly (execute script arguments) := orderly_send _

@[simp] theorem orderly_visit (address : String) : Orderly (visit address) := by
  unfold visit
  split <;> simp

/-! ### The hook and the page -/

/-- Asking for the hook takes as many replies as it takes attempts. -/
@[simp] theorem orderly_awaitHook (attempts : Nat) : Orderly (awaitHook attempts) := by
  induction attempts with
  | zero => simp [awaitHook]
  | succ attempts ih =>
    refine orderly_bind (orderly_execute _ _) fun v => ?_
    split
    · exact orderly_pure _
    · exact ih

@[simp] theorem orderly_pageState : Orderly pageState := by
  refine orderly_bind (orderly_execute _ _) fun v => ?_
  split <;> simp

@[simp] theorem orderly_enhance : Orderly enhance := by
  refine orderly_bind (orderly_execute _ _) fun v => ?_
  split <;> simp

@[simp] theorem orderly_onElement (selector body : String) (extra : List Json.Value) :
    Orderly (onElement selector body extra) := by
  refine orderly_bind (orderly_execute _ _) fun v => ?_
  split <;> simp

@[simp] theorem orderly_selectState (id : String) : Orderly (selectState id) := by simp [selectState]

@[simp] theorem orderly_click (selector : String) : Orderly (click selector) := by simp [click]

@[simp] theorem orderly_press (selector key : String) : Orderly (press selector key) := by simp [press]

@[simp] theorem orderly_pointerDown (selector : String) : Orderly (pointerDown selector) := by simp [pointerDown]

@[simp] theorem orderly_attributeOf (selector name : String) : Orderly (attributeOf selector name) := by
  simp [attributeOf]

@[simp] theorem orderly_hasClass (selector className : String) : Orderly (hasClass selector className) := by
  simp [hasClass]

@[simp] theorem orderly_count (selector : String) : Orderly (count selector) := by simp [count]

@[simp] theorem orderly_inject (markup : String) : Orderly (inject markup) := by simp [inject]

@[simp] theorem orderly_watchChanges (selector : String) : Orderly (watchChanges selector) := by simp [watchChanges]

@[simp] theorem orderly_changeCount : Orderly changeCount := by simp [changeCount]

@[simp] theorem orderly_reload (address : String) : Orderly (reload address) := by simp [reload, ensureHook]

@[simp] theorem orderly_freshPage (address : String) : Orderly (freshPage address) := by simp [freshPage, reset]

end Step

/-! ### Scripts -/

theorem Script.orderly_highlightPath (keys : List String) : Step.Orderly (Script.highlightPath keys) := by
  induction keys with
  | nil => simp [Script.highlightPath]
  | cons key keys ih =>
    refine Step.orderly_bind (Step.orderly_press _ _) fun _ => ?_
    refine Step.orderly_bind (Step.orderly_selectState _) fun _ => ?_
    exact Step.orderly_bind ih fun _ => Step.orderly_pure _

/-- Scripts are sequences of orderly steps. -/
theorem Scenario.orderly_script (s : Scenario) (address : String) : Step.Orderly (s.script address) := by
  cases s
  all_goals
    unfold Scenario.script
    repeat refine Step.orderly_bind (by simp [Script.orderly_highlightPath]) fun _ => ?_
    simp

end Tester
end PageWidgets
