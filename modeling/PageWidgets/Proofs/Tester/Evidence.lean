import Mathlib.Data.List.TakeWhile
import PageWidgets.Proofs.Tester.Replies
import PageWidgets.Proofs.Text.Utf8
import PageWidgets.Tester.Evidence

/-! Evidence of a failure. Collecting it sends three commands whatever comes back, and keeps of each answer what can be
    used, so a browser that is gone only loses its share. The files say what the evidence holds, and they are written
    one after the other until the system refuses one. -/

namespace PageWidgets
namespace Tester
namespace Evidence

/-- The question for the state of a page. -/
def stateQuestion : Command := .execute "return window.__fsqrTest.state()" []

/-- The commands that collecting evidence sends. -/
def commands : List Command := [stateQuestion, .screenshot, .source]

/-- Evidence of a failure tells what the session answers to these commands: a state that can be read, a picture that can
    be decoded, and a text. -/
structure Tells (f : Failure) (s : Session) (e : Evidence) : Prop where
  state {told : PageState} :
    e.state = some told ↔ ∃ v, s.reply 0 = .value v ∧ PageState.reader.convert v = .ok told
  screenshot {picture : List UInt8} : e.screenshot = some picture ↔
    ∃ text, s.reply 1 = .value (.string text) ∧ Text.base64Decode text.toList = some picture
  source {text : String} : e.source = some text ↔ s.reply 2 = .value (.string text)
  failure : e.failure = f.text

/-- What evidence holds, under the names of its files. -/
inductive Holds (e : Evidence) : String → List UInt8 → Prop
  | screenshot {picture : List UInt8} (h : e.screenshot = some picture) : Holds e "screenshot.png" picture
  | source {text : String} (h : e.source = some text) : Holds e "dom.html" text.toUTF8.data.toList
  | state {told : PageState} (h : e.state = some told) :
    Holds e "state.json" told.toValue.pretty.toUTF8.data.toList
  | summary : Holds e "summary.txt" e.summary.toUTF8.data.toList

/-- What is written of evidence: all that it holds, each under its own name, up to the first file that the system
    refuses, and nothing when the folder is refused. -/
structure Kept (e : Evidence) (writable : String → Bool) (folder : String) (written : List (String × List UInt8)) :
    Prop where
  holds {name : String} {bytes : List UInt8} : (name, bytes) ∈ e.files ↔ e.Holds name bytes
  distinct : (e.files.map (·.1)).Nodup
  summary : ∃ known, e.summary = "error: " ++ e.failure ++ "\n" ++ known
  initial : written <+: e.files
  allowed : ∀ file ∈ written, writable folder = true ∧ writable (inFolder folder file.1) = true
  refused : ∀ file rest, e.files = written ++ file :: rest →
    writable folder = false ∨ writable (inFolder folder file.1) = false

variable {α : Type} {step : Step α} {s : Session} {e : Evidence} {writable : String → Bool} {folder : String}

/-! ### Collecting -/

theorem does_attempt {outcome : Except Failure α} {sent : List Command}
    (h : Does (ExceptT.run step) s ⟨outcome, sent, []⟩) : Does (attempt step) s ⟨outcome.toOption, sent, []⟩ := by
  refine List.append_nil sent ▸ does_bind h ?_
  cases outcome with
  | ok a => exact does_pure
  | error f => exact does_pure

/-- A command that is tried gives the value that the session answers. -/
theorem does_attempt_send (c : Command) (s : Session) :
    ∃ answer : Option Json.Value, (∀ v, answer = some v ↔ s.reply 0 = .value v) ∧
      Does (attempt (Step.send c)) s ⟨answer, [c], []⟩ := by
  refine ⟨_, fun v => ?_, does_attempt (Step.does_send c s)⟩
  cases s.reply 0 <;> simp [Except.toOption]

theorem does_pageState (s : Session) : Does (ExceptT.run Step.pageState) s
    ⟨match s.reply 0 with
      | .value v => (PageState.reader.convert v).mapError .stateUnread
      | .failure text => .error (.remote text), [stateQuestion], []⟩ := by
  have hsend := Step.does_send stateQuestion s
  rw [Step.pageState, ExceptT.run_bind]
  show Does _ s ⟨_, [_] ++ [], []⟩
  refine does_bind hsend ?_
  cases s.reply 0 with
  | failure text => exact does_pure
  | value v =>
    dsimp only
    cases PageState.reader.convert v with
    | error fault => exact does_pure
    | ok told => exact does_pure

/-- Asking for the state gives it when the answer can be read. -/
theorem does_attempt_pageState (s : Session) :
    ∃ state : Option PageState,
      (∀ told, state = some told ↔ ∃ v, s.reply 0 = .value v ∧ PageState.reader.convert v = .ok told) ∧
      Does (attempt Step.pageState) s ⟨state, [stateQuestion], []⟩ := by
  refine ⟨_, fun told => ?_, does_attempt (does_pageState s)⟩
  cases s.reply 0 with
  | failure text => simp [Except.toOption]
  | value v => cases hread : PageState.reader.convert v <;> simp [Except.toOption, Except.mapError, hread]

theorem asString?_eq_some {v : Json.Value} {text : String} : v.asString? = some text ↔ v = .string text := by
  cases v <;> simp [Json.Value.asString?]

/-- Collecting evidence sends its commands whatever comes back, and the evidence tells what did. -/
theorem does_collect (f : Failure) (s : Session) : ∃ e, Tells f s e ∧ Does (collect f) s ⟨e, commands, []⟩ := by
  obtain ⟨state, hstate, hfirst⟩ := does_attempt_pageState s
  let asked := Doing.after ⟨state, [stateQuestion], []⟩ s
  obtain ⟨picture, hpicture, hsecond⟩ := does_attempt_send .screenshot asked
  obtain ⟨source, hsource, hthird⟩ := does_attempt_send .source (Doing.after ⟨picture, [.screenshot], []⟩ asked)
  rw [Doing.reply_after (n := 1) rfl] at hpicture
  rw [Doing.reply_after (n := 1) rfl, Doing.reply_after (n := 1) rfl] at hsource
  refine ⟨⟨(picture.bind (·.asString?)).bind fun s => Text.base64Decode s.toList, source.bind (·.asString?), state,
    f.text⟩, ⟨hstate _, ?_, ?_, rfl⟩, does_bind hfirst (does_bind hsecond (does_bind hthird does_pure))⟩
  · intro bytes
    simp only [Option.bind_eq_some_iff, asString?_eq_some, hpicture, exists_eq_right]
  · intro text
    simp only [Option.bind_eq_some_iff, asString?_eq_some, hsource, exists_eq_right]

/-! ### Files -/

theorem mem_files {name : String} {bytes : List UInt8} : (name, bytes) ∈ e.files ↔ e.Holds name bytes := by
  simp only [files, List.mem_append, List.mem_map, Option.mem_toList, List.mem_singleton, Text.utf8_toList]
  constructor
  · rintro (((⟨picture, h, heq⟩ | ⟨text, h, heq⟩) | ⟨told, h, heq⟩) | heq)
    · obtain ⟨rfl, rfl⟩ := Prod.mk.inj heq
      exact .screenshot h
    · obtain ⟨rfl, rfl⟩ := Prod.mk.inj heq
      exact .source h
    · obtain ⟨rfl, rfl⟩ := Prod.mk.inj heq
      exact .state h
    · obtain ⟨rfl, rfl⟩ := Prod.mk.inj heq
      exact .summary
  · rintro (h | h | h | _)
    · exact .inl (.inl (.inl ⟨_, h, rfl⟩))
    · exact .inl (.inl (.inr ⟨_, h, rfl⟩))
    · exact .inl (.inr ⟨_, h, rfl⟩)
    · exact .inr rfl

theorem nodup_files (e : Evidence) : (e.files.map (·.1)).Nodup := by
  obtain ⟨screenshot, source, state, failure⟩ := e
  cases screenshot <;> cases source <;> cases state <;> simp [files]

theorem exists_summary (e : Evidence) : ∃ known, e.summary = "error: " ++ e.failure ++ "\n" ++ known := by
  unfold summary
  exact ⟨_, String.join_cons⟩

theorem eq_false_of_takeWhile {p : α → Bool} {l rest : List α} {a : α} (h : l = l.takeWhile p ++ a :: rest) :
    p a = false := by
  by_contra ha
  have htaken : (l.takeWhile p ++ a :: rest).takeWhile p = l.takeWhile p ++ (a :: rest).takeWhile p :=
    List.takeWhile_append_of_pos fun _ => List.mem_takeWhile_imp
  rw [← h, List.takeWhile_cons_of_pos ((Bool.not_eq_false _).mp ha)] at htaken
  simp at htaken

theorem kept_written (e : Evidence) (writable : String → Bool) (folder : String) :
    e.Kept writable folder (e.written writable folder) where
  holds := mem_files
  distinct := nodup_files e
  summary := exists_summary e
  initial := by
    unfold written
    split
    · exact List.takeWhile_prefix _
    · exact List.nil_prefix
  allowed file hfile := by
    unfold written at hfile
    split at hfile
    · next h =>
      have hwritable := List.mem_takeWhile_imp hfile
      exact ⟨h, hwritable⟩
    · cases hfile
  refused file rest hrest := by
    unfold written at hrest
    split at hrest
    · have hrefused := eq_false_of_takeWhile hrest
      exact .inr hrefused
    · next h => exact .inl ((Bool.not_eq_true _).mp h)

end Evidence
end Tester
end PageWidgets
