import PageWidgets.Consent.Cookie
import PageWidgets.Consent.State

/-! Visits to a page that asks for consent: a jar of cookies that outlives the visits, and the session of the
    current one. Whatever a session wants to be kept is stored in the jar at once. -/

namespace PageWidgets
namespace Consent

open Calendar

/-- The jar, and the session of the current visit, when the overlay was needed. -/
structure Visits where
  jar : Jar
  session : Option Session
  deriving DecidableEq, Repr

namespace Visits

/-- An empty jar and no visit. -/
def start : Visits := ⟨.empty, none⟩

/-- Something that happens on a site. -/
inductive Step where
  /-- The page is opened. -/
  | visit
  /-- A control is used; one that stands for no action has none. -/
  | control (action : Option Action)
  /-- The overlay is gone from sight. -/
  | finishTeardown
  /-- Someone assigns a cookie. -/
  | store (assignment : String)
  /-- The consent cookie is deleted. -/
  | delete
  deriving DecidableEq, Repr

/-- What a step led to: whether the overlay was needed, the work of the session, and the assignment that kept
    the choice. -/
structure Outcome where
  required : Option Bool
  effects : List Effect
  header : Option String
  deriving DecidableEq, Repr

/-- Stores every record that the effects want kept, and tells the last assignment. -/
def persist (c : Cookie) (now : Instant) :
    Jar → Option String → List Effect → Except DateOverflow (Jar × Option String)
  | j, last, [] => .ok (j, last)
  | j, _, .persist r :: rest =>
    match c.header r now with
    | .error e => .error e
    | .ok header => persist c now (j.store header now) (some header) rest
  | j, last, _ :: rest => persist c now j last rest

/-- The session after a call on it, when there is one. -/
def call (v : Visits) (f : Session → Session × List Effect) : Option Session × List Effect :=
  match v.session with
  | none => (none, [])
  | some s => let (t, effects) := f s; (some t, effects)

/-- The session after a step, whether the overlay was needed, and the work of the session. -/
def sessionStep (settings : ConsentSettings) (v : Visits) :
    Step → Option Session × Option Bool × List Effect
  | .visit =>
    if overlayRequired v.jar.document settings then
      let (s, effects) := Session.fresh.show_
      (some s, some true, effects)
    else (none, some false, [])
  | .control (some a) => let (s, effects) := v.call (·.apply a); (s, none, effects)
  | .finishTeardown => let (s, effects) := v.call (·.finishTeardown); (s, none, effects)
  | _ => (v.session, none, [])

/-- The jar after a step, before the session's work is done. -/
def jarStep (c : Cookie) (j : Jar) (now : Instant) : Step → Jar
  | .store assignment => j.store assignment now
  | .delete => j.store c.deletion now
  | _ => j

/-- Takes a step at an instant. -/
def step (settings : ConsentSettings) (v : Visits) (s : Step) (now : Instant) :
    Except DateOverflow (Visits × Outcome) :=
  let c := Cookie.ofSettings settings
  let (session, required, effects) := v.sessionStep settings s
  match persist c now (jarStep c v.jar now s) none effects with
  | .error e => .error e
  | .ok (jar, header) => .ok (⟨jar, session⟩, ⟨required, effects, header⟩)

/-- What the page tells about consent. -/
def state (settings : ConsentSettings) (v : Visits) : State :=
  .ofDocument v.jar.document settings.cookieName (v.session.map (·.phase))

end Visits
end Consent
end PageWidgets
