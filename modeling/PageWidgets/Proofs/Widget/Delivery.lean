import Mathlib.Algebra.GroupWithZero.Nat
import PageWidgets.Proofs.Page.Edit
import PageWidgets.Widget.Visitor

/-! What happens to a live page, and what the delivery of an event does with it. A delivery is nothing but calls of
    listeners, one after the other: what each call keeps, the delivery keeps (`deliver_keeps`). -/

namespace PageWidgets
namespace Widget

open Page

/-- What a visitor or the browser does: a click, any event, a choice in a native select, or letting time pass. -/
inductive Occasion where
  | click (id : Nat)
  | event (e : Event)
  | pick (native : Nat) (index : Option Nat)
  | pass (ms : Nat)
  deriving DecidableEq, Repr

/-- The milliseconds that an occasion takes. -/
def Occasion.duration : Occasion → Nat
  | .pass ms => ms
  | _ => 0

/-- The milliseconds that occasions take. -/
def elapsed (os : List Occasion) : Nat := (os.map Occasion.duration).sum

namespace Live

/-- The live page after an occasion. -/
def meet (l : Live) : Occasion → Live
  | .click id => (l.click id).1
  | .event e => (l.dispatch e).1
  | .pick native index => (l.pick native index).1
  | .pass ms => l.advance ms

def meetAll (l : Live) (os : List Occasion) : Live := os.foldl meet l

/-! ### Calls of listeners -/

section
variable {h : Event → Handler → Live → Live × Bool} {e : Event} {l : Live} {x : Listener} {prevented : Bool}

theorem call_of_mem (hx : x ∈ l.listeners) (honce : x.once = false) :
    call h e (l, prevented) x =
      ((h e x.handler l).1, prevented || ((h e x.handler l).2 && e.cancelable && !x.passive)) := by
  have hthere : (l.listeners.any fun y => y.id = x.id) = true := List.any_eq_true.mpr ⟨x, hx, by simp⟩
  unfold call
  simp only [hthere, honce, if_true, Bool.false_eq_true, if_false]

/-- The live page without a listener. -/
def without (l : Live) (x : Listener) : Live := { l with listeners := l.listeners.filter fun y => y.id ≠ x.id }

/-- The listener hears an event of that type at one of the stops. -/
def Hears (e : Event) (ss : List Stop) (x : Listener) : Prop := x.type = e.type ∧ ∃ s ∈ ss, x.place = s.place

variable {P : Live → Prop} {I : Listener → Prop} {ss : List Stop}

/-- What a call may rely on: `P` of the live page, `I` of the listener, which hears the event at one of the stops. A
    listener that is called once is gone before its call. -/
structure Kept (h : Event → Handler → Live → Live × Bool) (e : Event) (ss : List Stop) (P : Live → Prop)
    (I : Listener → Prop) : Prop where
  listeners : ∀ l, P l → ∀ x ∈ l.listeners, I x
  once : ∀ l x, P l → I x → Hears e ss x → x.once = true → P (l.without x)
  call : ∀ l x, P l → I x → Hears e ss x → P (h e x.handler l).1

theorem Kept.call_keeps (k : Kept h e ss P I) (hl : P l) (hx : I x) (hhears : Hears e ss x) :
    P (Live.call h e (l, prevented) x).1 := by
  unfold Live.call
  dsimp only
  split
  · by_cases honce : x.once = true
    · simp only [honce, if_true]
      exact k.call _ x (k.once l x hl hx hhears honce) hx hhears
    · simp only [honce, if_false, Bool.false_eq_true]
      exact k.call l x hl hx hhears
  · exact hl

theorem Kept.calls_keep (k : Kept h e ss P I) {xs : List Listener} (hxs : ∀ x ∈ xs, I x ∧ Hears e ss x)
    {at_ : Live × Bool} (hl : P at_.1) : P (xs.foldl (Live.call h e) at_).1 := by
  induction xs generalizing at_ with
  | nil => exact hl
  | cons x xs ih =>
    obtain ⟨hx, hhears⟩ := hxs x List.mem_cons_self
    exact ih (fun y hy => hxs y (List.mem_cons_of_mem x hy)) (k.call_keeps hl hx hhears)

theorem Kept.heard (k : Kept h e ss P I) {s : Stop} (hs : s ∈ ss) (hl : P l) :
    ∀ x ∈ l.listeners.filter fun x => x.place = s.place ∧ x.type = e.type ∧ x.capture = s.capture,
      I x ∧ Hears e ss x := by
  intro x hx
  obtain ⟨hmem, hcond⟩ := List.mem_filter.mp hx
  have hcond' : x.place = s.place ∧ x.type = e.type ∧ x.capture = s.capture := by simpa using hcond
  exact ⟨k.listeners l hl x hmem, hcond'.2.1, s, hs, hcond'.1⟩

theorem Kept.visit_keeps (k : Kept h e ss P I) {at_ : Live × Bool} {s : Stop} (hs : s ∈ ss) (hl : P at_.1) :
    P (visit h e at_ s).1 :=
  k.calls_keep (k.heard hs hl) hl

theorem Kept.visits_keep (k : Kept h e ss P I) {at_ : Live × Bool} {visited : List Stop}
    (hvisited : ∀ s ∈ visited, s ∈ ss) (hl : P at_.1) : P (visited.foldl (visit h e) at_).1 := by
  induction visited generalizing at_ with
  | nil => exact hl
  | cons s visited ih =>
    exact ih (fun t ht => hvisited t (List.mem_cons_of_mem s ht)) (k.visit_keeps (hvisited s List.mem_cons_self) hl)

/-- What every call keeps, a delivery keeps. -/
theorem deliver_keeps (k : Kept h e (l.page.stops e) P I) (hl : P l) : P (l.deliver h e).1 :=
  k.visits_keep (fun _ hs => hs) hl

end

end Live
end Widget
end PageWidgets
