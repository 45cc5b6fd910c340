import PageWidgets.Proofs.Listbox.Coherence
import PageWidgets.Proofs.Listbox.Panel

/-! The work of an operation as a page does it, piece by piece, while others listen. After an announcement nothing but
    closing is left (`Timely`). So when the listbox answers to the announcement itself, its work goes ahead of what is
    still due, and the panel ends up showing the new state all the same (`Answers`). -/

namespace PageWidgets
namespace Listbox

namespace Effect

/-- Work that closes the menu. -/
def Closing : Effect → Prop
  | .collapse | .unlisten | .focusTrigger => True
  | _ => False

/-- Work that points at an entry. -/
def Pointing : Effect → Prop
  | .highlight _ _ | .reflect _ => True
  | _ => False

end Effect

/-- Work that announces once at most, and closes after that. -/
inductive Timely : List Effect → Prop where
  | nil : Timely []
  | announce {rest : List Effect} (h : ∀ e ∈ rest, e.Closing) : Timely (.notify :: rest)
  | cons {e : Effect} {rest : List Effect} (he : e ≠ .notify) (h : Timely rest) : Timely (e :: rest)

theorem Timely.of_silent {work : List Effect} (h : .notify ∉ work) : Timely work := by
  induction work with
  | nil => exact .nil
  | cons e rest ih =>
    rw [List.mem_cons, not_or] at h
    exact .cons (Ne.symm h.1) (ih h.2)

/-! ### Closing work -/

namespace Panel

/-- Closing asks nothing of what is pointed at, so pointing may as well be done before it. -/
theorem work_closing {p q : Panel} {due : List Effect} (hdue : ∀ e ∈ due, e.Closing) (h : p.work due = some q)
    {e : Effect} (he : e.Pointing) : (p.doing e).work due = some (q.doing e) := by
  induction due generalizing p with
  | nil =>
    cases h
    rfl
  | cons d due ih =>
    have hd := hdue d List.mem_cons_self
    have hswap : (p.doing e).admits d = p.admits d ∧ (p.doing e).doing d = (p.doing d).doing e := by
      cases e <;> first | exact False.elim he | (cases d <;> first | exact False.elim hd | exact ⟨rfl, rfl⟩)
    rw [work] at h ⊢
    rw [hswap.1, hswap.2]
    split at h
    · next hadmits =>
      rw [if_pos hadmits]
      exact ih (fun f hf => hdue f (List.mem_cons_of_mem d hf)) h
    · cases h

end Panel

/-! ### The work of operations -/

theorem Move.selectable_of_mem {s t : State} {work : List Effect} (h : Move s work t) {i : Nat} {focus : Bool}
    (hi : .highlight i focus ∈ work) : s.selectable i = true := by
  induction h with
  | rest => exact absurd hi List.not_mem_nil
  | highlight _ hsel =>
    cases List.mem_singleton.mp hi
    exact hsel
  | @openMenu s hclosed =>
    unfold State.openingWork at hi
    split at hi
    · next hsel =>
      have hactive : i = s.active := by
        split at hi <;> simp_all
      rw [hactive]
      exact hsel
    · split at hi <;> simp at hi
  | @closeMenu s focusTrigger hopen =>
    unfold State.closingWork at hi
    cases s.listening <;> cases focusTrigger <;> simp at hi
  | choose hsel =>
    simp only [State.choosingWork, List.mem_cons, List.not_mem_nil] at hi
    simp_all
  | trans hst _ ih₁ ih₂ =>
    rcases List.mem_append.mp hi with hi | hi
    · exact ih₁ hi
    · have hentries := ih₂ hi
      unfold State.selectable at hentries ⊢
      rw [← hst.entries_eq]
      exact hentries

namespace State

variable (s : State)

theorem closing_of_mem_closeMenu {focusTrigger : Bool} {e : Effect} (h : e ∈ (s.closeMenu focusTrigger).2) :
    e.Closing := by
  unfold closeMenu at h
  split at h
  · cases s.listening <;> cases focusTrigger <;> simp at h <;> grind [Effect.Closing]
  · exact absurd h List.not_mem_nil

theorem notify_not_mem_closeMenu (focusTrigger : Bool) : .notify ∉ (s.closeMenu focusTrigger).2 :=
  fun h => s.closing_of_mem_closeMenu h

theorem notify_not_mem_highlight (i : Nat) (focus : Bool) : .notify ∉ (s.highlight i focus).2 := by
  unfold highlight
  split <;> simp

theorem notify_not_mem_openMenu : .notify ∉ s.openMenu.2 := by
  have hhighlight := notify_not_mem_highlight { s with isOpen := true } s.active true
  unfold openMenu
  split
  · exact List.not_mem_nil
  · show .notify ∉ .expand :: ({ s with isOpen := true }.highlight s.active true).2 ++
      (if s.listening then [] else [.listen])
    split <;> simpa using hhighlight

theorem notify_not_mem_toggle : .notify ∉ s.toggle.2 := by
  unfold toggle
  split
  · exact s.notify_not_mem_closeMenu false
  · exact s.notify_not_mem_openMenu

theorem notify_not_mem_moveTo (target : Option Nat) : .notify ∉ (s.moveTo target).2 := by
  cases target with
  | none => exact List.not_mem_nil
  | some i => exact s.notify_not_mem_highlight i true

theorem notify_not_mem_openAndStep (d : Direction) : .notify ∉ (s.openAndStep d).2 := by
  intro h
  rcases List.mem_append.mp h with h | h
  · exact s.notify_not_mem_openMenu h
  · exact notify_not_mem_moveTo _ _ h

/-- A choice that closes an open listbox has the closing of the page as its last work. -/
theorem commit_of_open (hopen : s.isOpen = true) (hlistening : s.listening = true) {i : Nat}
    (hi : s.selectable i = true) : (s.commit i true).2 = choosingWork i ++ [.collapse, .unlisten, .focusTrigger] := by
  simp [commit, hi, closeMenu, hopen, hlistening, choosingWork]

/-- A choice that closes nothing has the announcement as its last work. -/
theorem commit_of_closed {i : Nat} {close : Bool} (hstays : close = true → s.isOpen = false)
    (hi : s.selectable i = true) : (s.commit i close).2 = choosingWork i := by
  cases close with
  | false => simp [commit, hi, choosingWork]
  | true => simp [commit, hi, closeMenu, hstays rfl, choosingWork]

/-- Choosing announces the choice, and may close after that. -/
theorem commit_timely (i : Nat) (close : Bool) : Timely (s.commit i close).2 := by
  unfold commit
  split
  · cases close
    · exact .cons nofun (.cons nofun (.cons nofun (.announce fun e he => absurd he List.not_mem_nil)))
    · exact .cons nofun (.cons nofun (.cons nofun (.announce fun e he => closing_of_mem_closeMenu _ he)))
  · exact .nil

theorem triggerKey_timely (key : Key) : Timely (s.triggerKey key).2.effects := by
  cases key with
  | arrowDown => exact .of_silent (s.notify_not_mem_openAndStep .forward)
  | arrowUp => exact .of_silent (s.notify_not_mem_openAndStep .backward)
  | enter => exact .of_silent s.notify_not_mem_toggle
  | space => exact .of_silent s.notify_not_mem_toggle
  | escape => exact .of_silent (s.notify_not_mem_closeMenu false)
  | home => exact .nil
  | «end» => exact .nil
  | tab => exact .nil
  | other => exact .nil

theorem menuKey_timely (key : Key) : Timely (s.menuKey key).2.effects := by
  cases key with
  | arrowDown => exact .of_silent (s.notify_not_mem_moveTo _)
  | arrowUp => exact .of_silent (s.notify_not_mem_moveTo _)
  | home => exact .of_silent (s.notify_not_mem_moveTo _)
  | «end» => exact .of_silent (s.notify_not_mem_moveTo _)
  | enter => exact s.commit_timely s.active true
  | space => exact s.commit_timely s.active true
  | escape => exact .of_silent (s.notify_not_mem_closeMenu true)
  | tab => exact .of_silent (s.notify_not_mem_closeMenu false)
  | other => exact .nil

theorem perform_timely (op : Operation) : Timely (s.perform op).2 := by
  cases op with
  | openMenu => exact .of_silent s.notify_not_mem_openMenu
  | closeMenu focusTrigger => exact .of_silent (s.notify_not_mem_closeMenu focusTrigger)
  | toggle => exact .of_silent s.notify_not_mem_toggle
  | highlight i focus => exact .of_silent (s.notify_not_mem_highlight i focus)
  | commit i close => exact s.commit_timely i close
  | triggerClick => exact .of_silent s.notify_not_mem_toggle
  | triggerKey key => exact s.triggerKey_timely key
  | menuKey key => exact s.menuKey_timely key
  | entryClick i => exact s.commit_timely i true
  | entryHover i => exact .of_silent (s.notify_not_mem_highlight i false)
  | outsidePointer inside =>
    cases inside
    · exact .of_silent (s.notify_not_mem_closeMenu false)
    · exact .nil
  | documentKey key inside =>
    simp only [perform, documentKey]
    split
    · exact .of_silent (s.notify_not_mem_closeMenu false)
    · exact .nil
  | nativeChanged native =>
    show Timely (s.nativeChanged native).2
    rcases s.nativeChanged_cases native with ⟨i, -, -, heq⟩ | ⟨-, heq⟩ <;> rw [heq]
    · exact .of_silent (by simp)
    · exact .nil

end State

/-! ### Answers -/

/-- An answer of a listbox, with work that may be done while the work `due` is still to be done: the panel ends up
    showing the new state. -/
structure Answers (due : List Effect) (s : State) (r : State × List Effect) : Prop where
  entries : r.1.entries = s.entries
  coherent : Coherent s.entries s → Coherent s.entries r.1
  timely : Timely r.2
  highlights : ∀ i focus, .highlight i focus ∈ r.2 → i < s.entries.length
  shows : ∀ p q : Panel, p.work due = some q → Shows q s → ∃ q', p.work (r.2 ++ due) = some q' ∧ Shows q' r.1

namespace State

variable (s : State)

/-- Following the native control is an answer at any time. -/
theorem nativeChanged_answers (native : Option Nat) {due : List Effect} (hdue : ∀ e ∈ due, e.Closing) :
    Answers due s (s.nativeChanged native) where
  entries := s.perform_entries (.nativeChanged native)
  coherent h := h.nativeChanged native
  timely := s.perform_timely (.nativeChanged native)
  highlights i focus hi := by
    rcases s.nativeChanged_cases native with ⟨j, -, hj, heq⟩ | ⟨-, heq⟩
    · rw [heq] at hi
      obtain rfl : i = j := by simp_all
      exact lt_length_of_enabledAt hj
    · rw [heq] at hi
      exact absurd hi List.not_mem_nil
  shows p q hq hs := by
    rcases s.nativeChanged_cases native with ⟨i, -, hi, heq⟩ | ⟨-, heq⟩
    · rw [heq]
      have hreflect := Panel.work_closing hdue hq (e := .reflect i) trivial
      have hhighlight := Panel.work_closing hdue hreflect (e := .highlight i false) trivial
      exact ⟨_, hhighlight, hs.point hi⟩
    · rw [heq]
      exact ⟨q, hq, hs⟩

/-- Every operation is an answer when nothing is due. -/
theorem perform_answers (op : Operation) : Answers [] s (s.perform op) := by
  by_cases hop : ∃ native, op = .nativeChanged native
  · obtain ⟨native, rfl⟩ := hop
    exact s.nativeChanged_answers native fun e he => absurd he List.not_mem_nil
  · have hmove := s.perform_move fun native heq => hop ⟨native, heq⟩
    refine ⟨s.perform_entries op, fun h => h.perform op, s.perform_timely op,
      fun i focus hi => lt_length_of_enabledAt (hmove.selectable_of_mem hi), fun p q hq hs => ?_⟩
    cases hq
    obtain ⟨q', hq', hs', -⟩ := hs.move hmove
    rw [List.append_nil]
    exact ⟨q', hq', hs'⟩

/-- The first work chooses in the native select, and marks the chosen entry; no one is listened to or told. -/
theorem initialEffects_cases {native : Option Nat} {e : Effect} (he : e ∈ s.initialEffects native) :
    ∃ i, e = .commit i ∨ e = .reflect i ∨ e = .highlight i false ∧ i < s.entries.length := by
  unfold initialEffects at he
  split at he
  · exact absurd he List.not_mem_nil
  · next i _ =>
    refine ⟨i, ?_⟩
    rcases List.mem_append.mp he with he | he
    · rcases List.mem_append.mp he with he | he
      · split at he
        · exact absurd he List.not_mem_nil
        · exact .inl (List.mem_singleton.mp he)
      · exact .inr (.inl (List.mem_singleton.mp he))
    · split at he
      · next hselectable => exact .inr (.inr ⟨List.mem_singleton.mp he, lt_length_of_enabledAt hselectable⟩)
      · exact absurd he List.not_mem_nil

theorem initialEffects_quiet {native : Option Nat} {e : Effect} (he : e ∈ s.initialEffects native) :
    e ≠ .listen ∧ e ≠ .unlisten ∧ e ≠ .notify := by
  obtain ⟨i, rfl | rfl | ⟨rfl, -⟩⟩ := s.initialEffects_cases he <;> exact ⟨nofun, nofun, nofun⟩

end State
end Listbox
end PageWidgets
