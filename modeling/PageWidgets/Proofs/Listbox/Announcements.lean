import PageWidgets.Proofs.Listbox.Work

/-! Choices and their announcements. An operation that chooses an enabled entry announces one change, after the native
    control and the listbox both have the entry; no other operation announces anything or touches the native control
    (`Quiet`). When the announcement comes back as a change of the native control, it finds nothing left to do. -/

namespace PageWidgets
namespace Listbox

/-- Does the operation only follow what happens elsewhere, to the native control or on the whole document? -/
def Operation.Follows : Operation → Prop
  | .outsidePointer _ | .documentKey _ _ | .nativeChanged _ => True
  | _ => False

/-- Does the piece of work touch the native control, to choose an entry or to announce that? -/
def Effect.Bold : Effect → Prop
  | .commit _ | .notify => True
  | _ => False

namespace State

/-- The entry that an operation asks to choose. -/
def target? (s : State) : Operation → Option Nat
  | .commit i _ | .entryClick i => some i
  | .menuKey .enter | .menuKey .space => some s.active
  | _ => none

/-- The entries that are chosen in the course of operations: those that are asked for and enabled. -/
def choices (s : State) : List Operation → List Nat
  | [] => []
  | op :: ops => ((s.target? op).filter s.selectable).toList ++ (s.perform op).1.choices ops

/-- An answer that chooses nothing. -/
structure Quiet (s : State) (r : State × List Effect) : Prop where
  selected : r.1.selected = s.selected
  notify : .notify ∉ r.2
  commit : ∀ i, .commit i ∉ r.2

end State

/-- Moves that announce nothing choose nothing. -/
theorem Move.quiet {s t : State} {work : List Effect} (h : Move s work t) (hsilent : .notify ∉ work) :
    s.Quiet (t, work) := by
  induction h with
  | rest => exact ⟨rfl, hsilent, fun i => List.not_mem_nil⟩
  | highlight focus hi => exact ⟨rfl, hsilent, fun i => by simp⟩
  | @openMenu s hclosed =>
    refine ⟨rfl, hsilent, fun i => ?_⟩
    unfold State.openingWork
    split <;> split <;> simp
  | @closeMenu s focusTrigger hopen =>
    refine ⟨rfl, hsilent, fun i => ?_⟩
    unfold State.closingWork
    split <;> split <;> simp
  | choose hi => exact absurd (by simp [State.choosingWork]) hsilent
  | trans _ _ ih₁ ih₂ =>
    rw [List.mem_append, not_or] at hsilent
    obtain ⟨hsel₁, -, hcommit₁⟩ := ih₁ hsilent.1
    obtain ⟨hsel₂, -, hcommit₂⟩ := ih₂ hsilent.2
    refine ⟨hsel₂.trans hsel₁, ?_, fun i => ?_⟩
    · rw [List.mem_append, not_or]
      exact hsilent
    · rw [List.mem_append, not_or]
      exact ⟨hcommit₁ i, hcommit₂ i⟩

namespace State

variable {s : State}

/-! ### Operations that ask for nothing -/

theorem notify_not_mem_triggerKey (s : State) (key : Key) : .notify ∉ (s.triggerKey key).2.effects := by
  cases key with
  | arrowDown => exact s.notify_not_mem_openAndStep .forward
  | arrowUp => exact s.notify_not_mem_openAndStep .backward
  | enter => exact s.notify_not_mem_toggle
  | space => exact s.notify_not_mem_toggle
  | escape => exact s.notify_not_mem_closeMenu false
  | _ => exact List.not_mem_nil

theorem notify_not_mem_nativeChanged (s : State) (native : Option Nat) : .notify ∉ (s.nativeChanged native).2 := by
  rcases s.nativeChanged_cases native with ⟨i, -, -, heq⟩ | ⟨-, heq⟩ <;> rw [heq] <;> simp

theorem notify_not_mem_of_target? {op : Operation} (h : s.target? op = none) : .notify ∉ (s.perform op).2 := by
  cases op with
  | openMenu => exact s.notify_not_mem_openMenu
  | closeMenu focusTrigger => exact s.notify_not_mem_closeMenu focusTrigger
  | toggle => exact s.notify_not_mem_toggle
  | highlight i focus => exact s.notify_not_mem_highlight i focus
  | commit i close => cases h
  | triggerClick => exact s.notify_not_mem_toggle
  | triggerKey key => exact s.notify_not_mem_triggerKey key
  | menuKey key =>
    cases key with
    | enter | space => cases h
    | escape => exact s.notify_not_mem_closeMenu true
    | tab => exact s.notify_not_mem_closeMenu false
    | other => exact List.not_mem_nil
    | _ => exact s.notify_not_mem_moveTo _
  | entryClick i => cases h
  | entryHover i => exact s.notify_not_mem_highlight i false
  | outsidePointer inside =>
    cases inside
    · exact s.notify_not_mem_closeMenu false
    · exact List.not_mem_nil
  | documentKey key inside =>
    simp only [perform, documentKey]
    split
    · exact s.notify_not_mem_closeMenu false
    · exact List.not_mem_nil
  | nativeChanged native => exact s.notify_not_mem_nativeChanged native

/-! ### Choosing -/

theorem perform_of_target? {op : Operation} {i : Nat} (h : s.target? op = some i) :
    ∃ close, s.perform op = s.commit i close := by
  cases op with
  | commit j close =>
    obtain rfl := Option.some.inj h
    exact ⟨close, rfl⟩
  | entryClick j =>
    obtain rfl := Option.some.inj h
    exact ⟨true, rfl⟩
  | menuKey key =>
    cases key with
    | enter | space =>
      obtain rfl := Option.some.inj h
      exact ⟨true, rfl⟩
    | _ => cases h
  | _ => cases h

theorem commit_of_not_selectable {i : Nat} (h : s.selectable i = false) (close : Bool) : s.commit i close = (s, []) := by
  simp [commit, h]

/-- A state that shows an entry as chosen and active. -/
structure Chosen (s : State) (i : Nat) : Prop where
  selected : s.selected = some i
  active : s.active = i
  selectable : s.selectable i = true

/-- A choice changes the native control and the listbox, then announces the change, and may close the menu after that. -/
theorem commit_of_selectable {i : Nat} (h : s.selectable i = true) (close : Bool) :
    (s.commit i close).1.Chosen i ∧
      ∃ closing, (∀ e ∈ closing, e = .collapse ∨ e = .unlisten ∨ e = .focusTrigger) ∧
        (s.commit i close).2 = [.commit i, .reflect i, .highlight i false, .notify] ++ closing := by
  let chosen : State := { s with selected := some i, active := i }
  have heq : s.commit i close = if close then ((chosen.closeMenu true).1, choosingWork i ++ (chosen.closeMenu true).2)
      else (chosen, choosingWork i) := by
    unfold commit
    rw [if_pos h]
    rfl
  rw [heq]
  cases close with
  | false => exact ⟨⟨rfl, rfl, h⟩, [], fun e he => absurd he List.not_mem_nil, rfl⟩
  | true =>
    refine ⟨?_, _, fun e he => ?_, rfl⟩
    · rw [if_pos rfl]
      unfold closeMenu
      split <;> exact ⟨rfl, rfl, h⟩
    · have hclosing := chosen.closing_of_mem_closeMenu he
      cases e <;> simp_all [Effect.Closing]

/-- The change that comes back after a choice changes nothing. -/
theorem Chosen.nativeChanged {i : Nat} (h : s.Chosen i) :
    s.nativeChanged (some i) = (s, [.reflect i, .highlight i false]) := by
  obtain ⟨entries, isOpen, active, selected, listening⟩ := s
  obtain ⟨rfl, hactive, hselectable⟩ := h
  simp_all [State.nativeChanged]

/-! ### Announcements -/

theorem filter_target? {op : Operation} {i : Nat} :
    (s.target? op).filter s.selectable = some i ↔ s.target? op = some i ∧ s.selectable i = true :=
  Option.filter_eq_some_iff

/-- An operation that chooses no entry announces nothing and leaves the native control alone. It changes what is shown
    as chosen only to follow the native control. -/
theorem perform_of_not_chosen {op : Operation} (h : (s.target? op).filter s.selectable = none) :
    .notify ∉ (s.perform op).2 ∧ (∀ i, .commit i ∉ (s.perform op).2) ∧
      ((s.perform op).1.selected = s.selected ∨ ∃ i, op = .nativeChanged (some i) ∧ s.selectable i = true) := by
  cases htarget : s.target? op with
  | none =>
    by_cases hop : ∃ native, op = .nativeChanged native
    · obtain ⟨native, rfl⟩ := hop
      refine ⟨s.notify_not_mem_nativeChanged native, ?_⟩
      show (∀ i, .commit i ∉ (s.nativeChanged native).2) ∧ ((s.nativeChanged native).1.selected = s.selected ∨ _)
      rcases s.nativeChanged_cases native with ⟨i, rfl, hi, heq⟩ | ⟨-, heq⟩ <;> rw [heq]
      · exact ⟨fun j => by simp, .inr ⟨i, rfl, hi⟩⟩
      · exact ⟨fun j => List.not_mem_nil, .inl rfl⟩
    · have hmove := s.perform_move fun native heq => hop ⟨native, heq⟩
      obtain ⟨hselected, hnotify, hcommit⟩ := hmove.quiet (notify_not_mem_of_target? htarget)
      exact ⟨hnotify, hcommit, .inl hselected⟩
  | some i =>
    obtain ⟨close, heq⟩ := perform_of_target? htarget
    rw [htarget] at h
    have hno : s.selectable i = false := by simpa [Option.filter] using h
    rw [heq, commit_of_not_selectable hno]
    exact ⟨List.not_mem_nil, fun _ => List.not_mem_nil, .inl rfl⟩

theorem not_bold_of_follows {op : Operation} (h : op.Follows) : ∀ e ∈ (s.perform op).2, ¬e.Bold := by
  have htarget : s.target? op = none := by
    cases op with
    | outsidePointer inside => rfl
    | documentKey key inside => rfl
    | nativeChanged native => rfl
    | _ => exact False.elim h
  have hnone : (s.target? op).filter s.selectable = none := by
    rw [htarget]
    rfl
  obtain ⟨hnotify, hcommit, -⟩ := perform_of_not_chosen hnone
  intro e he hbold
  cases e with
  | commit i => exact hcommit i he
  | notify => exact hnotify he
  | _ => exact hbold

/-- An operation announces one change when it chooses an entry, and none otherwise. -/
theorem count_notify_perform (s : State) (op : Operation) :
    (s.perform op).2.count .notify = ((s.target? op).filter s.selectable).toList.length := by
  cases hchoice : (s.target? op).filter s.selectable with
  | none => exact List.count_eq_zero.mpr (perform_of_not_chosen hchoice).1
  | some i =>
    obtain ⟨htarget, hi⟩ := filter_target?.mp hchoice
    obtain ⟨close, heq⟩ := perform_of_target? htarget
    obtain ⟨-, closing, hclosing, hwork⟩ := commit_of_selectable hi close
    have hno : .notify ∉ closing := fun hmem => by
      rcases hclosing _ hmem with h | h | h <;> cases h
    rw [heq, hwork, List.count_append, List.count_eq_zero.mpr hno]
    rfl

theorem notify_mem_perform {op : Operation} :
    .notify ∈ (s.perform op).2 ↔ (s.target? op).filter s.selectable ≠ none := by
  rw [← List.count_pos_iff, count_notify_perform]
  cases (s.target? op).filter s.selectable <;> simp

theorem count_notify_run (s : State) (ops : List Operation) :
    (s.run ops).2.flatten.count .notify = (s.choices ops).length := by
  induction ops generalizing s with
  | nil => rfl
  | cons op ops ih =>
    rw [run_cons, List.flatten_cons, List.count_append, ih, count_notify_perform, choices, List.length_append]

/-- Every choice is announced, once and in time, and nothing else is. An operation announces a change when it asks for
    an enabled entry; then the native control and the listbox have the entry before that, and closing comes after it.
    What is shown as chosen changes in no other way, except to follow the native control. The announcement that comes
    back changes nothing, so over a run there are as many announcements as choices. -/
theorem every_choice_announced (entries : List Entry) (ops : List Operation) (op : Operation) :
    let s := ((ofEntries entries).run ops).1
    let r := s.perform op
    r.2.count .notify ≤ 1 ∧
      (.notify ∈ r.2 ↔ ∃ i, s.target? op = some i ∧ enabledAt entries i = true) ∧
      (∀ i, s.target? op = some i → enabledAt entries i = true →
        (∃ closing, (∀ e ∈ closing, e = .collapse ∨ e = .unlisten ∨ e = .focusTrigger) ∧
          r.2 = [.commit i, .reflect i, .highlight i false, .notify] ++ closing) ∧
        r.1.nativeChanged (some i) = (r.1, [.reflect i, .highlight i false])) ∧
      (.notify ∉ r.2 → ∀ i, .commit i ∉ r.2) ∧
      (r.1.selected ≠ s.selected →
        .notify ∈ r.2 ∨ ∃ i, op = .nativeChanged (some i) ∧ enabledAt entries i = true) ∧
      (∀ native, .notify ∉ s.initialEffects native) ∧
      ((ofEntries entries).run ops).2.flatten.count .notify = ((ofEntries entries).choices ops).length := by
  intro s r
  have hselectable : ∀ i, s.selectable i = enabledAt entries i := (coherent_of_run entries ops).selectable_eq
  have hsilent : .notify ∉ r.2 → (s.target? op).filter s.selectable = none := fun h => by
    simpa using mt notify_mem_perform.mpr h
  refine ⟨?_, ?_, fun i htarget hi => ?_, fun h => ?_, fun hchanged => ?_, fun native hmem => ?_, count_notify_run _ ops⟩
  · rw [show r.2.count .notify = _ from s.count_notify_perform op]
    cases (s.target? op).filter s.selectable <;> simp
  · rw [show .notify ∈ r.2 ↔ _ from notify_mem_perform, Option.ne_none_iff_exists']
    simp only [filter_target?, hselectable]
  · rw [← hselectable] at hi
    obtain ⟨close, heq⟩ := perform_of_target? htarget
    obtain ⟨hchosen, hwork⟩ := commit_of_selectable hi close
    rw [show r = s.commit i close from heq]
    exact ⟨hwork, hchosen.nativeChanged⟩
  · exact (perform_of_not_chosen (hsilent h)).2.1
  · by_cases h : .notify ∈ r.2
    · exact .inl h
    · obtain ⟨-, -, hkept | ⟨i, hop, hi⟩⟩ := perform_of_not_chosen (hsilent h)
      · exact absurd hkept hchanged
      · exact .inr ⟨i, hop, hselectable i ▸ hi⟩
  · obtain ⟨i, h | h | ⟨h, -⟩⟩ := s.initialEffects_cases hmem <;> cases h

end State
end Listbox
end PageWidgets
