import PageWidgets.Proofs.Listbox.Work

/-! Where the focus goes. A listbox gives the focus back to its trigger when it closes at the wish of someone who is in
    its menu: who chooses an entry, presses Escape, or asks for it. It does not take the focus from elsewhere, so what
    closes the menu from outside leaves the focus where it is. -/

namespace PageWidgets
namespace Listbox

/-- Does the operation give the focus back when it closes the menu? -/
def Operation.ReturnsFocus : Operation → Prop
  | .closeMenu focusTrigger => focusTrigger = true
  | .commit _ close => close = true
  | .entryClick _ => True
  | .menuKey key => key = .enter ∨ key = .space ∨ key = .escape
  | _ => False

namespace State

variable (s : State)

/-! ### Work that leaves the focus alone -/

theorem focusTrigger_not_mem_closeMenu : .focusTrigger ∉ (s.closeMenu false).2 := by
  unfold closeMenu
  split
  · cases s.listening <;> simp
  · exact List.not_mem_nil

theorem focusTrigger_not_mem_highlight (i : Nat) (focus : Bool) : .focusTrigger ∉ (s.highlight i focus).2 := by
  unfold highlight
  split <;> simp

theorem focusTrigger_not_mem_openMenu : .focusTrigger ∉ s.openMenu.2 := by
  have hhighlight := focusTrigger_not_mem_highlight { s with isOpen := true } s.active true
  unfold openMenu
  split
  · exact List.not_mem_nil
  · show .focusTrigger ∉ .expand :: ({ s with isOpen := true }.highlight s.active true).2 ++
      (if s.listening then [] else [.listen])
    split <;> simpa using hhighlight

theorem focusTrigger_not_mem_toggle : .focusTrigger ∉ s.toggle.2 := by
  unfold toggle
  split
  · exact s.focusTrigger_not_mem_closeMenu
  · exact s.focusTrigger_not_mem_openMenu

theorem focusTrigger_not_mem_moveTo (target : Option Nat) : .focusTrigger ∉ (s.moveTo target).2 := by
  cases target with
  | none => exact List.not_mem_nil
  | some i => exact s.focusTrigger_not_mem_highlight i true

theorem focusTrigger_not_mem_openAndStep (d : Direction) : .focusTrigger ∉ (s.openAndStep d).2 := by
  intro h
  rcases List.mem_append.mp h with h | h
  · exact s.focusTrigger_not_mem_openMenu h
  · exact focusTrigger_not_mem_moveTo _ _ h

theorem focusTrigger_not_mem_triggerKey (key : Key) : .focusTrigger ∉ (s.triggerKey key).2.effects := by
  cases key with
  | arrowDown => exact s.focusTrigger_not_mem_openAndStep .forward
  | arrowUp => exact s.focusTrigger_not_mem_openAndStep .backward
  | enter | space => exact s.focusTrigger_not_mem_toggle
  | escape => exact s.focusTrigger_not_mem_closeMenu
  | _ => exact List.not_mem_nil

theorem focusTrigger_not_mem_outsidePointer (inside : Bool) : .focusTrigger ∉ (s.outsidePointer inside).2 := by
  unfold outsidePointer
  split
  · exact List.not_mem_nil
  · exact s.focusTrigger_not_mem_closeMenu

theorem focusTrigger_not_mem_documentKey (key : Key) (inside : Bool) :
    .focusTrigger ∉ (s.documentKey key inside).2 := by
  unfold documentKey
  split
  · exact s.focusTrigger_not_mem_closeMenu
  · exact List.not_mem_nil

theorem focusTrigger_not_mem_of_not_returnsFocus {op : Operation} (h : ¬op.ReturnsFocus) :
    .focusTrigger ∉ (s.perform op).2 := by
  cases op with
  | openMenu => exact s.focusTrigger_not_mem_openMenu
  | closeMenu focusTrigger =>
    obtain rfl : focusTrigger = false := by simpa [Operation.ReturnsFocus] using h
    exact s.focusTrigger_not_mem_closeMenu
  | toggle | triggerClick => exact s.focusTrigger_not_mem_toggle
  | highlight i focus => exact s.focusTrigger_not_mem_highlight i focus
  | commit i close =>
    obtain rfl : close = false := by simpa [Operation.ReturnsFocus] using h
    show .focusTrigger ∉ (s.commit i false).2
    unfold commit
    split <;> simp
  | triggerKey key => exact s.focusTrigger_not_mem_triggerKey key
  | menuKey key =>
    cases key with
    | enter => exact absurd (.inl rfl) h
    | space => exact absurd (.inr (.inl rfl)) h
    | escape => exact absurd (.inr (.inr rfl)) h
    | tab => exact s.focusTrigger_not_mem_closeMenu
    | other => exact List.not_mem_nil
    | _ => exact s.focusTrigger_not_mem_moveTo _
  | entryClick i => exact absurd trivial h
  | entryHover i => exact s.focusTrigger_not_mem_highlight i false
  | outsidePointer inside => exact s.focusTrigger_not_mem_outsidePointer inside
  | documentKey key inside => exact s.focusTrigger_not_mem_documentKey key inside
  | nativeChanged native =>
    show .focusTrigger ∉ (s.nativeChanged native).2
    rcases s.nativeChanged_cases native with ⟨i, -, -, heq⟩ | ⟨-, heq⟩ <;> rw [heq] <;> simp

/-! ### Work that gives the focus back -/

variable {s}

/-- An answer that gives the focus back in closing the menu, and nothing in it closes before that. -/
def ClosesLast (s : State) (r : State × List Effect) : Prop :=
  ∃ (t : State) (before : List Effect), t.isOpen = s.isOpen ∧ t.listening = s.listening ∧ (∀ e ∈ before, ¬e.Closing) ∧
    r = ((t.closeMenu true).1, before ++ (t.closeMenu true).2)

theorem closesLast_closeMenu : s.ClosesLast (s.closeMenu true) :=
  ⟨s, [], rfl, rfl, fun _ he => absurd he List.not_mem_nil, rfl⟩

theorem commit_closesLast (i : Nat) : s.commit i true = (s, []) ∨ s.ClosesLast (s.commit i true) := by
  unfold commit
  split
  · refine .inr ⟨{ s with selected := some i, active := i }, choosingWork i, rfl, rfl, ?_, rfl⟩
    simp [choosingWork, Effect.Closing]
  · exact .inl rfl

theorem perform_of_returnsFocus {op : Operation} (h : op.ReturnsFocus) :
    s.perform op = (s, []) ∨ s.ClosesLast (s.perform op) := by
  cases op with
  | closeMenu focusTrigger =>
    obtain rfl : focusTrigger = true := h
    exact .inr closesLast_closeMenu
  | commit i close =>
    obtain rfl : close = true := h
    exact commit_closesLast i
  | entryClick i => exact commit_closesLast i
  | menuKey key =>
    rcases h with rfl | rfl | rfl
    · exact commit_closesLast s.active
    · exact commit_closesLast s.active
    · exact .inr closesLast_closeMenu
  | _ => exact False.elim h

/-- The focus is given back by the operations that do so, when they close an open menu. -/
theorem focusTrigger_mem_perform {op : Operation} : .focusTrigger ∈ (s.perform op).2 ↔
    s.isOpen = true ∧ (s.perform op).1.isOpen = false ∧ op.ReturnsFocus := by
  by_cases hop : op.ReturnsFocus
  · rcases perform_of_returnsFocus hop with heq | ⟨t, before, hopen, -, hbefore, heq⟩
    · rw [heq]
      exact ⟨fun h => absurd h List.not_mem_nil, fun ⟨hopen, hclosed, _⟩ => by rw [hopen] at hclosed; cases hclosed⟩
    · rw [heq, ← hopen, List.mem_append]
      have hno : .focusTrigger ∉ before := fun h => hbefore _ h trivial
      cases ht : t.isOpen <;> simp [closeMenu, ht, hno, hop]
  · exact iff_of_false (s.focusTrigger_not_mem_of_not_returnsFocus hop) fun h => hop h.2.2

/-- While the listbox listens to the document just when it is open, giving the focus back ends the work of closing. -/
theorem exists_of_focusTrigger_mem (hlistening : s.listening = s.isOpen) {op : Operation}
    (h : .focusTrigger ∈ (s.perform op).2) :
    ∃ before, (∀ e ∈ before, ¬e.Closing) ∧ (s.perform op).2 = before ++ [.collapse, .unlisten, .focusTrigger] := by
  obtain ⟨hopen, -, hop⟩ := focusTrigger_mem_perform.mp h
  rcases perform_of_returnsFocus hop with heq | ⟨t, before, htopen, htlistening, hbefore, heq⟩
  · rw [heq] at h
    exact absurd h List.not_mem_nil
  · refine ⟨before, hbefore, ?_⟩
    rw [heq]
    simp [closeMenu, htopen, htlistening, hlistening, hopen]

/-- The focus returns to the trigger when an open menu is closed by a choice in it, by Escape in it, or on demand, as
    the last work of closing. It stays where it is when the menu is closed in any other way, whatever the state. -/
theorem focus_returned_from_within (entries : List Entry) (ops : List Operation) (op : Operation) :
    let s := ((ofEntries entries).run ops).1
    let r := s.perform op
    (.focusTrigger ∈ r.2 ↔ s.isOpen = true ∧ r.1.isOpen = false ∧ op.ReturnsFocus) ∧
      (.focusTrigger ∈ r.2 →
        ∃ before, (∀ e ∈ before, ¬e.Closing) ∧ r.2 = before ++ [.collapse, .unlisten, .focusTrigger]) ∧
      ∀ t : State, (∀ inside, .focusTrigger ∉ (t.outsidePointer inside).2) ∧
        (∀ key inside, .focusTrigger ∉ (t.documentKey key inside).2) ∧
        .focusTrigger ∉ (t.menuKey .tab).2.effects ∧ .focusTrigger ∉ (t.closeMenu false).2 ∧
        .focusTrigger ∉ t.toggle.2 ∧ .focusTrigger ∉ (t.perform .triggerClick).2 ∧
        ∀ key, .focusTrigger ∉ (t.triggerKey key).2.effects := by
  intro s r
  have hlistening : s.listening = s.isOpen := (coherent_of_run entries ops).listening_eq
  refine ⟨focusTrigger_mem_perform, exists_of_focusTrigger_mem hlistening, fun t => ?_⟩
  exact ⟨t.focusTrigger_not_mem_outsidePointer, t.focusTrigger_not_mem_documentKey, t.focusTrigger_not_mem_closeMenu,
    t.focusTrigger_not_mem_closeMenu, t.focusTrigger_not_mem_toggle, t.focusTrigger_not_mem_toggle,
    t.focusTrigger_not_mem_triggerKey⟩

end State
end Listbox
end PageWidgets
