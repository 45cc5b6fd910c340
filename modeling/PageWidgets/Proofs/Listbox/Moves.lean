import PageWidgets.Listbox.State

/-! What the operations of a listbox are made of. However an operation is called, it rests, or it moves the
    highlight, opens, closes or chooses, one after the other (`Move`); only a change of the native control is
    followed in another way. So whatever these few moves keep, every operation keeps. -/

namespace PageWidgets
namespace Listbox

/-! ### Enabled entries -/

theorem enabledAt_iff {entries : List Entry} {i : Nat} :
    enabledAt entries i = true ↔ ∃ e, entries[i]? = some e ∧ e.enabled = true := by
  unfold enabledAt
  cases entries[i]? <;> simp

theorem lt_length_of_enabledAt {entries : List Entry} {i : Nat} (h : enabledAt entries i = true) :
    i < entries.length := by
  obtain ⟨e, he, -⟩ := enabledAt_iff.mp h
  exact (List.getElem?_eq_some_iff.mp he).1

theorem any_enabled_iff {entries : List Entry} :
    entries.any Entry.enabled = true ↔ ∃ i, enabledAt entries i = true := by
  rw [List.any_eq_true]
  constructor
  · rintro ⟨e, he, hen⟩
    obtain ⟨i, hi⟩ := List.mem_iff_getElem?.mp he
    exact ⟨i, enabledAt_iff.mpr ⟨e, hi, hen⟩⟩
  · rintro ⟨i, hi⟩
    obtain ⟨e, he, hen⟩ := enabledAt_iff.mp hi
    exact ⟨e, List.mem_of_getElem? he, hen⟩

theorem not_enabledAt_of_any {entries : List Entry} (h : entries.any Entry.enabled = false) (i : Nat) :
    enabledAt entries i = false := by
  rw [Bool.eq_false_iff]
  intro hi
  rw [any_enabled_iff.mpr ⟨i, hi⟩] at h
  cases h

theorem firstEnabled_of_any {entries : List Entry} (h : entries.any Entry.enabled = true) :
    ∃ i, firstEnabled entries = some i ∧ enabledAt entries i = true := by
  obtain ⟨j, hj⟩ := any_enabled_iff.mp h
  have hfound : (firstEnabled entries).isSome = true :=
    List.find?_isSome.mpr ⟨j, List.mem_range.mpr (lt_length_of_enabledAt hj), hj⟩
  obtain ⟨i, hi⟩ := Option.isSome_iff_exists.mp hfound
  exact ⟨i, hi, List.find?_some hi⟩

theorem enabledAt_of_chosenAt {entries : List Entry} {i : Nat} (h : chosenAt entries i = true) :
    enabledAt entries i = true := by
  unfold chosenAt at h
  unfold enabledAt
  cases he : entries[i]? with
  | none => simp [he] at h
  | some e =>
    rw [he] at h
    exact (Bool.and_eq_true_iff.mp h).2

/-- The index to start with is enabled when any is. -/
theorem enabledAt_initialIndex {entries : List Entry} (h : entries.any Entry.enabled = true) :
    enabledAt entries (initialIndex entries) = true := by
  unfold initialIndex
  cases hc : (List.range entries.length).find? (chosenAt entries) with
  | some i => exact enabledAt_of_chosenAt (List.find?_some hc)
  | none =>
    obtain ⟨i, hi, hen⟩ := firstEnabled_of_any h
    rw [hi]
    exact hen

theorem initialIndex_of_not_any {entries : List Entry} (h : entries.any Entry.enabled = false) :
    initialIndex entries = 0 := by
  have hc : (List.range entries.length).find? (chosenAt entries) = none := by
    rw [List.find?_eq_none]
    intro i _ hi
    rw [← Bool.not_eq_true] at h
    exact h (any_enabled_iff.mpr ⟨i, enabledAt_of_chosenAt hi⟩)
  have hf : firstEnabled entries = none := by
    unfold firstEnabled
    rw [List.find?_eq_none]
    intro i _
    simp [not_enabledAt_of_any h i]
  simp [initialIndex, hc, hf]

/-! ### Moves -/

namespace State

/-- The work of opening a closed listbox. -/
def openingWork (s : State) : List Effect :=
  .expand :: (if s.selectable s.active then [.highlight s.active true] else [])
    ++ (if s.listening then [] else [.listen])

/-- The work of closing an open listbox. -/
def closingWork (s : State) (focusTrigger : Bool) : List Effect :=
  .collapse :: (if s.listening then [.unlisten] else []) ++ (if focusTrigger then [.focusTrigger] else [])

/-- The work of choosing an entry. -/
def choosingWork (i : Nat) : List Effect := [.commit i, .reflect i, .highlight i false, .notify]

end State

/-- One state leads to another by moves, with this work. -/
inductive Move : State → List Effect → State → Prop where
  | rest {s : State} : Move s [] s
  | highlight {s : State} {i : Nat} (focus : Bool) (h : s.selectable i = true) :
      Move s [.highlight i focus] { s with active := i }
  | openMenu {s : State} (h : s.isOpen = false) :
      Move s s.openingWork { s with isOpen := true, listening := true }
  | closeMenu {s : State} (focusTrigger : Bool) (h : s.isOpen = true) :
      Move s (s.closingWork focusTrigger) { s with isOpen := false, listening := false }
  | choose {s : State} {i : Nat} (h : s.selectable i = true) :
      Move s (State.choosingWork i) { s with selected := some i, active := i }
  | trans {s t u : State} {a b : List Effect} (hst : Move s a t) (htu : Move t b u) : Move s (a ++ b) u

theorem Move.entries_eq {s t : State} {work : List Effect} (h : Move s work t) : t.entries = s.entries := by
  induction h with
  | trans _ _ ih₁ ih₂ => exact ih₂.trans ih₁
  | _ => rfl

namespace State

variable (s : State)

theorem highlight_move (i : Nat) (focus : Bool) : Move s (s.highlight i focus).2 (s.highlight i focus).1 := by
  unfold highlight
  split
  · next h => exact .highlight focus h
  · exact .rest

theorem openMenu_move : Move s s.openMenu.2 s.openMenu.1 := by
  unfold openMenu
  split
  · exact .rest
  · next h =>
    have hclosed : s.isOpen = false := by simpa using h
    -- Highlighting the active entry leaves it the active one.
    by_cases hsel : s.selectable s.active = true
    · have hsel' : ({ s with isOpen := true } : State).selectable s.active = true := hsel
      have hm := Move.openMenu hclosed
      simpa [highlight, openingWork, hsel, hsel'] using hm
    · have hsel' : ¬({ s with isOpen := true } : State).selectable s.active = true := hsel
      have hm := Move.openMenu hclosed
      simpa [highlight, openingWork, hsel, hsel'] using hm

theorem closeMenu_move (focusTrigger : Bool) : Move s (s.closeMenu focusTrigger).2 (s.closeMenu focusTrigger).1 := by
  unfold closeMenu
  split
  · next h => exact .closeMenu focusTrigger h
  · exact .rest

theorem toggle_move : Move s s.toggle.2 s.toggle.1 := by
  unfold toggle
  split
  · exact s.closeMenu_move false
  · exact s.openMenu_move

theorem commit_move (i : Nat) (close : Bool) : Move s (s.commit i close).2 (s.commit i close).1 := by
  unfold commit
  split
  · next h =>
    cases close
    · exact .choose h
    · exact .trans (.choose h) (closeMenu_move _ true)
  · exact .rest

theorem moveTo_move (target : Option Nat) : Move s (s.moveTo target).2 (s.moveTo target).1 := by
  cases target with
  | none => exact .rest
  | some i => exact s.highlight_move i true

theorem openAndStep_move (d : Direction) : Move s (s.openAndStep d).2 (s.openAndStep d).1 :=
  .trans s.openMenu_move (moveTo_move _ _)

theorem triggerKey_move (key : Key) : Move s (s.triggerKey key).2.effects (s.triggerKey key).1 := by
  cases key with
  | arrowDown => exact s.openAndStep_move .forward
  | arrowUp => exact s.openAndStep_move .backward
  | enter => exact s.toggle_move
  | space => exact s.toggle_move
  | escape => exact s.closeMenu_move false
  | home => exact .rest
  | «end» => exact .rest
  | tab => exact .rest
  | other => exact .rest

theorem menuKey_move (key : Key) : Move s (s.menuKey key).2.effects (s.menuKey key).1 := by
  cases key with
  | arrowDown => exact s.moveTo_move _
  | arrowUp => exact s.moveTo_move _
  | home => exact s.moveTo_move _
  | «end» => exact s.moveTo_move _
  | enter => exact s.commit_move s.active true
  | space => exact s.commit_move s.active true
  | escape => exact s.closeMenu_move true
  | tab => exact s.closeMenu_move false
  | other => exact .rest

/-- An operation other than following the native control is made of moves. -/
theorem perform_move {op : Operation} (hop : ∀ native, op ≠ .nativeChanged native) :
    Move s (s.perform op).2 (s.perform op).1 := by
  cases op with
  | openMenu => exact s.openMenu_move
  | closeMenu focusTrigger => exact s.closeMenu_move focusTrigger
  | toggle => exact s.toggle_move
  | highlight i focus => exact s.highlight_move i focus
  | commit i close => exact s.commit_move i close
  | triggerClick => exact s.toggle_move
  | triggerKey key => exact s.triggerKey_move key
  | menuKey key => exact s.menuKey_move key
  | entryClick i => exact s.commit_move i true
  | entryHover i => exact s.highlight_move i false
  | outsidePointer inside =>
    cases inside
    · exact s.closeMenu_move false
    · exact .rest
  | documentKey key inside =>
    simp only [perform, documentKey]
    split
    · exact s.closeMenu_move false
    · exact .rest
  | nativeChanged native => exact absurd rfl (hop native)

/-- The native control is followed to a selectable entry; when it shows nothing, or an entry that may not be
    chosen, it is not followed. -/
theorem nativeChanged_cases (native : Option Nat) :
    (∃ i, native = some i ∧ s.selectable i = true ∧
      s.nativeChanged native = ({ s with selected := some i, active := i }, [.reflect i, .highlight i false])) ∨
    ((∀ i, native = some i → s.selectable i = false) ∧ s.nativeChanged native = (s, [])) := by
  cases native with
  | none => exact .inr ⟨fun _ h => (Option.some_ne_none _ h.symm).elim, rfl⟩
  | some i =>
    cases hi : s.selectable i
    · exact .inr ⟨fun j hj => by cases hj; exact hi, by simp [nativeChanged, hi]⟩
    · exact .inl ⟨i, rfl, hi, by simp [nativeChanged, hi]⟩

theorem perform_entries (op : Operation) : (s.perform op).1.entries = s.entries := by
  by_cases hop : ∃ native, op = .nativeChanged native
  · obtain ⟨native, rfl⟩ := hop
    show (s.nativeChanged native).1.entries = s.entries
    rcases s.nativeChanged_cases native with ⟨i, -, -, heq⟩ | ⟨-, heq⟩ <;> rw [heq]
  · exact (s.perform_move fun native heq => hop ⟨native, heq⟩).entries_eq

/-! ### Runs -/

theorem run_cons (op : Operation) (ops : List Operation) :
    s.run (op :: ops) = (((s.perform op).1.run ops).1, (s.perform op).2 :: ((s.perform op).1.run ops).2) := rfl

end State
end Listbox
end PageWidgets
