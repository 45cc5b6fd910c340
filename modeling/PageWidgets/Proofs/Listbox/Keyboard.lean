import PageWidgets.Proofs.Listbox.Circle
import PageWidgets.Proofs.Listbox.Coherence

/-! The arrow keys in a listbox. In a coherent state a press moves the highlight one step along the circle of enabled
    entries and does nothing else to the state. So whatever a click on an entry leads to, the keys lead to as well: as
    many presses as there are enabled entries on the way, and then Enter. -/

namespace PageWidgets
namespace Listbox

/-- The key that moves the highlight in that direction. -/
def Direction.arrow : Direction → Key
  | .forward => .arrowDown
  | .backward => .arrowUp

namespace State

/-- The state after so many presses of the key in the menu. -/
def press (s : State) (key : Key) (k : Nat) : State := (s.run (List.replicate k (.menuKey key))).1

theorem press_succ (s : State) (key : Key) (k : Nat) : s.press key (k + 1) = (s.menuKey key).1.press key k := rfl

variable {s : State} {i : Nat}

theorem menuKey_arrow (hactive : s.selectable s.active = true) (d : Direction) :
    (s.menuKey d.arrow).1 = { s with active := neighbour s.entries d s.active } := by
  have hstep := stepEnabled_eq hactive d
  have hnext : s.selectable (neighbour s.entries d s.active) = true := (neighbour_spec hactive d).1
  cases d with
  | forward => simp [Direction.arrow, menuKey, step, hstep, moveTo, highlight, hnext]
  | backward => simp [Direction.arrow, menuKey, step, hstep, moveTo, highlight, hnext]

theorem press_arrow (hactive : s.selectable s.active = true) (d : Direction) (k : Nat) :
    s.press d.arrow k = { s with active := (neighbour s.entries d)^[k] s.active } := by
  induction k generalizing s with
  | zero => rfl
  | succ k ih =>
    have hnext : s.selectable (neighbour s.entries d s.active) = true := (neighbour_spec hactive d).1
    rw [press_succ, menuKey_arrow hactive, ih hnext, Function.iterate_succ_apply]

/-- Choosing a selectable entry forgets which one was highlighted. -/
theorem commit_of_active (hi : s.selectable i = true) (j : Nat) (close : Bool) :
    State.commit { s with active := j } i close = s.commit i close := by
  have hi' : State.selectable { s with active := j } i = true := hi
  unfold commit
  rw [if_pos hi, if_pos hi']

/-- Once the keys have led to an entry, Enter does what a click on it does. -/
theorem enter_of_press (hactive : s.selectable s.active = true) (hi : s.selectable i = true) {d : Direction} {k : Nat}
    (hreach : (neighbour s.entries d)^[k] s.active = i) :
    (s.press d.arrow k).perform (.menuKey .enter) = s.commit i true := by
  rw [press_arrow hactive, hreach]
  exact commit_of_active hi i true

theorem home_of_first {f : Nat} (hfirst : firstEnabled s.entries = some f) (hf : s.selectable f = true) :
    s.press .home 1 = { s with active := f } := by
  show (s.moveTo (firstEnabled s.entries)).1 = _
  rw [hfirst]
  simp only [moveTo, highlight, if_pos hf]

theorem end_of_last {l : Nat} (hlast : lastEnabled s.entries = some l) (hl : s.selectable l = true) :
    s.press .end 1 = { s with active := l } := by
  show (s.moveTo (lastEnabled s.entries)).1 = _
  rw [hlast]
  simp only [moveTo, highlight, if_pos hl]

theorem enter_of_home (hi : s.selectable i = true) :
    ((s.press .home 1).press .arrowDown (enabledBefore s.entries i)).perform (.menuKey .enter) = s.commit i true := by
  obtain ⟨f, hfirst, hf, hleast⟩ := firstEnabled_spec hi
  rw [home_of_first hfirst hf, ← commit_of_active hi f]
  exact enter_of_press (s := { s with active := f }) (d := .forward) hf hi (iterate_first hf hleast hi)

theorem enter_of_end (hi : s.selectable i = true) :
    ((s.press .end 1).press .arrowUp (enabledAfter s.entries i)).perform (.menuKey .enter) = s.commit i true := by
  obtain ⟨l, hlast, hl, hmost⟩ := lastEnabled_spec hi
  rw [end_of_last hlast hl, ← commit_of_active hi l]
  exact enter_of_press (s := { s with active := l }) (d := .backward) hl hi (iterate_last hl hmost hi)

/-- An arrow key on the trigger opens the menu and is then a key in the menu. -/
theorem triggerKey_arrow (s : State) (d : Direction) :
    s.perform (.triggerKey d.arrow) =
      ((s.openMenu.1.menuKey d.arrow).1, s.openMenu.2 ++ (s.openMenu.1.menuKey d.arrow).2.effects) := by
  cases d <;> rfl

/-- Keys and pointer lead to the same. In every state a listbox of the entries reaches, for every enabled entry `i`:
    as many presses of the down arrow as there are enabled entries on the way from the active one, or as many of the
    up arrow as there are on the rest of the circle, with any number of times around the circle on top, and then
    Enter, or Home or End, the presses from there, and Enter, all end like a click on `i`, in state and work. And an
    arrow key on the trigger is opening the menu and then that key in the menu. -/
theorem keys_reach_what_a_click_chooses (entries : List Entry) (ops : List Operation) :
    let s := ((State.ofEntries entries).run ops).1
    (∀ i, enabledAt entries i = true →
      let n := (enabledSet entries).card
      let k := enabledOnWay entries s.active i
      let j := enabledBefore entries i
      (i = s.active → k = n) ∧
      (∀ q, (s.press .arrowDown (k + q * n)).perform (.menuKey .enter) = s.perform (.entryClick i) ∧
        (s.press .arrowUp (n - k + q * n)).perform (.menuKey .enter) = s.perform (.entryClick i)) ∧
      ((s.press .home 1).press .arrowDown j).perform (.menuKey .enter) = s.perform (.entryClick i) ∧
      ((s.press .end 1).press .arrowUp (n - 1 - j)).perform (.menuKey .enter) = s.perform (.entryClick i)) ∧
    ∀ d : Direction,
      s.perform (.triggerKey d.arrow) =
        (((s.perform .openMenu).1.perform (.menuKey d.arrow)).1,
          (s.perform .openMenu).2 ++ ((s.perform .openMenu).1.perform (.menuKey d.arrow)).2) := by
  intro s
  have hs : Coherent entries s := coherent_of_run entries ops
  refine ⟨fun i hi => ?_, fun d => s.triggerKey_arrow d⟩
  intro n k j
  have hactive : enabledAt entries s.active = true := (hs.enabled (any_enabled_iff.mpr ⟨i, hi⟩)).1.2
  have hactive' : s.selectable s.active = true := (hs.selectable_eq s.active).trans hactive
  have hi' : s.selectable i = true := (hs.selectable_eq i).trans hi
  have hdown : (neighbour entries .forward)^[k] s.active = i := iterate_enabledOnWay hactive hi
  have hup : (neighbour entries .backward)^[n - k] s.active = i := iterate_backward_rest hactive hi
  have hafter : n - 1 - j = enabledAfter entries i := by
    have hall : j + (enabledAfter entries i + 1) = n := enabledBefore_add_enabledAfter hi
    omega
  refine ⟨fun h => ?_, fun q => ⟨?_, ?_⟩, ?_, ?_⟩
  · show enabledOnWay entries s.active i = n
    rw [h, enabledOnWay_self]
  · refine enter_of_press (d := .forward) hactive' hi' ?_
    rw [hs.entries_eq, Function.iterate_add_apply, iterate_around hactive, hdown]
  · refine enter_of_press (d := .backward) hactive' hi' ?_
    rw [hs.entries_eq, Function.iterate_add_apply, iterate_around hactive, hup]
  · have hhome := enter_of_home hi'
    rwa [hs.entries_eq] at hhome
  · have hend := enter_of_end hi'
    rwa [hs.entries_eq, ← hafter] at hend

/-- The third entry of three, past a disabled one, by one press from the first or by the keys at the ends. -/
theorem third_entry_by_keys :
    let entries : List Entry :=
      [⟨"30 days", "30", false, true⟩, ⟨"60 days", "60", true, false⟩, ⟨"90 days", "90", false, false⟩]
    let s := ((State.ofEntries entries).run [.openMenu]).1
    s.active = 0 ∧ enabledOnWay entries 0 2 = 1 ∧ enabledBefore entries 2 = 1 ∧ (enabledSet entries).card = 2 ∧
      (s.press .arrowDown 1).perform (.menuKey .enter) = s.perform (.entryClick 2) ∧
      (s.press .arrowUp 1).perform (.menuKey .enter) = s.perform (.entryClick 2) ∧
      ((s.press .home 1).press .arrowDown 1).perform (.menuKey .enter) = s.perform (.entryClick 2) ∧
      ((s.press .end 1).press .arrowUp 0).perform (.menuKey .enter) = s.perform (.entryClick 2) := by
  intro entries s
  obtain ⟨-, haround, hhome, hend⟩ := (keys_reach_what_a_click_chooses entries [.openMenu]).1 2 (by decide)
  exact ⟨by decide, by decide, by decide, by decide, (haround 0).1, (haround 0).2, hhome, hend⟩

end State

end Listbox
end PageWidgets
