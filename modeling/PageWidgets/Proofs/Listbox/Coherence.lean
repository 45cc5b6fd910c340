import PageWidgets.Proofs.Listbox.Moves

/-! The coherent states of a listbox. A listbox listens to the document exactly while it is open; when any entry
    is enabled, the active and the chosen one are enabled; and when none is, both stay where they began. Every
    operation keeps this, whatever index it is called with. -/

namespace PageWidgets
namespace Listbox

/-- A state that a listbox of the entries can be in. -/
structure Coherent (entries : List Entry) (s : State) : Prop where
  entries_eq : s.entries = entries
  listening_eq : s.listening = s.isOpen
  /-- When some entry is enabled, the active and the chosen index point at enabled entries of the list. -/
  enabled : entries.any Entry.enabled = true →
    (s.active < entries.length ∧ enabledAt entries s.active = true) ∧
      ∃ i, s.selected = some i ∧ i < entries.length ∧ enabledAt entries i = true
  /-- When there are entries, but all are disabled, both point at the first one. -/
  disabled : entries ≠ [] → entries.any Entry.enabled = false → s.active = 0 ∧ s.selected = some 0
  empty : entries = [] → s.active = 0 ∧ s.selected = none

namespace Coherent

variable {entries : List Entry} {s t : State}

theorem ofEntries (entries : List Entry) : Coherent entries (State.ofEntries entries) where
  entries_eq := rfl
  listening_eq := rfl
  enabled h := by
    have hen := enabledAt_initialIndex h
    have hne : entries.isEmpty = false := by
      cases entries with
      | nil => cases h
      | cons e rest => rfl
    exact ⟨⟨lt_length_of_enabledAt hen, hen⟩, initialIndex entries, by simp [State.ofEntries, hne],
      lt_length_of_enabledAt hen, hen⟩
  disabled hne h := by
    have hne' : entries.isEmpty = false := by simpa using hne
    simp [State.ofEntries, hne', initialIndex_of_not_any h]
  empty h := by
    subst h
    exact ⟨rfl, rfl⟩

theorem selectable_eq (h : Coherent entries s) (i : Nat) : s.selectable i = enabledAt entries i := by
  unfold State.selectable
  rw [h.entries_eq]

/-- Only an enabled entry can be made the active one, so there is one. -/
theorem any_of_selectable (h : Coherent entries s) {i : Nat} (hi : s.selectable i = true) :
    entries.any Entry.enabled = true := by
  rw [h.selectable_eq] at hi
  exact any_enabled_iff.mpr ⟨i, hi⟩

/-- Pointing both or one of the two indices at a selectable entry keeps the state coherent. -/
theorem point (h : Coherent entries s) {i : Nat} (hi : s.selectable i = true) {target : Option Nat}
    (ht : target = some i ∨ target = s.selected) : Coherent entries { s with selected := target, active := i } where
  entries_eq := h.entries_eq
  listening_eq := h.listening_eq
  enabled hany := by
    have hen : enabledAt entries i = true := h.selectable_eq i ▸ hi
    refine ⟨⟨lt_length_of_enabledAt hen, hen⟩, ?_⟩
    rcases ht with rfl | rfl
    · exact ⟨i, rfl, lt_length_of_enabledAt hen, hen⟩
    · exact (h.enabled hany).2
  disabled _ hnone := by
    rw [h.any_of_selectable hi] at hnone
    cases hnone
  empty hnil := by
    subst hnil
    cases h.any_of_selectable hi

theorem move {work : List Effect} (h : Coherent entries s) (hm : Move s work t) : Coherent entries t := by
  induction hm with
  | rest => exact h
  | highlight focus hi => exact h.point hi (.inr rfl)
  | openMenu hclosed => exact ⟨h.entries_eq, rfl, h.enabled, h.disabled, h.empty⟩
  | closeMenu focusTrigger hopen => exact ⟨h.entries_eq, rfl, h.enabled, h.disabled, h.empty⟩
  | choose hi => exact h.point hi (.inl rfl)
  | trans _ _ ih₁ ih₂ => exact ih₂ (ih₁ h)

theorem nativeChanged (h : Coherent entries s) (native : Option Nat) : Coherent entries (s.nativeChanged native).1 := by
  rcases s.nativeChanged_cases native with ⟨i, -, hi, heq⟩ | ⟨-, heq⟩
  · rw [heq]
    exact h.point hi (.inl rfl)
  · rw [heq]
    exact h

theorem perform (h : Coherent entries s) (op : Operation) : Coherent entries (s.perform op).1 := by
  by_cases hop : ∃ native, op = .nativeChanged native
  · obtain ⟨native, rfl⟩ := hop
    exact h.nativeChanged native
  · exact h.move (s.perform_move fun native heq => hop ⟨native, heq⟩)

theorem run (h : Coherent entries s) (ops : List Operation) : Coherent entries (s.run ops).1 := by
  induction ops generalizing s with
  | nil => exact h
  | cons op ops ih => exact ih (h.perform op)

end Coherent

/-- Every state that a listbox of the entries reaches is coherent. -/
theorem coherent_of_run (entries : List Entry) (ops : List Operation) :
    Coherent entries ((State.ofEntries entries).run ops).1 :=
  (Coherent.ofEntries entries).run ops

end Listbox
end PageWidgets
