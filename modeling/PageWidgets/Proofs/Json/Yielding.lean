import PageWidgets.Json.Reader

/-! What readers yield. A property of values that holds of whatever a reader makes of any text holds of what lists and
    records of such values are read as. Records start from their blank, so the blank has to have the property too, and
    every field has to keep it. -/

namespace PageWidgets
namespace Json

/-- Whatever text is read, what comes of it has the property. -/
def Reader.Yields {α : Type} (r : Reader α) (p : α → Prop) : Prop := ∀ ⦃l a rest⦄, r.text l = .ok (a, rest) → p a

namespace Reader.Yields

variable {α β : Type} {r : Reader α} {p : α → Prop}

theorem map {q : β → Prop} {f : α → β} (h : r.Yields p) (hf : ∀ a, p a → q (f a)) : (r.map f).Yields q := by
  intro l b rest hread
  simp only [Reader.map] at hread
  split at hread
  · cases hread
  · next a _ htext =>
    cases hread
    exact hf a (h htext)

/-- What a whole text is read as has the property. -/
theorem parse (h : r.Yields p) {text : String} {a : α} (hread : r.parse text = .ok a) : p a := by
  simp only [Reader.parse] at hread
  split at hread
  · cases hread
  · next htext =>
    split at hread
    · cases hread
      exact h htext
    · cases hread

theorem listItems (h : r.Yields p) {fuel : Nat} {first : Bool} {l rest : List Char} {as : List α}
    (hread : r.listItems fuel first l = .ok (as, rest)) : ∀ a ∈ as, p a := by
  induction fuel generalizing first l as with
  | zero => cases hread
  | succ fuel ih =>
    simp only [Reader.listItems] at hread
    split at hread
    · cases hread
    · cases hread
      exact fun a ha => absurd ha List.not_mem_nil
    · split at hread
      · cases hread
      · next htext =>
        split at hread
        · cases hread
        · next hitems =>
          cases hread
          exact List.forall_mem_cons.mpr ⟨h htext, ih hitems⟩

theorem list (h : r.Yields p) : (Reader.list r).Yields fun as => ∀ a ∈ as, p a := by
  intro l as rest hread
  simp only [Reader.list] at hread
  split at hread
  · split at hread
    · exact h.listItems hread
    · cases hread
  · cases hread

end Reader.Yields

namespace Shape

variable {α : Type} {s : Shape α} {p : α → Prop} {first : Bool} {a a' : α} {l rest : List Char}

/-- The field keeps the property, whatever it is read as. -/
def SlotKeeps (p : α → Prop) (slot : Slot α) : Prop := slot.reader.Yields fun set => ∀ a, p a → p (set a)

theorem members_yield (hslots : ∀ slot ∈ s.slots, SlotKeeps p slot) {fuel : Nat} {seen : List String} (ha : p a)
    (hread : s.members fuel first seen a l = .ok (a', rest)) : p a' := by
  induction fuel generalizing first seen a l with
  | zero => cases hread
  | succ fuel ih =>
    simp only [Shape.members] at hread
    split at hread
    · cases hread
    · split at hread
      · cases hread
      · cases hread
        exact ha
    · split at hread
      · -- An unknown member leaves the record as it is.
        split at hread
        · cases hread
        · split at hread
          · cases hread
          · exact ih ha hread
      · next hslot =>
        split at hread
        · cases hread
        · split at hread
          · cases hread
          · split at hread
            · cases hread
            · next htext => exact ih (hslots _ (List.mem_of_find?_eq_some hslot) htext _ ha) hread

theorem items_yield {slots : List (Slot α)} (hslots : ∀ slot ∈ slots, SlotKeeps p slot) {index : Nat} (ha : p a)
    (hread : s.items first index slots a l = .ok (a', rest)) : p a' := by
  induction slots generalizing first index a l with
  | nil =>
    simp only [Shape.items] at hread
    split at hread
    · cases hread
    · cases hread
      exact ha
  | cons slot slots ih =>
    obtain ⟨hslot, hrest⟩ := List.forall_mem_cons.mp hslots
    simp only [Shape.items] at hread
    split at hread
    · cases hread
    · split at hread
      · exact ih hrest ha hread
      · cases hread
    · split at hread
      · cases hread
      · next htext => exact ih hrest (hslot htext _ ha) hread

theorem reader_yields (hblank : p s.blank) (hslots : ∀ slot ∈ s.slots, SlotKeeps p slot) : s.reader.Yields p := by
  intro l a rest hread
  simp only [Shape.reader] at hread
  split at hread
  · split at hread
    · exact members_yield hslots hblank hread
    · split at hread
      · exact items_yield hslots hblank hread
      · cases hread
  · cases hread

end Shape
end Json
end PageWidgets
