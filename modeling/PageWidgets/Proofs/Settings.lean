import PageWidgets.Settings

/-! What the check of settings lets through: settings whose markers are all more than blanks and whose cookie is kept
    for a day at least, and no others. Whatever is read from a settings document has passed the check. -/

namespace PageWidgets
namespace Settings

/-- The settings pass the check. -/
structure Admitted (s : Settings) : Prop where
  consent : ∀ m ∈ s.consent.markers, Text.isBlankText m.2 = false
  select : ∀ m ∈ s.select.markers, Text.isBlankText m.2 = false
  lasting : 1 ≤ s.consent.durationDays

theorem blankMarker?_eq_none {markers : List (String × String)} :
    blankMarker? markers = none ↔ ∀ m ∈ markers, Text.isBlankText m.2 = false := by
  unfold blankMarker?
  rw [Option.map_eq_none_iff, List.find?_eq_none]
  simp only [Bool.not_eq_true]

theorem validate_eq_ok {s : Settings} : s.validate = .ok () ↔ s.Admitted := by
  unfold validate
  constructor
  · intro h
    split at h
    · cases h
    · next hconsent =>
      split at h
      · cases h
      · next hselect =>
        split at h
        · cases h
        · next hdays =>
          exact ⟨blankMarker?_eq_none.mp hconsent, blankMarker?_eq_none.mp hselect, Nat.one_le_iff_ne_zero.mpr hdays⟩
  · rintro ⟨hconsent, hselect, hdays⟩
    rw [blankMarker?_eq_none.mpr hconsent, blankMarker?_eq_none.mpr hselect]
    exact if_neg (Nat.one_le_iff_ne_zero.mp hdays)

theorem admitted_of_ofJson {text : String} {s : Settings} (h : ofJson text = .ok s) : s.Admitted := by
  unfold ofJson at h
  split at h
  · cases h
  · split at h
    · cases h
    · next hvalid =>
      cases h
      exact validate_eq_ok.mp hvalid

end Settings
end PageWidgets
