import PageWidgets.Consent.Record
import PageWidgets.Proofs.Json.Reading
import PageWidgets.Proofs.Text.Percent

/-! The cookie form of a record reads back. A cookie holds the percent form of one of two words or of a JSON map, and
    what it is read as is what was written, but for a map that does not grant the necessary category: that one is
    refused. Reading is laxer than writing, but what it accepts can be written, and reads back the same. -/

namespace PageWidgets
namespace Consent
namespace Record

/-- The record grants the necessary category, as far as it has categories. -/
def GrantsNecessary : Record → Prop
  | .accepted => True
  | .rejected => True
  | .categories granted => granted.get? necessary = some true

theorem isBlank_eq_false {c : Char} (h : Text.isPercentChar c = true) : Text.isBlank c = false := by
  have hlt := Text.lt_of_isPercentChar h
  have hn : ∀ n < 0x80, Text.isPercentChar (Char.ofNat n) = true → Text.isBlank (Char.ofNat n) = false := by decide
  have := hn c.toNat hlt
  rw [Char.ofNat_toNat] at this
  exact this h

theorem toList_cookieValue (r : Record) : r.cookieValue.toList = Text.percentEncode r.plain.toList := by
  rw [cookieValue, String.toList_ofList]

/-- The layers around the plain form come off again. -/
theorem decode_cookieValue (r : Record) : decode r.cookieValue = ofPlain r.plain := by
  have htrim : Text.trim r.cookieValue.toList = Text.percentEncode r.plain.toList := by
    rw [toList_cookieValue]
    exact Text.trim_of_forall fun c hc => isBlank_eq_false (Text.isPercentChar_of_mem hc)
  rw [decode, htrim, Text.percentDecode_percentEncode, Text.ofUtf8_utf8]
  simp only [String.ofList_toList]

/-! ### Maps -/

theorem categories_takes (granted : NameMap Bool) :
    (Json.Reader.dict .bool).Takes (categoriesValue granted) granted := by
  have hentries : List.Forall₂ (fun x e => x.1 = e.1 ∧ Json.Reader.bool.Takes x.2 e.2)
      (granted.entries.map fun e => (e.1, Json.Value.bool e.2)) granted.entries := by
    rw [List.forall₂_map_left_iff]
    exact List.forall₂_same.mpr fun e _ => ⟨rfl, Json.Reader.bool_takes e.2⟩
  have htakes := Json.Reader.dict_takes hentries
  rw [NameMap.ofList_entries] at htakes
  exact htakes

theorem plain_categoriesValue (granted : NameMap Bool) : (categoriesValue granted).Plain := by
  refine Json.Value.plainMembers_iff.mpr fun m hm => ?_
  obtain ⟨e, -, rfl⟩ := List.mem_map.mp hm
  trivial

theorem ofMapText_plain (granted : NameMap Bool) :
    ofMapText (plain (.categories granted)) =
      if granted.get? necessary = some true then .ok (.categories granted) else .error .necessaryNotGranted := by
  have hread : (Json.Reader.dict .bool).parse (categoriesValue granted).compact = .ok granted :=
    (categories_takes granted).parse (Json.laid_compact (plain_categoriesValue granted))
  rw [plain, ofMapText, hread]

/-- A map is written with a brace in front, so it is none of the words. -/
theorem plain_categories_ne (granted : NameMap Bool) {word : String} (h : word.toList.head? ≠ some '\x7b') :
    plain (.categories granted) ≠ word := by
  rintro rfl
  refine h ?_
  rw [plain, categoriesValue, Json.Value.compact, String.toList_append, String.toList_append, List.append_assoc]
  rfl

theorem ofPlain_categories (granted : NameMap Bool) :
    ofPlain (plain (.categories granted)) =
      if granted.get? necessary = some true then .ok (.categories granted) else .error .necessaryNotGranted := by
  have haccepted : ¬(plain (.categories granted) = "accepted" ∨ plain (.categories granted) = "1") :=
    not_or.mpr ⟨plain_categories_ne granted (by decide), plain_categories_ne granted (by decide)⟩
  have hrejected : plain (.categories granted) ≠ "rejected" := plain_categories_ne granted (by decide)
  rw [ofPlain, if_neg haccepted, if_neg hrejected, ofMapText_plain]

/-! ### Records -/

theorem decode_of_grants {r : Record} (h : r.GrantsNecessary) : decode r.cookieValue = .ok r := by
  rw [decode_cookieValue]
  cases r with
  | accepted => rfl
  | rejected => rfl
  | categories granted => exact (ofPlain_categories granted).trans (if_pos h)

theorem decode_of_not_grants {r : Record} (h : ¬r.GrantsNecessary) :
    decode r.cookieValue = .error .necessaryNotGranted := by
  rw [decode_cookieValue]
  cases r with
  | accepted => exact absurd trivial h
  | rejected => exact absurd trivial h
  | categories granted => exact (ofPlain_categories granted).trans (if_neg h)

theorem grants_of_ofMapText {text : String} {r : Record} (h : ofMapText text = .ok r) : r.GrantsNecessary := by
  unfold ofMapText at h
  split at h
  · cases h
  · split at h
    · next hget =>
      cases h
      exact hget
    · cases h

theorem grants_of_ofPlain {text : String} {r : Record} (h : ofPlain text = .ok r) : r.GrantsNecessary := by
  unfold ofPlain at h
  split at h
  · cases h
    trivial
  · split at h
    · cases h
      trivial
    · exact grants_of_ofMapText h

/-- Only records that grant the necessary category are read, whatever the cookie holds. -/
theorem grants_of_decode {raw : String} {r : Record} (h : decode raw = .ok r) : r.GrantsNecessary := by
  unfold decode at h
  split at h
  · cases h
  · exact grants_of_ofPlain h

/-- Writing and reading agree both ways: a record is read back unless it is a map that does not grant the necessary
    category, and what is read from any cookie value can be written and is then read as the same record. -/
theorem cookieValue_round_trip :
    (∀ r : Record, r.GrantsNecessary → decode r.cookieValue = .ok r) ∧
    (∀ r : Record, ¬r.GrantsNecessary → decode r.cookieValue = .error .necessaryNotGranted) ∧
    ∀ (raw : String) (r : Record), decode raw = .ok r → r.GrantsNecessary ∧ decode r.cookieValue = .ok r :=
  ⟨fun _ => decode_of_grants, fun _ => decode_of_not_grants,
    fun _ _ h => ⟨grants_of_decode h, decode_of_grants (grants_of_decode h)⟩⟩

end Record
end Consent
end PageWidgets
