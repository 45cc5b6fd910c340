import PageWidgets.Consent.TaggedRecord
import PageWidgets.Proofs.Consent.RecordCodec

/-! Tagged records are read as they were written: every record, also a map that does not grant the necessary category,
    from the value, from any layout of it, and from the value with its members in ascending order, where the categories
    come before the kind and are kept until it is known. -/

namespace PageWidgets
namespace Consent
namespace Record

open Json

/-! ### Categories -/

theorem within_categoriesValue (granted : NameMap Bool) : (categoriesValue granted).Within contentDepth := by
  refine ⟨by decide, ?_⟩
  induction granted.entries with
  | nil => trivial
  | cons e rest ih => exact ⟨trivial, ih⟩

theorem arranged_categoriesValue (granted : NameMap Bool) : (categoriesValue granted).arranged = categoriesValue granted := by
  have hmembers : ∀ l : List (String × Bool),
      Value.arrangedMembers (l.map fun e => (e.1, .bool e.2)) = l.map fun e => (e.1, Value.bool e.2) := by
    intro l
    induction l with
    | nil => rfl
    | cons e l ih => simp only [List.map_cons, Value.arrangedMembers, Value.arranged, ih]
  have hascending : Ascending (granted.entries.map fun e => (e.1, Value.bool e.2)) :=
    List.pairwise_map.mpr granted.ascending
  rw [categoriesValue, Value.arranged, hmembers]
  exact congrArg (fun m => Value.object m.entries) (NameMap.ofList_entries ⟨_, hascending⟩)

/-! ### Parts -/

section Parts

variable {first : Bool} {fuel : Nat} {b lead rest : List Char}

theorem nextText_part {key : String} {part : Part} (hpart : Part.ofName? key = some part) (hlead : Lead first lead) :
    Part.nextText (fuel + 1) first (lead ++ ((stringText key).toList ++ rest)) = .ok (some part, rest) := by
  simp only [Part.nextText, nextKey_lead hlead, hpart]

theorem nextText_end (hb : Blanks b) :
    Part.nextText (fuel + 1) first (b ++ '\x7d' :: rest) = .ok (none, b ++ '\x7d' :: rest) := by
  simp only [Part.nextText, nextKey_end hb]

theorem finishText_end (hb : Blanks b) (r : Record) : finishText r (b ++ '\x7d' :: rest) = .ok (r, rest) := by
  simp only [finishText, nextText_end hb, afterBrace_end hb]

end Parts

/-- The readers of a kind, one for texts and one for values. -/
def kindReader : Reader Kind := ⟨Kind.text, Kind.value⟩

theorem kind_takes {name : String} {k : Kind} (h : Kind.ofName name = .ok k) : kindReader.Takes (.string name) k where
  value := h
  text := by
    intro b t rest hb ht hrest
    have hread : Reader.string.text (t ++ rest) = .ok (name, rest) := (Reader.string_takes name).text .nil ht hrest
    cases ht
    rw [toList_stringText, List.cons_append] at hread ⊢
    simp only [kindReader, Kind.text, skipBlanks_mark hb (show isSpace '"' = false from rfl), if_true, Kind.nameText,
      hread, h]

/-- The readers of what a kind holds, one for texts and one for values. -/
def contentReader (k : Kind) : Reader Record := ⟨k.contentText, k.contentValue⟩

theorem content_takes (granted : NameMap Bool) :
    (contentReader .categories).Takes (categoriesValue granted) (.categories granted) where
  value := ((categories_takes granted).map Record.categories).value
  text := ((categories_takes granted).map Record.categories).text

/-! ### Records -/

theorem ofName?_kind : Part.ofName? "kind" = some .kind := rfl

theorem ofName?_categories : Part.ofName? "categories" = some .content := rfl

section Texts

variable {name : String} {k : Kind} {r : Record} {v : Value} {ms : List (String × Value)} {l : List Char}

theorem afterKind_end {b : List Char} (hr : k.alone = .ok r) (hb : Blanks b) (rest : List Char) :
    afterKind k (b ++ '\x7d' :: rest) = .ok (r, rest) := by
  simp only [afterKind, bind, Except.bind, nextText_end hb, hr, afterBrace_end hb]

theorem afterKind_content (hv : (contentReader k).Takes v r)
    (hl : Series (Member Laid) '\x7d' false [("categories", v)] l) (rest : List Char) :
    afterKind k (l ++ rest) = .ok (r, rest) := by
  obtain ⟨lead, b, b', t, l', hlead, hb, hb', ht, hend, rfl⟩ := hl.of_member
  have hread : k.contentText (b' ++ (t ++ (l' ++ rest))) = .ok (r, l' ++ rest) :=
    hv.text hb' ht (hend.ends (.inr rfl) rest)
  obtain @⟨_, b₁, hb₁⟩ := hend
  simp only [afterKind, bind, Except.bind, List.append_assoc, List.cons_append, List.nil_append] at hread ⊢
  simp only [nextText_part ofName?_categories hlead, scanColon_mark hb, hread, finishText_end hb₁]

theorem afterContent_kind (hk : Kind.ofName name = .ok k) (hr : k.contentValue v = .ok r)
    (hl : Series (Member Laid) '\x7d' false [("kind", .string name)] l) (rest : List Char) :
    afterContent v (l ++ rest) = .ok (r, rest) := by
  obtain ⟨lead, b, b', t, l', hlead, hb, hb', ht, hend, rfl⟩ := hl.of_member
  have hread : Kind.text (b' ++ (t ++ (l' ++ rest))) = .ok (k, l' ++ rest) :=
    (kind_takes hk).text hb' ht (hend.ends (.inr rfl) rest)
  obtain @⟨_, b₁, hb₁⟩ := hend
  simp only [afterContent, bind, Except.bind, List.append_assoc, List.cons_append, List.nil_append] at hread ⊢
  simp only [nextText_part ofName?_kind hlead, scanColon_mark hb, hread, hr, finishText_end hb₁]

theorem objectText_kind (hk : Kind.ofName name = .ok k) {rest : List Char}
    (hafter : ∀ l, Series (Member Laid) '\x7d' false ms l → afterKind k (l ++ rest) = .ok (r, rest))
    (hl : Series (Member Laid) '\x7d' true (("kind", .string name) :: ms) l) :
    objectText (l ++ rest) = .ok (r, rest) := by
  obtain ⟨lead, b, b', t, l', hlead, hb, hb', ht, hrest, rfl⟩ := hl.of_member
  have hread : Kind.text (b' ++ (t ++ (l' ++ rest))) = .ok (k, l' ++ rest) :=
    (kind_takes hk).text hb' ht (hrest.ends (.inr rfl) rest)
  simp only [objectText, bind, Except.bind, List.append_assoc, List.cons_append, nextText_part ofName?_kind hlead,
    scanColon_mark hb, hread, hafter l' hrest]

theorem objectText_content (hv : v.Within contentDepth) {rest : List Char}
    (hafter : ∀ l, Series (Member Laid) '\x7d' false ms l → afterContent v (l ++ rest) = .ok (r, rest))
    (hl : Series (Member Laid) '\x7d' true (("categories", v) :: ms) l) :
    objectText (l ++ rest) = .ok (r, rest) := by
  obtain ⟨lead, b, b', t, l', hlead, hb, hb', ht, hrest, rfl⟩ := hl.of_member
  have hread : (Reader.any contentDepth).text (b' ++ (t ++ (l' ++ rest))) = .ok (v, l' ++ rest) :=
    (Reader.any_takes hv).text hb' ht (hrest.ends (.inr rfl) rest)
  simp only [objectText, bind, Except.bind, List.append_assoc, List.cons_append, nextText_part ofName?_categories hlead,
    scanColon_mark hb, hread, hafter l' hrest]

/-- An object is taken when its members are, as a value and as a text. -/
theorem reader_takes (hvalue : objectValue ms = .ok r)
    (htext : ∀ {l : List Char}, Series (Member Laid) '\x7d' true ms l → ∀ rest, objectText (l ++ rest) = .ok (r, rest)) :
    reader.Takes (.object ms) r where
  value := hvalue
  text := by
    intro b t rest hb ht hrest
    obtain _ | _ | _ | _ | _ | hmembers := ht
    rw [List.cons_append]
    simp only [reader, skipBlanks_mark hb (show isSpace '\x7b' = false from rfl), if_true]
    exact htext hmembers rest

end Texts

theorem reader_takes_alone {name : String} {k : Kind} {r : Record} (hk : Kind.ofName name = .ok k) (hr : k.alone = .ok r) :
    reader.Takes (.object [("kind", .string name)]) r := by
  have hvalue : Kind.value (.string name) = .ok k := hk
  refine reader_takes ?_ fun hl rest => objectText_kind hk (fun l hend => ?_) hl
  · simp [objectValue, nextMember, ofName?_kind, hvalue, hr, bind, Except.bind]
  · obtain ⟨hb⟩ := hend
    rw [List.append_assoc]
    exact afterKind_end hr hb rest

theorem ofName_categories : Kind.ofName "categories" = .ok .categories := rfl

/-- A record is taken as it was written. -/
theorem takes_toValue (r : Record) : reader.Takes r.toValue r := by
  cases r with
  | accepted => exact reader_takes_alone rfl rfl
  | rejected => exact reader_takes_alone rfl rfl
  | categories granted =>
    have hkind : Kind.value (.string "categories") = .ok .categories := rfl
    have hcontent : Kind.categories.contentValue (categoriesValue granted) = .ok (.categories granted) :=
      (content_takes granted).value
    refine reader_takes ?_ fun hl rest =>
      objectText_kind ofName_categories (fun l hl => afterKind_content (content_takes granted) hl rest) hl
    simp [objectValue, nextMember, ofName?_kind, ofName?_categories, hkind, hcontent, finishValue, bind, Except.bind]

theorem arranged_toValue (r : Record) : r.toValue.arranged = match r with
    | .categories granted => .object [("categories", categoriesValue granted), ("kind", .string "categories")]
    | r => r.toValue := by
  cases r with
  | accepted => rfl
  | rejected => rfl
  | categories granted =>
    simp only [toValue, Value.arranged, Value.arrangedMembers, arranged_categoriesValue, NameMap.ofList, NameMap.insert,
      NameMap.insertInto, NameMap.empty, List.foldl_cons, List.foldl_nil, String.reduceLT, if_true]

/-- A record is taken from its arranged value as well. -/
theorem takes_arranged (r : Record) : reader.Takes r.toValue.arranged r := by
  rw [arranged_toValue]
  cases r with
  | accepted => exact takes_toValue .accepted
  | rejected => exact takes_toValue .rejected
  | categories granted =>
    have hkind : Kind.value (.string "categories") = .ok .categories := rfl
    have hcontent : Kind.categories.contentValue (categoriesValue granted) = .ok (.categories granted) :=
      (content_takes granted).value
    refine reader_takes ?_ fun hl rest => objectText_content (within_categoriesValue granted)
      (fun l hl => afterContent_kind ofName_categories hcontent hl rest) hl
    simp [objectValue, nextMember, ofName?_kind, ofName?_categories, hkind, hcontent, finishValue, bind, Except.bind]

end Record
end Consent
end PageWidgets
