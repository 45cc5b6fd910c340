import PageWidgets.Proofs.Consent.Cookie

/-! No record reaches beyond its place in an assignment. Its cookie form spells the bytes of its plain form as a
    component of an address is spelled, whatever characters the names of its categories have, and holds none that means
    something in a cookie. An assignment has the attributes it was made with, then, and no other. -/

namespace PageWidgets
namespace Text

/-! ### Bytes -/

/-- The spelling of a byte in a component of an address: an ASCII letter or digit, or one of nine marks, is spelled as
    itself, and any other byte as two upper-case hex digits. -/
def componentByte (b : UInt8) : List Char :=
  let c := Char.ofNat b.toNat
  if c.isAlphanum ∨ c ∈ "-_.!~*'()".toList then [c]
  else ['%', (Nat.digitChar (b.toNat / 16)).toUpper, (Nat.digitChar (b.toNat % 16)).toUpper]

theorem percentByte_eq (b : UInt8) : percentByte b = componentByte b := by
  have hbytes : ∀ n < 256, percentByte (UInt8.ofNat n) = componentByte (UInt8.ofNat n) := by decide +kernel
  have hb := hbytes b.toNat b.toNat_lt
  rwa [UInt8.ofNat_toNat] at hb

/-! ### Characters -/

/-- A character that means nothing in a cookie: a visible ASCII character, hence neither a control character nor a
    blank, that neither separates nor quotes. -/
structure Inert (c : Char) : Prop where
  visible : 0x20 < c.toNat ∧ c.toNat < 0x7F
  not_blank : isBlank c = false
  no_mark : c ∉ [';', '=', ',', '"', '\\']

theorem inert_of_isPercentChar {c : Char} (h : isPercentChar c = true) : Inert c := by
  have hall : ∀ n < 0x80, isPercentChar (Char.ofNat n) = true →
      (0x20 < (Char.ofNat n).toNat ∧ (Char.ofNat n).toNat < 0x7F) ∧ isBlank (Char.ofNat n) = false ∧
        Char.ofNat n ∉ [';', '=', ',', '"', '\\'] := by decide
  have hc := hall c.toNat (lt_of_isPercentChar h)
  rw [Char.ofNat_toNat] at hc
  obtain ⟨hvisible, hblank, hmark⟩ := hc h
  exact ⟨hvisible, hblank, hmark⟩

end Text

namespace Consent

open Calendar Text

namespace Record

theorem toList_cookieValue_eq (r : Record) :
    r.cookieValue.toList = r.plain.toUTF8.data.toList.flatMap componentByte := by
  rw [toList_cookieValue, percentEncode, utf8_toList]
  exact List.flatMap_congr fun b _ => percentByte_eq b

theorem inert_of_mem_cookieValue {r : Record} {c : Char} (h : c ∈ r.cookieValue.toList) : Inert c := by
  rw [toList_cookieValue] at h
  exact inert_of_isPercentChar (isPercentChar_of_mem h)

theorem read_cookieValue (r : Record) : ofUtf8 (percentDecode (utf8 r.cookieValue.toList)) = .ok r.plain.toList := by
  rw [toList_cookieValue, percentDecode_percentEncode, ofUtf8_utf8]

end Record

namespace Cookie

theorem ofList_entryText (name value : String) : String.ofList (entryText (name, value)) = name ++ "=" ++ value := by
  refine String.toList_injective ?_
  simp [entryText]

theorem ofList_expiresText (t : Instant) : String.ofList (' ' :: expiresText t) = " expires=" ++ MailDate.text t := by
  have hlead : " expires=".toList = ' ' :: "expires=".toList := rfl
  have hdate := MailDate.toList_text t
  refine String.toList_injective ?_
  unfold expiresText
  -- A literal would be compared with the written date by writing it out.
  generalize MailDate.text t = date at hdate
  rw [String.toList_ofList, String.toList_append, hlead, hdate, List.cons_append]

/-- An assignment falls apart at its own separators only. -/
theorem split_assignment {name value : String} (hname : ';' ∉ name.toList) (hvalue : ';' ∉ value.toList) (t : Instant) :
    (split ';' (assignment name value t).toList).map String.ofList =
      [name ++ "=" ++ value, " expires=" ++ MailDate.text t, " path=/", " SameSite=Lax"] := by
  have hentry : ';' ∉ entryText (name, value) := by simp [entryText, hname, hvalue]
  have hrest : split ';' " path=/; SameSite=Lax".toList = [" path=/".toList, " SameSite=Lax".toList] := rfl
  rw [toList_assignment, split_append hentry, split_append (not_mem_expiresText t), hrest]
  simp only [List.map_cons, List.map_nil, ofList_entryText, ofList_expiresText, String.ofList_toList]

/-- The cookie form of a record is its plain form spelled byte by byte and reads back as it; it holds inert characters
    only, so an assignment of it, under any name without a semicolon and at any time whose expiry date there is, has the
    three attributes that the cookie gives it and no other. -/
theorem records_add_no_attribute (r : Record) :
    r.cookieValue.toList = r.plain.toUTF8.data.toList.flatMap componentByte ∧
      ofUtf8 (percentDecode (utf8 r.cookieValue.toList)) = .ok r.plain.toList ∧
      (∀ c ∈ r.cookieValue.toList, Inert c) ∧
      ∀ (c : Cookie) (now : Instant), ';' ∉ c.name.toList → (now.plusDays? c.durationDays).isSome = true →
        ∃ t header, c.expiresAt now = .ok t ∧ c.header r now = .ok header ∧
          (split ';' header.toList).map String.ofList =
            [c.name ++ "=" ++ r.cookieValue, " expires=" ++ MailDate.text t, " path=/", " SameSite=Lax"] := by
  refine ⟨r.toList_cookieValue_eq, r.read_cookieValue, fun c hc => Record.inert_of_mem_cookieValue hc,
    fun c now hname hrange => ?_⟩
  obtain ⟨t, ht⟩ := Option.isSome_iff_exists.mp hrange
  have hvalue : ';' ∉ r.cookieValue.toList := fun h => (Record.inert_of_mem_cookieValue h).no_mark List.mem_cons_self
  exact ⟨t, _, by simp only [expiresAt, ht], header_of_plusDays ht, split_assignment hname hvalue t⟩

/-- A choice in a category whose name looks like more attributes. -/
def deceptiveChoice : Record := .ofChoices (NameMap.ofList [("a; path=/x, \\\"é", true)])

/-- It is spelled out under a name with an equals sign. -/
theorem deceptive_choice_adds_no_attribute :
    ';' ∉ "fsqr=consent".toList ∧ (Instant.plusDays? 1740830400000 365).isSome = true ∧
      ∃ header, (Cookie.mk "fsqr=consent" 365).header deceptiveChoice 1740830400000 = .ok header ∧
        (split ';' header.toList).map String.ofList =
          ["fsqr=consent=%7B%22a%3B%20path%3D%2Fx%2C%20%5C%5C%5C%22%C3%A9%22%3Atrue%2C%22necessary%22%3Atrue%7D",
            " expires=Sun, 01 Mar 2026 12:00:00 GMT", " path=/", " SameSite=Lax"] := by
  have hname : ';' ∉ "fsqr=consent".toList := by decide
  have hrange : (Instant.plusDays? 1740830400000 365).isSome = true := by decide +kernel
  have hvalue : deceptiveChoice.cookieValue =
      "%7B%22a%3B%20path%3D%2Fx%2C%20%5C%5C%5C%22%C3%A9%22%3Atrue%2C%22necessary%22%3Atrue%7D" := by decide +kernel
  have hexpires : (Cookie.mk "fsqr=consent" 365).expiresAt 1740830400000 = .ok 1772366400000 := by decide +kernel
  have hdate : MailDate.text 1772366400000 = "Sun, 01 Mar 2026 12:00:00 GMT" := by decide +kernel
  obtain ⟨-, -, -, hattributes⟩ := records_add_no_attribute deceptiveChoice
  obtain ⟨t, header, ht, hheader, hsplit⟩ := hattributes ⟨"fsqr=consent", 365⟩ 1740830400000 hname hrange
  obtain rfl := Except.ok.inj (ht.symm.trans hexpires)
  refine ⟨hname, hrange, header, hheader, ?_⟩
  rw [hsplit, hvalue, hdate]
  decide +kernel

end Cookie
end Consent
end PageWidgets
