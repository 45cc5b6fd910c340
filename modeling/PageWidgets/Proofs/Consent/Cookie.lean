import PageWidgets.Consent.Cookie
import PageWidgets.Proofs.Calendar.MailDate
import PageWidgets.Proofs.Consent.Jar
import PageWidgets.Proofs.Consent.RecordCodec

/-! What the consent cookie's own assignments do to a jar. An assignment made for a name that can be read back removes
    the cookie once the second of its expiry has come, and puts its value before that; an expiry whose year has not
    four digits is never read, and the value is put at any time. -/

namespace PageWidgets
namespace Consent

open Calendar Text

/-- A name that an assignment can give to a cookie. -/
structure Nameable (name : String) : Prop where
  no_equals : '=' ∉ name.toList
  no_semicolon : ';' ∉ name.toList
  no_blank_first : ∀ c, name.toList.head? = some c → isBlank c = false

/-! ### Expiry dates -/

theorem offsetForm_append {l : List Char} (h : 'G' ∉ l) (rest : List Char) :
    offsetForm (l ++ rest) = l ++ offsetForm rest := by
  induction l with
  | nil => rfl
  | cons c l ih =>
    obtain ⟨hc, hl⟩ := List.ne_and_not_mem_of_not_mem_cons h
    rw [List.cons_append, offsetForm, ih hl, List.cons_append]
    rintro r rfl -
    exact hc rfl

theorem read_offsetForm (t : Instant) :
    MailDate.read (offsetForm (MailDate.unzoned t ++ " GMT".toList)) =
      if MailDate.FourDigitYear t then some t.wholeSecond else none := by
  have hG : 'G' ∉ MailDate.unzoned t := fun h => (MailDate.isDateChar_of_mem_unzoned h).1 rfl
  rw [offsetForm_append hG]
  exact MailDate.read_unzoned t

/-- The attribute that tells an expiry date. -/
def expiresText (t : Instant) : List Char := "expires=".toList ++ (MailDate.unzoned t ++ " GMT".toList)

theorem trim_expiresText (t : Instant) : trim (expiresText t) = expiresText t := by
  refine trim_of_ends (fun c hc => ?_) fun c hc => ?_
  · have hfirst : some 'e' = some c := hc
    rw [← Option.some.inj hfirst]
    rfl
  · have hT : " GMT".toList.getLast? = some 'T' := rfl
    unfold expiresText at hc
    rw [← List.append_assoc, List.getLast?_append, hT, Option.some_or] at hc
    rw [← Option.some.inj hc]
    rfl

theorem expiry?_expiresText (t : Instant) :
    expiry? (' ' :: expiresText t) = if MailDate.FourDigitYear t then some t.wholeSecond else none := by
  have hcut : splitOnce '=' (expiresText t) = some ("expires".toList, MailDate.unzoned t ++ " GMT".toList) :=
    splitOnce_append (a := "expires".toList) (by decide) _
  rw [expiry?, trim_blank_cons rfl, trim_expiresText, hcut]
  exact (if_pos rfl).trans (read_offsetForm t)

theorem not_mem_expiresText (t : Instant) : ';' ∉ ' ' :: expiresText t := by
  have hdate : ';' ∉ MailDate.unzoned t := fun h => (MailDate.isDateChar_of_mem_unzoned h).2 rfl
  unfold expiresText
  simp [hdate]

/-! ### Assignments -/

theorem toList_assignment (name value : String) (t : Instant) :
    (Cookie.assignment name value t).toList =
      entryText (name, value) ++ ';' :: (' ' :: expiresText t ++ ';' :: " path=/; SameSite=Lax".toList) := by
  have hlead : "; expires=".toList = ';' :: ' ' :: "expires=".toList := rfl
  have htail : "; path=/; SameSite=Lax".toList = ';' :: " path=/; SameSite=Lax".toList := rfl
  have hequals : "=".toList = ['='] := rfl
  have hdate := MailDate.toList_text t
  unfold Cookie.assignment entryText expiresText
  -- A literal would be compared with the written date by writing it out.
  generalize MailDate.text t = date at hdate
  simp only [String.toList_append, hlead, htail, hequals, hdate, List.append_assoc,
    List.cons_append, List.nil_append]

theorem spelled_of_nameable {name value : String} (hname : Nameable name)
    (hvalue : ∀ c ∈ value.toList, c ≠ ';' ∧ isBlank c = false) : Spelled (name, value) := by
  refine ⟨hname.no_equals, fun h => ?_, trim_of_ends (fun c hc => ?_) fun c hc => ?_⟩
  · rcases List.mem_append.mp h with h | h
    · exact hname.no_semicolon h
    · exact List.not_mem_cons_of_ne_of_not_mem (by decide) (fun hmem => (hvalue _ hmem).1 rfl) h
  · rw [entryText, List.head?_append] at hc
    cases hhead : name.toList.head? with
    | none =>
      rw [hhead] at hc
      cases hc
      rfl
    | some d =>
      rw [hhead, Option.some_or] at hc
      exact hname.no_blank_first c (hhead.trans hc)
  · rw [entryText, List.getLast?_append, List.getLast?_cons, Option.some_or] at hc
    cases hlast : value.toList.getLast? with
    | none =>
      rw [hlast] at hc
      cases hc
      rfl
    | some d =>
      rw [hlast, Option.getD_some] at hc
      cases hc
      exact (hvalue c (List.mem_of_getLast? hlast)).2

theorem parts_assignment {name value : String} (h : Spelled (name, value)) (t : Instant) :
    parts ';' (Cookie.assignment name value t).toList =
      (entryText (name, value), [' ' :: expiresText t, " path=/".toList, " SameSite=Lax".toList]) := by
  rw [toList_assignment, parts_append h.one_part, split_append (not_mem_expiresText t)]
  rfl

/-- Only the expiry date says whether a written assignment has ended. -/
theorem expired_attributes (t now : Instant) :
    expired [' ' :: expiresText t, " path=/".toList, " SameSite=Lax".toList] now = true ↔
      MailDate.FourDigitYear t ∧ t.wholeSecond ≤ now := by
  have hpath : expiry? " path=/".toList = none := rfl
  have hsite : expiry? " SameSite=Lax".toList = none := rfl
  rw [expired, List.any_cons, List.any_cons, List.any_cons, hpath, hsite, expiry?_expiresText]
  by_cases hy : MailDate.FourDigitYear t
  · simp [hy]
  · simp [hy]

namespace Jar

/-- What storing an assignment of that form does. -/
theorem store_assignment {name value : String} (hname : Nameable name)
    (hvalue : ∀ c ∈ value.toList, c ≠ ';' ∧ isBlank c = false) (j : Jar) (t now : Instant) :
    j.store (Cookie.assignment name value t) now =
      if MailDate.FourDigitYear t ∧ t.wholeSecond ≤ now then ⟨j.cookies.erase name⟩
      else ⟨j.cookies.insert name value⟩ := by
  have hspelled := spelled_of_nameable hname hvalue
  rw [store, parts_assignment hspelled t]
  simp only [hspelled.pair, expired_attributes]

end Jar

theorem cookieValue_chars (r : Record) : ∀ c ∈ r.cookieValue.toList, c ≠ ';' ∧ isBlank c = false := by
  intro c hc
  rw [Record.toList_cookieValue] at hc
  have hpercent := isPercentChar_of_mem hc
  refine ⟨fun h => ?_, Record.isBlank_eq_false hpercent⟩
  rw [h] at hpercent
  exact absurd hpercent (by decide)

namespace Cookie

theorem header_of_plusDays {c : Cookie} {r : Record} {now t : Instant} (h : now.plusDays? c.durationDays = some t) :
    c.header r now = .ok (assignment c.name r.cookieValue t) := by
  simp only [header, expiresAt, h]

theorem eq_of_plusDays {now t : Instant} {n : Nat} (h : now.plusDays? n = some t) : t = now + n * dayMillis := by
  simp only [Instant.plusDays?] at h
  split at h
  · exact (Option.some.inj h).symm
  · cases h

/-- A cookie that lives a day at least has not ended when it is written. -/
theorem not_ended {now t : Instant} {n : Nat} (hn : 1 ≤ n) (h : now.plusDays? n = some t) : ¬t.wholeSecond ≤ now := by
  have hlater : ∀ a : Int, ¬(a + n * 86400000) / 1000 * 1000 ≤ a := by
    intro a
    omega
  rw [eq_of_plusDays h]
  exact hlater now

end Cookie

namespace Jar

/-- A choice that is kept for a day at least is in the jar right after. -/
theorem store_header {c : Cookie} {now : Instant} (hname : Nameable c.name) (hdays : 1 ≤ c.durationDays)
    (hrange : (now.plusDays? c.durationDays).isSome = true) (j : Jar) (r : Record) :
    ∃ header, c.header r now = .ok header ∧ j.store header now = ⟨j.cookies.insert c.name r.cookieValue⟩ := by
  obtain ⟨t, ht⟩ := Option.isSome_iff_exists.mp hrange
  refine ⟨_, Cookie.header_of_plusDays ht, ?_⟩
  rw [store_assignment hname (cookieValue_chars r), if_neg fun h => Cookie.not_ended hdays ht h.2]

theorem store_deletion {c : Cookie} {now : Instant} (hname : Nameable c.name) (hnow : 0 ≤ now) (j : Jar) :
    j.store c.deletion now = ⟨j.cookies.erase c.name⟩ := by
  have hyear : MailDate.FourDigitYear 0 := by decide
  rw [Cookie.deletion, store_assignment hname (fun c hc => absurd hc List.not_mem_nil), if_pos ⟨hyear, hnow⟩]

end Jar

end Consent
end PageWidgets
