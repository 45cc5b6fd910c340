import Mathlib.Data.List.Induction
import PageWidgets.Proofs.Consent.Cookie

/-! A jar that assignments were stored in, one after the other. Under a name it holds what the last assignment to
    that name gave, unless that one had ended when it was stored; no assignment to another name counts, whatever
    stands in its value and attributes. The consent cookie's own assignment is such an assignment, and it has ended
    from the second that it tells on. -/

namespace PageWidgets
namespace Consent

open Calendar Text

/-- An assignment gives a value to a name: its text up to the first semicolon, blanks at the ends dropped, is the
    name, an equals sign and the value, and the name ends at the first equals sign. -/
def Assigns (assignment name value : String) : Prop :=
  ∃ first rest, assignment.toList = first ++ rest ∧ ';' ∉ first ∧ (∀ c, rest.head? = some c → c = ';') ∧
    trim first = name.toList ++ '=' :: value.toList ∧ '=' ∉ name.toList

/-- Some attribute of the assignment says that the cookie has ended by then. -/
def EndedBy (assignment : String) (now : Instant) : Prop := expired (parts ';' assignment.toList).2 now = true

/-- The last of the assignments that gives the name any value gives it this one, and had not ended when it was
    stored. -/
def LastGives (stores : List (String × Instant)) (name value : String) : Prop :=
  ∃ before assignment now after, stores = before ++ (assignment, now) :: after ∧
    Assigns assignment name value ∧ ¬EndedBy assignment now ∧ ∀ x ∈ after, ∀ v, ¬Assigns x.1 name v

/-! ### Assignments -/

theorem assigned?_eq_some {assignment name value : String} :
    assigned? assignment = some (name, value) ↔ Assigns assignment name value := by
  unfold assigned?
  rw [pair?_eq_some]
  constructor
  · rintro ⟨hname, htrim⟩
    obtain ⟨rest, hrest, hhead⟩ := parts_fst_append ';' assignment.toList
    exact ⟨_, rest, hrest, not_mem_of_mem_split List.mem_cons_self, hhead, htrim, hname⟩
  · rintro ⟨first, rest, htext, hfirst, hhead, htrim, hname⟩
    refine ⟨hname, ?_⟩
    have hcut : (parts ';' assignment.toList).1 = first := by
      rw [htext]
      cases rest with
      | nil => rw [List.append_nil, parts_of_not_mem hfirst]
      | cons c rest =>
        rw [hhead c rfl, parts_append hfirst]
    rw [hcut]
    exact htrim

theorem assigned?_eq_none {assignment : String} :
    assigned? assignment = none ↔ ∀ name value, ¬Assigns assignment name value := by
  constructor
  · intro h name value hgives
    rw [assigned?_eq_some.mpr hgives] at h
    cases h
  · intro h
    cases he : assigned? assignment with
    | none => rfl
    | some e => exact absurd (assigned?_eq_some.mp he) (h e.1 e.2)

theorem Assigns.unique {assignment name value name' value' : String} (h : Assigns assignment name value)
    (h' : Assigns assignment name' value') : name = name' ∧ value = value' := by
  have heq := (assigned?_eq_some.mpr h).symm.trans (assigned?_eq_some.mpr h')
  exact Prod.mk.inj (Option.some.inj heq)

namespace Jar

/-- The jar after assignments, each stored at its instant. -/
def storeAll (j : Jar) (stores : List (String × Instant)) : Jar := stores.foldl (fun j x => j.store x.1 x.2) j

theorem storeAll_append (j : Jar) (a b : List (String × Instant)) : j.storeAll (a ++ b) = (j.storeAll a).storeAll b :=
  List.foldl_append

theorem Legible.storeAll {j : Jar} (h : j.Legible) (stores : List (String × Instant)) : (j.storeAll stores).Legible := by
  induction stores generalizing j with
  | nil => exact h
  | cons x rest ih => exact ih (h.store x.1 x.2)

/-! ### One assignment -/

theorem store_of_not_assigns {j : Jar} {assignment : String} {now : Instant}
    (h : ∀ name value, ¬Assigns assignment name value) : j.store assignment now = j := by
  rcases store_cases j assignment now with ⟨-, heq⟩ | ⟨name, value, hgives, -⟩
  · exact heq
  · exact absurd (assigned?_eq_some.mp hgives) (h name value)

/-- What the jar holds under a name that the assignment gives no value stays. -/
theorem get?_store_of_not {j : Jar} {assignment name : String} {now : Instant}
    (h : ∀ value, ¬Assigns assignment name value) :
    (j.store assignment now).cookies.get? name = j.cookies.get? name := by
  refine get?_store_of_ne fun e he heq => ?_
  subst heq
  exact h e.2 (assigned?_eq_some.mp he)

/-- What the jar holds under the name that the assignment gives a value: nothing when it has ended. -/
theorem get?_store_of_assigns {j : Jar} {assignment name value : String} {now : Instant}
    (h : Assigns assignment name value) (v : String) :
    (j.store assignment now).cookies.get? name = some v ↔ v = value ∧ ¬EndedBy assignment now := by
  unfold EndedBy
  rcases store_cases j assignment now with ⟨hnone, -⟩ | ⟨name', value', hgives, hstore⟩
  · exact absurd h (assigned?_eq_none.mp hnone name value)
  · obtain ⟨rfl, rfl⟩ := h.unique (assigned?_eq_some.mp hgives)
    rcases hstore with ⟨hended, heq⟩ | ⟨hended, heq⟩
    · rw [heq, NameMap.get?_erase, if_pos rfl, hended]
      simp
    · rw [heq, NameMap.get?_insert, if_pos rfl, hended]
      simp [eq_comm]

/-! ### Runs of assignments -/

theorem lastGives_concat_of_not {stores : List (String × Instant)} {x : String × Instant} {name value : String}
    (h : ∀ v, ¬Assigns x.1 name v) : LastGives (stores ++ [x]) name value ↔ LastGives stores name value := by
  constructor
  · rintro ⟨before, assignment, now, after, heq, hgives, hlive, hlast⟩
    rcases List.eq_nil_or_concat after with rfl | ⟨rest, y, rfl⟩
    · obtain ⟨-, hx⟩ := List.append_inj' heq rfl
      cases hx
      exact absurd hgives (h value)
    · rw [List.concat_eq_append, ← List.cons_append, ← List.append_assoc] at heq
      obtain ⟨hstores, hx⟩ := List.append_inj' heq rfl
      refine ⟨before, assignment, now, rest, hstores, hgives, hlive, fun z hz => hlast z ?_⟩
      rw [List.concat_eq_append]
      exact List.mem_append_left _ hz
  · rintro ⟨before, assignment, now, after, rfl, hgives, hlive, hlast⟩
    refine ⟨before, assignment, now, after ++ [x], by simp, hgives, hlive, fun z hz => ?_⟩
    rcases List.mem_append.mp hz with hz | hz
    · exact hlast z hz
    · rw [List.mem_singleton.mp hz]
      exact h

theorem lastGives_concat_of_assigns {stores : List (String × Instant)} {x : String × Instant} {name value v : String}
    (h : Assigns x.1 name value) : LastGives (stores ++ [x]) name v ↔ v = value ∧ ¬EndedBy x.1 x.2 := by
  constructor
  · rintro ⟨before, assignment, now, after, heq, hgives, hlive, hlast⟩
    rcases List.eq_nil_or_concat after with rfl | ⟨rest, y, rfl⟩
    · obtain ⟨-, hx⟩ := List.append_inj' heq rfl
      cases hx
      exact ⟨(hgives.unique h).2, hlive⟩
    · rw [List.concat_eq_append, ← List.cons_append, ← List.append_assoc] at heq
      obtain ⟨-, hx⟩ := List.append_inj' heq rfl
      cases hx
      have hy := hlast x (by rw [List.concat_eq_append]; exact List.mem_append_right _ List.mem_cons_self)
      exact absurd h (hy value)
  · rintro ⟨rfl, hlive⟩
    exact ⟨stores, x.1, x.2, [], rfl, h, hlive, fun y hy => absurd hy List.not_mem_nil⟩

/-- The jar holds under a name what the last assignment to it gave. -/
theorem get?_storeAll (stores : List (String × Instant)) (name value : String) :
    (empty.storeAll stores).cookies.get? name = some value ↔ LastGives stores name value := by
  induction stores using List.reverseRec with
  | nil =>
    constructor
    · intro h
      cases h
    · rintro ⟨before, assignment, now, after, heq, -⟩
      simp at heq
  | append_singleton stores x ih =>
    rw [storeAll_append]
    show ((empty.storeAll stores).store x.1 x.2).cookies.get? name = some value ↔ _
    by_cases hx : ∃ v, Assigns x.1 name v
    · obtain ⟨v, hv⟩ := hx
      rw [get?_store_of_assigns hv, lastGives_concat_of_assigns hv]
    · have hnot : ∀ v, ¬Assigns x.1 name v := fun v hv => hx ⟨v, hv⟩
      rw [get?_store_of_not hnot, lastGives_concat_of_not hnot]
      exact ih

theorem findCookie_storeAll (stores : List (String × Instant)) (name : String) :
    findCookie (empty.storeAll stores).document name = (empty.storeAll stores).cookies.get? name :=
  findCookie_document (Legible.empty.storeAll stores) name

theorem findCookie_store (stores : List (String × Instant)) (assignment : String) (now : Instant) (name : String) :
    findCookie ((empty.storeAll stores).store assignment now).document name =
      ((empty.storeAll stores).store assignment now).cookies.get? name :=
  findCookie_document ((Legible.empty.storeAll stores).store assignment now) name

/-- One more assignment changes nothing about a name that it gives no value. -/
theorem findCookie_store_of_not {stores : List (String × Instant)} {assignment name : String} {now : Instant}
    (h : ∀ value, ¬Assigns assignment name value) :
    findCookie ((empty.storeAll stores).store assignment now).document name =
      findCookie (empty.storeAll stores).document name := by
  rw [findCookie_store, findCookie_storeAll]
  exact get?_store_of_not h

/-- A jar is a map from names to values, as its text tells: under any name, whatever characters it holds, the text
    has what the last assignment to that name gave, and nothing when there is none or it had ended. So storing one
    more assignment changes nothing about the names it does not give, and nothing at all when it gives none. -/
theorem document_tells_last_assignment (stores : List (String × Instant)) :
    (∀ name value, findCookie (empty.storeAll stores).document name = some value ↔ LastGives stores name value) ∧
      (∀ name, findCookie (empty.storeAll stores).document name = none ↔ ∀ value, ¬LastGives stores name value) ∧
      (∀ assignment now name, (∀ value, ¬Assigns assignment name value) →
        findCookie ((empty.storeAll stores).store assignment now).document name =
          findCookie (empty.storeAll stores).document name) ∧
      ∀ assignment now, (∀ name value, ¬Assigns assignment name value) →
        (empty.storeAll stores).store assignment now = empty.storeAll stores := by
  have hfound : ∀ name value,
      findCookie (empty.storeAll stores).document name = some value ↔ LastGives stores name value := by
    intro name value
    rw [findCookie_storeAll]
    exact get?_storeAll stores name value
  refine ⟨hfound, fun name => ?_, fun assignment now name => findCookie_store_of_not,
    fun assignment now => store_of_not_assigns⟩
  rw [Option.eq_none_iff_forall_ne_some]
  exact forall_congr' fun value => not_congr (hfound name value)

/-! ### The consent cookie -/

/-- An assignment that gives a name its value leaves it in the text, unless it has ended. -/
theorem findCookie_store_of_assigns {assignment name value : String} (h : Assigns assignment name value)
    (stores : List (String × Instant)) (now : Instant) :
    (¬EndedBy assignment now → findCookie ((empty.storeAll stores).store assignment now).document name = some value) ∧
      (EndedBy assignment now → findCookie ((empty.storeAll stores).store assignment now).document name = none) := by
  rw [findCookie_store]
  constructor
  · intro hlive
    exact (get?_store_of_assigns h value).mpr ⟨rfl, hlive⟩
  · intro hended
    rw [Option.eq_none_iff_forall_ne_some]
    intro v hv
    exact ((get?_store_of_assigns h v).mp hv).2 hended

theorem assigns_assignment {name value : String} (hname : Nameable name)
    (hvalue : ∀ c ∈ value.toList, c ≠ ';' ∧ isBlank c = false) (t : Instant) :
    Assigns (Cookie.assignment name value t) name value := by
  have hspelled := spelled_of_nameable hname hvalue
  apply assigned?_eq_some.mp
  rw [assigned?, parts_assignment hspelled t]
  exact hspelled.pair

theorem endedBy_assignment {name value : String} (hname : Nameable name)
    (hvalue : ∀ c ∈ value.toList, c ≠ ';' ∧ isBlank c = false) (t now : Instant) :
    EndedBy (Cookie.assignment name value t) now ↔ MailDate.FourDigitYear t ∧ t.wholeSecond ≤ now := by
  rw [EndedBy, parts_assignment (spelled_of_nameable hname hvalue) t]
  exact expired_attributes t now

theorem wholeSecond_add_days (now : Instant) (n : Nat) :
    Instant.wholeSecond (now + n * dayMillis) = now.wholeSecond + n * dayMillis := by
  have hday : (n : Int) * dayMillis = (n * 86400) * 1000 := by
    unfold dayMillis
    omega
  have hadd : ∀ a : Int, (now + a * 1000) / 1000 * 1000 = now / 1000 * 1000 + a * 1000 := by
    intro a
    rw [Int.add_mul_ediv_right _ _ (by decide), Int.add_mul]
  rw [hday]
  exact hadd _

theorem read_text_of_not_fourDigitYear {t : Instant} (h : ¬MailDate.FourDigitYear t) :
    MailDate.read (offsetForm (MailDate.text t).toList) = none := by
  rw [MailDate.toList_text, read_offsetForm, if_neg h]

/-- The consent cookie ends when its assignment says. Whatever was stored before, the value that is written is in the
    text before the second of the expiry, and neither it nor an older one from that second on. An expiry whose year
    has not four digits is never read, and the value is kept at any time. After its deletion the cookie is gone.
    None of this touches another name. -/
theorem consent_cookie_ends_on_time {c : Cookie} (hname : Nameable c.name) (stores : List (String × Instant)) :
    (∀ (r : Record) (written stored expiry : Instant), written.plusDays? c.durationDays = some expiry →
      ∃ header, c.header r written = .ok header ∧
        (MailDate.FourDigitYear expiry →
          (stored < written.wholeSecond + c.durationDays * dayMillis →
            findCookie ((empty.storeAll stores).store header stored).document c.name = some r.cookieValue) ∧
          (written.wholeSecond + c.durationDays * dayMillis ≤ stored →
            findCookie ((empty.storeAll stores).store header stored).document c.name = none)) ∧
        (¬MailDate.FourDigitYear expiry →
          MailDate.read (offsetForm (MailDate.text expiry).toList) = none ∧
            findCookie ((empty.storeAll stores).store header stored).document c.name = some r.cookieValue) ∧
        ∀ n, n ≠ c.name → findCookie ((empty.storeAll stores).store header stored).document n =
          findCookie (empty.storeAll stores).document n) ∧
      ∀ stored : Instant, 0 ≤ stored →
        findCookie ((empty.storeAll stores).store c.deletion stored).document c.name = none ∧
          ∀ n, n ≠ c.name → findCookie ((empty.storeAll stores).store c.deletion stored).document n =
            findCookie (empty.storeAll stores).document n := by
  constructor
  · intro r written stored expiry hexpiry
    have hgives := assigns_assignment hname (cookieValue_chars r) expiry
    have hended := endedBy_assignment hname (cookieValue_chars r) expiry stored
    have hsecond : expiry.wholeSecond = written.wholeSecond + c.durationDays * dayMillis := by
      rw [Cookie.eq_of_plusDays hexpiry]
      exact wholeSecond_add_days written c.durationDays
    rw [hsecond] at hended
    obtain ⟨hkept, hgone⟩ := findCookie_store_of_assigns hgives stores stored
    refine ⟨_, Cookie.header_of_plusDays hexpiry, fun hyear => ⟨fun hbefore => ?_, fun hafter => ?_⟩,
      fun hyear => ⟨read_text_of_not_fourDigitYear hyear, ?_⟩, fun n hn => ?_⟩
    · apply hkept
      intro h
      exact absurd (hended.mp h).2 (Int.not_le.mpr hbefore)
    · exact hgone (hended.mpr ⟨hyear, hafter⟩)
    · apply hkept
      intro h
      exact hyear (hended.mp h).1
    · exact findCookie_store_of_not fun value h => hn (h.unique hgives).1
  · intro stored hstored
    have hempty : ∀ c ∈ "".toList, c ≠ ';' ∧ isBlank c = false := fun c hc => absurd hc List.not_mem_nil
    have hgives := assigns_assignment hname hempty 0
    obtain ⟨-, hgone⟩ := findCookie_store_of_assigns hgives stores stored
    have hyear : MailDate.FourDigitYear 0 := by decide
    constructor
    · exact hgone ((endedBy_assignment hname hempty 0 stored).mpr ⟨hyear, hstored⟩)
    · intro n hn
      exact findCookie_store_of_not fun value h => hn (h.unique hgives).1

/-- A choice of the first second of 1970 is kept up to the last millisecond of that year, and no longer. -/
theorem consent_cookie_ends_after_a_year :
    ∃ header, (Cookie.ofSettings {}).header .accepted 500 = .ok header ∧
      findCookie ((empty.storeAll [("theme=dark", 0)]).store header 31535999999).document "fsqr_cookie_consent" =
        some Record.accepted.cookieValue ∧
      findCookie ((empty.storeAll [("theme=dark", 0)]).store header 31536000000).document "fsqr_cookie_consent" =
        none := by
  have hname : Nameable (Cookie.ofSettings {}).name := by
    refine ⟨by decide, by decide, fun c hc => ?_⟩
    have hfirst : some 'f' = some c := hc
    rw [← Option.some.inj hfirst]
    rfl
  have hexpiry : Instant.plusDays? 500 (Cookie.ofSettings {}).durationDays = some 31536000500 := by decide
  have hyear : MailDate.FourDigitYear 31536000500 := by decide
  obtain ⟨htimes, -⟩ := consent_cookie_ends_on_time hname [("theme=dark", 0)]
  obtain ⟨header, hheader, hkept, -, -⟩ := htimes .accepted 500 31535999999 31536000500 hexpiry
  obtain ⟨header', hheader', hgone, -, -⟩ := htimes .accepted 500 31536000000 31536000500 hexpiry
  obtain rfl : header = header' := Except.ok.inj (hheader.symm.trans hheader')
  exact ⟨header, hheader, (hkept hyear).1 (by decide), (hgone hyear).2 (by decide)⟩

end Jar
end Consent
end PageWidgets
