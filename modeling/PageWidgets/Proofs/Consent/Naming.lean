import PageWidgets.Consent.Overlay
import PageWidgets.Proofs.Consent.Stores
import PageWidgets.Proofs.Settings

/-! The name that settings give the consent cookie. The check of settings asks no more of it than that it is not blank,
    but a cookie text is cut at semicolons, blanks at the ends of each part are dropped, and the name ends at the first
    equals sign. So a name that starts with a blank or holds one of these signs is never found, whatever was assigned,
    and the overlay is shown on every visit; every other name that passes the check is found right after a choice. -/

namespace PageWidgets
namespace Consent

open Calendar Text

/-- Only names that an assignment can give to a cookie are ever found. -/
theorem nameable_of_findCookie {document name value : String} (h : findCookie document name = some value) :
    Nameable name := by
  unfold findCookie at h
  obtain ⟨e, he, hvalue⟩ := List.exists_of_findSome?_eq_some h
  obtain ⟨part, hpart, hpair⟩ := List.mem_filterMap.mp he
  have hname : e.1 = name := by
    by_cases hname : e.1 = name
    · exact hname
    · rw [if_neg hname] at hvalue
      cases hvalue
  subst hname
  obtain ⟨hequals, htrim⟩ := pair?_eq_some.mp hpair
  have hspelled : Spelled e := .ofPair hpair (not_mem_of_mem_split hpart)
  refine ⟨hequals, fun hmem => hspelled.one_part (List.mem_append_left _ hmem), fun c hc => ?_⟩
  -- The name stands at the front of a trimmed text, and that does not start with a blank.
  have hfirst : (entryText e).head? = some c := by rw [entryText, List.head?_append, hc, Option.some_or]
  rw [← htrim] at hfirst
  obtain ⟨s, hs⟩ := exists_trimEnd_append (trimStart part)
  refine isBlank_of_head?_dropWhile (l := part) (c := c) ?_
  rw [← trimStart, ← hs, List.head?_append, ← trim, hfirst, Option.some_or]

theorem findCookie_of_not_nameable {name : String} (h : ¬Nameable name) (document : String) :
    findCookie document name = none := by
  rw [Option.eq_none_iff_forall_ne_some]
  exact fun value hvalue => h (nameable_of_findCookie hvalue)

namespace Jar

/-- After a choice was kept for a day at least under a name that can be found, the overlay is not shown. -/
theorem overlayRequired_store_header {s : ConsentSettings} {now : Instant} (hname : Nameable s.cookieName)
    (hdays : 1 ≤ s.durationDays) (hrange : (now.plusDays? s.durationDays).isSome = true)
    (stores : List (String × Instant)) (r : Record) :
    ∃ header, (Cookie.ofSettings s).header r now = .ok header ∧
      overlayRequired ((empty.storeAll stores).store header now).document s = false ∧
      findCookie ((empty.storeAll stores).store header now).document s.cookieName = some r.cookieValue := by
  obtain ⟨header, hheader, hstored⟩ :=
    store_header (c := Cookie.ofSettings s) hname hdays hrange (empty.storeAll stores) r
  have hfound : findCookie ((empty.storeAll stores).store header now).document s.cookieName = some r.cookieValue := by
    rw [findCookie_store, hstored, NameMap.get?_insert]
    exact if_pos rfl
  refine ⟨header, hheader, ?_, hfound⟩
  rw [overlayRequired, hasCookie, hfound]
  rfl

/-- What accepted settings make of the consent cookie hangs on its name. A name that an assignment can give to a cookie
    is found with the value that was kept, and the overlay is not shown; any other name is never found, and the overlay
    is shown whatever the cookies are. -/
theorem accepted_settings_keep_overlay_away {text : String} {s : Settings} (hs : Settings.ofJson text = .ok s) :
    (Nameable s.consent.cookieName →
      ∀ (r : Record) (stores : List (String × Instant)) (now : Instant),
        (now.plusDays? s.consent.durationDays).isSome = true →
          ∃ header, (Cookie.ofSettings s.consent).header r now = .ok header ∧
            overlayRequired ((empty.storeAll stores).store header now).document s.consent = false ∧
            findCookie ((empty.storeAll stores).store header now).document s.consent.cookieName =
              some r.cookieValue) ∧
      (¬Nameable s.consent.cookieName → ∀ document : String,
        findCookie document s.consent.cookieName = none ∧ overlayRequired document s.consent = true) := by
  have hadmitted := Settings.admitted_of_ofJson hs
  constructor
  · intro hname r stores now hrange
    exact overlayRequired_store_header hname hadmitted.lasting hrange stores r
  · intro hname document
    have hnone := findCookie_of_not_nameable hname document
    refine ⟨hnone, ?_⟩
    rw [overlayRequired, hasCookie, hnone]
    rfl

/-- Settings that name the cookie with a blank in the middle and one at the end, and keep a choice for a month. -/
def spacedSettings : Settings := { consent := { cookieName := "fsqr consent ", durationDays := 30 } }

def spacedDocument : String :=
  "\x7b\"consent\": \x7b\"cookie_name\": \"fsqr consent \", \"duration_days\": 30\x7d\x7d"

/-- Settings that name the cookie with an equals sign. -/
def splitSettings : Settings := { consent := { cookieName := "fsqr=consent" } }

def splitDocument : String := "\x7b\"consent\": \x7b\"cookie_name\": \"fsqr=consent\"\x7d\x7d"

theorem ofJson_splitDocument : Settings.ofJson splitDocument = .ok splitSettings := by decide +kernel

theorem not_nameable_of_equals {name : String} (h : '=' ∈ name.toList) : ¬Nameable name := fun hname => hname.no_equals h

/-- A name with blanks behind its first letter keeps the overlay away; one with an equals sign never does. -/
theorem spaced_name_keeps_overlay_away :
    Settings.ofJson spacedDocument = .ok spacedSettings ∧
      (∃ header, (Cookie.ofSettings spacedSettings.consent).header .rejected 1740830400000 = .ok header ∧
        overlayRequired ((empty.storeAll [("fsqr=1", 0)]).store header 1740830400000).document
          spacedSettings.consent = false ∧
        findCookie ((empty.storeAll [("fsqr=1", 0)]).store header 1740830400000).document "fsqr consent " =
          some Record.rejected.cookieValue) ∧
      Settings.ofJson splitDocument = .ok splitSettings ∧
      ∀ document : String, overlayRequired document splitSettings.consent = true := by
  have hspaced : Settings.ofJson spacedDocument = .ok spacedSettings := by decide +kernel
  have hname : Nameable spacedSettings.consent.cookieName := by
    refine ⟨by decide, by decide, fun c hc => ?_⟩
    have hfirst : some 'f' = some c := hc
    rw [← Option.some.inj hfirst]
    rfl
  obtain ⟨hfound, -⟩ := accepted_settings_keep_overlay_away hspaced
  obtain ⟨-, hlost⟩ := accepted_settings_keep_overlay_away ofJson_splitDocument
  exact ⟨hspaced, hfound hname .rejected [("fsqr=1", 0)] 1740830400000 (by decide), ofJson_splitDocument,
    fun document => (hlost (not_nameable_of_equals (by decide)) document).2⟩

/-- Not every accepted document gives a cookie that keeps the overlay away. -/
theorem overlay_back_after_choice : ¬∀ (text : String) (s : Settings), Settings.ofJson text = .ok s →
    ∀ (r : Record) (stores : List (String × Instant)) (now : Instant),
      (now.plusDays? s.consent.durationDays).isSome = true →
        ∃ header, (Cookie.ofSettings s.consent).header r now = .ok header ∧
          overlayRequired ((empty.storeAll stores).store header now).document s.consent = false ∧
          findCookie ((empty.storeAll stores).store header now).document s.consent.cookieName =
            some r.cookieValue := by
  intro h
  obtain ⟨header, -, -, hfound⟩ := h splitDocument splitSettings ofJson_splitDocument .accepted [] 0 (by decide)
  exact not_nameable_of_equals (by decide) (nameable_of_findCookie hfound)

end Jar
end Consent
end PageWidgets
