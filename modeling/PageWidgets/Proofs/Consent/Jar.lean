import PageWidgets.Consent.Jar
import PageWidgets.Proofs.NameMap
import PageWidgets.Proofs.Text.Split

/-! A jar reads back as what it holds. Every entry that an assignment puts into it is spelled by its own text: cutting
    the text of the jar and cutting each part at its first equals sign gives the entries again, so a name is found in
    the text exactly when the jar holds it. -/

namespace PageWidgets
namespace Consent

open Calendar Text

/-! ### Entries -/

/-- The text of an entry. -/
def entryText (e : String × String) : List Char := e.1.toList ++ '=' :: e.2.toList

/-- An entry that its own text spells. -/
structure Spelled (e : String × String) : Prop where
  /-- The name ends at the first equals sign. -/
  name_ends : '=' ∉ e.1.toList
  /-- The text is one part between semicolons. -/
  one_part : ';' ∉ entryText e
  /-- No blank at its ends is dropped. -/
  trimmed : trim (entryText e) = entryText e

theorem pair?_eq_some {l : List Char} {e : String × String} :
    pair? l = some e ↔ '=' ∉ e.1.toList ∧ trim l = entryText e := by
  refine ⟨fun h => ?_, fun ⟨hname, hl⟩ => ?_⟩
  · obtain ⟨⟨a, b⟩, hcut, rfl⟩ := Option.map_eq_some_iff.mp h
    simpa [entryText] using splitOnce_eq_some.mp hcut
  · rw [pair?, hl, entryText, splitOnce_append hname, Option.map_some]
    simp only [String.ofList_toList]

theorem Spelled.pair {e : String × String} (h : Spelled e) : pair? (entryText e) = some e :=
  pair?_eq_some.mpr ⟨h.name_ends, h.trimmed⟩

theorem Spelled.pair_blank {e : String × String} (h : Spelled e) : pair? (' ' :: entryText e) = some e :=
  pair?_eq_some.mpr ⟨h.name_ends, (trim_blank_cons rfl _).trans h.trimmed⟩

theorem Spelled.ofPair {l : List Char} {e : String × String} (h : pair? l = some e) (hl : ';' ∉ l) : Spelled e := by
  obtain ⟨hname, htrim⟩ := pair?_eq_some.mp h
  refine ⟨hname, fun hc => hl (mem_of_mem_trim ?_), ?_⟩
  · rwa [htrim]
  · rw [← htrim, trim_trim]

/-- The name and the value that an assignment gives. -/
def assigned? (assignment : String) : Option (String × String) := pair? (parts ';' assignment.toList).1

/-! ### Jars -/

namespace Jar

/-- Every entry is spelled by its text. -/
def Legible (j : Jar) : Prop := ∀ e ∈ j.cookies.entries, Spelled e

theorem Legible.empty : empty.Legible := fun _ h => absurd h List.not_mem_nil

/-- What an assignment does: its first part names a cookie or nothing, and its other parts say whether it has ended. -/
theorem store_cases (j : Jar) (assignment : String) (now : Instant) :
    (assigned? assignment = none ∧ j.store assignment now = j) ∨
      ∃ name value, assigned? assignment = some (name, value) ∧
        ((expired (parts ';' assignment.toList).2 now = true ∧ j.store assignment now = ⟨j.cookies.erase name⟩) ∨
          (expired (parts ';' assignment.toList).2 now = false ∧
            j.store assignment now = ⟨j.cookies.insert name value⟩)) := by
  unfold store assigned?
  simp only
  cases hpair : pair? (parts ';' assignment.toList).1 with
  | none => exact .inl ⟨rfl, rfl⟩
  | some e =>
    refine .inr ⟨e.1, e.2, rfl, ?_⟩
    cases hend : expired (parts ';' assignment.toList).2 now with
    | true => exact .inl ⟨rfl, if_pos rfl⟩
    | false => exact .inr ⟨rfl, if_neg Bool.false_ne_true⟩

theorem Legible.store {j : Jar} (h : j.Legible) (assignment : String) (now : Instant) :
    (j.store assignment now).Legible := by
  rcases store_cases j assignment now with ⟨-, heq⟩ | ⟨name, value, hpair, ⟨-, heq⟩ | ⟨-, heq⟩⟩
  · rw [heq]
    exact h
  · rw [heq]
    exact fun e he => h e (NameMap.mem_erase he)
  · rw [heq]
    intro e he
    rcases NameMap.mem_insert he with rfl | he
    · exact .ofPair hpair (not_mem_of_mem_split List.mem_cons_self)
    · exact h e he

/-- An assignment to another name changes nothing about a name. -/
theorem get?_store_of_ne {j : Jar} {assignment : String} {now : Instant} {n : String}
    (h : ∀ e, assigned? assignment = some e → e.1 ≠ n) :
    (j.store assignment now).cookies.get? n = j.cookies.get? n := by
  rcases store_cases j assignment now with ⟨-, heq⟩ | ⟨name, value, hpair, ⟨-, heq⟩ | ⟨-, heq⟩⟩
  · rw [heq]
  · rw [heq, NameMap.get?_erase, if_neg (h _ hpair)]
  · rw [heq, NameMap.get?_insert, if_neg (h _ hpair)]

/-! ### The text of a jar -/

theorem toList_entry (e : String × String) : (e.1 ++ "=" ++ e.2).toList = entryText e := by
  simp [entryText, String.toList_append]

theorem filterMap_entries {l : List (String × String)} (h : ∀ e ∈ l, Spelled e) :
    (l.map ((fun t => ' ' :: t.toList) ∘ fun e => e.1 ++ "=" ++ e.2)).filterMap pair? = l := by
  induction l with
  | nil => rfl
  | cons e l ih =>
    rw [List.map_cons, Function.comp_apply, toList_entry, List.filterMap_cons_some (h e List.mem_cons_self).pair_blank,
      ih fun x hx => h x (List.mem_cons_of_mem _ hx)]

theorem filterMap_document {j : Jar} (h : j.Legible) :
    (split ';' j.document.toList).filterMap pair? = j.cookies.entries := by
  unfold document
  unfold Legible at h
  cases hentries : j.cookies.entries with
  | nil => rfl
  | cons e rest =>
    rw [hentries] at h
    have he := h e List.mem_cons_self
    have hrest : ∀ x ∈ rest, Spelled x := fun x hx => h x (List.mem_cons_of_mem _ hx)
    rw [List.map_cons, split_join, toList_entry, List.filterMap_cons_some he.pair, List.map_map]
    · exact congrArg (e :: ·) (filterMap_entries hrest)
    · rw [toList_entry]
      exact he.one_part
    · intro t ht
      obtain ⟨x, hx, rfl⟩ := List.mem_map.mp ht
      rw [toList_entry]
      exact (hrest x hx).one_part

/-- A name is found in the text of a jar as the jar holds it. -/
theorem findCookie_document {j : Jar} (h : j.Legible) (n : String) :
    findCookie j.document n = j.cookies.get? n := by
  rw [findCookie, filterMap_document h, NameMap.get?]
  induction j.cookies.entries with
  | nil => rfl
  | cons e rest ih =>
    by_cases he : e.1 = n
    · simp [he]
    · simpa [he] using ih

theorem hasCookie_document {j : Jar} (h : j.Legible) (n : String) :
    hasCookie j.document n = (j.cookies.get? n).isSome := by
  rw [hasCookie, findCookie_document h]

end Jar
end Consent
end PageWidgets
