import PageWidgets.Text.Blank
import PageWidgets.Text.Split

/-! Cutting undoes joining. A part that holds no separator is cut out whole, the name before a separator is found
    again, and a text that neither starts nor ends with a blank is not trimmed. -/

namespace PageWidgets
namespace Text

/-! ### Joining -/

theorem toList_join_cons (sep s : String) (rest : List String) :
    (join sep (s :: rest)).toList = s.toList ++ rest.flatMap fun t => sep.toList ++ t.toList := by
  induction rest generalizing s with
  | nil => simp [join]
  | cons t rest ih => simp [join, ih, String.toList_append]

/-! ### Cutting -/

theorem parts_cons_self (d : Char) (l : List Char) : parts d (d :: l) = ([], split d l) := by
  simp only [parts, if_true, split]

theorem parts_cons_of_ne {c d : Char} (h : c ≠ d) (l : List Char) :
    parts d (c :: l) = (c :: (parts d l).1, (parts d l).2) := by
  simp only [parts, if_neg h]

/-- A text without a separator is its own first part. -/
theorem parts_of_not_mem {d : Char} {a : List Char} (h : d ∉ a) : parts d a = (a, []) := by
  induction a with
  | nil => rfl
  | cons c a ih =>
    obtain ⟨hc, ha⟩ := List.ne_and_not_mem_of_not_mem_cons h
    rw [parts_cons_of_ne hc.symm, ih ha]

theorem parts_append {d : Char} {a : List Char} (h : d ∉ a) (l : List Char) :
    parts d (a ++ d :: l) = (a, split d l) := by
  induction a with
  | nil => exact parts_cons_self d l
  | cons c a ih =>
    obtain ⟨hc, ha⟩ := List.ne_and_not_mem_of_not_mem_cons h
    rw [List.cons_append, parts_cons_of_ne hc.symm, ih ha]

/-- The first part is what stands before the first separator. -/
theorem parts_fst_append (d : Char) (l : List Char) :
    ∃ rest, l = (parts d l).1 ++ rest ∧ ∀ c, rest.head? = some c → c = d := by
  induction l with
  | nil => exact ⟨[], rfl, nofun⟩
  | cons c l ih =>
    by_cases hc : c = d
    · subst hc
      rw [parts_cons_self]
      exact ⟨c :: l, rfl, fun e he => (Option.some.inj he).symm⟩
    · obtain ⟨rest, hl, hhead⟩ := ih
      rw [parts_cons_of_ne hc]
      exact ⟨rest, congrArg (c :: ·) hl, hhead⟩

theorem split_of_not_mem {d : Char} {a : List Char} (h : d ∉ a) : split d a = [a] := by
  rw [split, parts_of_not_mem h]

theorem split_append {d : Char} {a : List Char} (h : d ∉ a) (l : List Char) :
    split d (a ++ d :: l) = a :: split d l := by
  rw [split, parts_append h]

/-- No part holds a separator. -/
theorem not_mem_of_mem_split {d : Char} {l a : List Char} (h : a ∈ split d l) : d ∉ a := by
  induction l generalizing a with
  | nil =>
    rw [List.mem_singleton.mp h]
    exact List.not_mem_nil
  | cons c l ih =>
    by_cases hc : c = d
    · rw [split, hc, parts_cons_self] at h
      rcases List.mem_cons.mp h with rfl | h
      · exact List.not_mem_nil
      · exact ih h
    · rw [split, parts_cons_of_ne hc] at h
      rcases List.mem_cons.mp h with rfl | h
      · exact List.not_mem_cons_of_ne_of_not_mem (Ne.symm hc) (ih List.mem_cons_self)
      · exact ih (List.mem_cons_of_mem _ h)

/-- Texts that hold no semicolon are cut out again, each but the first behind the blank that was put before it. -/
theorem split_join {s : String} {rest : List String} (hs : ';' ∉ s.toList) (hrest : ∀ t ∈ rest, ';' ∉ t.toList) :
    split ';' (join "; " (s :: rest)).toList = s.toList :: rest.map fun t => ' ' :: t.toList := by
  rw [toList_join_cons]
  -- The texts after the first one begin with a blank, so the induction is on any first text without a semicolon.
  obtain ⟨a, ha⟩ : ∃ a, a = s.toList := ⟨_, rfl⟩
  rw [← ha] at hs ⊢
  clear ha
  induction rest generalizing a with
  | nil => rw [List.flatMap_nil, List.append_nil, List.map_nil, split_of_not_mem hs]
  | cons t rest ih =>
    have ht : ';' ∉ ' ' :: t.toList :=
      List.not_mem_cons_of_ne_of_not_mem (by decide) (hrest t List.mem_cons_self)
    rw [List.flatMap_cons, List.map_cons, ← ih (fun x hx => hrest x (List.mem_cons_of_mem _ hx)) _ ht]
    exact split_append hs _

theorem splitOnce_append {d : Char} {a : List Char} (h : d ∉ a) (b : List Char) :
    splitOnce d (a ++ d :: b) = some (a, b) := by
  induction a with
  | nil => rw [List.nil_append, splitOnce, if_pos rfl]
  | cons c a ih =>
    obtain ⟨hc, ha⟩ := List.ne_and_not_mem_of_not_mem_cons h
    rw [List.cons_append, splitOnce, if_neg hc.symm, ih ha, Option.map_some]

theorem splitOnce_eq_some {d : Char} {l a b : List Char} : splitOnce d l = some (a, b) ↔ d ∉ a ∧ l = a ++ d :: b := by
  refine ⟨fun h => ?_, fun ⟨ha, hl⟩ => hl ▸ splitOnce_append ha b⟩
  induction l generalizing a with
  | nil => cases h
  | cons c l ih =>
    by_cases hc : c = d
    · rw [splitOnce, if_pos hc] at h
      cases h
      exact ⟨List.not_mem_nil, by rw [hc, List.nil_append]⟩
    · rw [splitOnce, if_neg hc] at h
      obtain ⟨⟨a', b'⟩, h', heq⟩ := Option.map_eq_some_iff.mp h
      cases heq
      obtain ⟨ha, rfl⟩ := ih h'
      exact ⟨List.not_mem_cons_of_ne_of_not_mem (Ne.symm hc) ha, rfl⟩

/-- What stands before and after the last separator, when there is one. -/
def splitLast (d : Char) (l : List Char) : Option (List Char × List Char) :=
  (splitOnce d l.reverse).map fun (after, before) => (before.reverse, after.reverse)

theorem splitLast_append {d : Char} {b : List Char} (h : d ∉ b) (a : List Char) :
    splitLast d (a ++ d :: b) = some (a, b) := by
  have hreverse : (a ++ d :: b).reverse = b.reverse ++ d :: a.reverse := by simp
  rw [splitLast, hreverse, splitOnce_append (by simpa using h)]
  simp

/-! ### Trimming -/

theorem trimStart_of_head {c : Char} {l : List Char} (h : isBlank c = false) : trimStart (c :: l) = c :: l := by
  simp [trimStart, h]

/-- A text whose ends are no blanks is not trimmed. -/
theorem trim_of_ends {l : List Char} (hfirst : ∀ c, l.head? = some c → isBlank c = false)
    (hlast : ∀ c, l.getLast? = some c → isBlank c = false) : trim l = l := by
  have hstart : trimStart l = l := by
    cases l with
    | nil => rfl
    | cons c l => exact trimStart_of_head (hfirst c rfl)
  rw [trim, hstart, trimEnd]
  cases hl : l.reverse with
  | nil => simpa using hl.symm
  | cons c r =>
    have hc : l.getLast? = some c := by rw [← List.head?_reverse, hl, List.head?_cons]
    rw [List.dropWhile_cons_of_neg (by simp [hlast c hc]), ← hl, List.reverse_reverse]

theorem trim_of_forall {l : List Char} (h : ∀ c ∈ l, isBlank c = false) : trim l = l :=
  trim_of_ends (fun c hc => h c (List.mem_of_head? hc)) fun c hc => h c (List.mem_of_getLast? hc)

theorem exists_trimEnd_append (l : List Char) : ∃ s, trimEnd l ++ s = l := by
  obtain ⟨s, hs⟩ : l.reverse.dropWhile isBlank <:+ l.reverse := List.dropWhile_suffix isBlank
  refine ⟨s.reverse, ?_⟩
  rw [trimEnd, ← List.reverse_append, hs, List.reverse_reverse]

theorem mem_of_mem_trim {c : Char} {l : List Char} (h : c ∈ trim l) : c ∈ l := by
  obtain ⟨s, hs⟩ := exists_trimEnd_append (trimStart l)
  have hc : c ∈ trimStart l := hs ▸ List.mem_append_left s h
  exact (List.dropWhile_suffix isBlank).subset hc

theorem isBlank_of_head?_dropWhile {l : List Char} {c : Char} (h : (l.dropWhile isBlank).head? = some c) :
    isBlank c = false := by
  have hnot := List.head?_dropWhile_not isBlank l
  rwa [h] at hnot

/-- The ends of a trimmed text are no blanks, so trimming it again changes nothing. -/
theorem trim_trim (l : List Char) : trim (trim l) = trim l := by
  refine trim_of_ends (fun c hc => ?_) fun c hc => ?_
  · obtain ⟨s, hs⟩ := exists_trimEnd_append (trimStart l)
    have hhead : (trimStart l).head? = some c := by rw [← hs, List.head?_append, ← trim, hc, Option.some_or]
    exact isBlank_of_head?_dropWhile hhead
  · rw [trim, trimEnd, List.getLast?_reverse] at hc
    exact isBlank_of_head?_dropWhile hc

theorem trim_blank_cons {c : Char} (h : isBlank c = true) (l : List Char) : trim (c :: l) = trim l := by
  rw [trim, trimStart, List.dropWhile_cons_of_pos h]
  rfl

end Text
end PageWidgets
