import PageWidgets.Proofs.Json.Reading
import PageWidgets.Proofs.Json.Yielding
import PageWidgets.Tester.Report

/-! Reports in JSON read back. What is written of a result is taken again with every text as it was, and with its time
    in whole milliseconds. The reader never makes a time of more milliseconds than 64 bits count, so a report reads back
    exactly when none of its results took longer. -/

namespace PageWidgets
namespace Tester

open Json

/-! ### Spans -/

namespace Duration

/-- The span without its part of a millisecond. -/
def inMillis (d : Duration) : Duration := ofMillis d.millis

/-- Its whole milliseconds have 64 bits. -/
def Fits (d : Duration) : Prop := d.millis < Nat.pow 2 64

theorem millis_ofMillis (n : Nat) : (ofMillis n).millis = n := Nat.mul_div_cancel n (by decide)

theorem millis_inMillis (d : Duration) : d.inMillis.millis = d.millis := millis_ofMillis d.millis

theorem fits_ofCount (n : Nat) : (ofCount n).Fits := by
  unfold ofCount Fits
  split
  · next h => rwa [millis_ofMillis]
  · decide

theorem ofCount_millis {d : Duration} (h : d.Fits) : ofCount d.millis = d.inMillis := if_pos h

/-- The digits of a count are all taken, and nothing else is. -/
theorem scanCount_toDigits {n : Nat} {rest : List Char} (hn : n ≤ countBound) (hrest : Ends rest) :
    scanCount (Nat.toDigits 10 n ++ rest) = .ok (n, rest) := by
  rcases toDigits_cases n with ⟨heq, rfl⟩ | ⟨c, ds, heq, hc⟩
  · rw [heq]
    cases rest with
    | nil => rfl
    | cons d rest =>
      have hzero : isDigit '0' = true := by decide
      simp [scanCount, hzero, (ending_of_ends (hrest d rfl)).1]
  · have hdigits : ∀ d ∈ c :: ds, isDigit d = true := fun d hd => isDigit_iff.mpr (isDigit_of_mem_toDigits (heq ▸ hd))
    have hfirst := hdigits c List.mem_cons_self
    have hminus : c ≠ '-' := fun h => absurd (h ▸ hfirst) (by decide)
    have htaken : (c :: ds ++ rest).takeWhile isDigit = c :: ds := by
      have hnone : rest.takeWhile isDigit = [] := by
        cases rest with
        | nil => rfl
        | cons d rest => exact List.takeWhile_cons_of_neg (by simp [(ending_of_ends (hrest d rfl)).1])
      rw [List.takeWhile_append_of_pos hdigits, hnone, List.append_nil]
    have hdropped : (c :: ds ++ rest).dropWhile isDigit = rest := dropWhile_digits hdigits hrest.head
    have hvalue : (c :: ds).foldl (fun n d => 10 * n + (d.toNat - 0x30)) 0 = n := by
      have hread := @Nat.ofDigitChars_ten_toDigits n
      rwa [heq] at hread
    rw [List.cons_append] at htaken hdropped
    rw [heq, List.cons_append]
    simp only [scanCount, hminus, hfirst, hc, htaken, hdropped, hvalue, if_pos hn, Bool.not_true, Bool.false_eq_true,
      if_false]

theorem reader_takes {n : Nat} (hn : n ≤ countBound) : reader.Takes (.nat n) (ofCount n) where
  value := by simp [reader, Value.nat, Reader.naturalOf_nat hn, Except.map]
  text := by
    intro b t rest hb ht hrest
    obtain ⟨-, rfl⟩ := ht.of_nat
    obtain ⟨c, ds, heq, hc⟩ := toDigits_eq_cons n
    have hscan := scanCount_toDigits hn hrest
    rw [heq, List.cons_append] at hscan ⊢
    simp only [reader, skipBlanks_mark hb (isSpace_of_isDigit hc), hscan]

theorem takes_toValue {d : Duration} (h : d.Fits) : reader.Takes d.toValue d.inMillis := by
  have hbound : d.millis ≤ countBound := Nat.le_of_lt (Nat.lt_of_lt_of_le h (by decide))
  have htakes := reader_takes hbound
  rwa [ofCount_millis h] at htakes

theorem reader_yields : reader.Yields Fits := by
  intro l d rest hread
  simp only [reader] at hread
  split at hread
  · cases hread
  · cases hread
    exact fits_ofCount _

end Duration

/-! ### Results -/

namespace Result

/-- The result with its time in whole milliseconds. -/
def inMillis (r : Result) : Result := { r with duration := r.duration.inMillis }

theorem reader_yields : reader.Yields fun r => r.duration.Fits := by
  have hblank : Duration.zero.millis < Nat.pow 2 64 := by decide
  have hany : ∀ {α : Type} (r : Reader α), r.Yields fun _ => True := fun _ _ _ _ _ => trivial
  refine Shape.reader_yields hblank fun slot hslot => ?_
  simp only [shape, List.mem_cons, List.not_mem_nil, or_false] at hslot
  rcases hslot with rfl | rfl | rfl | rfl | rfl
  · exact (hany _).map fun _ _ _ h => h
  · exact (hany _).map fun _ _ _ h => h
  · exact (hany _).map fun _ _ _ h => h
  · exact (hany _).map fun _ _ _ h => h
  · exact Duration.reader_yields.map fun _ hd _ _ => hd

theorem failures_takes (l : List String) : (Reader.list .string).Takes (.strings l) l := by
  refine Reader.list_takes ?_
  rw [List.forall₂_map_left_iff]
  exact List.forall₂_same.mpr fun s _ => Reader.string_takes s

theorem takes_toValue {r : Result} (h : r.duration.Fits) : reader.Takes r.toValue r.inMillis := by
  refine Shape.Fills.takes ?_
  exact .known rfl (by simp) ((Reader.string_takes r.scenario).map _) <|
    .known rfl (by simp) ((Reader.string_takes r.target).map _) <|
    .known rfl (by simp) ((Reader.bool_takes r.passed).map _) <|
    .known rfl (by simp) ((failures_takes r.failures).map _) <|
    .known rfl (by simp) ((Duration.takes_toValue h).map _) <| .done rfl

theorem plain_toValue {r : Result} (h : r.duration.Fits) : r.toValue.Plain :=
  ⟨trivial, trivial, trivial, Value.plainItems_map fun _ _ => trivial, Value.plain_nat h, trivial⟩

theorem toValue_inMillis (r : Result) : r.inMillis.toValue = r.toValue := by
  have hmillis : r.inMillis.duration.millis = r.duration.millis := Duration.millis_inMillis r.duration
  simp only [toValue, Duration.toValue, hmillis]
  rfl

end Result

/-! ### Reports -/

namespace Report

variable {results : List Result}

theorem toList_json (results : List Result) :
    (text (json results)).toList = (Value.array (results.map Result.toValue)).pretty.toList ++ ['\n'] := by
  simp [text, json]

theorem parse_json (h : ∀ r ∈ results, r.duration.Fits) :
    Result.listReader.parse (text (json results)) = .ok (results.map Result.inMillis) := by
  have hvalues : List.Forall₂ Result.reader.Takes (results.map Result.toValue) (results.map Result.inMillis) := by
    rw [List.forall₂_map_left_iff, List.forall₂_map_right_iff]
    exact List.forall₂_same.mpr fun r hr => Result.takes_toValue (h r hr)
  have hplain : (Value.array (results.map Result.toValue)).Plain :=
    Value.plainItems_map fun r hr => Result.plain_toValue (h r hr)
  have hbreak : Blanks ['\n'] := by simp [Blanks, isSpace]
  exact (Reader.list_takes hvalues).reads.parse .nil (laid_pretty hplain) hbreak (toList_json results)

/-- The report on results reads back as a list of the same results in the same order, with every field as it was and every
    time in whole milliseconds, exactly when all their milliseconds have 64 bits; and the report on what is read back is
    the same. -/
theorem json_reads_back :
    (∀ results : List Result, Result.listReader.parse (text (json results)) = .ok (results.map Result.inMillis) ↔
      ∀ r ∈ results, r.duration.millis < Nat.pow 2 64) ∧
    ∀ results : List Result, text (json (results.map Result.inMillis)) = text (json results) := by
  refine ⟨fun results => ⟨fun h r hr => ?_, parse_json⟩, fun results => ?_⟩
  · have hfits := Result.reader_yields.list.parse h r.inMillis (List.mem_map_of_mem hr)
    rwa [Duration.Fits, Result.inMillis, Duration.millis_inMillis] at hfits
  · have hvalues : (results.map Result.inMillis).map Result.toValue = results.map Result.toValue := by
      rw [List.map_map]
      exact List.map_congr_left fun r _ => r.toValue_inMillis
    rw [json, json, hvalues]

end Report
end Tester
end PageWidgets
