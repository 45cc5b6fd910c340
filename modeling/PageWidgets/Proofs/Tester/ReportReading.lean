import Mathlib.Data.List.Basic
import Mathlib.Data.List.TakeWhile
import PageWidgets.Proofs.Text.Split
import PageWidgets.Tester.Report

/-! Reports read line by line. A reader of a Markdown report takes the counts from the summary, the results from the
    table, each row from its end, and the failures from the section on them; a reader of a console report takes one block
    after the other, as blank lines divide them. What is found that way agrees with the results a report is made on,
    whatever their texts look like, as long as none of them holds a line break: no line that begins with such a text
    begins a section, a table or a block. -/

namespace PageWidgets
namespace Tester

/-- No line break. -/
def OneLine (s : String) : Prop := '\n' ∉ s.toList

instance (s : String) : Decidable (OneLine s) := inferInstanceAs (Decidable (_ ∉ _))

/-- No text of the result holds a line break. -/
structure Result.OneLined (r : Result) : Prop where
  scenario : OneLine r.scenario
  target : OneLine r.target
  failures : ∀ f ∈ r.failures, OneLine f

namespace Report

/-! ### Lines -/

/-- The lines of a text; each of them ends in a line break. -/
def linesOf (text : String) : List String := (text.toList.splitOn '\n').dropLast.map String.ofList

/-- What a line says after its lead, when it has that lead. -/
def after? (lead line : String) : Option String := (lead.toList.isPrefixOf? line.toList).map String.ofList

/-- What the first line with that label says after it. -/
def stated? (label : String) (lines : List String) : Option String := lines.findSome? (after? label)

/-- The lines under a heading, up to the next one of the second level. -/
def under? (heading : String) (lines : List String) : Option (List String) :=
  match lines.dropWhile (· ≠ heading) with
  | [] => none
  | _ :: rest => some (rest.takeWhile fun line => (after? "## " line).isNone)

/-- The counts of a report, as it writes them. -/
structure Counts where
  total : Option String
  passed : Option String
  failed : Option String

/-! ### Markdown -/

/-- A row of the table: what it holds before the mark, whether the mark says that the scenario passed, and what its last
    cell holds. -/
structure Row where
  front : String
  passed : Bool
  time : String

/-- Reads a row from its end, where no cell holds the bar. -/
def Row.read? (line : String) : Option Row := do
  let (cells, _) ← Text.splitLast '|' line.toList
  let (cells, time) ← Text.splitLast '|' cells
  let (front, mark) ← Text.splitLast '|' cells
  if mark = " ✅ ".toList then some ⟨String.ofList front, true, String.ofList time⟩
  else if mark = " ❌ ".toList then some ⟨String.ofList front, false, String.ofList time⟩
  else none

/-- The rows of the table, which ends at a blank line. -/
def tableRows (lines : List String) : List String :=
  ((lines.dropWhile (· ≠ "|---|---|---|---|")).drop 1).takeWhile (· ≠ "")

/-- An entry on a result that failed: its heading, and what each of its other lines says as a bullet. -/
structure Entry where
  heading : String
  bullets : List (Option String)

/-- The entries of a section, one for each heading of the third level. -/
def entries : List String → List Entry
  | [] => []
  | line :: rest =>
    match after? "### " line with
    | some heading =>
      ⟨heading, ((rest.takeWhile fun l => (after? "### " l).isNone).filter (· ≠ "")).map (after? "- ")⟩ :: entries rest
    | none => entries rest

/-- What a reader finds in a Markdown report. -/
structure Sheet where
  counts : Counts
  rows : List (Option Row)
  failures : Option (List Entry)

/-- Reads a Markdown report. -/
def Sheet.read (text : String) : Sheet :=
  let lines := linesOf text
  let summary := (under? "## Summary" lines).getD []
  let details := (under? "## Detailed Results" lines).getD []
  ⟨⟨stated? "- **Total scenarios**: " summary, stated? "- **Passed**: " summary, stated? "- **Failed**: " summary⟩,
    (tableRows details).map Row.read?, (under? "## Failures" lines).map entries⟩

/-! ### Console -/

/-- A block on one result: whether it says that the scenario passed, what it is on, and what its lines on failures
    say. -/
structure Block where
  passed : Bool
  subject : String
  failures : List (Option String)

/-- Reads the first line of a block: whether the scenario passed, and what the line is on. -/
def status? (line : String) : Option (Bool × String) :=
  match after? "✅ PASS " line with
  | some subject => some (true, subject)
  | none => (after? "❌ FAIL " line).map (false, ·)

/-- Reads the lines of a block. -/
def Block.read? : List String → Option Block
  | [] => none
  | first :: rest => (status? first).map fun (passed, subject) =>
    ⟨passed, subject, ((rest.dropWhile (· ≠ "   Failures:")).drop 1).map (after? "     • ")⟩

/-- What a reader finds in a console report. -/
structure Page where
  counts : Counts
  blocks : List (Option Block)

/-- Reads a console report: the counts from its first paragraph, the blocks from the others. -/
def Page.read (text : String) : Page :=
  let paragraphs := ((linesOf text).splitOn "").filter (· ≠ [])
  let summary := paragraphs.headD []
  ⟨⟨stated? "Total scenarios: " summary, stated? "Passed: " summary, stated? "Failed: " summary⟩,
    paragraphs.tail.map Block.read?⟩

/-! ### Line breaks -/

theorem oneLine_append {a b : String} : OneLine (a ++ b) ↔ OneLine a ∧ OneLine b := by
  simp [OneLine, String.toList_append, not_or]

theorem isDigit_of_mem_toString {n : Nat} {c : Char} (h : c ∈ (toString n).toList) : c.isDigit = true := by
  rw [show (toString n).toList = Nat.toDigits 10 n from Nat.toList_repr] at h
  exact Nat.isDigit_of_mem_toDigits (by decide) (by decide) h

theorem oneLine_toString (n : Nat) : OneLine (toString n) := fun h => absurd (isDigit_of_mem_toString h) (by decide)

/-- Parts that each end in a separator are found again. -/
theorem splitOn_ended {α β : Type} [BEq α] [LawfulBEq α] {sep : α} {f : β → List α} {l : List β}
    (h : ∀ b ∈ l, sep ∉ f b) : (l.flatMap fun b => f b ++ [sep]).splitOn sep = l.map f ++ [[]] := by
  induction l with
  | nil => exact List.splitOn_nil sep
  | cons b l ih =>
    rw [List.flatMap_cons, List.append_assoc, List.singleton_append,
      List.splitOn_append_cons_self_of_not_mem (h b List.mem_cons_self), ih fun x hx => h x (List.mem_cons_of_mem _ hx)]
    rfl

theorem linesOf_text {lines : List String} (h : ∀ l ∈ lines, OneLine l) : linesOf (text lines) = lines := by
  have htext : (text lines).toList = lines.flatMap fun l => l.toList ++ ['\n'] := by
    simp [text, String.toList_join, List.flatMap_map]
  rw [linesOf, htext, splitOn_ended h, List.dropLast_concat, List.map_map]
  simp [Function.comp_def]

/-! ### Texts of times and rates -/

theorem mem_fractionText {places n : Nat} {c : Char} (h : c ∈ (Duration.fractionText places n).toList) :
    c.isDigit = true ∨ c = '.' := by
  unfold Duration.fractionText at h
  split at h
  · simp at h
  · rw [String.toList_ofList] at h
    rcases List.mem_cons.mp h with rfl | h
    · exact .inr rfl
    · have hpadded := List.mem_reverse.mp ((List.dropWhile_sublist _).subset (List.mem_reverse.mp h))
      rcases List.mem_append.mp hpadded with hzero | hdigit
      · rw [List.eq_of_mem_replicate hzero]
        exact .inl rfl
      · exact .inl (Nat.isDigit_of_mem_toDigits (by decide) (by decide) hdigit)

theorem mem_textIn {places n : Nat} {unit : String} {c : Char} (h : c ∈ (Duration.textIn places unit n).toList) :
    c.isDigit = true ∨ c = '.' ∨ c ∈ unit.toList := by
  rw [Duration.textIn, String.toList_append, String.toList_append, List.mem_append, List.mem_append] at h
  rcases h with (h | h) | h
  · exact .inl (isDigit_of_mem_toString h)
  · exact (mem_fractionText h).imp_right .inl
  · exact .inr (.inr h)

/-- The text of a span holds digits, a point and the letters of its unit. -/
theorem mem_duration_text {d : Duration} {c : Char} (h : c ∈ d.text.toList) :
    c.isDigit = true ∨ c = '.' ∨ ∃ unit ∈ ["s", "ms", "µs", "ns"], c ∈ unit.toList := by
  have hunit : ∀ {places n : Nat}, ∀ unit ∈ ["s", "ms", "µs", "ns"], c ∈ (Duration.textIn places unit n).toList →
      c.isDigit = true ∨ c = '.' ∨ ∃ unit ∈ ["s", "ms", "µs", "ns"], c ∈ unit.toList :=
    fun unit hunit hc => (mem_textIn hc).imp_right fun hc => hc.imp_right fun hc => ⟨unit, hunit, hc⟩
  unfold Duration.text at h
  split at h
  · exact hunit _ (by simp) h
  split at h
  · exact hunit _ (by simp) h
  split at h
  · exact hunit _ (by simp) h
  · exact hunit _ (by simp) h

theorem oneLine_duration (d : Duration) : OneLine d.text := fun h => by
  simpa using mem_duration_text h

theorem bar_not_mem_duration (d : Duration) : '|' ∉ d.text.toList := fun h => by
  simpa using mem_duration_text h

theorem oneLine_rateText (t : Tally) : OneLine t.rateText := by
  have hpoint : OneLine "." := by decide
  have hsign : OneLine "%" := by decide
  simp only [Tally.rateText, oneLine_append, oneLine_toString, hpoint, hsign, and_self]

/-! ### Leads -/

theorem after?_append (lead s : String) : after? lead (lead ++ s) = some s := by simp [after?]

/-! ### Sections -/

/-- A line that begins no section. -/
def Inner (line : String) : Prop := after? "## " line = none

instance (line : String) : Decidable (Inner line) := inferInstanceAs (Decidable (_ = _))

theorem under?_of_not_mem {heading : String} {lines : List String} (h : heading ∉ lines) :
    under? heading lines = none := by
  have hdrop : lines.dropWhile (· ≠ heading) = [] := by
    rw [List.dropWhile_eq_nil_iff]
    intro l hl
    simpa using fun h' : l = heading => h (h' ▸ hl)
  simp only [under?, hdrop]

/-- A section is found whole: the lines before its heading are no such heading, its own begin no section, and what
    follows does, if anything does. -/
theorem under?_append {heading : String} {before own rest : List String} (hbefore : heading ∉ before)
    (hown : ∀ l ∈ own, Inner l) (hrest : ∀ l ∈ rest.head?, ¬Inner l) :
    under? heading (before ++ heading :: (own ++ rest)) = some own := by
  have hdrop : (before ++ heading :: (own ++ rest)).dropWhile (· ≠ heading) = heading :: (own ++ rest) := by
    rw [List.dropWhile_append_of_pos]
    · exact List.dropWhile_cons_of_neg (by simp)
    · intro l hl
      simpa using fun h' : l = heading => hbefore (h' ▸ hl)
  have htake : (own ++ rest).takeWhile (fun line => (after? "## " line).isNone) = own := by
    rw [List.takeWhile_append_of_pos fun l hl => by rw [hown l hl]; rfl]
    cases rest with
    | nil => exact List.append_nil own
    | cons l rest => rw [List.takeWhile_cons_of_neg (by simpa [Inner] using hrest l rfl), List.append_nil]
  simp only [under?, hdrop, htake]

/-- The last section is found whole. -/
theorem under?_append_last {heading : String} {before own : List String} (hbefore : heading ∉ before)
    (hown : ∀ l ∈ own, Inner l) : under? heading (before ++ heading :: own) = some own := by
  have hend : ∀ l ∈ ([] : List String).head?, ¬Inner l := nofun
  have hfound := under?_append hbefore hown hend
  rwa [List.append_nil] at hfound

/-! ### The lines of a Markdown report -/

/-- The results that failed. -/
def failing (results : List Result) : List Result := results.filter fun r => !r.passed

/-- The lines under the heading of the summary. -/
def summaryLines (results : List Result) : List String :=
  let t := Tally.ofResults results
  ["", "- **Total scenarios**: " ++ toString t.total, "- **Passed**: " ++ toString t.passed,
    "- **Failed**: " ++ toString t.failed, "- **Success rate**: " ++ t.rateText, ""]

/-- The lines of the table, with a blank one before it. -/
def tableLines (results : List Result) : List String :=
  ["", "| Scenario | Target | Result | Time |", "|---|---|---|---|"] ++ results.map markdownRow

theorem markdown_eq (results : List Result) :
    markdown results = [title, ""] ++ "## Summary" :: (summaryLines results ++
      "## Detailed Results" :: (tableLines results ++ markdownFailures results)) := by
  simp [markdown, summaryLines, tableLines]

theorem markdownFailures_eq (results : List Result) :
    markdownFailures results =
      if failing results = [] then []
      else "" :: "## Failures" :: "" :: (failing results).flatMap markdownFailure := by
  simp [markdownFailures, failing]

theorem oneLine_markdownRow {r : Result} (h : r.OneLined) : OneLine (markdownRow r) := by
  have hmark : OneLine (if r.passed then "✅" else "❌") := by cases r.passed <;> decide
  simp only [markdownRow, oneLine_append, h.scenario, h.target, hmark, oneLine_duration]
  decide

theorem oneLine_of_mem_markdownFailure {r : Result} (h : r.OneLined) : ∀ l ∈ markdownFailure r, OneLine l := by
  simp only [markdownFailure, List.forall_mem_append, List.forall_mem_cons, List.forall_mem_map, oneLine_append,
    h.scenario, h.target]
  exact ⟨⟨by decide, fun f hf => ⟨by decide, h.failures f hf⟩⟩, by decide⟩

theorem oneLine_of_mem_markdown {results : List Result} (h : ∀ r ∈ results, r.OneLined) :
    ∀ l ∈ markdown results, OneLine l := by
  have hfailures : ∀ l ∈ markdownFailures results, OneLine l := by
    rw [markdownFailures_eq]
    split
    · nofun
    · simp only [List.forall_mem_cons, List.forall_mem_flatMap]
      refine ⟨by decide, by decide, by decide, fun r hr => ?_⟩
      exact oneLine_of_mem_markdownFailure (h r (List.mem_of_mem_filter hr))
  have hrows : ∀ r ∈ results, OneLine (markdownRow r) := fun r hr => oneLine_markdownRow (h r hr)
  simp only [markdown, title, List.forall_mem_append, List.forall_mem_cons, List.forall_mem_map, oneLine_append,
    oneLine_toString, oneLine_rateText]
  exact ⟨⟨by decide, hrows⟩, hfailures⟩

theorem inner_of_mem_summaryLines {results : List Result} : ∀ l ∈ summaryLines results, Inner l := by
  simp [summaryLines, Inner, after?, List.isPrefixOf?]

theorem inner_of_mem_tableLines {results : List Result} : ∀ l ∈ tableLines results, Inner l := by
  simp [tableLines, markdownRow, Inner, after?, List.isPrefixOf?]

theorem inner_of_mem_markdownFailure {r : Result} : ∀ l ∈ markdownFailure r, Inner l := by
  simp only [markdownFailure, List.forall_mem_append, List.forall_mem_cons, List.forall_mem_map]
  simp [Inner, after?, List.isPrefixOf?]

/-! ### The sections of a Markdown report -/

/-- The lines before the heading of the details. -/
def frontLines (results : List Result) : List String := [title, ""] ++ "## Summary" :: summaryLines results

theorem markdown_eq_details (results : List Result) :
    markdown results =
      frontLines results ++ "## Detailed Results" :: (tableLines results ++ markdownFailures results) := by
  simp only [markdown_eq, frontLines, List.append_assoc, List.cons_append]

theorem not_mem_frontLines {heading : String} (hheading : ¬Inner heading) (hne : heading ≠ "## Summary")
    (results : List Result) : heading ∉ frontLines results := by
  have htitle : ∀ l ∈ [title, ""], Inner l := by decide
  intro h
  rcases List.mem_append.mp h with h | h
  · exact hheading (htitle _ h)
  rcases List.mem_cons.mp h with h | h
  · exact hne h
  · exact hheading (inner_of_mem_summaryLines _ h)

theorem under?_summary (results : List Result) :
    under? "## Summary" (markdown results) = some (summaryLines results) := by
  have hbefore : "## Summary" ∉ [title, ""] := by decide
  have hnext : ¬Inner "## Detailed Results" := by decide
  rw [markdown_eq]
  exact under?_append hbefore inner_of_mem_summaryLines fun l hl => Option.some.inj hl ▸ hnext

/-- Under the heading of the details stands the table, with a blank line after it when the failures follow. -/
theorem under?_details (results : List Result) :
    ∃ tail, (tail = [] ∨ tail = [""]) ∧
      under? "## Detailed Results" (markdown results) = some (tableLines results ++ tail) := by
  have hbefore : "## Detailed Results" ∉ frontLines results := not_mem_frontLines (by decide) (by decide) results
  have hnext : ¬Inner "## Failures" := by decide
  rw [markdown_eq_details, markdownFailures_eq]
  split
  · refine ⟨[], .inl rfl, ?_⟩
    rw [List.append_nil]
    exact under?_append_last hbefore inner_of_mem_tableLines
  · refine ⟨[""], .inr rfl, ?_⟩
    have hown : ∀ l ∈ tableLines results ++ [""], Inner l := by
      rw [List.forall_mem_append]
      exact ⟨inner_of_mem_tableLines, by decide⟩
    have hrest : ∀ l ∈ ("## Failures" :: "" :: (failing results).flatMap markdownFailure).head?, ¬Inner l :=
      fun l hl => Option.some.inj hl ▸ hnext
    have hfound := under?_append hbefore hown hrest
    rwa [List.append_assoc] at hfound

theorem under?_failures (results : List Result) :
    under? "## Failures" (markdown results) =
      if failing results = [] then none else some ("" :: (failing results).flatMap markdownFailure) := by
  have hfront : "## Failures" ∉ frontLines results ++ "## Detailed Results" :: tableLines results := by
    intro h
    rcases List.mem_append.mp h with h | h
    · exact not_mem_frontLines (by decide) (by decide) results h
    rcases List.mem_cons.mp h with h | h
    · exact absurd h (by decide)
    · exact absurd (inner_of_mem_tableLines _ h) (by decide)
  have hmarkdown : markdown results =
      (frontLines results ++ "## Detailed Results" :: tableLines results) ++ markdownFailures results := by
    rw [markdown_eq_details, List.append_assoc, List.cons_append]
  rw [hmarkdown, markdownFailures_eq]
  split
  · rw [List.append_nil]
    exact under?_of_not_mem hfront
  · have hbefore : "## Failures" ∉ (frontLines results ++ "## Detailed Results" :: tableLines results) ++ [""] := by
      simpa using hfront
    have hown : ∀ l ∈ "" :: (failing results).flatMap markdownFailure, Inner l := by
      rw [List.forall_mem_cons, List.forall_mem_flatMap]
      exact ⟨by decide, fun r _ => inner_of_mem_markdownFailure⟩
    have hfound := under?_append_last hbefore hown
    rwa [List.append_assoc] at hfound

/-! ### What a Markdown report tells -/

theorem counts_summaryLines (results : List Result) :
    stated? "- **Total scenarios**: " (summaryLines results) = some (toString results.length) ∧
      stated? "- **Passed**: " (summaryLines results) = some (toString (results.countP (·.passed))) ∧
      stated? "- **Failed**: " (summaryLines results) = some (toString (Tally.ofResults results).failed) := by
  have hblank : ∀ lead ∈ ["- **Total scenarios**: ", "- **Passed**: ", "- **Failed**: "], after? lead "" = none := by
    decide
  have htotal : ∀ s, after? "- **Passed**: " ("- **Total scenarios**: " ++ s) = none ∧
      after? "- **Failed**: " ("- **Total scenarios**: " ++ s) = none := by simp [after?, List.isPrefixOf?]
  have hpassed : ∀ s, after? "- **Failed**: " ("- **Passed**: " ++ s) = none := by simp [after?, List.isPrefixOf?]
  simp only [List.forall_mem_cons] at hblank
  simp only [stated?, summaryLines, List.findSome?_cons, hblank, htotal, hpassed, after?_append, Tally.ofResults,
    and_self]

theorem tableRows_details {results : List Result} {tail : List String} (h : tail = [] ∨ tail = [""]) :
    tableRows (tableLines results ++ tail) = results.map markdownRow := by
  have hdrop : (tableLines results ++ tail).dropWhile (· ≠ "|---|---|---|---|") =
      "|---|---|---|---|" :: (results.map markdownRow ++ tail) := by simp [tableLines]
  have hrows : ∀ l ∈ results.map markdownRow, decide (l ≠ "") = true := by simp [markdownRow]
  have htail : tail.takeWhile (· ≠ "") = [] := by rcases h with rfl | rfl <;> rfl
  rw [tableRows, hdrop, List.drop_one, List.tail_cons, List.takeWhile_append_of_pos hrows, htail, List.append_nil]

/-- What a row tells on a result. -/
def rowOf (r : Result) : Row :=
  ⟨"| " ++ r.scenario ++ " | " ++ r.target ++ " ", r.passed, " " ++ r.duration.text ++ " "⟩

theorem read?_markdownRow (r : Result) : Row.read? (markdownRow r) = some (rowOf r) := by
  have hline : (markdownRow r).toList =
      (("| " ++ r.scenario ++ " | " ++ r.target ++ " ").toList ++ '|' :: (if r.passed then " ✅ " else " ❌ ").toList ++
        '|' :: (" " ++ r.duration.text ++ " ").toList) ++ ['|'] := by
    cases hpassed : r.passed <;> simp [markdownRow, hpassed]
  have htime : '|' ∉ (" " ++ r.duration.text ++ " ").toList := by simp [bar_not_mem_duration]
  have hmark : '|' ∉ (if r.passed then " ✅ " else " ❌ ").toList := by cases r.passed <;> decide
  simp only [Row.read?, hline, Text.splitLast_append List.not_mem_nil, Text.splitLast_append htime,
    Text.splitLast_append hmark, Option.bind_eq_bind, Option.bind_some, String.ofList_toList, rowOf]
  cases r.passed <;> rfl

/-! ### Entries on failures -/

theorem entries_append {own rest : List String} (h : ∀ l ∈ own, after? "### " l = none) :
    entries (own ++ rest) = entries rest := by
  induction own with
  | nil => rfl
  | cons l own ih =>
    rw [List.cons_append, entries, h l List.mem_cons_self]
    exact ih fun x hx => h x (List.mem_cons_of_mem _ hx)

/-- What the lines under a heading of the third level tell on a result. -/
def entryOf (r : Result) : Entry := ⟨r.scenario ++ " (" ++ r.target ++ ")", r.failures.map some⟩

/-- An entry ends where the next one begins. -/
theorem takeWhile_markdownFailure (results : List Result) :
    (results.flatMap markdownFailure).takeWhile (fun l => (after? "### " l).isNone) = [] := by
  cases results with
  | nil => rfl
  | cons r results => simp [markdownFailure, after?, List.isPrefixOf?]

theorem entries_markdownFailure (results : List Result) :
    entries (results.flatMap markdownFailure) = results.map entryOf := by
  induction results with
  | nil => rfl
  | cons r results ih =>
    have hlines : (r :: results).flatMap markdownFailure = ("### " ++ (r.scenario ++ " (" ++ r.target ++ ")")) ::
        ("" :: (r.failures.map ("- " ++ ·) ++ [""]) ++ results.flatMap markdownFailure) := by
      simp [markdownFailure, String.append_assoc]
    have hown : ∀ l ∈ "" :: (r.failures.map ("- " ++ ·) ++ [""]), after? "### " l = none := by
      simp only [List.forall_mem_append, List.forall_mem_cons, List.forall_mem_map]
      simp [after?, List.isPrefixOf?]
    have hbullets : ("" :: (r.failures.map ("- " ++ ·) ++ [""])).filter (· ≠ "") = r.failures.map ("- " ++ ·) := by
      simp
    rw [hlines, entries, after?_append]
    dsimp only
    rw [entries_append hown, ih, List.takeWhile_append_of_pos fun l hl => by rw [hown l hl]; rfl,
      takeWhile_markdownFailure, List.append_nil, hbullets, List.map_map, List.map_cons, entryOf]
    simp only [Function.comp_def, after?_append]

theorem entries_failures (results : List Result) :
    (under? "## Failures" (markdown results)).map entries =
      if failing results = [] then none else some ((failing results).map entryOf) := by
  have hblank : ∀ l ∈ [""], after? "### " l = none := by decide
  rw [under?_failures]
  split
  · rfl
  · rw [Option.map_some, ← List.singleton_append, entries_append hblank, entries_markdownFailure]

theorem sheet_markdown {results : List Result} (h : ∀ r ∈ results, r.OneLined) :
    Sheet.read (text (markdown results)) =
      ⟨⟨some (toString results.length), some (toString (results.countP (·.passed))),
          some (toString (Tally.ofResults results).failed)⟩,
        results.map fun r => some (rowOf r),
        if failing results = [] then none else some ((failing results).map entryOf)⟩ := by
  obtain ⟨tail, htail, hdetails⟩ := under?_details results
  obtain ⟨htotal, hpassed, hfailed⟩ := counts_summaryLines results
  have hrows : (results.map markdownRow).map Row.read? = results.map fun r => some (rowOf r) := by
    rw [List.map_map]
    exact List.map_congr_left fun r _ => read?_markdownRow r
  rw [Sheet.read, linesOf_text (oneLine_of_mem_markdown h)]
  simp only [under?_summary, hdetails, Option.getD_some, htotal, hpassed, hfailed, tableRows_details htail, hrows,
    entries_failures]

/-! ### What a console report tells -/

/-- The lines of the first paragraph. -/
def consoleSummary (results : List Result) (total : Duration) : List String :=
  let t := Tally.ofResults results
  ["📊 Widget Test Results Summary", "===============================", "Total scenarios: " ++ toString t.total,
    "Passed: " ++ toString t.passed, "Failed: " ++ toString t.failed, "Success rate: " ++ t.rateText,
    "Total time: " ++ total.text]

/-- The lines of a block, without the blank one that ends it. -/
def blockLines (r : Result) : List String :=
  ((if r.passed then "✅ PASS " else "❌ FAIL ") ++ r.scenario ++ " [" ++ r.target ++ "]") ::
    ("   Time: " ++ r.duration.text) ::
    if r.failures = [] then [] else "   Failures:" :: r.failures.map ("     • " ++ ·)

/-- What a block tells on a result. -/
def blockOf (r : Result) : Block := ⟨r.passed, r.scenario ++ " [" ++ r.target ++ "]", r.failures.map some⟩

theorem consoleBlock_eq (r : Result) : consoleBlock ⟨false⟩ r = blockLines r ++ [""] := by
  have hpass : "✅ PASS" ++ " " = "✅ PASS " := by decide
  have hfail : "❌ FAIL" ++ " " = "❌ FAIL " := by decide
  have hstatus : (if r.passed then "✅ PASS" else "❌ FAIL") ++ " " = if r.passed then "✅ PASS " else "❌ FAIL " := by
    cases r.passed
    · exact hfail
    · exact hpass
  simp only [consoleBlock, Pen.write, Bool.false_eq_true, if_false, hstatus, blockLines, List.isEmpty_iff]
  rfl

theorem console_eq (results : List Result) (total : Duration) :
    console ⟨false⟩ results total =
      ([] :: consoleSummary results total :: results.map blockLines).flatMap (· ++ [""]) := by
  have hblocks : results.flatMap (consoleBlock ⟨false⟩) = (results.map blockLines).flatMap (· ++ [""]) := by
    rw [List.flatMap_map]
    exact List.flatMap_congr fun r _ => consoleBlock_eq r
  rw [console, hblocks]
  rfl

theorem oneLine_of_mem_blockLines {r : Result} (h : r.OneLined) : ∀ l ∈ blockLines r, OneLine l := by
  have hstatus : OneLine (if r.passed then "✅ PASS " else "❌ FAIL ") := by cases r.passed <;> decide
  have hfailures : ∀ l ∈ (if r.failures = [] then [] else "   Failures:" :: r.failures.map ("     • " ++ ·)),
      OneLine l := by
    split
    · nofun
    · simp only [List.forall_mem_cons, List.forall_mem_map, oneLine_append]
      exact ⟨by decide, fun f hf => ⟨by decide, h.failures f hf⟩⟩
  simp only [blockLines, List.forall_mem_cons, oneLine_append, hstatus, h.scenario, h.target, oneLine_duration]
  exact ⟨by decide, by decide, hfailures⟩

theorem oneLine_of_mem_console {results : List Result} (h : ∀ r ∈ results, r.OneLined) (total : Duration) :
    ∀ l ∈ console ⟨false⟩ results total, OneLine l := by
  have hsummary : ∀ l ∈ consoleSummary results total, OneLine l := by
    simp only [consoleSummary, List.forall_mem_cons, oneLine_append, oneLine_toString, oneLine_rateText,
      oneLine_duration]
    decide
  have hend : OneLine "" ∧ ∀ l ∈ ([] : List String), OneLine l := ⟨by decide, nofun⟩
  rw [console_eq, List.forall_mem_flatMap]
  simp only [List.forall_mem_cons, List.forall_mem_map, List.forall_mem_append]
  exact ⟨⟨nofun, hend⟩, ⟨hsummary, hend⟩, fun r hr => ⟨oneLine_of_mem_blockLines (h r hr), hend⟩⟩

theorem blank_not_mem_blockLines (r : Result) : "" ∉ blockLines r := by
  have hstatus : (if r.passed then "✅ PASS " else "❌ FAIL ") ≠ "" := by cases r.passed <;> decide
  simp [blockLines, hstatus]

theorem paragraphs_console (results : List Result) (total : Duration) :
    ((console ⟨false⟩ results total).splitOn "").filter (· ≠ []) =
      consoleSummary results total :: results.map blockLines := by
  have hsummary : "" ∉ consoleSummary results total := by simp [consoleSummary]
  have hparts : ∀ b ∈ [] :: consoleSummary results total :: results.map blockLines, "" ∉ b := by
    simp only [List.forall_mem_cons, List.forall_mem_map]
    exact ⟨List.not_mem_nil, hsummary, fun r _ => blank_not_mem_blockLines r⟩
  have hnonempty : ∀ b ∈ consoleSummary results total :: results.map blockLines, decide (b ≠ []) = true := by
    simp [consoleSummary, blockLines]
  rw [console_eq, splitOn_ended (f := fun b => b) hparts, List.map_id', List.filter_append,
    List.filter_cons_of_neg (by simp), List.filter_eq_self.mpr hnonempty]
  exact List.append_nil _

theorem status?_line (passed : Bool) (s : String) :
    status? ((if passed then "✅ PASS " else "❌ FAIL ") ++ s) = some (passed, s) := by
  cases passed with
  | true => simp only [if_true, status?, after?_append]
  | false =>
    have hother : after? "✅ PASS " ("❌ FAIL " ++ s) = none := by simp [after?, List.isPrefixOf?]
    simp only [Bool.false_eq_true, if_false, status?, hother, after?_append, Option.map_some]

theorem read?_blockLines (r : Result) : Block.read? (blockLines r) = some (blockOf r) := by
  have htime : "   Time: " ++ r.duration.text ≠ "   Failures:" := fun h => by simpa using congrArg String.toList h
  have hfailures : ((if r.failures = [] then [] else "   Failures:" :: r.failures.map ("     • " ++ ·)).dropWhile
      (· ≠ "   Failures:")).drop 1 = r.failures.map ("     • " ++ ·) := by
    split
    · next h => rw [h]; rfl
    · simp
  have hsubject : ∀ a, a ++ r.scenario ++ " [" ++ r.target ++ "]" = a ++ (r.scenario ++ " [" ++ r.target ++ "]") := by
    simp [String.append_assoc]
  rw [blockLines, Block.read?, hsubject, status?_line, List.dropWhile_cons_of_pos (by simpa using htime), hfailures,
    List.map_map, Option.map_some, blockOf]
  simp only [Function.comp_def, after?_append]

theorem counts_consoleSummary (results : List Result) (total : Duration) :
    stated? "Total scenarios: " (consoleSummary results total) = some (toString results.length) ∧
      stated? "Passed: " (consoleSummary results total) = some (toString (results.countP (·.passed))) ∧
      stated? "Failed: " (consoleSummary results total) = some (toString (Tally.ofResults results).failed) := by
  have htitle : ∀ lead ∈ ["Total scenarios: ", "Passed: ", "Failed: "],
      after? lead "📊 Widget Test Results Summary" = none ∧ after? lead "===============================" = none := by
    decide
  have htotal : ∀ s, after? "Passed: " ("Total scenarios: " ++ s) = none ∧
      after? "Failed: " ("Total scenarios: " ++ s) = none := by simp [after?, List.isPrefixOf?]
  have hpassed : ∀ s, after? "Failed: " ("Passed: " ++ s) = none := by simp [after?, List.isPrefixOf?]
  simp only [List.forall_mem_cons] at htitle
  simp only [stated?, consoleSummary, List.findSome?_cons, htitle, htotal, hpassed, after?_append, Tally.ofResults,
    and_self]

theorem page_console {results : List Result} (h : ∀ r ∈ results, r.OneLined) (total : Duration) :
    Page.read (text (console ⟨false⟩ results total)) =
      ⟨⟨some (toString results.length), some (toString (results.countP (·.passed))),
          some (toString (Tally.ofResults results).failed)⟩,
        results.map fun r => some (blockOf r)⟩ := by
  obtain ⟨htotal, hpassed, hfailed⟩ := counts_consoleSummary results total
  have hblocks : (results.map blockLines).map Block.read? = results.map fun r => some (blockOf r) := by
    rw [List.map_map]
    exact List.map_congr_left fun r _ => read?_blockLines r
  rw [Page.read, linesOf_text (oneLine_of_mem_console h total)]
  simp only [paragraphs_console, List.headD_cons, List.tail_cons, htotal, hpassed, hfailed, hblocks]

/-! ### Agreement -/

theorem passed_add_failed (results : List Result) :
    results.countP (·.passed) + (Tally.ofResults results).failed = results.length :=
  Nat.add_sub_cancel' List.countP_le_length

theorem failed_ofResults (results : List Result) :
    (Tally.ofResults results).failed = results.countP (fun r => !r.passed) := by
  have hall := List.length_eq_countP_add_countP (fun r : Result => r.passed) (l := results)
  simp only [Bool.not_eq_true, Bool.decide_eq_false] at hall
  exact Nat.add_left_cancel ((passed_add_failed results).trans hall)

/-- What both reports tell agrees with the results, when none of their texts holds a line break. The counts are those of
    the rows of the table, the section on failures is there when something failed, and every row, every entry and every
    block is on its result. -/
theorem reports_agree_with_results {results : List Result} (h : ∀ r ∈ results, r.OneLined) (total : Duration) :
    let sheet := Sheet.read (text (markdown results))
    let page := Page.read (text (console ⟨false⟩ results total))
    ∃ all passed failed : Nat,
      sheet.counts = ⟨some (toString all), some (toString passed), some (toString failed)⟩ ∧
      page.counts = sheet.counts ∧
      passed + failed = all ∧
      all = sheet.rows.length ∧
      failed = sheet.rows.countP (·.any fun row => !row.passed) ∧
      sheet.rows = results.map (fun r => some (rowOf r)) ∧
      (sheet.failures.isSome ↔ 0 < failed) ∧
      (∀ listed, sheet.failures = some listed → listed = (failing results).map entryOf) ∧
      page.blocks = results.map fun r => some (blockOf r) := by
  have hrows : (results.map fun r => some (rowOf r)).countP (·.any fun row => !row.passed) =
      results.countP fun r => !r.passed := by
    rw [List.countP_map]
    rfl
  have hfailing : failing results = [] ↔ (Tally.ofResults results).failed = 0 := by
    rw [failed_ofResults, failing, List.countP_eq_length_filter, List.length_eq_zero_iff]
  rw [sheet_markdown h, page_console h total]
  refine ⟨results.length, results.countP (·.passed), (Tally.ofResults results).failed, rfl, rfl,
    passed_add_failed results, (List.length_map _).symm, ?_, rfl, ?_, ?_, rfl⟩
  · rw [failed_ofResults, hrows]
  · dsimp only
    split
    · next hnone => simp [hfailing.mp hnone]
    · next hsome => simpa using Nat.pos_of_ne_zero fun hzero => hsome (hfailing.mpr hzero)
  · intro listed hlisted
    dsimp only at hlisted
    split at hlisted
    · cases hlisted
    · exact (Option.some.inj hlisted).symm

/-- Results whose texts look like lines of a report, one that failed without a failure and one that passed with some. -/
def deceptiveResults : List Result :=
  [⟨"a | ✅ | 1ms |", "## Failures", false, ["### b (c)", "- **Failed**: 0", ""], .zero⟩,
    ⟨"", "|---|---|---|---|", false, [], .zero⟩,
    ⟨"## Failures", "Failed: 7", true, ["   Failures:", "❌ FAIL d [e]"], .zero⟩]

theorem deceptive_results_reported :
    (∀ r ∈ deceptiveResults, r.OneLined) ∧
      (Sheet.read (text (markdown deceptiveResults))).failures.isSome ∧
      (Page.read (text (console ⟨false⟩ deceptiveResults .zero))).blocks =
        [some ⟨false, "a | ✅ | 1ms | [## Failures]", [some "### b (c)", some "- **Failed**: 0", some ""]⟩,
          some ⟨false, " [|---|---|---|---|]", []⟩,
          some ⟨true, "## Failures [Failed: 7]", [some "   Failures:", some "❌ FAIL d [e]"]⟩] := by
  have h : ∀ r ∈ deceptiveResults, r.OneLined := by
    simp only [deceptiveResults, List.forall_mem_cons]
    exact ⟨⟨by decide, by decide, by decide⟩, ⟨by decide, by decide, by decide⟩, ⟨by decide, by decide, by decide⟩,
      nofun⟩
  obtain ⟨all, passed, failed, _, _, _, _, hfailed, hrows, hsection, _, hblocks⟩ := reports_agree_with_results h .zero
  refine ⟨h, ?_, hblocks⟩
  rw [hsection, hfailed, hrows]
  decide

end Report
end Tester
end PageWidgets
