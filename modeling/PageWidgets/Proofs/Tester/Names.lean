import Mathlib.Data.List.Nodup
import PageWidgets.Tester.Scenario

/-! Names that lead to scenarios. Every scenario is found by its key. In a list with the word for every scenario, the
    keys that the list does not spell itself are added, so every scenario is asked for; one that the list asks for by
    another name than its key is asked for once more. -/

namespace PageWidgets
namespace Tester

namespace Scenario

theorem mem_all (s : Scenario) : s ∈ all := by cases s <;> decide

theorem nodup_all : all.Nodup := by decide

theorem ofName?_key (s : Scenario) : ofName? s.key = some s := by cases s <;> decide +kernel

theorem name_injective : Function.Injective name := by
  have hnames : (all.map name).Nodup := by decide
  exact fun s t h => List.inj_on_of_nodup_map hnames s.mem_all t.mem_all h

end Scenario

/-- The names that a list spells, without the word for every scenario. -/
def otherNames (text : String) : List String := (splitList text).filter (· ≠ everything)

/-- The scenarios that names lead to, in order. -/
def resolved (names : List String) : List Scenario := names.filterMap Scenario.ofName?

variable {text : String}

theorem expandNames_of_mem (h : everything ∈ splitList text) :
    expandNames text = otherNames text ++ (Scenario.all.map Scenario.key).filter (· ∉ otherNames text) := by
  rw [expandNames, if_pos (List.contains_iff_mem.mpr h), ← otherNames]
  simp

theorem expandNames_of_not_mem (h : everything ∉ splitList text) : expandNames text = splitList text :=
  if_neg fun hmem => h (List.contains_iff_mem.mp hmem)

theorem otherNames_of_not_mem (h : everything ∉ splitList text) : otherNames text = splitList text :=
  List.filter_eq_self.mpr fun _ hname => decide_eq_true fun heq => h (heq ▸ hname)

/-- Keys lead to their scenarios. -/
theorem resolved_keys (p : String → Bool) :
    resolved ((Scenario.all.map Scenario.key).filter p) = Scenario.all.filter fun s => p s.key := by
  rw [List.filter_map, resolved, List.filterMap_map]
  exact (List.filterMap_congr fun s _ => s.ofName?_key).trans List.filterMap_some

/-- A list with the word for every scenario asks for each as often as its other names do, and once more unless it
    spells the key. -/
theorem count_resolved (h : everything ∈ splitList text) (s : Scenario) :
    (resolved (expandNames text)).count s =
      (resolved (otherNames text)).count s + if s.key ∈ otherNames text then 0 else 1 := by
  have hkeys : (Scenario.all.filter fun s => decide (s.key ∉ otherNames text)).count s =
      if s.key ∈ otherNames text then 0 else 1 := by
    by_cases hkey : s.key ∈ otherNames text
    · rw [if_pos hkey, List.count_eq_zero]
      exact fun hs => of_decide_eq_true (List.mem_filter.mp hs).2 hkey
    · rw [if_neg hkey]
      exact List.count_eq_one_of_mem (Scenario.nodup_all.filter _)
        (List.mem_filter.mpr ⟨s.mem_all, decide_eq_true hkey⟩)
  rw [expandNames_of_mem h, resolved, List.filterMap_append, List.count_append, ← resolved, ← resolved, resolved_keys,
    hkeys]

theorem mem_resolved_of_key {names : List String} {s : Scenario} (h : s.key ∈ names) : s ∈ resolved names :=
  List.mem_filterMap.mpr ⟨s.key, h, s.ofName?_key⟩

/-- A list with the word for every scenario asks for every scenario. -/
theorem mem_resolved_expandNames (h : everything ∈ splitList text) (s : Scenario) : s ∈ resolved (expandNames text) := by
  rw [← List.count_pos_iff, count_resolved h]
  split
  · next hkey =>
    rw [Nat.add_zero, List.count_pos_iff]
    exact mem_resolved_of_key hkey
  · exact Nat.succ_pos _

end Tester
end PageWidgets
