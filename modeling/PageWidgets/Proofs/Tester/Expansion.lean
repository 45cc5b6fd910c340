import Mathlib.Data.List.Pairwise
import PageWidgets.Proofs.Tester.ScriptRuns

/-! The word for every scenario in a list of names. The list without it may lead to each scenario at most once; with
    it, a scenario is run a second time exactly when the list asks for it by something else than its key, since the
    keys are compared with the names as they are spelled. -/

namespace PageWidgets
namespace Tester

variable {text : String} {names : List String}

/-- Names lead to different scenarios when no two of them lead to the same. -/
theorem name_eq_of_nodup_resolved (h : (resolved names).Nodup) {name other : String} (hname : name ∈ names)
    (hother : other ∈ names) {s : Scenario} (hs : Scenario.ofName? name = some s)
    (hs' : Scenario.ofName? other = some s) : name = other := by
  by_contra hne
  rw [resolved, List.Nodup, List.pairwise_filterMap] at h
  have : Std.Symm fun a b : String => ∀ x ∈ Scenario.ofName? a, ∀ y ∈ Scenario.ofName? b, x ≠ y :=
    ⟨fun a b hab x hx y hy => (hab y hy x hx).symm⟩
  exact h.forall hname hother hne s hs s hs' rfl

theorem nodup_resolved_iff (h : (resolved (otherNames text)).Nodup) :
    (resolved (expandNames text)).Nodup ↔
      (everything ∈ splitList text →
        ∀ name ∈ otherNames text, ∀ s, Scenario.ofName? name = some s → name = s.key) := by
  by_cases hall : everything ∈ splitList text
  · rw [List.nodup_iff_count_le_one]
    constructor
    · intro hcount _ name hname s hs
      have hmem : s ∈ resolved (otherNames text) := List.mem_filterMap.mpr ⟨name, hname, hs⟩
      have hkey : s.key ∈ otherNames text := by
        by_contra hkey
        have hone := hcount s
        rw [count_resolved hall, if_neg hkey] at hone
        have hpos := List.count_pos_iff.mpr hmem
        omega
      exact name_eq_of_nodup_resolved h hname hkey hs s.ofName?_key
    · intro hspelled s
      rw [count_resolved hall]
      split
      · rw [Nat.add_zero]
        exact List.nodup_iff_count_le_one.mp h s
      · next hkey =>
        have hnone : (resolved (otherNames text)).count s = 0 := by
          rw [List.count_eq_zero]
          intro hmem
          obtain ⟨name, hname, hs⟩ := List.mem_filterMap.mp hmem
          exact hkey (hspelled hall name hname s hs ▸ hname)
        exact Nat.le_of_eq (by rw [hnone])
  · rw [(expandNames_of_not_mem hall).trans (otherNames_of_not_mem hall).symm]
    exact ⟨fun _ hmem => absurd hmem hall, fun _ => h⟩

namespace Run

/-- A list whose other names lead to different scenarios runs each scenario once, unless it has the word for every
    scenario and spells one by something else than its key. -/
theorem expansion_repeats_nothing_iff (text : String) (h : (resolved (otherNames text)).Nodup) :
    ((resolved (expandNames text)).Nodup ↔
      (everything ∈ splitList text →
        ∀ name ∈ otherNames text, ∀ s, Scenario.ofName? name = some s → name = s.key)) ∧
      ∀ (e : Environment) (o : Options) (b : Browser) (s : Session),
        (((scriptEntries e o b (expandNames text) s).1.filterMap (·.result)).map (·.scenario)).Nodup ↔
          (resolved (expandNames text)).Nodup := by
  refine ⟨nodup_resolved_iff h, fun e o b s => ?_⟩
  have hresults := congrArg (List.map Prod.fst) (results_scriptEntries (e := e) (o := o) (b := b) (expandNames text) s)
  simp only [List.map_map, Function.comp_def] at hresults
  rw [hresults]
  exact List.nodup_map_iff Scenario.name_injective

/-- Keys that are spelled out are not run again. -/
theorem spelled_keys_run_once :
    (resolved (otherNames "keyboard-wrap, nonsense,all ,commit-change")).Nodup ∧
      (resolved (expandNames "keyboard-wrap, nonsense,all ,commit-change")).Nodup := by
  have h : (resolved (otherNames "keyboard-wrap, nonsense,all ,commit-change")).Nodup := by decide +kernel
  refine ⟨h, (expansion_repeats_nothing_iff _ h).1.mpr fun _ => ?_⟩
  decide +kernel

/-- A short key does not keep the key from being added. -/
theorem short_key_runs_twice :
    (resolved (otherNames "keyboard,all")).Nodup ∧ ¬ (resolved (expandNames "keyboard,all")).Nodup := by
  decide +kernel

end Run
end Tester
end PageWidgets
