import Mathlib.GroupTheory.Perm.Cycle.Basic
import PageWidgets.Proofs.Listbox.Circle

/-! Steps as a permutation. From anywhere, also from beyond the end, a step goes to the enabled entry the fewest places
    away. Among the enabled entries the steps forward and backward take each other back, and they make one cycle of all
    of them. -/

namespace PageWidgets
namespace Listbox

/-! ### Distances -/

/-- How many places it is from `a` to `m` on a circle of `n`. From a place to itself it is the whole circle. -/
def distance (n a : Nat) (d : Direction) (m : Nat) : Nat :=
  match d with
  | .forward => if a < m then m - a else m + n - a
  | .backward => if m < a then a - m else a + n - m

section
variable {n a k m : Nat} {d : Direction}

theorem distance_bounds (ha : a < n) (hm : m < n) (d : Direction) : 1 ≤ distance n a d m ∧ distance n a d m ≤ n := by
  cases d <;> simp only [distance] <;> split <;> omega

theorem distance_eq_circle (ha : a < n) (hm : m < n) (d : Direction) : distance n a d m = n ↔ m = a := by
  cases d <;> simp only [distance] <;> split <;> omega

/-- So many places from `a` is where `m` is. -/
theorem circular_distance (ha : a < n) (hm : m < n) (d : Direction) : circular n a d (distance n a d m) = m := by
  obtain ⟨hpos, hle⟩ := distance_bounds ha hm d
  cases d with
  | forward =>
    rw [circular_forward ha hle]
    simp only [distance]
    split <;> split <;> omega
  | backward =>
    rw [circular_backward ha hle hpos]
    simp only [distance]
    split <;> split <;> omega

theorem distance_circular (ha : a < n) (hpos : 0 < k) (hk : k ≤ n) (d : Direction) :
    distance n a d (circular n a d k) = k := by
  cases d with
  | forward =>
    rw [circular_forward ha hk]
    simp only [distance]
    split <;> split <;> omega
  | backward =>
    rw [circular_backward ha hk hpos]
    simp only [distance]
    split <;> split <;> omega

end

/-! ### Where a step goes -/

variable {entries : List Entry} {start j : Nat} {d : Direction}

/-- A step goes to the enabled entry nearest to where the start is on the circle. -/
theorem stepEnabled_eq_some : stepEnabled entries start d = some j ↔ enabledAt entries j = true ∧
    ∀ m, enabledAt entries m = true →
      distance entries.length (start % entries.length) d j ≤ distance entries.length (start % entries.length) d m := by
  by_cases hnone : entries.length = 0
  · rw [List.length_eq_zero_iff] at hnone
    subst hnone
    exact ⟨nofun, nofun⟩
  have ha : start % entries.length < entries.length := Nat.mod_lt _ (Nat.pos_of_ne_zero hnone)
  unfold stepEnabled
  dsimp only
  rw [if_neg hnone, List.find?_map]
  generalize start % entries.length = a at ha
  constructor
  · intro h
    obtain ⟨k, hfound, rfl⟩ := Option.map_eq_some_iff.mp h
    obtain ⟨hk, hmem, hleast⟩ := List.find?_range_eq_some.mp hfound
    rw [List.mem_range] at hmem
    refine ⟨hk, fun m hm => ?_⟩
    have hlt := lt_length_of_enabledAt hm
    rw [distance_circular ha k.succ_pos hmem]
    -- A nearer entry would have been found before.
    by_contra hnearer
    obtain ⟨hpos, hle⟩ := distance_bounds ha hlt d
    have hno := hleast (distance entries.length a d m - 1) (by omega)
    rw [Function.comp_apply, Nat.sub_add_cancel hpos, circular_distance ha hlt, hm] at hno
    cases hno
  · rintro ⟨hj, hnearest⟩
    have hlt := lt_length_of_enabledAt hj
    obtain ⟨hpos, hle⟩ := distance_bounds ha hlt d
    refine Option.map_eq_some_iff.mpr ⟨distance entries.length a d j - 1, List.find?_range_eq_some.mpr ⟨?_, ?_, ?_⟩, ?_⟩
    · rw [Function.comp_apply, Nat.sub_add_cancel hpos, circular_distance ha hlt, hj]
    · exact List.mem_range.mpr (by omega)
    · intro k hk
      rw [Function.comp_apply, Bool.not_eq_true', Bool.eq_false_iff]
      intro hbefore
      have hle := hnearest _ hbefore
      rw [distance_circular ha k.succ_pos (by omega)] at hle
      omega
    · rw [Nat.sub_add_cancel hpos, circular_distance ha hlt]

theorem stepEnabled_eq_none : stepEnabled entries start d = none ↔ ∀ e ∈ entries, e.enabled = false := by
  constructor
  · intro hnone e he
    rw [Bool.eq_false_iff]
    intro hen
    obtain ⟨m, hm⟩ := any_enabled_iff.mp (List.any_eq_true.mpr ⟨e, he, hen⟩)
    have hlt := lt_length_of_enabledAt hm
    have ha : start % entries.length < entries.length := Nat.mod_lt _ (by omega)
    obtain ⟨hpos, hle⟩ := distance_bounds ha hlt d
    unfold stepEnabled at hnone
    dsimp only at hnone
    rw [if_neg (by omega), List.find?_eq_none] at hnone
    -- The step looks at `m` as well, so many places on.
    refine hnone m (List.mem_map.mpr ⟨distance entries.length (start % entries.length) d m - 1, ?_, ?_⟩) hm
    · exact List.mem_range.mpr (by omega)
    · rw [Nat.sub_add_cancel hpos, circular_distance ha hlt]
  · intro h
    rw [Option.eq_none_iff_forall_ne_some]
    intro j hj
    obtain ⟨e, he, hen⟩ := enabledAt_iff.mp (stepEnabled_eq_some.mp hj).1
    rw [h e (List.mem_of_getElem? he)] at hen
    cases hen

/-! ### There and back -/

/-- The other way round. -/
def Direction.opposite : Direction → Direction
  | .forward => .backward
  | .backward => .forward

theorem neighbour_opposite {a : Nat} (ha : enabledAt entries a = true) (d : Direction) :
    neighbour entries d.opposite (neighbour entries d a) = a := by
  cases d with
  | forward => exact neighbour_backward_forward ha
  | backward =>
    obtain ⟨hj, hbackward⟩ := neighbour_spec ha .backward
    obtain ⟨hx, hforward⟩ := neighbour_spec hj .forward
    have h₁ := hbackward _ hx
    have h₂ := hforward _ ha
    show neighbour entries .forward (neighbour entries .backward a) = a
    unfold Between at h₁ h₂
    dsimp only at h₁ h₂
    split at h₁ <;> split at h₂ <;> omega

/-- The enabled entries of a list, by their indexes. -/
abbrev Enabled (entries : List Entry) : Type := {a : Nat // enabledAt entries a = true}

instance (entries : List Entry) : Fintype (Enabled entries) :=
  Fintype.subtype (enabledSet entries) fun _ => mem_enabledSet

/-- Steps forward, as a permutation of the enabled entries. Steps backward are its inverse. -/
def stepping (entries : List Entry) : Equiv.Perm (Enabled entries) where
  toFun a := ⟨neighbour entries .forward a, (neighbour_spec a.2 .forward).1⟩
  invFun a := ⟨neighbour entries .backward a, (neighbour_spec a.2 .backward).1⟩
  left_inv a := Subtype.ext (neighbour_opposite a.2 .forward)
  right_inv a := Subtype.ext (neighbour_opposite a.2 .backward)

theorem stepping_pow (a : Enabled entries) (k : Nat) :
    ((stepping entries ^ k) a : Nat) = (neighbour entries .forward)^[k] a := by
  induction k with
  | zero => rfl
  | succ k ih => rw [pow_succ', Equiv.Perm.mul_apply, Function.iterate_succ_apply', ← ih, stepping, Equiv.coe_fn_mk]

/-- Every enabled entry is so many steps forward from every other. -/
theorem stepping_isCycleOn : (stepping entries).IsCycleOn Set.univ :=
  ⟨Set.bijOn_univ.mpr (stepping entries).bijective, fun a _ b _ =>
    ⟨enabledOnWay entries a b, Subtype.ext (by
      rw [zpow_natCast, stepping_pow, iterate_enabledOnWay a.2 b.2])⟩⟩

/-! ### The length of the cycle -/

theorem enabledSet_cons (e : Entry) (entries : List Entry) : enabledSet (e :: entries) =
    (if e.enabled then {0} else ∅) ∪ (enabledSet entries).map ⟨Nat.succ, Nat.succ_injective⟩ := by
  ext m
  simp only [Finset.mem_union, Finset.mem_map, mem_enabledSet, Function.Embedding.coeFn_mk]
  cases m with
  | zero => cases hen : e.enabled <;> simp [enabledAt, hen]
  | succ m => cases hen : e.enabled <;> simp [enabledAt]

theorem card_enabledSet (entries : List Entry) : (enabledSet entries).card = entries.countP Entry.enabled := by
  induction entries with
  | nil => rfl
  | cons e entries ih =>
    rw [enabledSet_cons, Finset.card_union_of_disjoint, Finset.card_map, ih, List.countP_cons]
    · cases e.enabled <;> simp [Nat.add_comm]
    · cases e.enabled <;> simp

/-- Steps lead back to where they began when they have gone round all enabled entries, and not before. -/
theorem stepping_pow_eq_self (a : Enabled entries) (k : Nat) :
    (stepping entries ^ k) a = a ↔ entries.countP Entry.enabled ∣ k := by
  have hcycle : (stepping entries).IsCycleOn (Finset.univ : Finset (Enabled entries)) := by
    rw [Finset.coe_univ]
    exact stepping_isCycleOn
  rw [hcycle.pow_apply_eq (Finset.mem_univ a), Finset.card_univ, ← card_enabledSet]
  rw [Fintype.card_of_subtype (enabledSet entries) fun _ => mem_enabledSet]

/-- From anywhere a step goes to the enabled entry the fewest places away, itself counted last, when there is one. A
    step and a step the other way lead back, and steps in one direction go round all enabled entries. -/
theorem steps_go_round (entries : List Entry) :
    (∀ start d, stepEnabled entries start d = none ↔ ∀ e ∈ entries, e.enabled = false) ∧
    (∀ start d j, stepEnabled entries start d = some j ↔ enabledAt entries j = true ∧
      ∀ m, enabledAt entries m = true →
        distance entries.length (start % entries.length) d j ≤ distance entries.length (start % entries.length) d m) ∧
    (∀ start d m, m < entries.length →
      1 ≤ distance entries.length (start % entries.length) d m ∧
      distance entries.length (start % entries.length) d m ≤ entries.length ∧
      (distance entries.length (start % entries.length) d m = entries.length ↔ m = start % entries.length) ∧
      ∀ k, 1 ≤ k → k ≤ entries.length →
        (circular entries.length (start % entries.length) d k = m ↔
          k = distance entries.length (start % entries.length) d m)) ∧
    (∀ a d, enabledAt entries a = true →
      (stepEnabled entries a d).bind (stepEnabled entries · d.opposite) = some a) ∧
    ∃ σ : Equiv.Perm (Enabled entries),
      (∀ a : Enabled entries, stepEnabled entries a .forward = some (σ a : Nat)) ∧
      (∀ a : Enabled entries, stepEnabled entries a .backward = some (σ.symm a : Nat)) ∧
      σ.IsCycleOn Set.univ ∧ ∀ a k, (σ ^ k) a = a ↔ entries.countP Entry.enabled ∣ k := by
  refine ⟨fun start d => stepEnabled_eq_none, fun start d j => stepEnabled_eq_some, fun start d m hm => ?_,
    fun a d ha => ?_, stepping entries, fun a => stepEnabled_eq a.2 .forward, fun a => stepEnabled_eq a.2 .backward,
    stepping_isCycleOn, stepping_pow_eq_self⟩
  · have ha : start % entries.length < entries.length := Nat.mod_lt _ (by omega)
    obtain ⟨hpos, hle⟩ := distance_bounds ha hm d
    refine ⟨hpos, hle, distance_eq_circle ha hm d, fun k hk hkn => ⟨?_, ?_⟩⟩
    · rintro rfl
      exact (distance_circular ha hk hkn d).symm
    · rintro rfl
      exact circular_distance ha hm d
  · rw [stepEnabled_eq ha, Option.bind_some, stepEnabled_eq (neighbour_spec ha d).1, neighbour_opposite ha]

example : stepEnabled [⟨"30 days", "30", false, false⟩, ⟨"60 days", "60", true, false⟩, ⟨"90 days", "90", false, false⟩]
    7 .forward = some 2 := by
  decide

end Listbox
end PageWidgets
