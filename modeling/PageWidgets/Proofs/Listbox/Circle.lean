import Mathlib.Data.Finset.Card
import Mathlib.Data.Finset.Range
import Mathlib.Logic.Function.Iterate
import PageWidgets.Proofs.Listbox.Moves

/-! The enabled entries of a list as a circle. A step goes to the nearest enabled entry, so stepping in one direction
    visits all of them one after the other, and stepping in the other direction takes that back. How many steps it is
    from one to another is a matter of counting the enabled entries on the way. -/

namespace PageWidgets
namespace Listbox

/-! ### Places on the circle -/

theorem circular_forward {n a k : Nat} (ha : a < n) (hk : k ≤ n) :
    circular n a .forward k = if a + k < n then a + k else a + k - n := by
  show (a + k) % n = _
  split
  · next h => exact Nat.mod_eq_of_lt h
  · next h => rw [Nat.mod_eq_sub_mod (by omega), Nat.mod_eq_of_lt (by omega)]

theorem circular_backward {n a k : Nat} (ha : a < n) (hk : k ≤ n) (hpos : 0 < k) :
    circular n a .backward k = if k ≤ a then a - k else a + n - k := by
  show (a + n - k % n) % n = _
  rcases Nat.lt_or_eq_of_le hk with hlt | rfl
  · rw [Nat.mod_eq_of_lt hlt]
    split
    · next h =>
      have hround : a + n - k - n = a - k := by omega
      rw [Nat.mod_eq_sub_mod (by omega), hround, Nat.mod_eq_of_lt (by omega)]
    · next h => exact Nat.mod_eq_of_lt (by omega)
  · rw [Nat.mod_self, Nat.sub_zero, Nat.add_mod_right, Nat.mod_eq_of_lt ha, if_neg (by omega), Nat.add_sub_cancel]

/-- On the way from `a` in that direction, `m` is met before `b`. -/
def Between (d : Direction) (a b m : Nat) : Prop :=
  match d with
  | .forward => if a < b then a < m ∧ m < b else a < m ∨ m < b
  | .backward => if b < a then b < m ∧ m < a else b < m ∨ m < a

theorem exists_circular {n a m : Nat} (ha : a < n) (hm : m < n) (d : Direction) :
    ∃ k < n, circular n a d (k + 1) = m := by
  cases d with
  | forward =>
    by_cases h : a < m
    · refine ⟨m - a - 1, by omega, ?_⟩
      rw [circular_forward ha (by omega)]
      split <;> omega
    · refine ⟨m + n - a - 1, by omega, ?_⟩
      rw [circular_forward ha (by omega)]
      split <;> omega
  | backward =>
    by_cases h : m < a
    · refine ⟨a - m - 1, by omega, ?_⟩
      rw [circular_backward ha (by omega) (by omega)]
      split <;> omega
    · refine ⟨a + n - m - 1, by omega, ?_⟩
      rw [circular_backward ha (by omega) (by omega)]
      split <;> omega

theorem lt_of_between {n a k l : Nat} (ha : a < n) (hk : k < n) (hl : l < n) {d : Direction}
    (h : Between d a (circular n a d (k + 1)) (circular n a d (l + 1))) : l < k := by
  cases d with
  | forward =>
    rw [circular_forward ha hk, circular_forward ha hl] at h
    unfold Between at h
    dsimp only at h
    split at h <;> split at h <;> split at h <;> omega
  | backward =>
    rw [circular_backward ha hk (by omega), circular_backward ha hl (by omega)] at h
    unfold Between at h
    dsimp only at h
    split at h <;> split at h <;> split at h <;> omega

/-! ### Steps -/

variable {entries : List Entry} {a i : Nat} {d : Direction}

/-- A step goes to the nearest enabled entry. -/
theorem stepEnabled_spec (ha : enabledAt entries a = true) (d : Direction) :
    ∃ j, stepEnabled entries a d = some j ∧ enabledAt entries j = true ∧
      ∀ m, enabledAt entries m = true → ¬Between d a j m := by
  have hlt := lt_length_of_enabledAt ha
  unfold stepEnabled
  dsimp only
  rw [if_neg (by omega), Nat.mod_eq_of_lt hlt, List.find?_map]
  cases hfound : (List.range entries.length).find? (enabledAt entries ∘ fun k => circular entries.length a d (k + 1)) with
  | none =>
    obtain ⟨k, hk, heq⟩ := exists_circular hlt hlt d
    have hno := List.find?_eq_none.mp hfound k (List.mem_range.mpr hk)
    rw [Function.comp_apply, heq] at hno
    exact absurd ha hno
  | some k =>
    obtain ⟨hk, hmem, hleast⟩ := List.find?_range_eq_some.mp hfound
    refine ⟨_, rfl, hk, fun m hm hbetween => ?_⟩
    obtain ⟨l, hl, rfl⟩ := exists_circular hlt (lt_length_of_enabledAt hm) d
    have hlk := lt_of_between hlt (List.mem_range.mp hmem) hl hbetween
    have hno := hleast l hlk
    rw [Function.comp_apply, hm] at hno
    cases hno

/-- The entry one step on. -/
def neighbour (entries : List Entry) (d : Direction) (a : Nat) : Nat := (stepEnabled entries a d).getD a

theorem stepEnabled_eq (ha : enabledAt entries a = true) (d : Direction) :
    stepEnabled entries a d = some (neighbour entries d a) := by
  obtain ⟨j, hj, -⟩ := stepEnabled_spec ha d
  rw [neighbour, hj, Option.getD_some]

theorem neighbour_spec (ha : enabledAt entries a = true) (d : Direction) :
    enabledAt entries (neighbour entries d a) = true ∧
      ∀ m, enabledAt entries m = true → ¬Between d a (neighbour entries d a) m := by
  obtain ⟨j, hj, hspec⟩ := stepEnabled_spec ha d
  rw [neighbour, hj, Option.getD_some]
  exact hspec

theorem neighbour_backward_forward (ha : enabledAt entries a = true) :
    neighbour entries .backward (neighbour entries .forward a) = a := by
  obtain ⟨hj, hforward⟩ := neighbour_spec ha .forward
  obtain ⟨hx, hbackward⟩ := neighbour_spec hj .backward
  have h₁ := hforward _ hx
  have h₂ := hbackward _ ha
  unfold Between at h₁ h₂
  dsimp only at h₁ h₂
  split at h₁ <;> split at h₂ <;> omega

theorem enabledAt_iterate (ha : enabledAt entries a = true) (d : Direction) (k : Nat) :
    enabledAt entries ((neighbour entries d)^[k] a) = true := by
  induction k with
  | zero => exact ha
  | succ k ih =>
    rw [Function.iterate_succ_apply']
    exact (neighbour_spec ih d).1

theorem iterate_backward_forward (ha : enabledAt entries a = true) (k : Nat) :
    (neighbour entries .backward)^[k] ((neighbour entries .forward)^[k] a) = a := by
  induction k with
  | zero => rfl
  | succ k ih =>
    rw [Function.iterate_succ_apply' (neighbour entries .forward), Function.iterate_succ_apply,
      neighbour_backward_forward (enabledAt_iterate ha .forward k), ih]

/-! ### Counting -/

def enabledSet (entries : List Entry) : Finset Nat :=
  (Finset.range entries.length).filter fun m => enabledAt entries m = true

theorem mem_enabledSet {m : Nat} : m ∈ enabledSet entries ↔ enabledAt entries m = true := by
  unfold enabledSet
  rw [Finset.mem_filter, Finset.mem_range]
  exact ⟨fun h => h.2, fun h => ⟨lt_length_of_enabledAt h, h⟩⟩

/-- On the way forward from `a` to `i`, `m` is met after `a` and no later than `i`. The way from an entry to itself is
    the whole circle. -/
def OnWay (a i m : Nat) : Prop := if a < i then a < m ∧ m ≤ i else a < m ∨ m ≤ i

instance (a i : Nat) : DecidablePred (OnWay a i) := fun m =>
  inferInstanceAs (Decidable (if a < i then a < m ∧ m ≤ i else a < m ∨ m ≤ i))

/-- The number of enabled entries on the way forward from `a` to `i`. -/
def enabledOnWay (entries : List Entry) (a i : Nat) : Nat := ((enabledSet entries).filter (OnWay a i)).card

/-- The number of enabled entries before `i`. -/
def enabledBefore (entries : List Entry) (i : Nat) : Nat := ((enabledSet entries).filter (· < i)).card

/-- The number of enabled entries after `i`. -/
def enabledAfter (entries : List Entry) (i : Nat) : Nat := ((enabledSet entries).filter (i < ·)).card

theorem enabledOnWay_self (entries : List Entry) (a : Nat) : enabledOnWay entries a a = (enabledSet entries).card := by
  unfold enabledOnWay
  rw [Finset.filter_true_of_mem fun m _ => ?_]
  unfold OnWay
  split <;> omega

/-- There and back is once around. -/
theorem enabledOnWay_add (hne : a ≠ i) :
    enabledOnWay entries a i + enabledOnWay entries i a = (enabledSet entries).card := by
  unfold enabledOnWay
  have hback : (enabledSet entries).filter (OnWay i a) = (enabledSet entries).filter fun m => ¬OnWay a i m := by
    refine Finset.filter_congr fun m _ => ?_
    unfold OnWay
    split <;> split <;> omega
  rw [hback]
  exact Finset.card_filter_add_card_filter_not _

theorem not_onWay_start (hne : a ≠ i) : ¬OnWay a i a := by
  unfold OnWay
  split <;> omega

/-- When nothing comes before `j`, the way to `j` has `j` alone. -/
theorem onWay_next {j m : Nat} (hm : ¬Between .forward a j m) : OnWay a j m ↔ m = j := by
  unfold Between at hm
  unfold OnWay
  dsimp only at hm
  split at hm <;> split <;> omega

/-- When nothing comes before `j`, a way that goes further goes on from `j`. -/
theorem onWay_of_next {j m : Nat} (hji : j ≠ i) (hi : ¬Between .forward a j i) (hm : ¬Between .forward a j m) :
    OnWay a i m ↔ m = j ∨ OnWay j i m := by
  unfold Between at hi hm
  unfold OnWay
  dsimp only at hi hm
  split at hi <;> split at hm <;> split <;> split <;> omega

/-- One step on, there is one enabled entry less on the way. -/
theorem enabledOnWay_neighbour (ha : enabledAt entries a = true) (hi : enabledAt entries i = true) :
    enabledOnWay entries a i =
      if neighbour entries .forward a = i then 1 else enabledOnWay entries (neighbour entries .forward a) i + 1 := by
  obtain ⟨hj, hno⟩ := neighbour_spec ha .forward
  generalize neighbour entries .forward a = j at hj hno
  unfold enabledOnWay
  split
  · next hji =>
    subst hji
    rw [Finset.card_eq_one]
    refine ⟨j, Finset.ext fun m => ?_⟩
    rw [Finset.mem_filter, mem_enabledSet, Finset.mem_singleton]
    constructor
    · rintro ⟨hm, hway⟩
      exact (onWay_next (hno m hm)).mp hway
    · rintro rfl
      exact ⟨hj, (onWay_next (hno m hj)).mpr rfl⟩
  · next hji =>
    have hinsert : (enabledSet entries).filter (OnWay a i) = insert j ((enabledSet entries).filter (OnWay j i)) := by
      refine Finset.ext fun m => ?_
      rw [Finset.mem_insert, Finset.mem_filter, Finset.mem_filter, mem_enabledSet]
      constructor
      · rintro ⟨hm, hway⟩
        exact ((onWay_of_next hji (hno i hi) (hno m hm)).mp hway).imp_right fun h => ⟨hm, h⟩
      · rintro (rfl | ⟨hm, hway⟩)
        · exact ⟨hj, (onWay_of_next hji (hno i hi) (hno m hj)).mpr (.inl rfl)⟩
        · exact ⟨hm, (onWay_of_next hji (hno i hi) (hno m hm)).mpr (.inr hway)⟩
    rw [hinsert, Finset.card_insert_of_notMem]
    rw [Finset.mem_filter]
    exact fun h => not_onWay_start hji h.2

/-- As many steps forward as there are enabled entries on the way lead to the entry. -/
theorem iterate_enabledOnWay (ha : enabledAt entries a = true) (hi : enabledAt entries i = true) :
    (neighbour entries .forward)^[enabledOnWay entries a i] a = i := by
  induction hcount : enabledOnWay entries a i generalizing a with
  | zero =>
    rw [enabledOnWay_neighbour ha hi] at hcount
    split at hcount <;> cases hcount
  | succ k ih =>
    rw [enabledOnWay_neighbour ha hi] at hcount
    rw [Function.iterate_succ_apply]
    split at hcount
    · next hj =>
      obtain rfl : k = 0 := by omega
      exact hj
    · exact ih (neighbour_spec ha .forward).1 (by omega)

theorem iterate_backward_enabledOnWay (ha : enabledAt entries a = true) (hi : enabledAt entries i = true) :
    (neighbour entries .backward)^[enabledOnWay entries i a] a = i := by
  have hback := iterate_backward_forward hi (enabledOnWay entries i a)
  rwa [iterate_enabledOnWay hi ha] at hback

theorem iterate_backward_rest (ha : enabledAt entries a = true) (hi : enabledAt entries i = true) :
    (neighbour entries .backward)^[(enabledSet entries).card - enabledOnWay entries a i] a = i := by
  by_cases h : a = i
  · rw [h, enabledOnWay_self, Nat.sub_self, Function.iterate_zero_apply]
  · have hrest : (enabledSet entries).card - enabledOnWay entries a i = enabledOnWay entries i a := by
      rw [← enabledOnWay_add h, Nat.add_sub_cancel_left]
    rw [hrest]
    exact iterate_backward_enabledOnWay ha hi

/-- Any number of times around the circle leads nowhere. -/
theorem iterate_around (ha : enabledAt entries a = true) (d : Direction) (q : Nat) :
    (neighbour entries d)^[q * (enabledSet entries).card] a = a := by
  have once : (neighbour entries d)^[(enabledSet entries).card] a = a := by
    rw [← enabledOnWay_self entries a]
    cases d with
    | forward => exact iterate_enabledOnWay ha ha
    | backward => exact iterate_backward_enabledOnWay ha ha
  rw [Nat.mul_comm, Function.iterate_mul]
  exact Function.iterate_fixed once q

/-! ### The ends of the list -/

theorem firstEnabled_spec (hi : enabledAt entries i = true) :
    ∃ f, firstEnabled entries = some f ∧ enabledAt entries f = true ∧ ∀ m, enabledAt entries m = true → f ≤ m := by
  obtain ⟨f, hf, hen⟩ := firstEnabled_of_any (any_enabled_iff.mpr ⟨i, hi⟩)
  refine ⟨f, hf, hen, fun m hm => Nat.le_of_not_lt fun hlt => ?_⟩
  have hno := (List.find?_range_eq_some.mp hf).2.2 m hlt
  rw [hm] at hno
  cases hno

theorem lastEnabled_spec (hi : enabledAt entries i = true) :
    ∃ l, lastEnabled entries = some l ∧ enabledAt entries l = true ∧ ∀ m, enabledAt entries m = true → m ≤ l := by
  have hmem : ∀ m, enabledAt entries m = true → m ∈ (List.range entries.length).reverse := fun m hm =>
    List.mem_reverse.mpr (List.mem_range.mpr (lt_length_of_enabledAt hm))
  have hsome : (lastEnabled entries).isSome = true := List.find?_isSome.mpr ⟨i, hmem i hi, hi⟩
  obtain ⟨l, hl⟩ := Option.isSome_iff_exists.mp hsome
  obtain ⟨hen, later, earlier, hsplit, hlater⟩ := List.find?_eq_some_iff_append.mp hl
  refine ⟨l, hl, hen, fun m hm => ?_⟩
  have hdown : List.Pairwise (fun x y => y < x) (List.range entries.length).reverse :=
    List.pairwise_reverse.mpr List.pairwise_lt_range
  have hm' := hmem m hm
  rw [hsplit] at hdown hm'
  rcases List.mem_append.mp hm' with hm' | hm'
  · have hno := hlater m hm'
    rw [hm] at hno
    cases hno
  · rcases List.mem_cons.mp hm' with rfl | hm'
    · exact Nat.le_refl m
    · have htail := (List.pairwise_append.mp hdown).2.1
      exact Nat.le_of_lt ((List.pairwise_cons.mp htail).1 m hm')

/-- Those on the way from the first enabled entry to a later one are as many as those before that one: the first takes
    the place of the last. -/
theorem enabledOnWay_first {f : Nat} (hf : enabledAt entries f = true)
    (hleast : ∀ m, enabledAt entries m = true → f ≤ m) (hi : enabledAt entries i = true) (hlt : f < i) :
    enabledOnWay entries f i = enabledBefore entries i := by
  have hshift : insert f ((enabledSet entries).filter (OnWay f i)) =
      insert i ((enabledSet entries).filter (· < i)) := by
    refine Finset.ext fun m => ?_
    simp only [Finset.mem_insert, Finset.mem_filter, mem_enabledSet, OnWay, if_pos hlt]
    constructor
    · rintro (rfl | ⟨hm, hway⟩)
      · exact .inr ⟨hf, hlt⟩
      · exact (Nat.lt_or_eq_of_le hway.2).elim (fun h => .inr ⟨hm, h⟩) .inl
    · rintro (rfl | ⟨hm, hway⟩)
      · exact .inr ⟨hi, hlt, Nat.le_refl m⟩
      · exact (Nat.lt_or_eq_of_le (hleast m hm)).elim (fun h => .inr ⟨hm, h, Nat.le_of_lt hway⟩) fun h => .inl h.symm
  have hcards := congrArg Finset.card hshift
  rw [Finset.card_insert_of_notMem, Finset.card_insert_of_notMem] at hcards
  · exact Nat.succ.inj hcards
  · rw [Finset.mem_filter]
    exact fun h => Nat.lt_irrefl i h.2
  · rw [Finset.mem_filter]
    exact fun h => not_onWay_start (Nat.ne_of_lt hlt) h.2

theorem iterate_first {f : Nat} (hf : enabledAt entries f = true) (hleast : ∀ m, enabledAt entries m = true → f ≤ m)
    (hi : enabledAt entries i = true) : (neighbour entries .forward)^[enabledBefore entries i] f = i := by
  rcases Nat.lt_or_eq_of_le (hleast i hi) with hlt | rfl
  · rw [← enabledOnWay_first hf hleast hi hlt]
    exact iterate_enabledOnWay hf hi
  · have hcount : enabledBefore entries f = 0 := by
      unfold enabledBefore
      rw [Finset.card_eq_zero, Finset.filter_eq_empty_iff]
      intro m hm
      exact Nat.not_lt.mpr (hleast m (mem_enabledSet.mp hm))
    rw [hcount, Function.iterate_zero_apply]

/-- An enabled entry, those before it and those after it are all the enabled ones. -/
theorem enabledBefore_add_enabledAfter (hi : enabledAt entries i = true) :
    enabledBefore entries i + (enabledAfter entries i + 1) = (enabledSet entries).card := by
  have hrest : (enabledSet entries).filter (fun m => ¬m < i) = insert i ((enabledSet entries).filter (i < ·)) := by
    refine Finset.ext fun m => ?_
    simp only [Finset.mem_insert, Finset.mem_filter, mem_enabledSet]
    constructor
    · rintro ⟨hm, hle⟩
      exact (Nat.lt_or_eq_of_le (Nat.le_of_not_lt hle)).elim (fun h => .inr ⟨hm, h⟩) fun h => .inl h.symm
    · rintro (rfl | ⟨hm, hlt⟩)
      · exact ⟨hi, Nat.lt_irrefl m⟩
      · exact ⟨hm, Nat.lt_asymm hlt⟩
  unfold enabledBefore enabledAfter
  rw [← Finset.card_filter_add_card_filter_not (s := enabledSet entries) (· < i), hrest,
    Finset.card_insert_of_notMem]
  rw [Finset.mem_filter]
  exact fun h => Nat.lt_irrefl i h.2

theorem iterate_last {l : Nat} (hl : enabledAt entries l = true) (hmost : ∀ m, enabledAt entries m = true → m ≤ l)
    (hi : enabledAt entries i = true) : (neighbour entries .backward)^[enabledAfter entries i] l = i := by
  rcases Nat.lt_or_eq_of_le (hmost i hi) with hlt | rfl
  · have hcount : enabledAfter entries i = enabledOnWay entries i l := by
      unfold enabledAfter enabledOnWay
      congr 1
      refine Finset.filter_congr fun m hm => ?_
      rw [OnWay, if_pos hlt]
      exact ⟨fun h => ⟨h, hmost m (mem_enabledSet.mp hm)⟩, fun h => h.1⟩
    rw [hcount]
    exact iterate_backward_enabledOnWay hl hi
  · have hcount : enabledAfter entries i = 0 := by
      unfold enabledAfter
      rw [Finset.card_eq_zero, Finset.filter_eq_empty_iff]
      intro m hm
      exact Nat.not_lt.mpr (hmost m (mem_enabledSet.mp hm))
    rw [hcount, Function.iterate_zero_apply]

end Listbox
end PageWidgets
