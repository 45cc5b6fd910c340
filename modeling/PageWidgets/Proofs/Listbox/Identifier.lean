import Mathlib.Data.List.Basic
import PageWidgets.Listbox.Identifier
import PageWidgets.Proofs.Text.Split

/-! Identifiers tell what they were made of, whatever names a page chooses. They are read from the end: neither the
    digits of a menu nor the index of an entry holds the dash before it, so what stands before the last dash is found
    again, also where a name holds a mark of either kind itself. -/

namespace PageWidgets
namespace Listbox

/-! ### Digits of base 36 -/

theorem digit36_inj {a b : Nat} (ha : a < 36) (hb : b < 36) : digit36 a = digit36 b ↔ a = b := by
  have hinj : ∀ a < 36, ∀ b < 36, digit36 a = digit36 b → a = b := by decide
  exact ⟨hinj a ha b hb, congrArg digit36⟩

theorem digit36_ne_dash {n : Nat} (h : n < 36) : digit36 n ≠ '-' := by
  revert n
  decide

theorem dash_not_mem_digits36 (count n : Nat) : '-' ∉ digits36 count n := by
  induction count generalizing n with
  | zero => exact List.not_mem_nil
  | succ count ih =>
    have hdigit : '-' ≠ digit36 (n % 36) := (digit36_ne_dash (Nat.mod_lt n (by decide))).symm
    simp [digits36, ih, hdigit]

/-- As many digits of two numbers are the same exactly when the numbers leave the same remainder: the lowest digits
    give the remainders by 36, and the digits above those of the quotients. -/
theorem digits36_eq_iff {count a b : Nat} :
    digits36 count a = digits36 count b ↔ a % Nat.pow 36 count = b % Nat.pow 36 count := by
  induction count generalizing a b with
  | zero => simp [digits36, Nat.mod_one]
  | succ count ih =>
    have hcut : ∀ n, n % Nat.pow 36 (count + 1) = n % 36 + 36 * (n / 36 % Nat.pow 36 count) := fun n => by
      rw [show Nat.pow 36 (count + 1) = 36 * Nat.pow 36 count from Nat.pow_succ', Nat.mod_mul]
    have hlow : ∀ n, n % 36 < 36 := fun n => Nat.mod_lt n (by decide)
    rw [digits36, digits36, List.append_singleton_inj, ih, digit36_inj (hlow a) (hlow b), hcut, hcut]
    constructor
    · rintro ⟨hhigh, hlast⟩
      rw [hhigh, hlast]
    · intro h
      have := hlow a
      have := hlow b
      omega

/-! ### Indexes -/

theorem dash_not_mem_toDigits (n : Nat) : '-' ∉ Nat.toDigits 10 n := fun h =>
  absurd (Nat.isDigit_of_mem_toDigits (by decide) (by decide) h) (by decide)

theorem toDigits_inj {a b : Nat} (h : Nat.toDigits 10 a = Nat.toDigits 10 b) : a = b := by
  rw [← @Nat.ofDigitChars_ten_toDigits a, h, Nat.ofDigitChars_ten_toDigits]

/-! ### The last dash -/

/-- A text falls apart at its last dash in one way only. -/
theorem eq_of_last_dash {a b x y : List Char} (hx : '-' ∉ x) (hy : '-' ∉ y) (h : a ++ '-' :: x = b ++ '-' :: y) :
    a = b ∧ x = y := by
  have hcut := congrArg (Text.splitLast '-') h
  rw [Text.splitLast_append hx, Text.splitLast_append hy] at hcut
  exact Prod.mk.inj (Option.some.inj hcut)

theorem toList_menuId (id : Option String) (fallback : String) (entropy : Nat) :
    (menuId id fallback entropy).toList =
      ((menuBase id fallback).toList ++ "-menu".toList) ++ '-' :: digits36 6 entropy := by
  simp [menuId]

theorem toList_entryId (menu : String) (index : Nat) :
    (entryId menu index).toList = (menu.toList ++ "-option".toList) ++ '-' :: Nat.toDigits 10 index := by
  simp [entryId]

/-! ### Identifiers -/

theorem menuBase_eq (id : Option String) (fallback : String) :
    menuBase id fallback = (id.filter (· ≠ "")).getD fallback := by
  cases id with
  | none => rfl
  | some id => by_cases h : id = "" <;> simp [menuBase, Option.filter, h]

theorem menuId_eq_iff {id id' : Option String} {fallback fallback' : String} {entropy entropy' : Nat} :
    menuId id fallback entropy = menuId id' fallback' entropy' ↔
      menuBase id fallback = menuBase id' fallback' ∧ entropy % Nat.pow 36 6 = entropy' % Nat.pow 36 6 := by
  constructor
  · intro h
    have hlists := congrArg String.toList h
    rw [toList_menuId, toList_menuId] at hlists
    obtain ⟨hbase, hdigits⟩ := eq_of_last_dash (dash_not_mem_digits36 6 _) (dash_not_mem_digits36 6 _) hlists
    exact ⟨String.toList_injective (List.append_cancel_right hbase), digits36_eq_iff.mp hdigits⟩
  · rintro ⟨hbase, hentropy⟩
    rw [menuId, menuId, hbase, digits36_eq_iff.mpr hentropy]

theorem entryId_eq_iff {menu menu' : String} {index index' : Nat} :
    entryId menu index = entryId menu' index' ↔ menu = menu' ∧ index = index' := by
  constructor
  · intro h
    have hlists := congrArg String.toList h
    rw [toList_entryId, toList_entryId] at hlists
    obtain ⟨hmenu, hindex⟩ := eq_of_last_dash (dash_not_mem_toDigits _) (dash_not_mem_toDigits _) hlists
    exact ⟨String.toList_injective (List.append_cancel_right hmenu), toDigits_inj hindex⟩
  · rintro ⟨rfl, rfl⟩
    rfl

/-- Before its last dash, the identifier of a menu ends in another letter than that of an entry. -/
theorem menuId_ne_entryId (id : Option String) (fallback : String) (entropy : Nat) (menu : String) (index : Nat) :
    menuId id fallback entropy ≠ entryId menu index := by
  intro h
  have hlists := congrArg String.toList h
  rw [toList_menuId, toList_entryId] at hlists
  obtain ⟨hbefore, -⟩ := eq_of_last_dash (dash_not_mem_digits36 6 _) (dash_not_mem_toDigits _) hlists
  have hlast := congrArg List.getLast? hbefore
  have hmenu : "-menu".toList = ['-', 'm', 'e', 'n', 'u'] := rfl
  have hoption : "-option".toList = ['-', 'o', 'p', 't', 'i', 'o', 'n'] := rfl
  simp [hmenu, hoption] at hlast

/-- Two menus have the same identifier exactly when they are built on the same name, that of the native control or the
    fallback where it is missing or empty, and their entropies leave the same remainder by `36 ^ 6`; two entries exactly
    when they have the same index in menus of the same identifier; and no menu has the identifier of an entry. -/
theorem identifiers_clash_only_with_parts :
    (∀ (id id' : Option String) (fallback : String) (entropy entropy' : Nat),
      menuId id fallback entropy = menuId id' fallback entropy' ↔
        (id.filter (· ≠ "")).getD fallback = (id'.filter (· ≠ "")).getD fallback ∧
          entropy % Nat.pow 36 6 = entropy' % Nat.pow 36 6) ∧
    (∀ (menu menu' : String) (index index' : Nat),
      entryId menu index = entryId menu' index' ↔ menu = menu' ∧ index = index') ∧
    ∀ (id : Option String) (fallback : String) (entropy : Nat) (menu : String) (index : Nat),
      menuId id fallback entropy ≠ entryId menu index := by
  refine ⟨fun id id' fallback entropy entropy' => ?_, fun _ _ _ _ => entryId_eq_iff, menuId_ne_entryId⟩
  rw [← menuBase_eq, ← menuBase_eq]
  exact menuId_eq_iff

end Listbox
end PageWidgets
