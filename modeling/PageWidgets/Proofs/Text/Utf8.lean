import PageWidgets.Text.Utf8

/-! UTF-8 reads back: the bytes of a text spell that text and no other. A character has one to four bytes, and the
    reader takes exactly these from the front of any list that starts with them. -/

namespace PageWidgets
namespace Text

@[simp] theorem utf8_nil : utf8 [] = [] := rfl

@[simp] theorem utf8_cons (c : Char) (l : List Char) : utf8 (c :: l) = String.utf8EncodeChar c ++ utf8 l := rfl

theorem utf8_append (a b : List Char) : utf8 (a ++ b) = utf8 a ++ utf8 b := List.flatMap_append

/-- The bytes of a text are those that it is kept as. -/
theorem utf8_toList (s : String) : utf8 s.toList = s.toUTF8.data.toList := by
  rw [String.toUTF8, ← String.ofList_toList (s := s), String.toByteArray_ofList, String.toList_ofList, List.utf8Encode]
  simp [utf8]

/-- A character below U+0080 is a byte. -/
theorem utf8EncodeChar_of_lt {c : Char} (h : c.toNat < 0x80) :
    String.utf8EncodeChar c = [UInt8.ofNat c.toNat] := by
  have hle : c.val.toNat ≤ 0x7f := Nat.le_of_lt_succ h
  simp only [String.utf8EncodeChar, hle, if_true]
  rfl

theorem utf8_of_ascii {l : List Char} (h : ∀ c ∈ l, c.toNat < 0x80) :
    utf8 l = l.map fun c => UInt8.ofNat c.toNat := by
  induction l with
  | nil => rfl
  | cons c l ih =>
    rw [utf8_cons, utf8EncodeChar_of_lt (h c List.mem_cons_self), ih fun d hd => h d (List.mem_cons_of_mem _ hd)]
    rfl

/-! ### One character -/

theorem toNat_byte {n : Nat} (h : n < 256) : (UInt8.ofNat n).toNat = n := UInt8.toNat_ofNat_of_lt' h

/-- The numbers of characters: up to U+10FFFF, without the surrogates. -/
theorem toNat_valid (c : Char) : c.toNat < 0xD800 ∨ 0xDFFF < c.toNat ∧ c.toNat < 0x110000 := c.valid

theorem isContinuation_byte (n : Nat) : isContinuation (UInt8.ofNat (n % 64 + 0x80)) = true := by
  simp only [isContinuation, toNat_byte (show n % 64 + 0x80 < 256 by omega), Bool.and_eq_true, decide_eq_true_eq]
  omega

theorem lowBits_byte (n : Nat) : lowBits (UInt8.ofNat (n % 64 + 0x80)) = n % 64 := by
  rw [lowBits, toNat_byte (by omega)]
  omega

theorem sequenceLength_two {a : UInt8} (h : 0xC2 ≤ a.toNat ∧ a.toNat ≤ 0xDF) : sequenceLength a = some 2 := by
  simp [sequenceLength, h, show ¬a.toNat < 0x80 by omega]

theorem sequenceLength_three {a : UInt8} (h : 0xE0 ≤ a.toNat ∧ a.toNat ≤ 0xEF) : sequenceLength a = some 3 := by
  simp [sequenceLength, h, show ¬a.toNat < 0x80 by omega, show ¬a.toNat ≤ 0xDF by omega]

theorem sequenceLength_four {a : UInt8} (h : 0xF0 ≤ a.toNat ∧ a.toNat ≤ 0xF4) : sequenceLength a = some 4 := by
  simp [sequenceLength, h, show ¬a.toNat < 0x80 by omega, show ¬a.toNat ≤ 0xDF by omega,
    show ¬a.toNat ≤ 0xEF by omega]

variable {a b c d : UInt8} (rest : List UInt8)

theorem decodeChar_one (ha : a.toNat < 0x80) : decodeChar (a :: rest) = .ok (Char.ofNat a.toNat, rest) := by
  have hlen : sequenceLength a = some 1 := by simp [sequenceLength, ha]
  unfold decodeChar
  dsimp only
  rw [hlen]
  cases rest <;> rfl

theorem decodeChar_two (ha : 0xC2 ≤ a.toNat ∧ a.toNat ≤ 0xDF) (hb : isContinuation b = true) :
    decodeChar (a :: b :: rest) = .ok (Char.ofNat (a.toNat % 32 * 64 + lowBits b), rest) := by
  unfold decodeChar
  dsimp only
  rw [sequenceLength_two ha]
  exact if_pos hb

theorem decodeChar_three (ha : 0xE0 ≤ a.toNat ∧ a.toNat ≤ 0xEF) (hb : secondFits a b = true)
    (hc : isContinuation c = true) :
    decodeChar (a :: b :: c :: rest) =
      .ok (Char.ofNat (a.toNat % 16 * 4096 + lowBits b * 64 + lowBits c), rest) := by
  unfold decodeChar
  dsimp only
  rw [sequenceLength_three ha]
  exact (if_neg (by simp [hb])).trans (if_neg (by simp [hc]))

theorem decodeChar_four (ha : 0xF0 ≤ a.toNat ∧ a.toNat ≤ 0xF4) (hb : secondFits a b = true)
    (hc : isContinuation c = true) (hd : isContinuation d = true) :
    decodeChar (a :: b :: c :: d :: rest) =
      .ok (Char.ofNat (a.toNat % 8 * 262144 + lowBits b * 4096 + lowBits c * 64 + lowBits d), rest) := by
  unfold decodeChar
  dsimp only
  rw [sequenceLength_four ha]
  exact (if_neg (by simp [hb])).trans ((if_neg (by simp [hc])).trans (if_neg (by simp [hd])))

/-- The second byte of a sequence fits when neither a shorter form, nor a surrogate, nor a number that is too
    large is spelled. -/
theorem secondFits_of {n m : Nat} (hn : n < 256) (hlow : n = 0xE0 → 0x20 ≤ m % 64) (hsurr : n = 0xED → m % 64 < 0x20)
    (hlow' : n = 0xF0 → 0x10 ≤ m % 64) (hhigh : n = 0xF4 → m % 64 < 0x10) :
    secondFits (UInt8.ofNat n) (UInt8.ofNat (m % 64 + 0x80)) = true := by
  simp only [secondFits, secondRange, toNat_byte hn, toNat_byte (show m % 64 + 0x80 < 256 by omega)]
  repeat' split
  all_goals
    simp only [Bool.and_eq_true, decide_eq_true_eq]
    omega

theorem decodeChar_utf8EncodeChar (x : Char) : decodeChar (String.utf8EncodeChar x ++ rest) = .ok (x, rest) := by
  have hvalid := toNat_valid x
  have hx : ∀ n, n = x.toNat → Char.ofNat n = x := fun n hn => hn ▸ Char.ofNat_toNat x
  simp only [String.utf8EncodeChar, show x.val.toNat = x.toNat from rfl]
  generalize x.toNat = v at hvalid hx
  -- The four lengths; the digits of `v` to the base 64 are what the bytes carry.
  split
  · next h =>
    rw [List.singleton_append, decodeChar_one _ (by rw [toNat_byte] <;> omega), hx _ (toNat_byte (by omega))]
  · split
    · next h1 h2 =>
      have ha : (UInt8.ofNat (v / 64 % 32 + 0xC0)).toNat = v / 64 + 0xC0 := by rw [toNat_byte] <;> omega
      refine (decodeChar_two _ (by omega) (isContinuation_byte v)).trans ?_
      rw [ha, lowBits_byte, hx _ (by omega)]
      rfl
    · split
      · next h1 h2 h3 =>
        have ha : (UInt8.ofNat (v / 4096 % 16 + 0xE0)).toNat = v / 4096 + 0xE0 := by rw [toNat_byte] <;> omega
        refine (decodeChar_three _ (by omega) (secondFits_of ?_ ?_ ?_ ?_ ?_) (isContinuation_byte v)).trans ?_
        iterate 5 omega
        rw [ha, lowBits_byte, lowBits_byte, hx _ (by omega)]
        rfl
      · next h1 h2 h3 =>
        have ha : (UInt8.ofNat (v / 262144 % 8 + 0xF0)).toNat = v / 262144 + 0xF0 := by rw [toNat_byte] <;> omega
        refine (decodeChar_four _ (by omega) (secondFits_of ?_ ?_ ?_ ?_ ?_) (isContinuation_byte (v / 64))
          (isContinuation_byte v)).trans ?_
        iterate 5 omega
        rw [ha, lowBits_byte, lowBits_byte, lowBits_byte, hx _ (by omega)]
        rfl

/-! ### Texts -/

theorem length_utf8_cons_lt (x : Char) (l : List Char) : (utf8 l).length < (utf8 (x :: l)).length := by
  rw [utf8_cons, List.length_append, String.length_utf8EncodeChar]
  have := x.utf8Size_pos
  omega

theorem decodeFrom_utf8 {l : List Char} {fuel index : Nat} (h : l.length ≤ fuel) :
    decodeFrom fuel index (utf8 l) = .ok l := by
  induction l generalizing fuel index with
  | nil => cases fuel <;> rfl
  | cons x l ih =>
    obtain ⟨fuel, rfl⟩ : ∃ n, fuel = n + 1 := ⟨fuel - 1, by simp at h; omega⟩
    have hne : utf8 (x :: l) ≠ [] := fun h0 => by
      have := length_utf8_cons_lt x l
      simp [h0] at this
    obtain ⟨y, ys, hy⟩ := List.exists_cons_of_ne_nil hne
    have hd : decodeChar (y :: ys) = .ok (x, utf8 l) := by
      rw [← hy]
      exact decodeChar_utf8EncodeChar (utf8 l) x
    rw [hy]
    simp only [decodeFrom, hd]
    rw [ih (by simpa using h)]
    rfl

theorem length_le_length_utf8 (l : List Char) : l.length ≤ (utf8 l).length := by
  induction l with
  | nil => exact Nat.le_refl 0
  | cons x l ih =>
    have := length_utf8_cons_lt x l
    simp only [List.length_cons]
    omega

/-- The bytes of a text spell the text. -/
theorem ofUtf8_utf8 (l : List Char) : ofUtf8 (utf8 l) = .ok l := decodeFrom_utf8 (length_le_length_utf8 l)

end Text
end PageWidgets
