import Mathlib.Data.List.Forall2
import PageWidgets.Proofs.Json.Number
import PageWidgets.Proofs.Json.ReadBack
import PageWidgets.Proofs.NameMap
import PageWidgets.Proofs.Text.Split

/-! Layouts of a value: the texts that spell it, with blanks between the pieces as one likes. The form on one line
    and the form over several lines are two of them. The numbers in a layout are natural numbers that are read
    exactly; the program writes no others. -/

namespace PageWidgets
namespace Json

/-! ### Blanks -/

/-- Nothing but blanks. -/
def Blanks (l : List Char) : Prop := ∀ c ∈ l, isSpace c = true

theorem Blanks.nil : Blanks [] := nofun

theorem Blanks.append {a b : List Char} (ha : Blanks a) (hb : Blanks b) : Blanks (a ++ b) := by
  intro c hc
  rcases List.mem_append.mp hc with hc | hc
  · exact ha c hc
  · exact hb c hc

theorem skipBlanks_append {b : List Char} (hb : Blanks b) (l : List Char) : skipBlanks (b ++ l) = skipBlanks l :=
  List.dropWhile_append_of_pos hb

theorem skipBlanks_cons {c : Char} (hc : isSpace c = false) (l : List Char) : skipBlanks (c :: l) = c :: l :=
  List.dropWhile_cons_of_neg (by simp [hc])

theorem Blanks.ends {b l : List Char} (hb : Blanks b) (hl : Ends l) : Ends (b ++ l) := by
  cases b with
  | nil => exact hl
  | cons c b => exact .cons (.inl (hb c List.mem_cons_self))

/-! ### Pieces between brackets -/

/-- What stands before an item: blanks, and between them a comma unless the item is the first. -/
def Lead (first : Bool) (l : List Char) : Prop :=
  if first then Blanks l else ∃ b b', Blanks b ∧ Blanks b' ∧ l = b ++ ',' :: b'

/-- Items up to the closing bracket, each spelled as `P` says. -/
inductive Series {α : Type} (P : α → List Char → Prop) (closing : Char) : Bool → List α → List Char → Prop
  | nil {first : Bool} {b : List Char} (hb : Blanks b) : Series P closing first [] (b ++ [closing])
  | cons {first : Bool} {a : α} {as : List α} {lead t rest : List Char} (hlead : Lead first lead) (ha : P a t)
      (hrest : Series P closing false as rest) : Series P closing first (a :: as) (lead ++ (t ++ rest))

/-- A member of an object: its name, a colon between blanks, and its value spelled as `P` says. -/
inductive Member (P : Value → List Char → Prop) : String × Value → List Char → Prop
  | mk {key : String} {v : Value} {b b' t : List Char} (hb : Blanks b) (hb' : Blanks b') (hv : P v t) :
      Member P (key, v) ((stringText key).toList ++ (b ++ ':' :: (b' ++ t)))

/-- The text spells the value. -/
inductive Laid : Value → List Char → Prop
  | null : Laid .null "null".toList
  | bool (b : Bool) : Laid (.bool b) (wordText b).toList
  | nat {n : Nat} (hn : n ≤ largestSignificand) : Laid (.nat n) (Nat.toDigits 10 n)
  | string (s : String) : Laid (.string s) (stringText s).toList
  | array {items : List Value} {l : List Char} (h : Series Laid ']' true items l) : Laid (.array items) ('[' :: l)
  | object {members : List (String × Value)} {l : List Char} (h : Series (Member Laid) '\x7d' true members l) :
      Laid (.object members) ('\x7b' :: l)

namespace Series

variable {α : Type} {P : α → List Char → Prop} {closing : Char} {first : Bool} {as : List α} {l : List Char}

/-- Behind an item comes a blank, a comma or the closing bracket. -/
theorem ends (hclosing : closing = ']' ∨ closing = '\x7d') (h : Series P closing false as l) (rest : List Char) :
    Ends (l ++ rest) := by
  cases h with
  | nil hb =>
    rw [List.append_assoc]
    exact hb.ends (.cons (.inr (.inr hclosing)))
  | cons hlead ha hrest =>
    obtain ⟨b, b', hb, -, rfl⟩ := hlead
    rw [List.append_assoc, List.append_assoc]
    exact hb.ends (.cons (.inr (.inl rfl)))

theorem length_lt (h : Series P closing first as l) (hpos : ∀ a t, P a t → 0 < t.length) : as.length < l.length := by
  induction h with
  | nil hb => simp
  | cons hlead ha hrest ih =>
    have := hpos _ _ ha
    simp only [List.length_append, List.length_cons]
    omega

end Series

/-- The first member of a series, and the series of the others. -/
theorem Series.of_member {first : Bool} {key : String} {v : Value} {ms : List (String × Value)} {l : List Char}
    (h : Series (Member Laid) '\x7d' first ((key, v) :: ms) l) : ∃ lead b b' t l', Lead first lead ∧ Blanks b ∧
      Blanks b' ∧ Laid v t ∧ Series (Member Laid) '\x7d' false ms l' ∧
      l = lead ++ ((stringText key).toList ++ (b ++ ':' :: (b' ++ (t ++ l')))) := by
  obtain _ | @⟨_, _, _, lead, _, l', hlead, hm, hrest⟩ := h
  obtain @⟨_, _, b, b', t, hb, hb', hv⟩ := hm
  exact ⟨lead, b, b', t, l', hlead, hb, hb', hv, hrest, by simp only [List.append_assoc, List.cons_append]⟩

/-! ### First characters -/

/-- A character that may start the layout of a value. -/
structure Opens (v : Value) (c : Char) : Prop where
  space : isSpace c = false
  comma : c ≠ ','
  bracket : c ≠ ']'
  brace : c ≠ '\x7d'
  null : c = 'n' → v = .null

theorem isSpace_of_isDigit {c : Char} (hc : isDigit c = true) : isSpace c = false := by
  cases hspace : isSpace c with
  | false => rfl
  | true =>
    have hends := (ending_of_ends (.inl hspace)).1
    rw [hc] at hends
    exact hends

theorem opens_of_isDigit {v : Value} {c : Char} (hc : isDigit c = true) : Opens v c := by
  constructor
  case space => exact isSpace_of_isDigit hc
  all_goals
    rintro rfl
    exact absurd hc (by decide)

/-- A number is spelled by its digits only. -/
theorem Laid.of_nat {n : Nat} {t : List Char} (h : Laid (.nat n) t) :
    n ≤ largestSignificand ∧ t = Nat.toDigits 10 n := by
  generalize hv : Value.nat n = v at h
  cases h with
  | nat hm =>
    injection hv with hv
    injection hv with hv
    obtain rfl := Int.ofNat.inj hv
    exact ⟨hm, rfl⟩
  | _ => exact absurd hv nofun

theorem Laid.eq_cons {v : Value} {t : List Char} (h : Laid v t) : ∃ c t', t = c :: t' ∧ Opens v c := by
  cases h with
  | null => exact ⟨'n', _, rfl, by constructor <;> simp [isSpace]⟩
  | bool b =>
    cases b with
    | false => exact ⟨'f', "alse".toList, rfl, by constructor <;> simp [isSpace]⟩
    | true => exact ⟨'t', "rue".toList, rfl, by constructor <;> simp [isSpace]⟩
  | nat hn =>
    obtain ⟨c, ds, heq, hc⟩ := toDigits_eq_cons _
    exact ⟨c, ds, heq, opens_of_isDigit hc⟩
  | string s => exact ⟨'"', _, toList_stringText s, by constructor <;> simp [isSpace]⟩
  | array h => exact ⟨'[', _, rfl, by constructor <;> simp [isSpace]⟩
  | object h => exact ⟨'\x7b', _, rfl, by constructor <;> simp [isSpace]⟩

theorem Laid.length_pos {v : Value} {t : List Char} (h : Laid v t) : 0 < t.length := by
  obtain ⟨c, t', rfl, -⟩ := h.eq_cons
  exact Nat.succ_pos _

theorem Member.length_pos {P : Value → List Char → Prop} {m : String × Value} {t : List Char} (h : Member P m t) :
    0 < t.length := by
  cases h
  rw [toList_stringText]
  exact Nat.succ_pos _

/-! ### Written forms -/

mutual

/-- A value with no numbers but natural ones that are read exactly. -/
def Value.Plain : Value → Prop
  | .number n => ∃ i : Nat, n = .integer i ∧ i ≤ largestSignificand
  | .array items => PlainItems items
  | .object members => PlainMembers members
  | _ => True

def Value.PlainItems : List Value → Prop
  | [] => True
  | v :: rest => v.Plain ∧ PlainItems rest

def Value.PlainMembers : List (String × Value) → Prop
  | [] => True
  | (_, v) :: rest => v.Plain ∧ PlainMembers rest

end

theorem Value.plain_nat {n : Nat} (hn : n < Nat.pow 2 64) : (Value.nat n).Plain := ⟨n, rfl, Nat.le_sub_one_of_lt hn⟩

theorem Value.plainItems_map {α : Type} {write : α → Value} {l : List α} (h : ∀ a ∈ l, (write a).Plain) :
    PlainItems (l.map write) := by
  induction l with
  | nil => trivial
  | cons a l ih =>
    obtain ⟨ha, hl⟩ := List.forall_mem_cons.mp h
    exact ⟨ha, ih hl⟩

theorem Value.plainMembers_iff {ms : List (String × Value)} : PlainMembers ms ↔ ∀ m ∈ ms, m.2.Plain := by
  induction ms with
  | nil => exact ⟨fun _ => nofun, fun _ => trivial⟩
  | cons m ms ih => rw [List.forall_mem_cons, ← ih, PlainMembers]

mutual

theorem Value.Plain.arranged : ∀ {v : Value}, v.Plain → v.arranged.Plain
  | .null, h | .bool _, h | .number _, h | .string _, h => h
  | .array _, h => PlainItems.arranged h
  | .object _, h => by
    have hmembers := plainMembers_iff.mp (PlainMembers.arranged h)
    exact plainMembers_iff.mpr fun m hm => hmembers m (NameMap.mem_ofList hm)

theorem Value.PlainItems.arranged : ∀ {vs : List Value}, PlainItems vs → PlainItems (arrangedItems vs)
  | [], _ => trivial
  | _ :: _, h => ⟨h.1.arranged, PlainItems.arranged h.2⟩

theorem Value.PlainMembers.arranged : ∀ {ms : List (String × Value)}, PlainMembers ms → PlainMembers (arrangedMembers ms)
  | [], _ => trivial
  | (_, _) :: _, h => ⟨h.1.arranged, PlainMembers.arranged h.2⟩

end

section Joined

variable {α : Type} {P : α → List Char → Prop} {closing : Char} {as : List α} {lines : List String} {sep close : List Char}

/-- Lines behind their separators, and the closing bracket, are a series. -/
theorem series_of_lines (hsep : Lead false sep) (hclose : Blanks close)
    (h : List.Forall₂ (fun a (s : String) => P a s.toList) as lines) :
    Series P closing false as (lines.flatMap (fun s => sep ++ s.toList) ++ (close ++ [closing])) := by
  induction h with
  | nil => exact .nil hclose
  | cons ha _ ih =>
    rw [List.flatMap_cons, List.append_assoc, List.append_assoc]
    exact .cons hsep ha ih

/-- Joined lines with blanks before and behind them are a series from its first item on. -/
theorem series_of_join {sep : String} {lead : List Char} (hlead : Blanks lead) (hsep : Lead false sep.toList) (hclose : Blanks close)
    (h : List.Forall₂ (fun a (s : String) => P a s.toList) as lines) :
    Series P closing true as (lead ++ ((Text.join sep lines).toList ++ (close ++ [closing]))) := by
  cases h with
  | nil =>
    have hnil : (Text.join sep []).toList = [] := rfl
    rw [hnil, List.nil_append, ← List.append_assoc]
    exact .nil (hlead.append hclose)
  | cons ha hrest =>
    rw [Text.toList_join_cons, List.append_assoc]
    exact .cons hlead ha (series_of_lines hsep hclose hrest)

end Joined

theorem lead_comma : Lead false ",".toList := ⟨[], [], .nil, .nil, rfl⟩

theorem blanks_lineStart (level : Nat) : Blanks (Value.lineStart level).toList := by
  intro c hc
  rw [Value.lineStart, String.toList_ofList] at hc
  rcases List.mem_cons.mp hc with rfl | hc
  · rfl
  · rw [List.eq_of_mem_replicate hc]
    rfl

theorem lead_lineStart (level : Nat) : Lead false ("," ++ Value.lineStart level).toList :=
  ⟨[], _, .nil, blanks_lineStart level, by rw [String.toList_append]; rfl⟩

mutual

/-- The form on one line is a layout. -/
theorem laid_compact : ∀ {v : Value}, v.Plain → Laid v v.compact.toList
  | .null, _ => .null
  | .bool b, _ => .bool b
  | .number n, h => by
    obtain ⟨i, rfl, hi⟩ := h
    have htext : (Value.compact (.number (.integer i))).toList = Nat.toDigits 10 i := toList_toString_nat i
    rw [htext]
    exact .nat hi
  | .string s, _ => .string s
  | .array items, h => by
    rw [Value.compact, String.toList_append, String.toList_append, List.append_assoc]
    exact .array (series_of_join .nil lead_comma .nil (laid_compactItems h))
  | .object members, h => by
    rw [Value.compact, String.toList_append, String.toList_append, List.append_assoc]
    exact .object (series_of_join .nil lead_comma .nil (laid_compactMembers h))

theorem laid_compactItems : ∀ {vs : List Value}, Value.PlainItems vs →
    List.Forall₂ (fun v (s : String) => Laid v s.toList) vs (Value.compactItems vs)
  | [], _ => .nil
  | _ :: _, h => .cons (laid_compact h.1) (laid_compactItems h.2)

theorem laid_compactMembers : ∀ {ms : List (String × Value)}, Value.PlainMembers ms →
    List.Forall₂ (fun m (s : String) => Member Laid m s.toList) ms (Value.compactMembers ms)
  | [], _ => .nil
  | (key, v) :: _, h => by
    refine .cons ?_ (laid_compactMembers h.2)
    rw [String.toList_append, String.toList_append, List.append_assoc]
    have hnone : Blanks [] := .nil
    exact .mk hnone hnone (laid_compact h.1)

end

/-- A block is its lines, joined with a comma at the end of each, between blanks. -/
theorem toList_block (opening closing : String) (level : Nat) (lines : List String) :
    ∃ lead close, Blanks lead ∧ Blanks close ∧ (Value.block opening closing level lines).toList =
      opening.toList ++
        (lead ++ ((Text.join ("," ++ Value.lineStart (level + 1)) lines).toList ++ (close ++ closing.toList))) := by
  unfold Value.block
  split
  · next h =>
    rw [List.isEmpty_iff.mp h]
    exact ⟨[], [], .nil, .nil, by rw [String.toList_append]; rfl⟩
  · refine ⟨_, _, blanks_lineStart (level + 1), blanks_lineStart level, ?_⟩
    simp only [String.toList_append, List.append_assoc]

mutual

/-- The form over several lines is a layout. -/
theorem laid_prettyAt : ∀ (level : Nat) {v : Value}, v.Plain → Laid v (v.prettyAt level).toList
  | _, .null, h | _, .bool _, h | _, .number _, h | _, .string _, h => laid_compact h
  | level, .array items, h => by
    obtain ⟨lead, close, hlead, hclose, htext⟩ :=
      toList_block "[" "]" level (Value.prettyItems (level + 1) items)
    rw [Value.prettyAt, htext]
    exact .array (series_of_join hlead (lead_lineStart _) hclose (laid_prettyItems (level + 1) h))
  | level, .object members, h => by
    obtain ⟨lead, close, hlead, hclose, htext⟩ :=
      toList_block "\x7b" "\x7d" level (Value.prettyMembers (level + 1) members)
    rw [Value.prettyAt, htext]
    exact .object (series_of_join hlead (lead_lineStart _) hclose (laid_prettyMembers (level + 1) h))

theorem laid_prettyItems : ∀ (level : Nat) {vs : List Value}, Value.PlainItems vs →
    List.Forall₂ (fun v (s : String) => Laid v s.toList) vs (Value.prettyItems level vs)
  | _, [], _ => .nil
  | level, _ :: _, h => .cons (laid_prettyAt level h.1) (laid_prettyItems level h.2)

theorem laid_prettyMembers : ∀ (level : Nat) {ms : List (String × Value)}, Value.PlainMembers ms →
    List.Forall₂ (fun m (s : String) => Member Laid m s.toList) ms (Value.prettyMembers level ms)
  | _, [], _ => .nil
  | level, (key, v) :: _, h => by
    refine .cons ?_ (laid_prettyMembers level h.2)
    rw [String.toList_append, String.toList_append, List.append_assoc]
    have hnone : Blanks [] := .nil
    have hspace : Blanks [' '] := by simp [Blanks, isSpace]
    exact .mk hnone hspace (laid_prettyAt level h.1)

end

theorem laid_pretty {v : Value} (h : v.Plain) : Laid v v.pretty.toList := laid_prettyAt 0 h

/-! ### Between the pieces -/

section Pieces

variable {first : Bool} {b lead t rest : List Char} {v : Value}

theorem skipBlanks_mark {c : Char} (hb : Blanks b) (hc : isSpace c = false) : skipBlanks (b ++ c :: rest) = c :: rest := by
  rw [skipBlanks_append hb, skipBlanks_cons hc]

theorem skipBlanks_laid (hb : Blanks b) (hv : Laid v t) (rest : List Char) :
    ∃ c l, t ++ rest = c :: l ∧ Opens v c ∧ skipBlanks (b ++ (t ++ rest)) = c :: l := by
  obtain ⟨c, t', rfl, hc⟩ := hv.eq_cons
  exact ⟨c, t' ++ rest, rfl, hc, skipBlanks_mark hb hc.space⟩

theorem nextItem_lead (hlead : Lead first lead) (hv : Laid v t) (rest : List Char) :
    nextItem first (lead ++ (t ++ rest)) = .ok (some (t ++ rest)) := by
  cases first with
  | true =>
    obtain ⟨c, l, heq, hc, hskip⟩ := skipBlanks_laid hlead hv rest
    simp only [nextItem, hskip, if_neg hc.bracket, if_true]
    rw [heq]
  | false =>
    obtain ⟨b, b', hb, hb', rfl⟩ := hlead
    obtain ⟨c, l, heq, hc, hskip⟩ := skipBlanks_laid hb' hv rest
    have hcomma : skipBlanks (b ++ ',' :: b' ++ (t ++ rest)) = ',' :: (b' ++ (t ++ rest)) := by
      rw [List.append_assoc, List.cons_append]
      exact skipBlanks_mark hb rfl
    simp only [nextItem, hcomma, hskip, if_neg hc.bracket]
    rw [heq]
    rfl

theorem nextItem_end (hb : Blanks b) : nextItem first (b ++ ']' :: rest) = .ok none := by
  simp [nextItem, skipBlanks_mark hb (show isSpace ']' = false from rfl)]

theorem afterBracket_end (hb : Blanks b) : afterBracket (b ++ ']' :: rest) = rest := by
  simp [afterBracket, skipBlanks_mark hb (show isSpace ']' = false from rfl)]

/-- A key is read however it is spelled. -/
theorem nextKey_spells (hlead : Lead first lead) {key : String} {k : List Char} (hk : Spells key.toList k)
    (rest : List Char) : nextKey first (lead ++ '"' :: (k ++ '"' :: rest)) = .ok (some (key, rest)) := by
  have hkey : scanKey ('"' :: (k ++ '"' :: rest)) = .ok (key, rest) := by
    rw [scanKey, if_pos rfl, scanString_spells hk]
  cases first with
  | true => simp [nextKey, skipBlanks_mark hlead (show isSpace '"' = false from rfl), hkey, Except.map]
  | false =>
    obtain ⟨b, b', hb, hb', rfl⟩ := hlead
    rw [List.append_assoc, List.cons_append]
    simp [nextKey, skipBlanks_mark hb (show isSpace ',' = false from rfl),
      skipBlanks_mark hb' (show isSpace '"' = false from rfl), hkey, Except.map]

theorem nextKey_lead (hlead : Lead first lead) (key : String) (rest : List Char) :
    nextKey first (lead ++ ((stringText key).toList ++ rest)) = .ok (some (key, rest)) := by
  rw [toList_stringText, List.cons_append, List.append_assoc, List.singleton_append]
  exact nextKey_spells hlead (spells_escaped key.toList) rest

theorem nextKey_end (hb : Blanks b) : nextKey first (b ++ '\x7d' :: rest) = .ok none := by
  simp [nextKey, skipBlanks_mark hb (show isSpace '\x7d' = false from rfl)]

theorem afterBrace_end (hb : Blanks b) : afterBrace (b ++ '\x7d' :: rest) = rest := by
  simp [afterBrace, skipBlanks_mark hb (show isSpace '\x7d' = false from rfl)]

theorem scanColon_mark (hb : Blanks b) : scanColon (b ++ ':' :: rest) = .ok rest := by
  simp [scanColon, skipBlanks_mark hb (show isSpace ':' = false from rfl)]

end Pieces

end Json
end PageWidgets
