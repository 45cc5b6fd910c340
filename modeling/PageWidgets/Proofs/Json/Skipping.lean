import PageWidgets.Proofs.Json.Layout

/-! Values nobody asked for are passed over, whatever they are: every text that the grammar makes a value, with lone
    surrogates in its strings and numbers of any size. The scanner keeps the open brackets on a stack and does one step
    for each piece; a value takes fewer steps than twice its characters, so the fuel that a text is given for its length
    is always enough. -/

namespace PageWidgets
namespace Json

/-! ### The grammar -/

/-- A member of an object nobody asked for: its name between quotes, a colon between blanks, and the text of its value. -/
inductive Pair : List Char × List Char → List Char → Prop
  | mk {name t b b' : List Char} (hname : Quoted name) (hb : Blanks b) (hb' : Blanks b') :
      Pair (name, t) ('"' :: (name ++ '"' :: (b ++ ':' :: (b' ++ t))))

/-- The text is a value. -/
inductive Valid : List Char → Prop
  | null : Valid "null".toList
  | bool (b : Bool) : Valid (wordText b).toList
  | number {t : List Char} (ht : Numeral t) : Valid t
  | negative {t : List Char} (ht : Numeral t) : Valid ('-' :: t)
  | string {t : List Char} (ht : Quoted t) : Valid ('"' :: (t ++ ['"']))
  | array {items : List (List Char)} {l : List Char} (hl : Series Eq ']' true items l) (h : ∀ t ∈ items, Valid t) :
      Valid ('[' :: l)
  | object {members : List (List Char × List Char)} {l : List Char} (hl : Series Pair '\x7d' true members l)
      (h : ∀ m ∈ members, Valid m.2) : Valid ('\x7b' :: l)

theorem Member.pair {m : String × Value} {t : List Char} (h : Member Laid m t) : ∃ p, Pair p t ∧ Laid m.2 p.2 := by
  obtain @⟨key, v, b, b', u, hb, hb', hv⟩ := h
  refine ⟨(key.toList.flatMap escapeChar, u), ?_, hv⟩
  rw [toList_stringText, List.cons_append, List.append_assoc, List.singleton_append]
  exact .mk (spells_escaped key.toList).quoted hb hb'

theorem Valid.eq_cons {t : List Char} (h : Valid t) : ∃ c t', t = c :: t' ∧ isSpace c = false ∧ c ≠ ']' := by
  cases h with
  | null => exact ⟨'n', _, rfl, by decide⟩
  | bool b =>
    cases b with
    | false => exact ⟨'f', "alse".toList, rfl, by decide⟩
    | true => exact ⟨'t', "rue".toList, rfl, by decide⟩
  | number ht =>
    obtain ⟨c, t', rfl, hc⟩ := ht.eq_cons
    have hopens : Opens .null c := opens_of_isDigit hc
    exact ⟨c, t', rfl, hopens.space, hopens.bracket⟩
  | negative => exact ⟨'-', _, rfl, by decide⟩
  | string => exact ⟨'"', _, rfl, by decide⟩
  | array => exact ⟨'[', _, rfl, by decide⟩
  | object => exact ⟨'\x7b', _, rfl, by decide⟩

section Recast

variable {α β : Type} {P : α → List Char → Prop} {closing : Char} {first : Bool} {as : List α} {l : List Char}

theorem Series.mono {Q : α → List Char → Prop} (h : ∀ a t, P a t → Q a t) (hl : Series P closing first as l) :
    Series Q closing first as l := by
  induction hl with
  | nil hb => exact .nil hb
  | cons hlead ha _ ih => exact .cons hlead (h _ _ ha) ih

/-- A series of one kind of items is one of another kind when its items are. -/
theorem Series.recast {Q : β → List Char → Prop} {R : α → β → Prop} (h : ∀ a t, P a t → ∃ b, Q b t ∧ R a b)
    (hl : Series P closing first as l) : ∃ bs, Series Q closing first bs l ∧ ∀ b ∈ bs, ∃ a ∈ as, R a b := by
  induction hl with
  | nil hb => exact ⟨[], .nil hb, nofun⟩
  | @cons first a as lead t rest hlead ha _ ih =>
    obtain ⟨b, hb, hab⟩ := h a t ha
    obtain ⟨bs, hbs, hall⟩ := ih
    refine ⟨b :: bs, .cons hlead hb hbs, List.forall_mem_cons.mpr ⟨⟨a, List.mem_cons_self, hab⟩, fun c hc => ?_⟩⟩
    obtain ⟨d, hd, hdc⟩ := hall c hc
    exact ⟨d, List.mem_cons_of_mem a hd, hdc⟩

end Recast

mutual

/-- A layout is a value by the grammar. -/
theorem Laid.valid : ∀ {v : Value} {t : List Char}, Laid v t → Valid t
  | .null, _, h => by
    cases h
    exact .null
  | .bool b, _, h => by
    cases h
    exact .bool b
  | .number _, _, h => by
    obtain _ | _ | @⟨n, hn⟩ | _ | _ | _ := h
    exact .number (numeral_toDigits n)
  | .string s, _, h => by
    cases h
    rw [toList_stringText]
    exact .string (spells_escaped s.toList).quoted
  | .array items, _, h => by
    obtain _ | _ | _ | _ | hitems | _ := h
    obtain ⟨ts, hts, hall⟩ := hitems.recast fun v t (ht : Laid v t) => ⟨t, rfl, ht⟩
    refine .array hts fun t ht => ?_
    obtain ⟨v, hv, hvt⟩ := hall t ht
    exact valid_items items v hv hvt
  | .object members, _, h => by
    obtain _ | _ | _ | _ | _ | hmembers := h
    obtain ⟨ps, hps, hall⟩ := hmembers.recast fun m t (ht : Member Laid m t) => ht.pair
    refine .object hps fun p hp => ?_
    obtain ⟨m, hm, hmp⟩ := hall p hp
    exact valid_members members m hm hmp

theorem valid_items : ∀ (vs : List Value), ∀ v ∈ vs, ∀ {t : List Char}, Laid v t → Valid t
  | [] => nofun
  | _ :: vs => List.forall_mem_cons.mpr ⟨Laid.valid, valid_items vs⟩

theorem valid_members : ∀ (ms : List (String × Value)), ∀ m ∈ ms, ∀ {t : List Char}, Laid m.2 t → Valid t
  | [] => nofun
  | (_, _) :: ms => List.forall_mem_cons.mpr ⟨Laid.valid, valid_members ms⟩

end

/-! ### Keys -/

theorem skipKey_quoted {b lead name rest : List Char} (hlead : Blanks lead) (hname : Quoted name) (hb : Blanks b) :
    skipKey (lead ++ '"' :: (name ++ '"' :: (b ++ ':' :: rest))) = .ok rest := by
  simp only [skipKey, skipBlanks_mark hlead (show isSpace '"' = false from rfl), if_true, skipString_quoted hname, bind,
    Except.bind, scanColon_mark hb]

/-- What stands before the value of an item inside that bracket: nothing in a list, a key in an object. -/
def skipTag (b : Bracket) (l : List Char) : Except Refusal (List Char) := if b = .object then skipKey l else .ok l

/-- An item inside that bracket is passed over, in fewer steps than twice its characters. -/
structure Passed (b : Bracket) (t : List Char) : Prop where
  head : ∃ c t', t = c :: t' ∧ isSpace c = false ∧ c ≠ b.closing
  skip : ∃ n, n < 2 * t.length ∧ ∀ {fuel : Nat} {outer : List Bracket} {lead rest : List Char}, Blanks lead → Ends rest →
    ∃ l, skipTag b (lead ++ (t ++ rest)) = .ok l ∧
      skipFrom (fuel + n) .value (b :: outer) l = skipFrom fuel .separator (b :: outer) rest

/-- What lies ahead of an item. -/
def aheadOf (first : Bool) : Ahead := if first then .firstItem else .separator

section Steps

variable {b : Bracket} {outer : List Bracket} {fuel : Nat} {c : Char} {l rest : List Char}

theorem skipFrom_closing {first : Bool} (h : skipBlanks l = b.closing :: rest) :
    skipFrom (fuel + 1) (aheadOf first) (b :: outer) l = skipFrom fuel .separator outer rest := by
  cases first <;> simp [aheadOf, skipFrom, h]

theorem skipFrom_firstItem (h : skipBlanks l = c :: rest) (hc : c ≠ b.closing) :
    skipFrom (fuel + 1) .firstItem (b :: outer) l = (skipTag b (c :: rest)).bind (skipFrom fuel .value (b :: outer)) := by
  cases b <;> simp [skipFrom, h, hc, skipTag] <;> rfl

theorem skipFrom_comma (h : skipBlanks l = ',' :: rest) :
    skipFrom (fuel + 1) .separator (b :: outer) l = (skipTag b rest).bind (skipFrom fuel .value (b :: outer)) := by
  have hclosing : ',' ≠ b.closing := by cases b <;> decide
  cases b <;> simp [skipFrom, h, hclosing, skipTag] <;> rfl

end Steps

/-- Items that are passed over make a series that is passed over. -/
theorem skipFrom_series {α : Type} {P : α → List Char → Prop} {b : Bracket} {first : Bool} {as : List α} {l : List Char}
    (hl : Series P b.closing first as l) (h : ∀ a ∈ as, ∀ t, P a t → Passed b t) :
    ∃ n, n ≤ 2 * l.length ∧ ∀ {fuel : Nat} {outer : List Bracket} (rest : List Char),
      skipFrom (fuel + n) (aheadOf first) (b :: outer) (l ++ rest) = skipFrom fuel .separator outer rest := by
  have hspace : isSpace b.closing = false := by cases b <;> decide
  have hmark : b.closing = ']' ∨ b.closing = '\x7d' := by cases b <;> simp [Bracket.closing]
  induction hl with
  | @nil first bl hb =>
    refine ⟨1, by simp only [List.length_append, List.length_singleton]; omega, fun rest => ?_⟩
    exact skipFrom_closing (by rw [List.append_assoc]; exact skipBlanks_mark hb hspace)
  | @cons first a as lead t l hlead ha hrest ih =>
    obtain ⟨⟨c, t', ht, hc, hclosing⟩, n, hn, hskip⟩ := h a List.mem_cons_self t ha
    obtain ⟨m, hm, hnext⟩ := ih fun a ha => h a (List.mem_cons_of_mem _ ha)
    refine ⟨m + n + 1, by simp only [List.length_append]; omega, fun {fuel outer} rest => ?_⟩
    have hends := hrest.ends hmark rest
    rw [← Nat.add_assoc, ← Nat.add_assoc, List.append_assoc, List.append_assoc]
    cases first with
    | true =>
      obtain ⟨l', htag, hvalue⟩ := @hskip (fuel + m) outer [] _ .nil hends
      have hfirst : skipBlanks (lead ++ (t ++ (l ++ rest))) = c :: (t' ++ (l ++ rest)) := by
        rw [ht]
        exact skipBlanks_mark hlead hc
      rw [ht] at htag
      calc skipFrom (fuel + m + n + 1) (aheadOf true) (b :: outer) (lead ++ (t ++ (l ++ rest)))
        _ = (skipTag b (c :: (t' ++ (l ++ rest)))).bind (skipFrom (fuel + m + n) .value (b :: outer)) :=
          skipFrom_firstItem hfirst hclosing
        _ = skipFrom (fuel + m + n) .value (b :: outer) l' := congrArg (Except.bind · _) htag
        _ = skipFrom (fuel + m) .separator (b :: outer) (l ++ rest) := hvalue
        _ = skipFrom fuel .separator outer rest := hnext rest
    | false =>
      obtain ⟨bl, bl', hbl, hbl', rfl⟩ := hlead
      obtain ⟨l', htag, hvalue⟩ := @hskip (fuel + m) outer bl' _ hbl' hends
      have hcomma : skipBlanks (bl ++ ',' :: bl' ++ (t ++ (l ++ rest))) = ',' :: (bl' ++ (t ++ (l ++ rest))) := by
        rw [List.append_assoc]
        exact skipBlanks_mark hbl rfl
      calc skipFrom (fuel + m + n + 1) (aheadOf false) (b :: outer) (bl ++ ',' :: bl' ++ (t ++ (l ++ rest)))
        _ = (skipTag b (bl' ++ (t ++ (l ++ rest)))).bind (skipFrom (fuel + m + n) .value (b :: outer)) :=
          skipFrom_comma hcomma
        _ = skipFrom (fuel + m + n) .value (b :: outer) l' := congrArg (Except.bind · _) htag
        _ = skipFrom (fuel + m) .separator (b :: outer) (l ++ rest) := hvalue
        _ = skipFrom fuel .separator outer rest := hnext rest

/-! ### Values -/

/-- A value is passed over, in fewer steps than twice its characters. -/
def Skipped (t : List Char) : Prop :=
  ∃ n, n < 2 * t.length ∧ ∀ {fuel : Nat} {outer : List Bracket} {lead rest : List Char}, Blanks lead → Ends rest →
    skipFrom (fuel + n) .value outer (lead ++ (t ++ rest)) = skipFrom fuel .separator outer rest

theorem Skipped.passed {t : List Char} (h : Skipped t) (ht : Valid t) : Passed .list t := by
  obtain ⟨c, t', rfl, hspace, hbracket⟩ := ht.eq_cons
  obtain ⟨n, hn, hskip⟩ := h
  exact ⟨⟨c, t', rfl, hspace, hbracket⟩, n, hn, fun hlead hrest => ⟨_, rfl, hskip hlead hrest⟩⟩

theorem Skipped.passed_pair {p : List Char × List Char} {t : List Char} (h : Skipped p.2) (hp : Pair p t) :
    Passed .object t := by
  obtain @⟨name, u, b, b', hname, hb, hb'⟩ := hp
  obtain ⟨n, hn, hskip⟩ := h
  refine ⟨⟨'"', _, rfl, rfl, by decide⟩, n, ?_, fun {fuel outer lead rest} hlead hrest => ?_⟩
  · simp only [List.length_append, List.length_cons] at hn ⊢
    omega
  · refine ⟨b' ++ (u ++ rest), ?_, hskip hb' hrest⟩
    simp only [List.append_assoc, List.cons_append]
    exact skipKey_quoted hlead hname hb

/-- A scalar is passed over in one step. -/
theorem Skipped.of_step {t : List Char} (ht : 0 < t.length)
    (h : ∀ {fuel : Nat} {outer : List Bracket} {lead rest : List Char}, Blanks lead → Ends rest →
      skipFrom (fuel + 1) .value outer (lead ++ (t ++ rest)) = skipFrom fuel .separator outer rest) : Skipped t :=
  ⟨1, by omega, h⟩

theorem skipped_null : Skipped "null".toList :=
  .of_step (by decide) fun {fuel outer lead rest} hlead _ => by
    have hskip : skipBlanks (lead ++ ("null".toList ++ rest)) = 'n' :: 'u' :: 'l' :: 'l' :: rest := skipBlanks_mark hlead rfl
    simp only [skipFrom, hskip]
    rfl

theorem skipped_wordText (b : Bool) : Skipped (wordText b).toList := by
  cases b with
  | true =>
    refine .of_step (by decide) fun {fuel outer lead rest} hlead _ => ?_
    have hskip : skipBlanks (lead ++ ((wordText true).toList ++ rest)) = 't' :: 'r' :: 'u' :: 'e' :: rest :=
      skipBlanks_mark hlead rfl
    simp only [skipFrom, hskip]
    rfl
  | false =>
    refine .of_step (by decide) fun {fuel outer lead rest} hlead _ => ?_
    have hskip : skipBlanks (lead ++ ((wordText false).toList ++ rest)) = 'f' :: 'a' :: 'l' :: 's' :: 'e' :: rest :=
      skipBlanks_mark hlead rfl
    simp only [skipFrom, hskip]
    rfl

theorem skipped_numeral {t : List Char} (ht : Numeral t) : Skipped t := by
  obtain ⟨c, t', rfl, hc⟩ := ht.eq_cons
  refine .of_step (Nat.succ_pos _) fun {fuel outer lead rest} hlead hrest => ?_
  have hnumber := skipUnsigned_numeral ht hrest
  rw [List.cons_append] at hnumber ⊢
  have hword : c ≠ 'n' ∧ c ≠ 't' ∧ c ≠ 'f' ∧ c ≠ '-' := by
    refine ⟨?_, ?_, ?_, ?_⟩ <;> · rintro rfl; exact absurd hc (by decide)
  obtain ⟨hn, ht, hf, hminus⟩ := hword
  simp [skipFrom, skipBlanks_mark hlead (isSpace_of_isDigit hc), hn, ht, hf, hminus, hc, hnumber, bind, Except.bind]

theorem skipped_negative {t : List Char} (ht : Numeral t) : Skipped ('-' :: t) :=
  .of_step (Nat.succ_pos _) fun {fuel outer lead rest} hlead hrest => by
    simp [skipFrom, skipBlanks_mark hlead (show isSpace '-' = false from rfl), skipUnsigned_numeral ht hrest, bind,
      Except.bind]

theorem skipped_quoted {t : List Char} (ht : Quoted t) : Skipped ('"' :: (t ++ ['"'])) :=
  .of_step (Nat.succ_pos _) fun {fuel outer lead rest} hlead hrest => by
    rw [List.cons_append, List.append_assoc, List.singleton_append]
    simp [skipFrom, skipBlanks_mark hlead (show isSpace '"' = false from rfl), skipString_quoted ht, bind, Except.bind,
      isDigit]

/-- A bracket and a series that is passed over. -/
theorem Skipped.of_series {α : Type} {P : α → List Char → Prop} {b : Bracket} {opening : Char} {as : List α}
    {l : List Char} (hl : Series P b.closing true as l) (h : ∀ a ∈ as, ∀ t, P a t → Passed b t)
    (hopen : ∀ {fuel : Nat} {outer : List Bracket} {lead rest : List Char}, Blanks lead →
      skipFrom (fuel + 1) .value outer (lead ++ opening :: rest) = skipFrom fuel .firstItem (b :: outer) rest) :
    Skipped (opening :: l) := by
  obtain ⟨n, hn, hskip⟩ := skipFrom_series hl h
  refine ⟨n + 1, by simp only [List.length_cons]; omega, fun {fuel outer lead rest} hlead _ => ?_⟩
  rw [List.cons_append, ← Nat.add_assoc, hopen hlead]
  exact hskip rest

theorem skipFrom_bracket {fuel : Nat} {outer : List Bracket} {lead rest : List Char} (hlead : Blanks lead) :
    skipFrom (fuel + 1) .value outer (lead ++ '[' :: rest) = skipFrom fuel .firstItem (.list :: outer) rest := by
  simp [skipFrom, skipBlanks_mark hlead (show isSpace '[' = false from rfl), isDigit]

theorem skipFrom_brace {fuel : Nat} {outer : List Bracket} {lead rest : List Char} (hlead : Blanks lead) :
    skipFrom (fuel + 1) .value outer (lead ++ '\x7b' :: rest) = skipFrom fuel .firstItem (.object :: outer) rest := by
  simp [skipFrom, skipBlanks_mark hlead (show isSpace '\x7b' = false from rfl), isDigit]

theorem Valid.skipped {t : List Char} (h : Valid t) : Skipped t := by
  induction h with
  | null => exact skipped_null
  | bool b => exact skipped_wordText b
  | number ht => exact skipped_numeral ht
  | negative ht => exact skipped_negative ht
  | string ht => exact skipped_quoted ht
  | array hl h ih =>
    refine .of_series (b := .list) hl (fun t ht u hu => ?_) skipFrom_bracket
    subst hu
    exact (ih t ht).passed (h t ht)
  | object hl h ih => exact .of_series (b := .object) hl (fun p hp _ ht => (ih p hp).passed_pair ht) skipFrom_brace

/-- Whatever stands there is passed over. -/
theorem skipValue_valid {lead t rest : List Char} (hlead : Blanks lead) (ht : Valid t) (hrest : Ends rest) :
    skipValue (lead ++ (t ++ rest)) = .ok rest := by
  obtain ⟨n, hn, hskip⟩ := ht.skipped
  have hfuel : 2 * (lead ++ (t ++ rest)).length + 2 = (2 * (lead ++ (t ++ rest)).length + 1 - n + 1) + n := by
    simp only [List.length_append]
    omega
  rw [skipValue, hfuel, hskip hlead hrest]
  rfl

end Json
end PageWidgets
