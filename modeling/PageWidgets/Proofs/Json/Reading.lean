import PageWidgets.Proofs.Json.Skipping

/-! Readers and layouts. A reader takes a value when it reads the value itself and every layout of it alike, from the
    front of any text that goes on as a text may behind a value. Scalars are taken by their readers; lists, maps and
    records are taken when what they hold is. Values that nobody asked for are passed over. -/

namespace PageWidgets
namespace Json

namespace Reader

variable {α β : Type} {r : Reader α} {v : Value} {a : α}

/-- The reader reads the value, and every layout of it, as `a`. -/
structure Takes (r : Reader α) (v : Value) (a : α) : Prop where
  value : r.value v = .ok a
  text : ∀ {b t rest : List Char}, Blanks b → Laid v t → Ends rest → r.text (b ++ (t ++ rest)) = .ok (a, rest)

/-- The reader reads every such text, behind blanks and before what may follow a value, as `a`. -/
def Reads (r : Reader α) (P : List Char → Prop) (a : α) : Prop :=
  ∀ ⦃b t rest : List Char⦄, Blanks b → P t → Ends rest → r.text (b ++ (t ++ rest)) = .ok (a, rest)

theorem Takes.reads (h : r.Takes v a) : r.Reads (Laid v) a := fun _ _ _ hb ht hrest => h.text hb ht hrest

theorem Reads.map {P : List Char → Prop} (h : r.Reads P a) (f : α → β) : (r.map f).Reads P (f a) :=
  fun _ _ _ hb ht hrest => by simp only [Reader.map, h hb ht hrest]

/-- A whole text of that kind is read, with blanks at its ends. -/
theorem Reads.parse {P : List Char → Prop} (h : r.Reads P a) {text : String} {b t b' : List Char} (hb : Blanks b)
    (ht : P t) (hb' : Blanks b') (htext : text.toList = b ++ (t ++ b')) : r.parse text = .ok a := by
  have hends : Ends b' := by simpa using hb'.ends .nil
  have hskip : skipBlanks b' = [] := by simpa [skipBlanks] using skipBlanks_append hb' []
  simp only [Reader.parse, htext, h hb ht hends, hskip]

theorem Takes.convert (h : r.Takes v a) : r.convert v = .ok a := by rw [Reader.convert, h.value]

/-- A whole text that is a layout is read. -/
theorem Takes.parse (h : r.Takes v a) {text : String} (ht : Laid v text.toList) : r.parse text = .ok a :=
  h.reads.parse .nil ht .nil (List.append_nil _).symm

/-! ### Scalars -/

/-- A string between its quotes. -/
inductive InQuotes (s : String) : List Char → Prop
  | mk {t : List Char} (ht : Spells s.toList t) : InQuotes s ('"' :: (t ++ ['"']))

theorem string_reads (s : String) : Reader.string.Reads (InQuotes s) s := by
  rintro b _ rest hb ⟨ht⟩ hrest
  rw [List.cons_append, List.append_assoc]
  simp only [Reader.string, skipBlanks_mark hb (show isSpace '"' = false from rfl), if_pos]
  exact scanString_spells ht rest

theorem string_takes (s : String) : Reader.string.Takes (.string s) s where
  value := rfl
  text hb ht hrest := by
    cases ht
    rw [toList_stringText]
    exact string_reads s hb (.mk (spells_escaped s.toList)) hrest

theorem bool_takes (b : Bool) : Reader.bool.Takes (.bool b) b where
  value := rfl
  text := by
    intro bl t rest hb ht hrest
    cases ht
    cases b with
    | true =>
      have hskip : skipBlanks (bl ++ ((wordText true).toList ++ rest)) = 't' :: 'r' :: 'u' :: 'e' :: rest :=
        skipBlanks_mark hb rfl
      simp only [Reader.bool, hskip]
      rfl
    | false =>
      have hskip : skipBlanks (bl ++ ((wordText false).toList ++ rest)) = 'f' :: 'a' :: 'l' :: 's' :: 'e' :: rest :=
        skipBlanks_mark hb rfl
      simp only [Reader.bool, hskip]
      rfl

theorem naturalOf_nat {wanted : String} {bound n : Nat} (hn : n ≤ bound) : naturalOf wanted bound (.integer n) = .ok n := by
  simp [naturalOf, hn]

theorem natural_takes {wanted : String} {bound n : Nat} (hn : n ≤ bound) :
    (Reader.natural wanted bound).Takes (.nat n) n where
  value := naturalOf_nat hn
  text := by
    intro b t rest hb ht hrest
    obtain ⟨hle, rfl⟩ := ht.of_nat
    obtain ⟨c, ds, heq, hc⟩ := toDigits_eq_cons n
    have hscan := scanNumber_toDigits hle hrest
    rw [heq, List.cons_append] at hscan ⊢
    simp only [Reader.natural, skipBlanks_mark hb (isSpace_of_isDigit hc), hc, or_true, if_true, hscan, naturalOf_nat hn]

theorem Takes.map (h : r.Takes v a) (f : α → β) : (r.map f).Takes v (f a) where
  value := by simp only [Reader.map, h.value]
  text hb ht hrest := by simp only [Reader.map, h.text hb ht hrest]

theorem optional_takes_null : (Reader.optional r).Takes .null none where
  value := rfl
  text := by
    intro b t rest hb ht hrest
    cases ht
    have hskip : skipBlanks (b ++ ("null".toList ++ rest)) = 'n' :: 'u' :: 'l' :: 'l' :: rest := skipBlanks_mark hb rfl
    simp only [Reader.optional, hskip]
    rfl

theorem Takes.optional (h : r.Takes v a) (hv : v ≠ .null) : (Reader.optional r).Takes v (some a) where
  value := by
    cases v with
    | null => exact absurd rfl hv
    | _ => exact (h.map some).value
  text := by
    intro b t rest hb ht hrest
    obtain ⟨c, l, heq, hc, hskip⟩ := skipBlanks_laid hb ht rest
    have hread : (r.map some).text (t ++ rest) = .ok (some a, rest) := (h.map some).text .nil ht hrest
    have hn : c ≠ 'n' := fun hcn => hv (hc.null hcn)
    rw [heq] at hread
    simp only [Reader.optional, hskip, if_neg hn, hread]

/-- A value that may be missing is taken when it is there and not null. -/
theorem optional_takes {write : α → Value} (h : ∀ a, r.Takes (write a) a) (hwrite : ∀ a, write a ≠ .null)
    (o : Option α) : (Reader.optional r).Takes (.optional write o) o := by
  cases o with
  | none => exact optional_takes_null
  | some a => exact (h a).optional (hwrite a)

/-! ### Lists and maps -/

theorem listItems_series {first : Bool} {vs : List Value} {as : List α} {l : List Char}
    (hl : Series Laid ']' first vs l) : ∀ {fuel : Nat}, List.Forall₂ r.Takes vs as → vs.length < fuel →
      ∀ rest, r.listItems fuel first (l ++ rest) = .ok (as, rest) := by
  induction hl generalizing as with
  | nil hb =>
    intro fuel h hfuel rest
    obtain ⟨fuel, rfl⟩ : ∃ n, fuel = n + 1 := ⟨fuel - 1, by omega⟩
    cases h
    simp only [Reader.listItems, List.append_assoc, List.singleton_append, nextItem_end hb, afterBracket_end hb]
  | cons hlead hv hrest ih =>
    intro fuel h hfuel rest
    obtain ⟨fuel, rfl⟩ : ∃ n, fuel = n + 1 := ⟨fuel - 1, by omega⟩
    obtain _ | ⟨ha, has⟩ := h
    have hends := hrest.ends (.inl rfl) rest
    have hread := ha.text .nil hv hends
    rw [List.nil_append] at hread
    simp only [Reader.listItems, List.append_assoc, nextItem_lead hlead hv, hread, ih has (by simpa using hfuel)]

theorem listValues_takes {vs : List Value} {as : List α} (h : List.Forall₂ r.Takes vs as) :
    r.listValues vs = .ok as := by
  induction h with
  | nil => rfl
  | cons ha _ ih => simp only [Reader.listValues, ha.value, ih, Except.map]

theorem list_takes {vs : List Value} {as : List α} (h : List.Forall₂ r.Takes vs as) :
    (Reader.list r).Takes (.array vs) as where
  value := listValues_takes h
  text := by
    intro b t rest hb ht hrest
    obtain _ | _ | _ | _ | hitems | _ := ht
    have hlen := hitems.length_lt fun _ _ => Laid.length_pos
    rw [List.cons_append]
    simp only [Reader.list, skipBlanks_mark hb (show isSpace '[' = false from rfl), if_true]
    exact listItems_series hitems h (by simp only [List.length_append]; omega) rest

theorem dictMembers_series {first : Bool} {ms : List (String × Value)} {es : List (String × α)} {l : List Char}
    (hl : Series (Member Laid) '\x7d' first ms l) :
    ∀ {fuel : Nat} {m : NameMap α}, List.Forall₂ (fun x e => x.1 = e.1 ∧ r.Takes x.2 e.2) ms es → ms.length < fuel →
      ∀ rest, r.dictMembers fuel first m (l ++ rest) = .ok (es.foldl (fun m e => m.insert e.1 e.2) m, rest) := by
  induction hl generalizing es with
  | nil hb =>
    intro fuel m h hfuel rest
    obtain ⟨fuel, rfl⟩ : ∃ n, fuel = n + 1 := ⟨fuel - 1, by omega⟩
    cases h
    simp only [Reader.dictMembers, List.append_assoc, List.singleton_append, nextKey_end hb, afterBrace_end hb,
      List.foldl_nil]
  | cons hlead hm hrest ih =>
    intro fuel m h hfuel rest
    obtain ⟨fuel, rfl⟩ : ∃ n, fuel = n + 1 := ⟨fuel - 1, by omega⟩
    obtain _ | ⟨⟨hkey, ha⟩, has⟩ := h
    obtain ⟨hb, hb', hv⟩ := hm
    have hends := hrest.ends (.inr rfl) rest
    have hread := ha.text hb' hv hends
    simp only [Reader.dictMembers, List.append_assoc, List.cons_append, nextKey_lead hlead, scanColon_mark hb, hread,
      ih has (by simpa using hfuel), List.foldl_cons]
    rw [← hkey]

theorem dictValues_takes {ms : List (String × Value)} {es : List (String × α)} {m : NameMap α}
    (h : List.Forall₂ (fun x e => x.1 = e.1 ∧ r.Takes x.2 e.2) ms es) :
    r.dictValues m ms = .ok (es.foldl (fun m e => m.insert e.1 e.2) m) := by
  induction h generalizing m with
  | nil => rfl
  | cons ha _ ih =>
    obtain ⟨hkey, ha⟩ := ha
    simp only [Reader.dictValues, ha.value, ih, List.foldl_cons, hkey]

theorem dict_takes {ms : List (String × Value)} {es : List (String × α)}
    (h : List.Forall₂ (fun x e => x.1 = e.1 ∧ r.Takes x.2 e.2) ms es) :
    (Reader.dict r).Takes (.object ms) (.ofList es) where
  value := dictValues_takes h
  text := by
    intro b t rest hb ht hrest
    obtain _ | _ | _ | _ | _ | hmembers := ht
    have hlen := hmembers.length_lt fun _ _ => Member.length_pos
    rw [List.cons_append]
    simp only [Reader.dict, skipBlanks_mark hb (show isSpace '\x7b' = false from rfl), if_true]
    exact dictMembers_series hmembers h (by simp only [List.length_append]; omega) rest

end Reader

/-! ### Records -/

/-- A member under its name, however that is spelled, with a value spelled as `P` says. -/
inductive Named {ε : Type} (name : ε → String) (P : ε → List Char → Prop) : ε → List Char → Prop
  | mk {e : ε} {k b b' t : List Char} (hk : Spells (name e).toList k) (hb : Blanks b) (hb' : Blanks b') (ht : P e t) :
      Named name P e ('"' :: (k ++ '"' :: (b ++ ':' :: (b' ++ t))))

/-- An object of such members. -/
inductive Braced {ε : Type} (name : ε → String) (P : ε → List Char → Prop) (es : List ε) : List Char → Prop
  | mk {l : List Char} (hl : Series (Named name P) '\x7d' true es l) : Braced name P es ('\x7b' :: l)

theorem Named.length_pos {ε : Type} {name : ε → String} {P : ε → List Char → Prop} {e : ε} {t : List Char}
    (h : Named name P e t) : 0 < t.length := by
  cases h
  exact Nat.succ_pos _

theorem Member.named {m : String × Value} {t : List Char} (h : Member Laid m t) :
    Named (fun m => m.1) (fun m => Laid m.2) m t := by
  obtain @⟨key, v, b, b', u, hb, hb', hv⟩ := h
  rw [toList_stringText, List.cons_append, List.append_assoc, List.singleton_append]
  exact .mk (spells_escaped key.toList) hb hb' hv

namespace Shape

variable {α : Type} {s : Shape α}

/-- From the fields in `seen` and the record `a`, the members feed the record up to `a'`: every known one is read from
    whatever spells its value and is new, and in the end no field is missing. -/
inductive Feeds {ε : Type} (s : Shape α) (name : ε → String) (P : ε → List Char → Prop) :
    List String → α → List ε → α → Prop
  | done {seen : List String} {a : α} (h : s.missing? seen = none) : Feeds s name P seen a [] a
  | known {seen : List String} {a a' : α} {e : ε} {es : List ε} {slot : Slot α} {set : α → α}
      (hslot : s.slots.find? (fun slot => slot.name = name e) = some slot) (hnew : name e ∉ seen)
      (hread : slot.reader.Reads (P e) set) (hrest : Feeds s name P (name e :: seen) (set a) es a') :
      Feeds s name P seen a (e :: es) a'
  | unknown {seen : List String} {a a' : α} {e : ε} {es : List ε}
      (hslot : s.slots.find? (fun slot => slot.name = name e) = none) (hvalid : ∀ t, P e t → Valid t)
      (hrest : Feeds s name P seen a es a') : Feeds s name P seen a (e :: es) a'

section Feeds

variable {ε : Type} {name : ε → String} {P : ε → List Char → Prop}

theorem Feeds.members {seen : List String} {a a' : α} {es : List ε} (h : s.Feeds name P seen a es a') :
    ∀ {first : Bool} {fuel : Nat} {l : List Char}, Series (Named name P) '\x7d' first es l → es.length < fuel →
      ∀ rest, s.members fuel first seen a (l ++ rest) = .ok (a', rest) := by
  induction h with
  | done h =>
    intro first fuel l hl hfuel rest
    obtain ⟨fuel, rfl⟩ : ∃ n, fuel = n + 1 := ⟨fuel - 1, by omega⟩
    obtain ⟨hb⟩ := hl
    simp only [Shape.members, List.append_assoc, List.singleton_append, nextKey_end hb, h, afterBrace_end hb]
  | known hslot hnew hread _ ih =>
    intro first fuel l hl hfuel rest
    obtain ⟨fuel, rfl⟩ : ∃ n, fuel = n + 1 := ⟨fuel - 1, by omega⟩
    obtain _ | ⟨hlead, hm, hrest⟩ := hl
    obtain ⟨hk, hb, hb', ht⟩ := hm
    have hvalue := hread hb' ht (hrest.ends (.inr rfl) rest)
    simp [Shape.members, nextKey_spells hlead hk, hslot, hnew, scanColon_mark hb, hvalue, ih hrest (by simpa using hfuel)]
  | unknown hslot hvalid _ ih =>
    intro first fuel l hl hfuel rest
    obtain ⟨fuel, rfl⟩ : ∃ n, fuel = n + 1 := ⟨fuel - 1, by omega⟩
    obtain _ | ⟨hlead, hm, hrest⟩ := hl
    obtain ⟨hk, hb, hb', ht⟩ := hm
    have hskip := skipValue_valid hb' (hvalid _ ht) (hrest.ends (.inr rfl) rest)
    simp [Shape.members, nextKey_spells hlead hk, hslot, scanColon_mark hb, hskip, ih hrest (by simpa using hfuel)]

/-- Members that feed the record from nothing are read as that record. -/
theorem Feeds.reads {es : List ε} {a : α} (h : s.Feeds name P [] s.blank es a) :
    s.reader.Reads (Braced name P es) a := by
  intro b t rest hb ht hrest
  obtain ⟨hl⟩ := ht
  have hlen := hl.length_lt fun _ _ => Named.length_pos
  rw [List.cons_append]
  simp only [Shape.reader, skipBlanks_mark hb (show isSpace '\x7b' = false from rfl), if_true]
  exact h.members hl (by simp only [List.length_append]; omega) rest

end Feeds

/-- From the fields in `seen` and the record `a`, the members fill the record up to `a'`: every known one is taken and
    new, and in the end no field is missing. -/
inductive Fills (s : Shape α) : List String → α → List (String × Value) → α → Prop
  | done {seen : List String} {a : α} (h : s.missing? seen = none) : Fills s seen a [] a
  | known {seen : List String} {a a' : α} {key : String} {v : Value} {rest : List (String × Value)} {slot : Slot α}
      {set : α → α} (hslot : s.slots.find? (fun slot => slot.name = key) = some slot)
      (hnew : key ∉ seen) (hv : slot.reader.Takes v set) (hrest : Fills s (key :: seen) (set a) rest a') :
      Fills s seen a ((key, v) :: rest) a'
  | unknown {seen : List String} {a a' : α} {key : String} {v : Value} {rest : List (String × Value)}
      (hslot : s.slots.find? (fun slot => slot.name = key) = none) (hrest : Fills s seen a rest a') :
      Fills s seen a ((key, v) :: rest) a'

theorem Fills.memberValues {seen : List String} {a a' : α} {ms : List (String × Value)} (h : s.Fills seen a ms a') :
    s.memberValues seen a ms = .ok a' := by
  induction h with
  | done h => simp only [Shape.memberValues, h]
  | known hslot hnew hv _ ih => simp [Shape.memberValues, hslot, hnew, hv.value, ih]
  | unknown hslot _ ih => simp only [Shape.memberValues, hslot, ih]

theorem Fills.feeds {seen : List String} {a a' : α} {ms : List (String × Value)} (h : s.Fills seen a ms a') :
    s.Feeds (fun m => m.1) (fun m => Laid m.2) seen a ms a' := by
  induction h with
  | done h => exact .done h
  | known hslot hnew hv _ ih => exact .known hslot hnew hv.reads ih
  | unknown hslot _ ih => exact .unknown hslot (fun _ => Laid.valid) ih

/-- Members that fill the record from nothing are taken as that record. -/
theorem Fills.takes {ms : List (String × Value)} {a : α} (h : s.Fills [] s.blank ms a) :
    s.reader.Takes (.object ms) a where
  value := h.memberValues
  text hb ht hrest := by
    obtain _ | _ | _ | _ | _ | hmembers := ht
    exact h.feeds.reads hb (.mk (hmembers.mono fun _ _ => Member.named)) hrest

end Shape

/-! ### Values of every kind -/

mutual

/-- At most `depth` brackets stand one inside the other. -/
def Value.Within (depth : Nat) : Value → Prop
  | .array items => 0 < depth ∧ WithinItems (depth - 1) items
  | .object members => 0 < depth ∧ WithinMembers (depth - 1) members
  | _ => True

def Value.WithinItems (depth : Nat) : List Value → Prop
  | [] => True
  | v :: rest => v.Within depth ∧ WithinItems depth rest

def Value.WithinMembers (depth : Nat) : List (String × Value) → Prop
  | [] => True
  | (_, v) :: rest => v.Within depth ∧ WithinMembers depth rest

end

/-- The text is scanned as the value, when the fuel is twice its characters. -/
def Scanned (depth : Nat) (v : Value) (t : List Char) : Prop :=
  ∀ (fuel : Nat) (lead rest : List Char), 2 * t.length ≤ fuel → Blanks lead → Ends rest →
    scanAny fuel depth (lead ++ (t ++ rest)) = .ok (v, rest)

/-- One step is enough to say what is scanned. -/
theorem Scanned.of_step {depth : Nat} {v : Value} {t : List Char} (ht : 0 < t.length)
    (h : ∀ (fuel : Nat) (lead rest : List Char), 2 * t.length ≤ fuel + 1 → Blanks lead → Ends rest →
      scanAny (fuel + 1) depth (lead ++ (t ++ rest)) = .ok (v, rest)) : Scanned depth v t := by
  intro fuel lead rest hfuel hlead hrest
  obtain ⟨fuel, rfl⟩ : ∃ n, fuel = n + 1 := ⟨fuel - 1, by omega⟩
  exact h fuel lead rest hfuel hlead hrest

theorem scanAnyItems_series {depth : Nat} {first : Bool} {vs : List Value} {l : List Char}
    (hl : Series Laid ']' first vs l) (h : ∀ v ∈ vs, ∀ t, Laid v t → Scanned depth v t) :
    ∀ {fuel : Nat}, 2 * l.length < fuel → ∀ rest, scanAnyItems fuel depth first (l ++ rest) = .ok (vs, rest) := by
  induction hl with
  | nil hb =>
    intro fuel hfuel rest
    obtain ⟨fuel, rfl⟩ : ∃ n, fuel = n + 1 := ⟨fuel - 1, by omega⟩
    simp only [scanAnyItems, List.append_assoc, List.singleton_append, nextItem_end hb, afterBracket_end hb]
  | @cons first v vs lead t l hlead hv hrest ih =>
    intro fuel hfuel rest
    obtain ⟨fuel, rfl⟩ : ∃ n, fuel = n + 1 := ⟨fuel - 1, by omega⟩
    have hpos := hv.length_pos
    simp only [List.length_append] at hfuel
    have hread := h v List.mem_cons_self t hv fuel [] _ (by omega) .nil (hrest.ends (.inl rfl) rest)
    have hnext := @ih (fun v hv => h v (List.mem_cons_of_mem _ hv)) fuel (by omega) rest
    rw [List.nil_append] at hread
    simp only [scanAnyItems, List.append_assoc, nextItem_lead hlead hv, hread, hnext, Except.map]

theorem scanAnyMembers_series {depth : Nat} {first : Bool} {ms : List (String × Value)} {l : List Char}
    (hl : Series (Member Laid) '\x7d' first ms l) (h : ∀ m ∈ ms, ∀ t, Laid m.2 t → Scanned depth m.2 t) :
    ∀ {fuel : Nat}, 2 * l.length < fuel → ∀ rest, scanAnyMembers fuel depth first (l ++ rest) = .ok (ms, rest) := by
  induction hl with
  | nil hb =>
    intro fuel hfuel rest
    obtain ⟨fuel, rfl⟩ : ∃ n, fuel = n + 1 := ⟨fuel - 1, by omega⟩
    simp only [scanAnyMembers, List.append_assoc, List.singleton_append, nextKey_end hb, afterBrace_end hb]
  | @cons first m ms lead t l hlead hm hrest ih =>
    intro fuel hfuel rest
    obtain ⟨fuel, rfl⟩ : ∃ n, fuel = n + 1 := ⟨fuel - 1, by omega⟩
    obtain @⟨key, v, b, b', t, hb, hb', hv⟩ := hm
    simp only [List.length_append, List.length_cons] at hfuel
    have hread := h (key, v) List.mem_cons_self t hv fuel b' _ (by omega) hb' (hrest.ends (.inr rfl) rest)
    have hnext := @ih (fun m hm => h m (List.mem_cons_of_mem _ hm)) fuel (by omega) rest
    simp only [scanAnyMembers, List.append_assoc, List.cons_append, nextKey_lead hlead, scanColon_mark hb, hread, hnext,
      Except.map]

section Scalars

variable {depth : Nat}

theorem scanned_null : Scanned depth .null "null".toList := by
  refine .of_step (by decide) fun fuel lead rest _ hlead _ => ?_
  have hskip : skipBlanks (lead ++ ("null".toList ++ rest)) = 'n' :: 'u' :: 'l' :: 'l' :: rest := skipBlanks_mark hlead rfl
  simp only [scanAny, hskip]
  rfl

theorem scanned_bool (b : Bool) : Scanned depth (.bool b) (wordText b).toList := by
  cases b with
  | true =>
    refine .of_step (by decide) fun fuel lead rest _ hlead _ => ?_
    have hskip : skipBlanks (lead ++ ((wordText true).toList ++ rest)) = 't' :: 'r' :: 'u' :: 'e' :: rest :=
      skipBlanks_mark hlead rfl
    simp only [scanAny, hskip]
    rfl
  | false =>
    refine .of_step (by decide) fun fuel lead rest _ hlead _ => ?_
    have hskip : skipBlanks (lead ++ ((wordText false).toList ++ rest)) = 'f' :: 'a' :: 'l' :: 's' :: 'e' :: rest :=
      skipBlanks_mark hlead rfl
    simp only [scanAny, hskip]
    rfl

theorem scanned_nat {n : Nat} (hn : n ≤ largestSignificand) : Scanned depth (.nat n) (Nat.toDigits 10 n) := by
  obtain ⟨c, ds, heq, hc⟩ := toDigits_eq_cons n
  refine .of_step (by rw [heq]; exact Nat.succ_pos _) fun fuel lead rest _ hlead hrest => ?_
  have hnumber := scanNumber_toDigits hn hrest
  have hword : c ≠ 'n' ∧ c ≠ 't' ∧ c ≠ 'f' := by
    refine ⟨?_, ?_, ?_⟩ <;> · rintro rfl; exact absurd hc (by decide)
  obtain ⟨hn, ht, hf⟩ := hword
  rw [heq, List.cons_append] at hnumber ⊢
  simp [scanAny, skipBlanks_mark hlead (isSpace_of_isDigit hc), hn, ht, hf, hc, hnumber, Except.map, Value.nat]

theorem scanned_string (s : String) : Scanned depth (.string s) (stringText s).toList := by
  refine .of_step (by rw [toList_stringText]; exact Nat.succ_pos _) fun fuel lead rest _ hlead _ => ?_
  have hstring := scanString_escaped s rest
  rw [toList_stringText, List.cons_append, List.append_assoc, List.singleton_append]
  simp [scanAny, skipBlanks_mark hlead (show isSpace '"' = false from rfl), hstring, Except.map, isDigit]

end Scalars

mutual

/-- A layout is scanned as its value, unless brackets stand too deep in it. -/
theorem scanned_laid : ∀ {depth : Nat} {v : Value} {t : List Char}, v.Within depth → Laid v t → Scanned depth v t
  | _, .null, _, _, h => by
    cases h
    exact scanned_null
  | _, .bool b, _, _, h => by
    cases h
    exact scanned_bool b
  | _, .number _, _, _, h => by
    obtain _ | _ | hn | _ | _ | _ := h
    exact scanned_nat hn
  | _, .string s, _, _, h => by
    cases h
    exact scanned_string s
  | depth, .array items, _, hdepth, h => by
    obtain _ | _ | _ | _ | @⟨_, l, hitems⟩ | _ := h
    obtain ⟨hpos, hwithin⟩ := hdepth
    obtain ⟨depth, rfl⟩ : ∃ n, depth = n + 1 := ⟨depth - 1, by omega⟩
    refine .of_step (Nat.succ_pos _) fun fuel lead rest hfuel hlead _ => ?_
    rw [List.length_cons] at hfuel
    have hread : scanAnyItems fuel depth true (l ++ rest) = .ok (items, rest) :=
      scanAnyItems_series hitems (scanned_items hwithin) (by omega) rest
    simp [scanAny, skipBlanks_mark hlead (show isSpace '[' = false from rfl), hread, Except.map, isDigit]
  | depth, .object members, _, hdepth, h => by
    obtain _ | _ | _ | _ | _ | @⟨_, l, hmembers⟩ := h
    obtain ⟨hpos, hwithin⟩ := hdepth
    obtain ⟨depth, rfl⟩ : ∃ n, depth = n + 1 := ⟨depth - 1, by omega⟩
    refine .of_step (Nat.succ_pos _) fun fuel lead rest hfuel hlead _ => ?_
    rw [List.length_cons] at hfuel
    have hread : scanAnyMembers fuel depth true (l ++ rest) = .ok (members, rest) :=
      scanAnyMembers_series hmembers (scanned_members hwithin) (by omega) rest
    simp [scanAny, skipBlanks_mark hlead (show isSpace '\x7b' = false from rfl), hread, Except.map, isDigit]

theorem scanned_items : ∀ {depth : Nat} {vs : List Value}, Value.WithinItems depth vs →
    ∀ v ∈ vs, ∀ t, Laid v t → Scanned depth v t
  | _, [], _ => nofun
  | _, _ :: _, h => List.forall_mem_cons.mpr ⟨fun _ ht => scanned_laid h.1 ht, scanned_items h.2⟩

theorem scanned_members : ∀ {depth : Nat} {ms : List (String × Value)}, Value.WithinMembers depth ms →
    ∀ m ∈ ms, ∀ t, Laid m.2 t → Scanned depth m.2 t
  | _, [], _ => nofun
  | _, (_, _) :: _, h => List.forall_mem_cons.mpr ⟨fun _ ht => scanned_laid h.1 ht, scanned_members h.2⟩

end

theorem Reader.any_takes {depth : Nat} {v : Value} (h : v.Within depth) : (Reader.any depth).Takes v v where
  value := rfl
  text := by
    intro lead t rest hlead ht hrest
    exact scanned_laid h ht _ lead rest (by simp only [List.length_append]; omega) hlead hrest

end Json
end PageWidgets
