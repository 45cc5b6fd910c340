import PageWidgets.Proofs.Consent.TaggedRecord
import PageWidgets.Proofs.Text.Utf8
import PageWidgets.Tester.Evidence
import PageWidgets.Widget.Account

/-! What a page tells and what a test learns from it. The two sides declare their records apart: the page tells the phase
    of the overlay too, which a test passes over. Everything else is learned as it was told, whatever the order of the
    members, and what a test keeps as evidence is read back as it was. -/

namespace PageWidgets
namespace Tester

open Json Widget

/-! ### What a test learns -/

/-- What a test learns of what a page tells about consent: all but the phase. -/
def ConsentState.ofAccount (s : Consent.State) : ConsentState := ⟨s.present, s.record, s.error⟩

/-- What a test learns of what a page tells about a select. -/
def SelectState.ofAccount (s : SelectAccount) : SelectState :=
  ⟨s.id, s.isOpen, s.active, s.selected, s.value, s.listening⟩

/-- What a test learns of what a page tells. -/
def PageState.ofAccount (a : Account) : PageState := ⟨.ofAccount a.consent, a.selects.map .ofAccount⟩

/-- The indexes have 64 bits. -/
structure SelectState.Fits (s : SelectState) : Prop where
  active : s.active < Nat.pow 2 64
  selected : ∀ i, s.selected = some i → i < Nat.pow 2 64

/-! ### Consent -/

namespace ConsentState

theorem present_takes (b : Bool) :
    (Reader.bool.map fun v (s : ConsentState) => { s with present := v }).Takes (.bool b) fun s => { s with present := b } :=
  (Reader.bool_takes b).map _

theorem record_takes {write : Consent.Record → Value} (h : ∀ r, Consent.Record.reader.Takes (write r) r)
    (hwrite : ∀ r, write r ≠ .null) (o : Option Consent.Record) :
    ((Reader.optional Consent.Record.reader).map fun v (s : ConsentState) => { s with record := v }).Takes
      (.optional write o) fun s => { s with record := o } :=
  (Reader.optional_takes h hwrite o).map _

theorem error_takes (o : Option String) :
    ((Reader.optional .string).map fun v (s : ConsentState) => { s with error := v }).Takes (.optional .string o)
      fun s => { s with error := o } :=
  (Reader.optional_takes Reader.string_takes nofun o).map _

theorem toValue_ne_null (r : Consent.Record) : r.toValue ≠ .null := by cases r <;> nofun

theorem takes_toValue (s : ConsentState) : shape.reader.Takes s.toValue s := by
  refine Shape.Fills.takes ?_
  exact .known rfl (by simp) (present_takes s.present) <|
    .known rfl (by simp) (record_takes Consent.Record.takes_toValue toValue_ne_null s.record) <|
    .known rfl (by simp) (error_takes s.error) <| .done rfl

theorem takes_account (s : Consent.State) : shape.reader.Takes s.toValue (.ofAccount s) := by
  refine Shape.Fills.takes ?_
  exact .known rfl (by simp) (present_takes s.present) <|
    .known rfl (by simp) (record_takes Consent.Record.takes_toValue toValue_ne_null s.record) <|
    .known rfl (by simp) (error_takes s.error) <| .unknown rfl <| .done rfl

theorem arranged_account (s : Consent.State) : s.toValue.arranged =
    .object [("error", .optional .string s.error), ("phase", (Value.optional Consent.Phase.toValue s.phase).arranged),
      ("present", .bool s.present), ("record", .optional (fun r => r.toValue.arranged) s.record)] := by
  have herror : (Value.optional .string s.error).arranged = .optional .string s.error := by cases s.error <;> rfl
  have hrecord : (Value.optional Consent.Record.toValue s.record).arranged =
      .optional (fun r => r.toValue.arranged) s.record := by cases s.record <;> rfl
  simp only [Consent.State.toValue, Value.arranged, Value.arrangedMembers, herror, hrecord, NameMap.ofList, NameMap.insert,
    NameMap.insertInto, NameMap.empty, List.foldl_cons, List.foldl_nil, String.reduceLT, String.reduceEq, if_true, if_false]

theorem arranged_ne_null (r : Consent.Record) : r.toValue.arranged ≠ .null := by cases r <;> nofun

theorem takes_arranged_account (s : Consent.State) : shape.reader.Takes s.toValue.arranged (.ofAccount s) := by
  rw [arranged_account]
  refine Shape.Fills.takes ?_
  exact .known rfl (by simp) (error_takes s.error) <| .unknown rfl <|
    .known rfl (by simp) (present_takes s.present) <|
    .known rfl (by simp) (record_takes Consent.Record.takes_arranged arranged_ne_null s.record) <| .done rfl

end ConsentState

/-! ### Selects -/

namespace SelectState

theorem index_takes {n : Nat} (hn : n < Nat.pow 2 64) : indexReader.Takes (.nat n) n :=
  Reader.natural_takes (Nat.le_sub_one_of_lt hn)

theorem selected_takes {o : Option Nat} (ho : ∀ i, o = some i → i < Nat.pow 2 64) :
    (Reader.optional indexReader).Takes (.optional .nat o) o := by
  cases o with
  | none => exact Reader.optional_takes_null
  | some i => exact (index_takes (ho i rfl)).optional nofun

theorem takes_toValue {s : SelectState} (hs : s.Fits) : shape.reader.Takes s.toValue s := by
  refine Shape.Fills.takes ?_
  exact .known rfl (by simp) ((Reader.string_takes s.id).map _) <|
    .known rfl (by simp) ((Reader.bool_takes s.isOpen).map _) <|
    .known rfl (by simp) ((index_takes hs.active).map _) <|
    .known rfl (by simp) ((selected_takes hs.selected).map _) <|
    .known rfl (by simp) ((Reader.optional_takes Reader.string_takes nofun s.value).map _) <|
    .known rfl (by simp) ((Reader.bool_takes s.listening).map _) <| .done rfl

theorem arranged_toValue (s : SelectState) : s.toValue.arranged =
    .object [("active", .nat s.active), ("id", .string s.id), ("listening", .bool s.listening),
      ("open", .bool s.isOpen), ("selected", .optional .nat s.selected), ("value", .optional .string s.value)] := by
  have hselected : (Value.optional .nat s.selected).arranged = .optional .nat s.selected := by cases s.selected <;> rfl
  have hvalue : (Value.optional .string s.value).arranged = .optional .string s.value := by cases s.value <;> rfl
  simp only [toValue, Value.nat, Value.arranged, Value.arrangedMembers, hselected, hvalue, NameMap.ofList, NameMap.insert,
    NameMap.insertInto, NameMap.empty, List.foldl_cons, List.foldl_nil, String.reduceLT, String.reduceEq, if_true, if_false]

theorem takes_arranged {s : SelectState} (hs : s.Fits) : shape.reader.Takes s.toValue.arranged s := by
  rw [arranged_toValue]
  refine Shape.Fills.takes ?_
  exact .known rfl (by simp) ((index_takes hs.active).map _) <|
    .known rfl (by simp) ((Reader.string_takes s.id).map _) <|
    .known rfl (by simp) ((Reader.bool_takes s.listening).map _) <|
    .known rfl (by simp) ((Reader.bool_takes s.isOpen).map _) <|
    .known rfl (by simp) ((selected_takes hs.selected).map _) <|
    .known rfl (by simp) ((Reader.optional_takes Reader.string_takes nofun s.value).map _) <| .done rfl

end SelectState

/-! ### Pages -/

namespace PageState

/-- A state is taken when its two parts are. -/
theorem takes_object {consent : Value} {selects : List Value} {s : PageState}
    (hconsent : ConsentState.shape.reader.Takes consent s.consent)
    (hselects : List.Forall₂ SelectState.shape.reader.Takes selects s.selects) :
    reader.Takes (.object [("consent", consent), ("selects", .array selects)]) s := by
  refine Shape.Fills.takes ?_
  exact .known rfl (by simp) (hconsent.map _) <| .known rfl (by simp) ((Reader.list_takes hselects).map _) <| .done rfl

theorem takes_toValue {s : PageState} (hs : ∀ x ∈ s.selects, x.Fits) : reader.Takes s.toValue s := by
  refine takes_object (ConsentState.takes_toValue s.consent) ?_
  rw [List.forall₂_map_left_iff]
  exact List.forall₂_same.mpr fun x hx => SelectState.takes_toValue (hs x hx)

variable {a : Account}

theorem takes_account (ha : ∀ s ∈ a.selects, (SelectState.ofAccount s).Fits) : reader.Takes a.toValue (.ofAccount a) := by
  refine takes_object (ConsentState.takes_account a.consent) ?_
  rw [List.forall₂_map_left_iff, ofAccount, List.forall₂_map_right_iff]
  exact List.forall₂_same.mpr fun s hs => SelectState.takes_toValue (ha s hs)

theorem arranged_account (a : Account) : a.toValue.arranged = .object
    [("consent", a.consent.toValue.arranged), ("selects", .array (a.selects.map fun s => s.toValue.arranged))] := by
  have hitems : ∀ l : List SelectAccount,
      Value.arrangedItems (l.map SelectAccount.toValue) = l.map fun s => s.toValue.arranged := by
    intro l
    induction l with
    | nil => rfl
    | cons s l ih => rw [List.map_cons, Value.arrangedItems, ih, List.map_cons]
  simp only [Account.toValue, Value.arranged, Value.arrangedMembers, hitems, NameMap.ofList, NameMap.insert,
    NameMap.insertInto, NameMap.empty, List.foldl_cons, List.foldl_nil, String.reduceLT, String.reduceEq, if_false]

theorem takes_arranged_account (ha : ∀ s ∈ a.selects, (SelectState.ofAccount s).Fits) :
    reader.Takes a.toValue.arranged (.ofAccount a) := by
  rw [arranged_account]
  refine takes_object (ConsentState.takes_arranged_account a.consent) ?_
  rw [List.forall₂_map_left_iff, ofAccount, List.forall₂_map_right_iff]
  exact List.forall₂_same.mpr fun s hs => SelectState.takes_arranged (ha s hs)

/-! ### Written states -/

theorem plain_optional {α : Type} {write : α → Value} {o : Option α} (h : ∀ a, o = some a → (write a).Plain) :
    (Value.optional write o).Plain := by
  cases o with
  | none => trivial
  | some a => exact h a rfl

theorem plain_record (r : Consent.Record) : r.toValue.Plain := by
  cases r with
  | accepted => exact ⟨trivial, trivial⟩
  | rejected => exact ⟨trivial, trivial⟩
  | categories granted => exact ⟨trivial, Consent.Record.plain_categoriesValue granted, trivial⟩

theorem plain_select {s : SelectState} (hs : s.Fits) : s.toValue.Plain :=
  ⟨trivial, trivial, Value.plain_nat hs.active, plain_optional fun i hi => Value.plain_nat (hs.selected i hi),
    plain_optional fun _ _ => trivial, trivial, trivial⟩

theorem plain_phase (p : Consent.Phase) : p.toValue.Plain := by
  cases p with
  | hidden => exact ⟨trivial, trivial⟩
  | visible v => exact ⟨trivial, trivial, trivial⟩
  | dismissing => exact ⟨trivial, trivial⟩

theorem plain_toValue {s : PageState} (hs : ∀ x ∈ s.selects, x.Fits) : s.toValue.Plain := by
  refine ⟨?_, Value.plainItems_map fun x hx => plain_select (hs x hx), trivial⟩
  exact ⟨trivial, plain_optional fun r _ => plain_record r, plain_optional fun _ _ => trivial, trivial⟩

theorem plain_account (ha : ∀ s ∈ a.selects, (SelectState.ofAccount s).Fits) : a.toValue.Plain := by
  refine ⟨?_, Value.plainItems_map fun s hs => plain_select (ha s hs), trivial⟩
  exact ⟨trivial, plain_optional fun r _ => plain_record r, plain_optional fun _ _ => trivial,
    plain_optional fun p _ => plain_phase p, trivial⟩

/-- Both written forms of a value that is taken are read. -/
theorem parse_written {v : Value} {s : PageState} (hv : v.Plain) (h : reader.Takes v s) {text : String}
    (htext : text ∈ [v.compact, v.pretty]) : reader.parse text = .ok s := by
  rcases List.mem_pair.mp htext with rfl | rfl
  · exact h.parse (laid_compact hv)
  · exact h.parse (laid_pretty hv)

end PageState

/-- The state among the files of some evidence. -/
theorem Evidence.lookup_state {e : Evidence} {s : PageState} (h : e.state = some s) :
    e.files.lookup "state.json" = some (Text.utf8 s.toValue.pretty.toList) := by
  obtain ⟨screenshot, source, state, failure⟩ := e
  obtain rfl : state = some s := h
  cases screenshot <;> cases source <;> rfl

namespace PageState

/-- What a page tells is learned, from its value or from its text, in the order it was told in or with the members of
    every object in ascending order; and the state that is kept as evidence of a failure reads back as it was. -/
theorem told_and_kept_read_back :
    (∀ a : Account, (∀ s ∈ a.selects, (SelectState.ofAccount s).Fits) → ∀ v ∈ [a.toValue, a.toValue.arranged],
      reader.convert v = .ok (.ofAccount a) ∧
        ∀ text ∈ [v.compact, v.pretty], reader.parse text = .ok (.ofAccount a)) ∧
    ∀ (e : Evidence) (s : PageState), (∀ x ∈ s.selects, x.Fits) → e.state = some s →
      ∃ bytes text, e.files.lookup "state.json" = some bytes ∧ Text.ofUtf8 bytes = .ok text ∧
        reader.parse (String.ofList text) = .ok s := by
  constructor
  · intro a ha v hv
    have htakes : v.Plain ∧ reader.Takes v (.ofAccount a) := by
      rcases List.mem_pair.mp hv with rfl | rfl
      · exact ⟨plain_account ha, takes_account ha⟩
      · exact ⟨(plain_account ha).arranged, takes_arranged_account ha⟩
    exact ⟨htakes.2.convert, fun text htext => parse_written htakes.1 htakes.2 htext⟩
  · intro e s hs he
    refine ⟨_, _, Evidence.lookup_state he, Text.ofUtf8_utf8 _, ?_⟩
    rw [String.ofList_toList]
    exact (takes_toValue hs).parse (laid_pretty (plain_toValue hs))

/-- A page with an open select of the largest index, and a choice that leaves out the necessary category. -/
def refusedAccount : Account where
  consent := ⟨true, some (.categories (NameMap.empty.insert "analytics \x7b" false)), none, some (.visible .settings)⟩
  selects := [⟨"keep", true, 2, some (Nat.pow 2 64 - 1), some "90 \"days\"", true⟩, ⟨"", false, 0, none, none, false⟩]

/-- Evidence of a failure on that page. -/
def refusedEvidence : Evidence := ⟨none, some "<html></html>", some (.ofAccount refusedAccount), "no overlay"⟩

theorem fits_of_refusedAccount : ∀ s ∈ refusedAccount.selects, (SelectState.ofAccount s).Fits := by
  have hfits : ∀ s ∈ refusedAccount.selects, s.active < Nat.pow 2 64 ∧ ∀ i ∈ s.selected, i < Nat.pow 2 64 := by
    decide
  intro s hs
  exact ⟨(hfits s hs).1, (hfits s hs).2⟩

theorem refused_page_read_back :
    reader.convert refusedAccount.toValue.arranged = .ok (.ofAccount refusedAccount) ∧
      reader.parse refusedAccount.toValue.compact = .ok (.ofAccount refusedAccount) ∧
      ∃ bytes text, refusedEvidence.files.lookup "state.json" = some bytes ∧ Text.ofUtf8 bytes = .ok text ∧
        reader.parse (String.ofList text) = .ok (.ofAccount refusedAccount) := by
  obtain ⟨htold, hkept⟩ := told_and_kept_read_back
  have hfits : ∀ x ∈ (ofAccount refusedAccount).selects, x.Fits := by
    intro x hx
    obtain ⟨s, hs, rfl⟩ := List.mem_map.mp hx
    exact fits_of_refusedAccount s hs
  refine ⟨(htold refusedAccount fits_of_refusedAccount _ (by simp)).1,
    (htold refusedAccount fits_of_refusedAccount _ List.mem_cons_self).2 _ List.mem_cons_self, ?_⟩
  exact hkept refusedEvidence (.ofAccount refusedAccount) hfits rfl

end PageState
end Tester
end PageWidgets
