import Mathlib.Data.List.Find
import PageWidgets.Proofs.Json.Reading
import PageWidgets.Proofs.Settings

/-! Settings documents that give some fields and leave out others. A document is an object with a section for each of the
    widgets, in any order and either of them left out; a section gives fields of its own, in any order and each at most
    once. Both may hold anything else under other names. What such a document gives stands in the settings read from
    it and everything else is as it is built in; it is refused for the first marker that it gives as blanks, in the
    order of the check, and else for a lifetime of no days. -/

namespace PageWidgets
namespace Settings
namespace Document

open Json

/-! ### Sections -/

/-- A member of a section: a marker or a number that it gives, or anything under another name. -/
inductive Entry where
  | marker (field value : String)
  | count (field : String) (n : Nat)
  | other (name : String)

namespace Entry

def name : Entry → String
  | .marker field _ => field
  | .count field _ => field
  | .other name => name

/-- The text spells what the member gives. -/
def Spelled : Entry → List Char → Prop
  | .marker _ value => Reader.InQuotes value
  | .count _ n => fun t => t = Nat.toDigits 10 n
  | .other _ => Valid

/-- What the member gives for a marker. -/
def marker? (field : String) : Entry → Option String
  | .marker name value => if name = field then some value else none
  | _ => none

/-- What the member gives for a number. -/
def count? (field : String) : Entry → Option Nat
  | .count name n => if name = field then some n else none
  | _ => none

end Entry

/-- The fields of a section by the kind of their values. -/
structure Fields where
  markers : List String
  counts : List String

def consentFields : Fields where
  markers := ["overlay_id", "cookie_name", "action_attr", "category_attr", "focus_attr", "view_attr", "active_view_attr",
    "visible_class"]
  counts := ["duration_days", "teardown_fallback_ms"]

def selectFields : Fields where
  markers := ["wrapper_attr", "enhanced_attr", "enhanced_class", "open_class", "active_class", "selected_class",
    "trigger_class", "menu_class", "option_class", "arrow_class", "fallback_id"]
  counts := []

/-- The members of a section with those fields: each field at most once, with a value of its kind. -/
inductive Section (f : Fields) : List Entry → Prop
  | nil : Section f []
  | marker {field value : String} {es : List Entry} (hfield : field ∈ f.markers) (hnew : field ∉ es.map Entry.name)
      (h : Section f es) : Section f (.marker field value :: es)
  | count {field : String} {n : Nat} {es : List Entry} (hfield : field ∈ f.counts) (hn : n < Nat.pow 2 32)
      (hnew : field ∉ es.map Entry.name) (h : Section f es) : Section f (.count field n :: es)
  | other {name : String} {es : List Entry} (hmarker : name ∉ f.markers) (hcount : name ∉ f.counts) (h : Section f es) :
      Section f (.other name :: es)

/-- What the members give for a marker. -/
def marker? (es : List Entry) (field : String) : Option String := es.findSome? (Entry.marker? field)

/-- What the members give for a number. -/
def count? (es : List Entry) (field : String) : Option Nat := es.findSome? (Entry.count? field)

section Given

variable {es : List Entry} {field other value name : String} {n : Nat}

@[simp] theorem marker?_marker :
    marker? (.marker other value :: es) field = if other = field then some value else marker? es field := by
  by_cases h : other = field <;> simp [marker?, Entry.marker?, h]

@[simp] theorem marker?_count : marker? (.count other n :: es) field = marker? es field := rfl

@[simp] theorem marker?_other : marker? (.other name :: es) field = marker? es field := rfl

@[simp] theorem count?_count : count? (.count other n :: es) field = if other = field then some n else count? es field := by
  by_cases h : other = field <;> simp [count?, Entry.count?, h]

@[simp] theorem count?_marker : count? (.marker other value :: es) field = count? es field := rfl

@[simp] theorem count?_other : count? (.other name :: es) field = count? es field := rfl

theorem marker?_of_not_mem (h : field ∉ es.map Entry.name) : marker? es field = none := by
  rw [marker?, List.findSome?_eq_none_iff]
  intro e he
  cases e with
  | marker other value =>
    have hne : other ≠ field := fun heq => h (heq ▸ List.mem_map_of_mem he)
    simp [Entry.marker?, hne]
  | count | other => rfl

theorem count?_of_not_mem (h : field ∉ es.map Entry.name) : count? es field = none := by
  rw [count?, List.findSome?_eq_none_iff]
  intro e he
  cases e with
  | count other n =>
    have hne : other ≠ field := fun heq => h (heq ▸ List.mem_map_of_mem he)
    simp [Entry.count?, hne]
  | marker | other => rfl

/-- A field that a section gives is given once. -/
theorem Section.marker?_eq_some {f : Fields} (h : Section f es) :
    marker? es field = some value ↔ .marker field value ∈ es := by
  induction h with
  | nil => simp [marker?]
  | @marker other v es hfield hnew _ ih =>
    rw [marker?_marker, List.mem_cons, ← ih]
    by_cases heq : other = field
    · subst heq
      simp [marker?_of_not_mem hnew, eq_comm]
    · simp [heq, Ne.symm heq]
  | count _ _ _ _ ih => simp [ih]
  | other _ _ _ ih => simp [ih]

theorem Section.count?_eq_some {f : Fields} (h : Section f es) : count? es field = some n ↔ .count field n ∈ es := by
  induction h with
  | nil => simp [count?]
  | marker _ _ _ ih => simp [ih]
  | @count other m es hfield hm hnew _ ih =>
    rw [count?_count, List.mem_cons, ← ih]
    by_cases heq : other = field
    · subst heq
      simp [count?_of_not_mem hnew, eq_comm]
    · simp [heq, Ne.symm heq]
  | other _ _ _ ih => simp [ih]

theorem Section.count_lt {f : Fields} (h : Section f es) (hn : count? es field = some n) : n < Nat.pow 2 32 := by
  rw [h.count?_eq_some] at hn
  induction h with
  | nil => cases hn
  | count _ hm _ _ ih =>
    rcases List.mem_cons.mp hn with heq | hn
    · cases heq
      exact hm
    · exact ih hn
  | marker _ _ _ ih | other _ _ _ ih =>
    rcases List.mem_cons.mp hn with heq | hn
    · cases heq
    · exact ih hn

theorem Section.field_mem {f : Fields} (h : Section f es) (hm : Entry.marker field value ∈ es) : field ∈ f.markers := by
  induction h with
  | nil => cases hm
  | marker hfield _ _ ih =>
    rcases List.mem_cons.mp hm with heq | hm
    · cases heq
      exact hfield
    · exact ih hm
  | count _ _ _ _ ih | other _ _ _ ih =>
    rcases List.mem_cons.mp hm with heq | hm
    · cases heq
    · exact ih hm

end Given

/-- The settings with what the members give in place of their own. -/
def consentGiven (s : ConsentSettings) (es : List Entry) : ConsentSettings where
  overlayId := (marker? es "overlay_id").getD s.overlayId
  cookieName := (marker? es "cookie_name").getD s.cookieName
  durationDays := (count? es "duration_days").getD s.durationDays
  actionAttr := (marker? es "action_attr").getD s.actionAttr
  categoryAttr := (marker? es "category_attr").getD s.categoryAttr
  focusAttr := (marker? es "focus_attr").getD s.focusAttr
  viewAttr := (marker? es "view_attr").getD s.viewAttr
  activeViewAttr := (marker? es "active_view_attr").getD s.activeViewAttr
  visibleClass := (marker? es "visible_class").getD s.visibleClass
  teardownFallbackMs := (count? es "teardown_fallback_ms").getD s.teardownFallbackMs

/-- The settings with what the members give in place of their own. -/
def selectGiven (s : SelectSettings) (es : List Entry) : SelectSettings where
  wrapperAttr := (marker? es "wrapper_attr").getD s.wrapperAttr
  enhancedAttr := (marker? es "enhanced_attr").getD s.enhancedAttr
  enhancedClass := (marker? es "enhanced_class").getD s.enhancedClass
  openClass := (marker? es "open_class").getD s.openClass
  activeClass := (marker? es "active_class").getD s.activeClass
  selectedClass := (marker? es "selected_class").getD s.selectedClass
  triggerClass := (marker? es "trigger_class").getD s.triggerClass
  menuClass := (marker? es "menu_class").getD s.menuClass
  optionClass := (marker? es "option_class").getD s.optionClass
  arrowClass := (marker? es "arrow_class").getD s.arrowClass
  fallbackId := (marker? es "fallback_id").getD s.fallbackId

/-! ### Sections are read -/

theorem textSlot_reads {α : Type} {name : String} {set : String → α → α} (value : String) :
    (textSlot name set).reader.Reads (Reader.InQuotes value) (set value) := (Reader.string_reads value).map set

theorem countSlot_reads {α : Type} {name : String} {set : Nat → α → α} {n : Nat} (hn : n < Nat.pow 2 32) :
    (countSlot name set).reader.Reads (fun t => t = Nat.toDigits 10 n) (set n) := by
  have hle : n ≤ Nat.pow 2 32 - 1 := Nat.le_sub_one_of_lt hn
  have hfits : n ≤ largestSignificand := Nat.le_trans hle (by decide)
  intro b t rest hb ht hrest
  subst ht
  exact ((Reader.natural_takes hle).map set).text hb (.nat hfits) hrest

/-- A shape that reads each field of a section into the settings `given`. -/
structure Covers {α : Type} (shape : Shape α) (f : Fields) (given : α → List Entry → α) : Prop where
  marker : ∀ field ∈ f.markers, ∃ set : String → α → α,
    shape.slots.find? (fun slot => slot.name = field) = some (textSlot field set) ∧
    ∀ value a es, field ∉ es.map Entry.name → given (set value a) es = given a (.marker field value :: es)
  count : ∀ field ∈ f.counts, ∃ set : Nat → α → α,
    shape.slots.find? (fun slot => slot.name = field) = some (countSlot field set) ∧
    ∀ n a es, field ∉ es.map Entry.name → given (set n a) es = given a (.count field n :: es)
  other : ∀ name, name ∉ f.markers → name ∉ f.counts → shape.slots.find? (fun slot => slot.name = name) = none
  skip : ∀ name a es, given a (.other name :: es) = given a es
  nothing : ∀ a, given a [] = a
  omittable : ∀ seen, shape.missing? seen = none

theorem Covers.feeds {α : Type} {shape : Shape α} {f : Fields} {given : α → List Entry → α} (hc : Covers shape f given)
    {es : List Entry} (h : Section f es) {seen : List String} (hseen : ∀ e ∈ es, e.name ∉ seen) (a : α) :
    shape.Feeds Entry.name Entry.Spelled seen a es (given a es) := by
  induction h generalizing seen a with
  | nil =>
    rw [hc.nothing]
    exact .done (hc.omittable seen)
  | @marker field value es hfield hnew _ ih =>
    obtain ⟨set, hslot, hgiven⟩ := hc.marker field hfield
    obtain ⟨hfresh, hrest⟩ := List.forall_mem_cons.mp hseen
    rw [← hgiven value a es hnew]
    refine .known hslot hfresh (textSlot_reads value) (ih (fun e he => List.not_mem_cons_of_ne_of_not_mem ?_ (hrest e he)) _)
    exact fun heq => hnew (List.mem_map.mpr ⟨e, he, heq⟩)
  | @count field n es hfield hn hnew _ ih =>
    obtain ⟨set, hslot, hgiven⟩ := hc.count field hfield
    obtain ⟨hfresh, hrest⟩ := List.forall_mem_cons.mp hseen
    rw [← hgiven n a es hnew]
    refine .known hslot hfresh (countSlot_reads hn) (ih (fun e he => List.not_mem_cons_of_ne_of_not_mem ?_ (hrest e he)) _)
    exact fun heq => hnew (List.mem_map.mpr ⟨e, he, heq⟩)
  | @other name es hmarker hcount _ ih =>
    obtain ⟨-, hrest⟩ := List.forall_mem_cons.mp hseen
    rw [hc.skip]
    exact .unknown (hc.other name hmarker hcount) (fun _ ht => ht) (ih hrest a)

theorem consent_covers : Covers ConsentSettings.shape consentFields consentGiven where
  marker := by
    intro field hfield
    simp only [consentFields, List.mem_cons, List.not_mem_nil, or_false] at hfield
    rcases hfield with rfl | rfl | rfl | rfl | rfl | rfl | rfl | rfl <;>
    · refine ⟨_, rfl, fun value a es hnew => ?_⟩
      simp [consentGiven, marker?_of_not_mem hnew]
  count := by
    intro field hfield
    simp only [consentFields, List.mem_cons, List.not_mem_nil, or_false] at hfield
    rcases hfield with rfl | rfl <;>
    · refine ⟨_, rfl, fun n a es hnew => ?_⟩
      simp [consentGiven, count?_of_not_mem hnew]
  other := by
    intro name hmarker hcount
    simp only [consentFields, List.mem_cons, List.not_mem_nil, or_false, not_or] at hmarker hcount
    simp [ConsentSettings.shape, textSlot, countSlot, eq_comm, hmarker, hcount]
  skip _ _ _ := rfl
  nothing _ := rfl
  omittable _ := rfl

theorem select_covers : Covers SelectSettings.shape selectFields selectGiven where
  marker := by
    intro field hfield
    simp only [selectFields, List.mem_cons, List.not_mem_nil, or_false] at hfield
    rcases hfield with rfl | rfl | rfl | rfl | rfl | rfl | rfl | rfl | rfl | rfl | rfl <;>
    · refine ⟨_, rfl, fun value a es hnew => ?_⟩
      simp [selectGiven, marker?_of_not_mem hnew]
  count _ hfield := absurd hfield List.not_mem_nil
  other := by
    intro name hmarker _
    simp only [selectFields, List.mem_cons, List.not_mem_nil, or_false, not_or] at hmarker
    simp [SelectSettings.shape, textSlot, eq_comm, hmarker]
  skip _ _ _ := rfl
  nothing _ := rfl
  omittable _ := rfl

/-! ### Documents -/

/-- A member of a document: a section, or anything under another name. -/
inductive Part where
  | consent (es : List Entry)
  | select (es : List Entry)
  | other (name : String)

namespace Part

def name : Part → String
  | .consent _ => "consent"
  | .select _ => "select"
  | .other name => name

/-- The text spells what the member holds. -/
def Spelled : Part → List Char → Prop
  | .consent es | .select es => Braced Entry.name Entry.Spelled es
  | .other _ => Valid

end Part

/-- The members of a document: each section at most once. -/
inductive Proper : List Part → Prop
  | nil : Proper []
  | consent {es : List Entry} {ps : List Part} (hes : Section consentFields es) (hnew : "consent" ∉ ps.map Part.name)
      (h : Proper ps) : Proper (.consent es :: ps)
  | select {es : List Entry} {ps : List Part} (hes : Section selectFields es) (hnew : "select" ∉ ps.map Part.name)
      (h : Proper ps) : Proper (.select es :: ps)
  | other {name : String} {ps : List Part} (hconsent : name ≠ "consent") (hselect : name ≠ "select") (h : Proper ps) :
      Proper (.other name :: ps)

/-- The text spells the document, with blanks at its ends. -/
def Written (ps : List Part) (text : String) : Prop :=
  ∃ b t b', Blanks b ∧ Braced Part.name Part.Spelled ps t ∧ Blanks b' ∧ text.toList = b ++ (t ++ b')

/-- What the document gives for the consent overlay. -/
def consentPart : List Part → List Entry
  | [] => []
  | .consent es :: _ => es
  | _ :: ps => consentPart ps

/-- What the document gives for the retention select. -/
def selectPart : List Part → List Entry
  | [] => []
  | .select es :: _ => es
  | _ :: ps => selectPart ps

/-- The settings that the document stands for: what it gives, and everything else as it is built in. -/
def settings (ps : List Part) : Settings where
  consent := consentGiven {} (consentPart ps)
  select := selectGiven {} (selectPart ps)

/-! ### Documents are read -/

section Parts

variable {ps : List Part}

theorem consentPart_of_not_mem (h : "consent" ∉ ps.map Part.name) : consentPart ps = [] := by
  induction ps with
  | nil => rfl
  | cons p ps ih =>
    rw [List.map_cons, List.mem_cons, not_or] at h
    cases p with
    | consent => exact absurd rfl h.1
    | select | other => exact ih h.2

theorem selectPart_of_not_mem (h : "select" ∉ ps.map Part.name) : selectPart ps = [] := by
  induction ps with
  | nil => rfl
  | cons p ps ih =>
    rw [List.map_cons, List.mem_cons, not_or] at h
    cases p with
    | select => exact absurd rfl h.1
    | consent | other => exact ih h.2

theorem Proper.consent_section (h : Proper ps) : Section consentFields (consentPart ps) := by
  induction h with
  | nil => exact .nil
  | consent hes => exact hes
  | select _ _ _ ih | other _ _ _ ih => exact ih

theorem Proper.select_section (h : Proper ps) : Section selectFields (selectPart ps) := by
  induction h with
  | nil => exact .nil
  | select hes => exact hes
  | consent _ _ _ ih | other _ _ _ ih => exact ih

/-- The members feed the settings up to what they give, in the sections that were not read before. -/
theorem Proper.feeds (h : Proper ps) {seen : List String} (hseen : ∀ p ∈ ps, p.name ∉ seen) {s : Settings}
    (hconsent : "consent" ∉ seen → s.consent = {}) (hselect : "select" ∉ seen → s.select = {}) :
    shape.Feeds Part.name Part.Spelled seen s ps
      ⟨consentGiven s.consent (consentPart ps), selectGiven s.select (selectPart ps)⟩ := by
  induction h generalizing seen s with
  | nil => exact .done rfl
  | @consent es ps hes hnew _ ih =>
    obtain ⟨hfresh, hrest⟩ := List.forall_mem_cons.mp hseen
    have hseen' : ∀ p ∈ ps, p.name ∉ "consent" :: seen := fun p hp =>
      List.not_mem_cons_of_ne_of_not_mem (fun heq => hnew (List.mem_map.mpr ⟨p, hp, heq⟩)) (hrest p hp)
    have hnext := @ih ("consent" :: seen) hseen' { s with consent := consentGiven {} es }
      (fun hnot => absurd List.mem_cons_self hnot) fun hnot => hselect fun hmem => hnot (List.mem_cons_of_mem _ hmem)
    rw [consentPart_of_not_mem hnew] at hnext
    rw [hconsent hfresh]
    exact .known rfl hfresh ((consent_covers.feeds hes (fun _ _ => List.not_mem_nil) {}).reads.map _) hnext
  | @select es ps hes hnew _ ih =>
    obtain ⟨hfresh, hrest⟩ := List.forall_mem_cons.mp hseen
    have hseen' : ∀ p ∈ ps, p.name ∉ "select" :: seen := fun p hp =>
      List.not_mem_cons_of_ne_of_not_mem (fun heq => hnew (List.mem_map.mpr ⟨p, hp, heq⟩)) (hrest p hp)
    have hnext := @ih ("select" :: seen) hseen' { s with select := selectGiven {} es }
      (fun hnot => hconsent fun hmem => hnot (List.mem_cons_of_mem _ hmem)) fun hnot => absurd List.mem_cons_self hnot
    rw [selectPart_of_not_mem hnew] at hnext
    rw [hselect hfresh]
    exact .known rfl hfresh ((select_covers.feeds hes (fun _ _ => List.not_mem_nil) {}).reads.map _) hnext
  | @other name ps hname hname' _ ih =>
    obtain ⟨-, hrest⟩ := List.forall_mem_cons.mp hseen
    refine .unknown ?_ (fun _ ht => ht) (ih hrest hconsent hselect)
    simp [shape, Part.name, eq_comm, hname, hname']

theorem parse_written {text : String} (h : Proper ps) (ht : Written ps text) :
    shape.reader.parse text = .ok (settings ps) := by
  obtain ⟨b, t, b', hb, hbraced, hb', htext⟩ := ht
  have hfeeds := @Proper.feeds ps h [] (fun _ _ => List.not_mem_nil) {} (fun _ => rfl) fun _ => rfl
  exact hfeeds.reads.parse hb hbraced hb' htext

end Parts

/-! ### Documents are checked -/

/-- The members give blanks for the marker. -/
def blankIn (es : List Entry) (field : String) : Bool := (marker? es field).any Text.isBlankText

/-- The markers of both sections in the order of the check. -/
def order : List (String × String) :=
  consentFields.markers.map ("consent", ·) ++ selectFields.markers.map ("select", ·)

/-- The document gives blanks for the marker of that section. -/
def blankAt (ps : List Part) (at_ : String × String) : Bool :=
  blankIn (if at_.1 = "consent" then consentPart ps else selectPart ps) at_.2

/-- The first marker in the order of the check that the document gives as blanks. -/
def firstBlank? (ps : List Part) : Option (String × String) := order.find? (blankAt ps)

theorem firstBlank?_eq (ps : List Part) : firstBlank? ps =
    ((consentFields.markers.find? (blankIn (consentPart ps))).map ("consent", ·)).or
      ((selectFields.markers.find? (blankIn (selectPart ps))).map ("select", ·)) := by
  rw [firstBlank?, order, List.find?_append, List.find?_map, List.find?_map]
  rfl

/-- A marker that the document does not give is the built-in one, and that is not blank. -/
theorem blankMarker?_given {ms : List (String × String)} (hms : ∀ m ∈ ms, Text.isBlankText m.2 = false) (es : List Entry) :
    blankMarker? (ms.map fun m => (m.1, (marker? es m.1).getD m.2)) = (ms.map fun m => m.1).find? (blankIn es) := by
  have hblank : ∀ m ∈ ms, Text.isBlankText ((marker? es m.1).getD m.2) = blankIn es m.1 := by
    intro m hm
    unfold blankIn
    cases marker? es m.1 with
    | none => exact hms m hm
    | some value => rfl
  rw [blankMarker?, List.find?_map, List.find?_map, Option.map_map]
  exact congrArg _ (List.find?_congr hblank)

section Checked

variable {ps : List Part}

theorem blankMarker?_consent (es : List Entry) :
    blankMarker? (consentGiven {} es).markers = consentFields.markers.find? (blankIn es) :=
  @blankMarker?_given (ConsentSettings.markers {}) (by decide) es

theorem blankMarker?_select (es : List Entry) :
    blankMarker? (selectGiven {} es).markers = selectFields.markers.find? (blankIn es) :=
  @blankMarker?_given (SelectSettings.markers {}) (by decide) es

/-- The check refuses the first marker given as blanks, and then a lifetime given as no days. -/
theorem validate_settings (ps : List Part) : (settings ps).validate =
    match firstBlank? ps with
    | some m => .error (.emptyMarker m.1 m.2)
    | none => if count? (consentPart ps) "duration_days" = some 0 then .error .zeroDuration else .ok () := by
  have hdays : (settings ps).consent.durationDays = 0 ↔ count? (consentPart ps) "duration_days" = some 0 := by
    have heq : (settings ps).consent.durationDays = (count? (consentPart ps) "duration_days").getD 365 := rfl
    rw [heq]
    cases count? (consentPart ps) "duration_days" with
    | none => simp
    | some n => simp
  rw [validate, firstBlank?_eq, settings, blankMarker?_consent, blankMarker?_select]
  rw [settings] at hdays
  cases consentFields.markers.find? (blankIn (consentPart ps)) with
  | some field => rfl
  | none =>
    cases selectFields.markers.find? (blankIn (selectPart ps)) with
    | some field => rfl
    | none => simp only [hdays, Option.map_none, Option.or_none]

theorem Section.blankIn_eq_true {f : Fields} {es : List Entry} (h : Section f es) {field : String} :
    blankIn es field = true ↔ ∃ value, .marker field value ∈ es ∧ Text.isBlankText value = true := by
  unfold blankIn
  rw [Option.any_eq_true]
  simp only [h.marker?_eq_some]

/-- No marker of a section is given as blanks when none of its fields is. -/
theorem Section.find?_blankIn_eq_none {f : Fields} {es : List Entry} (h : Section f es) :
    f.markers.find? (blankIn es) = none ↔ ∀ field value, .marker field value ∈ es → Text.isBlankText value = false := by
  rw [List.find?_eq_none]
  constructor
  · intro hnone field value hmem
    cases hblank : Text.isBlankText value with
    | false => rfl
    | true => exact absurd (h.blankIn_eq_true.mpr ⟨value, hmem, hblank⟩) (hnone field (h.field_mem hmem))
  · intro hall field _ hblank
    obtain ⟨value, hmem, hvalue⟩ := h.blankIn_eq_true.mp hblank
    rw [hall field value hmem] at hvalue
    cases hvalue

theorem Proper.firstBlank?_eq_none (h : Proper ps) : firstBlank? ps = none ↔
    ∀ field value, .marker field value ∈ consentPart ps ++ selectPart ps → Text.isBlankText value = false := by
  rw [firstBlank?_eq, Option.or_eq_none_iff, Option.map_eq_none_iff, Option.map_eq_none_iff,
    h.consent_section.find?_blankIn_eq_none, h.select_section.find?_blankIn_eq_none]
  simp only [List.mem_append]
  constructor
  · rintro ⟨hconsent, hselect⟩ field value (hmem | hmem)
    · exact hconsent field value hmem
    · exact hselect field value hmem
  · exact fun hall => ⟨fun field value hmem => hall field value (.inl hmem), fun field value hmem => hall field value (.inr hmem)⟩

end Checked

/-! ### Settings are read back -/

/-- Settings whose numbers fit their fields. -/
structure Fits (s : ConsentSettings) : Prop where
  days : s.durationDays < Nat.pow 2 32
  fallback : s.teardownFallbackMs < Nat.pow 2 32

theorem consent_takes {s : ConsentSettings} (hs : Fits s) : ConsentSettings.shape.reader.Takes s.toValue s := by
  have hdays := Nat.le_sub_one_of_lt hs.days
  have hfallback := Nat.le_sub_one_of_lt hs.fallback
  refine Shape.Fills.takes ?_
  exact .known rfl (by simp) ((Reader.string_takes s.overlayId).map _) <|
    .known rfl (by simp) ((Reader.string_takes s.cookieName).map _) <|
    .known rfl (by simp) ((Reader.natural_takes hdays).map _) <|
    .known rfl (by simp) ((Reader.string_takes s.actionAttr).map _) <|
    .known rfl (by simp) ((Reader.string_takes s.categoryAttr).map _) <|
    .known rfl (by simp) ((Reader.string_takes s.focusAttr).map _) <|
    .known rfl (by simp) ((Reader.string_takes s.viewAttr).map _) <|
    .known rfl (by simp) ((Reader.string_takes s.activeViewAttr).map _) <|
    .known rfl (by simp) ((Reader.string_takes s.visibleClass).map _) <|
    .known rfl (by simp) ((Reader.natural_takes hfallback).map _) <| .done rfl

theorem select_takes (s : SelectSettings) : SelectSettings.shape.reader.Takes s.toValue s := by
  refine Shape.Fills.takes ?_
  exact .known rfl (by simp) ((Reader.string_takes s.wrapperAttr).map _) <|
    .known rfl (by simp) ((Reader.string_takes s.enhancedAttr).map _) <|
    .known rfl (by simp) ((Reader.string_takes s.enhancedClass).map _) <|
    .known rfl (by simp) ((Reader.string_takes s.openClass).map _) <|
    .known rfl (by simp) ((Reader.string_takes s.activeClass).map _) <|
    .known rfl (by simp) ((Reader.string_takes s.selectedClass).map _) <|
    .known rfl (by simp) ((Reader.string_takes s.triggerClass).map _) <|
    .known rfl (by simp) ((Reader.string_takes s.menuClass).map _) <|
    .known rfl (by simp) ((Reader.string_takes s.optionClass).map _) <|
    .known rfl (by simp) ((Reader.string_takes s.arrowClass).map _) <|
    .known rfl (by simp) ((Reader.string_takes s.fallbackId).map _) <| .done rfl

theorem takes_toValue {s : Settings} (hs : Fits s.consent) : shape.reader.Takes s.toValue s := by
  refine Shape.Fills.takes ?_
  exact .known rfl (by simp) ((consent_takes hs).map _) <| .known rfl (by simp) ((select_takes s.select).map _) <| .done rfl

theorem plain_toValue {s : Settings} (hs : Fits s.consent) : s.toValue.Plain := by
  have hfits : ∀ n, n < Nat.pow 2 32 → ∃ i : Nat, Number.integer n = .integer i ∧ i ≤ largestSignificand := fun n hn =>
    ⟨n, rfl, Nat.le_trans (Nat.le_of_lt hn) (by decide)⟩
  simp only [toValue, ConsentSettings.toValue, SelectSettings.toValue, Value.Plain, Value.PlainMembers, Value.nat,
    hfits _ hs.days, hfits _ hs.fallback, and_self]

/-- Every layout of accepted settings is read as these settings. -/
theorem ofJson_laid {s : Settings} (hs : Fits s.consent) (hvalid : s.validate = .ok ()) {text : String}
    (ht : Laid s.toValue text.toList) : ofJson text = .ok s := by
  rw [ofJson, (takes_toValue hs).parse ht]
  simp only [hvalid]

theorem Proper.fits {ps : List Part} (h : Proper ps) : Fits (settings ps).consent := by
  constructor
  · have heq : (settings ps).consent.durationDays = (count? (consentPart ps) "duration_days").getD 365 := rfl
    rw [heq]
    cases hcount : count? (consentPart ps) "duration_days" with
    | none => decide
    | some n => exact h.consent_section.count_lt hcount
  · have heq : (settings ps).consent.teardownFallbackMs =
        (count? (consentPart ps) "teardown_fallback_ms").getD 400 := rfl
    rw [heq]
    cases hcount : count? (consentPart ps) "teardown_fallback_ms" with
    | none => decide
    | some n => exact h.consent_section.count_lt hcount

/-- Reading a document is checking what it stands for. -/
theorem ofJson_written {ps : List Part} {text : String} (h : Proper ps) (ht : Written ps text) : ofJson text =
    match firstBlank? ps with
    | some m => .error (.emptyMarker m.1 m.2)
    | none =>
      if count? (consentPart ps) "duration_days" = some 0 then .error .zeroDuration else .ok (settings ps) := by
  rw [ofJson, parse_written h ht]
  simp only [validate_settings]
  cases firstBlank? ps with
  | some m => rfl
  | none =>
    by_cases hzero : count? (consentPart ps) "duration_days" = some 0
    · simp only [if_pos hzero]
    · simp only [if_neg hzero]

section Written

variable {ps : List Part} {text : String}

/-- A lifetime of no days is given, or every lifetime given is a day at least. -/
theorem Proper.days_ne_zero (h : Proper ps) : count? (consentPart ps) "duration_days" ≠ some 0 ↔
    ∀ n, .count "duration_days" n ∈ consentPart ps → 1 ≤ n := by
  rw [Ne, h.consent_section.count?_eq_some]
  constructor
  · intro hnot n hn
    rcases Nat.eq_zero_or_pos n with rfl | hpos
    · exact absurd hn hnot
    · exact hpos
  · exact fun hall hmem => absurd (hall 0 hmem) (by decide)

theorem ofJson_eq_ok (h : Proper ps) (ht : Written ps text) {s : Settings} : ofJson text = .ok s ↔
    (firstBlank? ps = none ∧ count? (consentPart ps) "duration_days" ≠ some 0) ∧ s = settings ps := by
  rw [ofJson_written h ht]
  cases firstBlank? ps with
  | some m => simp
  | none =>
    by_cases hzero : count? (consentPart ps) "duration_days" = some 0
    · simp [hzero]
    · simp [hzero, eq_comm]

theorem ofJson_eq_error (h : Proper ps) (ht : Written ps text) {f : SettingsFault} (hf : ofJson text = .error f) :
    (∃ m, firstBlank? ps = some m ∧ f = .emptyMarker m.1 m.2) ∨ firstBlank? ps = none ∧ f = .zeroDuration := by
  rw [ofJson_written h ht] at hf
  cases hfirst : firstBlank? ps with
  | some m =>
    simp only [hfirst] at hf
    cases hf
    exact .inl ⟨m, rfl, rfl⟩
  | none =>
    simp only [hfirst] at hf
    split at hf
    · cases hf
      exact .inr ⟨rfl, rfl⟩
    · cases hf

/-- What a document stands for is read back from what is written for it. -/
theorem ofJson_settings (h : Proper ps) (hvalid : (settings ps).validate = .ok ()) :
    ofJson (settings ps).toValue.compact = .ok (settings ps) ∧ ofJson (settings ps).toValue.pretty = .ok (settings ps) :=
  ⟨ofJson_laid h.fits hvalid (laid_compact (plain_toValue h.fits)),
    ofJson_laid h.fits hvalid (laid_pretty (plain_toValue h.fits))⟩

end Written

/-- A settings document may give any of the fields, in any order and spelled in any way, beside anything under other
    names. It is accepted when no marker that it gives is blank and the lifetime that it may give is a day at least. What
    is accepted are the given values, and the built-in ones for the rest, and that is read back from either written
    form. What is refused is refused for the first marker given as blanks, the consent overlay's before the retention
    select's, and for the lifetime only when there is no such marker. -/
theorem partial_document_read {ps : List Part} {text : String} (h : Proper ps) (ht : Written ps text) :
    ((∃ s, ofJson text = .ok s) ↔
      (∀ field value, .marker field value ∈ consentPart ps ++ selectPart ps → Text.isBlankText value = false) ∧
      ∀ n, .count "duration_days" n ∈ consentPart ps → 1 ≤ n) ∧
    (∀ s, ofJson text = .ok s →
      s = settings ps ∧ ofJson s.toValue.compact = .ok s ∧ ofJson s.toValue.pretty = .ok s) ∧
    ∀ f, ofJson text = .error f →
      (∃ m, firstBlank? ps = some m ∧ f = .emptyMarker m.1 m.2) ∨ firstBlank? ps = none ∧ f = .zeroDuration := by
  have hok := @ofJson_eq_ok ps text h ht
  have haccepted : firstBlank? ps = none ∧ count? (consentPart ps) "duration_days" ≠ some 0 ↔ _ :=
    and_congr h.firstBlank?_eq_none h.days_ne_zero
  refine ⟨⟨?_, fun hall => ?_⟩, fun s hs => ?_, fun f => ofJson_eq_error h ht⟩
  · rintro ⟨s, hs⟩
    exact haccepted.mp (hok.mp hs).1
  · exact ⟨settings ps, hok.mpr ⟨haccepted.mpr hall, rfl⟩⟩
  · obtain ⟨⟨hfirst, hdays⟩, rfl⟩ := hok.mp hs
    have hvalid : (settings ps).validate = .ok () := by
      rw [validate_settings, hfirst]
      exact if_neg hdays
    exact ⟨rfl, ofJson_settings h hvalid⟩

/-- A document with both sections, a string spelled with hex digits, and a member that neither widget knows. -/
def sampleText : String :=
  "\x7b\"theme\": -1.5e3, \"select\":\x7b\"menu_class\":\"\\u00fc\"\x7d,\"consent\":\x7b\"duration_days\":30\x7d\x7d"

def sample : List Part :=
  [.other "theme", .select [.marker "menu_class" "ü"], .consent [.count "duration_days" 30]]

theorem proper_sample : Proper sample := by
  have hselect : Section selectFields [.marker "menu_class" "ü"] := .marker (by decide) (by simp) .nil
  have hconsent : Section consentFields [.count "duration_days" 30] := .count (by decide) (by decide) (by simp) .nil
  exact .other (by decide) (by decide) (.select hselect (by decide) (.consent hconsent (by decide) .nil))

theorem written_sample : Written sample sampleText := by
  have hspace : Blanks [' '] := by simp [Blanks, isSpace]
  have hfirst : Lead true [] := .nil
  have hcomma : Lead false [','] := ⟨[], [], .nil, .nil, rfl⟩
  have hspaced : Lead false [',', ' '] := ⟨[], [' '], .nil, hspace, rfl⟩
  have hdigit (c : Char) (hc : isDigit c = true) : Digits [c] := ⟨by simp, by simpa using hc⟩
  have hnumber : Valid ['-', '1', '.', '5', 'e', '3'] :=
    .negative (.mk (@Whole.digits '1' [] rfl (by decide) nofun) (.point (hdigit '5' rfl))
      (@Exponent.mark 'e' [] ['3'] rfl (.inl rfl) (hdigit '3' rfl)))
  have hhex : Hex 'ü'.toNat ['0', '0', 'f', 'c'] := @Hex.mk '0' '0' 'f' 'c' 0 0 15 12 rfl rfl rfl rfl
  have hspells : Spells "ü".toList ['\\', 'u', '0', '0', 'f', 'c'] := .numbered hhex .nil
  have hdays : (fun t => t = Nat.toDigits 10 30) ['3', '0'] := rfl
  exact ⟨[], _, [], .nil, .mk <|
    .cons hfirst (.mk (spells_escaped "theme".toList) .nil hspace hnumber) <|
    .cons hspaced (.mk (spells_escaped "select".toList) .nil .nil <| .mk <|
      .cons hfirst (.mk (spells_escaped "menu_class".toList) .nil .nil (.mk hspells)) (.nil .nil)) <|
    .cons hcomma (.mk (spells_escaped "consent".toList) .nil .nil <| .mk <|
      .cons hfirst (.mk (spells_escaped "duration_days".toList) .nil .nil hdays) (.nil .nil)) <|
    .nil .nil, .nil, by decide +kernel⟩

theorem sample_read : Proper sample ∧ Written sample sampleText ∧
    ofJson sampleText = .ok { consent := { durationDays := 30 }, select := { menuClass := "ü" } } := by
  obtain ⟨haccepted, hsettings, -⟩ := partial_document_read proper_sample written_sample
  obtain ⟨s, hs⟩ := haccepted.mpr ⟨by simp [sample, consentPart, selectPart]; decide, by simp [sample, consentPart]⟩
  have heq : s = { consent := { durationDays := 30 }, select := { menuClass := "ü" } } := (hsettings s hs).1
  exact ⟨proper_sample, written_sample, heq ▸ hs⟩

end Document
end Settings
end PageWidgets
