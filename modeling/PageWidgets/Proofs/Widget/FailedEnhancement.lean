import PageWidgets.Proofs.Page.Markup
import PageWidgets.Proofs.Widget.Enhance

/-! When an enhancement fails. The parts are put into a wrapper at the very end, so a failure leaves neither a trigger nor
    a menu behind; but the wrapper is marked as enhanced at the very beginning. Only when the page refuses the name of
    that mark is the wrapper left as it was. After any other failure it carries the mark, and the native select is hidden
    as well unless the class name was refused, so nothing enhances the wrapper later. The check of settings lets both
    refusals through: it asks of names no more than that they are not blank. -/

namespace PageWidgets

namespace Page

open Element

section
variable {p q : Page} {j : Nat} {m : String}

/-! ### Edits that only add -/

/-- An edit that sets an attribute or adds a class name. -/
def Edit.Adds : Edit → Prop
  | .setAttr _ _ _ | .addClass _ _ => True
  | _ => False

theorem hasAttr_withAttr {e : Element} {name value : String} (h : e.hasAttr m = true) :
    (e.withAttr name value).hasAttr m = true := by
  unfold hasAttr at h ⊢
  rw [attr?_withAttr]
  split
  · rfl
  · exact h

theorem hasAttr_withClasses {e : Element} (names : List String) (h : e.hasAttr m = true) :
    (e.withClasses names).hasAttr m = true := by
  unfold withClasses
  split
  · exact h
  · exact hasAttr_withAttr h

theorem Edit.Adds.hasAttr_act {e : Edit} (he : e.Adds) {x : Element} (h : x.hasAttr m = true) :
    (e.act x).hasAttr m = true := by
  cases e with
  | setAttr => exact hasAttr_withAttr h
  | addClass => exact hasAttr_withClasses _ h
  | _ => exact absurd he id

/-- No attribute is lost to edits that only add, also when the page refused one of them. -/
theorem hasAttr_perform {es : List Edit} (hes : ∀ e ∈ es, e.Adds) (hj : j < p.elements.length)
    (h : (p.element j).hasAttr m = true) : ((p.perform es).1.element j).hasAttr m = true := by
  induction es generalizing p with
  | nil => exact h
  | cons e rest ih =>
    rw [perform]
    cases hq : p.edit e with
    | error fault => exact h
    | ok q =>
      have he := hes e List.mem_cons_self
      have hflat : e.Flat := by
        cases e with
        | setAttr | addClass => trivial
        | _ => exact absurd he id
      refine ih (fun x hx => hes x (List.mem_cons_of_mem e hx)) ((edited_edit hq).length ▸ hj) ?_
      rw [element_edit hq hflat hj]
      unfold Edit.actOn
      split
      · exact he.hasAttr_act h
      · exact h

theorem perform_of_refused {e : Edit} {fault : Fault} (he : p.edit e = .error fault) (rest : List Edit) :
    p.perform (e :: rest) = (p, some fault) := by
  rw [perform, he]

end

end Page

namespace Widget

open Listbox Page

section

variable {p q : Page} {s : SelectSettings} {wrapper native : Nat} {entries : List Entry} {f : Fault}

/-- What marks a wrapper as enhanced with those settings, and takes the native select from those who do not see the
    page. -/
abbrev markingWith (s : SelectSettings) (wrapper native : Nat) : List Edit :=
  [.setAttr wrapper s.enhancedAttr "true", .addClass wrapper s.enhancedClass,
    .setAttr native "aria-hidden" "true", .setAttr native "tabindex" "-1"]

/-- What a failure leaves of a page: its trees and the elements in them, but a mark on the wrapper unless the name of
    the mark was refused, and a hidden native select unless that name or the class name was. -/
structure Abandoned (s : SelectSettings) (wrapper native : Nat) (p q : Page) : Prop where
  trees : q.trees = p.trees
  length : q.elements.length = p.elements.length
  refused : Element.validName s.enhancedAttr = false → q = p
  marked : Element.validName s.enhancedAttr = true → (q.element wrapper).hasAttr s.enhancedAttr = true
  lasting : Element.validName s.enhancedAttr = true → Text.lowerAsciiText s.enhancedAttr ≠ "class" →
    (q.element wrapper).attr? s.enhancedAttr = some "true"
  shown : ¬Element.Token s.enhancedClass → ∀ id, id ≠ wrapper → q.element id = p.element id
  hidden : Element.validName s.enhancedAttr = true → Element.Token s.enhancedClass →
    (q.element native).attr? "aria-hidden" = some "true"

theorem adds_markingWith {x : Edit} (hx : x ∈ markingWith s wrapper native) : x.Adds := by
  simp only [List.mem_cons, List.not_mem_nil, or_false] at hx
  rcases hx with rfl | rfl | rfl | rfl <;> trivial

theorem sound_markingWith {x : Edit} (hname : Element.validName s.enhancedAttr = true) (hclass : Element.Token s.enhancedClass)
    (hx : x ∈ markingWith s wrapper native) : x.Sound := by
  have hvalid : Element.validName "aria-hidden" = true ∧ Element.validName "tabindex" = true := by decide
  simp only [List.mem_cons, List.not_mem_nil, or_false] at hx
  rcases hx with rfl | rfl | rfl | rfl
  · exact hname
  · exact hclass
  · exact hvalid.1
  · exact hvalid.2

theorem trees_of_adds {es : List Edit} (hes : ∀ e ∈ es, e.Adds) : (p.perform es).1.trees = p.trees := by
  have htext : ∀ e ∈ es, ∀ id text, e ≠ .setText id text := fun e he id text heq => by
    subst heq
    exact hes _ he
  obtain ⟨htree, hloose⟩ := trees_perform (p := p) htext
  unfold Page.trees
  rw [htree, hloose]

/-- A class name leaves every attribute alone that is not the list of class names. -/
theorem keeps_addClass {id j : Nat} {token name : String} (hname : Text.lowerAsciiText name ≠ "class") :
    (Edit.addClass id token).Keeps (·.attr? name) j := by
  intro p q hq hj
  refine attr?_edit_of_ne hq hj fun n hslot => ?_
  cases hslot
  rw [Element.key_of_plain Element.plain_class, Element.key]
  split
  · exact hname.symm
  · rintro rfl
    exact hname (by decide)

theorem keeps_setAttr_of_ne {id j : Nat} {name value m : String} (hne : id ≠ j) :
    (Edit.setAttr id name value).Keeps (·.attr? m) j := by
  intro p q hq hj
  refine attr?_edit_of_ne hq hj fun n hslot => ?_
  cases hslot
  exact absurd rfl hne

variable (hwrapper : wrapper < p.elements.length) (hnative : native < p.elements.length) (hne : native ≠ wrapper)

include hwrapper hne in
theorem attr?_markingWith (hname : Element.validName s.enhancedAttr = true) (hclass : Element.Token s.enhancedClass)
    (hother : Text.lowerAsciiText s.enhancedAttr ≠ "class") :
    ((p.perform (markingWith s wrapper native)).1.element wrapper).attr? s.enhancedAttr = some "true" := by
  have hsound : ∀ x ∈ markingWith s wrapper native, x.Sound := fun _ => sound_markingWith hname hclass
  refine look_perform_of_makes (·.attr? s.enhancedAttr) [] _ _ hsound Edit.makes_setAttr (fun x hx => ?_) hwrapper
  simp only [List.mem_cons, List.not_mem_nil, or_false] at hx
  rcases hx with rfl | rfl | rfl
  · exact keeps_addClass hother
  · exact keeps_setAttr_of_ne hne
  · exact keeps_setAttr_of_ne hne

include hnative in
theorem hidden_markingWith (hname : Element.validName s.enhancedAttr = true) (hclass : Element.Token s.enhancedClass) :
    ((p.perform (markingWith s wrapper native)).1.element native).attr? "aria-hidden" = some "true" := by
  have hsound : ∀ x ∈ markingWith s wrapper native, x.Sound := fun _ => sound_markingWith hname hclass
  refine look_perform_of_makes (·.attr? "aria-hidden")
    [.setAttr wrapper s.enhancedAttr "true", .addClass wrapper s.enhancedClass] _ [.setAttr native "tabindex" "-1"]
    hsound Edit.makes_setAttr (fun x hx => ?_) hnative
  obtain rfl := List.mem_singleton.mp hx
  exact Edit.Spares.keeps (.of_slot rfl (by decide) fun _ => by decide) (by decide)

theorem hasAttr_of_attr? {e : Element} {name value : String} (h : e.attr? name = some value) : e.hasAttr name = true := by
  unfold Element.hasAttr
  rw [h]
  rfl

include hwrapper in
/-- The name of the mark is set, and the class name is refused. -/
theorem abandoned_of_refused_class (hname : Element.validName s.enhancedAttr = true)
    (hclass : ¬Element.Token s.enhancedClass) (hq : p.edit (.setAttr wrapper s.enhancedAttr "true") = .ok q) :
    Abandoned s wrapper native p q where
  trees := by
    obtain ⟨htree, hloose⟩ := trees_edit hq fun _ _ => by simp
    unfold Page.trees
    rw [htree, hloose]
  length := (edited_edit hq).length
  refused hnot := absurd (hname.symm.trans hnot) nofun
  marked _ := hasAttr_of_attr? (Edit.makes_setAttr p q hq hwrapper)
  lasting _ _ := Edit.makes_setAttr p q hq hwrapper
  shown _ id hid := by
    rw [edit_slot (e := .setAttr wrapper s.enhancedAttr "true") rfl hq, element_modify]
    exact if_neg fun h => hid h.1.symm
  hidden _ htoken := absurd htoken hclass

include hwrapper hnative hne in
theorem abandoned_markingWith (hname : Element.validName s.enhancedAttr = true) (hclass : Element.Token s.enhancedClass) :
    Abandoned s wrapper native p (p.perform (markingWith s wrapper native)).1 where
  trees := trees_of_adds fun _ => adds_markingWith
  length := (edited_perform p _).length
  refused hnot := absurd (hname.symm.trans hnot) nofun
  marked _ := by
    obtain ⟨q, hq⟩ := edit_of_sound (p := p) (e := .setAttr wrapper s.enhancedAttr "true") hname
    rw [perform_cons hq]
    refine hasAttr_perform (fun x hx => adds_markingWith (List.mem_cons_of_mem _ hx)) ?_
      (hasAttr_of_attr? (Edit.makes_setAttr p q hq hwrapper))
    rw [(edited_edit hq).length]
    exact hwrapper
  lasting _ hother := attr?_markingWith hwrapper hne hname hclass hother
  shown hnot := absurd hclass hnot
  hidden _ _ := hidden_markingWith hnative hname hclass

include hwrapper hnative in
/-- Hiding the arrow as well changes none of that. -/
theorem Abandoned.veiled (h : Abandoned s wrapper native p q) (hname : Element.validName s.enhancedAttr = true)
    (hclass : Element.Token s.enhancedClass) {arrow : Option Nat} (harrow : ∀ id ∈ arrow, id ≠ wrapper) :
    Abandoned s wrapper native p (q.perform (veiling arrow)).1 := by
  have hadds : ∀ x ∈ veiling arrow, x.Adds := by
    intro x hx
    obtain ⟨id, -, rfl⟩ := List.mem_map.mp hx
    trivial
  have hwrapper' : wrapper < q.elements.length := h.length ▸ hwrapper
  have hnative' : native < q.elements.length := h.length ▸ hnative
  constructor
  case trees => exact (trees_of_adds hadds).trans h.trees
  case length => exact (edited_perform q _).length.trans h.length
  case refused => exact fun hnot => absurd (hname.symm.trans hnot) nofun
  case marked => exact fun _ => hasAttr_perform hadds hwrapper' (h.marked hname)
  case lasting =>
    intro _ hother
    refine (look_perform_of_keeps (·.attr? s.enhancedAttr) (fun x hx => ?_) hwrapper').trans (h.lasting hname hother)
    obtain ⟨id, hid, rfl⟩ := List.mem_map.mp hx
    exact keeps_setAttr_of_ne (harrow id (Option.mem_toList.mp hid))
  case shown => exact fun hnot => absurd hclass hnot
  case hidden =>
    intro _ _
    cases arrow with
    | none => exact h.hidden hname hclass
    | some id =>
      by_cases hid : id = native
      · subst hid
        have hsound : ∀ x ∈ veiling (some id), x.Sound := fun x hx => (aside_veiling hx).sound
        exact look_perform_of_makes (·.attr? "aria-hidden") [] _ [] hsound
          Edit.makes_setAttr (fun x hx => absurd hx List.not_mem_nil) hnative'
      · refine (look_perform_of_keeps (·.attr? "aria-hidden") (fun x hx => ?_) hnative').trans (h.hidden hname hclass)
        obtain rfl := List.mem_singleton.mp hx
        exact keeps_setAttr_of_ne hid

theorem thenPerform_of_refused {es : List Edit} {g : Page.Fault} (hes : p.perform es = (q, some g))
    (next : Page → Except Fault Parts × Page) : thenPerform p es next = (.error (.ofPage g), q) := by
  unfold thenPerform
  rw [hes]

theorem ne_of_query {selector : String} {arrow : Option Nat} (hp : p.WellFormed)
    (h : p.query wrapper selector = .ok arrow) : ∀ id ∈ arrow, id ≠ wrapper := by
  rintro id hid rfl
  unfold query queryAll at h
  cases hread : Selector.read selector with
  | error g => simp [hread] at h
  | ok sel =>
    simp only [hread, Except.ok.injEq] at h
    rw [← h] at hid
    exact (hp.descendants id).1 (List.mem_filter.mp (List.mem_of_mem_head? hid)).1

include hwrapper hnative hne in
/-- Making the parts fails, and this is left of the page. -/
theorem abandoned_of_render (hp : p.WellFormed) (h : render p s wrapper native entries = (.error f, q)) :
    Abandoned s wrapper native p q := by
  unfold render at h
  by_cases hname : Element.validName s.enhancedAttr = true
  · obtain ⟨r, hr⟩ := edit_of_sound (p := p) (e := .setAttr wrapper s.enhancedAttr "true") hname
    by_cases hclass : Element.Token s.enhancedClass
    · have hsound : ∀ x ∈ markingWith s wrapper native, x.Sound := fun _ => sound_markingWith hname hclass
      rw [thenPerform_of_sound hsound] at h
      have hmarked := abandoned_markingWith hwrapper hnative hne hname hclass
      generalize (p.perform (markingWith s wrapper native)).1 = r at h hmarked
      have hr : r.WellFormed := hp.congr hmarked.trees hmarked.length
      cases hquery : r.query wrapper s.arrowSelector with
      | error g =>
        rw [hquery] at h
        cases h
        exact hmarked
      | ok arrow =>
        have hveiled := hmarked.veiled hwrapper hnative hname hclass (ne_of_query hr hquery)
        rw [hquery] at h
        simp only [thenPerform_of_sound fun x (hx : x ∈ veiling arrow) => (aside_veiling hx).sound] at h
        split at h
        · cases h
        · cases h
          -- Chance was asked for the menu's identifier before the document refused to make the trigger.
          exact ⟨hveiled.trees, hveiled.length, fun hnot => absurd (hname.symm.trans hnot) nofun, hveiled.marked,
            hveiled.lasting, hveiled.shown, hveiled.hidden⟩
    · obtain ⟨g, hg⟩ := Element.checkToken_of_not_token hclass
      have hrefused : r.edit (.addClass wrapper s.enhancedClass) = .error g := by
        simp only [edit, tryModify, Element.addClass, hg]
      rw [thenPerform_of_refused ((perform_cons hr _).trans (perform_of_refused hrefused _))] at h
      cases h
      exact abandoned_of_refused_class hwrapper hname hclass hr
  · have hrefused : p.edit (.setAttr wrapper s.enhancedAttr "true") = .error (.invalidName s.enhancedAttr) := by
      simp only [edit, tryModify, Element.setAttr, if_neg hname]
    rw [thenPerform_of_refused (perform_of_refused hrefused _)] at h
    cases h
    constructor
    case trees | length => rfl
    case refused => exact fun _ => rfl
    case shown => exact fun _ _ _ => rfl
    case marked | lasting | hidden => exact fun hvalid => absurd hvalid hname

end

namespace Live

variable {l m : Live} {wrapper : Nat} {f : Fault}

/-- A failed enhancement of a wrapper puts nothing into it, and nothing of the program but the page is different. If the
    page refused the name of the mark, the page is as it was. After any other failure the wrapper carries the mark, and
    unless that was the list of its class names it is never enhanced with these settings later; the native select is
    hidden from assistive technology when the class name is one that class lists take, and else nothing but the wrapper
    was written to. -/
theorem failed_enhancement_keeps_mark {s : SelectSettings} (hp : l.page.WellFormed)
    (hwrapper : wrapper ∈ Node.idsOf l.page.trees) (h : l.enhance wrapper s = (m, .error f)) :
    ∃ native, l.page.firstSelect? wrapper = some native ∧ m = { l with page := m.page } ∧
      m.page.trees = l.page.trees ∧ m.page.elements.length = l.page.elements.length ∧
      (Element.validName s.enhancedAttr = false → m = l) ∧
      (Element.validName s.enhancedAttr = true →
        (m.page.element wrapper).hasAttr s.enhancedAttr = true ∧
        (Text.lowerAsciiText s.enhancedAttr ≠ "class" →
          (m.enhance wrapper s).2 = .ok none) ∧
        (Element.Token s.enhancedClass → (m.page.element native).attr? "aria-hidden" = some "true") ∧
        (¬Element.Token s.enhancedClass → ∀ id, id ≠ wrapper → m.page.element id = l.page.element id)) := by
  unfold enhance at h
  split at h
  · cases h
  · next hfresh =>
    rw [query_select] at h
    dsimp only at h
    cases hfound : (l.page.firstSelect? wrapper).filter fun id => (l.page.element id).isA "select" with
    | none =>
      rw [hfound] at h
      cases h
    | some native =>
      rw [hfound] at h
      obtain ⟨hfirst, -⟩ := Option.filter_eq_some_iff.mp hfound
      have hbelow := mem_descendants_of_firstSelect? hfirst
      obtain ⟨hself, -, hknown⟩ := hp.descendants wrapper
      dsimp only at h
      split at h
      · cases h
      · split at h
        · cases h
        · split at h
          · next f' q hrender =>
            cases h
            have hleft := abandoned_of_render (hp.known wrapper hwrapper) (hknown native hbelow)
              (fun heq => hself (heq ▸ hbelow)) hp hrender
            refine ⟨native, hfirst, rfl, hleft.trees, hleft.length, fun hname => ?_, fun hname => ?_⟩
            · rw [hleft.refused hname]
            · refine ⟨hleft.marked hname, fun hother => ?_, hleft.hidden hname, hleft.shown⟩
              unfold enhance
              rw [if_pos (hleft.lasting hname hother)]
          · cases h

/-- A class name that the check of settings lets through and no class list takes. -/
def spacedClassDocument : String := "\x7b\"select\": \x7b\"enhanced_class\": \"is enhanced\"\x7d\x7d"

def spacedClass : SelectSettings := { enhancedClass := "is enhanced" }

theorem ofJson_spacedClassDocument : Settings.ofJson spacedClassDocument = .ok { select := spacedClass } := by decide +kernel

/-- A wrapper with a native select of one option. -/
def oneWrapper : Page :=
  (default : Page).withDocument (.element "html" true [] [.element "body" true []
    [.element "div" true [("data-retention-select", "")]
      [.element "select" true [("id", "keep")] [.element "option" true [] [.text "30 days"]]]]])

/-- The wrapper is marked though its enhancement failed, so that setting up finds nothing to do. -/
theorem spaced_class_keeps_mark : Settings.ofJson spacedClassDocument = .ok { select := spacedClass } ∧
    oneWrapper.WellFormed ∧ 2 ∈ Node.idsOf oneWrapper.trees ∧
    let r := (ofPage oneWrapper).enhance 2 spacedClass
    r.2 = .error (.ofPage (.blankInToken "is enhanced")) ∧ r.1.page.trees = oneWrapper.trees ∧
      (r.1.page.element 2).hasAttr "data-retention-enhanced" = true ∧ (r.1.enhance 2 spacedClass).2 = .ok none := by
  have hp : oneWrapper.WellFormed := wellFormed_default.withDocument _
  have hwrapper : 2 ∈ Node.idsOf oneWrapper.trees := by decide +kernel
  have hfailed : ((ofPage oneWrapper).enhance 2 spacedClass).2 = .error (.ofPage (.blankInToken "is enhanced")) := by
    decide +kernel
  have hrun : (ofPage oneWrapper).enhance 2 spacedClass =
      (((ofPage oneWrapper).enhance 2 spacedClass).1, .error (.ofPage (.blankInToken "is enhanced"))) := by
    rw [← hfailed]
  obtain ⟨native, -, -, htrees, -, -, hmarked⟩ := failed_enhancement_keeps_mark hp hwrapper hrun
  obtain ⟨hmark, hagain, -⟩ := hmarked (by decide)
  exact ⟨ofJson_spacedClassDocument, hp, hwrapper, hfailed, htrees, hmark, hagain (by decide)⟩

/-- So not every failed enhancement leaves its wrapper as it was, even with settings that were accepted. -/
theorem failure_marks_wrapper : ¬∀ (text : String) (s : Settings) (l m : Live) (wrapper : Nat) (f : Fault),
    Settings.ofJson text = .ok s → l.page.WellFormed → l.enhance wrapper s.select = (m, .error f) →
      (m.page.element wrapper).hasAttr s.select.enhancedAttr = false ∧
      (∀ native, l.page.firstSelect? wrapper = some native → m.page.element native = l.page.element native) ∧
      m.page.trees = l.page.trees := by
  intro h
  have hp : oneWrapper.WellFormed := wellFormed_default.withDocument _
  have hfailed : ((ofPage oneWrapper).enhance 2 spacedClass).2 = .error (.ofPage (.blankInToken "is enhanced")) := by
    decide +kernel
  have hmark : (((ofPage oneWrapper).enhance 2 spacedClass).1.page.element 2).hasAttr "data-retention-enhanced" = true := by
    decide +kernel
  have hclaim := (h _ _ (ofPage oneWrapper) _ 2 _ ofJson_spacedClassDocument hp (Prod.ext rfl hfailed)).1
  cases hclaim.symm.trans hmark

end Live
end Widget
end PageWidgets
