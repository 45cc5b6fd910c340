import PageWidgets.Proofs.Page.Edit
import PageWidgets.Widget.Select

/-! What an enhanced select shows on its page: the menu as open or closed, one entry as the chosen one, and one as the
    active one. Every effect of the listbox makes one of the three or none (`opened_after_expand`,
    `reflected_after_reflect`, `highlighted_after_highlight`) and leaves the others alone, as it does everything that
    another select shows. -/

namespace PageWidgets
namespace Widget

open Listbox Page

/-- The class names that selects show their states with. -/
abbrev stateClasses : List String := ["is-open", "is-active", "is-selected"]

/-- The attributes; an item is told by its identifier. -/
abbrev stateAttrs : List String := ["aria-expanded", "aria-activedescendant", "aria-selected", "id"]

namespace Parts

variable {a b : Parts} {p q : Page} {e : Effect} {id : Nat} {name : String} {x : Edit}

/-! ### What is shown -/

/-- The menu is shown as open or closed. A wrapper with slack may carry the class of an open menu all the same. -/
structure Opened (a : Parts) (slack : Prop) (on : Bool) (p : Page) : Prop where
  marked : on = true → (p.element a.wrapper).hasClass "is-open" = true
  of_marked : (p.element a.wrapper).hasClass "is-open" = true → on = true ∨ slack
  expanded : (p.element a.trigger).attr? "aria-expanded" = some (if on then "true" else "false")

/-- The entry at that index is shown as the chosen one, and no other. -/
structure Reflected (a : Parts) (entries : List Entry) (shown : Option Nat) (p : Page) : Prop where
  text : p.textContent a.trigger = ((shown.bind (entries[·]?)).map (·.label)).getD ""
  items : ∀ j id, a.items[j]? = some id →
    (p.element id).hasClass "is-selected" = decide (shown = some j) ∧
      (p.element id).attr? "aria-selected" = if shown = some j then some "true" else none

/-- The item at that index is shown as the active one, and no other. -/
structure Highlighted (a : Parts) (active : Option Nat) (p : Page) : Prop where
  items : ∀ j id, a.items[j]? = some id → (p.element id).hasClass "is-active" = decide (active = some j)
  menu : (p.element a.menu).attr? "aria-activedescendant" =
    (active.bind (a.items[·]?)).map fun id => (p.element id).identifier

/-- The elements of an enhanced select are elements of the page, the items are listed once, the wrapper is marked as
    enhanced, and there is nothing but text in the trigger. -/
structure Fits (a : Parts) (p : Page) : Prop where
  wrapper_known : a.wrapper < p.elements.length
  trigger_known : a.trigger < p.elements.length
  menu_known : a.menu < p.elements.length
  items_known : ∀ id ∈ a.items, id < p.elements.length
  items_distinct : a.items.Nodup
  leaf : p.Leaf a.trigger
  enhanced : (p.element a.wrapper).attr? "data-retention-enhanced" = some "true"

/-- Two selects have no element in common that they show their states with. -/
structure Apart (a b : Parts) : Prop where
  wrapper : a.wrapper ≠ b.wrapper
  trigger : a.trigger ≠ b.trigger
  menu : a.menu ≠ b.menu
  items : ∀ id ∈ a.items, id ∉ b.items

theorem Apart.symm (h : Apart a b) : Apart b a :=
  ⟨h.wrapper.symm, h.trigger.symm, h.menu.symm, fun id hb ha => h.items id ha hb⟩

/-! ### Pages that show the same -/

/-- Everything that selects show their states with is as it was; there may be more elements. -/
structure Unmoved (p q : Page) : Prop where
  length : p.elements.length ≤ q.elements.length
  attr : ∀ id < p.elements.length, ∀ name ∈ stateAttrs, (q.element id).attr? name = (p.element id).attr? name
  cls : ∀ id < p.elements.length, ∀ t ∈ stateClasses, (q.element id).hasClass t = (p.element id).hasClass t
  enhanced : ∀ id < p.elements.length, (p.element id).attr? "data-retention-enhanced" = some "true" →
    (q.element id).attr? "data-retention-enhanced" = some "true"

theorem Unmoved.of_alike (h : Alike p q) : Unmoved p q where
  length := Nat.le_of_eq h.length.symm
  attr id _ name _ := h.attr? id name
  cls id _ t _ := Element.hasClass_congr (h.attr? id "class") t
  enhanced id _ hid := (h.attr? id _).trans hid

theorem Unmoved.trans {r : Page} (h : Unmoved p q) (h' : Unmoved q r) : Unmoved p r where
  length := Nat.le_trans h.length h'.length
  attr id hid name hname := (h'.attr id (Nat.lt_of_lt_of_le hid h.length) name hname).trans (h.attr id hid name hname)
  cls id hid t ht := (h'.cls id (Nat.lt_of_lt_of_le hid h.length) t ht).trans (h.cls id hid t ht)
  enhanced id hid he := h'.enhanced id (Nat.lt_of_lt_of_le hid h.length) (h.enhanced id hid he)

theorem Fits.unmoved (h : a.Fits p) (hq : Unmoved p q) (hleaf : q.Leaf a.trigger) : a.Fits q where
  wrapper_known := Nat.lt_of_lt_of_le h.wrapper_known hq.length
  trigger_known := Nat.lt_of_lt_of_le h.trigger_known hq.length
  menu_known := Nat.lt_of_lt_of_le h.menu_known hq.length
  items_known id hid := Nat.lt_of_lt_of_le (h.items_known id hid) hq.length
  items_distinct := h.items_distinct
  leaf := hleaf
  enhanced := hq.enhanced _ h.wrapper_known h.enhanced

theorem Opened.unmoved {slack : Prop} {on : Bool} (h : a.Opened slack on p) (hf : a.Fits p) (hq : Unmoved p q) :
    a.Opened slack on q := by
  have hwrapper := hq.cls _ hf.wrapper_known "is-open" (by simp)
  constructor
  · rw [hwrapper]
    exact h.marked
  · rw [hwrapper]
    exact h.of_marked
  · rw [hq.attr _ hf.trigger_known _ (by simp)]
    exact h.expanded

theorem Reflected.unmoved {entries : List Entry} {shown : Option Nat} (h : a.Reflected entries shown p) (hf : a.Fits p)
    (hq : Unmoved p q) (htext : q.textContent a.trigger = p.textContent a.trigger) : a.Reflected entries shown q := by
  refine ⟨htext.trans h.text, fun j id hid => ?_⟩
  have hknown := hf.items_known id (List.mem_of_getElem? hid)
  rw [hq.cls id hknown _ (by simp), hq.attr id hknown _ (by simp)]
  exact h.items j id hid

theorem Highlighted.unmoved {active : Option Nat} (h : a.Highlighted active p) (hf : a.Fits p) (hq : Unmoved p q) :
    a.Highlighted active q := by
  constructor
  · intro j id hid
    rw [hq.cls id (hf.items_known id (List.mem_of_getElem? hid)) _ (by simp)]
    exact h.items j id hid
  · rw [hq.attr _ hf.menu_known _ (by simp), h.menu]
    refine Option.map_congr fun id hid => ?_
    obtain ⟨i, -, hi⟩ := Option.bind_eq_some_iff.mp hid
    unfold Element.identifier
    rw [hq.attr id (hf.items_known id (List.mem_of_getElem? hi)) _ (by simp)]

/-! ### What an effect writes -/

/-- The class names that an effect adds and removes. -/
def WritesClass (a : Parts) : Effect → Nat → String → Prop
  | .expand, id, name | .collapse, id, name => id = a.wrapper ∧ name = "is-open"
  | .highlight _ _, id, name => id ∈ a.items ∧ name = "is-active"
  | .reflect _, id, name => id ∈ a.items ∧ name = "is-selected"
  | _, _, _ => False

/-- The other attributes that an effect writes. -/
def WritesAttr (a : Parts) : Effect → Nat → String → Prop
  | .expand, id, name | .collapse, id, name => id = a.trigger ∧ name = "aria-expanded"
  | .highlight _ _, id, name => id = a.menu ∧ name = "aria-activedescendant"
  | .reflect _, id, name => id ∈ a.items ∧ name = "aria-selected"
  | _, _, _ => False

theorem token_of_writesClass (h : a.WritesClass e id name) : Element.Token name := by
  have hnames : ∀ n ∈ stateClasses, Element.Token n := by decide
  refine hnames name ?_
  cases e <;> simp only [WritesClass] at h <;> simp [h.2]

theorem name_of_writesAttr (h : a.WritesAttr e id name) :
    Element.validName name = true ∧ Element.Plain name ∧ name ≠ "class" := by
  have hnames : ∀ n ∈ ["aria-expanded", "aria-activedescendant", "aria-selected"],
      Element.validName n = true ∧ Element.Plain n ∧ n ≠ "class" := by decide
  refine hnames name ?_
  cases e <;> simp only [WritesAttr] at h <;> simp [h.2]

/-- An edit that carries out an effect, together with others. -/
inductive Fair (a : Parts) (e : Effect) : Edit → Prop where
  | addClass {id : Nat} {token : String} (h : a.WritesClass e id token) : Fair a e (.addClass id token)
  | removeClass {id : Nat} {token : String} (h : a.WritesClass e id token) : Fair a e (.removeClass id token)
  | setAttr {id : Nat} {name value : String} (h : a.WritesAttr e id name) : Fair a e (.setAttr id name value)
  | removeAttr {id : Nat} {name : String} (h : a.WritesAttr e id name) : Fair a e (.removeAttr id name)
  | setText {i : Nat} {text : String} (h : e = .reflect i) : Fair a e (.setText a.trigger text)
  | choose {i : Nat} {index : Option Nat} (h : e = .commit i) : Fair a e (.choose a.native index)
  | focus {id : Nat} (h : id = a.trigger ∨ id ∈ a.items) : Fair a e (.focus id)
  | scroll {id : Nat} : Fair a e (.scroll id)

theorem Fair.sound (h : a.Fair e x) : x.Sound := by
  cases h with
  | addClass h => exact token_of_writesClass h
  | removeClass h => exact token_of_writesClass h
  | setAttr h => exact (name_of_writesAttr h).1
  | _ => trivial

theorem Fair.keeps_hasClass (h : a.Fair e x) {t : String} (hno : ¬a.WritesClass e id t) :
    x.Keeps (·.hasClass t) id := by
  refine Edit.SparesClass.keeps ?_ h.sound
  cases h with
  | addClass h =>
    rintro rfl rfl
    exact hno h
  | removeClass h =>
    rintro rfl rfl
    exact hno h
  | setAttr h => exact .of_slot rfl (name_of_writesAttr h).2.1 fun _ => (name_of_writesAttr h).2.2
  | removeAttr h => exact .of_slot rfl (name_of_writesAttr h).2.1 fun _ => (name_of_writesAttr h).2.2
  | _ => exact Edit.Spares.of_slotless rfl

theorem Fair.keeps_attr? (h : a.Fair e x) (hname : Element.Plain name ∧ name ≠ "class")
    (hno : ¬a.WritesAttr e id name) : x.Keeps (·.attr? name) id := by
  refine Edit.Spares.keeps ?_ hname.1
  cases h with
  | addClass h => exact .of_slot rfl Element.plain_class fun _ => hname.2.symm
  | removeClass h => exact .of_slot rfl Element.plain_class fun _ => hname.2.symm
  | setAttr h =>
    refine .of_slot rfl (name_of_writesAttr h).2.1 ?_
    rintro rfl rfl
    exact hno h
  | removeAttr h =>
    refine .of_slot rfl (name_of_writesAttr h).2.1 ?_
    rintro rfl rfl
    exact hno h
  | _ => exact Edit.Spares.of_slotless rfl

end Parts

/-! ### The edits of an effect -/

namespace Select

variable {w : Select} {b : Parts} {p : Page} {e : Effect} {id : Nat} {name : String} {x : Edit}

theorem reflectItems_append (s : SelectSettings) (chosen i : Nat) (l m : List Nat) :
    reflectItems s chosen i (l ++ m) = reflectItems s chosen i l ++ reflectItems s chosen (i + l.length) m := by
  induction l generalizing i with
  | nil => rfl
  | cons id l ih =>
    have hnext : i + 1 + l.length = i + (id :: l).length := by
      rw [List.length_cons]
      omega
    rw [List.cons_append, reflectItems, reflectItems, ih, hnext, List.append_assoc]

theorem fair_of_mem_reflectItems {chosen i : Nat} {l : List Nat} (hl : ∀ id ∈ l, id ∈ b.items)
    (hx : x ∈ reflectItems {} chosen i l) : b.Fair (.reflect chosen) x := by
  induction l generalizing i with
  | nil => exact absurd hx List.not_mem_nil
  | cons id l ih =>
    have hid := hl id List.mem_cons_self
    rw [reflectItems] at hx
    rcases List.mem_append.mp hx with hx | hx
    · split at hx
      · rcases List.mem_cons.mp hx with rfl | hx
        · exact .addClass ⟨hid, rfl⟩
        · rw [List.mem_singleton.mp hx]
          exact .setAttr ⟨hid, rfl⟩
      · rcases List.mem_cons.mp hx with rfl | hx
        · exact .removeClass ⟨hid, rfl⟩
        · rw [List.mem_singleton.mp hx]
          exact .removeAttr ⟨hid, rfl⟩
    · exact ih (fun j hj => hl j (List.mem_cons_of_mem id hj)) hx

theorem fair_of_mem_edits (hw : w.settings = {}) (hx : x ∈ w.edits p e) : w.parts.Fair e x := by
  cases e with
  | expand =>
    rw [edits, hw] at hx
    rcases List.mem_cons.mp hx with rfl | hx
    · exact .addClass ⟨rfl, rfl⟩
    · rw [List.mem_singleton.mp hx]
      exact .setAttr ⟨rfl, rfl⟩
  | collapse =>
    rw [edits, hw] at hx
    rcases List.mem_cons.mp hx with rfl | hx
    · exact .removeClass ⟨rfl, rfl⟩
    · rw [List.mem_singleton.mp hx]
      exact .setAttr ⟨rfl, rfl⟩
  | highlight i focus =>
    rw [edits, hw] at hx
    split at hx
    · exact absurd hx List.not_mem_nil
    · next item hitem =>
      simp only [List.mem_append, List.mem_map, List.mem_cons, List.not_mem_nil, or_false] at hx
      rcases hx with (⟨id, hid, rfl⟩ | rfl | rfl) | hx
      · exact .removeClass ⟨hid, rfl⟩
      · exact .addClass ⟨List.mem_of_getElem? hitem, rfl⟩
      · exact .setAttr ⟨rfl, rfl⟩
      · split at hx
        · rcases List.mem_cons.mp hx with rfl | hx
          · exact .focus (.inr (List.mem_of_getElem? hitem))
          · rw [List.mem_singleton.mp hx]
            exact .scroll
        · exact absurd hx List.not_mem_nil
  | commit i =>
    rw [List.mem_singleton.mp hx]
    exact .choose rfl
  | reflect i =>
    rw [edits, hw] at hx
    rcases List.mem_cons.mp hx with rfl | hx
    · exact .setText rfl
    · exact fair_of_mem_reflectItems (fun id hid => hid) hx
  | focusTrigger =>
    rw [List.mem_singleton.mp hx]
    exact .focus (.inl rfl)
  | listen => exact absurd hx List.not_mem_nil
  | unlisten => exact absurd hx List.not_mem_nil
  | notify => exact absurd hx List.not_mem_nil

/-- The page after an effect. -/
def after (w : Select) (p : Page) (e : Effect) : Page := (p.perform (w.edits p e)).1

theorem edited_after (w : Select) (p : Page) (e : Effect) : Edited p (w.after p e) := edited_perform p _

theorem perform_edits (hw : w.settings = {}) : p.perform (w.edits p e) = (w.after p e, none) :=
  Prod.ext rfl (perform_of_sound fun _ hx => (fair_of_mem_edits hw hx).sound)

/-! ### What an effect leaves alone -/

theorem hasClass_after (hw : w.settings = {}) (hid : id < p.elements.length) {t : String}
    (h : ¬w.parts.WritesClass e id t) : ((w.after p e).element id).hasClass t = (p.element id).hasClass t :=
  look_perform_of_keeps (·.hasClass t) (fun _ hx => (fair_of_mem_edits hw hx).keeps_hasClass h) hid

theorem attr?_after (hw : w.settings = {}) (hname : Element.Plain name ∧ name ≠ "class")
    (hid : id < p.elements.length) (h : ¬w.parts.WritesAttr e id name) :
    ((w.after p e).element id).attr? name = (p.element id).attr? name :=
  look_perform_of_keeps (·.attr? name) (fun _ hx => (fair_of_mem_edits hw hx).keeps_attr? hname h) hid

theorem opened_after {slack : Prop} {on : Bool} (hw : w.settings = {}) (hb : b.Fits p) (h : b.Opened slack on p)
    (hclass : ¬w.parts.WritesClass e b.wrapper "is-open")
    (hattr : ¬w.parts.WritesAttr e b.trigger "aria-expanded") : b.Opened slack on (w.after p e) := by
  have hwrapper := hasClass_after hw hb.wrapper_known hclass
  constructor
  · rw [hwrapper]
    exact h.marked
  · rw [hwrapper]
    exact h.of_marked
  · rw [attr?_after hw (by decide) hb.trigger_known hattr]
    exact h.expanded

theorem reflected_after {entries : List Entry} {shown : Option Nat} (hw : w.settings = {}) (hb : b.Fits p)
    (h : b.Reflected entries shown p) (hitems : ∀ id ∈ b.items,
      ¬w.parts.WritesClass e id "is-selected" ∧ ¬w.parts.WritesAttr e id "aria-selected")
    (htext : (w.after p e).textContent b.trigger = p.textContent b.trigger) :
    b.Reflected entries shown (w.after p e) := by
  refine ⟨htext.trans h.text, fun j id hid => ?_⟩
  have hmem := List.mem_of_getElem? hid
  obtain ⟨hclass, hattr⟩ := hitems id hmem
  rw [hasClass_after hw (hb.items_known id hmem) hclass,
    attr?_after hw (by decide) (hb.items_known id hmem) hattr]
  exact h.items j id hid

theorem highlighted_after {active : Option Nat} (hw : w.settings = {}) (hb : b.Fits p) (h : b.Highlighted active p)
    (hitems : ∀ id ∈ b.items, ¬w.parts.WritesClass e id "is-active")
    (hmenu : ¬w.parts.WritesAttr e b.menu "aria-activedescendant") : b.Highlighted active (w.after p e) := by
  constructor
  · intro j id hid
    have hmem := List.mem_of_getElem? hid
    rw [hasClass_after hw (hb.items_known id hmem) (hitems id hmem)]
    exact h.items j id hid
  · rw [attr?_after hw (by decide) hb.menu_known hmenu, h.menu]
    -- The identifiers of the items are not written at all.
    refine Option.map_congr fun id hid => ?_
    obtain ⟨i, -, hi⟩ := Option.bind_eq_some_iff.mp hid
    have hid' : ¬w.parts.WritesAttr e id "id" := by
      cases e <;> simp [Parts.WritesAttr]
    unfold Element.identifier
    rw [attr?_after hw (by decide) (hb.items_known id (List.mem_of_getElem? hi)) hid']

/-! ### Trees and texts -/

theorem trees_after (hw : w.settings = {}) (he : ∀ i, e ≠ .reflect i) : (w.after p e).trees = p.trees := by
  have htextless : ∀ x ∈ w.edits p e, ∀ id text, x ≠ .setText id text := by
    rintro x hx id text rfl
    cases fair_of_mem_edits hw hx with
    | setText h => exact he _ h
  obtain ⟨htree, hloose⟩ := trees_perform htextless
  unfold trees after
  rw [htree, hloose]

theorem setText_not_mem_reflectItems {s : SelectSettings} {chosen i : Nat} {l : List Nat} {text : String} :
    .setText id text ∉ reflectItems s chosen i l := by
  induction l generalizing i with
  | nil => exact List.not_mem_nil
  | cons k l ih =>
    intro hmem
    rw [reflectItems] at hmem
    rcases List.mem_append.mp hmem with hmem | hmem
    · split at hmem <;> simp at hmem
    · exact ih hmem

theorem trees_after_reflect (hw : w.settings = {}) (i : Nat) : (w.after p (.reflect i)).trees =
    (p.withChildren w.parts.trigger fun _ => textNodes ((w.state.entries[i]?.map (·.label)).getD "")).trees := by
  have hitems : ∀ x ∈ reflectItems {} i 0 w.parts.items, ∀ id text, x ≠ .setText id text := by
    rintro x hx id text rfl
    exact setText_not_mem_reflectItems hx
  have hfirst : p.edit (.setText w.parts.trigger ((w.state.entries[i]?.map (·.label)).getD "")) = .ok _ := rfl
  obtain ⟨htree, hloose⟩ := trees_perform (p := p.withChildren _ _) hitems
  unfold trees after
  rw [edits, hw, perform_cons hfirst, htree, hloose]

theorem idsOf_after (hw : w.settings = {}) (hp : p.WellFormed) (htrigger : p.Leaf w.parts.trigger) :
    Node.idsOf (w.after p e).trees = Node.idsOf p.trees := by
  by_cases he : ∃ i, e = .reflect i
  · obtain ⟨i, rfl⟩ := he
    rw [trees_after_reflect hw]
    exact (hp.setText _ htrigger).1
  · rw [trees_after hw fun i heq => he ⟨i, heq⟩]

/-- Every element stands where it stood, and every leaf keeps its text but for the trigger of the entry reflected. -/
theorem texts_after (hw : w.settings = {}) (hp : p.WellFormed) (htrigger : p.Leaf w.parts.trigger) :
    (w.after p e).WellFormed ∧ ∀ u, p.Leaf u → (w.after p e).Leaf u ∧
      (u ≠ w.parts.trigger ∨ (∀ i, e ≠ .reflect i) → (w.after p e).textContent u = p.textContent u) := by
  have hlength := (edited_after w p e).length
  by_cases he : ∃ i, e = .reflect i
  · obtain ⟨i, rfl⟩ := he
    have htrees := trees_after_reflect (p := p) hw i
    obtain ⟨-, hq, hleaf, -⟩ := hp.setText ((w.state.entries[i]?.map (·.label)).getD "") htrigger
    refine ⟨hq.congr htrees hlength, fun u hu => ?_⟩
    by_cases hut : u = w.parts.trigger
    · subst hut
      refine ⟨hleaf.congr (by rw [htrees]), fun h => ?_⟩
      rcases h with hne | hno
      · exact absurd rfl hne
      · exact absurd rfl (hno i)
    · have hsame := hp.leaf_setText ((w.state.entries[i]?.map (·.label)).getD "") htrigger hu hut
      exact ⟨hu.congr (by rw [htrees, hsame]), fun _ => textContent_congr (by rw [htrees, hsame])⟩
  · have htrees := trees_after (p := p) hw fun i heq => he ⟨i, heq⟩
    exact ⟨hp.congr htrees hlength,
      fun u hu => ⟨hu.congr (by rw [htrees]), fun _ => textContent_congr (by rw [htrees])⟩⟩

theorem fits_after (hw : w.settings = {}) (hp : p.WellFormed) (hf : w.parts.Fits p) (hb : b.Fits p) :
    b.Fits (w.after p e) := by
  have hlength := (edited_after w p e).length
  have hmark : ¬w.parts.WritesAttr e b.wrapper "data-retention-enhanced" := by
    cases e <;> simp [Parts.WritesAttr]
  refine ⟨?_, ?_, ?_, ?_, hb.items_distinct, ((texts_after hw hp hf.leaf).2 _ hb.leaf).1, ?_⟩
  · rw [hlength]
    exact hb.wrapper_known
  · rw [hlength]
    exact hb.trigger_known
  · rw [hlength]
    exact hb.menu_known
  · rw [hlength]
    exact hb.items_known
  · rw [attr?_after hw (by decide) hb.wrapper_known hmark]
    exact hb.enhanced

/-! ### What an effect makes -/

section
variable {slack : Prop}

theorem opened_perform (on : Bool) {c : Edit} (hf : w.parts.Fits p) (hsound : c.Sound)
    (hc : c.Makes (·.hasClass "is-open") w.parts.wrapper on) :
    w.parts.Opened slack on (p.perform
      [c, .setAttr w.parts.trigger "aria-expanded" (if on then "true" else "false")]).1 := by
  let aria : Edit := .setAttr w.parts.trigger "aria-expanded" (if on then "true" else "false")
  have hboth : ∀ x ∈ [c, aria], x.Sound := by
    intro x hx
    rcases List.mem_cons.mp hx with rfl | hx
    · exact hsound
    · rw [List.mem_singleton.mp hx]
      show Element.validName "aria-expanded" = true
      decide
  have hwrapper : (((p.perform [c, aria]).1).element w.parts.wrapper).hasClass "is-open" = on := by
    refine look_perform_of_makes (·.hasClass "is-open") [] c [aria] hboth hc (fun x hx => ?_) hf.wrapper_known
    rw [List.mem_singleton.mp hx]
    exact Edit.Spares.keeps_hasClass (.of_slot rfl (by decide) fun _ => by decide) _
  refine ⟨fun hon => hwrapper.trans hon, fun hmarked => .inl (hwrapper.symm.trans hmarked), ?_⟩
  exact look_perform_of_makes (·.attr? "aria-expanded") [c] aria [] hboth Edit.makes_setAttr
    (fun x hx => absurd hx List.not_mem_nil) hf.trigger_known

theorem opened_after_expand (hw : w.settings = {}) (hf : w.parts.Fits p) :
    w.parts.Opened slack true (w.after p .expand) := by
  have htoken : Element.Token "is-open" := by decide
  unfold after
  rw [edits, hw]
  exact opened_perform true hf htoken (Edit.makes_addClass htoken)

theorem opened_after_collapse (hw : w.settings = {}) (hf : w.parts.Fits p) :
    w.parts.Opened slack false (w.after p .collapse) := by
  have htoken : Element.Token "is-open" := by decide
  unfold after
  rw [edits, hw]
  exact opened_perform false hf htoken Edit.makes_removeClass

end

theorem exists_split {l : List Nat} {j id : Nat} (h : l[j]? = some id) :
    ∃ before later, l = before ++ id :: later ∧ before.length = j := by
  obtain ⟨hj, rfl⟩ := List.getElem?_eq_some_iff.mp h
  refine ⟨l.take j, l.drop (j + 1), ?_, by simp; omega⟩
  rw [← List.drop_eq_getElem_cons hj, List.take_append_drop]

/-- The two edits of an item are followed only by those of other items. -/
theorem item_after_reflect (hw : w.settings = {}) (hf : w.parts.Fits p) {i j id : Nat}
    (hid : w.parts.items[j]? = some id) {first second : Edit} {marked : Bool} {aria : Option String}
    (hone : reflectItems {} i j [id] = [first, second]) (hfirst : first.Makes (·.hasClass "is-selected") id marked)
    (hslot : second.slot? = some (id, "aria-selected")) (hsecond : second.Makes (·.attr? "aria-selected") id aria) :
    ((w.after p (.reflect i)).element id).hasClass "is-selected" = marked ∧
      ((w.after p (.reflect i)).element id).attr? "aria-selected" = aria := by
  have hknown : id < p.elements.length := hf.items_known id (List.mem_of_getElem? hid)
  have hdistinct := hf.items_distinct
  obtain ⟨before, later, hsplit, hlength⟩ := exists_split hid
  rw [hsplit, List.nodup_append, List.nodup_cons] at hdistinct
  have hlater : ∀ x ∈ reflectItems {} i (j + 1) later, Parts.Fair { w.parts with items := later } (.reflect i) x :=
    fun x hx => fair_of_mem_reflectItems (fun k hk => hk) hx
  have hsound : ∀ x ∈ w.edits p (.reflect i), x.Sound := fun x hx => (fair_of_mem_edits hw hx).sound
  have hedits : w.edits p (.reflect i) =
      (.setText w.parts.trigger ((w.state.entries[i]?.map (·.label)).getD "") :: reflectItems {} i 0 before) ++
        first :: second :: reflectItems {} i (j + 1) later := by
    have hpair := reflectItems_append {} i j [id] later
    rw [hone] at hpair
    rw [edits, hw, hsplit, reflectItems_append, Nat.zero_add, hlength]
    exact congrArg (fun l => Edit.setText _ _ :: (reflectItems {} i 0 before ++ l)) hpair
  unfold after
  rw [hedits] at hsound ⊢
  constructor
  · refine look_perform_of_makes (·.hasClass "is-selected") _ first _ hsound hfirst (fun x hx => ?_) hknown
    rcases List.mem_cons.mp hx with rfl | hx
    · exact Edit.Spares.keeps_hasClass (.of_slot hslot (by decide) fun _ => by decide) _
    · exact (hlater x hx).keeps_hasClass fun h => hdistinct.2.1.1 h.1
  · rw [List.append_cons] at hsound ⊢
    exact look_perform_of_makes (·.attr? "aria-selected") _ second _ hsound hsecond
      (fun x hx => (hlater x hx).keeps_attr? (by decide) fun h => hdistinct.2.1.1 h.1) hknown

theorem reflected_after_reflect (hw : w.settings = {}) (hp : p.WellFormed) (hf : w.parts.Fits p) (i : Nat) :
    w.parts.Reflected w.state.entries (some i) (w.after p (.reflect i)) := by
  have htoken : Element.Token "is-selected" := by decide
  constructor
  · obtain ⟨-, -, -, htext⟩ := hp.setText ((w.state.entries[i]?.map (·.label)).getD "") hf.leaf
    exact (textContent_congr (by rw [trees_after_reflect hw])).trans htext
  · intro j id hid
    by_cases hij : j = i
    · have hone : reflectItems {} i j [id] = [.addClass id "is-selected", .setAttr id "aria-selected" "true"] := by
        simp [reflectItems, hij]
      obtain ⟨hclass, haria⟩ :=
        item_after_reflect hw hf hid hone (Edit.makes_addClass htoken) rfl Edit.makes_setAttr
      rw [hclass, haria]
      simp [hij]
    · have hone : reflectItems {} i j [id] = [.removeClass id "is-selected", .removeAttr id "aria-selected"] := by
        simp [reflectItems, hij]
      obtain ⟨hclass, haria⟩ := item_after_reflect hw hf hid hone Edit.makes_removeClass rfl Edit.makes_removeAttr
      rw [hclass, haria]
      simp [Ne.symm hij]

/-- What brings an item into view, if that is wanted. -/
def seeking (item : Nat) (focus : Bool) : List Edit := if focus then [.focus item, .scroll item] else []

theorem spares_of_mem_seeking {item j : Nat} {focus : Bool} (hx : x ∈ seeking item focus) (m : String) :
    x.Spares j m := by
  cases focus
  · exact absurd hx List.not_mem_nil
  · rcases List.mem_cons.mp hx with rfl | hx
    · exact .of_slotless rfl
    · rw [List.mem_singleton.mp hx]
      exact .of_slotless rfl

theorem edits_highlight (hw : w.settings = {}) {i item : Nat} (hitem : w.parts.items[i]? = some item) (focus : Bool) :
    w.edits p (.highlight i focus) = w.parts.items.map (.removeClass · "is-active") ++ .addClass item "is-active" ::
      .setAttr w.parts.menu "aria-activedescendant" (p.element item).identifier :: seeking item focus := by
  simp only [edits, hw, hitem, List.append_assoc, List.cons_append, List.nil_append]
  rfl

/-- The class is taken from every item and then given to one. -/
theorem item_after_highlight (hw : w.settings = {}) (hf : w.parts.Fits p) {i item j id : Nat}
    (hitem : w.parts.items[i]? = some item) (hid : w.parts.items[j]? = some id) (focus : Bool) :
    ((w.after p (.highlight i focus)).element id).hasClass "is-active" = decide (i = j) := by
  have htoken : Element.Token "is-active" := by decide
  have hknown := hf.items_known id (List.mem_of_getElem? hid)
  have hsound : ∀ x ∈ w.edits p (.highlight i focus), x.Sound := fun x hx => (fair_of_mem_edits hw hx).sound
  -- The menu and the focus come after the class names, and touch none.
  have hlast : ∀ k, ∀ x ∈ Edit.setAttr w.parts.menu "aria-activedescendant" (p.element item).identifier ::
      seeking item focus, x.Keeps (·.hasClass "is-active") k := by
    intro k x hx
    rcases List.mem_cons.mp hx with rfl | hx
    · exact Edit.Spares.keeps_hasClass (.of_slot rfl (by decide) fun _ => by decide) _
    · exact (spares_of_mem_seeking hx _).keeps_hasClass _
  unfold after
  rw [edits_highlight hw hitem] at hsound ⊢
  by_cases hij : i = j
  · subst hij
    obtain rfl : item = id := Option.some.inj (hitem.symm.trans hid)
    rw [decide_eq_true rfl]
    exact look_perform_of_makes (·.hasClass "is-active") _ _ _ hsound (Edit.makes_addClass htoken) (hlast item) hknown
  · obtain ⟨before, later, hsplit, hlength⟩ := exists_split hid
    have hdistinct := hf.items_distinct
    have hother : item ≠ id := by
      intro heq
      have hi := (List.getElem?_eq_some_iff.mp hitem).1
      exact hij ((List.getElem?_inj hi hdistinct).mp (hitem.trans ((congrArg some heq).trans hid.symm)))
    rw [hsplit, List.nodup_append, List.nodup_cons] at hdistinct
    rw [hsplit, List.map_append, List.map_cons, List.append_assoc, List.cons_append] at hsound ⊢
    rw [decide_eq_false hij]
    refine look_perform_of_makes (·.hasClass "is-active") _ _ _ hsound Edit.makes_removeClass (fun x hx => ?_) hknown
    rcases List.mem_append.mp hx with hx | hx
    · obtain ⟨k, hk, rfl⟩ := List.mem_map.mp hx
      exact Edit.SparesClass.keeps (fun heq => absurd (heq ▸ hk) hdistinct.2.1.1) htoken
    · rcases List.mem_cons.mp hx with rfl | hx
      · exact Edit.SparesClass.keeps (fun heq => absurd heq hother) htoken
      · exact hlast id x hx

theorem highlighted_after_highlight (hw : w.settings = {}) (hf : w.parts.Fits p) {i : Nat}
    (hi : i < w.parts.items.length) (focus : Bool) :
    w.parts.Highlighted (some i) (w.after p (.highlight i focus)) := by
  obtain ⟨item, hitem⟩ : ∃ item, w.parts.items[i]? = some item := ⟨_, List.getElem?_eq_getElem hi⟩
  constructor
  · intro j id hid
    rw [item_after_highlight hw hf hitem hid]
    simp
  · have hsound : ∀ x ∈ w.edits p (.highlight i focus), x.Sound := fun x hx => (fair_of_mem_edits hw hx).sound
    have hid : ¬w.parts.WritesAttr (.highlight i focus) item "id" := by simp [Parts.WritesAttr]
    have hsame : ((w.after p (.highlight i focus)).element item).identifier = (p.element item).identifier := by
      unfold Element.identifier
      rw [attr?_after hw (by decide) (hf.items_known item (List.mem_of_getElem? hitem)) hid]
    rw [Option.bind_some, hitem, Option.map_some, hsame]
    unfold after
    rw [edits_highlight hw hitem, List.append_cons] at hsound ⊢
    exact look_perform_of_makes (·.attr? "aria-activedescendant") _ _ (seeking item focus) hsound Edit.makes_setAttr
      (fun x hx => (spares_of_mem_seeking hx _).keeps (by decide)) hf.menu_known

end Select
end Widget
end PageWidgets
