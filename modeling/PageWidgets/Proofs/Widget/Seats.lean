import PageWidgets.Proofs.Page.Growth
import PageWidgets.Proofs.Widget.OverlayFace
import PageWidgets.Proofs.Widget.SelectParts

/-! Where enhanced selects stand. The trigger and the menu of a select are right below its wrapper, the items below the
    menu, and the native select below the wrapper (`Seat`). A seat reads a page only through what is below what, the
    tags, and the few attributes that elements are found by; nothing that the program does to a page changes these
    (`Hosts`), so a seat once taken is kept. -/

namespace PageWidgets
namespace Widget

open Listbox Page

/-! ### What the program writes -/

/-- The attributes that the program writes on elements it finds, the mark of an enhanced wrapper apart. -/
abbrev writtenAttrs : List String :=
  ["class", "style", "hidden", "tabindex", "aria-hidden", "aria-expanded", "aria-activedescendant", "aria-selected",
    "data-active-view"]

/-- The attributes by which a wrapper and what the overlay may focus are found. -/
abbrev lastingAttrs : List String := ["data-retention-select", "data-cookie-consent-focus"]

/-- The edit writes no attribute but those. -/
def Modest (x : Edit) : Prop := ∀ id name, x.slot? = some (id, name) → name ∈ writtenAttrs

theorem Modest.of_slot {x : Edit} {id : Nat} {name : String} (hslot : x.slot? = some (id, name))
    (hname : name ∈ writtenAttrs) : Modest x := by
  intro i n h
  rw [hslot] at h
  obtain ⟨rfl, rfl⟩ := Prod.mk.inj (Option.some.inj h)
  exact hname

theorem Modest.of_slotless {x : Edit} (hslot : x.slot? = none) : Modest x := by
  intro id name h
  rw [hslot] at h
  cases h

theorem Modest.spares {x : Edit} (hx : Modest x) {m : String} (hm : m ∈ "data-retention-enhanced" :: lastingAttrs)
    (j : Nat) : x.Spares j m := by
  have hwritten : ∀ n ∈ writtenAttrs, Element.Plain n ∧ ∀ m ∈ "data-retention-enhanced" :: lastingAttrs, n ≠ m := by
    decide
  intro name hname
  obtain ⟨hplain, hne⟩ := hwritten name (hx j name hname)
  exact ⟨hplain, hne m hm⟩

theorem plain_lasting {m : String} (hm : m ∈ "data-retention-enhanced" :: lastingAttrs) : Element.Plain m := by
  have hall : ∀ m ∈ "data-retention-enhanced" :: lastingAttrs, Element.Plain m := by decide
  exact hall m hm

/-- What elements are found by is as it was after modest edits. -/
theorem attr?_perform_of_modest {p : Page} {es : List Edit} (hes : ∀ x ∈ es, Modest x) {id : Nat}
    (hid : id < p.elements.length) {m : String} (hm : m ∈ "data-retention-enhanced" :: lastingAttrs) :
    ((p.perform es).1.element id).attr? m = (p.element id).attr? m :=
  look_perform_of_keeps (·.attr? m) (fun x hx => ((hes x hx).spares hm id).keeps (plain_lasting hm)) hid

theorem Parts.Fair.modest {a : Parts} {e : Effect} {x : Edit} (h : a.Fair e x) : Modest x := by
  cases h with
  | addClass h => exact .of_slot rfl (by simp)
  | removeClass h => exact .of_slot rfl (by simp)
  | setAttr h => exact .of_slot rfl (by cases e <;> simp only [Parts.WritesAttr] at h <;> simp [h.2])
  | removeAttr h => exact .of_slot rfl (by cases e <;> simp only [Parts.WritesAttr] at h <;> simp [h.2])
  | setText h => exact .of_slotless rfl
  | choose => exact .of_slotless rfl
  | focus => exact .of_slotless rfl
  | scroll => exact .of_slotless rfl

theorem Overlay.Fair.modest {o : Overlay} {e : Consent.Effect} {x : Edit} (h : Overlay.Fair o e x) : Modest x := by
  intro id name hslot
  have hwrites := h.writes id name hslot
  cases e <;> simp only [Overlay.Writes] at hwrites <;> simp only [List.mem_cons] <;> grind

theorem modest_marking {wrapper native : Nat} {x : Edit} (hx : x ∈ (marking wrapper native).tail) : Modest x := by
  simp only [List.tail_cons, List.mem_cons, List.not_mem_nil, or_false] at hx
  rcases hx with rfl | rfl | rfl <;> exact .of_slot rfl (by simp)

theorem modest_veiling {arrow : Option Nat} {x : Edit} (hx : x ∈ veiling arrow) : Modest x := by
  obtain ⟨id, -, rfl⟩ := List.mem_map.mp hx
  exact .of_slot rfl (by simp)

/-! ### Hosting -/

/-- The element is no wrapper, and there is none below it. -/
def Bare (p : Page) (id : Nat) : Prop :=
  ∀ u, u = id ∨ u ∈ p.descendants id → (p.element u).hasAttr "data-retention-select" = false

/-- An element that nothing is looked for in. -/
structure Fresh (x : Element) : Prop where
  tag : x.tag ∈ ["", "button", "ul", "li"]
  lasting : ∀ name ∈ lastingAttrs, x.attr? name = none

/-- Whatever selects stand on in one page, they stand on in the other. -/
structure Hosts (p q : Page) : Prop where
  grown : Grown p q
  wellFormed : q.WellFormed
  lasting : ∀ id < p.elements.length, ∀ name ∈ lastingAttrs, (q.element id).attr? name = (p.element id).attr? name
  marks : ∀ id < p.elements.length, (p.element id).attr? "data-retention-enhanced" = some "true" →
    (q.element id).attr? "data-retention-enhanced" = some "true"
  fresh : ∀ id, p.elements.length ≤ id → Fresh (q.element id)
  children : ∀ id < p.elements.length, ∀ u ∈ p.childElements id, u ∈ q.childElements id
  bare : ∀ id < p.elements.length, Bare p id → q.descendants id = p.descendants id

theorem fresh_default : Fresh default := ⟨by decide, by decide⟩

namespace Hosts

variable {p q r : Page} {w : Select} {o : Overlay}

theorem hasAttr (h : Hosts p q) {id : Nat} (hid : id < p.elements.length) {name : String} (hname : name ∈ lastingAttrs) :
    (q.element id).hasAttr name = (p.element id).hasAttr name := by
  unfold Element.hasAttr
  rw [h.lasting id hid name hname]

theorem bare_of_bare (h : Hosts p q) {id : Nat} (hid : id < p.elements.length) (hp : p.WellFormed) (hbare : Bare p id) :
    Bare q id := by
  intro u hu
  rw [h.bare id hid hbare] at hu
  have hknown : u < p.elements.length := by
    rcases hu with rfl | hu
    · exact hid
    · exact (hp.descendants id).2.2 u hu
  rw [h.hasAttr hknown (by simp)]
  exact hbare u hu

theorem trans (h : Hosts p q) (h' : Hosts q r) (hp : p.WellFormed) : Hosts p r where
  grown := h.grown.trans h'.grown
  wellFormed := h'.wellFormed
  lasting id hid name hname :=
    (h'.lasting id (Nat.lt_of_lt_of_le hid h.grown.length) name hname).trans (h.lasting id hid name hname)
  marks id hid hmark := h'.marks id (Nat.lt_of_lt_of_le hid h.grown.length) (h.marks id hid hmark)
  fresh id hid := by
    rcases Nat.lt_or_ge id q.elements.length with hlt | hge
    · have hfresh := h.fresh id hid
      refine ⟨?_, fun name hname => ?_⟩
      · rw [h'.grown.tag id hlt]
        exact hfresh.tag
      · rw [h'.lasting id hlt name hname]
        exact hfresh.lasting name hname
    · exact h'.fresh id hge
  children id hid u hu := h'.children id (Nat.lt_of_lt_of_le hid h.grown.length) u (h.children id hid u hu)
  bare id hid hbare := by
    rw [h'.bare id (Nat.lt_of_lt_of_le hid h.grown.length) (h.bare_of_bare hid hp hbare)]
    exact h.bare id hid hbare

theorem of_grown (hgrown : Grown p q) (hq : q.WellFormed) (hlength : q.elements.length = p.elements.length)
    (hlasting : ∀ id < p.elements.length, ∀ name ∈ lastingAttrs, (q.element id).attr? name = (p.element id).attr? name)
    (hmarks : ∀ id < p.elements.length, (p.element id).attr? "data-retention-enhanced" = some "true" →
      (q.element id).attr? "data-retention-enhanced" = some "true")
    (hchildren : ∀ id, q.childElements id = p.childElements id) : Hosts p q where
  grown := hgrown
  wellFormed := hq
  lasting := hlasting
  marks := hmarks
  fresh id hid := by
    rw [element_of_unknown (by rw [hlength]; exact hid)]
    exact fresh_default
  children id _ u hu := by
    rw [hchildren]
    exact hu
  bare id hid _ := hgrown.descendants_eq hq hlength hid

theorem of_attrs (hp : p.WellFormed) (htree : q.tree = p.tree) (hloose : q.loose = p.loose)
    (hlength : q.elements.length = p.elements.length) (htag : ∀ id, (q.element id).tag = (p.element id).tag)
    (hhtml : ∀ id, (q.element id).html = (p.element id).html)
    (hattrs : ∀ id, (q.element id).attrs = (p.element id).attrs) : Hosts p q := by
  have htrees : q.trees = p.trees := by
    unfold trees
    rw [htree, hloose]
  have hroot : q.root? = p.root? := by
    unfold root?
    rw [htree]
  have hattr : ∀ id name, (q.element id).attr? name = (p.element id).attr? name := by
    intro id name
    unfold Element.attr? Element.key
    rw [hhtml, hattrs]
  exact of_grown (hp.grown.congr htrees hroot hlength htag hhtml) (hp.congr htrees hlength) hlength
    (fun id _ name _ => hattr id name) (fun id _ hmark => (hattr id _).trans hmark) (childElements_congr htrees)

theorem of_alike (hp : p.WellFormed) (h : Alike p q) : Hosts p q :=
  of_attrs hp h.tree h.loose h.length h.tag h.html h.attrs

/-- Edits of attributes that no wrapper loses its mark by. -/
theorem of_perform (hp : p.WellFormed) {es : List Edit} (htextless : ∀ x ∈ es, ∀ id text, x ≠ .setText id text)
    (hlasting : ∀ id < p.elements.length, ∀ name ∈ lastingAttrs,
      ((p.perform es).1.element id).attr? name = (p.element id).attr? name)
    (hmarks : ∀ id < p.elements.length, (p.element id).attr? "data-retention-enhanced" = some "true" →
      ((p.perform es).1.element id).attr? "data-retention-enhanced" = some "true") : Hosts p (p.perform es).1 := by
  obtain ⟨htree, hloose⟩ := trees_perform htextless
  have hedited := edited_perform p es
  have htrees : (p.perform es).1.trees = p.trees := by
    unfold trees
    rw [htree, hloose]
  exact of_grown (hp.grown.congr htrees (root?_perform p es) hedited.length hedited.tag hedited.html)
    (hp.congr htrees hedited.length) hedited.length hlasting hmarks (childElements_congr htrees)

theorem after_overlay (hp : p.WellFormed) (ho : o.settings = {}) (e : Consent.Effect) : Hosts p (o.after p e) := by
  have hfair : ∀ x ∈ o.edits p e, Overlay.Fair o e x := fun x hx => Overlay.fair_of_mem_edits ho hx
  have hmodest : ∀ x ∈ o.edits p e, Modest x := fun x hx => (hfair x hx).modest
  exact of_perform hp (fun x hx => (hfair x hx).textless)
    (fun id hid name hname => attr?_perform_of_modest hmodest hid (List.mem_cons_of_mem _ hname))
    (fun id hid hmark => (attr?_perform_of_modest hmodest hid List.mem_cons_self).trans hmark)

/-- The work of a select moves nothing. Its text goes into the trigger, which is a leaf. -/
theorem grown_after_select (hp : p.WellFormed) (hw : w.settings = {}) (hleaf : p.Leaf w.parts.trigger) (e : Effect) :
    Grown p (w.after p e) ∧ ∀ id, (w.after p e).childElements id = p.childElements id := by
  have hedited := w.edited_after p e
  have hroot : (w.after p e).root? = p.root? := root?_perform p _
  by_cases he : ∃ i, e = .reflect i
  · obtain ⟨i, rfl⟩ := he
    have htrees := Select.trees_after_reflect (p := p) hw i
    refine ⟨(hp.grown_setText hleaf _).congr htrees ?_ hedited.length hedited.tag hedited.html, fun id => ?_⟩
    · rw [hroot, root?_withChildren]
    · rw [childElements_congr htrees, hp.childElements_setText hleaf]
  · have htrees := Select.trees_after (p := p) hw fun i heq => he ⟨i, heq⟩
    exact ⟨hp.grown.congr htrees hroot hedited.length hedited.tag hedited.html, childElements_congr htrees⟩

theorem attr?_after_select (hw : w.settings = {}) (e : Effect) {id : Nat} (hid : id < p.elements.length) {m : String}
    (hm : m ∈ "data-retention-enhanced" :: lastingAttrs) :
    ((w.after p e).element id).attr? m = (p.element id).attr? m :=
  attr?_perform_of_modest (fun _ hx => (Select.fair_of_mem_edits hw hx).modest) hid hm

theorem after_select (hp : p.WellFormed) (hw : w.settings = {}) (hleaf : p.Leaf w.parts.trigger) (e : Effect) :
    Hosts p (w.after p e) := by
  obtain ⟨hgrown, hchildren⟩ := grown_after_select hp hw hleaf e
  exact of_grown hgrown (Select.texts_after hw hp hleaf).1 (w.edited_after p e).length
    (fun id hid name hname => attr?_after_select hw e hid (List.mem_cons_of_mem _ hname))
    (fun id hid hmark => (attr?_after_select hw e hid List.mem_cons_self).trans hmark) hchildren

end Hosts

/-! ### New parts -/

section
variable {p q : Page} {wrapper : Nat} {entries : List Entry} {a : Parts} {arrow : Option Nat}

/-- What is kept of a wrapper's children with new parts among them are the children. -/
theorem filter_idsOf_withParts {c : List Node} (hc : ∀ i ∈ Node.idsOf c, i < p.elements.length) :
    (Node.idsOf (withParts p wrapper arrow entries c)).filter (· < p.elements.length) = Node.idsOf c := by
  obtain ⟨before, later, hchildren, hinsert⟩ := Node.exists_insertBefore
    (arrow.filter fun id => (Node.elementsAmong (p.children wrapper)).contains id)
    (.element p.elements.length []) c
  have hmiddle : Node.idsOf (.element p.elements.length [] :: later) = p.elements.length :: Node.idsOf later := rfl
  have hnew : ((p.elements.length + 1) :: List.range' (p.elements.length + 2) entries.length).filter
      (· < p.elements.length) = [] := by
    rw [List.filter_eq_nil_iff]
    intro i hi
    rcases List.mem_cons.mp hi with rfl | hi
    · simp
    · have hbound := (List.mem_range'_1.mp hi).1
      simp only [decide_eq_true_eq]
      omega
  rw [hchildren, Node.idsOf_append] at hc
  have hbefore : (Node.idsOf before).filter (· < p.elements.length) = Node.idsOf before :=
    List.filter_eq_self.mpr fun i hi => decide_eq_true (hc i (List.mem_append_left _ hi))
  have hlater : (Node.idsOf later).filter (· < p.elements.length) = Node.idsOf later :=
    List.filter_eq_self.mpr fun i hi => decide_eq_true (hc i (List.mem_append_right _ hi))
  unfold withParts
  rw [hinsert, Node.idsOf_append, Node.idsOf_append, hmiddle, idsOf_menu, List.filter_append, List.filter_append,
    List.filter_cons_of_neg (by simp), hnew, hbefore, hlater, List.append_nil, hchildren, Node.idsOf_append]

theorem idsOf_of_childrenIn?_itemNodes {next id : Nat} {c : List Node}
    (h : Node.childrenIn? id (itemNodes next entries) = some c) : Node.idsOf c = [] := by
  induction entries generalizing next with
  | nil => cases h
  | cons e rest ih =>
    have hnone : Node.childrenIn? id (textNodes e.label) = none :=
      Node.childrenIn?_of_idsOf_eq_nil (idsOf_textNodes e.label)
    rw [itemNodes, Node.childrenIn?, Node.childrenOf?, hnone] at h
    by_cases hnext : next = id
    · rw [if_pos hnext] at h
      cases h
      exact idsOf_textNodes e.label
    · rw [if_neg hnext] at h
      exact ih h

namespace Attached

variable (h : Attached p wrapper entries a q) (hp : p.WellFormed)

include h

theorem trees_eq : ∃ arrow, q.trees = (p.withChildren wrapper (withParts p wrapper arrow entries)).trees := by
  obtain ⟨arrow, htrees⟩ := h.trees
  exact ⟨arrow, htrees.trans (trees_withChildren p wrapper _).symm⟩

omit h in
theorem not_mem_newIds {u : Nat} (hu : u < p.elements.length) : u ∉ newIds p entries := by
  unfold newIds
  rw [List.mem_range'_1]
  omega

theorem fresh {id : Nat} (hid : p.elements.length ≤ id) : Fresh (q.element id) := by
  obtain ⟨menuId, hnew⟩ := h.element_of_new
  obtain ⟨j, rfl⟩ := Nat.exists_eq_add_of_le hid
  rw [hnew]
  cases hx : (newElements entries menuId)[j]? with
  | none => exact fresh_default
  | some x =>
    have hlasting : ∀ {x : Element}, x.attr? "data-retention-select" = none →
        x.attr? "data-cookie-consent-focus" = none → ∀ name ∈ lastingAttrs, x.attr? name = none := by
      intro x hmarker hfocus name hname
      rcases List.mem_cons.mp hname with rfl | hname
      · exact hmarker
      · rw [List.mem_singleton.mp hname]
        exact hfocus
    rcases List.mem_cons.mp (List.mem_of_getElem? hx) with rfl | hx
    · exact ⟨by simp [triggerElement], hlasting rfl rfl⟩
    · rcases List.mem_cons.mp hx with rfl | hx
      · exact ⟨by simp [menuElement], hlasting rfl rfl⟩
      · obtain ⟨⟨⟨label, value, disabled, selected⟩, i⟩, -, rfl⟩ := List.mem_map.mp hx
        refine ⟨by simp [itemElement], ?_⟩
        cases disabled <;> exact hlasting rfl rfl

theorem childElements_wrapper (hwrapper : wrapper ∈ Node.idsOf p.trees) : ∃ before later,
    p.childElements wrapper = before ++ later ∧
      q.childElements wrapper = before ++ a.trigger :: (later ++ [a.menu]) := by
  obtain ⟨arrow, htrees⟩ := h.trees_eq
  obtain ⟨before, later, hchildren, hinsert⟩ := Node.exists_insertBefore
    (arrow.filter fun id => (Node.elementsAmong (p.children wrapper)).contains id)
    (.element p.elements.length []) (p.children wrapper)
  refine ⟨Node.elementsAmong before, Node.elementsAmong later, ?_, ?_⟩
  · unfold childElements
    rw [hchildren, Node.elementsAmong_append]
  · rw [childElements_congr htrees, h.trigger, h.menu]
    unfold childElements
    rw [children_withChildren_self p wrapper hwrapper]
    unfold withParts
    rw [hinsert, Node.elementsAmong_append, Node.elementsAmong_append]
    simp [Node.elementsAmong]

include hp

theorem childElements_of_ne {u : Nat} (hu : u ≠ wrapper) (hknown : u < p.elements.length) :
    q.childElements u = p.childElements u := by
  obtain ⟨arrow, htrees⟩ := h.trees_eq
  rw [childElements_congr htrees]
  exact hp.childElements_withChildren hu fun c _ => childrenIn?_withParts c (not_mem_newIds hknown)

variable (hwrapper : wrapper ∈ Node.idsOf p.trees)

include hwrapper

theorem grown (hroot : q.root? = p.root?) : Grown p q where
  length := by
    rw [h.length]
    omega
  tag id hid := by rw [h.element_of_old hid]
  html id hid := by rw [h.element_of_old hid]
  placed id hid := (h.idsOf_trees hp hwrapper).mem_iff.mpr (List.mem_append_left _ hid)
  root := hroot
  below id hid := by
    obtain ⟨arrow, htrees⟩ := h.trees_eq
    rw [descendants_congr htrees]
    refine hp.filter_descendants_withChildren (fun i hi => decide_eq_true (hp.known i hi)) fun c hc => ⟨?_, fun _ => ?_⟩
    · exact filter_idsOf_withParts fun i hi =>
        hp.known i ((Node.sublist_of_childrenIn? p.trees hc).subset hi)
    · exact childrenIn?_withParts c (not_mem_newIds hid)

/-- New parts in a wrapper leave every select where it stands. -/
theorem hosts (hroot : q.root? = p.root?) (hmarker : (p.element wrapper).hasAttr "data-retention-select" = true) :
    Hosts p q where
  grown := h.grown hp hwrapper hroot
  wellFormed := h.wellFormed hp hwrapper
  lasting id hid name _ := by rw [h.element_of_old hid]
  marks id hid hmark := by
    rw [h.element_of_old hid]
    exact hmark
  fresh id hid := h.fresh hid
  children id hid u hu := by
    by_cases hne : id = wrapper
    · subst hne
      obtain ⟨before, later, hold, hnew⟩ := h.childElements_wrapper hwrapper
      rw [hnew]
      rw [hold] at hu
      simp only [List.mem_append, List.mem_cons] at hu ⊢
      rcases hu with hu | hu
      · exact .inl hu
      · exact .inr (.inr (.inl hu))
    · rw [h.childElements_of_ne hp hne hid]
      exact hu
  bare id hid hbare := by
    obtain ⟨arrow, htrees⟩ := h.trees_eq
    have hself : id ≠ wrapper := by
      rintro rfl
      rw [hbare id (.inl rfl)] at hmarker
      cases hmarker
    have hbelow : wrapper ∉ Node.idsOf (p.children id) := by
      intro hmem
      rw [hbare wrapper (.inr hmem)] at hmarker
      cases hmarker
    rw [descendants_congr htrees]
    unfold Page.descendants
    rw [hp.children_withChildren hself fun c _ => childrenIn?_withParts c (not_mem_newIds hid),
      Node.withChildrenIn_of_not_mem _ hbelow]

theorem childrenIn?_menu : Node.childrenIn? a.menu q.trees = some (itemNodes (p.elements.length + 2) entries) := by
  obtain ⟨c, hc⟩ := Node.exists_childrenIn? hwrapper
  have hdistinct := (h.wellFormed hp hwrapper).distinct
  obtain ⟨arrow, htrees⟩ := h.trees
  have hnew : p.elements.length + 1 ∈ newIds p entries := by
    rw [newIds_eq]
    exact List.mem_cons_of_mem _ List.mem_cons_self
  have hold : p.elements.length + 1 ∉ Node.idsOf c := fun hmem =>
    not_mem_of_mem_newIds hp hnew ((Node.sublist_of_childrenIn? p.trees hc).subset hmem)
  have hbelow : p.elements.length + 1 ∈ Node.idsOf (withParts p wrapper arrow entries c) :=
    (idsOf_withParts c).mem_iff.mpr (List.mem_append_right _ hnew)
  have hself : Node.childrenIn? wrapper q.trees = some (withParts p wrapper arrow entries c) := by
    rw [htrees, Node.childrenIn?_withChildrenIn_self, hc, Option.map_some]
  obtain ⟨before, later, hchildren, hinsert⟩ := Node.exists_insertBefore
    (arrow.filter fun id => (Node.elementsAmong (p.children wrapper)).contains id)
    (.element p.elements.length []) c
  have hthere : Node.childrenOf? (p.elements.length + 1)
      (.element (p.elements.length + 1) (itemNodes (p.elements.length + 2) entries)) =
        some (itemNodes (p.elements.length + 2) entries) := by
    rw [Node.childrenOf?, if_pos rfl]
  have htrigger : p.elements.length + 1 ∉ Node.ids (.element p.elements.length []) := by
    simp [Node.ids, Node.idsOf]
  rw [hchildren, Node.idsOf_append, List.mem_append, not_or] at hold
  rw [h.menu, Node.childrenIn?_below _ hdistinct hself hbelow]
  unfold withParts
  rw [hinsert, Node.childrenIn?_append, Node.childrenIn?_append, (Node.childrenIn?_eq_none before).mpr hold.1,
    Node.childrenIn?_cons_of_not_mem htrigger, (Node.childrenIn?_eq_none later).mpr hold.2, Node.childrenIn?, hthere]
  rfl

theorem descendants_menu : q.descendants a.menu = a.items := by
  unfold Page.descendants Page.children
  rw [h.childrenIn?_menu hp hwrapper, Option.getD_some, idsOf_itemNodes, h.items]

/-- There is nothing but text in an item. -/
theorem leaf_item {id : Nat} (hid : id ∈ a.items) : q.Leaf id := by
  have hdistinct := (h.wellFormed hp hwrapper).distinct
  have hmenu := h.childrenIn?_menu hp hwrapper
  have hbelow : id ∈ Node.idsOf (itemNodes (p.elements.length + 2) entries) := by
    rw [idsOf_itemNodes, ← h.items]
    exact hid
  obtain ⟨c, hc⟩ := Node.exists_childrenIn? hbelow
  exact ⟨c, (Node.childrenIn?_below _ hdistinct hmenu hbelow).trans hc, idsOf_of_childrenIn?_itemNodes hc⟩

end Attached

end

/-! ### Seats -/

/-- A select stands on a page: its trigger and its menu right below the marked wrapper, its items below the menu, and the
    native select somewhere below the wrapper. -/
structure Seat (p : Page) (a : Parts) : Prop where
  fits : a.Fits p
  wrapper : a.wrapper ∈ Node.idsOf p.trees
  marker : (p.element a.wrapper).hasAttr "data-retention-select" = true
  trigger : a.trigger ∈ p.childElements a.wrapper
  menu : a.menu ∈ p.childElements a.wrapper
  items : p.descendants a.menu = a.items
  leaves : ∀ id ∈ a.items, p.Leaf id
  native : a.native ∈ p.descendants a.wrapper
  button : (p.element a.trigger).isA "button" = true
  list : (p.element a.menu).isA "ul" = true
  entries : ∀ id ∈ a.items, (p.element id).isA "li" = true
  select : (p.element a.native).isA "select" = true
  unfound : ∀ id, id = a.trigger ∨ id = a.menu ∨ id ∈ a.items →
    ∀ name ∈ lastingAttrs, (p.element id).attr? name = none

namespace Seat

variable {p q : Page} {a : Parts}

theorem known (h : Seat p a) {id : Nat} (hid : id = a.trigger ∨ id = a.menu ∨ id ∈ a.items) :
    id < p.elements.length := by
  rcases hid with rfl | rfl | hid
  · exact h.fits.trigger_known
  · exact h.fits.menu_known
  · exact h.fits.items_known id hid

theorem unmarked (h : Seat p a) {id : Nat} (hid : id = a.trigger ∨ id = a.menu ∨ id ∈ a.items) :
    (p.element id).hasAttr "data-retention-select" = false := by
  unfold Element.hasAttr
  rw [h.unfound id hid _ (by simp)]
  rfl

theorem bare_menu (h : Seat p a) : Bare p a.menu := by
  intro u hu
  rw [h.items] at hu
  exact h.unmarked (.inr hu)

theorem bare_of_leaf (h : Seat p a) {id : Nat} (hid : id = a.trigger ∨ id = a.menu ∨ id ∈ a.items) (hleaf : p.Leaf id) :
    Bare p id := by
  intro u hu
  rw [(leaf_iff.mp hleaf).2] at hu
  rcases hu with rfl | hu
  · exact h.unmarked hid
  · exact absurd hu List.not_mem_nil

theorem bare_trigger (h : Seat p a) : Bare p a.trigger := h.bare_of_leaf (.inl rfl) h.fits.leaf

/-- A seat is kept on every page that hosts what the page hosts. -/
theorem hosted (h : Seat p a) (hp : p.WellFormed) (hpq : Hosts p q) : Seat q a := by
  have hwrapper := h.fits.wrapper_known
  have hnative : a.native < p.elements.length := (hp.descendants a.wrapper).2.2 _ h.native
  have hleaf : ∀ id, id = a.trigger ∨ id = a.menu ∨ id ∈ a.items → p.Leaf id → q.Leaf id := by
    intro id hid hleaf
    obtain ⟨hplace, hnone⟩ := leaf_iff.mp hleaf
    refine leaf_iff.mpr ⟨hpq.grown.placed _ hplace, ?_⟩
    rw [hpq.bare _ (h.known hid) (h.bare_of_leaf hid hleaf), hnone]
  have hlength := hpq.grown.length
  exact
    { fits :=
        { wrapper_known := Nat.lt_of_lt_of_le hwrapper hlength
          trigger_known := Nat.lt_of_lt_of_le h.fits.trigger_known hlength
          menu_known := Nat.lt_of_lt_of_le h.fits.menu_known hlength
          items_known := fun id hid => Nat.lt_of_lt_of_le (h.fits.items_known id hid) hlength
          items_distinct := h.fits.items_distinct
          leaf := hleaf _ (.inl rfl) h.fits.leaf
          enhanced := hpq.marks _ hwrapper h.fits.enhanced }
      wrapper := hpq.grown.placed _ h.wrapper
      marker := (hpq.hasAttr hwrapper (by simp)).trans h.marker
      trigger := hpq.children _ hwrapper _ h.trigger
      menu := hpq.children _ hwrapper _ h.menu
      items := (hpq.bare _ h.fits.menu_known h.bare_menu).trans h.items
      leaves := fun id hid => hleaf id (.inr (.inr hid)) (h.leaves id hid)
      native := hpq.grown.mem_descendants hwrapper h.native
      button := (hpq.grown.isA h.fits.trigger_known _).trans h.button
      list := (hpq.grown.isA h.fits.menu_known _).trans h.list
      entries := fun id hid => (hpq.grown.isA (h.fits.items_known id hid) _).trans (h.entries id hid)
      select := (hpq.grown.isA hnative _).trans h.select
      unfound := fun id hid name hname => (hpq.lasting id (h.known hid) name hname).trans (h.unfound id hid name hname) }

end Seat

theorem Attached.seat {p q : Page} {wrapper : Nat} {entries : List Entry} {a : Parts}
    (h : Attached p wrapper entries a q) (hp : p.WellFormed) (hwrapper : wrapper ∈ Node.idsOf p.trees)
    (hroot : q.root? = p.root?) (hmarker : (p.element wrapper).hasAttr "data-retention-select" = true)
    (henhanced : (p.element wrapper).attr? "data-retention-enhanced" = some "true")
    (hnative : a.native ∈ p.descendants wrapper) (hselect : (p.element a.native).isA "select" = true) : Seat q a := by
  have hhosts := h.hosts hp hwrapper hroot hmarker
  have hknown := hp.known wrapper hwrapper
  obtain ⟨before, later, -, hchildren⟩ := h.childElements_wrapper hwrapper
  obtain ⟨menuId, hnew⟩ := h.element_of_new
  have hfits := h.fits hp hwrapper henhanced
  refine
    { fits := hfits
      wrapper := ?_
      marker := ?_
      trigger := ?_
      menu := ?_
      items := h.descendants_menu hp hwrapper
      leaves := fun id hid => h.leaf_item hp hwrapper hid
      native := ?_
      button := ?_
      list := ?_
      entries := fun id hid => ?_
      select := (hhosts.grown.isA ((hp.descendants wrapper).2.2 _ hnative) _).trans hselect
      unfound := fun id hid => (h.fresh ?_).lasting }
  · rw [h.wrapper]
    exact hhosts.grown.placed _ hwrapper
  · rw [h.wrapper, hhosts.hasAttr hknown (by simp)]
    exact hmarker
  · rw [h.wrapper, hchildren]
    simp
  · rw [h.wrapper, hchildren]
    simp
  · rw [h.wrapper]
    exact hhosts.grown.mem_descendants hknown hnative
  · rw [h.trigger]
    exact congrArg (·.isA "button") (hnew 0)
  · rw [h.menu]
    exact congrArg (·.isA "ul") (hnew 1)
  · obtain ⟨j, hj⟩ := List.mem_iff_getElem?.mp hid
    obtain ⟨e, itemsId, -, hitem⟩ := h.exists_item hj
    rw [hitem]
    rfl
  · rcases hid with rfl | rfl | hid
    · exact Nat.le_of_eq h.trigger.symm
    · rw [h.menu]
      exact Nat.le_succ _
    · rw [h.items] at hid
      have hbound := (List.mem_range'_1.mp hid).1
      omega

/-! ### Making the parts -/

/-- The page with a wrapper marked as enhanced, and nothing else that anyone is found by. -/
structure Primed (wrapper : Nat) (p q : Page) : Prop where
  prepared : Prepared wrapper p q
  hosts : Hosts p q
  surroundings : q.surroundings = p.surroundings
  others : ∀ id < p.elements.length, id ≠ wrapper →
    (q.element id).attr? "data-retention-enhanced" = (p.element id).attr? "data-retention-enhanced"

section
variable {p : Page} {wrapper native : Nat}

/-- Marking a wrapper writes one of the attributes that elements are found by, and that on the wrapper alone. -/
theorem attr?_marking {id : Nat} (hid : id < p.elements.length) {m : String}
    (hm : m ∈ "data-retention-enhanced" :: lastingAttrs) (hother : id = wrapper → m ≠ "data-retention-enhanced") :
    ((p.perform (marking wrapper native)).1.element id).attr? m = (p.element id).attr? m := by
  refine look_perform_of_keeps (·.attr? m) (fun x hx => ?_) hid
  rcases List.mem_cons.mp hx with rfl | hx
  · exact Edit.Spares.keeps (.of_slot rfl plain_enhanced fun heq => (hother heq.symm).symm) (plain_lasting hm)
  · exact ((modest_marking hx).spares hm id).keeps (plain_lasting hm)

theorem primed_marking (hp : p.WellFormed) (hwrapper : wrapper < p.elements.length) (native : Nat) :
    Primed wrapper p (p.perform (marking wrapper native)).1 := by
  have hprepared := prepared_marking p hwrapper native
  have hlasting : ∀ name ∈ lastingAttrs, name ≠ "data-retention-enhanced" := by decide
  refine ⟨hprepared, .of_perform hp (fun x hx => (aside_marking hx).textless) (fun id hid name hname => ?_)
    hprepared.marks.enhanced, (edited_perform p _).surroundings, fun id hid hne => ?_⟩
  · exact attr?_marking hid (List.mem_cons_of_mem _ hname) fun _ => hlasting name hname
  · exact attr?_marking hid List.mem_cons_self fun heq => absurd heq hne

theorem primed_veiling (hp : p.WellFormed) (hwrapper : wrapper < p.elements.length)
    (henhanced : (p.element wrapper).attr? "data-retention-enhanced" = some "true") (arrow : Option Nat) :
    Primed wrapper p (p.perform (veiling arrow)).1 := by
  have hprepared := prepared_veiling p hwrapper henhanced arrow
  have hmodest : ∀ x ∈ veiling arrow, Modest x := fun x hx => modest_veiling hx
  refine ⟨hprepared, .of_perform hp (fun x hx => (aside_veiling hx).textless) (fun id hid name hname => ?_)
    hprepared.marks.enhanced, (edited_perform p _).surroundings, fun id hid _ => ?_⟩
  · exact attr?_perform_of_modest hmodest hid (List.mem_cons_of_mem _ hname)
  · exact attr?_perform_of_modest hmodest hid List.mem_cons_self

theorem Primed.trans {q r : Page} (h : Primed wrapper p q) (h' : Primed wrapper q r) (hp : p.WellFormed) :
    Primed wrapper p r where
  prepared := h.prepared.trans h'.prepared
  hosts := h.hosts.trans h'.hosts hp
  surroundings := h'.surroundings.trans h.surroundings
  others id hid hne := (h'.others id (Nat.lt_of_lt_of_le hid h.hosts.grown.length) hne).trans (h.others id hid hne)

/-- Making the parts marks the wrapper; in an HTML document, and only there, it puts the parts into it. -/
theorem render_spec (hp : p.WellFormed) (hwrapper : wrapper < p.elements.length) (native : Nat)
    (entries : List Entry) : ∃ q, Primed wrapper p q ∧
      (p.surroundings.document ≠ .html ∧ render p {} wrapper native entries = (.error (.wrongElement "HTMLButtonElement"), q) ∨
        p.surroundings.document = .html ∧ ∃ arrow menuId, render p {} wrapper native entries =
          (.ok (attach q {} wrapper native arrow entries menuId).1, (attach q {} wrapper native arrow entries menuId).2)) := by
  have hmarked := primed_marking hp hwrapper native
  have hsound : ∀ x ∈ marking wrapper native, x.Sound := fun _ hx => (aside_marking hx).sound
  unfold render
  rw [thenPerform_of_sound hsound]
  generalize (p.perform (marking wrapper native)).1 = q at hmarked ⊢
  have hread : ∃ s, Selector.read ({} : SelectSettings).arrowSelector = .ok s := ⟨_, rfl⟩
  obtain ⟨s, hs⟩ := hread
  have hquery : ∃ arrow, q.query wrapper ({} : SelectSettings).arrowSelector = .ok arrow := by
    unfold query queryAll
    rw [hs]
    exact ⟨_, rfl⟩
  obtain ⟨arrow, harrow⟩ := hquery
  have hknown : wrapper < q.elements.length := Nat.lt_of_lt_of_le hwrapper hmarked.hosts.grown.length
  have hboth := hmarked.trans
    (primed_veiling hmarked.hosts.wellFormed hknown hmarked.prepared.enhanced arrow) hp
  have hsound' : ∀ x ∈ veiling arrow, x.Sound := fun _ hx => (aside_veiling hx).sound
  rw [harrow]
  dsimp only
  rw [thenPerform_of_sound hsound']
  generalize (q.perform (veiling arrow)).1 = r at hboth ⊢
  have hdrawn : Primed wrapper p r.draw.2 := by
    have hr := hboth.hosts.wellFormed
    refine hboth.trans ⟨?_, .of_attrs hr rfl rfl rfl (fun _ => rfl) (fun _ => rfl) fun _ => rfl, rfl, fun _ _ _ => rfl⟩ hp
    exact ⟨.of_alike ⟨rfl, rfl, rfl, rfl, rfl, rfl, fun _ => rfl, fun _ => rfl, fun _ => rfl⟩, rfl, rfl,
      hboth.prepared.enhanced⟩
  refine ⟨r.draw.2, hdrawn, ?_⟩
  have hdocument : r.draw.2.surroundings.document = p.surroundings.document := by
    rw [hdrawn.surroundings]
  split
  · next hhtml =>
    exact .inr ⟨hdocument.symm.trans hhtml, _, _, rfl⟩
  · next hother =>
    exact .inl ⟨fun hhtml => hother (hdocument.trans hhtml), rfl⟩

theorem root?_attach (s : SelectSettings) (arrow : Option Nat) (entries : List Entry) (menuId : String) :
    (attach p s wrapper native arrow entries menuId).2.root? = p.root? :=
  root?_withChildren { p with elements := _ } wrapper _

end
end Widget
end PageWidgets
