import Mathlib.Data.List.Nodup
import PageWidgets.Proofs.Widget.SelectFace

/-! How the parts of a select are made. Marking a wrapper writes nothing that a select shows its state with
    (`render_cases`), and the trigger and the menu put into it are new: what other selects show stays as it was, and the
    new one shows a closed menu with nothing chosen yet (`Attached.blank`). -/

namespace PageWidgets
namespace Widget

open Listbox Page

variable {p q : Page} {a : Parts} {wrapper u id : Nat} {arrow : Option Nat} {entries : List Entry}

/-! ### The new elements -/

theorem idsOf_itemNodes (next : Nat) (entries : List Entry) :
    Node.idsOf (itemNodes next entries) = List.range' next entries.length := by
  induction entries generalizing next with
  | nil => rfl
  | cons e rest ih =>
    rw [itemNodes, Node.idsOf, Node.ids, idsOf_textNodes, ih]
    rfl

/-- The children of a wrapper with a trigger and a menu among them. -/
def withParts (p : Page) (wrapper : Nat) (arrow : Option Nat) (entries : List Entry) (children : List Node) :
    List Node :=
  Node.insertBefore (arrow.filter fun id => (Node.elementsAmong (p.children wrapper)).contains id)
    (.element p.elements.length []) children ++
      [.element (p.elements.length + 1) (itemNodes (p.elements.length + 2) entries)]

/-- The numbers of the trigger, the menu and the items. -/
def newIds (p : Page) (entries : List Entry) : List Nat := List.range' p.elements.length (entries.length + 2)

theorem newIds_eq (p : Page) (entries : List Entry) : newIds p entries =
    p.elements.length :: (p.elements.length + 1) :: List.range' (p.elements.length + 2) entries.length := by
  unfold newIds
  rw [List.range'_succ, List.range'_succ]

theorem idsOf_menu (p : Page) (entries : List Entry) :
    Node.idsOf [.element (p.elements.length + 1) (itemNodes (p.elements.length + 2) entries)] =
      (p.elements.length + 1) :: List.range' (p.elements.length + 2) entries.length := by
  rw [Node.idsOf, Node.ids, idsOf_itemNodes, Node.idsOf, List.append_nil]

theorem idsOf_withParts (children : List Node) :
    (Node.idsOf (withParts p wrapper arrow entries children)).Perm (Node.idsOf children ++ newIds p entries) := by
  obtain ⟨a, b, hchildren, hinsert⟩ := Node.exists_insertBefore
    (arrow.filter fun id => (Node.elementsAmong (p.children wrapper)).contains id)
    (.element p.elements.length []) children
  have hmiddle : Node.idsOf (.element p.elements.length [] :: b) = p.elements.length :: Node.idsOf b := rfl
  unfold withParts
  rw [hinsert, hchildren, newIds_eq, Node.idsOf_append, Node.idsOf_append, Node.idsOf_append, hmiddle, idsOf_menu]
  exact (List.perm_middle.append_right _).trans List.perm_middle.symm

theorem childrenIn?_withParts (children : List Node) (hu : u ∉ newIds p entries) :
    Node.childrenIn? u (withParts p wrapper arrow entries children) = Node.childrenIn? u children := by
  obtain ⟨a, b, hchildren, hinsert⟩ := Node.exists_insertBefore
    (arrow.filter fun id => (Node.elementsAmong (p.children wrapper)).contains id)
    (.element p.elements.length []) children
  rw [newIds_eq, List.mem_cons, not_or] at hu
  have htrigger : u ∉ Node.ids (.element p.elements.length []) := by
    rw [Node.ids, Node.idsOf, List.mem_singleton]
    exact hu.1
  have hmenu : Node.childrenIn? u [.element (p.elements.length + 1) (itemNodes (p.elements.length + 2) entries)] =
      none := by
    rw [Node.childrenIn?_eq_none, idsOf_menu]
    exact hu.2
  unfold withParts
  rw [hinsert, hchildren, Node.childrenIn?_append, Node.childrenIn?_append, Node.childrenIn?_append,
    Node.childrenIn?_cons_of_not_mem htrigger, hmenu, Option.or_none]

theorem childrenIn?_newTrigger (children : List Node) (h : p.elements.length ∉ Node.idsOf children) :
    Node.childrenIn? p.elements.length (withParts p wrapper arrow entries children) = some [] := by
  obtain ⟨a, b, hchildren, hinsert⟩ := Node.exists_insertBefore
    (arrow.filter fun id => (Node.elementsAmong (p.children wrapper)).contains id)
    (.element p.elements.length []) children
  rw [hchildren, Node.idsOf_append, List.mem_append, not_or] at h
  have hself : Node.childrenOf? p.elements.length (.element p.elements.length []) = some [] := by
    rw [Node.childrenOf?, if_pos rfl]
  unfold withParts
  rw [hinsert, Node.childrenIn?_append, Node.childrenIn?_append, (Node.childrenIn?_eq_none a).mpr h.1,
    Node.childrenIn?, hself]
  rfl

/-- The elements of a trigger, a menu and its items. -/
def newElements (entries : List Entry) (menuId : String) : List Element :=
  triggerElement {} menuId :: menuElement {} menuId :: entries.zipIdx.map fun (e, i) => itemElement {} menuId i e

/-- One page is the other with new parts put into a wrapper. -/
structure Attached (p : Page) (wrapper : Nat) (entries : List Entry) (a : Parts) (q : Page) : Prop where
  elements : ∃ menuId, q.elements = p.elements ++ newElements entries menuId
  trees : ∃ arrow, q.trees = Node.withChildrenIn wrapper (withParts p wrapper arrow entries) p.trees
  trigger : a.trigger = p.elements.length
  menu : a.menu = p.elements.length + 1
  items : a.items = List.range' (p.elements.length + 2) entries.length
  wrapper : a.wrapper = wrapper

theorem attached_attach (p : Page) (wrapper native : Nat) (arrow : Option Nat) (entries : List Entry)
    (menuId : String) : Attached p wrapper entries (attach p {} wrapper native arrow entries menuId).1
      (attach p {} wrapper native arrow entries menuId).2 where
  elements := ⟨menuId, rfl⟩
  trees := ⟨arrow, trees_withChildren _ _ _⟩
  trigger := rfl
  menu := rfl
  items := by
    rw [List.range'_eq_map_range]
    rfl
  wrapper := rfl

/-! ### The page with the new parts -/

namespace Attached

variable (h : Attached p wrapper entries a q)

include h

theorem length : q.elements.length = p.elements.length + (entries.length + 2) := by
  obtain ⟨menuId, helements⟩ := h.elements
  rw [helements, List.length_append, newElements, List.length_cons, List.length_cons, List.length_map,
    List.length_zipIdx]

theorem element_of_old {i : Nat} (hi : i < p.elements.length) : q.element i = p.element i := by
  obtain ⟨menuId, helements⟩ := h.elements
  unfold Page.element
  rw [helements, List.getD_eq_getElem?_getD, List.getD_eq_getElem?_getD, List.getElem?_append_left hi]

theorem element_of_new : ∃ menuId, ∀ i, q.element (p.elements.length + i) =
    ((newElements entries menuId)[i]?).getD default := by
  obtain ⟨menuId, helements⟩ := h.elements
  refine ⟨menuId, fun i => ?_⟩
  unfold Page.element
  rw [helements, List.getD_eq_getElem?_getD, List.getElem?_append_right (Nat.le_add_right _ _),
    Nat.add_sub_cancel_left]

theorem exists_item {j id : Nat} (hid : a.items[j]? = some id) : ∃ e menuId, p.elements.length ≤ id ∧
    q.element id = itemElement {} menuId j e := by
  obtain ⟨menuId, hnew⟩ := h.element_of_new
  rw [h.items] at hid
  obtain ⟨hlt, -⟩ := List.getElem?_eq_some_iff.mp hid
  have hj : j < entries.length := by rwa [List.length_range'] at hlt
  rw [List.getElem?_range' hj] at hid
  obtain rfl := Option.some.inj hid
  have hplace : p.elements.length + 2 + 1 * j = p.elements.length + (j + 2) := by omega
  refine ⟨entries[j], menuId, by omega, ?_⟩
  rw [hplace, hnew, newElements, List.getElem?_cons_succ, List.getElem?_cons_succ, List.getElem?_map,
    List.getElem?_zipIdx, List.getElem?_eq_getElem hj]
  simp

/-- The new elements carry none of the class names by which a state is shown. -/
theorem hasClass_of_new {i : Nat} (hi : p.elements.length ≤ i) {t : String}
    (ht : t ∈ stateClasses) : (q.element i).hasClass t = false := by
  have hof : ∀ (x : Element) (name : String), name ∈ ["retention-select-trigger", "retention-select-menu",
      "retention-select-option"] → x.attr? "class" = some name → x.hasClass t = false := by
    have hnames : ∀ name ∈ ["retention-select-trigger", "retention-select-menu", "retention-select-option"],
        Element.Token name ∧ ∀ t ∈ stateClasses, t ≠ name := by decide
    intro x name hname hx
    rw [Element.hasClass_of_attr? (hnames name hname).1 hx]
    simpa using (hnames name hname).2 t ht
  obtain ⟨menuId, hnew⟩ := h.element_of_new
  obtain ⟨j, rfl⟩ := Nat.exists_eq_add_of_le hi
  rw [hnew]
  cases hx : (newElements entries menuId)[j]? with
  | none =>
    have hnone : ∀ t ∈ stateClasses, (default : Element).hasClass t = false := by decide
    exact hnone t ht
  | some x =>
    rcases List.mem_cons.mp (List.mem_of_getElem? hx) with rfl | hx
    · exact hof _ "retention-select-trigger" (by simp) rfl
    · rcases List.mem_cons.mp hx with rfl | hx
      · exact hof _ "retention-select-menu" (by simp) rfl
      · obtain ⟨e, -, rfl⟩ := List.mem_map.mp hx
        exact hof _ "retention-select-option" (by simp) rfl

theorem unmoved : Parts.Unmoved p q := by
  refine ⟨?_, fun id hid name _ => ?_, fun id hid t _ => ?_, fun id hid he => ?_⟩
  · rw [h.length]
    omega
  · rw [h.element_of_old hid]
  · rw [h.element_of_old hid]
  · rw [h.element_of_old hid]
    exact he

theorem apart {b : Parts} (hb : b.Fits p) (hne : b.wrapper ≠ wrapper) : b.Apart a := by
  refine ⟨?_, ?_, ?_, fun id hid hnew => ?_⟩
  · rw [h.wrapper]
    exact hne
  · rw [h.trigger]
    exact Nat.ne_of_lt hb.trigger_known
  · rw [h.menu]
    exact Nat.ne_of_lt (Nat.lt_succ_of_lt hb.menu_known)
  · have hknown := hb.items_known id hid
    rw [h.items, List.mem_range'_1] at hnew
    omega

variable (hp : p.WellFormed)

include hp

omit h in
theorem not_mem_of_mem_newIds (hu : u ∈ newIds p entries) : u ∉ Node.idsOf p.trees := by
  intro hmem
  have hknown := hp.known u hmem
  unfold newIds at hu
  rw [List.mem_range'_1] at hu
  omega

/-- A leaf that the parts are not put into stays as it is. -/
theorem childrenIn?_of_leaf (hu : u ≠ wrapper) (hleaf : p.Leaf u) :
    Node.childrenIn? u q.trees = Node.childrenIn? u p.trees := by
  obtain ⟨arrow, htrees⟩ := h.trees
  have hmem : u ∈ Node.idsOf p.trees := by
    obtain ⟨c, hc, -⟩ := hleaf
    exact Node.mem_of_childrenIn? hc
  rw [htrees, ← trees_withChildren]
  exact hp.leaf_withChildren hleaf hu fun d _ =>
    childrenIn?_withParts d fun hnew => not_mem_of_mem_newIds hp hnew hmem

variable (hwrapper : wrapper ∈ Node.idsOf p.trees)

include hwrapper

theorem idsOf_trees : (Node.idsOf q.trees).Perm (Node.idsOf p.trees ++ newIds p entries) := by
  obtain ⟨c, hc⟩ := Node.exists_childrenIn? hwrapper
  obtain ⟨before, later, hbefore, hafter⟩ := Node.exists_around p.trees hp.distinct hc
  obtain ⟨arrow, htrees⟩ := h.trees
  rw [htrees, hafter, hbefore, List.append_assoc, List.append_assoc, List.append_assoc]
  refine ((((idsOf_withParts c).append_right later).trans ?_).append_left before)
  rw [List.append_assoc]
  exact List.perm_append_comm.append_left _

theorem wellFormed : q.WellFormed := by
  have hperm := h.idsOf_trees hp hwrapper
  constructor
  · rw [hperm.nodup_iff, List.nodup_append]
    refine ⟨hp.distinct, List.nodup_range', fun x hx y hy => ?_⟩
    rintro rfl
    exact not_mem_of_mem_newIds hp hy hx
  · intro id hid
    rw [hperm.mem_iff, List.mem_append] at hid
    rw [h.length]
    rcases hid with hid | hid
    · have hknown := hp.known id hid
      omega
    · unfold newIds at hid
      rw [List.mem_range'_1] at hid
      omega

theorem childrenIn?_trigger : Node.childrenIn? a.trigger q.trees = some [] := by
  obtain ⟨c, hc⟩ := Node.exists_childrenIn? hwrapper
  have hdistinct := (h.wellFormed hp hwrapper).distinct
  obtain ⟨arrow, htrees⟩ := h.trees
  have hnew : p.elements.length ∈ newIds p entries := by
    rw [newIds_eq]
    exact List.mem_cons_self
  have hold : p.elements.length ∉ Node.idsOf c := fun hmem =>
    not_mem_of_mem_newIds hp hnew ((Node.sublist_of_childrenIn? p.trees hc).subset hmem)
  have hbelow : p.elements.length ∈ Node.idsOf (withParts p wrapper arrow entries c) :=
    (idsOf_withParts c).mem_iff.mpr (List.mem_append_right _ hnew)
  have hself : Node.childrenIn? wrapper q.trees = some (withParts p wrapper arrow entries c) := by
    rw [htrees, Node.childrenIn?_withChildrenIn_self, hc, Option.map_some]
  rw [h.trigger, Node.childrenIn?_below _ hdistinct hself hbelow]
  exact childrenIn?_newTrigger c hold

theorem fits (henhanced : (p.element wrapper).attr? "data-retention-enhanced" = some "true") : a.Fits q := by
  have hlength := h.length
  have hknown := hp.known wrapper hwrapper
  refine ⟨?_, ?_, ?_, fun id hid => ?_, ?_, ⟨[], h.childrenIn?_trigger hp hwrapper, rfl⟩, ?_⟩
  · rw [h.wrapper]
    omega
  · rw [h.trigger]
    omega
  · rw [h.menu]
    omega
  · rw [h.items, List.mem_range'_1] at hid
    omega
  · rw [h.items]
    exact List.nodup_range'
  · rw [h.wrapper]
    exact h.unmoved.enhanced wrapper hknown henhanced

/-- The new parts show a closed menu, and nothing chosen or active. -/
theorem blank {slack : Prop} (hslack : (p.element wrapper).hasClass "is-open" = true → slack) (all : List Entry) :
    a.Opened slack false q ∧ a.Reflected all none q ∧ a.Highlighted none q := by
  obtain ⟨menuId, hnew⟩ := h.element_of_new
  refine ⟨⟨nofun, fun hmarked => .inr (hslack ?_), ?_⟩, ⟨?_, fun j id hid => ?_⟩, ⟨fun j id hid => ?_, ?_⟩⟩
  · rwa [h.wrapper, h.element_of_old (hp.known wrapper hwrapper)] at hmarked
  · rw [h.trigger]
    exact congrArg (·.attr? "aria-expanded") (hnew 0)
  · unfold textContent children
    rw [h.childrenIn?_trigger hp hwrapper]
    rfl
  · obtain ⟨e, itemsId, hid, hitem⟩ := h.exists_item hid
    refine ⟨h.hasClass_of_new hid (by simp), ?_⟩
    rw [hitem]
    obtain ⟨label, value, disabled, selected⟩ := e
    cases disabled <;> rfl
  · obtain ⟨e, itemsId, hid, -⟩ := h.exists_item hid
    exact h.hasClass_of_new hid (by simp)
  · rw [h.menu]
    exact congrArg (·.attr? "aria-activedescendant") (hnew 1)

end Attached

/-! ### Marking the wrapper -/

/-- An edit that no page refuses, of nothing that a select shows its state with. -/
structure Aside (x : Edit) : Prop where
  sound : x.Sound
  textless : ∀ id text, x ≠ .setText id text
  attr : ∀ id, ∀ name ∈ stateAttrs, x.Spares id name
  cls : ∀ id, ∀ t ∈ stateClasses, x.SparesClass id t

theorem aside_setAttr {name value : String} (hname : name ∈ ["data-retention-enhanced", "aria-hidden", "tabindex"]) :
    Aside (.setAttr id name value) := by
  have hnames : ∀ n ∈ ["data-retention-enhanced", "aria-hidden", "tabindex"], Element.validName n = true ∧
      Element.Plain n ∧ n ≠ "class" ∧
        ∀ m ∈ stateAttrs, n ≠ m := by decide
  obtain ⟨hvalid, hplain, hclass, hother⟩ := hnames name hname
  exact ⟨hvalid, fun _ _ => nofun, fun j m hm => .of_slot rfl hplain fun _ => hother m hm,
    fun j t _ => Edit.Spares.of_slot rfl hplain fun _ => hclass⟩

theorem aside_addClass : Aside (.addClass id "is-enhanced") := by
  have htoken : Element.Token "is-enhanced" := by decide
  have hattrs : ∀ m ∈ stateAttrs, "class" ≠ m := by decide
  have hnames : ∀ t ∈ stateClasses, "is-enhanced" ≠ t := by decide
  exact ⟨htoken, fun _ _ => nofun, fun j m hm => .of_slot rfl Element.plain_class fun _ => hattrs m hm,
    fun j t ht _ => hnames t ht⟩

/-- The page with a wrapper marked as enhanced: nothing that selects show their states with is different. -/
structure Prepared (wrapper : Nat) (p q : Page) : Prop where
  marks : Parts.Unmoved p q
  trees : q.trees = p.trees
  length : q.elements.length = p.elements.length
  enhanced : (q.element wrapper).attr? "data-retention-enhanced" = some "true"

theorem plain_enhanced : Element.Plain "data-retention-enhanced" := by decide

theorem prepared_perform {es : List Edit} (hes : ∀ x ∈ es, Aside x)
    (henhanced : ∀ id < p.elements.length, id ≠ wrapper →
      ∀ x ∈ es, x.Keeps (·.attr? "data-retention-enhanced") id)
    (hmade : ((p.perform es).1.element wrapper).attr? "data-retention-enhanced" = some "true") :
    Prepared wrapper p (p.perform es).1 := by
  have hlength := (edited_perform p es).length
  have hattrs : ∀ m ∈ stateAttrs, Element.Plain m := by decide
  refine ⟨⟨Nat.le_of_eq hlength.symm, fun id hid name hname => ?_, fun id hid t ht => ?_, fun id hid h => ?_⟩, ?_,
    hlength, hmade⟩
  · exact look_perform_of_keeps (·.attr? name) (fun x hx => ((hes x hx).attr id name hname).keeps (hattrs name hname)) hid
  · exact look_perform_of_keeps (·.hasClass t) (fun x hx => ((hes x hx).cls id t ht).keeps (hes x hx).sound) hid
  · by_cases hne : id = wrapper
    · rw [hne]
      exact hmade
    · exact (look_perform_of_keeps (·.attr? "data-retention-enhanced") (henhanced id hid hne) hid).trans h
  · obtain ⟨htree, hloose⟩ := trees_perform fun x hx => (hes x hx).textless
    unfold Page.trees
    rw [htree, hloose]

theorem Prepared.trans {r : Page} (h : Prepared wrapper p q) (h' : Prepared wrapper q r) : Prepared wrapper p r :=
  ⟨h.marks.trans h'.marks, h'.trees.trans h.trees, h'.length.trans h.length, h'.enhanced⟩

/-- What marks a wrapper as enhanced, and takes the native select from those who do not see the page. -/
abbrev marking (wrapper native : Nat) : List Edit :=
  [.setAttr wrapper "data-retention-enhanced" "true", .addClass wrapper "is-enhanced",
    .setAttr native "aria-hidden" "true", .setAttr native "tabindex" "-1"]

/-- What takes the arrow from them too, where there is one. -/
abbrev veiling (arrow : Option Nat) : List Edit := arrow.toList.map fun id => .setAttr id "aria-hidden" "true"

theorem aside_marking {x : Edit} (hx : x ∈ marking wrapper native) : Aside x := by
  simp only [List.mem_cons, List.not_mem_nil, or_false] at hx
  rcases hx with rfl | rfl | rfl | rfl
  · exact aside_setAttr (by simp)
  · exact aside_addClass
  · exact aside_setAttr (by simp)
  · exact aside_setAttr (by simp)

theorem aside_veiling {arrow : Option Nat} {x : Edit} (hx : x ∈ veiling arrow) : Aside x := by
  obtain ⟨id, -, rfl⟩ := List.mem_map.mp hx
  exact aside_setAttr (by simp)

theorem prepared_marking (p : Page) (hwrapper : wrapper < p.elements.length) (native : Nat) :
    Prepared wrapper p (p.perform (marking wrapper native)).1 := by
  have hlater : ∀ j, ∀ x ∈ (marking wrapper native).tail, x.Keeps (·.attr? "data-retention-enhanced") j := by
    intro j x hx
    simp only [List.tail_cons, List.mem_cons, List.not_mem_nil, or_false] at hx
    rcases hx with rfl | rfl | rfl
    · exact Edit.Spares.keeps (.of_slot rfl Element.plain_class fun _ => by decide) plain_enhanced
    · exact Edit.Spares.keeps (.of_slot rfl (by decide) fun _ => by decide) plain_enhanced
    · exact Edit.Spares.keeps (.of_slot rfl (by decide) fun _ => by decide) plain_enhanced
  refine prepared_perform (fun _ => aside_marking) (fun id _ hne x hx => ?_) ?_
  · rcases List.mem_cons.mp hx with rfl | hx
    · exact Edit.Spares.keeps (.of_slot rfl plain_enhanced fun heq => absurd heq.symm hne) plain_enhanced
    · exact hlater id x hx
  · exact look_perform_of_makes (·.attr? "data-retention-enhanced") [] _ _ (fun _ hx => (aside_marking hx).sound)
      Edit.makes_setAttr (hlater wrapper) hwrapper

theorem prepared_veiling (p : Page) (hwrapper : wrapper < p.elements.length)
    (henhanced : (p.element wrapper).attr? "data-retention-enhanced" = some "true") (arrow : Option Nat) :
    Prepared wrapper p (p.perform (veiling arrow)).1 := by
  have hkeeps : ∀ j, ∀ x ∈ veiling arrow, x.Keeps (·.attr? "data-retention-enhanced") j := by
    intro j x hx
    obtain ⟨id, -, rfl⟩ := List.mem_map.mp hx
    exact Edit.Spares.keeps (.of_slot rfl (by decide) fun _ => by decide) plain_enhanced
  refine prepared_perform (fun _ => aside_veiling) (fun id _ _ => hkeeps id) ?_
  exact (look_perform_of_keeps (·.attr? "data-retention-enhanced") (hkeeps wrapper) hwrapper).trans henhanced

theorem thenPerform_of_sound {es : List Edit} (hes : ∀ x ∈ es, x.Sound)
    (next : Page → Except Fault Parts × Page) : thenPerform p es next = next (p.perform es).1 := by
  have hnone := perform_of_sound (p := p) hes
  unfold thenPerform
  generalize p.perform es = r at hnone ⊢
  obtain ⟨q, fault⟩ := r
  obtain rfl : fault = none := hnone
  rfl

/-- Making the parts marks the wrapper, and puts the parts into it unless something is refused. -/
theorem render_cases (p : Page) (hwrapper : wrapper < p.elements.length) (native : Nat) (entries : List Entry) :
    (∃ f q, render p {} wrapper native entries = (.error f, q) ∧ Prepared wrapper p q) ∨
      ∃ q a r, render p {} wrapper native entries = (.ok a, r) ∧ Prepared wrapper p q ∧ Attached q wrapper entries a r := by
  have hmarked := prepared_marking p hwrapper native
  have hwrapper' := hmarked.length ▸ hwrapper
  have hsound : ∀ x ∈ marking wrapper native, x.Sound := fun _ hx => (aside_marking hx).sound
  unfold render
  rw [thenPerform_of_sound hsound]
  generalize (p.perform (marking wrapper native)).1 = q at hmarked hwrapper' ⊢
  cases q.query wrapper ({} : SelectSettings).arrowSelector with
  | error f => exact .inl ⟨_, _, rfl, hmarked⟩
  | ok arrow =>
    have hboth := hmarked.trans (prepared_veiling q hwrapper' hmarked.enhanced arrow)
    have hsound' : ∀ x ∈ veiling arrow, x.Sound := fun _ hx => (aside_veiling hx).sound
    dsimp only
    rw [thenPerform_of_sound hsound']
    generalize (q.perform (veiling arrow)).1 = r at hboth ⊢
    have hdrawn : Prepared wrapper p r.draw.2 :=
      ⟨hboth.marks.trans (.of_alike ⟨rfl, rfl, rfl, rfl, rfl, rfl, fun _ => rfl, fun _ => rfl, fun _ => rfl⟩),
        hboth.trees, hboth.length, hboth.enhanced⟩
    split
    · exact .inr ⟨r.draw.2, _, _, rfl, hdrawn, attached_attach _ _ _ _ _ _⟩
    · exact .inl ⟨_, _, rfl, hdrawn⟩

end Widget
end PageWidgets
