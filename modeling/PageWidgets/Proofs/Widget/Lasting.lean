import PageWidgets.Proofs.Page.Containment
import PageWidgets.Proofs.Widget.Attended
import PageWidgets.Proofs.Widget.Rendering

/-! What lasts on a page, whatever the program does to it. It writes nine attributes and the mark of an enhanced wrapper,
    puts texts on triggers, and puts triggers and menus into elements with a select below. So every element keeps the rest
    of its attributes, and an element that is no button, with neither buttons nor selects below, keeps what is below it
    (`Lasts`). -/

namespace PageWidgets
namespace Widget

open Consent Page Calendar

/-! ### Pages -/

/-- The attributes that the program writes on elements it finds. -/
abbrev passingAttrs : List String := "data-retention-enhanced" :: writtenAttrs

/-- The element is no button, and neither buttons nor selects are below it. -/
def Quiet (p : Page) (id : Nat) : Prop :=
  (p.element id).isA "button" = false ∧
    ∀ u ∈ p.descendants id, (p.element u).isA "button" = false ∧ (p.element u).isA "select" = false

/-- Whatever lasts in one page is as it was in the other. -/
structure Lasts (p q : Page) : Prop where
  wellFormed : q.WellFormed
  length : p.elements.length ≤ q.elements.length
  tag : ∀ id < p.elements.length, (q.element id).tag = (p.element id).tag
  html : ∀ id < p.elements.length, (q.element id).html = (p.element id).html
  attr? : ∀ id < p.elements.length, ∀ name, Element.Plain name → name ∉ passingAttrs →
    (q.element id).attr? name = (p.element id).attr? name
  leaf : ∀ id, p.Leaf id → q.Leaf id
  quiet : ∀ id < p.elements.length, Quiet p id → Node.childrenIn? id q.trees = Node.childrenIn? id p.trees

/-- The edit writes no other attribute, and no text but that of a button with nothing below it. -/
structure Gentle (p : Page) (x : Edit) : Prop where
  slot : ∀ id name, x.slot? = some (id, name) → name ∈ passingAttrs
  text : ∀ id text, x = .setText id text → p.Leaf id ∧ (p.element id).isA "button" = true

theorem Modest.gentle {p : Page} {x : Edit} (h : Modest x)
    (htext : ∀ id text, x = .setText id text → p.Leaf id ∧ (p.element id).isA "button" = true) : Gentle p x :=
  ⟨fun id name hslot => List.mem_cons_of_mem _ (h id name hslot), htext⟩

namespace Lasts

variable {p q r : Page} {id : Nat}

theorem isA (h : Lasts p q) (hid : id < p.elements.length) (tag : String) :
    (q.element id).isA tag = (p.element id).isA tag := by
  unfold Element.isA
  rw [h.html id hid, h.tag id hid]

theorem descendants_eq (h : Lasts p q) (hid : id < p.elements.length) (hquiet : Quiet p id) :
    q.descendants id = p.descendants id := by
  unfold Page.descendants Page.children
  rw [h.quiet id hid hquiet]

theorem stays_quiet (h : Lasts p q) (hp : p.WellFormed) (hid : id < p.elements.length) (hquiet : Quiet p id) :
    Quiet q id := by
  refine ⟨(h.isA hid _).trans hquiet.1, fun u hu => ?_⟩
  rw [h.descendants_eq hid hquiet] at hu
  have hknown := (hp.descendants id).2.2 u hu
  exact ⟨(h.isA hknown _).trans (hquiet.2 u hu).1, (h.isA hknown _).trans (hquiet.2 u hu).2⟩

theorem trans (h : Lasts p q) (h' : Lasts q r) (hp : p.WellFormed) : Lasts p r where
  wellFormed := h'.wellFormed
  length := Nat.le_trans h.length h'.length
  tag id hid := (h'.tag id (Nat.lt_of_lt_of_le hid h.length)).trans (h.tag id hid)
  html id hid := (h'.html id (Nat.lt_of_lt_of_le hid h.length)).trans (h.html id hid)
  attr? id hid name hplain hname :=
    (h'.attr? id (Nat.lt_of_lt_of_le hid h.length) name hplain hname).trans (h.attr? id hid name hplain hname)
  leaf id hleaf := h'.leaf id (h.leaf id hleaf)
  quiet id hid hquiet :=
    (h'.quiet id (Nat.lt_of_lt_of_le hid h.length) (h.stays_quiet hp hid hquiet)).trans (h.quiet id hid hquiet)

/-- The same trees, and elements with the same lasting attributes. -/
theorem of_trees (hp : p.WellFormed) (htrees : q.trees = p.trees) (hlength : q.elements.length = p.elements.length)
    (htag : ∀ id, (q.element id).tag = (p.element id).tag) (hhtml : ∀ id, (q.element id).html = (p.element id).html)
    (hattr : ∀ id < p.elements.length, ∀ name, Element.Plain name → name ∉ passingAttrs →
      (q.element id).attr? name = (p.element id).attr? name) : Lasts p q where
  wellFormed := hp.congr htrees hlength
  length := Nat.le_of_eq hlength.symm
  tag id _ := htag id
  html id _ := hhtml id
  attr? := hattr
  leaf id hleaf := hleaf.congr (by rw [htrees])
  quiet id _ _ := by rw [htrees]

theorem of_alike (hp : p.WellFormed) (h : Alike p q) : Lasts p q :=
  of_trees hp (by unfold trees; rw [h.tree, h.loose]) h.length h.tag h.html fun id _ name _ _ => h.attr? id name

theorem of_elements (hp : p.WellFormed) (htrees : q.trees = p.trees) (helements : q.elements = p.elements) :
    Lasts p q := by
  have helement : ∀ id, q.element id = p.element id := by
    intro id
    unfold Page.element
    rw [helements]
  exact of_trees hp htrees (by rw [helements]) (fun id => by rw [helement]) (fun id => by rw [helement])
    fun id _ name _ _ => by rw [helement]

theorem refl (hp : p.WellFormed) : Lasts p p := of_elements hp rfl rfl

/-- What is below an element changes with the children of those at or below it. -/
theorem childrenIn?_withChildren {f : List Node → List Node} {u : Nat} (hp : p.WellFormed) (hu : u ≠ id)
    (hbelow : id ∉ p.descendants u)
    (hf : ∀ c, Node.childrenIn? id p.trees = some c → Node.childrenIn? u (f c) = Node.childrenIn? u c) :
    Node.childrenIn? u (p.withChildren id f).trees = Node.childrenIn? u p.trees := by
  rw [trees_withChildren, Node.childrenIn?_withChildrenIn hu p.trees hp.distinct hf]
  cases hc : Node.childrenIn? u p.trees with
  | none => rfl
  | some c =>
    rw [Option.map_some, Node.withChildrenIn_of_not_mem]
    exact fun hmem => hbelow (mem_descendants_of_childrenIn? hc hmem)

theorem setText (hp : p.WellFormed) (hleaf : p.Leaf id) (hbutton : (p.element id).isA "button" = true) (text : String) :
    Lasts p (p.withChildren id fun _ => textNodes text) := by
  obtain ⟨-, hwell, hself, -⟩ := hp.setText text hleaf
  refine ⟨hwell, Nat.le_refl _, fun _ _ => rfl, fun _ _ => rfl, fun _ _ _ _ _ => rfl, fun u hu => ?_,
    fun u _ hquiet => ?_⟩
  · by_cases heq : u = id
    · rw [heq]
      exact hself
    · exact hu.congr (hp.leaf_setText text hleaf hu heq)
  · have hne : u ≠ id := by
      rintro rfl
      exact absurd (hquiet.1.symm.trans hbutton) Bool.false_ne_true
    refine childrenIn?_withChildren hp hne (fun hmem => ?_) fun c hc => ?_
    · exact absurd ((hquiet.2 id hmem).1.symm.trans hbutton) Bool.false_ne_true
    · obtain ⟨d, hd, hnone⟩ := hleaf
      obtain rfl : d = c := Option.some.inj (hd.symm.trans hc)
      rw [Node.childrenIn?_of_idsOf_eq_nil hnone, Node.childrenIn?_of_idsOf_eq_nil (idsOf_textNodes text)]

/-- One gentle edit. -/
theorem edit {x : Edit} (hp : p.WellFormed) (hx : Gentle p x) (hq : p.edit x = .ok q) : Lasts p q := by
  by_cases htext : ∃ id text, x = .setText id text
  · obtain ⟨id, text, rfl⟩ := htext
    obtain ⟨hleaf, hbutton⟩ := hx.text id text rfl
    cases hq
    exact setText hp hleaf hbutton text
  · have htextless : ∀ id text, x ≠ .setText id text := fun id text heq => htext ⟨id, text, heq⟩
    obtain ⟨htree, hloose⟩ := trees_edit hq htextless
    have hedited := edited_edit hq
    have hplain : ∀ m ∈ passingAttrs, Element.Plain m := by decide
    refine of_trees hp (by unfold trees; rw [htree, hloose]) hedited.length hedited.tag hedited.html ?_
    intro id hid name hname hother
    refine Edit.Spares.keeps (fun m hslot => ⟨hplain m (hx.slot id m hslot), ?_⟩) hname p q hq hid
    rintro rfl
    exact hother (hx.slot id m hslot)

theorem gentle (h : Lasts p q) (hp : p.WellFormed) {x : Edit} (hx : Gentle p x) : Gentle q x := by
  refine ⟨hx.slot, fun id text heq => ?_⟩
  obtain ⟨hleaf, hbutton⟩ := hx.text id text heq
  exact ⟨h.leaf id hleaf, (h.isA (hp.known id (leaf_iff.mp hleaf).1) _).trans hbutton⟩

theorem perform {es : List Edit} (hp : p.WellFormed) (hes : ∀ x ∈ es, Gentle p x) : Lasts p (p.perform es).1 := by
  induction es generalizing p with
  | nil => exact refl hp
  | cons x es ih =>
    rw [Page.perform]
    cases hq : p.edit x with
    | error fault => exact refl hp
    | ok q =>
      have hfirst := edit hp (hes x List.mem_cons_self) hq
      exact hfirst.trans (ih hfirst.wellFormed fun y hy => hfirst.gentle hp (hes y (List.mem_cons_of_mem x hy))) hp

theorem after_select {w : Select} {e : Listbox.Effect} (hp : p.WellFormed) (hw : w.settings = {})
    (hleaf : p.Leaf w.parts.trigger) (hbutton : (p.element w.parts.trigger).isA "button" = true) :
    Lasts p (w.after p e) := by
  refine perform hp fun x hx => ?_
  have hfair := Select.fair_of_mem_edits hw hx
  refine hfair.modest.gentle fun id text heq => ?_
  subst heq
  cases hfair
  exact ⟨hleaf, hbutton⟩

theorem begun {w : Select} (hp : p.WellFormed) (hw : w.settings = {}) (hleaf : p.Leaf w.parts.trigger)
    (hbutton : (p.element w.parts.trigger).isA "button" = true) : Lasts p (w.begun p) := by
  unfold Select.begun
  generalize w.state.initialEffects (p.selectedIndex w.parts.native) = es
  induction es generalizing p with
  | nil => exact refl hp
  | cons e es ih =>
    have hfirst := after_select (e := e) hp hw hleaf hbutton
    have hknown := hp.known _ (leaf_iff.mp hleaf).1
    exact hfirst.trans (ih hfirst.wellFormed (hfirst.leaf _ hleaf) ((hfirst.isA hknown _).trans hbutton)) hp

theorem after_overlay {o : Overlay} {e : Effect} (hp : p.WellFormed) (ho : o.settings = {}) : Lasts p (o.after p e) := by
  refine perform hp fun x hx => ?_
  have hfair := Overlay.fair_of_mem_edits ho hx
  exact hfair.modest.gentle fun id text heq => absurd heq (hfair.textless id text)

/-- New parts in a wrapper with a select below it. -/
theorem attached {wrapper native : Nat} {entries : List Listbox.Entry} {a : Parts} (h : Attached p wrapper entries a q)
    (hp : p.WellFormed) (hnative : native ∈ p.descendants wrapper) (hselect : (p.element native).isA "select" = true) :
    Lasts p q := by
  obtain ⟨c, hc, hmem⟩ := exists_of_mem_descendants hnative
  have hwrapper := Node.mem_of_childrenIn? hc
  refine ⟨h.wellFormed hp hwrapper, ?_, fun id hid => by rw [h.element_of_old hid],
    fun id hid => by rw [h.element_of_old hid], fun id hid _ _ _ => by rw [h.element_of_old hid], fun id hleaf => ?_,
    fun id hid hquiet => ?_⟩
  · rw [h.length]
    omega
  · refine hleaf.congr (h.childrenIn?_of_leaf hp ?_ hleaf)
    rintro rfl
    rw [(leaf_iff.mp hleaf).2] at hnative
    exact absurd hnative List.not_mem_nil
  · obtain ⟨arrow, htrees⟩ := h.trees
    have hloud : native ∉ p.descendants id := fun hbelow =>
      absurd ((hquiet.2 native hbelow).2.symm.trans hselect) Bool.false_ne_true
    rw [htrees, ← trees_withChildren]
    refine childrenIn?_withChildren hp ?_ (fun hbelow => ?_) fun d _ =>
      childrenIn?_withParts d (Attached.not_mem_newIds hid)
    · rintro rfl
      exact hloud hnative
    · exact hloud (hp.mem_descendants_trans hbelow hnative)

/-- Only the next random number goes after a wrapper is prepared. -/
theorem readied (hp : p.WellFormed) (wrapper native : Nat) : Lasts p (Widget.readied p wrapper native) := by
  have hedits : Lasts p (prepare p wrapper native) := by
    rw [prepare_eq]
    refine perform hp fun x hx =>
      ⟨fun id name hslot => ?_, fun id text heq => absurd heq ((aside_preparing hx).textless id text)⟩
    rcases List.mem_append.mp hx with hx | hx
    · rcases List.mem_cons.mp hx with rfl | hx
      · cases hslot
        exact List.mem_cons_self
      · exact List.mem_cons_of_mem _ (modest_marking hx id name hslot)
    · exact List.mem_cons_of_mem _ (modest_veiling hx id name hslot)
  unfold Widget.readied
  exact hedits.trans (of_elements hedits.wellFormed rfl rfl) hp

/-- Parts that are made in a wrapper. Their trigger is a button with nothing below it. -/
theorem made {wrapper native : Nat} (hp : p.WellFormed) (hnative : native ∈ p.descendants wrapper)
    (hselect : (p.element native).isA "select" = true) :
    Lasts p (Widget.made p wrapper native).2 ∧ (Widget.made p wrapper native).2.Leaf (Widget.made p wrapper native).1.trigger ∧
      ((Widget.made p wrapper native).2.element (Widget.made p wrapper native).1.trigger).isA "button" = true := by
  have hattached := attached_made p wrapper native
  have hreadied := readied hp wrapper native
  have hbelow : native ∈ (Widget.readied p wrapper native).descendants wrapper := by
    rw [descendants_congr trees_readied]
    exact hnative
  have hkind := (hreadied.isA ((hp.descendants wrapper).2.2 _ hnative) "select").trans hselect
  obtain ⟨c, hc, -⟩ := exists_of_mem_descendants hbelow
  obtain ⟨menuId, hnew⟩ := hattached.element_of_new
  refine ⟨hreadied.trans (attached hattached hreadied.wellFormed hbelow hkind) hp,
    ⟨[], hattached.childrenIn?_trigger hreadied.wellFormed (Node.mem_of_childrenIn? hc), rfl⟩, ?_⟩
  rw [hattached.trigger]
  exact congrArg (·.isA "button") (hnew 0)

end Lasts
end Widget
end PageWidgets
