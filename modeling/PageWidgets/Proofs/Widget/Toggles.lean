import PageWidgets.Proofs.NameMap
import PageWidgets.Proofs.Widget.Deeds

/-! The toggles of the overlay. An overlay collects the inputs with a category that are below it, in document order
    (`Anchors.togglesBelow`), and its choices hold for every category what the last of its inputs says. Nothing that the
    program does to a page takes an input, gives it another category, or puts a new one below the overlay (`Offers`), so
    what was collected once is what there is. -/

namespace PageWidgets

namespace Page

/-- Is it an input with that category, the blanks around it dropped? A blank category is none. -/
def Element.hasCategory (x : Element) (category : String) : Bool :=
  x.isA "input" && (x.attr? "data-cookie-category").any fun text =>
    !Text.isBlankText text && Text.trimmed text == category

/-- The inputs below an element with that category, in document order. -/
def categoryInputs (p : Page) (root : Nat) (category : String) : List Nat :=
  (p.descendants root).filter fun id => (p.element id).hasCategory category

theorem mem_documentElements_of_byId? {p : Page} {identifier : String} {id : Nat} (h : p.byId? identifier = some id) :
    id ∈ p.documentElements := by
  unfold byId? at h
  split at h
  · cases h
  · exact List.mem_of_find?_eq_some h

end Page

namespace Widget

open Consent Page Calendar

/-! ### Collecting toggles and controls -/

namespace Anchors

variable {p q : Page} {a : Anchors} {overlay id : Nat} {name : String}

/-- Every toggle below an element, in document order. -/
def togglesBelow (p : Page) (root : Nat) : List (String × Nat) := (p.descendants root).filterMap (toggle? p {})

theorem toggle?_eq_some {e : String × Nat} : toggle? p {} id = some e ↔ (p.element id).isA "input" = true ∧
    ∃ text, (p.element id).attr? "data-cookie-category" = some text ∧ Text.isBlankText text = false ∧
      e = (Text.trimmed text, id) := by
  constructor
  · intro h
    unfold toggle? at h
    split at h
    · cases h
    · next text htext =>
      split at h
      · next hinput =>
        cases h
        exact ⟨hinput.1, text, htext, by simpa using hinput.2, rfl⟩
      · cases h
  · rintro ⟨hinput, text, htext, hblank, rfl⟩
    have hcategory : (p.element id).attr? ({} : ConsentSettings).categoryAttr = some text := htext
    unfold toggle?
    rw [hcategory]
    exact if_pos ⟨hinput, by rw [hblank]; rfl⟩

/-- An input has a category when it is the toggle of it. -/
theorem hasCategory_iff : (p.element id).hasCategory name = true ↔ toggle? p {} id = some (name, id) := by
  rw [Element.hasCategory, toggle?_eq_some, Bool.and_eq_true, Option.any_eq_true]
  refine and_congr_right fun _ => exists_congr fun text => and_congr_right fun _ => ?_
  rw [Bool.and_eq_true, Bool.not_eq_true', beq_iff_eq, Prod.mk.injEq, eq_comm (a := name), and_iff_left rfl]

theorem toggle?_congr (hinput : (q.element id).isA "input" = (p.element id).isA "input")
    (hcategory : (q.element id).attr? "data-cookie-category" = (p.element id).attr? "data-cookie-category") :
    toggle? q {} id = toggle? p {} id := by
  refine Option.ext fun e => ?_
  rw [toggle?_eq_some, toggle?_eq_some, hinput, hcategory]

/-- The selector of the settings passes over no toggle. -/
theorem toggles_of_collect (h : collect p overlay {} = .ok (some a)) : a.toggles = togglesBelow p overlay := by
  obtain ⟨accept, controls, toggles, views, targets, -, -, htoggles, -, -, rfl⟩ := exists_of_collect h
  have hread : Selector.read ({} : ConsentSettings).categorySelector =
      .ok ⟨some "input", [.attr "data-cookie-category"]⟩ := rfl
  unfold findAll queryAll at htoggles
  rw [hread] at htoggles
  cases htoggles
  dsimp only [togglesBelow]
  rw [List.filterMap_filter]
  refine List.filterMap_congr fun id _ => ?_
  cases htoggle : toggle? p {} id with
  | none => exact ite_self none
  | some e =>
    obtain ⟨hinput, text, hcategory, -, -⟩ := toggle?_eq_some.mp htoggle
    have hlower : Text.lowerAsciiText "input" = "input" := by decide
    have htag : (p.element id).tag = "input" := by
      unfold Element.isA at hinput
      simpa using (Bool.and_eq_true_iff.mp hinput).2
    refine if_pos ?_
    simp [Element.isSelected, Element.meets, Element.hasAttr, hcategory, htag, hlower]

/-- The toggles of a category are the inputs with it. -/
theorem filter_togglesBelow (p : Page) (root : Nat) (category : String) :
    ((togglesBelow p root).filter fun e => e.1 = category).map (·.2) = p.categoryInputs root category := by
  unfold togglesBelow categoryInputs
  induction p.descendants root with
  | nil => rfl
  | cons id ids ih =>
    by_cases hid : toggle? p {} id = some (category, id)
    · rw [List.filterMap_cons_some hid, List.filter_cons_of_pos (by simp), List.map_cons, ih, List.filter_cons,
        if_pos (hasCategory_iff.mpr hid)]
    · rw [List.filter_cons (x := id), if_neg fun h => hid (hasCategory_iff.mp h), ← ih]
      cases htoggle : toggle? p {} id with
      | none => rw [List.filterMap_cons_none htoggle]
      | some e =>
        obtain ⟨-, text, -, -, rfl⟩ := toggle?_eq_some.mp htoggle
        rw [List.filterMap_cons_some htoggle, List.filter_cons_of_neg]
        intro hname
        obtain rfl : Text.trimmed text = category := of_decide_eq_true hname
        exact hid htoggle

/-- A choice is what the last input of its category says. -/
theorem get?_choices (h : a.toggles = togglesBelow p a.overlay) (q : Page) (category : String) :
    (a.choices q).get? category =
      (p.categoryInputs a.overlay category).getLast?.map fun id => (q.element id).checked := by
  unfold choices
  rw [NameMap.get?_ofList, List.filter_map, List.getLast?_map, ← filter_togglesBelow, ← h, List.getLast?_map]
  simp only [Option.map_map]
  rfl

/-! ### Collecting controls -/

theorem read_actionSelector {name : String} (h : name ∈ "accept" :: optionalControls) :
    Selector.read (({} : ConsentSettings).actionSelector name) = .ok ⟨none, [.attrIs "data-cookie-consent" name]⟩ := by
  simp only [optionalControls, List.mem_cons, List.not_mem_nil, or_false] at h
  rcases h with rfl | rfl | rfl | rfl | rfl <;> rfl

/-- A control bears its name. -/
theorem named_of_findHtml {name : String} (h : name ∈ "accept" :: optionalControls)
    (hfound : findHtml p overlay (({} : ConsentSettings).actionSelector name) = .ok (some id)) :
    (p.element id).attr? "data-cookie-consent" = some name := by
  unfold findHtml query queryAll at hfound
  rw [read_actionSelector h] at hfound
  obtain ⟨hhead, -⟩ := Option.filter_eq_some_iff.mp (Except.ok.inj hfound)
  have hselected := (List.mem_filter.mp (List.mem_of_head? hhead)).2
  simpa [Element.isSelected, Element.meets] using hselected

theorem named_of_findControls {names : List String} (h : ∀ name ∈ names, name ∈ "accept" :: optionalControls)
    {controls : List (String × Nat)} (hfound : findControls p overlay {} names = .ok controls) :
    ∀ c ∈ controls, (p.element c.2).attr? "data-cookie-consent" = some c.1 := by
  induction names generalizing controls with
  | nil =>
    cases hfound
    exact fun c hc => absurd hc List.not_mem_nil
  | cons name names ih =>
    unfold findControls at hfound
    split at hfound
    · cases hfound
    · next found hhtml =>
      split at hfound
      · cases hfound
      · next more hmore =>
        cases hfound
        intro c hc
        rcases List.mem_append.mp hc with hc | hc
        · obtain ⟨id, hid, rfl⟩ := List.mem_map.mp hc
          rw [Option.mem_toList.mp hid] at hhtml
          exact named_of_findHtml (h name List.mem_cons_self) hhtml
        · exact ih (fun n hn => h n (List.mem_cons_of_mem name hn)) hmore c hc

theorem overlay_of_collect (h : collect p overlay {} = .ok (some a)) : a.overlay = overlay := (views_of_collect h).1

/-- No element is two controls. -/
theorem controls_of_collect (h : collect p overlay {} = .ok (some a)) {c d : String × Nat} (hc : c ∈ a.controls)
    (hd : d ∈ a.controls) (hcd : c.2 = d.2) : c.1 = d.1 := by
  have hnamed : ∀ c ∈ a.controls, (p.element c.2).attr? "data-cookie-consent" = some c.1 := by
    obtain ⟨accept, controls, toggles, views, targets, haccept, hcontrols, -, -, -, rfl⟩ := exists_of_collect h
    intro c hc
    rcases List.mem_cons.mp hc with rfl | hc
    · exact named_of_findHtml List.mem_cons_self haccept
    · exact named_of_findControls (fun name hname => List.mem_cons_of_mem _ hname) hcontrols c hc
  have hboth := (hnamed c hc).symm.trans ((congrArg (fun id => (p.element id).attr? _) hcd).trans (hnamed d hd))
  exact Option.some.inj hboth

end Anchors

/-! ### What a page offers -/

/-- What is read off the inputs of a page, and the jar, are as they were. -/
structure Labelled (p q : Page) : Prop where
  length : p.elements.length ≤ q.elements.length
  category : ∀ id < p.elements.length,
    (q.element id).attr? "data-cookie-category" = (p.element id).attr? "data-cookie-category"
  jar : q.jar = p.jar

/-- There are the same toggles below every element, and a jar that can be read can be read still. -/
structure Offers (p q : Page) : Prop where
  length : p.elements.length ≤ q.elements.length
  toggles : ∀ id < p.elements.length, Anchors.togglesBelow q id = Anchors.togglesBelow p id
  legible : p.jar.Legible → q.jar.Legible

section
variable {p q r : Page} {w : Select} {o : Overlay}

theorem Labelled.refl (p : Page) : Labelled p p := ⟨Nat.le_refl _, fun _ _ => rfl, rfl⟩

theorem Labelled.trans (h : Labelled p q) (h' : Labelled q r) : Labelled p r where
  length := Nat.le_trans h.length h'.length
  category id hid := (h'.category id (Nat.lt_of_lt_of_le hid h.length)).trans (h.category id hid)
  jar := h'.jar.trans h.jar

theorem Offers.trans (h : Offers p q) (h' : Offers q r) : Offers p r where
  length := Nat.le_trans h.length h'.length
  toggles id hid := (h'.toggles id (Nat.lt_of_lt_of_le hid h.length)).trans (h.toggles id hid)
  legible hp := h'.legible (h.legible hp)

/-- New elements are no inputs, so a page that hosts what another does offers what it does. -/
theorem Labelled.offers (h : Labelled p q) (hhosts : Hosts p q) : Offers p q := by
  refine ⟨h.length, fun id hid => ?_, fun hlegible => h.jar ▸ hlegible⟩
  have hnames : ∀ t ∈ ["", "button", "ul", "li"], (t == "input") = false := by decide
  have hnew : ∀ i, p.elements.length ≤ i → Anchors.toggle? q {} i = none := by
    intro i hi
    refine Option.eq_none_iff_forall_ne_some.mpr fun e he => ?_
    have hinput := (Anchors.toggle?_eq_some.mp he).1
    unfold Element.isA at hinput
    rw [hnames _ (hhosts.fresh i hi).tag, Bool.and_false] at hinput
    cases hinput
  unfold Anchors.togglesBelow
  rw [← hhosts.grown.below id hid, List.filterMap_filter]
  refine List.filterMap_congr fun i _ => ?_
  by_cases hi : i < p.elements.length
  · rw [if_pos (decide_eq_true hi)]
    exact Anchors.toggle?_congr (hhosts.grown.isA hi "input") (h.category i hi)
  · rw [if_neg (by simpa using hi)]
    exact hnew i (Nat.le_of_not_lt hi)

/-- The same elements in the same trees offer the same. -/
theorem Offers.of_attrs (htrees : q.trees = p.trees) (hlength : q.elements.length = p.elements.length)
    (hinput : ∀ id, (q.element id).isA "input" = (p.element id).isA "input")
    (hcategory : ∀ id, (q.element id).attr? "data-cookie-category" = (p.element id).attr? "data-cookie-category")
    (hlegible : p.jar.Legible → q.jar.Legible) : Offers p q := by
  refine ⟨Nat.le_of_eq hlength.symm, fun id _ => ?_, hlegible⟩
  unfold Anchors.togglesBelow
  rw [descendants_congr htrees]
  exact List.filterMap_congr fun i _ => Anchors.toggle?_congr (hinput i) (hcategory i)

theorem Offers.of_elements (htrees : q.trees = p.trees) (helements : q.elements = p.elements)
    (hlegible : p.jar.Legible → q.jar.Legible) : Offers p q := by
  have helement : ∀ id, q.element id = p.element id := by
    intro id
    unfold Page.element
    rw [helements]
  exact .of_attrs htrees (by rw [helements]) (fun id => by rw [helement]) (fun id => by rw [helement]) hlegible

theorem Offers.refl (p : Page) : Offers p p := .of_elements rfl rfl id

theorem Offers.of_alike (h : Alike p q) : Offers p q := by
  refine .of_attrs ?_ h.length (fun id => h.isA id "input") (fun id => h.attr? id _) fun hlegible => h.jar ▸ hlegible
  unfold Page.trees
  rw [h.tree, h.loose]

/-! ### Edits -/

theorem Labelled.perform (p : Page) {es : List Edit} (hes : ∀ x ∈ es, ∀ id, x.Spares id "data-cookie-category") :
    Labelled p (p.perform es).1 where
  length := Nat.le_of_eq (edited_perform p es).length.symm
  category id hid := look_perform_of_keeps (·.attr? "data-cookie-category")
    (fun x hx => (hes x hx id).keeps (by decide)) hid
  jar := (edited_perform p es).jar

theorem Modest.spares_category {x : Edit} (hx : Modest x) (id : Nat) : x.Spares id "data-cookie-category" := by
  have hwritten : ∀ n ∈ writtenAttrs, Element.Plain n ∧ n ≠ "data-cookie-category" := by decide
  exact fun name hname => hwritten name (hx id name hname)

theorem Labelled.after_select (hw : w.settings = {}) (p : Page) (e : Listbox.Effect) : Labelled p (w.after p e) :=
  .perform p fun _ hx id => (Select.fair_of_mem_edits hw hx).modest.spares_category id

theorem Labelled.foldl_after (hw : w.settings = {}) (p : Page) (es : List Listbox.Effect) :
    Labelled p (es.foldl w.after p) := by
  induction es generalizing p with
  | nil => exact .refl p
  | cons e es ih => exact (after_select hw p e).trans (ih _)

theorem Labelled.after_overlay (ho : o.settings = {}) (p : Page) (e : Effect) : Labelled p (o.after p e) :=
  .perform p fun _ hx id => (Overlay.fair_of_mem_edits ho hx).modest.spares_category id

theorem Offers.after_select (hp : p.WellFormed) (hw : w.settings = {}) (hleaf : p.Leaf w.parts.trigger)
    (e : Listbox.Effect) : Offers p (w.after p e) :=
  (Labelled.after_select hw p e).offers (.after_select hp hw hleaf e)

theorem Offers.after_overlay (hp : p.WellFormed) (ho : o.settings = {}) (e : Effect) : Offers p (o.after p e) :=
  (Labelled.after_overlay ho p e).offers (.after_overlay hp ho e)

/-! ### New parts -/

theorem Labelled.thenPerform {es : List Edit} (hes : ∀ x ∈ es, ∀ id, x.Spares id "data-cookie-category")
    {next : Page → Except Fault Parts × Page} (hnext : ∀ q, Labelled q (next q).2) (p : Page) :
    Labelled p (thenPerform p es next).2 := by
  have hedits := Labelled.perform p hes
  unfold Widget.thenPerform
  split
  · next q f hq =>
    rw [hq] at hedits
    exact hedits
  · next q hq =>
    rw [hq] at hedits
    exact hedits.trans (hnext q)

theorem Labelled.attach (p : Page) (wrapper native : Nat) (arrow : Option Nat) (entries : List Listbox.Entry)
    (menuId : String) : Labelled p (attach p {} wrapper native arrow entries menuId).2 := by
  have h := attached_attach p wrapper native arrow entries menuId
  refine ⟨?_, fun id hid => by rw [h.element_of_old hid], rfl⟩
  rw [h.length]
  exact Nat.le_add_right _ _

theorem Labelled.render (p : Page) (wrapper native : Nat) (entries : List Listbox.Entry) :
    Labelled p (render p {} wrapper native entries).2 := by
  have hmarking : ∀ x ∈ marking wrapper native, ∀ id, x.Spares id "data-cookie-category" := by
    intro x hx id
    rcases List.mem_cons.mp hx with rfl | hx
    · exact .of_slot rfl plain_enhanced fun _ => by decide
    · exact (modest_marking hx).spares_category id
  refine thenPerform hmarking (fun q => ?_) p
  split
  · exact ⟨Nat.le_refl _, fun _ _ => rfl, rfl⟩
  · next arrow _ =>
    refine thenPerform (fun x hx id => (modest_veiling hx).spares_category id) (fun r => ?_) q
    have hdrawn : Labelled r r.draw.2 := ⟨Nat.le_refl _, fun _ _ => rfl, rfl⟩
    dsimp only
    split
    · exact hdrawn.trans (.attach r.draw.2 wrapper native arrow entries _)
    · exact hdrawn

end

end Widget
end PageWidgets
