import PageWidgets.Proofs.Widget.Enduring

/-! An enhanced select shows the native one. The menu lists its options in their order, and goes on doing so whatever comes
    about (`Lists`); the trigger and the menu are put in among the children of the wrapper and all else stands where it
    stood, the native select with its options too, which is only hidden from those who do not see the page and has the
    option chosen that the listbox starts with (`Projected`). -/

namespace PageWidgets

namespace Page

/-- The index of the option that a listbox starts with: the first one that is chosen and enabled, else the first enabled
    one, else the first of all. -/
def preferredIndex (p : Page) (select : Nat) : Nat :=
  (((p.options select).findIdx? fun id => (p.element id).chosen && !(p.element id).hasAttr "disabled").or
    ((p.options select).findIdx? fun id => !(p.element id).hasAttr "disabled")).getD 0

end Page

namespace Widget

open Listbox Page

variable {p q r : Page} {wrapper native menu : Nat} {menuId : String}

theorem initialIndex_entriesOf (p : Page) (native : Nat) : initialIndex (entriesOf p native) = p.preferredIndex native := by
  rw [initialIndex_eq]
  unfold entriesOf preferredIndex
  rw [List.findIdx?_map, List.findIdx?_map]
  rfl

/-! ### What a menu lists -/

/-- An item of a menu stands for an option. -/
structure Mirrors (p : Page) (option : Nat) (menuId : String) (index : Nat) (q : Page) (item : Nat) : Prop where
  kind : (q.element item).isA "li" = true
  value : (q.element item).attr? "data-value" = some (p.optionValue option)
  label : q.textContent item = p.textContent option
  identifier : (q.element item).attr? "id" = some (entryId menuId index)
  disabled : (q.element item).attr? "aria-disabled" = if (p.element option).hasAttr "disabled" then some "true" else none

/-- A menu lists the options of a native select in their order, and nothing else. -/
structure Lists (p : Page) (native : Nat) (menuId : String) (q : Page) (menu : Nat) : Prop where
  kind : (q.element menu).isA "ul" = true
  identifier : (q.element menu).attr? "id" = some menuId
  alone : q.descendants menu = q.childElements menu
  count : (q.childElements menu).length = (p.options native).length
  items : ∀ i option item, (p.options native)[i]? = some option → (q.childElements menu)[i]? = some item →
    Mirrors p option menuId i q item

theorem known_of_isA {tag : String} {id : Nat} (h : (q.element id).isA tag = true) : id < q.elements.length := by
  by_contra hid
  rw [element_of_unknown (Nat.le_of_not_lt hid)] at h
  cases h

theorem isA_of_ne {tag other : String} {id : Nat} (h : (q.element id).isA tag = true) (hne : tag ≠ other) :
    (q.element id).isA other = false := by
  unfold Element.isA at h ⊢
  simp only [Bool.and_eq_true, beq_iff_eq] at h
  rw [h.2, beq_false_of_ne hne, Bool.and_false]

theorem Lists.item_kind (h : Lists p native menuId q menu) {item : Nat} (hitem : item ∈ q.childElements menu) :
    (q.element item).isA "li" = true := by
  obtain ⟨i, hi⟩ := List.mem_iff_getElem?.mp hitem
  have hlt := (List.getElem?_eq_some_iff.mp hi).1
  rw [h.count] at hlt
  exact (h.items i _ item (List.getElem?_eq_getElem hlt) hi).kind

/-- A menu and its items are quiet: there is neither a button nor a select among them. -/
theorem Lists.quiet (h : Lists p native menuId q menu) (hq : q.WellFormed) {id : Nat}
    (hid : id = menu ∨ id ∈ q.childElements menu) : Quiet q id := by
  have hbelow : ∀ u ∈ q.descendants menu, (q.element u).isA "button" = false ∧ (q.element u).isA "select" = false := by
    intro u hu
    rw [h.alone] at hu
    exact ⟨isA_of_ne (h.item_kind hu) (by decide), isA_of_ne (h.item_kind hu) (by decide)⟩
  rcases hid with rfl | hid
  · exact ⟨isA_of_ne h.kind (by decide), hbelow⟩
  · exact ⟨isA_of_ne (h.item_kind hid) (by decide), fun u hu => hbelow u (hq.mem_descendants_trans (h.alone ▸ hid) hu)⟩

/-- A menu goes on listing what it lists. -/
theorem Lists.lasts (h : Lists p native menuId q menu) (hq : q.WellFormed) (hr : Lasts q r) :
    Lists p native menuId r menu := by
  have hmenu := known_of_isA h.kind
  have hchildren := hr.quiet menu hmenu (h.quiet hq (.inl rfl))
  have helements : r.childElements menu = q.childElements menu := by
    unfold childElements Page.children
    rw [hchildren]
  refine ⟨(hr.isA hmenu _).trans h.kind, (hr.attr? menu hmenu "id" (by decide) (by decide)).trans h.identifier, ?_,
    helements ▸ h.count, fun i option item hoption hi => ?_⟩
  · rw [helements, ← h.alone]
    unfold Page.descendants Page.children
    rw [hchildren]
  · rw [helements] at hi
    have hmirrors := h.items i option item hoption hi
    have hknown := known_of_isA hmirrors.kind
    have hquiet := h.quiet hq (.inr (List.mem_of_getElem? hi))
    exact
      { kind := (hr.isA hknown _).trans hmirrors.kind
        value := (hr.attr? item hknown _ (by decide) (by decide)).trans hmirrors.value
        label := (textContent_congr (hr.quiet item hknown hquiet)).trans hmirrors.label
        identifier := (hr.attr? item hknown _ (by decide) (by decide)).trans hmirrors.identifier
        disabled := (hr.attr? item hknown _ (by decide) (by decide)).trans hmirrors.disabled }

/-! ### The new elements -/

theorem elementsAmong_itemNodes (next : Nat) (entries : List Entry) :
    Node.elementsAmong (itemNodes next entries) = List.range' next entries.length := by
  induction entries generalizing next with
  | nil => rfl
  | cons e rest ih =>
    rw [itemNodes, Node.elementsAmong, ih]
    rfl

theorem childrenIn?_itemNodes {next i : Nat} {entries : List Entry} {e : Entry} (h : entries[i]? = some e) :
    Node.childrenIn? (next + i) (itemNodes next entries) = some (textNodes e.label) := by
  induction entries generalizing next i with
  | nil => cases h
  | cons first rest ih =>
    rw [itemNodes]
    cases i with
    | zero =>
      cases h
      rw [Node.childrenIn?, Node.childrenOf?, if_pos (Nat.add_zero next).symm]
    | succ i =>
      have hlater : next + (i + 1) ∉ Node.ids (.element next (textNodes first.label)) := by
        rw [Node.ids, idsOf_textNodes, List.mem_singleton]
        omega
      rw [Node.childrenIn?_cons_of_not_mem hlater]
      have hsum : next + (i + 1) = next + 1 + i := by omega
      rw [hsum]
      exact ih h

namespace Attached

variable {entries : List Entry} {a : Parts} (h : Attached p wrapper entries a q)

include h

/-- The trigger has the menu, and the items are numbered after it. -/
theorem element_parts : ∃ menuId, q.element a.trigger = triggerElement {} menuId ∧ q.element a.menu = menuElement {} menuId ∧
    ∀ i e item, entries[i]? = some e → a.items[i]? = some item → q.element item = itemElement {} menuId i e := by
  obtain ⟨menuId, hnew⟩ := h.element_of_new
  refine ⟨menuId, ?_, ?_, fun i e item he hitem => ?_⟩
  · rw [h.trigger]
    exact hnew 0
  · rw [h.menu]
    exact hnew 1
  · obtain ⟨hi, -⟩ := List.getElem?_eq_some_iff.mp he
    rw [h.items, List.getElem?_range' hi] at hitem
    obtain rfl := Option.some.inj hitem
    have hplace : p.elements.length + 2 + 1 * i = p.elements.length + (i + 2) := by omega
    rw [hplace, hnew, newElements, List.getElem?_cons_succ, List.getElem?_cons_succ, List.getElem?_map,
      List.getElem?_zipIdx, he]
    simp

/-- The new menu lists the options that the entries were taken from. -/
theorem lists {p' : Page} (hp : p.WellFormed) (hwrapper : wrapper ∈ Node.idsOf p.trees) (hentries : entries = entriesOf p' native) :
    ∃ menuId, (q.element a.trigger).attr? "aria-controls" = some menuId ∧ Lists p' native menuId q a.menu := by
  obtain ⟨menuId, htrigger, hmenu, hitems⟩ := h.element_parts
  have hchildren := h.childrenIn?_menu hp hwrapper
  have helements : q.childElements a.menu = a.items := by
    unfold childElements Page.children
    rw [hchildren, Option.getD_some, elementsAmong_itemNodes, h.items]
  refine ⟨menuId, by rw [htrigger]; rfl, by rw [hmenu]; rfl, by rw [hmenu]; rfl, ?_, ?_, fun i option item hoption hitem => ?_⟩
  · rw [helements, h.descendants_menu hp hwrapper]
  · rw [helements, h.items, List.length_range', hentries]
    exact List.length_map _
  · rw [helements] at hitem
    let e : Entry := ⟨p'.textContent option, p'.optionValue option, (p'.element option).hasAttr "disabled",
      (p'.element option).chosen⟩
    have he : entries[i]? = some e := by
      rw [hentries]
      unfold entriesOf
      rw [List.getElem?_map, hoption]
      rfl
    have helement := hitems i e item he hitem
    have htext : Node.childrenIn? item q.trees = some (textNodes e.label) := by
      have hlt := (List.getElem?_eq_some_iff.mp he).1
      have hbelow : item ∈ Node.idsOf (itemNodes (p.elements.length + 2) entries) := by
        rw [idsOf_itemNodes, ← h.items]
        exact List.mem_of_getElem? hitem
      rw [Node.childrenIn?_below _ (h.wellFormed hp hwrapper).distinct hchildren hbelow]
      rw [h.items, List.getElem?_range' hlt, Nat.one_mul] at hitem
      obtain rfl := Option.some.inj hitem
      exact childrenIn?_itemNodes he
    refine ⟨by rw [helement]; rfl, by rw [helement]; rfl, ?_, by rw [helement]; rfl, ?_⟩
    · unfold textContent Page.children
      rw [htext]
      exact contentOf_textNodes _
    · rw [helement]
      unfold itemElement
      cases hdisabled : (p'.element option).hasAttr "disabled" <;> simp [e, hdisabled] <;> rfl

end Attached

/-! ### Enhanced wrappers -/

/-- One page is the other with a wrapper enhanced: a trigger and a menu are new among its children, the native select is
    hidden from those who do not see the page, the preferred option is chosen, and all else is as it was. -/
structure Projected (p : Page) (wrapper native trigger menu : Nat) (q : Page) : Prop where
  new : p.elements.length ≤ trigger ∧ p.elements.length ≤ menu ∧ trigger ≠ menu
  button : (q.element trigger).isA "button" = true
  children : ∃ before later label items, Place (p.firstArrow? wrapper) (p.children wrapper) before later ∧
    q.children wrapper = before ++ .element trigger (textNodes label) :: (later ++ [.element menu items])
  trees : q.trees = Node.withChildrenIn wrapper (fun _ => q.children wrapper) p.trees
  hidden : ∀ name, (q.element native).attr? name =
    if (p.element native).key name = "tabindex" then some "-1"
    else if (p.element native).key name = "aria-hidden" then some "true" else (p.element native).attr? name
  options : q.options native = p.options native
  values : ∀ option ∈ p.options native, q.optionValue option = p.optionValue option ∧
    q.textContent option = p.textContent option ∧
      (q.element option).hasAttr "disabled" = (p.element option).hasAttr "disabled"
  chosen : q.selectedIndex native = some (p.preferredIndex native)
  kinds : ∀ id < p.elements.length, (q.element id).tag = (p.element id).tag ∧ (q.element id).html = (p.element id).html
  others : ∀ id < p.elements.length, id ≠ wrapper → id ≠ native → p.firstArrow? wrapper ≠ some id →
    (q.element id).attrs = (p.element id).attrs
  calls : q.calls = p.calls

section
variable {entries : List Entry} {a : Parts} {label : String} {u : Nat}

/-- What is neither the wrapper nor above it has below it what it had when new parts are put into the wrapper. -/
theorem Attached.childrenIn?_of_apart (h : Attached p wrapper entries a q) (hp : p.WellFormed) (hu : u < p.elements.length)
    (hne : u ≠ wrapper) (hbelow : wrapper ∉ p.descendants u) :
    Node.childrenIn? u q.trees = Node.childrenIn? u p.trees := by
  obtain ⟨arrow, htrees⟩ := h.trees
  rw [htrees, ← trees_withChildren]
  exact Lasts.childrenIn?_withChildren hp hne hbelow fun c _ => childrenIn?_withParts c (Attached.not_mem_newIds hu)

/-- Nor does a text on the new trigger change that. -/
theorem Attached.childrenIn?_labelled (h : Attached p wrapper entries a q) (hp : p.WellFormed)
    (hwrapper : wrapper ∈ Node.idsOf p.trees)
    (hr : r.trees = (q.withChildren a.trigger fun _ => textNodes label).trees) (hu : u < p.elements.length)
    (hne : u ≠ wrapper) (hbelow : wrapper ∉ p.descendants u) :
    Node.childrenIn? u r.trees = Node.childrenIn? u p.trees := by
  have hmade := h.childrenIn?_of_apart hp hu hne hbelow
  rw [hr, Lasts.childrenIn?_withChildren (h.wellFormed hp hwrapper) ?_ (fun hmem => ?_) fun c hc => ?_, hmade]
  · rw [h.trigger]
    exact Nat.ne_of_lt hu
  · have hold : q.descendants u = p.descendants u := by
      unfold Page.descendants Page.children
      rw [hmade]
    rw [hold, h.trigger] at hmem
    exact Nat.lt_irrefl _ ((hp.descendants u).2.2 _ hmem)
  · rw [h.childrenIn?_trigger hp hwrapper] at hc
    obtain rfl := Option.some.inj hc
    exact Node.childrenIn?_of_idsOf_eq_nil (idsOf_textNodes label)

theorem Lasts.options_eq (h : Lasts p q) (hp : p.WellFormed)
    (hchildren : Node.childrenIn? native q.trees = Node.childrenIn? native p.trees) :
    q.options native = p.options native := by
  have hdescendants : q.descendants native = p.descendants native := by
    unfold Page.descendants Page.children
    rw [hchildren]
  unfold Page.options
  rw [hdescendants]
  exact List.filter_congr fun id hid => h.isA ((hp.descendants native).2.2 id hid) "option"

end

/-- The page with parts made in a wrapper, after the first work of the select on them. -/
def finished (p : Page) (wrapper native : Nat) : Page :=
  Select.begun ⟨(made p wrapper native).1, {}, .ofEntries (entriesOf p native)⟩ (made p wrapper native).2

section
variable (hp : p.WellFormed) (hnative : native ∈ p.descendants wrapper)

include hp hnative

omit hp in
theorem wrapper_placed : wrapper ∈ Node.idsOf p.trees := by
  obtain ⟨c, hc, -⟩ := exists_of_mem_descendants hnative
  exact Node.mem_of_childrenIn? hc

/-- The native select and what is below it are apart from the wrapper and what is above that. -/
theorem apart_of_native {u : Nat} (hu : u = native ∨ u ∈ p.descendants native) :
    u < p.elements.length ∧ u ≠ wrapper ∧ wrapper ∉ p.descendants u := by
  have hself : native ∉ p.descendants native := (hp.descendants native).1
  have hcycle : wrapper ∉ p.descendants native := fun h => hself (hp.mem_descendants_trans h hnative)
  rcases hu with rfl | hu
  · refine ⟨(hp.descendants wrapper).2.2 u hnative, ?_, hcycle⟩
    rintro rfl
    exact hself hnative
  · refine ⟨(hp.descendants native).2.2 u hu, ?_, fun h => hcycle (hp.mem_descendants_trans hu h)⟩
    rintro rfl
    exact hcycle hu

variable (hselect : (p.element native).isA "select" = true)

include hselect

theorem options_made : (made p wrapper native).2.options native = p.options native := by
  obtain ⟨hmade, -, -⟩ := Lasts.made hp hnative hselect
  obtain ⟨hknown, hne, hcycle⟩ := apart_of_native hp hnative (.inl rfl)
  refine hmade.options_eq hp ?_
  rw [(attached_made p wrapper native).childrenIn?_of_apart (Lasts.readied hp wrapper native).wellFormed ?_ hne ?_,
    trees_readied]
  · rw [length_readied]
    exact hknown
  · rw [descendants_congr trees_readied]
    exact hcycle

variable (hoptions : p.options native ≠ [])

include hoptions

/-- The first work writes on the new elements alone, chooses the preferred option, and puts a text on the trigger. -/
theorem finished_spec : Worked (made p wrapper native).1 (made p wrapper native).2 (finished p wrapper native) ∧
    Lasts (made p wrapper native).2 (finished p wrapper native) ∧
      (finished p wrapper native).selectedIndex native = some (p.preferredIndex native) ∧
        ∃ label, (finished p wrapper native).trees =
          ((made p wrapper native).2.withChildren (made p wrapper native).1.trigger fun _ => textNodes label).trees := by
  obtain ⟨hmade, hleaf, hbutton⟩ := Lasts.made hp hnative hselect
  obtain ⟨hknown, -, -⟩ := apart_of_native hp hnative (.inl rfl)
  have hentries : entriesOf p native ≠ [] := fun h => hoptions (List.map_eq_nil_iff.mp h)
  have hcount : ((made p wrapper native).2.options native).length = (entriesOf p native).length := by
    rw [options_made hp hnative hselect]
    exact (List.length_map _).symm
  have hsame : (made p wrapper native).1.native = native := native_made
  have hlast := Nat.lt_of_lt_of_le hknown hmade.length
  unfold finished
  generalize made p wrapper native = parts at *
  obtain ⟨a, q⟩ := parts
  dsimp only at hsame
  subst hsame
  rw [← initialIndex_entriesOf]
  obtain ⟨hworked, hchosen, hlabel⟩ := Select.begun_spec (w := ⟨a, {}, .ofEntries (entriesOf p a.native)⟩) rfl rfl
    hmade.wellFormed hleaf hlast hentries hcount
  exact ⟨hworked, .begun hmade.wellFormed rfl hleaf hbutton, hchosen, hlabel⟩

/-- What a wrapper's preparation made of an element, it still is. -/
theorem attrs_finished {id : Nat} (hid : id < p.elements.length) :
    ((finished p wrapper native).element id).attrs = ((prepare p wrapper native).element id).attrs ∧
      ((finished p wrapper native).element id).html = ((prepare p wrapper native).element id).html := by
  obtain ⟨hworked, -, -, -⟩ := finished_spec hp hnative hselect hoptions
  obtain ⟨hmade, -, -⟩ := Lasts.made hp hnative hselect
  have hattached := attached_made p wrapper native
  have hreadied : id < (readied p wrapper native).elements.length := by
    rw [length_readied]
    exact hid
  rw [← element_readied, ← hattached.element_of_old hreadied]
  refine ⟨hworked.attrs id (Nat.lt_of_lt_of_le hid hmade.length) ?_ ?_ ?_, hworked.edited.html id⟩
  · rw [hattached.trigger]
    exact Nat.ne_of_lt hreadied
  · rw [hattached.menu]
    exact Nat.ne_of_lt (Nat.lt_succ_of_lt hreadied)
  · rw [hattached.items, List.mem_range'_1]
    omega

theorem attr?_finished {id : Nat} (hid : id < p.elements.length) (name : String) :
    ((finished p wrapper native).element id).attr? name = ((prepare p wrapper native).element id).attr? name := by
  obtain ⟨hattrs, hhtml⟩ := attrs_finished hp hnative hselect hoptions hid
  unfold Element.attr? Element.key
  rw [hattrs, hhtml]

theorem childrenIn?_finished {u : Nat} (hu : u = native ∨ u ∈ p.descendants native) :
    Node.childrenIn? u (finished p wrapper native).trees = Node.childrenIn? u p.trees := by
  obtain ⟨-, -, -, label, hlabel⟩ := finished_spec hp hnative hselect hoptions
  obtain ⟨hknown, hne, hcycle⟩ := apart_of_native hp hnative hu
  have hwrapper : wrapper ∈ Node.idsOf (readied p wrapper native).trees := by
    rw [trees_readied]
    exact wrapper_placed hnative
  rw [(attached_made p wrapper native).childrenIn?_labelled (Lasts.readied hp wrapper native).wellFormed hwrapper hlabel ?_
    hne ?_, trees_readied]
  · rw [length_readied]
    exact hknown
  · rw [descendants_congr trees_readied]
    exact hcycle

/-- The trigger stands at its place, the menu comes last, and all else stands where it stood. -/
theorem trees_finished : ∃ label before later, Place (p.firstArrow? wrapper) (p.children wrapper) before later ∧
    (finished p wrapper native).children wrapper =
        furnished (readied p wrapper native) (entriesOf p native) label before later ∧
      (finished p wrapper native).trees =
        Node.withChildrenIn wrapper (fun _ => (finished p wrapper native).children wrapper) p.trees := by
  obtain ⟨-, -, -, label, hlabel⟩ := finished_spec hp hnative hselect hoptions
  obtain ⟨before, later, hplace, hfurnished⟩ := trees_furnished (Lasts.readied hp wrapper native).wellFormed trees_made label
  have hchildren : (readied p wrapper native).children wrapper = p.children wrapper := by
    unfold Page.children
    rw [trees_readied]
  have htrees : (finished p wrapper native).trees = Node.withChildrenIn wrapper
      (fun _ => furnished (readied p wrapper native) (entriesOf p native) label before later) p.trees := by
    rw [hlabel, (attached_made p wrapper native).trigger, hfurnished, trees_readied]
  have hfinished : (finished p wrapper native).children wrapper =
      furnished (readied p wrapper native) (entriesOf p native) label before later := by
    obtain ⟨c, hc⟩ := Node.exists_childrenIn? (wrapper_placed hnative)
    unfold Page.children
    rw [htrees, Node.childrenIn?_withChildrenIn_self, hc]
    rfl
  rw [hchildren] at hplace
  exact ⟨label, before, later, hplace, hfinished, by rw [hfinished, htrees]⟩

/-- What is made in a wrapper and the first work on it are a projection. -/
theorem projected_finished : Projected p wrapper native (made p wrapper native).1.trigger (made p wrapper native).1.menu
    (finished p wrapper native) := by
  obtain ⟨hmade, hleaf, hbutton⟩ := Lasts.made hp hnative hselect
  obtain ⟨hworked, hbegun, hchosen, -⟩ := finished_spec hp hnative hselect hoptions
  obtain ⟨label, before, later, hplace, hchildren, htrees⟩ := trees_finished hp hnative hselect hoptions
  obtain ⟨hknown, hne, -⟩ := apart_of_native hp hnative (.inl rfl)
  have hattached := attached_made p wrapper native
  have hlength : (readied p wrapper native).elements.length = p.elements.length := length_readied
  have hlasts := hmade.trans hbegun hp
  refine
    { new := ?_
      button := (hbegun.isA (hmade.wellFormed.known _ (leaf_iff.mp hleaf).1) _).trans hbutton
      children := ⟨before, later, label, itemNodes ((readied p wrapper native).elements.length + 2) (entriesOf p native),
        hplace, ?_⟩
      trees := htrees
      hidden := fun name => ?_
      options := hlasts.options_eq hp (childrenIn?_finished hp hnative hselect hoptions (.inl rfl))
      values := fun option hoption => ?_
      chosen := hchosen
      kinds := fun id hid => ⟨hlasts.tag id hid, hlasts.html id hid⟩
      others := fun id hid hwrapper hnot harrow => ?_
      calls := hworked.calls.trans calls_made }
  · rw [hattached.trigger, hattached.menu]
    omega
  · rw [hchildren, hattached.trigger, hattached.menu]
    rfl
  · exact (attr?_finished hp hnative hselect hoptions hknown name).trans (attr?_prepare_native hknown hne name)
  · have hbelow := (List.mem_filter.mp hoption).1
    obtain ⟨hoptionKnown, hoptionNe, -⟩ := apart_of_native hp hnative (.inr hbelow)
    have htext := textContent_congr (childrenIn?_finished hp hnative hselect hoptions (.inr hbelow))
    have hattr : ∀ name, Element.Plain name → name ≠ "aria-hidden" ∧ name ≠ "tabindex" →
        ((finished p wrapper native).element option).attr? name = (p.element option).attr? name := fun name hname hother =>
      (attr?_finished hp hnative hselect hoptions hoptionKnown name).trans
        (attr?_prepare hoptionKnown hoptionNe hname hother)
    refine ⟨?_, htext, ?_⟩
    · unfold optionValue
      rw [hattr "value" (by decide) (by decide), htext]
    · unfold Element.hasAttr
      rw [hattr "disabled" (by decide) (by decide)]
  · exact (attrs_finished hp hnative hselect hoptions hid).1.trans (attrs_prepare hp hid hwrapper hnot harrow)

end

namespace Live

/-- A select that is put to work on its parts does its first work, and is listened to. -/
theorem startSelect_begun (l : Live) (a : Parts) (entries : List Entry) : ∃ new next, l.startSelect a {} entries =
    { l with page := Select.begun ⟨a, {}, .ofEntries entries⟩ l.page, selects := l.selects ++ [⟨a, {}, .ofEntries entries⟩],
             listeners := l.listeners ++ new, nextListener := next } := by
  let w : Select := ⟨a, {}, .ofEntries entries⟩
  let added : Live := { l with selects := l.selects ++ [w] }
  have hwork := foldl_applySelect (l := added) (w := w) List.getElem?_concat_length rfl
    (w.state.initialEffects (l.page.selectedIndex a.native)) (fun _ he => w.state.initialEffects_quiet he) announceChange
  obtain ⟨new, next, hbind, -⟩ := bind_eq { added with page := w.begun l.page } l.selects.length a
  exact ⟨new, next, (congrArg (fun m : Live => m.bind l.selects.length a) hwork).trans hbind⟩

/-- An enhanced wrapper is a projection of its native select. -/
theorem enhance_projects {l m : Live} {k : Nat} (hl : Fastened l) (h : l.enhance wrapper {} = (m, .ok (some k))) :
    Fastened m ∧ ∃ native w menuId, l.page.firstSelect? wrapper = some native ∧
      (l.page.element native).isA "select" = true ∧ l.page.options native ≠ [] ∧ k = l.selects.length ∧
        m.selects = l.selects ++ [w] ∧ w.parts.native = native ∧
          Projected l.page wrapper native w.parts.trigger w.parts.menu m.page ∧
            (m.page.element w.parts.trigger).attr? "aria-controls" = some menuId ∧
              Lists l.page native menuId m.page w.parts.menu := by
  have hfastened : Fastened m := by
    have hendures := (Endures.enhance l wrapper hl).1
    rwa [h] at hendures
  refine ⟨hfastened, ?_⟩
  rcases enhance_cases hl.page wrapper with ⟨log, r, heq, hnone⟩ | ⟨native, hfirst, hselect, hoptions, heq | heq⟩
  · rw [heq] at h
    exact absurd (Prod.mk.inj h).2 (hnone k)
  · rw [heq] at h
    cases (Prod.mk.inj h).2
  · rw [heq] at h
    obtain ⟨hm, hk⟩ := Prod.mk.inj h
    have hnative := mem_descendants_of_firstSelect? hfirst
    have hprojected := projected_finished hl.page hnative hselect hoptions
    unfold finished at hprojected
    obtain ⟨hmade, hleaf, hbutton⟩ := Lasts.made hl.page hnative hselect
    have hwrapper : wrapper ∈ Node.idsOf (readied l.page wrapper native).trees := by
      rw [trees_readied]
      exact wrapper_placed hnative
    obtain ⟨menuId, hcontrols, hlists⟩ := (attached_made l.page wrapper native).lists
      (Lasts.readied hl.page wrapper native).wellFormed hwrapper rfl
    have hnativeMade : (made l.page wrapper native).1.native = native := native_made
    generalize made l.page wrapper native = parts at *
    obtain ⟨a, q⟩ := parts
    have hbegun := Lasts.begun (w := ⟨a, {}, .ofEntries (entriesOf l.page native)⟩) hmade.wellFormed rfl hleaf hbutton
    obtain ⟨new, next, hstart⟩ := startSelect_begun { l with page := q } a (entriesOf l.page native)
    rw [hstart] at hm
    subst hm
    refine ⟨native, ⟨a, {}, .ofEntries (entriesOf l.page native)⟩, menuId, hfirst, hselect, hoptions, ?_, rfl, hnativeMade,
      hprojected, ?_, hlists.lasts hmade.wellFormed hbegun⟩
    · exact (Option.some.inj (Except.ok.inj hk)).symm
    · exact (hbegun.attr? _ (hmade.wellFormed.known _ (leaf_iff.mp hleaf).1) _ (by decide) (by decide)).trans hcontrols

/-- Whatever came about on a page before, a wrapper that is enhanced is a projection of its native select; and whatever comes
    about then, the menu lists the options, and the trigger has that menu. -/
theorem enhanced_wrapper_projects {p : Page} (hp : p.WellFormed) (before : List Happening) {wrapper k : Nat} {m : Live}
    (haccepted : ((ofPage p).befallAll before).enhance wrapper {} = (m, .ok (some k))) :
    let l := (ofPage p).befallAll before
    ∃ native w menuId, l.page.firstSelect? wrapper = some native ∧ (l.page.element native).isA "select" = true ∧
      l.page.options native ≠ [] ∧ k = l.selects.length ∧ m.selects = l.selects ++ [w] ∧ w.parts.native = native ∧
        Projected l.page wrapper native w.parts.trigger w.parts.menu m.page ∧ ∀ after : List Happening,
          ((m.befallAll after).page.element w.parts.trigger).attr? "aria-controls" = some menuId ∧
            Lists l.page native menuId (m.befallAll after).page w.parts.menu := by
  obtain ⟨hl, -⟩ := Endures.befallAll (ofPage p) before (fastened_ofPage hp)
  obtain ⟨hm, native, w, menuId, hfirst, hselect, hoptions, hk, hselects, hnative, hprojected, hcontrols, hlists⟩ :=
    enhance_projects hl haccepted
  refine ⟨native, w, menuId, hfirst, hselect, hoptions, hk, hselects, hnative, hprojected, fun after => ?_⟩
  obtain ⟨-, hlasts⟩ := Endures.befallAll m after hm
  exact ⟨(hlasts.attr? _ (known_of_isA hprojected.button) _ (by decide) (by decide)).trans hcontrols,
    hlists.lasts hm.page hlasts⟩

/-- A wrapper with a native select of three options, the first chosen but disabled, and an arrow right below it. -/
def arrowedTimes : Page :=
  (default : Page).withDocument (.element "html" true [] [.element "body" true []
    [.element "div" true [] [.text "Keep for ",
      .element "select" true [("name", "time")]
        [.element "option" true [("disabled", ""), ("selected", ""), ("value", "")] [.text "Pick one"],
         .element "option" true [("value", "30")] [.text "30 days"],
         .element "option" true [] [.text "90 days"]],
      .element "span" true [("class", "retention-select-arrow")] []]]])

/-- The trigger stands before the arrow, the second option is chosen, and the menu lists all three, also when it is opened
    and the last one is clicked. -/
theorem arrowed_times_projected : arrowedTimes.WellFormed ∧
    let r := (ofPage arrowedTimes).enhance 2 {}
    r.2 = .ok (some 0) ∧ Projected arrowedTimes 2 3 8 9 r.1.page ∧ r.1.page.childElements 2 = [3, 8, 7, 9] ∧
      r.1.page.selectedIndex 3 = some 1 ∧ ∃ menuId, Lists arrowedTimes 3 menuId
        (r.1.befallAll [.turn (.deed (.occasion (.click 8))), .turn (.deed (.occasion (.click 12)))]).page 9 := by
  have hp : arrowedTimes.WellFormed := wellFormed_default.withDocument _
  have haccepted : ((ofPage arrowedTimes).enhance 2 {}).2 = .ok (some 0) := by decide +kernel
  have hchildren : ((ofPage arrowedTimes).enhance 2 {}).1.page.childElements 2 = [3, 8, 7, 9] := by decide +kernel
  have hchosen : ((ofPage arrowedTimes).enhance 2 {}).1.page.selectedIndex 3 = some 1 := by decide +kernel
  have hparts : ((ofPage arrowedTimes).enhance 2 {}).1.selects.map (·.parts) = [⟨2, 3, 8, 9, [10, 11, 12]⟩] := by
    decide +kernel
  have hnative : arrowedTimes.firstSelect? 2 = some 3 := by decide +kernel
  have hrun : ((ofPage arrowedTimes).befallAll []).enhance 2 {} = (((ofPage arrowedTimes).enhance 2 {}).1, .ok (some 0)) := by
    rw [← haccepted]
    rfl
  have hclaim := enhanced_wrapper_projects hp [] hrun
  generalize (ofPage arrowedTimes).enhance 2 {} = r at *
  obtain ⟨native, w, menuId, hfirst, -, -, -, hselects, -, hprojected, hafter⟩ := hclaim
  obtain rfl : 3 = native := Option.some.inj (hnative.symm.trans hfirst)
  have hw : w.parts = ⟨2, 3, 8, 9, [10, 11, 12]⟩ := by
    rw [hselects] at hparts
    exact List.singleton_inj.mp hparts
  rw [hw] at hprojected hafter
  exact ⟨hp, haccepted, hprojected, hchildren, hchosen, menuId, (hafter _).2⟩

end Live
end Widget
end PageWidgets
