import PageWidgets.Proofs.Widget.Bystanders

/-! How one wrapper is enhanced. First it is marked, and the native select and the arrow are hidden from those who do not
    see the page, by edits of attributes alone (`prepare`); then a trigger and a menu are put among its children (`made`),
    and nothing else is put anywhere (`trees_furnished`). The first work of the new select writes on these new elements and
    chooses an option (`Select.begun_spec`). -/

namespace PageWidgets

namespace Page

namespace Node

variable {id u : Nat} {f g : List Node → List Node}

/-! ### Replacing children twice -/

mutual

/-- An element that is put somewhere with the children of another one gets its own children there. -/
theorem withChildren_withChildren : ∀ n : Node, u ∉ ids n →
    withChildren u g (withChildren id f n) = withChildren id (fun c => withChildrenIn u g (f c)) n
  | .text s, _ => rfl
  | .element i children, h => by
    rw [ids, List.mem_cons, not_or] at h
    rw [withChildren, withChildren, withChildren, if_neg (Ne.symm h.1)]
    split
    · rfl
    · rw [withChildrenIn_withChildrenIn children h.2]

theorem withChildrenIn_withChildrenIn : ∀ l : List Node, u ∉ idsOf l →
    withChildrenIn u g (withChildrenIn id f l) = withChildrenIn id (fun c => withChildrenIn u g (f c)) l
  | [], _ => rfl
  | n :: rest, h => by
    rw [idsOf, List.mem_append, not_or] at h
    rw [withChildrenIn, withChildrenIn, withChildrenIn, withChildren_withChildren n h.1,
      withChildrenIn_withChildrenIn rest h.2]

end

mutual

theorem withChildren_congr : ∀ n : Node, (ids n).Nodup → (∀ c, childrenOf? id n = some c → f c = g c) →
    withChildren id f n = withChildren id g n
  | .text s, _, _ => rfl
  | .element i children, hnodup, h => by
    rw [ids, List.nodup_cons] at hnodup
    rw [withChildren, withChildren]
    by_cases hi : i = id
    · rw [if_pos hi, if_pos hi, h children (by rw [childrenOf?, if_pos hi])]
    · rw [if_neg hi, if_neg hi,
        withChildrenIn_congr children hnodup.2 fun c hc => h c (by rw [childrenOf?, if_neg hi, hc])]

/-- Only what is made of the children that the element has matters. -/
theorem withChildrenIn_congr : ∀ l : List Node, (idsOf l).Nodup → (∀ c, childrenIn? id l = some c → f c = g c) →
    withChildrenIn id f l = withChildrenIn id g l
  | [], _, _ => rfl
  | n :: rest, hnodup, h => by
    rw [idsOf, List.nodup_append] at hnodup
    obtain ⟨hn, hrest, hapart⟩ := hnodup
    rw [withChildrenIn, withChildrenIn, withChildren_congr n hn fun c hc => h c (by rw [childrenIn?, hc])]
    by_cases hid : id ∈ ids n
    · have hlater : id ∉ idsOf rest := fun hmem => hapart id hid id hmem rfl
      rw [withChildrenIn_of_not_mem rest hlater, withChildrenIn_of_not_mem rest hlater]
    · rw [withChildrenIn_congr rest hrest fun c hc => h c (by rw [childrenIn?_cons_of_not_mem hid, hc])]

end

theorem withChildrenIn_append (l m : List Node) :
    withChildrenIn id f (l ++ m) = withChildrenIn id f l ++ withChildrenIn id f m := by
  induction l with
  | nil => rfl
  | cons n l ih => rw [List.cons_append, withChildrenIn, withChildrenIn, ih, List.cons_append]

/-! ### Putting a node before another one -/

theorem insertBefore_none (n : Node) (l : List Node) : insertBefore none n l = l ++ [n] := by
  induction l with
  | nil => rfl
  | cons m l ih => rw [insertBefore, ih, List.cons_append]

theorem insertBefore_some {n : Node} {l : List Node} (h : id ∈ elementsAmong l) : ∃ before c rest,
    l = before ++ .element id c :: rest ∧ insertBefore (some id) n l = before ++ n :: .element id c :: rest := by
  induction l with
  | nil => exact absurd h List.not_mem_nil
  | cons m l ih =>
    have hlater : m.isElement id = false → id ∈ elementsAmong l → ∃ before c rest,
        m :: l = before ++ .element id c :: rest ∧
          insertBefore (some id) n (m :: l) = before ++ n :: .element id c :: rest := by
      intro hm hl
      obtain ⟨before, c, rest, hsplit, hinsert⟩ := ih hl
      refine ⟨m :: before, c, rest, by rw [hsplit]; rfl, ?_⟩
      simp only [insertBefore, hm, hinsert]
      rfl
    cases m with
    | text s => exact hlater rfl h
    | element i c =>
      by_cases hi : i = id
      · subst hi
        refine ⟨[], c, l, rfl, ?_⟩
        simp only [insertBefore, isElement, beq_self_eq_true, if_true, List.nil_append]
      · refine hlater (beq_false_of_ne hi) ?_
        rcases List.mem_cons.mp h with heq | h
        · exact absurd heq.symm hi
        · exact h

end Node

/-! ### Edits of attributes, one element at a time -/

section
variable {p q : Page} {j : Nat} {es : List Edit}

/-- After edits of attributes an element is what those about it make of it, one after the other. -/
theorem element_perform (hes : ∀ e ∈ es, e.Sound ∧ e.Flat) (hj : j < p.elements.length) :
    (p.perform es).1.element j = es.foldl (Edit.actOn j) (p.element j) := by
  induction es generalizing p with
  | nil => rfl
  | cons e es ih =>
    obtain ⟨hsound, hflat⟩ := hes e List.mem_cons_self
    obtain ⟨q, hq⟩ := edit_of_sound (p := p) hsound
    rw [perform_cons hq, ih (fun x hx => hes x (List.mem_cons_of_mem e hx)) (by rw [(edited_edit hq).length]; exact hj),
      element_edit hq hflat hj, List.foldl_cons]

/-- The attributes of an element that no edit is about are what they were. -/
theorem Edit.keeps_attrs {e : Edit} (he : ∀ name, e.slot? ≠ some (j, name)) : e.Keeps (·.attrs) j := by
  intro p q hq hj
  show (q.element j).attrs = (p.element j).attrs
  by_cases hflat : e.Flat
  · rw [element_edit hq hflat hj, Edit.actOn, if_neg]
    intro hown
    obtain ⟨⟨i, name⟩, hslot, rfl⟩ := Option.map_eq_some_iff.mp hown
    exact he name hslot
  · cases e with
    | setText id text =>
      cases hq
      rfl
    | choose id index =>
      cases hq
      exact (alike_choose p id index).attrs j
    | _ => exact absurd trivial hflat

end

/-- Edits that ask the browser for nothing make no calls. -/
theorem calls_perform_eq {p : Page} {es : List Edit} (hes : ∀ e ∈ es, ∀ id, e ≠ .focus id ∧ e ≠ .scroll id) :
    (p.perform es).1.calls = p.calls := by
  have hone : ∀ {p q : Page} {e : Edit}, (∀ id, e ≠ .focus id ∧ e ≠ .scroll id) → p.edit e = .ok q → q.calls = p.calls := by
    intro p q e he hq
    cases hslot : e.slot? with
    | some s =>
      rw [edit_slot hslot hq]
      rfl
    | none =>
      cases e with
      | setText id text =>
        cases hq
        rfl
      | choose s index =>
        cases hq
        exact calls_choose p s index
      | focus id => exact absurd rfl (he id).1
      | scroll id => exact absurd rfl (he id).2
      | _ => cases hslot
  induction es generalizing p with
  | nil => rfl
  | cons e rest ih =>
    rw [perform]
    cases hq : p.edit e with
    | error fault => rfl
    | ok q => exact (ih fun x hx => hes x (List.mem_cons_of_mem e hx)).trans (hone (hes e List.mem_cons_self) hq)

/-- The option that was chosen is the first one chosen. -/
theorem WellFormed.selectedIndex_choose {p : Page} (hp : p.WellFormed) {select i : Nat} (hi : i < (p.options select).length) :
    (p.choose select (some i)).selectedIndex select = some i := by
  have hdistinct : (p.options select).Nodup := (hp.descendants select).2.1.filter _
  have hknown : ∀ id ∈ p.options select, id < p.elements.length := fun id hid =>
    (hp.descendants select).2.2 id (List.mem_filter.mp hid).1
  have heq : p.choose select (some i) = p.chooseOnly (p.options select) [(p.options select)[i]] := by
    unfold choose
    dsimp only
    rw [List.getElem?_eq_getElem hi]
    rfl
  obtain ⟨hedited, htree, hloose, helement⟩ := chooseOnly_spec (p.options select) [(p.options select)[i]] p
  rw [← heq] at hedited htree hloose helement
  have hoptions : (p.choose select (some i)).options select = p.options select := by
    have htrees : (p.choose select (some i)).trees = p.trees := by unfold trees; rw [htree, hloose]
    unfold options
    rw [descendants_congr htrees]
    exact List.filter_congr fun id _ => hedited.isA id "option"
  have hchosen : ∀ id ∈ p.options select, ((p.choose select (some i)).element id).chosen = decide (id = (p.options select)[i]) := by
    intro id hid
    rw [helement id (hknown id hid)]
    simp [rechosen, hid]
  unfold selectedIndex
  rw [hoptions, List.findIdx?_eq_some_iff_getElem]
  refine ⟨hi, ?_, fun j hj => ?_⟩
  · rw [hchosen _ (List.getElem_mem hi), decide_eq_true rfl]
  · rw [hchosen _ (List.getElem_mem _), decide_eq_true_iff, hdistinct.getElem_inj_iff]
    omega

/-! ### Preparing a wrapper -/

/-- The first element below another one with the class of an arrow. -/
def firstArrow? (p : Page) (id : Nat) : Option Nat :=
  (p.descendants id).find? fun i => (p.element i).hasClass "retention-select-arrow"

theorem query_arrow (p : Page) (id : Nat) :
    p.query id ({} : SelectSettings).arrowSelector = .ok (p.firstArrow? id) := by
  have hread : Selector.read ({} : SelectSettings).arrowSelector = .ok ⟨none, [.cls "retention-select-arrow"]⟩ := rfl
  unfold query queryAll firstArrow?
  rw [hread, ← List.head?_filter]
  simp [Element.isSelected, Element.meets]

end Page

namespace Listbox

/-! ### The index to start with -/

theorem find?_range_length (f : Entry → Bool) (entries : List Entry) :
    ((List.range entries.length).find? fun i => entries[i]?.any f) = entries.findIdx? f := by
  induction entries with
  | nil => rfl
  | cons e rest ih =>
    have hrest : ((fun i => (e :: rest)[i]?.any f) ∘ Nat.succ) = fun i => rest[i]?.any f := rfl
    rw [List.length_cons, List.range_succ_eq_map, List.find?_cons, List.findIdx?_cons, List.find?_map, ← ih, hrest]
    cases hf : f e <;> simp [hf]

/-- The index to start with is that of the first entry that is enabled and chosen, else of the first enabled one, else the
    first of all. -/
theorem initialIndex_eq (entries : List Entry) : initialIndex entries =
    ((entries.findIdx? fun e => e.selected && e.enabled).or (entries.findIdx? Entry.enabled)).getD 0 := by
  have hchosen : chosenAt entries = fun i => entries[i]?.any fun e => e.selected && e.enabled := by
    funext i
    unfold chosenAt
    cases entries[i]? <;> rfl
  have henabled : enabledAt entries = fun i => entries[i]?.any Entry.enabled := by
    funext i
    unfold enabledAt
    cases entries[i]? <;> rfl
  unfold initialIndex firstEnabled
  rw [hchosen, henabled, find?_range_length, find?_range_length]

theorem initialIndex_lt {entries : List Entry} (h : entries ≠ []) : initialIndex entries < entries.length := by
  rw [initialIndex_eq]
  cases hchosen : entries.findIdx? fun e => e.selected && e.enabled with
  | some i => exact (List.findIdx?_eq_some_iff_getElem.mp hchosen).1
  | none =>
    cases henabled : entries.findIdx? Entry.enabled with
    | some i => exact (List.findIdx?_eq_some_iff_getElem.mp henabled).1
    | none => exact List.length_pos_iff.mpr h

theorem State.initialEffects_ofEntries {entries : List Entry} (h : entries ≠ []) (native : Option Nat) :
    (State.ofEntries entries).initialEffects native =
      (if native = some (initialIndex entries) then [] else [.commit (initialIndex entries)]) ++
        [.reflect (initialIndex entries)] ++
          (if enabledAt entries (initialIndex entries) then [.highlight (initialIndex entries) false] else []) := by
  have hsome : entries.isEmpty = false := List.isEmpty_eq_false_iff.mpr h
  unfold State.initialEffects State.ofEntries State.selectable
  simp [hsome]

end Listbox

namespace Widget

open Listbox Page

section
variable {p : Page} {wrapper native j : Nat} {name : String}

/-- The page with a wrapper marked as enhanced, and the native select and the arrow hidden from those who do not see
    it. -/
def prepare (p : Page) (wrapper native : Nat) : Page :=
  let q := (p.perform (marking wrapper native)).1
  (q.perform (veiling (q.firstArrow? wrapper))).1

/-- The identifier of the menu over a native select. -/
def menuIdOn (p : Page) (native : Nat) : String := menuId (some (p.element native).identifier) "retention" p.draw.1

/-- Preparing is one list of edits. -/
theorem prepare_eq (p : Page) (wrapper native : Nat) : prepare p wrapper native =
    (p.perform (marking wrapper native ++ veiling ((p.perform (marking wrapper native)).1.firstArrow? wrapper))).1 := by
  rw [perform_append fun _ hx => (aside_marking hx).sound]
  rfl

theorem aside_preparing {arrow : Option Nat} {x : Edit} (hx : x ∈ marking wrapper native ++ veiling arrow) : Aside x := by
  rcases List.mem_append.mp hx with hx | hx
  · exact aside_marking hx
  · exact aside_veiling hx

theorem edited_prepare (p : Page) (wrapper native : Nat) : Edited p (prepare p wrapper native) := by
  rw [prepare_eq]
  exact edited_perform p _

theorem trees_prepare (p : Page) (wrapper native : Nat) : (prepare p wrapper native).trees = p.trees := by
  obtain ⟨htree, hloose⟩ := trees_perform (p := p) fun x hx => (aside_preparing hx).textless
  rw [prepare_eq]
  unfold Page.trees
  rw [htree, hloose]

theorem calls_prepare (p : Page) (wrapper native : Nat) : (prepare p wrapper native).calls = p.calls := by
  rw [prepare_eq]
  refine calls_perform_eq fun x hx id => ?_
  rcases List.mem_append.mp hx with hx | hx
  · simp only [List.mem_cons, List.not_mem_nil, or_false] at hx
    rcases hx with rfl | rfl | rfl | rfl <;> exact ⟨nofun, nofun⟩
  · obtain ⟨i, -, rfl⟩ := List.mem_map.mp hx
    exact ⟨nofun, nofun⟩

/-- Marking a wrapper makes nothing an arrow. -/
theorem firstArrow?_marking (hp : p.WellFormed) (wrapper native : Nat) :
    (p.perform (marking wrapper native)).1.firstArrow? wrapper = p.firstArrow? wrapper := by
  have htextless : ∀ x ∈ marking wrapper native, ∀ id text, x ≠ .setText id text := fun _ hx => (aside_marking hx).textless
  obtain ⟨htree, hloose⟩ := trees_perform (p := p) htextless
  obtain ⟨hself, -, hknown⟩ := hp.descendants wrapper
  unfold firstArrow?
  rw [descendants_congr (by unfold Page.trees; rw [htree, hloose]), ← List.head?_filter, ← List.head?_filter]
  refine congrArg List.head? (List.filter_congr fun id hid => ?_)
  refine look_perform_of_keeps (·.hasClass "retention-select-arrow") (fun x hx => ?_) (hknown id hid)
  refine Edit.Spares.keeps_hasClass ?_ _
  simp only [List.mem_cons, List.not_mem_nil, or_false] at hx
  rcases hx with rfl | rfl | rfl | rfl
  · exact .of_slot rfl (by decide) fun _ => by decide
  · exact .of_slot rfl Element.plain_class fun heq => absurd (heq ▸ hid) hself
  · exact .of_slot rfl (by decide) fun _ => by decide
  · exact .of_slot rfl (by decide) fun _ => by decide

/-- What preparing a wrapper leaves alone. -/
theorem attrs_prepare (hp : p.WellFormed) (hj : j < p.elements.length) (hwrapper : j ≠ wrapper) (hnative : j ≠ native)
    (harrow : p.firstArrow? wrapper ≠ some j) : ((prepare p wrapper native).element j).attrs = (p.element j).attrs := by
  rw [prepare_eq, firstArrow?_marking hp]
  refine look_perform_of_keeps (·.attrs) (fun x hx => Edit.keeps_attrs fun name hslot => ?_) hj
  rcases List.mem_append.mp hx with hx | hx
  · simp only [List.mem_cons, List.not_mem_nil, or_false] at hx
    rcases hx with rfl | rfl | rfl | rfl <;> cases hslot
    · exact hwrapper rfl
    · exact hwrapper rfl
    · exact hnative rfl
    · exact hnative rfl
  · obtain ⟨id, hid, rfl⟩ := List.mem_map.mp hx
    cases hslot
    exact harrow (Option.mem_toList.mp hid)

/-- Below a wrapper, preparing it writes two attributes. -/
theorem attr?_prepare (hj : j < p.elements.length) (hwrapper : j ≠ wrapper) (hplain : Element.Plain name)
    (hname : name ≠ "aria-hidden" ∧ name ≠ "tabindex") :
    ((prepare p wrapper native).element j).attr? name = (p.element j).attr? name := by
  rw [prepare_eq]
  refine look_perform_of_keeps (·.attr? name) (fun x hx => Edit.Spares.keeps ?_ hplain) hj
  rcases List.mem_append.mp hx with hx | hx
  · simp only [List.mem_cons, List.not_mem_nil, or_false] at hx
    rcases hx with rfl | rfl | rfl | rfl
    · exact .of_slot rfl (by decide) fun heq => absurd heq.symm hwrapper
    · exact .of_slot rfl (by decide) fun heq => absurd heq.symm hwrapper
    · exact .of_slot rfl (by decide) fun _ => hname.1.symm
    · exact .of_slot rfl (by decide) fun _ => hname.2.symm
  · obtain ⟨id, -, rfl⟩ := List.mem_map.mp hx
    exact .of_slot rfl (by decide) fun _ => hname.1.symm

theorem flat_preparing {arrow : Option Nat} {x : Edit} (hx : x ∈ marking wrapper native ++ veiling arrow) : x.Flat := by
  rcases List.mem_append.mp hx with hx | hx
  · simp only [List.mem_cons, List.not_mem_nil, or_false] at hx
    rcases hx with rfl | rfl | rfl | rfl <;> trivial
  · obtain ⟨id, -, rfl⟩ := List.mem_map.mp hx
    trivial

/-- The attributes of an element that is hidden and left out of the focus order. -/
theorem attr?_withheld (e : Element) (name : String) :
    ((e.withAttr "aria-hidden" "true").withAttr "tabindex" "-1").attr? name =
      if e.key name = "tabindex" then some "-1" else if e.key name = "aria-hidden" then some "true" else e.attr? name := by
  have hplain : Element.Plain "aria-hidden" ∧ Element.Plain "tabindex" := by decide
  have hkey : ∀ n v m, (e.withAttr n v).key m = e.key m := fun _ _ _ => rfl
  rw [Element.attr?_withAttr, Element.attr?_withAttr, Element.key_of_plain hplain.1, Element.key_of_plain hplain.2]
  simp only [hkey, eq_comm]

/-- The native select is hidden from those who do not see the page and left out of the focus order, and that is all, also
    when it is the arrow. -/
theorem attr?_prepare_native (hj : native < p.elements.length) (hne : native ≠ wrapper) (name : String) :
    ((prepare p wrapper native).element native).attr? name =
      if (p.element native).key name = "tabindex" then some "-1"
      else if (p.element native).key name = "aria-hidden" then some "true" else (p.element native).attr? name := by
  have hkinds : ∀ arrow, ∀ x ∈ marking wrapper native ++ veiling arrow, x.Sound ∧ x.Flat := fun _ _ hx =>
    ⟨(aside_preparing hx).sound, flat_preparing hx⟩
  have hmarked : (marking wrapper native).foldl (Edit.actOn native) (p.element native) =
      ((p.element native).withAttr "aria-hidden" "true").withAttr "tabindex" "-1" := by
    simp [Edit.actOn, Edit.slot?, Edit.act, Ne.symm hne]
  rw [prepare_eq, element_perform (hkinds _) hj, List.foldl_append, hmarked]
  generalize (p.perform (marking wrapper native)).1.firstArrow? wrapper = arrow
  by_cases harrow : arrow = some native
  · have hlast : (veiling arrow).foldl (Edit.actOn native)
        (((p.element native).withAttr "aria-hidden" "true").withAttr "tabindex" "-1") =
          (((p.element native).withAttr "aria-hidden" "true").withAttr "tabindex" "-1").withAttr "aria-hidden" "true" := by
      subst harrow
      simp [veiling, Edit.actOn, Edit.slot?, Edit.act]
    have hplain : Element.Plain "aria-hidden" := by decide
    rw [hlast, Element.attr?_withAttr, attr?_withheld, Element.key_of_plain hplain]
    by_cases hname : (p.element native).key name = "aria-hidden"
    · have hkey' : (((p.element native).withAttr "aria-hidden" "true").withAttr "tabindex" "-1").key name = "aria-hidden" :=
        hname
      rw [if_pos hkey'.symm, hname]
      simp
    · exact if_neg fun heq => hname heq.symm
  · have hlast : ∀ x : Element, (veiling arrow).foldl (Edit.actOn native) x = x := by
      intro x
      cases arrow with
      | none => rfl
      | some id =>
        have hid : id ≠ native := fun heq => harrow (congrArg some heq)
        simp [veiling, Edit.actOn, Edit.slot?, hid]
    rw [hlast, attr?_withheld]

end

/-! ### The parts -/

section
variable {p : Page} {wrapper native : Nat}

/-- The page that parts are put into: the name of the menu takes a random number. -/
@[irreducible]
def readied (p : Page) (wrapper native : Nat) : Page := (prepare p wrapper native).draw.2

theorem trees_readied : (readied p wrapper native).trees = p.trees := by
  unfold readied
  exact trees_prepare p wrapper native

theorem length_readied : (readied p wrapper native).elements.length = p.elements.length := by
  unfold readied
  exact (edited_prepare p wrapper native).length

theorem element_readied (id : Nat) : (readied p wrapper native).element id = (prepare p wrapper native).element id := by
  unfold readied
  rfl

theorem calls_readied : (readied p wrapper native).calls = p.calls := by
  unfold readied
  exact calls_prepare p wrapper native

/-- The parts of a select made in a wrapper, and the page with them. -/
@[irreducible]
def made (p : Page) (wrapper native : Nat) : Parts × Page :=
  attach (readied p wrapper native) {} wrapper native (p.firstArrow? wrapper) (entriesOf p native)
    (menuIdOn (prepare p wrapper native) native)

theorem attached_made (p : Page) (wrapper native : Nat) : Attached (readied p wrapper native) wrapper
    (entriesOf p native) (made p wrapper native).1 (made p wrapper native).2 := by
  unfold made
  exact attached_attach _ wrapper native _ _ _

theorem native_made : (made p wrapper native).1.native = native := by
  unfold made
  rfl

theorem trees_made : (made p wrapper native).2.trees = Node.withChildrenIn wrapper
    (withParts (readied p wrapper native) wrapper (p.firstArrow? wrapper) (entriesOf p native))
      (readied p wrapper native).trees := by
  unfold made
  exact trees_withChildren _ wrapper _

theorem calls_made : (made p wrapper native).2.calls = p.calls := by
  have hattach : ∀ (q : Page) (arrow : Option Nat) (entries : List Entry) (menuId : String),
      (attach q {} wrapper native arrow entries menuId).2.calls = q.calls := fun _ _ _ _ => rfl
  unfold made
  exact (hattach _ _ _ _).trans calls_readied

/-- A wrapper is prepared first; in an HTML document, and only there, the parts are put into it. -/
theorem render_made (hp : p.WellFormed) (wrapper native : Nat) : render p {} wrapper native (entriesOf p native) =
    if (prepare p wrapper native).surroundings.document = .html then
      (.ok (made p wrapper native).1, (made p wrapper native).2)
    else (.error (.wrongElement "HTMLButtonElement"), readied p wrapper native) := by
  have hmarking : ∀ x ∈ marking wrapper native, x.Sound := fun _ hx => (aside_marking hx).sound
  have hveiling : ∀ arrow, ∀ x ∈ veiling arrow, x.Sound := fun _ _ hx => (aside_veiling hx).sound
  unfold made readied
  rw [← firstArrow?_marking hp wrapper native]
  unfold render
  rw [thenPerform_of_sound hmarking]
  dsimp only
  rw [query_arrow]
  dsimp only
  rw [thenPerform_of_sound (hveiling _)]
  rfl

end

/-! ### The place of the trigger -/

section
variable {p q : Page} {wrapper : Nat} {arrow : Option Nat} {entries : List Entry}

/-- Children fall into those before a place and those after it: the place is right before the arrow, when that is one of
    them, and the end otherwise. -/
structure Place (arrow : Option Nat) (children before later : List Node) : Prop where
  whole : children = before ++ later
  direct : ∀ id, arrow = some id → id ∈ Node.elementsAmong children → ∃ c rest, later = .element id c :: rest
  last : (∀ id, arrow = some id → id ∉ Node.elementsAmong children) → later = []

theorem exists_place (arrow : Option Nat) (n : Node) (children : List Node) : ∃ before later,
    Place arrow children before later ∧
      Node.insertBefore (arrow.filter fun id => (Node.elementsAmong children).contains id) n children =
        before ++ n :: later := by
  by_cases hamong : ∃ id, arrow = some id ∧ id ∈ Node.elementsAmong children
  · obtain ⟨id, rfl, hid⟩ := hamong
    obtain ⟨before, c, rest, hchildren, hinsert⟩ := Node.insertBefore_some (n := n) hid
    refine ⟨before, .element id c :: rest, ⟨hchildren, fun j hj _ => ?_, fun hno => absurd hid (hno id rfl)⟩, ?_⟩
    · obtain rfl := Option.some.inj hj
      exact ⟨c, rest, rfl⟩
    · rw [Option.filter_some, if_pos (List.contains_iff_mem.mpr hid), hinsert]
  · have hnone : (arrow.filter fun id => (Node.elementsAmong children).contains id) = none := by
      rw [Option.filter_eq_none_iff]
      exact fun id hid hmem => hamong ⟨id, hid, List.contains_iff_mem.mp hmem⟩
    refine ⟨children, [], ⟨(List.append_nil _).symm, fun id hid hmem => absurd ⟨id, hid, hmem⟩ hamong, fun _ => rfl⟩, ?_⟩
    rw [hnone, Node.insertBefore_none]

/-- The children of a wrapper with a trigger of that text at the place, and a menu last. -/
def furnished (p : Page) (entries : List Entry) (text : String) (before later : List Node) : List Node :=
  before ++ .element p.elements.length (textNodes text) ::
    (later ++ [.element (p.elements.length + 1) (itemNodes (p.elements.length + 2) entries)])

/-- With a text on its trigger the wrapper has the children that it had, the trigger at its place among them, and then the
    menu; all else stands where it stood. -/
theorem trees_furnished (hp : p.WellFormed)
    (htrees : q.trees = Node.withChildrenIn wrapper (withParts p wrapper arrow entries) p.trees) (text : String) :
    ∃ before later, Place arrow (p.children wrapper) before later ∧
      (q.withChildren p.elements.length fun _ => textNodes text).trees =
        Node.withChildrenIn wrapper (fun _ => furnished p entries text before later) p.trees := by
  obtain ⟨before, later, hplace, hinsert⟩ := exists_place arrow (.element p.elements.length []) (p.children wrapper)
  refine ⟨before, later, hplace, ?_⟩
  have hnew : p.elements.length ∈ newIds p entries := by
    rw [newIds_eq]
    exact List.mem_cons_self
  have houtside : p.elements.length ∉ Node.idsOf p.trees := Attached.not_mem_of_mem_newIds hp hnew
  rw [trees_withChildren, htrees, Node.withChildrenIn_withChildrenIn _ houtside]
  refine Node.withChildrenIn_congr _ hp.distinct fun c hc => ?_
  have hchildren : p.children wrapper = c := by
    unfold Page.children
    rw [hc, Option.getD_some]
  have hold : p.elements.length ∉ Node.idsOf (before ++ later) := by
    rw [← hplace.whole, hchildren]
    exact fun hmem => houtside ((Node.sublist_of_childrenIn? p.trees hc).subset hmem)
  rw [Node.idsOf_append, List.mem_append, not_or] at hold
  have hmenu : p.elements.length ∉
      Node.idsOf [.element (p.elements.length + 1) (itemNodes (p.elements.length + 2) entries)] := by
    rw [idsOf_menu]
    intro hmem
    rcases List.mem_cons.mp hmem with heq | hmem
    · omega
    · have hbound := (List.mem_range'_1.mp hmem).1
      omega
  unfold withParts furnished
  rw [← hchildren, hinsert, Node.withChildrenIn_append, Node.withChildrenIn_append, Node.withChildrenIn,
    Node.withChildren, if_pos rfl, Node.withChildrenIn_of_not_mem _ hold.1, Node.withChildrenIn_of_not_mem _ hold.2,
    Node.withChildrenIn_of_not_mem _ hmenu, List.append_assoc, List.cons_append]

end

/-! ### The first work -/

/-- One page comes from the other by edits of a select's new elements and of choices; the browser is asked for
    nothing. -/
structure Worked (a : Parts) (p q : Page) : Prop where
  edited : Edited p q
  attrs : ∀ j < p.elements.length, j ≠ a.trigger → j ≠ a.menu → j ∉ a.items → (q.element j).attrs = (p.element j).attrs
  calls : q.calls = p.calls

theorem Worked.trans {a : Parts} {p q r : Page} (h : Worked a p q) (h' : Worked a q r) : Worked a p r where
  edited := h.edited.trans h'.edited
  attrs j hj htrigger hmenu hitems :=
    (h'.attrs j (h.edited.length ▸ hj) htrigger hmenu hitems).trans (h.attrs j hj htrigger hmenu hitems)
  calls := h'.calls.trans h.calls

namespace Select

variable {w : Select} {p : Page} {e : Effect} {i : Nat}

theorem exists_slot_of_mem_reflectItems {s : SelectSettings} {chosen : Nat} {items : List Nat} {x : Edit}
    (hx : x ∈ reflectItems s chosen i items) : ∃ slot, x.slot? = some slot := by
  induction items generalizing i with
  | nil => exact absurd hx List.not_mem_nil
  | cons item items ih =>
    rw [reflectItems] at hx
    rcases List.mem_append.mp hx with hx | hx
    · split at hx
      · rcases List.mem_cons.mp hx with rfl | hx
        · exact ⟨_, rfl⟩
        · rw [List.mem_singleton.mp hx]
          exact ⟨_, rfl⟩
      · rcases List.mem_cons.mp hx with rfl | hx
        · exact ⟨_, rfl⟩
        · rw [List.mem_singleton.mp hx]
          exact ⟨_, rfl⟩
    · exact ih hx

/-- The work that a select begins with asks the browser for nothing. -/
theorem calls_after (he : e = .commit i ∨ e = .reflect i ∨ e = .highlight i false) : (w.after p e).calls = p.calls := by
  refine calls_perform_eq fun x hx id => ?_
  have hslot : (∃ slot, x.slot? = some slot) → x ≠ .focus id ∧ x ≠ .scroll id := by
    rintro ⟨slot, h⟩
    constructor <;> rintro rfl <;> cases h
  rcases he with rfl | rfl | rfl
  · rw [List.mem_singleton.mp hx]
    exact ⟨by simp, by simp⟩
  · rcases List.mem_cons.mp hx with rfl | hx
    · exact ⟨by simp, by simp⟩
    · exact hslot (exists_slot_of_mem_reflectItems hx)
  · rw [edits] at hx
    split at hx
    · exact absurd hx List.not_mem_nil
    · simp only [Bool.false_eq_true, if_false, List.append_nil, List.mem_append, List.mem_map, List.mem_cons,
        List.not_mem_nil, or_false] at hx
      rcases hx with ⟨id, -, rfl⟩ | rfl | rfl <;> exact hslot ⟨_, rfl⟩

/-- Choosing an option, showing an entry as chosen and marking it as active write on the new elements alone. -/
theorem worked_after (hw : w.settings = {}) (he : e = .commit i ∨ e = .reflect i ∨ e = .highlight i false) :
    Worked w.parts p (w.after p e) where
  edited := w.edited_after p e
  attrs j hj htrigger hmenu hitems := by
    refine look_perform_of_keeps (·.attrs) (fun x hx => Edit.keeps_attrs fun name hslot => ?_) hj
    have hclass : ∀ id t, w.parts.WritesClass e id t → id ∈ w.parts.items := by
      intro id t h
      rcases he with rfl | rfl | rfl <;> simp only [Parts.WritesClass] at h
      · exact h.1
      · exact h.1
    have hattr : ∀ id n, w.parts.WritesAttr e id n → id = w.parts.menu ∨ id ∈ w.parts.items := by
      intro id n h
      rcases he with rfl | rfl | rfl <;> simp only [Parts.WritesAttr] at h
      · exact .inr h.1
      · exact .inl h.1
    cases fair_of_mem_edits hw hx with
    | addClass h =>
      cases hslot
      exact hitems (hclass _ _ h)
    | removeClass h =>
      cases hslot
      exact hitems (hclass _ _ h)
    | setAttr h =>
      cases hslot
      exact (hattr _ _ h).elim hmenu hitems
    | removeAttr h =>
      cases hslot
      exact (hattr _ _ h).elim hmenu hitems
    | _ => cases hslot
  calls := calls_after he

/-- The page after the first work of a select. -/
def begun (w : Select) (p : Page) : Page :=
  (w.state.initialEffects (p.selectedIndex w.parts.native)).foldl w.after p

/-- The first work chooses the option of the index to start with, and puts a label on the trigger. -/
theorem begun_spec {entries : List Entry} (hw : w.settings = {}) (hstate : w.state = .ofEntries entries)
    (hp : p.WellFormed) (hleaf : p.Leaf w.parts.trigger) (hnative : w.parts.native < p.elements.length)
    (hentries : entries ≠ []) (hoptions : (p.options w.parts.native).length = entries.length) :
    Worked w.parts p (w.begun p) ∧ (w.begun p).selectedIndex w.parts.native = some (initialIndex entries) ∧
      ∃ label, (w.begun p).trees = (p.withChildren w.parts.trigger fun _ => textNodes label).trees := by
  have hindex : initialIndex entries < (p.options w.parts.native).length := hoptions ▸ initialIndex_lt hentries
  unfold begun
  rw [hstate, State.initialEffects_ofEntries hentries, List.foldl_append, List.foldl_append]
  generalize initialIndex entries = i at hindex ⊢
  -- The option is chosen, if it was not, then shown, and marked as active if it is enabled.
  have hchoice : ∀ r, (if p.selectedIndex w.parts.native = some i then [] else [Effect.commit i]).foldl w.after p = r →
      Worked w.parts p r ∧ r.WellFormed ∧ r.Leaf w.parts.trigger ∧ r.trees = p.trees ∧
        r.selectedIndex w.parts.native = some i := by
    rintro r rfl
    split
    · next hchosen => exact ⟨⟨.refl p, fun _ _ _ _ _ => rfl, rfl⟩, hp, hleaf, rfl, hchosen⟩
    · obtain ⟨hwell, hleaves⟩ := texts_after (e := .commit i) hw hp hleaf
      exact ⟨worked_after (e := .commit i) hw (.inl rfl), hwell, (hleaves _ hleaf).1,
        trees_after (e := .commit i) hw nofun, hp.selectedIndex_choose hindex⟩
  obtain ⟨hworked, hwell, hleaf', htrees, hchosen⟩ := hchoice _ rfl
  generalize (if p.selectedIndex w.parts.native = some i then [] else [Effect.commit i]).foldl w.after p = r at *
  rw [List.foldl_cons, List.foldl_nil]
  have hknown : w.parts.native < r.elements.length := hworked.edited.length ▸ hnative
  obtain ⟨hwell', hleaves⟩ := texts_after (e := .reflect i) hw hwell hleaf'
  have hworked' := hworked.trans (worked_after (e := .reflect i) hw (.inr (.inl rfl)))
  have hchosen' : (w.after r (.reflect i)).selectedIndex w.parts.native = some i :=
    (selectedIndex_after (e := .reflect i) hw hwell hleaf' hknown nofun).trans hchosen
  have hshown : (w.after r (.reflect i)).trees =
      (p.withChildren w.parts.trigger fun _ => textNodes ((w.state.entries[i]?.map (·.label)).getD "")).trees := by
    rw [trees_after_reflect hw, trees_withChildren, trees_withChildren, htrees]
  split
  · rw [List.foldl_cons, List.foldl_nil]
    refine ⟨hworked'.trans (worked_after hw (.inr (.inr rfl))), ?_, _, (trees_after (e := .highlight i false) hw nofun).trans hshown⟩
    exact (selectedIndex_after (e := .highlight i false) hw hwell' (hleaves _ hleaf').1
      (hworked'.edited.length ▸ hnative) nofun).trans hchosen'
  · exact ⟨hworked', hchosen', _, hshown⟩

end Select
end Widget
end PageWidgets
