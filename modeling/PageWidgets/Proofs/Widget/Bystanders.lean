import PageWidgets.Proofs.Widget.Enhance

/-! What the work of one widget leaves alone of another. A select that stands by keeps its choice, its label, its items
    and what its menu points to, and nothing is announced or focused on its behalf (`Parts.Still`); unless it is closed,
    its menu stays open or closed as well (`Parts.Untouched`). -/

namespace PageWidgets

namespace Page

/-! ### Choices and calls -/

section
variable {p q : Page} {e : Edit} {j select : Nat}

theorem Edit.keeps_chosen (he : ∀ s i, e ≠ .choose s i) : e.Keeps (·.chosen) j := by
  intro p q hq hj
  show (q.element j).chosen = (p.element j).chosen
  by_cases htext : ∃ id text, e = .setText id text
  · obtain ⟨id, text, rfl⟩ := htext
    cases hq
    rfl
  · have hflat : e.Flat := by
      cases e with
      | setText id text => exact absurd ⟨id, text, rfl⟩ htext
      | choose s i => exact absurd rfl (he s i)
      | _ => trivial
    rw [element_edit hq hflat hj]
    unfold Edit.actOn
    split
    · exact (e.act_kind (p.element j)).2.2.2
    · rfl

theorem chosen_choose (index : Option Nat) (hj : j < p.elements.length) (hnot : j ∉ p.options select) :
    ((p.choose select index).element j).chosen = (p.element j).chosen := by
  obtain ⟨chosen, heq⟩ := p.choose_spec select index
  obtain ⟨-, -, -, helement⟩ := chooseOnly_spec (p.options select) chosen p
  rw [heq, helement j hj]
  unfold rechosen
  rw [if_neg hnot]

theorem selectedIndex_congr (hoptions : q.options select = p.options select)
    (hchosen : ∀ id ∈ p.options select, (q.element id).chosen = (p.element id).chosen) :
    q.selectedIndex select = p.selectedIndex select := by
  unfold selectedIndex
  rw [hoptions]
  generalize p.options select = ids at hchosen
  induction ids with
  | nil => rfl
  | cons id ids ih =>
    rw [List.findIdx?_cons, List.findIdx?_cons, hchosen id List.mem_cons_self,
      ih fun i hi => hchosen i (List.mem_cons_of_mem id hi)]

theorem calls_choose (p : Page) (select : Nat) (index : Option Nat) : (p.choose select index).calls = p.calls := by
  have hfold : ∀ (options chosen : List Nat) (p : Page), (p.chooseOnly options chosen).calls = p.calls := by
    intro options chosen
    unfold chooseOnly
    induction options with
    | nil => exact fun p => rfl
    | cons id options ih => exact fun p => ih (p.modify id fun e => { e with chosen := chosen.contains id })
  exact hfold _ _ p

/-- Edits ask for nothing but what they say. -/
theorem calls_perform (p : Page) (es : List Edit) : ∃ new, (p.perform es).1.calls = p.calls ++ new ∧
    ∀ c ∈ new, (∃ id, .focus id ∈ es ∧ c = .focus id) ∨ ∃ id, c = .scroll id := by
  have hone : ∀ {p q : Page} {e : Edit}, p.edit e = .ok q → ∃ new, q.calls = p.calls ++ new ∧
      ∀ c ∈ new, (∃ id, e = .focus id ∧ c = .focus id) ∨ ∃ id, c = .scroll id := by
    intro p q e hq
    cases hslot : e.slot? with
    | some s =>
      rw [edit_slot hslot hq]
      exact ⟨[], (List.append_nil _).symm, fun c hc => absurd hc List.not_mem_nil⟩
    | none =>
      cases e with
      | setText id text =>
        cases hq
        exact ⟨[], (List.append_nil _).symm, fun c hc => absurd hc List.not_mem_nil⟩
      | choose s index =>
        cases hq
        refine ⟨[], ?_, fun c hc => absurd hc List.not_mem_nil⟩
        rw [List.append_nil]
        exact calls_choose p s index
      | focus id =>
        cases hq
        refine ⟨[.focus id], ?_, fun c hc => .inl ⟨id, rfl, List.mem_singleton.mp hc⟩⟩
        dsimp only [requestFocus]
        split <;> rfl
      | scroll id =>
        cases hq
        exact ⟨[.scroll id], rfl, fun c hc => .inr ⟨id, List.mem_singleton.mp hc⟩⟩
      | _ => cases hslot
  induction es generalizing p with
  | nil => exact ⟨[], (List.append_nil _).symm, fun c hc => absurd hc List.not_mem_nil⟩
  | cons e rest ih =>
    rw [perform]
    cases hq : p.edit e with
    | error fault => exact ⟨[], (List.append_nil _).symm, fun c hc => absurd hc List.not_mem_nil⟩
    | ok q =>
      obtain ⟨first, hfirst, hfirstcalls⟩ := hone hq
      obtain ⟨later, hlater, hlatercalls⟩ := ih q
      refine ⟨first ++ later, ?_, fun c hc => ?_⟩
      · rw [hlater, hfirst, List.append_assoc]
      · rcases List.mem_append.mp hc with hc | hc
        · rcases hfirstcalls c hc with ⟨id, rfl, hcall⟩ | hscroll
          · exact .inl ⟨id, List.mem_cons_self, hcall⟩
          · exact .inr hscroll
        · rcases hlatercalls c hc with ⟨id, hid, hcall⟩ | hscroll
          · exact .inl ⟨id, List.mem_cons_of_mem e hid, hcall⟩
          · exact .inr hscroll

end

end Page

namespace Widget

open Listbox Page

/-! ### The same elements at the same places -/

/-- The pages have the same elements at the same places. -/
structure Settled (p q : Page) : Prop where
  hosts : Hosts p q
  length : q.elements.length = p.elements.length

namespace Settled

variable {p q r : Page} {id u : Nat}

theorem trans (h : Settled p q) (h' : Settled q r) (hp : p.WellFormed) : Settled p r :=
  ⟨h.hosts.trans h'.hosts hp, h'.length.trans h.length⟩

theorem descendants_eq (h : Settled p q) (hp : p.WellFormed) (id : Nat) : q.descendants id = p.descendants id := by
  rcases Nat.lt_or_ge id p.elements.length with hid | hid
  · exact h.hosts.grown.descendants_eq h.hosts.wellFormed h.length hid
  · have hp' : id ∉ Node.idsOf p.trees := fun hmem => absurd (hp.known id hmem) (Nat.not_lt.mpr hid)
    have hq' : id ∉ Node.idsOf q.trees := fun hmem =>
      absurd (h.hosts.wellFormed.known id hmem) (Nat.not_lt.mpr (h.length ▸ hid))
    rw [descendants_of_not_mem hp', descendants_of_not_mem hq']

theorem contains_eq (h : Settled p q) (hp : p.WellFormed) : q.contains id u = p.contains id u := by
  unfold contains
  rw [h.descendants_eq hp]

end Settled

/-! ### Bystanders -/

namespace Parts

/-- From one page to the other, no change of the native select was announced, nor the focus asked for its trigger. -/
def Silent (a : Parts) (p q : Page) : Prop :=
  ∃ new, q.calls = p.calls ++ new ∧ .announce "change" a.native ∉ new ∧ .focus a.trigger ∉ new

/-- What a select shows apart from its menu being open is as it was, and it asked for nothing. -/
structure Still (a : Parts) (p q : Page) : Prop where
  chosen : q.selectedIndex a.native = p.selectedIndex a.native
  label : q.textContent a.trigger = p.textContent a.trigger
  described : (q.element a.menu).attr? "aria-activedescendant" = (p.element a.menu).attr? "aria-activedescendant"
  items : ∀ id ∈ a.items, q.textContent id = p.textContent id ∧
    (q.element id).attr? "aria-selected" = (p.element id).attr? "aria-selected" ∧
    ∀ t ∈ ["is-selected", "is-active"], (q.element id).hasClass t = (p.element id).hasClass t
  silent : a.Silent p q

/-- Everything that a select shows is as it was. -/
structure Untouched (a : Parts) (p q : Page) : Prop where
  still : a.Still p q
  opened : (q.element a.wrapper).hasClass "is-open" = (p.element a.wrapper).hasClass "is-open"
  expanded : (q.element a.trigger).attr? "aria-expanded" = (p.element a.trigger).attr? "aria-expanded"

variable {a : Parts} {p q r : Page}

theorem Silent.of_eq (h : q.calls = p.calls) : a.Silent p q :=
  ⟨[], by rw [h, List.append_nil], List.not_mem_nil, List.not_mem_nil⟩

theorem Silent.trans (h : a.Silent p q) (h' : a.Silent q r) : a.Silent p r := by
  obtain ⟨first, hfirst, hannounce, hfocus⟩ := h
  obtain ⟨later, hlater, hannounce', hfocus'⟩ := h'
  refine ⟨first ++ later, by rw [hlater, hfirst, List.append_assoc], ?_, ?_⟩
  · rw [List.mem_append]
    rintro (hc | hc)
    · exact hannounce hc
    · exact hannounce' hc
  · rw [List.mem_append]
    rintro (hc | hc)
    · exact hfocus hc
    · exact hfocus' hc

theorem silent_perform {es : List Edit} (h : .focus a.trigger ∉ es) : a.Silent p (p.perform es).1 := by
  obtain ⟨new, hnew, hcalls⟩ := calls_perform p es
  refine ⟨new, hnew, fun hannounce => ?_, fun hfocus => ?_⟩
  · rcases hcalls _ hannounce with ⟨id, -, heq⟩ | ⟨id, heq⟩ <;> cases heq
  · rcases hcalls _ hfocus with ⟨id, hedit, heq⟩ | ⟨id, heq⟩
    · cases heq
      exact h hedit
    · cases heq

theorem Still.trans (h : a.Still p q) (h' : a.Still q r) : a.Still p r where
  chosen := h'.chosen.trans h.chosen
  label := h'.label.trans h.label
  described := h'.described.trans h.described
  items id hid := by
    obtain ⟨htext, hattr, hclass⟩ := h.items id hid
    obtain ⟨htext', hattr', hclass'⟩ := h'.items id hid
    exact ⟨htext'.trans htext, hattr'.trans hattr, fun t ht => (hclass' t ht).trans (hclass t ht)⟩
  silent := h.silent.trans h'.silent

theorem Untouched.trans (h : a.Untouched p q) (h' : a.Untouched q r) : a.Untouched p r :=
  ⟨h.still.trans h'.still, h'.opened.trans h.opened, h'.expanded.trans h.expanded⟩

theorem Untouched.of_unmoved (hf : a.Fits p) (hmarks : Unmoved p q)
    (htext : ∀ id, q.textContent id = p.textContent id)
    (hchosen : q.selectedIndex a.native = p.selectedIndex a.native)
    (hsilent : a.Silent p q) : a.Untouched p q where
  still :=
    { chosen := hchosen
      label := htext a.trigger
      described := hmarks.attr _ hf.menu_known _ (by simp)
      items := fun id hid => ⟨htext id, hmarks.attr id (hf.items_known id hid) _ (by simp), fun t ht =>
        hmarks.cls id (hf.items_known id hid) t (by rcases List.mem_cons.mp ht with rfl | ht <;> simp_all)⟩
      silent := hsilent }
  opened := hmarks.cls _ hf.wrapper_known _ (by simp)
  expanded := hmarks.attr _ hf.trigger_known _ (by simp)

end Parts

/-! ### The work of selects -/

theorem Seat.native_known {p : Page} {a : Parts} (h : Seat p a) (hp : p.WellFormed) : a.native < p.elements.length :=
  (hp.descendants a.wrapper).2.2 _ h.native

theorem Seat.item_ne_trigger {p : Page} {a b : Parts} (ha : Seat p a) (hb : Seat p b) {id : Nat} (hid : id ∈ b.items) :
    id ≠ a.trigger := by
  rintro rfl
  have hitem := hb.entries _ hid
  have hbutton := ha.button
  unfold Element.isA at hitem hbutton
  simp only [Bool.and_eq_true, beq_iff_eq] at hitem hbutton
  exact absurd (hitem.2.symm.trans hbutton.2) (by decide)

namespace Select

variable {w : Select} {p : Page} {e : Effect} {b : Parts}

/-- A select has the choice it had, unless another one with an option in common committed one. -/
theorem selectedIndex_after (hw : w.settings = {}) (hp : p.WellFormed) (hleaf : p.Leaf w.parts.trigger) {native : Nat}
    (hnative : native < p.elements.length)
    (hcommit : ∀ i, e = .commit i → ∀ id ∈ p.options native, id ∉ p.options w.parts.native) :
    (w.after p e).selectedIndex native = p.selectedIndex native := by
  refine selectedIndex_congr ((Hosts.after_select hp hw hleaf e).options_eq hnative) fun id hid => ?_
  have hknown : id < p.elements.length := (hp.descendants native).2.2 id (List.mem_filter.mp hid).1
  by_cases he : ∃ i, e = .commit i
  · obtain ⟨i, rfl⟩ := he
    exact chosen_choose (some i) hknown (hcommit i rfl id hid)
  · refine look_perform_of_keeps (·.chosen) (fun x hx => Edit.keeps_chosen fun s j heq => ?_) hknown
    subst heq
    cases fair_of_mem_edits hw hx with
    | choose h => exact he ⟨_, h⟩

/-- In the work of a select, nothing but its own parts is focused. -/
theorem silent_after (hw : w.settings = {}) (htrigger : b.trigger ≠ w.parts.trigger) (hitems : b.trigger ∉ w.parts.items) :
    b.Silent p (w.after p e) := by
  refine Parts.silent_perform fun hedit => ?_
  cases fair_of_mem_edits hw hedit with
  | focus h =>
    rcases h with h | h
    · exact htrigger h
    · exact hitems h

/-- The work of a select leaves alone all others that its choice is none of. -/
theorem untouched_after (hw : w.settings = {}) (hp : p.WellFormed) (hseat : Seat p w.parts) (hb : Seat p b)
    (hapart : w.parts.Apart b)
    (hcommit : ∀ i, e = .commit i → ∀ id ∈ p.options b.native, id ∉ p.options w.parts.native) :
    b.Untouched p (w.after p e) := by
  have htexts := (texts_after (e := e) hw hp hseat.fits.leaf).2
  have hfits := hb.fits
  have hitems : ∀ id ∈ b.items, id ∉ w.parts.items := fun id hid hmem => hapart.items id hmem hid
  have hclass : ∀ id ∈ b.items, ∀ t ∈ ["is-selected", "is-active"], ¬w.parts.WritesClass e id t := by
    intro id hid t ht
    have hopen : t ≠ "is-open" := by
      rintro rfl
      simp at ht
    cases e <;> simp [Parts.WritesClass, hitems id hid, hopen]
  exact
    { still :=
        { chosen := selectedIndex_after hw hp hseat.fits.leaf (hb.native_known hp) hcommit
          label := (htexts _ hfits.leaf).2 (.inl hapart.trigger.symm)
          described := attr?_after hw (by decide) hfits.menu_known (by
            cases e <;> simp [Parts.WritesAttr, hapart.menu.symm])
          items := fun id hid =>
            ⟨(htexts id (hb.leaves id hid)).2 (.inl (hseat.item_ne_trigger hb hid)),
              attr?_after hw (by decide) (hfits.items_known id hid) (by
                cases e <;> simp [Parts.WritesAttr, hitems id hid]),
              fun t ht => hasClass_after hw (hfits.items_known id hid) (hclass id hid t ht)⟩
          silent := silent_after hw hapart.trigger.symm fun hmem => hb.item_ne_trigger hseat hmem rfl }
      opened := hasClass_after hw hfits.wrapper_known (by
        cases e <;> simp [Parts.WritesClass, hapart.wrapper.symm])
      expanded := attr?_after hw (by decide) hfits.trigger_known (by
        cases e <;> simp [Parts.WritesAttr, hapart.trigger.symm]) }

theorem still_after_collapse (hw : w.settings = {}) (hp : p.WellFormed) (hseat : Seat p w.parts) :
    w.parts.Still p (w.after p .collapse) := by
  have htexts := (texts_after (e := .collapse) hw hp hseat.fits.leaf).2
  have hfits := hseat.fits
  exact
    { chosen := selectedIndex_after hw hp hfits.leaf (hseat.native_known hp) nofun
      label := (htexts _ hfits.leaf).2 (.inr nofun)
      described := attr?_after hw (by decide) hfits.menu_known (by simp [Parts.WritesAttr])
      items := fun id hid =>
        ⟨(htexts id (hseat.leaves id hid)).2 (.inr nofun),
          attr?_after hw (by decide) (hfits.items_known id hid) (by simp [Parts.WritesAttr]),
          fun t ht => hasClass_after hw (hfits.items_known id hid) (by
            rintro ⟨-, rfl⟩
            simp at ht)⟩
      silent := Parts.silent_perform (by simp [edits]) }

end Select

/-! ### The work of the overlay -/

namespace Overlay

variable {o : Overlay} {p : Page} {e : Consent.Effect} {x : Edit} {b : Parts}

/-- An edit of the overlay: it writes no class name that selects show their states with, changes no choice, and focuses
    what the overlay may focus. -/
structure Mild (o : Overlay) (x : Edit) : Prop where
  cls : ∀ j, ∀ t ∈ stateClasses, x.SparesClass j t
  choiceless : ∀ s i, x ≠ .choose s i
  focus : ∀ id, x = .focus id → ∃ v, o.anchors.focusTarget v = some id

theorem Mild.of_slot {id : Nat} {name : String} (hslot : x.slot? = some (id, name)) (hplain : Element.Plain name)
    (hname : name ≠ "class") : Mild o x := by
  have hspares : ∀ j, x.Spares j "class" := fun j => .of_slot hslot hplain fun _ => hname
  cases x with
  | addClass i token =>
    cases hslot
    exact absurd rfl hname
  | removeClass i token =>
    cases hslot
    exact absurd rfl hname
  | choose s i => cases hslot
  | focus i => cases hslot
  | _ => exact ⟨fun j t _ => hspares j, by simp, by simp⟩

theorem mild_of_mem_viewEdits {v : Consent.View} {l : List (Consent.View × Nat)} (hx : x ∈ viewEdits v l) : Mild o x := by
  have hhidden : Element.Plain "hidden" := by decide
  have haria : Element.Plain "aria-hidden" := by decide
  induction l with
  | nil => exact absurd hx List.not_mem_nil
  | cons entry l ih =>
    rw [viewEdits] at hx
    rcases List.mem_append.mp hx with hx | hx
    · split at hx
      · rcases List.mem_cons.mp hx with rfl | hx
        · exact .of_slot rfl hhidden (by decide)
        · rw [List.mem_singleton.mp hx]
          exact .of_slot rfl haria (by decide)
      · rcases List.mem_cons.mp hx with rfl | hx
        · exact .of_slot rfl hhidden (by decide)
        · rw [List.mem_singleton.mp hx]
          exact .of_slot rfl haria (by decide)
    · exact ih hx

theorem mild_of_mem_edits (ho : o.settings = {}) (hx : x ∈ o.edits p e) : Mild o x := by
  have haria : Element.Plain "aria-hidden" := by decide
  have hstyle : Element.Plain "style" := by decide
  have hmark : Element.Plain "data-active-view" := by decide
  have hvisible : ∀ t ∈ stateClasses, "is-visible" ≠ t := by decide
  cases e with
  | reveal =>
    simp only [edits, ho, List.cons_append, List.nil_append, List.mem_cons, List.mem_map, Option.mem_toList] at hx
    rcases hx with rfl | rfl | ⟨body, -, rfl⟩
    · exact ⟨fun j t ht _ => hvisible t ht, by simp, by simp⟩
    · exact .of_slot rfl haria (by decide)
    · exact .of_slot rfl hstyle (by decide)
  | conceal =>
    simp only [edits, ho, List.cons_append, List.nil_append, List.mem_cons, List.mem_map, Option.mem_toList] at hx
    rcases hx with rfl | rfl | ⟨body, -, rfl⟩
    · exact ⟨fun j t ht _ => hvisible t ht, by simp, by simp⟩
    · exact .of_slot rfl haria (by decide)
    · exact .of_slot rfl hstyle (by decide)
  | showView v =>
    rw [edits, ho] at hx
    rcases List.mem_append.mp hx with hx | hx
    · exact mild_of_mem_viewEdits hx
    · rw [List.mem_singleton.mp hx]
      exact .of_slot rfl hmark (by decide)
  | focusView v =>
    obtain ⟨target, htarget, rfl⟩ := List.mem_map.mp hx
    refine ⟨fun j t _ => .of_slotless rfl, by simp, fun id heq => ?_⟩
    cases heq
    exact ⟨v, Option.mem_toList.mp htarget⟩
  | persist record => exact absurd hx List.not_mem_nil
  | clearViewMarker =>
    rw [edits, ho] at hx
    rw [List.mem_singleton.mp hx]
    exact .of_slot rfl hmark (by decide)

/-- The work of the overlay leaves every select alone that it does not focus. -/
theorem untouched_after (ho : o.settings = {}) (hp : p.WellFormed) (hb : Seat p b)
    (hspares : ∀ v t, o.anchors.focusTarget v = some t → b.trigger ≠ t) : b.Untouched p (o.after p e) := by
  have hmild : ∀ x ∈ o.edits p e, Mild o x := fun x hx => mild_of_mem_edits ho hx
  have hfair : ∀ x ∈ o.edits p e, Fair o e x := fun x hx => fair_of_mem_edits ho hx
  have hhosts := Hosts.after_overlay hp ho e
  obtain ⟨htree, hloose⟩ : (o.after p e).tree = p.tree ∧ (o.after p e).loose = p.loose := trees_after ho
  have hmarks : Parts.Unmoved p (o.after p e) := by
    have hplain : ∀ name ∈ stateAttrs, Element.Plain name ∧
        name ∉ ["class", "aria-hidden", "style", "hidden", "data-active-view"] := by decide
    refine ⟨Nat.le_of_eq (o.edited_after p e).length.symm, fun id hid name hname => ?_, fun id hid t ht => ?_,
      hhosts.marks⟩
    · refine attr?_after ho (hplain name hname).1 hid fun hwrites => (hplain name hname).2 ?_
      cases e <;> simp only [Writes] at hwrites <;> simp only [List.mem_cons] <;> grind
    · exact look_perform_of_keeps (·.hasClass t) (fun x hx => ((hmild x hx).cls id t ht).keeps (hfair x hx).sound) hid
  refine .of_unmoved hb.fits hmarks (fun id => textContent_congr (by unfold trees; rw [htree, hloose])) ?_ ?_
  · refine selectedIndex_congr (hhosts.options_eq (hb.native_known hp)) fun id hid => ?_
    have hknown : id < p.elements.length := (hp.descendants b.native).2.2 id (List.mem_filter.mp hid).1
    exact look_perform_of_keeps (·.chosen) (fun x hx => Edit.keeps_chosen (hmild x hx).choiceless) hknown
  · refine Parts.silent_perform fun hedit => ?_
    obtain ⟨v, htarget⟩ := (hmild _ hedit).focus _ rfl
    exact hspares v _ htarget rfl

end Overlay

/-! ### The work of a visitor -/

namespace Parts

variable {p q : Page} {b : Parts}

/-- What a visitor does to other controls leaves a select alone. -/
theorem Untouched.of_alike (hp : p.WellFormed) (hb : Seat p b) (h : Alike p q)
    (hchosen : ∀ id ∈ p.options b.native, (q.element id).chosen = (p.element id).chosen) (hsilent : b.Silent p q) :
    b.Untouched p q := by
  have hoptions := (Hosts.of_alike hp h).options_eq (hb.native_known hp)
  refine .of_unmoved hb.fits (.of_alike h) (fun id => textContent_congr ?_) (selectedIndex_congr hoptions hchosen)
    hsilent
  unfold trees
  rw [h.tree, h.loose]

/-- Nothing but the cookies, the clock and the like is different. -/
theorem untouched_aside (hp : p.WellFormed) (hb : Seat p b) (htree : q.tree = p.tree) (hloose : q.loose = p.loose)
    (helements : q.elements = p.elements) (hsilent : b.Silent p q) : Settled p q ∧ b.Untouched p q := by
  have helement : ∀ id, q.element id = p.element id := by
    intro id
    unfold Page.element
    rw [helements]
  have hsettled : Settled p q :=
    ⟨.of_attrs hp htree hloose (by rw [helements]) (fun id => by rw [helement]) (fun id => by rw [helement])
      fun id => by rw [helement], by rw [helements]⟩
  refine ⟨hsettled, .of_unmoved hb.fits ⟨Nat.le_of_eq hsettled.length.symm, fun id _ name _ => by rw [helement],
    fun id _ t _ => by rw [helement], hsettled.hosts.marks⟩ (fun id => textContent_congr ?_)
    (selectedIndex_congr (hsettled.hosts.options_eq (hb.native_known hp)) fun id _ => by rw [helement]) hsilent⟩
  unfold trees
  rw [htree, hloose]

theorem untouched_flip (hp : p.WellFormed) (hb : Seat p b) (id : Nat) :
    b.Untouched p (p.modify id fun e => { e with checked := !e.checked }) := by
  refine .of_alike hp hb (.modify fun _ => ⟨rfl, rfl, rfl⟩) (fun j _ => ?_) (.of_eq rfl)
  rw [element_modify]
  split <;> rfl

theorem untouched_choose (hp : p.WellFormed) (hb : Seat p b) {native : Nat} (index : Option Nat)
    (hother : ∀ id ∈ p.options b.native, id ∉ p.options native) : b.Untouched p (p.choose native index) := by
  refine .of_alike hp hb (alike_choose p native index) (fun id hid => ?_) ?_
  · exact chosen_choose index ((hp.descendants b.native).2.2 id (List.mem_filter.mp hid).1) (hother id hid)
  · exact .of_eq (calls_choose p native index)

end Parts
end Widget
end PageWidgets
