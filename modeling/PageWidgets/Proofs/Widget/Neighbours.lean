import PageWidgets.Proofs.Page.Containment
import PageWidgets.Proofs.Widget.Bystanders
import PageWidgets.Proofs.Widget.Deeds

/-! Selects on one page do not interfere. An event inside a wrapper reaches, of all selects, the ones in that wrapper, the
    native selects around it, and what listens to the whole document. Only the first of these choose, announce and take
    the focus, and what they choose from is inside the wrapper too; the others do no more than follow. So a select
    elsewhere is touched by nothing but its own listeners on the document, which at most close its menu. -/

namespace PageWidgets

/-- Does the event close open menus that it is not inside of? -/
def Page.Event.Closes (e : Page.Event) : Prop := e.type = "pointerdown" ∨ e.type = "keydown" ∧ e.key = some "Tab"

namespace Listbox

theorem Key.eq_of_tab {name : String} (h : ofName name = .tab) : name = "Tab" := by
  unfold ofName at h
  split_ifs at h with _ _ _ _ _ _ _ htab
  exact htab

end Listbox

namespace Widget

open Listbox Page

/-- Does the occasion happen inside the element, at most that time passes? Setting up is no such occasion. -/
def Occasion.Inside (p : Page) (x : Nat) : Occasion → Prop
  | .click id => p.contains x id = true
  | .event e => e.type ≠ "DOMContentLoaded" ∧ ∃ t, e.target = .element t ∧ p.contains x t = true
  | .pick native _ => p.contains x native = true
  | .pass _ => True

/-- Does the occasion close open menus that it is not inside of? -/
def Occasion.Closes : Occasion → Prop
  | .event e => e.Closes
  | _ => False

theorem Occasion.Inside.settled {o : Occasion} {p q : Page} {x : Nat} (h : o.Inside p x) (hp : p.WellFormed)
    (hq : Settled p q) : o.Inside q x := by
  cases o with
  | click id => exact (hq.contains_eq hp).trans h
  | event e =>
    obtain ⟨htype, t, htarget, hx⟩ := h
    exact ⟨htype, t, htarget, (hq.contains_eq hp).trans hx⟩
  | pick native index => exact (hq.contains_eq hp).trans h
  | pass ms => trivial

/-! ### What an event inside a wrapper reaches -/

section
variable {p q : Page} {x u id : Nat} {a b : Parts}

/-- What a wrapper is not below, nor anything in it, and which contains something inside the wrapper, is inside itself. -/
theorem Bare.inside (hbare : Bare p id) (hp : p.WellFormed)
    (hmarked : (p.element x).hasAttr "data-retention-select" = true) (hx : p.contains x u = true)
    (hu : p.contains id u = true) : p.contains x id = true ∧ id ≠ x := by
  have hnot : p.contains id x ≠ true := by
    intro hid
    rw [hbare x (contains_iff.mp hid)] at hmarked
    cases hmarked
  refine ⟨(hp.contains_total hx hu).resolve_right hnot, ?_⟩
  rintro rfl
  exact hnot contains_self

namespace Seat

/-- When a trigger, a menu or an item hears of something inside a wrapper, the select is inside. -/
theorem inside (h : Seat p a) (hp : p.WellFormed) (hmarked : (p.element x).hasAttr "data-retention-select" = true)
    (hx : p.contains x u = true) (hid : id = a.trigger ∨ id = a.menu ∨ id ∈ a.items) (hu : p.contains id u = true) :
    p.contains x a.wrapper = true := by
  have hchild : ∀ id, id ∈ p.childElements a.wrapper → Bare p id → p.contains id u = true →
      p.contains x a.wrapper = true := by
    intro id hchild hbare hu
    obtain ⟨hinside, hne⟩ := hbare.inside hp hmarked hx hu
    exact hp.contains_parent hchild hinside hne
  rcases hid with rfl | rfl | hid
  · exact hchild _ h.trigger h.bare_trigger hu
  · exact hchild _ h.menu h.bare_menu hu
  · refine hchild _ h.menu h.bare_menu (hp.contains_trans (contains_of_mem_descendants ?_) hu)
    rw [h.items]
    exact hid

theorem own (h : Seat p a) (hp : p.WellFormed)
    (hid : id = a.trigger ∨ id = a.menu ∨ id ∈ a.items ∨ id = a.native) : p.contains a.wrapper id = true := by
  refine contains_of_mem_descendants ?_
  rcases hid with rfl | rfl | hid | rfl
  · exact mem_descendants_of_mem_childElements h.trigger
  · exact mem_descendants_of_mem_childElements h.menu
  · exact hp.mem_descendants_trans (mem_descendants_of_mem_childElements h.menu) (h.items.symm ▸ hid)
  · exact h.native

end Seat

/-- A listener of a select is on one of its parts, or it only follows, on the native select or on the document. -/
theorem Parts.Places.part {a : Parts} {z : Handler} {place : Target} (h : a.Places z place) :
    (∃ id, place = .element id ∧ (id = a.trigger ∨ id = a.menu ∨ id ∈ a.items)) ∨
      (place = .element a.native ∧ z.Follows) ∨ ∃ k, z = .documentPointer k ∨ z = .documentKey k := by
  cases h with
  | triggerClick k => exact .inl ⟨_, rfl, .inl rfl⟩
  | triggerKey k => exact .inl ⟨_, rfl, .inl rfl⟩
  | menuKey k => exact .inl ⟨_, rfl, .inr (.inl rfl)⟩
  | nativeChange k => exact .inr (.inl ⟨rfl, trivial⟩)
  | itemClick k hi => exact .inl ⟨_, rfl, .inr (.inr (List.mem_of_getElem? hi))⟩
  | itemHover k hi => exact .inl ⟨_, rfl, .inr (.inr (List.mem_of_getElem? hi))⟩
  | documentPointer k => exact .inr (.inr ⟨k, .inl rfl⟩)
  | documentKey k => exact .inr (.inr ⟨k, .inr rfl⟩)

/-- The wrapper and the select have nothing in common. -/
structure Neighbours (x : Nat) (b : Parts) (p : Page) : Prop where
  known : x < p.elements.length
  marked : (p.element x).hasAttr "data-retention-select" = true
  apart : ∀ id, p.contains x id = true → p.contains b.wrapper id = false

namespace Neighbours

theorem settled (h : Neighbours x b p) (hp : p.WellFormed) (hq : Settled p q) : Neighbours x b q where
  known := by rw [hq.length]; exact h.known
  marked := (hq.hosts.hasAttr h.known (by simp)).trans h.marked
  apart id hid := by
    rw [hq.contains_eq hp] at hid ⊢
    exact h.apart id hid

/-- A select hears nothing of what happens inside its neighbour. -/
theorem not_contains (h : Neighbours x b p) (hp : p.WellFormed) (hb : Seat p b) (hx : p.contains x u = true)
    (hid : id = b.trigger ∨ id = b.menu ∨ id ∈ b.items ∨ id = b.native) : p.contains id u ≠ true := by
  intro hu
  have hboth := hp.contains_trans (hb.own hp hid) hu
  rw [h.apart u hx] at hboth
  cases hboth

/-- No option of the select is one of a native select inside its neighbour. -/
theorem options_apart (h : Neighbours x b p) (hp : p.WellFormed) (hb : Seat p b) {native : Nat}
    (hx : p.contains x native = true) : ∀ id ∈ p.options b.native, id ∉ p.options native := by
  intro id hid hmem
  have hinside := hp.contains_trans hx (contains_of_mem_descendants (List.mem_filter.mp hmem).1)
  have hown := hp.contains_trans (hb.own hp (.inr (.inr (.inr rfl))))
    (contains_of_mem_descendants (List.mem_filter.mp hid).1)
  rw [h.apart id hinside] at hown
  cases hown

end Neighbours

end

/-- The select with its menu closed. -/
def Select.closed (w : Select) : Select := { w with state := { w.state with isOpen := false, listening := false } }

/-! ### Nothing happens to a select -/

namespace Live

/-- Nothing happens to a select. -/
structure Unaffected (j : Nat) (b : Select) (l m : Live) : Prop where
  parts : m.selects.map (·.parts) = l.selects.map (·.parts)
  page : Settled l.page m.page
  select : m.selects[j]? = some b
  shown : b.parts.Untouched l.page m.page
  document : m.onDocument j = l.onDocument j

/-- A select on a live page whose selects are seated, beside a wrapper that it has nothing in common with. -/
structure Beside (u : Surroundings) (x j : Nat) (b : Select) (l : Live) : Prop where
  seated : Seated u l
  select : l.selects[j]? = some b
  neighbours : Neighbours x b.parts l.page

/-- An announcement inside the wrapper does nothing to the select. -/
def Discreet (u : Surroundings) (x j : Nat) (b : Select) (announce : Live → Nat → Live) : Prop :=
  ∀ l native, Beside u x j b l → l.page.contains x native = true → Unaffected j b l (announce l native)

section
variable {u : Surroundings} {x j k : Nat} {b w : Select} {l m r : Live} {announce : Live → Nat → Live} {e : Effect}

theorem Unaffected.trans (h : Unaffected j b l m) (h' : Unaffected j b m r) (hl : l.page.WellFormed) :
    Unaffected j b l r :=
  ⟨h'.parts.trans h.parts, h.page.trans h'.page hl, h'.select, h.shown.trans h'.shown, h'.document.trans h.document⟩

namespace Beside

theorem page (h : Beside u x j b l) : l.page.WellFormed := h.seated.page

theorem seat (h : Beside u x j b l) : Seat l.page b.parts := h.seated.seat h.select

theorem unaffected (h : Beside u x j b l) (hm : Unaffected j b l m) (hseated : Seated u m) : Beside u x j b m :=
  ⟨hseated, hm.select, h.neighbours.settled h.page hm.page⟩

theorem shown (h : Beside u x j b l) (hselects : m.selects = l.selects) (hpage : Settled l.page m.page)
    (hshown : b.parts.Untouched l.page m.page) (hdocument : m.onDocument j = l.onDocument j) : Unaffected j b l m :=
  ⟨by rw [hselects], hpage, by rw [hselects]; exact h.select, hshown, hdocument⟩

theorem settled_refl (h : Beside u x j b l) : Settled l.page l.page :=
  ⟨.of_attrs h.page rfl rfl rfl (fun _ => rfl) (fun _ => rfl) fun _ => rfl, rfl⟩

theorem untouched_refl (h : Beside u x j b l) : b.parts.Untouched l.page l.page :=
  .of_alike h.page h.seat ⟨rfl, rfl, rfl, rfl, rfl, rfl, fun _ => rfl, fun _ => rfl, fun _ => rfl⟩ (fun _ _ => rfl)
    (.of_eq rfl)

theorem same (h : Beside u x j b l) (hselects : m.selects = l.selects) (hpage : m.page = l.page)
    (hdocument : m.onDocument j = l.onDocument j) : Unaffected j b l m :=
  h.shown hselects (hpage ▸ h.settled_refl) (hpage ▸ h.untouched_refl) hdocument

theorem refl (h : Beside u x j b l) : Unaffected j b l l := h.same rfl rfl rfl

/-! ### Work of other selects -/

/-- The page tells of a change inside the wrapper. -/
theorem announced (h : Beside u x j b l) {native : Nat} (hnative : l.page.contains x native = true) :
    Unaffected j b l { l with page := { l.page with calls := l.page.calls ++ [.announce "change" native] } } := by
  have hother : b.parts.native ≠ native := by
    rintro rfl
    have hown : l.page.contains b.parts.wrapper b.parts.native = true := h.seat.own h.page (.inr (.inr (.inr rfl)))
    rw [h.neighbours.apart _ hnative] at hown
    cases hown
  obtain ⟨hsettled, huntouched⟩ := Parts.untouched_aside h.page h.seat (b := b.parts)
    (q := { l.page with calls := l.page.calls ++ [.announce "change" native] }) rfl rfl rfl
    ⟨[.announce "change" native], rfl, by simp [hother], by simp⟩
  exact h.shown rfl hsettled huntouched rfl

/-- A piece of work of another select. When it is bold, that select is inside the wrapper. -/
theorem apply (hann : Discreet u x j b announce) (h : Beside u x j b l) (hw : l.selects[k]? = some w) (hkj : k ≠ j)
    (hinside : e.Bold → l.page.contains x w.parts.wrapper = true) :
    Unaffected j b l (applySelect announce k l e) := by
  obtain ⟨hsettings, hseat, -⟩ := h.seated.selects w (List.mem_of_getElem? hw)
  have hapart : w.parts.Apart b.parts := apart_of_pairwise rfl h.seated.apart hkj hw h.select
  have hnative : e.Bold → l.page.contains x w.parts.native = true := fun hbold =>
    h.page.contains_trans (hinside hbold) (hseat.own h.page (.inr (.inr (.inr rfl))))
  by_cases hedit : e ≠ .listen ∧ e ≠ .unlisten ∧ e ≠ .notify
  · rw [applySelect_eq hw hsettings hedit]
    have hhosts := Hosts.after_select h.page hsettings hseat.fits.leaf e
    refine h.shown rfl ⟨hhosts, (w.edited_after l.page e).length⟩ ?_ rfl
    refine Select.untouched_after hsettings h.page hseat h.seat hapart fun i hcommit => ?_
    subst hcommit
    exact h.neighbours.options_apart h.page h.seat (hnative trivial)
  · unfold applySelect
    rw [hw]
    cases e with
    | listen => exact h.same rfl rfl (onDocument_subscribe_of_ne (Ne.symm hkj))
    | unlisten => exact h.same rfl rfl (onDocument_unlisten_of_ne (Ne.symm hkj))
    | notify =>
      have hsaid := h.announced (hnative trivial)
      have hbeside := h.unaffected hsaid (h.seated.hosted hsaid.page.hosts rfl)
      exact hsaid.trans (hann _ _ hbeside (hnative trivial)) h.page
    | _ => exact absurd ⟨nofun, nofun, nofun⟩ hedit

theorem work (hseating : Seating announce) (hann : Discreet u x j b announce) (h : Beside u x j b l) {a : Parts}
    (ha : (l.selects.map (·.parts))[k]? = some a) (hkj : k ≠ j) {es : List Effect}
    (hinside : ∀ e ∈ es, e.Bold → l.page.contains x a.wrapper = true) :
    Beside u x j b (es.foldl (applySelect announce k) l) ∧ Unaffected j b l (es.foldl (applySelect announce k) l) := by
  induction es generalizing l with
  | nil => exact ⟨h, h.refl⟩
  | cons e es ih =>
    obtain ⟨w, hw, rfl⟩ := exists_select rfl ha
    have hone : Unaffected j b l (applySelect announce k l e) := h.apply hann hw hkj (hinside e List.mem_cons_self)
    -- Nothing moves, so a select that was inside the wrapper is there for the rest of the work.
    have hlater : ∀ e' ∈ es, e'.Bold → (applySelect announce k l e).page.contains x w.parts.wrapper = true := by
      intro e' he' hbold
      rw [hone.page.contains_eq h.page]
      exact hinside e' (List.mem_cons_of_mem e he') hbold
    obtain ⟨hbeside, hrest⟩ := ih (h.unaffected hone (h.seated.applySelect hseating k e)) (by rw [hone.parts]; exact ha)
      hlater
    exact ⟨hbeside, hone.trans hrest h.page⟩

/-- An operation of another select, which is inside the wrapper or only follows. -/
theorem callSelect (hseating : Seating announce) (hann : Discreet u x j b announce) (h : Beside u x j b l) (hkj : k ≠ j)
    (op : Operation) (hinside : op.Follows ∨ ∀ w, l.selects[k]? = some w → l.page.contains x w.parts.wrapper = true) :
    Beside u x j b (l.callSelect announce k (·.perform op)) ∧
      Unaffected j b l (l.callSelect announce k (·.perform op)) := by
  unfold Live.callSelect
  split
  · exact ⟨h, h.refl⟩
  · next w hw =>
    have hstate : Unaffected j b l (l.setState k (w.state.perform op).1) := by
      refine ⟨parts_setState _, h.settled_refl, ?_, h.untouched_refl, rfl⟩
      rw [selects_setState, if_neg hkj]
      exact h.select
    have hbold : ∀ e ∈ (w.state.perform op).2, e.Bold → l.page.contains x w.parts.wrapper = true := by
      intro e he hbold
      rcases hinside with hfollows | hinside
      · exact absurd hbold (State.not_bold_of_follows hfollows e he)
      · exact hinside w hw
    obtain ⟨hbeside, hwork⟩ := (h.unaffected hstate (h.seated.answered hw op)).work hseating hann
      (by rw [hstate.parts]; exact getElem?_parts rfl hw) hkj hbold
    exact ⟨hbeside, hstate.trans hwork h.page⟩

/-! ### Work of the overlay -/

theorem aside (h : Beside u x j b l) {q : Page} (htree : q.tree = l.page.tree) (hloose : q.loose = l.page.loose)
    (helements : q.elements = l.page.elements) (hcalls : q.calls = l.page.calls) :
    Unaffected j b l { l with page := q } := by
  obtain ⟨hsettled, huntouched⟩ := Parts.untouched_aside h.page h.seat htree hloose helements (.of_eq hcalls)
  exact h.shown rfl hsettled huntouched rfl

theorem persist (h : Beside u x j b l) (c : Consent.Cookie) (r : Consent.Record) : Unaffected j b l (l.persist c r) := by
  unfold Live.persist
  split
  · exact h.aside rfl rfl rfl rfl
  · unfold Live.assignCookie
    split
    · split
      · exact h.aside rfl rfl rfl rfl
      · exact h.same rfl rfl rfl
    · exact h.refl

theorem onDocument_armTeardown (l : Live) (o : Overlay) : (l.armTeardown o).onDocument j = l.onDocument j := by
  show (l.listeners.filter (fun y : Listener => !decide (y.handler = Handler.transitionEnd)) ++ [_]).filter _ =
    l.listeners.filter _
  rw [List.filter_append, List.filter_filter, List.filter_cons_of_neg (by simp [Handler.onDocument]), List.filter_nil,
    List.append_nil]
  refine List.filter_congr fun y _ => ?_
  cases hy : y.handler <;> simp [Handler.onDocument]

theorem applyOverlay (h : Beside u x j b l) (e : Consent.Effect) : Unaffected j b l (l.applyOverlay e) := by
  cases ho : l.overlay with
  | none =>
    unfold Live.applyOverlay
    rw [ho]
    exact h.refl
  | some o =>
    obtain ⟨hsettings, hspares⟩ := h.seated.overlay o ho
    by_cases hpersist : ∃ r, e = .persist r
    · obtain ⟨r, rfl⟩ := hpersist
      unfold Live.applyOverlay
      rw [ho]
      exact h.persist o.cookie r
    · have hafter : Unaffected j b l { l with page := o.after l.page e } :=
        h.shown rfl ⟨.after_overlay h.page hsettings e, (o.edited_after l.page e).length⟩
          (Overlay.untouched_after hsettings h.page h.seat fun v t ht =>
            (hspares v t ht).2 b (List.mem_of_getElem? h.select)) rfl
      rw [applyOverlay_edits ho hsettings fun r heq => hpersist ⟨r, heq⟩]
      split
      · exact ⟨hafter.parts, hafter.page, hafter.select, hafter.shown, onDocument_armTeardown _ o⟩
      · exact hafter

theorem callOverlay (h : Beside u x j b l) (f : Consent.Session → Consent.Session × List Consent.Effect) :
    Beside u x j b (l.callOverlay f) ∧ Unaffected j b l (l.callOverlay f) := by
  have hwork : ∀ (es : List Consent.Effect) {m : Live}, Beside u x j b m →
      Unaffected j b m (es.foldl Live.applyOverlay m) := by
    intro es
    induction es with
    | nil => exact fun hm => hm.refl
    | cons e es ih =>
      intro m hm
      have hone := hm.applyOverlay e
      exact hone.trans (ih (hm.unaffected hone (hm.seated.applyOverlay e))) hm.page
  have hall : Unaffected j b l (l.callOverlay f) := by
    unfold Live.callOverlay
    split
    · exact h.refl
    · next o ho =>
      dsimp only
      obtain ⟨log, hlog⟩ :=
        foldl_noteRecord { l with overlay := some { o with session := (f o.session).1 } } (f o.session).2
      rw [hlog]
      have hsame : Unaffected j b l { l with overlay := some { o with session := (f o.session).1 }, log } :=
        h.same rfl rfl rfl
      have hseated : Seated u { l with overlay := some { o with session := (f o.session).1 }, log } := by
        refine ⟨h.seated.page, h.seated.surroundings, h.seated.selects, h.seated.apart, h.seated.listeners, fun o' ho' => ?_⟩
        obtain rfl := Option.some.inj ho'
        exact h.seated.overlay o ho
      exact hsame.trans (hwork _ (h.unaffected hsame hseated)) h.page
  exact ⟨h.unaffected hall (h.seated.callOverlay f), hall⟩

theorem pressControl (h : Beside u x j b l) (name : String) :
    Beside u x j b (l.pressControl name) ∧ Unaffected j b l (l.pressControl name) := by
  unfold Live.pressControl
  split
  · exact ⟨h, h.refl⟩
  · dsimp only
    split
    · exact ⟨h, h.refl⟩
    · exact h.callOverlay _

end Beside

end

/-! ### A select that is closed at most -/

/-- Whether the menu of a select is open: what the listbox says, what the page shows, and what listens. -/
structure Openness where
  isOpen : Bool
  listening : Bool
  marked : Bool
  expanded : Option String
  listeners : List Listener
  deriving DecidableEq, Repr

/-- The menu is closed. -/
def Openness.closed : Openness := ⟨false, false, false, some "false", []⟩

/-- Whether the menu of that select is open. -/
def openness (l : Live) (j : Nat) (w : Select) : Openness where
  isOpen := w.state.isOpen
  listening := w.state.listening
  marked := (l.page.element w.parts.wrapper).hasClass "is-open"
  expanded := (l.page.element w.parts.trigger).attr? "aria-expanded"
  listeners := l.onDocument j

/-- Nothing happens to a select but, when it may be closed and was open, that it is closed. -/
structure Spared (j : Nat) (closable : Prop) (l : Live) (b : Select) (m : Live) (c : Select) : Prop where
  parts : m.selects.map (·.parts) = l.selects.map (·.parts)
  page : Settled l.page m.page
  own : c.parts = b.parts
  entries : c.state.entries = b.state.entries
  active : c.state.active = b.state.active
  selected : c.state.selected = b.state.selected
  still : b.parts.Still l.page m.page
  openness : m.openness j c = l.openness j b ∨
    closable ∧ b.state.isOpen = true ∧ m.openness j c = .closed

section
variable {u : Surroundings} {x j k t : Nat} {b c d : Select} {l m r : Live} {announce : Live → Nat → Live}
  {closable : Prop} {event : Event}

theorem Spared.trans (h : Spared j closable l b m c) (h' : Spared j closable m c r d) (hl : l.page.WellFormed) :
    Spared j closable l b r d where
  parts := h'.parts.trans h.parts
  page := h.page.trans h'.page hl
  own := h'.own.trans h.own
  entries := h'.entries.trans h.entries
  active := h'.active.trans h.active
  selected := h'.selected.trans h.selected
  still := h.still.trans (h.own ▸ h'.still)
  openness := by
    rcases h'.openness with hsame | ⟨hmay, hopen, hclosed⟩
    · rw [hsame]
      exact h.openness
    · rcases h.openness with hsame | ⟨-, -, hbefore⟩
      · have hstate : c.state.isOpen = b.state.isOpen := congrArg Openness.isOpen hsame
        exact .inr ⟨hmay, hstate.symm.trans hopen, hclosed⟩
      · have hstate : c.state.isOpen = false := congrArg Openness.isOpen hbefore
        rw [hstate] at hopen
        cases hopen

theorem Spared.mono {p : Prop} (h : Spared j closable l b m c) (himp : closable → p) : Spared j p l b m c :=
  { h with openness := h.openness.imp id fun ⟨hmay, hclosed⟩ => ⟨himp hmay, hclosed⟩ }

theorem Unaffected.spared (h : Unaffected j b l m) : Spared j closable l b m b where
  parts := h.parts
  page := h.page
  own := rfl
  entries := rfl
  active := rfl
  selected := rfl
  still := h.shown.still
  openness := by
    unfold Live.openness
    rw [h.shown.opened, h.shown.expanded, h.document]
    exact .inl rfl

/-! ### Closing a menu -/

theorem selects_setState_self (hw : l.selects[j]? = some b) (s : State) :
    (l.setState j s).selects[j]? = some { b with state := s } := by
  rw [selects_setState, if_pos rfl, hw]
  rfl

theorem Beside.idle (hseating : Seating announce) (h : Beside u x j b l) {op : Operation}
    (hop : b.state.perform op = (b.state, [])) :
    ∃ c, Beside u x j c (l.callSelect announce j (·.perform op)) ∧
      Spared j closable l b (l.callSelect announce j (·.perform op)) c := by
  have hseated := h.seated.callSelect hseating j op
  have hcall : l.callSelect announce j (·.perform op) = l.setState j b.state := by
    unfold Live.callSelect
    rw [h.select]
    dsimp only
    rw [hop]
    rfl
  rw [hcall] at hseated ⊢
  have hsame : Unaffected j b l (l.setState j b.state) :=
    ⟨parts_setState _, h.settled_refl, selects_setState_self h.select b.state, h.untouched_refl, rfl⟩
  exact ⟨b, h.unaffected hsame hseated, hsame.spared⟩

/-- The class and the attribute of an open menu go first when it is closed, and then the listeners on the document. -/
theorem callSelect_closeMenu (hw : l.selects[j]? = some b) (hsettings : b.settings = {})
    (hopen : b.state.isOpen = true) (hlistening : b.state.listening = true) :
    l.callSelect announce j (·.perform (.closeMenu false)) =
      Live.unlisten { l.setState j b.closed.state with page := b.closed.after l.page .collapse } (Handler.onDocument j) := by
  have hwork : b.state.perform (.closeMenu false) = (b.closed.state, [.collapse, .unlisten]) := by
    show b.state.closeMenu false = _
    unfold State.closeMenu
    rw [hopen, hlistening]
    rfl
  have hclosed : (l.setState j b.closed.state).selects[j]? = some b.closed := selects_setState_self hw b.closed.state
  have hcollapse : applySelect announce j (l.setState j b.closed.state) .collapse =
      { l.setState j b.closed.state with page := b.closed.after l.page .collapse } :=
    applySelect_eq hclosed hsettings ⟨nofun, nofun, nofun⟩
  unfold Live.callSelect
  rw [hw]
  dsimp only
  rw [hwork, List.foldl_cons, List.foldl_cons, List.foldl_nil, hcollapse]
  unfold applySelect
  dsimp only
  rw [hclosed]

/-- A select whose page and listeners tell that its menu is closed. -/
theorem openness_of_closed (hstate : c.state.isOpen = false ∧ c.state.listening = false)
    (hshown : c.parts.Opened False false m.page) (hdocument : m.onDocument j = []) : m.openness j c = .closed := by
  have hunmarked : (m.page.element c.parts.wrapper).hasClass "is-open" = false := by
    rw [Bool.eq_false_iff]
    intro hmarked
    rcases hshown.of_marked hmarked with hon | hslack
    · cases hon
    · exact hslack
  unfold Live.openness
  rw [hstate.1, hstate.2, hunmarked, hshown.expanded, hdocument]
  rfl

/-- A select that is asked to close does so when it is open, and nothing else. -/
theorem Beside.close (hseating : Seating announce) (h : Beside u x j b l) :
    ∃ c, Beside u x j c (l.callSelect announce j (·.perform (.closeMenu false))) ∧
      Spared j True l b (l.callSelect announce j (·.perform (.closeMenu false))) c := by
  obtain ⟨hsettings, hseat, hcoherent⟩ := h.seated.selects b (List.mem_of_getElem? h.select)
  cases hopen : b.state.isOpen
  · refine h.idle hseating ?_
    show b.state.closeMenu false = _
    unfold State.closeMenu
    rw [hopen]
    rfl
  · have hseated := h.seated.callSelect hseating j (.closeMenu false)
    rw [callSelect_closeMenu h.select hsettings hopen (hcoherent.listening_eq.trans hopen)] at hseated ⊢
    have hclosed := selects_setState_self h.select b.closed.state
    have hsettled : Settled l.page (b.closed.after l.page .collapse) :=
      ⟨.after_select h.page hsettings hseat.fits.leaf .collapse, (b.closed.edited_after l.page .collapse).length⟩
    have hopenness : (Live.unlisten { l.setState j b.closed.state with page := b.closed.after l.page .collapse }
        (Handler.onDocument j)).openness j b.closed = .closed :=
      openness_of_closed ⟨rfl, rfl⟩ (Select.opened_after_collapse (w := b.closed) hsettings hseat.fits)
        onDocument_unlisten_self
    exact ⟨b.closed, ⟨hseated, hclosed, h.neighbours.settled h.page hsettled⟩,
      { parts := parts_setState _
        page := hsettled
        own := rfl
        entries := rfl
        active := rfl
        selected := rfl
        still := Select.still_after_collapse (w := b.closed) hsettings h.page hseat
        openness := .inr ⟨trivial, hopen, hopenness⟩ }⟩

/-! ### Events inside the wrapper -/

/-- An event inside the wrapper reaches no part of the select; of the parts of other selects it reaches native selects,
    and the parts of selects that are inside the wrapper. What happens in between changes nothing about that. -/
theorem Beside.reached (h : Beside u x j b m) (hl : l.page.WellFormed) (hsettled : Settled l.page m.page)
    (htarget : event.target = .element t) (hx : l.page.contains x t = true) {y : Listener}
    (hy : y.Homed (m.selects.map (·.parts))) (hhears : Hears event (l.page.stops event) y)
    (hk : y.handler.owner? = some k) :
    (k ≠ j ∧ (y.handler.Follows ∨ ∀ w, m.selects[k]? = some w → m.page.contains x w.parts.wrapper = true)) ∨
      y.handler = .documentPointer k ∨ y.handler = .documentKey k := by
  obtain ⟨a, ha, hplaces⟩ := hy.place k hk
  obtain ⟨-, s, hs, hplace⟩ := hhears
  obtain ⟨w, hw, rfl⟩ := exists_select rfl ha
  have hwhere := hl.place_of_mem_stops htarget hs
  rw [← hplace] at hwhere
  rw [← hsettled.contains_eq hl] at hx
  -- A listener on an element hears of the target only from above.
  have habove : ∀ id, y.place = .element id → m.page.contains id t = true := by
    intro id hid
    rcases hwhere with hdocument | ⟨id', hid', hcontains⟩
    · cases hid.symm.trans hdocument
    · rw [Target.element.inj (hid.symm.trans hid'), hsettled.contains_eq hl]
      exact hcontains
  have hother : ∀ id, m.page.contains id t = true →
      (id = w.parts.trigger ∨ id = w.parts.menu ∨ id ∈ w.parts.items ∨ id = w.parts.native) → k ≠ j := by
    rintro id hcontains hpart rfl
    rw [Option.some.inj (hw.symm.trans h.select)] at hpart
    exact h.neighbours.not_contains h.page h.seat hx hpart hcontains
  rcases hplaces.part with ⟨id, hid, hpart⟩ | ⟨hnative, hfollows⟩ | ⟨i, hdocument⟩
  · have hcontains := habove id hid
    refine .inl ⟨hother id hcontains ?_, .inr fun v hv => ?_⟩
    · rcases hpart with hpart | hpart | hpart
      · exact .inl hpart
      · exact .inr (.inl hpart)
      · exact .inr (.inr (.inl hpart))
    · rw [← Option.some.inj (hw.symm.trans hv)]
      exact (h.seated.seat hw).inside h.page h.neighbours.marked hx hpart hcontains
  · exact .inl ⟨hother _ (habove _ hnative) (.inr (.inr (.inr rfl))), .inl hfollows⟩
  · rcases hdocument with heq | heq <;> rw [heq] at hk <;> obtain rfl := Option.some.inj hk
    · exact .inr (.inl heq)
    · exact .inr (.inr heq)

/-- What another select does about an event inside the wrapper does nothing to the select. -/
theorem Beside.others (ready : Bool → Live → Live) (event : Event) (hseating : Seating announce)
    (hann : Discreet u x j b announce) (h : Beside u x j b m) {z : Handler} (hk : z.owner? = some k) (hkj : k ≠ j)
    (hinside : z.Follows ∨ ∀ w, m.selects[k]? = some w → m.page.contains x w.parts.wrapper = true) :
    Beside u x j b (handle announce ready event z m).1 ∧ Unaffected j b m (handle announce ready event z m).1 := by
  have hcases : (handle announce ready event z m).1 = m ∨ ∃ op : Operation, (z.Follows → op.Follows) ∧
      (handle announce ready event z m).1 = m.callSelect announce k (·.perform op) := handle_of_owner hk
  rcases hcases with heq | ⟨op, hfollows, heq⟩
  · rw [heq]
    exact ⟨h, h.refl⟩
  · rw [heq]
    exact h.callSelect hseating hann hkj op (hinside.imp hfollows id)

/-- A change inside the wrapper is heard by what listens to other native selects alone. -/
theorem discreet_announceChange : Discreet u x j b announceChange := by
  intro l native h hx
  have hlasting : ∀ y : Listener, Hears (changeOf native) (l.page.stops (changeOf native)) y →
      y.Homed (l.selects.map (·.parts)) → y.once ≠ true := by
    intro y hhears hy honce
    have htype : "change" = "DOMContentLoaded" := hhears.1.symm.trans (hy.lasting honce)
    exact absurd htype (by decide)
  have kept : Kept (handle (fun l _ => l) fun _ l => l) (changeOf native) (l.page.stops (changeOf native))
      (fun m => Beside u x j b m ∧ Unaffected j b l m) (Listener.Homed (l.selects.map (·.parts))) := by
    refine ⟨fun m hm y hy => ?_, fun m y _ hy hhears honce => absurd honce (hlasting y hhears hy),
      fun m y ⟨hm, hsame⟩ hy hhears => ?_⟩
    · rw [← hm.2.parts]
      exact hm.1.seated.listeners y hy
    · obtain ⟨k, hk⟩ := nativeChange_of_hears (hy.type.symm.trans hhears.1)
      have howner : y.handler.owner? = some k := by
        rw [hk]
        rfl
      rw [← hsame.parts] at hy
      -- What listens to a native select announces nothing in turn.
      rcases hm.reached h.page hsame.page rfl hx hy hhears howner with ⟨hkj, hinside⟩ | hdocument | hdocument
      · have hseating : Seating fun l _ => l := fun _ _ _ hm => hm
        have hquiet : Discreet u x j b fun l _ => l := fun _ _ hm _ => hm.refl
        obtain ⟨hbeside, hrest⟩ := Beside.others (fun _ l => l) (changeOf native) hseating hquiet hm howner hkj hinside
        exact ⟨hbeside, hsame.trans hrest h.page⟩
      · cases hk.symm.trans hdocument
      · cases hk.symm.trans hdocument
  exact (deliver_keeps kept ⟨h, h.refl⟩).2

/-- What listens on the document for the select itself closes it at most. -/
theorem Beside.follow {ready : Bool → Live → Live} (hseating : Seating announce) (h : Beside u x j b m)
    (htarget : event.target = .element t) (hx : m.page.contains x t = true) {z : Handler} (htype : z.hears = event.type)
    (hz : z = .documentPointer j ∨ z = .documentKey j) :
    ∃ c, Beside u x j c (handle announce ready event z m).1 ∧
      Spared j event.Closes m b (handle announce ready event z m).1 c := by
  have houtside : m.page.within event b.parts.wrapper = false := by
    unfold Page.within
    rw [htarget]
    exact h.neighbours.apart t hx
  have hclose : event.Closes → ∃ c, Beside u x j c (m.callSelect announce j (·.perform (.closeMenu false))) ∧
      Spared j event.Closes m b (m.callSelect announce j (·.perform (.closeMenu false))) c := by
    intro hcloses
    obtain ⟨c, hc, hspared⟩ := h.close hseating
    exact ⟨c, hc, hspared.mono fun _ => hcloses⟩
  have hidle : ∃ c, Beside u x j c m ∧ Spared j event.Closes m b m c := ⟨b, h, h.refl.spared⟩
  rcases hz with rfl | rfl
  · have hwork : (handle announce ready event (.documentPointer j) m).1 =
        m.callSelect announce j (·.perform (.closeMenu false)) := by
      dsimp only [handle]
      rw [h.select]
      dsimp only
      rw [houtside]
      rfl
    rw [hwork]
    exact hclose (.inl htype.symm)
  · cases hkey : event.key with
    | none =>
      have hwork : (handle announce ready event (.documentKey j) m).1 = m := by
        dsimp only [handle]
        rw [hkey]
      rw [hwork]
      exact hidle
    | some key =>
      have hwork : (handle announce ready event (.documentKey j) m).1 =
          m.callSelect announce j (·.perform (.documentKey (.ofName key) false)) := by
        dsimp only [handle]
        rw [hkey, h.select]
        dsimp only
        rw [houtside]
        rfl
      rw [hwork]
      by_cases htab : Key.ofName key = .tab
      · rw [htab]
        exact hclose (.inr ⟨htype.symm, by rw [hkey, Key.eq_of_tab htab]⟩)
      · refine h.idle hseating ?_
        show b.state.documentKey (.ofName key) false = _
        unfold State.documentKey
        rw [if_neg fun hboth => htab hboth.1]

theorem Beside.elsewhere (announce : Live → Nat → Live) (ready : Bool → Live → Live) (event : Event)
    (h : Beside u x j b m) {z : Handler} (hz : z.owner? = none) (htype : z.hears ≠ "DOMContentLoaded") :
    Beside u x j b (handle announce ready event z m).1 ∧ Unaffected j b m (handle announce ready event z m).1 := by
  cases z with
  | ready test => exact absurd rfl htype
  | control name => exact h.pressControl name
  | transitionEnd =>
    dsimp only [handle]
    split
    · exact ⟨h, h.refl⟩
    · dsimp only
      split
      · exact h.callOverlay _
      · exact ⟨h, h.refl⟩
  | _ => cases hz

theorem Beside.call (h : Beside u x j b m) (hl : l.page.WellFormed) (hsettled : Settled l.page m.page)
    (htarget : event.target = .element t) (hx : l.page.contains x t = true) (htype : event.type ≠ "DOMContentLoaded")
    {y : Listener} (hy : y.Homed (m.selects.map (·.parts))) (hhears : Hears event (l.page.stops event) y) :
    ∃ c, Beside u x j c (handle announceChange whenReady event y.handler m).1 ∧
      Spared j event.Closes m b (handle announceChange whenReady event y.handler m).1 c := by
  have hseating : Seating announceChange := Seated.seating_announceChange
  have hhears' : y.handler.hears = event.type := hy.type.symm.trans hhears.1
  cases hk : y.handler.owner? with
  | none =>
    obtain ⟨hbeside, hsame⟩ := h.elsewhere announceChange whenReady event hk (hhears' ▸ htype)
    exact ⟨b, hbeside, hsame.spared⟩
  | some k =>
    rcases h.reached hl hsettled htarget hx hy hhears hk with ⟨hkj, hinside⟩ | hdocument
    · obtain ⟨hbeside, hsame⟩ := Beside.others whenReady event hseating discreet_announceChange h hk hkj hinside
      exact ⟨b, hbeside, hsame.spared⟩
    · -- All selects hear on the document. This one may close; the others follow, which is nothing to it.
      by_cases hkj : k = j
      · subst hkj
        rw [← hsettled.contains_eq hl] at hx
        exact h.follow hseating htarget hx hhears' hdocument
      · have hfollows : y.handler.Follows := by
          rcases hdocument with heq | heq <;> rw [heq] <;> trivial
        obtain ⟨hbeside, hsame⟩ := Beside.others whenReady event hseating discreet_announceChange h hk hkj (.inl hfollows)
        exact ⟨b, hbeside, hsame.spared⟩

/-- An event inside the wrapper closes the select at most. -/
theorem Beside.dispatch (event : Event) (h : Beside u x j b l) (htarget : event.target = .element t)
    (hx : l.page.contains x t = true) (htype : event.type ≠ "DOMContentLoaded") :
    ∃ c, Beside u x j c (l.dispatch event).1 ∧ Spared j event.Closes l b (l.dispatch event).1 c := by
  have kept : Kept (handle announceChange whenReady) event (l.page.stops event)
      (fun m => ∃ c, Beside u x j c m ∧ Spared j event.Closes l b m c) (Listener.Homed (l.selects.map (·.parts))) := by
    refine ⟨fun m ⟨c, hm, hspared⟩ y hy => ?_, fun m y _ hy hhears honce => ?_, fun m y ⟨c, hm, hspared⟩ hy hhears => ?_⟩
    · rw [← hspared.parts]
      exact hm.seated.listeners y hy
    · -- Only the complete document is told of once, and this event is something else.
      exact absurd (hhears.1.symm.trans (hy.lasting honce)) htype
    · rw [← hspared.parts] at hy
      obtain ⟨d, hbeside, hrest⟩ := hm.call h.page hspared.page htarget hx htype hy hhears
      exact ⟨d, hbeside, hspared.trans hrest h.page⟩
  exact deliver_keeps kept ⟨b, h, h.refl.spared⟩

/-! ### Occasions inside the wrapper -/

theorem Beside.turned (h : Beside u x j b l) {q : Page} (hpage : Settled l.page q)
    (hsurroundings : q.surroundings = l.page.surroundings) (hshown : b.parts.Untouched l.page q) :
    Beside u x j b { l with page := q } ∧ Unaffected j b l { l with page := q } := by
  have hsame : Unaffected j b l { l with page := q } := h.shown rfl hpage hshown rfl
  exact ⟨h.unaffected hsame (h.seated.hosted hpage.hosts hsurroundings), hsame⟩

theorem Beside.flip (h : Beside u x j b l) (id : Nat) : Beside u x j b (l.flip id) ∧ Unaffected j b l (l.flip id) := by
  have halike : Alike l.page (l.flip id).page := .modify fun _ => ⟨rfl, rfl, rfl⟩
  exact h.turned ⟨.of_alike h.page halike, halike.length⟩ rfl (Parts.untouched_flip h.page h.seat id)

theorem Beside.click (h : Beside u x j b l) {id : Nat} (hid : l.page.contains x id = true) :
    ∃ c, Beside u x j c (l.click id).1 ∧ Spared j False l b (l.click id).1 c := by
  have hdispatch : ∀ {m : Live}, Beside u x j b m → m.page.contains x id = true →
      ∃ c, Beside u x j c (m.dispatch ⟨"click", .element id, true, true, none⟩).1 ∧
        Spared j False m b (m.dispatch ⟨"click", .element id, true, true, none⟩).1 c := by
    intro m hm hx
    obtain ⟨c, hc, hspared⟩ := hm.dispatch ⟨"click", .element id, true, true, none⟩ rfl hx (by simp)
    exact ⟨c, hc, hspared.mono (by simp [Event.Closes])⟩
  obtain ⟨hflip, hturned⟩ := h.flip id
  unfold Live.click
  dsimp only
  split
  · exact ⟨b, h, h.refl.spared⟩
  · split
    · obtain ⟨c, hc, hspared⟩ := hdispatch hflip (by rw [hturned.page.contains_eq h.page]; exact hid)
      have hboth := hturned.spared.trans hspared h.page
      split
      · obtain ⟨hback, hreturned⟩ := hc.flip id
        exact ⟨c, hback, hboth.trans hreturned.spared h.page⟩
      · exact ⟨c, hc, hboth⟩
    · exact hdispatch h hid

theorem Beside.pick (h : Beside u x j b l) {native : Nat} (index : Option Nat)
    (hnative : l.page.contains x native = true) :
    ∃ c, Beside u x j c (l.pick native index).1 ∧ Spared j False l b (l.pick native index).1 c := by
  have hdispatch : ∀ {m : Live}, Beside u x j b m → m.page.contains x native = true →
      ∃ c, Beside u x j c (m.dispatch (changeOf native)).1 ∧ Spared j False m b (m.dispatch (changeOf native)).1 c := by
    intro m hm hx
    obtain ⟨c, hc, hspared⟩ := hm.dispatch (changeOf native) rfl hx (by simp [changeOf])
    exact ⟨c, hc, hspared.mono (by simp [changeOf, Event.Closes])⟩
  unfold Live.pick
  dsimp only
  split
  · have halike := alike_choose l.page native index
    obtain ⟨hchosen, hsame⟩ := h.turned ⟨.of_alike h.page halike, halike.length⟩ halike.surroundings
      (Parts.untouched_choose h.page h.seat index (h.neighbours.options_apart h.page h.seat hnative))
    obtain ⟨c, hc, hspared⟩ := hdispatch hchosen (by rw [hsame.page.contains_eq h.page]; exact hnative)
    exact ⟨c, hc, hsame.spared.trans hspared h.page⟩
  · exact hdispatch h hnative

theorem Beside.advance (h : Beside u x j b l) (ms : Nat) :
    Beside u x j b (l.advance ms) ∧ Unaffected j b l (l.advance ms) := by
  have hlater : ∀ {m : Live} (now : Calendar.Instant), Beside u x j b m ∧ Unaffected j b l m →
      Beside u x j b { m with page := { m.page with now } } ∧ Unaffected j b l { m with page := { m.page with now } } := by
    rintro m now ⟨hm, hbefore⟩
    have hsame := hm.aside (q := { m.page with now }) rfl rfl rfl rfl
    exact ⟨hm.unaffected hsame (hm.seated.aside rfl rfl rfl rfl), hbefore.trans hsame h.page⟩
  have htimer : ∀ {m : Live}, Beside u x j b m ∧ Unaffected j b l m →
      Beside u x j b m.fireTimer ∧ Unaffected j b l m.fireTimer := by
    rintro m ⟨hm, hbefore⟩
    have hsame : Unaffected j b m { m with timer := none } := hm.same rfl rfl rfl
    have hidle : Beside u x j b { m with timer := none } :=
      hm.unaffected hsame (hm.seated.heard rfl rfl (fun _ hx => .inl hx) rfl)
    obtain ⟨hcalled, hafter⟩ := hidle.callOverlay (·.finishTeardown)
    exact ⟨hcalled, (hbefore.trans hsame h.page).trans hafter h.page⟩
  unfold Live.advance
  dsimp only
  split
  · split
    · exact hlater _ (htimer (hlater _ ⟨h, h.refl⟩))
    · exact hlater _ ⟨h, h.refl⟩
  · exact hlater _ ⟨h, h.refl⟩

/-- What happens inside the wrapper closes the select at most. -/
theorem Beside.meet (h : Beside u x j b l) {o : Occasion} (ho : o.Inside l.page x) :
    ∃ c, Beside u x j c (l.meet o) ∧ Spared j o.Closes l b (l.meet o) c := by
  cases o with
  | click id => exact h.click ho
  | event e =>
    obtain ⟨htype, t, htarget, hx⟩ := ho
    exact h.dispatch e htarget hx htype
  | pick native index => exact h.pick index ho
  | pass ms =>
    obtain ⟨hbeside, hsame⟩ := h.advance ms
    exact ⟨b, hbeside, hsame.spared⟩

theorem Beside.meetAll (h : Beside u x j b l) {os : List Occasion} (hos : ∀ o ∈ os, o.Inside l.page x) :
    ∃ c, Beside u x j c (l.meetAll os) ∧ Spared j (∃ o ∈ os, o.Closes) l b (l.meetAll os) c := by
  induction os generalizing l b with
  | nil => exact ⟨b, h, h.refl.spared⟩
  | cons o os ih =>
    obtain ⟨c, hc, hone⟩ := h.meet (hos o List.mem_cons_self)
    obtain ⟨d, hd, hrest⟩ := ih hc fun o' ho' => (hos o' (List.mem_cons_of_mem o ho')).settled h.page hone.page
    refine ⟨d, hd, (hone.mono fun hcloses => ?_).trans (hrest.mono fun ⟨o', ho', hcloses⟩ => ?_) h.page⟩
    · exact ⟨o, List.mem_cons_self, hcloses⟩
    · exact ⟨o', List.mem_cons_of_mem o ho', hcloses⟩

end

/-- After any history, whatever happens inside the wrapper of a select leaves a select elsewhere alone, but that its open
    menu is closed by a pointer that goes down or by Tab. -/
theorem neighbours_do_not_interfere {p : Page} (hp : p.WellFormed) (ds : List Deed) {i j : Nat} {a b : Select}
    {os : List Occasion} :
    let l := (ofPage p).doAll ds
    l.selects[i]? = some a → l.selects[j]? = some b →
    (∀ id, l.page.contains a.parts.wrapper id = true → l.page.contains b.parts.wrapper id = false) →
    (∀ o ∈ os, o.Inside l.page a.parts.wrapper) →
      ∃ c, (l.meetAll os).selects[j]? = some c ∧ Spared j (∃ o ∈ os, o.Closes) l b (l.meetAll os) c := by
  intro l ha hb hapart hos
  have hseated : Seated p.surroundings l := seated_doAll hp ds
  have hseat := hseated.seat ha
  have hbeside : Beside p.surroundings a.parts.wrapper j b l :=
    ⟨hseated, hb, hseat.fits.wrapper_known, hseat.marker, hapart⟩
  obtain ⟨c, hc, hspared⟩ := hbeside.meetAll hos
  exact ⟨c, hc.select, hspared⟩

/-- Two wrappers, each with a select of its own. -/
def twoWrappers : Page :=
  (default : Page).withDocument (.element "html" true [] [.element "body" true []
    [.element "div" true [("data-retention-select", "")]
      [.element "select" true [("id", "keep")]
        [.element "option" true [] [.text "30 days"], .element "option" true [] [.text "60 days"]]],
     .element "div" true [("data-retention-select", "")]
      [.element "select" true [("id", "drop")]
        [.element "option" true [] [.text "1 day"], .element "option" true [] [.text "7 days"]]]]])

/-- The visitor chooses the second entry in the first wrapper by keys, and then clicks there. -/
def choiceInside : List Occasion :=
  [.event ⟨"keydown", .element 10, true, true, some "ArrowDown"⟩,
   .event ⟨"keydown", .element 13, true, true, some "Enter"⟩,
   .event ⟨"pointerdown", .element 2, true, true, none⟩, .click 2]

/-- The menu in the second wrapper, which is open, closes when the pointer goes down, and keeps its choice. -/
theorem second_wrapper_spared :
    let l := (ofPage twoWrappers).doAll [.start, .occasion (.click 14)]
    ∃ a b c, l.selects = [a, b] ∧ a.parts.wrapper = 2 ∧ b.parts.wrapper = 6 ∧ b.state.isOpen = true ∧
      (∀ id, l.page.contains 2 id = true → l.page.contains 6 id = false) ∧
      (∀ o ∈ choiceInside, o.Inside l.page 2) ∧ (l.meetAll choiceInside).selects[1]? = some c ∧
      Spared 1 (∃ o ∈ choiceInside, o.Closes) l b (l.meetAll choiceInside) c ∧
      (l.meetAll choiceInside).openness 1 c = .closed ∧
      (l.meetAll choiceInside).selects.map (·.state.selected) = [some 1, some 0] := by
  intro l
  have hbefore : l.selects.length = 2 ∧ l.selects.map (·.parts.wrapper) = [2, 6] ∧
      l.selects.map (·.state.isOpen) = [false, true] ∧ (∀ id ∈ 2 :: l.page.descendants 2, l.page.contains 6 id = false) ∧
      ∀ id ∈ [2, 10, 13], l.page.contains 2 id = true := by
    decide +kernel
  have hafter : (l.meetAll choiceInside).selects.map (·.state.selected) = [some 1, some 0] ∧
      (l.meetAll choiceInside).selects[1]?.map (l.meetAll choiceInside |>.openness 1) = some .closed := by
    decide +kernel
  obtain ⟨hlength, hwrappers, hopens, hall, hcontains⟩ := hbefore
  obtain ⟨hselected, hclosed⟩ := hafter
  obtain ⟨a, b, hselects⟩ := List.length_eq_two.mp hlength
  rw [hselects] at hwrappers hopens
  obtain ⟨ha, hb⟩ : a.parts.wrapper = 2 ∧ b.parts.wrapper = 6 := by simpa using hwrappers
  obtain ⟨-, hopen⟩ : a.state.isOpen = false ∧ b.state.isOpen = true := by simpa using hopens
  have hapart : ∀ id, l.page.contains 2 id = true → l.page.contains 6 id = false := fun id hid =>
    hall id (List.mem_cons.mpr (contains_iff.mp hid))
  have hinside : ∀ o ∈ choiceInside, o.Inside l.page 2 := by
    simp only [choiceInside, List.forall_mem_cons]
    exact ⟨⟨by decide, 10, rfl, hcontains 10 (by decide)⟩, ⟨by decide, 13, rfl, hcontains 13 (by decide)⟩,
      ⟨by decide, 2, rfl, hcontains 2 (by decide)⟩, hcontains 2 (by decide), nofun⟩
  have hfirst : l.selects[0]? = some a := by
    rw [hselects]
    rfl
  have hsecond : l.selects[1]? = some b := by
    rw [hselects]
    rfl
  obtain ⟨c, hc, hspared⟩ : ∃ c, (l.meetAll choiceInside).selects[1]? = some c ∧
      Spared 1 (∃ o ∈ choiceInside, o.Closes) l b (l.meetAll choiceInside) c :=
    neighbours_do_not_interfere (wellFormed_default.withDocument _) [.start, .occasion (.click 14)] hfirst hsecond
      (by rw [ha, hb]; exact hapart) (by rw [ha]; exact hinside)
  refine ⟨a, b, c, hselects, ha, hb, hopen, hapart, hinside, hc, hspared, ?_, hselected⟩
  rw [hc] at hclosed
  exact Option.some.inj hclosed

end Live
end Widget
end PageWidgets
