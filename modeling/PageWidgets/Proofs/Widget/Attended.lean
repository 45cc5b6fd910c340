import PageWidgets.Proofs.Widget.Toggles

/-! The overlay at work stays attended. Whatever happens to a live page, the overlay works with the toggles that are
    below it, each of its controls is listened to and nothing else is taken for a control, and the jar can be read
    (`Attended`). What the other widgets do besides leaves the session, the jar, the clock and the boxes as they are
    (`Bypasses`). -/

namespace PageWidgets
namespace Widget

open Consent Page Calendar

/-- Does the handler belong to a control of the overlay? -/
def Handler.ofControl : Handler → Bool
  | .control _ => true
  | _ => false

namespace Live

variable {l m r : Live} {u : Surroundings} {spent : List Nat} {k : Nat}

/-- The listeners of the overlay's controls. -/
def controlListeners (l : Live) : List Listener := l.listeners.filter fun x => x.handler.ofControl

theorem mem_controlListeners {x : Listener} :
    x ∈ l.controlListeners ↔ x ∈ l.listeners ∧ x.handler.ofControl = true := List.mem_filter

theorem controlListeners_listen {place : Target} {type : String} {capture passive once : Bool} {x : Handler}
    (hx : x.ofControl = false) : (l.listen place type capture passive once x).controlListeners = l.controlListeners := by
  unfold controlListeners listen
  rw [List.filter_append, List.filter_singleton, hx, cond_false, List.append_nil]

/-! ### Numbers of listeners -/

/-- Numbers are given out in order. Those of listeners that are called once are set apart, also after their call, and no
    control has one of them. -/
structure Numbered (spent : List Nat) (l : Live) : Prop where
  given : ∀ x ∈ l.listeners, x.id < l.nextListener
  spent_given : ∀ n ∈ spent, n < l.nextListener
  once : ∀ x ∈ l.listeners, x.once = true → x.id ∈ spent
  controls : ∀ x ∈ l.controlListeners, x.id ∉ spent

theorem Numbered.fewer (h : Numbered spent l) (hlisteners : ∀ x ∈ m.listeners, x ∈ l.listeners)
    (hnext : m.nextListener = l.nextListener) : Numbered spent m where
  given x hx := by
    rw [hnext]
    exact h.given x (hlisteners x hx)
  spent_given n hn := by
    rw [hnext]
    exact h.spent_given n hn
  once x hx := h.once x (hlisteners x hx)
  controls x hx := by
    obtain ⟨hmem, hcontrol⟩ := mem_controlListeners.mp hx
    exact h.controls x (mem_controlListeners.mpr ⟨hlisteners x hmem, hcontrol⟩)

/-- A new listener gets a number that no other has, spent or not. -/
theorem Numbered.listen (h : Numbered spent l) (place : Target) (type : String) (capture passive : Bool) (x : Handler) :
    Numbered spent (l.listen place type capture passive false x) := by
  refine ⟨fun y hy => ?_, fun n hn => Nat.lt_succ_of_lt (h.spent_given n hn), fun y hy honce => ?_, fun y hy => ?_⟩
  · rcases List.mem_append.mp hy with hy | hy
    · exact Nat.lt_succ_of_lt (h.given y hy)
    · rw [List.mem_singleton.mp hy]
      exact Nat.lt_succ_self _
  · rcases List.mem_append.mp hy with hy | hy
    · exact h.once y hy honce
    · rw [List.mem_singleton.mp hy] at honce
      cases honce
  · obtain ⟨hmem, hcontrol⟩ := mem_controlListeners.mp hy
    rcases List.mem_append.mp hmem with hmem | hmem
    · exact h.controls y (mem_controlListeners.mpr ⟨hmem, hcontrol⟩)
    · rw [List.mem_singleton.mp hmem]
      exact fun hspent => Nat.lt_irrefl _ (h.spent_given _ hspent)

/-- The number of a listener that is called once is spent from the first. -/
theorem Numbered.listen_once (h : Numbered spent l) (place : Target) (type : String) (capture passive : Bool)
    {x : Handler} (hx : x.ofControl = false) :
    Numbered (l.nextListener :: spent) (l.listen place type capture passive true x) := by
  refine ⟨fun y hy => ?_, fun n hn => ?_, fun y hy honce => ?_, fun y hy => ?_⟩
  · rcases List.mem_append.mp hy with hy | hy
    · exact Nat.lt_succ_of_lt (h.given y hy)
    · rw [List.mem_singleton.mp hy]
      exact Nat.lt_succ_self _
  · rcases List.mem_cons.mp hn with rfl | hn
    · exact Nat.lt_succ_self _
    · exact Nat.lt_succ_of_lt (h.spent_given n hn)
  · rcases List.mem_append.mp hy with hy | hy
    · exact List.mem_cons_of_mem _ (h.once y hy honce)
    · rw [List.mem_singleton.mp hy]
      exact List.mem_cons_self
  · rw [controlListeners_listen hx] at hy
    have hgiven := h.given y (mem_controlListeners.mp hy).1
    exact List.not_mem_cons_of_ne_of_not_mem (Nat.ne_of_lt hgiven) (h.controls y hy)

/-! ### What leaves the overlay attended -/

/-- For the overlay, one live page is as good as the other: it offers the same toggles to the same anchors, with the
    same listeners on the controls. -/
structure Attends (l m : Live) : Prop where
  page : Offers l.page m.page
  anchors : m.overlay.map (·.anchors) = l.overlay.map (·.anchors)
  controls : m.controlListeners = l.controlListeners
  numbered : ∀ spent, Numbered spent l → Numbered spent m

namespace Attends

theorem trans (h : Attends l m) (h' : Attends m r) : Attends l r where
  page := h.page.trans h'.page
  anchors := h'.anchors.trans h.anchors
  controls := h'.controls.trans h.controls
  numbered spent hl := h'.numbered spent (h.numbered spent hl)

theorem heard (hpage : Offers l.page m.page) (hoverlay : m.overlay.map (·.anchors) = l.overlay.map (·.anchors))
    (hlisteners : m.listeners = l.listeners) (hnext : m.nextListener = l.nextListener) : Attends l m where
  page := hpage
  anchors := hoverlay
  controls := by
    unfold controlListeners
    rw [hlisteners]
  numbered _ hl := hl.fewer (fun x hx => hlisteners ▸ hx) hnext

theorem refl (l : Live) : Attends l l := heard (.refl _) rfl rfl rfl

theorem listen (l : Live) (place : Target) (type : String) (capture passive : Bool) {x : Handler}
    (hx : x.ofControl = false) : Attends l (l.listen place type capture passive false x) where
  page := .refl _
  anchors := rfl
  controls := controlListeners_listen hx
  numbered _ hl := hl.listen place type capture passive x

theorem unlisten (l : Live) {drop : Handler → Bool} (hdrop : ∀ x, x.ofControl = true → drop x = false) :
    Attends l (l.unlisten drop) where
  page := .refl _
  anchors := rfl
  controls := by
    unfold controlListeners Live.unlisten
    rw [List.filter_filter]
    refine List.filter_congr fun x _ => ?_
    cases hx : x.handler.ofControl with
    | false => rfl
    | true => rw [hdrop _ hx, Bool.not_false, Bool.and_true]
  numbered _ hl := hl.fewer (fun x hx => (List.mem_filter.mp hx).1) rfl

theorem unsubscribe (l : Live) (k : Nat) : Attends l (l.unlisten (Handler.onDocument k)) := by
  refine unlisten l fun x hx => ?_
  cases x with
  | control name => rfl
  | _ => cases hx

theorem subscribe (l : Live) (k : Nat) : Attends l (l.subscribe k) := by
  refine trans (unsubscribe l k) ?_
  refine trans (listen _ .document "pointerdown" true true (x := .documentPointer k) rfl) ?_
  exact listen _ .document "keydown" true true (x := .documentKey k) rfl

/-! ### Work of the overlay -/

theorem armTeardown (l : Live) (o : Overlay) : Attends l (l.armTeardown o) := by
  have hended : Attends l (l.unlisten (· = .transitionEnd)) := by
    refine unlisten l fun x hx => ?_
    cases x with
    | control name => rfl
    | _ => cases hx
  have hlistening := listen (l.unlisten (· = .transitionEnd)) (.element o.anchors.overlay) "transitionend" false true
    (x := .transitionEnd) rfl
  exact (hended.trans hlistening).trans (heard (.refl _) rfl rfl rfl)

theorem assignCookie (l : Live) (assignment : String) : Attends l (l.assignCookie assignment) := by
  unfold Live.assignCookie
  split
  · split
    · exact heard (.of_elements rfl rfl fun hlegible => hlegible.store assignment _) rfl rfl rfl
    · exact heard (.refl _) rfl rfl rfl
  · exact refl l

theorem persist (l : Live) (c : Cookie) (r : Record) : Attends l (l.persist c r) := by
  unfold Live.persist
  split
  · exact heard (.of_elements rfl rfl id) rfl rfl rfl
  · exact assignCookie l _

theorem applyOverlay (h : Seated u l) (e : Effect) : Attends l (l.applyOverlay e) := by
  cases ho : l.overlay with
  | none =>
    unfold Live.applyOverlay
    rw [ho]
    exact refl l
  | some o =>
    obtain ⟨hsettings, -⟩ := h.overlay o ho
    by_cases hpersist : ∃ r, e = .persist r
    · obtain ⟨r, rfl⟩ := hpersist
      unfold Live.applyOverlay
      rw [ho]
      exact persist l o.cookie r
    · have hafter : Attends l { l with page := o.after l.page e } :=
        heard (.after_overlay h.page hsettings e) rfl rfl rfl
      rw [applyOverlay_edits ho hsettings fun r heq => hpersist ⟨r, heq⟩]
      split
      · exact hafter.trans (armTeardown _ o)
      · exact hafter

theorem callOverlay (h : Seated u l) (f : Session → Session × List Effect) : Attends l (l.callOverlay f) := by
  have hwork : ∀ (es : List Effect) {m : Live}, Seated u m → Attends m (es.foldl Live.applyOverlay m) := by
    intro es
    induction es with
    | nil => exact fun _ => refl _
    | cons e es ih => exact fun hm => (applyOverlay hm e).trans (ih (hm.applyOverlay e))
  unfold Live.callOverlay
  split
  · exact refl l
  · next o ho =>
    dsimp only
    obtain ⟨log, hlog⟩ := foldl_noteRecord { l with overlay := some { o with session := (f o.session).1 } } (f o.session).2
    rw [hlog]
    have hnoted : Attends l { l with overlay := some { o with session := (f o.session).1 }, log } :=
      heard (.refl _) (by rw [ho]; rfl) rfl rfl
    refine hnoted.trans (hwork _ ⟨h.page, h.surroundings, h.selects, h.apart, h.listeners, fun o' ho' => ?_⟩)
    obtain rfl := Option.some.inj ho'
    exact h.overlay o ho

theorem pressControl (h : Seated u l) (name : String) : Attends l (l.pressControl name) := by
  unfold Live.pressControl
  split
  · exact refl l
  · dsimp only
    split
    · exact refl l
    · exact callOverlay h _

/-! ### New selects -/

theorem listenActive (l : Live) (place : Nat) (type : String) {x : Handler} (hx : x.ofControl = false) :
    Attends l (l.listenActive place type x) := listen l (.element place) type false false hx

theorem bind (l : Live) (k : Nat) (parts : Parts) : Attends l (l.bind k parts) := by
  have hitems : ∀ (items : List (Nat × Nat)) (m : Live), Attends m (items.foldl (bindItem k) m) := by
    intro items
    induction items with
    | nil => exact refl
    | cons item items ih =>
      intro m
      have hclick := listenActive m item.1 "click" (x := .itemClick k item.2) rfl
      have hhover := listenActive (m.listenActive item.1 "click" (.itemClick k item.2)) item.1 "mouseenter"
        (x := .itemHover k item.2) rfl
      exact (hclick.trans hhover).trans (ih _)
  refine trans (listenActive l parts.trigger "click" (x := .triggerClick k) rfl) ?_
  refine trans (listenActive _ parts.trigger "keydown" (x := .triggerKey k) rfl) ?_
  refine trans (listenActive _ parts.menu "keydown" (x := .menuKey k) rfl) ?_
  refine trans (listenActive _ parts.native "change" (x := .nativeChange k) rfl) ?_
  exact hitems parts.items.zipIdx _

end Attends

/-- Work that is edits alone changes nothing but the page. -/
theorem foldl_applySelect {w : Select} (hw : l.selects[k]? = some w) (hs : w.settings = {}) (es : List Listbox.Effect)
    (hes : ∀ e ∈ es, e ≠ .listen ∧ e ≠ .unlisten ∧ e ≠ .notify) (announce : Live → Nat → Live) :
    es.foldl (applySelect announce k) l = { l with page := es.foldl w.after l.page } := by
  induction es generalizing l with
  | nil => rfl
  | cons e es ih =>
    rw [List.foldl_cons, applySelect_eq hw hs (hes e List.mem_cons_self)]
    exact ih (l := { l with page := w.after l.page e }) hw fun d hd => hes d (List.mem_cons_of_mem e hd)

/-- Enhancing a wrapper changes the page, the selects and the log, and may listen to a new select. -/
theorem enhance_eq (l : Live) (wrapper : Nat) : ∃ q selects log, Labelled l.page q ∧
    ((l.enhance wrapper {}).1 = { l with page := q, selects, log } ∨ ∃ k parts,
      (l.enhance wrapper {}).1 = ({ l with page := q, selects, log } : Live).bind k parts) := by
  unfold enhance
  split
  · exact ⟨l.page, l.selects, _, Labelled.refl _, .inl rfl⟩
  · split
    · exact ⟨l.page, l.selects, l.log, Labelled.refl _, .inl rfl⟩
    · split
      · exact ⟨l.page, l.selects, _, Labelled.refl _, .inl rfl⟩
      · next native _ =>
        dsimp only
        split
        · exact ⟨l.page, l.selects, _, Labelled.refl _, .inl rfl⟩
        · split
          · exact ⟨l.page, l.selects, l.log, Labelled.refl _, .inl rfl⟩
          · have hrendered := Labelled.render l.page wrapper native (entriesOf l.page native)
            split
            · next f q heq =>
              rw [heq] at hrendered
              exact ⟨q, l.selects, l.log, hrendered, .inl rfl⟩
            · next parts q heq =>
              rw [heq] at hrendered
              let s := Listbox.State.ofEntries (entriesOf l.page native)
              let w : Select := ⟨parts, {}, s⟩
              let es := s.initialEffects (q.selectedIndex parts.native)
              have hedits : ∀ e ∈ es, e ≠ .listen ∧ e ≠ .unlisten ∧ e ≠ .notify := fun _ he => s.initialEffects_quiet he
              have hwork := foldl_applySelect (l := { l with page := q, selects := l.selects ++ [w] })
                (w := w) List.getElem?_concat_length rfl es hedits announceChange
              refine ⟨es.foldl w.after q, l.selects ++ [w], l.log, hrendered.trans (.foldl_after rfl q es), .inr
                ⟨l.selects.length, parts, ?_⟩⟩
              exact congrArg (fun m : Live => m.bind l.selects.length parts) hwork

theorem Attends.enhance (h : Seated u l) {wrapper : Nat} (hwrapper : wrapper ∈ Node.idsOf l.page.trees)
    (hmarker : (l.page.element wrapper).hasAttr "data-retention-select" = true) :
    Attends l (l.enhance wrapper {}).1 := by
  obtain ⟨-, hhosts⟩ := h.enhance hwrapper hmarker
  obtain ⟨q, selects, log, hlabelled, heq | ⟨k, parts, heq⟩⟩ := enhance_eq l wrapper
  · rw [heq] at hhosts ⊢
    exact heard (hlabelled.offers hhosts) rfl rfl rfl
  · rw [heq] at hhosts ⊢
    rw [page_bind] at hhosts
    have hmade : Attends l { l with page := q, selects, log } := heard (hlabelled.offers hhosts) rfl rfl rfl
    exact hmade.trans (bind _ k parts)

/-! ### Work of selects -/

/-- What selects do besides, the overlay does not notice: not its session, not the jar and the clock, not the boxes. -/
structure Bypasses (l m : Live) : Prop where
  attends : Attends l m
  overlay : m.overlay = l.overlay
  jar : m.page.jar = l.page.jar
  untouched : Untouched l m

/-- The program does nothing else to announce a change than what bypasses the overlay. -/
def Bypassing (announce : Live → Nat → Live) : Prop := ∀ u l native, Seated u l → Bypasses l (announce l native)

namespace Bypasses

variable {announce : Live → Nat → Live}

theorem refl (l : Live) : Bypasses l l := ⟨.refl l, rfl, rfl, rfl, fun _ => rfl⟩

theorem trans (h : Bypasses l m) (h' : Bypasses m r) : Bypasses l r :=
  ⟨h.attends.trans h'.attends, h'.overlay.trans h.overlay, h'.jar.trans h.jar, h.untouched.trans h'.untouched⟩

theorem edited {q : Page} (hoffers : Offers l.page q) (hedited : Edited l.page q) : Bypasses l { l with page := q } :=
  ⟨.heard hoffers rfl rfl rfl, rfl, hedited.jar, hedited.now, hedited.checked⟩

theorem applySelect (hann : Bypassing announce) (h : Seated u l) (k : Nat) (e : Listbox.Effect) :
    Bypasses l (applySelect announce k l e) := by
  cases hw : l.selects[k]? with
  | none =>
    unfold Live.applySelect
    rw [hw]
    exact refl l
  | some w =>
    obtain ⟨hsettings, hseat, -⟩ := h.selects w (List.mem_of_getElem? hw)
    by_cases hedit : e ≠ .listen ∧ e ≠ .unlisten ∧ e ≠ .notify
    · rw [applySelect_eq hw hsettings hedit]
      exact edited (.after_select h.page hsettings hseat.fits.leaf e) (w.edited_after l.page e)
    · unfold Live.applySelect
      rw [hw]
      cases e with
      | listen => exact ⟨.subscribe l k, rfl, rfl, rfl, fun _ => rfl⟩
      | unlisten => exact ⟨.unsubscribe l k, rfl, rfl, rfl, fun _ => rfl⟩
      | notify =>
        let q : Page := { l.page with calls := l.page.calls ++ [.announce "change" w.parts.native] }
        have hcalled : Bypasses l { l with page := q } :=
          ⟨.heard (.of_elements rfl rfl id) rfl rfl rfl, rfl, rfl, rfl, fun _ => rfl⟩
        exact hcalled.trans (hann u _ _ (h.aside (q := q) rfl rfl rfl rfl))
      | _ => exact absurd ⟨nofun, nofun, nofun⟩ hedit

theorem setState (l : Live) (k : Nat) (s : Listbox.State) : Bypasses l (l.setState k s) :=
  ⟨.heard (.refl _) rfl rfl rfl, rfl, rfl, rfl, fun _ => rfl⟩

theorem work (hseating : Seating announce) (hann : Bypassing announce) (h : Seated u l) (k : Nat)
    (es : List Listbox.Effect) : Bypasses l (es.foldl (Live.applySelect announce k) l) := by
  induction es generalizing l with
  | nil => exact refl l
  | cons e es ih => exact (applySelect hann h k e).trans (ih (h.applySelect hseating k e))

theorem callSelect (hseating : Seating announce) (hann : Bypassing announce) (h : Seated u l) (k : Nat)
    (op : Listbox.Operation) : Bypasses l (l.callSelect announce k (·.perform op)) := by
  unfold Live.callSelect
  split
  · exact refl l
  · next w hw => exact (setState l k _).trans (work hseating hann (h.answered hw op) k _)

theorem handle (hseating : Seating announce) (hann : Bypassing announce) (h : Seated u l)
    (ready : Bool → Live → Live) (event : Event) {x : Handler} (hx : x.OfSelect) :
    Seated u (Live.handle announce ready event x l).1 ∧ Bypasses l (Live.handle announce ready event x l).1 := by
  have hcases : (Live.handle announce ready event x l).1 = l ∨
      ∃ k op, (Live.handle announce ready event x l).1 = l.callSelect announce k (·.perform op) := handle_cases hx
  rcases hcases with heq | ⟨k, op, heq⟩
  · rw [heq]
    exact ⟨h, refl l⟩
  · rw [heq]
    exact ⟨h.callSelect hseating k op, callSelect hseating hann h k op⟩

end Bypasses

/-- A listener hears its kind of events, and only that for the complete document is called once. -/
def Usual (x : Listener) : Prop := x.type = x.handler.hears ∧ (x.once = true → x.type = "DOMContentLoaded")

theorem usual_of_seated (h : Seated u l) {x : Listener} (hx : x ∈ l.listeners) : Usual x :=
  ⟨(h.listeners x hx).type, (h.listeners x hx).lasting⟩

theorem Usual.lasting {x : Listener} (h : Usual x) {type : String} (htype : x.type = type)
    (hother : type ≠ "DOMContentLoaded") : x.once = false := by
  rw [Bool.eq_false_iff]
  intro honce
  exact hother (htype.symm.trans (h.2 honce))

/-- A change that is announced is heard by selects alone. -/
theorem bypassing_announceChange : Bypassing announceChange := by
  intro u l native h
  have kept : Kept (handle (fun l _ => l) fun _ l => l) (changeOf native) (l.page.stops (changeOf native))
      (fun m => Seated u m ∧ Bypasses l m) Usual := by
    refine ⟨fun m hm x hx => usual_of_seated hm.1 hx, fun m x _ hx hears honce => ?_, fun m x hm hx hears => ?_⟩
    · have htype : x.type = "change" := hears.1
      rw [hx.lasting htype (by decide)] at honce
      cases honce
    · obtain ⟨k, hk⟩ := nativeChange_of_hears (hx.1.symm.trans hears.1)
      have hselect : x.handler.OfSelect := by
        rw [hk]
        trivial
      obtain ⟨hseated, hbypasses⟩ := Bypasses.handle (fun _ _ _ hl => hl) (fun _ l _ _ => .refl l) hm.1 (fun _ l => l)
        (changeOf native) hselect
      exact ⟨hseated, hm.2.trans hbypasses⟩
  exact (deliver_keeps kept ⟨h, .refl l⟩).2

end Live

/-! ### The overlay at work -/

/-- The overlay works with the toggles that are below it, and each of its controls is listened to. -/
structure Anchors.Served (a : Anchors) (l : Live) : Prop where
  known : a.overlay < l.page.elements.length
  toggles : a.toggles = togglesBelow l.page a.overlay
  controls : List.Forall₂ (fun x c => x = Live.controlListener x.id c) l.controlListeners a.controls
  named : ∀ c ∈ a.controls, ∀ d ∈ a.controls, c.2 = d.2 → c.1 = d.1

theorem Anchors.Served.goes {a : Anchors} {l m : Live} (h : a.Served l) (hm : l.Attends m) : a.Served m where
  known := Nat.lt_of_lt_of_le h.known hm.page.length
  toggles := h.toggles.trans (hm.page.toggles _ h.known).symm
  controls := by
    rw [hm.controls]
    exact h.controls
  named := h.named

/-- A live page with seated selects, a jar that can be read, and an overlay that is served. -/
structure Attended (u : Surroundings) (spent : List Nat) (l : Live) : Prop where
  seated : Seated u l
  legible : l.page.jar.Legible
  numbered : l.Numbered spent
  overlay : ∀ o, l.overlay = some o → o.anchors.Served l

namespace Attended

open Live

variable {u : Surroundings} {spent : List Nat} {l m : Live} {announce : Live → Nat → Live}

theorem goes (h : Attended u spent l) (hm : Seated u m) (hattends : Attends l m) : Attended u spent m where
  seated := hm
  legible := hattends.page.legible h.legible
  numbered := hattends.numbered spent h.numbered
  overlay o ho := by
    have hanchors := hattends.anchors
    rw [ho] at hanchors
    obtain ⟨o', ho', heq⟩ := Option.map_eq_some_iff.mp hanchors.symm
    have hsame : o'.anchors = o.anchors := heq
    rw [← hsame]
    exact (h.overlay o' ho').goes hattends

/-- The same page with the same listeners. -/
theorem heard (h : Attended u spent l) (hm : Seated u m) (hpage : m.page = l.page) (hoverlay : m.overlay = l.overlay)
    (hlisteners : m.listeners = l.listeners) (hnext : m.nextListener = l.nextListener) : Attended u spent m :=
  h.goes hm (.heard (hpage ▸ .refl _) (by rw [hoverlay]) hlisteners hnext)

theorem write (h : Attended u spent l) (level : Level) (part text : String) : Attended u spent (l.write level part text) :=
  h.heard (h.seated.write level part text) rfl rfl rfl rfl

theorem callOverlay (h : Attended u spent l) (f : Session → Session × List Effect) : Attended u spent (l.callOverlay f) :=
  h.goes (h.seated.callOverlay f) (.callOverlay h.seated f)

/-! ### Setting up -/

theorem anchored (h : Attended u spent l) {a : Anchors} {overlay : Nat} (hknown : overlay < l.page.elements.length)
    (ha : Anchors.collect l.page overlay {} = .ok (some a)) : Attended u spent (l.anchored a) := by
  have hseated := h.seated.anchored (h.seated.sparesTriggers ha)
  have hnumbered : ∀ (controls : List (String × Nat)) (m : Live), Numbered spent m →
      Numbered spent (controls.foldl (fun l c => l.listenPassive "click" (c.2, .control c.1)) m) := by
    intro controls
    induction controls with
    | nil => exact fun _ hm => hm
    | cons c controls ih => exact fun m hm => ih _ (hm.listen _ _ _ _ _)
  have hfirst : Numbered spent (l.anchored a) :=
    hnumbered a.controls _ (h.numbered.fewer (fun x hx => (List.mem_filter.mp hx).1) rfl)
  obtain ⟨base, next, hcontrols, heq⟩ := anchored_eq l a
  rw [heq] at hseated hfirst ⊢
  refine ⟨hseated, h.legible, hfirst, fun o ho => ?_⟩
  obtain rfl := Option.some.inj ho
  refine ⟨Anchors.overlay_of_collect ha ▸ hknown, ?_, ?_, fun c hc d hd => Anchors.controls_of_collect ha hc hd⟩
  · rw [Anchors.overlay_of_collect ha]
    exact Anchors.toggles_of_collect ha
  · have hgone : (l.unlisten Handler.ofOverlay).listeners.filter (fun x => x.handler.ofControl) = [] := by
      rw [List.filter_eq_nil_iff]
      intro x hx hcontrol
      have hstays := (List.mem_filter.mp hx).2
      cases hhandler : x.handler with
      | control name => simp [hhandler, Handler.ofOverlay] at hstays
      | _ => simp [hhandler, Handler.ofControl] at hcontrol
    have hbase : base.filter (fun x => x.handler.ofControl) = base := by
      rw [List.filter_eq_self]
      intro x hx
      obtain ⟨c, -, hcontrol⟩ := exists_control hcontrols hx
      rw [hcontrol]
      rfl
    unfold controlListeners
    rw [List.filter_append, hgone, hbase]
    exact hcontrols

theorem startOverlay (h : Attended u spent l) {a : Anchors} {overlay : Nat} (hknown : overlay < l.page.elements.length)
    (ha : Anchors.collect l.page overlay {} = .ok (some a)) : Attended u spent (l.startOverlay a {}) :=
  (h.anchored hknown ha).callOverlay (·.show_)

theorem initConsent (h : Attended u spent l) : Attended u spent (l.initConsent {}).1 := by
  unfold Live.initConsent
  split
  · exact h
  · split
    · exact h.write _ _ _
    · next overlay hoverlay =>
      split
      · exact h.write _ _ _
      · split
        · exact h.write _ _ _
        · exact h.write _ _ _
        · next a ha =>
          exact h.startOverlay (h.seated.page.documentElements (mem_documentElements_of_byId? hoverlay)) ha

theorem initSelects (h : Attended u spent l) : Attended u spent (l.initSelects {}).1 :=
  (h.seated.initSelects_keeps (P := Attended u spent) (fun _ _ _ _ hl => hl.write _ _ _)
    (fun _ _ hseated hwrapper hmarker hl =>
      hl.goes (hseated.enhance hwrapper hmarker).1 (.enhance hseated hwrapper hmarker))
    h).2

theorem whenReady (h : Attended u spent l) (test : Bool) : Attended u spent (whenReady test l) := by
  have hinit : Attended u spent l.init.1 := h.initConsent.initSelects.write _ _ _
  have hinstall : Attended u spent l.init.1.install := by
    unfold Live.install
    split
    · exact hinit
    · split
      · exact hinit.write _ _ _
      · exact hinit.heard (hinit.seated.heard rfl rfl (fun _ hx => .inl hx) rfl) rfl rfl rfl rfl
  unfold Live.whenReady
  cases test
  · exact hinit
  · exact hinstall

/-! ### Events -/

theorem handle (hseating : Seating announce) (hann : Bypassing announce) {ready : Bool → Live → Live}
    (hready : ∀ test m, Attended u spent m → Attended u spent (ready test m)) (event : Event) (x : Handler)
    (h : Attended u spent l) : Attended u spent (Live.handle announce ready event x l).1 := by
  have hselect : x.OfSelect → Attended u spent (Live.handle announce ready event x l).1 := by
    intro hx
    obtain ⟨hseated, hbypasses⟩ := Bypasses.handle hseating hann h.seated ready event hx
    exact h.goes hseated hbypasses.attends
  cases x with
  | ready test => exact hready test l h
  | control name => exact h.goes (h.seated.pressControl name) (.pressControl h.seated name)
  | transitionEnd =>
    dsimp only [Live.handle]
    split
    · exact h
    · dsimp only
      split
      · exact h.callOverlay _
      · exact h
  | _ => exact hselect trivial

/-- No control goes with a listener that is called once. -/
theorem without (h : Attended u spent l) {x : Listener} (hx : x.id ∈ spent) : Attended u spent (l.without x) := by
  have hsub : ∀ y ∈ (l.without x).listeners, y ∈ l.listeners := fun y hy => (List.mem_filter.mp hy).1
  have hcontrols : (l.without x).controlListeners = l.controlListeners := by
    unfold controlListeners Live.without
    rw [List.filter_filter]
    refine List.filter_congr fun y hy => ?_
    cases hcontrol : y.handler.ofControl with
    | false => rfl
    | true =>
      have hother : y.id ≠ x.id := by
        intro heq
        exact h.numbered.controls y (mem_controlListeners.mpr ⟨hy, hcontrol⟩) (heq ▸ hx)
      rw [Bool.true_and, decide_eq_true hother]
  exact h.goes (h.seated.heard rfl rfl (fun y hy => .inl (hsub y hy)) rfl)
    ⟨.refl _, rfl, hcontrols, fun _ hl => hl.fewer hsub rfl⟩

theorem dispatch (h : Attended u spent l) (event : Event) : Attended u spent (l.dispatch event).1 := by
  -- A listener that is called once goes before its call. Its number is spent, so no control goes with it.
  refine deliver_keeps (I := fun x => x.once = true → x.id ∈ spent)
    ⟨fun m hm => hm.numbered.once, fun m x hm hx _ honce => hm.without (hx honce), fun m x hm _ _ => ?_⟩ h
  exact hm.handle Seated.seating_announceChange bypassing_announceChange (fun test _ hl => hl.whenReady test) event
    x.handler

/-! ### What happens -/

theorem flip (h : Attended u spent l) (id : Nat) : Attended u spent (l.flip id) :=
  h.goes (h.seated.flip id) (.heard (.of_alike (.modify fun _ => ⟨rfl, rfl, rfl⟩)) rfl rfl rfl)

theorem meet (h : Attended u spent l) (o : Occasion) : Attended u spent (l.meet o) := by
  cases o with
  | click id =>
    show Attended u spent (l.click id).1
    unfold Live.click
    dsimp only
    split
    · exact h
    · split
      · split
        · exact ((h.flip id).dispatch _).flip id
        · exact (h.flip id).dispatch _
      · exact h.dispatch _
  | event e => exact h.dispatch e
  | pick native index =>
    show Attended u spent (l.pick native index).1
    unfold Live.pick
    dsimp only
    split
    · have halike := alike_choose l.page native index
      have hseated := h.seated.hosted (.of_alike h.seated.page halike) halike.surroundings
      exact (h.goes hseated (.heard (.of_alike halike) rfl rfl rfl)).dispatch _
    · exact h.dispatch _
  | pass ms =>
    have hlater : ∀ {l : Live} (now : Instant), Attended u spent l →
        Attended u spent { l with page := { l.page with now } } :=
      fun now hl => hl.goes (hl.seated.aside rfl rfl rfl rfl) (.heard (.of_elements rfl rfl id) rfl rfl rfl)
    have htimer : ∀ {l : Live}, Attended u spent l → Attended u spent l.fireTimer := fun {l} hl =>
      callOverlay (l := { l with timer := none })
        (hl.heard (hl.seated.heard rfl rfl (fun _ hx => .inl hx) rfl) rfl rfl rfl rfl) _
    show Attended u spent (l.advance ms)
    unfold Live.advance
    dsimp only
    split
    · split
      · exact hlater _ (htimer (hlater _ h))
      · exact hlater _ h
    · exact hlater _ h

theorem assignCookie (h : Attended u spent l) (assignment : String) : Attended u spent (l.assignCookie assignment) :=
  h.goes (h.seated.assignCookie assignment) (.assignCookie l assignment)

theorem callHook (h : Attended u spent l) (c : HookCall) : Attended u spent (l.callHook c).1 := by
  cases c with
  | state => exact h
  | reset =>
    dsimp only [Live.callHook]
    split
    · exact h.assignCookie _
    · exact h
  | enhance => exact h.initSelects

/-- The listener for the complete document is called once: its number is spent. -/
theorem start (h : Attended u spent l) : ∃ spent', Attended u spent' l.start := by
  have hlevel : ∀ level, Attended u spent (l.setLevel level) := fun level =>
    h.heard (h.seated.heard rfl rfl (fun _ hx => .inl hx) rfl) rfl rfl rfl rfl
  have hseated := h.seated.start
  unfold Live.start at hseated ⊢
  dsimp only at hseated ⊢
  generalize (if l.testMode = true then Level.debug else Level.info) = level at hseated ⊢
  split
  · exact ⟨spent, hlevel level⟩
  · split
    · next hdocument hloading =>
      rw [if_neg hdocument, if_pos hloading] at hseated
      have h' := hlevel level
      refine ⟨(l.setLevel level).nextListener :: spent, hseated, h'.legible,
        h'.numbered.listen_once .document "DOMContentLoaded" false true (x := .ready l.testMode) rfl, fun o ho => ?_⟩
      have hserved := h'.overlay o ho
      refine ⟨hserved.known, hserved.toggles, ?_, hserved.named⟩
      rw [controlListeners_listen (x := .ready l.testMode) rfl]
      exact hserved.controls
    · exact ⟨spent, (hlevel level).whenReady _⟩

theorem complete (h : Attended u spent l) : Attended u spent l.complete := by
  have hdone : Attended u spent { l with page := { l.page with loading := false } } :=
    h.goes (h.seated.aside rfl rfl rfl rfl) (.heard (.of_elements rfl rfl id) rfl rfl rfl)
  exact hdone.dispatch _

theorem deed (h : Attended u spent l) (d : Deed) : ∃ spent', Attended u spent' (l.deed d) := by
  cases d with
  | start => exact h.start
  | complete => exact ⟨spent, h.complete⟩
  | consent => exact ⟨spent, h.initConsent⟩
  | hook c => exact ⟨spent, h.callHook c⟩
  | occasion o => exact ⟨spent, h.meet o⟩

theorem check (h : Attended u spent l) (id : Nat) (on : Bool) : Attended u spent (l.check id on) := by
  unfold Live.check
  split
  · have halike : Alike l.page (l.page.modify id fun x => { x with checked := on }) := .modify fun _ => ⟨rfl, rfl, rfl⟩
    exact h.goes (h.seated.hosted (.of_alike h.seated.page halike) rfl) (.heard (.of_alike halike) rfl rfl rfl)
  · exact h

end Attended

/-! ### Histories with boxes and cookies -/

/-- What comes about on a live page: a deed, a box that is checked or cleared without a click, or a cookie that somebody
    else assigns. -/
inductive Turn where
  | deed (d : Deed)
  | check (id : Nat) (on : Bool)
  | cookie (assignment : String)
  deriving DecidableEq, Repr

namespace Live

/-- The live page after a turn. -/
def turn (l : Live) : Turn → Live
  | .deed d => l.deed d
  | .check id on => l.check id on
  | .cookie assignment => l.assignCookie assignment

def turnAll (l : Live) (ts : List Turn) : Live := ts.foldl turn l

variable {u : Surroundings} {spent : List Nat} {l : Live} {p : Page}

theorem attended_ofPage (hp : p.WellFormed) (hjar : p.jar.Legible) : Attended p.surroundings [] (ofPage p) :=
  ⟨seated_ofPage hp, hjar, ⟨fun _ hx => absurd hx List.not_mem_nil, fun _ hn => absurd hn List.not_mem_nil,
    fun _ hx => absurd hx List.not_mem_nil, fun _ hx => absurd hx List.not_mem_nil⟩, fun _ => nofun⟩

/-- Every history leaves the overlay attended. -/
theorem attended_turnAll (hp : p.WellFormed) (hjar : p.jar.Legible) (ts : List Turn) :
    ∃ spent, Attended p.surroundings spent ((ofPage p).turnAll ts) := by
  -- The induction is on the turns, for every list of spent numbers: starting may spend one more.
  have hrun : ∀ {l : Live} {spent : List Nat}, Attended p.surroundings spent l →
      ∃ spent', Attended p.surroundings spent' (l.turnAll ts) := by
    induction ts with
    | nil => exact fun h => ⟨_, h⟩
    | cons t ts ih =>
      intro l spent h
      have hturn : ∃ spent', Attended p.surroundings spent' (l.turn t) := by
        cases t with
        | deed d => exact h.deed d
        | check id on => exact ⟨spent, h.check id on⟩
        | cookie assignment => exact ⟨spent, h.assignCookie assignment⟩
      obtain ⟨spent', hnext⟩ := hturn
      exact ih hnext
  exact hrun (attended_ofPage hp hjar)

end Live
end Widget
end PageWidgets
