import Mathlib.Logic.Function.Basic
import PageWidgets.Proofs.Listbox.Announcements
import PageWidgets.Proofs.Widget.Delivery
import PageWidgets.Proofs.Widget.SelectFace

/-! Enhanced selects at work. While the work of one is carried out, the page lags behind its listbox by the work that is
    still due; everyone else's page is in step (`Live.InStep`). A choice is announced in the middle of its work, and
    whoever listens to the announcement answers at once: that keeps the page in step up to the work that is due, so
    delivering any event, nested or not, keeps it in step. -/

namespace PageWidgets
namespace Widget

open Listbox Page

/-! ### Listeners -/

namespace Handler

/-- The type of the events that a handler is about. -/
def hears : Handler → String
  | .ready _ => "DOMContentLoaded"
  | .control _ | .triggerClick _ | .itemClick _ _ => "click"
  | .transitionEnd => "transitionend"
  | .triggerKey _ | .menuKey _ | .documentKey _ => "keydown"
  | .nativeChange _ => "change"
  | .itemHover _ _ => "mouseenter"
  | .documentPointer _ => "pointerdown"

/-- Does the handler belong to a select? -/
def OfSelect : Handler → Prop
  | .ready _ | .control _ | .transitionEnd => False
  | _ => True

/-- The select that a handler belongs to. -/
def owner? : Handler → Option Nat
  | .triggerClick k | .triggerKey k | .menuKey k | .nativeChange k | .itemClick k _ | .itemHover k _
  | .documentPointer k | .documentKey k => some k
  | .ready _ | .control _ | .transitionEnd => none

theorem exists_owner {h : Handler} (hs : h.OfSelect) : ∃ k, h.owner? = some k := by
  cases h with
  | ready test => exact False.elim hs
  | control name => exact False.elim hs
  | transitionEnd => exact False.elim hs
  | _ => exact ⟨_, rfl⟩

/-- Does the handler only follow what happens elsewhere: to the native select, or on the whole document? -/
def Follows : Handler → Prop
  | .nativeChange _ | .documentPointer _ | .documentKey _ => True
  | _ => False

theorem not_onDocument_of_ne {j k : Nat} (hjk : j ≠ k) {h : Handler} (hj : h.onDocument j = true) :
    h.onDocument k = false := by
  unfold onDocument at hj ⊢
  cases h <;> simp at hj ⊢ <;> omega

end Handler

/-- A listener of a select, which stays until it is removed. -/
structure Listener.Attentive (x : Listener) : Prop where
  lasting : x.once = false
  type : x.type = x.handler.hears
  select : x.handler.OfSelect

/-- The listener of a select for pointers on the whole document. -/
def pointerListener (n k : Nat) : Listener := ⟨n, .document, "pointerdown", true, true, false, .documentPointer k⟩

/-- The listener of a select for keys on the whole document. -/
def keyListener (n k : Nat) : Listener := ⟨n, .document, "keydown", true, true, false, .documentKey k⟩

namespace Live

/-- The listeners of a select on the whole document. -/
def onDocument (l : Live) (k : Nat) : List Listener := l.listeners.filter fun x => x.handler.onDocument k

/-- A select listens to the whole document that many times: for pointers and for keys, or not at all. -/
inductive Subscribed (l : Live) (k : Nat) : Nat → Prop where
  | never (h : l.onDocument k = []) : l.Subscribed k 0
  | once {m n : Nat} (h : l.onDocument k = [pointerListener m k, keyListener n k]) : l.Subscribed k 1

section
variable {l : Live} {j k : Nat}

theorem onDocument_unlisten_self : (l.unlisten (Handler.onDocument k)).onDocument k = [] := by
  unfold onDocument unlisten
  rw [List.filter_filter, List.filter_eq_nil_iff]
  intro x _
  cases x.handler.onDocument k <;> simp

theorem onDocument_unlisten_of_ne (hjk : j ≠ k) : (l.unlisten (Handler.onDocument k)).onDocument j = l.onDocument j := by
  unfold onDocument unlisten
  rw [List.filter_filter]
  refine List.filter_congr fun x _ => ?_
  cases hj : x.handler.onDocument j
  · rfl
  · simp [Handler.not_onDocument_of_ne hjk hj]

theorem listeners_subscribe : ∃ m n, (l.subscribe k).listeners =
    (l.unlisten (Handler.onDocument k)).listeners ++ [pointerListener m k, keyListener n k] :=
  ⟨l.nextListener, l.nextListener + 1, by simp [subscribe, listen, unlisten, pointerListener, keyListener]⟩

theorem subscribed_subscribe : (l.subscribe k).Subscribed k 1 := by
  obtain ⟨m, n, h⟩ := listeners_subscribe (l := l) (k := k)
  refine .once (m := m) (n := n) ?_
  have hnone := onDocument_unlisten_self (l := l) (k := k)
  unfold onDocument at hnone ⊢
  rw [h, List.filter_append, hnone]
  simp [pointerListener, keyListener, Handler.onDocument]

theorem onDocument_subscribe_of_ne (hjk : j ≠ k) : (l.subscribe k).onDocument j = l.onDocument j := by
  obtain ⟨m, n, h⟩ := listeners_subscribe (l := l) (k := k)
  have hsame := onDocument_unlisten_of_ne (l := l) hjk
  unfold onDocument at hsame ⊢
  rw [h, List.filter_append, hsame]
  simp [pointerListener, keyListener, Handler.onDocument, Ne.symm hjk]

end

/-! ### In step -/

/-- The page shows a panel on those parts of a select. -/
structure Renders (l : Live) (k : Nat) (a : Parts) (entries : List Entry) (slack : Prop) (q : Panel) : Prop where
  opened : a.Opened slack q.expanded l.page
  subscribed : l.Subscribed k q.subscriptions
  reflected : a.Reflected entries q.shown l.page
  highlighted : a.Highlighted q.highlighted l.page

/-- The page of a select shows its state, up to the work that is due. -/
structure Showing (l : Live) (k : Nat) (w : Select) (slack : Prop) (due : List Effect) : Prop where
  settings : w.settings = {}
  fits : w.parts.Fits l.page
  items : w.parts.items.length = w.state.entries.length
  nonempty : w.state.entries ≠ []
  coherent : Coherent w.state.entries w.state
  shows : ∃ q q', l.Renders k w.parts w.state.entries slack q ∧ q.work due = some q' ∧ Shows q' w.state

/-- The page is in step with its selects, which have those parts, up to the work that is due for each of them. Only
    wrappers with slack may carry the class of an open menu while theirs is closed. -/
structure InStep (ps : List Parts) (slack : Nat → Prop) (due : Nat → List Effect) (l : Live) : Prop where
  page : l.page.WellFormed
  parts : l.selects.map (·.parts) = ps
  apart : ps.Pairwise Parts.Apart
  selects : ∀ k w, l.selects[k]? = some w → l.Showing k w (slack w.parts.wrapper) (due k)
  unmarked : ∀ id < l.page.elements.length, (∀ a ∈ ps, a.wrapper ≠ id) →
    (l.page.element id).hasClass "is-open" = true → slack id
  listeners : ∀ x ∈ l.listeners, x.Attentive
  unclaimed : ∀ k, ps.length ≤ k → l.onDocument k = []
  overlay : l.overlay = none
  timer : l.timer = none

section
variable {l m : Live} {j k : Nat} {w v : Select} {a : Parts} {ps : List Parts} {slack : Nat → Prop}
  {due : Nat → List Effect} {e : Effect} {rest es : List Effect} {q : Panel} {announce : Live → Nat → Live}

theorem Subscribed.congr {n : Nat} (h : l.Subscribed k n) (hdocument : m.onDocument k = l.onDocument k) :
    m.Subscribed k n := by
  cases h with
  | never hnone => exact .never (hdocument.trans hnone)
  | once hboth => exact .once (hdocument.trans hboth)

/-- On the same page, with the same listeners on the document, the same is shown. -/
theorem Renders.congr {entries : List Entry} {s : Prop} (h : l.Renders k a entries s q) (hpage : m.page = l.page)
    (hdocument : m.onDocument k = l.onDocument k) : m.Renders k a entries s q where
  opened := by rw [hpage]; exact h.opened
  subscribed := h.subscribed.congr hdocument
  reflected := by rw [hpage]; exact h.reflected
  highlighted := by rw [hpage]; exact h.highlighted

theorem Showing.congr {s : Prop} {es : List Effect} (h : l.Showing k w s es) (hpage : m.page = l.page)
    (hdocument : m.onDocument k = l.onDocument k) : m.Showing k w s es := by
  obtain ⟨q, q', hrenders, hwork, hshows⟩ := h.shows
  refine ⟨h.settings, ?_, h.items, h.nonempty, h.coherent, q, q', hrenders.congr hpage hdocument, hwork, hshows⟩
  rw [hpage]
  exact h.fits

theorem Renders.unmoved {entries : List Entry} {s : Prop} (h : l.Renders k a entries s q) (hf : a.Fits l.page)
    (hpage : Parts.Unmoved l.page m.page) (htext : m.page.textContent a.trigger = l.page.textContent a.trigger)
    (hdocument : m.onDocument k = l.onDocument k) : m.Renders k a entries s q where
  opened := h.opened.unmoved hf hpage
  subscribed := h.subscribed.congr hdocument
  reflected := h.reflected.unmoved hf hpage htext
  highlighted := h.highlighted.unmoved hf hpage

theorem getElem?_parts (hparts : l.selects.map (·.parts) = ps) (hw : l.selects[k]? = some w) : ps[k]? = some w.parts := by
  rw [← hparts, List.getElem?_map, hw]
  rfl

theorem apart_of_pairwise (hparts : l.selects.map (·.parts) = ps) (hapart : ps.Pairwise Parts.Apart) (hjk : j ≠ k)
    (hv : l.selects[j]? = some v) (hw : l.selects[k]? = some w) : v.parts.Apart w.parts := by
  have hpairs := List.pairwise_iff_getElem.mp hapart
  obtain ⟨hj, hvj⟩ := List.getElem?_eq_some_iff.mp (getElem?_parts hparts hv)
  obtain ⟨hk, hwk⟩ := List.getElem?_eq_some_iff.mp (getElem?_parts hparts hw)
  rw [← hvj, ← hwk]
  rcases Nat.lt_or_gt_of_ne hjk with hlt | hlt
  · exact hpairs j k hj hk hlt
  · exact (hpairs k j hk hj hlt).symm

theorem exists_select (hparts : l.selects.map (·.parts) = ps) (ha : ps[k]? = some a) :
    ∃ w, l.selects[k]? = some w ∧ w.parts = a := by
  rw [← hparts, List.getElem?_map] at ha
  exact Option.map_eq_some_iff.mp ha

theorem InStep.parts_of_select (h : InStep ps slack due l) (hw : l.selects[k]? = some w) : ps[k]? = some w.parts :=
  getElem?_parts h.parts hw

theorem InStep.apart_of_ne (h : InStep ps slack due l) (hjk : j ≠ k) (hv : l.selects[j]? = some v)
    (hw : l.selects[k]? = some w) : v.parts.Apart w.parts :=
  apart_of_pairwise h.parts h.apart hjk hv hw

/-- The same marks and texts on the same page, or on one with more elements, show the same. -/
theorem InStep.unmoved (h : InStep ps slack due l) (hpage : m.page.WellFormed) (hmarks : Parts.Unmoved l.page m.page)
    (hleaf : ∀ a ∈ ps, l.page.Leaf a.trigger → m.page.Leaf a.trigger ∧
      m.page.textContent a.trigger = l.page.textContent a.trigger)
    (hmore : ∀ id, l.page.elements.length ≤ id → (m.page.element id).hasClass "is-open" = false)
    (hselects : m.selects = l.selects) (hlisteners : m.listeners = l.listeners) (hoverlay : m.overlay = l.overlay)
    (htimer : m.timer = l.timer) : InStep ps slack due m where
  page := hpage
  parts := by rw [hselects]; exact h.parts
  apart := h.apart
  selects k w hw := by
    rw [hselects] at hw
    have hshowing := h.selects k w hw
    obtain ⟨hq, htext⟩ := hleaf _ (List.mem_of_getElem? (h.parts_of_select hw)) hshowing.fits.leaf
    obtain ⟨q, q', hrenders, hwork, hshows⟩ := hshowing.shows
    have hdocument : m.onDocument k = l.onDocument k := by
      unfold onDocument
      rw [hlisteners]
    exact
      { settings := hshowing.settings
        fits := hshowing.fits.unmoved hmarks hq
        items := hshowing.items
        nonempty := hshowing.nonempty
        coherent := hshowing.coherent
        shows := ⟨q, q', hrenders.unmoved hshowing.fits hmarks htext hdocument, hwork, hshows⟩ }
  unmarked id hid hwrapper hclass := by
    by_cases hold : id < l.page.elements.length
    · rw [hmarks.cls id hold _ (by simp)] at hclass
      exact h.unmarked id hold hwrapper hclass
    · rw [hmore id (Nat.le_of_not_lt hold)] at hclass
      cases hclass
  listeners := by rw [hlisteners]; exact h.listeners
  unclaimed k hk := by
    unfold onDocument
    rw [hlisteners]
    exact h.unclaimed k hk
  overlay := hoverlay.trans h.overlay
  timer := htimer.trans h.timer

theorem InStep.alike (h : InStep ps slack due l) (hpage : Alike l.page m.page) (hselects : m.selects = l.selects)
    (hlisteners : m.listeners = l.listeners) (hoverlay : m.overlay = l.overlay) (htimer : m.timer = l.timer) :
    InStep ps slack due m := by
  have htrees : m.page.trees = l.page.trees := by
    unfold trees
    rw [hpage.tree, hpage.loose]
  refine h.unmoved (h.page.congr htrees hpage.length) (.of_alike hpage) (fun a _ hleaf => ?_) (fun id hid => ?_)
    hselects hlisteners hoverlay htimer
  · exact ⟨hleaf.congr (by rw [htrees]), textContent_congr (by rw [htrees])⟩
  · rw [element_of_unknown (by rw [hpage.length]; exact hid)]
    rfl

/-! ### A piece of work -/

/-- A piece of work of a select was done: its own panel is the next one, and those of the others are as they were. -/
structure Done (k : Nat) (w : Select) (e : Effect) (l m : Live) : Prop where
  page : m.page.WellFormed
  selects : m.selects = l.selects
  fits : ∀ b : Parts, b.Fits l.page → b.Fits m.page
  own : ∀ s q, l.Renders k w.parts w.state.entries s q → q.admits e = true →
    m.Renders k w.parts w.state.entries s (q.doing e)
  others : ∀ j b entries s q, j ≠ k → b.Fits l.page → w.parts.Apart b → l.Renders j b entries s q →
    m.Renders j b entries s q
  unmarked : ∀ id < m.page.elements.length, id ≠ w.parts.wrapper → id < l.page.elements.length ∧
    (m.page.element id).hasClass "is-open" = (l.page.element id).hasClass "is-open"
  listeners : ∀ x ∈ m.listeners, x ∈ l.listeners ∨ x.Attentive
  document : ∀ j, j ≠ k → m.onDocument j = l.onDocument j
  overlay : m.overlay = l.overlay
  timer : m.timer = l.timer

theorem InStep.done (h : InStep ps slack (Function.update due k (e :: rest)) l) (hw : l.selects[k]? = some w)
    (hd : Done k w e l m) : InStep ps slack (Function.update due k rest) m where
  page := hd.page
  parts := by rw [hd.selects]; exact h.parts
  apart := h.apart
  selects j v hv := by
    rw [hd.selects] at hv
    have hv' := h.selects j v hv
    obtain ⟨q, q', hrenders, hwork, hshows⟩ := hv'.shows
    refine ⟨hv'.settings, hd.fits _ hv'.fits, hv'.items, hv'.nonempty, hv'.coherent, ?_⟩
    by_cases hjk : j = k
    · subst hjk
      obtain rfl : w = v := Option.some.inj (hw.symm.trans hv)
      rw [Function.update_self, Panel.work] at hwork
      split at hwork
      · next hadmits =>
        rw [Function.update_self]
        exact ⟨q.doing e, q', hd.own _ q hrenders hadmits, hwork, hshows⟩
      · cases hwork
    · rw [Function.update_of_ne hjk] at hwork ⊢
      exact ⟨q, q', hd.others j _ _ _ q hjk hv'.fits (h.apart_of_ne (Ne.symm hjk) hw hv) hrenders, hwork, hshows⟩
  unmarked id hid hwrapper hclass := by
    have hne : id ≠ w.parts.wrapper :=
      (hwrapper w.parts (List.mem_of_getElem? (h.parts_of_select hw))).symm
    obtain ⟨hold, hsame⟩ := hd.unmarked id hid hne
    rw [hsame] at hclass
    exact h.unmarked id hold hwrapper hclass
  listeners x hx := by
    rcases hd.listeners x hx with hx | hx
    · exact h.listeners x hx
    · exact hx
  unclaimed j hj := by
    have hk : k < ps.length := (List.getElem?_eq_some_iff.mp (h.parts_of_select hw)).1
    rw [hd.document j (by omega)]
    exact h.unclaimed j hj
  overlay := hd.overlay.trans h.overlay
  timer := hd.timer.trans h.timer

theorem renders_own_edit {s : Prop} (hs : w.settings = {}) (hp : l.page.WellFormed) (hf : w.parts.Fits l.page)
    (he : e ≠ .listen ∧ e ≠ .unlisten ∧ e ≠ .notify) (hi : ∀ i focus, e = .highlight i focus → i < w.parts.items.length)
    (h : l.Renders k w.parts w.state.entries s q) :
    Renders { l with page := w.after l.page e } k w.parts w.state.entries s (q.doing e) := by
  have hsubscribed : ∀ {n : Nat} {p : Page}, l.Subscribed k n → Subscribed { l with page := p } k n :=
    fun hn => hn.congr rfl
  have htext : (∀ i, e ≠ .reflect i) →
      (w.after l.page e).textContent w.parts.trigger = l.page.textContent w.parts.trigger :=
    fun hno => ((Select.texts_after hs hp hf.leaf).2 _ hf.leaf).2 (.inr hno)
  -- An effect makes at most one of the three marks; the frame lemmas keep the others.
  cases e with
  | expand =>
    exact ⟨Select.opened_after_expand hs hf, hsubscribed h.subscribed,
      Select.reflected_after hs hf h.reflected (by simp [Parts.WritesClass, Parts.WritesAttr]) (htext fun _ => Effect.noConfusion),
      Select.highlighted_after hs hf h.highlighted (by simp [Parts.WritesClass]) (by simp [Parts.WritesAttr])⟩
  | collapse =>
    exact ⟨Select.opened_after_collapse hs hf, hsubscribed h.subscribed,
      Select.reflected_after hs hf h.reflected (by simp [Parts.WritesClass, Parts.WritesAttr]) (htext fun _ => Effect.noConfusion),
      Select.highlighted_after hs hf h.highlighted (by simp [Parts.WritesClass]) (by simp [Parts.WritesAttr])⟩
  | highlight i focus =>
    exact ⟨Select.opened_after hs hf h.opened (by simp [Parts.WritesClass]) (by simp [Parts.WritesAttr]),
      hsubscribed h.subscribed,
      Select.reflected_after hs hf h.reflected (by simp [Parts.WritesClass, Parts.WritesAttr]) (htext fun _ => Effect.noConfusion),
      Select.highlighted_after_highlight hs hf (hi i focus rfl) focus⟩
  | reflect i =>
    exact ⟨Select.opened_after hs hf h.opened (by simp [Parts.WritesClass]) (by simp [Parts.WritesAttr]),
      hsubscribed h.subscribed, Select.reflected_after_reflect hs hp hf i,
      Select.highlighted_after hs hf h.highlighted (by simp [Parts.WritesClass]) (by simp [Parts.WritesAttr])⟩
  | commit i =>
    exact ⟨Select.opened_after hs hf h.opened id id, hsubscribed h.subscribed,
      Select.reflected_after hs hf h.reflected (fun _ _ => ⟨id, id⟩) (htext fun _ => Effect.noConfusion),
      Select.highlighted_after hs hf h.highlighted (fun _ _ => id) id⟩
  | focusTrigger =>
    exact ⟨Select.opened_after hs hf h.opened id id, hsubscribed h.subscribed,
      Select.reflected_after hs hf h.reflected (fun _ _ => ⟨id, id⟩) (htext fun _ => Effect.noConfusion),
      Select.highlighted_after hs hf h.highlighted (fun _ _ => id) id⟩
  | listen => exact absurd rfl he.1
  | unlisten => exact absurd rfl he.2.1
  | notify => exact absurd rfl he.2.2

theorem renders_other_edit {s : Prop} {b : Parts} {entries : List Entry} (hs : w.settings = {})
    (hp : l.page.WellFormed) (hf : w.parts.Fits l.page) (hb : b.Fits l.page) (hapart : w.parts.Apart b)
    (h : l.Renders j b entries s q) : Renders { l with page := w.after l.page e } j b entries s q where
  opened := by
    refine Select.opened_after hs hb h.opened ?_ ?_
    · cases e <;> simp [Parts.WritesClass, hapart.wrapper.symm]
    · cases e <;> simp [Parts.WritesAttr, hapart.trigger.symm]
  subscribed := h.subscribed.congr rfl
  reflected := by
    refine Select.reflected_after hs hb h.reflected (fun id hid => ?_)
      (((Select.texts_after hs hp hf.leaf).2 _ hb.leaf).2 (.inl hapart.trigger.symm))
    have hother : id ∉ w.parts.items := fun hmem => hapart.items id hmem hid
    cases e <;> simp [Parts.WritesClass, Parts.WritesAttr, hother]
  highlighted := by
    refine Select.highlighted_after hs hb h.highlighted (fun id hid => ?_) ?_
    · have hother : id ∉ w.parts.items := fun hmem => hapart.items id hmem hid
      cases e <;> simp [Parts.WritesClass, hother]
    · cases e <;> simp [Parts.WritesAttr, hapart.menu.symm]

/-- Work that is done by edits. -/
theorem done_edit (hs : w.settings = {}) (hp : l.page.WellFormed) (hf : w.parts.Fits l.page)
    (he : e ≠ .listen ∧ e ≠ .unlisten ∧ e ≠ .notify) (hi : ∀ i focus, e = .highlight i focus → i < w.parts.items.length) :
    Done k w e l { l with page := w.after l.page e } where
  page := (Select.texts_after hs hp hf.leaf).1
  selects := rfl
  fits b hb := Select.fits_after hs hp hf hb
  own s q h _ := renders_own_edit hs hp hf he hi h
  others j b entries s q _ hb hapart h := renders_other_edit hs hp hf hb hapart h
  unmarked id hid hne := by
    have hknown : id < l.page.elements.length := by
      rw [← (Select.edited_after w l.page e).length]
      exact hid
    refine ⟨hknown, Select.hasClass_after hs hknown ?_⟩
    cases e <;> simp [Parts.WritesClass, hne]
  listeners x hx := .inl hx
  document j _ := rfl
  overlay := rfl
  timer := rfl

/-- Listening to the whole document. -/
theorem done_listen (hp : l.page.WellFormed) : Done k w .listen l (l.subscribe k) where
  page := hp
  selects := rfl
  fits b hb := hb
  own s q h hadmits := by
    have hzero : q.subscriptions = 0 := by simpa [Panel.admits] using hadmits
    refine ⟨h.opened, ?_, h.reflected, h.highlighted⟩
    show Subscribed _ k (q.subscriptions + 1)
    rw [hzero]
    exact subscribed_subscribe
  others j b entries s q hjk _ _ h := h.congr rfl (onDocument_subscribe_of_ne hjk)
  unmarked id hid _ := ⟨hid, rfl⟩
  listeners x hx := by
    obtain ⟨m, n, hlisteners⟩ := listeners_subscribe (l := l) (k := k)
    rw [hlisteners] at hx
    rcases List.mem_append.mp hx with hx | hx
    · exact .inl (List.mem_filter.mp hx).1
    · rcases List.mem_cons.mp hx with rfl | hx
      · exact .inr ⟨rfl, rfl, trivial⟩
      · rw [List.mem_singleton.mp hx]
        exact .inr ⟨rfl, rfl, trivial⟩
  document j hjk := onDocument_subscribe_of_ne hjk
  overlay := rfl
  timer := rfl

/-- No longer listening to the whole document. -/
theorem done_unlisten (hp : l.page.WellFormed) : Done k w .unlisten l (l.unlisten (Handler.onDocument k)) where
  page := hp
  selects := rfl
  fits b hb := hb
  own s q h hadmits := by
    have hsome : ∀ {n : Nat}, l.Subscribed k n → (n != 0) = true → n = 1 := by
      intro n hn hne
      cases hn with
      | never => cases hne
      | once => rfl
    have hone : q.subscriptions = 1 := hsome h.subscribed hadmits
    refine ⟨h.opened, ?_, h.reflected, h.highlighted⟩
    show Subscribed _ k (q.subscriptions - 1)
    rw [hone]
    exact .never onDocument_unlisten_self
  others j b entries s q hjk _ _ h := h.congr rfl (onDocument_unlisten_of_ne hjk)
  unmarked id hid _ := ⟨hid, rfl⟩
  listeners x hx := .inl (List.mem_filter.mp hx).1
  document j hjk := onDocument_unlisten_of_ne hjk
  overlay := rfl
  timer := rfl

theorem applySelect_eq (hw : l.selects[k]? = some w) (hs : w.settings = {})
    (he : e ≠ .listen ∧ e ≠ .unlisten ∧ e ≠ .notify) :
    applySelect announce k l e = { l with page := w.after l.page e } := by
  unfold applySelect
  rw [hw]
  cases e with
  | listen => exact absurd rfl he.1
  | unlisten => exact absurd rfl he.2.1
  | notify => exact absurd rfl he.2.2
  | _ => simp only [Select.perform_edits hs]

/-- A piece of work that is no announcement. -/
theorem done_apply (hw : l.selects[k]? = some w) (hs : w.settings = {}) (hp : l.page.WellFormed)
    (hf : w.parts.Fits l.page) (he : e ≠ .notify) (hi : ∀ i focus, e = .highlight i focus → i < w.parts.items.length) :
    Done k w e l (applySelect announce k l e) := by
  by_cases hlisten : e = .listen
  · subst hlisten
    have heq : applySelect announce k l .listen = l.subscribe k := by
      unfold applySelect
      rw [hw]
    rw [heq]
    exact done_listen hp
  · by_cases hunlisten : e = .unlisten
    · subst hunlisten
      have heq : applySelect announce k l .unlisten = l.unlisten (Handler.onDocument k) := by
        unfold applySelect
        rw [hw]
      rw [heq]
      exact done_unlisten hp
    · have hedit : e ≠ .listen ∧ e ≠ .unlisten ∧ e ≠ .notify := ⟨hlisten, hunlisten, he⟩
      rw [applySelect_eq hw hs hedit]
      exact done_edit hs hp hf hedit hi

/-- A piece of work that is no announcement: when it is done, less is due. -/
theorem InStep.apply (h : InStep ps slack (Function.update due k (e :: rest)) l) (ha : ps[k]? = some a)
    (he : e ≠ .notify) (hi : ∀ i focus, e = .highlight i focus → i < a.items.length) :
    InStep ps slack (Function.update due k rest) (applySelect announce k l e) := by
  obtain ⟨w, hw, rfl⟩ := exists_select h.parts ha
  have hshowing := h.selects k w hw
  exact h.done hw (done_apply hw hshowing.settings h.page hshowing.fits he hi)

/-! ### The work of an answer -/

/-- Whoever listens to an announcement keeps the page in step, up to the closing that is due. -/
def Faithful (announce : Live → Nat → Live) : Prop :=
  ∀ ps slack due l native, (∀ k, ∀ e ∈ due k, e.Closing) → InStep ps slack due l → InStep ps slack due (announce l native)

/-- When the change is about to be announced, the page is in step up to what is due after the announcement. -/
theorem InStep.announced (h : InStep ps slack (Function.update due k (.notify :: rest)) l) (ha : ps[k]? = some a) :
    ∃ m native, applySelect announce k l .notify = announce m native ∧ InStep ps slack (Function.update due k rest) m := by
  obtain ⟨w, hw, rfl⟩ := exists_select h.parts ha
  have hsaid : Done k w .notify l l :=
    { page := h.page
      selects := rfl
      fits := fun b hb => hb
      own := fun s q h _ => h
      others := fun j b entries s q _ _ _ h => h
      unmarked := fun id hid _ => ⟨hid, rfl⟩
      listeners := fun x hx => .inl hx
      document := fun j _ => rfl
      overlay := rfl
      timer := rfl }
  refine ⟨{ l with page := { l.page with calls := l.page.calls ++ [.announce "change" w.parts.native] } },
    w.parts.native, ?_, (h.done hw hsaid).alike ?_ rfl rfl rfl rfl⟩
  · unfold applySelect
    rw [hw]
  · exact ⟨rfl, rfl, rfl, rfl, rfl, rfl, fun _ => rfl, fun _ => rfl, fun _ => rfl⟩

/-- An announcement, with nothing but closing left to be done. -/
theorem InStep.notify (hann : Faithful announce) (h : InStep ps slack (Function.update due k (.notify :: rest)) l)
    (ha : ps[k]? = some a) (hdue : ∀ j, ∀ e ∈ due j, e.Closing) (hrest : ∀ e ∈ rest, e.Closing) :
    InStep ps slack (Function.update due k rest) (applySelect announce k l .notify) := by
  have hclosing : ∀ j, ∀ e ∈ Function.update due k rest j, e.Closing := by
    intro j e he
    by_cases hjk : j = k
    · subst hjk
      rw [Function.update_self] at he
      exact hrest e he
    · rw [Function.update_of_ne hjk] at he
      exact hdue j e he
  have hsaid : ∃ m native, applySelect announce k l .notify = announce m native ∧
      InStep ps slack (Function.update due k rest) m := h.announced ha
  obtain ⟨m, native, heq, hm⟩ := hsaid
  rw [heq]
  exact hann _ _ _ _ _ hclosing hm

/-- The work of a select, with closing still due after it. -/
theorem InStep.work (hann : Faithful announce) (hdue : ∀ j, ∀ e ∈ due j, e.Closing) (ha : ps[k]? = some a)
    (htimely : Timely es) (hi : ∀ i focus, .highlight i focus ∈ es → i < a.items.length)
    (h : InStep ps slack (Function.update due k (es ++ due k)) l) :
    InStep ps slack due (es.foldl (applySelect announce k) l) := by
  -- What is due for this select is always the rest of its work, and then what was due before.
  induction es generalizing l with
  | nil =>
    rw [List.nil_append, Function.update_eq_self] at h
    exact h
  | cons e es ih =>
    rw [List.cons_append] at h
    have hrest : ∀ i focus, .highlight i focus ∈ es → i < a.items.length :=
      fun i focus hmem => hi i focus (List.mem_cons_of_mem e hmem)
    rw [List.foldl_cons]
    cases htimely with
    | announce hclosing =>
      have hsilent : .notify ∉ es := fun hmem => hclosing _ hmem
      refine ih (.of_silent hsilent) hrest (h.notify hann ha hdue fun f hf => ?_)
      rcases List.mem_append.mp hf with hf | hf
      · exact hclosing f hf
      · exact hdue k f hf
    | cons he htimely =>
      refine ih htimely hrest (h.apply ha he fun i focus heq => ?_)
      exact hi i focus (heq ▸ List.mem_cons_self)

theorem selects_setState (t : State) : (l.setState k t).selects[j]? =
    if k = j then l.selects[j]?.map fun w => { w with state := t } else l.selects[j]? := by
  unfold Live.setState
  rw [List.getElem?_modify]
  cases l.selects[j]? <;> split <;> rfl

theorem parts_setState (t : State) : (l.setState k t).selects.map (·.parts) = l.selects.map (·.parts) := by
  refine List.ext_getElem? fun j => ?_
  rw [List.getElem?_map, List.getElem?_map, selects_setState]
  cases l.selects[j]? <;> split <;> rfl

theorem InStep.setState (h : InStep ps slack due l) (hw : l.selects[k]? = some w) {r : State × List Effect}
    (hr : Answers (due k) w.state r) :
    InStep ps slack (Function.update due k (r.2 ++ due k)) (l.setState k r.1) := by
  refine ⟨h.page, (parts_setState r.1).trans h.parts, h.apart, fun j v hv => ?_, h.unmarked, h.listeners, h.unclaimed,
    h.overlay, h.timer⟩
  · rw [selects_setState] at hv
    split at hv
    · next hkj =>
      subst hkj
      rw [hw] at hv
      obtain rfl := Option.some.inj hv
      have hshowing := h.selects k w hw
      obtain ⟨q, q', hrenders, hwork, hshows⟩ := hshowing.shows
      obtain ⟨q'', hwork', hshows'⟩ := hr.shows q q' hwork hshows
      rw [Function.update_self]
      refine ⟨hshowing.settings, hshowing.fits, ?_, ?_, ?_, q, q'', ?_, hwork', hshows'⟩
      · exact hshowing.items.trans (congrArg List.length hr.entries).symm
      · rw [hr.entries]
        exact hshowing.nonempty
      · rw [hr.entries]
        exact hr.coherent hshowing.coherent
      · rw [hr.entries]
        exact hrenders.congr rfl rfl
    · next hkj =>
      rw [Function.update_of_ne (Ne.symm hkj)]
      exact (h.selects j v hv).congr rfl rfl

theorem InStep.callSelect (hann : Faithful announce) (hdue : ∀ j, ∀ e ∈ due j, e.Closing)
    (h : InStep ps slack due l) {f : State → State × List Effect}
    (hf : ∀ w, l.selects[k]? = some w → Answers (due k) w.state (f w.state)) :
    InStep ps slack due (l.callSelect announce k f) := by
  unfold Live.callSelect
  split
  · exact h
  · next w hw =>
    have hanswers := hf w hw
    refine InStep.work hann hdue (h.parts_of_select hw) hanswers.timely (fun i focus hi => ?_) (h.setState hw hanswers)
    rw [(h.selects k w hw).items]
    exact hanswers.highlights i focus hi

/-! ### Events -/

section
variable {ready : Bool → Live → Live} {event : Event}

theorem InStep.nativeChange (hann : Faithful announce) (hdue : ∀ j, ∀ e ∈ due j, e.Closing) (h : InStep ps slack due l)
    (k : Nat) : InStep ps slack due (handle announce ready event (.nativeChange k) l).1 := by
  dsimp only [handle]
  split
  · exact h
  · exact h.callSelect (k := k) (f := fun s => s.nativeChanged _) hann hdue
      fun w _ => w.state.nativeChanged_answers _ (hdue k)

theorem nativeChange_of_hears {x : Handler} (h : x.hears = "change") : ∃ k, x = .nativeChange k := by
  cases x with
  | nativeChange k => exact ⟨k, rfl⟩
  | _ => simp [Handler.hears] at h

/-- A change that is delivered in the middle of some work is heard by what listens to native selects alone. -/
theorem faithful_announceChange : Faithful announceChange := by
  intro ps slack due l native hdue h
  have kept : Kept (handle (fun l _ => l) fun _ l => l) (changeOf native) (l.page.stops (changeOf native))
      (InStep ps slack due) Listener.Attentive := by
    refine ⟨fun m hm => hm.listeners, fun m x _ hx _ honce => absurd (hx.lasting.symm.trans honce) Bool.false_ne_true,
      fun m x hm hx ⟨htype, _⟩ => ?_⟩
    -- What a native select makes its listbox do announces nothing, so no further event is delivered within this one.
    obtain ⟨k, hk⟩ := nativeChange_of_hears (hx.type.symm.trans htype)
    rw [hk]
    exact hm.nativeChange (fun _ _ _ _ _ _ h => h) hdue k
  exact deliver_keeps kept h

theorem callSelectKey_eq (f : State → State × KeyResponse) :
    (l.callSelectKey announce k f).1 = l.callSelect announce k fun s => ((f s).1, (f s).2.effects) := by
  unfold callSelectKey callSelect
  cases l.selects[k]? <;> rfl

/-- A handler of a select performs one operation of its listbox, or nothing. -/
theorem handle_of_owner {x : Handler} (hk : x.owner? = some k) : (handle announce ready event x l).1 = l ∨
    ∃ op : Operation, (x.Follows → op.Follows) ∧
      (handle announce ready event x l).1 = l.callSelect announce k (·.perform op) := by
  cases x with
  | ready test => cases hk
  | control name => cases hk
  | transitionEnd => cases hk
  | triggerClick i =>
    cases hk
    exact .inr ⟨.triggerClick, False.elim, rfl⟩
  | triggerKey i =>
    cases hk
    dsimp only [handle]
    cases event.key with
    | none => exact .inl rfl
    | some key => exact .inr ⟨.triggerKey (.ofName key), False.elim, callSelectKey_eq _⟩
  | menuKey i =>
    cases hk
    dsimp only [handle]
    cases event.key with
    | none => exact .inl rfl
    | some key => exact .inr ⟨.menuKey (.ofName key), False.elim, callSelectKey_eq _⟩
  | nativeChange i =>
    cases hk
    dsimp only [handle]
    cases l.selects[k]? with
    | none => exact .inl rfl
    | some w => exact .inr ⟨.nativeChanged _, fun _ => trivial, rfl⟩
  | itemClick i n =>
    cases hk
    exact .inr ⟨.entryClick n, False.elim, rfl⟩
  | itemHover i n =>
    cases hk
    exact .inr ⟨.entryHover n, False.elim, rfl⟩
  | documentPointer i =>
    cases hk
    dsimp only [handle]
    cases l.selects[k]? with
    | none => exact .inl rfl
    | some w => exact .inr ⟨.outsidePointer _, fun _ => trivial, rfl⟩
  | documentKey i =>
    cases hk
    dsimp only [handle]
    cases event.key with
    | none => exact .inl rfl
    | some key =>
      cases l.selects[k]? with
      | none => exact .inl rfl
      | some w => exact .inr ⟨.documentKey (.ofName key) _, fun _ => trivial, rfl⟩

theorem handle_cases {x : Handler} (hx : x.OfSelect) :
    (handle announce ready event x l).1 = l ∨
      ∃ k op, (handle announce ready event x l).1 = l.callSelect announce k (·.perform op) := by
  obtain ⟨k, hk⟩ := Handler.exists_owner hx
  have hcases : (handle announce ready event x l).1 = l ∨ ∃ op : Operation, (x.Follows → op.Follows) ∧
      (handle announce ready event x l).1 = l.callSelect announce k (·.perform op) := handle_of_owner hk
  rcases hcases with heq | ⟨op, -, heq⟩
  · exact .inl heq
  · exact .inr ⟨k, op, heq⟩

end

/-- What every operation of a listbox keeps, a delivery keeps. -/
theorem deliver_selects_keep {ready : Bool → Live → Live} {P : Live → Prop}
    (hlisteners : ∀ m, P m → ∀ x ∈ m.listeners, x.Attentive)
    (hcall : ∀ m k op, P m → P (m.callSelect announce k (·.perform op))) (h : P l) (event : Event) :
    P (l.deliver (handle announce ready) event).1 := by
  refine deliver_keeps (I := Listener.Attentive)
    ⟨hlisteners, fun m x _ hx _ honce => absurd (hx.lasting.symm.trans honce) Bool.false_ne_true, ?_⟩ h
  intro m x hm hx _
  have hcases : (handle announce ready event x.handler m).1 = m ∨
      ∃ k op, (handle announce ready event x.handler m).1 = m.callSelect announce k (·.perform op) :=
    handle_cases hx.select
  rcases hcases with hrest | ⟨k, op, heq⟩
  · rw [hrest]
    exact hm
  · rw [heq]
    exact hcall m k op hm

/-- Nothing is due. -/
def nothingDue : Nat → List Effect := fun _ => []

theorem InStep.deliver {ready : Bool → Live → Live} (hann : Faithful announce) (h : InStep ps slack nothingDue l)
    (event : Event) : InStep ps slack nothingDue (l.deliver (handle announce ready) event).1 :=
  deliver_selects_keep (fun _ hm => hm.listeners)
    (fun _ _ op hm => hm.callSelect hann (fun _ _ he => absurd he List.not_mem_nil) fun w _ => w.state.perform_answers op)
    h event

theorem InStep.dispatch (h : InStep ps slack nothingDue l) (event : Event) :
    InStep ps slack nothingDue (l.dispatch event).1 :=
  h.deliver faithful_announceChange event

/-! ### Occasions -/

theorem InStep.flip (h : InStep ps slack due l) (id : Nat) : InStep ps slack due (l.flip id) :=
  h.alike (.modify fun _ => ⟨rfl, rfl, rfl⟩) rfl rfl rfl rfl

/-- Whatever happens keeps the page in step with its selects. -/
theorem InStep.meet (h : InStep ps slack nothingDue l) (o : Occasion) : InStep ps slack nothingDue (l.meet o) := by
  cases o with
  | click id =>
    show InStep ps slack nothingDue (l.click id).1
    unfold click
    dsimp only
    split
    · exact h
    · split
      · split
        · exact ((h.flip id).dispatch _).flip id
        · exact (h.flip id).dispatch _
      · exact h.dispatch _
  | event e => exact h.dispatch e
  | pick native index =>
    show InStep ps slack nothingDue (l.pick native index).1
    unfold pick
    dsimp only
    split
    · exact (h.alike (m := { l with page := l.page.choose native index }) (alike_choose l.page native index)
        rfl rfl rfl rfl).dispatch _
    · exact h.dispatch _
  | pass ms =>
    show InStep ps slack nothingDue (l.advance ms)
    unfold advance
    rw [h.timer]
    show InStep ps slack nothingDue { l with page := { l.page with now := l.page.now + ms } }
    exact h.alike ⟨rfl, rfl, rfl, rfl, rfl, rfl, fun _ => rfl, fun _ => rfl, fun _ => rfl⟩ rfl rfl rfl rfl

theorem InStep.meetAll (h : InStep ps slack nothingDue l) (os : List Occasion) :
    InStep ps slack nothingDue (l.meetAll os) := by
  induction os generalizing l with
  | nil => exact h
  | cons o os ih => exact ih (h.meet o)

end

end Live
end Widget
end PageWidgets
