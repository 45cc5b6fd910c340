import PageWidgets.Proofs.Page.Markup
import PageWidgets.Proofs.Widget.SelectParts
import PageWidgets.Proofs.Widget.SelectRuns
import PageWidgets.Widget.Startup

/-! From their start on, enhanced selects show the states of their listboxes, whatever happens on the page. The one mark
    that is not theirs alone is the class of an open menu: an author may have written it on a wrapper, and it stays there
    until the menu is closed for the first time. -/

namespace PageWidgets
namespace Widget

open Listbox Page

namespace Live

section
variable {l : Live} {ps : List Parts} {slack : Nat → Prop} {due : Nat → List Effect} {wrapper : Nat}
  {entries : List Entry} {a : Parts} {q : Page}

/-! ### Pages on the way -/

theorem InStep.write (h : InStep ps slack due l) (level : Level) (part text : String) :
    InStep ps slack due (l.write level part text) :=
  h.alike ⟨rfl, rfl, rfl, rfl, rfl, rfl, fun _ => rfl, fun _ => rfl, fun _ => rfl⟩ rfl rfl rfl rfl

theorem InStep.prepared (h : InStep ps slack due l) (hq : Prepared wrapper l.page q) :
    InStep ps slack due { l with page := q } := by
  refine h.unmoved (h.page.congr hq.trees hq.length) hq.marks (fun a _ hleaf => ?_) (fun id hid => ?_) rfl rfl rfl rfl
  · exact ⟨hleaf.congr (by rw [hq.trees]), textContent_congr (by rw [hq.trees])⟩
  · rw [element_of_unknown (by rw [hq.length]; exact hid)]
    rfl

theorem InStep.attached (h : InStep ps slack due l) (hq : Attached l.page wrapper entries a q)
    (hwrapper : wrapper ∈ Node.idsOf l.page.trees) (htriggers : ∀ b ∈ ps, b.trigger ≠ wrapper) :
    InStep ps slack due { l with page := q } := by
  refine h.unmoved (hq.wellFormed h.page hwrapper) hq.unmoved (fun b hb hleaf => ?_)
    (fun id hid => hq.hasClass_of_new hid (by simp)) rfl rfl rfl rfl
  have hsame := hq.childrenIn?_of_leaf h.page (htriggers b hb) hleaf
  exact ⟨hleaf.congr hsame, textContent_congr hsame⟩

/-! ### A new select -/

/-- Parts that a new select can start on: apart from those in use, with an item for each entry, and with nothing shown
    on them yet. -/
structure Blank (l : Live) (ps : List Parts) (slack : Nat → Prop) (entries : List Entry) (a : Parts) : Prop where
  fits : a.Fits l.page
  apart : ∀ b ∈ ps, b.Apart a
  items : a.items.length = entries.length
  nonempty : entries ≠ []
  opened : a.Opened (slack a.wrapper) false l.page
  reflected : a.Reflected entries none l.page
  highlighted : a.Highlighted none l.page

/-- A new select on blank parts owes its initial work. -/
theorem InStep.added (h : InStep ps slack nothingDue l) (ha : l.Blank ps slack entries a) (native : Option Nat) :
    InStep (ps ++ [a]) slack (Function.update nothingDue l.selects.length
        ((State.ofEntries entries).initialEffects native ++ nothingDue l.selects.length))
      { l with selects := l.selects ++ [⟨a, {}, State.ofEntries entries⟩] } := by
  have hlength : ps.length = l.selects.length := by
    rw [← h.parts, List.length_map]
  refine ⟨h.page, ?_, ?_, fun k w hw => ?_, fun id hid hother => ?_, h.listeners, fun k hk => ?_, h.overlay, h.timer⟩
  · rw [List.map_append, h.parts]
    rfl
  · rw [List.pairwise_append]
    refine ⟨h.apart, List.pairwise_singleton _ a, fun b hb c hc => ?_⟩
    rw [List.mem_singleton.mp hc]
    exact ha.apart b hb
  · rcases Nat.lt_or_ge k l.selects.length with hk | hk
    · have hold : l.selects[k]? = some w := by rwa [List.getElem?_append_left hk] at hw
      rw [Function.update_of_ne (Nat.ne_of_lt hk)]
      exact (h.selects k w hold).congr rfl rfl
    · have hlast : k = l.selects.length := by
        have hbound := (List.getElem?_eq_some_iff.mp hw).1
        rw [List.length_append, List.length_singleton] at hbound
        omega
      subst hlast
      rw [List.getElem?_append_right hk, Nat.sub_self] at hw
      obtain rfl := Option.some.inj hw
      obtain ⟨q', hwork, hshows, -⟩ := Shows.initial entries native
      rw [Function.update_self]
      refine ⟨rfl, ha.fits, ha.items, ha.nonempty, Coherent.ofEntries entries, Panel.blank native, q', ?_, ?_, hshows⟩
      · exact ⟨ha.opened, .never (h.unclaimed _ (Nat.le_of_eq hlength)), ha.reflected, ha.highlighted⟩
      · rw [nothingDue, List.append_nil]
        exact hwork
  · exact h.unmarked id hid fun b hb => hother b (List.mem_append_left _ hb)
  · rw [List.length_append] at hk
    exact h.unclaimed k (by omega)

/-- One more listener of a select, to an element. -/
theorem InStep.listenActive (h : InStep ps slack due l) (place : Nat) {type : String} (x : Handler) (hx : x.OfSelect)
    (htype : type = x.hears) (hno : ∀ k, x.onDocument k = false) : InStep ps slack due (l.listenActive place type x) := by
  have hdocument : ∀ k, (l.listenActive place type x).onDocument k = l.onDocument k := by
    intro k
    show (l.listeners ++ [_]).filter _ = l.listeners.filter _
    rw [List.filter_append, List.filter_cons_of_neg (by simp [hno]), List.filter_nil, List.append_nil]
  refine ⟨h.page, h.parts, h.apart, fun k w hw => (h.selects k w hw).congr rfl (hdocument k), h.unmarked,
    fun y hy => ?_, fun k hk => (hdocument k).trans (h.unclaimed k hk), h.overlay, h.timer⟩
  rcases List.mem_append.mp hy with hy | hy
  · exact h.listeners y hy
  · rw [List.mem_singleton.mp hy]
    exact ⟨rfl, htype, hx⟩

theorem InStep.bind (h : InStep ps slack due l) (k : Nat) (parts : Parts) : InStep ps slack due (l.bind k parts) := by
  have hitems : ∀ (items : List (Nat × Nat)) {m : Live}, InStep ps slack due m →
      InStep ps slack due (items.foldl (bindItem k) m) := by
    intro items
    induction items with
    | nil => exact fun hm => hm
    | cons item items ih =>
      exact fun hm => ih ((hm.listenActive item.1 (.itemClick k item.2) trivial rfl fun _ => rfl).listenActive item.1
        (.itemHover k item.2) trivial rfl fun _ => rfl)
  have hclick := h.listenActive parts.trigger (.triggerClick k) trivial rfl fun _ => rfl
  have hkey := hclick.listenActive parts.trigger (.triggerKey k) trivial rfl fun _ => rfl
  have hmenu := hkey.listenActive parts.menu (.menuKey k) trivial rfl fun _ => rfl
  exact hitems _ (hmenu.listenActive parts.native (.nativeChange k) trivial rfl fun _ => rfl)

/-! ### Starting -/

/-- Initial work is edits alone, so the elements stay where they are. -/
theorem idsOf_initial {k : Nat} {w : Select} (hw : l.selects[k]? = some w) (hs : w.settings = {})
    (hp : l.page.WellFormed) (hleaf : l.page.Leaf w.parts.trigger) (es : List Effect)
    (hes : ∀ e ∈ es, e ≠ .listen ∧ e ≠ .unlisten ∧ e ≠ .notify) (announce : Live → Nat → Live) :
    Node.idsOf (es.foldl (applySelect announce k) l).page.trees = Node.idsOf l.page.trees := by
  induction es generalizing l with
  | nil => rfl
  | cons e es ih =>
    obtain ⟨hp', htexts⟩ := Select.texts_after (e := e) hs hp hleaf
    rw [List.foldl_cons, applySelect_eq hw hs (hes e List.mem_cons_self)]
    have hrest := ih (l := { l with page := w.after l.page e }) hw hp' (htexts _ hleaf).1 fun d hd =>
      hes d (List.mem_cons_of_mem e hd)
    exact hrest.trans (Select.idsOf_after hs hp hleaf)

theorem page_bind (l : Live) (k : Nat) (parts : Parts) : (l.bind k parts).page = l.page := by
  have hitems : ∀ (items : List (Nat × Nat)) (m : Live), (items.foldl (bindItem k) m).page = m.page := by
    intro items
    induction items with
    | nil => exact fun m => rfl
    | cons item items ih => exact fun m => ih (bindItem k m item)
  exact hitems _ _

/-- A select that is started on new parts is in step at once, and no element leaves its place. -/
theorem InStep.startSelect (h : InStep ps slack nothingDue l) (ha : l.Blank ps slack entries a) :
    InStep (ps ++ [a]) slack nothingDue (l.startSelect a {} entries) ∧
      Node.idsOf (l.startSelect a {} entries).page.trees = Node.idsOf l.page.trees := by
  let s := State.ofEntries entries
  let native := l.page.selectedIndex a.native
  have hadded := h.added ha native
  have hlength : ps.length = l.selects.length := by
    rw [← h.parts, List.length_map]
  have hlast : (ps ++ [a])[l.selects.length]? = some a := by
    rw [← hlength, List.getElem?_concat_length]
  have hw : (l.selects ++ [(⟨a, {}, s⟩ : Select)])[l.selects.length]? = some ⟨a, {}, s⟩ := List.getElem?_concat_length
  have hedits : ∀ e ∈ s.initialEffects native, e ≠ .listen ∧ e ≠ .unlisten ∧ e ≠ .notify :=
    fun _ he => s.initialEffects_quiet he
  have hwork := hadded.work faithful_announceChange (fun j e he => absurd he List.not_mem_nil) hlast
    (.of_silent fun hnotify => (hedits _ hnotify).2.2 rfl) fun i focus hi => by
      obtain ⟨j, heq | heq | ⟨heq, hj⟩⟩ := s.initialEffects_cases hi
      · cases heq
      · cases heq
      · cases heq
        exact ha.items ▸ hj
  refine ⟨hwork.bind _ a, ?_⟩
  have hids := idsOf_initial (l := { l with selects := l.selects ++ [⟨a, {}, s⟩] }) hw rfl h.page ha.fits.leaf _
    hedits announceChange
  exact (congrArg (fun p : Page => Node.idsOf p.trees) (page_bind _ _ a)).trans hids

/-- A wrapper that is not enhanced yet gets parts and a select of its own. -/
theorem InStep.enhanced {r : Page} (h : InStep ps slack nothingDue l) (hwrapper : wrapper ∈ Node.idsOf l.page.trees)
    (htriggers : ∀ b ∈ ps, b.trigger ≠ wrapper)
    (hfresh : (l.page.element wrapper).attr? "data-retention-enhanced" ≠ some "true") (hnonempty : entries ≠ [])
    (hq : Prepared wrapper l.page q) (hr : Attached q wrapper entries a r) :
    InStep (ps ++ [a]) slack nothingDue (Live.startSelect { l with page := r } a {} entries) ∧
      ∀ u ∈ Node.idsOf l.page.trees,
        u ∈ Node.idsOf (Live.startSelect { l with page := r } a {} entries).page.trees ∧ a.trigger ≠ u := by
  have hknown := h.page.known wrapper hwrapper
  have hprepared := h.prepared hq
  have hplace : wrapper ∈ Node.idsOf q.trees := hq.trees ▸ hwrapper
  have hother : ∀ b ∈ ps, b.Fits q ∧ b.wrapper ≠ wrapper := by
    intro b hb
    rw [← h.parts] at hb
    obtain ⟨w, hw, rfl⟩ := List.mem_map.mp hb
    obtain ⟨k, hk⟩ := List.mem_iff_getElem?.mp hw
    refine ⟨(hprepared.selects k w hk).fits, ?_⟩
    rintro rfl
    exact hfresh (h.selects k w hk).fits.enhanced
  have hslack := hprepared.unmarked wrapper (by rw [hq.length]; exact hknown) fun b hb => (hother b hb).2
  obtain ⟨hopened, hreflected, hhighlighted⟩ := hr.blank hprepared.page hplace hslack entries
  have hblank : Blank { l with page := r } ps slack entries a :=
    { fits := hr.fits hprepared.page hplace hq.enhanced
      apart := fun b hb => hr.apart (hother b hb).1 (hother b hb).2
      items := by rw [hr.items, List.length_range']
      nonempty := hnonempty
      opened := hr.wrapper ▸ hopened
      reflected := hreflected
      highlighted := hhighlighted }
  obtain ⟨hstarted, hids⟩ := (hprepared.attached hr hplace htriggers).startSelect hblank
  refine ⟨hstarted, fun u hu => ⟨?_, ?_⟩⟩
  · have hold : u ∈ Node.idsOf q.trees := hq.trees ▸ hu
    rw [hids]
    exact (hr.idsOf_trees hprepared.page hplace).mem_iff.mpr (List.mem_append_left _ hold)
  · rw [hr.trigger, hq.length]
    exact Nat.ne_of_gt (h.page.known u hu)

/-- Enhancing a wrapper, with or without success, leaves the page in step, and no element leaves its place. -/
theorem InStep.enhance (h : InStep ps slack nothingDue l) (hwrapper : wrapper ∈ Node.idsOf l.page.trees)
    (htriggers : ∀ b ∈ ps, b.trigger ≠ wrapper) :
    ∃ more, InStep (ps ++ more) slack nothingDue (l.enhance wrapper {}).1 ∧
      ∀ u ∈ Node.idsOf l.page.trees, u ∈ Node.idsOf (l.enhance wrapper {}).1.page.trees ∧ ∀ b ∈ more, b.trigger ≠ u := by
  have hknown := h.page.known wrapper hwrapper
  -- Where no parts are made, the page is in step as it was before.
  have hnone : ∀ {m : Live}, InStep ps slack nothingDue m → m.page.trees = l.page.trees →
      ∃ more, InStep (ps ++ more) slack nothingDue m ∧
        ∀ u ∈ Node.idsOf l.page.trees, u ∈ Node.idsOf m.page.trees ∧ ∀ b ∈ more, b.trigger ≠ u := by
    intro m hm htrees
    refine ⟨[], by rwa [List.append_nil], fun u hu => ⟨htrees ▸ hu, fun b hb => absurd hb List.not_mem_nil⟩⟩
  unfold Live.enhance
  split
  · exact hnone (h.write _ _ _) rfl
  · next hfresh =>
    split
    · exact hnone h rfl
    · split
      · exact hnone (h.write _ _ _) rfl
      · next native _ =>
        dsimp only
        split
        · exact hnone (h.write _ _ _) rfl
        · next hentries =>
          split
          · exact hnone h rfl
          · rcases render_cases l.page hknown native (entriesOf l.page native) with
              ⟨f, q, hrender, hq⟩ | ⟨q, a, r, hrender, hq, hr⟩
            · rw [hrender]
              exact hnone (h.prepared hq) hq.trees
            · rw [hrender]
              obtain ⟨henhanced, hkept⟩ := h.enhanced hwrapper htriggers hfresh (by simpa using hentries) hq hr
              refine ⟨[a], henhanced, fun u hu => ⟨(hkept u hu).1, fun b hb => ?_⟩⟩
              rw [List.mem_singleton.mp hb]
              exact (hkept u hu).2

theorem inStep_enhanceAll (h : InStep ps slack nothingDue l) (ids : List Nat)
    (hids : ∀ u ∈ ids, u ∈ Node.idsOf l.page.trees ∧ ∀ b ∈ ps, b.trigger ≠ u) :
    ∃ ps', InStep ps' slack nothingDue (enhanceAll {} l ids).1 := by
  -- The wrappers still to come keep their places, and none of them is a trigger that was made on the way.
  induction ids generalizing l ps with
  | nil => exact ⟨ps, h⟩
  | cons wrapper rest ih =>
    obtain ⟨hwrapper, htriggers⟩ := hids wrapper List.mem_cons_self
    obtain ⟨more, hone, hkept⟩ := h.enhance hwrapper htriggers
    have hrest : ∀ u ∈ rest, u ∈ Node.idsOf (l.enhance wrapper {}).1.page.trees ∧ ∀ b ∈ ps ++ more, b.trigger ≠ u := by
      intro u hu
      obtain ⟨hplace, hold⟩ := hids u (List.mem_cons_of_mem wrapper hu)
      refine ⟨(hkept u hplace).1, fun b hb => ?_⟩
      rcases List.mem_append.mp hb with hb | hb
      · exact hold b hb
      · exact (hkept u hplace).2 b hb
    unfold enhanceAll
    generalize l.enhance wrapper {} = r at hone hrest
    obtain ⟨m, result⟩ := r
    match result with
    | .ok (some k) => exact ih hone hrest
    | .ok none => exact ih hone hrest
    | .error f => exact ih (hone.write _ _ _) hrest

/-- Every select that is found on a page is in step from its start on. -/
theorem inStep_initSelects {p : Page} (hp : p.WellFormed) :
    ∃ ps, InStep ps (fun id => (p.element id).hasClass "is-open" = true) nothingDue ((ofPage p).initSelects {}).1 := by
  have hstart : InStep [] (fun id => (p.element id).hasClass "is-open" = true) nothingDue (ofPage p) := by
    refine ⟨hp, rfl, List.Pairwise.nil, fun k w hw => ?_, fun id _ _ h => h, fun x hx => ?_, fun k _ => rfl, rfl, rfl⟩
    · cases hw
    · exact absurd hx List.not_mem_nil
  unfold initSelects
  split
  · exact ⟨[], hstart⟩
  · next root hroot =>
    split
    · exact ⟨[], hstart.write _ _ _⟩
    · next wrappers hwrappers =>
      refine inStep_enhanceAll hstart wrappers fun u hu => ⟨?_, fun b hb => absurd hb List.not_mem_nil⟩
      have hfound : p.queryAll root ({} : SelectSettings).wrapperSelector = .ok wrappers := hwrappers
      have hbelow : u ∈ p.descendants root := by
        unfold queryAll at hfound
        split at hfound
        · cases hfound
        · cases hfound
          exact (List.mem_filter.mp hu).1
      exact mem_trees_of_mem_descendants hbelow

end

/-! ### What is shown -/

/-- The page shows the state of a select's listbox: in what the trigger tells, in who listens to the whole document, in the
    item and the text of the chosen entry, and in the item of the active one, when any entry can be active. -/
structure Displays (l : Live) (k : Nat) (w : Select) : Prop where
  expanded : (l.page.element w.parts.trigger).attr? "aria-expanded" = some (if w.state.isOpen then "true" else "false")
  listening : ((l.onDocument k).map fun x => (x.place, x.type, x.capture, x.handler)) =
    if w.state.isOpen then
      [(.document, "pointerdown", true, .documentPointer k), (.document, "keydown", true, .documentKey k)]
    else []
  items : w.parts.items.length = w.state.entries.length
  chosen : ∃ i e, w.state.selected = some i ∧ w.state.entries[i]? = some e ∧
    l.page.textContent w.parts.trigger = e.label ∧
      ∀ j id, w.parts.items[j]? = some id → ((l.page.element id).hasClass "is-selected" = true ↔ j = i) ∧
        (l.page.element id).attr? "aria-selected" = if j = i then some "true" else none
  active : ∀ j id, w.parts.items[j]? = some id → ((l.page.element id).hasClass "is-active" = true ↔
    w.state.entries.any Entry.enabled = true ∧ j = w.state.active)
  described : w.state.entries.any Entry.enabled = true → ∃ id, w.parts.items[w.state.active]? = some id ∧
    (l.page.element w.parts.menu).attr? "aria-activedescendant" = some (l.page.element id).identifier

section
variable {l : Live} {k : Nat} {w : Select} {slack : Prop}

theorem Showing.displays (h : l.Showing k w slack []) : l.Displays k w := by
  obtain ⟨q, q', hrenders, hwork, hshows⟩ := h.shows
  obtain rfl : q = q' := Option.some.inj hwork
  have hactive := hrenders.highlighted
  have hselected := hrenders.reflected
  rw [hshows.highlighted] at hactive
  rw [hshows.shown] at hselected
  refine ⟨?_, ?_, h.items, ?_, fun j id hid => ?_, fun hany => ?_⟩
  · rw [hrenders.opened.expanded, hshows.expanded]
  · have hsubscribed := hrenders.subscribed
    rw [hshows.subscriptions, h.coherent.listening_eq] at hsubscribed
    cases hopen : w.state.isOpen
    · rw [hopen] at hsubscribed
      have hnever : l.Subscribed k 0 := hsubscribed
      cases hnever with
      | never hnone =>
        rw [hnone]
        rfl
    · rw [hopen] at hsubscribed
      have honce : l.Subscribed k 1 := hsubscribed
      cases honce with
      | once hboth =>
        rw [hboth]
        rfl
  · have hchosen : ∃ i, w.state.selected = some i ∧ i < w.state.entries.length := by
      cases hany : w.state.entries.any Entry.enabled
      · exact ⟨0, (h.coherent.disabled h.nonempty hany).2, List.length_pos_iff.mpr h.nonempty⟩
      · obtain ⟨-, i, hi, hlt, -⟩ := h.coherent.enabled hany
        exact ⟨i, hi, hlt⟩
    obtain ⟨i, hi, hlt⟩ := hchosen
    rw [hi] at hselected
    refine ⟨i, w.state.entries[i], hi, List.getElem?_eq_getElem hlt, ?_, fun j id hid => ?_⟩
    · rw [hselected.text, Option.bind_some, List.getElem?_eq_getElem hlt]
      rfl
    · obtain ⟨hclass, haria⟩ := hselected.items j id hid
      rw [hclass, haria]
      simp [eq_comm]
  · rw [hactive.items j id hid]
    cases w.state.entries.any Entry.enabled <;> simp [eq_comm]
  · obtain ⟨⟨hlt, -⟩, -⟩ := h.coherent.enabled hany
    rw [← h.items] at hlt
    have hitem := List.getElem?_eq_getElem hlt
    refine ⟨_, hitem, ?_⟩
    rw [hactive.menu, hany, if_pos rfl, Option.bind_some, hitem]
    rfl

theorem Showing.opened (h : l.Showing k w slack []) : w.parts.Opened slack w.state.isOpen l.page := by
  obtain ⟨q, q', hrenders, hwork, hshows⟩ := h.shows
  obtain rfl : q = q' := Option.some.inj hwork
  rw [← hshows.expanded]
  exact hrenders.opened

/-- An open menu needs no slack. -/
theorem Showing.mono {slack' : Prop} (h : l.Showing k w slack [])
    (himp : slack → w.state.isOpen = true ∨ slack') : l.Showing k w slack' [] := by
  have hopened := h.opened
  obtain ⟨q, q', hrenders, hwork, hshows⟩ := h.shows
  obtain rfl : q = q' := Option.some.inj hwork
  refine ⟨h.settings, h.fits, h.items, h.nonempty, h.coherent, q, q, ⟨?_, hrenders.subscribed, hrenders.reflected,
    hrenders.highlighted⟩, rfl, hshows⟩
  rw [hshows.expanded]
  refine ⟨hopened.marked, fun hmarked => ?_, hopened.expanded⟩
  rcases hopened.of_marked hmarked with hopen | hslack
  · exact .inl hopen
  · exact himp hslack

/-- From the moment a menu is open, its wrapper has no slack. -/
theorem InStep.tighten {ps : List Parts} {slack : Nat → Prop} (h : InStep ps slack nothingDue l)
    (hw : l.selects[k]? = some w) (hopen : w.state.isOpen = true) :
    InStep ps (fun id => slack id ∧ id ≠ w.parts.wrapper) nothingDue l := by
  refine ⟨h.page, h.parts, h.apart, fun j v hv => ?_, fun id hid hother hclass => ?_, h.listeners, h.unclaimed,
    h.overlay, h.timer⟩
  · refine (h.selects j v hv).mono fun hslack => ?_
    by_cases hjk : j = k
    · subst hjk
      obtain rfl : w = v := Option.some.inj (hw.symm.trans hv)
      exact .inl hopen
    · exact .inr ⟨hslack, (h.apart_of_ne hjk hv hw).wrapper⟩
  · refine ⟨h.unmarked id hid hother hclass, ?_⟩
    exact (hother w.parts (List.mem_of_getElem? (h.parts_of_select hw))).symm

end

theorem meetAll_append (l : Live) (os os' : List Occasion) : l.meetAll (os ++ os') = (l.meetAll os).meetAll os' :=
  List.foldl_append

/-- Whatever happens on a page, each of its selects shows the state of its listbox. The wrapper of an open menu carries
    the class of one; that of a closed menu does so only when it was written with the class and the menu has not been
    open yet. -/
theorem selects_show_their_states {p : Page} (hp : p.WellFormed) (os : List Occasion) {k : Nat} {w : Select}
    (hw : (((ofPage p).initSelects {}).1.meetAll os).selects[k]? = some w) :
    let start := ((ofPage p).initSelects {}).1
    let l := start.meetAll os
    l.Displays k w ∧
      (w.state.isOpen = true → (l.page.element w.parts.wrapper).hasClass "is-open" = true) ∧
      ((l.page.element w.parts.wrapper).hasClass "is-open" = true → w.state.isOpen = true ∨
        (p.element w.parts.wrapper).hasClass "is-open" = true ∧
          ∀ m v, (start.meetAll (os.take m)).selects[k]? = some v → v.state.isOpen = false) := by
  obtain ⟨ps, hstart⟩ := inStep_initSelects hp
  have hend := hstart.meetAll os
  have hopened := (hend.selects k w hw).opened
  refine ⟨(hend.selects k w hw).displays, hopened.marked, fun hmarked => ?_⟩
  rcases hopened.of_marked hmarked with hopen | hauthored
  · exact .inl hopen
  cases hclosed : w.state.isOpen
  · refine .inr ⟨hauthored, fun m v hv => ?_⟩
    cases hopen : v.state.isOpen
    · rfl
    · -- Had it been open, the wrapper would have lost its slack then, and for good.
      have hthen := hstart.meetAll (os.take m)
      have hlater := (hthen.tighten hv hopen).meetAll (os.drop m)
      rw [← meetAll_append, List.take_append_drop] at hlater
      have hparts : w.parts = v.parts :=
        Option.some.inj ((hend.parts_of_select hw).symm.trans (hthen.parts_of_select hv))
      rcases (hlater.selects k w hw).opened.of_marked hmarked with hstill | ⟨-, hne⟩
      · rw [hclosed] at hstill
        cases hstill
      · exact absurd (congrArg Parts.wrapper hparts) hne
  · exact .inl rfl

/-- A select of three retention times, the second of which cannot be chosen. -/
def retentionTimes : Page :=
  (default : Page).withDocument (.element "html" true [] [.element "body" true []
    [.element "div" true [("data-retention-select", "")]
      [.element "select" true [("id", "keep")]
        [.element "option" true [] [.text "30 days"],
         .element "option" true [("disabled", "")] [.text "60 days"],
         .element "option" true [] [.text "90 days"]]]]])

/-- A visitor opens the menu, goes one entry down and chooses it. -/
def choosingNext : List Occasion :=
  [.click 7, .event ⟨"keydown", .element 9, true, true, some "ArrowDown"⟩,
    .event ⟨"keydown", .element 11, true, true, some "Enter"⟩]

/-- The select of that page, with its menu open or closed and an entry chosen. -/
def retentionSelect (isOpen : Bool) (chosen : Nat) : Select :=
  ⟨⟨2, 3, 7, 8, [9, 10, 11]⟩, {},
    ⟨[⟨"30 days", "30 days", false, true⟩, ⟨"60 days", "60 days", true, false⟩, ⟨"90 days", "90 days", false, false⟩],
      isOpen, chosen, some chosen, isOpen⟩⟩

/-- After the click the menu is shown as open; after the choice, as closed, with the third entry on the trigger. -/
theorem select_shows_third_entry :
    retentionTimes.WellFormed ∧
      let start := ((ofPage retentionTimes).initSelects {}).1
      (start.meetAll (choosingNext.take 1)).selects[0]? = some (retentionSelect true 0) ∧
        (start.meetAll (choosingNext.take 1)).Displays 0 (retentionSelect true 0) ∧
        (start.meetAll choosingNext).selects[0]? = some (retentionSelect false 2) ∧
        (start.meetAll choosingNext).Displays 0 (retentionSelect false 2) ∧
        (start.meetAll choosingNext).page.textContent 7 = "90 days" ∧
        ((start.meetAll choosingNext).page.element 2).hasClass "is-open" = false := by
  have hp : retentionTimes.WellFormed := wellFormed_default.withDocument _
  have hfirst : (((ofPage retentionTimes).initSelects {}).1.meetAll (choosingNext.take 1)).selects[0]? =
      some (retentionSelect true 0) := by decide +kernel
  have hlast : (((ofPage retentionTimes).initSelects {}).1.meetAll choosingNext).selects[0]? =
      some (retentionSelect false 2) := by decide +kernel
  obtain ⟨hopen, -, -⟩ := selects_show_their_states hp (choosingNext.take 1) hfirst
  obtain ⟨hclosed, -, hmarked⟩ := selects_show_their_states hp choosingNext hlast
  refine ⟨hp, hfirst, hopen, hlast, hclosed, ?_, ?_⟩
  · obtain ⟨i, e, hi, he, htext, -⟩ := hclosed.chosen
    obtain rfl : 2 = i := Option.some.inj hi
    obtain rfl := Option.some.inj he
    exact htext
  · rw [Bool.eq_false_iff]
    intro hclass
    rcases hmarked hclass with hstill | ⟨hauthored, -⟩
    · cases hstill
    · have hunmarked : (retentionTimes.element 2).hasClass "is-open" = false := by decide
      cases hunmarked.symm.trans hauthored

/-- A wrapper that is written with the class of an open menu. -/
def authoredOpen : Page :=
  (default : Page).withDocument (.element "html" true [] [.element "body" true []
    [.element "div" true [("data-retention-select", ""), ("class", "is-open")]
      [.element "select" true [("id", "keep")] [.element "option" true [] [.text "30 days"]]]]])

/-- The class of an open menu does not tell on every page whether the menu is open. -/
theorem wrapper_marked_while_closed : ¬∀ (p : Page), p.WellFormed → ∀ (os : List Occasion) (k : Nat) (w : Select),
    (((ofPage p).initSelects {}).1.meetAll os).selects[k]? = some w →
      ((((ofPage p).initSelects {}).1.meetAll os).page.element w.parts.wrapper).hasClass "is-open" = w.state.isOpen := by
  intro h
  let key : Occasion := .event ⟨"keydown", .element 1, true, true, some "x"⟩
  let w : Select := ⟨⟨2, 3, 5, 6, [7]⟩, {}, State.ofEntries [⟨"30 days", "30 days", false, true⟩]⟩
  have hw : (((ofPage authoredOpen).initSelects {}).1.meetAll [key]).selects[0]? = some w := by decide +kernel
  have hmarked : ((((ofPage authoredOpen).initSelects {}).1.meetAll [key]).page.element 2).hasClass "is-open" = true := by
    decide +kernel
  have hclosed := (h authoredOpen (wellFormed_default.withDocument _) [key] 0 w hw).symm.trans hmarked
  cases hclosed

end Live
end Widget
end PageWidgets
