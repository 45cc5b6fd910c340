import PageWidgets.Proofs.Widget.SelectAgrees

/-! Page code that answers the change of a select by using the selects again while the change is still announced. The
    listbox of a choice is closed before its work begins, but the page is closed only after the announcement, with work
    that was decided on before. Whatever page code does in between, this work is done: the page ends up closed, and
    when the listbox was opened again meanwhile, the two are out of step. -/

namespace PageWidgets
namespace Widget

open Listbox Page

/-- What page code does when it hears of a change. -/
inductive Reaction where
  | rest
  /-- The select itself hears of the change. -/
  | echo
  /-- An event happens; the changes that are announced meanwhile are answered in turn. -/
  | event (e : Event) (inner : Reaction)
  /-- The program closes a select. -/
  | close (select : Nat) (focusTrigger : Bool)
  | both (first second : Reaction)
  deriving DecidableEq, Repr

/-- The changes that are announced while the page code is at work are heard by the selects alone. -/
def Reaction.Plain : Reaction → Prop
  | .event _ inner => inner = .echo
  | .both first second => first.Plain ∧ second.Plain
  | _ => True

namespace Live

/-- Carries out a reaction to the change of a native select. -/
def react : Reaction → Live → Nat → Live
  | .rest, l, _ => l
  | .echo, l, native => l.announceChange native
  | .event e inner, l, _ => (l.deliver (handle (react inner) fun _ l => l) e).1
  | .close k focusTrigger, l, _ => l.callSelect (fun l _ => l) k (·.closeMenu focusTrigger)
  | .both first second, l, native => react second (react first l native) native

/-! ### Steady pages -/

/-- The page shows something of a select, in step with its listbox or not. -/
structure Standing (l : Live) (k : Nat) (w : Select) (slack : Prop) : Prop where
  settings : w.settings = {}
  fits : w.parts.Fits l.page
  items : w.parts.items.length = w.state.entries.length
  coherent : Coherent w.state.entries w.state
  renders : ∃ q, l.Renders k w.parts w.state.entries slack q

/-- The page shows something of each of its selects, which have those parts. -/
structure Steady (ps : List Parts) (slack : Nat → Prop) (l : Live) : Prop where
  page : l.page.WellFormed
  parts : l.selects.map (·.parts) = ps
  apart : ps.Pairwise Parts.Apart
  selects : ∀ k w, l.selects[k]? = some w → l.Standing k w (slack w.parts.wrapper)
  listeners : ∀ x ∈ l.listeners, x.Attentive

section
variable {l m : Live} {k : Nat} {w : Select} {ps : List Parts} {slack : Nat → Prop} {s : Prop}
  {due : Nat → List Effect} {e : Effect} {es : List Effect} {q : Panel} {announce : Live → Nat → Live}

theorem Standing.congr (h : l.Standing k w s) (hpage : m.page = l.page) (hdocument : m.onDocument k = l.onDocument k) :
    m.Standing k w s := by
  obtain ⟨q, hq⟩ := h.renders
  refine ⟨h.settings, ?_, h.items, h.coherent, q, hq.congr hpage hdocument⟩
  rw [hpage]
  exact h.fits

theorem InStep.steady (h : InStep ps slack due l) : Steady ps slack l where
  page := h.page
  parts := h.parts
  apart := h.apart
  selects k w hw := by
    have hshowing := h.selects k w hw
    obtain ⟨q, -, hrenders, -⟩ := hshowing.shows
    exact ⟨hshowing.settings, hshowing.fits, hshowing.items, hshowing.coherent, q, hrenders⟩
  listeners := h.listeners

/-- A piece of work that is no announcement takes a panel on, whether it fits or not. -/
theorem Renders.apply (h : l.Renders k w.parts w.state.entries s q) (hw : l.selects[k]? = some w) (hs : w.settings = {})
    (hp : l.page.WellFormed) (hf : w.parts.Fits l.page) (he : e ≠ .notify)
    (hi : ∀ i focus, e = .highlight i focus → i < w.parts.items.length) :
    (applySelect announce k l e).Renders k w.parts w.state.entries s (q.forced e) := by
  by_cases hlisten : e = .listen
  · subst hlisten
    have heq : applySelect announce k l .listen = l.subscribe k := by
      unfold applySelect
      rw [hw]
    rw [heq]
    exact ⟨h.opened, subscribed_subscribe, h.reflected, h.highlighted⟩
  · by_cases hunlisten : e = .unlisten
    · subst hunlisten
      have heq : applySelect announce k l .unlisten = l.unlisten (Handler.onDocument k) := by
        unfold applySelect
        rw [hw]
      rw [heq]
      exact ⟨h.opened, .never onDocument_unlisten_self, h.reflected, h.highlighted⟩
    · have hedit : e ≠ .listen ∧ e ≠ .unlisten ∧ e ≠ .notify := ⟨hlisten, hunlisten, he⟩
      have hforced : q.forced e = q.doing e := by
        unfold Panel.forced
        split
        · exact absurd rfl hlisten
        · exact absurd rfl hunlisten
        · rfl
      rw [applySelect_eq hw hs hedit, hforced]
      exact renders_own_edit hs hp hf hedit hi h

theorem Steady.apply (h : Steady ps slack l) (hw : l.selects[k]? = some w) (he : e ≠ .notify)
    (hi : ∀ i focus, e = .highlight i focus → i < w.parts.items.length) :
    Steady ps slack (applySelect announce k l e) := by
  have hstanding := h.selects k w hw
  have hd : Done k w e l (applySelect announce k l e) :=
    done_apply hw hstanding.settings h.page hstanding.fits he hi
  refine ⟨hd.page, ?_, h.apart, fun j v hv => ?_, fun x hx => (hd.listeners x hx).elim (h.listeners x) id⟩
  · rw [hd.selects]
    exact h.parts
  · rw [hd.selects] at hv
    have hv' := h.selects j v hv
    obtain ⟨q, hrenders⟩ := hv'.renders
    refine ⟨hv'.settings, hd.fits _ hv'.fits, hv'.items, hv'.coherent, ?_⟩
    by_cases hjk : j = k
    · subst hjk
      obtain rfl : w = v := Option.some.inj (hw.symm.trans hv)
      exact ⟨_, hrenders.apply hw hstanding.settings h.page hstanding.fits he hi⟩
    · exact ⟨q, hd.others j _ _ _ q hjk hv'.fits (apart_of_pairwise h.parts h.apart (Ne.symm hjk) hw hv) hrenders⟩

theorem Steady.alike (h : Steady ps slack l) (hpage : Alike l.page m.page) (hselects : m.selects = l.selects)
    (hlisteners : m.listeners = l.listeners) : Steady ps slack m := by
  have htrees : m.page.trees = l.page.trees := by
    unfold trees
    rw [hpage.tree, hpage.loose]
  refine ⟨h.page.congr htrees hpage.length, ?_, h.apart, fun k w hw => ?_, ?_⟩
  · rw [hselects]
    exact h.parts
  · rw [hselects] at hw
    have hstanding := h.selects k w hw
    obtain ⟨q, hrenders⟩ := hstanding.renders
    have hmarks := Parts.Unmoved.of_alike hpage
    have hdocument : m.onDocument k = l.onDocument k := by
      unfold onDocument
      rw [hlisteners]
    exact ⟨hstanding.settings, hstanding.fits.unmoved hmarks (hstanding.fits.leaf.congr (by rw [htrees])),
      hstanding.items, hstanding.coherent, q,
      hrenders.unmoved hstanding.fits hmarks (textContent_congr (by rw [htrees])) hdocument⟩
  · rw [hlisteners]
    exact h.listeners

/-- Whoever listens to an announcement leaves the page steady. -/
def Steadying (announce : Live → Nat → Live) : Prop :=
  ∀ ps slack l native, Steady ps slack l → Steady ps slack (announce l native)

theorem Steady.notify (hann : Steadying announce) (h : Steady ps slack l) :
    Steady ps slack (applySelect announce k l .notify) := by
  unfold applySelect
  split
  · exact h
  · refine hann _ _ _ _ (h.alike ?_ rfl rfl)
    exact ⟨rfl, rfl, rfl, rfl, rfl, rfl, fun _ => rfl, fun _ => rfl, fun _ => rfl⟩

theorem Steady.work {a : Parts} (hann : Steadying announce) (ha : ps[k]? = some a)
    (hi : ∀ i focus, .highlight i focus ∈ es → i < a.items.length) (h : Steady ps slack l) :
    Steady ps slack (es.foldl (applySelect announce k) l) := by
  induction es generalizing l with
  | nil => exact h
  | cons e es ih =>
    refine ih (fun i focus hmem => hi i focus (List.mem_cons_of_mem e hmem)) ?_
    by_cases he : e = .notify
    · rw [he]
      exact h.notify hann
    · obtain ⟨w, hw, rfl⟩ := exists_select h.parts ha
      exact h.apply hw he fun i focus heq => hi i focus (heq ▸ List.mem_cons_self)

theorem Steady.setState (h : Steady ps slack l) (hw : l.selects[k]? = some w) {t : State}
    (hentries : t.entries = w.state.entries) (hcoherent : Coherent w.state.entries t) :
    Steady ps slack (l.setState k t) := by
  refine ⟨h.page, (parts_setState t).trans h.parts, h.apart, fun j v hv => ?_, h.listeners⟩
  rw [selects_setState] at hv
  split at hv
  · next hkj =>
    subst hkj
    rw [hw] at hv
    obtain rfl := Option.some.inj hv
    have hstanding := h.selects k w hw
    obtain ⟨q, hrenders⟩ := hstanding.renders
    refine ⟨hstanding.settings, hstanding.fits, ?_, ?_, q, ?_⟩
    · exact hstanding.items.trans (congrArg List.length hentries).symm
    · rw [hentries]
      exact hcoherent
    · rw [hentries]
      exact hrenders.congr rfl rfl
  · exact (h.selects j v hv).congr rfl rfl

theorem Steady.callSelect (hann : Steadying announce) (h : Steady ps slack l) (k : Nat) (op : Operation) :
    Steady ps slack (l.callSelect announce k (·.perform op)) := by
  unfold Live.callSelect
  split
  · exact h
  · next w hw =>
    have hanswers := w.state.perform_answers op
    have hstanding := h.selects k w hw
    refine Steady.work hann (getElem?_parts h.parts hw) (fun i focus hi => ?_)
      (h.setState hw hanswers.entries (hanswers.coherent hstanding.coherent))
    rw [hstanding.items]
    exact hanswers.highlights i focus hi

theorem Steady.deliver {ready : Bool → Live → Live} (hann : Steadying announce) (h : Steady ps slack l)
    (event : Event) : Steady ps slack (l.deliver (handle announce ready) event).1 :=
  deliver_selects_keep (fun _ hm => hm.listeners) (fun _ k op hm => hm.callSelect hann k op) h event

theorem steadying_react (r : Reaction) : Steadying (react r) := by
  have hnone : Steadying fun l _ => l := fun _ _ _ _ h => h
  induction r with
  | rest => exact hnone
  | echo => exact fun _ _ l native h => h.deliver hnone (changeOf native)
  | event e inner ih => exact fun _ _ l _ h => h.deliver ih e
  | close k focusTrigger => exact fun _ _ l _ h => h.callSelect hnone k (.closeMenu focusTrigger)
  | both first second ih₁ ih₂ => exact fun ps slack l native h => ih₂ ps slack _ native (ih₁ ps slack l native h)

theorem Steady.close (h : Steady ps slack l) (hw : l.selects[k]? = some w) (hes : ∀ e ∈ es, e.Closing)
    (hq : l.Renders k w.parts w.state.entries (slack w.parts.wrapper) q) :
    (es.foldl (applySelect announce k) l).selects = l.selects ∧
      (es.foldl (applySelect announce k) l).Renders k w.parts w.state.entries (slack w.parts.wrapper)
        (es.foldl Panel.forced q) := by
  induction es generalizing l q with
  | nil => exact ⟨rfl, hq⟩
  | cons e es ih =>
    have hclosing := hes e List.mem_cons_self
    have he : e ≠ .notify := by
      rintro rfl
      exact hclosing
    have hi : ∀ i focus, e = .highlight i focus → i < w.parts.items.length := by
      rintro i focus rfl
      exact hclosing.elim
    have hstanding := h.selects k w hw
    have hd : Done k w e l (applySelect announce k l e) :=
      done_apply hw hstanding.settings h.page hstanding.fits he hi
    have hnext : (applySelect announce k l e).Renders k w.parts w.state.entries (slack w.parts.wrapper) (q.forced e) :=
      hq.apply hw hstanding.settings h.page hstanding.fits he hi
    obtain ⟨hselects, hrenders⟩ :=
      ih (h.apply hw he hi) (hd.selects ▸ hw) (fun f hf => hes f (List.mem_cons_of_mem e hf)) hnext
    exact ⟨hselects.trans hd.selects, hrenders⟩

/-- The page of a choice in an open menu ends up closed, whatever is done while the choice is announced. -/
theorem Steady.choose (hann : Steadying announce) (h : Steady ps slack l) (hw : l.selects[k]? = some w)
    (hopen : w.state.isOpen = true) {i : Nat} (hi : w.state.selectable i = true) :
    ∃ v q, (l.callSelect announce k (·.commit i true)).selects[k]? = some v ∧ v.parts = w.parts ∧
      Coherent v.state.entries v.state ∧
      (l.callSelect announce k (·.commit i true)).Renders k v.parts v.state.entries (slack v.parts.wrapper) q ∧
      q.expanded = false ∧ q.subscriptions = 0 := by
  have hstanding := h.selects k w hw
  have hanswers := w.state.perform_answers (.commit i true)
  have hwork := w.state.commit_of_open hopen (hstanding.coherent.listening_eq.trans hopen) hi
  have ha := getElem?_parts h.parts hw
  -- The listbox is closed first; then comes the work up to the announcement, and what is made of that.
  have hset := h.setState hw hanswers.entries (hanswers.coherent hstanding.coherent)
  have hpointing : ∀ j focus, .highlight j focus ∈ State.choosingWork i → j < w.parts.items.length := by
    intro j focus hj
    rw [hstanding.items]
    refine hanswers.highlights j focus ?_
    show Effect.highlight j focus ∈ (w.state.commit i true).2
    rw [hwork]
    exact List.mem_append_left _ hj
  have hannounced := hset.work hann ha hpointing
  obtain ⟨v, hv, hparts⟩ := exists_select hannounced.parts ha
  have hv' := hannounced.selects k v hv
  obtain ⟨q, hrenders⟩ := hv'.renders
  -- Only now the page is closed.
  have hes : ∀ e ∈ [Effect.collapse, .unlisten, .focusTrigger], e.Closing := by simp [Effect.Closing]
  have hcall : l.callSelect announce k (·.commit i true) = [Effect.collapse, .unlisten, .focusTrigger].foldl
      (applySelect announce k) ((State.choosingWork i).foldl (applySelect announce k)
        (l.setState k (w.state.commit i true).1)) := by
    unfold Live.callSelect
    rw [hw]
    show (w.state.commit i true).2.foldl (applySelect announce k) (l.setState k (w.state.commit i true).1) = _
    rw [hwork, List.foldl_append]
  rw [hcall]
  obtain ⟨hselects, hclosed⟩ := hannounced.close hv hes hrenders
  exact ⟨v, _, (congrArg (·[k]?) hselects).trans hv, hparts, hv'.coherent, hclosed, rfl, rfl⟩

/-! ### Choices that close nothing -/

theorem InStep.react {r : Reaction} (hr : r.Plain) (h : InStep ps slack nothingDue l) (native : Nat) :
    InStep ps slack nothingDue (Live.react r l native) := by
  have hdue : ∀ j, ∀ e ∈ nothingDue j, e.Closing := fun _ _ he => absurd he List.not_mem_nil
  induction r generalizing l with
  | rest => exact h
  | echo => exact faithful_announceChange _ _ _ _ _ hdue h
  | event e inner =>
    cases hr
    exact h.deliver faithful_announceChange e
  | close k focusTrigger =>
    exact h.callSelect (fun _ _ _ _ _ _ h => h) hdue fun w _ => w.state.perform_answers (.closeMenu focusTrigger)
  | both first second ih₁ ih₂ => exact ih₂ hr.2 (ih₁ hr.1 h)

/-- A choice that closes nothing is announced last, on a page that is in step by then. -/
theorem InStep.choose {r : Reaction} (hr : r.Plain) (h : InStep ps slack nothingDue l) (hw : l.selects[k]? = some w)
    {close : Bool} (hstays : close = true → w.state.isOpen = false) {i : Nat} (hi : w.state.selectable i = true) :
    InStep ps slack nothingDue (l.callSelect (Live.react r) k (·.commit i close)) := by
  have hwork := w.state.commit_of_closed hstays hi
  have hanswers := w.state.perform_answers (.commit i close)
  have ha := h.parts_of_select hw
  have hset : InStep ps slack (Function.update nothingDue k (State.choosingWork i))
      (l.setState k (w.state.commit i close).1) := by
    have hdue : (w.state.perform (.commit i close)).2 ++ nothingDue k = State.choosingWork i :=
      (List.append_nil _).trans hwork
    rw [← hdue]
    exact h.setState hw hanswers
  have hpointing : ∀ j focus, Effect.highlight i false = .highlight j focus → j < w.parts.items.length := by
    rintro j focus hj
    obtain ⟨rfl, -⟩ := Effect.highlight.inj hj
    rw [(h.selects k w hw).items]
    exact lt_length_of_enabledAt hi
  -- Three pieces of work come before the announcement, and nothing is due after it.
  have hdo : ∀ {m : Live} {e : Effect} {rest : List Effect},
      InStep ps slack (Function.update nothingDue k (e :: rest)) m → e ≠ .notify →
      (∀ j focus, e = .highlight j focus → j < w.parts.items.length) →
      InStep ps slack (Function.update nothingDue k rest) (applySelect (Live.react r) k m e) :=
    fun hm he hpointing => hm.apply ha he hpointing
  have hhighlighted := hdo (hdo (hdo hset nofun nofun) nofun nofun) nofun hpointing
  have hannounced : ∃ m native, applySelect (Live.react r) k _ .notify = Live.react r m native ∧
      InStep ps slack (Function.update nothingDue k []) m := hhighlighted.announced ha
  obtain ⟨m, native, heq, hm⟩ := hannounced
  have hcall : l.callSelect (Live.react r) k (·.commit i close) = Live.react r m native := by
    unfold Live.callSelect
    rw [hw]
    show (w.state.commit i close).2.foldl (applySelect (Live.react r) k) (l.setState k (w.state.commit i close).1) = _
    rw [hwork]
    exact heq
  have hdone : Function.update nothingDue k [] = nothingDue := Function.update_eq_self k nothingDue
  rw [hdone] at hm
  rw [hcall]
  exact hm.react hr native

end

/-! ### What is left -/

/-- The page tells of the menu of a select what its listbox has of it: by the class of the wrapper, by what the trigger
    tells, and by the listeners on the document. -/
structure TellsMenu (l : Live) (k : Nat) (w : Select) : Prop where
  marked : (l.page.element w.parts.wrapper).hasClass "is-open" = true ↔ w.state.isOpen = true
  expanded : (l.page.element w.parts.trigger).attr? "aria-expanded" = some "true" ↔ w.state.isOpen = true
  listening : l.onDocument k ≠ [] ↔ w.state.listening = true

/-- A choice in an open menu, by a click on an item or by a key, leaves the page closed, whatever page code does while the
    choice is announced. So the page is in step with the listbox just when page code has left the listbox closed. -/
theorem choice_closes_page {p : Page} (hp : p.WellFormed) (os : List Occasion) {k i : Nat} {w : Select}
    (hw : (((ofPage p).initSelects {}).1.meetAll os).selects[k]? = some w) (hopen : w.state.isOpen = true)
    (hi : w.state.selectable i = true) (r : Reaction) :
    let m := (((ofPage p).initSelects {}).1.meetAll os).callSelect (react r) k (·.commit i true)
    ∃ v, m.selects[k]? = some v ∧ v.parts = w.parts ∧
      (m.page.element w.parts.wrapper).hasClass "is-open" = false ∧
      (m.page.element w.parts.trigger).attr? "aria-expanded" = some "false" ∧ m.onDocument k = [] ∧
      (m.TellsMenu k v ↔ v.state.isOpen = false) := by
  obtain ⟨ps, hstart⟩ := inStep_initSelects hp
  have hthen := (hstart.meetAll os).tighten hw hopen
  intro m
  obtain ⟨v, q, hv, hparts, hcoherent, hrenders, hexpanded, hsubscriptions⟩ :=
    hthen.steady.choose (steadying_react r) hw hopen hi
  have hopened := hrenders.opened
  have hsubscribed := hrenders.subscribed
  rw [hparts, hexpanded] at hopened
  rw [hsubscriptions] at hsubscribed
  have hmarked : (m.page.element w.parts.wrapper).hasClass "is-open" = false := by
    rw [Bool.eq_false_iff]
    intro hclass
    rcases hopened.of_marked hclass with h | ⟨-, hne⟩
    · cases h
    · exact hne rfl
  have hdocument : m.onDocument k = [] := by
    cases hsubscribed with
    | never hnone => exact hnone
  refine ⟨v, hv, hparts, hmarked, hopened.expanded, hdocument, fun htells => ?_, fun hclosed => ?_⟩
  · rw [Bool.eq_false_iff]
    intro hstill
    have hexpanded := htells.expanded.mpr hstill
    rw [hparts, hopened.expanded] at hexpanded
    simp at hexpanded
  · refine ⟨?_, ?_, ?_⟩
    · rw [hparts, hmarked, hclosed]
    · rw [hparts, hopened.expanded, hclosed]
      simp
    · rw [hdocument, hcoherent.listening_eq, hclosed]
      simp

/-- After any other choice, when page code is plain, the page shows the state of the listbox. -/
theorem choice_displayed {p : Page} (hp : p.WellFormed) (os : List Occasion) {k i : Nat} {close : Bool} {w : Select}
    (hw : (((ofPage p).initSelects {}).1.meetAll os).selects[k]? = some w)
    (hstays : close = true → w.state.isOpen = false) (hi : w.state.selectable i = true) {r : Reaction} (hr : r.Plain) :
    let m := (((ofPage p).initSelects {}).1.meetAll os).callSelect (react r) k (·.commit i close)
    ∃ v, m.selects[k]? = some v ∧ v.parts = w.parts ∧ m.Displays k v := by
  intro m
  obtain ⟨ps, hstart⟩ := inStep_initSelects hp
  have hthen := hstart.meetAll os
  have hend : InStep ps _ nothingDue m := hthen.choose hr hw hstays hi
  obtain ⟨v, hv, hparts⟩ := exists_select hend.parts (hthen.parts_of_select hw)
  exact ⟨v, hv, hparts, (hend.selects k v hv).displays⟩

/-- Page code that clicks the trigger when it hears of a change. -/
def clickTrigger : Reaction := .both .echo (.event ⟨"click", .element 7, true, true, none⟩ .echo)

/-- Page code that clicks the trigger leaves nobody listening to the document. -/
theorem nobody_listens_after_click :
    retentionTimes.WellFormed ∧
      let l := ((ofPage retentionTimes).initSelects {}).1.meetAll (choosingNext.take 1)
      l.selects[0]? = some (retentionSelect true 0) ∧ (retentionSelect true 0).state.selectable 2 = true ∧
        (l.callSelect (react clickTrigger) 0 (·.commit 2 true)).onDocument 0 = [] := by
  have hp : retentionTimes.WellFormed := wellFormed_default.withDocument _
  have hw : (((ofPage retentionTimes).initSelects {}).1.meetAll (choosingNext.take 1)).selects[0]? =
      some (retentionSelect true 0) := by decide +kernel
  obtain ⟨v, -, -, -, -, hdocument, -⟩ := choice_closes_page hp (choosingNext.take 1) hw rfl (i := 2) rfl clickTrigger
  exact ⟨hp, hw, rfl, hdocument⟩

/-- When page code opens the menu again, the page is closed over an open listbox. -/
theorem reopened_while_announced : ¬∀ (p : Page), p.WellFormed → ∀ (os : List Occasion) (k i : Nat) (close : Bool)
    (r : Reaction) (v : Select),
    ((((ofPage p).initSelects {}).1.meetAll os).callSelect (react r) k (·.commit i close)).selects[k]? = some v →
      ((((ofPage p).initSelects {}).1.meetAll os).callSelect (react r) k (·.commit i close)).TellsMenu k v := by
  intro h
  have hp : retentionTimes.WellFormed := wellFormed_default.withDocument _
  have hreopened :
      let m := (((ofPage retentionTimes).initSelects {}).1.meetAll (choosingNext.take 1)).callSelect
        (react clickTrigger) 0 (·.commit 2 true)
      m.selects[0]? = some (retentionSelect true 2) ∧ (m.page.element 7).attr? "aria-expanded" = some "false" := by
    decide +kernel
  have htells := (h retentionTimes hp (choosingNext.take 1) 0 2 true clickTrigger _ hreopened.1).expanded.mpr rfl
  exact absurd (hreopened.2.symm.trans htells) (by decide)

end Live
end Widget
end PageWidgets
