import PageWidgets.Proofs.Listbox.Moves

/-! A panel that knows a listbox only by its effects. It opens, subscribes and points as it is told, and it refuses
    work that does not fit: to open what is open, to subscribe twice, to end what has not begun. Whatever is done
    to a listbox, the panel refuses nothing and always shows the state. -/

namespace PageWidgets
namespace Listbox

/-- What a page shows of a listbox: whether the menu is open, how many subscriptions to the document there are,
    what the native control has chosen, and which entries are shown as chosen and as active. -/
structure Panel where
  expanded : Bool
  subscriptions : Nat
  native : Option Nat
  shown : Option Nat
  highlighted : Option Nat
  deriving DecidableEq, Repr

namespace Panel

/-- A panel on which nothing was done yet. -/
def blank (native : Option Nat) : Panel := ⟨false, 0, native, none, none⟩

/-- Does the work fit? -/
def admits (p : Panel) : Effect → Bool
  | .expand => !p.expanded
  | .collapse => p.expanded
  | .listen => p.subscriptions == 0
  | .unlisten => p.subscriptions != 0
  | _ => true

/-- The panel after a piece of work. -/
def doing (p : Panel) : Effect → Panel
  | .expand => { p with expanded := true }
  | .collapse => { p with expanded := false }
  | .listen => { p with subscriptions := p.subscriptions + 1 }
  | .unlisten => { p with subscriptions := p.subscriptions - 1 }
  | .highlight i _ => { p with highlighted := some i }
  | .commit i => { p with native := some i }
  | .reflect i => { p with shown := some i }
  | .notify => p
  | .focusTrigger => p

/-- The panel after work in order, unless some of it does not fit. -/
def work (p : Panel) : List Effect → Option Panel
  | [] => some p
  | e :: rest => if p.admits e then (p.doing e).work rest else none

/-- The panel after a piece of work that is done whether it fits or not. -/
def forced (p : Panel) : Effect → Panel
  | .listen => { p with subscriptions := 1 }
  | .unlisten => { p with subscriptions := 0 }
  | e => p.doing e

/-- The panel when an operation is about to be performed: a change of the native control has already happened. -/
def before (p : Panel) : Operation → Panel
  | .nativeChanged native => { p with native }
  | _ => p

/-- The panel after operations, each with its work. -/
def follow (p : Panel) : List (Operation × List Effect) → Option Panel
  | [] => some p
  | (op, effects) :: rest => ((p.before op).work effects).bind fun q => q.follow rest

/-- The panel of a listbox of the entries: first the initial work, then that of the operations. -/
def ofRun (entries : List Entry) (native : Option Nat) (ops : List Operation) : Option Panel :=
  let s := State.ofEntries entries
  ((blank native).work (s.initialEffects native)).bind fun p => p.follow (ops.zip (s.run ops).2)

theorem before_of_ne {p : Panel} {op : Operation} (hop : ∀ native, op ≠ .nativeChanged native) : p.before op = p := by
  cases op with
  | nativeChanged native => exact absurd rfl (hop native)
  | _ => rfl

theorem work_append {p : Panel} {a b : List Effect} : p.work (a ++ b) = (p.work a).bind fun q => q.work b := by
  induction a generalizing p with
  | nil => rfl
  | cons e rest ih =>
    rw [List.cons_append, work, work]
    split
    · exact ih
    · rfl

end Panel

/-- A panel shows a state. -/
structure Shows (p : Panel) (s : State) : Prop where
  expanded : p.expanded = s.isOpen
  subscriptions : p.subscriptions = if s.listening then 1 else 0
  shown : p.shown = s.selected
  highlighted : p.highlighted = if s.entries.any Entry.enabled then some s.active else none

/-- Every change of the native control among the operations chose an enabled entry. -/
def NativeEnabled (entries : List Entry) (ops : List Operation) : Prop :=
  ∀ native, .nativeChanged native ∈ ops → ∃ i, native = some i ∧ enabledAt entries i = true

namespace Shows

variable {p : Panel} {s t : State}

theorem highlighted_of_any (h : Shows p s) (hany : s.entries.any Entry.enabled = true) :
    p.highlighted = some s.active := by
  rw [h.highlighted, hany, if_pos rfl]

theorem point (h : Shows p s) {i : Nat} (hi : s.selectable i = true) {native target : Option Nat} :
    Shows { p with native, shown := target, highlighted := some i } { s with selected := target, active := i } where
  expanded := h.expanded
  subscriptions := h.subscriptions
  shown := rfl
  highlighted := by
    have hany : s.entries.any Entry.enabled = true := any_enabled_iff.mpr ⟨i, hi⟩
    rw [hany, if_pos rfl]

theorem opening (h : Shows p s) (hclosed : s.isOpen = false) :
    ∃ q, p.work s.openingWork = some q ∧ Shows q { s with isOpen := true, listening := true } ∧
      q.native = p.native := by
  have hexp : p.expanded = false := h.expanded.trans hclosed
  -- Highlighting the active entry shows what is highlighted already.
  have hhigh : s.selectable s.active = true → p.highlighted = some s.active :=
    fun hsel => h.highlighted_of_any (any_enabled_iff.mpr ⟨s.active, hsel⟩)
  refine ⟨{ p with expanded := true, subscriptions := 1 }, ?_, ⟨rfl, rfl, h.shown, h.highlighted⟩, rfl⟩
  have hsub := h.subscriptions
  obtain ⟨pe, ps, pn, pw, ph⟩ := p
  cases hsel : s.selectable s.active <;> cases hl : s.listening <;>
    simp_all [State.openingWork, Panel.work, Panel.admits, Panel.doing]

theorem closing (h : Shows p s) (hopen : s.isOpen = true) (focusTrigger : Bool) :
    ∃ q, p.work (s.closingWork focusTrigger) = some q ∧ Shows q { s with isOpen := false, listening := false } ∧
      q.native = p.native := by
  have hexp : p.expanded = true := h.expanded.trans hopen
  refine ⟨{ p with expanded := false, subscriptions := 0 }, ?_, ⟨rfl, rfl, h.shown, h.highlighted⟩, rfl⟩
  have hsub := h.subscriptions
  obtain ⟨pe, ps, pn, pw, ph⟩ := p
  cases focusTrigger <;> cases hl : s.listening <;>
    simp_all [State.closingWork, Panel.work, Panel.admits, Panel.doing]

/-- The work of moves fits, and leaves a panel that shows the new state; a native control that agreed still does. -/
theorem move {effects : List Effect} (h : Shows p s) (hm : Move s effects t) :
    ∃ q, p.work effects = some q ∧ Shows q t ∧ (p.native = s.selected → q.native = t.selected) := by
  induction hm generalizing p with
  | rest => exact ⟨p, rfl, h, id⟩
  | @highlight s i focus hi =>
    refine ⟨{ p with highlighted := some i }, rfl, ?_, id⟩
    have hp : Shows { p with native := p.native, shown := s.selected, highlighted := some i }
      { s with selected := s.selected, active := i } := h.point hi
    rwa [show ({ p with native := p.native, shown := s.selected, highlighted := some i } : Panel) =
      { p with highlighted := some i } from by rw [← h.shown]] at hp
  | openMenu hclosed =>
    obtain ⟨q, hq, hs, hn⟩ := h.opening hclosed
    exact ⟨q, hq, hs, fun hp => hn.trans hp⟩
  | closeMenu focusTrigger hopen =>
    obtain ⟨q, hq, hs, hn⟩ := h.closing hopen focusTrigger
    exact ⟨q, hq, hs, fun hp => hn.trans hp⟩
  | choose hi => exact ⟨_, rfl, h.point hi, fun _ => rfl⟩
  | trans _ _ ih₁ ih₂ =>
    obtain ⟨q, hq, hs, hn⟩ := ih₁ h
    obtain ⟨r, hr, hs', hn'⟩ := ih₂ hs
    exact ⟨r, by rw [Panel.work_append, hq]; exact hr, hs', fun hp => hn' (hn hp)⟩

theorem nativeChanged (h : Shows p s) (native : Option Nat) :
    ∃ q, { p with native }.work (s.nativeChanged native).2 = some q ∧ Shows q (s.nativeChanged native).1 ∧
      ((∃ i, native = some i ∧ s.selectable i = true) → q.native = (s.nativeChanged native).1.selected) := by
  rcases s.nativeChanged_cases native with ⟨i, rfl, hi, heq⟩ | ⟨hno, heq⟩
  · rw [heq]
    exact ⟨_, rfl, h.point hi, fun _ => rfl⟩
  · rw [heq]
    refine ⟨_, rfl, ⟨h.expanded, h.subscriptions, h.shown, h.highlighted⟩, fun ⟨i, hi, hsel⟩ => ?_⟩
    rw [hno i hi] at hsel
    cases hsel

/-- One operation: its work fits, and leaves a panel that shows the new state. -/
theorem perform (h : Shows p s) (op : Operation) :
    ∃ q, (p.before op).work (s.perform op).2 = some q ∧ Shows q (s.perform op).1 ∧
      (p.native = s.selected → NativeEnabled s.entries [op] → q.native = (s.perform op).1.selected) := by
  by_cases hop : ∃ native, op = .nativeChanged native
  · obtain ⟨native, rfl⟩ := hop
    obtain ⟨q, hq, hs, hn⟩ := h.nativeChanged native
    exact ⟨q, hq, hs, fun _ hen => hn (hen native (List.mem_singleton.mpr rfl))⟩
  · have hop' : ∀ native, op ≠ .nativeChanged native := fun native heq => hop ⟨native, heq⟩
    obtain ⟨q, hq, hs, hn⟩ := h.move (s.perform_move hop')
    rw [Panel.before_of_ne hop']
    exact ⟨q, hq, hs, fun hp _ => hn hp⟩

/-- A run of operations, from any state that the panel shows. -/
theorem run (h : Shows p s) (ops : List Operation) :
    ∃ q, p.follow (ops.zip (s.run ops).2) = some q ∧ Shows q (s.run ops).1 ∧
      (p.native = s.selected → NativeEnabled s.entries ops → q.native = (s.run ops).1.selected) := by
  induction ops generalizing p s with
  | nil => exact ⟨p, rfl, h, fun hp _ => hp⟩
  | cons op ops ih =>
    obtain ⟨q, hq, hs, hn⟩ := h.perform op
    obtain ⟨r, hr, hs', hn'⟩ := ih hs
    refine ⟨r, ?_, hs', fun hp hen => ?_⟩
    · rw [State.run_cons, List.zip_cons_cons, Panel.follow, hq]
      exact hr
    · have hfirst : NativeEnabled s.entries [op] := fun native hm =>
        hen native (List.mem_cons.mpr (.inl (List.mem_singleton.mp hm)))
      have hrest : NativeEnabled (s.perform op).1.entries ops := fun native hm => by
        rw [s.perform_entries]
        exact hen native (List.mem_cons_of_mem _ hm)
      exact hn' (hn hp hfirst) hrest

/-- The initial work brings a blank panel to the state that a listbox begins with. -/
theorem initial (entries : List Entry) (native : Option Nat) :
    ∃ q, (Panel.blank native).work ((State.ofEntries entries).initialEffects native) = some q ∧
      Shows q (State.ofEntries entries) ∧ (entries ≠ [] → q.native = (State.ofEntries entries).selected) := by
  cases entries with
  | nil => exact ⟨Panel.blank native, rfl, ⟨rfl, rfl, rfl, rfl⟩, fun hne => absurd rfl hne⟩
  | cons e rest =>
    let i := initialIndex (e :: rest)
    -- The highlight is part of the initial work exactly when some entry is enabled.
    have hsel : enabledAt (e :: rest) i = (e :: rest).any Entry.enabled := by
      cases hany : (e :: rest).any Entry.enabled
      · exact not_enabledAt_of_any hany i
      · exact enabledAt_initialIndex hany
    have hselected : (State.ofEntries (e :: rest)).selected = some i := rfl
    refine ⟨⟨false, 0, some i, some i, if (e :: rest).any Entry.enabled then some i else none⟩, ?_,
      ⟨rfl, rfl, rfl, rfl⟩, fun _ => rfl⟩
    have hsel' : (State.ofEntries (e :: rest)).selectable i = (e :: rest).any Entry.enabled := hsel
    by_cases hnative : native = some i <;> cases hany : (e :: rest).any Entry.enabled <;>
      simp [State.initialEffects, hselected, hsel', hnative, hany, Panel.work, Panel.admits, Panel.doing, Panel.blank]

end Shows

/-- Whatever is done to a listbox, its work fits the panel at every point, and the panel shows the state. The
    native control shows the chosen entry too, as long as it was never changed to anything but an enabled one. -/
theorem panel_shows_run (entries : List Entry) (native : Option Nat) (ops : List Operation) :
    ∃ p, Panel.ofRun entries native ops = some p ∧ Shows p ((State.ofEntries entries).run ops).1 ∧
      (entries ≠ [] → NativeEnabled entries ops → p.native = ((State.ofEntries entries).run ops).1.selected) := by
  obtain ⟨q, hq, hs, hn⟩ := Shows.initial entries native
  obtain ⟨p, hp, hs', hn'⟩ := hs.run ops
  refine ⟨p, ?_, hs', fun hne hen => hn' (hn hne) hen⟩
  rw [Panel.ofRun, hq]
  exact hp

end Listbox
end PageWidgets
