import PageWidgets.Proofs.Widget.Lasting

/-! A live page endures everything that comes about: what lasts on its page stays (`Lasts`), and so does what the selects and
    the overlay need for that (`Fastened`). Two steps that are endured make one (`Endures.trans`), so each function of the
    program is taken once, and a history is a run of steps (`Endures.befallAll`). -/

namespace PageWidgets
namespace Widget

open Consent Page Calendar

/-- The selects and the overlay work with the default settings, and every trigger is a button with nothing below it. -/
structure Fastened (l : Live) : Prop where
  page : l.page.WellFormed
  selects : ∀ w ∈ l.selects, w.settings = {} ∧ l.page.Leaf w.parts.trigger ∧
    (l.page.element w.parts.trigger).isA "button" = true
  overlay : ∀ o, l.overlay = some o → o.settings = {}

namespace Live

/-- A step that a fastened live page lasts through. -/
def Endures (l m : Live) : Prop := Fastened l → Fastened m ∧ Lasts l.page m.page

namespace Endures

variable {l m r : Live} {k : Nat} {announce : Live → Nat → Live} {ready : Bool → Live → Live}

theorem trans (h : Endures l m) (h' : Endures m r) : Endures l r := by
  intro hl
  obtain ⟨hm, hfirst⟩ := h hl
  obtain ⟨hr, hlater⟩ := h' hm
  exact ⟨hr, hfirst.trans hlater hl.page⟩

/-- The page lasts, and the selects and the overlay are the same but for their states. -/
theorem goes (hpage : Fastened l → Lasts l.page m.page)
    (hselects : ∀ w ∈ m.selects, ∃ v ∈ l.selects, w.parts = v.parts ∧ w.settings = v.settings)
    (hoverlay : ∀ o, m.overlay = some o → o.settings = {} ∨ ∃ o', l.overlay = some o' ∧ o.settings = o'.settings) :
    Endures l m := by
  intro h
  have hlasts := hpage h
  refine ⟨⟨hlasts.wellFormed, fun w hw => ?_, fun o ho => ?_⟩, hlasts⟩
  · obtain ⟨v, hv, hparts, hsettings⟩ := hselects w hw
    obtain ⟨hdefault, hleaf, hbutton⟩ := h.selects v hv
    rw [hparts, hsettings]
    exact ⟨hdefault, hlasts.leaf _ hleaf, (hlasts.isA (h.page.known _ (leaf_iff.mp hleaf).1) _).trans hbutton⟩
  · rcases hoverlay o ho with hdefault | ⟨o', ho', heq⟩
    · exact hdefault
    · rw [heq]
      exact h.overlay o' ho'

/-- Only the page is different. -/
theorem paged (hpage : Fastened l → Lasts l.page m.page) (hselects : m.selects = l.selects)
    (hoverlay : m.overlay = l.overlay) : Endures l m :=
  goes hpage (fun w hw => ⟨w, hselects ▸ hw, rfl, rfl⟩) fun o ho => .inr ⟨o, hoverlay ▸ ho, rfl⟩

/-- The page stays the same; listeners, the log and the like are different. -/
theorem heard (hpage : m.page = l.page) (hselects : m.selects = l.selects) (hoverlay : m.overlay = l.overlay) :
    Endures l m :=
  paged (fun h => by rw [hpage]; exact .refl h.page) hselects hoverlay

theorem refl (l : Live) : Endures l l := heard rfl rfl rfl

/-- Nothing but the cookies, the clock and the like is different on the page. -/
theorem aside {q : Page} (htrees : q.trees = l.page.trees) (helements : q.elements = l.page.elements) :
    Endures l { l with page := q } :=
  paged (fun h => .of_elements h.page htrees helements) rfl rfl

/-- The visitor does something to a control. -/
theorem alike {q : Page} (h : Alike l.page q) : Endures l { l with page := q } :=
  paged (fun hl => .of_alike hl.page h) rfl rfl

theorem write (l : Live) (level : Level) (part text : String) : Endures l (l.write level part text) := heard rfl rfl rfl

/-! ### Work of selects -/

theorem applySelect (hann : ∀ l native, Endures l (announce l native)) (l : Live) (k : Nat) (e : Listbox.Effect) :
    Endures l (applySelect announce k l e) := by
  cases hw : l.selects[k]? with
  | none =>
    unfold Live.applySelect
    rw [hw]
    exact refl l
  | some w =>
    by_cases hedit : e ≠ .listen ∧ e ≠ .unlisten ∧ e ≠ .notify
    · intro h
      obtain ⟨hsettings, hleaf, hbutton⟩ := h.selects w (List.mem_of_getElem? hw)
      rw [applySelect_eq hw hsettings hedit]
      have hafter : Endures l { l with page := w.after l.page e } :=
        paged (fun h => .after_select h.page hsettings hleaf hbutton) rfl rfl
      exact hafter h
    · unfold Live.applySelect
      rw [hw]
      cases e with
      | listen => exact heard rfl rfl rfl
      | unlisten => exact heard rfl rfl rfl
      | notify =>
        let q : Page := { l.page with calls := l.page.calls ++ [.announce "change" w.parts.native] }
        have hcalled : Endures l { l with page := q } := aside rfl rfl
        exact hcalled.trans (hann _ _)
      | _ => exact absurd ⟨nofun, nofun, nofun⟩ hedit

theorem work (hann : ∀ l native, Endures l (announce l native)) (k : Nat) (es : List Listbox.Effect) (l : Live) :
    Endures l (es.foldl (Live.applySelect announce k) l) := by
  induction es generalizing l with
  | nil => exact refl l
  | cons e es ih => exact (applySelect hann l k e).trans (ih _)

theorem setState (l : Live) (k : Nat) (s : Listbox.State) : Endures l (l.setState k s) := by
  refine goes (fun h => .refl h.page) (fun w hw => ?_) fun o ho => .inr ⟨o, ho, rfl⟩
  obtain ⟨j, hj⟩ := List.mem_iff_getElem?.mp hw
  rw [selects_setState] at hj
  split at hj
  · obtain ⟨v, hv, rfl⟩ := Option.map_eq_some_iff.mp hj
    exact ⟨v, List.mem_of_getElem? hv, rfl, rfl⟩
  · exact ⟨w, List.mem_of_getElem? hj, rfl, rfl⟩

theorem callSelect (hann : ∀ l native, Endures l (announce l native)) (l : Live) (k : Nat)
    (f : Listbox.State → Listbox.State × List Listbox.Effect) : Endures l (l.callSelect announce k f) := by
  unfold Live.callSelect
  split
  · exact refl l
  · exact (setState l k _).trans (work hann k _ _)

/-! ### Work of the overlay -/

theorem assignCookie (l : Live) (assignment : String) : Endures l (l.assignCookie assignment) := by
  unfold Live.assignCookie
  split
  · split
    · exact aside rfl rfl
    · exact write l _ _ _
  · exact refl l

theorem applyOverlay (l : Live) (e : Effect) : Endures l (l.applyOverlay e) := by
  cases ho : l.overlay with
  | none =>
    unfold Live.applyOverlay
    rw [ho]
    exact refl l
  | some o =>
    by_cases hpersist : ∃ r, e = .persist r
    · obtain ⟨r, rfl⟩ := hpersist
      unfold Live.applyOverlay
      rw [ho]
      show Endures l (l.persist o.cookie r)
      unfold Live.persist
      split
      · exact aside rfl rfl
      · exact assignCookie l _
    · intro h
      have hsettings := h.overlay o ho
      have hafter : Endures l { l with page := o.after l.page e } :=
        paged (fun h => .after_overlay h.page hsettings) rfl rfl
      rw [applyOverlay_edits ho hsettings fun r heq => hpersist ⟨r, heq⟩]
      split
      · have harmed : Endures { l with page := o.after l.page e } (armTeardown { l with page := o.after l.page e } o) :=
          heard rfl rfl rfl
        exact hafter.trans harmed h
      · exact hafter h

theorem callOverlay (l : Live) (f : Session → Session × List Effect) : Endures l (l.callOverlay f) := by
  have hwork : ∀ (es : List Effect) (m : Live), Endures m (es.foldl Live.applyOverlay m) := by
    intro es
    induction es with
    | nil => exact refl
    | cons e es ih => exact fun m => (applyOverlay m e).trans (ih _)
  unfold Live.callOverlay
  split
  · exact refl l
  · next o ho =>
    dsimp only
    obtain ⟨log, hlog⟩ := foldl_noteRecord { l with overlay := some { o with session := (f o.session).1 } } (f o.session).2
    rw [hlog]
    have hnoted : Endures l { l with overlay := some { o with session := (f o.session).1 }, log } := by
      refine goes (fun h => .refl h.page) (fun w hw => ⟨w, hw, rfl, rfl⟩) fun o' ho' => .inr ⟨o, ho, ?_⟩
      obtain rfl := Option.some.inj ho'
      rfl
    exact hnoted.trans (hwork _ _)

theorem pressControl (l : Live) (name : String) : Endures l (l.pressControl name) := by
  unfold Live.pressControl
  split
  · exact refl l
  · dsimp only
    split
    · exact refl l
    · exact callOverlay l _

/-! ### Events -/

theorem handle (hann : ∀ l native, Endures l (announce l native)) (hready : ∀ test l, Endures l (ready test l))
    (event : Event) (x : Handler) (l : Live) : Endures l (Live.handle announce ready event x l).1 := by
  have hselect : x.OfSelect → Endures l (Live.handle announce ready event x l).1 := by
    intro hx
    have hcases : (Live.handle announce ready event x l).1 = l ∨
        ∃ k op, (Live.handle announce ready event x l).1 = l.callSelect announce k (·.perform op) := handle_cases hx
    rcases hcases with heq | ⟨k, op, heq⟩
    · rw [heq]
      exact refl l
    · rw [heq]
      exact callSelect hann l k _
  cases x with
  | ready test => exact hready test l
  | control name => exact pressControl l name
  | transitionEnd =>
    dsimp only [Live.handle]
    split
    · exact refl l
    · dsimp only
      split
      · exact callOverlay l _
      · exact refl l
  | _ => exact hselect trivial

theorem deliver (hann : ∀ l native, Endures l (announce l native)) (hready : ∀ test l, Endures l (ready test l))
    (event : Event) (l : Live) : Endures l (l.deliver (Live.handle announce ready) event).1 := by
  refine deliver_keeps (P := Endures l) (I := fun _ => True)
    ⟨fun _ _ _ _ => trivial, fun m x hm _ _ _ => ?_, fun m x hm _ _ => ?_⟩ (refl l)
  · have hgone : Endures m (m.without x) := heard rfl rfl rfl
    exact hm.trans hgone
  · exact hm.trans (handle hann hready event x.handler m)

theorem announceChange (l : Live) (native : Nat) : Endures l (l.announceChange native) :=
  deliver (fun l _ => refl l) (fun _ l => refl l) (changeOf native) l

/-! ### Setting up -/

theorem startOverlay (l : Live) (a : Anchors) : Endures l (l.startOverlay a {}) := by
  obtain ⟨base, next, -, heq⟩ := anchored_eq l a
  have hanchored : Endures l (l.anchored a) := by
    rw [heq]
    refine goes (fun h => .refl h.page) (fun w hw => ⟨w, hw, rfl, rfl⟩) fun o ho => .inl ?_
    obtain rfl := Option.some.inj ho
    rfl
  exact hanchored.trans (callOverlay _ (·.show_))

theorem initConsent (l : Live) : Endures l (l.initConsent {}).1 := by
  unfold Live.initConsent
  split
  · exact refl l
  · split
    · exact write l _ _ _
    · split
      · exact write l _ _ _
      · split
        · exact write l _ _ _
        · exact write l _ _ _
        · exact startOverlay l _

theorem bind (l : Live) (k : Nat) (parts : Parts) : Endures l (l.bind k parts) := by
  obtain ⟨new, next, heq, -⟩ := bind_eq l k parts
  rw [heq]
  exact heard rfl rfl rfl

/-- A select is put to work on a trigger of its own. -/
theorem startSelect {a : Parts} (hleaf : l.page.Leaf a.trigger) (hbutton : (l.page.element a.trigger).isA "button" = true)
    (entries : List Listbox.Entry) : Endures l (l.startSelect a {} entries) := by
  have hadded : Endures l { l with selects := l.selects ++ [⟨a, {}, .ofEntries entries⟩] } := by
    refine fun h => ⟨⟨h.page, fun w hw => ?_, h.overlay⟩, .refl h.page⟩
    rcases List.mem_append.mp hw with hw | hw
    · exact h.selects w hw
    · rw [List.mem_singleton.mp hw]
      exact ⟨rfl, hleaf, hbutton⟩
  exact (hadded.trans (work announceChange _ _ _)).trans (bind _ _ _)

end Endures

/-! ### Enhancing a wrapper -/

/-- A wrapper is passed over, or its parts are made and a select put to work on them, or the document makes no parts. -/
theorem enhance_cases {l : Live} (hp : l.page.WellFormed) (wrapper : Nat) :
    (∃ log r, l.enhance wrapper {} = ({ l with log }, r) ∧ ∀ k, r ≠ .ok (some k)) ∨
      ∃ native, l.page.firstSelect? wrapper = some native ∧ (l.page.element native).isA "select" = true ∧
        l.page.options native ≠ [] ∧
          (l.enhance wrapper {} = ({ l with page := readied l.page wrapper native },
              .error (.wrongElement "HTMLButtonElement")) ∨
            l.enhance wrapper {} = (({ l with page := (made l.page wrapper native).2 } : Live).startSelect
              (made l.page wrapper native).1 {} (entriesOf l.page native), .ok (some l.selects.length))) := by
  unfold enhance
  split
  · exact .inl ⟨_, _, rfl, nofun⟩
  · rw [query_select]
    dsimp only
    cases hfound : (l.page.firstSelect? wrapper).filter fun id => (l.page.element id).isA "select" with
    | none => exact .inl ⟨_, _, rfl, nofun⟩
    | some native =>
      obtain ⟨hfirst, hselect⟩ := Option.filter_eq_some_iff.mp hfound
      dsimp only
      split
      · exact .inl ⟨_, _, rfl, nofun⟩
      · next hentries =>
        have hoptions : l.page.options native ≠ [] := by
          rw [isEmpty_entriesOf] at hentries
          exact fun heq => hentries (by rw [heq]; rfl)
        split
        · exact .inl ⟨_, _, rfl, nofun⟩
        · refine .inr ⟨native, hfirst, hselect, hoptions, ?_⟩
          rw [render_made hp]
          by_cases hhtml : (prepare l.page wrapper native).surroundings.document = .html
          · rw [if_pos hhtml]
            exact .inr rfl
          · rw [if_neg hhtml]
            exact .inl rfl

namespace Endures

theorem enhance (l : Live) (wrapper : Nat) : Endures l (l.enhance wrapper {}).1 := by
  intro h
  rcases enhance_cases h.page wrapper with ⟨log, r, heq, -⟩ | ⟨native, hfirst, hselect, -, heq | heq⟩
  · rw [heq]
    exact (heard rfl rfl rfl : Endures l { l with log }) h
  · rw [heq]
    have hreadied : Endures l { l with page := readied l.page wrapper native } :=
      paged (fun h => .readied h.page wrapper native) rfl rfl
    exact hreadied h
  · rw [heq]
    obtain ⟨hlasts, hleaf, hbutton⟩ := Lasts.made h.page (mem_descendants_of_firstSelect? hfirst) hselect
    generalize made l.page wrapper native = r at hlasts hleaf hbutton ⊢
    have hmade : Endures l { l with page := r.2 } := paged (fun _ => hlasts) rfl rfl
    have hstarted := startSelect (l := { l with page := r.2 }) hleaf hbutton (entriesOf l.page native)
    exact hmade.trans hstarted h

theorem enhanceAll (l : Live) (ids : List Nat) : Endures l (enhanceAll {} l ids).1 := by
  induction ids generalizing l with
  | nil => exact refl l
  | cons wrapper rest ih =>
    have hone := enhance l wrapper
    unfold Live.enhanceAll
    generalize l.enhance wrapper {} = r at hone
    obtain ⟨m, f | _ | k⟩ := r
    · exact (hone.trans (write m _ _ _)).trans (ih _)
    · exact hone.trans (ih m)
    · exact hone.trans (ih m)

theorem initSelects (l : Live) : Endures l (l.initSelects {}).1 := by
  unfold Live.initSelects
  split
  · exact refl l
  · split
    · exact write l _ _ _
    · exact enhanceAll l _

/-! ### The program -/

theorem whenReady (test : Bool) (l : Live) : Endures l (whenReady test l) := by
  have hinit : Endures l l.init.1 := ((initConsent l).trans (initSelects _)).trans (write _ _ _ _)
  have hinstall : Endures l l.init.1.install := by
    refine hinit.trans ?_
    unfold Live.install
    split
    · exact refl _
    · split
      · exact write _ _ _ _
      · exact heard rfl rfl rfl
  unfold Live.whenReady
  cases test
  · exact hinit
  · exact hinstall

theorem dispatch (l : Live) (event : Event) : Endures l (l.dispatch event).1 := deliver announceChange whenReady event l

theorem start (l : Live) : Endures l l.start := by
  have hlevel : ∀ level, Endures l (l.setLevel level) := fun level => heard rfl rfl rfl
  unfold Live.start
  dsimp only
  generalize (if l.testMode = true then Level.debug else Level.info) = level
  split
  · exact hlevel _
  · split
    · exact heard rfl rfl rfl
    · exact (hlevel _).trans (whenReady _ _)

theorem callHook (l : Live) (c : HookCall) : Endures l (l.callHook c).1 := by
  cases c with
  | state => exact refl l
  | reset =>
    dsimp only [Live.callHook]
    split
    · exact assignCookie l _
    · exact refl l
  | enhance => exact initSelects l

theorem flip (l : Live) (id : Nat) : Endures l (l.flip id) := alike (.modify fun _ => ⟨rfl, rfl, rfl⟩)

theorem meet (l : Live) (o : Occasion) : Endures l (l.meet o) := by
  cases o with
  | click id =>
    show Endures l (l.click id).1
    unfold Live.click
    dsimp only
    split
    · exact refl l
    · split
      · split
        · exact ((flip l id).trans (dispatch _ _)).trans (flip _ id)
        · exact (flip l id).trans (dispatch _ _)
      · exact dispatch l _
  | event e => exact dispatch l e
  | pick native index =>
    show Endures l (l.pick native index).1
    unfold Live.pick
    dsimp only
    split
    · exact (alike (alike_choose l.page native index)).trans (dispatch _ _)
    · exact dispatch l _
  | pass ms =>
    have hlater : ∀ (l : Live) (now : Instant), Endures l { l with page := { l.page with now } } :=
      fun _ _ => aside rfl rfl
    have htimer : ∀ l : Live, Endures l l.fireTimer := fun l =>
      (heard rfl rfl rfl : Endures l { l with timer := none }).trans (callOverlay _ _)
    show Endures l (l.advance ms)
    unfold Live.advance
    dsimp only
    split
    · split
      · exact ((hlater _ _).trans (htimer _)).trans (hlater _ _)
      · exact hlater _ _
    · exact hlater _ _

theorem turn (l : Live) (t : Turn) : Endures l (l.turn t) := by
  cases t with
  | deed d =>
    cases d with
    | start => exact start l
    | complete => exact (aside rfl rfl : Endures l { l with page := { l.page with loading := false } }).trans (dispatch _ _)
    | consent => exact initConsent l
    | hook c => exact callHook l c
    | occasion o => exact meet l o
  | check id on =>
    show Endures l (l.check id on)
    unfold Live.check
    split
    · exact alike (.modify fun _ => ⟨rfl, rfl, rfl⟩)
    · exact refl l
  | cookie assignment => exact assignCookie l assignment

end Endures
end Live

/-! ### Histories with wrappers of any kind -/

/-- What comes about on a live page: a turn, a wrapper that a program enhances, marked or not, an action that it applies to
    the overlay, or a select that it closes. -/
inductive Happening where
  | turn (t : Turn)
  | enhance (wrapper : Nat)
  | act (a : Action)
  | close (select : Nat) (focusTrigger : Bool)

namespace Live

/-- The live page after something came about. -/
def befall (l : Live) : Happening → Live
  | .turn t => l.turn t
  | .enhance wrapper => (l.enhance wrapper {}).1
  | .act a => l.performAction a
  | .close select focusTrigger => (l.closeSelect select focusTrigger).1

def befallAll (l : Live) (hs : List Happening) : Live := hs.foldl befall l

theorem Endures.befall (l : Live) (h : Happening) : Endures l (l.befall h) := by
  cases h with
  | turn t => exact turn l t
  | enhance wrapper => exact enhance l wrapper
  | act a => exact callOverlay l (·.apply a)
  | close select focusTrigger =>
    show Endures l (l.closeSelect select focusTrigger).1
    unfold Live.closeSelect
    split
    · exact refl l
    · exact callSelect announceChange l select (·.closeMenu focusTrigger)

theorem Endures.befallAll (l : Live) (hs : List Happening) : Endures l (l.befallAll hs) := by
  induction hs generalizing l with
  | nil => exact refl l
  | cons h hs ih => exact (befall l h).trans (ih _)

theorem fastened_ofPage {p : Page} (hp : p.WellFormed) : Fastened (ofPage p) :=
  ⟨hp, fun _ hw => absurd hw List.not_mem_nil, fun _ => nofun⟩

end Live
end Widget
end PageWidgets
