import PageWidgets.Proofs.Page.Edit
import PageWidgets.Widget.Overlay

/-! What the consent overlay shows on its page. It is revealed or concealed, its views are those of one view or not,
    and it is marked with a view or with none; each effect of the session makes one or two of these and leaves the
    others alone. What must be shown in a phase is put together from them (`Anchors.Shows`). -/

namespace PageWidgets
namespace Widget

open Consent Page

namespace Anchors

/-! ### What is shown -/

/-- The overlay is seen and the page does not scroll, or neither. -/
structure Revealed (a : Anchors) (on : Bool) (p : Page) : Prop where
  visible : (p.element a.overlay).hasClass "is-visible" = on
  hidden : (p.element a.overlay).attr? "aria-hidden" = some (if on then "false" else "true")
  scroll : ∀ body, p.body? = some body →
    (p.element body).styleValue? "overflow" = if on then some "hidden" else none

/-- The elements of that view are not hidden, those of every other are. -/
def Viewing (a : Anchors) (v : View) (p : Page) : Prop :=
  ∀ e ∈ a.views, (p.element e.2).hasAttr "hidden" = decide (e.1 ≠ v) ∧
    (p.element e.2).attr? "aria-hidden" = some (if e.1 = v then "false" else "true")

/-- The overlay is marked with that view, or with none. -/
def Marked (a : Anchors) (m : Option View) (p : Page) : Prop :=
  (p.element a.overlay).attr? "data-active-view" = m.map View.name

/-- What the page shows in a phase, when `last` was the last view to be visible. -/
inductive Shows (a : Anchors) (p : Page) : Phase → Option View → Prop where
  | hidden {last : Option View} (concealed : a.Revealed false p) (unmarked : a.Marked none p) : a.Shows p .hidden last
  | visible {v : View} (revealed : a.Revealed true p) (viewing : a.Viewing v p) (marked : a.Marked (some v) p) :
      a.Shows p (.visible v) (some v)
  | dismissing {v : View} (concealed : a.Revealed false p) (marked : a.Marked (some v) p) :
      a.Shows p .dismissing (some v)

/-- The elements that the overlay works with are elements of the page, each is listed once, and the views are
    below the overlay. -/
structure Fits (a : Anchors) (p : Page) : Prop where
  overlay_known : a.overlay < p.elements.length
  body_known : ∀ body, p.body? = some body → body < p.elements.length
  views_known : ∀ e ∈ a.views, e.2 < p.elements.length
  views_distinct : (a.views.map (·.2)).Nodup
  views_below : ∀ e ∈ a.views, e.2 ≠ a.overlay

end Anchors

namespace Overlay

variable {o : Overlay} {p : Page}

/-! ### The edits of an effect -/

theorem viewEdits_append (v : View) (l m : List (View × Nat)) :
    viewEdits v (l ++ m) = viewEdits v l ++ viewEdits v m := by
  induction l with
  | nil => rfl
  | cons e l ih =>
    obtain ⟨w, id⟩ := e
    rw [List.cons_append, viewEdits, viewEdits, ih, List.append_assoc]

/-- The attributes that an effect writes. -/
def Writes (o : Overlay) : Effect → Nat → String → Prop
  | .reveal, id, name => id = o.anchors.overlay ∧ (name = "class" ∨ name = "aria-hidden") ∨ name = "style"
  | .conceal, id, name => id = o.anchors.overlay ∧ (name = "class" ∨ name = "aria-hidden") ∨ name = "style"
  | .showView _, id, name =>
    (∃ e ∈ o.anchors.views, e.2 = id) ∧ (name = "hidden" ∨ name = "aria-hidden") ∨
      id = o.anchors.overlay ∧ name = "data-active-view"
  | .clearViewMarker, id, name => id = o.anchors.overlay ∧ name = "data-active-view"
  | .focusView _, _, _ => False
  | .persist _, _, _ => False

/-- An edit of an effect: no page refuses it, it changes no text, and it writes what the effect writes. -/
structure Fair (o : Overlay) (effect : Effect) (x : Edit) : Prop where
  sound : x.Sound
  textless : ∀ id text, x ≠ .setText id text
  writes : ∀ id name, x.slot? = some (id, name) → o.Writes effect id name

theorem Fair.of_slot {effect : Effect} {x : Edit} {id : Nat} {name : String} (hslot : x.slot? = some (id, name))
    (hsound : x.Sound) (hwrites : o.Writes effect id name) : Fair o effect x where
  sound := hsound
  textless := by
    rintro i text rfl
    cases hslot
  writes := by
    intro i m h
    rw [hslot] at h
    cases h
    exact hwrites

theorem fair_of_mem_viewEdits {v w : View} {l : List (View × Nat)} (hl : ∀ e ∈ l, e ∈ o.anchors.views) {x : Edit}
    (hx : x ∈ viewEdits v l) : Fair o (.showView w) x := by
  have hhidden : Element.validName "hidden" = true := by decide
  have haria : Element.validName "aria-hidden" = true := by decide
  induction l with
  | nil => exact absurd hx List.not_mem_nil
  | cons e l ih =>
    have hthere : ∃ f ∈ o.anchors.views, f.2 = e.2 := ⟨e, hl e List.mem_cons_self, rfl⟩
    rw [viewEdits] at hx
    rcases List.mem_append.mp hx with hx | hx
    · split at hx
      · rcases List.mem_cons.mp hx with rfl | hx
        · exact .of_slot rfl trivial (.inl ⟨hthere, .inl rfl⟩)
        · rw [List.mem_singleton.mp hx]
          exact .of_slot rfl haria (.inl ⟨hthere, .inr rfl⟩)
      · rcases List.mem_cons.mp hx with rfl | hx
        · exact .of_slot rfl hhidden (.inl ⟨hthere, .inl rfl⟩)
        · rw [List.mem_singleton.mp hx]
          exact .of_slot rfl haria (.inl ⟨hthere, .inr rfl⟩)
    · exact ih (fun f hf => hl f (List.mem_cons_of_mem _ hf)) hx

theorem fair_of_mem_edits (ho : o.settings = {}) {effect : Effect} {x : Edit} (hx : x ∈ o.edits p effect) :
    Fair o effect x := by
  have hclass : Element.Token "is-visible" := by decide
  have haria : Element.validName "aria-hidden" = true := by decide
  have hmark : Element.validName "data-active-view" = true := by decide
  cases effect with
  | reveal =>
    simp only [edits, ho, List.cons_append, List.nil_append, List.mem_cons, List.mem_map, Option.mem_toList] at hx
    rcases hx with rfl | rfl | ⟨body, -, rfl⟩
    · exact .of_slot rfl hclass (.inl ⟨rfl, .inl rfl⟩)
    · exact .of_slot rfl haria (.inl ⟨rfl, .inr rfl⟩)
    · exact .of_slot rfl trivial (.inr rfl)
  | conceal =>
    simp only [edits, ho, List.cons_append, List.nil_append, List.mem_cons, List.mem_map, Option.mem_toList] at hx
    rcases hx with rfl | rfl | ⟨body, -, rfl⟩
    · exact .of_slot rfl hclass (.inl ⟨rfl, .inl rfl⟩)
    · exact .of_slot rfl haria (.inl ⟨rfl, .inr rfl⟩)
    · exact .of_slot rfl trivial (.inr rfl)
  | showView v =>
    rw [edits, ho] at hx
    rcases List.mem_append.mp hx with hx | hx
    · exact fair_of_mem_viewEdits (fun e he => he) hx
    · rw [List.mem_singleton.mp hx]
      exact .of_slot rfl hmark (.inr ⟨rfl, rfl⟩)
  | focusView v =>
    obtain ⟨target, -, rfl⟩ := List.mem_map.mp hx
    exact ⟨trivial, fun id text => nofun, fun id name => nofun⟩
  | persist record => exact absurd hx List.not_mem_nil
  | clearViewMarker =>
    rw [edits, ho] at hx
    rw [List.mem_singleton.mp hx]
    exact .of_slot rfl trivial ⟨rfl, rfl⟩

theorem plain_of_writes {effect : Effect} {id : Nat} {name : String} (h : o.Writes effect id name) :
    Element.Plain name := by
  have hnames : ∀ n ∈ ["class", "aria-hidden", "style", "hidden", "data-active-view"], Element.Plain n := by decide
  refine hnames name ?_
  cases effect <;> simp only [Writes] at h <;> simp only [List.mem_cons] <;> grind

/-- The page after an effect. -/
def after (o : Overlay) (p : Page) (effect : Effect) : Page := (p.perform (o.edits p effect)).1

section
variable {effect : Effect}

theorem edited_after (o : Overlay) (p : Page) (effect : Effect) : Edited p (o.after p effect) := edited_perform p _

theorem perform_edits (ho : o.settings = {}) : p.perform (o.edits p effect) = (o.after p effect, none) :=
  Prod.ext rfl (perform_of_sound fun _ hx => (fair_of_mem_edits ho hx).sound)

theorem trees_after (ho : o.settings = {}) :
    (o.after p effect).tree = p.tree ∧ (o.after p effect).loose = p.loose :=
  trees_perform fun _ hx => (fair_of_mem_edits ho hx).textless

theorem attr?_after (ho : o.settings = {}) {id : Nat} {name : String} (hname : Element.Plain name)
    (hid : id < p.elements.length) (h : ¬o.Writes effect id name) :
    ((o.after p effect).element id).attr? name = (p.element id).attr? name := by
  refine look_perform_of_keeps (·.attr? name) (fun x hx => ?_) hid
  have hfair := fair_of_mem_edits ho hx
  refine Edit.Spares.keeps (fun m hm => ?_) hname
  have hwrites := hfair.writes id m hm
  refine ⟨plain_of_writes hwrites, ?_⟩
  rintro rfl
  exact h hwrites

end

end Overlay

/-! ### What stays -/

namespace Anchors

variable {a : Anchors} {p q : Page}

theorem body?_congr (htree : q.tree = p.tree) (hloose : q.loose = p.loose)
    (hbody : ∀ id, (q.element id).isA "body" = (p.element id).isA "body") : q.body? = p.body? := by
  unfold Page.body? Page.root? Page.children Page.trees
  simp only [htree, hloose, hbody]

theorem Fits.congr (h : a.Fits p) (hlength : q.elements.length = p.elements.length) (hbody : q.body? = p.body?) :
    a.Fits q where
  overlay_known := by rw [hlength]; exact h.overlay_known
  body_known := by rw [hlength, hbody]; exact h.body_known
  views_known := by rw [hlength]; exact h.views_known
  views_distinct := h.views_distinct
  views_below := h.views_below

theorem Revealed.congr {on : Bool} (h : a.Revealed on p) (hbody : q.body? = p.body?)
    (hclass : (q.element a.overlay).attr? "class" = (p.element a.overlay).attr? "class")
    (haria : (q.element a.overlay).attr? "aria-hidden" = (p.element a.overlay).attr? "aria-hidden")
    (hstyle : ∀ body, p.body? = some body → (q.element body).attr? "style" = (p.element body).attr? "style") :
    a.Revealed on q where
  visible := (Element.hasClass_congr hclass _).trans h.visible
  hidden := haria.trans h.hidden
  scroll := by
    intro body hq
    rw [hbody] at hq
    rw [Element.styleValue?_congr (hstyle body hq)]
    exact h.scroll body hq

theorem Viewing.congr {v : View} (h : a.Viewing v p)
    (hhidden : ∀ e ∈ a.views, (q.element e.2).attr? "hidden" = (p.element e.2).attr? "hidden")
    (haria : ∀ e ∈ a.views, (q.element e.2).attr? "aria-hidden" = (p.element e.2).attr? "aria-hidden") :
    a.Viewing v q := by
  intro e he
  obtain ⟨h₁, h₂⟩ := h e he
  rw [Element.hasAttr] at h₁ ⊢
  rw [hhidden e he, haria e he]
  exact ⟨h₁, h₂⟩

/-- The same attributes show the same. -/
theorem Shows.congr {phase : Phase} {last : Option View} (h : a.Shows p phase last) (hbody : q.body? = p.body?)
    (hattr : ∀ id name, (q.element id).attr? name = (p.element id).attr? name) : a.Shows q phase last := by
  have hrevealed : ∀ on, a.Revealed on p → a.Revealed on q :=
    fun on h => h.congr hbody (hattr _ _) (hattr _ _) fun _ _ => hattr _ _
  have hmarked : ∀ m, a.Marked m p → a.Marked m q := fun m h => (hattr _ _).trans h
  cases h with
  | hidden concealed unmarked => exact .hidden (hrevealed _ concealed) (hmarked _ unmarked)
  | visible revealed viewing marked =>
    exact .visible (hrevealed _ revealed) (viewing.congr (fun _ _ => hattr _ _) fun _ _ => hattr _ _)
      (hmarked _ marked)
  | dismissing concealed marked => exact .dismissing (hrevealed _ concealed) (hmarked _ marked)

end Anchors

namespace Overlay

variable {o : Overlay} {p : Page} {effect : Effect}

theorem body?_after (ho : o.settings = {}) (p : Page) (effect : Effect) : (o.after p effect).body? = p.body? :=
  Anchors.body?_congr (trees_after ho).1 (trees_after ho).2 fun id => (edited_after o p effect).isA id "body"

theorem fits_after (ho : o.settings = {}) (h : o.anchors.Fits p) : o.anchors.Fits (o.after p effect) :=
  h.congr (edited_after o p effect).length (body?_after ho p effect)

theorem plain_hidden : Element.Plain "hidden" := by decide

theorem plain_ariaHidden : Element.Plain "aria-hidden" := by decide

theorem plain_marker : Element.Plain "data-active-view" := by decide

/-! ### What an effect makes -/

/-- Edits of the overlay's class, of what it says to readers, and of the body's style reveal or conceal it. -/
theorem revealed_perform (on : Bool) {c : Edit} {style : Nat → Edit} (h : o.anchors.Fits p)
    (hc : c.slot? = some (o.anchors.overlay, "class") ∧ c.Sound ∧
      c.Makes (·.hasClass "is-visible") o.anchors.overlay on)
    (hstyle : ∀ body, (style body).slot? = some (body, "style") ∧ (style body).Sound ∧
      (style body).Makes (·.styleValue? "overflow") body (if on then some "hidden" else none))
    (hbody : (p.perform ([c, .setAttr o.anchors.overlay "aria-hidden" (if on then "false" else "true")] ++
      p.body?.toList.map style)).1.body? = p.body?) :
    o.anchors.Revealed on (p.perform ([c, .setAttr o.anchors.overlay "aria-hidden" (if on then "false" else "true")] ++
      p.body?.toList.map style)).1 := by
  let aria : Edit := .setAttr o.anchors.overlay "aria-hidden" (if on then "false" else "true")
  have haria : aria.Sound := by
    show Element.validName "aria-hidden" = true
    decide
  have hstyles : ∀ x ∈ p.body?.toList.map style, x.Sound ∧ ∃ body, x.slot? = some (body, "style") := by
    intro x hx
    obtain ⟨body, -, rfl⟩ := List.mem_map.mp hx
    exact ⟨(hstyle body).2.1, body, (hstyle body).1⟩
  have hsound : ∀ x ∈ c :: aria :: p.body?.toList.map style, x.Sound := by
    intro x hx
    rcases List.mem_cons.mp hx with rfl | hx
    · exact hc.2.1
    · rcases List.mem_cons.mp hx with rfl | hx
      · exact haria
      · exact (hstyles x hx).1
  constructor
  · refine look_perform_of_makes (·.hasClass "is-visible") [] c (aria :: _) hsound hc.2.2 (fun x hx => ?_)
      h.overlay_known
    rcases List.mem_cons.mp hx with rfl | hx
    · exact Edit.Spares.keeps_hasClass (.of_slot rfl plain_ariaHidden fun _ => by decide) _
    · obtain ⟨-, body, hslot⟩ := hstyles x hx
      exact Edit.Spares.keeps_hasClass (.of_slot hslot Element.plain_style fun _ => by decide) _
  · refine look_perform_of_makes (·.attr? "aria-hidden") [c] aria _ hsound Edit.makes_setAttr
      (fun x hx => ?_) h.overlay_known
    obtain ⟨-, body, hslot⟩ := hstyles x hx
    exact Edit.Spares.keeps (.of_slot hslot Element.plain_style fun _ => by decide) plain_ariaHidden
  · intro body hq
    rw [hbody] at hq
    have hlast : p.body?.toList.map style = [style body] := by rw [hq]; rfl
    rw [hlast] at hsound ⊢
    exact look_perform_of_makes (·.styleValue? "overflow") [c, aria] (style body) [] hsound
      (hstyle body).2.2 (fun x hx => absurd hx List.not_mem_nil) (h.body_known body hq)

theorem revealed_reveal (ho : o.settings = {}) (h : o.anchors.Fits p) : o.anchors.Revealed true (o.after p .reveal) := by
  have hclass : Element.Token "is-visible" := by decide
  have hbody := body?_after ho p .reveal
  unfold after edits at hbody ⊢
  rw [ho] at hbody ⊢
  refine revealed_perform true h ⟨rfl, hclass, Edit.makes_addClass hclass⟩ (fun body => ⟨rfl, trivial, ?_⟩) hbody
  exact Edit.makes_setStyle ⟨by decide, by decide, by decide, by decide, by decide⟩

theorem revealed_conceal (ho : o.settings = {}) (h : o.anchors.Fits p) :
    o.anchors.Revealed false (o.after p .conceal) := by
  have hclass : Element.Token "is-visible" := by decide
  have hbody := body?_after ho p .conceal
  unfold after edits at hbody ⊢
  rw [ho] at hbody ⊢
  exact revealed_perform false h ⟨rfl, hclass, Edit.makes_removeClass⟩
    (fun body => ⟨rfl, trivial, Edit.makes_removeStyle⟩) hbody

section
variable {v w : View} {id : Nat} {before later : List (View × Nat)}

/-- What comes after the edits of one view's element is about other elements. -/
theorem spares_later (h : o.anchors.Fits p) (hsplit : o.anchors.views = before ++ (w, id) :: later) (m : String) :
    ∀ x ∈ viewEdits v later ++ [Edit.setAttr o.anchors.overlay "data-active-view" v.name], x.Spares id m := by
  have hbelow : id ≠ o.anchors.overlay := h.views_below (w, id) (by simp [hsplit])
  have hdistinct := h.views_distinct
  rw [hsplit, List.map_append, List.map_cons, List.nodup_append, List.nodup_cons] at hdistinct
  intro x hx
  rcases List.mem_append.mp hx with hx | hx
  · let rest : Overlay := { o with anchors := { o.anchors with views := later } }
    intro name hslot
    have hfair : Fair rest (.showView v) x := fair_of_mem_viewEdits (fun e he => he) hx
    rcases hfair.writes id name hslot with ⟨⟨e, he, rfl⟩, -⟩ | ⟨hoverlay, -⟩
    · exact absurd (List.mem_map_of_mem he) hdistinct.2.1.1
    · exact absurd hoverlay hbelow
  · rw [List.mem_singleton.mp hx]
    exact .of_slot rfl plain_marker fun heq => absurd heq.symm hbelow

theorem edits_showView (ho : o.settings = {}) (hsplit : o.anchors.views = before ++ (w, id) :: later) :
    o.edits p (.showView v) = viewEdits v before ++ (viewEdits v [(w, id)] ++
      (viewEdits v later ++ [Edit.setAttr o.anchors.overlay "data-active-view" v.name])) := by
  have hcons : viewEdits v ((w, id) :: later) = viewEdits v [(w, id)] ++ viewEdits v later :=
    viewEdits_append v [(w, id)] later
  rw [edits, ho, hsplit, viewEdits_append, hcons, List.append_assoc, List.append_assoc]

/-- The element of a view is seen as its own two edits make it. -/
theorem attrs_after_showView (ho : o.settings = {}) (h : o.anchors.Fits p)
    (hsplit : o.anchors.views = before ++ (w, id) :: later) {first second : Edit} {hidden aria : Option String}
    (hone : viewEdits v [(w, id)] = [first, second]) (hfirst : first.Makes (·.attr? "hidden") id hidden)
    (hslot : second.slot? = some (id, "aria-hidden")) (hsecond : second.Makes (·.attr? "aria-hidden") id aria) :
    ((o.after p (.showView v)).element id).attr? "hidden" = hidden ∧
      ((o.after p (.showView v)).element id).attr? "aria-hidden" = aria := by
  have hid : id < p.elements.length := h.views_known (w, id) (by simp [hsplit])
  have hsound : ∀ x ∈ o.edits p (.showView v), x.Sound := fun x hx => (fair_of_mem_edits ho hx).sound
  unfold after
  rw [edits_showView ho hsplit, hone] at hsound ⊢
  constructor
  · refine look_perform_of_makes (·.attr? "hidden") _ first _ hsound hfirst (fun x hx => ?_) hid
    rcases List.mem_cons.mp hx with rfl | hx
    · exact Edit.Spares.keeps (.of_slot hslot plain_ariaHidden fun _ => by decide) plain_hidden
    · exact (spares_later h hsplit _ x hx).keeps plain_hidden
  · rw [List.cons_append, List.append_cons] at hsound ⊢
    exact look_perform_of_makes (·.attr? "aria-hidden") _ second _ hsound hsecond
      (fun x hx => (spares_later h hsplit _ x hx).keeps plain_ariaHidden) hid

end

theorem viewing_showView (ho : o.settings = {}) (h : o.anchors.Fits p) (v : View) :
    o.anchors.Viewing v (o.after p (.showView v)) := by
  rintro ⟨w, id⟩ he
  obtain ⟨before, later, hsplit⟩ := List.append_of_mem he
  show _ = decide (w ≠ v) ∧ _ = some (if w = v then "false" else "true")
  unfold Element.hasAttr
  by_cases hw : w = v
  · have hone : viewEdits v [(w, id)] = [.removeAttr id "hidden", .setAttr id "aria-hidden" "false"] := by
      simp [viewEdits, hw]
    obtain ⟨hhidden, haria⟩ :=
      attrs_after_showView ho h hsplit hone Edit.makes_removeAttr rfl Edit.makes_setAttr
    rw [hhidden, haria]
    simp [hw]
  · have hone : viewEdits v [(w, id)] = [.setAttr id "hidden" "", .setAttr id "aria-hidden" "true"] := by
      simp [viewEdits, hw]
    obtain ⟨hhidden, haria⟩ := attrs_after_showView ho h hsplit hone Edit.makes_setAttr rfl Edit.makes_setAttr
    rw [hhidden, haria]
    simp [hw]

theorem marked_showView (ho : o.settings = {}) (h : o.anchors.Fits p) (v : View) :
    o.anchors.Marked (some v) (o.after p (.showView v)) := by
  have hsound : ∀ x ∈ o.edits p (.showView v), x.Sound := fun x hx => (fair_of_mem_edits ho hx).sound
  unfold Anchors.Marked after
  rw [edits, ho] at hsound ⊢
  exact look_perform_of_makes (·.attr? "data-active-view") _ _ [] hsound Edit.makes_setAttr
    (fun x hx => absurd hx List.not_mem_nil) h.overlay_known

theorem marked_clearViewMarker (ho : o.settings = {}) (h : o.anchors.Fits p) :
    o.anchors.Marked none (o.after p .clearViewMarker) := by
  have hsound : ∀ x ∈ o.edits p .clearViewMarker, x.Sound := fun x hx => (fair_of_mem_edits ho hx).sound
  unfold Anchors.Marked after
  rw [edits, ho] at hsound ⊢
  exact look_perform_of_makes (·.attr? "data-active-view") [] _ [] hsound Edit.makes_removeAttr
    (fun x hx => absurd hx List.not_mem_nil) h.overlay_known

/-! ### What an effect leaves alone -/

/-- Only revealing and concealing touch what is revealed. -/
theorem revealed_after {on : Bool} (ho : o.settings = {}) (h : o.anchors.Fits p)
    (heffect : effect ≠ .reveal ∧ effect ≠ .conceal) (hp : o.anchors.Revealed on p) :
    o.anchors.Revealed on (o.after p effect) := by
  have hclass : ¬o.Writes effect o.anchors.overlay "class" := by
    cases effect <;> simp_all [Writes]
  have haria : ¬o.Writes effect o.anchors.overlay "aria-hidden" := by
    cases effect with
    | showView v =>
      rintro (⟨⟨e, he, hoverlay⟩, -⟩ | ⟨-, hname⟩)
      · exact h.views_below e he hoverlay
      · exact absurd hname (by decide)
    | _ => simp_all [Writes]
  have hstyle : ∀ body, ¬o.Writes effect body "style" := by
    cases effect <;> simp_all [Writes]
  exact hp.congr (body?_after ho p effect) (attr?_after ho Element.plain_class h.overlay_known hclass)
    (attr?_after ho plain_ariaHidden h.overlay_known haria)
    fun body hbody => attr?_after ho Element.plain_style (h.body_known body hbody) (hstyle body)

/-- Giving an element the focus touches no view. -/
theorem viewing_focusView {v w : View} (ho : o.settings = {}) (h : o.anchors.Fits p) (hp : o.anchors.Viewing v p) :
    o.anchors.Viewing v (o.after p (.focusView w)) :=
  hp.congr (fun e he => attr?_after ho plain_hidden (h.views_known e he) id)
    (fun e he => attr?_after ho plain_ariaHidden (h.views_known e he) id)

/-- Only showing a view and removing the mark touch the mark. -/
theorem marked_after {m : Option View} (ho : o.settings = {}) (h : o.anchors.Fits p)
    (heffect : (∀ v, effect ≠ .showView v) ∧ effect ≠ .clearViewMarker) (hp : o.anchors.Marked m p) :
    o.anchors.Marked m (o.after p effect) := by
  have hmark : ¬o.Writes effect o.anchors.overlay "data-active-view" := by
    cases effect <;> simp_all [Writes]
  exact (attr?_after ho plain_marker h.overlay_known hmark).trans hp

end Overlay
end Widget
end PageWidgets
