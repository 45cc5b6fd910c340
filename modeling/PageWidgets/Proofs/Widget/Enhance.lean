import PageWidgets.Proofs.Widget.Seats
import PageWidgets.Proofs.Widget.SelectRuns
import PageWidgets.Widget.Startup

/-! Setting up the selects of a page. A wrapper awaits it when it is not marked as enhanced and the first select below
    it has options (`Page.awaits`). Enhancing one wrapper makes parts in it (`Made`) and leaves every other element as
    it was (`Furnished`), so what the wrappers after it await is told by the page as it was before the first of them;
    and when all are done, none awaits anything. -/

namespace PageWidgets

namespace Page

/-! ### Wrappers -/

/-- The first element below another one that is called a select. -/
def firstSelect? (p : Page) (id : Nat) : Option Nat :=
  (p.descendants id).find? fun i => Text.lowerAsciiText (p.element i).tag == "select"

/-- Does a wrapper wait to be enhanced: is it not marked as enhanced, and the first select below it one with options? -/
def awaits (p : Page) (id : Nat) : Bool :=
  (p.element id).attr? "data-retention-enhanced" != some "true"
    && (p.firstSelect? id).any fun native => (p.element native).isA "select" && !(p.options native).isEmpty

/-- The marked wrappers below the root of the document, in order. -/
def wrappers (p : Page) : List Nat :=
  match p.root? with
  | none => []
  | some root => (p.descendants root).filter fun id => (p.element id).hasAttr "data-retention-select"

/-- The wrappers that wait to be enhanced, in order. -/
def awaiting (p : Page) : List Nat := p.wrappers.filter p.awaits

/-- The wrappers that can be enhanced: only an HTML document makes the parts. -/
def enhanceable (p : Page) : List Nat :=
  if p.hasDocument = true ∧ p.surroundings.document = .html then p.awaiting else []

end Page

namespace Widget

open Listbox Page

section
variable {p q : Page} {id : Nat}

theorem Hosts.firstSelect?_eq (h : Hosts p q) (hid : id < p.elements.length) :
    q.firstSelect? id = p.firstSelect? id := by
  have hnames : ∀ t ∈ ["", "button", "ul", "li"], (Text.lowerAsciiText t == "select") = false := by decide
  unfold firstSelect?
  rw [← List.head?_filter, ← List.head?_filter]
  exact congrArg List.head? (h.grown.filter_descendants hid (fun i hi => by rw [h.grown.tag i hi])
    fun i hi => hnames _ (h.fresh i hi).tag)

theorem Hosts.options_eq (h : Hosts p q) (hid : id < p.elements.length) : q.options id = p.options id := by
  have hnames : ∀ t ∈ ["", "button", "ul", "li"], (t == "option") = false := by decide
  refine h.grown.filter_descendants hid (fun i hi => h.grown.isA hi "option") fun i hi => ?_
  unfold Element.isA
  rw [hnames _ (h.fresh i hi).tag, Bool.and_false]

theorem mem_descendants_of_firstSelect? {native : Nat} (h : p.firstSelect? id = some native) :
    native ∈ p.descendants id := List.mem_of_find?_eq_some h

/-- What a wrapper waits for is what it waited for, when its mark is as it was. -/
theorem Hosts.awaits_eq (h : Hosts p q) (hp : p.WellFormed) (hid : id < p.elements.length)
    (hmark : (q.element id).attr? "data-retention-enhanced" = (p.element id).attr? "data-retention-enhanced") :
    q.awaits id = p.awaits id := by
  unfold awaits
  rw [hmark, h.firstSelect?_eq hid]
  cases hfirst : p.firstSelect? id with
  | none => rfl
  | some native =>
    have hnative := (hp.descendants id).2.2 _ (mem_descendants_of_firstSelect? hfirst)
    simp only [Option.any_some, h.options_eq hnative, h.grown.isA hnative]

theorem awaits_of_enhanced (h : (p.element id).attr? "data-retention-enhanced" = some "true") :
    p.awaits id = false := by
  unfold awaits
  rw [h]
  rfl

theorem awaits_of_no_select (h : ((p.firstSelect? id).filter fun i => (p.element i).isA "select") = none) :
    p.awaits id = false := by
  unfold awaits
  cases hfirst : p.firstSelect? id with
  | none => simp
  | some native =>
    rw [hfirst, Option.filter_eq_none_iff] at h
    have hother : (p.element native).isA "select" = false := by simpa using h native rfl
    simp [hother]

theorem awaits_of_select {native : Nat} (hfresh : (p.element id).attr? "data-retention-enhanced" ≠ some "true")
    (hfirst : p.firstSelect? id = some native) (hselect : (p.element native).isA "select" = true) :
    p.awaits id = !(p.options native).isEmpty := by
  unfold awaits
  simp [hfresh, hfirst, hselect]

theorem hasDocument_congr (h : q.surroundings = p.surroundings) : q.hasDocument = p.hasDocument := by
  unfold hasDocument
  rw [h]

/-- The wrappers of a page with new elements are those of the page. -/
theorem Hosts.wrappers_eq (h : Hosts p q) (hp : p.WellFormed) : q.wrappers = p.wrappers := by
  unfold wrappers
  rw [h.grown.root]
  cases hroot : p.root? with
  | none => rfl
  | some root =>
    refine h.grown.filter_descendants (hp.known root (mem_trees_of_mem_root? hroot))
      (fun i hi => h.hasAttr hi (by simp)) fun i hi => ?_
    unfold Element.hasAttr
    rw [(h.fresh i hi).lasting _ (by simp)]
    rfl

theorem wrappers_spec (hp : p.WellFormed) : p.wrappers.Nodup ∧
    ∀ id ∈ p.wrappers, id ∈ Node.idsOf p.trees ∧ (p.element id).hasAttr "data-retention-select" = true := by
  unfold wrappers
  cases p.root? with
  | none => exact ⟨List.nodup_nil, fun id hid => absurd hid List.not_mem_nil⟩
  | some root =>
    refine ⟨(hp.descendants root).2.1.filter _, fun id hid => ?_⟩
    obtain ⟨hbelow, hmarker⟩ := List.mem_filter.mp hid
    exact ⟨mem_trees_of_mem_descendants hbelow, hmarker⟩

end

/-! ### Furnished pages -/

/-- Parts that were made on one page stand on the other: the trigger and the menu are the only new elements right
    below the wrapper. -/
structure Made (p : Page) (a : Parts) (q : Page) : Prop where
  seat : Seat q a
  wrapper_known : a.wrapper < p.elements.length
  native : p.firstSelect? a.wrapper = some a.native
  new : ∀ id, id = a.trigger ∨ id = a.menu ∨ id ∈ a.items → p.elements.length ≤ id
  distinct : a.trigger ≠ a.menu
  children : ∃ before later, p.childElements a.wrapper = before ++ later ∧
    q.childElements a.wrapper = before ++ a.trigger :: (later ++ [a.menu])

/-- One page is the other with those parts made on it, and nothing else new. -/
structure Furnished (p : Page) (as : List Parts) (q : Page) : Prop where
  hosts : Hosts p q
  surroundings : q.surroundings = p.surroundings
  made : ∀ a ∈ as, Made p a q
  others : ∀ id < p.elements.length, (∀ a ∈ as, a.wrapper ≠ id) → q.childElements id = p.childElements id ∧
    (q.element id).attr? "data-retention-enhanced" = (p.element id).attr? "data-retention-enhanced"

namespace Furnished

variable {p q r : Page} {as bs : List Parts}

theorem refl (hp : p.WellFormed) : Furnished p [] p :=
  ⟨.of_attrs hp rfl rfl rfl (fun _ => rfl) (fun _ => rfl) fun _ => rfl, rfl,
    fun _ ha => absurd ha List.not_mem_nil, fun _ _ _ => ⟨rfl, rfl⟩⟩

/-- Parts are made one after the other, each in a wrapper of its own. -/
theorem trans (h : Furnished p as q) (h' : Furnished q bs r) (hp : p.WellFormed)
    (hbs : ∀ b ∈ bs, b.wrapper < p.elements.length) (hdistinct : ∀ a ∈ as, ∀ b ∈ bs, a.wrapper ≠ b.wrapper) :
    Furnished p (as ++ bs) r where
  hosts := h.hosts.trans h'.hosts hp
  surroundings := h'.surroundings.trans h.surroundings
  made a ha := by
    have hlength := h.hosts.grown.length
    rcases List.mem_append.mp ha with ha | hb
    · have hmade := h.made a ha
      obtain ⟨before, later, hold, hnew⟩ := hmade.children
      have hknown := Nat.lt_of_lt_of_le hmade.wrapper_known hlength
      obtain ⟨hsame, -⟩ := h'.others a.wrapper hknown fun b hb => (hdistinct a ha b hb).symm
      exact ⟨hmade.seat.hosted h.hosts.wellFormed h'.hosts, hmade.wrapper_known, hmade.native, hmade.new, hmade.distinct,
        before, later, hold, hsame.trans hnew⟩
    · have hmade := h'.made a hb
      obtain ⟨before, later, hold, hnew⟩ := hmade.children
      have hknown := hbs a hb
      obtain ⟨hsame, -⟩ := h.others a.wrapper hknown fun c hc => hdistinct c hc a hb
      exact ⟨hmade.seat, hknown, (h.hosts.firstSelect?_eq hknown).symm.trans hmade.native,
        fun id hid => Nat.le_trans hlength (hmade.new id hid), hmade.distinct, before, later, hsame.symm.trans hold, hnew⟩
  others id hid hother := by
    obtain ⟨hfirst, hmark⟩ := h.others id hid fun a ha => hother a (List.mem_append_left _ ha)
    obtain ⟨hsecond, hmark'⟩ := h'.others id (Nat.lt_of_lt_of_le hid h.hosts.grown.length) fun b hb =>
      hother b (List.mem_append_right _ hb)
    exact ⟨hsecond.trans hfirst, hmark'.trans hmark⟩

/-- New parts are apart from those that stood there before. -/
theorem apart (h : Furnished p as q) {a b : Parts} (ha : a ∈ as) (hb : Seat p b)
    (hfresh : (p.element a.wrapper).attr? "data-retention-enhanced" ≠ some "true") : b.Apart a := by
  have hnew := (h.made a ha).new
  refine ⟨fun heq => ?_, ?_, ?_, fun id hid hid' => ?_⟩
  · exact hfresh (heq ▸ hb.fits.enhanced)
  · exact Nat.ne_of_lt (Nat.lt_of_lt_of_le hb.fits.trigger_known (hnew _ (.inl rfl)))
  · exact Nat.ne_of_lt (Nat.lt_of_lt_of_le hb.fits.menu_known (hnew _ (.inr (.inl rfl))))
  · exact absurd (Nat.lt_of_lt_of_le (hb.fits.items_known id hid) (hnew id (.inr (.inr hid')))) (Nat.lt_irrefl id)

end Furnished

theorem furnished_after {p : Page} {w : Select} (hp : p.WellFormed) (hw : w.settings = {}) (hleaf : p.Leaf w.parts.trigger)
    (e : Effect) : Furnished p [] (w.after p e) where
  hosts := .after_select hp hw hleaf e
  surroundings := (w.edited_after p e).surroundings
  made _ ha := absurd ha List.not_mem_nil
  others id hid _ := ⟨(Hosts.grown_after_select hp hw hleaf e).2 id, Hosts.attr?_after_select hw e hid List.mem_cons_self⟩

/-- Parts that are put into a wrapper marked for them furnish the page. -/
theorem furnished_attach {p q : Page} {wrapper native : Nat} (hp : p.WellFormed)
    (hwrapper : wrapper ∈ Node.idsOf p.trees) (hmarker : (p.element wrapper).hasAttr "data-retention-select" = true)
    (hfirst : p.firstSelect? wrapper = some native) (hselect : (p.element native).isA "select" = true)
    (hq : Primed wrapper p q) (arrow : Option Nat) (entries : List Entry) (menuId : String) :
    Furnished p [(attach q {} wrapper native arrow entries menuId).1]
      (attach q {} wrapper native arrow entries menuId).2 := by
  have hattached := attached_attach q wrapper native arrow entries menuId
  have hroot : (attach q {} wrapper native arrow entries menuId).2.root? = q.root? := root?_attach {} arrow entries menuId
  have hsurroundings : (attach q {} wrapper native arrow entries menuId).2.surroundings = q.surroundings := rfl
  have hnative : (attach q {} wrapper native arrow entries menuId).1.native = native := rfl
  generalize attach q {} wrapper native arrow entries menuId = r at hattached hroot hsurroundings hnative ⊢
  obtain ⟨a, r⟩ := r
  have hknown := hp.known wrapper hwrapper
  have hlength := hq.prepared.length
  have hplace := hq.hosts.grown.placed _ hwrapper
  have hmarker' := (hq.hosts.hasAttr hknown (by simp)).trans hmarker
  have hbelow := mem_descendants_of_firstSelect? hfirst
  have hseat : Seat r a := by
    refine hattached.seat hq.hosts.wellFormed hplace hroot hmarker' hq.prepared.enhanced ?_ ?_
    · rw [hnative]
      exact hq.hosts.grown.mem_descendants hknown hbelow
    · rw [hnative, hq.hosts.grown.isA ((hp.descendants wrapper).2.2 _ hbelow)]
      exact hselect
  obtain ⟨before, later, hold, hnew⟩ := hattached.childElements_wrapper hplace
  rw [childElements_congr hq.prepared.trees] at hold
  refine ⟨hq.hosts.trans (hattached.hosts hq.hosts.wellFormed hplace hroot hmarker') hp,
    hsurroundings.trans hq.surroundings, fun b hb => ?_, fun id hid hother => ?_⟩
  · obtain rfl := List.mem_singleton.mp hb
    refine ⟨hseat, ?_, ?_, fun id hid => ?_, ?_, before, later, ?_, ?_⟩
    · rw [hattached.wrapper]
      exact hknown
    · rw [hattached.wrapper, hnative]
      exact hfirst
    · rw [← hlength]
      rcases hid with rfl | rfl | hid
      · exact Nat.le_of_eq hattached.trigger.symm
      · rw [hattached.menu]
        exact Nat.le_succ _
      · rw [hattached.items] at hid
        have hbound := (List.mem_range'_1.mp hid).1
        omega
    · rw [hattached.trigger, hattached.menu]
      omega
    · rw [hattached.wrapper]
      exact hold
    · rw [hattached.wrapper]
      exact hnew
  · have hne : id ≠ wrapper := by
      rintro rfl
      exact hother a List.mem_cons_self hattached.wrapper
    have hid' : id < q.elements.length := by rwa [hlength]
    refine ⟨?_, ?_⟩
    · rw [hattached.childElements_of_ne hq.hosts.wellFormed hne hid', childElements_congr hq.prepared.trees]
    · rw [hattached.element_of_old hid']
      exact hq.others id hid hne

/-- Those wrappers are marked, and some of them have parts. -/
structure Treated (p : Page) (ids : List Nat) (as : List Parts) (q : Page) : Prop where
  hosts : Hosts p q
  surroundings : q.surroundings = p.surroundings
  made : ∀ a ∈ as, Made p a q
  children : ∀ id < p.elements.length, (∀ a ∈ as, a.wrapper ≠ id) → q.childElements id = p.childElements id
  marks : ∀ id < p.elements.length, id ∉ ids →
    (q.element id).attr? "data-retention-enhanced" = (p.element id).attr? "data-retention-enhanced"
  marked : ∀ id ∈ ids, (q.element id).attr? "data-retention-enhanced" = some "true"

theorem Furnished.treated {p q : Page} {as : List Parts} (h : Furnished p as q) :
    Treated p (as.map (·.wrapper)) as q where
  hosts := h.hosts
  surroundings := h.surroundings
  made := h.made
  children id hid hother := (h.others id hid hother).1
  marks id hid hnot := by
    refine (h.others id hid fun a ha => ?_).2
    rintro rfl
    exact hnot (List.mem_map_of_mem ha)
  marked id hid := by
    obtain ⟨a, ha, rfl⟩ := List.mem_map.mp hid
    exact (h.made a ha).seat.fits.enhanced

/-- A wrapper is marked before others are treated. -/
theorem Treated.primed {p q r : Page} {wrapper : Nat} {ids : List Nat} (h : Treated q ids [] r)
    (hq : Primed wrapper p q) (hp : p.WellFormed) (hwrapper : wrapper < p.elements.length) :
    Treated p (wrapper :: ids) [] r where
  hosts := hq.hosts.trans h.hosts hp
  surroundings := h.surroundings.trans hq.surroundings
  made a ha := absurd ha List.not_mem_nil
  children id hid hother := by
    rw [h.children id (Nat.lt_of_lt_of_le hid hq.hosts.grown.length) hother, childElements_congr hq.prepared.trees]
  marks id hid hnot := by
    obtain ⟨hne, hnotin⟩ := not_or.mp (List.mem_cons.not.mp hnot)
    exact (h.marks id (Nat.lt_of_lt_of_le hid hq.hosts.grown.length) hnotin).trans (hq.others id hid hne)
  marked id hid := by
    rcases List.mem_cons.mp hid with rfl | hid
    · exact h.hosts.marks _ (Nat.lt_of_lt_of_le hwrapper hq.hosts.grown.length) hq.prepared.enhanced
    · exact h.marked id hid

/-! ### Listeners of a select -/

/-- Where the handlers of a select listen. -/
inductive Parts.Places (a : Parts) : Handler → Target → Prop where
  | triggerClick (k : Nat) : a.Places (.triggerClick k) (.element a.trigger)
  | triggerKey (k : Nat) : a.Places (.triggerKey k) (.element a.trigger)
  | menuKey (k : Nat) : a.Places (.menuKey k) (.element a.menu)
  | nativeChange (k : Nat) : a.Places (.nativeChange k) (.element a.native)
  | itemClick (k : Nat) {i id : Nat} (h : a.items[i]? = some id) : a.Places (.itemClick k i) (.element id)
  | itemHover (k : Nat) {i id : Nat} (h : a.items[i]? = some id) : a.Places (.itemHover k i) (.element id)
  | documentPointer (k : Nat) : a.Places (.documentPointer k) .document
  | documentKey (k : Nat) : a.Places (.documentKey k) .document

/-- A listener of a select, where it belongs. -/
structure Listener.Bound (k : Nat) (a : Parts) (x : Listener) : Prop where
  owner : x.handler.owner? = some k
  lasting : x.once = false
  type : x.type = x.handler.hears
  place : a.Places x.handler x.place

namespace Live

variable {l m : Live} {k : Nat} {a : Parts} {wrapper : Nat} {entries : List Entry}

theorem bind_eq (l : Live) (k : Nat) (a : Parts) : ∃ new next,
    l.bind k a = { l with listeners := l.listeners ++ new, nextListener := next } ∧ ∀ x ∈ new, x.Bound k a := by
  have hitems : ∀ (items : List (Nat × Nat)), (∀ item ∈ items, a.items[item.2]? = some item.1) → ∀ m : Live,
      ∃ new next, items.foldl (bindItem k) m = { m with listeners := m.listeners ++ new, nextListener := next } ∧
        ∀ x ∈ new, x.Bound k a := by
    intro items
    induction items with
    | nil => exact fun _ m => ⟨[], m.nextListener, by simp, fun x hx => absurd hx List.not_mem_nil⟩
    | cons item items ih =>
      intro hmem m
      obtain ⟨new, next, heq, hbound⟩ := ih (fun i hi => hmem i (List.mem_cons_of_mem item hi)) (bindItem k m item)
      have hthere := hmem item List.mem_cons_self
      refine ⟨⟨m.nextListener, .element item.1, "click", false, false, false, .itemClick k item.2⟩ ::
        ⟨m.nextListener + 1, .element item.1, "mouseenter", false, false, false, .itemHover k item.2⟩ :: new, next, ?_,
        fun x hx => ?_⟩
      · rw [List.foldl_cons, heq]
        simp [bindItem, listenActive, listen]
      · rcases List.mem_cons.mp hx with rfl | hx
        · exact ⟨rfl, rfl, rfl, .itemClick k hthere⟩
        · rcases List.mem_cons.mp hx with rfl | hx
          · exact ⟨rfl, rfl, rfl, .itemHover k hthere⟩
          · exact hbound x hx
  let n := l.nextListener
  let first : List Listener :=
    [⟨n, .element a.trigger, "click", false, false, false, .triggerClick k⟩,
      ⟨n + 1, .element a.trigger, "keydown", false, false, false, .triggerKey k⟩,
      ⟨n + 2, .element a.menu, "keydown", false, false, false, .menuKey k⟩,
      ⟨n + 3, .element a.native, "change", false, false, false, .nativeChange k⟩]
  obtain ⟨new, next, heq, hbound⟩ := hitems a.items.zipIdx (fun item hitem => List.mem_zipIdx_iff_getElem?.mp hitem)
    { l with listeners := l.listeners ++ first, nextListener := n + 4 }
  refine ⟨first ++ new, next, ?_, fun x hx => ?_⟩
  · rw [← List.append_assoc]
    refine Eq.trans ?_ heq
    simp [bind, listenActive, listen, first, n]
  · rcases List.mem_append.mp hx with hx | hx
    · simp only [first, List.mem_cons, List.not_mem_nil, or_false] at hx
      rcases hx with rfl | rfl | rfl | rfl
      · exact ⟨rfl, rfl, rfl, .triggerClick k⟩
      · exact ⟨rfl, rfl, rfl, .triggerKey k⟩
      · exact ⟨rfl, rfl, rfl, .menuKey k⟩
      · exact ⟨rfl, rfl, rfl, .nativeChange k⟩
    · exact hbound x hx

/-! ### One wrapper -/

/-- Work that is edits alone changes nothing but the page, and furnishes nothing. -/
theorem foldl_edits {w : Select} (hw : l.selects[k]? = some w) (hs : w.settings = {}) (hp : l.page.WellFormed)
    (hseat : Seat l.page w.parts) (es : List Effect) (hes : ∀ e ∈ es, e ≠ .listen ∧ e ≠ .unlisten ∧ e ≠ .notify)
    (announce : Live → Nat → Live) :
    ∃ q, es.foldl (applySelect announce k) l = { l with page := q } ∧ Furnished l.page [] q := by
  induction es generalizing l with
  | nil => exact ⟨l.page, rfl, .refl hp⟩
  | cons e es ih =>
    have hone := furnished_after hp hs hseat.fits.leaf e
    obtain ⟨q, heq, hrest⟩ := ih (l := { l with page := w.after l.page e }) hw hone.hosts.wellFormed
      (hseat.hosted hp hone.hosts) fun d hd => hes d (List.mem_cons_of_mem e hd)
    refine ⟨q, ?_, hone.trans hrest hp (fun b hb => absurd hb List.not_mem_nil) fun b hb => absurd hb List.not_mem_nil⟩
    rw [List.foldl_cons, applySelect_eq hw hs (hes e List.mem_cons_self), heq]

/-- One live page is the other with a new select on new parts. -/
structure Added (l : Live) (a : Parts) (entries : List Entry) (m : Live) : Prop where
  furnished : Furnished l.page [a] m.page
  selects : m.selects = l.selects ++ [⟨a, {}, .ofEntries entries⟩]
  listeners : ∃ new, m.listeners = l.listeners ++ new ∧ ∀ x ∈ new, x.Bound l.selects.length a
  overlay : m.overlay = l.overlay

/-- A select that is started on its parts moves nothing on the page. -/
theorem startSelect_eq (hp : l.page.WellFormed) (hseat : Seat l.page a) (entries : List Entry) : ∃ q new next,
    l.startSelect a {} entries =
        { l with page := q, selects := l.selects ++ [⟨a, {}, .ofEntries entries⟩], listeners := l.listeners ++ new,
                 nextListener := next } ∧
      Furnished l.page [] q ∧ ∀ x ∈ new, x.Bound l.selects.length a := by
  let s := State.ofEntries entries
  let added : Live := { l with selects := l.selects ++ [⟨a, {}, s⟩] }
  have hw : added.selects[l.selects.length]? = some ⟨a, {}, s⟩ := List.getElem?_concat_length
  have hedits : ∀ e ∈ s.initialEffects (l.page.selectedIndex a.native), e ≠ .listen ∧ e ≠ .unlisten ∧ e ≠ .notify :=
    fun _ he => s.initialEffects_quiet he
  obtain ⟨q, hwork, hfurnished⟩ := foldl_edits hw rfl (l := added) hp hseat _ hedits announceChange
  obtain ⟨new, next, hbind, hbound⟩ := bind_eq { added with page := q } l.selects.length a
  refine ⟨q, new, next, ?_, hfurnished, hbound⟩
  show ((s.initialEffects (l.page.selectedIndex a.native)).foldl (applySelect announceChange l.selects.length)
    added).bind l.selects.length a = _
  rw [hwork, hbind]

theorem added_startSelect {r : Page} (hp : l.page.WellFormed) (hr : Furnished l.page [a] r) (entries : List Entry) :
    Added l a entries ({ l with page := r }.startSelect a {} entries) := by
  have hseat := (hr.made a List.mem_cons_self).seat
  obtain ⟨q, new, next, hstart, hrest, hbound⟩ :=
    startSelect_eq (l := { l with page := r }) hr.hosts.wellFormed hseat entries
  rw [hstart]
  have hboth := hr.trans hrest hp (fun b hb => absurd hb List.not_mem_nil) fun b _ c hc => absurd hc List.not_mem_nil
  exact ⟨hboth, rfl, ⟨new, rfl, hbound⟩, rfl⟩

theorem query_select (p : Page) (id : Nat) : p.query id "select" = .ok (p.firstSelect? id) := by
  have hread : Selector.read "select" = .ok ⟨some "select", []⟩ := rfl
  have hname : Text.lowerAsciiText "select" = "select" := by decide
  unfold query queryAll firstSelect?
  rw [hread, ← List.head?_filter]
  simp only [Element.isSelected, hname, List.all_nil, Bool.and_true]

theorem isEmpty_entriesOf (p : Page) (native : Nat) : (entriesOf p native).isEmpty = (p.options native).isEmpty := by
  unfold entriesOf
  rw [List.isEmpty_map]

/-- Enhancing a wrapper that awaits it adds a select; a wrapper that awaits nothing is passed over. Only in a document that
    is no HTML document making the parts fails, and then the wrapper is marked all the same. -/
theorem enhance_spec (hp : l.page.WellFormed) (hwrapper : wrapper ∈ Node.idsOf l.page.trees)
    (hmarker : (l.page.element wrapper).hasAttr "data-retention-select" = true) :
    (∃ log, l.enhance wrapper {} = ({ l with log }, .ok none) ∧
        (l.page.hasDocument = true → l.page.awaits wrapper = false)) ∨
      (∃ f q, l.enhance wrapper {} = ({ l with page := q }, .error f) ∧ l.page.awaits wrapper = true ∧
        l.page.surroundings.document ≠ .html ∧ Primed wrapper l.page q) ∨
      ∃ a entries m, l.enhance wrapper {} = (m, .ok (some l.selects.length)) ∧ l.page.awaits wrapper = true ∧
        l.page.surroundings.document = .html ∧ a.wrapper = wrapper ∧ Added l a entries m := by
  have hknown := hp.known wrapper hwrapper
  unfold enhance
  split
  · next hdone => exact .inl ⟨_, rfl, fun _ => awaits_of_enhanced hdone⟩
  · next hfresh =>
    rw [query_select]
    dsimp only
    cases hfound : (l.page.firstSelect? wrapper).filter fun id => (l.page.element id).isA "select" with
    | none => exact .inl ⟨_, rfl, fun _ => awaits_of_no_select hfound⟩
    | some native =>
      obtain ⟨hfirst, hselect⟩ := Option.filter_eq_some_iff.mp hfound
      have heq := awaits_of_select hfresh hfirst hselect
      rw [← isEmpty_entriesOf] at heq
      dsimp only
      split
      · next hempty => exact .inl ⟨_, rfl, fun _ => by rw [heq, hempty]; rfl⟩
      · next hentries =>
        split
        · next hnone =>
          exact .inl ⟨l.log, rfl, fun hdocument => by simp [hdocument] at hnone⟩
        · have hawaits : l.page.awaits wrapper = true := by
            rw [heq, Bool.not_eq_true', Bool.eq_false_iff]
            exact hentries
          obtain ⟨q, hprimed, hrender⟩ := render_spec hp hknown native (entriesOf l.page native)
          rcases hrender with ⟨hother, hrender⟩ | ⟨hhtml, arrow, menuId, hrender⟩
          · rw [hrender]
            exact .inr (.inl ⟨_, q, rfl, hawaits, hother, hprimed⟩)
          · have hattached := furnished_attach hp hwrapper hmarker hfirst hselect hprimed arrow
              (entriesOf l.page native) menuId
            have hwrapper' : (attach q {} wrapper native arrow (entriesOf l.page native) menuId).1.wrapper = wrapper := rfl
            rw [hrender]
            generalize attach q {} wrapper native arrow (entriesOf l.page native) menuId = made at hattached hwrapper' ⊢
            obtain ⟨a, r⟩ := made
            exact .inr (.inr ⟨a, entriesOf l.page native, _, rfl, hawaits, hhtml, hwrapper',
              added_startSelect hp hattached (entriesOf l.page native)⟩)

/-! ### All wrappers -/

theorem enhanceAll_idle (hp : l.page.WellFormed) {ids : List Nat}
    (hids : ∀ id ∈ ids, id ∈ Node.idsOf l.page.trees ∧ (l.page.element id).hasAttr "data-retention-select" = true)
    (hidle : ∀ id ∈ ids, l.page.awaits id = false) : ∃ log, enhanceAll {} l ids = ({ l with log }, 0) := by
  induction ids generalizing l with
  | nil => exact ⟨l.log, rfl⟩
  | cons wrapper rest ih =>
    obtain ⟨hwrapper, hmarker⟩ := hids wrapper List.mem_cons_self
    have hnot := hidle wrapper List.mem_cons_self
    rcases enhance_spec hp hwrapper hmarker with ⟨log, heq, -⟩ | ⟨f, q, -, hawaits, -⟩ | ⟨a, entries, m, -, hawaits, -⟩
    · obtain ⟨log', hrest⟩ := ih (l := { l with log }) hp
        (fun id hid => hids id (List.mem_cons_of_mem wrapper hid)) fun id hid => hidle id (List.mem_cons_of_mem wrapper hid)
      refine ⟨log', ?_⟩
      unfold enhanceAll
      rw [heq]
      exact hrest
    · cases hnot.symm.trans hawaits
    · cases hnot.symm.trans hawaits

/-- Of some wrappers, those that await it get a select each, in order. -/
theorem enhanceAll_spec (hp : l.page.WellFormed) (hdocument : l.page.hasDocument = true)
    (hhtml : l.page.surroundings.document = .html) {ids : List Nat} (hnodup : ids.Nodup)
    (hids : ∀ id ∈ ids, id ∈ Node.idsOf l.page.trees ∧ (l.page.element id).hasAttr "data-retention-select" = true) :
    ∃ news : List Select, (enhanceAll {} l ids).2 = news.length ∧ (enhanceAll {} l ids).1.selects = l.selects ++ news ∧
      news.map (·.parts.wrapper) = ids.filter l.page.awaits ∧
      Furnished l.page (news.map (·.parts)) (enhanceAll {} l ids).1.page := by
  induction ids generalizing l with
  | nil => exact ⟨[], rfl, (List.append_nil _).symm, rfl, .refl hp⟩
  | cons wrapper rest ih =>
    obtain ⟨hwrapper, hmarker⟩ := hids wrapper List.mem_cons_self
    obtain ⟨hnotin, hrestnodup⟩ := List.nodup_cons.mp hnodup
    have hrestids := fun id hid => hids id (List.mem_cons_of_mem wrapper hid)
    unfold enhanceAll
    rcases enhance_spec hp hwrapper hmarker with
      ⟨log, heq, hidle⟩ | ⟨f, q, -, -, hother, -⟩ | ⟨a, entries, m, heq, hawaits, -, hown, hadded⟩
    · obtain ⟨news, hrest⟩ := ih (l := { l with log }) hp hdocument hhtml hrestnodup hrestids
      rw [heq, List.filter_cons_of_neg (by simp [hidle hdocument])]
      exact ⟨news, hrest⟩
    · exact absurd hhtml hother
    · have hfirst := hadded.furnished
      have hknown : ∀ id ∈ rest, id < l.page.elements.length := fun id hid => hp.known id (hrestids id hid).1
      have hdocument' : m.page.hasDocument = true := (hasDocument_congr hfirst.surroundings).trans hdocument
      obtain ⟨news, hcount, hselects, hwrappers, hfurnished⟩ := ih (l := m) hfirst.hosts.wellFormed hdocument'
        (by rw [hfirst.surroundings]; exact hhtml) hrestnodup fun id hid =>
          ⟨hfirst.hosts.grown.placed id (hrestids id hid).1,
            (hfirst.hosts.hasAttr (hknown id hid) (by simp)).trans (hrestids id hid).2⟩
      -- What the other wrappers await is told by the page before the first was enhanced.
      have hsame : rest.filter m.page.awaits = rest.filter l.page.awaits := by
        refine List.filter_congr fun id hid => hfirst.hosts.awaits_eq hp (hknown id hid) ?_
        refine (hfirst.others id (hknown id hid) fun b hb => ?_).2
        rw [List.mem_singleton.mp hb, hown]
        rintro rfl
        exact hnotin hid
      rw [hsame] at hwrappers
      have hnew : ∀ b ∈ news.map (·.parts), b.wrapper ∈ rest := by
        intro b hb
        obtain ⟨w, hw, rfl⟩ := List.mem_map.mp hb
        have hmem : w.parts.wrapper ∈ rest.filter l.page.awaits :=
          hwrappers ▸ List.mem_map_of_mem (f := fun w : Select => w.parts.wrapper) hw
        exact (List.mem_filter.mp hmem).1
      rw [heq]
      refine ⟨⟨a, {}, .ofEntries entries⟩ :: news, ?_, ?_, ?_, ?_⟩
      · exact congrArg (· + 1) hcount
      · show (enhanceAll {} m rest).1.selects = _
        rw [hselects, hadded.selects, List.append_assoc]
        rfl
      · rw [List.filter_cons_of_pos hawaits, List.map_cons, hwrappers, hown]
      · refine hfirst.trans hfurnished hp (fun b hb => hknown _ (hnew b hb)) fun c hc b hb => ?_
        rw [List.mem_singleton.mp hc, hown]
        rintro heq
        exact hnotin (heq ▸ hnew b hb)

/-- In a document that is no HTML document, wrappers that await it get their mark and nothing else. -/
theorem enhanceAll_elsewhere (hp : l.page.WellFormed) (hdocument : l.page.hasDocument = true)
    (hother : l.page.surroundings.document ≠ .html) {ids : List Nat} (hnodup : ids.Nodup)
    (hids : ∀ id ∈ ids, id ∈ Node.idsOf l.page.trees ∧ (l.page.element id).hasAttr "data-retention-select" = true) :
    ∃ q log, enhanceAll {} l ids = ({ l with page := q, log }, 0) ∧
      Treated l.page (ids.filter l.page.awaits) [] q := by
  induction ids generalizing l with
  | nil => exact ⟨l.page, l.log, rfl, (Furnished.refl hp).treated⟩
  | cons wrapper rest ih =>
    obtain ⟨hwrapper, hmarker⟩ := hids wrapper List.mem_cons_self
    obtain ⟨hnotin, hrestnodup⟩ := List.nodup_cons.mp hnodup
    have hrestids := fun id hid => hids id (List.mem_cons_of_mem wrapper hid)
    unfold enhanceAll
    rcases enhance_spec hp hwrapper hmarker with
      ⟨log, heq, hidle⟩ | ⟨f, r, heq, hawaits, -, hprimed⟩ | ⟨a, entries, m, -, -, hhtml, -⟩
    · obtain ⟨q, log', hrest, htreated⟩ := ih (l := { l with log }) hp hdocument hother hrestnodup hrestids
      rw [heq, List.filter_cons_of_neg (by simp [hidle hdocument])]
      exact ⟨q, log', hrest, htreated⟩
    · have hhosts := hprimed.hosts
      have hknown : ∀ id ∈ rest, id < l.page.elements.length := fun id hid => hp.known id (hrestids id hid).1
      have hmarks : ∀ id ∈ rest, (r.element id).attr? "data-retention-enhanced" =
          (l.page.element id).attr? "data-retention-enhanced" := by
        intro id hid
        refine hprimed.others id (hknown id hid) ?_
        rintro rfl
        exact hnotin hid
      have hdocument' : r.hasDocument = true := (hasDocument_congr hprimed.surroundings).trans hdocument
      obtain ⟨q, log, hrest, htreated⟩ := ih
        (l := Live.write { l with page := r } .warn enhancePart ("retention select skipped: " ++ f.message))
        hhosts.wellFormed hdocument' (by
          show r.surroundings.document ≠ .html
          rw [hprimed.surroundings]
          exact hother) hrestnodup fun id hid =>
          ⟨hhosts.grown.placed id (hrestids id hid).1,
            (hhosts.hasAttr (hknown id hid) (by simp)).trans (hrestids id hid).2⟩
      have hsame : rest.filter r.awaits = rest.filter l.page.awaits :=
        List.filter_congr fun id hid => hhosts.awaits_eq hp (hknown id hid) (hmarks id hid)
      have htreated' : Treated r (rest.filter l.page.awaits) [] q := hsame ▸ htreated
      rw [heq, List.filter_cons_of_pos hawaits]
      exact ⟨q, log, hrest, htreated'.primed hprimed hp (hp.known wrapper hwrapper)⟩
    · exact absurd hhtml hother

/-! ### Setting up -/

theorem initSelects_eq (hdocument : l.page.hasDocument = true) :
    l.initSelects {} = if l.page.root?.isSome then enhanceAll {} l l.page.wrappers else (l, 0) := by
  have hread : Selector.read ({} : SelectSettings).wrapperSelector = .ok ⟨none, [.attr "data-retention-select"]⟩ := rfl
  unfold initSelects wrappers
  rw [if_pos hdocument]
  cases hroot : l.page.root? with
  | none => rfl
  | some root =>
    have hfound : l.page.queryAll root ({} : SelectSettings).wrapperSelector =
        .ok ((l.page.descendants root).filter fun id => (l.page.element id).hasAttr "data-retention-select") := by
      unfold queryAll
      rw [hread]
      simp [Element.isSelected, Element.meets]
    simp only [hfound, Option.isSome_some, if_true]

/-- Setting up the selects of a page once: those wrappers that can be enhanced, and no others, get a trigger and a menu
    and a select each, no wrapper is marked that did not wait for it, and nothing is left to do. -/
structure SetUp (l m : Live) (count : Nat) : Prop where
  counted : count = l.page.enhanceable.length
  selects : ∃ news : List Select, m.selects = l.selects ++ news ∧
    news.map (·.parts.wrapper) = l.page.enhanceable ∧ ∀ w ∈ news, Made l.page w.parts m.page
  children : ∀ id < l.page.elements.length, id ∉ l.page.enhanceable →
    m.page.childElements id = l.page.childElements id
  marks : ∀ id < l.page.elements.length, id ∉ l.page.awaiting →
    (m.page.element id).attr? "data-retention-enhanced" = (l.page.element id).attr? "data-retention-enhanced"
  again : ∃ log, m.initSelects {} = ({ m with log }, 0)

/-- Every wrapper that awaits it is marked, and those that can be enhanced have parts and a select of their own. -/
theorem initSelects_treats (hp : l.page.WellFormed) (hdocument : l.page.hasDocument = true) :
    ∃ news : List Select, (l.initSelects {}).2 = news.length ∧ (l.initSelects {}).1.selects = l.selects ++ news ∧
      news.map (·.parts.wrapper) = l.page.enhanceable ∧
      Treated l.page l.page.awaiting (news.map (·.parts)) (l.initSelects {}).1.page := by
  obtain ⟨hnodup, hwrappers⟩ := wrappers_spec hp
  rw [initSelects_eq hdocument]
  cases hroot : l.page.root? with
  | none =>
    have hnone : l.page.awaiting = [] := by
      unfold awaiting wrappers
      rw [hroot]
      rfl
    refine ⟨[], rfl, (List.append_nil _).symm, ?_, ?_⟩
    · unfold enhanceable
      rw [hnone, ite_self]
      rfl
    · rw [hnone]
      exact (Furnished.refl hp).treated
  | some root =>
    simp only [Option.isSome_some, if_true]
    by_cases hhtml : l.page.surroundings.document = .html
    · obtain ⟨news, hcount, hselects, hnew, hfurnished⟩ := enhanceAll_spec hp hdocument hhtml hnodup hwrappers
      have hall : l.page.enhanceable = l.page.awaiting := if_pos ⟨hdocument, hhtml⟩
      refine ⟨news, hcount, hselects, hnew.trans hall.symm, ?_⟩
      have htreated := hfurnished.treated
      rw [List.map_map] at htreated
      unfold awaiting
      rw [← hnew]
      exact htreated
    · obtain ⟨q, log, heq, htreated⟩ := enhanceAll_elsewhere hp hdocument hhtml hnodup hwrappers
      have hnone : l.page.enhanceable = [] := if_neg fun h => hhtml h.2
      rw [heq]
      exact ⟨[], rfl, (List.append_nil _).symm, hnone.symm, htreated⟩

theorem setUp_initSelects (hp : l.page.WellFormed) : SetUp l (l.initSelects {}).1 (l.initSelects {}).2 := by
  by_cases hdocument : l.page.hasDocument = true
  · obtain ⟨-, hwrappers⟩ := wrappers_spec hp
    obtain ⟨news, hcount, hselects, hnew, htreated⟩ := initSelects_treats hp hdocument
    generalize l.initSelects {} = r at hcount hselects htreated ⊢
    obtain ⟨m, n⟩ := r
    have hhosts : Hosts l.page m.page := htreated.hosts
    refine ⟨?_, ⟨news, hselects, hnew, fun w hw => htreated.made w.parts (List.mem_map_of_mem hw)⟩,
      fun id hid hnot => htreated.children id hid fun a ha => ?_, htreated.marks, ?_⟩
    · rw [← hnew, List.length_map]
      exact hcount
    · obtain ⟨w, hw, rfl⟩ := List.mem_map.mp ha
      rintro rfl
      exact hnot (hnew ▸ List.mem_map_of_mem (f := fun w : Select => w.parts.wrapper) hw)
    · have hdocument' : m.page.hasDocument = true := (hasDocument_congr htreated.surroundings).trans hdocument
      -- A wrapper that awaited it has the mark by now, and one that did not awaits nothing still.
      have hidle : ∀ id ∈ m.page.wrappers, m.page.awaits id = false := by
        intro id hid
        rw [hhosts.wrappers_eq hp] at hid
        have hknown := hp.known id (hwrappers id hid).1
        by_cases hawaits : id ∈ l.page.awaiting
        · exact awaits_of_enhanced (htreated.marked id hawaits)
        · rw [hhosts.awaits_eq hp hknown (htreated.marks id hknown hawaits), Bool.eq_false_iff]
          intro htrue
          exact hawaits (List.mem_filter.mpr ⟨hid, htrue⟩)
      rw [initSelects_eq hdocument']
      split
      · exact enhanceAll_idle hhosts.wellFormed (wrappers_spec hhosts.wellFormed).2 hidle
      · exact ⟨m.log, rfl⟩
  · have hnone : l.page.enhanceable = [] := if_neg fun h => hdocument h.1
    have hnothing : l.initSelects {} = (l, 0) := by
      unfold initSelects
      rw [if_neg hdocument]
    rw [hnothing]
    refine ⟨by rw [hnone]; rfl, ⟨[], (List.append_nil _).symm, hnone.symm, fun w hw => absurd hw List.not_mem_nil⟩,
      fun _ _ _ => rfl, fun _ _ _ => rfl, l.log, hnothing⟩

end Live
end Widget
end PageWidgets
