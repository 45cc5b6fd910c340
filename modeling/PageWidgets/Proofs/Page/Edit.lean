import PageWidgets.Page.Edit
import PageWidgets.Proofs.Page.Element
import PageWidgets.Proofs.Page.Tree

/-! What edits do to a page. An edit writes one attribute of one element, or the children of one element, or which
    options of a select are chosen, or it only asks the browser for something. So what is seen of an element after a
    list of edits is what the last of them made that is about it (`look_perform_of_makes`), and what none of them is
    about is seen as before, also when the page refused one of them (`look_perform_of_keeps`). -/

namespace PageWidgets
namespace Page

open Element

/-! ### One element -/

theorem element_modify (p : Page) (id j : Nat) (f : Element → Element) :
    (p.modify id f).element j = if id = j ∧ j < p.elements.length then f (p.element j) else p.element j := by
  simp only [modify, element, List.getD_eq_getElem?_getD, List.getElem?_modify]
  by_cases hj : j < p.elements.length
  · rw [List.getElem?_eq_getElem hj]
    by_cases hid : id = j
    · simp [hid, hj]
    · simp [hid]
  · have hnone : p.elements[j]? = none := List.getElem?_eq_none (by omega)
    rw [hnone]
    simp [hj]

theorem element_of_unknown {p : Page} {id : Nat} (h : p.elements.length ≤ id) : p.element id = default := by
  unfold element
  rw [List.getD_eq_getElem?_getD, List.getElem?_eq_none h, Option.getD_none]

theorem length_modify (p : Page) (id : Nat) (f : Element → Element) :
    (p.modify id f).elements.length = p.elements.length := List.length_modify f p.elements id

/-! ### What edits leave alone -/

/-- Only what edits change is different: attributes and choices of elements, trees, the focus and the calls. -/
structure Edited (p q : Page) : Prop where
  surroundings : q.surroundings = p.surroundings
  loading : q.loading = p.loading
  jar : q.jar = p.jar
  now : q.now = p.now
  random : q.random = p.random
  overflowed : q.overflowed = p.overflowed
  length : q.elements.length = p.elements.length
  tag : ∀ id, (q.element id).tag = (p.element id).tag
  html : ∀ id, (q.element id).html = (p.element id).html
  checked : ∀ id, (q.element id).checked = (p.element id).checked

namespace Edited

variable {p q r : Page}

theorem refl (p : Page) : Edited p p :=
  ⟨rfl, rfl, rfl, rfl, rfl, rfl, rfl, fun _ => rfl, fun _ => rfl, fun _ => rfl⟩

theorem trans (h : Edited p q) (h' : Edited q r) : Edited p r where
  surroundings := h'.surroundings.trans h.surroundings
  loading := h'.loading.trans h.loading
  jar := h'.jar.trans h.jar
  now := h'.now.trans h.now
  random := h'.random.trans h.random
  overflowed := h'.overflowed.trans h.overflowed
  length := h'.length.trans h.length
  tag id := (h'.tag id).trans (h.tag id)
  html id := (h'.html id).trans (h.html id)
  checked id := (h'.checked id).trans (h.checked id)

theorem isA (h : Edited p q) (id : Nat) (tag : String) : (q.element id).isA tag = (p.element id).isA tag := by
  unfold Element.isA
  rw [h.html, h.tag]

theorem modify {id : Nat} {f : Element → Element}
    (hf : (f (p.element id)).tag = (p.element id).tag ∧ (f (p.element id)).html = (p.element id).html ∧
      (f (p.element id)).checked = (p.element id).checked) : Edited p (p.modify id f) where
  surroundings := rfl
  loading := rfl
  jar := rfl
  now := rfl
  random := rfl
  overflowed := rfl
  length := length_modify p id f
  tag j := by
    rw [element_modify]
    split
    · next h => rw [← h.1]; exact hf.1
    · rfl
  html j := by
    rw [element_modify]
    split
    · next h => rw [← h.1]; exact hf.2.1
    · rfl
  checked j := by
    rw [element_modify]
    split
    · next h => rw [← h.1]; exact hf.2.2
    · rfl

end Edited

/-- The same elements with the same attributes in the same trees: only what a visitor did, the focus, the calls and
    the clock are different. -/
structure Alike (p q : Page) : Prop where
  surroundings : q.surroundings = p.surroundings
  jar : q.jar = p.jar
  overflowed : q.overflowed = p.overflowed
  tree : q.tree = p.tree
  loose : q.loose = p.loose
  length : q.elements.length = p.elements.length
  tag : ∀ id, (q.element id).tag = (p.element id).tag
  html : ∀ id, (q.element id).html = (p.element id).html
  attrs : ∀ id, (q.element id).attrs = (p.element id).attrs

namespace Alike

variable {p q : Page}

theorem attr? (h : Alike p q) (id : Nat) (name : String) : (q.element id).attr? name = (p.element id).attr? name := by
  unfold Element.attr? Element.key
  rw [h.html, h.attrs]

theorem isA (h : Alike p q) (id : Nat) (tag : String) : (q.element id).isA tag = (p.element id).isA tag := by
  unfold Element.isA
  rw [h.html, h.tag]

theorem modify {id : Nat} {f : Element → Element}
    (hf : ∀ x : Element, (f x).tag = x.tag ∧ (f x).html = x.html ∧ (f x).attrs = x.attrs) : Alike p (p.modify id f) where
  surroundings := rfl
  jar := rfl
  overflowed := rfl
  tree := rfl
  loose := rfl
  length := length_modify p id f
  tag j := by
    rw [element_modify]
    split
    · exact (hf _).1
    · rfl
  html j := by
    rw [element_modify]
    split
    · exact (hf _).2.1
    · rfl
  attrs j := by
    rw [element_modify]
    split
    · exact (hf _).2.2
    · rfl

end Alike

/-! ### Edits of attributes -/

namespace Edit

/-- The element and the name of the attribute that an edit writes. -/
def slot? : Edit → Option (Nat × String)
  | .setAttr id name _ => some (id, name)
  | .removeAttr id name => some (id, name)
  | .addClass id _ => some (id, "class")
  | .removeClass id _ => some (id, "class")
  | .setStyle id _ _ => some (id, "style")
  | .removeStyle id _ => some (id, "style")
  | .setText _ _ | .choose _ _ | .focus _ | .scroll _ => none

/-- What the edit makes of the element that it is about. -/
def act : Edit → Element → Element
  | .setAttr _ name value, x => x.withAttr name value
  | .removeAttr _ name, x => x.withoutAttr name
  | .addClass _ token, x => x.withClass token
  | .removeClass _ token, x => x.withoutClass token
  | .setStyle _ name value, x => x.setStyle name value
  | .removeStyle _ name, x => x.removeStyle name
  | .setText _ _, x | .choose _ _, x | .focus _, x | .scroll _, x => x

/-- What the edit makes of element `j`. -/
def actOn (j : Nat) (x : Element) (e : Edit) : Element := if e.slot?.map (·.1) = some j then e.act x else x

/-- An edit that no page refuses. -/
def Sound : Edit → Prop
  | .setAttr _ name _ => validName name = true
  | .addClass _ token => Token token
  | .removeClass _ token => Token token
  | _ => True

/-- An edit that leaves trees and choices alone. -/
def Flat : Edit → Prop
  | .setText _ _ => False
  | .choose _ _ => False
  | _ => True

theorem act_kind (e : Edit) (x : Element) :
    (e.act x).tag = x.tag ∧ (e.act x).html = x.html ∧ (e.act x).checked = x.checked ∧ (e.act x).chosen = x.chosen := by
  have hclasses : ∀ names, (x.withClasses names).tag = x.tag ∧ (x.withClasses names).html = x.html ∧
      (x.withClasses names).checked = x.checked ∧ (x.withClasses names).chosen = x.chosen := by
    intro names
    unfold withClasses
    split <;> exact ⟨rfl, rfl, rfl, rfl⟩
  cases e with
  | addClass id token => exact hclasses _
  | removeClass id token => exact hclasses _
  | removeStyle id name =>
    show (x.removeStyle name).tag = x.tag ∧ (x.removeStyle name).html = x.html ∧
      (x.removeStyle name).checked = x.checked ∧ (x.removeStyle name).chosen = x.chosen
    unfold Element.removeStyle
    split <;> exact ⟨rfl, rfl, rfl, rfl⟩
  | _ => exact ⟨rfl, rfl, rfl, rfl⟩

theorem attr?_act_of_ne {e : Edit} {id : Nat} {name m : String} {x : Element} (he : e.slot? = some (id, name))
    (hm : x.key name ≠ x.key m) : (e.act x).attr? m = x.attr? m := by
  have hclass : name = "class" → ∀ names, (x.withClasses names).attr? m = x.attr? m := by
    rintro rfl names
    rw [key_of_plain plain_class] at hm
    exact attr?_withClasses_of_ne (Ne.symm hm)
  have hstyle : name = "style" → ∀ l, (x.withStyle l).attr? m = x.attr? m := by
    rintro rfl l
    rw [key_of_plain plain_style] at hm
    exact attr?_withStyle_of_ne (Ne.symm hm)
  cases e with
  | setAttr i n value =>
    cases he
    rw [act, attr?_withAttr, if_neg hm]
  | removeAttr i n =>
    cases he
    rw [act, attr?_withoutAttr, if_neg hm]
  | addClass i token =>
    cases he
    exact hclass rfl _
  | removeClass i token =>
    cases he
    exact hclass rfl _
  | setStyle i n value =>
    cases he
    exact hstyle rfl _
  | removeStyle i n =>
    cases he
    show (x.removeStyle n).attr? m = x.attr? m
    unfold Element.removeStyle
    split
    · exact hstyle rfl _
    · rfl
  | setText i text => cases he
  | choose i index => cases he
  | focus i => cases he
  | scroll i => cases he

end Edit

/-- An edit of an attribute is refused, or it changes its element as it says. -/
theorem edit_slot {p q : Page} {e : Edit} {id : Nat} {name : String} (he : e.slot? = some (id, name))
    (hq : p.edit e = .ok q) : q = p.modify id fun _ => e.act (p.element id) := by
  have hmodify : ∀ f : Element → Element, p.modify id f = p.modify id fun _ => f (p.element id) := by
    intro f
    have hlist : ∀ (l : List Element) (i : Nat), l.modify i f = l.modify i fun _ => f (l.getD i default) := by
      intro l
      induction l with
      | nil => intro i; simp
      | cons a l ih =>
        intro i
        cases i with
        | zero => rfl
        | succ i => simpa using ih i
    unfold modify element
    rw [hlist]
  have htry : ∀ f : Element → Except Fault Element, (∀ x, f (p.element id) = .ok x → x = e.act (p.element id)) →
      p.tryModify id f = .ok q → q = p.modify id fun _ => e.act (p.element id) := by
    intro f hf h
    unfold tryModify at h
    split at h
    · cases h
    · next x hx =>
      cases h
      rw [hf x hx]
  have htoken : ∀ token, (∃ u, Element.checkToken token = .ok u) → Token token := by
    rintro token ⟨u, hu⟩
    by_cases htoken : Token token
    · exact htoken
    · obtain ⟨f, hf⟩ := checkToken_of_not_token htoken
      rw [hu] at hf
      cases hf
  cases e with
  | setAttr i n value =>
    cases he
    refine htry (·.setAttr name value) (fun x hx => ?_) hq
    unfold Element.setAttr at hx
    split at hx
    · exact (Except.ok.inj hx).symm
    · cases hx
  | removeAttr i n =>
    cases he
    cases hq
    exact hmodify _
  | addClass i token =>
    cases he
    refine htry (·.addClass token) (fun x hx => ?_) hq
    have hchecked : ∃ u, Element.checkToken token = .ok u := by
      unfold Element.addClass at hx
      split at hx
      · cases hx
      · next h => exact ⟨(), h⟩
    rw [addClass_of_token (htoken token hchecked)] at hx
    exact (Except.ok.inj hx).symm
  | removeClass i token =>
    cases he
    refine htry (·.removeClass token) (fun x hx => ?_) hq
    have hchecked : ∃ u, Element.checkToken token = .ok u := by
      unfold Element.removeClass at hx
      split at hx
      · cases hx
      · next h => exact ⟨(), h⟩
    rw [removeClass_of_token (htoken token hchecked)] at hx
    exact (Except.ok.inj hx).symm
  | setStyle i n value =>
    cases he
    cases hq
    exact hmodify _
  | removeStyle i n =>
    cases he
    cases hq
    exact hmodify _
  | setText i text => cases he
  | choose i index => cases he
  | focus i => cases he
  | scroll i => cases he

theorem edit_of_sound {p : Page} {e : Edit} (he : e.Sound) : ∃ q, p.edit e = .ok q := by
  cases e with
  | setAttr id name value =>
    have hname : Element.validName name = true := he
    exact ⟨_, by simp only [edit, tryModify, Element.setAttr, if_pos hname]; rfl⟩
  | addClass id token =>
    exact ⟨_, by simp only [edit, tryModify, addClass_of_token he]; rfl⟩
  | removeClass id token =>
    exact ⟨_, by simp only [edit, tryModify, removeClass_of_token he]; rfl⟩
  | _ => exact ⟨_, rfl⟩

/-! ### Choices -/

/-- An element with its choice changed where the options hold it. -/
def rechosen (options chosen : List Nat) (j : Nat) (x : Element) : Element :=
  if j ∈ options then { x with chosen := chosen.contains j } else x

theorem chooseOnly_spec (options chosen : List Nat) (p : Page) :
    Edited p (p.chooseOnly options chosen) ∧ (p.chooseOnly options chosen).tree = p.tree ∧
      (p.chooseOnly options chosen).loose = p.loose ∧
      ∀ j, j < p.elements.length → (p.chooseOnly options chosen).element j = rechosen options chosen j (p.element j) := by
  unfold chooseOnly
  induction options generalizing p with
  | nil => exact ⟨.refl p, rfl, rfl, fun j _ => by simp [rechosen]⟩
  | cons id rest ih =>
    obtain ⟨hedited, htree, hloose, helement⟩ := ih (p.modify id fun e => { e with chosen := chosen.contains id })
    refine ⟨(Edited.modify ⟨rfl, rfl, rfl⟩).trans hedited, htree, hloose, fun j hj => ?_⟩
    rw [List.foldl_cons, helement j (by rw [length_modify]; exact hj), element_modify]
    by_cases hid : id = j
    · subst hid
      rw [if_pos ⟨rfl, hj⟩]
      by_cases hrest : id ∈ rest <;> simp [rechosen, hrest]
    · rw [if_neg fun h => hid h.1]
      simp [rechosen, Ne.symm hid]

theorem choose_spec (p : Page) (select : Nat) (index : Option Nat) :
    ∃ chosen, p.choose select index = p.chooseOnly (p.options select) chosen := ⟨_, rfl⟩

theorem alike_choose (p : Page) (select : Nat) (index : Option Nat) : Alike p (p.choose select index) := by
  obtain ⟨chosen, heq⟩ := p.choose_spec select index
  rw [heq]
  obtain ⟨hedited, htree, hloose, helement⟩ := chooseOnly_spec (p.options select) chosen p
  refine ⟨hedited.surroundings, hedited.jar, hedited.overflowed, htree, hloose, hedited.length, hedited.tag,
    hedited.html, fun id => ?_⟩
  by_cases hid : id < p.elements.length
  · rw [helement id hid]
    unfold rechosen
    split <;> rfl
  · rw [element_of_unknown (Nat.le_of_not_lt hid), element_of_unknown (by rw [hedited.length]; omega)]

theorem attr?_rechosen (options chosen : List Nat) (j : Nat) (x : Element) (m : String) :
    (rechosen options chosen j x).attr? m = x.attr? m := by
  unfold rechosen
  split <;> rfl

/-! ### Any edit -/

theorem edited_edit {p q : Page} {e : Edit} (hq : p.edit e = .ok q) : Edited p q := by
  cases hslot : e.slot? with
  | some s =>
    obtain ⟨id, name⟩ := s
    rw [edit_slot hslot hq]
    obtain ⟨htag, hhtml, hchecked, -⟩ := e.act_kind (p.element id)
    exact .modify ⟨htag, hhtml, hchecked⟩
  | none =>
    cases e with
    | setText id text =>
      cases hq
      exact ⟨rfl, rfl, rfl, rfl, rfl, rfl, rfl, fun _ => rfl, fun _ => rfl, fun _ => rfl⟩
    | choose id index =>
      cases hq
      exact (chooseOnly_spec _ _ p).1
    | focus id =>
      cases hq
      dsimp only [requestFocus]
      split <;> exact ⟨rfl, rfl, rfl, rfl, rfl, rfl, rfl, fun _ => rfl, fun _ => rfl, fun _ => rfl⟩
    | scroll id =>
      cases hq
      exact ⟨rfl, rfl, rfl, rfl, rfl, rfl, rfl, fun _ => rfl, fun _ => rfl, fun _ => rfl⟩
    | _ => cases hslot

theorem trees_edit {p q : Page} {e : Edit} (hq : p.edit e = .ok q) (he : ∀ id text, e ≠ .setText id text) :
    q.tree = p.tree ∧ q.loose = p.loose := by
  cases hslot : e.slot? with
  | some s =>
    rw [edit_slot hslot hq]
    exact ⟨rfl, rfl⟩
  | none =>
    cases e with
    | setText id text => exact absurd rfl (he id text)
    | choose id index =>
      cases hq
      obtain ⟨chosen, heq⟩ := p.choose_spec id index
      obtain ⟨-, htree, hloose, -⟩ := chooseOnly_spec (p.options id) chosen p
      rw [heq]
      exact ⟨htree, hloose⟩
    | focus id =>
      cases hq
      dsimp only [requestFocus]
      split <;> exact ⟨rfl, rfl⟩
    | scroll id =>
      cases hq
      exact ⟨rfl, rfl⟩
    | _ => cases hslot

/-- An edit that leaves trees and choices alone makes of every element what it says. -/
theorem element_edit {p q : Page} {e : Edit} (hq : p.edit e = .ok q) (he : e.Flat) {j : Nat}
    (hj : j < p.elements.length) : q.element j = e.actOn j (p.element j) := by
  unfold Edit.actOn
  cases hslot : e.slot? with
  | some s =>
    obtain ⟨id, name⟩ := s
    rw [edit_slot hslot hq, element_modify]
    by_cases hid : id = j
    · subst hid
      rw [if_pos ⟨rfl, hj⟩]
      simp
    · rw [if_neg fun h => hid h.1]
      simp [hid]
  | none =>
    have hsame : q.elements = p.elements := by
      cases e with
      | setText id text => exact False.elim he
      | choose id index => exact False.elim he
      | focus id =>
        cases hq
        dsimp only [requestFocus]
        split <;> rfl
      | scroll id =>
        cases hq
        rfl
      | _ => cases hslot
    simp [element, hsame]

/-- An attribute that the edit does not write is what it was. -/
theorem attr?_edit_of_ne {p q : Page} {e : Edit} (hq : p.edit e = .ok q) {j : Nat} (hj : j < p.elements.length)
    {m : String} (he : ∀ name, e.slot? = some (j, name) → (p.element j).key name ≠ (p.element j).key m) :
    (q.element j).attr? m = (p.element j).attr? m := by
  by_cases hflat : e.Flat
  · rw [element_edit hq hflat hj]
    unfold Edit.actOn
    split
    · next h =>
      obtain ⟨⟨id, name⟩, hslot, hid⟩ := Option.map_eq_some_iff.mp h
      obtain rfl : id = j := hid
      exact Edit.attr?_act_of_ne hslot (he name hslot)
    · rfl
  · cases e with
    | setText id text =>
      cases hq
      rfl
    | choose id index =>
      cases hq
      obtain ⟨chosen, heq⟩ := p.choose_spec id index
      obtain ⟨-, -, -, helement⟩ := chooseOnly_spec (p.options id) chosen p
      rw [heq, helement j hj, attr?_rechosen]
    | _ => exact absurd trivial hflat

/-! ### Texts -/

theorem idsOf_textNodes (text : String) : Node.idsOf (textNodes text) = [] := by
  unfold textNodes
  split <;> rfl

theorem contentOf_textNodes (text : String) : Node.contentOf (textNodes text) = text := by
  unfold textNodes
  split
  · next h => exact (String.isEmpty_iff.mp h).symm
  · exact String.append_empty

section
variable {p : Page} {id u : Nat} (text : String)

/-- A leaf with another text is a leaf with that text, in the same trees. -/
theorem WellFormed.setText (h : p.WellFormed) (hid : p.Leaf id) :
    let q := p.withChildren id fun _ => textNodes text
    Node.idsOf q.trees = Node.idsOf p.trees ∧ q.WellFormed ∧ q.Leaf id ∧ q.textContent id = text := by
  obtain ⟨c, hc, hnone⟩ := hid
  have hids : Node.idsOf (p.withChildren id fun _ => textNodes text).trees = Node.idsOf p.trees := by
    obtain ⟨a, b, hbefore, hafter⟩ := Node.exists_around p.trees h.distinct hc
    rw [trees_withChildren, hafter, hbefore, idsOf_textNodes, hnone]
  have hchildren : Node.childrenIn? id (p.withChildren id fun _ => textNodes text).trees = some (textNodes text) := by
    rw [trees_withChildren, Node.childrenIn?_withChildrenIn_self, hc, Option.map_some]
  refine ⟨hids, ⟨?_, ?_⟩, ⟨_, hchildren, idsOf_textNodes text⟩, ?_⟩
  · rw [hids]
    exact h.distinct
  · rw [hids]
    exact h.known
  · unfold textContent children
    rw [hchildren]
    exact contentOf_textNodes text

/-- Another leaf keeps what is below it. -/
theorem WellFormed.leaf_setText (h : p.WellFormed) (hid : p.Leaf id) (hleaf : p.Leaf u) (hu : u ≠ id) :
    Node.childrenIn? u (p.withChildren id fun _ => textNodes text).trees = Node.childrenIn? u p.trees := by
  obtain ⟨d, hd, hnone⟩ := hid
  refine h.leaf_withChildren hleaf hu fun c hc => ?_
  obtain rfl : d = c := Option.some.inj (hd.symm.trans hc)
  rw [Node.childrenIn?_of_idsOf_eq_nil hnone, Node.childrenIn?_of_idsOf_eq_nil (idsOf_textNodes text)]

end

/-! ### Lists of edits -/

theorem perform_cons {p q : Page} {e : Edit} (hq : p.edit e = .ok q) (rest : List Edit) :
    p.perform (e :: rest) = q.perform rest := by
  rw [perform, hq]

theorem edited_perform (p : Page) (es : List Edit) : Edited p (p.perform es).1 := by
  induction es generalizing p with
  | nil => exact .refl p
  | cons e rest ih =>
    rw [perform]
    cases hq : p.edit e with
    | error fault => exact .refl p
    | ok q => exact (edited_edit hq).trans (ih q)

theorem trees_perform {p : Page} {es : List Edit} (hes : ∀ e ∈ es, ∀ id text, e ≠ .setText id text) :
    (p.perform es).1.tree = p.tree ∧ (p.perform es).1.loose = p.loose := by
  induction es generalizing p with
  | nil => exact ⟨rfl, rfl⟩
  | cons e rest ih =>
    rw [perform]
    cases hq : p.edit e with
    | error fault => exact ⟨rfl, rfl⟩
    | ok q =>
      obtain ⟨htree, hloose⟩ := trees_edit hq (hes e List.mem_cons_self)
      obtain ⟨htree', hloose'⟩ := ih (p := q) fun x hx => hes x (List.mem_cons_of_mem e hx)
      exact ⟨htree'.trans htree, hloose'.trans hloose⟩

/-- Edits that no page refuses are all carried out. -/
theorem perform_of_sound {p : Page} {es : List Edit} (hes : ∀ e ∈ es, e.Sound) : (p.perform es).2 = none := by
  induction es generalizing p with
  | nil => rfl
  | cons e rest ih =>
    obtain ⟨q, hq⟩ := edit_of_sound (p := p) (hes e List.mem_cons_self)
    rw [perform_cons hq]
    exact ih fun x hx => hes x (List.mem_cons_of_mem e hx)

theorem perform_append {p : Page} {es : List Edit} (hes : ∀ e ∈ es, e.Sound) (fs : List Edit) :
    p.perform (es ++ fs) = (p.perform es).1.perform fs := by
  induction es generalizing p with
  | nil => rfl
  | cons e rest ih =>
    obtain ⟨q, hq⟩ := edit_of_sound (p := p) (hes e List.mem_cons_self)
    rw [List.cons_append, perform_cons hq, perform_cons hq]
    exact ih fun x hx => hes x (List.mem_cons_of_mem e hx)

/-! ### What is seen of an element -/

section
variable {α : Type} {look : Element → α} {j : Nat}

namespace Edit

/-- The edit leaves alone what is seen of element `j`. -/
def Keeps (look : Element → α) (j : Nat) (e : Edit) : Prop :=
  ∀ p q : Page, p.edit e = .ok q → j < p.elements.length → look (q.element j) = look (p.element j)

/-- After the edit, this is seen of element `j`. -/
def Makes (look : Element → α) (j : Nat) (v : α) (e : Edit) : Prop :=
  ∀ p q : Page, p.edit e = .ok q → j < p.elements.length → look (q.element j) = v

/-- The edit writes another attribute, or an attribute of another element, or none. -/
def Spares (j : Nat) (m : String) (e : Edit) : Prop := ∀ name, e.slot? = some (j, name) → Plain name ∧ name ≠ m

/-- The edit writes neither the class attribute of the element nor that one class name. -/
def SparesClass (j : Nat) (t : String) : Edit → Prop
  | .addClass id token => id = j → token ≠ t
  | .removeClass id token => id = j → token ≠ t
  | e => e.Spares j "class"

theorem Spares.of_slot {e : Edit} {id : Nat} {name m : String} (hslot : e.slot? = some (id, name))
    (hname : Plain name) (hne : id = j → name ≠ m) : e.Spares j m := by
  intro n hn
  rw [hslot] at hn
  obtain ⟨rfl, rfl⟩ := Prod.mk.inj (Option.some.inj hn)
  exact ⟨hname, hne rfl⟩

theorem Spares.of_slotless {e : Edit} {m : String} (hslot : e.slot? = none) : e.Spares j m := by
  intro name hname
  rw [hslot] at hname
  cases hname

theorem Spares.keeps {m : String} {e : Edit} (h : e.Spares j m) (hm : Plain m) : e.Keeps (·.attr? m) j := by
  intro p q hq hj
  refine attr?_edit_of_ne hq hj fun name hslot => ?_
  obtain ⟨hname, hne⟩ := h name hslot
  rw [key_of_plain hname, key_of_plain hm]
  exact hne

theorem Spares.keeps_hasClass {e : Edit} (h : e.Spares j "class") (t : String) : e.Keeps (·.hasClass t) j :=
  fun p q hq hj => hasClass_congr (h.keeps plain_class p q hq hj) t

theorem SparesClass.keeps {t : String} {e : Edit} (h : e.SparesClass j t) (ht : e.Sound) :
    e.Keeps (·.hasClass t) j := by
  cases e with
  | addClass id token =>
    intro p q hq hj
    show (q.element j).hasClass t = (p.element j).hasClass t
    rw [element_edit hq trivial hj]
    unfold actOn
    split
    · next hslot =>
      have hne : token ≠ t := h (Option.some.inj hslot)
      show ((p.element j).withClass token).hasClass t = _
      rw [hasClass_withClass ht]
      simp [Ne.symm hne]
    · rfl
  | removeClass id token =>
    intro p q hq hj
    show (q.element j).hasClass t = (p.element j).hasClass t
    rw [element_edit hq trivial hj]
    unfold actOn
    split
    · next hslot =>
      have hne : token ≠ t := h (Option.some.inj hslot)
      show ((p.element j).withoutClass token).hasClass t = _
      rw [hasClass_withoutClass]
      simp [Ne.symm hne]
    · rfl
  | _ => exact Spares.keeps_hasClass h t

theorem makes_of_act {e : Edit} {name : String} {v : α} (hslot : e.slot? = some (j, name))
    (hact : ∀ x, look (e.act x) = v) : e.Makes look j v := by
  intro p q hq hj
  have hflat : e.Flat := by
    cases e with
    | setText id text => cases hslot
    | choose id index => cases hslot
    | _ => trivial
  rw [element_edit hq hflat hj, actOn, hslot, Option.map_some, if_pos rfl]
  exact hact _

variable {m value : String}

theorem makes_setAttr : (Edit.setAttr j m value).Makes (·.attr? m) j (some value) :=
  makes_of_act rfl fun x => by rw [act, attr?_withAttr, if_pos rfl]

theorem makes_removeAttr : (Edit.removeAttr j m).Makes (·.attr? m) j none :=
  makes_of_act rfl fun x => by rw [act, attr?_withoutAttr, if_pos rfl]

theorem makes_addClass (hm : Token m) : (Edit.addClass j m).Makes (·.hasClass m) j true :=
  makes_of_act rfl fun x => by simp [act, hasClass_withClass hm]

theorem makes_removeClass : (Edit.removeClass j m).Makes (·.hasClass m) j false :=
  makes_of_act rfl fun x => by simp [act, hasClass_withoutClass]

theorem makes_setStyle (h : Declared (m, value)) : (Edit.setStyle j m value).Makes (·.styleValue? m) j (some value) :=
  makes_of_act rfl fun _ => styleValue?_setStyle h

theorem makes_removeStyle : (Edit.removeStyle j m).Makes (·.styleValue? m) j none :=
  makes_of_act rfl fun x => styleValue?_removeStyle x m

end Edit

/-- What no edit changes is seen as before, also when the page refused one of them. -/
theorem look_perform_of_keeps (look : Element → α) {p : Page} {es : List Edit} (hes : ∀ e ∈ es, e.Keeps look j)
    (hj : j < p.elements.length) : look ((p.perform es).1.element j) = look (p.element j) := by
  induction es generalizing p with
  | nil => rfl
  | cons e rest ih =>
    rw [perform]
    cases hq : p.edit e with
    | error fault => rfl
    | ok q =>
      have hrest := ih (p := q) (fun x hx => hes x (List.mem_cons_of_mem e hx)) (by
        rw [(edited_edit hq).length]
        exact hj)
      exact hrest.trans (hes e List.mem_cons_self p q hq hj)

/-- What one edit makes, and those after it leave alone, is seen in the end. -/
theorem look_perform_of_makes (look : Element → α) {p : Page} {v : α} (before : List Edit) (e : Edit) (after : List Edit)
    (hsound : ∀ x ∈ before ++ e :: after, x.Sound) (hmakes : e.Makes look j v) (hafter : ∀ x ∈ after, x.Keeps look j)
    (hj : j < p.elements.length) : look ((p.perform (before ++ e :: after)).1.element j) = v := by
  rw [perform_append fun x hx => hsound x (List.mem_append_left _ hx)]
  have hlength : j < (p.perform before).1.elements.length := by
    rw [(edited_perform p before).length]
    exact hj
  obtain ⟨q, hq⟩ := edit_of_sound (p := (p.perform before).1) (hsound e (List.mem_append_right _ List.mem_cons_self))
  rw [perform_cons hq, look_perform_of_keeps look hafter (by rw [(edited_edit hq).length]; exact hlength)]
  exact hmakes _ q hq hlength

end

end Page
end PageWidgets
