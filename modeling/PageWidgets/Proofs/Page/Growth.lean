import PageWidgets.Proofs.Page.Edit

/-! Pages that grow. An edit of an attribute moves no element, a text moves none when it is put into a leaf, and new
    children leave everything else where it was: what was below an element is below it still, in the same order, with
    nothing but new elements in between (`Grown`). So what is looked for by a tag that no new element has is found as
    before. -/

namespace PageWidgets
namespace Page

namespace Node

variable {id u : Nat} {f : List Node → List Node}

theorem elementsAmong_append (l m : List Node) : elementsAmong (l ++ m) = elementsAmong l ++ elementsAmong m := by
  induction l with
  | nil => rfl
  | cons n l ih => cases n <;> simp [elementsAmong, ih]

theorem elementsAmong_withChildrenIn (l : List Node) : elementsAmong (withChildrenIn id f l) = elementsAmong l := by
  induction l with
  | nil => rfl
  | cons n l ih => cases n <;> simp [withChildrenIn, withChildren, elementsAmong, ih]

/-- Elements that are kept stay in order when the children of one of them are replaced by the same among others. -/
theorem filter_idsOf_withChildrenIn {keep : Nat → Bool} {l : List Node} (hnodup : (idsOf l).Nodup)
    (hkeep : ∀ i ∈ idsOf l, keep i = true)
    (hf : ∀ c, childrenIn? id l = some c → (idsOf (f c)).filter keep = idsOf c) :
    (idsOf (withChildrenIn id f l)).filter keep = idsOf l := by
  cases hc : childrenIn? id l with
  | none =>
    rw [withChildrenIn_of_not_mem l ((childrenIn?_eq_none l).mp hc)]
    exact List.filter_eq_self.mpr hkeep
  | some c =>
    obtain ⟨a, b, hids, hafter⟩ := exists_around l hnodup hc
    rw [hids] at hkeep
    have ha : a.filter keep = a :=
      List.filter_eq_self.mpr fun i hi => hkeep i (List.mem_append_left _ (List.mem_append_left _ hi))
    have hb : b.filter keep = b := List.filter_eq_self.mpr fun i hi => hkeep i (List.mem_append_right _ hi)
    rw [hafter, List.filter_append, List.filter_append, ha, hb, hf c hc, hids]

end Node

/-- The elements right below an element, in order. -/
def childElements (p : Page) (id : Nat) : List Nat := Node.elementsAmong (p.children id)

section
variable {p q : Page} {id u : Nat} {f : List Node → List Node}

theorem mem_descendants_of_mem_childElements (h : u ∈ p.childElements id) : u ∈ p.descendants id :=
  Node.mem_of_mem_elementsAmong h

theorem descendants_congr (htrees : q.trees = p.trees) (id : Nat) : q.descendants id = p.descendants id := by
  unfold descendants children
  rw [htrees]

theorem childElements_congr (htrees : q.trees = p.trees) (id : Nat) : q.childElements id = p.childElements id := by
  unfold childElements children
  rw [htrees]

theorem descendants_of_not_mem (h : id ∉ Node.idsOf p.trees) : p.descendants id = [] := by
  unfold descendants children
  rw [(Node.childrenIn?_eq_none _).mpr h]
  rfl

theorem mem_trees_of_mem_root? (h : p.root? = some id) : id ∈ Node.idsOf p.trees := by
  unfold trees
  rw [Node.idsOf_append]
  exact List.mem_append_left _ (Node.mem_of_mem_elementsAmong (List.mem_of_head? h))

/-- A leaf has no element below it. -/
theorem leaf_iff : p.Leaf id ↔ id ∈ Node.idsOf p.trees ∧ p.descendants id = [] := by
  unfold Leaf descendants children
  constructor
  · rintro ⟨c, hc, hnone⟩
    rw [hc]
    exact ⟨Node.mem_of_childrenIn? hc, hnone⟩
  · rintro ⟨hid, hnone⟩
    obtain ⟨c, hc⟩ := Node.exists_childrenIn? hid
    rw [hc] at hnone
    exact ⟨c, hc, hnone⟩

/-! ### Replacing children -/

theorem children_withChildren_self (p : Page) (id : Nat) {f : List Node → List Node} (hid : id ∈ Node.idsOf p.trees) :
    (p.withChildren id f).children id = f (p.children id) := by
  obtain ⟨c, hc⟩ := Node.exists_childrenIn? hid
  unfold children
  rw [trees_withChildren, Node.childrenIn?_withChildrenIn_self, hc]
  rfl

theorem WellFormed.children_withChildren (h : p.WellFormed) (hu : u ≠ id)
    (hf : ∀ c, Node.childrenIn? id p.trees = some c → Node.childrenIn? u (f c) = Node.childrenIn? u c) :
    (p.withChildren id f).children u = Node.withChildrenIn id f (p.children u) := by
  unfold children
  rw [trees_withChildren, Node.childrenIn?_withChildrenIn hu p.trees h.distinct hf]
  cases Node.childrenIn? u p.trees <;> rfl

theorem WellFormed.childElements_withChildren (h : p.WellFormed) (hu : u ≠ id)
    (hf : ∀ c, Node.childrenIn? id p.trees = some c → Node.childrenIn? u (f c) = Node.childrenIn? u c) :
    (p.withChildren id f).childElements u = p.childElements u := by
  unfold Page.childElements
  rw [h.children_withChildren hu hf, Node.elementsAmong_withChildrenIn]

/-- What is kept below an element stays there in order. -/
theorem WellFormed.filter_descendants_withChildren (h : p.WellFormed) {keep : Nat → Bool}
    (hkeep : ∀ i ∈ Node.idsOf p.trees, keep i = true)
    (hf : ∀ c, Node.childrenIn? id p.trees = some c → (Node.idsOf (f c)).filter keep = Node.idsOf c ∧
      (u ≠ id → Node.childrenIn? u (f c) = Node.childrenIn? u c)) :
    ((p.withChildren id f).descendants u).filter keep = p.descendants u := by
  unfold Page.descendants
  by_cases hu : u = id
  · subst hu
    unfold children
    rw [trees_withChildren, Node.childrenIn?_withChildrenIn_self]
    cases hc : Node.childrenIn? u p.trees with
    | none => rfl
    | some c => exact (hf c hc).1
  · rw [h.children_withChildren hu fun c hc => (hf c hc).2 hu]
    refine Node.filter_idsOf_withChildrenIn (h.descendants u).2.1
      (fun i hi => hkeep i (mem_trees_of_mem_descendants hi)) fun c hc => (hf c ?_).1
    -- What is found below an element is found the same way from the top.
    unfold children at hc
    cases hbelow : Node.childrenIn? u p.trees with
    | none =>
      rw [hbelow] at hc
      cases hc
    | some d =>
      rw [hbelow, Option.getD_some] at hc
      rw [Node.childrenIn?_below p.trees h.distinct hbelow (Node.mem_of_childrenIn? hc)]
      exact hc

/-! ### The root -/

theorem root?_withChildren (p : Page) (id : Nat) (f : List Node → List Node) :
    (p.withChildren id f).root? = p.root? := by
  unfold root? withChildren
  cases htree : p.tree with
  | none => rfl
  | some n => cases n <;> rfl

theorem root?_edit {e : Edit} (hq : p.edit e = .ok q) : q.root? = p.root? := by
  by_cases htext : ∃ id text, e = .setText id text
  · obtain ⟨id, text, rfl⟩ := htext
    cases hq
    exact root?_withChildren p id _
  · unfold root?
    rw [(trees_edit hq fun id text heq => htext ⟨id, text, heq⟩).1]

theorem root?_perform (p : Page) (es : List Edit) : (p.perform es).1.root? = p.root? := by
  induction es generalizing p with
  | nil => rfl
  | cons e rest ih =>
    rw [perform]
    cases hq : p.edit e with
    | error fault => rfl
    | ok q => exact (ih q).trans (root?_edit hq)

end

/-! ### Growth -/

/-- Every element of a page is what it was and where it was; there may be new elements. -/
structure Grown (p q : Page) : Prop where
  length : p.elements.length ≤ q.elements.length
  tag : ∀ id < p.elements.length, (q.element id).tag = (p.element id).tag
  html : ∀ id < p.elements.length, (q.element id).html = (p.element id).html
  placed : ∀ id ∈ Node.idsOf p.trees, id ∈ Node.idsOf q.trees
  root : q.root? = p.root?
  below : ∀ id < p.elements.length, (q.descendants id).filter (· < p.elements.length) = p.descendants id

namespace Grown

variable {p q r : Page} {id : Nat}

theorem trans (h : Grown p q) (h' : Grown q r) : Grown p r where
  length := Nat.le_trans h.length h'.length
  tag id hid := (h'.tag id (Nat.lt_of_lt_of_le hid h.length)).trans (h.tag id hid)
  html id hid := (h'.html id (Nat.lt_of_lt_of_le hid h.length)).trans (h.html id hid)
  placed id hid := h'.placed id (h.placed id hid)
  root := h'.root.trans h.root
  below id hid := by
    rw [← h.below id hid, ← h'.below id (Nat.lt_of_lt_of_le hid h.length), List.filter_filter]
    refine List.filter_congr fun i _ => ?_
    have hlength := h.length
    by_cases hi : i < p.elements.length
    · have hi' : i < q.elements.length := by omega
      simp [hi, hi']
    · simp [hi]

theorem isA (h : Grown p q) (hid : id < p.elements.length) (tag : String) :
    (q.element id).isA tag = (p.element id).isA tag := by
  unfold Element.isA
  rw [h.html id hid, h.tag id hid]

theorem mem_descendants (h : Grown p q) (hid : id < p.elements.length) {u : Nat} (hu : u ∈ p.descendants id) :
    u ∈ q.descendants id := by
  rw [← h.below id hid] at hu
  exact (List.mem_filter.mp hu).1

/-- What is looked for among old elements alone is found as before. -/
theorem filter_descendants (h : Grown p q) (hid : id < p.elements.length) {f g : Nat → Bool}
    (hold : ∀ i < p.elements.length, f i = g i) (hnew : ∀ i, p.elements.length ≤ i → f i = false) :
    (q.descendants id).filter f = (p.descendants id).filter g := by
  rw [← h.below id hid, List.filter_filter]
  refine List.filter_congr fun i _ => ?_
  by_cases hi : i < p.elements.length
  · rw [hold i hi, decide_eq_true hi, Bool.and_true]
  · rw [hnew i (Nat.le_of_not_lt hi), decide_eq_false hi, Bool.and_false]

/-- Without new elements everything is below what it was below. -/
theorem descendants_eq (h : Grown p q) (hq : q.WellFormed) (hlength : q.elements.length = p.elements.length)
    (hid : id < p.elements.length) : q.descendants id = p.descendants id := by
  rw [← h.below id hid]
  refine (List.filter_eq_self.mpr fun i hi => decide_eq_true ?_).symm
  rw [← hlength]
  exact (hq.descendants id).2.2 i hi

theorem congr (h : Grown p q) (htrees : r.trees = q.trees) (hroot : r.root? = q.root?)
    (hlength : r.elements.length = q.elements.length) (htag : ∀ id, (r.element id).tag = (q.element id).tag)
    (hhtml : ∀ id, (r.element id).html = (q.element id).html) : Grown p r where
  length := by rw [hlength]; exact h.length
  tag id hid := (htag id).trans (h.tag id hid)
  html id hid := (hhtml id).trans (h.html id hid)
  placed id hid := by rw [htrees]; exact h.placed id hid
  root := hroot.trans h.root
  below id hid := by
    rw [descendants_congr htrees]
    exact h.below id hid

end Grown

section
variable {p : Page} {id : Nat}

theorem WellFormed.grown (h : p.WellFormed) : Grown p p where
  length := Nat.le_refl _
  tag _ _ := rfl
  html _ _ := rfl
  placed _ hid := hid
  root := rfl
  below id _ := List.filter_eq_self.mpr fun i hi => decide_eq_true ((h.descendants id).2.2 i hi)

/-- A text in a leaf moves nothing. -/
theorem WellFormed.grown_setText (h : p.WellFormed) (hleaf : p.Leaf id) (text : String) :
    Grown p (p.withChildren id fun _ => textNodes text) where
  length := Nat.le_refl _
  tag _ _ := rfl
  html _ _ := rfl
  placed i hi := by rwa [(h.setText text hleaf).1]
  root := root?_withChildren p id _
  below u hu := by
    refine h.filter_descendants_withChildren (fun i hi => decide_eq_true (h.known i hi)) fun c hc => ?_
    obtain ⟨d, hd, hnone⟩ := hleaf
    obtain rfl := Option.some.inj (hd.symm.trans hc)
    rw [idsOf_textNodes, hnone]
    refine ⟨rfl, fun _ => ?_⟩
    rw [Node.childrenIn?_of_idsOf_eq_nil hnone, Node.childrenIn?_of_idsOf_eq_nil (idsOf_textNodes text)]

theorem WellFormed.childElements_setText (h : p.WellFormed) (hleaf : p.Leaf id) (text : String) (u : Nat) :
    (p.withChildren id fun _ => textNodes text).childElements u = p.childElements u := by
  obtain ⟨d, hd, hnone⟩ := hleaf
  have hnobody : ∀ l, Node.idsOf l = [] → Node.childrenIn? u l = none ∧ Node.elementsAmong l = [] := by
    intro l hl
    refine ⟨Node.childrenIn?_of_idsOf_eq_nil hl, List.eq_nil_iff_forall_not_mem.mpr fun i hi => ?_⟩
    have hmem := Node.mem_of_mem_elementsAmong hi
    rw [hl] at hmem
    exact List.not_mem_nil hmem
  by_cases hu : u = id
  · subst hu
    unfold Page.childElements
    rw [children_withChildren_self p u (Node.mem_of_childrenIn? hd), (hnobody _ (idsOf_textNodes text)).2]
    unfold children
    rw [hd, Option.getD_some, (hnobody d hnone).2]
  · refine h.childElements_withChildren hu fun c hc => ?_
    obtain rfl := Option.some.inj (hd.symm.trans hc)
    rw [(hnobody _ (idsOf_textNodes text)).1, (hnobody d hnone).1]

end

end Page
end PageWidgets
