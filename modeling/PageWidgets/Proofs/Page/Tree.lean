import PageWidgets.Page.Basic

/-! What replacing the children of one element does to trees. In trees where every element stands once, only what is
    found below that element changes: the other elements keep their children, up to the same replacement further
    down. -/

namespace PageWidgets
namespace Page

namespace Node

variable {id u : Nat} {f : List Node → List Node}

/-! ### Elements of trees -/

theorem idsOf_append (l m : List Node) : idsOf (l ++ m) = idsOf l ++ idsOf m := by
  induction l with
  | nil => rfl
  | cons n l ih => rw [List.cons_append, idsOf, idsOf, ih, List.append_assoc]

theorem mem_of_mem_elementsAmong {l : List Node} (h : id ∈ elementsAmong l) : id ∈ idsOf l := by
  induction l with
  | nil => exact absurd h List.not_mem_nil
  | cons n l ih =>
    rw [idsOf]
    cases n with
    | text s => exact List.mem_append_right _ (ih h)
    | element i children =>
      rcases List.mem_cons.mp h with rfl | h
      · exact List.mem_append_left _ List.mem_cons_self
      · exact List.mem_append_right _ (ih h)

mutual

theorem childrenOf?_eq_none : ∀ n : Node, childrenOf? id n = none ↔ id ∉ ids n
  | .text s => by simp [childrenOf?, ids]
  | .element i children => by
    rw [childrenOf?, ids]
    by_cases h : i = id
    · simp [h]
    · rw [if_neg h, childrenIn?_eq_none children, List.mem_cons]
      constructor
      · rintro hnot (heq | hmem)
        · exact h heq.symm
        · exact hnot hmem
      · intro hnot hmem
        exact hnot (.inr hmem)

theorem childrenIn?_eq_none : ∀ l : List Node, childrenIn? id l = none ↔ id ∉ idsOf l
  | [] => by simp [childrenIn?, idsOf]
  | n :: rest => by
    have hn := childrenOf?_eq_none n
    have hrest := childrenIn?_eq_none rest
    rw [childrenIn?, idsOf, List.mem_append, not_or, ← hn, ← hrest]
    cases childrenOf? id n <;> simp

end

/-- Where there are no elements, none has children. -/
theorem childrenIn?_of_idsOf_eq_nil {l : List Node} (h : idsOf l = []) : childrenIn? id l = none := by
  rw [childrenIn?_eq_none, h]
  exact List.not_mem_nil

theorem mem_of_childrenIn? {l c : List Node} (h : childrenIn? id l = some c) : id ∈ idsOf l := by
  by_cases hmem : id ∈ idsOf l
  · exact hmem
  · rw [(childrenIn?_eq_none l).mpr hmem] at h
    cases h

theorem exists_childrenIn? {l : List Node} (h : id ∈ idsOf l) : ∃ c, childrenIn? id l = some c := by
  cases hc : childrenIn? id l with
  | none => exact absurd h ((childrenIn?_eq_none l).mp hc)
  | some c => exact ⟨c, rfl⟩

/-- The children are found in the first tree that holds the element. -/
theorem childrenIn?_cons_of_mem {n : Node} (h : id ∈ ids n) (rest : List Node) :
    childrenIn? id (n :: rest) = childrenOf? id n := by
  rw [childrenIn?]
  cases hc : childrenOf? id n with
  | none => exact absurd h ((childrenOf?_eq_none n).mp hc)
  | some c => rfl

theorem childrenIn?_cons_of_not_mem {n : Node} (h : id ∉ ids n) (rest : List Node) :
    childrenIn? id (n :: rest) = childrenIn? id rest := by
  rw [childrenIn?, (childrenOf?_eq_none n).mpr h]

mutual

/-- An element and what is below it stand in its tree, in the same order. -/
theorem cons_sublist_of_childrenOf? {c : List Node} :
    ∀ n : Node, childrenOf? id n = some c → (id :: idsOf c).Sublist (ids n)
  | .text s, h => by cases h
  | .element i children, h => by
    rw [childrenOf?] at h
    rw [ids]
    split at h
    · next hi =>
      cases h
      subst hi
      exact List.Sublist.refl _
    · exact (cons_sublist_of_childrenIn? children h).trans (List.sublist_cons_self _ _)

theorem cons_sublist_of_childrenIn? {c : List Node} :
    ∀ l : List Node, childrenIn? id l = some c → (id :: idsOf c).Sublist (idsOf l)
  | [], h => by cases h
  | n :: rest, h => by
    rw [idsOf]
    by_cases hn : id ∈ ids n
    · rw [childrenIn?_cons_of_mem hn] at h
      exact (cons_sublist_of_childrenOf? n h).trans (List.sublist_append_left _ _)
    · rw [childrenIn?_cons_of_not_mem hn] at h
      exact (cons_sublist_of_childrenIn? rest h).trans (List.sublist_append_right _ _)

end

theorem sublist_of_childrenOf? {c : List Node} (n : Node) (h : childrenOf? id n = some c) :
    (idsOf c).Sublist (ids n) :=
  (List.sublist_cons_self _ _).trans (cons_sublist_of_childrenOf? n h)

theorem sublist_of_childrenIn? {c : List Node} (l : List Node) (h : childrenIn? id l = some c) :
    (idsOf c).Sublist (idsOf l) :=
  (List.sublist_cons_self _ _).trans (cons_sublist_of_childrenIn? l h)

mutual

/-- In trees where every element stands once, what is found below an element is found the same way from the top. -/
theorem childrenOf?_below {c : List Node} : ∀ n : Node, (ids n).Nodup → childrenOf? u n = some c → id ∈ idsOf c →
    childrenOf? id n = childrenIn? id c
  | .text s, _, h, _ => by cases h
  | .element i children, hnodup, h, hmem => by
    rw [ids, List.nodup_cons] at hnodup
    rw [childrenOf?] at h
    have hbelow : id ∈ idsOf children := by
      split at h
      · cases h
        exact hmem
      · exact (sublist_of_childrenIn? children h).subset hmem
    have hne : ¬i = id := by
      rintro rfl
      exact hnodup.1 hbelow
    rw [childrenOf?, if_neg hne]
    split at h
    · cases h
      rfl
    · exact childrenIn?_below children hnodup.2 h hmem

theorem childrenIn?_below {c : List Node} : ∀ l : List Node, (idsOf l).Nodup → childrenIn? u l = some c →
    id ∈ idsOf c → childrenIn? id l = childrenIn? id c
  | [], _, h, _ => by cases h
  | n :: rest, hnodup, h, hmem => by
    rw [idsOf, List.nodup_append] at hnodup
    obtain ⟨hn, hrest, hapart⟩ := hnodup
    by_cases hu : u ∈ ids n
    · rw [childrenIn?_cons_of_mem hu] at h
      rw [childrenIn?_cons_of_mem ((sublist_of_childrenOf? n h).subset hmem)]
      exact childrenOf?_below n hn h hmem
    · rw [childrenIn?_cons_of_not_mem hu] at h
      have hlater := (sublist_of_childrenIn? rest h).subset hmem
      rw [childrenIn?_cons_of_not_mem fun hfirst => hapart id hfirst id hlater rfl]
      exact childrenIn?_below rest hrest h hmem

end

/-! ### Replacing children -/

mutual

theorem withChildren_of_not_mem : ∀ n : Node, id ∉ ids n → withChildren id f n = n
  | .text s, _ => rfl
  | .element i children, h => by
    rw [ids, List.mem_cons, not_or] at h
    rw [withChildren, if_neg (Ne.symm h.1), withChildrenIn_of_not_mem children h.2]

theorem withChildrenIn_of_not_mem : ∀ l : List Node, id ∉ idsOf l → withChildrenIn id f l = l
  | [], _ => rfl
  | n :: rest, h => by
    rw [idsOf, List.mem_append, not_or] at h
    rw [withChildrenIn, withChildren_of_not_mem n h.1, withChildrenIn_of_not_mem rest h.2]

end

mutual

theorem childrenOf?_withChildren_self : ∀ n : Node, childrenOf? id (withChildren id f n) = (childrenOf? id n).map f
  | .text s => rfl
  | .element i children => by
    rw [withChildren, childrenOf?, childrenOf?]
    by_cases h : i = id
    · simp [h]
    · rw [if_neg h, if_neg h, if_neg h]
      exact childrenIn?_withChildrenIn_self children

theorem childrenIn?_withChildrenIn_self :
    ∀ l : List Node, childrenIn? id (withChildrenIn id f l) = (childrenIn? id l).map f
  | [] => rfl
  | n :: rest => by
    rw [withChildrenIn, childrenIn?, childrenIn?, childrenOf?_withChildren_self n]
    cases childrenOf? id n with
    | none => exact childrenIn?_withChildrenIn_self rest
    | some c => rfl

end

theorem map_withChildrenIn_of_not_mem {l : List Node} (h : id ∉ idsOf l) :
    (childrenIn? u l).map (withChildrenIn id f) = childrenIn? u l := by
  cases hc : childrenIn? u l with
  | none => rfl
  | some c =>
    have hbelow : id ∉ idsOf c := fun hmem => h ((sublist_of_childrenIn? l hc).subset hmem)
    rw [Option.map_some, withChildrenIn_of_not_mem c hbelow]

mutual

/-- Another element keeps its children, up to the same replacement among what is below it. -/
theorem childrenOf?_withChildren (hne : u ≠ id) : ∀ n : Node, (ids n).Nodup →
    (∀ c, childrenOf? id n = some c → childrenIn? u (f c) = childrenIn? u c) →
    childrenOf? u (withChildren id f n) = (childrenOf? u n).map (withChildrenIn id f)
  | .text s, _, _ => rfl
  | .element i children, hnodup, hf => by
    rw [ids, List.nodup_cons] at hnodup
    rw [withChildren, childrenOf?, childrenOf?]
    by_cases hu : i = u
    · have hid : ¬i = id := fun heq => hne (hu.symm.trans heq)
      rw [if_pos hu, if_pos hu, if_neg hid, Option.map_some]
    · rw [if_neg hu, if_neg hu]
      by_cases hid : i = id
      · subst hid
        rw [if_pos rfl, map_withChildrenIn_of_not_mem hnodup.1]
        exact hf children (by rw [childrenOf?, if_pos rfl])
      · rw [if_neg hid]
        exact childrenIn?_withChildrenIn hne children hnodup.2 fun c hc =>
          hf c (by rw [childrenOf?, if_neg hid, hc])

theorem childrenIn?_withChildrenIn (hne : u ≠ id) : ∀ l : List Node, (idsOf l).Nodup →
    (∀ c, childrenIn? id l = some c → childrenIn? u (f c) = childrenIn? u c) →
    childrenIn? u (withChildrenIn id f l) = (childrenIn? u l).map (withChildrenIn id f)
  | [], _, _ => rfl
  | n :: rest, hnodup, hf => by
    rw [idsOf, List.nodup_append] at hnodup
    obtain ⟨hn, hrest, hapart⟩ := hnodup
    have hfirst := childrenOf?_withChildren hne n hn fun c hc => hf c (by rw [childrenIn?, hc])
    rw [withChildrenIn, childrenIn?, childrenIn?, hfirst]
    cases childrenOf? u n with
    | some c => rfl
    | none =>
      by_cases hid : id ∈ ids n
      · have hlater : id ∉ idsOf rest := fun hmem => hapart id hid id hmem rfl
        rw [withChildrenIn_of_not_mem rest hlater]
        exact (map_withChildrenIn_of_not_mem hlater).symm
      · exact childrenIn?_withChildrenIn hne rest hrest fun c hc => hf c (by rw [childrenIn?_cons_of_not_mem hid, hc])

end

mutual

/-- The elements of a tree are those above and before the children of one of them, those below it, and those after;
    replacing the children changes the part in the middle. -/
theorem exists_around_node {c : List Node} : ∀ n : Node, (ids n).Nodup → childrenOf? id n = some c →
    ∃ a b, ids n = a ++ idsOf c ++ b ∧ ∀ f, ids (withChildren id f n) = a ++ idsOf (f c) ++ b
  | .text s, _, h => by cases h
  | .element i children, hnodup, h => by
    rw [ids, List.nodup_cons] at hnodup
    rw [childrenOf?] at h
    split at h
    · next hi =>
      cases h
      refine ⟨[i], [], by simp [ids], fun f => ?_⟩
      simp [withChildren, ids, hi]
    · next hi =>
      obtain ⟨a, b, hids, hafter⟩ := exists_around children hnodup.2 h
      refine ⟨i :: a, b, by simp [ids, hids], fun f => ?_⟩
      simp [withChildren, ids, hi, hafter f]

theorem exists_around {c : List Node} : ∀ l : List Node, (idsOf l).Nodup → childrenIn? id l = some c →
    ∃ a b, idsOf l = a ++ idsOf c ++ b ∧ ∀ f, idsOf (withChildrenIn id f l) = a ++ idsOf (f c) ++ b
  | [], _, h => by cases h
  | n :: rest, hnodup, h => by
    rw [idsOf, List.nodup_append] at hnodup
    obtain ⟨hn, hrest, hapart⟩ := hnodup
    by_cases hid : id ∈ ids n
    · rw [childrenIn?_cons_of_mem hid] at h
      obtain ⟨a, b, hids, hafter⟩ := exists_around_node n hn h
      refine ⟨a, b ++ idsOf rest, by simp [idsOf, hids], fun f => ?_⟩
      have hlater : id ∉ idsOf rest := fun hmem => hapart id hid id hmem rfl
      simp [withChildrenIn, idsOf, hafter f, withChildrenIn_of_not_mem rest hlater]
    · rw [childrenIn?_cons_of_not_mem hid] at h
      obtain ⟨a, b, hids, hafter⟩ := exists_around rest hrest h
      refine ⟨ids n ++ a, b, by simp [idsOf, hids], fun f => ?_⟩
      simp [withChildrenIn, idsOf, hafter f, withChildren_of_not_mem n hid]

end

/-! ### Added nodes -/

theorem childrenIn?_append (l m : List Node) : childrenIn? id (l ++ m) = (childrenIn? id l).or (childrenIn? id m) := by
  induction l with
  | nil => rfl
  | cons n l ih =>
    rw [List.cons_append, childrenIn?, childrenIn?, ih]
    cases childrenOf? id n <;> rfl

/-- A node is put somewhere between the others, which stay in order. -/
theorem exists_insertBefore (reference : Option Nat) (n : Node) (l : List Node) :
    ∃ a b, l = a ++ b ∧ insertBefore reference n l = a ++ n :: b := by
  induction l with
  | nil => exact ⟨[], [], rfl, rfl⟩
  | cons m l ih =>
    obtain ⟨a, b, hl, hinsert⟩ := ih
    have hlater : ∃ a b, m :: l = a ++ b ∧ m :: insertBefore reference n l = a ++ n :: b :=
      ⟨m :: a, b, by rw [hl]; rfl, by rw [hinsert]; rfl⟩
    simp only [insertBefore]
    split
    · split
      · exact ⟨[], m :: l, rfl, rfl⟩
      · exact hlater
    · exact hlater

end Node

/-! ### Pages -/

/-- Every element stands once in the trees of the page, and the page knows what it is. -/
structure WellFormed (p : Page) : Prop where
  distinct : (Node.idsOf p.trees).Nodup
  known : ∀ id ∈ Node.idsOf p.trees, id < p.elements.length

namespace WellFormed

variable {p : Page} (h : p.WellFormed)

include h

/-- An element and those below it are all different, and the page knows them. -/
theorem descendants (id : Nat) :
    id ∉ p.descendants id ∧ (p.descendants id).Nodup ∧ ∀ i ∈ p.descendants id, i < p.elements.length := by
  unfold Page.descendants Page.children
  cases hc : Node.childrenIn? id p.trees with
  | none => exact ⟨List.not_mem_nil, List.nodup_nil, fun i hi => absurd hi List.not_mem_nil⟩
  | some c =>
    have hsub := Node.cons_sublist_of_childrenIn? p.trees hc
    have hdistinct := List.nodup_cons.mp (h.distinct.sublist hsub)
    exact ⟨hdistinct.1, hdistinct.2, fun i hi => h.known i (hsub.subset (List.mem_cons_of_mem _ hi))⟩

theorem documentElements {id : Nat} (hid : id ∈ p.documentElements) : id < p.elements.length := by
  refine h.known id ?_
  rw [trees, Node.idsOf_append]
  exact List.mem_append_left _ hid

theorem congr {q : Page} (htrees : q.trees = p.trees) (hlength : q.elements.length = p.elements.length) :
    q.WellFormed := by
  constructor
  · rw [htrees]
    exact h.distinct
  · rw [htrees, hlength]
    exact h.known

end WellFormed

theorem trees_withChildren (p : Page) (id : Nat) (f : List Node → List Node) :
    (p.withChildren id f).trees = Node.withChildrenIn id f p.trees := by
  have hloose : ∀ l : List Node, ∀ rest, Node.withChildrenIn id f (l ++ rest) =
      Node.withChildrenIn id f l ++ Node.withChildrenIn id f rest := by
    intro l rest
    induction l with
    | nil => rfl
    | cons n l ih => simp only [List.cons_append, Node.withChildrenIn, ih]
  unfold withChildren trees
  rw [hloose]
  cases p.tree <;> rfl

theorem mem_trees_of_mem_descendants {p : Page} {id u : Nat} (h : u ∈ p.descendants id) : u ∈ Node.idsOf p.trees := by
  unfold descendants children at h
  cases hc : Node.childrenIn? id p.trees with
  | none =>
    rw [hc] at h
    exact absurd h List.not_mem_nil
  | some c =>
    rw [hc] at h
    exact (Node.sublist_of_childrenIn? p.trees hc).subset h

/-! ### Leaves -/

/-- The element stands in a tree of the page, and no element is below it. -/
def Leaf (p : Page) (id : Nat) : Prop := ∃ c, Node.childrenIn? id p.trees = some c ∧ Node.idsOf c = []

section
variable {p q : Page} {u id : Nat} {f : List Node → List Node}

theorem Leaf.congr (h : p.Leaf u) (hu : Node.childrenIn? u q.trees = Node.childrenIn? u p.trees) : q.Leaf u := by
  obtain ⟨c, hc, hnone⟩ := h
  exact ⟨c, hu.trans hc, hnone⟩

theorem textContent_congr (hu : Node.childrenIn? u q.trees = Node.childrenIn? u p.trees) :
    q.textContent u = p.textContent u := by
  unfold textContent children
  rw [hu]

/-- A leaf keeps what is below it when another element gets new children, unless it is moved along. -/
theorem WellFormed.leaf_withChildren (h : p.WellFormed) (hleaf : p.Leaf u) (hu : u ≠ id)
    (hf : ∀ c, Node.childrenIn? id p.trees = some c → Node.childrenIn? u (f c) = Node.childrenIn? u c) :
    Node.childrenIn? u (p.withChildren id f).trees = Node.childrenIn? u p.trees := by
  obtain ⟨c, hc, hnone⟩ := hleaf
  have hbelow : id ∉ Node.idsOf c := by
    rw [hnone]
    exact List.not_mem_nil
  rw [trees_withChildren, Node.childrenIn?_withChildrenIn hu p.trees h.distinct hf, hc, Option.map_some,
    Node.withChildrenIn_of_not_mem c hbelow]

end

end Page
end PageWidgets
