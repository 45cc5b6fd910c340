import PageWidgets.Page.Event
import PageWidgets.Proofs.Page.Growth

/-! What an element contains: itself and everything below it. Of two elements that both contain a third, one contains
    the other (`WellFormed.contains_total`), and an event reaches nothing but the document and what contains its
    target (`contains_of_mem_path`). -/

namespace PageWidgets
namespace Page

namespace Node

variable {x y u : Nat}

mutual

/-- Of two elements above a third, one is above the other. -/
theorem nested_of_childrenOf? {b c : List Node} : ∀ n : Node, (ids n).Nodup → childrenOf? x n = some b →
    childrenOf? y n = some c → u ∈ idsOf b → u ∈ idsOf c → x = y ∨ y ∈ idsOf b ∨ x ∈ idsOf c
  | .text s, _, hx, _, _, _ => by cases hx
  | .element i children, hnodup, hx, hy, hux, huy => by
    rw [ids, List.nodup_cons] at hnodup
    rw [childrenOf?] at hx hy
    split at hx
    · next hxi =>
      cases hx
      split at hy
      · next hyi => exact .inl (hxi.symm.trans hyi)
      · exact .inr (.inl (mem_of_childrenIn? hy))
    · split at hy
      · cases hy
        exact .inr (.inr (mem_of_childrenIn? hx))
      · exact nested_of_childrenIn? children hnodup.2 hx hy hux huy

theorem nested_of_childrenIn? {b c : List Node} : ∀ l : List Node, (idsOf l).Nodup → childrenIn? x l = some b →
    childrenIn? y l = some c → u ∈ idsOf b → u ∈ idsOf c → x = y ∨ y ∈ idsOf b ∨ x ∈ idsOf c
  | [], _, hx, _, _, _ => by cases hx
  | n :: rest, hnodup, hx, hy, hux, huy => by
    rw [idsOf, List.nodup_append] at hnodup
    obtain ⟨hn, hrest, hapart⟩ := hnodup
    -- Both are in the tree that the third one is in.
    by_cases hu : u ∈ ids n
    · have hfirst : ∀ {z : Nat} {d : List Node}, childrenIn? z (n :: rest) = some d → u ∈ idsOf d →
          childrenOf? z n = some d := by
        intro z d hz hud
        by_cases hzn : z ∈ ids n
        · rwa [childrenIn?_cons_of_mem hzn] at hz
        · rw [childrenIn?_cons_of_not_mem hzn] at hz
          exact absurd rfl (hapart u hu u ((sublist_of_childrenIn? rest hz).subset hud))
      exact nested_of_childrenOf? n hn (hfirst hx hux) (hfirst hy huy) hux huy
    · have hlater : ∀ {z : Nat} {d : List Node}, childrenIn? z (n :: rest) = some d → u ∈ idsOf d →
          childrenIn? z rest = some d := by
        intro z d hz hud
        by_cases hzn : z ∈ ids n
        · rw [childrenIn?_cons_of_mem hzn] at hz
          exact absurd ((sublist_of_childrenOf? n hz).subset hud) hu
        · rwa [childrenIn?_cons_of_not_mem hzn] at hz
      exact nested_of_childrenIn? rest hrest (hlater hx hux) (hlater hy huy) hux huy

end

/-- An element among some nodes is below none of them. -/
theorem not_below_of_mem_elementsAmong {c : List Node} : ∀ l : List Node, (idsOf l).Nodup → u ∈ elementsAmong l →
    childrenIn? x l = some c → u ∉ idsOf c
  | [], _, _, hx, _ => by cases hx
  | n :: rest, hnodup, hu, hx, huc => by
    rw [idsOf, List.nodup_append] at hnodup
    obtain ⟨hn, hrest, hapart⟩ := hnodup
    by_cases hxn : x ∈ ids n
    · rw [childrenIn?_cons_of_mem hxn] at hx
      have hun := (sublist_of_childrenOf? n hx).subset huc
      cases n with
      | text s => cases hx
      | element i children =>
        rcases List.mem_cons.mp hu with rfl | hu
        · rw [ids, List.nodup_cons] at hn
          rw [childrenOf?] at hx
          split at hx
          · cases hx
            exact hn.1 huc
          · exact hn.1 ((sublist_of_childrenIn? children hx).subset huc)
        · exact hapart u hun u (mem_of_mem_elementsAmong hu) rfl
    · rw [childrenIn?_cons_of_not_mem hxn] at hx
      have hur := (sublist_of_childrenIn? rest hx).subset huc
      cases n with
      | text s => exact not_below_of_mem_elementsAmong rest hrest hu hx huc
      | element i children =>
        rcases List.mem_cons.mp hu with rfl | hu
        · exact hapart u List.mem_cons_self u hur rfl
        · exact not_below_of_mem_elementsAmong rest hrest hu hx huc

mutual

theorem mem_of_pathTo? {way : List Nat} : ∀ n : Node, pathTo? u n = some way → u ∈ ids n
  | .text s, h => by cases h
  | .element i children, h => by
    rw [pathTo?] at h
    split at h
    · next hi => exact hi ▸ List.mem_cons_self
    · obtain ⟨way', hway, -⟩ := Option.map_eq_some_iff.mp h
      exact List.mem_cons_of_mem i (mem_of_pathIn? children hway)

theorem mem_of_pathIn? {way : List Nat} : ∀ l : List Node, pathIn? u l = some way → u ∈ idsOf l
  | [], h => by cases h
  | n :: rest, h => by
    rw [pathIn?] at h
    split at h
    · next hn => exact List.mem_append_left _ (mem_of_pathTo? n hn)
    · exact List.mem_append_right _ (mem_of_pathIn? rest h)

end

mutual

/-- On the way to an element there is nothing but what it is below. -/
theorem above_of_mem_pathTo? {way : List Nat} : ∀ n : Node, (ids n).Nodup → pathTo? u n = some way → x ∈ way →
    x = u ∨ ∃ c, childrenOf? x n = some c ∧ u ∈ idsOf c
  | .text s, _, h, _ => by cases h
  | .element i children, hnodup, h, hx => by
    rw [ids, List.nodup_cons] at hnodup
    rw [pathTo?] at h
    split at h
    · next hi =>
      cases h
      exact .inl ((List.mem_singleton.mp hx).trans hi)
    · obtain ⟨way', hway, rfl⟩ := Option.map_eq_some_iff.mp h
      rw [childrenOf?]
      rcases List.mem_cons.mp hx with rfl | hx
      · rw [if_pos rfl]
        exact .inr ⟨children, rfl, mem_of_pathIn? children hway⟩
      · rcases above_of_mem_pathIn? children hnodup.2 hway hx with heq | ⟨c, hc, hu⟩
        · exact .inl heq
        · have hne : ¬i = x := by
            rintro rfl
            exact hnodup.1 (mem_of_childrenIn? hc)
          rw [if_neg hne]
          exact .inr ⟨c, hc, hu⟩

theorem above_of_mem_pathIn? {way : List Nat} : ∀ l : List Node, (idsOf l).Nodup → pathIn? u l = some way → x ∈ way →
    x = u ∨ ∃ c, childrenIn? x l = some c ∧ u ∈ idsOf c
  | [], _, h, _ => by cases h
  | n :: rest, hnodup, h, hx => by
    rw [idsOf, List.nodup_append] at hnodup
    obtain ⟨hn, hrest, hapart⟩ := hnodup
    rw [pathIn?] at h
    split at h
    · next way' hway =>
      cases h
      rcases above_of_mem_pathTo? n hn hway hx with heq | ⟨c, hc, hu⟩
      · exact .inl heq
      · have hxn : x ∈ ids n := (cons_sublist_of_childrenOf? n hc).subset List.mem_cons_self
        exact .inr ⟨c, (childrenIn?_cons_of_mem hxn rest).trans hc, hu⟩
    · rcases above_of_mem_pathIn? rest hrest h hx with heq | ⟨c, hc, hu⟩
      · exact .inl heq
      · have hxn : x ∉ ids n := fun hxn => hapart x hxn x (mem_of_childrenIn? hc) rfl
        exact .inr ⟨c, (childrenIn?_cons_of_not_mem hxn rest).trans hc, hu⟩

end

end Node

/-! ### Containment -/

section
variable {p : Page} {x y u : Nat}

theorem contains_iff : p.contains x u = true ↔ u = x ∨ u ∈ p.descendants x := by
  unfold contains
  simp

theorem contains_self : p.contains x x = true := contains_iff.mpr (.inl rfl)

theorem contains_of_mem_descendants (h : u ∈ p.descendants x) : p.contains x u = true := contains_iff.mpr (.inr h)

theorem exists_of_mem_descendants (h : u ∈ p.descendants x) :
    ∃ c, Node.childrenIn? x p.trees = some c ∧ u ∈ Node.idsOf c := by
  unfold descendants children at h
  cases hc : Node.childrenIn? x p.trees with
  | none =>
    rw [hc] at h
    exact absurd h List.not_mem_nil
  | some c =>
    rw [hc] at h
    exact ⟨c, rfl, h⟩

theorem mem_descendants_of_childrenIn? {c : List Node} (hc : Node.childrenIn? x p.trees = some c)
    (h : u ∈ Node.idsOf c) : u ∈ p.descendants x := by
  unfold descendants children
  rw [hc]
  exact h

namespace WellFormed

variable (hp : p.WellFormed)

include hp

theorem mem_descendants_trans (hy : y ∈ p.descendants x) (hu : u ∈ p.descendants y) : u ∈ p.descendants x := by
  obtain ⟨b, hb, hyb⟩ := exists_of_mem_descendants hy
  obtain ⟨c, hc, huc⟩ := exists_of_mem_descendants hu
  rw [Node.childrenIn?_below p.trees hp.distinct hb hyb] at hc
  exact mem_descendants_of_childrenIn? hb ((Node.sublist_of_childrenIn? b hc).subset huc)

theorem contains_trans (hy : p.contains x y = true) (hu : p.contains y u = true) : p.contains x u = true := by
  rcases contains_iff.mp hy with rfl | hy
  · exact hu
  · rcases contains_iff.mp hu with rfl | hu
    · exact contains_of_mem_descendants hy
    · exact contains_of_mem_descendants (hp.mem_descendants_trans hy hu)

/-- Of two elements that contain a third, one contains the other. -/
theorem contains_total (hx : p.contains x u = true) (hy : p.contains y u = true) :
    p.contains x y = true ∨ p.contains y x = true := by
  rcases contains_iff.mp hx with rfl | hux
  · exact .inr hy
  · rcases contains_iff.mp hy with rfl | huy
    · exact .inl hx
    · obtain ⟨b, hb, hub⟩ := exists_of_mem_descendants hux
      obtain ⟨c, hc, huc⟩ := exists_of_mem_descendants huy
      rcases Node.nested_of_childrenIn? p.trees hp.distinct hb hc hub huc with rfl | hy | hx
      · exact .inl contains_self
      · exact .inl (contains_of_mem_descendants (mem_descendants_of_childrenIn? hb hy))
      · exact .inr (contains_of_mem_descendants (mem_descendants_of_childrenIn? hc hx))

/-- What contains an element, and is not that element, contains the one right above it. -/
theorem contains_parent (hu : u ∈ p.childElements y) (hx : p.contains x u = true) (hne : u ≠ x) :
    p.contains x y = true := by
  have hbelow := mem_descendants_of_mem_childElements hu
  rcases hp.contains_total hx (contains_of_mem_descendants hbelow) with hxy | hyx
  · exact hxy
  · rcases contains_iff.mp hyx with rfl | hxy
    · exact contains_self
    · -- Otherwise it would stand between the two.
      have hux := (contains_iff.mp hx).resolve_left hne
      obtain ⟨b, hb, hxb⟩ := exists_of_mem_descendants hxy
      obtain ⟨c, hc, huc⟩ := exists_of_mem_descendants hux
      rw [Node.childrenIn?_below p.trees hp.distinct hb hxb] at hc
      have hchildren : u ∈ Node.elementsAmong b := by
        unfold childElements children at hu
        rw [hb] at hu
        exact hu
      have hdistinct := hp.distinct.sublist (Node.sublist_of_childrenIn? p.trees hb)
      exact absurd huc (Node.not_below_of_mem_elementsAmong b hdistinct hchildren hc)

theorem contains_of_mem_path (hx : x ∈ p.path u) : p.contains x u = true := by
  unfold path at hx
  cases hway : Node.pathIn? u p.trees with
  | none =>
    rw [hway] at hx
    exact contains_iff.mpr (.inl (List.mem_singleton.mp hx).symm)
  | some way =>
    rw [hway] at hx
    rcases Node.above_of_mem_pathIn? p.trees hp.distinct hway hx with heq | ⟨c, hc, hu⟩
    · exact contains_iff.mpr (.inl heq.symm)
    · exact contains_of_mem_descendants (mem_descendants_of_childrenIn? hc hu)

/-- An event is heard by the document and by what contains its target. -/
theorem place_of_mem_stops {e : Event} (htarget : e.target = .element u) {s : Stop} (hs : s ∈ p.stops e) :
    s.place = .document ∨ ∃ id, s.place = .element id ∧ p.contains id u = true := by
  have hroute : ∀ t ∈ p.route (.element u), t = .document ∨ ∃ id, t = .element id ∧ p.contains id u = true := by
    have hway : ∀ t ∈ (p.path u).map Target.element, ∃ id, t = .element id ∧ p.contains id u = true := by
      intro t ht
      obtain ⟨id, hid, rfl⟩ := List.mem_map.mp ht
      exact ⟨id, rfl, hp.contains_of_mem_path hid⟩
    intro t ht
    unfold route at ht
    dsimp only at ht
    split at ht
    · rcases List.mem_cons.mp ht with rfl | ht
      · exact .inl rfl
      · exact .inr (hway t ht)
    · exact .inr (hway t ht)
  have habove : ∀ t ∈ (p.route e.target).dropLast, t = .document ∨ ∃ id, t = .element id ∧ p.contains id u = true := by
    intro t ht
    rw [htarget] at ht
    exact hroute t (List.dropLast_subset _ ht)
  unfold stops at hs
  rcases List.mem_append.mp hs with hs | hs
  · rcases List.mem_append.mp hs with hs | hs
    · obtain ⟨t, ht, rfl⟩ := List.mem_map.mp hs
      exact habove t ht
    · have hplace : s.place = .element u := by
        rcases List.mem_cons.mp hs with rfl | hs
        · exact htarget
        · rw [List.mem_singleton.mp hs]
          exact htarget
      exact .inr ⟨u, hplace, contains_self⟩
  · split at hs
    · obtain ⟨t, ht, rfl⟩ := List.mem_map.mp hs
      exact habove t (List.mem_reverse.mp ht)
    · exact absurd hs List.not_mem_nil

end WellFormed

end
end Page
end PageWidgets
