import PageWidgets.Page.Markup
import PageWidgets.Proofs.Page.Edit

/-! Planted markup: its elements are numbered in document order, one after the other, from the first number that the
    page does not know. A document that an author wrote therefore makes a well-formed page. -/

namespace PageWidgets
namespace Page

namespace Markup

mutual

theorem ids_plant (next : Nat) : ∀ m : Markup,
    Node.ids (m.plant next).1 = List.range' next (m.plant next).2.length
  | .text s => rfl
  | .element tag html attrs children => by
    simp only [plant, Node.ids, List.length_cons, List.range'_succ]
    rw [idsOf_plantAll (next + 1) children]

theorem idsOf_plantAll (next : Nat) : ∀ ms : List Markup,
    Node.idsOf (plantAll next ms).1 = List.range' next (plantAll next ms).2.length
  | [] => rfl
  | m :: rest => by
    simp only [plantAll, Node.idsOf, List.length_append]
    rw [ids_plant next m, idsOf_plantAll _ rest, List.range'_append_1]

end

end Markup

/-- The first choices of selects move no node and make no element. -/
theorem initialChoices_spec (p : Page) (ids : List Nat) :
    (p.initialChoices ids).trees = p.trees ∧ (p.initialChoices ids).elements.length = p.elements.length := by
  have hone : ∀ (p : Page) (select : Nat), ∃ options chosen,
      p.initialChoice select = p.chooseOnly options chosen := by
    intro p select
    unfold initialChoice
    dsimp only
    split
    · exact ⟨_, _, rfl⟩
    · split <;> exact ⟨_, _, rfl⟩
  unfold initialChoices
  induction ids.filter fun id => (p.element id).isA "select" generalizing p with
  | nil => exact ⟨rfl, rfl⟩
  | cons select rest ih =>
    obtain ⟨options, chosen, heq⟩ := hone p select
    obtain ⟨hedited, htree, hloose, -⟩ := chooseOnly_spec options chosen p
    obtain ⟨htrees, hlength⟩ := ih (p.initialChoice select)
    rw [List.foldl_cons, htrees, hlength, heq]
    refine ⟨?_, hedited.length⟩
    unfold trees
    rw [htree, hloose]

/-- A page whose document an author writes stays well-formed. -/
theorem WellFormed.withDocument {p : Page} (h : p.WellFormed) (m : Markup) : (p.withDocument m).WellFormed := by
  obtain ⟨htrees, hlength⟩ := initialChoices_spec
    { p with elements := p.elements ++ (m.plant p.elements.length).2, tree := some (m.plant p.elements.length).1 }
    (m.plant p.elements.length).1.ids
  have hnew := Markup.ids_plant p.elements.length m
  have hold : (Node.idsOf p.loose).Sublist (Node.idsOf p.trees) := by
    unfold trees
    rw [Node.idsOf_append]
    exact List.sublist_append_right _ _
  have hids : Node.idsOf (p.withDocument m).trees =
      List.range' p.elements.length (m.plant p.elements.length).2.length ++ Node.idsOf p.loose := by
    rw [← hnew]
    exact congrArg Node.idsOf htrees
  have hknown : (p.withDocument m).elements.length = p.elements.length + (m.plant p.elements.length).2.length :=
    hlength.trans List.length_append
  constructor
  · rw [hids]
    refine List.nodup_append.mpr ⟨List.nodup_range', h.distinct.sublist hold, fun i hi j hj => ?_⟩
    -- What stood apart before has a smaller number than everything planted.
    have hlow := h.known j (hold.subset hj)
    obtain ⟨hhigh, -⟩ := List.mem_range'_1.mp hi
    omega
  · rw [hids, hknown]
    intro i hi
    rcases List.mem_append.mp hi with hi | hi
    · exact (List.mem_range'_1.mp hi).2
    · have hlow := h.known i (hold.subset hi)
      omega

theorem wellFormed_default : (default : Page).WellFormed := ⟨List.nodup_nil, fun _ hi => absurd hi List.not_mem_nil⟩

end Page
end PageWidgets
