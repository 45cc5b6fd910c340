/-! Maps from names to values. The entries are kept in ascending order of their names, which is the order they
    are written in, and that order is part of the type: two maps that hold the same entries are equal. -/

namespace PageWidgets

/-- Entries in strictly ascending order of names. -/
def Ascending {α : Type} (l : List (String × α)) : Prop := l.Pairwise fun a b => a.1 < b.1

/-- A finite map from names to values. -/
structure NameMap (α : Type) where
  entries : List (String × α)
  ascending : Ascending entries

namespace NameMap

variable {α : Type}

instance [DecidableEq α] : DecidableEq (NameMap α) := fun a b =>
  if h : a.entries = b.entries then
    .isTrue (by cases a; cases b; cases h; rfl)
  else .isFalse fun e => h (e ▸ rfl)

instance [Repr α] : Repr (NameMap α) := ⟨fun m n => reprPrec m.entries n⟩

/-- The map that holds nothing. -/
def empty : NameMap α := ⟨[], .nil⟩

instance : Inhabited (NameMap α) := ⟨empty⟩

/-- Puts an entry at its place, over an older one of the same name. -/
def insertInto (name : String) (value : α) : List (String × α) → List (String × α)
  | [] => [(name, value)]
  | (n, v) :: rest =>
    if name < n then (name, value) :: (n, v) :: rest
    else if name = n then (name, value) :: rest
    else (n, v) :: insertInto name value rest

theorem mem_insertInto {name : String} {value : α} {e : String × α} :
    ∀ {l : List (String × α)}, e ∈ insertInto name value l → e = (name, value) ∨ e ∈ l
  | [], h => .inl (by simpa [insertInto] using h)
  | (n, v) :: rest, h => by
    unfold insertInto at h
    split at h
    · rcases List.mem_cons.mp h with h | h
      · exact .inl h
      · exact .inr h
    · split at h
      · rcases List.mem_cons.mp h with h | h
        · exact .inl h
        · exact .inr (List.mem_cons_of_mem _ h)
      · rcases List.mem_cons.mp h with h | h
        · exact .inr (h ▸ List.mem_cons_self)
        · exact (mem_insertInto h).imp_right (List.mem_cons_of_mem _)

theorem ascending_insertInto {name : String} {value : α} :
    ∀ {l : List (String × α)}, Ascending l → Ascending (insertInto name value l)
  | [], _ => by simp [insertInto, Ascending]
  | (n, v) :: rest, h => by
    obtain ⟨hn, hrest⟩ := List.pairwise_cons.mp h
    unfold insertInto
    split
    · next hlt =>
      refine List.pairwise_cons.mpr ⟨fun e he => ?_, h⟩
      rcases List.mem_cons.mp he with rfl | he
      · exact hlt
      · exact String.lt_trans hlt (hn e he)
    · next hnlt =>
      split
      · next heq =>
        subst heq
        exact List.pairwise_cons.mpr ⟨hn, hrest⟩
      · next hne =>
        refine List.pairwise_cons.mpr ⟨fun e he => ?_, ascending_insertInto hrest⟩
        rcases mem_insertInto he with rfl | he
        · rcases Std.lt_trichotomy n name with h | h | h
          · exact h
          · exact absurd h.symm hne
          · exact absurd h hnlt
        · exact hn e he

/-- The map with `name` set to `value`. -/
def insert (m : NameMap α) (name : String) (value : α) : NameMap α :=
  ⟨insertInto name value m.entries, ascending_insertInto m.ascending⟩

/-- The map without `name`. -/
def erase (m : NameMap α) (name : String) : NameMap α :=
  ⟨m.entries.filter fun e => e.1 ≠ name, List.Pairwise.filter _ m.ascending⟩

/-- The value of `name`. -/
def get? (m : NameMap α) (name : String) : Option α :=
  (m.entries.find? fun e => e.1 = name).map (·.2)

/-- The map of a list of entries; a later entry replaces an earlier one of the same name. -/
def ofList (l : List (String × α)) : NameMap α :=
  l.foldl (fun m e => m.insert e.1 e.2) empty

end NameMap
end PageWidgets
