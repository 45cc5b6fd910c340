import PageWidgets.NameMap

/-! Maps from names to values, seen through their look-ups. Inserting and erasing change what is found for one name
    only, and a map is built again from its own entries. -/

namespace PageWidgets
namespace NameMap

variable {α : Type}

theorem ext {a b : NameMap α} (h : a.entries = b.entries) : a = b := by
  cases a
  cases b
  cases h
  rfl

/-! ### Look-ups -/

@[simp] theorem get?_empty (n : String) : (empty : NameMap α).get? n = none := rfl

theorem find?_insertInto {name : String} {value : α} (n : String) : ∀ {l : List (String × α)},
    ((insertInto name value l).find? fun e => e.1 = n).map (·.2) =
      if name = n then some value else (l.find? fun e => e.1 = n).map (·.2)
  | [] => by
    by_cases h : name = n <;> simp [insertInto, h]
  | (k, v) :: rest => by
    have ih := @find?_insertInto name value n rest
    unfold insertInto
    split
    · by_cases h : name = n <;> simp [h]
    · split
      · next heq =>
        subst heq
        by_cases h : name = n <;> simp [h]
      · next hne =>
        by_cases hk : k = n
        · have hn : ¬name = n := fun h => hne (h.trans hk.symm)
          simp [hk, hn]
        · simpa [hk] using ih

theorem get?_insert (m : NameMap α) (name n : String) (value : α) :
    (m.insert name value).get? n = if name = n then some value else m.get? n := find?_insertInto n

theorem get?_erase (m : NameMap α) (name n : String) :
    (m.erase name).get? n = if name = n then none else m.get? n := by
  unfold erase get?
  by_cases h : name = n
  · subst h
    simp [List.find?_filter]
  · rw [if_neg h, List.find?_filter]
    congr 2
    funext e
    by_cases he : e.1 = n
    · simp [he, Ne.symm h]
    · simp [he]

theorem mem_insert {m : NameMap α} {name : String} {value : α} {e : String × α}
    (h : e ∈ (m.insert name value).entries) : e = (name, value) ∨ e ∈ m.entries := mem_insertInto h

theorem mem_erase {m : NameMap α} {name : String} {e : String × α} (h : e ∈ (m.erase name).entries) :
    e ∈ m.entries := (List.mem_filter.mp h).1

theorem mem_foldl_insert {l : List (String × α)} {e : String × α} : ∀ {m : NameMap α},
    e ∈ (l.foldl (fun m e => m.insert e.1 e.2) m).entries → e ∈ m.entries ∨ e ∈ l := by
  induction l with
  | nil => exact .inl
  | cons x l ih =>
    intro m h
    rcases ih h with h | h
    · rcases mem_insert h with rfl | h
      · exact .inr List.mem_cons_self
      · exact .inl h
    · exact .inr (List.mem_cons_of_mem x h)

theorem mem_ofList {l : List (String × α)} {e : String × α} (h : e ∈ (ofList l).entries) : e ∈ l :=
  (mem_foldl_insert h).resolve_left List.not_mem_nil

/-- Of entries that are put in one after the other, the last one of a name is found. -/
theorem get?_foldl_insert (l : List (String × α)) (n : String) (m : NameMap α) :
    (l.foldl (fun m e => m.insert e.1 e.2) m).get? n =
      ((l.filter fun e => e.1 = n).getLast?.map (·.2)).or (m.get? n) := by
  induction l generalizing m with
  | nil => rfl
  | cons e l ih =>
    rw [List.foldl_cons, ih, get?_insert]
    by_cases he : e.1 = n
    · rw [if_pos he, List.filter_cons_of_pos (by simpa using he), List.getLast?_cons]
      cases (l.filter fun e => e.1 = n).getLast? <;> rfl
    · rw [if_neg he, List.filter_cons_of_neg (by simpa using he)]

theorem get?_ofList (l : List (String × α)) (n : String) :
    (ofList l).get? n = (l.filter fun e => e.1 = n).getLast?.map (·.2) :=
  (get?_foldl_insert l n empty).trans Option.or_none

/-! ### Building a map again -/

/-- A name after all others goes to the end. -/
theorem insertInto_of_lt {name : String} {value : α} : ∀ {l : List (String × α)}, (∀ e ∈ l, e.1 < name) →
    insertInto name value l = l ++ [(name, value)]
  | [], _ => rfl
  | (k, v) :: rest, h => by
    have hk : k < name := h (k, v) List.mem_cons_self
    have hnlt : ¬name < k := fun hlt => String.lt_irrefl _ (String.lt_trans hk hlt)
    have hne : name ≠ k := fun heq => String.lt_irrefl _ (heq ▸ hk)
    rw [insertInto, if_neg hnlt, if_neg hne, insertInto_of_lt fun e he => h e (List.mem_cons_of_mem _ he)]
    rfl

theorem entries_foldl_insert {l : List (String × α)} : ∀ {m : NameMap α}, Ascending (m.entries ++ l) →
    (l.foldl (fun m e => m.insert e.1 e.2) m).entries = m.entries ++ l := by
  induction l with
  | nil => intro m _; simp
  | cons e rest ih =>
    intro m h
    have hlt : ∀ x ∈ m.entries, x.1 < e.1 := fun x hx =>
      (List.pairwise_append.mp h).2.2 x hx e List.mem_cons_self
    have hins : (m.insert e.1 e.2).entries = m.entries ++ [e] := insertInto_of_lt hlt
    rw [List.foldl_cons, ih (by rw [hins, List.append_assoc]; exact h), hins, List.append_assoc]
    rfl

/-- Inserting the entries of a map, in order, builds the map. -/
theorem ofList_entries (m : NameMap α) : ofList m.entries = m :=
  ext (entries_foldl_insert (m := empty) m.ascending)

end NameMap
end PageWidgets
