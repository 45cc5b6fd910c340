import PageWidgets.Page.Element
import PageWidgets.Proofs.Text.Split

/-! An element reads back what was written to it: an attribute that was set or removed, the class names after one was
    added or removed, and the inline style after a declaration was set or removed. Class names and declarations are
    kept as texts in attributes, so both are texts that are read again after they were written. -/

namespace PageWidgets
namespace Page

open Text

namespace Element

variable {e : Element}

/-! ### Attributes -/

/-- A name that HTML elements keep an attribute under as it is. -/
def Plain (name : String) : Prop := lowerAsciiText name = name

instance (name : String) : Decidable (Plain name) := inferInstanceAs (Decidable (_ = _))

theorem key_of_plain {name : String} (h : Plain name) (e : Element) : e.key name = name := by
  unfold key
  split
  · exact h
  · rfl

theorem find?_setIn (name value n : String) (l : List (String × String)) :
    ((setIn name value l).find? fun a => a.1 = n).map (·.2) =
      if name = n then some value else (l.find? fun a => a.1 = n).map (·.2) := by
  induction l with
  | nil =>
    by_cases h : name = n <;> simp [setIn, h]
  | cons a rest ih =>
    obtain ⟨k, v⟩ := a
    unfold setIn
    by_cases hk : k = name
    · subst hk
      by_cases h : k = n <;> simp [h]
    · rw [if_neg hk]
      by_cases h : k = n
      · have hname : ¬name = n := fun heq => hk (h.trans heq.symm)
        simp [h, hname]
      · simpa [h] using ih

theorem attr?_withAttr (e : Element) (name value m : String) :
    (e.withAttr name value).attr? m = if e.key name = e.key m then some value else e.attr? m :=
  find?_setIn (e.key name) value (e.key m) e.attrs

theorem attr?_withoutAttr (e : Element) (name m : String) :
    (e.withoutAttr name).attr? m = if e.key name = e.key m then none else e.attr? m := by
  show ((e.attrs.filter fun a => a.1 ≠ e.key name).find? fun a => a.1 = e.key m).map (·.2) = _
  unfold attr?
  rw [List.find?_filter]
  by_cases h : e.key name = e.key m
  · rw [if_pos h]
    simp [h]
  · rw [if_neg h]
    congr 2
    funext a
    by_cases ha : a.1 = e.key m
    · simp [ha, Ne.symm h]
    · simp [ha]

/-! ### Class names -/

/-- A text that class lists take as a name. -/
def Token (t : String) : Prop := t.toList ≠ [] ∧ ∀ c ∈ t.toList, isSpace c = false

instance (t : String) : Decidable (Token t) :=
  decidable_of_iff (t.toList.isEmpty = false ∧ (t.toList.all fun c => !isSpace c) = true) (by simp [Token])

theorem checkToken_of_token {t : String} (h : Token t) : checkToken t = .ok () := by
  have hempty : t.isEmpty = false := by
    rw [Bool.eq_false_iff]
    intro ht
    rw [String.isEmpty_iff] at ht
    exact h.1 (by rw [ht]; rfl)
  have hany : t.toList.any isSpace = false := by
    rw [List.any_eq_false]
    intro c hc
    rw [h.2 c hc]
    exact Bool.false_ne_true
  simp [checkToken, hempty, hany]

theorem checkToken_of_not_token {t : String} (h : ¬Token t) : ∃ f, checkToken t = .error f := by
  unfold checkToken
  split
  · exact ⟨_, rfl⟩
  · next hempty =>
    split
    · exact ⟨_, rfl⟩
    · next hany =>
      rw [Bool.not_eq_true, List.any_eq_false] at hany
      refine absurd ⟨fun hnil => hempty (by simpa using hnil), fun c hc => ?_⟩ h
      simpa using hany c hc

/-- A word is not empty and holds no space. -/
theorem words_spec {l w : List Char} (h : w ∈ words l) : w ≠ [] ∧ ∀ c ∈ w, isSpace c = false := by
  induction l generalizing w with
  | nil => exact absurd h List.not_mem_nil
  | cons c rest ih =>
    unfold words at h
    split at h
    · exact ih h
    · next hc =>
      have hone : ∀ d ∈ [c], isSpace d = false := by
        intro d hd
        rw [List.mem_singleton.mp hd]
        simpa using hc
      split at h
      · rw [List.mem_singleton.mp h]
        exact ⟨List.cons_ne_nil c [], hone⟩
      · split at h
        · rcases List.mem_cons.mp h with rfl | h
          · exact ⟨List.cons_ne_nil c [], hone⟩
          · exact ih h
        · split at h
          · next u us hwords =>
            rcases List.mem_cons.mp h with rfl | h
            · refine ⟨List.cons_ne_nil c u, fun d hd => ?_⟩
              rcases List.mem_cons.mp hd with rfl | hd
              · simpa using hc
              · exact (ih (hwords ▸ List.mem_cons_self)).2 d hd
            · exact ih (hwords ▸ List.mem_cons_of_mem u h)
          · rw [List.mem_singleton.mp h]
            exact ⟨List.cons_ne_nil c [], hone⟩

theorem words_singleton {w : List Char} (hw : w ≠ []) (hspace : ∀ c ∈ w, isSpace c = false) : words w = [w] := by
  induction w with
  | nil => exact absurd rfl hw
  | cons c rest ih =>
    have hc := hspace c List.mem_cons_self
    have hrest : ∀ d ∈ rest, isSpace d = false := fun d hd => hspace d (List.mem_cons_of_mem c hd)
    cases rest with
    | nil => simp [words, hc]
    | cons d tail =>
      have hd := hrest d List.mem_cons_self
      unfold words
      rw [if_neg (by simp [hc])]
      simp only [hd, Bool.false_eq_true, if_false, ih (List.cons_ne_nil d tail) hrest]

theorem words_append_space {w : List Char} (hw : w ≠ []) (hspace : ∀ c ∈ w, isSpace c = false) (rest : List Char) :
    words (w ++ ' ' :: rest) = w :: words rest := by
  have hskip : words (' ' :: rest) = words rest := by
    conv => lhs; unfold words
    exact if_pos rfl
  induction w with
  | nil => exact absurd rfl hw
  | cons c tail ih =>
    have hc := hspace c List.mem_cons_self
    have htail : ∀ d ∈ tail, isSpace d = false := fun d hd => hspace d (List.mem_cons_of_mem c hd)
    cases tail with
    | nil =>
      have hblank : isSpace ' ' = true := rfl
      rw [List.cons_append, List.nil_append, words, if_neg (by simp [hc])]
      simp only [hblank, if_true, hskip]
    | cons d tail =>
      have hd := htail d List.mem_cons_self
      have hnext := ih (List.cons_ne_nil d tail) htail
      rw [List.cons_append] at hnext
      rw [List.cons_append, List.cons_append]
      conv => lhs; unfold words
      rw [if_neg (by simp [hc])]
      simp only [hd, Bool.false_eq_true, if_false, hnext]

/-- Names joined by spaces are the words again. -/
theorem words_join {names : List String} (h : ∀ t ∈ names, Token t) :
    words (join " " names).toList = names.map String.toList := by
  induction names with
  | nil => rfl
  | cons t rest ih =>
    have ht := h t List.mem_cons_self
    have hrest : ∀ u ∈ rest, Token u := fun u hu => h u (List.mem_cons_of_mem t hu)
    cases rest with
    | nil => exact words_singleton ht.1 ht.2
    | cons u us =>
      have hblank : " ".toList = [' '] := rfl
      show words (t ++ " " ++ join " " (u :: us)).toList = _
      rw [String.toList_append, String.toList_append, hblank, List.append_assoc]
      exact (words_append_space ht.1 ht.2 _).trans (congrArg (t.toList :: ·) (ih hrest))

/-- The names without repetitions, each where it stands first. -/
theorem foldl_distinct (l seen : List String) (hseen : seen.Nodup) :
    ((l.foldl (fun seen w => if seen.contains w then seen else seen ++ [w]) seen).Nodup ∧
      (∀ t, t ∈ l.foldl (fun seen w => if seen.contains w then seen else seen ++ [w]) seen ↔ t ∈ seen ∨ t ∈ l)) ∧
      ((seen ++ l).Nodup → l.foldl (fun seen w => if seen.contains w then seen else seen ++ [w]) seen = seen ++ l) := by
  induction l generalizing seen with
  | nil => exact ⟨⟨hseen, fun t => by simp⟩, fun _ => by simp⟩
  | cons w l ih =>
    rw [List.foldl_cons]
    by_cases hw : w ∈ seen
    · rw [if_pos (by simpa using hw)]
      obtain ⟨⟨hnodup, hmem⟩, -⟩ := ih seen hseen
      refine ⟨⟨hnodup, fun t => ?_⟩, fun h => ?_⟩
      · rw [hmem t, List.mem_cons]
        constructor
        · rintro (h | h)
          · exact .inl h
          · exact .inr (.inr h)
        · rintro (h | rfl | h)
          · exact .inl h
          · exact .inl hw
          · exact .inr h
      · exact absurd rfl ((List.nodup_append.mp h).2.2 w hw w List.mem_cons_self)
    · rw [if_neg (by simpa using hw)]
      have hmore : (seen ++ [w]).Nodup := by
        rw [List.nodup_append]
        refine ⟨hseen, List.pairwise_singleton _ w, fun a ha b hb => ?_⟩
        rw [List.mem_singleton.mp hb]
        rintro rfl
        exact hw ha
      obtain ⟨⟨hnodup, hmem⟩, hall⟩ := ih (seen ++ [w]) hmore
      refine ⟨⟨hnodup, fun t => ?_⟩, fun h => ?_⟩
      · rw [hmem t]
        simp [or_assoc]
      · rw [hall (by simpa using h)]
        simp

theorem nodup_classes (e : Element) : e.classes.Nodup := (foldl_distinct _ [] List.nodup_nil).1.1

theorem token_of_mem_classes {t : String} (h : t ∈ e.classes) : Token t := by
  have hword := ((foldl_distinct _ [] List.nodup_nil).1.2 t).mp h
  rcases hword with hnil | hword
  · exact absurd hnil List.not_mem_nil
  · obtain ⟨w, hw, rfl⟩ := List.mem_map.mp hword
    unfold Token
    rw [String.toList_ofList]
    exact words_spec hw

theorem plain_class : Plain "class" := by decide

/-- Class names that were written are the class names. -/
theorem classes_withClasses {names : List String} (hnodup : names.Nodup) (htoken : ∀ t ∈ names, Token t) :
    (e.withClasses names).classes = names := by
  have hwritten : ∀ f : Element, f.attr? "class" = some (join " " names) → f.classes = names := by
    intro f hf
    have hmap : (names.map String.toList).map String.ofList = names := by
      rw [List.map_map]
      exact (List.map_congr_left fun t _ => String.ofList_toList).trans names.map_id
    unfold classes
    rw [hf, Option.getD_some, words_join htoken, hmap]
    exact (foldl_distinct names [] List.nodup_nil).2 hnodup
  unfold withClasses
  split
  · next h =>
    -- There is nothing to write, and no attribute to read.
    simp only [Bool.and_eq_true, Bool.not_eq_true', List.isEmpty_iff] at h
    obtain ⟨rfl, hattr⟩ := h
    have hnone : e.attr? "class" = none := by simpa [hasAttr] using hattr
    simp only [classes, hnone, Option.getD_none]
    rfl
  · exact hwritten _ (by rw [attr?_withAttr, if_pos rfl])

/-- The element with a class name added. -/
def withClass (e : Element) (token : String) : Element :=
  e.withClasses (if e.hasClass token then e.classes else e.classes ++ [token])

/-- The element with a class name removed. -/
def withoutClass (e : Element) (token : String) : Element := e.withClasses (e.classes.filter (· ≠ token))

theorem addClass_of_token {t : String} (h : Token t) : e.addClass t = .ok (e.withClass t) := by
  simp only [addClass, checkToken_of_token h, withClass]

theorem removeClass_of_token {t : String} (h : Token t) : e.removeClass t = .ok (e.withoutClass t) := by
  simp only [removeClass, checkToken_of_token h, withoutClass]

theorem hasClass_withClass {t : String} (h : Token t) (u : String) :
    (e.withClass t).hasClass u = (decide (u = t) || e.hasClass u) := by
  unfold withClass
  by_cases ht : t ∈ e.classes
  · have hhas : e.hasClass t = true := by simpa [hasClass] using ht
    rw [if_pos hhas, hasClass, classes_withClasses (nodup_classes e) fun u hu => token_of_mem_classes hu]
    by_cases hu : u = t
    · subst hu
      simpa using ht
    · simp [hasClass, hu]
  · have hhas : ¬e.hasClass t = true := by simpa [hasClass] using ht
    have hnodup : (e.classes ++ [t]).Nodup := by
      rw [List.nodup_append]
      refine ⟨nodup_classes e, List.pairwise_singleton _ t, fun a ha b hb => ?_⟩
      rw [List.mem_singleton.mp hb]
      rintro rfl
      exact ht ha
    have htoken : ∀ v ∈ e.classes ++ [t], Token v := by
      intro v hv
      rcases List.mem_append.mp hv with hv | hv
      · exact token_of_mem_classes hv
      · rw [List.mem_singleton.mp hv]
        exact h
    rw [if_neg hhas, hasClass, classes_withClasses hnodup htoken]
    by_cases hu : u = t
    · simp [hu]
    · simp [hasClass, hu]

theorem hasClass_withoutClass (t u : String) :
    (e.withoutClass t).hasClass u = (decide (u ≠ t) && e.hasClass u) := by
  have htoken : ∀ v ∈ e.classes.filter (· ≠ t), Token v := fun v hv => token_of_mem_classes (List.mem_filter.mp hv).1
  rw [withoutClass, hasClass, classes_withClasses ((nodup_classes e).filter _) htoken]
  by_cases hu : u = t
  · simp [hu]
  · simp [hasClass, hu]

theorem attr?_withClasses_of_ne {names : List String} {m : String} (hm : e.key m ≠ "class") :
    (e.withClasses names).attr? m = e.attr? m := by
  unfold withClasses
  split
  · rfl
  · rw [attr?_withAttr, key_of_plain plain_class, if_neg (Ne.symm hm)]

/-- A class attribute of one name. -/
theorem hasClass_of_attr? {t : String} (ht : Token t) (h : e.attr? "class" = some t) (u : String) :
    e.hasClass u = decide (u = t) := by
  unfold hasClass classes
  rw [h, Option.getD_some, words_singleton ht.1 ht.2]
  simp [String.ofList_toList]

/-- The class names are read from one attribute. -/
theorem hasClass_congr {f : Element} (h : f.attr? "class" = e.attr? "class") (t : String) :
    f.hasClass t = e.hasClass t := by
  unfold hasClass classes
  rw [h]

/-! ### Style -/

/-- The value that the inline style declares for a property. -/
def styleValue? (e : Element) (name : String) : Option String := (e.style.find? fun d => d.1 = name).map (·.2)

/-- A declaration that its own text spells. -/
structure Declared (d : String × String) : Prop where
  name_ends : ':' ∉ d.1.toList
  name_one : ';' ∉ d.1.toList
  value_one : ';' ∉ d.2.toList
  name_trimmed : trim d.1.toList = d.1.toList
  value_trimmed : trim d.2.toList = d.2.toList

theorem declared_of_mem_style {d : String × String} (h : d ∈ e.style) : Declared d := by
  obtain ⟨piece, hpiece, hd⟩ := List.mem_filterMap.mp h
  obtain ⟨⟨a, b⟩, hcut, rfl⟩ := Option.map_eq_some_iff.mp hd
  obtain ⟨hcolon, rfl⟩ := splitOnce_eq_some.mp hcut
  have hsemi := not_mem_of_mem_split hpiece
  constructor
  · rw [String.toList_ofList]
    exact fun hc => hcolon (mem_of_mem_trim hc)
  · rw [String.toList_ofList]
    exact fun hc => hsemi (List.mem_append_left _ (mem_of_mem_trim hc))
  · rw [String.toList_ofList]
    exact fun hc => hsemi (List.mem_append_right _ (List.mem_cons_of_mem _ (mem_of_mem_trim hc)))
  · simp only [String.toList_ofList, trim_trim]
  · simp only [String.toList_ofList, trim_trim]

/-- The text of a declaration, up to its semicolon. -/
def declarationText (d : String × String) : List Char := d.1.toList ++ ':' :: ' ' :: d.2.toList

/-- A piece of a style attribute read as a declaration, if it is one. -/
def declaration? (piece : List Char) : Option (String × String) :=
  (splitOnce ':' piece).map fun (name, value) => (String.ofList (trim name), String.ofList (trim value))

theorem Declared.read {d : String × String} (h : Declared d) :
    declaration? (declarationText d) = some d ∧ declaration? (' ' :: declarationText d) = some d := by
  have hblank : trim (' ' :: d.2.toList) = d.2.toList := by
    rw [trim_blank_cons rfl]
    exact h.value_trimmed
  have hname : trim (' ' :: d.1.toList) = d.1.toList := by
    rw [trim_blank_cons rfl]
    exact h.name_trimmed
  constructor
  · rw [declaration?, declarationText, splitOnce_append h.name_ends, Option.map_some]
    simp only [h.name_trimmed, hblank, String.ofList_toList]
  · have hends : ':' ∉ ' ' :: d.1.toList := List.not_mem_cons_of_ne_of_not_mem (by decide) h.name_ends
    rw [declaration?, declarationText, ← List.cons_append, splitOnce_append hends, Option.map_some]
    simp only [hname, hblank, String.ofList_toList]

theorem Declared.not_mem {d : String × String} (h : Declared d) : ';' ∉ declarationText d := by
  unfold declarationText
  intro hc
  rcases List.mem_append.mp hc with hc | hc
  · exact h.name_one hc
  · rcases List.mem_cons.mp hc with hc | hc
    · exact absurd hc (by decide)
    · rcases List.mem_cons.mp hc with hc | hc
      · exact absurd hc (by decide)
      · exact h.value_one hc

theorem toList_declaration (d : String × String) :
    (d.1 ++ ": " ++ d.2 ++ ";").toList = declarationText d ++ [';'] := by
  have hcolon : ": ".toList = [':', ' '] := rfl
  have hsemi : ";".toList = [';'] := rfl
  simp only [String.toList_append, hcolon, hsemi, declarationText, List.append_assoc, List.cons_append,
    List.nil_append]

theorem filterMap_declarations {l : List (String × String)} (h : ∀ d ∈ l, Declared d) :
    (split ';' (l.flatMap fun d => ' ' :: (declarationText d ++ [';']))).filterMap declaration? = l := by
  induction l with
  | nil => rfl
  | cons d l ih =>
    have hd := h d List.mem_cons_self
    have hone : ';' ∉ ' ' :: declarationText d := List.not_mem_cons_of_ne_of_not_mem (by decide) hd.not_mem
    rw [List.flatMap_cons, List.cons_append, List.append_assoc, ← List.cons_append, List.singleton_append,
      split_append hone, List.filterMap_cons_some hd.read.2, ih fun x hx => h x (List.mem_cons_of_mem d hx)]

theorem plain_style : Plain "style" := by decide

/-- Declarations that were written are the declarations. -/
theorem style_withStyle {l : List (String × String)} (h : ∀ d ∈ l, Declared d) : (e.withStyle l).style = l := by
  unfold withStyle style
  rw [attr?_withAttr, if_pos rfl, Option.getD_some]
  cases l with
  | nil => rfl
  | cons d l =>
    have hd := h d List.mem_cons_self
    have hrest : ∀ x ∈ l, Declared x := fun x hx => h x (List.mem_cons_of_mem d hx)
    have hblank : " ".toList = [' '] := rfl
    have htext : (join " " ((d :: l).map fun d => d.1 ++ ": " ++ d.2 ++ ";")).toList =
        declarationText d ++ ';' :: l.flatMap fun d => ' ' :: (declarationText d ++ [';']) := by
      rw [List.map_cons, toList_join_cons, toList_declaration, List.flatMap_map, hblank, List.append_assoc]
      simp only [toList_declaration, List.singleton_append]
    rw [htext, split_append hd.not_mem]
    show (declarationText d :: _).filterMap declaration? = d :: l
    rw [List.filterMap_cons_some hd.read.1, filterMap_declarations hrest]

theorem mem_setIn {name value : String} {d : String × String} {l : List (String × String)}
    (h : d ∈ setIn name value l) : d = (name, value) ∨ d ∈ l := by
  induction l with
  | nil => exact .inl (List.mem_singleton.mp h)
  | cons a rest ih =>
    obtain ⟨n, v⟩ := a
    unfold setIn at h
    split at h
    · rcases List.mem_cons.mp h with h | h
      · exact .inl h
      · exact .inr (List.mem_cons_of_mem _ h)
    · rcases List.mem_cons.mp h with h | h
      · exact .inr (h ▸ List.mem_cons_self)
      · rcases ih h with h | h
        · exact .inl h
        · exact .inr (List.mem_cons_of_mem _ h)

theorem styleValue?_setStyle {name value : String} (h : Declared (name, value)) :
    (e.setStyle name value).styleValue? name = some value := by
  have hall : ∀ d ∈ setIn name value e.style, Declared d := by
    intro d hd
    rcases mem_setIn hd with rfl | hd
    · exact h
    · exact declared_of_mem_style hd
  rw [styleValue?, setStyle, style_withStyle hall, find?_setIn, if_pos rfl]

theorem styleValue?_removeStyle (e : Element) (name : String) : (e.removeStyle name).styleValue? name = none := by
  unfold removeStyle styleValue?
  split
  · rw [style_withStyle fun d hd => declared_of_mem_style (List.mem_filter.mp hd).1, List.find?_filter]
    simp
  · next h =>
    have hnone : e.style.find? (fun d => d.1 = name) = none := by
      rw [List.find?_eq_none]
      intro d hd hname
      exact h (List.any_eq_true.mpr ⟨d, hd, hname⟩)
    rw [hnone]
    rfl

theorem attr?_withStyle_of_ne {l : List (String × String)} {m : String} (hm : e.key m ≠ "style") :
    (e.withStyle l).attr? m = e.attr? m := by
  rw [withStyle, attr?_withAttr, key_of_plain plain_style, if_neg (Ne.symm hm)]

/-- The style is read from one attribute. -/
theorem styleValue?_congr {f : Element} (h : f.attr? "style" = e.attr? "style") (name : String) :
    f.styleValue? name = e.styleValue? name := by
  unfold styleValue? style
  rw [h]

end Element
end Page
end PageWidgets
