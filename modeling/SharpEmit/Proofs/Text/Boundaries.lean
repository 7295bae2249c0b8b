/-
SharpEmit/Proofs/Text/Boundaries.lean

Where a text can be cut.  After a part without characters of some kind, a text that ends there
or goes on with such a character can be cut in no other place (`append_inj_of_breaks`).

Between separators stand pieces without them (`not_mem_of_mem_splitOn`), and parts without
separators are found again when the text that has separators between them is cut
(`splitOn_intercalate`).

White space around a text can be cut off in one way only: `trim` leaves a text that begins and
ends with other characters (`trimmed_trim`), and there is no other such text in the middle
(`Trimmed.trim_eq`).
-/
import Mathlib.Data.List.DropRight
import SharpEmit.Text.Blank

namespace SharpEmit.Text

/-! ### Breaks -/

/-- The text is empty or begins with a character of the given kind. -/
def Breaks (p : Char → Prop) (cs : List Char) : Prop := ∀ c ∈ cs.head?, p c

theorem Breaks.nil {p : Char → Prop} : Breaks p [] := by
  intro c hc
  cases hc

theorem Breaks.cons {p : Char → Prop} {c : Char} (hc : p c) (cs : List Char) :
    Breaks p (c :: cs) := by
  intro a ha
  obtain rfl : c = a := Option.some.inj ha
  exact hc

/-- No character of another kind stands before a break. -/
theorem Breaks.eq_nil {p : Char → Prop} {cs rest : List Char} (h : Breaks p (cs ++ rest))
    (hcs : ∀ c ∈ cs, ¬ p c) : cs = [] := by
  cases cs with
  | nil => rfl
  | cons c cs => exact absurd (h c rfl) (hcs c List.mem_cons_self)

/-- A text is cut in one way into a part without characters of some kind and the rest from the
first such character on. -/
theorem append_inj_of_breaks {p : Char → Prop} {as bs rest rest' : List Char}
    (has : ∀ c ∈ as, ¬ p c) (hbs : ∀ c ∈ bs, ¬ p c) (hrest : Breaks p rest)
    (hrest' : Breaks p rest') (h : as ++ rest = bs ++ rest') : as = bs ∧ rest = rest' := by
  -- one of the parts begins with the other one, and what is left of it stands before a break
  rcases List.append_eq_append_iff.mp h with ⟨more, rfl, rfl⟩ | ⟨more, rfl, rfl⟩
  · obtain rfl := hrest.eq_nil fun c hc => hbs c (List.mem_append_right as hc)
    simp
  · obtain rfl := hrest'.eq_nil fun c hc => has c (List.mem_append_right bs hc)
    simp

/-! ### Separators -/

/-- By induction on the text: a character that is no separator goes to the first piece of the
rest. -/
theorem not_mem_of_mem_splitOn {sep : Char} {cs piece : List Char} (h : piece ∈ cs.splitOn sep) :
    sep ∉ piece := by
  induction cs generalizing piece with
  | nil =>
    obtain rfl : piece = [] := by simpa using h
    exact List.not_mem_nil
  | cons c cs ih =>
    obtain ⟨first, rest, hrest⟩ := List.exists_cons_of_ne_nil (List.splitOn_ne_nil sep cs)
    rw [List.splitOn_cons_eq_if_modifyHead, hrest] at h
    rw [hrest] at ih
    by_cases hc : (c == sep) = true
    · rw [if_pos hc] at h
      rcases List.mem_cons.mp h with rfl | hmem
      · exact List.not_mem_nil
      · exact ih hmem
    · rw [if_neg hc, List.modifyHead_cons] at h
      rcases List.mem_cons.mp h with rfl | hmem
      · intro hsep
        rcases List.mem_cons.mp hsep with rfl | hfirst
        · exact hc (beq_self_eq_true sep)
        · exact ih List.mem_cons_self hfirst
      · exact ih (List.mem_cons_of_mem first hmem)

theorem splitOn_intercalate {text : String} {sep : Char} {parts : List String}
    (htext : text.toList = [sep]) (h : ∀ part ∈ parts, sep ∉ part.toList) (hne : parts ≠ []) :
    (text.intercalate parts).toList.splitOn sep = parts.map String.toList := by
  rw [String.toList_intercalate, htext]
  refine List.splitOn_intercalate sep (fun piece hpiece => ?_) (by simpa using hne)
  obtain ⟨part, hpart, rfl⟩ := List.mem_map.mp hpiece
  exact h part hpart

/-! ### White space around a text -/

/-- What is left of a text without the white space around it. -/
structure Trimmed (cs core : List Char) : Prop where
  around : ∃ before after, cs = before ++ core ++ after ∧
    (∀ c ∈ before, isBlank c = true) ∧ ∀ c ∈ after, isBlank c = true
  begins : ∀ c ∈ core.head?, isBlank c = false
  ends : ∀ c ∈ core.getLast?, isBlank c = false

theorem trimmed_trim (cs : List Char) : Trimmed cs (trim cs) := by
  have hleft := List.takeWhile_append_dropWhile (p := isBlank) (l := cs)
  have hright := List.rdropWhile_append_rtakeWhile (p := isBlank) (l := cs.dropWhile isBlank)
  refine ⟨⟨cs.takeWhile isBlank, (cs.dropWhile isBlank).rtakeWhile isBlank, ?_, ?_, ?_⟩, ?_, ?_⟩
  · rw [List.append_assoc]
    exact hleft.symm.trans (congrArg _ hright.symm)
  · intro c hc
    exact List.mem_takeWhile_imp hc
  · intro c hc
    exact List.mem_rtakeWhile_imp hc
  · intro c hc
    -- what is left begins where the text from its first other character on begins
    obtain ⟨core, hcore⟩ := List.head?_eq_some_iff.mp hc
    have hhead := List.head?_dropWhile_not isBlank cs
    rw [← hright, show (cs.dropWhile isBlank).rdropWhile isBlank = c :: core from hcore] at hhead
    exact hhead
  · intro c hc
    have hne : trim cs ≠ [] := by
      intro hnil
      rw [hnil] at hc
      cases hc
    have hlast := List.rdropWhile_last_not isBlank (cs.dropWhile isBlank) hne
    rw [show (trim cs).getLast? = some ((trim cs).getLast hne) from
      List.getLast?_eq_some_getLast hne] at hc
    obtain rfl := Option.some.inj hc
    exact Bool.eq_false_iff.mpr hlast

theorem dropWhile_of_head {p : Char → Bool} {cs : List Char} (h : ∀ c ∈ cs.head?, p c = false) :
    cs.dropWhile p = cs := by
  cases cs with
  | nil => rfl
  | cons c cs => exact List.dropWhile_cons_of_neg (by simp [h c rfl])

theorem Trimmed.trim_eq {cs core : List Char} (h : Trimmed cs core) : trim cs = core := by
  obtain ⟨before, after, rfl, hbefore, hafter⟩ := h.around
  have hleft : (before ++ core ++ after).dropWhile isBlank = (core ++ after).dropWhile isBlank := by
    rw [List.append_assoc]
    exact List.dropWhile_append_of_pos hbefore
  have hends : ∀ c ∈ core.reverse.head?, isBlank c = false := by
    rw [List.head?_reverse]
    exact h.ends
  show (((before ++ core ++ after).dropWhile isBlank).reverse.dropWhile isBlank).reverse = core
  rw [hleft]
  cases core with
  | nil =>
    rw [List.nil_append, List.dropWhile_eq_nil_iff.mpr hafter]
    rfl
  | cons c core =>
    have hbegins : (c :: core ++ after).dropWhile isBlank = c :: core ++ after :=
      dropWhile_of_head h.begins
    rw [hbegins, List.reverse_append, List.dropWhile_append_of_pos (by simpa using hafter),
      dropWhile_of_head hends, List.reverse_reverse]

end SharpEmit.Text
