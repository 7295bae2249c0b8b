/-
SharpEmit/Proofs/Document/Spellings.lean

The two spellings of a type.  A dotted text `p.n` and an object with the name `n` and the
package `p` are meant to be the same reference, but they are read in different ways: the
text is cut at every dot and all its segments count, while the object refuses an empty name
and drops the empty segments of its package.

Main result: the spellings agree exactly on the texts without an empty segment, and where
they do not, the object is refused or has fewer segments (`spellings_agree_iff`).  So a dot
too many makes a class of `int` (`spellings_of_dot_int`).
-/
import Mathlib.Data.List.TakeWhile
import SharpEmit.Document.Reader
import SharpEmit.Proofs.Text.Dotted

namespace SharpEmit

/-! ### The last dot -/

namespace Text

/-- The parts of a text before and after its last dot; a text without a dot is all after
it. -/
def atLastDot (s : String) : String × String :=
  let cs := s.toList.reverse
  (String.ofList (cs.dropWhile (· ≠ '.')).tail.reverse,
    String.ofList (cs.takeWhile (· ≠ '.')).reverse)

/-- What comes after has no dot, and before it there is nothing, or something and the dot. -/
theorem atLastDot_cases (s : String) :
    ∃ before after, atLastDot s = (before, after) ∧ '.' ∉ after.toList ∧
      ((s = after ∧ before = "") ∨ s.toList = before.toList ++ '.' :: after.toList) := by
  have happend := List.takeWhile_append_dropWhile (p := (· ≠ '.')) (l := s.toList.reverse)
  have hhead := List.head?_dropWhile_not (· ≠ '.') s.toList.reverse
  refine ⟨_, _, rfl, ?_, ?_⟩
  · rw [String.toList_ofList, List.mem_reverse]
    intro hdot
    have hne := List.mem_takeWhile_imp hdot
    simp at hne
  · -- the text backwards: what comes before a dot, and then nothing or the dot
    rw [String.toList_ofList, String.toList_ofList]
    rw [← List.reverse_eq_iff, List.reverse_append] at happend
    cases hrest : s.toList.reverse.dropWhile (· ≠ '.') with
    | nil =>
      rw [hrest, List.reverse_nil, List.nil_append] at happend
      rw [happend]
      exact .inl ⟨String.ofList_toList.symm, rfl⟩
    | cons c rest =>
      rw [hrest] at hhead
      obtain rfl : c = '.' := by simpa using hhead
      rw [hrest, List.reverse_cons, List.append_assoc] at happend
      exact .inr happend.symm

/-- A text is cut at its last dot.  Without one there is nothing before it, and of nothing
the only segment is empty. -/
theorem splitQualified_atLastDot (s : String) :
    (splitQualified s).2 = (atLastDot s).2 ∧
      (splitQualified s).1.filter (· ≠ "") = (segments (atLastDot s).1).filter (· ≠ "") := by
  obtain ⟨before, after, hs, hafter, ⟨rfl, rfl⟩ | hdot⟩ := atLastDot_cases s
  · have hsegments : segments s = [] ++ [s] := by
      rw [segments, List.splitOn_eq_singleton hafter, List.map_singleton, String.ofList_toList,
        List.nil_append]
    rw [splitQualified_of_segments hsegments, hs]
    exact ⟨rfl, rfl⟩
  · have hsegments : segments s = segments before ++ [after] := by
      rw [segments, hdot, List.splitOn_append_cons_self, List.splitOn_eq_singleton hafter,
        List.map_append, List.map_singleton, String.ofList_toList]
      rfl
    rw [splitQualified_of_segments hsegments, hs]
    exact ⟨rfl, rfl⟩

end Text

namespace Document

/-! ### Two readings -/

/-- A reading is refused with a place. -/
def IsRefused {α : Type} (r : Loaded α) : Prop :=
  ∃ problem place, r = .error (.rejected problem place)

/-- Two readings give the same, or both are refused. -/
def Agree {α : Type} (r r' : Loaded α) : Prop :=
  (∃ a, r = .ok a ∧ r' = .ok a) ∨ (IsRefused r ∧ IsRefused r')

theorem agree_ok {α : Type} (a b : α) : Agree (.ok a) (.ok b) ↔ a = b := by
  constructor
  · rintro (⟨c, ha, hb⟩ | ⟨⟨problem, place, h⟩, -⟩)
    · exact (Except.ok.inj ha).trans (Except.ok.inj hb).symm
    · cases h
  · rintro rfl
    exact .inl ⟨a, rfl, rfl⟩

theorem not_agree_reject {α : Type} (a : α) (problem : Problem) (place : Pointer) :
    ¬ Agree (.ok a) (reject problem place) := by
  rintro (⟨b, -, h⟩ | ⟨⟨problem', place', h⟩, -⟩)
  · cases h
  · cases h

/-- The object for a dotted text: the part after the last dot is the name, the part before
it the package. -/
def objectSpelling (s : String) : Json :=
  .obj [("name", .str (Text.atLastDot s).2), ("package", .str (Text.atLastDot s).1)]

section Spellings

variable (scope : List String) (place : Pointer) (s : String)

theorem typeAt_text :
    typeAt scope place (.str s) =
      .ok (resolve scope (Text.splitQualified s).2 (Text.splitQualified s).1 []) := by
  rw [typeAt]
  rfl

/-- The object is refused without a name, and its package has no empty segments. -/
theorem typeAt_objectSpelling :
    typeAt scope place (objectSpelling s) =
      if (Text.splitQualified s).2 = "" then reject .notName (place.key "name")
      else .ok (resolve scope (Text.splitQualified s).2
        ((Text.splitQualified s).1.filter (· ≠ "")) []) := by
  obtain ⟨hname, hpackage⟩ := Text.splitQualified_atLastDot s
  have hargs : argsAt scope (place.key "args")
      [("name", .str (Text.atLastDot s).2), ("package", .str (Text.atLastDot s).1)] = .ok [] := by
    simp [argsAt]
  rw [hname, hpackage, objectSpelling, typeAt, hargs]
  show (nameAt _ (.str (Text.atLastDot s).2) >>= fun name => _) = _
  rw [nameAt]
  split <;> rfl

end Spellings

theorem resolve_eq_iff (scope : List String) (name : String) (package package' : List String) :
    resolve scope name package [] = resolve scope name package' [] ↔ package = package' := by
  refine ⟨fun h => congrArg TypeRef.package h, ?_⟩
  rintro rfl
  rfl

/-- The two spellings agree if and only if no segment of the text is empty.  The text always
stands for a type; the object is refused where the last segment is empty, and elsewhere
stands for the type with the other segments that are not. -/
theorem spellings_agree_iff (scope : List String) (place : Pointer) (s : String) :
    (Agree (typeAt scope place (.str s)) (typeAt scope place (objectSpelling s)) ↔
        "" ∉ Text.segments s) ∧
      ∃ name package, Text.segments s = package ++ [name] ∧
        typeAt scope place (.str s) = .ok (resolve scope name package []) ∧
        typeAt scope place (objectSpelling s) =
          if name = "" then reject .notName (place.key "name")
          else .ok (resolve scope name (package.filter (· ≠ "")) []) := by
  have htext := typeAt_text scope place s
  have hobject := typeAt_objectSpelling scope place s
  have hsegments := Text.segments_eq s
  generalize (Text.splitQualified s).1 = package at *
  generalize (Text.splitQualified s).2 = name at *
  refine ⟨?_, name, package, hsegments, htext, hobject⟩
  rw [htext, hobject, hsegments]
  by_cases hname : name = ""
  · -- the text is read and the object is refused
    rw [if_pos hname, hname]
    exact iff_of_false (not_agree_reject _ _ _) (by simp)
  · rw [if_neg hname]
    calc Agree _ _ ↔ package = package.filter (· ≠ "") := by rw [agree_ok, resolve_eq_iff]
      _ ↔ ∀ segment ∈ package, segment ≠ "" := by
        rw [eq_comm, List.filter_eq_self]
        simp only [decide_eq_true_eq]
      _ ↔ "" ∉ package := by simp [imp_not_comm]
      _ ↔ "" ∉ package ++ [name] := by simp [Ne.symm hname]

/-- A dot before `int`: as a text it is a class in a package, as an object the primitive
type. -/
theorem spellings_of_dot_int :
    objectSpelling ".int" = .obj [("name", .str "int"), ("package", .str "")] ∧
      typeAt [] .root (.str ".int") = .ok { name := "int", package := [""], kind := .classType } ∧
      typeAt [] .root (objectSpelling ".int") = .ok { name := "int", kind := .primitive } ∧
      ¬ Agree (typeAt [] .root (.str ".int")) (typeAt [] .root (objectSpelling ".int")) := by
  have htext : typeAt [] .root (.str ".int") =
      .ok { name := "int", package := [""], kind := .classType } := typeAt_text [] .root ".int"
  have hobject : typeAt [] .root (objectSpelling ".int") =
      .ok { name := "int", kind := .primitive } := typeAt_objectSpelling [] .root ".int"
  refine ⟨rfl, htext, hobject, ?_⟩
  rw [htext, hobject, agree_ok]
  decide

end Document

end SharpEmit
