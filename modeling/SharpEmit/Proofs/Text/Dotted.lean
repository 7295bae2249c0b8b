/-
SharpEmit/Proofs/Text/Dotted.lean

Cutting a text at its dots and putting dots between segments undo each other.  Every text is
its segments with dots between them (`dotted_segments`); that a list is the segments of its
dotted text holds exactly for lists that are not empty and have no dot in a segment
(`segments_dotted_iff`).  Where the empty segments do not count, it holds exactly for lists of
segments that are neither empty nor have a dot, the empty list among them
(`filter_segments_dotted_iff`).
-/
import SharpEmit.Proofs.Text.Boundaries
import SharpEmit.Text.Dotted

namespace SharpEmit.Text

variable {s part : String} {parts : List String}

/-! ### Segments -/

theorem segments_ne_nil (s : String) : segments s ≠ [] := by
  simp [segments]

theorem dot_not_mem_of_mem_segments (h : part ∈ segments s) : '.' ∉ part.toList := by
  obtain ⟨piece, hpiece, rfl⟩ := List.mem_map.mp h
  rw [String.toList_ofList]
  exact not_mem_of_mem_splitOn hpiece

/-! ### Joining -/

/-- With the dots between them again, the segments are the text. -/
theorem dotted_segments (s : String) : dotted (segments s) = s := by
  have hpieces : (segments s).map String.toList = s.toList.splitOn '.' := by
    rw [segments, List.map_map]
    exact (List.map_congr_left fun piece _ => String.toList_ofList).trans (List.map_id _)
  rw [← String.toList_inj, dotted, String.toList_intercalate, hpieces]
  exact List.intercalate_splitOn '.'

theorem segments_dotted (hne : parts ≠ []) (h : ∀ part ∈ parts, '.' ∉ part.toList) :
    segments (dotted parts) = parts := by
  have hsplit : (dotted parts).toList.splitOn '.' = parts.map String.toList :=
    splitOn_intercalate rfl h hne
  rw [segments, hsplit, List.map_map]
  exact (List.map_congr_left fun part _ => String.ofList_toList).trans (List.map_id _)

theorem segments_dotted_iff (hne : parts ≠ []) :
    segments (dotted parts) = parts ↔ ∀ part ∈ parts, '.' ∉ part.toList := by
  refine ⟨fun h part hpart => ?_, segments_dotted hne⟩
  rw [← h] at hpart
  exact dot_not_mem_of_mem_segments hpart

/-- The empty list is no exception here: the only segment of its dotted text does not count. -/
theorem filter_segments_dotted_iff :
    (segments (dotted parts)).filter (· ≠ "") = parts ↔
      ∀ part ∈ parts, part ≠ "" ∧ '.' ∉ part.toList := by
  constructor
  · intro h part hpart
    rw [← h, List.mem_filter] at hpart
    exact ⟨of_decide_eq_true hpart.2, dot_not_mem_of_mem_segments hpart.1⟩
  · intro h
    cases parts with
    | nil => rfl
    | cons part parts =>
      rw [segments_dotted (List.cons_ne_nil part parts) fun part hpart => (h part hpart).2,
        List.filter_eq_self]
      exact fun part hpart => decide_eq_true (h part hpart).1

/-! ### The last segment -/

/-- The segments are those before the last one and the last one. -/
theorem segments_eq (s : String) :
    segments s = (splitQualified s).1 ++ [(splitQualified s).2] := by
  have hne := segments_ne_nil s
  have hlast : (segments s).getLastD "" = (segments s).getLast hne := by
    rw [List.getLastD_eq_getLast?, List.getLast?_eq_some_getLast hne]
    rfl
  simp only [splitQualified, hlast]
  exact (List.dropLast_concat_getLast hne).symm

theorem splitQualified_of_segments {s name : String} {package : List String}
    (h : segments s = package ++ [name]) : splitQualified s = (package, name) := by
  simp [splitQualified, h]

theorem splitQualified_eq_iff {name : String} {package : List String} :
    splitQualified s = (package, name) ↔ segments s = package ++ [name] := by
  refine ⟨fun h => ?_, splitQualified_of_segments⟩
  rw [segments_eq, h]

end SharpEmit.Text
