/-
SharpEmit/Proofs/Storage/Ancestry.lean

The paths above a path, and what they have to do with making directories.  `Path.Above` goes
from a path to its directory, from there to the directory of that one, and so on; `..` is a
name like any other here, so `a` is above `a/../b`.

A directory that is made for a path is made at a path above it (`makeDirs_new`), and what is
above a path that can be walked can be walked, too (`reach_of_above`).
-/
import SharpEmit.Proofs.Storage.Directory

namespace SharpEmit

namespace Path

variable {path p : String}

/-- The paths above a path: its directory, the directory of that one, and so on. -/
inductive Above (path : String) : String → Prop
  | parent : Above path (parent path)
  | up {p : String} : Above path p → Above path (Path.parent p)

theorem Above.of_parent (h : Above (Path.parent path) p) : Above path p := by
  induction h with
  | parent => exact .up .parent
  | up _ ih => exact .up ih

/-- A path that is found in a lineage is the last one or above it. -/
theorem mem_lineage (hclean : IsClean path) (hp : p ∈ lineage path) :
    IsClean p ∧ (p = path ∨ Above path p) := by
  induction path, hclean using IsClean.induction with
  | single path hclean hnone =>
    rw [hclean.lineage_eq, if_pos hnone, List.mem_singleton] at hp
    exact ⟨hp ▸ hclean, .inl hp⟩
  | below path hclean hlast hparent ih =>
    rw [hclean.lineage_eq, if_neg (by simp [hlast, hparent]), List.mem_cons] at hp
    rcases hp with rfl | hp
    · exact ⟨hclean, .inl rfl⟩
    · obtain ⟨hclean', rfl | habove⟩ := ih hp
      · exact ⟨hclean', .inr .parent⟩
      · exact ⟨hclean', .inr habove.of_parent⟩

theorem Above.isPlain (h : Above path p) (hplain : IsPlain path) : IsPlain p := by
  induction h with
  | parent => exact hplain.parent
  | up _ ih => exact ih.parent

end Path

namespace Disk

variable {d : Disk} {path p : String} {l : Location}

/-! ### Where directories are made -/

/-- What is new after the directories of a path are made is at a path above it. -/
theorem makeDirs_new (h : (d.makeDirs (Path.parent path)).2.look l ≠ d.look l) :
    ∃ p, Path.Above path p ∧ p ≠ "" ∧ l = d.spelled p := by
  refine (makeLineage_induction (R := fun d e => e.here = d.here ∧ (e.look l ≠ d.look l →
      ∃ p, Path.Above path p ∧ p ≠ "" ∧ l = d.spelled p))
    (fun d => ⟨rfl, fun hne => absurd rfl hne⟩) ?_ ?_ d).2 h
  · rintro d e f ⟨hhere, he⟩ ⟨hhere', hf⟩
    refine ⟨hhere'.trans hhere, fun hne => ?_⟩
    by_cases hfirst : e.look l = d.look l
    · rw [← hfirst] at hne
      obtain ⟨p, habove, hp, hl⟩ := hf hne
      exact ⟨p, habove, hp, hl.trans (spelled_of_here hhere p)⟩
    · exact he hfirst
  · intro d e p hp h
    obtain ⟨m, hm, hnone, -, rfl⟩ := makeDir_ok h
    obtain ⟨hclean, hp⟩ := Path.mem_lineage (Path.isClean_parent path) hp
    rw [hclean.ofList_dropSlashes] at hm
    refine ⟨rfl, fun hne => ⟨p, ?_, (fits_of_locate hm).2.1, ?_⟩⟩
    · rcases hp with rfl | habove
      · exact .parent
      · exact habove.of_parent
    · rw [spelled_of_locate hm]
      by_contra hl
      exact hne (by rw [look_set_of_look_eq_none hnone, if_neg hl])

/-! ### Walks to what is above -/

theorem reach_parent (h : d.reach path = .ok l) :
    d.reach (Path.parent path) = .ok (d.spelled (Path.parent path)) := by
  rw [reach_eq] at h
  obtain ⟨c, hc, -⟩ := ok_of_bind h
  rw [hc, spelled_of_reach hc]

/-- A walk along a path passes all that is above it. -/
theorem reach_of_above (hp : Path.Above path p) (h : d.reach (Path.parent path) = .ok l) :
    d.reach p = .ok (d.spelled p) := by
  induction hp with
  | parent => rw [h, spelled_of_reach h]
  | up _ ih => exact reach_parent ih

/-- A path that never goes back up does not come back to a place above it. -/
theorem spelled_ne_of_above (hplain : Path.IsPlain path)
    (hname : isDots (Path.lastName path) = false) (hp : Path.Above path p) :
    d.spelled p ≠ d.spelled path := by
  have hon : OnWay (d.spelled p) (d.spelled (Path.parent path)) := by
    induction hp with
    | parent => exact OnWay.refl _
    | up hp ih => exact (onWay_spelled_parent (hp.isPlain hplain) d).trans ih
  intro heq
  rw [heq, d.spelled_eq path, descend_of_not_isDots hname] at hon
  exact OnWay.not_push _ _ hon

end Disk

end SharpEmit
