/-
SharpEmit/Proofs/Conversion/Interleaving.lean

Conversions whose steps are taken in any order.  When the files of the declarations
are apart from each other, a step of one conversion and a step of another can be taken
in either order (`Pool.advance_comm`).  So the steps of one conversion can all be taken
first (`Pool.follow_filter`).
-/
import Mathlib.Logic.Function.Iterate
import SharpEmit.Conversion.Batch
import SharpEmit.Proofs.Conversion.Steps

namespace SharpEmit.Conversion

variable {t : Target} {root : String}

/-! ### Steps of a conversion -/

/-- A path whose conversion ends alike at any time: it leads to a file, it has no null
character, and its directory is short enough if it ends in a dot. -/
structure Steady (path : String) : Prop extends Leads path where
  null : '\x00' ∉ path.toList
  short : Path.endsInDot (Path.parent path) = true →
    (Path.parent path).utf8ByteSize < Disk.pathBytesLimit

theorem advance_touches {d : Declaration} (hpath : Leads (t.outputPath root d)) (stage : Stage)
    (disk : Disk) : Touches (t.outputPath root d) disk (stage.advance t root d disk).disk := by
  cases stage with
  | waiting =>
    dsimp only [Stage.advance]
    split <;> exact .nothing
  | admitted =>
    dsimp only [Stage.advance]
    split <;> exact .nothing
  | rendered b =>
    have hplaced := place_touches disk d (t.outputPath root d)
    dsimp only [Stage.advance]
    split <;> rename_i h <;> rw [h] at hplaced <;> exact hplaced
  | placed b =>
    have hstored := store_touches hpath disk d b
    dsimp only [Stage.advance]
    split <;> rename_i h <;> rw [h] at hstored <;> exact hstored
  | finished outcome => exact .nothing

/-- A step comes to the same after changes that spare its path, if the directory is made
alike. -/
theorem advance_alike_of_place {d : Declaration} {disk after : Disk}
    (h : Spares (t.outputPath root d) disk after) (hpath : Leads (t.outputPath root d))
    (hdisk : disk.IsTree) (hafter : after.IsTree) (stage : Stage)
    (hplace : ∀ b, stage = .rendered b →
      (place after d (t.outputPath root d)).1 = (place disk d (t.outputPath root d)).1)
    (hstage : ∀ b, stage = .placed b →
      disk.reach (Path.parent (t.outputPath root d)) ≠ .error (.refused .noEntry)) :
    (stage.advance t root d after).value = (stage.advance t root d disk).value ∧
      Disk.Mirrors disk (stage.advance t root d disk).disk after
        (stage.advance t root d after).disk := by
  cases stage with
  | waiting =>
    dsimp only [Stage.advance]
    rw [h.skipReason_eq hpath hdisk]
    split <;> exact ⟨rfl, Disk.Mirrors.refl disk after⟩
  | admitted =>
    dsimp only [Stage.advance]
    split <;> exact ⟨rfl, Disk.Mirrors.refl disk after⟩
  | rendered b =>
    have halike := And.intro (hplace b rfl) (h.place_mirrors hpath hdisk hafter d)
    dsimp only [Stage.advance]
    generalize place disk d (t.outputPath root d) = x at halike
    generalize place after d (t.outputPath root d) = y at halike
    obtain ⟨r, disk'⟩ := x
    obtain ⟨r', after'⟩ := y
    obtain ⟨rfl, hmirrors⟩ := halike
    cases r' <;> exact ⟨rfl, hmirrors⟩
  | placed b =>
    have halike := h.store_alike hpath hdisk (hstage b rfl) d b
    dsimp only [Stage.advance]
    generalize store disk d (t.outputPath root d) b = x at halike
    generalize store after d (t.outputPath root d) b = y at halike
    obtain ⟨r, disk'⟩ := x
    obtain ⟨r', after'⟩ := y
    obtain ⟨rfl, hmirrors⟩ := halike
    cases r' <;> exact ⟨rfl, hmirrors⟩
  | finished outcome => exact ⟨rfl, Disk.Mirrors.refl disk after⟩

/-- A step comes to the same after changes that spare its path. -/
theorem advance_alike {d : Declaration} {disk after : Disk}
    (h : Spares (t.outputPath root d) disk after) (hpath : Steady (t.outputPath root d))
    (hdisk : disk.IsTree) (hafter : after.IsTree) (hsearch : disk.permitsNew .search = true)
    (stage : Stage) (hstage : ∀ b, stage = .placed b →
      disk.reach (Path.parent (t.outputPath root d)) ≠ .error (.refused .noEntry)) :
    (stage.advance t root d after).value = (stage.advance t root d disk).value ∧
      Disk.Mirrors disk (stage.advance t root d disk).disk after
        (stage.advance t root d after).disk := by
  refine advance_alike_of_place h hpath.toLeads hdisk hafter stage (fun _ _ => ?_) hstage
  exact h.place_alike hpath.toLeads hdisk hafter hpath.null hpath.short hsearch d

/-- A conversion whose directory has been made finds it. -/
theorem reach_of_advance {d : Declaration} {disk : Disk} (hpath : Leads (t.outputPath root d))
    (hdisk : disk.IsTree) {stage : Stage} {b : LineBuffer}
    (h : (stage.advance t root d disk).value = .placed b) :
    (stage.advance t root d disk).disk.reach (Path.parent (t.outputPath root d)) ≠
      .error (.refused .noEntry) := by
  cases stage with
  | waiting =>
    dsimp only [Stage.advance] at h
    split at h <;> cases h
  | admitted =>
    dsimp only [Stage.advance] at h
    split at h <;> cases h
  | rendered b' =>
    have hreach := reach_of_place (d := d) hpath hdisk
    dsimp only [Stage.advance] at h ⊢
    split at h
    · cases h
    · rename_i hplace
      rw [hplace] at hreach
      exact hreach rfl
  | placed b' =>
    dsimp only [Stage.advance] at h
    split at h <;> cases h
  | finished outcome => cases h

/-! ### Pools -/

namespace Pool

/-- A pool whose conversions do not get in each other's way, and can go through the directories
that the others make. -/
structure IsOrderly (t : Target) (root : String) (p : Pool) : Prop where
  tree : p.disk.IsTree
  search : p.disk.permitsNew .search = true
  steady : ∀ (i : Nat) d stage, p.jobs[i]? = some (d, stage) → Steady (t.outputPath root d)
  apart : ∀ (i j : Nat) d stage d' stage', i ≠ j → p.jobs[i]? = some (d, stage) →
    p.jobs[j]? = some (d', stage') →
    ¬ OnWay (p.disk.spelled (t.outputPath root d)) (p.disk.spelled (t.outputPath root d'))
  placed : ∀ (i : Nat) d b, p.jobs[i]? = some (d, .placed b) →
    p.disk.reach (Path.parent (t.outputPath root d)) ≠ .error (.refused .noEntry)

/-- Two pools whose conversions have come equally far, and whose disks hold the same. -/
structure Alike (p p' : Pool) : Prop where
  jobs : p'.jobs = p.jobs
  disk : p.disk.Same p'.disk

theorem Alike.refl (p : Pool) : Alike p p := ⟨rfl, Disk.Same.refl p.disk⟩

theorem Alike.trans {p p' p'' : Pool} (h : Alike p p') (h' : Alike p' p'') : Alike p p'' :=
  ⟨h'.jobs.trans h.jobs, h.disk.trans h'.disk⟩

variable {p : Pool} {i j : Nat}

theorem advance_of_none (h : p.jobs[i]? = none) : p.advance t root i = p := by
  simp [advance, h]

theorem advance_of_some {d : Declaration} {stage : Stage} (h : p.jobs[i]? = some (d, stage)) :
    (p.advance t root i).jobs = p.jobs.set i (d, (stage.advance t root d p.disk).value) ∧
      (p.advance t root i).disk = (stage.advance t root d p.disk).disk := by
  simp [advance, h]

theorem follow_cons (p : Pool) (i : Nat) (schedule : List Nat) :
    p.follow t root (i :: schedule) = (p.advance t root i).follow t root schedule := rfl

theorem getElem?_advance_of_ne (hij : i ≠ j) : (p.advance t root i).jobs[j]? = p.jobs[j]? := by
  cases hi : p.jobs[i]? with
  | none => rw [advance_of_none hi]
  | some job => rw [(advance_of_some hi).1, List.getElem?_set_ne hij]

theorem getElem?_advance_self {d : Declaration} {stage : Stage}
    (h : p.jobs[i]? = some (d, stage)) :
    (p.advance t root i).jobs[i]? = some (d, (stage.advance t root d p.disk).value) := by
  have hlt : i < p.jobs.length := by
    by_contra hge
    rw [List.getElem?_eq_none (by omega)] at h
    cases h
  rw [(advance_of_some h).1, List.getElem?_set_self hlt]

namespace IsOrderly

variable (hp : IsOrderly t root p)
include hp

/-- A step spares the paths of all other conversions. -/
theorem spares {d d' : Declaration} {stage stage' : Stage} (hij : i ≠ j)
    (hi : p.jobs[i]? = some (d, stage)) (hj : p.jobs[j]? = some (d', stage')) :
    Spares (t.outputPath root d') p.disk (p.advance t root i).disk := by
  rw [(advance_of_some hi).2]
  exact (advance_touches (hp.steady i d stage hi).toLeads stage p.disk).spares
    (hp.steady i d stage hi).toLeads (hp.steady j d' stage' hj).toLeads hp.tree
    (hp.apart i j d stage d' stage' hij hi hj) (hp.apart j i d' stage' d stage hij.symm hj hi)

/-- A step extends the disk. -/
theorem extends_advance (i : Nat) :
    p.disk.Extends (p.advance t root i).disk ∧ (p.advance t root i).disk.IsTree := by
  cases hi : p.jobs[i]? with
  | none =>
    rw [advance_of_none hi]
    exact ⟨Disk.Extends.refl p.disk, hp.tree⟩
  | some job =>
    have hpath := (hp.steady i job.1 job.2 hi).toLeads
    rw [(advance_of_some hi).2]
    exact (advance_touches hpath job.2 p.disk).toExtends hpath hp.tree

/-- A step leaves a pool orderly. -/
theorem advance (i : Nat) : IsOrderly t root (p.advance t root i) := by
  cases hi : p.jobs[i]? with
  | none =>
    rw [advance_of_none hi]
    exact hp
  | some job =>
    obtain ⟨d, stage⟩ := job
    obtain ⟨hext, htree⟩ := hp.extends_advance i
    -- the declarations stay where they are
    have hback : ∀ (k : Nat) d' stage', (p.advance t root i).jobs[k]? = some (d', stage') →
        ∃ stage'', p.jobs[k]? = some (d', stage'') := by
      intro k d' stage' hk
      by_cases hik : i = k
      · subst hik
        rw [getElem?_advance_self hi] at hk
        cases hk
        exact ⟨stage, hi⟩
      · rw [getElem?_advance_of_ne hik] at hk
        exact ⟨stage', hk⟩
    refine ⟨htree, ?_, fun k d' stage' hk => ?_, fun k m d' stage' d'' stage'' hkm hk hm => ?_,
      fun k d' b hk => ?_⟩
    · rw [Disk.permitsNew_of_umask hext.umask]
      exact hp.search
    · obtain ⟨stage'', hk'⟩ := hback k d' stage' hk
      exact hp.steady k d' stage'' hk'
    · obtain ⟨_, hk'⟩ := hback k d' stage' hk
      obtain ⟨_, hm'⟩ := hback m d'' stage'' hm
      rw [hext.spelled_eq, hext.spelled_eq]
      exact hp.apart k m d' _ d'' _ hkm hk' hm'
    · -- the directory of one conversion has just been made, those of the others stay
      by_cases hik : i = k
      · subst hik
        rw [getElem?_advance_self hi] at hk
        have hplaced := congrArg Prod.snd (Option.some.inj hk)
        have hd := congrArg Prod.fst (Option.some.inj hk)
        dsimp only at hplaced hd
        subst hd
        rw [(advance_of_some hi).2]
        exact reach_of_advance (hp.steady i d stage hi).toLeads hp.tree hplaced
      · rw [getElem?_advance_of_ne hik] at hk
        exact hext.reach_ne_noEntry hp.tree (hp.steady k d' _ hk).plain.parent
          (hp.placed k d' b hk)

theorem follow (schedule : List Nat) : IsOrderly t root (p.follow t root schedule) := by
  induction schedule generalizing p with
  | nil => exact hp
  | cons i schedule ih => exact ih (hp.advance i)

end IsOrderly

/-! ### Order of steps -/

theorem IsOrderly.congr {p' : Pool} (hp : IsOrderly t root p) (h : Alike p p') :
    IsOrderly t root p' := by
  have hext := Disk.Extends.of_same h.disk
  refine ⟨h.disk.isTree hp.tree, ?_, fun k d stage hk => ?_,
    fun k m d stage d' stage' hkm hk hm => ?_, fun k d b hk => ?_⟩
  · rw [Disk.permitsNew_of_umask h.disk.umask]
    exact hp.search
  · rw [h.jobs] at hk
    exact hp.steady k d stage hk
  · rw [h.jobs] at hk hm
    rw [hext.spelled_eq, hext.spelled_eq]
    exact hp.apart k m d stage d' stage' hkm hk hm
  · rw [h.jobs] at hk
    exact hext.reach_ne_noEntry hp.tree (hp.steady k d _ hk).plain.parent (hp.placed k d b hk)

/-- A step takes pools that are alike to pools that are alike. -/
theorem advance_congr {p' : Pool} (hp : IsOrderly t root p) (h : Alike p p') (i : Nat) :
    Alike (p.advance t root i) (p'.advance t root i) := by
  cases hi : p.jobs[i]? with
  | none =>
    have hi' : p'.jobs[i]? = none := by rw [h.jobs, hi]
    rw [advance_of_none hi, advance_of_none hi']
    exact h
  | some job =>
    obtain ⟨d, stage⟩ := job
    have hi' : p'.jobs[i]? = some (d, stage) := by rw [h.jobs, hi]
    have hsteady := hp.steady i d stage hi
    obtain ⟨hvalue, hmirrors⟩ := advance_alike (Spares.of_same h.disk) hsteady hp.tree
      (h.disk.isTree hp.tree) hp.search stage fun b hb => hp.placed i d b (hb ▸ hi)
    have hext := (hp.extends_advance i).1
    have hext' := ((hp.congr h).extends_advance i).1
    refine ⟨?_, ?_, ?_, fun l => ?_⟩
    · rw [(advance_of_some hi').1, (advance_of_some hi).1, hvalue, h.jobs]
    · rw [hext'.here, hext.here, h.disk.here]
    · rw [hext'.umask, hext.umask, h.disk.umask]
    · rw [(advance_of_some hi').2, (advance_of_some hi).2, hmirrors l, h.disk.look]
      split
      · rename_i heq
        exact heq.symm
      · rfl

/-- Where two conversions both change the disk, they make the same directory. -/
theorem IsOrderly.look_eq_of_changed (hp : IsOrderly t root p) (hij : i ≠ j) {l : Location}
    (hi : (p.advance t root i).disk.look l ≠ p.disk.look l)
    (hj : (p.advance t root j).disk.look l ≠ p.disk.look l) :
    (p.advance t root j).disk.look l = (p.advance t root i).disk.look l := by
  cases hi' : p.jobs[i]? with
  | none =>
    rw [advance_of_none hi'] at hi
    exact absurd rfl hi
  | some job =>
    cases hj' : p.jobs[j]? with
    | none =>
      rw [advance_of_none hj'] at hj
      exact absurd rfl hj
    | some job' =>
      have hpath := (hp.steady i job.1 job.2 hi').toLeads
      have hpath' := (hp.steady j job'.1 job'.2 hj').toLeads
      have htouches := advance_touches hpath job.2 p.disk
      have htouches' := advance_touches hpath' job'.2 p.disk
      rw [← (advance_of_some hi').2] at htouches
      rw [← (advance_of_some hj').2] at htouches'
      -- neither of them can have written what the other one changes
      rcases htouches.change hpath hi with ⟨-, -, hdir⟩ | rfl
      · rcases htouches'.change hpath' hj with ⟨-, -, hdir'⟩ | rfl
        · rw [hdir, hdir']
        · exact absurd (hp.spares hij hi' hj').target hi
      · exact absurd (hp.spares hij.symm hj' hi').target hj

/-- Steps of two conversions can be taken in either order. -/
theorem advance_comm (hp : IsOrderly t root p) (hij : i ≠ j) :
    Alike ((p.advance t root i).advance t root j) ((p.advance t root j).advance t root i) := by
  cases hi : p.jobs[i]? with
  | none =>
    have hi' : (p.advance t root j).jobs[i]? = none := by
      rw [getElem?_advance_of_ne hij.symm, hi]
    rw [advance_of_none hi, advance_of_none hi']
    exact Alike.refl _
  | some job =>
    cases hj : p.jobs[j]? with
    | none =>
      have hj' : (p.advance t root i).jobs[j]? = none := by rw [getElem?_advance_of_ne hij, hj]
      rw [advance_of_none hj, advance_of_none hj']
      exact Alike.refl _
    | some job' =>
      obtain ⟨d, stage⟩ := job
      obtain ⟨d', stage'⟩ := job'
      have hi' : (p.advance t root j).jobs[i]? = some (d, stage) := by
        rw [getElem?_advance_of_ne hij.symm, hi]
      have hj' : (p.advance t root i).jobs[j]? = some (d', stage') := by
        rw [getElem?_advance_of_ne hij, hj]
      -- each step comes to the same before and after the other one
      obtain ⟨hvalue, hmirrors⟩ := advance_alike (hp.spares hij.symm hj hi)
        (hp.steady i d stage hi) hp.tree (hp.advance j).tree hp.search stage
        fun b hb => hp.placed i d b (hb ▸ hi)
      obtain ⟨hvalue', hmirrors'⟩ := advance_alike (hp.spares hij hi hj)
        (hp.steady j d' stage' hj) hp.tree (hp.advance i).tree hp.search stage'
        fun b hb => hp.placed j d' b (hb ▸ hj)
      rw [← (advance_of_some hi).2, ← (advance_of_some hi').2] at hmirrors
      rw [← (advance_of_some hj).2, ← (advance_of_some hj').2] at hmirrors'
      have hext := (hp.extends_advance i).1.trans ((hp.advance i).extends_advance j).1
        (hp.advance i).tree
      have hext' := (hp.extends_advance j).1.trans ((hp.advance j).extends_advance i).1
        (hp.advance j).tree
      refine ⟨?_, ?_, ?_, hmirrors.comm hmirrors' fun l => hp.look_eq_of_changed hij⟩
      · rw [(advance_of_some hj').1, (advance_of_some hi').1, (advance_of_some hi).1,
          (advance_of_some hj).1, hvalue, hvalue', List.set_comm _ _ hij.symm]
      · rw [hext'.here, hext.here]
      · rw [hext'.umask, hext.umask]

theorem follow_congr {p' : Pool} (hp : IsOrderly t root p) (h : Alike p p') (schedule : List Nat) :
    Alike (p.follow t root schedule) (p'.follow t root schedule) := by
  induction schedule generalizing p p' with
  | nil => exact h
  | cons i schedule ih => exact ih (hp.advance i) (advance_congr hp h i)

/-- A step can be put off until others have taken theirs. -/
theorem follow_advance_comm (hp : IsOrderly t root p) {schedule : List Nat} (hi : i ∉ schedule) :
    Alike ((p.advance t root i).follow t root schedule)
      ((p.follow t root schedule).advance t root i) := by
  induction schedule generalizing p with
  | nil => exact Alike.refl _
  | cons j schedule ih =>
    rw [List.mem_cons, not_or] at hi
    have hfirst := follow_congr ((hp.advance i).advance j) (advance_comm hp hi.1) schedule
    exact hfirst.trans (ih (hp.advance j) hi.2)

/-- The steps of one conversion can all be taken first. -/
theorem follow_filter (hp : IsOrderly t root p) (i : Nat) (schedule : List Nat) :
    Alike (p.follow t root schedule)
      ((p.follow t root (List.replicate (schedule.count i) i)).follow t root
        (schedule.filter (· ≠ i))) := by
  induction schedule generalizing p with
  | nil => exact Alike.refl _
  | cons j schedule ih =>
    have hrest := ih (hp.advance j)
    by_cases hij : j = i
    · subst hij
      simpa [follow_cons, List.replicate_succ] using hrest
    · have hfirst : Alike ((p.advance t root j).follow t root (List.replicate (schedule.count i) i))
          ((p.follow t root (List.replicate (schedule.count i) i)).advance t root j) := by
        refine follow_advance_comm hp fun hmem => hij (List.eq_of_mem_replicate hmem)
      have hboth := hrest.trans (follow_congr ((hp.advance j).follow _) hfirst _)
      simpa [follow_cons, hij] using hboth

end Pool

end SharpEmit.Conversion
