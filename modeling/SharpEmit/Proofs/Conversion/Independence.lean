/-
SharpEmit/Proofs/Conversion/Independence.lean

A conversion among others, compared with the same conversion alone.  Alone it takes its
steps on the disk with which the batch begins; among others it finds what they have done
meanwhile.  When the files of a batch are apart from each other, both come equally far:
each stage is one that the conversion comes to alone, and all that happened since spares
its path (`AsAlone`).

There are exceptions.  A directory whose path ends in a dot may be refused among others and not
alone, if the path is too long, or if names cannot be looked up in new directories.  But then
the file cannot be written either, so that the conversion fails in both cases
(`fails_of_futile`).

A step keeps this for the conversion that takes it (`AsAlone.advance`) and for all others
(`AsAlone.aside`), and so does every schedule (`Pool.AsAlone.follow`).
-/
import SharpEmit.Proofs.Conversion.Schedules

namespace SharpEmit

/-- What changes alike on a disk and on a later one leaves a disk and a later one. -/
theorem Disk.Extends.of_mirrors {d d' e e' : Disk} (h : d.Extends e) (hmirrors : Mirrors d d' e e')
    (hd : d.Extends d') (he : e.Extends e') (htree : e.IsTree) : d'.Extends e' where
  -- a location has changed on neither disk, or it now holds the same on both
  here := by rw [he.here, h.here, hd.here]
  umask := by rw [he.umask, h.umask, hd.umask]
  dirs l mode hl := by
    rw [hmirrors l]
    split
    · rename_i heq
      exact h.dirs l mode (heq ▸ hl)
    · exact hl
  files l content mode hl := by
    rw [hmirrors l]
    split
    · rename_i heq
      exact h.files l content mode (heq ▸ hl)
    · exact ⟨content, hl⟩
  newDirs l mode hnone hl := by
    rw [hmirrors l] at hl
    split at hl
    · rename_i heq
      rw [newDirMode_of_umask hd.umask]
      exact h.newDirs l mode (heq ▸ hnone) hl
    · rw [hnone] at hl
      cases hl
  made l name hnone hsome := by
    rw [hmirrors (l.push name)] at hsome
    split at hsome
    · rename_i heq
      obtain ⟨hchange, hsize⟩ := h.made l name (heq ▸ hnone) hsome
      refine ⟨?_, hsize⟩
      rw [he.changeable_eq (htree.above l name hsome).look_ne_none, hchange]
    · exact absurd hnone hsome

namespace Conversion

variable {t : Target} {root : String} {d : Declaration} {disk after : Disk}

/-! ### Changes that spare a path -/

namespace Spares

variable {path : String} {later : Disk}

theorem trans (h : Spares path disk after) (h' : Spares path after later) (hafter : after.IsTree) :
    Spares path disk later := by
  refine ⟨h.toExtends.trans h'.toExtends hafter, fun l content mode hon hnone hfile => ?_, ?_⟩
  · have hon' : OnWay l (after.spelled (Path.parent path)) := by
      rw [h.toExtends.spelled_eq]
      exact hon
    -- what came on the way before is a directory, and directories stay
    cases hlook : after.look l with
    | none => exact h'.way l content mode hon' hlook hfile
    | some node =>
      cases node with
      | file content' mode' => exact h.way l content' mode' hon hnone hlook
      | directory mode' =>
        rw [h'.toExtends.dirs l mode' hlook] at hfile
        cases hfile
  · have htarget := h'.target
    rw [h.toExtends.spelled_eq] at htarget
    exact htarget.trans h.target

/-- Changes that are made alike on both disks. -/
theorem mirrored {disk' after' : Disk} (h : Spares path disk after)
    (hmirrors : Disk.Mirrors disk disk' after after') (hdisk : disk.Extends disk')
    (hafter : after.Extends after') (htree : after.IsTree) : Spares path disk' after' := by
  refine ⟨h.toExtends.of_mirrors hmirrors hdisk hafter htree, fun l content mode hon hnone => ?_, ?_⟩
  · rw [hdisk.spelled_eq] at hon
    have hnone' : disk.look l = none := by
      by_contra hsome
      exact hdisk.look_ne_none hsome hnone
    rw [hmirrors l, if_pos (hnone.trans hnone'.symm)]
    exact h.way l content mode hon hnone'
  · rw [hdisk.spelled_eq, hmirrors]
    split
    · rename_i heq
      rw [heq]
      exact h.target
    · rfl

end Spares

/-! ### Conversions alone -/

/-- The conversion of a declaration fails. -/
def Fails (t : Target) (root : String) (disk : Disk) (d : Declaration) : Prop :=
  ∃ failure, (convert t root disk d).value = .error (.failed failure)

/-- A conversion has come as far as it comes alone from the disk with which all began, and
what became of the disk since spares its path; or it has strayed, and fails in either case. -/
inductive AsAlone (t : Target) (root : String) (disk : Disk) (d : Declaration) :
    Stage → Disk → Prop
  | steps {k stage alone after} : (stepAlone t root d)^[k] (.waiting, disk) = (stage, alone) →
      alone.IsTree → alone.umask = disk.umask →
      (∀ b, stage = .placed b →
        alone.reach (Path.parent (t.outputPath root d)) ≠ .error (.refused .noEntry)) →
      Spares (t.outputPath root d) alone after → AsAlone t root disk d stage after
  | strayed {failure after} :
      IsFarDot (t.outputPath root d) ∨ disk.permitsNew .search = false →
      failure.typeName = d.name →
      Fails t root disk d → AsAlone t root disk d (.finished (.error (.failed failure))) after

section Refused

variable {b : LineBuffer} {abort : Abort}

theorem advance_of_place_error (h : (place disk d (t.outputPath root d)).1 = .error abort) :
    ((Stage.rendered b).advance t root d disk).value = .finished (.error abort) := by
  generalize hplace : place disk d (t.outputPath root d) = x at h
  obtain ⟨r, placed⟩ := x
  cases h
  simp only [Stage.advance, hplace]

theorem stepAlone_of_place_ok (h : (place disk d (t.outputPath root d)).1 = .ok ()) :
    stepAlone t root d (.rendered b, disk) =
      (.placed b, (place disk d (t.outputPath root d)).2) := by
  generalize hplace : place disk d (t.outputPath root d) = x at h
  obtain ⟨r, placed⟩ := x
  cases h
  simp only [stepAlone, Stage.advance, hplace]

theorem advance_of_store_error (h : (store disk d (t.outputPath root d) b).1 = .error abort) :
    ((Stage.placed b).advance t root d disk).value = .finished (.error abort) := by
  generalize hstore : store disk d (t.outputPath root d) b = x at h
  obtain ⟨r, stored⟩ := x
  cases h
  simp only [Stage.advance, hstore]

end Refused

/-- A conversion to a file that cannot be written does not come to a result. -/
theorem iterate_of_futile {k : Nat} {b : LineBuffer} {alone : Disk}
    (hsteps : (stepAlone t root d)^[k] (.waiting, disk) = (.rendered b, alone))
    (h : IsFutile alone d (t.outputPath root d)) :
    ∃ k' abort, ((stepAlone t root d)^[k'] (.waiting, disk)).1 = .finished (.error abort) := by
  rcases h with ⟨failure, hfailed⟩ | ⟨hok, hstore⟩
  · refine ⟨k + 1, .failed failure, ?_⟩
    rw [Function.iterate_succ_apply', hsteps]
    exact advance_of_place_error hfailed
  · obtain ⟨abort, habort⟩ := hstore b
    refine ⟨k + 2, abort, ?_⟩
    rw [Function.iterate_succ_apply', Function.iterate_succ_apply', hsteps,
      stepAlone_of_place_ok hok]
    exact advance_of_store_error habort

/-- Where no file can be written, a conversion fails alone as well. -/
theorem fails_of_futile (ht : t.IsRegular) (hpath : Leads (t.outputPath root d))
    (hnull : '\x00' ∉ (t.outputPath root d).toList) {k : Nat} {b : LineBuffer} {alone : Disk}
    (hsteps : (stepAlone t root d)^[k] (.waiting, disk) = (.rendered b, alone))
    (h : IsFutile alone d (t.outputPath root d)) : Fails t root disk d := by
  obtain ⟨k', abort, hlast⟩ := iterate_of_futile hsteps h
  have hvalue : (convert t root disk d).value = .error abort := by
    rw [iterate_stepAlone hlast] at hlast
    exact Stage.finished.inj hlast
  -- nothing but a failure ends it without a result
  have hsettles := convert_settles ht hpath hnull disk
  rw [hvalue] at hsettles
  cases hsettles with
  | failure => exact ⟨_, hvalue⟩

namespace AsAlone

variable {stage : Stage}

theorem start (hdisk : disk.IsTree) : AsAlone t root disk d .waiting disk :=
  .steps (k := 0) rfl hdisk rfl (by simp) (Spares.of_same (Disk.Same.refl disk))

/-- The steps of others, if they spare the path, make no difference. -/
theorem aside {later : Disk} (h : AsAlone t root disk d stage after) (hafter : after.IsTree)
    (hspares : Spares (t.outputPath root d) after later) : AsAlone t root disk d stage later := by
  cases h with
  | steps hsteps htree humask hreach hsince =>
    exact .steps hsteps htree humask hreach (hsince.trans hspares hafter)
  | strayed hfar hname hfails => exact .strayed hfar hname hfails

/-- Its own next step is the one that it takes alone. -/
theorem advance (ht : t.IsRegular) (hpath : Leads (t.outputPath root d))
    (hnull : '\x00' ∉ (t.outputPath root d).toList) (hafter : after.IsTree)
    (h : AsAlone t root disk d stage after) :
    AsAlone t root disk d (stage.advance t root d after).value
      (stage.advance t root d after).disk := by
  cases h with
  | strayed hfar hname hfails => exact .strayed hfar hname hfails
  | @steps k stage alone _ hsteps htree humask hreach hspares =>
    have hnext : (stepAlone t root d)^[k + 1] (.waiting, disk) =
        ((stage.advance t root d alone).value, (stage.advance t root d alone).disk) := by
      rw [Function.iterate_succ_apply', hsteps]
      rfl
    obtain ⟨hgrown, htree'⟩ := (advance_touches hpath stage alone).toExtends hpath htree
    obtain ⟨hgrown', -⟩ := (advance_touches hpath stage after).toExtends hpath hafter
    -- all steps come to the same on both disks, but for the one that makes the directory
    by_cases hplace : ∀ b, stage = .rendered b →
        (place after d (t.outputPath root d)).1 = (place alone d (t.outputPath root d)).1
    · obtain ⟨hvalue, hmirrors⟩ := advance_alike_of_place hspares hpath htree hafter stage hplace
        hreach
      rw [hvalue]
      refine .steps hnext htree' (hgrown.umask.trans humask) (fun b hb => ?_)
        (hspares.mirrored hmirrors hgrown hgrown' hafter)
      exact reach_of_advance hpath htree hb
    · -- the directory is refused, though it is not alone
      obtain ⟨b, hplace⟩ := not_forall.mp hplace
      obtain ⟨rfl, hdiffer⟩ := Classical.not_imp.mp hplace
      obtain ⟨-, hsame | hstrays⟩ := hspares.madeAlike hpath htree hafter
      · rw [place_eq, place_eq, hsame] at hdiffer
        exact absurd rfl hdiffer
      · obtain ⟨⟨refusal, hrefused⟩, hfutile⟩ := futile_of_strays hpath htree hstrays d
        obtain ⟨hfutile, hwhy⟩ := hfutile.resolve_right fun hmem =>
          Path.null_not_mem_parent hnull hmem.1
        rw [advance_of_place_error hrefused]
        rw [Disk.permitsNew_of_umask humask] at hwhy
        exact .strayed hwhy rfl (fails_of_futile ht hpath hnull hsteps hfutile)

/-- A result is the one to which the conversion comes alone. -/
theorem of_ok {result : Result} (h : AsAlone t root disk d (.finished (.ok result)) after) :
    (convert t root disk d).value = .ok result ∧
      Spares (t.outputPath root d) (convert t root disk d).disk after := by
  cases h with
  | @steps k _ alone _ hsteps _ _ _ hspares =>
    have hends := iterate_stepAlone (congrArg Prod.fst hsteps)
    rw [hsteps, Prod.mk.injEq, Stage.finished.injEq] at hends
    rw [← hends.1, ← hends.2]
    exact ⟨rfl, hspares⟩

/-- A conversion that comes to no result fails alone as well, with the same failure unless it
may have strayed. -/
theorem of_error (ht : t.IsRegular) (hpath : Leads (t.outputPath root d))
    (hnull : '\x00' ∉ (t.outputPath root d).toList) {abort : Abort}
    (h : AsAlone t root disk d (.finished (.error abort)) after) :
    ∃ failure, abort = .failed failure ∧ failure.typeName = d.name ∧ Fails t root disk d ∧
      (¬ IsFarDot (t.outputPath root d) → disk.permitsNew .search = true →
        (convert t root disk d).value = .error (.failed failure)) := by
  cases h with
  | strayed hwhy hname hfails =>
    refine ⟨_, rfl, hname, hfails, fun hnot hsearch => ?_⟩
    rw [hwhy.resolve_left hnot] at hsearch
    cases hsearch
  | @steps k _ alone _ hsteps _ _ _ hspares =>
    have hends := iterate_stepAlone (congrArg Prod.fst hsteps)
    rw [hsteps, Prod.mk.injEq, Stage.finished.injEq] at hends
    have hsettles := convert_settles ht hpath hnull disk
    rw [← hends.1] at hsettles
    cases hsettles with
    | failure => exact ⟨_, rfl, rfl, ⟨_, hends.1.symm⟩, fun _ _ => hends.1.symm⟩

end AsAlone

/-! ### Pools -/

/-- A batch whose files are apart from each other, each at the end of a path that goes down. -/
structure IsApart (t : Target) (root : String) (disk : Disk) (ds : List Declaration) : Prop where
  leads : ∀ d ∈ ds, Leads (t.outputPath root d)
  null : ∀ d ∈ ds, '\x00' ∉ (t.outputPath root d).toList
  apart : ds.Pairwise fun d d' =>
    Apart (disk.spelled (t.outputPath root d)) (disk.spelled (t.outputPath root d'))

theorem IsApart.not_onWay {ds : List Declaration} (h : IsApart t root disk ds) {i j : Nat}
    {d d' : Declaration} (hij : i ≠ j) (hi : ds[i]? = some d) (hj : ds[j]? = some d') :
    ¬ OnWay (disk.spelled (t.outputPath root d)) (disk.spelled (t.outputPath root d')) := by
  obtain ⟨hilt, rfl⟩ := List.getElem?_eq_some_iff.mp hi
  obtain ⟨hjlt, rfl⟩ := List.getElem?_eq_some_iff.mp hj
  have hapart := List.pairwise_iff_getElem.mp h.apart
  rcases Nat.lt_or_gt_of_ne hij with hlt | hgt
  · exact (hapart i j hilt hjlt hlt).1
  · exact (hapart j i hjlt hilt hgt).2

namespace Pool

/-- Each conversion of a pool has come as far as it comes alone. -/
structure AsAlone (t : Target) (root : String) (disk : Disk) (ds : List Declaration) (p : Pool) :
    Prop where
  jobs : p.jobs.map (·.1) = ds
  tree : p.disk.IsTree
  grown : disk.Extends p.disk
  each : ∀ (i : Nat) d stage, p.jobs[i]? = some (d, stage) →
    Conversion.AsAlone t root disk d stage p.disk

namespace AsAlone

variable {p : Pool} {ds : List Declaration}

theorem start (hdisk : disk.IsTree) (ds : List Declaration) :
    AsAlone t root disk ds (Pool.start disk ds) := by
  refine ⟨by simp [Pool.start, Function.comp_def], hdisk, Disk.Extends.refl disk,
    fun i d stage hi => ?_⟩
  simp only [Pool.start, List.getElem?_map, Option.map_eq_some_iff] at hi
  obtain ⟨d', -, heq⟩ := hi
  cases heq
  exact .start hdisk

theorem getElem? (h : AsAlone t root disk ds p) {i : Nat} {stage : Stage}
    (hi : p.jobs[i]? = some (d, stage)) : ds[i]? = some d := by
  rw [← h.jobs, List.getElem?_map, hi]
  rfl

theorem length (h : AsAlone t root disk ds p) : p.jobs.length = ds.length := by
  rw [← h.jobs, List.length_map]

/-- A step of one conversion keeps all where they come alone. -/
theorem advance (ht : t.IsRegular) (hds : IsApart t root disk ds) (h : AsAlone t root disk ds p)
    (i : Nat) : AsAlone t root disk ds (p.advance t root i) := by
  cases hi : p.jobs[i]? with
  | none =>
    rw [advance_of_none hi]
    exact h
  | some job =>
    obtain ⟨d, stage⟩ := job
    have hd : ds[i]? = some d := h.getElem? hi
    have hmem : d ∈ ds := List.mem_of_getElem? hd
    have hpath := hds.leads d hmem
    have htouches := advance_touches hpath stage p.disk
    obtain ⟨hgrown, htree⟩ := htouches.toExtends hpath h.tree
    obtain ⟨hjobs, hdisk⟩ := @advance_of_some t root p i d stage hi
    refine ⟨?_, ?_, ?_, fun j d' stage' hj => ?_⟩
    · obtain ⟨hlt, rfl⟩ := List.getElem?_eq_some_iff.mp hd
      rw [hjobs, List.map_set, h.jobs]
      exact List.set_getElem_self hlt
    · rw [hdisk]
      exact htree
    · rw [hdisk]
      exact h.grown.trans hgrown h.tree
    · by_cases hij : i = j
      · subst hij
        rw [getElem?_advance_self hi] at hj
        cases hj
        rw [hdisk]
        exact (h.each i d stage hi).advance ht hpath (hds.null d hmem) h.tree
      · -- the step leaves the way of another conversion alone
        rw [getElem?_advance_of_ne hij] at hj
        have hd' := h.getElem? hj
        rw [hdisk]
        refine (h.each j d' stage' hj).aside h.tree (htouches.spares hpath
          (hds.leads d' (List.mem_of_getElem? hd')) h.tree ?_ ?_)
        · rw [h.grown.spelled_eq, h.grown.spelled_eq]
          exact hds.not_onWay hij hd hd'
        · rw [h.grown.spelled_eq, h.grown.spelled_eq]
          exact hds.not_onWay (Ne.symm hij) hd' hd

theorem follow (ht : t.IsRegular) (hds : IsApart t root disk ds) (h : AsAlone t root disk ds p)
    (schedule : List Nat) : AsAlone t root disk ds (p.follow t root schedule) := by
  induction schedule generalizing p with
  | nil => exact h
  | cons i schedule ih => exact ih (h.advance ht hds i)

end AsAlone

end Pool

end Conversion

end SharpEmit
