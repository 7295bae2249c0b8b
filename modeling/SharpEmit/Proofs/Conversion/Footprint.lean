/-
SharpEmit/Proofs/Conversion/Footprint.lean

What a conversion that writes its file leaves of a disk.  `Completes` is such a conversion as
its steps: the type is not skipped, it is rendered, its directory is made, and the writing of
its file returns.  `Leaves` is the disk afterwards, beside the one from before.

The directories and the file are told apart: making directories adds what was missing above
the path and nothing else (`makeDirs_grows`, `makeDirs_new`), and writing the file then changes
what is at the path and nothing else (`Reaches.invariant`).

Main result: a conversion that says that it has written its file has made all these steps, and
they leave the text of the declaration at its output path, and everything else as it was but
for new directories above that path (`written_leaves`).
-/
import SharpEmit.Proofs.Conversion.Confinement
import SharpEmit.Proofs.Storage.Ancestry
import SharpEmit.Proofs.Storage.Interruption
import SharpEmit.Proofs.Storage.Success

namespace SharpEmit.Conversion

/-! ### Conversions that come to their end -/

/-- A conversion that renders a declaration to a buffer and comes to its end. -/
structure Completes (t : Target) (root : String) (disk : Disk) (d : Declaration)
    (b : LineBuffer) (after : Disk) : Prop where
  chosen : skipReason disk d (t.outputPath root d) = none
  rendered : generate t d = .ok b
  written : ∃ placed, place disk d (t.outputPath root d) = (.ok (), placed) ∧
    Replacement.Reaches b (t.outputPath root d) ⟨.begun, placed⟩ ⟨.returned, after⟩

/-- The disk after a text was written to a path: the path leads to a file with the text, and
with the mode of the file that was there or else that of a new file; all other files are as
they were; directories stay, and those that are new were missing above the path. -/
structure Leaves (path text : String) (disk after : Disk) : Prop where
  file : after.fileAt (disk.spelled path) = some (text.toUTF8,
    ((disk.fileAt (disk.spelled path)).map (·.2)).getD (Replacement.grantedMode disk.umask))
  found : disk.IsTree → after.locate path = .ok (disk.spelled path)
  others : ∀ l, l ≠ disk.spelled path → after.fileAt l = disk.fileAt l
  kept : ∀ l mode, disk.look l = some (.directory mode) → after.look l = some (.directory mode)
  made : ∀ l, after.HoldsDir l → disk.HoldsDir l ∨
    disk.look l = none ∧ ∃ p, Path.Above path p ∧ p ≠ "" ∧ l = disk.spelled p
  here : after.here = disk.here
  umask : after.umask = disk.umask

variable {t : Target} {root : String} {disk after : Disk} {d : Declaration}
  {b : LineBuffer}

/-- After it was renamed into its place, a file is found there. -/
theorem locate_of_reaches {path : String} (htree : disk.IsTree)
    (h : Replacement.Reaches b path ⟨.begun, disk⟩ ⟨.returned, after⟩) :
    after.locate path = .ok (disk.spelled path) := by
  obtain ⟨temp, marked, hrun, hrename⟩ := h.renamed Replacement.Phase.noConfusion
  obtain ⟨mode, htemp, -⟩ := hrun.invariant
  obtain ⟨hlocate, hleaf, hset⟩ := htemp.isSet_rename hrename
  -- the path led there past the temporary file, and the directories are the same as before it
  have hkeeps := htemp.toIsSet.keepsDirs fun hdir => hdir.look_ne_none htemp.fresh.free
  have hback := htemp.toIsSet.keepsDirs_symm
  have hbefore := hback.locate_ok (hkeeps.staysInside hback htree.staysInside) hlocate
  exact (hset.keepsDirs hleaf).locate_ok htree.staysInside hbefore

/-- The mode of a file that takes the place of another one, or of nothing. -/
theorem modeAfter_eq {l : Location} (h : ¬ disk.HoldsDir l) :
    Replacement.modeAfter disk.umask (disk.look l) =
      ((disk.fileAt l).map (·.2)).getD (Replacement.grantedMode disk.umask) := by
  rw [Disk.fileAt]
  cases hlook : disk.look l with
  | none => rfl
  | some node =>
    cases node with
    | file content mode => rfl
    | directory mode => exact absurd ⟨mode, hlook⟩ h

/-- Directories that were made above a path and a file that was written there leave this. -/
theorem leaves_of_isSet {path : String} {content : String}
    (hleaf : ¬ (disk.makeDirs (Path.parent path)).2.HoldsDir (disk.spelled path))
    (hset : Disk.IsSet (disk.makeDirs (Path.parent path)).2 (disk.spelled path)
      (.file content.toUTF8 (Replacement.modeAfter disk.umask (disk.look (disk.spelled path)))) after)
    (hfound : disk.IsTree → after.locate path = .ok (disk.spelled path)) :
    Leaves path content disk after := by
  have hgrows := disk.makeDirs_grows (Path.parent path)
  have hhere := disk.makeDirs_here (Path.parent path)
  have hkeeps := hgrows.keepsDirs hhere
  have hleaf' : ¬ disk.HoldsDir (disk.spelled path) := fun hdir => hleaf (hkeeps.holdsDir hdir)
  refine ⟨?_, hfound, fun l hl => ?_, (hkeeps.trans (hset.keepsDirs hleaf)).dirs, fun l hl => ?_,
    hset.here.trans hhere, hset.umask.trans (disk.makeDirs_umask _)⟩
  · rw [Disk.fileAt, hset.look, if_pos rfl, modeAfter_eq hleaf']
  · rw [← hgrows.fileAt_eq, Disk.fileAt_eq_of_look_eq ((hset.look l).trans (if_neg hl))]
  · obtain ⟨mode, hmode⟩ := hset.keepsDirs_symm.holdsDir hl
    rcases hgrows l with hsame | ⟨hnone, hnew⟩
    · exact .inl ⟨mode, hsame.symm.trans hmode⟩
    · refine .inr ⟨hnone, Disk.makeDirs_new ?_⟩
      rw [hnew, hnone]
      exact Option.some_ne_none _

theorem Completes.leaves (h : Completes t root disk d b after) :
    Leaves (t.outputPath root d) b.text disk after := by
  obtain ⟨placed, hplace, hreaches⟩ := h.written
  have hspelled := spelled_of_place hplace (t.outputPath root d)
  obtain rfl := placed_of_place hplace
  obtain ⟨hleaf, hset⟩ := hreaches.invariant
  rw [hspelled] at hleaf hset
  -- no directory was made in the place of the file, so what is there is what was there
  have htarget : (disk.makeDirs (Path.parent (t.outputPath root d))).2.look
      (disk.spelled (t.outputPath root d)) = disk.look (disk.spelled (t.outputPath root d)) := by
    rcases disk.makeDirs_grows (Path.parent (t.outputPath root d))
      (disk.spelled (t.outputPath root d)) with hsame | ⟨-, hdir⟩
    · exact hsame
    · exact absurd ⟨_, hdir⟩ hleaf
  rw [Replacement.newFile, htarget, disk.makeDirs_umask] at hset
  refine leaves_of_isSet hleaf hset fun htree => ?_
  rw [locate_of_reaches (disk.makeDirs_extends htree _).2 hreaches, hspelled]

/-! ### Conversions that are said to have written -/

/-- Storing the text of a buffer is a run of the writing of its file. -/
theorem reaches_of_store {path : String} {stored : Disk}
    (h : store disk d path b = (.ok (), stored)) :
    Replacement.Reaches b path ⟨.begun, disk⟩ ⟨.returned, stored⟩ := by
  unfold store LineBuffer.complete at h
  by_cases hlevel : b.level = 0
  · have hreaches : Replacement.Reaches b path ⟨.begun, disk⟩ _ :=
      Replacement.reaches_replace hlevel
    rw [if_pos hlevel] at h
    dsimp only at h
    split at h
    · rename_i e hreplace
      cases h
      rw [hreplace] at hreaches
      exact hreaches
    · cases h
    · cases h
  · rw [if_neg hlevel] at h
    cases h

theorem completes_of_convert {r : Result} (h : (convert t root disk d).value = .ok r)
    (hwritten : r.skipped = none) :
    r = ⟨d.name, t.outputPath root d, none⟩ ∧
      ∃ b, Completes t root disk d b (convert t root disk d).disk := by
  have hends := convert_ends t root disk d
  rw [h] at hends
  generalize (convert t root disk d).disk = after at hends ⊢
  cases hends with
  | skipped _ => cases hwritten
  | written hskip hgen hplace hstore =>
    exact ⟨rfl, _, hskip, hgen, _, hplace, reaches_of_store hstore⟩

/-- If a conversion says that it has written its file, then it names the output path, which
leads to a file with the text of the declaration in UTF-8 and the mode of the file that was
there or that of a new file under the mask of the disk; every other file is as it was, no
directory is gone, and the new ones were missing above the path.  Any steps of a conversion that
come to the end leave this. -/
theorem written_leaves (n : CSharp.Naming) (root : String) (disk : Disk) (d : Declaration) :
    (∀ r, (convert (CSharp.target n) root disk d).value = .ok r → r.skipped = none →
      r.name = d.name ∧ r.path = (CSharp.target n).outputPath root d ∧
      ∃ b, generate (CSharp.target n) d = .ok b ∧
        Completes (CSharp.target n) root disk d b
          (convert (CSharp.target n) root disk d).disk ∧
        Leaves ((CSharp.target n).outputPath root d) b.text disk
          (convert (CSharp.target n) root disk d).disk) ∧
    ∀ b after, Completes (CSharp.target n) root disk d b after →
      Leaves ((CSharp.target n).outputPath root d) b.text disk after := by
  refine ⟨fun r hr hwritten => ?_, fun b after h => h.leaves⟩
  obtain ⟨rfl, b, hb⟩ := completes_of_convert hr hwritten
  exact ⟨rfl, rfl, b, hb.rendered, hb, hb.leaves⟩

/-- A disk with a directory for `p`, in it an old file that only its owner may use, and another
file.  What is new is denied to all but the owner and the group. -/
def partlyFilled : Disk :=
  { entries := [(#["o"], .directory 0o755), (#["o", "p"], .directory 0o700),
      (#["o", "p", "A.cs"], .file "old".toUTF8 0o600), (#["keep"], .file "k".toUTF8 0o444)],
    umask := 0o027 }

/-- The old file is replaced and keeps its mode; below `o` the directory of a new package is
made for a file with the mode of new files. -/
theorem written_leaves_partlyFilled :
    (∃ text, Leaves "o/p/A.cs" text partlyFilled
        (convert (CSharp.target {}) "o" partlyFilled { name := "A", package := ["p"] }).disk ∧
      (convert (CSharp.target {}) "o" partlyFilled
          { name := "A", package := ["p"] }).disk.fileAt #["o", "p", "A.cs"] =
        some (text.toUTF8, 0o600)) ∧
    ∃ text, Leaves "o/q/B.cs" text partlyFilled
        (convert (CSharp.target {}) "o" partlyFilled { name := "B", package := ["q"] }).disk ∧
      (convert (CSharp.target {}) "o" partlyFilled
          { name := "B", package := ["q"] }).disk.fileAt #["o", "q", "B.cs"] =
        some (text.toUTF8, 0o640) := by
  have hpaths : (CSharp.target {}).outputPath "o" { name := "A", package := ["p"] } = "o/p/A.cs" ∧
      (CSharp.target {}).outputPath "o" { name := "B", package := ["q"] } = "o/q/B.cs" := by
    decide +kernel
  have hold : (convert (CSharp.target {}) "o" partlyFilled
      { name := "A", package := ["p"] }).value = .ok ⟨"A", "o/p/A.cs", none⟩ := by decide +kernel
  have hnew : (convert (CSharp.target {}) "o" partlyFilled
      { name := "B", package := ["q"] }).value = .ok ⟨"B", "o/q/B.cs", none⟩ := by decide +kernel
  have hmodes :
      (partlyFilled.fileAt (partlyFilled.spelled "o/p/A.cs")).map (·.2) = some 0o600 ∧
      (partlyFilled.fileAt (partlyFilled.spelled "o/q/B.cs")).map (·.2) = none ∧
      Replacement.grantedMode partlyFilled.umask = 0o640 := by decide +kernel
  obtain ⟨-, -, b, -, -, hleaves⟩ := (written_leaves {} "o" partlyFilled _).1 _ hold rfl
  obtain ⟨-, -, b', -, -, hleaves'⟩ := (written_leaves {} "o" partlyFilled _).1 _ hnew rfl
  rw [hpaths.1] at hleaves
  rw [hpaths.2] at hleaves'
  refine ⟨⟨b.text, hleaves, ?_⟩, b'.text, hleaves', ?_⟩
  · have hfile := hleaves.file
    rw [hmodes.1] at hfile
    exact hfile
  · have hfile := hleaves'.file
    rw [hmodes.2.1, hmodes.2.2] at hfile
    exact hfile

end SharpEmit.Conversion
