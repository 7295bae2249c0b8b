/-
SharpEmit/Proofs/Conversion/Atomicity.lean

A conversion that does not come to its end leaves no trace in files: of the ways in
which a conversion can end (`Ends`), only the last changes one.

Main result: when a type is skipped or its conversion fails, every file is as it
was and no file is new; when it is skipped or cannot be rendered, the disk itself
is as it was (`convert_unwritten_keeps_files`).
-/
import SharpEmit.Proofs.Conversion.Steps

namespace SharpEmit.Conversion

variable {t : Target} {root : String} {disk : Disk} {d : Declaration}

/-! ### Atomicity -/

/-- The failure of a type that was rendered is one of another step. -/
theorem step_ne_render_of_place {path : String} {failure : Failure} {placed : Disk}
    (h : place disk d path = (.error (.failed failure), placed)) :
    failure.complaint.step ≠ .render := by
  unfold place at h
  split at h
  · cases h
  · cases h
  · obtain rfl : _ = failure := by simpa using congrArg Prod.fst h
    simp [Failure.complaint]

theorem step_ne_render_of_store {path : String} {b : LineBuffer} {failure : Failure}
    {stored : Disk} (h : store disk d path b = (.error (.failed failure), stored)) :
    failure.complaint.step ≠ .render := by
  unfold store at h
  split at h
  · cases h
  · split at h
    · cases h
    · cases h
    · obtain rfl : _ = failure := by simpa using congrArg Prod.fst h
      simp [Failure.complaint]

/-- A conversion that ends without a written file changes no file and makes none;
one that skips the type or fails to render it does not change the disk at all. -/
theorem convert_unwritten_keeps_files (t : Target) (root : String) (disk : Disk) (d : Declaration)
    (h : ∀ r, (convert t root disk d).value = .ok r → r.skipped.isSome) :
    (∀ l content mode,
      (convert t root disk d).disk.look l = some (.file content mode) ↔
        disk.look l = some (.file content mode)) ∧
    ((∃ r, (convert t root disk d).value = .ok r) ∨
      (∃ failure, (convert t root disk d).value = .error (.failed failure) ∧
        failure.complaint.step = .render) →
      (convert t root disk d).disk = disk) := by
  have hends := convert_ends t root disk d
  generalize (convert t root disk d).value = value at *
  generalize (convert t root disk d).disk = after at *
  cases hends with
  | skipped _ => exact ⟨fun _ _ _ => Iff.rfl, fun _ => rfl⟩
  | unrendered _ _ => exact ⟨fun _ _ _ => Iff.rfl, fun _ => rfl⟩
  | unplaced _ _ hplace =>
    have hgrows := Disk.makeDirs_grows disk (Path.parent (t.outputPath root d))
    rw [← placed_of_place hplace] at hgrows
    refine ⟨hgrows.look_eq_file_iff, ?_⟩
    rintro (⟨r, hr⟩ | ⟨failure, hf, hstep⟩)
    · cases hr
    · cases hf
      exact absurd hstep (step_ne_render_of_place hplace)
  | unstored _ _ hplace hstore =>
    have hgrows := Disk.makeDirs_grows disk (Path.parent (t.outputPath root d))
    rw [← placed_of_place hplace, ← store_eq_self_of_error hstore] at hgrows
    refine ⟨hgrows.look_eq_file_iff, ?_⟩
    rintro (⟨r, hr⟩ | ⟨failure, hf, hstep⟩)
    · cases hr
    · cases hf
      exact absurd hstep (step_ne_render_of_store hstore)
  | written _ _ _ _ => exact absurd (h _ rfl) (by simp)

/-- A class whose name no file can have. -/
def nullNamed : Declaration := { name := "A\x00", package := ["p"] }

/-- A disk with one file. -/
def sampleDisk : Disk := { entries := [(#["keep"], .file ⟨#[65]⟩ 0o600)] }

/-- Here two directories are made, and then the file is refused. -/
theorem convert_nullNamed_keeps_files :
    (convert (CSharp.target {}) "o" sampleDisk nullNamed).disk.look #["o", "p"] =
        some (.directory 0o755) ∧
      ∀ l content mode,
        (convert (CSharp.target {}) "o" sampleDisk nullNamed).disk.look l =
            some (.file content mode) ↔
          sampleDisk.look l = some (.file content mode) := by
  have hmade : (convert (CSharp.target {}) "o" sampleDisk nullNamed).disk.look #["o", "p"] =
      some (.directory 0o755) := by decide +kernel
  have hvalue : (convert (CSharp.target {}) "o" sampleDisk nullNamed).value =
      .error .nullCharacter := by decide +kernel
  have hkeeps := convert_unwritten_keeps_files (CSharp.target {}) "o" sampleDisk nullNamed
    (fun r hr => by rw [hvalue] at hr; cases hr)
  exact ⟨hmade, hkeeps.1⟩

end SharpEmit.Conversion
