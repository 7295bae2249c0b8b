/-
SharpEmit/Proofs/Conversion/Confinement.lean

Where the file of a declaration can be.  A conversion changes the file at its output path and
no other (`fileAt_convert`), and the path leads from the output root by the parts of the
package and the name of the type (`outputParts`), which are joined as they stand.

Main result: the output path is below every output root if and only if these parts lead down,
and where it is, so is the file that a conversion writes (`output_below_iff`).  A document may
hold other parts as well: `escaping_not_below` is one that is loaded although its types have
their files beside the output root, or at paths that start from the top of the disk.
-/
import SharpEmit.Document.Reader
import SharpEmit.Proofs.Conversion.Steps
import SharpEmit.Proofs.Storage.Normal

namespace SharpEmit

/-! ### The one file -/

namespace Disk

/-- The file at a location: its content and its mode. -/
def fileAt (d : Disk) (l : Location) : Option (ByteArray × Nat) :=
  match d.look l with
  | some (.file content mode) => some (content, mode)
  | _ => none

theorem fileAt_eq_of_look_eq {d e : Disk} {l : Location} (h : e.look l = d.look l) :
    e.fileAt l = d.fileAt l := by
  rw [fileAt, h]
  rfl

theorem Grows.fileAt_eq {d e : Disk} (h : Grows d e) (l : Location) :
    e.fileAt l = d.fileAt l := by
  rcases h l with hsame | ⟨hnone, hnew⟩
  · exact fileAt_eq_of_look_eq hsame
  · rw [fileAt, fileAt, hnone, hnew]

end Disk

namespace Conversion

variable {t : Target}

/-- A conversion leaves every file alone but the one at its output path. -/
theorem fileAt_convert (ht : t.IsRegular) (root : String) (disk : Disk) (d : Declaration)
    {l : Location} (h : l ≠ disk.spelled (t.outputPath root d)) :
    (convert t root disk d).disk.fileAt l = disk.fileAt l := by
  have hends := convert_ends t root disk d
  generalize (convert t root disk d).value = value at hends
  generalize (convert t root disk d).disk = after at hends ⊢
  have hgrows := Disk.makeDirs_grows disk (Path.parent (t.outputPath root d))
  cases hends with
  | skipped _ => rfl
  | unrendered _ _ => rfl
  | unplaced _ _ hplace =>
    rw [placed_of_place hplace]
    exact hgrows.fileAt_eq l
  | unstored _ _ hplace hstore =>
    rw [store_eq_self_of_error hstore, placed_of_place hplace]
    exact hgrows.fileAt_eq l
  | @written b placed stored _ hgen hplace hstore =>
    have hplaced : placed.fileAt l = disk.fileAt l := by
      rw [placed_of_place hplace]
      exact hgrows.fileAt_eq l
    obtain ⟨text, htext⟩ := ht.complete d b (render_of_generate hgen)
    rw [store_eq htext, Prod.mk.injEq] at hstore
    obtain ⟨hdone, rfl⟩ := hstore
    rw [← hplaced]
    rcases placed.replace_cases (t.outputPath root d) text.toUTF8 with
      ⟨fault, hfault, -⟩ | ⟨mode, -, hset⟩
    · rw [Disk.replace_eq_self_of_error hfault]
    · apply Disk.fileAt_eq_of_look_eq
      rw [hset.look, spelled_of_place hplace, if_neg h]

end Conversion

/-! ### Output paths -/

namespace Target

/-- What leads from the output root to the file of a declaration. -/
def outputParts (t : Target) (d : Declaration) : List String :=
  d.package ++ [t.typeName d ++ "." ++ t.extension]

theorem outputPath_eq_joinAll (t : Target) (root : String) (d : Declaration) :
    t.outputPath root d = Path.joinAll root (t.outputParts d) := by
  rw [outputParts, Path.joinAll, List.foldl_append]
  rfl

/-- The last step is the name of the file. -/
theorem IsRegular.last_outputParts {t : Target} (ht : t.IsRegular) (d : Declaration)
    (h : ∀ part ∈ t.outputParts d, Path.isAbsolute part = false) :
    ∃ init last, (t.outputParts d).flatMap Path.steps = init ++ [last] ∧
      Disk.isDots last = false := by
  have hnamed := ht.named "" d
  have hne : Path.lastName (t.outputPath "" d) ≠ "" := by
    intro hempty
    rw [hempty] at hnamed
    cases hnamed
  have hsteps := Path.steps_joinAll h ""
  rw [← t.outputPath_eq_joinAll "" d, show Path.steps "" = [] by decide +kernel,
    List.nil_append, Path.steps_eq] at hsteps
  refine ⟨Path.steps (Path.parent (t.outputPath "" d)), _, ?_, hnamed⟩
  simpa [hne] using hsteps.symm

end Target

namespace Conversion

/-- The output path of a declaration is below every output root if and only if the parts of
its package and its file name lead down.  A conversion changes no file but the one there, so
then it changes none outside of the root. -/
theorem output_below_iff (n : CSharp.Naming) (d : Declaration) :
    ((∀ root, root ≠ "" → Path.Below ((CSharp.target n).outputPath root d) root) ↔
      Path.LeadsDown ((CSharp.target n).outputParts d)) ∧
    ∀ root disk l, (convert (CSharp.target n) root disk d).disk.fileAt l ≠ disk.fileAt l →
      l = disk.spelled ((CSharp.target n).outputPath root d) ∧
        (Path.Below ((CSharp.target n).outputPath root d) root →
          OnWay (disk.spelled root) l ∧ disk.spelled root ≠ l) := by
  have ht := CSharp.target_isRegular n
  constructor
  · simp only [Target.outputPath_eq_joinAll]
    exact Path.forall_below_iff (ht.last_outputParts d)
  · intro root disk l hchanged
    have hplace : l = disk.spelled ((CSharp.target n).outputPath root d) := by
      by_contra hother
      exact hchanged (fileAt_convert ht root disk d hother)
    refine ⟨hplace, fun hbelow => ?_⟩
    rw [hplace]
    exact hbelow.spelled disk

/-- A class in a package that goes up and down again. -/
def windingClass : Declaration := { name := "A", package := ["a/..", "b"] }

/-- Its file is below the root all the same. -/
theorem windingClass_below :
    Path.Below ((CSharp.target {}).outputPath "o" windingClass) "o" ∧
      (convert (CSharp.target {}) "o" {} windingClass).disk.fileAt #["o", "b", "A.cs"] ≠
        Disk.fileAt {} #["o", "b", "A.cs"] ∧
      OnWay (Disk.spelled {} "o") #["o", "b", "A.cs"] := by
  have hdown : Path.LeadsDown ((CSharp.target {}).outputParts windingClass) := by decide +kernel
  have hbelow := (output_below_iff {} windingClass).1.mpr hdown "o" (by decide)
  have hchanged : (convert (CSharp.target {}) "o" {} windingClass).disk.fileAt #["o", "b", "A.cs"] ≠
      Disk.fileAt {} #["o", "b", "A.cs"] := by decide +kernel
  have hfile := (output_below_iff {} windingClass).2 "o" {} _ hchanged
  exact ⟨hbelow, hchanged, (hfile.2 hbelow).1⟩

/-- A document with types that go up by their package or name, and types that start from the
top of the disk. -/
def escapingDocument : Json :=
  .obj [("types", .arr [
    .obj [("name", .str "A"), ("package", .arr [.str ".."])],
    .obj [("name", .str "../B")],
    .obj [("name", .str "C"), ("package", .str "p./q")],
    .obj [("name", .str "/D")]])]

/-- The declarations in it. -/
def escapingBatch : List Declaration :=
  [{ name := "A", package := [".."] }, { name := "../B" }, { name := "C", package := ["p", "/q"] },
    { name := "/D" }]

/-- The document is loaded, and no file of its types is below the output root; the first is
`out/../A.cs`, and it is written beside the root. -/
theorem escaping_not_below :
    Document.load escapingDocument = .ok escapingBatch ∧
      (∀ d ∈ escapingBatch, ¬ Path.Below ((CSharp.target {}).outputPath "out" d) "out") ∧
      escapingBatch.map ((CSharp.target {}).outputPath "out") =
        ["out/../A.cs", "out/../B.cs", "/q/C.cs", "/D.cs"] ∧
      ∀ d ∈ escapingBatch.head?,
        ((convert (CSharp.target {}) "out" {} d).disk.fileAt #["A.cs"]).isSome = true := by
  refine ⟨by rfl, by decide +kernel, by decide +kernel, by decide +kernel⟩

end Conversion

end SharpEmit
