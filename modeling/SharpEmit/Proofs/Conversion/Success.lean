/-
SharpEmit/Proofs/Conversion/Success.lean

When a conversion writes its file.  A type that is not skipped and can be rendered is written
if its directory is made and the file there is replaced (`value_eq_written_iff`).  The rest is
about the output path: its directory has a name unless the root is empty and there is no
package (`parent_outputPath_eq_empty_iff`).

Main result: what must hold of the root and of the disk for the file to be written, where
permissions and lengths are not in the way (`written_iff_unobstructed`).  An empty root is one
that must not be without a package: `convert_here_refused`.
-/
import SharpEmit.Proofs.CSharp.MethodNames
import SharpEmit.Proofs.Conversion.Confinement
import SharpEmit.Proofs.Storage.Success

namespace SharpEmit

/-! ### Slashes in output paths -/

namespace Path

variable {base path : String} {parts : List String} {c : Char}

theorem dropSlashes_eq_nil_iff (cs : List Char) : dropSlashes cs = [] ↔ cs = [] := by
  rcases dropSlashes_cases cs with ⟨k, -, h⟩ | ⟨as, c, k, -, hcs, h⟩
  · rw [h]
  · rw [h, hcs]
    simp

/-- A path names no directory if and only if it is a single name. -/
theorem parent_eq_empty_iff (path : String) : parent path = "" ↔ '/' ∉ path.toList := by
  have hparent : parent path = "" ↔ (splitLast path.toList).1 = [] := by
    rw [← dropSlashes_eq_nil_iff, parent, ← String.toList_inj, String.toList_ofList]
    rfl
  have hmem : '/' ∈ path.toList ↔ '/' ∈ (splitLast path.toList).1 := by
    conv_lhs => rw [← splitLast_append path.toList, List.mem_append]
    simp [slash_not_mem_splitLast]
  rw [hparent, hmem]
  rcases splitLast_fst path.toList with h | ⟨as, h⟩ <;> simp [h]

theorem isAbsolute_of_slash (h : '/' ∉ path.toList) : isAbsolute path = false := by
  rw [isAbsolute, decide_eq_false_iff_not]
  exact fun hhead => h (List.mem_of_head? hhead)

theorem slash_mem_join_iff (h : '/' ∉ path.toList) :
    '/' ∈ (join base path).toList ↔ base ≠ "" := by
  unfold join
  rw [if_neg (by simp [isAbsolute_of_slash h])]
  by_cases hbase : base = ""
  · subst hbase
    simpa using h
  · split
    · rename_i hend
      have hslash := List.mem_of_getLast? (hend.resolve_left hbase)
      simp [hbase, hslash]
    · simp [hbase]

/-- Other characters than slashes come from what is joined. -/
theorem mem_join_iff (hc : c ≠ '/') (h : isAbsolute path = false) :
    c ∈ (join base path).toList ↔ c ∈ base.toList ∨ c ∈ path.toList := by
  unfold join
  rw [if_neg (by simp [h])]
  split <;> simp [hc]

theorem mem_joinAll_iff (hc : c ≠ '/') (h : ∀ part ∈ parts, isAbsolute part = false)
    (base : String) :
    c ∈ (joinAll base parts).toList ↔ c ∈ base.toList ∨ ∃ part ∈ parts, c ∈ part.toList := by
  induction parts generalizing base with
  | nil => simp [joinAll]
  | cons part parts ih =>
    have hrest := ih (fun p hp => h p (List.mem_cons_of_mem part hp)) (join base part)
    rw [mem_join_iff hc (h part List.mem_cons_self), or_assoc] at hrest
    rw [List.exists_mem_cons_iff]
    exact hrest

theorem joinAll_eq_empty_iff (h : ∀ part ∈ parts, part ≠ "") (base : String) :
    joinAll base parts = "" ↔ base = "" ∧ parts = [] := by
  induction parts generalizing base with
  | nil => simp [joinAll]
  | cons part parts ih =>
    have hrest := ih (fun p hp => h p (List.mem_cons_of_mem part hp)) (join base part)
    have hne : join base part ≠ "" := by
      obtain ⟨cs, hcs⟩ := toList_join base part
      intro hempty
      rw [hempty] at hcs
      have hnone : cs = [] ∧ part = "" := by simpa using hcs
      exact h part List.mem_cons_self hnone.2
    have hstep : joinAll base (part :: parts) = joinAll (join base part) parts := rfl
    rw [hstep]
    simpa [hne] using hrest

/-- A text that can stand in a path as the name of something. -/
structure IsName (part : String) : Prop where
  named : Disk.isDots part = false
  single : '/' ∉ part.toList
  nonNull : '\x00' ∉ part.toList

theorem isName_iff (part : String) :
    IsName part ↔
      Disk.isDots part = false ∧ '/' ∉ part.toList ∧ '\x00' ∉ part.toList :=
  ⟨fun h => ⟨h.named, h.single, h.nonNull⟩, fun h => ⟨h.1, h.2.1, h.2.2⟩⟩

instance (part : String) : Decidable (IsName part) := decidable_of_iff _ (isName_iff part).symm

theorem IsName.ne_empty {part : String} (h : IsName part) : part ≠ "" := by
  rintro rfl
  cases h.named

theorem IsName.steps_eq {part : String} (h : IsName part) : steps part = [part] := by
  have hne : part.toList ≠ [] := by simpa using h.ne_empty
  rw [steps_eq_pieces, pieces, List.splitOn_eq_singleton h.single]
  simp [hne]

end Path

/-! ### The directory of an output path -/

/-- A file can be named after the declaration, in directories named after its package.  Even a
name that is all dots is the name of a file with its ending. -/
structure Declaration.NamesFile (d : Declaration) : Prop where
  single : '/' ∉ d.name.toList
  nonNull : '\x00' ∉ d.name.toList
  package : ∀ part ∈ d.package, Path.IsName part

namespace CSharp

variable {d : Declaration}

theorem isName_fileName {name : String} (hsingle : '/' ∉ name.toList)
    (hnonNull : '\x00' ∉ name.toList) : Path.IsName (identifier name ++ "." ++ "cs") := by
  have hmem : ∀ c ∈ (identifier name ++ "." ++ "cs").toList,
      c ∈ (identifier name).toList ∨ c ∈ ['.', 'c', 's'] := by
    intro c hc
    simpa [or_assoc] using hc
  refine ⟨?_, fun hslash => ?_, fun hnull => ?_⟩
  · -- a name that ends in a letter is none of the names without one
    have hletter : (identifier name ++ "." ++ "cs").toList.getLast? = some 's' := by simp
    by_contra hdots
    simp only [Disk.isDots, Bool.not_eq_false, Bool.or_eq_true, decide_eq_true_eq] at hdots
    rcases hdots with (hdots | hdots) | hdots <;> rw [hdots] at hletter <;> simp at hletter
  · rcases hmem _ hslash with hslash | hslash
    · exact hsingle (mem_identifier (by decide) hslash)
    · exact absurd hslash (by decide)
  · rcases hmem _ hnull with hnull | hnull
    · exact hnonNull (mem_identifier (by decide) hnull)
    · exact absurd hnull (by decide)

/-- The parts of an output path are names. -/
theorem isName_outputParts (n : Naming) (h : d.NamesFile) :
    ∀ part ∈ (target n).outputParts d, Path.IsName part := by
  intro part hpart
  rw [Target.outputParts, List.mem_append, List.mem_singleton] at hpart
  rcases hpart with hpart | rfl
  · exact h.package part hpart
  · exact isName_fileName h.single h.nonNull

/-- An output path is a single name if the root is empty and there is no package. -/
theorem parent_outputPath_eq_empty_iff (n : Naming) (root : String)
    (h : d.NamesFile) :
    Path.parent ((target n).outputPath root d) = "" ↔ root = "" ∧ d.package = [] := by
  have hfile := isName_outputParts n h _ (List.mem_append_right _ (List.mem_singleton.mpr rfl))
  have hpackage : ∀ part ∈ d.package, part ≠ "" :=
    fun part hpart => (h.package part hpart).ne_empty
  rw [Path.parent_eq_empty_iff, Target.outputPath, Path.slash_mem_join_iff hfile.single, not_not,
    Path.joinAll_eq_empty_iff hpackage]

theorem null_mem_outputPath_iff (n : Naming) (root : String)
    (h : d.NamesFile) :
    '\x00' ∈ ((target n).outputPath root d).toList ↔ '\x00' ∈ root.toList := by
  have hparts := isName_outputParts n h
  rw [Target.outputPath_eq_joinAll, Path.mem_joinAll_iff (by decide)
    fun part hpart => Path.isAbsolute_of_slash (hparts part hpart).single]
  refine or_iff_left ?_
  rintro ⟨part, hpart, hnull⟩
  exact (hparts part hpart).nonNull hnull

theorem isPlain_outputPath (n : Naming) {root : String}
    (h : d.NamesFile) (hroot : Path.IsPlain root) :
    Path.IsPlain ((target n).outputPath root d) := by
  have hparts := isName_outputParts n h
  rw [Path.IsPlain, Target.outputPath_eq_joinAll, Path.steps_joinAll
    (fun part hpart => Path.isAbsolute_of_slash (hparts part hpart).single), List.mem_append]
  rintro (hup | hup)
  · exact hroot hup
  · obtain ⟨part, hpart, hup⟩ := List.mem_flatMap.mp hup
    rw [(hparts part hpart).steps_eq, List.mem_singleton] at hup
    have hnamed := (hparts part hpart).named
    rw [← hup] at hnamed
    cases hnamed

end CSharp

/-! ### Conversions that write -/

namespace Conversion

variable {t : Target} {root : String} {disk : Disk} {d : Declaration} {b : LineBuffer}

theorem stepOutcome_eq_ok_iff {cause : Refusal → Cause} {r : Except PathFault Unit} :
    stepOutcome d cause r = .ok () ↔ r = .ok () := by
  cases r with
  | ok u => simp [stepOutcome]
  | error fault => cases fault <;> simp [stepOutcome]

/-- A type that is not skipped and can be rendered is written if its directory is made and the
file there is replaced. -/
theorem value_eq_written_iff (hskip : skipReason disk d (t.outputPath root d) = none)
    (hgen : generate t d = .ok b) {text : String} (htext : b.complete = .ok text) :
    (convert t root disk d).value = .ok ⟨d.name, t.outputPath root d, none⟩ ↔
      (disk.makeDirs (Path.parent (t.outputPath root d))).1 = .ok () ∧
      ((disk.makeDirs (Path.parent (t.outputPath root d))).2.replace
        (t.outputPath root d) text.toUTF8).1 = .ok () := by
  have hmade : (place disk d (t.outputPath root d)).1 = .ok () ↔
      (disk.makeDirs (Path.parent (t.outputPath root d))).1 = .ok () := by
    rw [place_eq, stepOutcome_eq_ok_iff]
  have hstored : ∀ placed : Disk, (store placed d (t.outputPath root d) b).1 = .ok () ↔
      (placed.replace (t.outputPath root d) text.toUTF8).1 = .ok () := by
    intro placed
    rw [store_eq htext, stepOutcome_eq_ok_iff]
  have hplaced : (disk.makeDirs (Path.parent (t.outputPath root d))).2 =
      (place disk d (t.outputPath root d)).2 := by
    rw [place_eq]
  rw [← hmade, hplaced, ← hstored]
  cases hplace : (place disk d (t.outputPath root d)).1 with
  | error abort => simp [(convert_of_place_error hskip hgen hplace).1]
  | ok u =>
    rw [(convert_of_place_ok hskip hgen hplace).1]
    cases (store (place disk d (t.outputPath root d)).2 d (t.outputPath root d) b).1 <;>
      simp [Except.map]

section Obstacles

variable {path : String} {content : ByteArray}

/-- When a file was written, everything above it is a directory. -/
theorem unobstructed_of_replace (htree : disk.IsTree)
    (h : ((disk.makeDirs (Path.parent path)).2.replace path content).1 = .ok ()) :
    (∀ p, Path.Above path p →
      ¬ disk.HoldsFile (disk.spelled p) ∧ disk.spelled p ≠ disk.spelled path) ∧
    ¬ disk.HoldsDir (disk.spelled path) := by
  obtain ⟨hext, htree'⟩ := disk.makeDirs_extends htree (Path.parent path)
  have hgrows := disk.makeDirs_grows (Path.parent path)
  obtain ⟨-, ⟨c, hc⟩, hleaf⟩ := Disk.reach_of_replace htree' h
  rw [hext.spelled_eq] at hleaf
  refine ⟨fun p hp => ?_, fun hdir => hleaf (hext.keepsDirs.holdsDir hdir)⟩
  have hdir := htree'.holdsDir_of_reach (Disk.reach_of_above hp hc)
  rw [hext.spelled_eq] at hdir
  refine ⟨fun hfile => ?_, fun heq => hleaf (heq ▸ hdir)⟩
  exact hdir.not_holdsFile ((hgrows.holdsFile_iff _).mpr hfile)

/-- Where nothing is in the way, the directories of a path are made, and then its file is
written. -/
theorem replace_of_unobstructed (htree : disk.IsTree) (hunlimited : disk.Unlimited path)
    (hnull : '\x00' ∉ path.toList) (hparent : Path.parent path ≠ "")
    (hname : Disk.isDots (Path.lastName path) = false)
    (habove : ∀ p, Path.Above path p →
      ¬ disk.HoldsFile (disk.spelled p) ∧ disk.spelled p ≠ disk.spelled path)
    (hleaf : ¬ disk.HoldsDir (disk.spelled path)) :
    (disk.makeDirs (Path.parent path)).1 = .ok () ∧
      ((disk.makeDirs (Path.parent path)).2.replace path content).1 = .ok () := by
  obtain ⟨hext, htree'⟩ := disk.makeDirs_extends htree (Path.parent path)
  have hgrows := disk.makeDirs_grows (Path.parent path)
  have hfits : Disk.Fits (Path.parent path) :=
    ⟨Path.null_not_mem_parent hnull, hparent,
      Nat.lt_of_le_of_lt (Path.utf8ByteSize_parent_le path) hunlimited.length⟩
  obtain ⟨hok, hreach⟩ := Disk.makeDirs_reach htree hunlimited.opened (Path.isClean_parent path)
    hfits hunlimited.step_parent_le (by
      rintro p (rfl | hp)
      · exact (habove _ .parent).1
      · exact (habove p hp.of_parent).1)
  have hunlimited' := hunlimited.of_grows hgrows hext.here hext.umask
  refine ⟨hok, (Disk.replace_ok_iff htree' hunlimited' hnull hname).mpr
    ⟨⟨_, hreach⟩, fun hdir => ?_⟩⟩
  rw [hext.spelled_eq] at hdir
  -- a directory in the place of the file would have been made for a path above it
  by_cases hsame : (disk.makeDirs (Path.parent path)).2.look (disk.spelled path) =
      disk.look (disk.spelled path)
  · rw [Disk.HoldsDir, hsame] at hdir
    exact hleaf hdir
  · obtain ⟨p, hp, -, heq⟩ := Disk.makeDirs_new hsame
    exact (habove p hp).2 heq.symm

end Obstacles

/-- Where permissions and lengths are not in the way, a type that is not skipped and can be
rendered is written if and only if its root holds no null character and is not empty without a
package, no file is at a path above the output path, none of these comes back to it, and no
directory is in its place.  Below a root that never goes back up none does. -/
theorem written_iff_unobstructed (n : CSharp.Naming) (root : String) (disk : Disk)
    (d : Declaration) (htree : disk.IsTree)
    (hunlimited : disk.Unlimited ((CSharp.target n).outputPath root d))
    (hskip : skipReason disk d ((CSharp.target n).outputPath root d) = none)
    (hrenders : (generate (CSharp.target n) d).isOk = true)
    (hnames : d.NamesFile) :
    ((convert (CSharp.target n) root disk d).value =
        .ok ⟨d.name, (CSharp.target n).outputPath root d, none⟩ ↔
      '\x00' ∉ root.toList ∧ (root = "" → d.package ≠ []) ∧
      (∀ p, Path.Above ((CSharp.target n).outputPath root d) p →
        ¬ disk.HoldsFile (disk.spelled p) ∧
          disk.spelled p ≠ disk.spelled ((CSharp.target n).outputPath root d)) ∧
      ¬ disk.HoldsDir (disk.spelled ((CSharp.target n).outputPath root d))) ∧
    (Path.IsPlain root → ∀ p, Path.Above ((CSharp.target n).outputPath root d) p →
      disk.spelled p ≠ disk.spelled ((CSharp.target n).outputPath root d)) := by
  have ht := CSharp.target_isRegular n
  have hnull := CSharp.null_mem_outputPath_iff n root hnames
  have hparent := CSharp.parent_outputPath_eq_empty_iff n root hnames
  obtain ⟨b, hgen⟩ : ∃ b, generate (CSharp.target n) d = .ok b := by
    cases hgen : generate (CSharp.target n) d with
    | error failure =>
      rw [hgen] at hrenders
      cases hrenders
    | ok b => exact ⟨b, rfl⟩
  obtain ⟨text, htext⟩ := ht.complete d b (render_of_generate hgen)
  refine ⟨?_, fun hroot p hp =>
    Disk.spelled_ne_of_above (CSharp.isPlain_outputPath n hnames hroot) (ht.named root d) hp⟩
  rw [value_eq_written_iff hskip hgen htext, ← hnull]
  constructor
  · rintro ⟨hmade, hreplace⟩
    obtain ⟨habove, hleaf⟩ := unobstructed_of_replace htree hreplace
    have hfits := (Disk.reach_of_replace (disk.makeDirs_extends htree _).2 hreplace).1
    refine ⟨hfits.1, fun hroot hpackage => ?_, habove, hleaf⟩
    rw [hparent.mpr ⟨hroot, hpackage⟩, Disk.makeDirs_empty] at hmade
    cases hmade
  · rintro ⟨hnonNull, hnonEmpty, habove, hleaf⟩
    refine replace_of_unobstructed htree hunlimited hnonNull (fun hempty => ?_) (ht.named root d)
      habove hleaf
    obtain ⟨hroot, hpackage⟩ := hparent.mp hempty
    exact hnonEmpty hroot hpackage

/-- A disk with two directories, in the second one a file. -/
def twoDirectories : Disk :=
  { entries := [(#["o"], .directory 0o700), (#["r"], .directory 0o755),
      (#["r", "A.cs"], .file "old".toUTF8 0o644)] }

/-- A root that goes through one directory into the other, and a name that is all dots. -/
theorem written_through_directories :
    (convert (CSharp.target {}) "o/../r/" twoDirectories { name := "..", package := ["p"] }).value =
      .ok ⟨"..", "o/../r/p/...cs", none⟩ ∧
    ∀ p, Path.Above "o/../r/p/...cs" p → ¬ twoDirectories.HoldsFile (twoDirectories.spelled p) := by
  have hpath : (CSharp.target {}).outputPath "o/../r/" { name := "..", package := ["p"] } =
      "o/../r/p/...cs" := by decide +kernel
  have hwritten : (convert (CSharp.target {}) "o/../r/" twoDirectories
      { name := "..", package := ["p"] }).value = .ok ⟨"..", "o/../r/p/...cs", none⟩ := by
    decide +kernel
  have hunlimited : twoDirectories.Unlimited "o/../r/p/...cs" :=
    ⟨by decide +kernel, by decide +kernel, by decide +kernel, by decide +kernel⟩
  have hiff := (written_iff_unobstructed {} "o/../r/" twoDirectories
    { name := "..", package := ["p"] } (by decide +kernel) (by rw [hpath]; exact hunlimited)
    (by decide +kernel) (by decide +kernel)
    ⟨by decide +kernel, by decide +kernel, by decide +kernel⟩).1
  rw [hpath] at hiff
  exact ⟨hwritten, fun p hp => ((hiff.mp hwritten).2.2.1 p hp).1⟩

/-- A type without a package is refused where the root is empty, although nothing is in the way
on an empty disk; where the root is a dot it is written. -/
theorem convert_here_refused :
    (({} : Disk).IsTree ∧ ({} : Disk).Unlimited "A.cs") ∧
    (CSharp.target {}).outputPath "" { name := "A" } = "A.cs" ∧
    (∀ p, Path.Above "A.cs" p → ¬ ({} : Disk).HoldsFile (({} : Disk).spelled p)) ∧
    ¬ ({} : Disk).HoldsDir (({} : Disk).spelled "A.cs") ∧
    (convert (CSharp.target {}) "" {} { name := "A" }).value =
      .error (.failed ⟨"A", .uncreated "" .noEntry⟩) ∧
    (convert (CSharp.target {}) "." {} { name := "A" }).value = .ok ⟨"A", "./A.cs", none⟩ := by
  refine ⟨⟨by decide +kernel, by decide +kernel, by decide +kernel, by decide +kernel,
    by decide +kernel⟩, by decide +kernel, ?_, by decide +kernel, by decide +kernel,
    by decide +kernel⟩
  rintro p - ⟨content, mode, hfile⟩
  rw [Disk.look] at hfile
  split at hfile <;> cases hfile

end Conversion

end SharpEmit
