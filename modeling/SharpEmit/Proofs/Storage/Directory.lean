/-
SharpEmit/Proofs/Storage/Directory.lean

What making directories does to a disk.  However far it comes, it is a row of
single directories made where nothing was (`makeLineage_induction`); so what was
there is as it was, and all that is new is a directory (`makeDirs_grows`).
-/
import SharpEmit.Proofs.Storage.Walk

namespace SharpEmit.Disk

/-! ### Single directories -/

/-- A location other than the root that is set holds the node. -/
theorem look_set_of_ne {l : Location} (h : l ≠ #[]) (d : Disk) (m : Location) (node : Node) :
    (d.set l node).look m = if m = l then some node else d.look m := by
  by_cases hm : m = #[]
  · subst hm
    rw [if_neg (Ne.symm h)]
    rfl
  · exact look_set d l m node hm

theorem look_set_of_look_eq_none {d : Disk} {l : Location} (h : d.look l = none) (m : Location)
    (node : Node) : (d.set l node).look m = if m = l then some node else d.look m := by
  refine look_set_of_ne ?_ d m node
  rintro rfl
  cases h

/-- A new directory stands where nothing was. -/
theorem makeDir_ok {d e : Disk} {path : String} (h : d.makeDir path = .ok e) :
    ∃ l, d.locate (String.ofList (Path.dropSlashes path.toList)) = .ok l ∧ d.look l = none ∧
      d.changeable l.pop ∧ e = d.set l (.directory d.newDirMode) := by
  unfold makeDir at h
  obtain ⟨l, hl, hmade⟩ := ok_of_bind h
  cases hlook : d.look l with
  | some node => simp [hlook] at hmade
  | none =>
    simp only [hlook] at hmade
    split at hmade
    · rename_i hchange
      refine ⟨l, hl, hlook, hchange, ?_⟩
      cases hmade
      rfl
    · cases hmade

/-- Makes a directory at a location, unless one is there. -/
def makeAt (d : Disk) (l : Location) : Except PathFault Unit × Disk :=
  match d.look l with
  | some (.directory _) => (.ok (), d)
  | some (.file _ _) => (.error (.refused .fileExists), d)
  | none =>
    if d.changeable l.pop then (.ok (), d.set l (.directory d.newDirMode))
    else (.error (.refused .notPermitted), d)

/-- On a clean path a directory is made where the path leads. -/
theorem ensureDir_eq {path : String} (h : Path.IsClean path) (d : Disk) :
    d.ensureDir path =
      match d.locate path with
      | .error fault => (.error fault, d)
      | .ok l => d.makeAt l := by
  unfold ensureDir makeDir isDirectory
  rw [h.ofList_dropSlashes]
  cases hl : d.locate path with
  | error fault =>
    rw [stat_of_locate_error hl]
    cases fault <;> rfl
  | ok l =>
    rw [stat_of_locate_ok hl]
    simp only [makeAt, bind, Except.bind]
    cases hlook : d.look l with
    | none => by_cases hc : d.changeable l.pop <;> simp [hc, pure, Except.pure]
    | some node => cases node <;> rfl

/-! ### Rows of directories -/

/-- The outcomes after which the directories below are tried: a file in the place of
a directory shows only then. -/
def Passes (r : Except PathFault Unit) : Prop := r = .ok () ∨ r = .error (.refused .fileExists)

/-- On a clean path the directory above is made first, if it is not there. -/
theorem makeDirs_eq {path : String} (h : Path.IsClean path) (d : Disk) :
    (Path.lastName path = "" ∨ Path.parent path = "" ∨ d.holds (Path.parent path) = true) ∧
        d.makeDirs path = d.ensureDir path ∨
      (Path.lastName path ≠ "" ∧ Path.parent path ≠ "" ∧ d.holds (Path.parent path) = false) ∧
        (Passes (d.makeDirs (Path.parent path)).1 ∧
            d.makeDirs path = (d.makeDirs (Path.parent path)).2.ensureLast path ∨
          ¬ Passes (d.makeDirs (Path.parent path)).1 ∧
            d.makeDirs path = d.makeDirs (Path.parent path)) := by
  have hhead : (Path.lineage (Path.parent path)).head? = some (Path.parent path) := by
    rw [(Path.isClean_parent path).lineage_eq]
    split <;> rfl
  unfold makeDirs
  rw [h.lineage_eq]
  split
  · rename_i hnone
    exact .inl ⟨hnone.elim .inl (.inr ∘ .inl), rfl⟩
  · rename_i hsome
    rw [not_or] at hsome
    -- the lineage goes on to the path above, whose own lineage is the rest
    rw [makeLineage, hhead]
    dsimp only
    split
    · rename_i hholds
      exact .inl ⟨.inr (.inr hholds), rfl⟩
    · rename_i hholds
      refine .inr ⟨⟨hsome.1, hsome.2, by simpa using hholds⟩, ?_⟩
      split
      · rename_i e he
        rw [he]
        exact .inl ⟨.inl rfl, rfl⟩
      · rename_i e he
        rw [he]
        exact .inl ⟨.inr rfl, rfl⟩
      · rename_i fault e hfault he
        rw [he]
        refine .inr ⟨?_, rfl⟩
        rintro (hr | hr)
        · cases hr
        · cases hr
          exact hfault rfl

theorem null_of_ensureDir {d : Disk} {path : String} (hclean : Path.IsClean path)
    (h : (d.ensureDir path).1 = .error .nullCharacter) : '\x00' ∈ path.toList := by
  rw [ensureDir_eq hclean] at h
  cases hl : d.locate path with
  | error fault =>
    rw [hl] at h
    cases h
    exact null_of_locate hl
  | ok l =>
    rw [hl] at h
    unfold makeAt at h
    grind

/-- Only a null character in the path is said to be one. -/
theorem null_of_makeDirs {d : Disk} {path : String} (hclean : Path.IsClean path)
    (h : (d.makeDirs path).1 = .error .nullCharacter) : '\x00' ∈ path.toList := by
  induction path, hclean using Path.IsClean.induction with
  | single path hclean hnone =>
    rcases makeDirs_eq hclean d with ⟨-, heq⟩ | ⟨⟨hlast, hparent, -⟩, -⟩
    · rw [heq] at h
      exact null_of_ensureDir hclean h
    · exact absurd hnone (by simp [hlast, hparent])
  | below path hclean hlast hparent ih =>
    rcases makeDirs_eq hclean d with ⟨-, heq⟩ | ⟨-, ⟨-, heq⟩ | ⟨-, heq⟩⟩
    · rw [heq] at h
      exact null_of_ensureDir hclean h
    · rw [heq] at h
      unfold ensureLast at h
      split at h
      · cases h
      · exact null_of_ensureDir hclean h
    · rw [heq] at h
      exact (Path.prefix_toList_parent path).subset (ih h)

section Induction

variable {R : Disk → Disk → Prop} {ps : List String}

theorem ensureDir_induction (refl : ∀ d, R d d) {path : String}
    (step : ∀ d e, d.makeDir path = .ok e → R d e) (d : Disk) : R d (d.ensureDir path).2 := by
  unfold ensureDir
  split
  · rename_i e h
    exact step d e h
  · exact refl d
  · split <;> exact refl d

theorem ensureLast_induction (refl : ∀ d, R d d) {path : String}
    (step : ∀ d e, d.makeDir path = .ok e → R d e) (d : Disk) : R d (d.ensureLast path).2 := by
  unfold ensureLast
  split
  · exact refl d
  · exact ensureDir_induction refl step d

/-- What holds of every single directory made, holds of a row of them. -/
theorem makeLineage_induction (refl : ∀ d, R d d) (trans : ∀ d e f, R d e → R e f → R d f)
    (step : ∀ d e path, path ∈ ps → d.makeDir path = .ok e → R d e) (d : Disk) :
    R d (d.makeLineage ps).2 := by
  induction ps generalizing d with
  | nil => exact refl d
  | cons path rest ih =>
    have hdir := ensureDir_induction refl fun d e => step d e path List.mem_cons_self
    have hlast := ensureLast_induction refl fun d e => step d e path List.mem_cons_self
    have hrest := ih (fun d e p hp => step d e p (List.mem_cons_of_mem path hp)) d
    unfold makeLineage
    split
    · exact hdir d
    · split
      · exact hdir d
      · split
        · rename_i e he
          rw [he] at hrest
          exact trans d e _ hrest (hlast e)
        · rename_i e he
          rw [he] at hrest
          exact trans d e _ hrest (hlast e)
        · rename_i e _ he
          rw [he] at hrest
          exact hrest

end Induction

/-! ### What was there stays -/

/-- The disk is another one with new directories. -/
def Grows (d e : Disk) : Prop :=
  ∀ l, e.look l = d.look l ∨ d.look l = none ∧ e.look l = some (.directory d.newDirMode)

theorem Grows.refl (d : Disk) : Grows d d := fun _ => .inl rfl

theorem newDirMode_of_umask {d e : Disk} (h : e.umask = d.umask) : e.newDirMode = d.newDirMode := by
  rw [newDirMode, h, newDirMode]

/-- What a new directory permits. -/
def permitsNew (d : Disk) (a : Access) : Bool := (Node.directory d.newDirMode).permits a

theorem permitsNew_of_umask {d e : Disk} (h : e.umask = d.umask) (a : Access) :
    e.permitsNew a = d.permitsNew a := by
  rw [permitsNew, newDirMode_of_umask h, permitsNew]

theorem newFileMode_of_umask {d e : Disk} (h : e.umask = d.umask) :
    e.newFileMode = d.newFileMode := by
  rw [newFileMode, h, newFileMode]

theorem Grows.trans {d e f : Disk} (h : Grows d e) (h' : Grows e f) (humask : e.umask = d.umask) :
    Grows d f := by
  intro l
  rcases h l with he | ⟨hd, he⟩
  · rw [← he, ← newDirMode_of_umask humask]
    exact h' l
  · rcases h' l with hf | ⟨hnone, -⟩
    · exact .inr ⟨hd, hf.trans he⟩
    · rw [he] at hnone
      cases hnone

/-- No file comes or goes, or changes. -/
theorem Grows.look_eq_file_iff {d e : Disk} (h : Grows d e) (l : Location) (content : ByteArray)
    (mode : Nat) : e.look l = some (.file content mode) ↔ d.look l = some (.file content mode) := by
  rcases h l with he | ⟨hd, he⟩
  · rw [he]
  · simp [hd, he]

theorem makeDir_grows {d e : Disk} {path : String} (h : d.makeDir path = .ok e) : Grows d e := by
  obtain ⟨l, -, hnone, -, rfl⟩ := makeDir_ok h
  intro m
  rw [look_set_of_look_eq_none hnone]
  split
  · rename_i hm
    exact .inr ⟨hm ▸ hnone, rfl⟩
  · exact .inl rfl

theorem ensureLast_grows (d : Disk) (path : String) : Grows d (d.ensureLast path).2 :=
  ensureLast_induction Grows.refl (fun _ _ => makeDir_grows) d

theorem makeDirs_here (d : Disk) (path : String) : (d.makeDirs path).2.here = d.here := by
  refine makeLineage_induction (R := fun d e => e.here = d.here) (fun _ => rfl)
    (fun _ _ _ h h' => h'.trans h) (fun d e p _ h => ?_) d
  obtain ⟨l, -, -, -, rfl⟩ := makeDir_ok h
  rfl

theorem makeDir_umask {d e : Disk} {path : String} (h : d.makeDir path = .ok e) :
    e.umask = d.umask := by
  obtain ⟨l, -, -, -, rfl⟩ := makeDir_ok h
  rfl

/-- Making directories adds directories and does nothing else. -/
theorem makeDirs_grows_umask (d : Disk) (path : String) :
    (d.makeDirs path).2.umask = d.umask ∧ Grows d (d.makeDirs path).2 := by
  refine makeLineage_induction (R := fun d e => e.umask = d.umask ∧ Grows d e)
    (fun d => ⟨rfl, Grows.refl d⟩) ?_ (fun _ _ _ _ h => ⟨makeDir_umask h, makeDir_grows h⟩) d
  rintro d e f ⟨humask, hgrows⟩ ⟨humask', hgrows'⟩
  exact ⟨humask'.trans humask, hgrows.trans hgrows' humask⟩

theorem makeDirs_umask (d : Disk) (path : String) : (d.makeDirs path).2.umask = d.umask :=
  (makeDirs_grows_umask d path).1

theorem makeDirs_grows (d : Disk) (path : String) : Grows d (d.makeDirs path).2 :=
  (makeDirs_grows_umask d path).2

/-! ### Where directories are made -/

theorem onWay_of_mem_lineage {path p : String} (hclean : Path.IsClean path)
    (hplain : Path.IsPlain path) (hp : p ∈ Path.lineage path) (d : Disk) :
    Path.IsClean p ∧ OnWay (d.spelled p) (d.spelled path) := by
  induction path, hclean using Path.IsClean.induction with
  | single path hclean hnone =>
    rw [hclean.lineage_eq, if_pos hnone, List.mem_singleton] at hp
    exact ⟨hp ▸ hclean, hp ▸ OnWay.refl _⟩
  | below path hclean hlast hparent ih =>
    rw [hclean.lineage_eq, if_neg (by simp [hlast, hparent]), List.mem_cons] at hp
    rcases hp with rfl | hp
    · exact ⟨hclean, OnWay.refl _⟩
    · obtain ⟨hp', hon⟩ := ih hplain.parent hp
      exact ⟨hp', hon.trans (onWay_spelled_parent hplain d)⟩

/-- Directories are made on the way of a path only. -/
theorem makeDirs_elsewhere {d : Disk} {l : Location} {path : String} (hclean : Path.IsClean path)
    (hplain : Path.IsPlain path) (hl : ¬ OnWay l (d.spelled path)) : (d.makeDirs path).2.look l = d.look l := by
  refine (makeLineage_induction
    (R := fun d e => e.here = d.here ∧ (¬ OnWay l (d.spelled path) → e.look l = d.look l))
    (fun d => ⟨rfl, fun _ => rfl⟩) ?_ ?_ d).2 hl
  · rintro d e f ⟨hhere, he⟩ ⟨hhere', hf⟩
    refine ⟨hhere'.trans hhere, fun hl => ?_⟩
    rw [hf (spelled_of_here hhere path ▸ hl), he hl]
  · intro d e p hp h
    obtain ⟨m, hm, hnone, -, rfl⟩ := makeDir_ok h
    obtain ⟨hclean', hon⟩ := onWay_of_mem_lineage hclean hplain hp d
    rw [hclean'.ofList_dropSlashes] at hm
    refine ⟨rfl, fun hl => ?_⟩
    rw [look_set_of_look_eq_none hnone, if_neg]
    rintro rfl
    rw [spelled_of_locate hm] at hon
    exact hl hon

end SharpEmit.Disk
