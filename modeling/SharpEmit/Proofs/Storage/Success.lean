/-
SharpEmit/Proofs/Storage/Success.lean

When directories are made and files replaced, on a disk where neither permissions nor lengths
are in the way (`Unlimited`).  Nothing is asked of the paths: `..` may stand anywhere in them.

A walk that comes to its end looks at directories only, so it comes to the same end wherever
they are kept (`KeepsDirs.walk_ok`).  The directories of a path are made, and can be walked
then, if no file is in the place of one of them (`makeDirs_reach`).  A file is replaced if and
only if its directory can be walked and no directory is in its place (`replace_ok_iff`).
-/
import SharpEmit.Proofs.Storage.Agreement
import SharpEmit.Proofs.Storage.Ancestry
import SharpEmit.Proofs.Storage.Replacement

namespace SharpEmit.Disk

variable {d e : Disk} {l m c : Location} {name path : String}

/-! ### Directories that are kept -/

/-- Walks start in directories and stay in directories. -/
structure StaysInside (d : Disk) : Prop where
  here : d.HoldsDir d.here
  enter : ∀ {l : Location} {name : String} {m : Location},
    d.HoldsDir l → d.enter l name = .ok m → d.HoldsDir m

theorem IsTree.staysInside (h : d.IsTree) : d.StaysInside := ⟨h.here, h.holdsDir_of_enter⟩

theorem StaysInside.holdsDir_start (h : d.StaysInside) (path : String) :
    d.HoldsDir (d.start path) := by
  unfold start
  split
  · exact holdsDir_root d
  · exact h.here

/-- The directories of a disk are on another one as well. -/
structure KeepsDirs (d e : Disk) : Prop where
  here : e.here = d.here
  dirs : ∀ l mode, d.look l = some (.directory mode) → e.look l = some (.directory mode)

namespace KeepsDirs

theorem trans {f : Disk} (h : KeepsDirs d e) (h' : KeepsDirs e f) : KeepsDirs d f :=
  ⟨h'.here.trans h.here, fun l mode hl => h'.dirs l mode (h.dirs l mode hl)⟩

theorem holdsDir (h : KeepsDirs d e) (hl : d.HoldsDir l) : e.HoldsDir l := by
  obtain ⟨mode, hmode⟩ := hl
  exact ⟨mode, h.dirs l mode hmode⟩

theorem permits_eq (h : KeepsDirs d e) (hl : d.HoldsDir l) (a : Access) :
    e.permits l a = d.permits l a := by
  obtain ⟨mode, hmode⟩ := hl
  exact permits_congr ((h.dirs l mode hmode).trans hmode.symm) a

theorem enter_ok (h : KeepsDirs d e) (hl : d.HoldsDir l) (hm : d.enter l name = .ok m) :
    e.enter l name = .ok m := by
  by_cases hempty : name = ""
  · rw [hempty, enter_empty] at hm ⊢
    exact hm
  · cases hdots : isDots name with
    | true =>
      rw [enter_dots hdots hempty] at hm ⊢
      rw [h.permits_eq hl]
      exact hm
    | false =>
      rw [enter_of_not_isDots hdots] at hm ⊢
      rw [h.permits_eq hl]
      split at hm
      · cases hm
      · rename_i hsearch
        rw [if_neg hsearch]
        split at hm
        · cases hm
        · rename_i hsize
          rw [if_neg hsize]
          split at hm <;> cases hm
          rename_i mode hmode
          rw [h.dirs _ mode hmode]

theorem child_ok (h : KeepsDirs d e) (hl : d.HoldsDir l) (hm : d.child l name = .ok m) :
    e.child l name = .ok m := by
  unfold child at hm ⊢
  rw [h.permits_eq hl]
  split at hm
  · rename_i hdots
    rw [if_pos hdots]
    exact h.enter_ok hl hm
  · rename_i hdots
    rw [if_neg hdots]
    exact hm

/-- Where no directory is new, walks stay in directories as well. -/
theorem staysInside (h : KeepsDirs d e) (h' : KeepsDirs e d) (hd : d.StaysInside) :
    e.StaysInside where
  here := h.here ▸ h.holdsDir hd.here
  enter hl hm := h.holdsDir (hd.enter (h'.holdsDir hl) (h'.enter_ok hl hm))

/-- A walk that comes to its end comes to the same end, which is a directory. -/
theorem walk_ok (h : KeepsDirs d e) (hd : d.StaysInside) (hl : d.HoldsDir l) {names : List String}
    (hm : d.walk l names = .ok m) : e.walk l names = .ok m ∧ d.HoldsDir m := by
  induction names generalizing l with
  | nil =>
    cases hm
    exact ⟨rfl, hl⟩
  | cons name names ih =>
    rw [walk_cons] at hm ⊢
    obtain ⟨c, hc, hrest⟩ := ok_of_bind hm
    rw [h.enter_ok hl hc, ok_bind]
    exact ih (hd.enter hl hc) hrest

theorem reach_ok (h : KeepsDirs d e) (hd : d.StaysInside) (hm : d.reach path = .ok m) :
    e.reach path = .ok m ∧ d.HoldsDir m := by
  rw [reach, start_of_here h.here]
  exact h.walk_ok hd (hd.holdsDir_start path) hm

theorem locate_ok (h : KeepsDirs d e) (hd : d.StaysInside) (hm : d.locate path = .ok m) :
    e.locate path = .ok m := by
  obtain ⟨c, hc, hchild⟩ := reach_parent_of_locate hm
  obtain ⟨hc', hdir⟩ := h.reach_ok hd hc
  rw [locate_of_fits (fits_of_locate hm), hc', ok_bind]
  exact h.child_ok hdir hchild

end KeepsDirs

theorem Extends.keepsDirs (h : Extends d e) : KeepsDirs d e := ⟨h.here, h.dirs⟩

theorem Grows.keepsDirs (h : Grows d e) (hhere : e.here = d.here) : KeepsDirs d e := by
  refine ⟨hhere, fun l mode hl => ?_⟩
  rcases h l with hsame | ⟨hnone, -⟩
  · rw [hsame, hl]
  · rw [hnone] at hl
    cases hl

/-- What takes the place of no directory keeps them all. -/
theorem IsSet.keepsDirs {node : Node} (h : IsSet d l node e) (hleaf : ¬ d.HoldsDir l) :
    KeepsDirs d e := by
  refine ⟨h.here, fun m mode hm => ?_⟩
  rw [h.look, if_neg, hm]
  rintro rfl
  exact hleaf ⟨mode, hm⟩

/-- A file is no new directory. -/
theorem IsSet.keepsDirs_symm {content : ByteArray} {mode : Nat}
    (h : IsSet d l (.file content mode) e) : KeepsDirs e d := by
  refine ⟨h.here.symm, fun m mode' hm => ?_⟩
  rw [h.look] at hm
  split at hm
  · cases hm
  · exact hm

/-! ### Disks without limits -/

/-- A file is at the location. -/
def HoldsFile (d : Disk) (l : Location) : Prop :=
  ∃ content mode, d.look l = some (.file content mode)

theorem HoldsDir.not_holdsFile (h : d.HoldsDir l) : ¬ d.HoldsFile l := by
  obtain ⟨mode, hmode⟩ := h
  rintro ⟨content, mode', hfile⟩
  cases hmode.symm.trans hfile

theorem holdsDir_of_not_holdsFile (h : ¬ d.HoldsFile l) (hl : d.look l ≠ none) :
    d.HoldsDir l := by
  cases hlook : d.look l with
  | none => exact absurd hlook hl
  | some node =>
    cases node with
    | directory mode => exact ⟨mode, hlook⟩
    | file content mode => exact absurd ⟨content, mode, hlook⟩ h

theorem Grows.holdsFile_iff (h : Grows d e) (l : Location) : e.HoldsFile l ↔ d.HoldsFile l := by
  simp only [HoldsFile, h.look_eq_file_iff l]

/-- Every directory may be changed, and so may those that are yet to be made. -/
structure IsOpen (d : Disk) : Prop where
  changeable : ∀ l, d.HoldsDir l → d.changeable l = true
  fresh : (d.permitsNew .write && d.permitsNew .search) = true

/-- It is enough to look at the entries. -/
theorem isOpen_iff (d : Disk) :
    d.IsOpen ↔ (∀ e ∈ d.entries, d.HoldsDir e.1 → d.changeable e.1 = true) ∧
      (d.permitsNew .write && d.permitsNew .search) = true := by
  refine ⟨fun h => ⟨fun e _ => h.changeable e.1, h.fresh⟩,
    fun ⟨h, hfresh⟩ => ⟨fun l hl => ?_, hfresh⟩⟩
  by_cases hroot : l = #[]
  · subst hroot
    rfl
  · have hlook := hl.look_ne_none
    rw [ne_eq, look_eq_none_iff hroot] at hlook
    push Not at hlook
    obtain ⟨e, he, rfl⟩ := hlook
    exact h e he hl

instance (d : Disk) : Decidable d.IsOpen := decidable_of_iff _ (isOpen_iff d).symm

theorem IsOpen.search (h : d.IsOpen) (hl : d.HoldsDir l) : d.permits l .search = true := by
  have hchange := h.changeable l hl
  rw [Disk.changeable, Bool.and_eq_true] at hchange
  exact hchange.2

theorem IsOpen.of_grows (h : d.IsOpen) (hgrows : Grows d e) (humask : e.umask = d.umask) :
    e.IsOpen := by
  refine ⟨fun l hl => ?_, ?_⟩
  · rcases hgrows l with hsame | ⟨-, hnew⟩
    · rw [changeable_congr hsame]
      refine h.changeable l ?_
      rw [HoldsDir, ← hsame]
      exact hl
    · rw [Disk.changeable, permits, permits, hnew]
      exact h.fresh
  · rw [permitsNew_of_umask humask, permitsNew_of_umask humask]
    exact h.fresh

/-- Neither permissions nor lengths are in the way of a file at a path. -/
structure Unlimited (d : Disk) (path : String) : Prop where
  opened : d.IsOpen
  names : ∀ name ∈ d.here.toList ++ Path.steps path, name.utf8ByteSize ≤ maxNameBytes
  length : path.utf8ByteSize < pathBytesLimit
  temporary : tempPathBytes (d.spelled path).pop < pathBytesLimit

namespace Unlimited

theorem of_grows (h : d.Unlimited path) (hgrows : Grows d e) (hhere : e.here = d.here)
    (humask : e.umask = d.umask) : e.Unlimited path := by
  exact ⟨h.opened.of_grows hgrows humask, hhere ▸ h.names, h.length,
    spelled_of_here hhere path ▸ h.temporary⟩

theorem step_le (h : d.Unlimited path) :
    ∀ name ∈ Path.steps path, name.utf8ByteSize ≤ maxNameBytes :=
  fun name hname => h.names name (List.mem_append_right _ hname)

theorem step_parent_le (h : d.Unlimited path) :
    ∀ name ∈ Path.steps (Path.parent path), name.utf8ByteSize ≤ maxNameBytes :=
  fun name hname => h.step_le name (Path.mem_steps_of_parent hname)

end Unlimited

theorem lastName_le (h : ∀ name ∈ Path.steps path, name.utf8ByteSize ≤ maxNameBytes) :
    (Path.lastName path).utf8ByteSize ≤ maxNameBytes := by
  by_cases hempty : Path.lastName path = ""
  · rw [hempty]
    decide
  · refine h _ ?_
    rw [Path.steps_eq]
    simp [hempty]

/-! ### Making directories -/

/-- From a directory that can be walked and searched, every name leads somewhere. -/
theorem locate_of_search (hfits : Fits path)
    (hname : (Path.lastName path).utf8ByteSize ≤ maxNameBytes)
    (hc : d.reach (Path.parent path) = .ok c) (hsearch : d.permits c .search = true) :
    d.locate path = .ok (d.spelled path) := by
  rw [locate_of_fits hfits, hc, ok_bind, d.spelled_eq path, spelled_of_reach hc, child]
  cases hdots : isDots (Path.lastName path) with
  | true =>
    rw [if_pos rfl]
    by_cases hempty : Path.lastName path = ""
    · rw [hempty, enter_empty]
      rfl
    · rw [enter_dots hdots hempty, if_neg (by simp [hsearch])]
  | false =>
    rw [if_neg (by simp), if_neg (by simp [hsearch]), if_neg (by omega),
      descend_of_not_isDots hdots]

theorem makeAt_ok (hd : d.IsTree) (ho : d.IsOpen) (hl : d.locate path = .ok l)
    (hfile : ¬ d.HoldsFile l) : (d.makeAt l).1 = .ok () ∧ (d.makeAt l).2.HoldsDir l := by
  unfold makeAt
  cases hlook : d.look l with
  | none =>
    obtain ⟨c, name, rfl, hc, -⟩ := hd.push_of_locate hl hlook
    dsimp only
    rw [Array.pop_push, if_pos (ho.changeable c hc)]
    exact ⟨rfl, d.newDirMode, by rw [look_set_of_look_eq_none hlook, if_pos rfl]⟩
  | some node =>
    cases node with
    | directory mode => exact ⟨rfl, mode, hlook⟩
    | file content mode => exact absurd ⟨content, mode, hlook⟩ hfile

/-- A directory is made below one that can be walked, if no file is in its place. -/
theorem ensureDir_reach (hd : d.IsTree) (ho : d.IsOpen) (hclean : Path.IsClean path)
    (hfits : Fits path) (hname : (Path.lastName path).utf8ByteSize ≤ maxNameBytes)
    (hc : d.reach (Path.parent path) = .ok c) (hfile : ¬ d.HoldsFile (d.spelled path)) :
    (d.ensureDir path).1 = .ok () ∧ (d.ensureDir path).2.reach path = .ok (d.spelled path) := by
  have hcdir := hd.holdsDir_of_reach hc
  have hl := locate_of_search hfits hname hc (ho.search hcdir)
  have hmade : d.ensureDir path = d.makeAt (d.spelled path) := by
    rw [ensureDir_eq hclean, hl]
  obtain ⟨hext, -⟩ := ensureDir_extends hd path
  obtain ⟨hok, hdir⟩ := makeAt_ok hd ho hl hfile
  rw [hmade] at hext ⊢
  refine ⟨hok, reach_of_locate ?_ hdir⟩
  -- the way to the directory above is as it was
  have hc' := (hext.keepsDirs.reach_ok hd.staysInside hc).1
  have hsearch := (hext.permits_eq hcdir.look_ne_none .search).trans (ho.search hcdir)
  rw [locate_of_search hfits hname hc' hsearch, hext.spelled_eq]

/-- The same of the last directory of a lineage, which is not made for a dot. -/
theorem ensureLast_reach (hd : d.IsTree) (ho : d.IsOpen) (hclean : Path.IsClean path)
    (hfits : Fits path) (hname : (Path.lastName path).utf8ByteSize ≤ maxNameBytes)
    (hc : d.reach (Path.parent path) = .ok c) (hfile : ¬ d.HoldsFile (d.spelled path)) :
    (d.ensureLast path).1 = .ok () ∧ (d.ensureLast path).2.reach path = .ok (d.spelled path) := by
  unfold ensureLast
  split
  · rename_i hdot
    refine ⟨rfl, ?_⟩
    rw [reach_eq, hc, ok_bind, d.spelled_eq path, spelled_of_reach hc, hclean.endsInDot_iff.mp hdot,
      enter_dot, if_neg (by simp [ho.search (hd.holdsDir_of_reach hc)])]
    rfl
  · exact ensureDir_reach hd ho hclean hfits hname hc hfile

/-- The directories of a path are made, and can be walked then, if no file is in the place of
one of them. -/
theorem makeDirs_reach (hd : d.IsTree) (ho : d.IsOpen) (hclean : Path.IsClean path)
    (hfits : Fits path) (hnames : ∀ name ∈ Path.steps path, name.utf8ByteSize ≤ maxNameBytes)
    (hfiles : ∀ p, p = path ∨ Path.Above path p → ¬ d.HoldsFile (d.spelled p)) :
    (d.makeDirs path).1 = .ok () ∧ (d.makeDirs path).2.reach path = .ok (d.spelled path) := by
  induction path, hclean using Path.IsClean.induction with
  | single path hclean hnone =>
    have hc : d.reach (Path.parent path) = .ok (d.start (Path.parent path)) := by
      rw [reach, hclean.steps_parent hnone, walk_nil]
    rcases makeDirs_eq hclean d with ⟨-, heq⟩ | ⟨⟨hlast, hparent, -⟩, -⟩
    · rw [heq]
      exact ensureDir_reach hd ho hclean hfits (lastName_le hnames) hc (hfiles path (.inl rfl))
    · exact absurd hnone (by simp [hlast, hparent])
  | below path hclean hlast hparent ih =>
    have hfile := hfiles path (.inl rfl)
    have habove : ∀ p, p = Path.parent path ∨ Path.Above (Path.parent path) p →
        ¬ d.HoldsFile (d.spelled p) := by
      rintro p (rfl | hp)
      · exact hfiles _ (.inr .parent)
      · exact hfiles p (.inr hp.of_parent)
    rcases makeDirs_eq hclean d with ⟨hthere, heq⟩ | ⟨-, hmade⟩
    · -- what is there above is no file, so it is a directory
      obtain ⟨l, hl, hsome⟩ := (d.holds_iff _).mp (by simpa [hlast, hparent] using hthere)
      have hdir : d.HoldsDir l := by
        obtain rfl := spelled_of_locate hl
        exact holdsDir_of_not_holdsFile (habove _ (.inl rfl)) hsome
      rw [heq]
      exact ensureDir_reach hd ho hclean hfits (lastName_le hnames) (reach_of_locate hl hdir) hfile
    · obtain ⟨hok, hc⟩ := ih (fits_parent hfits hparent)
        (fun name hname => hnames name (Path.mem_steps_of_parent hname)) habove
      obtain ⟨hext, htree⟩ := makeDirs_extends hd (Path.parent path)
      have hgrows := makeDirs_grows d (Path.parent path)
      rw [(hmade.resolve_right fun hstops => hstops.1 (.inl hok)).2, ← hext.spelled_eq path]
      refine ensureLast_reach htree (ho.of_grows hgrows hext.umask) hclean hfits
        (lastName_le hnames) hc ?_
      rw [hext.spelled_eq, hgrows.holdsFile_iff]
      exact hfile

/-- There is no directory without a name. -/
theorem makeDirs_empty (d : Disk) : (d.makeDirs "").1 = .error (.refused .noEntry) := by
  have hclean : Path.IsClean "" := rfl
  have hlocate : d.locate "" = .error (.refused .noEntry) := by simp [locate]
  rcases makeDirs_eq hclean d with ⟨-, heq⟩ | ⟨⟨hlast, -⟩, -⟩
  · rw [heq, ensureDir_eq hclean, hlocate]
  · exact absurd Path.lastName_empty hlast

/-! ### Replacing files -/

/-- A directory is reached from the root. -/
theorem walk_root (hd : d.IsTree) (ho : d.IsOpen)
    (hnames : ∀ name ∈ l.toList, name.utf8ByteSize ≤ maxNameBytes) (hl : d.HoldsDir l) :
    d.walk #[] l.toList = .ok l := by
  induction l using location_induction with
  | root => rfl
  | push l name ih =>
    have habove := hd.above l name hl.look_ne_none
    have hproper := hd.proper l name hl.look_ne_none
    rw [Array.toList_push] at hnames ⊢
    have hfront := ih (fun n hn => hnames n (List.mem_append_left _ hn)) habove
    have hsize := hnames name (List.mem_append_right _ (List.mem_singleton.mpr rfl))
    obtain ⟨mode, hmode⟩ := hl
    rw [walk_append, hfront, ok_bind, walk_cons, enter_of_not_isDots hproper,
      if_neg (by simp [ho.search habove]), if_neg (by omega), hmode]
    rfl

/-- The names of a location are those of where a walk starts and those on its way. -/
theorem mem_foldl_descend {names : List String} (h : name ∈ (names.foldl descend l).toList) :
    name ∈ l.toList ∨ name ∈ names := by
  induction names generalizing l with
  | nil => exact .inl h
  | cons n names ih =>
    rcases ih h with hmem | hmem
    · unfold descend at hmem
      split at hmem
      · exact .inl hmem
      · split at hmem
        · rw [Array.toList_pop] at hmem
          exact .inl (List.dropLast_subset _ hmem)
        · rw [Array.toList_push, List.mem_append, List.mem_singleton] at hmem
          rcases hmem with hmem | rfl
          · exact .inl hmem
          · exact .inr List.mem_cons_self
    · exact .inr (List.mem_cons_of_mem _ hmem)

theorem mem_start (h : name ∈ (d.start path).toList) : name ∈ d.here.toList := by
  unfold start at h
  split at h
  · cases h
  · exact h

theorem Unlimited.spelled_parent_le (h : d.Unlimited path) :
    ∀ name ∈ (d.spelled (Path.parent path)).toList, name.utf8ByteSize ≤ maxNameBytes := by
  intro name hname
  rw [spelled_eq_steps] at hname
  refine h.names name (List.mem_append.mpr ?_)
  rcases mem_foldl_descend hname with hmem | hmem
  · exact .inl (mem_start hmem)
  · exact .inr (Path.mem_steps_of_parent hmem)

section Replace

variable {content : ByteArray}

/-- A file that is replaced stands in a directory that can be walked. -/
theorem reach_of_replace (hd : d.IsTree) (h : (d.replace path content).1 = .ok ()) :
    Fits path ∧ (∃ c, d.reach (Path.parent path) = .ok c) ∧ ¬ d.HoldsDir (d.spelled path) := by
  obtain ⟨k, hk, hnone, hne⟩ := freshIn_spec d (d.spelled path).pop (d.spelled path)
  unfold replace at h
  dsimp only at h
  generalize d.freshIn (d.spelled path).pop (d.spelled path) = temp at hk hnone hne h
  have hroot : temp ≠ #[] := by simp [hk]
  have hfilled := (isSet_set hroot d (.file ByteArray.empty d.tempMode)).set hroot
    (.file content d.tempMode)
  split at h
  · cases h
  split at h
  · cases h
  split at h
  · cases h
  split at h
  · cases h
  rename_i mode _
  have hready := hfilled.set hroot (.file content mode)
  split at h
  · cases h
  · rename_i after hrename
    rcases rename_cases _ temp path with ⟨fault, hfault, -⟩ | ⟨l, node, hl, -, hdir, -⟩
    · rw [hfault] at hrename
      cases hrename
    · -- the renaming walks on a disk with the temporary file, which is on no way of a path
      have hkeeps := hready.keepsDirs fun hdir => hdir.look_ne_none hnone
      have hinside := hkeeps.staysInside hready.keepsDirs_symm hd.staysInside
      obtain ⟨c, hc, -⟩ := reach_parent_of_locate (hready.keepsDirs_symm.locate_ok hinside hl)
      refine ⟨fits_of_locate hl, ⟨c, hc⟩, fun hleaf => ?_⟩
      have hspelled := spelled_of_locate hl
      obtain rfl : d.spelled path = l := hspelled
      exact hdir (hkeeps.holdsDir hleaf)

theorem modeFor_ok (h : d.locate path = .ok l) : ∃ mode, d.modeFor path = .ok mode := by
  unfold modeFor
  rw [stat_of_locate_ok h]
  cases d.look l <;> exact ⟨_, rfl⟩

theorem rename_ok {source : Location} {node : Node} (h : d.locate path = .ok l)
    (hsource : d.look source = some node) (hleaf : ¬ d.HoldsDir l) :
    ∃ after, d.rename source path = .ok after := by
  unfold rename
  rw [h, ok_bind, hsource]
  cases hlook : d.look l with
  | none => exact ⟨_, rfl⟩
  | some old =>
    cases old with
    | directory mode => exact absurd ⟨mode, hlook⟩ hleaf
    | file content mode => exact ⟨_, rfl⟩

/-- Where permissions and lengths are not in the way, a file is replaced if and only if its
directory can be walked and no directory is in its place. -/
theorem replace_ok_iff (hd : d.IsTree) (hu : d.Unlimited path) (hnull : '\x00' ∉ path.toList)
    (hname : isDots (Path.lastName path) = false) :
    (d.replace path content).1 = .ok () ↔
      (∃ c, d.reach (Path.parent path) = .ok c) ∧ ¬ d.HoldsDir (d.spelled path) := by
  refine ⟨fun h => (reach_of_replace hd h).2, ?_⟩
  rintro ⟨⟨c, hc⟩, hleaf⟩
  have hcdir := hd.holdsDir_of_reach hc
  have hfits : Fits path := by
    refine ⟨hnull, ?_, hu.length⟩
    rintro rfl
    cases hname
  -- the temporary file is made in the directory of the target
  have hpop : (d.spelled path).pop = c := by
    rw [spelled_of_not_isDots hname, Array.pop_push, spelled_of_reach hc]
  have hwalk : d.walk #[] c.toList = .ok c := by
    refine walk_root hd hu.opened ?_ hcdir
    rw [← spelled_of_reach hc]
    exact hu.spelled_parent_le
  have htemporary := hu.temporary
  obtain ⟨k, hk, hnone, hne⟩ := freshIn_spec d c (d.spelled path)
  unfold replace
  dsimp only
  rw [hpop] at htemporary ⊢
  generalize d.freshIn c (d.spelled path) = temp at hk hnone hne ⊢
  have hroot : temp ≠ #[] := by simp [hk]
  have hfilled := (isSet_set hroot d (.file ByteArray.empty d.tempMode)).set hroot
    (.file content d.tempMode)
  -- and stands in the way of nothing
  have hlocate : ∀ {e node}, IsSet d temp node e → e.locate path = .ok (d.spelled path) := by
    intro e node he
    have hkeeps := he.keepsDirs fun hdir => hdir.look_ne_none hnone
    exact hkeeps.locate_ok hd.staysInside
      (locate_of_search hfits (lastName_le hu.step_le) hc (hu.opened.search hcdir))
  obtain ⟨mode, hmode⟩ := modeFor_ok (hlocate hfilled)
  have hready := hfilled.set hroot (.file content mode)
  obtain ⟨after, hafter⟩ := rename_ok (hlocate hready) ((hready.look temp).trans (if_pos rfl))
    fun hdir => hleaf (hready.keepsDirs_symm.holdsDir hdir)
  rw [if_neg (by omega)]
  simp only [walk] at hwalk
  rw [hwalk]
  dsimp only
  rw [if_neg (by simp [hu.opened.changeable c hcdir]), hmode]
  dsimp only
  rw [hafter]

end Replace

end SharpEmit.Disk
