/-
SharpEmit/Proofs/Storage/Growth.lean

Walking a path on a disk and on what has become of the disk later.  `Extends` says what
may have become of it: directories and files are new, where they could be made, and
files have other contents.  A walk ends alike on both disks, unless it finds nothing on
the earlier one (`Extends.reach_cases`).  Making directories extends a disk
(`makeDirs_extends`).
-/
import SharpEmit.Proofs.Storage.Directory

namespace SharpEmit.Disk

variable {d e : Disk} {l : Location} {name path : String}

/-! ### Disks that hold the same -/

/-- Two disks hold the same, whatever the order in which it came there. -/
structure Same (d e : Disk) : Prop where
  here : e.here = d.here
  umask : e.umask = d.umask
  look : ∀ l, e.look l = d.look l

namespace Same

theorem refl (d : Disk) : Same d d := ⟨rfl, rfl, fun _ => rfl⟩

theorem symm (h : Same d e) : Same e d := ⟨h.here.symm, h.umask.symm, fun l => (h.look l).symm⟩

theorem trans {f : Disk} (h : Same d e) (h' : Same e f) : Same d f :=
  ⟨h'.here.trans h.here, h'.umask.trans h.umask, fun l => (h'.look l).trans (h.look l)⟩

theorem isTree (h : Same d e) (hd : d.IsTree) : e.IsTree := by
  have hdir : ∀ l, d.HoldsDir l → e.HoldsDir l := by
    rintro l ⟨mode, hmode⟩
    exact ⟨mode, (h.look l).trans hmode⟩
  refine ⟨?_, fun l name hl => hdir l (hd.above l name ?_), fun l name hl => hd.proper l name ?_⟩
  · rw [h.here]
    exact hdir _ hd.here
  · rwa [← h.look]
  · rwa [← h.look]

end Same

/-! ### Later disks -/

/-- What may become of a disk: directories stay, files stay with their modes, and what
is new could be made where it is. -/
structure Extends (d e : Disk) : Prop where
  here : e.here = d.here
  umask : e.umask = d.umask
  dirs : ∀ l mode, d.look l = some (.directory mode) → e.look l = some (.directory mode)
  files : ∀ l content mode, d.look l = some (.file content mode) →
    ∃ content', e.look l = some (.file content' mode)
  newDirs : ∀ l mode, d.look l = none → e.look l = some (.directory mode) → mode = d.newDirMode
  made : ∀ (l : Location) name, d.look (l.push name) = none → e.look (l.push name) ≠ none →
    e.changeable l = true ∧ name.utf8ByteSize ≤ maxNameBytes

namespace Extends

theorem of_same (h : Same d e) : Extends d e where
  here := h.here
  umask := h.umask
  dirs l mode hl := (h.look l).trans hl
  files l content mode hl := ⟨content, (h.look l).trans hl⟩
  newDirs l mode hnone hl := by
    rw [h.look, hnone] at hl
    cases hl
  made l name hnone hsome := by
    rw [h.look] at hsome
    exact absurd hnone hsome

theorem refl (d : Disk) : Extends d d := of_same (Same.refl d)

theorem look_ne_none (h : Extends d e) (hl : d.look l ≠ none) : e.look l ≠ none := by
  cases hlook : d.look l with
  | none => exact absurd hlook hl
  | some node =>
    cases node with
    | directory mode => simp [h.dirs l mode hlook]
    | file content mode =>
      obtain ⟨content', hfile⟩ := h.files l content mode hlook
      simp [hfile]

/-- What was there permits what it did. -/
theorem permits_eq (h : Extends d e) (hl : d.look l ≠ none) (a : Access) :
    e.permits l a = d.permits l a := by
  unfold permits
  cases hlook : d.look l with
  | none => exact absurd hlook hl
  | some node =>
    cases node with
    | directory mode => rw [h.dirs l mode hlook]
    | file content mode =>
      obtain ⟨content', hfile⟩ := h.files l content mode hlook
      rw [hfile]
      rfl

theorem changeable_eq (h : Extends d e) (hl : d.look l ≠ none) :
    e.changeable l = d.changeable l := by
  simp only [changeable, h.permits_eq hl]

theorem trans {f : Disk} (h : Extends d e) (h' : Extends e f) (he : e.IsTree) : Extends d f where
  here := h'.here.trans h.here
  umask := h'.umask.trans h.umask
  dirs l mode hl := h'.dirs l mode (h.dirs l mode hl)
  files l content mode hl := by
    obtain ⟨content', hfile⟩ := h.files l content mode hl
    exact h'.files l content' mode hfile
  newDirs l mode hnone hl := by
    cases hlook : e.look l with
    | none => exact (h'.newDirs l mode hlook hl).trans (newDirMode_of_umask h.umask)
    | some node =>
      cases node with
      | directory mode' =>
        obtain rfl : mode' = mode := by simpa [h'.dirs l mode' hlook] using hl
        exact h.newDirs l mode' hnone hlook
      | file content mode' =>
        obtain ⟨content', hfile⟩ := h'.files l content mode' hlook
        rw [hfile] at hl
        cases hl
  made l name hnone hsome := by
    by_cases hlook : e.look (l.push name) = none
    · exact h'.made l name hlook hsome
    · obtain ⟨hchange, hsize⟩ := h.made l name hnone hlook
      refine ⟨?_, hsize⟩
      rw [h'.changeable_eq (he.above l name hlook).look_ne_none, hchange]

theorem start_eq (h : Extends d e) (path : String) : e.start path = d.start path :=
  start_of_here h.here path

theorem spelled_eq (h : Extends d e) (path : String) : e.spelled path = d.spelled path :=
  spelled_of_here h.here path

/-! ### Walks -/

theorem enter_eq_of_isDots (h : Extends d e) (hl : d.look l ≠ none) (hdots : isDots name = true) :
    e.enter l name = d.enter l name := by
  by_cases hempty : name = ""
  · rw [hempty, enter_empty, enter_empty]
  · rw [enter_dots hdots hempty, enter_dots hdots hempty, h.permits_eq hl]

theorem enter_cases (h : Extends d e) (hl : d.look l ≠ none) :
    e.enter l name = d.enter l name ∨
      isDots name = false ∧ d.look (l.push name) = none ∧
        d.enter l name = .error (.refused .noEntry) := by
  cases hdots : isDots name with
  | true => exact .inl (h.enter_eq_of_isDots hl hdots)
  | false =>
    rw [enter_of_not_isDots hdots, enter_of_not_isDots hdots, h.permits_eq hl]
    cases hlook : d.look (l.push name) with
    | some node =>
      left
      cases node with
      | directory mode => rw [h.dirs _ mode hlook]
      | file content mode =>
        obtain ⟨content', hfile⟩ := h.files _ content mode hlook
        rw [hfile]
    | none =>
      by_cases hsearch : d.permits l .search
      · by_cases hsize : maxNameBytes < name.utf8ByteSize
        · exact .inl (by simp [hsearch, hsize])
        · exact .inr ⟨rfl, rfl, by simp [hsearch, hsize]⟩
      · exact .inl (by simp [hsearch])

/-- A walk ends alike on the later disk, unless the earlier one lacks something on the
way; then it lacks all that is below. -/
theorem walk_cases (h : Extends d e) (hd : d.IsTree) {names : List String}
    (hplain : ".." ∉ names) (hl : d.HoldsDir l) :
    e.walk l names = d.walk l names ∨
      d.walk l names = .error (.refused .noEntry) ∧
        ∀ m, e.walk l names = .ok m → d.look m = none := by
  induction names generalizing l with
  | nil => exact .inl rfl
  | cons name names ih =>
    rw [List.mem_cons, not_or] at hplain
    rcases h.enter_cases hl.look_ne_none with heq | ⟨hdots, hnone, hd'⟩
    · rw [walk_cons, walk_cons, heq]
      cases hc : d.enter l name with
      | error fault => exact .inl rfl
      | ok c => exact ih hplain.2 (hd.holdsDir_of_enter hl hc)
    · refine .inr ⟨by rw [walk_cons, hd']; rfl, fun m hm => ?_⟩
      obtain rfl := foldl_of_walk hm
      rw [List.foldl_cons, descend_of_not_isDots hdots]
      by_contra hsome
      exact hd.look_ne_none_of_onWay (onWay_foldl_descend hplain.2) hsome hnone

theorem reach_cases (h : Extends d e) (hd : d.IsTree) (hplain : Path.IsPlain path) :
    e.reach path = d.reach path ∨
      d.reach path = .error (.refused .noEntry) ∧ ∀ m, e.reach path = .ok m → d.look m = none := by
  unfold reach
  rw [h.start_eq]
  exact h.walk_cases hd hplain (hd.holdsDir_start path)

/-- What was found on the way is found later. -/
theorem reach_ne_noEntry (h : Extends d e) (hd : d.IsTree) (hplain : Path.IsPlain path)
    (hreach : d.reach path ≠ .error (.refused .noEntry)) :
    e.reach path ≠ .error (.refused .noEntry) := by
  rcases h.reach_cases hd hplain with heq | ⟨hno, -⟩
  · rw [heq]
    exact hreach
  · exact absurd hno hreach

theorem child_eq (h : Extends d e) (hl : d.look l ≠ none) : e.child l name = d.child l name := by
  unfold child
  rw [h.permits_eq hl]
  split
  · rename_i hdots
    exact h.enter_eq_of_isDots hl hdots
  · rfl

/-- Where the earlier disk lacks nothing on the way, a path leads to the same place. -/
theorem locate_eq (h : Extends d e) (hd : d.IsTree) (hplain : Path.IsPlain path)
    (hreach : d.reach (Path.parent path) ≠ .error (.refused .noEntry)) :
    e.locate path = d.locate path := by
  by_cases hfits : Fits path
  · have heq : e.reach (Path.parent path) = d.reach (Path.parent path) :=
      (h.reach_cases hd hplain.parent).resolve_right fun hno => hreach hno.1
    rw [locate_of_fits hfits, locate_of_fits hfits, heq]
    cases hc : d.reach (Path.parent path) with
    | error fault => rw [error_bind, error_bind]
    | ok c =>
      rw [ok_bind, ok_bind]
      exact h.child_eq (hd.holdsDir_of_reach hc).look_ne_none
  · obtain ⟨fault, hfault⟩ := locate_of_not_fits hfits
    rw [hfault d, hfault e]

theorem holds (h : Extends d e) (hd : d.IsTree) (hplain : Path.IsPlain path)
    (hholds : d.holds path = true) : e.holds path = true := by
  obtain ⟨l, hl, hsome⟩ := (d.holds_iff path).mp hholds
  obtain ⟨c, hc, -⟩ := reach_parent_of_locate hl
  refine (e.holds_iff path).mpr ⟨l, ?_, h.look_ne_none hsome⟩
  rw [h.locate_eq hd hplain (by simp [hc]), hl]

/-- What a path leads to on the later disk alone is new. -/
theorem look_eq_none_of_holds (h : Extends d e) (hd : d.IsTree) (hplain : Path.IsPlain path)
    (hdholds : d.holds path = false) (hl : e.locate path = .ok l) : d.look l = none := by
  obtain ⟨b, hb, hchild⟩ := reach_parent_of_locate hl
  by_contra hsome
  rcases h.reach_cases hd hplain.parent with heq | ⟨-, hno⟩
  · have hl' : d.locate path = .ok l := by
      rw [← hl, h.locate_eq hd hplain (by simp [← heq, hb])]
    rw [(d.holds_iff path).mpr ⟨l, hl', hsome⟩] at hdholds
    cases hdholds
  · have hon : OnWay b l := by
      rw [← descend_of_child hchild]
      exact onWay_descend hplain.lastName_ne
    exact hd.look_ne_none_of_onWay hon hsome (hno b hb)

end Extends

/-! ### One directory -/

theorem set_changeable {l m : Location} (h : d.look l = none) (hm : m ≠ l) (node : Node) :
    (d.set l node).changeable m = d.changeable m := by
  refine changeable_congr ?_
  rw [look_set_of_look_eq_none h, if_neg hm]

/-- A disk extends another one when all changes are new directories that could be
made. -/
theorem Grows.toExtends (h : Grows d e) (hhere : e.here = d.here) (humask : e.umask = d.umask)
    (hmade : ∀ (l : Location) name, d.look (l.push name) = none → e.look (l.push name) ≠ none →
      e.changeable l = true ∧ name.utf8ByteSize ≤ maxNameBytes) : Extends d e where
  here := hhere
  umask := humask
  dirs l mode hl := by
    rcases h l with heq | ⟨hnone, -⟩
    · rw [heq, hl]
    · rw [hl] at hnone
      cases hnone
  files l content mode hl := ⟨content, (h.look_eq_file_iff l content mode).mpr hl⟩
  newDirs l mode hnone hl := by
    rcases h l with heq | ⟨-, hdir⟩
    · rw [heq, hnone] at hl
      cases hl
    · simpa [hdir] using hl.symm
  made := hmade

/-- A directory that is made extends the disk, and the disk stays a tree. -/
theorem makeDir_extends (hd : d.IsTree) (h : d.makeDir path = .ok e) :
    Extends d e ∧ e.IsTree := by
  have hgrows := makeDir_grows h
  obtain ⟨l, hl, hnone, hchange, rfl⟩ := makeDir_ok h
  obtain ⟨c, n, rfl, hc, hdots, hsize⟩ := hd.push_of_locate hl hnone
  have hlook := fun m => look_set_of_look_eq_none hnone m (.directory d.newDirMode)
  refine ⟨hgrows.toExtends rfl rfl fun m name hm hsome => ?_, ?_⟩
  · rw [hlook] at hsome
    split at hsome
    · rename_i heq
      obtain ⟨rfl, rfl⟩ := Array.push_eq_push.mp heq
      rw [Array.pop_push] at hchange
      exact ⟨(set_changeable hnone (OnWay.ne_push m name) _).trans hchange, hsize⟩
    · exact absurd hm hsome
  · exact hd.of_look_eq rfl hlook hc hdots fun hdir => hdir.look_ne_none hnone

theorem ensureDir_extends (hd : d.IsTree) (path : String) :
    Extends d (d.ensureDir path).2 ∧ (d.ensureDir path).2.IsTree := by
  refine ensureDir_induction (R := fun d e => d.IsTree → Extends d e ∧ e.IsTree)
    (fun d hd => ⟨Extends.refl d, hd⟩) ?_ d hd
  exact fun d e h hd => makeDir_extends hd h

/-- Making directories extends the disk, and the disk stays a tree. -/
theorem makeDirs_extends (hd : d.IsTree) (path : String) :
    Extends d (d.makeDirs path).2 ∧ (d.makeDirs path).2.IsTree := by
  refine makeLineage_induction (R := fun d e => d.IsTree → Extends d e ∧ e.IsTree)
    (fun d hd => ⟨Extends.refl d, hd⟩) (fun d e f h h' hd => ?_) ?_ d hd
  · obtain ⟨he, hetree⟩ := h hd
    obtain ⟨hf, hftree⟩ := h' hetree
    exact ⟨he.trans hf hetree, hftree⟩
  · exact fun d e _ _ h hd => makeDir_extends hd h

theorem Extends.set_both (h : Extends d e) (htree : e.IsTree) (hd : d.look l = none)
    (he : e.look l = none) :
    Extends (d.set l (.directory d.newDirMode)) (e.set l (.directory e.newDirMode)) where
  here := h.here
  umask := h.umask
  dirs m mode hm := by
    rw [look_set_of_look_eq_none hd] at hm
    rw [look_set_of_look_eq_none he]
    split at hm
    · rename_i heq
      rw [if_pos heq, newDirMode_of_umask h.umask, hm]
    · rename_i hne
      rw [if_neg hne, h.dirs m mode hm]
  files m content mode hm := by
    rw [look_set_of_look_eq_none hd] at hm
    rw [look_set_of_look_eq_none he]
    split at hm
    · cases hm
    · rename_i hne
      rw [if_neg hne]
      exact h.files m content mode hm
  newDirs m mode hnone hm := by
    rw [look_set_of_look_eq_none hd] at hnone
    rw [look_set_of_look_eq_none he] at hm
    split at hnone
    · cases hnone
    · rename_i hne
      rw [if_neg hne] at hm
      exact h.newDirs m mode hnone hm
  made m name hnone hsome := by
    rw [look_set_of_look_eq_none hd] at hnone
    rw [look_set_of_look_eq_none he] at hsome
    split at hnone
    · cases hnone
    · rename_i hne
      rw [if_neg hne] at hsome
      -- nothing can be below the location
      have hm : m ≠ l := by
        rintro rfl
        exact (htree.above m name hsome).look_ne_none he
      rw [set_changeable he hm]
      exact h.made m name hnone hsome

theorem Extends.set_left (h : Extends d e) (hd : d.look l = none)
    (he : e.look l = some (.directory d.newDirMode)) :
    Extends (d.set l (.directory d.newDirMode)) e where
  here := h.here
  umask := h.umask
  dirs m mode hm := by
    rw [look_set_of_look_eq_none hd] at hm
    split at hm
    · rename_i heq
      rw [heq, he, hm]
    · exact h.dirs m mode hm
  files m content mode hm := by
    rw [look_set_of_look_eq_none hd] at hm
    split at hm
    · cases hm
    · exact h.files m content mode hm
  newDirs m mode hnone hm := by
    rw [look_set_of_look_eq_none hd] at hnone
    split at hnone
    · cases hnone
    · exact h.newDirs m mode hnone hm
  made m name hnone hsome := by
    rw [look_set_of_look_eq_none hd] at hnone
    split at hnone
    · cases hnone
    · exact h.made m name hnone hsome

end SharpEmit.Disk
