/-
SharpEmit/Proofs/Storage/Agreement.lean

Making the directories of a path on a disk and on a later one.  What is made on the
earlier disk is there on the later one afterwards, and nothing else has changed there
(`Mirrors`); the outcome is the same (`makeDirs_alike`).

Two things are asked of the later disk: it extends the earlier one, and where the
earlier one makes a directory it has no file (`Admits`).  The exceptions to the same
outcome are `Strays`: a path that ends in `.` is not looked at when the directory above
it has just been made, though it may be too long, or that directory may be barred.
-/
import SharpEmit.Proofs.Storage.Growth

namespace SharpEmit.Disk

variable {d e : Disk} {l : Location} {path : String}

/-! ### Alike changes -/

/-- What changed from one disk to another has changed the same way on two others, and
nothing else has. -/
def Mirrors (d d' e e' : Disk) : Prop :=
  ∀ l, e'.look l = if d'.look l = d.look l then e.look l else d'.look l

theorem Mirrors.refl (d e : Disk) : Mirrors d d e e := fun l => by rw [if_pos rfl]

theorem Mirrors.trans {d' d'' e' e'' : Disk} (h : Mirrors d d' e e') (h' : Mirrors d' d'' e' e'')
    (hd : Grows d d') (hd' : Grows d' d'') : Mirrors d d'' e e'' := by
  intro l
  rw [h' l, h l]
  rcases hd l with heq | ⟨hnone, hdir⟩
  · rw [heq, if_pos rfl]
  · -- what was made first is there to stay
    rcases hd' l with heq' | ⟨hnone', -⟩
    · simp [heq', hdir, hnone]
    · rw [hdir] at hnone'
      cases hnone'

/-- Changes that each mirror the other's come to the same in either order, when they
agree on what both change. -/
theorem Mirrors.comm {d' e₁ e₂ : Disk} (h : Mirrors d d' e e₁) (h' : Mirrors d e d' e₂)
    (hboth : ∀ l, d'.look l ≠ d.look l → e.look l ≠ d.look l → e.look l = d'.look l) (l : Location) :
    e₁.look l = e₂.look l := by
  rw [h l, h' l]
  by_cases hd : d'.look l = d.look l
  · rw [if_pos hd, hd]
    split
    · assumption
    · rfl
  · rw [if_neg hd]
    split
    · rfl
    · rename_i he
      exact (hboth l hd he).symm

/-- Where a disk has got something new, another one has no file. -/
def Admits (e d d' : Disk) : Prop :=
  ∀ l content mode, d.look l = none → d'.look l ≠ none → e.look l ≠ some (.file content mode)

theorem Admits.mono {d' d'' : Disk} (h : Admits e d d'') (hd : Grows d' d'') : Admits e d d' := by
  intro l content mode hnone hsome
  refine h l content mode hnone ?_
  rcases hd l with heq | ⟨hnone', -⟩
  · rw [heq]
    exact hsome
  · exact absurd hnone' hsome

theorem Admits.later {e' d' d'' : Disk} (h : Admits e d d'') (hd : Grows d d') (he : Grows e e') :
    Admits e' d' d'' := by
  intro l content mode hnone hsome hfile
  have hnone' : d.look l = none := by
    rcases hd l with heq | ⟨hnone', -⟩
    · rw [← heq, hnone]
    · exact hnone'
  exact h l content mode hnone' hsome ((he.look_eq_file_iff l content mode).mp hfile)

/-- Two activities that each leave a disk: the later disk still extends the earlier
one, and the changes are alike. -/
structure Alike (d e : Disk) (x y : Except PathFault Unit × Disk) : Prop where
  grown : Extends x.2 y.2
  mirrors : Mirrors d x.2 e y.2

theorem Alike.self (h : Extends d e) (r r' : Except PathFault Unit) : Alike d e (r, d) (r', e) :=
  ⟨h, Mirrors.refl d e⟩

theorem Alike.trans {x y x' y' : Except PathFault Unit × Disk} (h : Alike d e x y)
    (h' : Alike x.2 y.2 x' y') (hx : Grows d x.2) (hx' : Grows x.2 x'.2) : Alike d e x' y' :=
  ⟨h'.grown, h.mirrors.trans h'.mirrors hx hx'⟩

/-! ### One directory -/

theorem makeAt_alike (h : Extends d e) (he : e.IsTree) (habove : d.look l.pop ≠ none)
    (hadmits : Admits e d (d.makeAt l).2) :
    (e.makeAt l).1 = (d.makeAt l).1 ∧ Alike d e (d.makeAt l) (e.makeAt l) := by
  have hchange := h.changeable_eq habove
  cases hlook : d.look l with
  | some node =>
    cases node with
    | directory mode =>
      simp only [makeAt, hlook, h.dirs l mode hlook]
      exact ⟨trivial, Alike.self h _ _⟩
    | file content mode =>
      obtain ⟨content', hfile⟩ := h.files l content mode hlook
      simp only [makeAt, hlook, hfile]
      exact ⟨trivial, Alike.self h _ _⟩
  | none =>
    cases hlook' : e.look l with
    | none =>
      simp only [makeAt, hlook, hlook', hchange]
      split
      · refine ⟨rfl, h.set_both he hlook hlook', fun m => ?_⟩
        rw [look_set_of_look_eq_none hlook, look_set_of_look_eq_none hlook',
          newDirMode_of_umask h.umask]
        by_cases hm : m = l
        · subst hm
          simp [hlook]
        · simp [hm]
      · exact ⟨rfl, Alike.self h _ _⟩
    | some node =>
      -- the later disk has something here already, so the earlier one can make it
      have hne : l ≠ #[] := by
        rintro rfl
        cases hlook
      obtain ⟨c, n, rfl⟩ := Array.exists_push_of_ne_empty hne
      obtain ⟨hmade, -⟩ := h.made c n hlook (by simp [hlook'])
      rw [Array.pop_push] at hchange
      simp only [makeAt, hlook, Array.pop_push, ← hchange, hmade, if_true] at hadmits ⊢
      have hset := look_set_of_look_eq_none hlook (c.push n) (.directory d.newDirMode)
      rw [if_pos rfl] at hset
      cases node with
      | file content mode =>
        exact absurd hlook' (hadmits _ content mode hlook (by simp [hset]))
      | directory mode =>
        obtain rfl := h.newDirs _ mode hlook hlook'
        simp only [hlook']
        refine ⟨trivial, h.set_left hlook hlook', fun m => ?_⟩
        rw [look_set_of_look_eq_none hlook]
        by_cases hm : m = c.push n
        · subst hm
          simp [hlook, hlook']
        · simp [hm]

/-- Where nothing is missing on the way, making one directory ends alike. -/
theorem ensureDir_alike (h : Extends d e) (hd : d.IsTree) (he : e.IsTree)
    (hclean : Path.IsClean path) (hplain : Path.IsPlain path)
    (hreach : d.reach (Path.parent path) ≠ .error (.refused .noEntry))
    (hadmits : Admits e d (d.ensureDir path).2) :
    (e.ensureDir path).1 = (d.ensureDir path).1 ∧
      Alike d e (d.ensureDir path) (e.ensureDir path) := by
  rw [ensureDir_eq hclean] at hadmits ⊢
  rw [ensureDir_eq hclean, h.locate_eq hd hplain hreach]
  cases hl : d.locate path with
  | error fault => exact ⟨rfl, Alike.self h _ _⟩
  | ok l =>
    rw [hl] at hadmits
    refine makeAt_alike h he ?_ hadmits
    by_cases hnone : d.look l = none
    · obtain ⟨c, n, rfl, hc, -, -⟩ := hd.push_of_locate hl hnone
      rw [Array.pop_push]
      exact hc.look_ne_none
    · exact (hd.holdsDir_pop hnone).look_ne_none

/-- Where nothing is missing on the way, making the last directory ends alike. -/
theorem ensureLast_alike (h : Extends d e) (hd : d.IsTree) (he : e.IsTree)
    (hclean : Path.IsClean path) (hplain : Path.IsPlain path)
    (hreach : d.reach (Path.parent path) ≠ .error (.refused .noEntry))
    (hadmits : Admits e d (d.ensureLast path).2) :
    (e.ensureLast path).1 = (d.ensureLast path).1 ∧
      Alike d e (d.ensureLast path) (e.ensureLast path) := by
  unfold ensureLast at hadmits ⊢
  split
  · exact ⟨rfl, Alike.self h _ _⟩
  · rename_i hdot
    rw [if_neg hdot] at hadmits
    exact ensureDir_alike h hd he hclean hplain hreach hadmits

/-! ### What is made -/

theorem reach_ne_noEntry_of_ensureDir (hd : d.IsTree) (hclean : Path.IsClean path)
    (hplain : Path.IsPlain path) (h : Passes (d.ensureDir path).1) :
    (d.ensureDir path).2.reach path ≠ .error (.refused .noEntry) := by
  have hext := (ensureDir_extends hd path).1
  rw [ensureDir_eq hclean] at h hext ⊢
  cases hl : d.locate path with
  | error fault =>
    rw [hl] at h
    rcases h with h | h
    · cases h
    · cases h
      exact absurd hl (locate_ne_fileExists d path)
  | ok l =>
    rw [hl] at h hext
    simp only [makeAt] at h hext ⊢
    cases hlook : d.look l with
    | some node =>
      have hreach := reach_ne_noEntry_of_locate hl (by simp [hlook])
      cases node <;> exact hreach
    | none =>
      rw [hlook] at h hext
      dsimp only at h hext ⊢
      split at h
      · rename_i hchange
        rw [if_pos hchange] at hext ⊢
        obtain ⟨c, hc, -⟩ := reach_parent_of_locate hl
        -- the directory that was made is where the path led before
        have hl' : (d.set l (.directory d.newDirMode)).locate path = .ok l := by
          rw [← hl]
          exact hext.locate_eq hd hplain (by simp [hc])
        refine reach_ne_noEntry_of_locate hl' ?_
        rw [look_set_of_look_eq_none hlook, if_pos rfl]
        simp
      · rcases h with h | h <;> cases h

/-- Once the directories of a path are made, nothing is missing on its way. -/
theorem reach_ne_noEntry_of_makeDirs (hd : d.IsTree) (hclean : Path.IsClean path)
    (hplain : Path.IsPlain path) (h : Passes (d.makeDirs path).1) :
    (d.makeDirs path).2.reach path ≠ .error (.refused .noEntry) := by
  induction path, hclean using Path.IsClean.induction with
  | single path hclean hnone =>
    rcases makeDirs_eq hclean d with ⟨-, heq⟩ | ⟨⟨hlast, hparent, -⟩, -⟩
    · rw [heq] at h ⊢
      exact reach_ne_noEntry_of_ensureDir hd hclean hplain h
    · exact absurd hnone (by simp [hlast, hparent])
  | below path hclean hlast hparent ih =>
    rcases makeDirs_eq hclean d with ⟨-, heq⟩ | ⟨-, ⟨hpasses, heq⟩ | ⟨hstops, heq⟩⟩
    · rw [heq] at h ⊢
      exact reach_ne_noEntry_of_ensureDir hd hclean hplain h
    · have hreach := ih hplain.parent hpasses
      have htree := (makeDirs_extends hd (Path.parent path)).2
      rw [heq] at h ⊢
      unfold ensureLast at h ⊢
      split at h
      · -- one dot more leads on from wherever the directory above is
        rename_i hdot
        rw [if_pos hdot, reach_eq, hclean.endsInDot_iff.mp hdot]
        cases hc : (d.makeDirs (Path.parent path)).2.reach (Path.parent path) with
        | error fault =>
          intro hno
          cases hno
          exact hreach hc
        | ok c =>
          rw [ok_bind, enter_dot]
          split <;> simp
      · rename_i hdot
        rw [if_neg hdot]
        exact reach_ne_noEntry_of_ensureDir htree hclean hplain h
    · rw [heq] at h
      exact absurd h hstops

theorem fits_parent (h : Fits path) (hparent : Path.parent path ≠ "") : Fits (Path.parent path) :=
  ⟨Path.null_not_mem_parent h.1, hparent,
    Nat.lt_of_le_of_lt (Path.utf8ByteSize_parent_le path) h.2.2⟩

/-- Where a path leads to a place, a directory is made there and nowhere else. -/
theorem makeDirs_of_locate (hd : d.IsTree) (hclean : Path.IsClean path)
    (h : d.locate path = .ok l) : d.makeDirs path = d.makeAt l := by
  rcases makeDirs_eq hclean d with ⟨-, heq⟩ | ⟨⟨-, hparent, habove⟩, -⟩
  · rw [heq, ensureDir_eq hclean, h]
  · obtain ⟨c, hc, -⟩ := reach_parent_of_locate h
    have hholds : d.holds (Path.parent path) = true :=
      (d.holds_iff _).mpr ⟨c, locate_of_reach (fits_parent (fits_of_locate h) hparent) hc,
        (hd.holdsDir_of_reach hc).look_ne_none⟩
    rw [hholds] at habove
    cases habove

/-- A directory that is there is not made. -/
theorem makeDirs_of_reach (hd : d.IsTree) (hclean : Path.IsClean path) (hfits : Fits path)
    (h : d.reach path = .ok l) : d.makeDirs path = (.ok (), d) := by
  obtain ⟨mode, hlook⟩ := hd.holdsDir_of_reach h
  rw [makeDirs_of_locate hd hclean (locate_of_reach hfits h)]
  simp only [makeAt, hlook]

theorem file_of_ensureDir (hclean : Path.IsClean path)
    (h : (d.ensureDir path).1 = .error (.refused .fileExists)) :
    ∃ content mode, d.look (d.spelled path) = some (.file content mode) := by
  rw [ensureDir_eq hclean] at h
  cases hl : d.locate path with
  | error fault =>
    rw [hl] at h
    cases h
    exact absurd hl (locate_ne_fileExists d path)
  | ok l =>
    rw [hl] at h
    rw [spelled_of_locate hl]
    cases hlook : d.look l with
    | none =>
      simp only [makeAt, hlook] at h
      split at h <;> cases h
    | some node =>
      cases node with
      | directory mode =>
        simp only [makeAt, hlook] at h
        cases h
      | file content mode => exact ⟨content, mode, rfl⟩

/-- A file is found in the place of a directory only where one was. -/
theorem file_of_makeDirs (hd : d.IsTree) (hclean : Path.IsClean path)
    (h : (d.makeDirs path).1 = .error (.refused .fileExists)) :
    ∃ content mode, d.look (d.spelled path) = some (.file content mode) := by
  rcases makeDirs_eq hclean d with ⟨-, heq⟩ | ⟨-, ⟨-, heq⟩ | ⟨hstops, heq⟩⟩
  · rw [heq] at h
    exact file_of_ensureDir hclean h
  · rw [heq] at h
    unfold ensureLast at h
    split at h
    · cases h
    · obtain ⟨content, mode, hfile⟩ := file_of_ensureDir hclean h
      rw [(makeDirs_extends hd (Path.parent path)).1.spelled_eq] at hfile
      exact ⟨content, mode, ((makeDirs_grows d _).look_eq_file_iff _ content mode).mp hfile⟩
  · rw [heq] at h
    exact absurd (Or.inr h) hstops

/-! ### Making directories on both disks -/

/-- How making directories may end apart, where the smaller disk has made the directory
above and does not look at a last dot.  The larger one finds the path too long, or the
new directory barred.  Then the smaller one goes on, until it finds as much or something
else that is wrong with a path below. -/
inductive Strays (path : String) (x y : Except PathFault Unit × Disk) : Prop
  | far : pathBytesLimit ≤ path.utf8ByteSize → y.1 = .error (.refused .nameTooLong) →
      (x.1 = .ok () ∧ Path.endsInDot path = true ∨
        x.1 = .error .nullCharacter ∧ '\x00' ∈ path.toList) → Strays path x y
  | barred : x.2.permitsNew .search = false → y.1 = .error (.refused .notPermitted) →
      (x.1 = .ok () ∧ x.2.reach path = .error (.refused .notPermitted) ∨
        x.1 = .error .nullCharacter ∧ '\x00' ∈ path.toList ∨
        x.1 = .error (.refused .nameTooLong)) → Strays path x y

theorem Strays.not_passes {x y : Except PathFault Unit × Disk} (h : Strays path x y) :
    ¬ Passes y.1 := by
  cases h with
  | far _ hlong _ =>
    rw [hlong]
    rintro (h | h) <;> cases h
  | barred _ hbarred _ =>
    rw [hbarred]
    rintro (h | h) <;> cases h

theorem ensureLast_of_too_long (hclean : Path.IsClean path)
    (h : pathBytesLimit ≤ path.utf8ByteSize) (d : Disk) :
    d.ensureLast path =
      (if Path.endsInDot path then .ok ()
       else .error (if '\x00' ∈ path.toList then .nullCharacter else .refused .nameTooLong), d) := by
  unfold ensureLast
  split
  · rfl
  · rw [ensureDir_eq hclean, locate_of_too_long h]

theorem ensureLast_of_barred (hclean : Path.IsClean path)
    (h : d.reach (Path.parent path) = .error (.refused .notPermitted)) :
    d.ensureLast path =
      (if Path.endsInDot path then .ok ()
       else .error (if '\x00' ∈ path.toList then .nullCharacter
         else if pathBytesLimit ≤ path.utf8ByteSize then .refused .nameTooLong
         else .refused .notPermitted), d) := by
  unfold ensureLast
  split
  · rfl
  · rw [ensureDir_eq hclean]
    by_cases hsize : pathBytesLimit ≤ path.utf8ByteSize
    · rw [locate_of_too_long hsize, if_pos hsize]
    · by_cases hnull : '\x00' ∈ path.toList
      · simp [locate, hnull]
      · have hne : path ≠ "" := by
          rintro rfl
          cases h
        rw [locate_of_fits ⟨hnull, hne, by omega⟩, h, error_bind, if_neg hnull, if_neg hsize]

section Below

variable {x y x' : Except PathFault Unit × Disk} (hclean : Path.IsClean path)
  (hx : Passes x.1 ∧ x' = x.2.ensureLast path ∨ ¬ Passes x.1 ∧ x' = x)
include hclean hx

theorem below_of_too_long (hsize : pathBytesLimit ≤ path.utf8ByteSize)
    (hlong : y.1 = .error (.refused .nameTooLong))
    (h : x.1 = .ok () ∨ x.1 = .error .nullCharacter ∧ '\x00' ∈ (Path.parent path).toList) :
    x'.2 = x.2 ∧ (y.1 = x'.1 ∨ Strays path x' y) := by
  rcases h with hok | ⟨hnull, hmem⟩
  · rw [(hx.resolve_right fun hstops => hstops.1 (.inl hok)).2,
      ensureLast_of_too_long hclean hsize]
    refine ⟨rfl, ?_⟩
    by_cases hdot : Path.endsInDot path = true
    · exact .inr (.far hsize hlong (.inl ⟨by simp [hdot], hdot⟩))
    · by_cases hnull : '\x00' ∈ path.toList
      · exact .inr (.far hsize hlong (.inr ⟨by simp [hdot, hnull], hnull⟩))
      · exact .inl (by simp [hdot, hnull, hlong])
  · rcases hx with ⟨hpasses, -⟩ | ⟨-, rfl⟩
    · rw [hnull] at hpasses
      rcases hpasses with h | h <;> cases h
    · exact ⟨rfl, .inr (.far hsize hlong
        (.inr ⟨hnull, (Path.prefix_toList_parent path).subset hmem⟩))⟩

theorem below_of_barred (hclosed : x.2.permitsNew .search = false)
    (hbarred : y.1 = .error (.refused .notPermitted))
    (h : x.1 = .ok () ∧ x.2.reach (Path.parent path) = .error (.refused .notPermitted) ∨
      x.1 = .error .nullCharacter ∧ '\x00' ∈ (Path.parent path).toList ∨
      x.1 = .error (.refused .nameTooLong)) :
    x'.2 = x.2 ∧ (y.1 = x'.1 ∨ Strays path x' y) := by
  rcases h with ⟨hok, hreach⟩ | hstopped
  · rw [(hx.resolve_right fun hstops => hstops.1 (.inl hok)).2, ensureLast_of_barred hclean hreach]
    refine ⟨rfl, ?_⟩
    by_cases hdot : Path.endsInDot path = true
    · refine .inr (.barred hclosed hbarred (.inl ⟨by simp [hdot], ?_⟩))
      show x.2.reach path = _
      rw [reach_eq, hreach, error_bind]
    · by_cases hnull : '\x00' ∈ path.toList
      · exact .inr (.barred hclosed hbarred (.inr (.inl ⟨by simp [hdot, hnull], hnull⟩)))
      · by_cases hsize : pathBytesLimit ≤ path.utf8ByteSize
        · exact .inr (.barred hclosed hbarred (.inr (.inr (by simp [hdot, hnull, hsize]))))
        · exact .inl (by simp [hdot, hnull, hsize, hbarred])
  · have hstops : ¬ Passes x.1 := by
      rintro (hpasses | hpasses) <;> rw [hpasses] at hstopped <;> simp at hstopped
    obtain rfl := (hx.resolve_left fun hpasses => hstops hpasses.1).2
    exact ⟨rfl, .inr (.barred hclosed hbarred (.inr (hstopped.imp_left fun hnull =>
      ⟨hnull.1, (Path.prefix_toList_parent path).subset hnull.2⟩)))⟩

end Below

/-- A path that strays takes the paths below along. -/
theorem Strays.below (hclean : Path.IsClean path) {x y x' y' : Except PathFault Unit × Disk}
    (h : Strays (Path.parent path) x y)
    (hx : Passes x.1 ∧ x' = x.2.ensureLast path ∨ ¬ Passes x.1 ∧ x' = x)
    (hy : Passes y.1 ∧ y' = y.2.ensureLast path ∨ ¬ Passes y.1 ∧ y' = y) :
    x'.2 = x.2 ∧ y'.2 = y.2 ∧ (y'.1 = x'.1 ∨ Strays path x' y') := by
  -- the later disk has stopped above, so that only the earlier one may go on
  obtain rfl := (hy.resolve_left fun hpasses => h.not_passes hpasses.1).2
  cases h with
  | far hsize hlong hcases =>
    obtain ⟨hdisk, hresult⟩ := below_of_too_long hclean hx
      (Nat.le_trans hsize (Path.utf8ByteSize_parent_le path)) hlong (hcases.imp_left And.left)
    exact ⟨hdisk, rfl, hresult⟩
  | barred hclosed hbarred hcases =>
    obtain ⟨hdisk, hresult⟩ := below_of_barred hclean hx hclosed hbarred hcases
    exact ⟨hdisk, rfl, hresult⟩

/-- The directories of a path are made alike on two disks. -/
def MadeAlike (d e : Disk) (path : String) : Prop :=
  Alike d e (d.makeDirs path) (e.makeDirs path) ∧
    ((e.makeDirs path).1 = (d.makeDirs path).1 ∨
      Strays path (d.makeDirs path) (e.makeDirs path))

section Below

variable (hd : d.IsTree) (he : e.IsTree) (hclean : Path.IsClean path)
  (hplain : Path.IsPlain path) (hadmits : Admits e d (d.makeDirs path).2)
  (ih : MadeAlike d e (Path.parent path))
include hd he hclean hplain hadmits ih

/-- Both disks lack the directory above. -/
theorem madeAlike_of_not_holds
    (hdeq : Passes (d.makeDirs (Path.parent path)).1 ∧
        d.makeDirs path = (d.makeDirs (Path.parent path)).2.ensureLast path ∨
      ¬ Passes (d.makeDirs (Path.parent path)).1 ∧ d.makeDirs path = d.makeDirs (Path.parent path))
    (heeq : Passes (e.makeDirs (Path.parent path)).1 ∧
        e.makeDirs path = (e.makeDirs (Path.parent path)).2.ensureLast path ∨
      ¬ Passes (e.makeDirs (Path.parent path)).1 ∧
        e.makeDirs path = e.makeDirs (Path.parent path)) :
    MadeAlike d e path := by
  obtain ⟨halike, hresult⟩ := ih
  have htree := (makeDirs_extends hd (Path.parent path)).2
  rcases hresult with hresult | hstrays
  · -- above both came to the same, so both go on or both stop there
    rw [hresult] at heeq
    rcases hdeq with ⟨hpasses, hdeq⟩ | ⟨hstops, hdeq⟩
    · have heeq := (heeq.resolve_right fun hstops => hstops.1 hpasses).2
      rw [hdeq] at hadmits
      obtain ⟨hlast, halike'⟩ := ensureLast_alike halike.grown htree
        (makeDirs_extends he (Path.parent path)).2 hclean hplain
        (reach_ne_noEntry_of_makeDirs hd (Path.isClean_parent path) hplain.parent hpasses)
        (hadmits.later (makeDirs_grows d _) (makeDirs_grows e _))
      rw [MadeAlike, hdeq, heeq]
      exact ⟨halike.trans halike' (makeDirs_grows d _) (ensureLast_grows _ _), .inl hlast⟩
    · have heeq := (heeq.resolve_left fun hpasses => hstops hpasses.1).2
      rw [MadeAlike, hdeq, heeq]
      exact ⟨halike, .inl hresult⟩
  · obtain ⟨hdisk, hdisk', hresult⟩ := hstrays.below hclean hdeq heeq
    refine ⟨⟨?_, ?_⟩, hresult⟩
    · rw [hdisk, hdisk']
      exact halike.grown
    · rw [hdisk, hdisk']
      exact halike.mirrors

omit hclean hadmits in
/-- What only the later disk has above is a new directory. -/
theorem reach_of_holds (h : Extends d e) (hdholds : d.holds (Path.parent path) = false)
    (heholds : e.holds (Path.parent path) = true) :
    Fits (Path.parent path) ∧
      ∃ c, e.reach (Path.parent path) = .ok c ∧
        e.permits c .search = d.permitsNew .search := by
  obtain ⟨c, hc, hsome⟩ := (e.holds_iff _).mp heholds
  have hnone := h.look_eq_none_of_holds hd hplain.parent hdholds hc
  have hfits := fits_of_locate hc
  refine ⟨hfits, c, ?_⟩
  cases hlook : e.look c with
  | none => exact absurd hlook hsome
  | some node =>
    cases node with
    | directory mode =>
      obtain rfl := h.newDirs c mode hnone hlook
      refine ⟨reach_of_locate hc ⟨_, hlook⟩, ?_⟩
      rw [permits, hlook]
      rfl
    | file content mode =>
      -- the earlier disk would have found the file as well
      have hfound := makeDirs_of_locate he (Path.isClean_parent path) hc
      simp only [makeAt, hlook] at hfound
      rcases ih.2 with hsame | hstrays
      · rw [hfound] at hsame
        obtain ⟨content, mode, hfile⟩ := file_of_makeDirs hd (Path.isClean_parent path) hsame.symm
        rw [← h.spelled_eq, spelled_of_locate hc, hnone] at hfile
        cases hfile
      · rw [hfound] at hstrays
        exact absurd (Or.inr rfl) hstrays.not_passes

/-- Only the later disk has the directory above; the earlier one makes it first. -/
theorem madeAlike_of_holds (h : Extends d e)
    (hdholds : d.holds (Path.parent path) = false) (heholds : e.holds (Path.parent path) = true)
    (hdeq : Passes (d.makeDirs (Path.parent path)).1 ∧
        d.makeDirs path = (d.makeDirs (Path.parent path)).2.ensureLast path ∨
      ¬ Passes (d.makeDirs (Path.parent path)).1 ∧ d.makeDirs path = d.makeDirs (Path.parent path))
    (heeq : e.makeDirs path = e.ensureDir path) : MadeAlike d e path := by
  obtain ⟨hfits, c, hc, hsearch⟩ := reach_of_holds hd he hplain ih h hdholds heholds
  obtain ⟨halike, hresult⟩ := ih
  have htree := (makeDirs_extends hd (Path.parent path)).2
  rw [makeDirs_of_reach he (Path.isClean_parent path) hfits hc] at halike hresult
  have hok : (d.makeDirs (Path.parent path)).1 = .ok () := by
    rcases hresult with hok | hstrays
    · exact hok.symm
    · exact absurd (Or.inl rfl) hstrays.not_passes
  have hreach := reach_ne_noEntry_of_makeDirs hd (Path.isClean_parent path) hplain.parent
    (Or.inl hok)
  have hdeq := (hdeq.resolve_right fun hstops => hstops.1 (Or.inl hok)).2
  rw [hdeq] at hadmits
  rw [MadeAlike, hdeq]
  -- a last dot is looked at on the later disk only
  by_cases hdot : Path.endsInDot path = true
  · have hlast := hclean.endsInDot_iff.mp hdot
    have hnull : '\x00' ∉ path.toList := by
      rw [Path.mem_toList_iff (by decide), hlast]
      simp [hfits.1]
    rw [ensureLast, if_pos hdot]
    by_cases hsize : pathBytesLimit ≤ path.utf8ByteSize
    · rw [heeq, ensureDir_eq hclean, locate_of_too_long hsize, if_neg hnull]
      exact ⟨⟨halike.grown, halike.mirrors⟩, .inr (.far hsize rfl (.inl ⟨rfl, hdot⟩))⟩
    · have hne : path ≠ "" := by
        rintro rfl
        rw [Path.lastName_empty] at hlast
        exact absurd hlast (by decide)
      have hfits' : Fits path := ⟨hnull, hne, by omega⟩
      cases hopen : d.permitsNew .search with
      | true =>
        have hthere : e.reach path = .ok c := by
          rw [reach_eq, hc, hlast, ok_bind]
          simp [enter_dot, hsearch, hopen]
        rw [makeDirs_of_reach he hclean hfits' hthere]
        exact ⟨⟨halike.grown, halike.mirrors⟩, .inl rfl⟩
      | false =>
        have henter : e.enter c "." = .error (.refused .notPermitted) := by
          simp [enter_dot, hsearch, hopen]
        -- the earlier disk is barred as well, but does not look
        have hc' : (d.makeDirs (Path.parent path)).2.reach (Path.parent path) = .ok c := by
          rw [← hc]
          exact ((halike.grown.reach_cases htree hplain.parent).resolve_right
            fun hno => hreach hno.1).symm
        have hbarred : (d.makeDirs (Path.parent path)).2.reach path =
            .error (.refused .notPermitted) := by
          rw [reach_eq, hc', ok_bind, hlast, ← halike.grown.enter_eq_of_isDots
            (htree.holdsDir_of_reach hc').look_ne_none (by decide), henter]
        have hclosed : (d.makeDirs (Path.parent path)).2.permitsNew .search = false := by
          rw [permitsNew_of_umask (makeDirs_extends hd _).1.umask, hopen]
        rw [heeq, ensureDir_eq hclean, locate_of_fits hfits', hc, ok_bind, hlast, child,
          if_pos (by decide), henter]
        exact ⟨⟨halike.grown, halike.mirrors⟩, .inr (.barred hclosed rfl (.inl ⟨rfl, hbarred⟩))⟩
  · have hgrows := ensureLast_grows (d.makeDirs (Path.parent path)).2 path
    rw [ensureLast, if_neg hdot] at hgrows hadmits ⊢
    obtain ⟨hlast, halike'⟩ := ensureDir_alike halike.grown htree he hclean hplain hreach
      (hadmits.later (makeDirs_grows d _) (Grows.refl e))
    rw [heeq]
    exact ⟨halike.trans halike' (makeDirs_grows d _) hgrows, .inl hlast⟩

end Below

/-- Making the directories of a path ends alike on a disk and on a later one, unless
the path strays. -/
theorem makeDirs_alike (h : Extends d e) (hd : d.IsTree) (he : e.IsTree)
    (hclean : Path.IsClean path) (hplain : Path.IsPlain path)
    (hadmits : Admits e d (d.makeDirs path).2) : MadeAlike d e path := by
  induction path, hclean using Path.IsClean.induction with
  | single path hclean hnone =>
    have hreach : d.reach (Path.parent path) ≠ .error (.refused .noEntry) := by
      rw [reach, hclean.steps_parent hnone]
      simp
    have heq : ∀ f : Disk, f.makeDirs path = f.ensureDir path := by
      intro f
      rcases makeDirs_eq hclean f with ⟨-, heq⟩ | ⟨⟨hlast, hparent, -⟩, -⟩
      · exact heq
      · exact absurd hnone (by simp [hlast, hparent])
    rw [heq d] at hadmits
    obtain ⟨hresult, halike⟩ := ensureDir_alike h hd he hclean hplain hreach hadmits
    rw [MadeAlike, heq d, heq e]
    exact ⟨halike, .inl hresult⟩
  | below path hclean hlast hparent ih =>
    -- what the earlier disk has above, the later one has too; else each may make it first
    rcases makeDirs_eq hclean d with ⟨hdholds, hdeq⟩ | ⟨⟨-, -, hdholds⟩, hdeq⟩
    · have hdholds : d.holds (Path.parent path) = true := by simpa [hlast, hparent] using hdholds
      have heholds := h.holds hd hplain.parent hdholds
      have heeq : e.makeDirs path = e.ensureDir path := by
        rcases makeDirs_eq hclean e with ⟨-, heeq⟩ | ⟨⟨-, -, heholds'⟩, -⟩
        · exact heeq
        · rw [heholds] at heholds'
          cases heholds'
      obtain ⟨l, hl, hsome⟩ := (d.holds_iff _).mp hdholds
      rw [hdeq] at hadmits
      obtain ⟨hresult, halike⟩ := ensureDir_alike h hd he hclean hplain
        (reach_ne_noEntry_of_locate hl hsome) hadmits
      rw [MadeAlike, hdeq, heeq]
      exact ⟨halike, .inl hresult⟩
    · have hgrows : Grows (d.makeDirs (Path.parent path)).2 (d.makeDirs path).2 := by
        rcases hdeq with ⟨-, hdeq⟩ | ⟨-, hdeq⟩
        · rw [hdeq]
          exact ensureLast_grows _ _
        · rw [hdeq]
          exact Grows.refl _
      have ih := ih hplain.parent (hadmits.mono hgrows)
      rcases makeDirs_eq hclean e with ⟨heholds, heeq⟩ | ⟨-, heeq⟩
      · have heholds : e.holds (Path.parent path) = true := by
          simpa [hlast, hparent] using heholds
        exact madeAlike_of_holds hd he hclean hplain hadmits ih h hdholds heholds hdeq heeq
      · exact madeAlike_of_not_holds hd he hclean hplain hadmits ih hdeq heeq

/-! ### A path that strays -/

/-- A disk with one directory. -/
def withO : Disk := ({} : Disk).set #["o"] (.directory 0o755)

section FarDot

variable {k : Nat} (hk : pathBytesLimit ≤ k)
include hk

theorem farDot_too_long : pathBytesLimit ≤ ("o/" ++ Path.farDot k).utf8ByteSize :=
  Nat.le_trans hk (Path.le_utf8ByteSize_append_farDot "o/" k)

/-- Where the directory above has to be made, the dot far out is not looked at. -/
theorem makeDirs_farDot_fresh : makeDirs {} ("o/" ++ Path.farDot k) = (.ok (), withO) := by
  have hclean := Path.isClean_append_farDot "o/" k
  have habove : makeDirs {} "o/." = (.ok (), withO) := by decide +kernel
  have heq := makeDirs_eq hclean {}
  rw [Path.lastName_append_farDot, Path.parent_append_farDot] at heq
  rcases heq with ⟨hholds, -⟩ | ⟨-, ⟨-, heq⟩ | ⟨hstops, -⟩⟩
  · exact absurd hholds (by decide +kernel)
  · rw [heq, ensureLast_of_too_long hclean (farDot_too_long hk),
      if_pos (hclean.endsInDot_iff.mpr (Path.lastName_append_farDot "o/" k))]
    exact congrArg (Prod.mk _) (congrArg Prod.snd habove)
  · exact absurd (Or.inl (congrArg Prod.fst habove)) hstops

/-- Where it is there, the path is found to be too long. -/
theorem makeDirs_farDot_again :
    withO.makeDirs ("o/" ++ Path.farDot k) = (.error (.refused .nameTooLong), withO) := by
  have hclean := Path.isClean_append_farDot "o/" k
  have hnull : '\x00' ∉ ("o/" ++ Path.farDot k).toList := by
    rw [Path.toList_append_farDot]
    simp
  have heq := makeDirs_eq hclean withO
  rw [Path.lastName_append_farDot, Path.parent_append_farDot] at heq
  rcases heq with ⟨-, heq⟩ | ⟨⟨-, -, hholds⟩, -⟩
  · rw [heq, ensureDir_eq hclean, locate_of_too_long (farDot_too_long hk), if_neg hnull]
  · exact absurd hholds (by decide +kernel)

theorem not_holds_farDot (d : Disk) : d.holds ("o/" ++ Path.farDot k) = false := by
  by_contra hholds
  obtain ⟨l, hl, -⟩ := (d.holds_iff _).mp (by simpa using hholds)
  rw [locate_of_too_long (farDot_too_long hk)] at hl
  cases hl

omit hk in
/-- How a path with a null character below the dot splits. -/
theorem nullBelow_split (k : Nat) :
    (Path.join ("o/" ++ Path.farDot k) "\x00").toList =
        ("o/" ++ Path.farDot k).toList ++ ['/', '\x00'] ∧
      Path.parent (Path.join ("o/" ++ Path.farDot k) "\x00") = "o/" ++ Path.farDot k ∧
      Path.lastName (Path.join ("o/" ++ Path.farDot k) "\x00") = "\x00" ∧
      Path.IsClean (Path.join ("o/" ++ Path.farDot k) "\x00") := by
  obtain ⟨hlist, hparent, hlast⟩ := Path.join_split
    ((Path.toList_append_farDot "o/" k).trans (List.append_cons _ _ _)) (by decide)
    (show '/' ∉ "\x00".toList by decide)
  exact ⟨hlist, hparent, hlast,
    Path.isClean_of_toList (hlist.trans (List.append_cons _ _ _)) (by decide)⟩

/-- A null character below is found where the dot is not looked at. -/
theorem makeDirs_nullBelow_fresh :
    makeDirs {} (Path.join ("o/" ++ Path.farDot k) "\x00") = (.error .nullCharacter, withO) := by
  obtain ⟨hlist, hparent, hlast, hclean⟩ := nullBelow_split k
  have hlong : pathBytesLimit ≤ (Path.join ("o/" ++ Path.farDot k) "\x00").utf8ByteSize := by
    refine Nat.le_trans (farDot_too_long hk) ?_
    conv_lhs => rw [← hparent]
    exact Path.utf8ByteSize_parent_le _
  have hdot : Path.endsInDot (Path.join ("o/" ++ Path.farDot k) "\x00") = false := by
    rw [← Bool.not_eq_true, hclean.endsInDot_iff, hlast]
    decide
  have heq := makeDirs_eq hclean {}
  rw [hparent, hlast, not_holds_farDot hk, makeDirs_farDot_fresh hk] at heq
  rcases heq with ⟨habove, -⟩ | ⟨-, ⟨-, heq⟩ | ⟨hstops, -⟩⟩
  · simp at habove
  · rw [heq, ensureLast_of_too_long hclean hlong, hdot, hlist]
    simp
  · exact absurd (Or.inl rfl) hstops

theorem makeDirs_nullBelow_again :
    withO.makeDirs (Path.join ("o/" ++ Path.farDot k) "\x00") =
      (.error (.refused .nameTooLong), withO) := by
  obtain ⟨-, hparent, hlast, hclean⟩ := nullBelow_split k
  have heq := makeDirs_eq hclean withO
  rw [hparent, hlast, not_holds_farDot hk, makeDirs_farDot_again hk] at heq
  rcases heq with ⟨habove, -⟩ | ⟨-, ⟨hpasses, -⟩ | ⟨-, heq⟩⟩
  · simp at habove
  · rcases hpasses with hpasses | hpasses <;> cases hpasses
  · exact heq

end FarDot

end SharpEmit.Disk
