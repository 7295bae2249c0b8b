/-
SharpEmit/Proofs/Conversion/Steps.lean

The steps of a conversion, seen from outside.  `Ends` lists the ways in which a
conversion ends, with the disk that each leaves, and `convert_ends` says that there are
no others.  `Touches` lists what a step can leave: the disk as it was, with the
directories of a path, or with the file of the path replaced.  Each of them extends the
disk (`Touches.toExtends`), and what it changes is on the way of the path or in its
place (`Touches.change`).

A step spares the paths that lead elsewhere (`Touches.spares`), and it goes on alike
after changes that spare its own path (`Spares.place_alike`, `Spares.store_alike`).
-/
import SharpEmit.Conversion.Single
import SharpEmit.CSharp.Target
import SharpEmit.Proofs.CSharp.Layout
import SharpEmit.Proofs.Storage.Agreement
import SharpEmit.Proofs.Storage.Replacement

namespace SharpEmit

/-! ### Regular targets -/

/-- A target whose renderings close every block, and whose files have names that name
something. -/
structure Target.IsRegular (t : Target) : Prop where
  complete : ∀ d b, t.render d = .ok b → ∃ text, b.complete = .ok text
  named : ∀ root d, Disk.isDots (Path.lastName (t.outputPath root d)) = false

theorem Path.getLast?_lastName {path : String} {cs : List Char} {c : Char}
    (h : path.toList = cs ++ [c]) (hc : c ≠ '/') : (lastName path).toList.getLast? = some c := by
  simp [lastName, splitLast, h, hc]

theorem Path.toList_join (base path : String) : ∃ cs, (join base path).toList = cs ++ path.toList := by
  unfold join
  split
  · exact ⟨[], rfl⟩
  · split
    · exact ⟨base.toList, String.toList_append⟩
    · exact ⟨(base ++ "/").toList, String.toList_append⟩

theorem CSharp.target_isRegular (n : Naming) : (CSharp.target n).IsRegular where
  complete d b h := by
    have heq := CSharp.render_eq n d
    rw [show (CSharp.target n).render d = CSharp.render n d from rfl, heq] at h
    split at h <;> cases h
    exact ⟨_, rfl⟩
  named root d := by
    obtain ⟨cs, hcs⟩ := Path.toList_join (Path.joinAll root d.package)
      (identifier d.name ++ "." ++ "cs")
    have hlast : ((target n).outputPath root d).toList =
        (cs ++ (identifier d.name ++ "." ++ "c").toList) ++ ['s'] := by
      rw [show (target n).outputPath root d = Path.join (Path.joinAll root d.package)
        (identifier d.name ++ "." ++ "cs") from rfl, hcs]
      simp
    -- a name that ends in a letter is none of the names without one
    have hletter := Path.getLast?_lastName hlast (by decide)
    by_contra hdots
    simp only [Disk.isDots, Bool.not_eq_false, Bool.or_eq_true, decide_eq_true_eq] at hdots
    rcases hdots with (hdots | hdots) | hdots <;> rw [hdots] at hletter <;> simp at hletter

namespace Conversion

/-! ### Outcomes of steps -/

/-- What a step comes to after an operation on the disk. -/
def stepOutcome (d : Declaration) (cause : Refusal → Cause) :
    Except PathFault Unit → Except Abort Unit
  | .ok () => .ok ()
  | .error .nullCharacter => .error .nullCharacter
  | .error (.refused r) => .error (.failed ⟨d.name, cause r⟩)

theorem place_eq (disk : Disk) (d : Declaration) (path : String) :
    place disk d path =
      (stepOutcome d (.uncreated (Path.parent path)) (disk.makeDirs (Path.parent path)).1,
        (disk.makeDirs (Path.parent path)).2) := by
  unfold place
  split <;> rename_i h <;> rw [h] <;> rfl

theorem store_eq {b : LineBuffer} {text : String} (h : b.complete = .ok text) (disk : Disk)
    (d : Declaration) (path : String) :
    store disk d path b =
      (stepOutcome d (.unwritten path) (disk.replace path text.toUTF8).1,
        (disk.replace path text.toUTF8).2) := by
  unfold store
  rw [h]
  dsimp only
  split <;> rename_i h <;> rw [h] <;> rfl

theorem placed_of_place {disk placed : Disk} {d : Declaration} {path : String}
    {r : Except Abort Unit} (h : place disk d path = (r, placed)) :
    placed = (disk.makeDirs (Path.parent path)).2 := by
  rw [place_eq] at h
  exact (congrArg Prod.snd h).symm

/-- New directories do not change what a path spells. -/
theorem spelled_of_place {disk placed : Disk} {d : Declaration} {path : String}
    {r : Except Abort Unit} (h : place disk d path = (r, placed)) (p : String) :
    placed.spelled p = disk.spelled p := by
  rw [placed_of_place h]
  exact Disk.spelled_of_here (disk.makeDirs_here _) p

/-- Text that is not written leaves no trace. -/
theorem store_eq_self_of_error {disk stored : Disk} {d : Declaration} {path : String}
    {b : LineBuffer} {abort : Abort}
    (h : store disk d path b = (.error abort, stored)) : stored = disk := by
  unfold store at h
  split at h
  · exact (congrArg Prod.snd h).symm
  · rename_i text _
    split at h
    · cases h
    all_goals
      rename_i e hreplace
      have hfail := Disk.replace_eq_self_of_error (congrArg Prod.fst hreplace)
      rw [hreplace] at hfail
      rw [← hfail]
      exact (congrArg Prod.snd h).symm

/-! ### The ends of a conversion -/

/-- How a conversion can end: with what value, and with which disk. -/
inductive Ends (t : Target) (root : String) (disk : Disk) (d : Declaration) :
    Except Abort Result → Disk → Prop
  | skipped {reason} :
      skipReason disk d (t.outputPath root d) = some reason →
      Ends t root disk d (.ok ⟨d.name, t.outputPath root d, some reason⟩) disk
  | unrendered {failure} :
      skipReason disk d (t.outputPath root d) = none →
      generate t d = .error failure →
      Ends t root disk d (.error (.failed failure)) disk
  | unplaced {buffer abort placed} :
      skipReason disk d (t.outputPath root d) = none →
      generate t d = .ok buffer →
      place disk d (t.outputPath root d) = (.error abort, placed) →
      Ends t root disk d (.error abort) placed
  | unstored {buffer placed abort stored} :
      skipReason disk d (t.outputPath root d) = none →
      generate t d = .ok buffer →
      place disk d (t.outputPath root d) = (.ok (), placed) →
      store placed d (t.outputPath root d) buffer = (.error abort, stored) →
      Ends t root disk d (.error abort) stored
  | written {buffer placed stored} :
      skipReason disk d (t.outputPath root d) = none →
      generate t d = .ok buffer →
      place disk d (t.outputPath root d) = (.ok (), placed) →
      store placed d (t.outputPath root d) buffer = (.ok (), stored) →
      Ends t root disk d (.ok ⟨d.name, t.outputPath root d, none⟩) stored

/-- A conversion ends in one of these ways. -/
theorem convert_ends (t : Target) (root : String) (disk : Disk) (d : Declaration) :
    Ends t root disk d (convert t root disk d).value (convert t root disk d).disk := by
  unfold convert
  dsimp only
  split
  · rename_i hskip
    exact .skipped hskip
  · rename_i hskip
    split
    · rename_i hgen
      exact .unrendered hskip hgen
    · rename_i hgen
      split
      · rename_i hplace
        exact .unplaced hskip hgen hplace
      · rename_i hplace
        split
        · rename_i hstore
          exact .unstored hskip hgen hplace hstore
        · rename_i hstore
          exact .written hskip hgen hplace hstore

section Begun

variable {t : Target} {root : String} {disk : Disk} {d : Declaration} {b : LineBuffer}
  (hskip : skipReason disk d (t.outputPath root d) = none) (hgen : generate t d = .ok b)
include hskip hgen

theorem convert_of_place_error {abort : Abort}
    (h : (place disk d (t.outputPath root d)).1 = .error abort) :
    (convert t root disk d).value = .error abort ∧
      (convert t root disk d).disk = (place disk d (t.outputPath root d)).2 := by
  generalize hplace : place disk d (t.outputPath root d) = x at h
  obtain ⟨r, placed⟩ := x
  cases h
  simp only [convert, hskip, hgen, hplace]
  exact ⟨trivial, trivial⟩

theorem convert_of_place_ok (h : (place disk d (t.outputPath root d)).1 = .ok ()) :
    (convert t root disk d).value =
        (store (place disk d (t.outputPath root d)).2 d (t.outputPath root d) b).1.map
          (fun _ => ⟨d.name, t.outputPath root d, none⟩) ∧
      (convert t root disk d).disk =
        (store (place disk d (t.outputPath root d)).2 d (t.outputPath root d) b).2 := by
  generalize hplace : place disk d (t.outputPath root d) = x at h
  obtain ⟨r, placed⟩ := x
  cases h
  dsimp only
  generalize hstore : store placed d (t.outputPath root d) b = y
  obtain ⟨r, stored⟩ := y
  cases r with
  | error abort =>
    simp only [convert, hskip, hgen, hplace, hstore]
    exact ⟨rfl, trivial⟩
  | ok u =>
    simp only [convert, hskip, hgen, hplace, hstore]
    exact ⟨rfl, trivial⟩

end Begun

/-! ### What a step changes -/

/-- What a step of the conversion to a path can leave of a disk. -/
inductive Touches (path : String) (disk : Disk) : Disk → Prop
  | nothing : Touches path disk disk
  | directories : Touches path disk (disk.makeDirs (Path.parent path)).2
  | file {content : ByteArray} :
      disk.replaceFault? path = none → Touches path disk (disk.replaced path content)

/-- The path goes down from where it starts to a name that names something. -/
structure Leads (path : String) : Prop where
  plain : Path.IsPlain path
  named : Disk.isDots (Path.lastName path) = false

variable {path : String} {disk after : Disk}

theorem Touches.toExtends (h : Touches path disk after) (hpath : Leads path) (hdisk : disk.IsTree) :
    disk.Extends after ∧ after.IsTree := by
  cases h with
  | nothing => exact ⟨Disk.Extends.refl disk, hdisk⟩
  | directories => exact Disk.makeDirs_extends hdisk _
  | file hfault => exact Disk.replaced_extends hdisk hpath.plain hpath.named hfault _

/-- What a step changes is a directory that was missing on the way, or what is in the
place of the path. -/
theorem Touches.change (h : Touches path disk after) (hpath : Leads path) {l : Location}
    (hl : after.look l ≠ disk.look l) :
    (OnWay l (disk.spelled (Path.parent path)) ∧ disk.look l = none ∧
        after.look l = some (.directory disk.newDirMode)) ∨
      l = disk.spelled path := by
  cases h with
  | nothing => exact absurd rfl hl
  | directories =>
    left
    refine ⟨?_, (Disk.makeDirs_grows disk _ l).resolve_left hl⟩
    by_contra haside
    exact hl (Disk.makeDirs_elsewhere (Path.isClean_parent path) hpath.plain.parent haside)
  | @file content hfault =>
    right
    by_contra hne
    have hset : Disk.IsSet disk _ (.file content _) _ := Disk.isSet_replaced hpath.named
    exact hl (by rw [hset.look, if_neg hne])

theorem place_touches (disk : Disk) (d : Declaration) (path : String) :
    Touches path disk (place disk d path).2 := by
  rw [place_eq]
  exact .directories

/-- Once its directory has been made, nothing is missing on the way of a path. -/
theorem reach_of_place {d : Declaration} (hpath : Leads path) (hdisk : disk.IsTree)
    (h : (place disk d path).1 = .ok ()) :
    (place disk d path).2.reach (Path.parent path) ≠ .error (.refused .noEntry) := by
  rw [place_eq] at h ⊢
  cases hr : (disk.makeDirs (Path.parent path)).1 with
  | error fault =>
    rw [hr] at h
    cases fault <;> cases h
  | ok u =>
    exact Disk.reach_ne_noEntry_of_makeDirs hdisk (Path.isClean_parent path) hpath.plain.parent
      (Or.inl hr)

theorem store_touches (hpath : Leads path) (disk : Disk) (d : Declaration) (b : LineBuffer) :
    Touches path disk (store disk d path b).2 := by
  cases hb : b.complete with
  | error fault =>
    simp only [store, hb]
    exact .nothing
  | ok text =>
    rw [store_eq hb, Disk.replace_eq hpath.plain hpath.named]
    cases hfault : disk.replaceFault? path with
    | some fault => exact .nothing
    | none => exact .file hfault

/-- A conversion makes two steps at most that change the disk. -/
theorem convert_touches {t : Target} {root : String} {d : Declaration}
    (hpath : Leads (t.outputPath root d)) (disk : Disk) :
    ∃ placed, Touches (t.outputPath root d) disk placed ∧
      Touches (t.outputPath root d) placed (convert t root disk d).disk := by
  have hends := convert_ends t root disk d
  have hplaced := place_touches disk d (t.outputPath root d)
  generalize (convert t root disk d).value = value at *
  generalize (convert t root disk d).disk = after at *
  cases hends with
  | skipped _ => exact ⟨disk, .nothing, .nothing⟩
  | unrendered _ _ => exact ⟨disk, .nothing, .nothing⟩
  | unplaced _ _ hplace =>
    rw [hplace] at hplaced
    exact ⟨_, hplaced, .nothing⟩
  | @unstored b placed _ _ _ _ hplace hstore =>
    have hstored := store_touches hpath placed d b
    rw [hplace] at hplaced
    rw [hstore] at hstored
    exact ⟨placed, hplaced, hstored⟩
  | @written b placed _ _ _ hplace hstore =>
    have hstored := store_touches hpath placed d b
    rw [hplace] at hplaced
    rw [hstore] at hstored
    exact ⟨placed, hplaced, hstored⟩

/-! ### Conversions that settle -/

section Settles

variable {t : Target} {root : String} {d : Declaration}

/-- A conversion comes to a result or a failure of its own declaration, and not to what
ends the whole batch. -/
inductive Settles (t : Target) (root : String) (d : Declaration) : Except Abort Result → Prop
  | result {reason} : Settles t root d (.ok ⟨d.name, t.outputPath root d, reason⟩)
  | failure {cause} : Settles t root d (.error (.failed ⟨d.name, cause⟩))

theorem settles_of_stepOutcome {cause : Refusal → Cause} {r : Except PathFault Unit} {abort : Abort}
    (h : stepOutcome d cause r = .error abort) (hnull : r ≠ .error .nullCharacter) :
    Settles t root d (.error abort) := by
  cases r with
  | ok => cases h
  | error fault =>
    cases fault with
    | nullCharacter => exact absurd rfl hnull
    | refused refusal =>
      cases h
      exact .failure

theorem render_of_generate {b : LineBuffer} (h : generate t d = .ok b) : t.render d = .ok b := by
  unfold generate at h
  cases hrender : t.render d with
  | error e =>
    rw [hrender] at h
    cases h
  | ok b' =>
    rw [hrender] at h
    cases h
    rfl

theorem settles_of_generate {failure : Failure} (h : generate t d = .error failure) :
    Settles t root d (.error (.failed failure)) := by
  unfold generate at h
  cases hrender : t.render d with
  | ok b =>
    rw [hrender] at h
    cases h
  | error e =>
    rw [hrender] at h
    cases h
    exact .failure

/-- Without null characters a conversion settles. -/
theorem convert_settles (ht : t.IsRegular) (hpath : Leads (t.outputPath root d))
    (hnull : '\x00' ∉ (t.outputPath root d).toList) (disk : Disk) :
    Settles t root d (convert t root disk d).value := by
  have hends := convert_ends t root disk d
  generalize (convert t root disk d).value = value at *
  generalize (convert t root disk d).disk = after at *
  cases hends with
  | skipped _ => exact .result
  | unrendered _ hgen => exact settles_of_generate hgen
  | unplaced _ _ hplace =>
    rw [place_eq, Prod.mk.injEq] at hplace
    refine settles_of_stepOutcome hplace.1 fun hr => ?_
    exact Path.null_not_mem_parent hnull (Disk.null_of_makeDirs (Path.isClean_parent _) hr)
  | @unstored buffer placed abort stored _ hgen hplace hstore =>
    obtain ⟨text, htext⟩ := ht.complete d buffer (render_of_generate hgen)
    rw [store_eq htext, Prod.mk.injEq] at hstore
    refine settles_of_stepOutcome hstore.1 fun hr => hnull ?_
    rw [Disk.replace_eq hpath.plain hpath.named] at hr
    cases hfault : placed.replaceFault? (t.outputPath root d) with
    | none =>
      rw [hfault] at hr
      cases hr
    | some fault =>
      rw [hfault] at hr
      cases hr
      exact Disk.null_of_replaceFault? hfault
  | written _ _ _ _ => exact .result

end Settles

/-! ### Paths that stray -/

/-- The directory of a path is too long, and ends in a dot that may not be looked at. -/
def IsFarDot (path : String) : Prop :=
  Path.endsInDot (Path.parent path) = true ∧
    Disk.pathBytesLimit ≤ (Path.parent path).utf8ByteSize

/-- No file can be written at the path: its directory is refused, or the file is. -/
def IsFutile (disk : Disk) (d : Declaration) (path : String) : Prop :=
  (∃ failure, (place disk d path).1 = .error (.failed failure)) ∨
    (place disk d path).1 = .ok () ∧
      ∀ b, ∃ abort, (store (place disk d path).2 d path b).1 = .error abort

theorem store_of_fault {fault : PathFault} (hpath : Leads path)
    (h : disk.replaceFault? path = some fault) (d : Declaration) (b : LineBuffer) :
    ∃ abort, (store disk d path b).1 = .error abort := by
  cases hb : b.complete with
  | error misuse => exact ⟨.misuse misuse, by simp only [store, hb]⟩
  | ok text =>
    rw [store_eq hb, Disk.replace_eq hpath.plain hpath.named, h]
    cases fault with
    | nullCharacter => exact ⟨_, rfl⟩
    | refused r => exact ⟨_, rfl⟩

/-- A file below a directory to which the way is refused cannot be written. -/
theorem store_of_barred (hpath : Leads path) (hdisk : disk.IsTree) {fault : PathFault}
    (h : disk.reach (Path.parent path) = .error fault) (d : Declaration) (b : LineBuffer) :
    ∃ abort, (store disk d path b).1 = .error abort := by
  cases hfault : disk.replaceFault? path with
  | some fault => exact store_of_fault hpath hfault d b
  | none =>
    obtain ⟨-, hlocate, -⟩ := Disk.changeable_of_replaceFault? hdisk hpath.plain hpath.named hfault
    obtain ⟨c, hc, -⟩ := Disk.reach_parent_of_locate hlocate
    rw [h] at hc
    cases hc

/-- Where a path strays, its directory is refused later; before, the file cannot be written
either, or a null character is found. -/
theorem futile_of_strays (hpath : Leads path) (hdisk : disk.IsTree)
    (h : Disk.Strays (Path.parent path) (disk.makeDirs (Path.parent path))
      (after.makeDirs (Path.parent path))) (d : Declaration) :
    (∃ refusal, (place after d path).1 =
        .error (.failed ⟨d.name, .uncreated (Path.parent path) refusal⟩)) ∧
      (IsFutile disk d path ∧ (IsFarDot path ∨ disk.permitsNew .search = false) ∨
        '\x00' ∈ (Path.parent path).toList ∧
          (Disk.pathBytesLimit ≤ (Path.parent path).utf8ByteSize ∨
            disk.permitsNew .search = false)) := by
  obtain ⟨hext, htree⟩ := Disk.makeDirs_extends hdisk (Path.parent path)
  simp only [IsFutile, place_eq]
  cases h with
  | far hlong hrefused hcases =>
    refine ⟨⟨_, by rw [hrefused]; rfl⟩, ?_⟩
    rcases hcases with ⟨hok, hends⟩ | ⟨-, hmem⟩
    · obtain ⟨fault, hfault⟩ := Disk.replaceFault?_of_too_long
        (d := (disk.makeDirs (Path.parent path)).2)
        (Nat.le_trans hlong (Path.utf8ByteSize_parent_le path))
      exact .inl ⟨.inr ⟨by rw [hok]; rfl, store_of_fault hpath hfault d⟩, .inl ⟨hends, hlong⟩⟩
    · exact .inr ⟨hmem, .inl hlong⟩
  | barred hclosed hrefused hcases =>
    rw [Disk.permitsNew_of_umask hext.umask] at hclosed
    refine ⟨⟨_, by rw [hrefused]; rfl⟩, ?_⟩
    rcases hcases with ⟨hok, hreach⟩ | ⟨-, hmem⟩ | hlong
    · exact .inl ⟨.inr ⟨by rw [hok]; rfl, store_of_barred hpath htree hreach d⟩, .inr hclosed⟩
    · exact .inr ⟨hmem, .inr hclosed⟩
    · exact .inl ⟨.inl ⟨_, by rw [hlong]; rfl⟩, .inr hclosed⟩

/-! ### Steps elsewhere -/

/-- What became of a disk spares a path: no file has come on its way, and nothing has
changed in its place. -/
structure Spares (path : String) (disk after : Disk) : Prop where
  toExtends : disk.Extends after
  way : ∀ l content mode, OnWay l (disk.spelled (Path.parent path)) → disk.look l = none →
    after.look l ≠ some (.file content mode)
  target : after.look (disk.spelled path) = disk.look (disk.spelled path)

/-- A step spares a path that leads to another place, neither above nor below. -/
theorem Touches.spares {other : String} (h : Touches path disk after) (hpath : Leads path)
    (hother : Leads other) (hdisk : disk.IsTree)
    (hbelow : ¬ OnWay (disk.spelled path) (disk.spelled other))
    (habove : ¬ OnWay (disk.spelled other) (disk.spelled path)) : Spares other disk after := by
  refine ⟨(h.toExtends hpath hdisk).1, fun l content mode hon hnone hfile => ?_, ?_⟩
  · have hl : after.look l ≠ disk.look l := by simp [hnone, hfile]
    rcases h.change hpath hl with ⟨-, -, hdir⟩ | rfl
    · rw [hdir] at hfile
      cases hfile
    · exact hbelow (hon.trans (Disk.onWay_spelled_parent hother.plain disk))
  · by_contra hl
    rcases h.change hpath hl with ⟨hon, -, -⟩ | heq
    · exact habove (hon.trans (Disk.onWay_spelled_parent hpath.plain disk))
    · rw [heq] at habove
      exact habove (OnWay.refl _)

namespace Spares

theorem of_same (h : disk.Same after) : Spares path disk after := by
  refine ⟨Disk.Extends.of_same h, fun l content mode _ hnone => ?_, h.look _⟩
  rw [h.look, hnone]
  simp

theorem holds_eq (h : Spares path disk after) (hpath : Leads path) (hdisk : disk.IsTree) :
    after.holds path = disk.holds path := by
  cases hholds : disk.holds path with
  | true => exact h.toExtends.holds hdisk hpath.plain hholds
  | false =>
    by_contra hafter
    obtain ⟨l, hl, hsome⟩ := (after.holds_iff path).mp (by simpa using hafter)
    have hnone := h.toExtends.look_eq_none_of_holds hdisk hpath.plain hholds hl
    rw [← Disk.spelled_of_locate hl, h.toExtends.spelled_eq] at hsome hnone
    exact hsome (h.target.trans hnone)

theorem skipReason_eq (h : Spares path disk after) (hpath : Leads path) (hdisk : disk.IsTree)
    (d : Declaration) : skipReason after d path = skipReason disk d path := by
  simp only [skipReason, h.holds_eq hpath hdisk]

/-- The directories of the path are made alike, unless it strays. -/
theorem madeAlike (h : Spares path disk after) (hpath : Leads path) (hdisk : disk.IsTree)
    (hafter : after.IsTree) : Disk.MadeAlike disk after (Path.parent path) := by
  refine Disk.makeDirs_alike h.toExtends hdisk hafter (Path.isClean_parent path)
    hpath.plain.parent fun l content mode hnone hsome => ?_
  have hl : (disk.makeDirs (Path.parent path)).2.look l ≠ disk.look l := by
    rw [hnone]
    exact hsome
  refine h.way l content mode ?_ hnone
  by_contra haside
  exact hl (Disk.makeDirs_elsewhere (Path.isClean_parent path) hpath.plain.parent haside)

/-- What is made of directories is the same, even if the path strays. -/
theorem place_mirrors (h : Spares path disk after) (hpath : Leads path) (hdisk : disk.IsTree)
    (hafter : after.IsTree) (d : Declaration) :
    Disk.Mirrors disk (place disk d path).2 after (place after d path).2 := by
  rw [Conversion.place_eq, Conversion.place_eq]
  exact (h.madeAlike hpath hdisk hafter).1.mirrors

/-- Directories are made alike after changes that spare the path. -/
theorem place_alike (h : Spares path disk after) (hpath : Leads path) (hdisk : disk.IsTree)
    (hafter : after.IsTree) (hnull : '\x00' ∉ path.toList)
    (hdot : Path.endsInDot (Path.parent path) = true →
      (Path.parent path).utf8ByteSize < Disk.pathBytesLimit)
    (hsearch : disk.permitsNew .search = true) (d : Declaration) :
    (place after d path).1 = (place disk d path).1 := by
  obtain ⟨-, hsame | hstrays⟩ := h.madeAlike hpath hdisk hafter
  · rw [Conversion.place_eq, Conversion.place_eq, hsame]
  · rcases (futile_of_strays hpath hdisk hstrays d).2 with ⟨-, ⟨hends, hlong⟩ | hclosed⟩ | hmem
    · exact absurd (hdot hends) (Nat.not_lt.mpr hlong)
    · rw [hsearch] at hclosed
      cases hclosed
    · exact absurd hmem.1 (Path.null_not_mem_parent hnull)

/-- A file is written alike after changes that spare the path. -/
theorem store_alike (h : Spares path disk after) (hpath : Leads path) (hdisk : disk.IsTree)
    (hreach : disk.reach (Path.parent path) ≠ .error (.refused .noEntry)) (d : Declaration)
    (b : LineBuffer) :
    (store after d path b).1 = (store disk d path b).1 ∧
      Disk.Mirrors disk (store disk d path b).2 after (store after d path b).2 := by
  cases hb : b.complete with
  | error fault =>
    simp only [store, hb]
    exact ⟨trivial, Disk.Mirrors.refl disk after⟩
  | ok text =>
    rw [Conversion.store_eq hb, Conversion.store_eq hb,
      Disk.replace_eq hpath.plain hpath.named, Disk.replace_eq hpath.plain hpath.named]
    -- only a directory in the place of the file could make a difference, and none is new there
    have hfault : after.replaceFault? path = disk.replaceFault? path := by
      rcases Disk.replaceFault?_cases h.toExtends hdisk hpath.plain hpath.named hreach with
        hfault | ⟨hnone, ⟨mode, hdir⟩, -⟩
      · exact hfault
      · obtain ⟨-, -, hleaf⟩ :=
          Disk.changeable_of_replaceFault? hdisk hpath.plain hpath.named hnone
        exact absurd ⟨mode, h.target.symm.trans hdir⟩ hleaf
    rw [hfault]
    cases disk.replaceFault? path with
    | some fault => exact ⟨rfl, Disk.Mirrors.refl disk after⟩
    | none =>
      refine ⟨rfl, fun l => ?_⟩
      have hset : Disk.IsSet disk _ (.file text.toUTF8 _) _ := Disk.isSet_replaced hpath.named
      have hset' : Disk.IsSet after _ (.file text.toUTF8 _) _ := Disk.isSet_replaced hpath.named
      have hmode : after.modeAt (disk.spelled path) = disk.modeAt (disk.spelled path) := by
        rw [Disk.modeAt, h.target, Disk.newFileMode_of_umask h.toExtends.umask, Disk.modeAt]
      dsimp only
      rw [hset.look, hset'.look, h.toExtends.spelled_eq, hmode]
      by_cases hl : l = disk.spelled path
      · rw [if_pos hl, if_pos hl, hl, h.target]
        split
        · rename_i heq
          exact heq
        · rfl
      · rw [if_neg hl, if_neg hl, if_pos rfl]

end Spares

end Conversion

end SharpEmit
