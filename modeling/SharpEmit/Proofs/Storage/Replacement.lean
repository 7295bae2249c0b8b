/-
SharpEmit/Proofs/Storage/Replacement.lean

Replacing a file through a temporary one.  Among the names of temporary files one
is always free, so the temporary file stands where nothing was (`freshIn_spec`),
and removing it gives the disk from before it was made, entry by entry.  A
replacement that fails therefore leaves the disk as it was
(`replace_eq_self_of_error`).
-/
import Mathlib.Data.List.Nodup
import Mathlib.Data.List.Perm.Subperm
import SharpEmit.Proofs.Storage.Growth

namespace SharpEmit.Disk

/-! ### Entries -/

theorem filter_map_replace (es : List (Location × Node)) (l : Location) (node : Node) :
    (es.map fun e => if e.1 = l then (l, node) else e).filter (·.1 ≠ l) =
      es.filter (·.1 ≠ l) := by
  induction es with
  | nil => rfl
  | cons e es ih => by_cases he : e.1 = l <;> simp_all

/-- What a location held does not matter once it is erased. -/
theorem erase_set (d : Disk) (l : Location) (node : Node) : (d.set l node).erase l = d.erase l := by
  simp only [erase, set]
  congr 1
  split
  · exact filter_map_replace d.entries l node
  · simp

theorem erase_eq_self {d : Disk} {l : Location} (h : l ≠ #[]) (hnone : d.look l = none) :
    d.erase l = d := by
  have hentries : d.entries.filter (·.1 ≠ l) = d.entries := by
    rw [List.filter_eq_self]
    intro e he
    simpa using (look_eq_none_iff h).mp hnone e he
  rw [erase, hentries]

/-! ### Free names -/

theorem tempName_injective : Function.Injective tempName := by
  intro j k h
  have htext : (Nat.toDigits 10 j).leftpad 8 '0' = (Nat.toDigits 10 k).leftpad 8 '0' := by
    have hlist := congrArg String.toList h
    simp only [tempName, String.toList_append, String.toList_ofList] at hlist
    exact List.append_cancel_left (List.append_cancel_right hlist)
  -- the number is what its digits say, whatever zeros stand before them
  have hvalue : ∀ i, Nat.ofDigitChars 10 ((Nat.toDigits 10 i).leftpad 8 '0') 0 = i := by
    intro i
    simp [List.leftpad, Nat.ofDigitChars_append]
  rw [← hvalue j, ← hvalue k, htext]

/-- More temporary names are tried than can be taken. -/
theorem exists_free (d : Disk) (dir target : Location) :
    ∃ k ∈ List.range (d.entries.length + 2),
      ((d.look (dir.push (tempName k))).isNone && dir.push (tempName k) ≠ target) = true := by
  by_contra hall
  let tried := (List.range (d.entries.length + 2)).map fun k => dir.push (tempName k)
  have hnodup : tried.Nodup := by
    refine List.Nodup.map (fun j k h => ?_) List.nodup_range
    exact tempName_injective (Array.push_eq_push.mp h).1
  have hsub : tried ⊆ target :: d.entries.map (·.1) := by
    intro l hl
    obtain ⟨k, hk, rfl⟩ := List.mem_map.mp hl
    by_contra hfree
    rw [List.mem_cons, not_or, List.mem_map, not_exists] at hfree
    refine hall ⟨k, hk, ?_⟩
    have hnone : d.look (dir.push (tempName k)) = none := by
      refine (look_eq_none_iff (by simp)).mpr fun e he heq => hfree.2 e ⟨he, heq⟩
    simp [hnone, hfree.1]
  have hle := (List.subperm_of_subset hnodup hsub).length_le
  simp [tried] at hle

/-- The temporary file stands where nothing was, and not in the target's place. -/
theorem freshIn_spec (d : Disk) (dir target : Location) :
    ∃ k, d.freshIn dir target = dir.push (tempName k) ∧
      d.look (d.freshIn dir target) = none ∧ d.freshIn dir target ≠ target := by
  obtain ⟨k, hk, hfree⟩ := exists_free d dir target
  obtain ⟨j, hj⟩ := Option.isSome_iff_exists.mp (List.find?_isSome
    (p := fun k => (d.look (dir.push (tempName k))).isNone && dir.push (tempName k) ≠ target)
    |>.mpr ⟨k, hk, hfree⟩)
  have hspec := List.find?_some hj
  simp only [Bool.and_eq_true, Option.isNone_iff_eq_none, decide_eq_true_eq] at hspec
  have hfresh : d.freshIn dir target = dir.push (tempName j) := by
    unfold freshIn
    rw [hj]
    rfl
  exact ⟨j, hfresh, hfresh ▸ hspec.1, hfresh ▸ hspec.2⟩

/-! ### Failure -/

/-- A replacement that fails leaves the disk as it was. -/
theorem replace_eq_self_of_error {d : Disk} {path : String} {content : ByteArray}
    {fault : PathFault} (h : (d.replace path content).1 = .error fault) :
    (d.replace path content).2 = d := by
  obtain ⟨k, hk, hnone, -⟩ := freshIn_spec d (d.spelled path).pop (d.spelled path)
  have hne : d.freshIn (d.spelled path).pop (d.spelled path) ≠ #[] := by simp [hk]
  -- whatever was written to the temporary file, removing it brings the disk back
  have hback := erase_eq_self hne hnone
  revert h
  unfold replace
  dsimp only
  split
  · exact fun _ => rfl
  · split
    · exact fun _ => rfl
    · split
      · exact fun _ => rfl
      · split
        · intro _
          rw [erase_set, erase_set, hback]
        · split
          · intro _
            rw [erase_set, erase_set, erase_set, hback]
          · intro h
            cases h

/-! ### Success -/

/-- Why the file at a path cannot be replaced, if so. -/
def replaceFault? (d : Disk) (path : String) : Option PathFault :=
  if pathBytesLimit ≤ tempPathBytes (d.spelled path).pop then some (.refused .nameTooLong)
  else
    match d.walk #[] (d.spelled path).pop.toList with
    | .error fault => some fault
    | .ok dir =>
      if ¬ d.changeable dir then some (.refused .notPermitted)
      else
        match d.locate path with
        | .error fault => some fault
        | .ok l =>
          match d.look l with
          | some (.directory _) => some (.refused .isDirectory)
          | _ => none

/-- The mode of the file that takes the place of what a location holds. -/
def modeAt (d : Disk) (l : Location) : Nat :=
  match d.look l with
  | some node => node.mode
  | none => d.newFileMode

/-- The disk is another one with one node at a location. -/
structure IsSet (d : Disk) (l : Location) (node : Node) (e : Disk) : Prop where
  here : e.here = d.here
  umask : e.umask = d.umask
  look : ∀ m, e.look m = if m = l then some node else d.look m

theorem isSet_set {l : Location} (h : l ≠ #[]) (d : Disk) (node : Node) :
    IsSet d l node (d.set l node) :=
  ⟨rfl, rfl, fun m => look_set_of_ne h d m node⟩

theorem IsSet.set {d e : Disk} {l : Location} {node : Node} (h : IsSet d l node e) (hl : l ≠ #[])
    (node' : Node) : IsSet d l node' (e.set l node') := by
  refine ⟨h.here, h.umask, fun m => ?_⟩
  rw [look_set_of_ne hl, h.look]
  split <;> rfl

/-- A temporary file that becomes what a location holds leaves no trace. -/
theorem IsSet.renamed {d e : Disk} {temp l : Location} {node : Node} (h : IsSet d temp node e)
    (hnone : d.look temp = none) (hl : l ≠ #[]) (hne : l ≠ temp) (node' : Node) :
    IsSet d l node' ((e.set l node').erase temp) := by
  refine ⟨h.here, h.umask, fun m => ?_⟩
  by_cases hm : m = #[]
  · subst hm
    rw [if_neg (Ne.symm hl)]
    rfl
  rw [look_erase _ _ _ hm, look_set_of_ne hl, h.look]
  by_cases htemp : m = temp
  · subst htemp
    rw [if_pos rfl, if_neg (Ne.symm hne), hnone]
  · rw [if_neg htemp, if_neg htemp]

section Temporary

variable {d e : Disk} {temp : Location} {node : Node} {path : String}
  (h : IsSet d temp node e) (hplain : Path.IsPlain path)
  (htemp : ¬ OnWay temp (d.spelled (Path.parent path))) (hne : d.spelled path ≠ temp)
include h

include hne in
theorem look_of_isSet {l : Location} (hl : d.locate path = .ok l) : e.look l = d.look l := by
  rw [h.look, if_neg]
  rintro rfl
  exact hne (spelled_of_locate hl)

include hplain htemp

/-- A temporary file does not stand in the way. -/
theorem locate_of_isSet : e.locate path = d.locate path := by
  refine locate_congr h.here hplain fun m hm => ?_
  rw [h.look, if_neg]
  rintro rfl
  exact htemp hm

include hne

theorem modeFor_of_isSet :
    e.modeFor path =
      match d.locate path with
      | .ok l => .ok (d.modeAt l)
      | .error (.refused .noEntry) => .ok d.newFileMode
      | .error fault => .error fault := by
  have hloc := locate_of_isSet h hplain htemp
  unfold modeFor
  rw [newFileMode_of_umask h.umask]
  cases hl : d.locate path with
  | error fault =>
    rw [stat_of_locate_error (hloc.trans hl)]
    cases fault with
    | nullCharacter => rfl
    | refused r => cases r <;> rfl
  | ok l =>
    rw [stat_of_locate_ok (hloc.trans hl), look_of_isSet h hne hl]
    cases hlook : d.look l <;> simp [modeAt, hlook]

theorem rename_of_isSet :
    e.rename temp path =
      match d.locate path with
      | .error fault => .error fault
      | .ok l =>
        match d.look l with
        | some (.directory _) => .error (.refused .isDirectory)
        | _ => .ok ((e.set l node).erase temp) := by
  unfold rename
  rw [locate_of_isSet h hplain htemp]
  cases hl : d.locate path with
  | error fault => rfl
  | ok l =>
    have hlook := look_of_isSet h hne hl
    have htempLook : e.look temp = some node := by rw [h.look, if_pos rfl]
    simp only [bind, Except.bind, hlook, htempLook]
    cases d.look l with
    | none => rfl
    | some old => cases old <;> rfl

end Temporary

section Replace

variable {d : Disk} {path : String} {content : ByteArray}

theorem spelled_of_not_isDots (h : isDots (Path.lastName path) = false) (d : Disk) :
    d.spelled path = (d.spelled (Path.parent path)).push (Path.lastName path) := by
  rw [d.spelled_eq path, descend_of_not_isDots h]

/-- The disk after a replacement, with all that was done to the temporary file. -/
def replaced (d : Disk) (path : String) (content : ByteArray) : Disk :=
  let target := d.spelled path
  let temp := d.freshIn target.pop target
  let node := Node.file content (d.modeAt target)
  let filled := (d.set temp (.file ByteArray.empty d.tempMode)).set temp (.file content d.tempMode)
  ((filled.set temp node).set target node).erase temp

theorem replace_of_fault {fault : PathFault} (h : (d.replace path content).1 = .error fault) :
    d.replace path content = (.error fault, d) :=
  Prod.ext h (replace_eq_self_of_error h)

/-- Once the temporary file is made, all depends on where the path leads. -/
theorem replace_of_opened (hplain : Path.IsPlain path)
    (hname : isDots (Path.lastName path) = false) {dir : Location}
    (hsize : ¬ pathBytesLimit ≤ tempPathBytes (d.spelled path).pop)
    (hdir : d.walk #[] (d.spelled path).pop.toList = .ok dir) (hchange : d.changeable dir = true) :
    d.replace path content =
      match d.locate path with
      | .error fault => (.error fault, d)
      | .ok l =>
        match d.look l with
        | some (.directory _) => (.error (.refused .isDirectory), d)
        | _ => (.ok (), d.replaced path content) := by
  obtain ⟨k, hk, -, hne⟩ := freshIn_spec d (d.spelled path).pop (d.spelled path)
  unfold replaced
  generalize htemp : d.freshIn (d.spelled path).pop (d.spelled path) = temp at hk hne
  have hroot : temp ≠ #[] := by simp [hk]
  have haside : ¬ OnWay temp (d.spelled (Path.parent path)) := by
    rw [hk, spelled_of_not_isDots hname, Array.pop_push]
    exact OnWay.not_push _ _
  have hfilled := (isSet_set hroot d (.file ByteArray.empty d.tempMode)).set hroot
    (.file content d.tempMode)
  have hmode := modeFor_of_isSet hfilled hplain haside hne.symm
  have hrename := fun mode =>
    rename_of_isSet (hfilled.set hroot (.file content mode)) hplain haside hne.symm
  have hdir' : (d.spelled path).pop.toList.foldlM d.enter #[] = .ok dir := hdir
  cases hl : d.locate path with
  | error fault =>
    rw [hl] at hmode hrename
    refine replace_of_fault ?_
    simp only [replace, hsize, if_false, hdir', hchange, htemp, hmode]
    -- a file that is missing has a mode all the same, and then it is missing in the renaming
    cases fault with
    | nullCharacter => simp
    | refused r => cases r <;> simp [hrename]
  | ok l =>
    obtain rfl := spelled_of_locate hl
    rw [hl] at hmode hrename
    dsimp only
    cases hlook : d.look (d.spelled path) with
    | none => simp [replace, hsize, hdir', hchange, htemp, hmode, hrename, hlook, -Array.toList_pop]
    | some node =>
      cases node with
      | directory mode =>
        refine replace_of_fault ?_
        simp [replace, hsize, hdir', hchange, htemp, hmode, hrename, hlook, -Array.toList_pop]
      | file old mode =>
        simp [replace, hsize, hdir', hchange, htemp, hmode, hrename, hlook, -Array.toList_pop]

/-- A file is replaced, unless there is a reason why not. -/
theorem replace_eq (hplain : Path.IsPlain path) (hname : isDots (Path.lastName path) = false) :
    d.replace path content =
      match d.replaceFault? path with
      | some fault => (.error fault, d)
      | none => (.ok (), d.replaced path content) := by
  by_cases hsize : pathBytesLimit ≤ tempPathBytes (d.spelled path).pop
  · simp [replace, replaceFault?, hsize]
  cases hdir : d.walk #[] (d.spelled path).pop.toList with
  | error fault =>
    have hdir' : (d.spelled path).pop.toList.foldlM d.enter #[] = .error fault := hdir
    simp [replace, replaceFault?, hsize, hdir, hdir', -Array.toList_pop]
  | ok dir =>
    have hdir' : (d.spelled path).pop.toList.foldlM d.enter #[] = .ok dir := hdir
    by_cases hchange : d.changeable dir = true
    · rw [replace_of_opened hplain hname hsize hdir hchange]
      simp only [replaceFault?, hsize, if_false, hdir, hchange, not_true]
      cases hl : d.locate path with
      | error fault => rfl
      | ok l =>
        dsimp only
        cases d.look l with
        | none => rfl
        | some node => cases node <;> rfl
    · simp [replace, replaceFault?, hsize, hdir, hdir', hchange, -Array.toList_pop]

/-- After a replacement the file is there, and everything else is as it was. -/
theorem isSet_replaced (hname : isDots (Path.lastName path) = false) :
    IsSet d (d.spelled path) (.file content (d.modeAt (d.spelled path)))
      (d.replaced path content) := by
  obtain ⟨k, hk, hnone, hne⟩ := freshIn_spec d (d.spelled path).pop (d.spelled path)
  dsimp only [replaced]
  generalize d.freshIn (d.spelled path).pop (d.spelled path) = temp at hk hnone hne ⊢
  have hroot : temp ≠ #[] := by simp [hk]
  have htarget : d.spelled path ≠ #[] := by simp [spelled_of_not_isDots hname d]
  have hfilled := (isSet_set hroot d (.file ByteArray.empty d.tempMode)).set hroot
    (.file content d.tempMode)
  exact (hfilled.set hroot _).renamed hnone htarget hne.symm _

/-- A file is replaced on a later disk for the same reasons, when nothing is missing on
the way; only a directory may have come in its place. -/
theorem replaceFault?_cases {e : Disk} (h : Extends d e) (hd : d.IsTree)
    (hplain : Path.IsPlain path) (hname : isDots (Path.lastName path) = false)
    (hreach : d.reach (Path.parent path) ≠ .error (.refused .noEntry)) :
    e.replaceFault? path = d.replaceFault? path ∨
      d.replaceFault? path = none ∧ e.HoldsDir (d.spelled path) ∧
        e.replaceFault? path = some (.refused .isDirectory) := by
  have htarget := spelled_of_not_isDots hname d
  have hproper := hd.isDots_of_mem_spelled hplain.parent
  -- the directory is walked from the root here, not along its path
  have hwalk : e.walk #[] (d.spelled (Path.parent path)).toList =
      d.walk #[] (d.spelled (Path.parent path)).toList := by
    have hup : ".." ∉ (d.spelled (Path.parent path)).toList :=
      fun hmem => absurd (hproper _ hmem) (by decide)
    refine (h.walk_cases hd hup (holdsDir_root d)).resolve_right fun hno => hreach ?_
    exact hd.reach_of_walk_root hplain.parent hno.1
  have hloc := h.locate_eq hd hplain hreach
  unfold replaceFault?
  rw [h.spelled_eq, htarget, Array.pop_push, hwalk, hloc]
  split
  · exact .inl rfl
  cases hw : d.walk #[] (d.spelled (Path.parent path)).toList with
  | error fault => exact .inl rfl
  | ok dir =>
    have hdir := hd.holdsDir_of_walk (holdsDir_root d) hw
    dsimp only
    rw [h.changeable_eq hdir.look_ne_none]
    split
    · exact .inl rfl
    cases hl : d.locate path with
    | error fault => exact .inl rfl
    | ok l =>
      dsimp only
      rw [← htarget, spelled_of_locate hl]
      cases hlook : d.look l with
      | none =>
        cases hlook' : e.look l with
        | none => exact .inl rfl
        | some node =>
          cases node with
          | file content mode => exact .inl rfl
          | directory mode => exact .inr ⟨rfl, ⟨mode, hlook'⟩, rfl⟩
      | some node =>
        left
        cases node with
        | directory mode => rw [h.dirs l mode hlook]
        | file content mode =>
          obtain ⟨content', hfile⟩ := h.files l content mode hlook
          rw [hfile]

/-- A path that is too long leads nowhere. -/
theorem replaceFault?_of_too_long (h : pathBytesLimit ≤ path.utf8ByteSize) :
    ∃ fault, d.replaceFault? path = some fault := by
  unfold replaceFault?
  rw [locate_of_too_long h]
  split
  · exact ⟨_, rfl⟩
  · split
    · exact ⟨_, rfl⟩
    · split <;> exact ⟨_, rfl⟩

/-- A file that can be replaced stands in a directory that may be changed. -/
theorem changeable_of_replaceFault? (hd : d.IsTree) (hplain : Path.IsPlain path)
    (hname : isDots (Path.lastName path) = false) (h : d.replaceFault? path = none) :
    d.changeable (d.spelled (Path.parent path)) = true ∧ d.locate path = .ok (d.spelled path) ∧
      ¬ d.HoldsDir (d.spelled path) := by
  unfold replaceFault? at h
  rw [spelled_of_not_isDots hname, Array.pop_push] at h
  split at h
  · cases h
  cases hw : d.walk #[] (d.spelled (Path.parent path)).toList with
  | error fault =>
    rw [hw] at h
    cases h
  | ok dir =>
    rw [hw] at h
    dsimp only at h
    split at h
    · cases h
    rename_i hchange
    rw [hd.spelled_of_walk_root hplain.parent hw]
    cases hl : d.locate path with
    | error fault =>
      rw [hl] at h
      cases h
    | ok l =>
      rw [hl] at h
      refine ⟨by simpa using hchange, by rw [spelled_of_locate hl], ?_⟩
      rw [spelled_of_locate hl]
      rintro ⟨mode, hmode⟩
      simp [hmode] at h

theorem null_of_replaceFault? (h : d.replaceFault? path = some .nullCharacter) :
    '\x00' ∈ path.toList := by
  unfold replaceFault? at h
  split at h
  · cases h
  cases hw : d.walk #[] (d.spelled path).pop.toList with
  | error fault =>
    rw [hw] at h
    cases h
    obtain ⟨r, hr, -⟩ := isWalkFault_of_walk hw
    cases hr
  | ok dir =>
    rw [hw] at h
    cases hl : d.locate path with
    | error fault =>
      rw [hl] at h
      dsimp only at h
      split at h <;> cases h
      exact null_of_locate hl
    | ok l =>
      rw [hl] at h
      dsimp only at h
      grind

theorem modeAt_of_file {l : Location} {old : ByteArray} {mode : Nat}
    (h : d.look l = some (.file old mode)) : d.modeAt l = mode := by
  simp [modeAt, h, Node.mode]

/-- A file written in a directory that may be changed extends the disk. -/
theorem IsSet.toExtends {e : Disk} {c : Location} {name : String}
    (h : IsSet d (c.push name) (.file content (d.modeAt (c.push name))) e) (hd : d.IsTree)
    (hdir : d.HoldsDir c) (hname : isDots name = false) (hchange : d.changeable c = true)
    (hsize : d.look (c.push name) = none → name.utf8ByteSize ≤ maxNameBytes)
    (hleaf : ¬ d.HoldsDir (c.push name)) : Extends d e ∧ e.IsTree := by
  have hlook := h.look
  refine ⟨⟨h.here, h.umask, fun l mode hm => ?_, fun l old mode hm => ?_, fun l mode hnone hm => ?_,
    fun l n hnone hsome => ?_⟩, hd.of_look_eq h.here hlook hdir hname hleaf⟩
  · rw [hlook, if_neg, hm]
    rintro rfl
    exact hleaf ⟨mode, hm⟩
  · rw [hlook]
    split
    · rename_i heq
      rw [heq] at hm
      exact ⟨content, by rw [modeAt_of_file hm]⟩
    · exact ⟨old, hm⟩
  · rw [hlook] at hm
    split at hm
    · cases hm
    · rw [hnone] at hm
      cases hm
  · rw [hlook] at hsome
    split at hsome
    · -- the only new name is the one of the file
      rename_i heq
      rw [heq] at hnone
      obtain ⟨rfl, rfl⟩ := Array.push_eq_push.mp heq
      have hkeep : e.look l = d.look l := by
        rw [hlook, if_neg]
        exact OnWay.ne_push l n
      refine ⟨?_, hsize hnone⟩
      rw [changeable_congr hkeep]
      exact hchange
    · exact absurd hnone hsome

/-- A replacement extends the disk, and the disk stays a tree. -/
theorem replaced_extends (hd : d.IsTree) (hplain : Path.IsPlain path)
    (hname : isDots (Path.lastName path) = false) (h : d.replaceFault? path = none)
    (content : ByteArray) :
    Extends d (d.replaced path content) ∧ (d.replaced path content).IsTree := by
  have hset : IsSet d _ (.file content _) _ := isSet_replaced hname
  obtain ⟨hchange, hl, hleaf⟩ := changeable_of_replaceFault? hd hplain hname h
  obtain ⟨c, hc, -⟩ := reach_parent_of_locate hl
  have hdir := hd.holdsDir_of_reach hc
  have hsize := fun hnone => hd.push_of_locate hl hnone
  rw [spelled_of_not_isDots hname] at hset hleaf hsize
  rw [spelled_of_reach hc] at hset hleaf hsize hchange
  refine hset.toExtends hd hdir hname hchange (fun hnone => ?_) hleaf
  obtain ⟨c', n, heq, -, -, hsize⟩ := hsize hnone
  rw [(Array.push_eq_push.mp heq).1]
  exact hsize

end Replace

/-! ### Any path -/

section AnyPath

variable {d : Disk} {path : String} {content : ByteArray}

theorem null_of_stat (h : d.stat path = .error .nullCharacter) : '\x00' ∈ path.toList := by
  cases hl : d.locate path with
  | error fault =>
    rw [stat_of_locate_error hl] at h
    cases h
    exact null_of_locate hl
  | ok l =>
    rw [stat_of_locate_ok hl] at h
    cases hlook : d.look l <;> rw [hlook] at h <;> cases h

theorem null_of_modeFor (h : d.modeFor path = .error .nullCharacter) : '\x00' ∈ path.toList := by
  unfold modeFor at h
  split at h
  · cases h
  · cases h
  · rename_i hstat
    cases h
    exact null_of_stat hstat

/-- Something is renamed when the path leads to a place without a directory. -/
theorem rename_cases (d : Disk) (source : Location) (path : String) :
    (∃ fault, d.rename source path = .error fault ∧
        (fault = .nullCharacter → '\x00' ∈ path.toList)) ∨
      ∃ l node, d.locate path = .ok l ∧ d.look source = some node ∧ ¬ d.HoldsDir l ∧
        d.rename source path = .ok ((d.set l node).erase source) := by
  unfold rename
  cases hl : d.locate path with
  | error fault =>
    refine .inl ⟨fault, rfl, ?_⟩
    rintro rfl
    exact null_of_locate hl
  | ok l =>
    rw [ok_bind]
    split
    · exact .inl ⟨_, rfl, by simp⟩
    · exact .inl ⟨_, rfl, by simp⟩
    · rename_i node hsource hdir
      refine .inr ⟨l, node, rfl, hsource, ?_, rfl⟩
      rintro ⟨mode, hmode⟩
      exact hdir mode hmode

/-- A replacement fails, or it writes a file in the place of the path and leaves everything
else as it was.  Only a null character in the path is said to be one. -/
theorem replace_cases (d : Disk) (path : String) (content : ByteArray) :
    (∃ fault, (d.replace path content).1 = .error fault ∧
        (fault = .nullCharacter → '\x00' ∈ path.toList)) ∨
      ∃ mode, (d.replace path content).1 = .ok () ∧
        IsSet d (d.spelled path) (.file content mode) (d.replace path content).2 := by
  obtain ⟨k, hk, hnone, hne⟩ := freshIn_spec d (d.spelled path).pop (d.spelled path)
  unfold replace
  dsimp only
  generalize d.freshIn (d.spelled path).pop (d.spelled path) = temp at hk hnone hne ⊢
  have hroot : temp ≠ #[] := by simp [hk]
  -- the cases are the steps of a replacement in their order: up to the mode of the file, each
  -- of them goes on or fails
  split
  · exact .inl ⟨_, rfl, by simp⟩
  split
  · rename_i fault hwalk
    refine .inl ⟨fault, rfl, ?_⟩
    rintro rfl
    obtain ⟨r, hr, -⟩ := isWalkFault_of_walk hwalk
    cases hr
  split
  · exact .inl ⟨_, rfl, by simp⟩
  have hfilled := (isSet_set hroot d (.file ByteArray.empty d.tempMode)).set hroot
    (.file content d.tempMode)
  split
  · rename_i fault hmode
    refine .inl ⟨fault, rfl, ?_⟩
    rintro rfl
    exact null_of_modeFor hmode
  rename_i mode _
  have hready := hfilled.set hroot (.file content mode)
  split
  · rename_i fault hrename
    rcases rename_cases _ temp path with ⟨fault', hfault, hnull⟩ | ⟨l, node, -, -, -, hok⟩
    · rw [hfault] at hrename
      cases hrename
      exact .inl ⟨_, rfl, hnull⟩
    · rw [hok] at hrename
      cases hrename
  · rename_i after hrename
    rcases rename_cases _ temp path with ⟨fault, hfault, -⟩ | ⟨l, node, hl, hnode, hdir, hok⟩
    · rw [hfault] at hrename
      cases hrename
    · rw [hok] at hrename
      cases hrename
      have hspelled := spelled_of_locate hl
      obtain rfl : d.spelled path = l := hspelled
      -- what is renamed is the file that was filled and marked
      obtain rfl : Node.file content mode = node := by
        rw [hready.look, if_pos rfl] at hnode
        exact Option.some.inj hnode
      refine .inr ⟨mode, rfl, hready.renamed hnone ?_ hne.symm _⟩
      intro hempty
      exact hdir (hempty ▸ holdsDir_root _)

end AnyPath

end SharpEmit.Disk
