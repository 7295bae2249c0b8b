/-
SharpEmit/Proofs/Storage/Interruption.lean

Replacing a file, one step after the other.  `Step` lists what can happen next when a
buffer is written to a path: its blocks are checked, a temporary file is made beside the
target, filled bit by bit, given its mode and renamed over the target.  Any step may be
refused by the disk, and between any two steps the whole may be interrupted; then a
temporary file that is there is removed before the end.

What is known of the disk in each phase is `Invariant`: it is the disk from before, or that
disk with a temporary file where nothing was, or that disk with the new file in the place of
the target.  A step keeps it (`Step.invariant`), so every run does (`Reaches.invariant`).
Left alone, a run comes to what `Disk.replace` comes to (`reaches_replace`).

Main result: at every point of every run the target is as it was or complete; when a run
fails everything is as it was, and when it returns nothing but the target has changed
(`replacement_atomic`).
-/
import Mathlib.Data.Nat.Bitwise
import Mathlib.Logic.Relation
import SharpEmit.LineBuffer
import SharpEmit.Proofs.Storage.Replacement

namespace SharpEmit

/-! ### What is missing stays missing -/

namespace Disk

variable {d e : Disk} {l : Location} {name path : String}

/-- Of the names that lead down, one that is missing has nothing in its place. -/
theorem look_of_enter_noEntry (h : d.enter l name = .error (.refused .noEntry)) :
    isDots name = false ∧ d.look (l.push name) = none := by
  have hdots : isDots name = false := by
    by_contra hdots
    by_cases hempty : name = ""
    · rw [hempty, enter_empty] at h
      cases h
    · rw [enter_dots (by simpa using hdots) hempty] at h
      split at h <;> cases h
  refine ⟨hdots, ?_⟩
  rw [enter_of_not_isDots hdots] at h
  grind

theorem walk_ne_ok_of_noEntry (hnew : ∀ m, d.look m = none → e.look m = none)
    {names : List String} (h : d.walk l names = .error (.refused .noEntry)) (m : Location) :
    e.walk l names ≠ .ok m := by
  induction names generalizing l with
  | nil => cases h
  | cons name names ih =>
    intro hok
    rw [walk_cons] at h hok
    obtain ⟨c, he, hrest⟩ := ok_of_bind hok
    cases hd : d.enter l name with
    | ok c' =>
      -- both walks go the way that the name spells
      obtain rfl : c' = c := (descend_of_enter hd).symm.trans (descend_of_enter he)
      rw [hd, ok_bind] at h
      exact ih h hrest
    | error fault =>
      rw [hd, error_bind] at h
      cases h
      obtain ⟨hdots, hnone⟩ := look_of_enter_noEntry hd
      rw [enter_of_not_isDots hdots, hnew _ hnone] at he
      grind

/-- A path on which something is missing leads nowhere on a disk on which nothing is new. -/
theorem locate_ne_ok_of_noEntry (hhere : e.here = d.here)
    (hnew : ∀ m, d.look m = none → e.look m = none)
    (h : d.locate path = .error (.refused .noEntry)) : e.locate path ≠ .ok l := by
  intro hok
  have hfits := fits_of_locate hok
  obtain ⟨c, hc, -⟩ := reach_parent_of_locate hok
  rw [locate_of_fits hfits] at h
  cases hd : d.reach (Path.parent path) with
  | error fault =>
    rw [hd, error_bind] at h
    cases h
    refine walk_ne_ok_of_noEntry hnew hd c ?_
    rw [← hc, reach, start, start, hhere]
  | ok c' =>
    rw [hd, ok_bind] at h
    unfold child at h
    split at h
    · rename_i hdots
      rw [(look_of_enter_noEntry h).1] at hdots
      cases hdots
    · grind

end Disk

namespace Replacement

open Disk

/-! ### Modes -/

/-- The mode of a new file under a mask: all may read and write it, but for what the mask
takes away. -/
def grantedMode (umask : Nat) : Nat := Nat.ldiff 0o666 umask

theorem testBit_granted (umask mode i : Nat) :
    (granted umask mode).testBit i = (mode.testBit i && !umask.testBit i) := by
  rw [granted, Nat.testBit_xor, Nat.testBit_and]
  cases mode.testBit i <;> simp

theorem newFileMode_eq_grantedMode (d : Disk) : d.newFileMode = grantedMode d.umask := by
  refine Nat.eq_of_testBit_eq fun i => ?_
  rw [newFileMode, testBit_granted, grantedMode, Nat.testBit_ldiff]

/-- The mode of the file that takes the place of another one, or of nothing. -/
def modeAfter (umask : Nat) : Option Node → Nat
  | some node => node.mode
  | none => grantedMode umask

/-! ### States -/

/-- Why a replacement fails. -/
inductive Cause where
  | misuse (fault : LineBuffer.Misuse)
  | refused (fault : PathFault)
  | interrupted

/-- How far a replacement has come, and where its temporary file is. -/
inductive Phase where
  | begun
  | checked
  | opened (temp : Location)
  | filled (temp : Location)
  | marked (temp : Location)
  | failing (temp : Location) (cause : Cause)
  | returned
  | raised (cause : Cause)

/-- What a failure makes of a phase: with a temporary file there is something to remove. -/
def Phase.stopped (cause : Cause) : Phase → Phase
  | .begun | .checked => .raised cause
  | .opened temp | .filled temp | .marked temp => .failing temp cause
  | .failing temp cause => .failing temp cause
  | .returned => .returned
  | .raised cause => .raised cause

/-- A replacement under way on a disk. -/
structure State where
  phase : Phase
  disk : Disk

/-- A location beside the target that holds nothing and is not the target itself. -/
structure IsFresh (d : Disk) (target temp : Location) : Prop where
  beside : ∃ name, temp = target.pop.push name
  free : d.look temp = none
  other : temp ≠ target

/-- Why no temporary file can be made in a directory, if so. -/
def openFault? (d : Disk) (dir : Location) : Option PathFault :=
  if pathBytesLimit ≤ tempPathBytes dir then some (.refused .nameTooLong)
  else
    match d.walk #[] dir.toList with
    | .error fault => some fault
    | .ok l => if d.changeable l then none else some (.refused .notPermitted)

/-! ### Steps -/

/-- Why the next step fails, if it does by itself. -/
inductive Fails (b : LineBuffer) (path : String) : State → Cause → Prop
  | check {d} : b.level ≠ 0 → Fails b path ⟨.begun, d⟩ (.misuse (.leftOpen b.level))
  | create {d fault} : openFault? d (d.spelled path).pop = some fault →
      Fails b path ⟨.checked, d⟩ (.refused fault)
  | mark {d temp fault} : d.modeFor path = .error fault →
      Fails b path ⟨.filled temp, d⟩ (.refused fault)
  | rename {d temp fault} : d.rename temp path = .error fault →
      Fails b path ⟨.marked temp, d⟩ (.refused fault)

/-- What can happen next when the text of a buffer is written to a path.  The temporary file
may hold any part of the text before it is whole. -/
inductive Step (b : LineBuffer) (path : String) : State → State → Prop
  | check {d} : b.level = 0 → Step b path ⟨.begun, d⟩ ⟨.checked, d⟩
  | create {d temp} : openFault? d (d.spelled path).pop = none →
      IsFresh d (d.spelled path) temp →
      Step b path ⟨.checked, d⟩ ⟨.opened temp, d.set temp (.file ByteArray.empty d.tempMode)⟩
  | write {d temp} (count : Nat) :
      Step b path ⟨.opened temp, d⟩
        ⟨.opened temp, d.set temp (.file (b.text.toUTF8.extract 0 count) d.tempMode)⟩
  | finish {d temp} :
      Step b path ⟨.opened temp, d⟩
        ⟨.filled temp, d.set temp (.file b.text.toUTF8 d.tempMode)⟩
  | mark {d temp mode} : d.modeFor path = .ok mode →
      Step b path ⟨.filled temp, d⟩ ⟨.marked temp, d.set temp (.file b.text.toUTF8 mode)⟩
  | rename {d temp after} : d.rename temp path = .ok after →
      Step b path ⟨.marked temp, d⟩ ⟨.returned, after⟩
  | fail {phase d cause} : Fails b path ⟨phase, d⟩ cause →
      Step b path ⟨phase, d⟩ ⟨phase.stopped cause, d⟩
  | interrupt {phase d} : Step b path ⟨phase, d⟩ ⟨phase.stopped .interrupted, d⟩
  | cleanUp {d temp cause} :
      Step b path ⟨.failing temp cause, d⟩ ⟨.raised cause, d.erase temp⟩

/-- What steps one after the other lead to. -/
def Reaches (b : LineBuffer) (path : String) : State → State → Prop :=
  Relation.ReflTransGen (Step b path)

/-! ### What is known in each phase -/

section Invariant

variable {b : LineBuffer} {path : String} {d : Disk} {s s' : State}

/-- The file that a replacement puts in the place of the target. -/
def newFile (b : LineBuffer) (d : Disk) (target : Location) : Node :=
  .file b.text.toUTF8 (modeAfter d.umask (d.look target))

/-- The disk is another one with a temporary file of the given node. -/
structure HasTemp (d : Disk) (path : String) (temp : Location) (node : Node) (e : Disk) : Prop
    extends IsSet d temp node e where
  fresh : IsFresh d (d.spelled path) temp

/-- The disk in each phase, beside the one from before.  The mode of a temporary file is that
of the target if the path leads to one. -/
def Invariant (b : LineBuffer) (path : String) (d : Disk) : State → Prop
  | ⟨.begun, e⟩ | ⟨.checked, e⟩ | ⟨.raised _, e⟩ => d.Same e
  | ⟨.opened temp, e⟩ | ⟨.filled temp, e⟩ | ⟨.failing temp _, e⟩ =>
      ∃ node, HasTemp d path temp node e
  | ⟨.marked temp, e⟩ => ∃ mode, HasTemp d path temp (.file b.text.toUTF8 mode) e ∧
      ∀ l, e.locate path = .ok l → mode = modeAfter d.umask (d.look (d.spelled path))
  | ⟨.returned, e⟩ => ¬ d.HoldsDir (d.spelled path) ∧
      IsSet d (d.spelled path) (newFile b d (d.spelled path)) e

theorem IsFresh.ne_root {target temp : Location} (h : IsFresh d target temp) : temp ≠ #[] := by
  obtain ⟨name, rfl⟩ := h.beside
  simp

namespace HasTemp

variable {temp : Location} {node : Node} {e : Disk}

theorem set (h : HasTemp d path temp node e) (node' : Node) :
    HasTemp d path temp node' (e.set temp node') :=
  ⟨h.toIsSet.set h.fresh.ne_root node', h.fresh⟩

/-- The target is as it was while there is a temporary file. -/
theorem look_target (h : HasTemp d path temp node e) :
    e.look (d.spelled path) = d.look (d.spelled path) := by
  rw [h.look, if_neg h.fresh.other.symm]

/-- Removing the temporary file leaves the disk from before. -/
theorem same_erase (h : HasTemp d path temp node e) : d.Same (e.erase temp) := by
  refine ⟨h.here, h.umask, fun l => ?_⟩
  by_cases hroot : l = #[]
  · subst hroot
    rfl
  rw [look_erase _ _ _ hroot, h.look]
  split
  · rename_i htemp
    rw [htemp, h.fresh.free]
  · rfl

/-- The mode that is looked up is that of the target, unless the path leads nowhere, and then
it leads nowhere to the end. -/
theorem mode_eq (h : HasTemp d path temp node e) {mode : Nat}
    (hmode : e.modeFor path = .ok mode) {node' : Node} {l : Location}
    (hl : (e.set temp node').locate path = .ok l) :
    mode = modeAfter d.umask (d.look (d.spelled path)) := by
  unfold modeFor at hmode
  rw [newFileMode_eq_grantedMode, h.umask] at hmode
  cases hloc : e.locate path with
  | ok m =>
    obtain rfl : d.spelled path = m :=
      (spelled_of_here h.here path).symm.trans (spelled_of_locate hloc)
    rw [stat_of_locate_ok hloc, h.look_target] at hmode
    cases hlook : d.look (d.spelled path) <;> rw [hlook] at hmode <;> cases hmode <;> rfl
  | error fault =>
    rw [stat_of_locate_error hloc] at hmode
    have hmissing : fault = .refused .noEntry := by grind
    rw [hmissing] at hloc
    refine absurd hl (locate_ne_ok_of_noEntry (d := e) rfl (fun m hm => ?_) hloc)
    rw [look_set_of_ne h.fresh.ne_root, if_neg, hm]
    -- the temporary file is there
    rintro rfl
    rw [h.look, if_pos rfl] at hm
    cases hm

/-- Renamed over the target, which is no directory, the temporary file is the target, and
nothing else has changed. -/
theorem isSet_rename (h : HasTemp d path temp node e) {after : Disk}
    (hrename : e.rename temp path = .ok after) :
    e.locate path = .ok (d.spelled path) ∧ ¬ d.HoldsDir (d.spelled path) ∧
      IsSet d (d.spelled path) node after := by
  rcases rename_cases e temp path with ⟨fault, hfault, -⟩ | ⟨l, node', hl, hnode, hdir, hok⟩
  · rw [hfault] at hrename
    cases hrename
  · rw [hok] at hrename
    cases hrename
    obtain rfl : d.spelled path = l :=
      (spelled_of_here h.here path).symm.trans (spelled_of_locate hl)
    obtain rfl : node = node' := by
      rw [h.look, if_pos rfl] at hnode
      exact Option.some.inj hnode
    have hleaf : ¬ d.HoldsDir (d.spelled path) := by
      rintro ⟨mode, hmode⟩
      exact hdir ⟨mode, h.look_target.trans hmode⟩
    have hroot : d.spelled path ≠ #[] := by
      intro hroot
      exact hleaf (hroot ▸ holdsDir_root d)
    exact ⟨hl, hleaf, h.renamed h.fresh.free hroot h.fresh.other.symm node⟩

end HasTemp

/-- A failure by itself changes nothing. -/
theorem Invariant.stopped {phase : Phase} {e : Disk} (h : Invariant b path d ⟨phase, e⟩)
    (cause : Cause) : Invariant b path d ⟨phase.stopped cause, e⟩ := by
  cases phase with
  | begun => exact h
  | checked => exact h
  | opened temp => exact h
  | filled temp => exact h
  | marked temp =>
    obtain ⟨mode, hmarked, -⟩ := h
    exact ⟨_, hmarked⟩
  | failing temp cause => exact h
  | returned => exact h
  | raised cause => exact h

/-- Each step keeps what is known of the disk. -/
theorem Step.invariant (hstep : Step b path s s') (h : Invariant b path d s) :
    Invariant b path d s' := by
  cases hstep with
  | check _ => exact h
  | @create e temp _ hfresh =>
    have hsame : d.Same e := h
    have hfresh' : IsFresh d (d.spelled path) temp := by
      rw [← spelled_of_here hsame.here path]
      exact ⟨hfresh.beside, (hsame.look temp).symm.trans hfresh.free, hfresh.other⟩
    refine ⟨.file ByteArray.empty e.tempMode, ⟨hsame.here, hsame.umask, fun m => ?_⟩, hfresh'⟩
    rw [look_set_of_ne hfresh.ne_root, hsame.look]
  | write count =>
    obtain ⟨node, hnode⟩ := h
    exact ⟨_, hnode.set _⟩
  | finish =>
    obtain ⟨node, hnode⟩ := h
    exact ⟨_, hnode.set _⟩
  | @mark e temp mode hmode =>
    obtain ⟨node, hnode⟩ := h
    exact ⟨mode, hnode.set _, fun l hl => hnode.mode_eq hmode hl⟩
  | @rename e temp after hrename =>
    -- only now is the path known to lead to a place, which says what the mode is
    obtain ⟨mode, hmarked, hmode⟩ := h
    obtain ⟨hl, hleaf, hset⟩ := hmarked.isSet_rename hrename
    rw [hmode _ hl] at hset
    exact ⟨hleaf, hset⟩
  | fail _ => exact h.stopped _
  | interrupt => exact h.stopped _
  | cleanUp =>
    obtain ⟨node, hnode⟩ := h
    exact hnode.same_erase

/-- It is known at every point of a run. -/
theorem Reaches.invariant (h : Reaches b path ⟨.begun, d⟩ s) :
    Invariant b path d s := by
  induction h with
  | refl => exact Same.refl d
  | tail _ hstep ih => exact hstep.invariant ih

/-- A run returns from the renaming of its temporary file. -/
theorem Reaches.renamed {after : Disk} (h : Reaches b path s ⟨.returned, after⟩)
    (hs : s.phase ≠ .returned) :
    ∃ temp e, Reaches b path s ⟨.marked temp, e⟩ ∧ e.rename temp path = .ok after := by
  generalize hend : (⟨.returned, after⟩ : State) = s' at h
  induction h with
  | refl => exact absurd (congrArg State.phase hend).symm hs
  | tail hrun hstep ih =>
    cases hstep with
    | rename hrename =>
      cases hend
      exact ⟨_, _, hrun, hrename⟩
    | @fail phase e cause hfails =>
      cases phase <;> cases hend
      cases hfails
    | @interrupt phase e =>
      -- only a run that has returned already is not stopped
      cases phase <;> cases hend
      exact ih rfl
    | _ => cases hend

/-- The target is as it was up to the last step, which completes it. -/
theorem Invariant.target (h : Invariant b path d s) :
    s.disk.look (d.spelled path) = d.look (d.spelled path) ∨
      s.disk.look (d.spelled path) = some (newFile b d (d.spelled path)) := by
  obtain ⟨phase, e⟩ := s
  cases phase with
  | begun => exact .inl (Same.look h _)
  | checked => exact .inl (Same.look h _)
  | opened temp =>
    obtain ⟨node, hnode⟩ := h
    exact .inl hnode.look_target
  | filled temp =>
    obtain ⟨node, hnode⟩ := h
    exact .inl hnode.look_target
  | marked temp =>
    obtain ⟨mode, hmarked, -⟩ := h
    exact .inl hmarked.look_target
  | failing temp cause =>
    obtain ⟨node, hnode⟩ := h
    exact .inl hnode.look_target
  | returned =>
    obtain ⟨-, hset⟩ := h
    right
    rw [hset.look, if_pos rfl]
  | raised cause => exact .inl (Same.look h _)

end Invariant

/-! ### Runs that are left alone -/

section Replace

variable {b : LineBuffer} {path : String} {d : Disk}

/-- The phase in which a replacement ends. -/
def ending : Except PathFault Unit → Phase
  | .ok () => .returned
  | .error fault => .raised (.refused fault)

theorem isFresh_freshIn (d : Disk) (target : Location) :
    IsFresh d target (d.freshIn target.pop target) := by
  obtain ⟨k, hk, hnone, hne⟩ := freshIn_spec d target.pop target
  exact ⟨⟨tempName k, hk⟩, hnone, hne⟩

/-- Without interruptions a run does what a replacement does. -/
theorem reaches_replace (hlevel : b.level = 0) :
    Reaches b path ⟨.begun, d⟩
      ⟨ending (d.replace path b.text.toUTF8).1, (d.replace path b.text.toUTF8).2⟩ := by
  have hchecked : Reaches b path ⟨.begun, d⟩ ⟨.checked, d⟩ := .single (.check hlevel)
  have hfresh := isFresh_freshIn d (d.spelled path)
  have hfault : ∀ fault, openFault? d (d.spelled path).pop = some fault →
      Reaches b path ⟨.begun, d⟩ ⟨.raised (.refused fault), d⟩ :=
    fun fault h => hchecked.tail (.fail (.create h))
  unfold replace
  dsimp only
  generalize d.freshIn (d.spelled path).pop (d.spelled path) = temp at hfresh ⊢
  -- the first three tests of a replacement are those of opening the temporary file
  split
  · rename_i hsize
    refine hfault _ ?_
    rw [openFault?, if_pos hsize]
  rename_i hsize
  split
  · rename_i fault hdir
    refine hfault fault ?_
    rw [openFault?, if_neg hsize, show d.walk #[] (d.spelled path).pop.toList = _ from hdir]
  rename_i dir hdir
  split
  · rename_i hchange
    refine hfault _ ?_
    rw [openFault?, if_neg hsize, show d.walk #[] (d.spelled path).pop.toList = _ from hdir]
    exact if_neg hchange
  rename_i hchange
  have hopen : openFault? d (d.spelled path).pop = none := by
    rw [openFault?, if_neg hsize, show d.walk #[] (d.spelled path).pop.toList = _ from hdir]
    exact if_pos (not_not.mp hchange)
  have hfilled := (hchecked.tail (.create hopen hfresh)).tail .finish
  split
  · rename_i fault hmode
    exact (hfilled.tail (.fail (.mark hmode))).tail .cleanUp
  rename_i mode hmode
  have hmarked := hfilled.tail (.mark hmode)
  split
  · rename_i fault hrename
    exact (hmarked.tail (.fail (.rename hrename))).tail .cleanUp
  · rename_i after hrename
    exact hmarked.tail (.rename hrename)

/-- A replacement that succeeds puts the new file where no directory was. -/
theorem isSet_of_replace (hlevel : b.level = 0)
    (h : (d.replace path b.text.toUTF8).1 = .ok ()) :
    ¬ d.HoldsDir (d.spelled path) ∧
      IsSet d (d.spelled path) (newFile b d (d.spelled path))
        (d.replace path b.text.toUTF8).2 := by
  have hreaches : Reaches b path ⟨.begun, d⟩
      ⟨ending (d.replace path b.text.toUTF8).1, (d.replace path b.text.toUTF8).2⟩ :=
    reaches_replace hlevel
  rw [h] at hreaches
  exact hreaches.invariant

end Replace

/-! ### Atomicity -/

/-- However far the writing of a buffer to a path has come, on whatever disk, the target is
as it was, or it is the new file: the whole text, with the mode of the file that was there or,
if there was none, that of a new file.  If the writing fails, at whatever step, every location
holds what it held; if it returns, the new file is there and every other location holds what it
held.  Writing as the library does it is one such run. -/
theorem replacement_atomic (b : LineBuffer) (path : String) (d : Disk) :
    (∀ s, Reaches b path ⟨.begun, d⟩ s →
      (s.disk.look (d.spelled path) = d.look (d.spelled path) ∨
        s.disk.look (d.spelled path) = some (newFile b d (d.spelled path))) ∧
      (∀ cause, s.phase = .raised cause → ∀ l, s.disk.look l = d.look l) ∧
      (s.phase = .returned → ∀ l, s.disk.look l =
        if l = d.spelled path then some (newFile b d (d.spelled path)) else d.look l)) ∧
    (∀ fault, b.complete = .error fault →
      Reaches b path ⟨.begun, d⟩ ⟨.raised (.misuse fault), d⟩) ∧
    ∀ text, b.complete = .ok text →
      Reaches b path ⟨.begun, d⟩
        ⟨ending (d.replace path text.toUTF8).1, (d.replace path text.toUTF8).2⟩ := by
  refine ⟨fun s hs => ⟨hs.invariant.target, ?_, ?_⟩, fun fault hfault => ?_, fun text htext => ?_⟩
  · obtain ⟨phase, e⟩ := s
    rintro cause rfl
    exact Same.look hs.invariant
  · obtain ⟨phase, e⟩ := s
    rintro rfl
    exact hs.invariant.2.look
  · unfold LineBuffer.complete at hfault
    split at hfault <;> cases hfault
    rename_i hlevel
    exact .single (.fail (.check hlevel))
  · unfold LineBuffer.complete at htext
    split at htext <;> cases htext
    rename_i hlevel
    exact reaches_replace hlevel

/-- A buffer with one line. -/
def oneLine : LineBuffer := { lines := ["new"] }

/-- A disk with one file, which only its owner may use.  New files are denied to all but the
owner and the group. -/
def oldDisk : Disk := { entries := [(#["A"], .file "old".toUTF8 0o600)], umask := 0o027 }

/-- The disk with a temporary file that holds part of the line. -/
def cutDisk : Disk :=
  (oldDisk.set #["t"] (.file ByteArray.empty oldDisk.tempMode)).set #["t"]
    (.file (oneLine.text.toUTF8.extract 0 2) oldDisk.tempMode)

/-- Here the writing is cut short once and leaves no trace, and once it comes to its end.  Where
there was a file its mode stays, and a new file gets what the mask leaves. -/
theorem replacement_cut_short :
    (Reaches oneLine "A" ⟨.begun, oldDisk⟩ ⟨.failing #["t"] .interrupted, cutDisk⟩ ∧
      cutDisk.look #["t"] = some (.file "ne".toUTF8 0o600)) ∧
    (Reaches oneLine "A" ⟨.begun, oldDisk⟩ ⟨.raised .interrupted, cutDisk.erase #["t"]⟩ ∧
      ∀ l, (cutDisk.erase #["t"]).look l = oldDisk.look l) ∧
    (Reaches oneLine "A" ⟨.begun, oldDisk⟩ ⟨.returned, (oldDisk.replace "A" "new\n".toUTF8).2⟩ ∧
      (oldDisk.replace "A" "new\n".toUTF8).2.look #["A"] = some (.file "new\n".toUTF8 0o600)) ∧
    Reaches oneLine "B" ⟨.begun, oldDisk⟩ ⟨.returned, (oldDisk.replace "B" "new\n".toUTF8).2⟩ ∧
    (oldDisk.replace "B" "new\n".toUTF8).2.look #["B"] = some (.file "new\n".toUTF8 0o640) := by
  have hopen : openFault? oldDisk (oldDisk.spelled "A").pop = none := by decide +kernel
  have hfresh : IsFresh oldDisk (oldDisk.spelled "A") #["t"] :=
    ⟨⟨"t", by decide +kernel⟩, by decide +kernel, by decide +kernel⟩
  have hopened : Reaches oneLine "A" ⟨.begun, oldDisk⟩ ⟨.opened #["t"], _⟩ :=
    (Relation.ReflTransGen.single (.check rfl)).tail (.create hopen hfresh)
  have hcut : Reaches oneLine "A" ⟨.begun, oldDisk⟩ ⟨.failing #["t"] .interrupted, cutDisk⟩ :=
    (hopened.tail (.write 2)).tail .interrupt
  have hraised := hcut.tail .cleanUp
  have hwhole : oneLine.complete = .ok "new\n" := by decide +kernel
  have hA := (replacement_atomic oneLine "A" oldDisk).2.2 "new\n" hwhole
  have hB := (replacement_atomic oneLine "B" oldDisk).2.2 "new\n" hwhole
  have hdone : (oldDisk.replace "A" "new\n".toUTF8).1 = .ok () ∧
      (oldDisk.replace "B" "new\n".toUTF8).1 = .ok () := by decide +kernel
  rw [hdone.1] at hA
  rw [hdone.2] at hB
  have hold := ((replacement_atomic oneLine "A" oldDisk).1 _ hA).2.2 rfl #["A"]
  have hnew := ((replacement_atomic oneLine "B" oldDisk).1 _ hB).2.2 rfl #["B"]
  refine ⟨⟨hcut, by decide +kernel⟩, ⟨hraised, ?_⟩, ⟨hA, hold.trans (by decide +kernel)⟩, hB,
    hnew.trans (by decide +kernel)⟩
  exact ((replacement_atomic oneLine "A" oldDisk).1 _ hraised).2.1 _ rfl

end Replacement

end SharpEmit
