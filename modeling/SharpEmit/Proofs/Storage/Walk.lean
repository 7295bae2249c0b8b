/-
SharpEmit/Proofs/Storage/Walk.lean

Walks on a disk.  `reach` walks the names of a path through directories; a path
reaches what its directory reaches, and then its last name (`reach_eq`), and
`locate` differs from it only in the last name (`locate_of_fits`).  Wherever a walk
comes to, it is the location that the path spells (`spelled_of_reach`).

A disk is a tree when what it holds stands in directories (`IsTree`); then
everything above a location that holds something is a directory.
-/
import Mathlib.Data.List.Induction
import SharpEmit.Proofs.Storage.Path
import SharpEmit.Storage.Replacement

namespace SharpEmit

/-! ### Locations above others -/

/-- A location is another one or stands above it. -/
def OnWay (x y : Location) : Prop := x.toList <+: y.toList

instance (x y : Location) : Decidable (OnWay x y) :=
  inferInstanceAs (Decidable (x.toList <+: y.toList))

namespace OnWay

variable {x y z : Location}

theorem refl (x : Location) : OnWay x x := List.prefix_refl x.toList

theorem trans (h : OnWay x y) (h' : OnWay y z) : OnWay x z := List.IsPrefix.trans h h'

theorem push (x : Location) (name : String) : OnWay x (x.push name) := by
  rw [OnWay, Array.toList_push]
  exact List.prefix_append _ _

theorem push_iff {name : String} : OnWay x (y.push name) ↔ x = y.push name ∨ OnWay x y := by
  rw [OnWay, Array.toList_push, List.prefix_concat_iff, ← Array.toList_push, Array.toList_inj]
  exact Iff.rfl

theorem not_push (x : Location) (name : String) : ¬ OnWay (x.push name) x := by
  intro h
  have hle := h.length_le
  simp only [Array.toList_push, List.length_append, List.length_singleton] at hle
  omega

theorem ne_push (x : Location) (name : String) : x ≠ x.push name := by
  intro h
  apply not_push x name
  rw [← h]
  exact refl x

theorem antisymm (h : OnWay x y) (h' : OnWay y x) : x = y :=
  Array.toList_inj.mp (h.eq_of_length (Nat.le_antisymm h.length_le h'.length_le))

end OnWay

section Bind

variable {ε α β : Type}

theorem ok_bind (a : α) (f : α → Except ε β) : (Except.ok a >>= f) = f a := rfl

theorem error_bind (fault : ε) (f : α → Except ε β) : (Except.error fault >>= f) = .error fault := rfl

/-- What succeeds has succeeded at its first step. -/
theorem ok_of_bind {x : Except ε α} {f : α → Except ε β} {b : β} (h : (x >>= f) = .ok b) :
    ∃ a, x = .ok a ∧ f a = .ok b := by
  cases x with
  | error fault => cases h
  | ok a => exact ⟨a, rfl, h⟩

end Bind

namespace Disk

/-! ### Where names lead -/

/-- Where a name leads, if it leads anywhere. -/
def descend (l : Location) (name : String) : Location :=
  if name = "" ∨ name = "." then l else if name = ".." then l.pop else l.push name

theorem descend_of_not_isDots {l : Location} {name : String} (h : isDots name = false) :
    descend l name = l.push name := by
  simp only [isDots, Bool.or_eq_false_iff, decide_eq_false_iff_not] at h
  simp [descend, h]

/-- Without `..` names lead on. -/
theorem onWay_descend {l : Location} {name : String} (h : name ≠ "..") : OnWay l (descend l name) := by
  unfold descend
  rw [if_neg h]
  split
  · exact OnWay.refl l
  · exact OnWay.push l name

theorem onWay_foldl_descend {l : Location} {names : List String} (h : ".." ∉ names) :
    OnWay l (names.foldl descend l) := by
  induction names generalizing l with
  | nil => exact OnWay.refl l
  | cons name names ih =>
    rw [List.mem_cons, not_or] at h
    exact (onWay_descend (Ne.symm h.1)).trans (ih h.2)

theorem toList_foldl_descend {l : Location} {names : List String} (h : ".." ∉ names) :
    (names.foldl descend l).toList = l.toList ++ names.filter (fun n => ! isDots n) := by
  induction names generalizing l with
  | nil => simp
  | cons name names ih =>
    rw [List.mem_cons, not_or] at h
    rw [List.foldl_cons, ih h.2]
    cases hdots : isDots name with
    | true =>
      have hsame : descend l name = l := by grind [isDots, descend]
      rw [List.filter_cons_of_neg (by simp [hdots]), hsame]
    | false =>
      rw [List.filter_cons_of_pos (by simp [hdots]), descend_of_not_isDots hdots,
        Array.toList_push, List.append_assoc]
      rfl

theorem toList_foldl_descend_of_proper {l : Location} {names : List String}
    (h : ∀ n ∈ names, isDots n = false) : (names.foldl descend l).toList = l.toList ++ names := by
  have hplain : ".." ∉ names := fun hmem => absurd (h _ hmem) (by decide)
  rw [toList_foldl_descend hplain, List.filter_eq_self.mpr (by simpa using h)]

variable {d : Disk} {l m : Location} {name path : String}

@[simp] theorem enter_empty (d : Disk) (l : Location) : d.enter l "" = .ok l := by simp [enter]

theorem enter_dot (d : Disk) (l : Location) :
    d.enter l "." = if ¬ d.permits l .search then .error (.refused .notPermitted) else .ok l := by
  simp [enter]

theorem enter_of_not_isDots (h : isDots name = false) :
    d.enter l name =
      if ¬ d.permits l .search then .error (.refused .notPermitted)
      else if maxNameBytes < name.utf8ByteSize then .error (.refused .nameTooLong)
      else
        match d.look (l.push name) with
        | some (.directory _) => .ok (l.push name)
        | some (.file _ _) => .error (.refused .notDirectory)
        | none => .error (.refused .noEntry) := by
  simp only [isDots, Bool.or_eq_false_iff, decide_eq_false_iff_not] at h
  rw [enter, if_neg h.1.1, if_neg h.1.2]
  exact ite_congr rfl (fun _ => rfl) fun _ => if_neg h.2

theorem enter_dots (h : isDots name = true) (hne : name ≠ "") :
    d.enter l name =
      if ¬ d.permits l .search then .error (.refused .notPermitted) else .ok (descend l name) := by
  simp only [isDots, Bool.or_eq_true, decide_eq_true_eq] at h
  rcases h with (h | rfl) | rfl
  · exact absurd h hne
  · simp [enter, descend]
  · simp [enter, descend]

theorem descend_of_enter (h : d.enter l name = .ok m) : descend l name = m := by
  by_cases hempty : name = ""
  · subst hempty
    rw [enter_empty] at h
    cases h
    rfl
  · cases hdots : isDots name with
    | true =>
      rw [enter_dots hdots hempty] at h
      split at h <;> cases h
      rfl
    | false =>
      rw [enter_of_not_isDots hdots] at h
      rw [descend_of_not_isDots hdots]
      split at h
      · cases h
      · split at h
        · cases h
        · split at h <;> cases h
          rfl

theorem descend_of_child (h : d.child l name = .ok m) : descend l name = m := by
  unfold child at h
  split at h
  · exact descend_of_enter h
  · rename_i hdots
    rw [descend_of_not_isDots (by simpa using hdots)]
    split at h
    · cases h
    · split at h <;> cases h
      rfl

/-! ### Walks -/

/-- Walks names down from a location. -/
def walk (d : Disk) (l : Location) (names : List String) : Except PathFault Location :=
  names.foldlM d.enter l

@[simp] theorem walk_nil (d : Disk) (l : Location) : d.walk l [] = .ok l := rfl

theorem walk_cons (d : Disk) (l : Location) (name : String) (names : List String) :
    d.walk l (name :: names) = d.enter l name >>= fun m => d.walk m names := rfl

theorem walk_append (d : Disk) (l : Location) (names names' : List String) :
    d.walk l (names ++ names') = d.walk l names >>= fun m => d.walk m names' :=
  List.foldlM_append

theorem foldl_of_walk {names : List String} (h : d.walk l names = .ok m) :
    names.foldl descend l = m := by
  induction names generalizing l with
  | nil =>
    cases h
    rfl
  | cons name names ih =>
    rw [walk_cons] at h
    obtain ⟨c, hc, hrest⟩ := ok_of_bind h
    rw [List.foldl_cons, descend_of_enter hc]
    exact ih hrest

/-- What is missing when dots are left out is missing. -/
theorem walk_of_filter {names : List String} (hplain : ".." ∉ names)
    (h : d.walk l (names.filter fun n => ! isDots n) = .error (.refused .noEntry)) :
    d.walk l names = .error (.refused .noEntry) := by
  induction names generalizing l with
  | nil => exact h
  | cons name names ih =>
    rw [List.mem_cons, not_or] at hplain
    cases hdots : isDots name with
    | true =>
      rw [List.filter_cons_of_neg (by simp [hdots])] at h
      have hsame : descend l name = l := by grind [isDots, descend]
      by_cases hempty : name = ""
      · subst hempty
        rw [walk_cons, enter_empty]
        exact ih hplain.2 h
      · -- the walk goes on from here, so names can be looked up here
        have hsearch : d.permits l .search = true := by
          cases hreal : names.filter (fun n => ! isDots n) with
          | nil => simp [hreal] at h
          | cons n rest =>
            have hn : isDots n = false := by
              have hmem : n ∈ names.filter (fun n => ! isDots n) := hreal ▸ List.mem_cons_self
              simpa using (List.mem_filter.mp hmem).2
            rw [hreal, walk_cons, enter_of_not_isDots hn] at h
            by_contra hno
            simp [hno, bind, Except.bind] at h
        rw [walk_cons, enter_dots hdots hempty, hsame, hsearch]
        exact ih hplain.2 h
    | false =>
      rw [List.filter_cons_of_pos (by simp [hdots]), walk_cons] at h
      rw [walk_cons]
      cases hc : d.enter l name with
      | error fault =>
        rw [hc] at h
        exact h
      | ok c =>
        rw [hc] at h
        exact ih hplain.2 h

/-- Empty names lead nowhere. -/
theorem foldlM_enter_filter (d : Disk) (l : Location) (names : List String) :
    names.foldlM d.enter l = d.walk l (names.filter (· ≠ "")) := by
  induction names generalizing l with
  | nil => rfl
  | cons name names ih =>
    by_cases h : name = ""
    · subst h
      rw [List.foldlM_cons, enter_empty]
      exact ih l
    · rw [List.foldlM_cons, List.filter_cons_of_pos (by simpa using h), walk_cons]
      simp only [ih]

theorem foldl_descend_filter (l : Location) (names : List String) :
    names.foldl descend l = (names.filter (· ≠ "")).foldl descend l :=
  Path.foldl_filter_ne_empty (fun _ => rfl) l names

/-! ### Paths -/

/-- The directory that a path leads to. -/
def reach (d : Disk) (path : String) : Except PathFault Location :=
  d.walk (d.start path) (Path.steps path)

theorem start_parent (d : Disk) (path : String) : d.start (Path.parent path) = d.start path := by
  simp only [start, Path.isAbsolute_parent]

/-- A path reaches what its directory reaches, and then its last name. -/
theorem reach_eq (d : Disk) (path : String) :
    d.reach path = d.reach (Path.parent path) >>= fun l => d.enter l (Path.lastName path) := by
  rw [reach, reach, start_parent, Path.steps_eq path, walk_append]
  cases d.walk (d.start path) (Path.steps (Path.parent path)) with
  | error fault => rw [error_bind, error_bind]
  | ok l =>
    rw [ok_bind, ok_bind]
    by_cases h : Path.lastName path = ""
    · rw [h, enter_empty, List.filter_cons_of_neg (by simp), List.filter_nil, walk_nil]
    · rw [List.filter_cons_of_pos (by simpa using h), List.filter_nil, walk_cons]
      cases d.enter l (Path.lastName path) with
      | error fault => rw [error_bind]
      | ok m => rw [ok_bind, walk_nil]

theorem spelled_eq_steps (d : Disk) (path : String) :
    d.spelled path = (Path.steps path).foldl descend (d.start path) :=
  foldl_descend_filter (d.start path) (Path.names path)

theorem start_of_here {e : Disk} (h : e.here = d.here) (path : String) :
    e.start path = d.start path := by
  simp only [start, h]

/-- What a path spells hangs on where relative paths start. -/
theorem spelled_of_here {e : Disk} (h : e.here = d.here) (path : String) :
    e.spelled path = d.spelled path := by
  rw [spelled_eq_steps, spelled_eq_steps, start_of_here h]

theorem spelled_eq (d : Disk) (path : String) :
    d.spelled path = descend (d.spelled (Path.parent path)) (Path.lastName path) := by
  rw [spelled_eq_steps, spelled_eq_steps, start_parent, Path.steps_eq path, List.foldl_append]
  by_cases h : Path.lastName path = "" <;> simp [h, descend]

theorem onWay_spelled_parent (h : Path.IsPlain path) (d : Disk) :
    OnWay (d.spelled (Path.parent path)) (d.spelled path) := by
  rw [d.spelled_eq path]
  exact onWay_descend h.lastName_ne

theorem spelled_of_reach (h : d.reach path = .ok l) : d.spelled path = l := by
  rw [spelled_eq_steps]
  exact foldl_of_walk h

/-- A text that a walk can start from. -/
def Fits (path : String) : Prop :=
  '\x00' ∉ path.toList ∧ path ≠ "" ∧ path.utf8ByteSize < pathBytesLimit

theorem locate_of_fits (h : Fits path) :
    d.locate path =
      d.reach (Path.parent path) >>= fun l => d.child l (Path.lastName path) := by
  obtain ⟨hnull, hne, hsize⟩ := h
  unfold locate
  rw [if_neg (by simpa using hnull), if_neg hne, if_neg (by omega)]
  dsimp only
  rw [(Path.names_eq path).1, foldlM_enter_filter, (Path.names_eq path).2, reach, start_parent]

/-- What is wrong with a text does not hang on the disk. -/
theorem locate_of_not_fits (h : ¬ Fits path) : ∃ fault, ∀ d : Disk, d.locate path = .error fault := by
  by_cases hnull : '\x00' ∈ path.toList
  · exact ⟨.nullCharacter, fun d => by simp [locate, hnull]⟩
  · by_cases hne : path = ""
    · exact ⟨.refused .noEntry, fun d => by simp [locate, hne]⟩
    · have hsize : pathBytesLimit ≤ path.utf8ByteSize := by
        by_contra hlt
        exact h ⟨hnull, hne, by omega⟩
      exact ⟨.refused .nameTooLong, fun d => by simp [locate, hnull, hne, hsize]⟩

theorem fits_of_locate (h : d.locate path = .ok l) : Fits path := by
  by_contra hfits
  obtain ⟨fault, hfault⟩ := locate_of_not_fits hfits
  rw [hfault d] at h
  cases h

/-- A place has a directory in which it stands. -/
theorem reach_parent_of_locate (h : d.locate path = .ok l) :
    ∃ c, d.reach (Path.parent path) = .ok c ∧ d.child c (Path.lastName path) = .ok l := by
  rw [locate_of_fits (fits_of_locate h)] at h
  exact ok_of_bind h

theorem spelled_of_locate (h : d.locate path = .ok l) : d.spelled path = l := by
  obtain ⟨c, hc, hl⟩ := reach_parent_of_locate h
  rw [spelled_eq, spelled_of_reach hc]
  exact descend_of_child hl

theorem stat_of_locate_ok (h : d.locate path = .ok l) :
    d.stat path =
      match d.look l with
      | some node => .ok node
      | none => .error (.refused .noEntry) := by
  simp only [stat, h, bind, Except.bind]
  cases d.look l <;> rfl

theorem stat_of_locate_error {fault : PathFault} (h : d.locate path = .error fault) :
    d.stat path = .error fault := by
  unfold stat
  rw [h]
  rfl

theorem holds_iff (d : Disk) (path : String) :
    d.holds path = true ↔ ∃ l, d.locate path = .ok l ∧ d.look l ≠ none := by
  unfold holds
  cases hl : d.locate path with
  | error fault => simp [stat_of_locate_error hl, Except.isOk, Except.toBool]
  | ok l => cases hlook : d.look l <;> simp [stat_of_locate_ok hl, hlook, Except.isOk, Except.toBool]

/-- A walk ends early because the disk refuses it, and not for a file where a directory
is to be made. -/
def IsWalkFault (fault : PathFault) : Prop := ∃ r, fault = .refused r ∧ r ≠ .fileExists

theorem isWalkFault_of_enter {fault : PathFault} (h : d.enter l name = .error fault) :
    IsWalkFault fault := by
  unfold enter at h
  unfold IsWalkFault
  grind

theorem isWalkFault_of_walk {names : List String} {fault : PathFault}
    (h : d.walk l names = .error fault) : IsWalkFault fault := by
  induction names generalizing l with
  | nil => simp at h
  | cons name names ih =>
    rw [walk_cons] at h
    cases hc : d.enter l name with
    | error fault' =>
      rw [hc, error_bind] at h
      cases h
      exact isWalkFault_of_enter hc
    | ok c =>
      rw [hc, ok_bind] at h
      exact ih h

theorem isWalkFault_of_child {fault : PathFault} (h : d.child l name = .error fault) :
    IsWalkFault fault := by
  unfold child at h
  split at h
  · exact isWalkFault_of_enter h
  · unfold IsWalkFault
    grind

/-- A path leads to no place because of a null character, or because a walk ends
early. -/
theorem fault_of_locate {fault : PathFault} (h : d.locate path = .error fault) :
    fault = .nullCharacter ∧ '\x00' ∈ path.toList ∨ IsWalkFault fault := by
  by_cases hnull : '\x00' ∈ path.toList
  · have hfault : d.locate path = .error .nullCharacter := by simp [locate, hnull]
    rw [hfault] at h
    cases h
    exact .inl ⟨rfl, hnull⟩
  · right
    by_cases hfits : Fits path
    · rw [locate_of_fits hfits] at h
      cases hc : d.reach (Path.parent path) with
      | error fault' =>
        rw [hc, error_bind] at h
        cases h
        exact isWalkFault_of_walk hc
      | ok c =>
        rw [hc, ok_bind] at h
        exact isWalkFault_of_child h
    · unfold locate at h
      unfold Fits at hfits
      unfold IsWalkFault
      grind

theorem locate_ne_fileExists (d : Disk) (path : String) :
    d.locate path ≠ .error (.refused .fileExists) := by
  intro h
  rcases fault_of_locate h with ⟨hfault, -⟩ | ⟨r, hfault, hr⟩
  · cases hfault
  · cases hfault
    exact hr rfl

theorem null_of_locate (h : d.locate path = .error .nullCharacter) : '\x00' ∈ path.toList := by
  rcases fault_of_locate h with ⟨-, hnull⟩ | ⟨r, hfault, -⟩
  · exact hnull
  · cases hfault

theorem child_of_enter (h : d.enter l name = .ok m) : d.child l name = .ok m := by
  unfold child
  split
  · exact h
  · rename_i hdots
    rw [enter_of_not_isDots (by simpa using hdots)] at h
    grind

theorem locate_of_reach (hfits : Fits path) (h : d.reach path = .ok l) : d.locate path = .ok l := by
  rw [reach_eq] at h
  obtain ⟨c, hc, henter⟩ := ok_of_bind h
  rw [locate_of_fits hfits, hc, ok_bind]
  exact child_of_enter henter

theorem locate_of_too_long (h : pathBytesLimit ≤ path.utf8ByteSize) (d : Disk) :
    d.locate path =
      .error (if '\x00' ∈ path.toList then .nullCharacter else .refused .nameTooLong) := by
  have hne : path ≠ "" := by
    rintro rfl
    simp [pathBytesLimit] at h
  unfold locate
  by_cases hnull : '\x00' ∈ path.toList <;> simp [hnull, hne, h]

/-- A place that holds a directory is reached. -/
theorem reach_of_locate (h : d.locate path = .ok l) (hl : ∃ mode, d.look l = some (.directory mode)) :
    d.reach path = .ok l := by
  obtain ⟨c, hc, hchild⟩ := reach_parent_of_locate h
  obtain rfl := descend_of_child hchild
  obtain ⟨mode, hlook⟩ := hl
  rw [reach_eq, hc, ok_bind]
  unfold child at hchild
  split at hchild
  · exact hchild
  · rename_i hdots
    have hdots : isDots (Path.lastName path) = false := by simpa using hdots
    rw [descend_of_not_isDots hdots] at hlook ⊢
    rw [enter_of_not_isDots hdots, hlook]
    grind

/-- What is at a place is not missing on the way further. -/
theorem reach_ne_noEntry_of_locate (h : d.locate path = .ok l) (hl : d.look l ≠ none) :
    d.reach path ≠ .error (.refused .noEntry) := by
  obtain ⟨c, hc, hchild⟩ := reach_parent_of_locate h
  obtain rfl := descend_of_child hchild
  rw [reach_eq, hc, ok_bind]
  unfold child at hchild
  split at hchild
  · simp [hchild]
  · rename_i hdots
    have hdots : isDots (Path.lastName path) = false := by simpa using hdots
    rw [descend_of_not_isDots hdots] at hl
    rw [enter_of_not_isDots hdots]
    grind

/-! ### The same way on two disks -/

theorem permits_congr {e : Disk} (h : e.look l = d.look l) (a : Access) :
    e.permits l a = d.permits l a := by
  simp only [permits, h]

theorem changeable_congr {e : Disk} (h : e.look l = d.look l) :
    e.changeable l = d.changeable l := by
  simp only [changeable, permits_congr h]

theorem walk_congr {e : Disk} {q : Location} (h : ∀ m, OnWay m q → e.look m = d.look m)
    {names : List String} (hplain : ".." ∉ names) (hq : OnWay (names.foldl descend l) q) :
    e.walk l names = d.walk l names := by
  induction names generalizing l with
  | nil => rfl
  | cons name names ih =>
    rw [List.mem_cons, not_or] at hplain
    have hon : OnWay (descend l name) q := (onWay_foldl_descend hplain.2).trans hq
    have hl : OnWay l q := (onWay_descend (Ne.symm hplain.1)).trans hon
    have henter : e.enter l name = d.enter l name := by
      unfold enter
      rw [permits_congr (h l hl)]
      cases hdots : isDots name with
      | true => grind [isDots]
      | false =>
        rw [descend_of_not_isDots hdots] at hon
        rw [h _ hon]
    rw [walk_cons, walk_cons, henter]
    cases hc : d.enter l name with
    | error fault => rfl
    | ok c =>
      obtain rfl := descend_of_enter hc
      exact ih hplain.2 hq

/-- Where a path leads hangs on what is on its way. -/
theorem locate_congr {e : Disk} (hhere : e.here = d.here) (hplain : Path.IsPlain path)
    (h : ∀ m, OnWay m (d.spelled (Path.parent path)) → e.look m = d.look m) :
    e.locate path = d.locate path := by
  by_cases hfits : Fits path
  · have hreach : e.reach (Path.parent path) = d.reach (Path.parent path) := by
      rw [spelled_eq_steps] at h
      rw [reach, reach, start, hhere]
      exact walk_congr h hplain.parent (OnWay.refl _)
    rw [locate_of_fits hfits, locate_of_fits hfits, hreach]
    cases hc : d.reach (Path.parent path) with
    | error fault => rw [error_bind, error_bind]
    | ok c =>
      rw [spelled_of_reach hc] at h
      rw [ok_bind, ok_bind]
      unfold child enter
      rw [permits_congr (h c (OnWay.refl c))]
      grind [isDots]
  · obtain ⟨fault, hfault⟩ := locate_of_not_fits hfits
    rw [hfault d, hfault e]

/-! ### Trees -/

/-- A directory is at the location. -/
def HoldsDir (d : Disk) (l : Location) : Prop := ∃ mode, d.look l = some (.directory mode)

theorem HoldsDir.look_ne_none (h : d.HoldsDir l) : d.look l ≠ none := by
  obtain ⟨mode, hl⟩ := h
  simp [hl]

theorem holdsDir_root (d : Disk) : d.HoldsDir #[] := ⟨rootMode, rfl⟩

/-- What the disk holds stands in directories, under names that name something, and
so does the directory from which relative paths start. -/
structure IsTree (d : Disk) : Prop where
  here : d.HoldsDir d.here
  above : ∀ (l : Location) name, d.look (l.push name) ≠ none → d.HoldsDir l
  proper : ∀ (l : Location) name, d.look (l.push name) ≠ none → isDots name = false

instance (d : Disk) (l : Location) : Decidable (d.HoldsDir l) :=
  match h : d.look l with
  | some (.directory mode) => isTrue ⟨mode, h⟩
  | some (.file _ _) => isFalse (by rintro ⟨mode, hmode⟩; cases h.symm.trans hmode)
  | none => isFalse fun hdir => hdir.look_ne_none h

/-- Nothing is at a location when no entry is about it. -/
theorem look_eq_none_iff (h : l ≠ #[]) :
    d.look l = none ↔ ∀ e ∈ d.entries, e.1 ≠ l := by
  simp only [look, h, if_false, List.lookup_eq_none_iff, bne_iff_ne]
  exact ⟨fun hl e he => Ne.symm (hl e he), fun hl e he => Ne.symm (hl e he)⟩

/-- It is enough to look at the entries. -/
theorem isTree_iff (d : Disk) :
    d.IsTree ↔ d.HoldsDir d.here ∧ ∀ e ∈ d.entries, e.1 ≠ #[] →
      d.HoldsDir e.1.pop ∧ isDots (e.1.back?.getD "") = false := by
  constructor
  · refine fun h => ⟨h.here, fun e he hne => ?_⟩
    have hlook : d.look e.1 ≠ none := fun hnone => (look_eq_none_iff hne).mp hnone e he rfl
    obtain ⟨l, name, heq⟩ := Array.exists_push_of_ne_empty hne
    rw [heq] at hlook ⊢
    simpa using And.intro (h.above l name hlook) (h.proper l name hlook)
  · rintro ⟨hhere, hentries⟩
    have hentry : ∀ (l : Location) name, d.look (l.push name) ≠ none →
        d.HoldsDir l ∧ isDots name = false := by
      intro l name hlook
      rw [ne_eq, look_eq_none_iff Array.push_ne_empty] at hlook
      push Not at hlook
      obtain ⟨e, he, heq⟩ := hlook
      have hparts := hentries e he (by simp [heq])
      rw [heq] at hparts
      simpa using hparts
    exact ⟨hhere, fun l name hl => (hentry l name hl).1, fun l name hl => (hentry l name hl).2⟩

instance (d : Disk) : Decidable d.IsTree := decidable_of_iff _ (isTree_iff d).symm

theorem location_induction {motive : Location → Prop} (root : motive #[])
    (push : ∀ l name, motive l → motive (l.push name)) (l : Location) : motive l := by
  obtain ⟨names⟩ := l
  induction names using List.reverseRecOn with
  | nil => exact root
  | append_singleton names name ih => simpa using push ⟨names⟩ name ih

namespace IsTree

theorem holdsDir_of_onWay (h : d.IsTree) {x y : Location} (hxy : OnWay x y) (hne : x ≠ y)
    (hy : d.look y ≠ none) : d.HoldsDir x := by
  induction y using location_induction with
  | root => exact absurd (hxy.antisymm (List.nil_prefix)) hne
  | push l name ih =>
    have hl := h.above l name hy
    by_cases hx : x = l
    · exact hx ▸ hl
    · exact ih ((OnWay.push_iff.mp hxy).resolve_left hne) hx hl.look_ne_none

theorem look_ne_none_of_onWay (h : d.IsTree) {x y : Location} (hxy : OnWay x y)
    (hy : d.look y ≠ none) : d.look x ≠ none := by
  by_cases hne : x = y
  · exact hne ▸ hy
  · exact (h.holdsDir_of_onWay hxy hne hy).look_ne_none

theorem isDots_of_mem (h : d.IsTree) (hl : d.look l ≠ none) : ∀ n ∈ l.toList, isDots n = false := by
  induction l using location_induction with
  | root =>
    intro n hn
    cases hn
  | push l name ih =>
    intro n hn
    rw [Array.toList_push, List.mem_append, List.mem_singleton] at hn
    rcases hn with hn | rfl
    · exact ih (h.above l name hl).look_ne_none n hn
    · exact h.proper l n hl

theorem holdsDir_pop (h : d.IsTree) (hl : d.look l ≠ none) : d.HoldsDir l.pop := by
  by_cases hempty : l = #[]
  · subst hempty
    exact holdsDir_root d
  · obtain ⟨c, name, rfl⟩ := Array.exists_push_of_ne_empty hempty
    rw [Array.pop_push]
    exact h.above c name hl

theorem holdsDir_start (h : d.IsTree) (path : String) : d.HoldsDir (d.start path) := by
  unfold start
  split
  · exact holdsDir_root d
  · exact h.here

theorem holdsDir_of_enter (h : d.IsTree) (hl : d.HoldsDir l) (hm : d.enter l name = .ok m) :
    d.HoldsDir m := by
  unfold enter at hm
  split at hm
  · cases hm
    exact hl
  · split at hm
    · cases hm
    · split at hm
      · cases hm
        exact hl
      · split at hm
        · cases hm
          exact h.holdsDir_pop hl.look_ne_none
        · split at hm
          · cases hm
          · split at hm <;> cases hm
            rename_i mode hlook
            exact ⟨mode, hlook⟩

/-- A walk that starts in a directory ends in one. -/
theorem holdsDir_of_walk (h : d.IsTree) {names : List String} (hl : d.HoldsDir l)
    (hm : d.walk l names = .ok m) : d.HoldsDir m := by
  induction names generalizing l with
  | nil =>
    cases hm
    exact hl
  | cons name names ih =>
    rw [walk_cons] at hm
    obtain ⟨c, hc, hrest⟩ := ok_of_bind hm
    exact ih (h.holdsDir_of_enter hl hc) hrest

theorem holdsDir_of_reach (h : d.IsTree) (hl : d.reach path = .ok l) : d.HoldsDir l :=
  h.holdsDir_of_walk (h.holdsDir_start path) hl

/-- On the way from the root to a directory nothing is missing. -/
theorem walk_root_ne_noEntry (h : d.IsTree) (hl : d.HoldsDir l) :
    d.walk #[] l.toList ≠ .error (.refused .noEntry) := by
  induction l using location_induction with
  | root => simp
  | push l name ih =>
    have hproper := h.isDots_of_mem (h.above l name hl.look_ne_none).look_ne_none
    have hname := h.proper l name hl.look_ne_none
    have ih := ih (h.above l name hl.look_ne_none)
    obtain ⟨mode, hmode⟩ := hl
    rw [Array.toList_push, walk_append]
    cases hm : d.walk #[] l.toList with
    | error fault =>
      intro hno
      cases hno
      exact ih hm
    | ok m =>
      have hml : m = l := by
        rw [← foldl_of_walk hm, ← Array.toList_inj, toList_foldl_descend_of_proper hproper]
        rfl
      rw [ok_bind, walk_cons, hml, enter_of_not_isDots hname, hmode]
      split
      · simp [error_bind]
      · split <;> simp [error_bind, ok_bind]

theorem isDots_of_mem_spelled (h : d.IsTree) (hplain : Path.IsPlain path) :
    ∀ n ∈ (d.spelled path).toList, isDots n = false := by
  intro n hn
  rw [spelled_eq_steps, toList_foldl_descend hplain, List.mem_append] at hn
  rcases hn with hn | hn
  · exact h.isDots_of_mem (h.holdsDir_start path).look_ne_none n hn
  · simpa using (List.mem_filter.mp hn).2

/-- The way from the root to what a path spells leads there. -/
theorem spelled_of_walk_root (h : d.IsTree) (hplain : Path.IsPlain path)
    (hl : d.walk #[] (d.spelled path).toList = .ok l) : d.spelled path = l := by
  rw [← foldl_of_walk hl, ← Array.toList_inj,
    toList_foldl_descend_of_proper (h.isDots_of_mem_spelled hplain)]
  exact (List.nil_append _).symm

/-- What is missing on the way from the root is missing on the way of the path. -/
theorem reach_of_walk_root (h : d.IsTree) (hplain : Path.IsPlain path)
    (hno : d.walk #[] (d.spelled path).toList = .error (.refused .noEntry)) :
    d.reach path = .error (.refused .noEntry) := by
  have hstart := h.holdsDir_start path
  rw [spelled_eq_steps, toList_foldl_descend hplain, walk_append] at hno
  cases hm : d.walk #[] (d.start path).toList with
  | error fault =>
    rw [hm] at hno
    cases hno
    exact absurd hm (h.walk_root_ne_noEntry hstart)
  | ok m =>
    have hml : m = d.start path := by
      rw [← foldl_of_walk hm, ← Array.toList_inj,
        toList_foldl_descend_of_proper (h.isDots_of_mem hstart.look_ne_none)]
      rfl
    rw [hm, hml] at hno
    exact walk_of_filter hplain hno

/-- A place that holds nothing has a name of its own in a directory. -/
theorem push_of_locate (h : d.IsTree) (hl : d.locate path = .ok l) (hnone : d.look l = none) :
    ∃ c name, l = c.push name ∧ d.HoldsDir c ∧ isDots name = false ∧
      name.utf8ByteSize ≤ maxNameBytes := by
  obtain ⟨c, hc, hchild⟩ := reach_parent_of_locate hl
  have hdir := h.holdsDir_of_reach hc
  unfold child at hchild
  split at hchild
  · exact absurd hnone (h.holdsDir_of_enter hdir hchild).look_ne_none
  · rename_i hdots
    split at hchild
    · cases hchild
    · split at hchild <;> cases hchild
      rename_i hsize
      exact ⟨c, _, rfl, hdir, by simpa using hdots, by omega⟩

/-- A tree stays one when something new or other than a directory is replaced. -/
theorem of_look_eq (h : d.IsTree) {e : Disk} {c : Location} {node : Node} (hhere : e.here = d.here)
    (hlook : ∀ m, e.look m = if m = c.push name then some node else d.look m)
    (hc : d.HoldsDir c) (hname : isDots name = false) (hleaf : ¬ d.HoldsDir (c.push name)) :
    e.IsTree := by
  have hdir : ∀ m, d.HoldsDir m → e.HoldsDir m := by
    intro m hm
    have hne : m ≠ c.push name := by
      rintro rfl
      exact hleaf hm
    obtain ⟨mode, hmode⟩ := hm
    exact ⟨mode, by rw [hlook, if_neg hne, hmode]⟩
  refine ⟨hhere ▸ hdir _ h.here, fun m n hm => ?_, fun m n hm => ?_⟩
  · rw [hlook] at hm
    split at hm
    · rename_i heq
      exact (Array.push_eq_push.mp heq).2 ▸ hdir c hc
    · exact hdir m (h.above m n hm)
  · rw [hlook] at hm
    split at hm
    · rename_i heq
      exact (Array.push_eq_push.mp heq).1 ▸ hname
    · exact h.proper m n hm

end IsTree

end Disk

end SharpEmit
