/-
SharpEmit/Proofs/Conversion/Protection.lean

Files that are written once.  A row of calls, each for one declaration or for a batch
by one worker, is seen as the row of conversions that they make (`history`), each on the
disk that the one before has left.  A conversion keeps what is at a location
(`Keeps`) when it changes nothing there once there is something, and writes there only
while there is nothing.  Conversions of declarations that are to be converted once, or
never, keep what is in the place of their file; so do all conversions elsewhere
(`convert_keeps`), and what each step keeps, the whole row keeps (`history_keeps`).

Main result: where all declarations with a file at a location are protected, a file
there never changes again, and at most one conversion writes it
(`protected_file_kept`).
-/
import SharpEmit.Proofs.Conversion.Idempotence

namespace SharpEmit.Conversion

variable {t : Target} {root path : String} {disk : Disk} {d : Declaration} {p : Location}

/-! ### Protected declarations -/

/-- A declaration that a tag protects: it is converted only once, or never. -/
def IsProtected (d : Declaration) : Prop :=
  Declaration.onceTag ∈ d.tags ∨ Declaration.neverTag ∈ d.tags

instance (d : Declaration) : Decidable (IsProtected d) :=
  inferInstanceAs (Decidable (Declaration.onceTag ∈ d.tags ∨ Declaration.neverTag ∈ d.tags))

/-- A protected declaration that is not skipped finds nothing under its path. -/
theorem IsProtected.not_holds (h : IsProtected d) (hskip : skipReason disk d path = none) :
    disk.holds path = false := by
  unfold skipReason at hskip
  split at hskip
  · cases hskip
  · rename_i hnever
    split at hskip
    · cases hskip
    · rename_i honce
      rcases h with h | h
      · exact Bool.eq_false_iff.mpr fun hholds => honce ⟨h, hholds⟩
      · exact absurd h hnever

/-- Where there is something, a protected declaration cannot be written, also when
directories were made since it was not skipped. -/
theorem IsProtected.look_eq_none {later : Disk} (h : IsProtected d) (hpath : Leads path)
    (hdisk : disk.IsTree) (hskip : skipReason disk d path = none) (hlater : disk.Extends later)
    (htree : later.IsTree) (hfault : later.replaceFault? path = none) :
    disk.look (disk.spelled path) = none := by
  obtain ⟨-, hlocate, -⟩ :=
    Disk.changeable_of_replaceFault? htree hpath.plain hpath.named hfault
  rw [hlater.spelled_eq] at hlocate
  exact hlater.look_eq_none_of_holds hdisk hpath.plain (h.not_holds hskip) hlocate

/-- Text that is written replaces the file of the path. -/
theorem replaced_of_store {d : Declaration} {b : LineBuffer} {stored : Disk} (hpath : Leads path)
    (h : store disk d path b = (.ok (), stored)) :
    disk.replaceFault? path = none ∧ ∃ content, stored = disk.replaced path content := by
  cases hb : b.complete with
  | error fault =>
    simp only [store, hb] at h
    cases h
  | ok text =>
    rw [store_eq hb, Disk.replace_eq hpath.plain hpath.named] at h
    cases hfault : disk.replaceFault? path with
    | some fault =>
      rw [hfault] at h
      cases fault <;> cases h
    | none =>
      rw [hfault] at h
      exact ⟨rfl, text.toUTF8, (congrArg Prod.snd h).symm⟩

/-! ### Steps that keep what is there -/

/-- The conversion has written the file at a location. -/
def wroteAt (p : Location) (run : Run (Except Abort Result)) : Bool :=
  match run.value with
  | .ok result => result.skipped.isNone && run.disk.spelled result.path = p
  | .error _ => false

/-- A conversion keeps what is at a location: what was there stays as it is, and it
writes there only if nothing was there. -/
structure Keeps (p : Location) (before : Disk) (run : Run (Except Abort Result)) : Prop where
  stays : ∀ node, before.look p = some node → run.disk.look p = some node
  writes : wroteAt p run = true → before.look p = none ∧ run.disk.look p ≠ none

/-- A conversion keeps what is at a location if its declaration is protected or its file
is elsewhere. -/
theorem convert_keeps (hpath : Leads (t.outputPath root d)) (hdisk : disk.IsTree)
    (hprotected : disk.spelled (t.outputPath root d) = p → IsProtected d) :
    Keeps p disk (convert t root disk d) := by
  have hends := convert_ends t root disk d
  obtain ⟨hext, -, -⟩ := convert_extends hpath hdisk
  have hgrows := disk.makeDirs_grows (Path.parent (t.outputPath root d))
  have hplaced := Disk.makeDirs_extends hdisk (Path.parent (t.outputPath root d))
  generalize hrun : convert t root disk d = run at *
  obtain ⟨value, after, events⟩ := run
  dsimp only at hends hext
  -- new directories come only where nothing was
  have hstays : ∀ node, disk.look p = some node →
      (disk.makeDirs (Path.parent (t.outputPath root d))).2.look p = some node := by
    intro node hnode
    rcases hgrows p with heq | ⟨hnone, -⟩
    · rw [heq, hnode]
    · rw [hnone] at hnode
      cases hnode
  cases hends with
  | skipped _ => exact ⟨fun _ hnode => hnode, fun hwrote => by simp [wroteAt] at hwrote⟩
  | unrendered _ _ => exact ⟨fun _ hnode => hnode, fun hwrote => by simp [wroteAt] at hwrote⟩
  | unplaced _ _ hplace =>
    rw [← placed_of_place hplace] at hstays
    exact ⟨hstays, fun hwrote => by simp [wroteAt] at hwrote⟩
  | unstored _ _ hplace hstore =>
    rw [← placed_of_place hplace, ← store_eq_self_of_error hstore] at hstays
    exact ⟨hstays, fun hwrote => by simp [wroteAt] at hwrote⟩
  | @written b placed _ hskip _ hplace hstore =>
    rw [← placed_of_place hplace] at hstays hplaced
    obtain ⟨hfault, content, rfl⟩ := replaced_of_store hpath hstore
    have hset : Disk.IsSet placed _ (.file content _) _ := Disk.isSet_replaced hpath.named
    rw [hplaced.1.spelled_eq] at hset
    -- the file is written in its place only, and there only if nothing was there
    have hfree : disk.spelled (t.outputPath root d) = p → disk.look p = none := by
      rintro rfl
      exact (hprotected rfl).look_eq_none hpath hdisk hskip hplaced.1 hplaced.2 hfault
    refine ⟨fun node hnode => ?_, fun hwrote => ?_⟩
    · show (placed.replaced _ content).look p = some node
      rw [hset.look, if_neg]
      · exact hstays node hnode
      · intro heq
        rw [hfree heq.symm] at hnode
        cases hnode
    · have heq : disk.spelled (t.outputPath root d) = p := by
        rw [← hext.spelled_eq]
        simpa [wroteAt] using hwrote
      refine ⟨hfree heq, ?_⟩
      show (placed.replaced _ content).look p ≠ none
      rw [hset.look, if_pos heq.symm]
      simp

/-! ### Rows of conversions -/

/-- Conversions one after another keep what is at a location, each on the disk that the
one before has left. -/
inductive KeepsAll (p : Location) : Disk → List (Run (Except Abort Result)) → Prop
  | nil {before} : KeepsAll p before []
  | cons {before run runs} : Keeps p before run → KeepsAll p run.disk runs →
      KeepsAll p before (run :: runs)

/-- The disk that conversions leave. -/
def lastDisk (disk : Disk) (runs : List (Run (Except Abort Result))) : Disk :=
  (runs.map (·.disk)).getLastD disk

theorem lastDisk_cons (disk : Disk) (run : Run (Except Abort Result))
    (runs : List (Run (Except Abort Result))) :
    lastDisk disk (run :: runs) = lastDisk run.disk runs := by
  cases runs <;> rfl

namespace KeepsAll

variable {runs others : List (Run (Except Abort Result))}

theorem append (h : KeepsAll p disk runs) (h' : KeepsAll p (lastDisk disk runs) others) :
    KeepsAll p disk (runs ++ others) := by
  induction h with
  | nil => exact h'
  | cons hfirst _ ih =>
    rw [lastDisk_cons] at h'
    exact .cons hfirst (ih h')

/-- What was there at the start is there after each conversion. -/
theorem stays (h : KeepsAll p disk runs) {node : Node} (hnode : disk.look p = some node) :
    ∀ run ∈ runs, run.disk.look p = some node := by
  induction h with
  | nil => simp
  | cons hfirst _ ih =>
    have hafter := hfirst.stays node hnode
    intro run hrun
    rcases List.mem_cons.mp hrun with rfl | hrun
    · exact hafter
    · exact ih hafter run hrun

/-- What is there at one moment is there at each later one. -/
theorem pairwise (h : KeepsAll p disk runs) :
    (disk :: runs.map (·.disk)).Pairwise fun before after =>
      ∀ node, before.look p = some node → after.look p = some node := by
  induction h with
  | nil => exact List.pairwise_singleton _ _
  | cons hfirst hrest ih =>
    refine .cons ?_ ih
    intro after hafter node hnode
    obtain ⟨later, hlater, rfl⟩ := List.mem_map.mp hafter
    exact (KeepsAll.cons hfirst hrest).stays hnode later hlater

theorem countP_eq_zero (h : KeepsAll p disk runs) (hp : disk.look p ≠ none) :
    runs.countP (wroteAt p) = 0 := by
  induction h with
  | nil => rfl
  | cons hfirst _ ih =>
    obtain ⟨node, hnode⟩ := Option.ne_none_iff_exists'.mp hp
    rw [List.countP_cons_of_neg]
    · apply ih
      rw [hfirst.stays node hnode]
      simp
    · intro hwrote
      exact hp (hfirst.writes hwrote).1

theorem countP_le_one (h : KeepsAll p disk runs) : runs.countP (wroteAt p) ≤ 1 := by
  induction h with
  | nil => exact Nat.zero_le 1
  | @cons _ run _ hfirst hrest ih =>
    by_cases hwrote : wroteAt p run = true
    · -- once the file is written, there is something in its place
      rw [List.countP_cons_of_pos hwrote, hrest.countP_eq_zero (hfirst.writes hwrote).2]
    · rw [List.countP_cons_of_neg hwrote]
      exact ih

end KeepsAll

/-! ### Calls -/

/-- The conversions of a batch by one worker, up to the one that ends it. -/
def conversionsInTurn (t : Target) (root : String) (failFast : Bool) (disk : Disk) :
    List Declaration → List (Run (Except Abort Result))
  | [] => []
  | d :: rest =>
    let first := convert t root disk d
    first ::
      if endsBatch first.value || failFast && !first.value.isOk then []
      else conversionsInTurn t root failFast first.disk rest

/-- A batch comes to what its conversions come to, and leaves what they leave. -/
theorem convertInTurn_eq_conversionsInTurn (t : Target) (root : String) (failFast : Bool)
    (disk : Disk) (ds : List Declaration) :
    (convertInTurn t root failFast disk ds).value =
        (gather failFast ((conversionsInTurn t root failFast disk ds).map (·.value))).1 ∧
      (convertInTurn t root failFast disk ds).disk =
        lastDisk disk (conversionsInTurn t root failFast disk ds) := by
  induction ds generalizing disk with
  | nil => exact ⟨rfl, rfl⟩
  | cons d ds ih =>
    obtain ⟨hvalue, hdisk⟩ := ih (convert t root disk d).disk
    simp only [convertInTurn, conversionsInTurn, lastDisk_cons, List.map_cons]
    cases hfirst : (convert t root disk d).value with
    | ok result =>
      simp [endsBatch, Except.isOk, Except.toBool, gather, hvalue, hdisk]
    | error abort =>
      cases abort with
      | failed failure =>
        cases failFast with
        | true => simp [endsBatch, Except.isOk, Except.toBool, gather, lastDisk]
        | false => simp [endsBatch, gather, hvalue, hdisk]
      | nullCharacter => simp [endsBatch, gather, lastDisk]
      | misuse fault => simp [endsBatch, gather, lastDisk]

/-- A call for one declaration, or for a batch by one worker. -/
inductive Call where
  | single (n : CSharp.Naming) (root : String) (d : Declaration)
  | batch (n : CSharp.Naming) (root : String) (failFast : Bool) (ds : List Declaration)

namespace Call

/-- The declarations of a call, each with its output path. -/
def outputs : Call → List (Declaration × String)
  | .single n root d => [(d, (CSharp.target n).outputPath root d)]
  | .batch n root _ ds => ds.map fun d => (d, (CSharp.target n).outputPath root d)

/-- The conversions that a call makes. -/
def conversions (disk : Disk) : Call → List (Run (Except Abort Result))
  | .single n root d => [convert (CSharp.target n) root disk d]
  | .batch n root failFast ds => conversionsInTurn (CSharp.target n) root failFast disk ds

/-- The disk that a call leaves. -/
def leaves (disk : Disk) : Call → Disk
  | .single n root d => (convert (CSharp.target n) root disk d).disk
  | .batch n root failFast ds => (convertAll (CSharp.target n) root failFast 1 disk ds).disk

theorem leaves_eq (disk : Disk) (c : Call) : c.leaves disk = lastDisk disk (c.conversions disk) := by
  cases c with
  | single n root d => rfl
  | batch n root failFast ds =>
    exact (convertInTurn_eq_conversionsInTurn (CSharp.target n) root failFast disk ds).2

end Call

/-- The conversions that calls make one after another. -/
def history (disk : Disk) : List Call → List (Run (Except Abort Result))
  | [] => []
  | c :: calls => c.conversions disk ++ history (c.leaves disk) calls

/-! ### Protection -/

/-- The conversions of a batch keep what is at a location, and the disk that they leave
extends the one that they found. -/
theorem conversionsInTurn_keeps {failFast : Bool} {ds : List Declaration} (hdisk : disk.IsTree)
    (hpaths : ∀ d ∈ ds, Leads (t.outputPath root d))
    (hprotected : ∀ d ∈ ds, disk.spelled (t.outputPath root d) = p → IsProtected d) :
    KeepsAll p disk (conversionsInTurn t root failFast disk ds) ∧
      disk.Extends (lastDisk disk (conversionsInTurn t root failFast disk ds)) ∧
      (lastDisk disk (conversionsInTurn t root failFast disk ds)).IsTree := by
  induction ds generalizing disk with
  | nil => exact ⟨.nil, Disk.Extends.refl disk, hdisk⟩
  | cons d ds ih =>
    have hpath := hpaths d List.mem_cons_self
    have hfirst := convert_keeps hpath hdisk (hprotected d List.mem_cons_self)
    obtain ⟨hext, htree, -⟩ := convert_extends hpath hdisk
    rw [conversionsInTurn, lastDisk_cons]
    split
    · exact ⟨.cons hfirst .nil, hext, htree⟩
    · obtain ⟨hkeeps, hext', htree'⟩ := ih htree
        (fun d' hd' => hpaths d' (List.mem_cons_of_mem d hd'))
        (fun d' hd' heq =>
          hprotected d' (List.mem_cons_of_mem d hd') ((hext.spelled_eq _).symm.trans heq))
      exact ⟨.cons hfirst hkeeps, hext.trans hext' htree, htree'⟩

theorem Call.conversions_keeps {c : Call} (hdisk : disk.IsTree)
    (hplain : ∀ output ∈ c.outputs, Path.IsPlain output.2)
    (hprotected : ∀ output ∈ c.outputs, disk.spelled output.2 = p → IsProtected output.1) :
    KeepsAll p disk (c.conversions disk) ∧ disk.Extends (lastDisk disk (c.conversions disk)) ∧
      (lastDisk disk (c.conversions disk)).IsTree := by
  cases c with
  | single n root d =>
    -- one declaration is a batch of its own
    have hone : conversions disk (.single n root d) =
        conversionsInTurn (CSharp.target n) root false disk [d] := by
      simp [conversions, conversionsInTurn]
    rw [hone]
    simp only [outputs, List.mem_singleton, forall_eq] at hplain hprotected
    apply conversionsInTurn_keeps hdisk
    · intro d' hd'
      rw [List.mem_singleton.mp hd']
      exact ⟨hplain, (CSharp.target_isRegular n).named root d⟩
    · intro d' hd'
      rw [List.mem_singleton.mp hd']
      exact hprotected
  | batch n root failFast ds =>
    simp only [outputs, List.mem_map, forall_exists_index, and_imp, forall_apply_eq_imp_iff₂]
      at hplain hprotected
    apply conversionsInTurn_keeps hdisk
    · intro d hd
      exact ⟨hplain d hd, (CSharp.target_isRegular n).named root d⟩
    · exact hprotected

/-- The conversions of a row of calls keep what is at a location. -/
theorem history_keeps {calls : List Call} (hdisk : disk.IsTree)
    (hplain : ∀ c ∈ calls, ∀ output ∈ c.outputs, Path.IsPlain output.2)
    (hprotected : ∀ c ∈ calls, ∀ output ∈ c.outputs,
      disk.spelled output.2 = p → IsProtected output.1) :
    KeepsAll p disk (history disk calls) := by
  induction calls generalizing disk with
  | nil => exact .nil
  | cons c calls ih =>
    obtain ⟨hkeeps, hext, htree⟩ := Call.conversions_keeps hdisk (hplain c List.mem_cons_self)
      (hprotected c List.mem_cons_self)
    rw [history, Call.leaves_eq]
    apply hkeeps.append
    apply ih htree
    · intro c' hc'
      exact hplain c' (List.mem_cons_of_mem c hc')
    · intro c' hc' output houtput heq
      rw [hext.spelled_eq] at heq
      exact hprotected c' (List.mem_cons_of_mem c hc') output houtput heq

/-- In a row of calls in which every declaration with its file at a location is protected,
and no path goes back up: what is at the location at one moment is there unchanged at
each later one; at most one conversion writes there; and none does if something was
there from the start. -/
theorem protected_file_kept (p : Location) (disk : Disk) (calls : List Call)
    (hdisk : disk.IsTree)
    (hplain : ∀ c ∈ calls, ∀ output ∈ c.outputs, Path.IsPlain output.2)
    (hprotected : ∀ c ∈ calls, ∀ output ∈ c.outputs,
      disk.spelled output.2 = p → IsProtected output.1) :
    ((disk :: (history disk calls).map (·.disk)).Pairwise fun before after =>
      ∀ node, before.look p = some node → after.look p = some node) ∧
    (history disk calls).countP (wroteAt p) ≤ 1 ∧
    (disk.look p ≠ none → (history disk calls).countP (wroteAt p) = 0) := by
  have hkeeps := history_keeps hdisk hplain hprotected
  exact ⟨hkeeps.pairwise, hkeeps.countP_le_one, hkeeps.countP_eq_zero⟩

/-- Twice a batch with a type that is converted once and another one, between them a type
with the same file that is never converted. -/
def sharedCalls : List Call :=
  [.batch {} "o" false [{ name := "A", tags := [Declaration.onceTag] }, { name := "B" }],
    .single {} "./o" { name := "A", tags := [Declaration.neverTag] },
    .batch {} "o" true [{ name := "B" }, { name := "A", tags := [Declaration.onceTag] }]]

/-- From an empty disk on, five conversions are made, and the first of them writes the
file, which stays. -/
theorem sharedCalls_file_kept :
    (history {} sharedCalls).length = 5 ∧
      (history {} sharedCalls).countP (wroteAt #["o", "A.cs"]) = 1 ∧
      ((({} : Disk) :: (history {} sharedCalls).map (·.disk)).Pairwise fun before after =>
        ∀ node, before.look #["o", "A.cs"] = some node →
          after.look #["o", "A.cs"] = some node) := by
  have hkept := protected_file_kept #["o", "A.cs"] {} sharedCalls (by decide)
    (by decide +kernel) (by decide +kernel)
  exact ⟨by decide +kernel, by decide +kernel, hkept.1⟩

end SharpEmit.Conversion
