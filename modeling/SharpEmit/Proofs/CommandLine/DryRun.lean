/-
SharpEmit/Proofs/CommandLine/DryRun.lean

A dry run shows what a run writes.  Which declarations are to be written, and with which
texts, does not depend on the disk (`toWrite`).  A dry run shows these texts (`dryRun_eq`),
and a batch writes them, one file for each, if the disk does not stand in its way
(`convertInTurn_fulfills`): it refuses nothing, and a type that is converted once finds
nothing in the place of its file.  What it finds is judged on the disk at the end, since
directories stay (`holdsDir_convertInTurn`).

Main result: the output of a dry run is the contents of the files that a run writes, and both
have the same exit code (`dryRun_shows_written`).  A directory can come into the place of a
file while the batch is running; `dryRun_shows_more` is a run that then keeps silent about a
type which the dry run shows.
-/
import SharpEmit.CommandLine.Program
import SharpEmit.Proofs.Conversion.Confinement
import SharpEmit.Proofs.Conversion.Isolation
import SharpEmit.Proofs.Storage.Interruption

namespace SharpEmit

open Conversion

/-! ### What is to be written -/

namespace Conversion

variable {t : Target} {root : String} {disk : Disk} {d : Declaration} {b : LineBuffer}
  {failFast : Bool} {ds : List Declaration}

/-- The declarations that are to be written, with their texts: all that may be converted and
can be rendered, or, if a failure ends the batch, those before the first failure. -/
def toWrite (t : Target) (failFast : Bool) : List Declaration → List (Declaration × LineBuffer)
  | [] => []
  | d :: rest =>
    if Declaration.neverTag ∈ d.tags then toWrite t failFast rest
    else
      match generate t d with
      | .ok b => (d, b) :: toWrite t failFast rest
      | .error _ => if failFast then [] else toWrite t failFast rest

/-- The declaration may be converted and cannot be rendered. -/
def isUnrenderable (t : Target) (d : Declaration) : Bool :=
  decide (Declaration.neverTag ∉ d.tags) && !(generate t d).isOk

section Cons

variable (failFast ds)

theorem toWrite_never (hnever : Declaration.neverTag ∈ d.tags) :
    toWrite t failFast (d :: ds) = toWrite t failFast ds := by
  rw [toWrite, if_pos hnever]

theorem toWrite_rendered (hnever : Declaration.neverTag ∉ d.tags) (hgen : generate t d = .ok b) :
    toWrite t failFast (d :: ds) = (d, b) :: toWrite t failFast ds := by
  rw [toWrite, if_neg hnever, hgen]

theorem toWrite_unrendered {failure : Failure} (hnever : Declaration.neverTag ∉ d.tags)
    (hgen : generate t d = .error failure) :
    toWrite t failFast (d :: ds) = if failFast then [] else toWrite t failFast ds := by
  rw [toWrite, if_neg hnever, hgen]

theorem any_isUnrenderable_never (hnever : Declaration.neverTag ∈ d.tags) :
    (d :: ds).any (isUnrenderable t) = ds.any (isUnrenderable t) := by
  simp [isUnrenderable, hnever]

theorem any_isUnrenderable_rendered (hgen : generate t d = .ok b) :
    (d :: ds).any (isUnrenderable t) = ds.any (isUnrenderable t) := by
  simp [isUnrenderable, hgen, Except.isOk, Except.toBool]

theorem any_isUnrenderable_unrendered {failure : Failure}
    (hnever : Declaration.neverTag ∉ d.tags) (hgen : generate t d = .error failure) :
    (d :: ds).any (isUnrenderable t) = true := by
  simp [isUnrenderable, hnever, hgen, Except.isOk, Except.toBool]

end Cons

/-- What is written comes in the order of the declarations. -/
theorem toWrite_sublist (t : Target) (failFast : Bool) (ds : List Declaration) :
    ((toWrite t failFast ds).map (·.1)).Sublist ds := by
  induction ds with
  | nil => exact .slnil
  | cons d ds ih =>
    by_cases hnever : Declaration.neverTag ∈ d.tags
    · rw [toWrite_never failFast ds hnever]
      exact ih.cons d
    cases hgen : generate t d with
    | ok b =>
      rw [toWrite_rendered failFast ds hnever hgen]
      exact ih.cons_cons d
    | error failure =>
      rw [toWrite_unrendered failFast ds hnever hgen]
      split
      · exact List.nil_sublist _
      · exact ih.cons d

end Conversion

/-! ### Dry runs -/

/-- A dry run shows what is to be written, and leaves the disk alone. -/
theorem CommandLine.dryRun_eq (t : Target) (failFast : Bool) (disk : Disk)
    (ds : List Declaration) :
    (dryRun t failFast disk ds).out = String.join ((toWrite t failFast ds).map (·.2.text)) ∧
      (dryRun t failFast disk ds).exit = .ok (if ds.any (isUnrenderable t) then 1 else 0) ∧
      (dryRun t failFast disk ds).disk = disk := by
  induction ds with
  | nil => exact ⟨rfl, rfl, rfl⟩
  | cons d ds ih =>
    obtain ⟨hout, hexit, hdisk⟩ := ih
    by_cases hnever : Declaration.neverTag ∈ d.tags
    · rw [toWrite_never failFast ds hnever, any_isUnrenderable_never ds hnever, dryRun,
        if_pos hnever]
      exact ⟨hout, hexit, hdisk⟩
    cases hgen : generate t d with
    | ok b =>
      rw [toWrite_rendered failFast ds hnever hgen, any_isUnrenderable_rendered ds hgen, dryRun,
        if_neg hnever, hgen]
      refine ⟨?_, hexit, hdisk⟩
      rw [List.map_cons, String.join_cons, ← hout]
    | error failure =>
      rw [toWrite_unrendered failFast ds hnever hgen,
        any_isUnrenderable_unrendered ds hnever hgen, dryRun, if_neg hnever, hgen]
      cases failFast with
      | true => exact ⟨rfl, rfl, rfl⟩
      | false => exact ⟨hout, rfl, hdisk⟩

/-! ### What a conversion leaves -/

namespace Conversion

variable {t : Target} {root : String} {disk : Disk} {d : Declaration} {b : LineBuffer}
  {failFast : Bool} {ds : List Declaration} {l : Location}

theorem level_of_complete {text : String} (h : b.complete = .ok text) :
    b.level = 0 ∧ text = b.text := by
  unfold LineBuffer.complete at h
  split at h <;> cases h
  rename_i hlevel
  exact ⟨hlevel, rfl⟩

/-- Text is written where no directory is. -/
theorem isSet_of_store (ht : t.IsRegular) (hgen : generate t d = .ok b) {path : String}
    {stored : Disk} (h : store disk d path b = (.ok (), stored)) :
    ¬ disk.HoldsDir (disk.spelled path) ∧
      ∃ mode, Disk.IsSet disk (disk.spelled path) (.file b.text.toUTF8 mode) stored := by
  obtain ⟨text, htext⟩ := ht.complete d b (render_of_generate hgen)
  obtain ⟨hlevel, rfl⟩ := level_of_complete htext
  rw [store_eq htext, Prod.mk.injEq] at h
  obtain ⟨hstep, rfl⟩ := h
  have hok : (disk.replace path b.text.toUTF8).1 = .ok () := by
    cases hr : (disk.replace path b.text.toUTF8).1 with
    | ok u => rfl
    | error fault =>
      rw [hr] at hstep
      cases fault <;> cases hstep
  obtain ⟨hdir, hset⟩ := Replacement.isSet_of_replace hlevel hok
  exact ⟨hdir, _, hset⟩

/-- A conversion makes directories where nothing was, and may then write its file where no
directory is. -/
theorem convert_leaves (ht : t.IsRegular) (root : String) (disk : Disk) (d : Declaration) :
    ∃ placed, Disk.Grows disk placed ∧ placed.here = disk.here ∧
      ((convert t root disk d).disk = placed ∨
        ¬ placed.HoldsDir (disk.spelled (t.outputPath root d)) ∧
          ∃ content mode, Disk.IsSet placed (disk.spelled (t.outputPath root d))
            (.file content mode) (convert t root disk d).disk) := by
  have hends := convert_ends t root disk d
  generalize (convert t root disk d).value = value at hends
  generalize (convert t root disk d).disk = after at hends ⊢
  have hgrows := Disk.makeDirs_grows disk (Path.parent (t.outputPath root d))
  have hhere := disk.makeDirs_here (Path.parent (t.outputPath root d))
  cases hends with
  | skipped _ => exact ⟨disk, .refl disk, rfl, .inl rfl⟩
  | unrendered _ _ => exact ⟨disk, .refl disk, rfl, .inl rfl⟩
  | unplaced _ _ hplace => exact ⟨_, hgrows, hhere, .inl (placed_of_place hplace)⟩
  | unstored _ _ hplace hstore =>
    refine ⟨_, hgrows, hhere, .inl ?_⟩
    rw [store_eq_self_of_error hstore, placed_of_place hplace]
  | @written b placed _ _ hgen hplace hstore =>
    obtain ⟨hdir, mode, hset⟩ := isSet_of_store ht hgen hstore
    rw [spelled_of_place hplace] at hdir hset
    obtain rfl := placed_of_place hplace
    exact ⟨_, hgrows, hhere, .inr ⟨hdir, _, mode, hset⟩⟩

theorem convert_here (ht : t.IsRegular) (root : String) (disk : Disk) (d : Declaration) :
    (convert t root disk d).disk.here = disk.here := by
  obtain ⟨placed, -, hhere, hsame | ⟨-, content, mode, hset⟩⟩ := convert_leaves ht root disk d
  · rw [hsame, hhere]
  · rw [hset.here, hhere]

/-- Directories stay. -/
theorem holdsDir_convert (ht : t.IsRegular) (root : String) (d : Declaration)
    (h : disk.HoldsDir l) : (convert t root disk d).disk.HoldsDir l := by
  obtain ⟨placed, hgrows, -, hleft⟩ := convert_leaves ht root disk d
  obtain ⟨mode, hmode⟩ := h
  have hplaced : placed.look l = some (.directory mode) := by
    rcases hgrows l with hsame | ⟨hnone, -⟩
    · rw [hsame, hmode]
    · rw [hnone] at hmode
      cases hmode
  rcases hleft with hsame | ⟨hdir, content, fileMode, hset⟩
  · exact ⟨mode, hsame ▸ hplaced⟩
  · refine ⟨mode, ?_⟩
    rw [hset.look, if_neg, hplaced]
    rintro rfl
    exact hdir ⟨mode, hplaced⟩

theorem holdsDir_convertInTurn (ht : t.IsRegular) (root : String) (failFast : Bool)
    (ds : List Declaration) (h : disk.HoldsDir l) :
    (convertInTurn t root failFast disk ds).disk.HoldsDir l := by
  induction ds generalizing disk with
  | nil => exact h
  | cons d ds ih =>
    have hfirst := holdsDir_convert ht root d h
    unfold convertInTurn
    dsimp only
    split
    · exact ih hfirst
    · split
      · exact hfirst
      · exact ih hfirst
    · exact hfirst

/-! ### Faults of the disk -/

/-- The disk has refused something, or a null character has kept it from being asked. -/
def Abort.isDiskFault : Abort → Bool
  | .failed ⟨_, .unrendered _⟩ => false
  | .failed _ => true
  | .nullCharacter => true
  | .misuse _ => false

/-- No part of a batch has met a fault of the disk. -/
def Unhindered : Except Abort Report → Prop
  | .ok report => ∀ failure ∈ report.failures, (Abort.failed failure).isDiskFault = false
  | .error abort => abort.isDiskFault = false

instance (value : Except Abort Report) : Decidable (Unhindered value) :=
  match value with
  | .ok report => inferInstanceAs
      (Decidable (∀ failure ∈ report.failures, (Abort.failed failure).isDiskFault = false))
  | .error abort => inferInstanceAs (Decidable (abort.isDiskFault = false))

theorem isDiskFault_of_stepOutcome {cause : Refusal → Cause} {r : Except PathFault Unit}
    {abort : Abort} (hcause : ∀ refusal, (Abort.failed ⟨d.name, cause refusal⟩).isDiskFault = true)
    (h : stepOutcome d cause r = .error abort) : abort.isDiskFault = true := by
  cases r with
  | ok u => cases h
  | error fault =>
    cases fault with
    | nullCharacter =>
      cases h
      rfl
    | refused refusal =>
      cases h
      exact hcause refusal

theorem isDiskFault_of_place {path : String} {placed : Disk} {abort : Abort}
    (h : place disk d path = (.error abort, placed)) : abort.isDiskFault = true := by
  rw [place_eq, Prod.mk.injEq] at h
  exact isDiskFault_of_stepOutcome (fun _ => rfl) h.1

theorem isDiskFault_of_store (ht : t.IsRegular) (hgen : generate t d = .ok b) {path : String}
    {stored : Disk} {abort : Abort} (h : store disk d path b = (.error abort, stored)) :
    abort.isDiskFault = true := by
  obtain ⟨text, htext⟩ := ht.complete d b (render_of_generate hgen)
  rw [store_eq htext, Prod.mk.injEq] at h
  exact isDiskFault_of_stepOutcome (fun _ => rfl) h.1

/-! ### Conversions that nothing hinders -/

theorem convert_never (root : String) (disk : Disk) (hnever : Declaration.neverTag ∈ d.tags) :
    convert t root disk d =
      ⟨.ok ⟨d.name, t.outputPath root d, some .explicit⟩, disk, [.neverConverted d.name]⟩ := by
  have hskip : skipReason disk d (t.outputPath root d) = some .explicit := if_pos hnever
  simp only [convert, hskip]
  rfl

section Begun

variable (hskip : skipReason disk d (t.outputPath root d) = none)
include hskip

theorem convert_unrendered {failure : Failure} (hgen : generate t d = .error failure) :
    convert t root disk d = ⟨.error (.failed failure), disk, []⟩ := by
  simp only [convert, hskip, hgen]

/-- What can be rendered is written, if the disk lets it. -/
theorem convert_rendered (ht : t.IsRegular) (hgen : generate t d = .ok b)
    (hfault : ∀ abort, (convert t root disk d).value = .error abort → abort.isDiskFault = false) :
    (∃ after, convert t root disk d =
        ⟨.ok ⟨d.name, t.outputPath root d, none⟩, after, [.wrote (t.outputPath root d)]⟩) ∧
      ∃ mode, (convert t root disk d).disk.fileAt (disk.spelled (t.outputPath root d)) =
        some (b.text.toUTF8, mode) := by
  cases hplace : place disk d (t.outputPath root d) with
  | mk placing placed =>
    cases placing with
    | error abort =>
      simp only [convert, hskip, hgen, hplace] at hfault
      cases (isDiskFault_of_place hplace).symm.trans (hfault abort rfl)
    | ok u =>
      cases hstore : store placed d (t.outputPath root d) b with
      | mk storing stored =>
        cases storing with
        | error abort =>
          simp only [convert, hskip, hgen, hplace, hstore] at hfault
          cases (isDiskFault_of_store ht hgen hstore).symm.trans (hfault abort rfl)
        | ok u =>
          simp only [convert, hskip, hgen, hplace, hstore]
          refine ⟨⟨stored, rfl⟩, ?_⟩
          obtain ⟨-, mode, hset⟩ := isSet_of_store ht hgen hstore
          rw [spelled_of_place hplace] at hset
          refine ⟨mode, ?_⟩
          rw [Disk.fileAt, hset.look, if_pos rfl]

end Begun

/-! ### Places that stay clear -/

/-- The declarations have their files in different places, and those that are converted once
have nothing there, which is to say: no file at the start, and no directory at the end. -/
structure Clear (t : Target) (root : String) (disk final : Disk) (ds : List Declaration) :
    Prop where
  apart : ds.Pairwise fun d d' =>
    disk.spelled (t.outputPath root d) ≠ disk.spelled (t.outputPath root d')
  absent : ∀ d ∈ ds, Declaration.onceTag ∈ d.tags →
    disk.fileAt (disk.spelled (t.outputPath root d)) = none
  free : ∀ d ∈ ds, Declaration.onceTag ∈ d.tags →
    ¬ final.HoldsDir (disk.spelled (t.outputPath root d))

theorem spelled_convert (ht : t.IsRegular) (root : String) (disk : Disk) (d : Declaration)
    (path : String) : (convert t root disk d).disk.spelled path = disk.spelled path :=
  Disk.spelled_of_here (convert_here ht root disk d) path

namespace Clear

variable {final : Disk}

/-- The conversion of the first declaration leaves the places of the others clear. -/
theorem tail (h : Clear t root disk final (d :: ds)) (ht : t.IsRegular) :
    Clear t root (convert t root disk d).disk final ds := by
  obtain ⟨hfirst, hrest⟩ := List.pairwise_cons.mp h.apart
  refine ⟨?_, fun d' hd' honce => ?_, fun d' hd' honce => ?_⟩
  · simpa only [spelled_convert ht] using hrest
  · rw [spelled_convert ht, fileAt_convert ht root disk d (hfirst d' hd').symm]
    exact h.absent d' (List.mem_cons_of_mem d hd') honce
  · rw [spelled_convert ht]
    exact h.free d' (List.mem_cons_of_mem d hd') honce

theorem skipReason_eq_none (h : Clear t root disk final (d :: ds))
    (hdirs : ∀ l, disk.HoldsDir l → final.HoldsDir l) (hnever : Declaration.neverTag ∉ d.tags) :
    skipReason disk d (t.outputPath root d) = none := by
  rw [skipReason, if_neg hnever, if_neg]
  rintro ⟨honce, hholds⟩
  obtain ⟨l, hl, hsome⟩ := (disk.holds_iff _).mp hholds
  obtain rfl := Disk.spelled_of_locate hl
  have habsent := h.absent d List.mem_cons_self honce
  -- what is there is a file or a directory, and it can be neither
  cases hnode : disk.look (disk.spelled (t.outputPath root d)) with
  | none => exact hsome hnode
  | some node =>
    cases node with
    | file content mode =>
      rw [Disk.fileAt, hnode] at habsent
      cases habsent
    | directory mode => exact h.free d List.mem_cons_self honce (hdirs _ ⟨mode, hnode⟩)

end Clear

/-! ### Batches that nothing hinders -/

theorem Unhindered.of_withResult {result : Result} {value : Except Abort Report}
    (h : Unhindered (Report.withResult result <$> value)) : Unhindered value := by
  cases value with
  | error abort => exact h
  | ok report => exact h

theorem Unhindered.of_withFailure {failure : Failure} {value : Except Abort Report}
    (h : Unhindered (Report.withFailure failure <$> value)) : Unhindered value := by
  cases value with
  | error abort => exact h
  | ok report => exact fun f hf => h f (List.mem_cons_of_mem failure hf)

/-- In a batch that the disk does not hinder, it does not hinder the first conversion. -/
theorem Unhindered.first (ht : t.IsRegular)
    (h : Unhindered (convertInTurn t root failFast disk (d :: ds)).value) (abort : Abort)
    (habort : (convert t root disk d).value = .error abort) : abort.isDiskFault = false := by
  simp only [convertInTurn, habort] at h
  cases abort with
  | nullCharacter => exact h
  | misuse fault => exact h
  | failed failure =>
    cases failFast with
    | true => exact h
    | false =>
      -- a failure that is collected is lost only if a null character ends the batch
      rcases convertInTurn_reports ht root (convert t root disk d).disk ds with
        ⟨report, hreport, -⟩ | ⟨hnull, -⟩
      · simp only [hreport] at h
        exact h failure List.mem_cons_self
      · simp only [hnull] at h
        cases h

/-- The file that an event tells of. -/
def writtenPath? : Event → Option String
  | .wrote path => some path
  | _ => none

/-- The files that were written, in order. -/
def writtenPaths (events : List Event) : List String := events.filterMap writtenPath?

/-- A batch has failed or not: failures are in its report, or one of them has ended it. -/
inductive HasFailed : Bool → Except Abort Report → Prop
  | reported (report : Report) : HasFailed (!report.ok) (.ok report)
  | stopped (failure : Failure) : HasFailed true (.error (.failed failure))

theorem HasFailed.withResult {failed : Bool} {value : Except Abort Report}
    (h : HasFailed failed value) (result : Result) :
    HasFailed failed (Report.withResult result <$> value) := by
  cases h with
  | reported report => exact .reported (report.withResult result)
  | stopped failure => exact .stopped failure

theorem HasFailed.withFailure {failed : Bool} {value : Except Abort Report}
    (h : HasFailed failed value) (failure : Failure) :
    HasFailed true (Report.withFailure failure <$> value) := by
  cases h with
  | reported report => exact .reported (report.withFailure failure)
  | stopped first => exact .stopped first

/-- A batch has written what is to be written and nothing else, and it has failed if a
declaration cannot be rendered. -/
structure Fulfills (t : Target) (root : String) (failFast : Bool) (disk : Disk)
    (ds : List Declaration) (run : Run (Except Abort Report)) : Prop where
  wrote : writtenPaths run.events = (toWrite t failFast ds).map fun x => t.outputPath root x.1
  files : ∀ x ∈ toWrite t failFast ds, ∃ mode,
    run.disk.fileAt (disk.spelled (t.outputPath root x.1)) = some (x.2.text.toUTF8, mode)
  others : ∀ l, (∀ x ∈ toWrite t failFast ds, l ≠ disk.spelled (t.outputPath root x.1)) →
    run.disk.fileAt l = disk.fileAt l
  ends : HasFailed (ds.any (isUnrenderable t)) run.value

namespace Fulfills

variable {others : Run (Except Abort Report)}

/-- Where nothing is to be written, nothing has to be done. -/
theorem of_nil (hnone : toWrite t failFast ds = []) (root : String) (disk : Disk)
    {value : Except Abort Report} (hends : HasFailed (ds.any (isUnrenderable t)) value) :
    Fulfills t root failFast disk ds ⟨value, disk, []⟩ := by
  constructor
  · rw [hnone]
    rfl
  · rw [hnone]
    intro x hx
    cases hx
  · intro l _
    rfl
  · exact hends

/-- A declaration that is not to be written changes nothing. -/
theorem unwritten (h : Fulfills t root failFast disk ds others)
    (hsame : toWrite t failFast (d :: ds) = toWrite t failFast ds) {event : Event}
    (hevent : writtenPath? event = none) {value : Except Abort Report}
    (hends : HasFailed ((d :: ds).any (isUnrenderable t)) value) :
    Fulfills t root failFast disk (d :: ds) ⟨value, others.disk, event :: others.events⟩ := by
  constructor
  · rw [hsame, ← h.wrote]
    exact List.filterMap_cons_none hevent
  · rw [hsame]
    exact h.files
  · rw [hsame]
    exact h.others
  · exact hends

/-- A file that is written first is in its place at the end, since the later ones have other
places. -/
theorem rendered (ht : t.IsRegular) (hnever : Declaration.neverTag ∉ d.tags)
    (hgen : generate t d = .ok b)
    (hapart : ∀ d' ∈ ds,
      disk.spelled (t.outputPath root d) ≠ disk.spelled (t.outputPath root d'))
    (hfile : ∃ mode, (convert t root disk d).disk.fileAt (disk.spelled (t.outputPath root d)) =
      some (b.text.toUTF8, mode))
    (h : Fulfills t root failFast (convert t root disk d).disk ds others) (result : Result) :
    Fulfills t root failFast disk (d :: ds)
      ⟨Report.withResult result <$> others.value, others.disk,
        [.wrote (t.outputPath root d)] ++ others.events⟩ := by
  obtain ⟨hwrote, hfiles, hothers, hends⟩ := h
  simp only [spelled_convert ht] at hfiles hothers
  have hcons := toWrite_rendered failFast ds hnever hgen
  constructor
  · rw [hcons, List.map_cons, ← hwrote]
    rfl
  · rw [hcons]
    intro x hx
    rcases List.mem_cons.mp hx with rfl | hx
    · -- what comes after it leaves it alone
      rw [hothers]
      · exact hfile
      · intro x hx
        apply hapart
        exact (toWrite_sublist t failFast ds).subset (List.mem_map_of_mem hx)
    · exact hfiles x hx
  · rw [hcons]
    intro l hl
    rw [hothers l fun x hx => hl x (List.mem_cons_of_mem _ hx)]
    exact fileAt_convert ht root disk d (hl (d, b) List.mem_cons_self)
  · rw [any_isUnrenderable_rendered ds hgen]
    exact hends.withResult result

end Fulfills

/-- A batch that the disk does not hinder does what is to be done. -/
theorem convertInTurn_fulfills (ht : t.IsRegular)
    (hvalue : Unhindered (convertInTurn t root failFast disk ds).value)
    (hclear : Clear t root disk (convertInTurn t root failFast disk ds).disk ds) :
    Fulfills t root failFast disk ds (convertInTurn t root failFast disk ds) := by
  induction ds generalizing disk with
  | nil => exact .of_nil rfl root disk (.reported {})
  | cons d ds ih =>
    have htail := hclear.tail ht
    by_cases hnever : Declaration.neverTag ∈ d.tags
    · have hfirst := convert_never (t := t) root disk hnever
      simp only [convertInTurn, hfirst] at hvalue htail ⊢
      have hrest := ih hvalue.of_withResult htail
      refine hrest.unwritten (toWrite_never failFast ds hnever) rfl ?_
      rw [any_isUnrenderable_never ds hnever]
      exact hrest.ends.withResult _
    -- a directory in its place would still be there at the end
    have hskip := hclear.skipReason_eq_none
      (fun l hl => holdsDir_convertInTurn ht root failFast (d :: ds) hl) hnever
    cases hgen : generate t d with
    | error failure =>
      have hfirst := convert_unrendered hskip hgen
      have hwrites := toWrite_unrendered failFast ds hnever hgen
      have hany := any_isUnrenderable_unrendered ds hnever hgen
      cases failFast with
      | true =>
        -- the rest is not reached, by the batch as by `toWrite`
        simp only [convertInTurn, hfirst, if_true]
        refine .of_nil hwrites root disk ?_
        rw [hany]
        exact .stopped failure
      | false =>
        simp only [convertInTurn, hfirst, Bool.false_eq_true, if_false] at hvalue htail ⊢
        have hrest := ih hvalue.of_withFailure htail
        refine hrest.unwritten hwrites rfl ?_
        rw [hany]
        exact hrest.ends.withFailure failure
    | ok b =>
      obtain ⟨⟨after, hfirst⟩, hfile⟩ := convert_rendered hskip ht hgen (hvalue.first ht)
      have hapart := (List.pairwise_cons.mp hclear.apart).1
      simp only [convertInTurn, hfirst] at hvalue htail ⊢
      have hrest := ih hvalue.of_withResult htail
      refine .rendered ht hnever hgen hapart hfile ?_ _
      rw [hfirst]
      exact hrest

end Conversion

/-! ### Runs and dry runs -/

namespace CommandLine

/-- The same settings for a run that is dry or not. -/
def Settings.withDryRun (s : Settings) (dry : Bool) : Settings :=
  { s with options := { s.options with dryRun := dry } }

/-- The batch that a run converts. -/
def Settings.batch (s : Settings) (root : String) (jobs : Int) (disk : Disk)
    (ds : List Declaration) : Run (Except Abort Report) :=
  convertAll (CSharp.target s.options.naming) root s.options.failFast jobs disk ds

/-- The path of the file of a declaration. -/
def Settings.outputPath (s : Settings) (root : String) (d : Declaration) : String :=
  (CSharp.target s.options.naming).outputPath root d

section Runs

variable {disk : Disk} {s : Settings} {root : String} {jobs : Int} {ds : List Declaration}

theorem runWith_of_dry (hload : loadInput disk s.input = .ok (.ok ds)) :
    runWith disk (s.withDryRun true) =
      dryRun (CSharp.target s.options.naming) s.options.failFast disk ds := by
  unfold runWith
  rw [show (s.withDryRun true).input = s.input from rfl, hload]
  rfl

theorem runWith_of_not_dry (hload : loadInput disk s.input = .ok (.ok ds))
    (hroot : s.options.output = some root) (hjobs : s.options.jobs = some jobs) :
    runWith disk (s.withDryRun false) =
      convertInto (CSharp.target s.options.naming) root jobs (s.withDryRun false).options
        disk ds := by
  unfold runWith
  rw [show (s.withDryRun false).input = s.input from rfl, hload]
  show convertRun (CSharp.target s.options.naming) (s.withDryRun false).options disk ds = _
  unfold convertRun
  rw [show (s.withDryRun false).options.jobs = some jobs from hjobs,
    show (s.withDryRun false).options.output = some root from hroot]

theorem disk_convertInto (t : Target) (root : String) (jobs : Int) (o : Options) (disk : Disk)
    (ds : List Declaration) :
    (convertInto t root jobs o disk ds).disk =
      (convertAll t root o.failFast jobs disk ds).disk := by
  unfold convertInto
  dsimp only
  split <;> rfl

theorem exit_convertInto {t : Target} {o : Options} {failed : Bool}
    (h : HasFailed failed (convertAll t root o.failFast jobs disk ds).value) :
    (convertInto t root jobs o disk ds).exit = .ok (if failed then 1 else 0) := by
  unfold convertInto
  dsimp only
  generalize (convertAll t root o.failFast jobs disk ds).value = value at h ⊢
  cases h with
  | reported report => cases hok : report.ok <;> simp [hok]
  | stopped failure => rfl

/-- A dry run shows the contents of the files that a run by one worker writes, in the order of
the declarations; both end with the same code, which says whether a declaration that may be
converted cannot be rendered.  The files have different places, the disk refuses nothing, and
those that are written once have nothing in their place: no file before the run, and no
directory after it. -/
theorem dryRun_shows_written (hload : loadInput disk s.input = .ok (.ok ds))
    (hroot : s.options.output = some root) (hjobs : s.options.jobs = some jobs) (hone : jobs ≤ 1)
    (hapart : ds.Pairwise fun d d' =>
      disk.spelled (s.outputPath root d) ≠ disk.spelled (s.outputPath root d'))
    (habsent : ∀ d ∈ ds, Declaration.onceTag ∈ d.tags →
      disk.fileAt (disk.spelled (s.outputPath root d)) = none)
    (hvalue : Unhindered (s.batch root jobs disk ds).value)
    (hfree : ∀ d ∈ ds, Declaration.onceTag ∈ d.tags →
      ¬ (runWith disk (s.withDryRun false)).disk.HoldsDir (disk.spelled (s.outputPath root d))) :
    (∃ code, (runWith disk (s.withDryRun false)).exit = .ok code ∧
      (runWith disk (s.withDryRun true)).exit = .ok code ∧
      code = if ds.any (isUnrenderable (CSharp.target s.options.naming)) then 1 else 0) ∧
    (runWith disk (s.withDryRun true)).disk = disk ∧
    (writtenPaths (s.batch root jobs disk ds).events).Sublist (ds.map (s.outputPath root)) ∧
    (∃ texts, (runWith disk (s.withDryRun true)).out = String.join texts ∧
      List.Forall₂
        (fun path text => ∃ mode, (runWith disk (s.withDryRun false)).disk.fileAt
          (disk.spelled path) = some (text.toUTF8, mode))
        (writtenPaths (s.batch root jobs disk ds).events) texts) ∧
    ∀ l, (∀ path ∈ writtenPaths (s.batch root jobs disk ds).events, l ≠ disk.spelled path) →
      (runWith disk (s.withDryRun false)).disk.fileAt l = disk.fileAt l := by
  have ht := CSharp.target_isRegular s.options.naming
  have hbatch : s.batch root jobs disk ds =
      convertInTurn (CSharp.target s.options.naming) root s.options.failFast disk ds := if_pos hone
  obtain ⟨hout, hdry, hsame⟩ :=
    dryRun_eq (CSharp.target s.options.naming) s.options.failFast disk ds
  have hdisk : _ = (s.batch root jobs disk ds).disk :=
    disk_convertInto (CSharp.target s.options.naming) root jobs (s.withDryRun false).options disk ds
  rw [runWith_of_not_dry hload hroot hjobs, hdisk, hbatch] at hfree
  rw [runWith_of_not_dry hload hroot hjobs, runWith_of_dry hload, hdisk, hbatch]
  rw [hbatch] at hvalue
  obtain ⟨hwrote, hfiles, hothers, hends⟩ :=
    convertInTurn_fulfills ht hvalue ⟨hapart, habsent, hfree⟩
  refine ⟨⟨_, ?_, hdry, rfl⟩, hsame, ?_, ⟨_, hout, ?_⟩, ?_⟩
  · rw [← hbatch] at hends
    exact exit_convertInto hends
  · have hsublist := (toWrite_sublist (CSharp.target s.options.naming) s.options.failFast ds).map
      (s.outputPath root)
    rw [List.map_map] at hsublist
    rw [hwrote]
    exact hsublist
  · rw [hwrote, List.forall₂_map_left_iff, List.forall₂_map_right_iff, List.forall₂_same]
    exact hfiles
  · rw [hwrote]
    intro l hl
    apply hothers
    intro x hx
    exact hl _ (List.mem_map_of_mem hx)

end Runs

/-- The declarations of an input that is loaded. -/
def loaded? : Except Crash (Except String (List Declaration)) → Option (List Declaration)
  | .ok (.ok ds) => some ds
  | _ => none

theorem eq_of_loaded? {input : Except Crash (Except String (List Declaration))}
    {ds : List Declaration} (h : loaded? input = some ds) : input = .ok (.ok ds) := by
  unfold loaded? at h
  split at h
  · rw [Option.some.inj h]
  · cases h

/-- A disk with an input file. -/
def diskWith (input : String) : Disk := { entries := [(#["types.json"], .file input.toUTF8 0o644)] }

/-- A type that is never converted, one that is converted once, one that cannot be rendered and
a plain one. -/
def variedInput : String :=
  "\x7b\"types\":[\x7b\"name\":\"A\",\"metadata\":[\"NoConversion\"]\x7d," ++
    "\x7b\"name\":\"B\",\"metadata\":[\"ConvertOnce\"]\x7d," ++
    "\x7b\"name\":\"C\",\"fields\":[" ++
    "\x7b\"name\":\"n\",\"type\":\"int\",\"initializer\":\"f()\"\x7d]\x7d," ++
    "\x7b\"name\":\"D\"\x7d]\x7d"

/-- The declarations in it. -/
def variedBatch : List Declaration :=
  [{ name := "A", tags := ["NoConversion"] }, { name := "B", tags := ["ConvertOnce"] },
    { name := "C"
      shape := .classShape
        { fields :=
            [{ name := "n", type := some (.ofPrimitive "int"), initializer := some "f()" }] } },
    { name := "D" }]

/-- Settings for an input that are those of a plain command line. -/
def plainSettings : Settings := { input := "types.json", options := {} }

/-- Here two files are written, and both runs say that the third type has failed. -/
theorem dryRun_shows_written_varied :
    loadInput (diskWith variedInput) plainSettings.input = .ok (.ok variedBatch) ∧
      (runWith (diskWith variedInput) (plainSettings.withDryRun false)).exit = .ok 1 ∧
      (runWith (diskWith variedInput) (plainSettings.withDryRun true)).exit = .ok 1 ∧
      ∃ texts, (runWith (diskWith variedInput) (plainSettings.withDryRun true)).out =
          String.join texts ∧
        List.Forall₂
          (fun path text => ∃ mode,
            (runWith (diskWith variedInput) (plainSettings.withDryRun false)).disk.fileAt
              ((diskWith variedInput).spelled path) = some (text.toUTF8, mode))
          ["out/B.cs", "out/D.cs"] texts := by
  have hload : loadInput (diskWith variedInput) plainSettings.input = .ok (.ok variedBatch) :=
    eq_of_loaded? (by decide +kernel)
  have hwrote :
      writtenPaths (plainSettings.batch "out" 1 (diskWith variedInput) variedBatch).events =
        ["out/B.cs", "out/D.cs"] := by decide +kernel
  obtain ⟨⟨code, hreal, hdry, hcode⟩, -, -, htexts, -⟩ :=
    dryRun_shows_written (s := plainSettings) hload rfl rfl (Int.le_refl 1) (by decide +kernel)
      (by decide +kernel) (by decide +kernel)
      (by rw [runWith_of_not_dry hload rfl rfl]; decide +kernel)
  have hfails : variedBatch.any (isUnrenderable (CSharp.target plainSettings.options.naming)) =
      true := by decide +kernel
  rw [hfails] at hcode
  rw [hwrote] at htexts
  subst hcode
  exact ⟨hload, hreal, hdry, htexts⟩

/-- A type in a package with the name of the file of another type, which is converted once. -/
def coveredInput : String :=
  "\x7b\"types\":[\x7b\"name\":\"A\",\"package\":[\"B.cs\"]\x7d," ++
    "\x7b\"name\":\"B\",\"metadata\":[\"ConvertOnce\"]\x7d]\x7d"

/-- The declarations in it. -/
def coveredBatch : List Declaration :=
  [{ name := "A", package := ["B.cs"] }, { name := "B", tags := ["ConvertOnce"] }]

/-- The text of the first. -/
def coveredText : String :=
  "using System;\n\n\nnamespace B.cs\n\x7b\n    public class A\n    \x7b\n    \x7d\n\x7d\n"

/-- The files have different places, nothing is there before, and the disk refuses nothing.  The
run writes the first file only, since its directory comes into the place of the second one, which
is then said to be converted already; the dry run shows more than this file. -/
theorem dryRun_shows_more :
    loadInput (diskWith coveredInput) plainSettings.input = .ok (.ok coveredBatch) ∧
      (coveredBatch.Pairwise fun d d' =>
        (diskWith coveredInput).spelled (plainSettings.outputPath "out" d) ≠
          (diskWith coveredInput).spelled (plainSettings.outputPath "out" d')) ∧
      (∀ d ∈ coveredBatch, (diskWith coveredInput).look
        ((diskWith coveredInput).spelled (plainSettings.outputPath "out" d)) = none) ∧
      Unhindered (plainSettings.batch "out" 1 (diskWith coveredInput) coveredBatch).value ∧
      (plainSettings.batch "out" 1 (diskWith coveredInput) coveredBatch).value =
        .ok ⟨[⟨"A", "out/B.cs/A.cs", none⟩, ⟨"B", "out/B.cs", some .alreadyConverted⟩], []⟩ ∧
      writtenPaths (plainSettings.batch "out" 1 (diskWith coveredInput) coveredBatch).events =
        ["out/B.cs/A.cs"] ∧
      (runWith (diskWith coveredInput) (plainSettings.withDryRun false)).disk.fileAt
        #["out", "B.cs", "A.cs"] = some (coveredText.toUTF8, 0o644) ∧
      (runWith (diskWith coveredInput) (plainSettings.withDryRun true)).out ≠ coveredText := by
  have hload : loadInput (diskWith coveredInput) plainSettings.input = .ok (.ok coveredBatch) :=
    eq_of_loaded? (by decide +kernel)
  rw [runWith_of_dry hload, runWith_of_not_dry hload rfl rfl]
  refine ⟨hload, ?_, ?_, ?_, ?_, ?_, ?_, ?_⟩ <;> decide +kernel

end CommandLine

end SharpEmit
