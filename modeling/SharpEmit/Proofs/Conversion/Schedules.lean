/-
SharpEmit/Proofs/Conversion/Schedules.lean

What a batch comes to under a schedule.  A conversion that takes its steps alone comes
to what `convert` comes to (`iterate_stepAlone`), and a schedule can be sorted so that
each conversion takes its steps alone, one after the other (`Pool.follow_inTurn`).

Main result: a batch comes to the same report and leaves the same disk, whatever the
number of workers and the order of their steps (`convertAll_eq_of_schedule`).  It is
asked that names can be looked up in new directories, and that no directory whose path
ends in a dot is too long.  Such a path is looked at only when the directory above is
there already, and `schedule_shows_in_twins` is a batch in which that shows.
-/
import SharpEmit.Proofs.Conversion.Interleaving

namespace SharpEmit.Conversion

variable {t : Target} {root : String} {d : Declaration} {disk after : Disk}

/-! ### One conversion alone -/

/-- How many steps a conversion still takes at most. -/
def Stage.left : Stage → Nat
  | .waiting => 4
  | .admitted => 3
  | .rendered _ => 2
  | .placed _ => 1
  | .finished _ => 0

theorem Stage.left_advance (t : Target) (root : String) (d : Declaration) (stage : Stage)
    (disk : Disk) :
    (stage.advance t root d disk).value.left ≤ stage.left - 1 := by
  cases stage <;> dsimp only [Stage.advance] <;> try split
  all_goals simp [Stage.left]

theorem Stage.left_le (stage : Stage) : stage.left ≤ 4 := by
  cases stage <;> simp [Stage.left]

theorem Stage.outcome?_of_left {stage : Stage} (h : stage.left = 0) :
    stage.outcome?.isSome = true := by
  cases stage <;> simp_all [Stage.left, Stage.outcome?]

theorem Stage.finished_of_outcome? {stage : Stage} (h : stage.outcome?.isSome = true) :
    ∃ outcome, stage = .finished outcome := by
  cases stage <;> simp_all [Stage.outcome?]

/-- A step of a conversion on the disk that its last step has left. -/
def stepAlone (t : Target) (root : String) (d : Declaration) (x : Stage × Disk) : Stage × Disk :=
  ((x.1.advance t root d x.2).value, (x.1.advance t root d x.2).disk)

theorem iterate_stepAlone_finished (outcome : Except Abort Result) (disk : Disk) (k : Nat) :
    (stepAlone t root d)^[k] (.finished outcome, disk) = (.finished outcome, disk) :=
  Function.iterate_fixed rfl k

/-- Four steps alone make a conversion. -/
theorem iterate_stepAlone_waiting (disk : Disk) :
    (stepAlone t root d)^[4] (.waiting, disk) =
      (.finished (convert t root disk d).value, (convert t root disk d).disk) := by
  have hends := convert_ends t root disk d
  generalize (convert t root disk d).value = value at *
  generalize (convert t root disk d).disk = after at *
  simp only [Function.iterate_succ_apply, Function.iterate_zero_apply]
  cases hends with
  | skipped hskip => simp [stepAlone, Stage.advance, hskip]
  | unrendered hskip hgen => simp [stepAlone, Stage.advance, hskip, hgen]
  | unplaced hskip hgen hplace => simp [stepAlone, Stage.advance, hskip, hgen, hplace]
  | unstored hskip hgen hplace hstore =>
    simp [stepAlone, Stage.advance, hskip, hgen, hplace, hstore]
  | written hskip hgen hplace hstore =>
    simp [stepAlone, Stage.advance, hskip, hgen, hplace, hstore]

/-- A conversion that has come to its end alone has come to what `convert` comes to. -/
theorem iterate_stepAlone {k : Nat} {outcome : Except Abort Result}
    (h : ((stepAlone t root d)^[k] (.waiting, disk)).1 = .finished outcome) :
    (stepAlone t root d)^[k] (.waiting, disk) =
      (.finished (convert t root disk d).value, (convert t root disk d).disk) := by
  have hfixed : (stepAlone t root d)^[4] ((stepAlone t root d)^[k] (.waiting, disk)) =
      (stepAlone t root d)^[k] (.waiting, disk) := by
    rw [← Prod.eta ((stepAlone t root d)^[k] (.waiting, disk)), h, iterate_stepAlone_finished]
  rw [← hfixed, ← Function.iterate_add_apply, Nat.add_comm, Function.iterate_add_apply,
    iterate_stepAlone_waiting, iterate_stepAlone_finished]

/-! ### Schedules -/

namespace Pool

variable {p : Pool} {i : Nat} {schedule : List Nat}

/-- All conversions have come to their ends. -/
def IsFinished (p : Pool) : Prop := ∀ job ∈ p.jobs, job.2.outcome?.isSome = true

theorem length_advance (t : Target) (root : String) (p : Pool) (i : Nat) :
    (p.advance t root i).jobs.length = p.jobs.length := by
  cases hi : p.jobs[i]? with
  | none => rw [advance_of_none hi]
  | some job => rw [(advance_of_some hi).1, List.length_set]

theorem length_follow (t : Target) (root : String) (p : Pool) (schedule : List Nat) :
    (p.follow t root schedule).jobs.length = p.jobs.length := by
  induction schedule generalizing p with
  | nil => rfl
  | cons i schedule ih => rw [follow_cons, ih, length_advance]

theorem follow_append (p : Pool) (first rest : List Nat) :
    p.follow t root (first ++ rest) = (p.follow t root first).follow t root rest :=
  List.foldl_append

theorem getElem?_follow_of_not_mem (t : Target) (root : String) (p : Pool) (hi : i ∉ schedule) :
    (p.follow t root schedule).jobs[i]? = p.jobs[i]? := by
  induction schedule generalizing p with
  | nil => rfl
  | cons j schedule ih =>
    rw [List.mem_cons, not_or] at hi
    rw [follow_cons, ih _ hi.2, getElem?_advance_of_ne (Ne.symm hi.1)]

/-- A conversion has fewer steps left for each time that a schedule names it. -/
theorem left_follow (t : Target) (root : String) {stage : Stage}
    (h : p.jobs[i]? = some (d, stage)) (schedule : List Nat) :
    ∃ stage', (p.follow t root schedule).jobs[i]? = some (d, stage') ∧
      stage'.left ≤ stage.left - schedule.count i := by
  induction schedule generalizing p stage with
  | nil => exact ⟨stage, h, by simp⟩
  | cons j schedule ih =>
    by_cases hij : j = i
    · subst hij
      obtain ⟨stage', hstage', hleft⟩ := ih (getElem?_advance_self h)
      have hstep := stage.left_advance t root d p.disk
      refine ⟨stage', hstage', ?_⟩
      rw [List.count_cons_self]
      omega
    · obtain ⟨stage', hstage', hleft⟩ := ih ((getElem?_advance_of_ne hij).trans h)
      refine ⟨stage', hstage', ?_⟩
      rw [List.count_cons_of_ne hij]
      exact hleft

/-- A schedule that gives each conversion four steps lets all come to their ends. -/
theorem isFinished_follow_of_count (h : ∀ i < p.jobs.length, 4 ≤ schedule.count i) :
    IsFinished (p.follow t root schedule) := by
  intro job hjob
  obtain ⟨i, hi⟩ := List.getElem?_of_mem hjob
  have hlt : i < p.jobs.length := by
    rw [← length_follow t root p schedule]
    exact (List.getElem?_eq_some_iff.mp hi).1
  obtain ⟨job', hi'⟩ : ∃ job', p.jobs[i]? = some job' := ⟨_, List.getElem?_eq_getElem hlt⟩
  obtain ⟨stage, hstage, hleft⟩ := left_follow t root hi' schedule
  rw [hi] at hstage
  cases hstage
  have hcount := h i hlt
  have hmost := job'.2.left_le
  have hzero : stage.left = 0 := by omega
  exact Stage.outcome?_of_left hzero

/-- A conversion that takes steps alone leaves the others where they are. -/
theorem follow_replicate (t : Target) (root : String) {stage : Stage}
    (h : p.jobs[i]? = some (d, stage)) (k : Nat) :
    (p.follow t root (List.replicate k i)).jobs =
        p.jobs.set i (d, ((stepAlone t root d)^[k] (stage, p.disk)).1) ∧
      (p.follow t root (List.replicate k i)).disk =
        ((stepAlone t root d)^[k] (stage, p.disk)).2 := by
  induction k generalizing p stage with
  | zero =>
    refine ⟨?_, rfl⟩
    obtain ⟨hlt, hget⟩ := List.getElem?_eq_some_iff.mp h
    rw [Function.iterate_zero_apply, ← hget, List.set_getElem_self]
    rfl
  | succ k ih =>
    obtain ⟨hjobs, hdisk⟩ := ih (getElem?_advance_self h)
    rw [List.replicate_succ, follow_cons, Function.iterate_succ_apply, hjobs, hdisk,
      (advance_of_some h).1, (advance_of_some h).2, List.set_set]
    exact ⟨rfl, rfl⟩

/-- Under a schedule that lets all come to their ends, a conversion that has not begun can
be made first. -/
theorem follow_convert_first (hp : p.IsOrderly t root) (hi : p.jobs[i]? = some (d, .waiting))
    (hends : (p.follow t root schedule).IsFinished) :
    ∃ (q : Pool) (rest : List Nat), q.IsOrderly t root ∧ (q.follow t root rest).IsFinished ∧
      q.jobs = p.jobs.set i (d, .finished (convert t root p.disk d).value) ∧
      q.disk = (convert t root p.disk d).disk ∧
      Alike (p.follow t root schedule) (q.follow t root rest) := by
  have hsorted := follow_filter hp i schedule
  obtain ⟨hjobs, hdisk⟩ := follow_replicate t root hi (schedule.count i)
  have hends' : ((p.follow t root (List.replicate (schedule.count i) i)).follow t root
      (schedule.filter (· ≠ i))).IsFinished := by
    intro job hjob
    rw [hsorted.jobs] at hjob
    exact hends job hjob
  -- none of the steps that are left is one of this conversion, so it has ended already
  have hnot : i ∉ schedule.filter (· ≠ i) := by simp
  have hstays := getElem?_follow_of_not_mem t root
    (p.follow t root (List.replicate (schedule.count i) i)) hnot
  rw [hjobs, List.getElem?_set_self (List.getElem?_eq_some_iff.mp hi).1] at hstays
  obtain ⟨outcome, houtcome⟩ := Stage.finished_of_outcome? (hends' _ (List.mem_of_getElem? hstays))
  rw [iterate_stepAlone houtcome] at hjobs hdisk
  exact ⟨_, _, hp.follow _, hends', hjobs, hdisk, hsorted⟩

/-- Where all conversions have ended, a step changes nothing. -/
theorem IsFinished.alike_advance (hp : IsFinished p) (i : Nat) : Alike p (p.advance t root i) := by
  cases hi : p.jobs[i]? with
  | none =>
    rw [advance_of_none hi]
    exact Alike.refl p
  | some job =>
    obtain ⟨d, stage⟩ := job
    obtain ⟨outcome, rfl⟩ := Stage.finished_of_outcome? (hp _ (List.mem_of_getElem? hi))
    refine ⟨?_, ?_⟩
    · obtain ⟨hlt, hget⟩ := List.getElem?_eq_some_iff.mp hi
      rw [(advance_of_some hi).1]
      dsimp only [Stage.advance]
      rw [← hget, List.set_getElem_self]
    · rw [(advance_of_some hi).2]
      exact Disk.Same.refl p.disk

theorem IsFinished.alike_follow (hp : IsFinished p) (schedule : List Nat) :
    Alike p (p.follow t root schedule) := by
  induction schedule generalizing p with
  | nil => exact Alike.refl p
  | cons i schedule ih =>
    have hstep : Alike p (p.advance t root i) := hp.alike_advance i
    have hp' : IsFinished (p.advance t root i) := by
      intro job hjob
      rw [hstep.jobs] at hjob
      exact hp job hjob
    exact hstep.trans (ih hp')

end Pool

/-! ### Conversions in turn -/

/-- The outcomes of conversions one after the other, and the disk that they leave. -/
def outcomesInTurn (t : Target) (root : String) :
    Disk → List Declaration → List (Except Abort Result) × Disk
  | disk, [] => ([], disk)
  | disk, d :: ds =>
    let first := convert t root disk d
    let others := outcomesInTurn t root first.disk ds
    (first.value :: others.1, others.2)

/-- The disk that declarations leave when they are converted one after the other. -/
def diskAfter (t : Target) (root : String) (disk : Disk) (ds : List Declaration) : Disk :=
  ds.foldl (fun disk d => (convert t root disk d).disk) disk

/-- The outcome of each declaration is that of its conversion after those before it. -/
theorem getElem?_outcomesInTurn (t : Target) (root : String) (disk : Disk)
    (ds : List Declaration) (i : Nat) :
    (outcomesInTurn t root disk ds).1[i]? =
      ds[i]?.map fun d => (convert t root (diskAfter t root disk (ds.take i)) d).value := by
  induction ds generalizing disk i with
  | nil => rfl
  | cons d ds ih =>
    cases i with
    | zero => rfl
    | succ i => exact ih (convert t root disk d).disk i

/-- Under a schedule that lets all come to their ends, the conversions that have not
begun come to what they come to in turn. -/
theorem Pool.follow_inTurn {p : Pool} {done : List (Declaration × Stage)} {ds : List Declaration}
    (hp : p.IsOrderly t root) (hjobs : p.jobs = done ++ ds.map fun d => (d, .waiting))
    (hdone : ∀ job ∈ done, job.2.outcome?.isSome = true) {schedule : List Nat}
    (hends : (p.follow t root schedule).IsFinished) :
    (p.follow t root schedule).outcomes =
        done.filterMap (·.2.outcome?) ++ (outcomesInTurn t root p.disk ds).1 ∧
      (outcomesInTurn t root p.disk ds).2.Same (p.follow t root schedule).disk := by
  induction ds generalizing p done schedule with
  | nil =>
    rw [List.map_nil, List.append_nil] at hjobs
    have halike : Alike p (p.follow t root schedule) :=
      IsFinished.alike_follow (fun job hjob => hdone job (hjobs ▸ hjob)) schedule
    rw [outcomes, halike.jobs, hjobs]
    exact ⟨(List.append_nil _).symm, halike.disk⟩
  | cons d ds ih =>
    have hi : p.jobs[done.length]? = some (d, .waiting) := by simp [hjobs]
    -- the steps of the first conversion that has not begun are taken before all the others
    obtain ⟨q, rest, hq, hends', hqjobs, hqdisk, hsorted⟩ := follow_convert_first hp hi hends
    have hqjobs' : q.jobs = (done ++ [(d, .finished (convert t root p.disk d).value)]) ++
        ds.map fun d => (d, .waiting) := by
      rw [hqjobs, hjobs]
      simp
    have hdone' : ∀ job ∈ done ++ [(d, .finished (convert t root p.disk d).value)],
        job.2.outcome?.isSome = true := by
      intro job hjob
      rcases List.mem_append.mp hjob with hjob | hjob
      · exact hdone job hjob
      · rw [List.mem_singleton.mp hjob]
        rfl
    obtain ⟨houtcomes, hsame⟩ := ih hq hqjobs' hdone' hends'
    rw [hqdisk] at houtcomes hsame
    refine ⟨?_, hsame.trans hsorted.disk.symm⟩
    rw [outcomes, hsorted.jobs] at houtcomes
    rw [outcomes, houtcomes]
    simp [outcomesInTurn, Stage.outcome?]

/-! ### Reports -/

/-- What holds of each conversion on any disk holds of all outcomes. -/
theorem outcomesInTurn_forall₂ {R : Declaration → Except Abort Result → Prop}
    {ds : List Declaration} (h : ∀ d ∈ ds, ∀ disk, R d (convert t root disk d).value)
    (disk : Disk) : List.Forall₂ R ds (outcomesInTurn t root disk ds).1 := by
  induction ds generalizing disk with
  | nil => exact .nil
  | cons d ds ih =>
    have hrest := ih (fun d' hd' => h d' (List.mem_cons_of_mem d hd')) (convert t root disk d).disk
    rw [outcomesInTurn]
    exact .cons (h d List.mem_cons_self disk) hrest

theorem outcomesInTurn_settles {ds : List Declaration}
    (h : ∀ d ∈ ds, ∀ disk, Settles t root d (convert t root disk d).value) (disk : Disk) :
    List.Forall₂ (Settles t root) ds (outcomesInTurn t root disk ds).1 :=
  outcomesInTurn_forall₂ h disk

/-- A report of declarations: each has one entry, and the entries keep the order of the
declarations. -/
structure Report.Covers (t : Target) (root : String) (ds : List Declaration) (r : Report) :
    Prop where
  results : (r.results.map fun result => (result.name, result.path)).Sublist
    (ds.map fun d => (d.name, t.outputPath root d))
  failures : (r.failures.map (·.typeName)).Sublist (ds.map (·.name))
  count : r.results.length + r.failures.length = ds.length

/-- Outcomes that settle make a report. -/
theorem gather_of_settles {ds : List Declaration} {outcomes : List (Except Abort Result)}
    (h : List.Forall₂ (Settles t root) ds outcomes) :
    ∃ report, (gather false outcomes).1 = .ok report ∧ report.Covers t root ds := by
  induction h with
  | nil => exact ⟨{}, rfl, .slnil, .slnil, rfl⟩
  | @cons d outcome ds outcomes hfirst _ ih =>
    obtain ⟨report, hreport, hresults, hfailures, hcount⟩ := ih
    cases hfirst with
    | @result reason =>
      refine ⟨report.withResult ⟨d.name, t.outputPath root d, reason⟩, ?_, hresults.cons_cons _,
        hfailures.cons _, ?_⟩
      · simp [gather, hreport]
      · simp only [Report.withResult, List.length_cons]
        omega
    | @failure cause =>
      refine ⟨report.withFailure ⟨d.name, cause⟩, ?_, hresults.cons _, hfailures.cons_cons _, ?_⟩
      · simp [gather, hreport]
      · simp only [Report.withFailure, List.length_cons]
        omega

/-- One worker gathers the outcomes of the conversions in turn. -/
theorem convertInTurn_value (t : Target) (root : String) (failFast : Bool) (disk : Disk)
    (ds : List Declaration) :
    (convertInTurn t root failFast disk ds).value =
      (gather failFast (outcomesInTurn t root disk ds).1).1 := by
  induction ds generalizing disk with
  | nil => rfl
  | cons d ds ih =>
    have hrest := ih (convert t root disk d).disk
    cases hfirst : (convert t root disk d).value with
    | ok result => simp [convertInTurn, outcomesInTurn, gather, hfirst, hrest]
    | error abort =>
      cases abort <;> cases failFast <;>
        simp [convertInTurn, outcomesInTurn, gather, hfirst, hrest]

/-- Where all conversions settle, one worker leaves the disk that they leave in turn. -/
theorem convertInTurn_eq {ds : List Declaration}
    (h : ∀ d ∈ ds, ∀ disk, Settles t root d (convert t root disk d).value) (disk : Disk) :
    (convertInTurn t root false disk ds).value = (gather false (outcomesInTurn t root disk ds).1).1 ∧
      (convertInTurn t root false disk ds).disk = (outcomesInTurn t root disk ds).2 := by
  refine ⟨convertInTurn_value t root false disk ds, ?_⟩
  induction ds generalizing disk with
  | nil => rfl
  | cons d ds ih =>
    have hrest := ih (fun d' hd' => h d' (List.mem_cons_of_mem d hd')) (convert t root disk d).disk
    have hfirst := h d List.mem_cons_self disk
    generalize hvalue : (convert t root disk d).value = first at hfirst
    cases hfirst <;> simp [convertInTurn, outcomesInTurn, hvalue, hrest]

/-! ### Batches -/

/-- Neither place is the other, or above it. -/
def Apart (l m : Location) : Prop := ¬ OnWay l m ∧ ¬ OnWay m l

instance (l m : Location) : Decidable (Apart l m) :=
  inferInstanceAs (Decidable (¬ OnWay l m ∧ ¬ OnWay m l))

theorem Pool.isOrderly_start {ds : List Declaration} (hdisk : disk.IsTree)
    (hsearch : disk.permitsNew .search = true)
    (hsteady : ∀ d ∈ ds, Steady (t.outputPath root d))
    (hapart : ds.Pairwise fun d d' =>
      Apart (disk.spelled (t.outputPath root d)) (disk.spelled (t.outputPath root d'))) :
    (Pool.start disk ds).IsOrderly t root := by
  have hjobs : ∀ (i : Nat) d stage, (Pool.start disk ds).jobs[i]? = some (d, stage) →
      ds[i]? = some d ∧ stage = .waiting := by
    intro i d stage h
    simp only [Pool.start, List.getElem?_map, Option.map_eq_some_iff] at h
    obtain ⟨d', hd', heq⟩ := h
    cases heq
    exact ⟨hd', rfl⟩
  rw [List.pairwise_iff_getElem] at hapart
  refine ⟨hdisk, hsearch, fun i d stage hi => ?_, fun i j d stage d' stage' hij hi hj => ?_,
    fun i d b hi => ?_⟩
  · exact hsteady d (List.mem_of_getElem? (hjobs i d stage hi).1)
  · obtain ⟨hilt, rfl⟩ := List.getElem?_eq_some_iff.mp (hjobs i d stage hi).1
    obtain ⟨hjlt, rfl⟩ := List.getElem?_eq_some_iff.mp (hjobs j d' stage' hj).1
    rcases Nat.lt_or_gt_of_ne hij with hlt | hgt
    · exact (hapart i j hilt hjlt hlt).1
    · exact (hapart j i hjlt hilt hgt).2
  · cases (hjobs i d _ hi).2

theorem inTurn_succ (count : Nat) : inTurn (count + 1) = inTurn count ++ List.replicate 4 count := by
  simp [inTurn, List.range_succ]

theorem count_inTurn {i count : Nat} (h : i < count) : 4 ≤ (inTurn count).count i := by
  induction count with
  | zero => cases h
  | succ count ih =>
    rw [inTurn_succ, List.count_append]
    by_cases heq : i = count
    · subst heq
      rw [List.count_replicate_self]
      omega
    · have := ih (by omega)
      omega

section Batch

variable {ds : List Declaration} (ht : t.IsRegular) (hdisk : disk.IsTree)
  (hsearch : disk.permitsNew .search = true)
  (hsteady : ∀ d ∈ ds, Steady (t.outputPath root d))
  (hapart : ds.Pairwise fun d d' =>
    Apart (disk.spelled (t.outputPath root d)) (disk.spelled (t.outputPath root d')))
include ht hdisk hsearch hsteady hapart

/-- A schedule comes to what one worker comes to. -/
theorem convertBySchedule_eq {schedule : List Nat}
    (hends : ((Pool.start disk ds).follow t root schedule).IsFinished) :
    (convertBySchedule t root false disk ds schedule).value =
        (convertInTurn t root false disk ds).value ∧
      (convertInTurn t root false disk ds).disk.Same
        (convertBySchedule t root false disk ds schedule).disk := by
  have hsettles : ∀ d ∈ ds, ∀ disk, Settles t root d (convert t root disk d).value :=
    fun d hd => convert_settles ht (hsteady d hd).toLeads (hsteady d hd).null
  obtain ⟨hvalue, hafter⟩ := convertInTurn_eq hsettles disk
  have hjobs : (Pool.start disk ds).jobs = [] ++ ds.map fun d => (d, .waiting) := rfl
  obtain ⟨houtcomes, hsame⟩ := Pool.follow_inTurn
    (Pool.isOrderly_start hdisk hsearch hsteady hapart) hjobs (by simp) hends
  rw [List.filterMap_nil, List.nil_append] at houtcomes
  rw [hvalue, hafter]
  simp only [convertBySchedule, houtcomes]
  exact ⟨rfl, hsame⟩

/-- Any number of workers comes to what one worker comes to. -/
theorem convertAll_eq_convertInTurn (jobs : Int) :
    (convertAll t root false jobs disk ds).value = (convertInTurn t root false disk ds).value ∧
      (convertInTurn t root false disk ds).disk.Same (convertAll t root false jobs disk ds).disk := by
  unfold convertAll
  split
  · exact ⟨rfl, Disk.Same.refl _⟩
  · refine convertBySchedule_eq ht hdisk hsearch hsteady hapart
      (Pool.isFinished_follow_of_count fun i hi => count_inTurn ?_)
    simpa [Pool.start] using hi

end Batch

/-- A batch comes to the same report and the same disk for any number of workers and any
order of their steps, when the paths have no null characters, do not go back up, and
lead to places apart from each other; only names can be looked up in new directories, and
no directory whose path ends in a dot is too long. -/
theorem convertAll_eq_of_schedule (n : CSharp.Naming) (root : String) (disk : Disk)
    (ds : List Declaration) (hdisk : disk.IsTree) (hsearch : disk.permitsNew .search = true)
    (hplain : ∀ d ∈ ds, Path.IsPlain ((CSharp.target n).outputPath root d))
    (hnull : ∀ d ∈ ds, '\x00' ∉ ((CSharp.target n).outputPath root d).toList)
    (hapart : ds.Pairwise fun d d' =>
      Apart (disk.spelled ((CSharp.target n).outputPath root d))
        (disk.spelled ((CSharp.target n).outputPath root d')))
    (hshort : ∀ d ∈ ds, Path.endsInDot (Path.parent ((CSharp.target n).outputPath root d)) = true →
      (Path.parent ((CSharp.target n).outputPath root d)).utf8ByteSize < Disk.pathBytesLimit) :
    ∃ report, Report.Covers (CSharp.target n) root ds report ∧
      (convertAll (CSharp.target n) root false 1 disk ds).value = .ok report ∧
      (∀ jobs, (convertAll (CSharp.target n) root false jobs disk ds).value = .ok report ∧
        (convertAll (CSharp.target n) root false 1 disk ds).disk.Same
          (convertAll (CSharp.target n) root false jobs disk ds).disk) ∧
      ∀ schedule, ((Pool.start disk ds).follow (CSharp.target n) root schedule).IsFinished →
        (convertBySchedule (CSharp.target n) root false disk ds schedule).value = .ok report ∧
        (convertAll (CSharp.target n) root false 1 disk ds).disk.Same
          (convertBySchedule (CSharp.target n) root false disk ds schedule).disk := by
  have ht := CSharp.target_isRegular n
  generalize CSharp.target n = t at *
  have hsteady : ∀ d ∈ ds, Steady (t.outputPath root d) := fun d hd =>
    { plain := hplain d hd
      named := ht.named root d
      null := hnull d hd
      short := hshort d hd }
  have hsettles : ∀ d ∈ ds, ∀ disk, Settles t root d (convert t root disk d).value :=
    fun d hd => convert_settles ht (hsteady d hd).toLeads (hsteady d hd).null
  obtain ⟨report, hreport, hcovers⟩ := gather_of_settles (outcomesInTurn_settles hsettles disk)
  rw [← (convertInTurn_eq hsettles disk).1] at hreport
  rw [convertAll_one]
  refine ⟨report, hcovers, hreport, fun jobs => ?_, fun schedule hends => ?_⟩
  · rw [← hreport]
    exact convertAll_eq_convertInTurn ht hdisk hsearch hsteady hapart jobs
  · rw [← hreport]
    exact convertBySchedule_eq ht hdisk hsearch hsteady hapart hends

/-- Two classes in a directory that neither finds, and one that is there already. -/
def sharingBatch : List Declaration :=
  [{ name := "A", package := ["p"] }, { name := "Keep", tags := [Declaration.onceTag] },
    { name := "B", package := ["p"] }]

/-- A disk with the file of the second. -/
def keepingDisk : Disk :=
  { entries := [(#["o"], .directory 0o755), (#["o", "Keep.cs"], .file ⟨#[65]⟩ 0o600)] }

theorem sharingBatch_eq_of_schedule :
    ∃ report,
      (convertAll (CSharp.target {}) "o" false 1 keepingDisk sharingBatch).value = .ok report ∧
      (convertBySchedule (CSharp.target {}) "o" false keepingDisk sharingBatch
        [2, 0, 0, 2, 2, 1, 0, 0, 2, 1, 1, 1]).value = .ok report ∧
      (convertAll (CSharp.target {}) "o" false 1 keepingDisk sharingBatch).disk.Same
        (convertBySchedule (CSharp.target {}) "o" false keepingDisk sharingBatch
          [2, 0, 0, 2, 2, 1, 0, 0, 2, 1, 1, 1]).disk := by
  obtain ⟨report, -, hone, -, hschedule⟩ := convertAll_eq_of_schedule {} "o" keepingDisk
    sharingBatch (by decide +kernel) (by decide +kernel) (by decide +kernel) (by decide +kernel)
    (by decide +kernel) (by decide +kernel)
  exact ⟨report, hone, hschedule _ (Pool.isFinished_follow_of_count (by decide))⟩

/-! ### A root that is too long -/

/-- A root that ends in a dot and is too long. -/
def farRoot : String := "o/" ++ Path.farDot Disk.pathBytesLimit

/-- Two classes side by side. -/
def twins : List Declaration := [{ name := "A" }, { name := "B" }]

theorem toList_farRoot : ∃ cs, farRoot.toList = cs ++ ['.'] :=
  ⟨_, (Path.toList_append_farDot "o/" _).trans (List.append_cons _ _ _)⟩

theorem path_of_mem_twins (hd : d ∈ twins) :
    ('/' ∉ (d.name ++ ".cs").toList ∧ '\x00' ∉ (d.name ++ ".cs").toList ∧
        Disk.isDots (d.name ++ ".cs") = false) ∧
      ∀ root, (CSharp.target {}).outputPath root d = Path.join root (d.name ++ ".cs") := by
  simp only [twins, List.mem_cons, List.not_mem_nil, or_false] at hd
  rcases hd with rfl | rfl
  · exact ⟨by decide, fun root => congrArg (Path.join root) (by decide)⟩
  · exact ⟨by decide, fun root => congrArg (Path.join root) (by decide)⟩

section Twins

variable (hd : d ∈ twins)
include hd

theorem split_of_mem_twins :
    ((CSharp.target {}).outputPath farRoot d).toList =
        farRoot.toList ++ '/' :: (d.name ++ ".cs").toList ∧
      Path.parent ((CSharp.target {}).outputPath farRoot d) = farRoot ∧
      Path.lastName ((CSharp.target {}).outputPath farRoot d) = d.name ++ ".cs" := by
  obtain ⟨⟨hslash, -⟩, hpath⟩ := path_of_mem_twins hd
  obtain ⟨cs, hcs⟩ := toList_farRoot
  rw [hpath]
  exact Path.join_split hcs (by decide) hslash

theorem isPlain_of_mem_twins : Path.IsPlain ((CSharp.target {}).outputPath farRoot d) := by
  obtain ⟨⟨-, -, hname⟩, -⟩ := path_of_mem_twins hd
  obtain ⟨-, hparent, hlast⟩ := split_of_mem_twins hd
  have habove : ".." ∉ Path.steps "o/." := by decide +kernel
  have hne : ".." ≠ d.name ++ ".cs" := by
    intro heq
    rw [← heq] at hname
    cases hname
  rw [Path.IsPlain, Path.steps_eq, hparent, hlast, Path.steps_eq, farRoot,
    Path.parent_append_farDot, Path.lastName_append_farDot]
  simp [habove, hne]

theorem null_not_mem_of_mem_twins : '\x00' ∉ ((CSharp.target {}).outputPath farRoot d).toList := by
  obtain ⟨⟨-, hnull, -⟩, -⟩ := path_of_mem_twins hd
  rw [(split_of_mem_twins hd).1, farRoot, Path.toList_append_farDot]
  simpa using hnull

theorem spelled_of_mem_twins :
    Disk.spelled {} ((CSharp.target {}).outputPath farRoot d) = #["o", d.name ++ ".cs"] := by
  obtain ⟨⟨-, -, hname⟩, -⟩ := path_of_mem_twins hd
  obtain ⟨-, hparent, hlast⟩ := split_of_mem_twins hd
  have habove : Disk.spelled {} ("o/" ++ ".") = #["o"] := by decide +kernel
  rw [Disk.spelled_eq, hparent, hlast, Disk.spelled_eq, farRoot, Path.parent_append_farDot,
    Path.lastName_append_farDot, habove, Disk.descend_of_not_isDots hname]
  rfl

theorem starts_of_mem_twins (disk : Disk) :
    skipReason disk d ((CSharp.target {}).outputPath farRoot d) = none ∧
      ∃ b, generate (CSharp.target {}) d = .ok b := by
  have hstarts : ∀ d ∈ twins, Declaration.neverTag ∉ d.tags ∧ Declaration.onceTag ∉ d.tags ∧
      (generate (CSharp.target {}) d).isOk = true := by
    decide +kernel
  obtain ⟨hnever, honce, hok⟩ := hstarts d hd
  refine ⟨by simp [skipReason, hnever, honce], ?_⟩
  cases hgen : generate (CSharp.target {}) d with
  | ok b => exact ⟨b, rfl⟩
  | error failure =>
    rw [hgen] at hok
    cases hok

/-- The first of the two makes the directory above and cannot write its file. -/
theorem convert_twin_first :
    (∃ r, (convert (CSharp.target {}) farRoot {} d).value =
      .error (.failed ⟨d.name, .unwritten ((CSharp.target {}).outputPath farRoot d) r⟩)) ∧
      (convert (CSharp.target {}) farRoot {} d).disk = Disk.withO := by
  obtain ⟨hskip, b, hgen⟩ := starts_of_mem_twins hd {}
  have ht := CSharp.target_isRegular {}
  have hplain := isPlain_of_mem_twins hd
  have hnull := null_not_mem_of_mem_twins hd
  have hparent := (split_of_mem_twins hd).2.1
  generalize CSharp.target {} = t at *
  have hplace : place {} d (t.outputPath farRoot d) = (.ok (), Disk.withO) := by
    rw [place_eq, hparent, farRoot, Disk.makeDirs_farDot_fresh (Nat.le_refl _)]
    rfl
  have hstore : ∃ r, store Disk.withO d (t.outputPath farRoot d) b =
      (.error (.failed ⟨d.name, .unwritten (t.outputPath farRoot d) r⟩), Disk.withO) := by
    obtain ⟨text, htext⟩ := ht.complete d b (render_of_generate hgen)
    have hlong : Disk.pathBytesLimit ≤ (t.outputPath farRoot d).utf8ByteSize := by
      refine Nat.le_trans ?_ (Path.utf8ByteSize_parent_le _)
      rw [hparent]
      exact Disk.farDot_too_long (Nat.le_refl _)
    obtain ⟨fault, hfault⟩ := Disk.replaceFault?_of_too_long (d := Disk.withO) hlong
    rw [store_eq htext, Disk.replace_eq hplain (ht.named farRoot d), hfault]
    cases fault with
    | nullCharacter => exact absurd (Disk.null_of_replaceFault? hfault) hnull
    | refused r => exact ⟨r, rfl⟩
  obtain ⟨r, hstore⟩ := hstore
  simp only [convert, hskip, hgen, hplace, hstore]
  exact ⟨⟨r, rfl⟩, trivial⟩

/-- The second of the two cannot make its directory. -/
theorem convert_twin_second :
    (convert (CSharp.target {}) farRoot Disk.withO d).value =
        .error (.failed ⟨d.name, .uncreated farRoot .nameTooLong⟩) ∧
      (convert (CSharp.target {}) farRoot Disk.withO d).disk = Disk.withO := by
  obtain ⟨hskip, b, hgen⟩ := starts_of_mem_twins hd Disk.withO
  have hparent := (split_of_mem_twins hd).2.1
  generalize CSharp.target {} = t at *
  have hplace : place Disk.withO d (t.outputPath farRoot d) =
      (.error (.failed ⟨d.name, .uncreated farRoot .nameTooLong⟩), Disk.withO) := by
    rw [place_eq, hparent, farRoot, Disk.makeDirs_farDot_again (Nat.le_refl _)]
    rfl
  simp only [convert, hskip, hgen, hplace]
  exact ⟨trivial, trivial⟩

end Twins

section Pair

variable {a b : Declaration} {fa fb : Failure}

theorem convertInTurn_pair (ha : (convert t root disk a).value = .error (.failed fa))
    (hb : (convert t root (convert t root disk a).disk b).value = .error (.failed fb)) :
    (convertInTurn t root false disk [a, b]).value = .ok ⟨[], [fa, fb]⟩ := by
  simp only [convertInTurn, ha, hb]
  rfl

/-- Here the second declaration is converted before the first. -/
theorem convertBySchedule_pair (hb : (convert t root disk b).value = .error (.failed fb))
    (ha : (convert t root (convert t root disk b).disk a).value = .error (.failed fa)) :
    (convertBySchedule t root false disk [a, b] [1, 1, 1, 1, 0, 0, 0, 0]).value =
      .ok ⟨[], [fa, fb]⟩ := by
  have hstart : (Pool.start disk [a, b]).jobs[1]? = some (b, .waiting) := rfl
  obtain ⟨hjobs, hdisk⟩ := Pool.follow_replicate t root hstart 4
  have hfirst : (Pool.start disk [a, b]).disk = disk := rfl
  rw [hfirst, iterate_stepAlone_waiting, hb] at hjobs hdisk
  have hnext : ((Pool.start disk [a, b]).follow t root (List.replicate 4 1)).jobs[0]? =
      some (a, .waiting) := by
    rw [hjobs]
    rfl
  have hjobs' := (Pool.follow_replicate t root hnext 4).1
  rw [hdisk, iterate_stepAlone_waiting, ha, hjobs] at hjobs'
  have houtcomes : ((Pool.start disk [a, b]).follow t root [1, 1, 1, 1, 0, 0, 0, 0]).outcomes =
      [.error (.failed fa), .error (.failed fb)] := by
    rw [show [1, 1, 1, 1, 0, 0, 0, 0] = List.replicate 4 1 ++ List.replicate 4 0 from rfl,
      Pool.follow_append, Pool.outcomes, hjobs']
    rfl
  simp only [convertBySchedule, houtcomes]
  rfl

end Pair

/-- What becomes of the twins shows which of them went first. -/
theorem schedule_shows_in_twins :
    Disk.IsTree {} ∧
      (∀ d ∈ twins, Path.IsPlain ((CSharp.target {}).outputPath farRoot d) ∧
        '\x00' ∉ ((CSharp.target {}).outputPath farRoot d).toList) ∧
      (twins.Pairwise fun d d' =>
        Apart (Disk.spelled {} ((CSharp.target {}).outputPath farRoot d))
          (Disk.spelled {} ((CSharp.target {}).outputPath farRoot d'))) ∧
      ((Pool.start {} twins).follow (CSharp.target {}) farRoot
        [1, 1, 1, 1, 0, 0, 0, 0]).IsFinished ∧
      (convertBySchedule (CSharp.target {}) farRoot false {} twins
        [1, 1, 1, 1, 0, 0, 0, 0]).value ≠
          (convertAll (CSharp.target {}) farRoot false 1 {} twins).value := by
  have hA : ({ name := "A" } : Declaration) ∈ twins := List.mem_cons_self
  have hB : ({ name := "B" } : Declaration) ∈ twins := List.mem_cons_of_mem _ List.mem_cons_self
  refine ⟨by decide, fun d hd => ⟨isPlain_of_mem_twins hd, null_not_mem_of_mem_twins hd⟩, ?_,
    Pool.isFinished_follow_of_count (by decide), ?_⟩
  · refine .cons (fun d hd => ?_) (List.pairwise_singleton _ _)
    rw [List.mem_singleton.mp hd, spelled_of_mem_twins hA, spelled_of_mem_twins hB]
    decide
  · obtain ⟨⟨r, hAfirst⟩, hAdisk⟩ := convert_twin_first hA
    obtain ⟨⟨r', hBfirst⟩, hBdisk⟩ := convert_twin_first hB
    have hAsecond := (convert_twin_second hA).1
    have hBsecond := (convert_twin_second hB).1
    rw [← hBdisk] at hAsecond
    rw [← hAdisk] at hBsecond
    rw [convertAll_one, twins, convertInTurn_pair hAfirst hBsecond,
      convertBySchedule_pair hBfirst hAsecond]
    simp

end SharpEmit.Conversion
