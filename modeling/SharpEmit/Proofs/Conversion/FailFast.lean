/-
SharpEmit/Proofs/Conversion/FailFast.lean

Workers on a batch that the first failure ends.  The declarations are in a queue, from which
workers take them in order; conversions take their steps in any order.  Meanwhile the outcomes
are gathered in the order of the declarations, and once one of them is a failure the
declarations are told off one by one, which cancels those that are still in the queue.  The
batch is over when the queue is empty and no worker is busy (`Crew`, `Move`, `Crew.IsOver`).

Each move leaves less to do (`Move.left_lt`), and as long as the batch is not over there is a
move (`exists_move`), so every run comes to an end.  Along a run the pool stays as independent
conversions make it, and what has been gathered are its outcomes (`Crew.Gathered`).

Main result: whatever the number of workers and the order of their moves, a batch raises the
failure of the first declaration that fails, after all those before it have been converted
(`failFast_stops_at_first`).
-/
import Mathlib.Logic.Relation
import SharpEmit.Proofs.Conversion.FirstFailure

namespace SharpEmit.Conversion

variable {t : Target} {root : String} {disk : Disk} {ds : List Declaration}

/-! ### Workers -/

/-- A batch under way: the conversions, how many declarations have been taken from the queue,
those that were cancelled in it, how many have been told off, the results gathered so far and
what was raised. -/
structure Crew where
  pool : Pool
  taken : Nat := 0
  cancelled : List Nat := []
  toldOff : Nat := 0
  results : List Result := []
  raised : Option Abort := none

namespace Crew

/-- A batch of which nothing has been done. -/
def start (disk : Disk) (ds : List Declaration) : Crew := { pool := Pool.start disk ds }

/-- How many declarations there are. -/
def count (c : Crew) : Nat := c.pool.jobs.length

/-- A declaration that has been taken keeps a worker busy if it was not cancelled before and
has not come to its end. -/
def isBusy (c : Crew) (i : Nat) : Bool :=
  !c.cancelled.contains i && c.pool.jobs[i]?.any (·.2.outcome?.isNone)

/-- How many workers are busy. -/
def busy (c : Crew) : Nat := (List.range c.taken).countP c.isBusy

/-- What the batch comes to. -/
def value (c : Crew) : Except Abort Report :=
  match c.raised with
  | some abort => .error abort
  | none => .ok { results := c.results }

/-- The batch is over: all outcomes have been gathered or one was raised, all declarations
have been told off if that was a failure, and neither the queue nor the workers hold any. -/
structure IsOver (c : Crew) : Prop where
  gathered : c.raised = none → c.count ≤ c.results.length
  toldOff : ∀ failure, c.raised = some (.failed failure) → c.count ≤ c.toldOff
  taken : c.count ≤ c.taken
  idle : ∀ i < c.taken, c.isBusy i = false

theorem isBusy_iff {c : Crew} {i : Nat} :
    c.isBusy i = true ↔ i ∉ c.cancelled ∧ i < c.count ∧ c.pool.outcomeAt i = none := by
  unfold isBusy count Pool.outcomeAt
  by_cases hi : i < c.pool.jobs.length
  · simp [hi]
  · simp [hi]

theorem busy_eq_zero {c : Crew} (h : ∀ i < c.taken, c.isBusy i = false) : c.busy = 0 := by
  rw [busy, List.countP_eq_zero]
  intro i hi
  rw [h i (List.mem_range.mp hi)]
  exact Bool.false_ne_true

end Crew

/-- What can happen next, with the given number of workers: one of them takes a declaration,
or does a step of a conversion; an outcome is gathered, as a result or to be raised; or, after
a failure, the next declaration is told off. -/
inductive Move (t : Target) (root : String) (workers : Nat) (c : Crew) : Crew → Prop
  | take : c.taken < c.count → c.busy < workers →
      Move t root workers c { c with taken := c.taken + 1 }
  | work {i} : i < c.taken → c.isBusy i = true →
      Move t root workers c { c with pool := c.pool.advance t root i }
  | gather {result} : c.raised = none → c.pool.outcomeAt c.results.length = some (.ok result) →
      Move t root workers c { c with results := c.results ++ [result] }
  | raise {abort} : c.raised = none → c.pool.outcomeAt c.results.length = some (.error abort) →
      Move t root workers c { c with raised := some abort }
  | tellOff {failure} : c.raised = some (.failed failure) → c.toldOff < c.count →
      Move t root workers c
        { c with
          toldOff := c.toldOff + 1
          cancelled := if c.taken ≤ c.toldOff then c.toldOff :: c.cancelled else c.cancelled }

/-- What can have happened after any number of moves. -/
abbrev Runs (t : Target) (root : String) (workers : Nat) : Crew → Crew → Prop :=
  Relation.ReflTransGen (Move t root workers)

/-! ### Runs come to an end -/

/-- How many steps conversions still take at most. -/
def stepsLeft : List (Declaration × Stage) → Nat
  | [] => 0
  | (_, stage) :: jobs => stage.left + stepsLeft jobs

theorem stepsLeft_set_lt {jobs : List (Declaration × Stage)} {i : Nat} {d d' : Declaration}
    {stage stage' : Stage} (hi : jobs[i]? = some (d, stage)) (hlt : stage'.left < stage.left) :
    stepsLeft (jobs.set i (d', stage')) < stepsLeft jobs := by
  induction jobs generalizing i with
  | nil => cases hi
  | cons job jobs ih =>
    cases i with
    | zero =>
      cases hi
      exact Nat.add_lt_add_right hlt _
    | succ i => exact Nat.add_lt_add_left (ih hi) _

theorem Pool.stepsLeft_advance_lt {p : Pool} {i : Nat} (hi : i < p.jobs.length)
    (hnone : p.outcomeAt i = none) : stepsLeft (p.advance t root i).jobs < stepsLeft p.jobs := by
  obtain ⟨⟨d, stage⟩, hjob⟩ : ∃ job, p.jobs[i]? = some job := ⟨_, List.getElem?_eq_getElem hi⟩
  rw [outcomeAt, hjob, Option.bind_some] at hnone
  have hleft : 0 < stage.left := by
    cases stage with
    | finished outcome => cases hnone
    | _ => simp [Stage.left]
  rw [(advance_of_some hjob).1]
  apply stepsLeft_set_lt hjob
  have hstep := stage.left_advance t root d p.disk
  omega

/-- How many moves there are still at most. -/
def Crew.left (c : Crew) : Nat :=
  stepsLeft c.pool.jobs + (c.count - c.taken) + (c.count - c.toldOff) + (c.count - c.results.length) +
    (if c.raised.isNone then 1 else 0)

/-- Each move leaves less to do. -/
theorem Move.left_lt {workers : Nat} {c c' : Crew} (h : Move t root workers c c') :
    c'.left < c.left := by
  cases h with
  | take hqueue _ =>
    simp only [Crew.left, Crew.count] at hqueue ⊢
    omega
  | work _ hbusy =>
    obtain ⟨-, hlt, hnone⟩ := Crew.isBusy_iff.mp hbusy
    have hpool := @Pool.stepsLeft_advance_lt t root c.pool _ hlt hnone
    simp only [Crew.left, Crew.count, Pool.length_advance]
    omega
  | gather hnone houtcome =>
    have hlt := Pool.lt_of_outcomeAt houtcome
    simp only [Crew.left, Crew.count, List.length_append, List.length_singleton]
    omega
  | raise hnone _ =>
    simp only [Crew.left, Crew.count, hnone]
    simp
  | tellOff _ hleft =>
    simp only [Crew.left, Crew.count] at hleft ⊢
    omega

/-! ### What has been gathered -/

/-- What is known along a run: the conversions have come as far as they come alone, the results
are the first outcomes, what was raised is the one after them, and before that nothing has
been cancelled. -/
structure Crew.Gathered (t : Target) (root : String) (disk : Disk) (ds : List Declaration)
    (c : Crew) : Prop where
  alone : c.pool.AsAlone t root disk ds
  results : ∀ (i : Nat) r, c.results[i]? = some r → c.pool.outcomeAt i = some (.ok r)
  raised : ∀ abort, c.raised = some abort →
    c.pool.outcomeAt c.results.length = some (.error abort)
  cancelled : c.raised = none → c.cancelled = []

namespace Crew.Gathered

variable {workers : Nat} {c c' : Crew}

theorem start (hdisk : disk.IsTree) (ds : List Declaration) :
    Gathered t root disk ds (Crew.start disk ds) where
  alone := Pool.AsAlone.start hdisk ds
  results i r hr := by cases hr
  raised abort habort := by cases habort
  cancelled _ := rfl

theorem count_eq (h : Gathered t root disk ds c) : c.count = ds.length := h.alone.length

/-- A move keeps what is known. -/
theorem move (ht : t.IsRegular) (hds : IsApart t root disk ds) (h : Gathered t root disk ds c)
    (hmove : Move t root workers c c') : Gathered t root disk ds c' := by
  cases hmove with
  | take _ _ => exact { h with }
  | @work i _ _ =>
    -- what has come to its end stays there, whoever does a step
    exact
      { alone := h.alone.advance ht hds i
        results := fun j r hr => Pool.outcomeAt_advance (h.results j r hr) i
        raised := fun abort habort => Pool.outcomeAt_advance (h.raised abort habort) i
        cancelled := h.cancelled }
  | @gather result hnone houtcome =>
    refine { h with results := fun i r hr => ?_, raised := fun abort habort => ?_ }
    · -- one of the results so far, the new one, or none
      rcases Nat.lt_trichotomy i c.results.length with hlt | rfl | hgt
      · rw [List.getElem?_append_left hlt] at hr
        exact h.results i r hr
      · rw [List.getElem?_concat_length] at hr
        cases hr
        exact houtcome
      · rw [List.getElem?_eq_none (by simp; omega)] at hr
        cases hr
    · rw [hnone] at habort
      cases habort
  | @raise abort hnone houtcome =>
    refine { h with raised := fun abort' habort => ?_, cancelled := fun hraised => ?_ }
    · cases habort
      exact houtcome
    · cases hraised
  | tellOff hraised _ =>
    refine { h with cancelled := fun hnone => ?_ }
    rw [hraised] at hnone
    cases hnone

theorem runs (ht : t.IsRegular) (hds : IsApart t root disk ds) (h : Gathered t root disk ds c)
    (hruns : Runs t root workers c c') : Gathered t root disk ds c' := by
  induction hruns with
  | refl => exact h
  | tail _ hmove ih => exact ih.move ht hds hmove

/-- When the batch is over, its value is what is gathered of the outcomes. -/
theorem gathers (h : Gathered t root disk ds c) (hover : c.IsOver) :
    Gathers c.pool.outcomeAt ds.length c.value := by
  unfold Crew.value
  cases hraised : c.raised with
  | none =>
    refine .all (Nat.le_antisymm ?_ ?_) h.results
    · -- no result is gathered where there is no declaration
      by_contra hlong
      have hr := h.results ds.length _ (List.getElem?_eq_getElem (Nat.lt_of_not_le hlong))
      have hlt := Pool.lt_of_outcomeAt hr
      rw [h.alone.length] at hlt
      exact absurd hlt (Nat.lt_irrefl _)
    · rw [← h.count_eq]
      exact hover.gathered hraised
  | some abort =>
    have houtcome := h.raised abort hraised
    have hlt := Pool.lt_of_outcomeAt houtcome
    rw [h.alone.length] at hlt
    refine .stop hlt houtcome fun j hj => ?_
    exact ⟨_, h.results j _ (List.getElem?_eq_getElem hj)⟩

/-- When the workers have done all there is to do, gathering goes on. -/
theorem exists_move_of_idle (h : Gathered t root disk ds c) (htaken : c.count ≤ c.taken)
    (hidle : ∀ i < c.taken, c.isBusy i = false) (hnot : ¬ c.IsOver) :
    ∃ c', Move t root workers c c' := by
  cases hraised : c.raised with
  | none =>
    by_cases hlt : c.results.length < c.count
    · cases houtcome : c.pool.outcomeAt c.results.length with
      | none =>
        -- the declaration has been taken, so a worker would be at it
        have hbusy : c.isBusy c.results.length = true :=
          Crew.isBusy_iff.mpr ⟨by simp [h.cancelled hraised], hlt, houtcome⟩
        rw [hidle _ (Nat.lt_of_lt_of_le hlt htaken)] at hbusy
        cases hbusy
      | some outcome =>
        cases outcome with
        | ok result => exact ⟨_, .gather hraised houtcome⟩
        | error abort => exact ⟨_, .raise hraised houtcome⟩
    · refine absurd ⟨fun _ => Nat.le_of_not_lt hlt, fun failure hfailure => ?_, htaken, hidle⟩ hnot
      rw [hraised] at hfailure
      cases hfailure
  | some abort =>
    by_cases htell : c.toldOff < c.count ∧ ∃ failure, abort = .failed failure
    · obtain ⟨hlt, failure, rfl⟩ := htell
      exact ⟨_, .tellOff hraised hlt⟩
    · refine absurd ⟨fun hnone => ?_, fun failure hfailure => ?_, htaken, hidle⟩ hnot
      · rw [hraised] at hnone
        cases hnone
      · rw [hraised] at hfailure
        cases hfailure
        exact Nat.le_of_not_lt fun hlt => htell ⟨hlt, failure, rfl⟩

/-- As long as the batch is not over, something can happen. -/
theorem exists_move (h : Gathered t root disk ds c) (hworkers : 0 < workers) (hnot : ¬ c.IsOver) :
    ∃ c', Move t root workers c c' := by
  by_cases hwork : ∃ i < c.taken, c.isBusy i = true
  · obtain ⟨i, hi, hbusy⟩ := hwork
    exact ⟨_, .work hi hbusy⟩
  · have hidle : ∀ i < c.taken, c.isBusy i = false := by
      intro i hi
      rw [← Bool.not_eq_true]
      exact fun hbusy => hwork ⟨i, hi, hbusy⟩
    by_cases hqueue : c.taken < c.count
    · -- all workers are free, and there is one
      exact ⟨_, .take hqueue (Crew.busy_eq_zero hidle ▸ hworkers)⟩
    · exact h.exists_move_of_idle (Nat.le_of_not_lt hqueue) hidle hnot

/-- Every batch can be brought to its end. -/
theorem exists_over (ht : t.IsRegular) (hds : IsApart t root disk ds)
    (h : Gathered t root disk ds c) (hworkers : 0 < workers) :
    ∃ c', Runs t root workers c c' ∧ c'.IsOver := by
  -- by induction on what is left to do
  induction hn : c.left using Nat.strong_induction_on generalizing c with
  | _ n ih =>
    by_cases hover : c.IsOver
    · exact ⟨c, .refl, hover⟩
    · obtain ⟨c', hmove⟩ := h.exists_move hworkers hover
      obtain ⟨c'', hruns, hover'⟩ := ih c'.left (hn ▸ hmove.left_lt) (h.move ht hds hmove) rfl
      exact ⟨c'', .head hmove hruns, hover'⟩

end Crew.Gathered

/-! ### The run in turn -/

section InTurn

variable {workers : Nat} {c c' : Crew} {i : Nat}

theorem Pool.length_start (disk : Disk) (ds : List Declaration) :
    (Pool.start disk ds).jobs.length = ds.length := List.length_map _

/-- A worker can do any number of steps at a declaration that it has taken. -/
theorem Crew.runs_replicate (t : Target) (root : String) (workers : Nat) (hi : i < c.taken)
    (hnot : i ∉ c.cancelled) (k : Nat) :
    Runs t root workers c { c with pool := c.pool.follow t root (List.replicate k i) } := by
  induction k generalizing c with
  | zero => exact .refl
  | succ k ih =>
    rw [List.replicate_succ, Pool.follow_cons]
    have hrest := @ih { c with pool := c.pool.advance t root i } hi hnot
    by_cases hbusy : c.isBusy i = true
    · exact .head (.work hi hbusy) hrest
    · -- the conversion has come to its end, and the step is none
      have hstill : c.pool.advance t root i = c.pool := by
        apply Pool.advance_of_outcomeAt
        by_contra hneither
        obtain ⟨hnone, hjob⟩ := not_or.mp hneither
        refine hbusy (Crew.isBusy_iff.mpr ⟨hnot, ?_, not_not.mp hnone⟩)
        exact Nat.lt_of_not_le fun hle => hjob (List.getElem?_eq_none hle)
      rw [hstill] at hrest ⊢
      exact hrest

/-- A worker can take one declaration after the other and convert it. -/
theorem Crew.runs_inTurn (t : Target) (root : String) (disk : Disk) (hworkers : 0 < workers)
    {k : Nat} (hk : k ≤ ds.length) :
    Runs t root workers (Crew.start disk ds)
      { pool := (Pool.start disk ds).follow t root (inTurn k), taken := k } := by
  induction k with
  | zero => exact .refl
  | succ k ih =>
    have hbusy : Crew.busy
        { pool := (Pool.start disk ds).follow t root (inTurn k), taken := k } = 0 := by
      apply Crew.busy_eq_zero
      intro i hi
      have hik : i < k := hi
      have hjob := (Pool.follow_inTurn_take t root disk ds (show k ≤ ds.length by omega)).2 i
      rw [List.getElem?_eq_getElem (show i < ds.length by omega), Option.map_some,
        if_pos hik] at hjob
      simp [Crew.isBusy, hjob, Stage.outcome?]
    have hqueue : k < ((Pool.start disk ds).follow t root (inTurn k)).jobs.length := by
      rw [Pool.length_follow, Pool.length_start]
      exact hk
    refine (ih (by omega)).trans (.head (.take hqueue (hbusy ▸ hworkers)) ?_)
    rw [inTurn_succ, Pool.follow_append]
    exact Crew.runs_replicate t root workers (Nat.lt_succ_self k) List.not_mem_nil 4

/-- Nothing happens to conversions that have come to their ends. -/
theorem Runs.pool_eq (hruns : Runs t root workers c c') (hends : c.pool.IsFinished) :
    c'.pool = c.pool := by
  induction hruns with
  | refl => rfl
  | @tail c' c'' _ hmove ih =>
    rw [← ih]
    cases hmove with
    | work _ hbusy =>
      obtain ⟨-, hlt, hnone⟩ := Crew.isBusy_iff.mp hbusy
      exact absurd hnone ((ih ▸ hends).outcomeAt_ne_none hlt)
    | _ => rfl

/-- Following the schedule in turn is one of the runs. -/
theorem convertBySchedule_isRun (ht : t.IsRegular) (hdisk : disk.IsTree)
    (hds : IsApart t root disk ds) (hworkers : 0 < workers) :
    ∃ c, Runs t root workers (Crew.start disk ds) c ∧ c.IsOver ∧
      (convertBySchedule t root true disk ds (inTurn ds.length)).value = c.value ∧
      (convertBySchedule t root true disk ds (inTurn ds.length)).disk = c.pool.disk := by
  -- first all is converted, and then all is gathered, in which nothing happens to the pool
  have hfirst := Crew.runs_inTurn t root disk hworkers (Nat.le_refl ds.length)
  obtain ⟨c, hrest, hover⟩ :=
    ((Crew.Gathered.start hdisk ds).runs ht hds hfirst).exists_over ht hds hworkers
  have hruns := hfirst.trans hrest
  have hends : ((Pool.start disk ds).follow t root (inTurn ds.length)).IsFinished :=
    Pool.isFinished_follow_of_count fun i hi => count_inTurn (Pool.length_start disk ds ▸ hi)
  have hpool := Runs.pool_eq hrest hends
  refine ⟨c, hruns, hover, ?_, congrArg Pool.disk hpool.symm⟩
  have hgathers := ((Crew.Gathered.start hdisk ds).runs ht hds hruns).gathers hover
  obtain ⟨hlength, houtcome⟩ := hends.getElem?_outcomes
  have hgathers' :=
    gather_gathers ((Pool.start disk ds).follow t root (inTurn ds.length)).outcomes
  rw [hlength, Pool.length_follow, Pool.length_start, funext houtcome] at hgathers'
  rw [hpool] at hgathers
  exact hgathers'.unique hgathers

end InTurn

/-- A batch that the first failure ends.  The paths have no null characters, do not go back up,
and lead to places apart from each other.  Then with any number of workers each run comes to
an end, and wherever it ends it has stopped at the first declaration that fails; what a batch
comes to is the end of such a run.  One worker leaves the disk that the declarations up to
that one leave in turn. -/
theorem failFast_stops_at_first (n : CSharp.Naming) (root : String) (disk : Disk)
    (ds : List Declaration) (hdisk : disk.IsTree)
    (hplain : ∀ d ∈ ds, Path.IsPlain ((CSharp.target n).outputPath root d))
    (hnull : ∀ d ∈ ds, '\x00' ∉ ((CSharp.target n).outputPath root d).toList)
    (hapart : ds.Pairwise fun d d' =>
      Apart (disk.spelled ((CSharp.target n).outputPath root d))
        (disk.spelled ((CSharp.target n).outputPath root d'))) :
    (∀ workers, 0 < workers →
      WellFounded (fun c' c => Move (CSharp.target n) root workers c c') ∧
      ∀ c, Runs (CSharp.target n) root workers (Crew.start disk ds) c →
        (¬ c.IsOver → ∃ c', Move (CSharp.target n) root workers c c') ∧
        (c.IsOver →
          StopsAtFirst (CSharp.target n) root disk ds c.pool.outcomeAt c.value c.pool.disk)) ∧
    (∀ jobs : Int, 1 < jobs →
      ∃ c, Runs (CSharp.target n) root jobs.toNat (Crew.start disk ds) c ∧ c.IsOver ∧
        (convertAll (CSharp.target n) root true jobs disk ds).value = c.value ∧
        (convertAll (CSharp.target n) root true jobs disk ds).disk = c.pool.disk) ∧
    ∀ jobs : Int, jobs ≤ 1 →
      ∃ count ≤ ds.length,
        (convertAll (CSharp.target n) root true jobs disk ds).disk =
          diskAfter (CSharp.target n) root disk (ds.take count) ∧
        StopsAtFirst (CSharp.target n) root disk ds
          (fun i => (outcomesInTurn (CSharp.target n) root disk (ds.take count)).1[i]?)
          (convertAll (CSharp.target n) root true jobs disk ds).value
          (convertAll (CSharp.target n) root true jobs disk ds).disk ∧
        ∀ k d, FailsFirst (CSharp.target n) root disk ds k d → count = k + 1 := by
  have ht := CSharp.target_isRegular n
  generalize CSharp.target n = t at *
  have hds : IsApart t root disk ds :=
    { leads := fun d hd => { plain := hplain d hd, named := ht.named root d }
      null := hnull
      apart := hapart }
  refine ⟨fun workers hworkers => ⟨?_, fun c hruns => ?_⟩, fun jobs hjobs => ?_,
    fun jobs hjobs => ?_⟩
  · exact Subrelation.wf Move.left_lt (measure Crew.left).wf
  · have hc := (Crew.Gathered.start hdisk ds).runs ht hds hruns
    exact ⟨hc.exists_move hworkers, fun hover => hc.alone.stopsAtFirst ht hds (hc.gathers hover)⟩
  · rw [convertAll, if_neg (by omega)]
    exact convertBySchedule_isRun ht hdisk hds (by omega)
  · rw [convertAll, if_pos hjobs]
    exact convertInTurn_stopsAtFirst ht hdisk hds

/-- Three classes, the second in a package that is a file. -/
def obstructedBatch : List Declaration :=
  [{ name := "A", package := ["p"] }, { name := "D", package := ["Keep.cs"] }, { name := "B" }]

theorem obstructedBatch_stops_at_first :
    (∀ c, Runs (CSharp.target {}) "o" 2 (Crew.start keepingDisk obstructedBatch) c → c.IsOver →
      c.value = .error (.failed ⟨"D", .uncreated "o/Keep.cs" .fileExists⟩) ∧
      ∃ result, c.pool.outcomeAt 0 = some (.ok result)) ∧
    (convertAll (CSharp.target {}) "o" true 1 keepingDisk obstructedBatch).disk =
      diskAfter (CSharp.target {}) "o" keepingDisk (obstructedBatch.take 2) := by
  have hfailure : (convert (CSharp.target {}) "o" keepingDisk obstructedBatch[1]).value =
      .error (.failed ⟨"D", .uncreated "o/Keep.cs" .fileExists⟩) := by decide +kernel
  have hresult : (convert (CSharp.target {}) "o" keepingDisk obstructedBatch[0]).value =
      .ok ⟨"A", "o/p/A.cs", none⟩ := by decide +kernel
  have hfirst : FailsFirst (CSharp.target {}) "o" keepingDisk obstructedBatch 1
      obstructedBatch[1] := by
    refine ⟨rfl, ⟨_, hfailure⟩, fun j hj d hd => ?_⟩
    obtain rfl : j = 0 := by omega
    obtain rfl : d = obstructedBatch[0] := (Option.some.inj hd).symm
    rintro ⟨failure, hfails⟩
    rw [hresult] at hfails
    cases hfails
  obtain ⟨hmany, -, hone⟩ := failFast_stops_at_first {} "o" keepingDisk obstructedBatch
    (by decide +kernel) (by decide +kernel) (by decide +kernel) (by decide +kernel)
  refine ⟨fun c hruns hover => ?_, ?_⟩
  · obtain ⟨failure, hvalue, -, -, halone, hbefore⟩ :=
      (((hmany 2 (by omega)).2 c hruns).2 hover).first 1 _ hfirst
    obtain ⟨result, houtcome, -⟩ := hbefore 0 (by omega) _ rfl
    have hfailure' := halone (by unfold IsFarDot; decide +kernel) (by decide)
    rw [hfailure] at hfailure'
    cases hfailure'
    exact ⟨hvalue, result, houtcome⟩
  · obtain ⟨count, -, hdisk, -, hcount⟩ := hone 1 (by omega)
    rw [hdisk, hcount 1 _ hfirst]

end SharpEmit.Conversion
