/-
SharpEmit/Conversion/Batch.lean

Converting many declarations.  Failures are collected, or the first one ends
the batch.  With one worker the declarations are converted in turn; with more
the conversions take their steps in any order, and their outcomes are gathered
in the order of the declarations.
-/
import SharpEmit.Conversion.Single

namespace SharpEmit.Conversion

/-! ### Reports -/

/-- What a batch comes to. -/
structure Report where
  results : List Result := []
  failures : List Failure := []
deriving DecidableEq, Repr

namespace Report

/-- The types that were written. -/
def written (r : Report) : List Result := r.results.filter (·.skipped.isNone)

/-- The types that were skipped. -/
def skipped (r : Report) : List Result := r.results.filter (·.skipped.isSome)

/-- No conversion failed. -/
def ok (r : Report) : Bool := r.failures.isEmpty

/-- A report with a result before all others. -/
def withResult (result : Result) (r : Report) : Report := { r with results := result :: r.results }

/-- A report with a failure before all others. -/
def withFailure (failure : Failure) (r : Report) : Report :=
  { r with failures := failure :: r.failures }

end Report

/-! ### One worker -/

/-- Converts declarations in turn.  A failure is recorded, or, with `failFast`,
ends the batch; any other fault ends it in any case. -/
def convertInTurn (t : Target) (root : String) (failFast : Bool) (disk : Disk) :
    List Declaration → Run (Except Abort Report)
  | [] => ⟨.ok {}, disk, []⟩
  | d :: rest =>
    let first := convert t root disk d
    match first.value with
    | .ok result =>
      let others := convertInTurn t root failFast first.disk rest
      ⟨Report.withResult result <$> others.value, others.disk, first.events ++ others.events⟩
    | .error (.failed failure) =>
      if failFast then ⟨.error (.failed failure), first.disk, first.events⟩
      else
        let others := convertInTurn t root failFast first.disk rest
        ⟨Report.withFailure failure <$> others.value, others.disk,
          first.events ++ .failed failure :: others.events⟩
    | .error abort => ⟨.error abort, first.disk, first.events⟩

/-! ### Many workers -/

/-- How far a conversion has come. -/
inductive Stage where
  | waiting
  | admitted
  | rendered (buffer : LineBuffer)
  | placed (buffer : LineBuffer)
  | finished (outcome : Except Abort Result)

/-- The outcome of a finished conversion. -/
def Stage.outcome? : Stage → Option (Except Abort Result)
  | .finished outcome => some outcome
  | _ => none

/-- The next step of a conversion on a disk that others may have changed since
the last one. -/
def Stage.advance (t : Target) (root : String) (d : Declaration) (stage : Stage) (disk : Disk) :
    Run Stage :=
  let path := t.outputPath root d
  match stage with
  | .waiting =>
    match skipReason disk d path with
    | some reason =>
      ⟨.finished (.ok ⟨d.name, path, some reason⟩), disk, [skipEvent d path reason]⟩
    | none => ⟨.admitted, disk, []⟩
  | .admitted =>
    match generate t d with
    | .error failure => ⟨.finished (.error (.failed failure)), disk, []⟩
    | .ok buffer => ⟨.rendered buffer, disk, []⟩
  | .rendered buffer =>
    match place disk d path with
    | (.error abort, disk) => ⟨.finished (.error abort), disk, []⟩
    | (.ok (), disk) => ⟨.placed buffer, disk, []⟩
  | .placed buffer =>
    match store disk d path buffer with
    | (.error abort, disk) => ⟨.finished (.error abort), disk, []⟩
    | (.ok (), disk) => ⟨.finished (.ok ⟨d.name, path, none⟩), disk, [.wrote path]⟩
  | .finished outcome => ⟨.finished outcome, disk, []⟩

/-- A pool of conversions under way. -/
structure Pool where
  jobs : List (Declaration × Stage)
  disk : Disk
  events : List Event := []

/-- A pool in which nothing has been done. -/
def Pool.start (disk : Disk) (ds : List Declaration) : Pool :=
  { jobs := ds.map fun d => (d, .waiting), disk }

/-- Lets the conversion at an index take its next step. -/
def Pool.advance (t : Target) (root : String) (p : Pool) (i : Nat) : Pool :=
  match p.jobs[i]? with
  | none => p
  | some (d, stage) =>
    let next := stage.advance t root d p.disk
    { jobs := p.jobs.set i (d, next.value), disk := next.disk, events := p.events ++ next.events }

/-- Lets conversions take steps in the order of a schedule. -/
def Pool.follow (t : Target) (root : String) (p : Pool) (schedule : List Nat) : Pool :=
  schedule.foldl (Pool.advance t root) p

/-- The outcomes of the finished conversions, in the order of the declarations. -/
def Pool.outcomes (p : Pool) : List (Except Abort Result) := p.jobs.filterMap (·.2.outcome?)

/-- Gathers outcomes in order; what ends a batch ends it here. -/
def gather (failFast : Bool) : List (Except Abort Result) → Except Abort Report × List Event
  | [] => (.ok {}, [])
  | .ok result :: rest =>
    let (report, events) := gather failFast rest
    (Report.withResult result <$> report, events)
  | .error (.failed failure) :: rest =>
    if failFast then (.error (.failed failure), [])
    else
      let (report, events) := gather failFast rest
      (Report.withFailure failure <$> report, .failed failure :: events)
  | .error abort :: _ => (.error abort, [])

/-- Converts declarations by a pool of workers that follow a schedule. -/
def convertBySchedule (t : Target) (root : String) (failFast : Bool) (disk : Disk)
    (ds : List Declaration) (schedule : List Nat) : Run (Except Abort Report) :=
  let p := (Pool.start disk ds).follow t root schedule
  let (report, events) := gather failFast p.outcomes
  ⟨report, p.disk, p.events ++ events⟩

/-- The schedule in which each conversion takes its four steps in turn. -/
def inTurn (count : Nat) : List Nat := (List.range count).flatMap (List.replicate 4)

/-! ### Batches -/

/-- Converts a batch with the given number of workers. -/
def convertAll (t : Target) (root : String) (failFast : Bool) (jobs : Int) (disk : Disk)
    (ds : List Declaration) : Run (Except Abort Report) :=
  if jobs ≤ 1 then convertInTurn t root failFast disk ds
  else convertBySchedule t root failFast disk ds (inTurn ds.length)

theorem convertAll_one (t : Target) (root : String) (failFast : Bool) (disk : Disk)
    (ds : List Declaration) :
    convertAll t root failFast 1 disk ds = convertInTurn t root failFast disk ds := rfl

end SharpEmit.Conversion
