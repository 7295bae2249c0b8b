/-
SharpEmit/Proofs/Conversion/Isolation.lean

What a batch comes to when single declarations fail.  A conversion concludes with a result
or a failure of its own declaration, or with what ends the whole batch, and the latter only
for a declaration that is rendered and has a null character in its path (`Concludes`).  This
is kept by every step of a conversion, whatever the others do to the disk in between
(`Stage.Sound.advance`), so by every schedule (`Pool.follow_sound`).

Main result: a batch that collects failures comes to a report with one entry for each
declaration, under any schedule, unless a null character in a path ends it
(`convertAll_reports`).  The renderer's own faults are all collected, but this one is not, and
`nullBatch_not_reported` is a batch in which the types that come later are lost.
-/
import SharpEmit.Document.Reader
import SharpEmit.Proofs.Conversion.Idempotence
import SharpEmit.Proofs.Conversion.Schedules

namespace SharpEmit.Conversion

variable {t : Target} {root : String} {disk : Disk} {d : Declaration}

/-! ### Conclusions -/

/-- A declaration that is converted as far as its path, which no file can have. -/
structure Unnameable (t : Target) (root : String) (d : Declaration) : Prop where
  admitted : Declaration.neverTag ∉ d.tags
  rendered : ∃ b, t.render d = .ok b
  null : '\x00' ∈ (t.outputPath root d).toList

/-- How a conversion can conclude: it settles, or a null character in its path ends the
batch. -/
inductive Concludes (t : Target) (root : String) (d : Declaration) : Except Abort Result → Prop
  | settled {outcome} : Settles t root d outcome → Concludes t root d outcome
  | stopped : Unnameable t root d → Concludes t root d (.error .nullCharacter)

/-- A step that fails concludes the conversion, if only a null character in the path is said
to be one. -/
theorem concludes_of_stepOutcome {cause : Refusal → Cause} {r : Except PathFault Unit}
    {abort : Abort} (hadmitted : Declaration.neverTag ∉ d.tags) (hrendered : ∃ b, t.render d = .ok b)
    (hnull : r = .error .nullCharacter → '\x00' ∈ (t.outputPath root d).toList)
    (h : stepOutcome d cause r = .error abort) : Concludes t root d (.error abort) := by
  by_cases hr : r = .error .nullCharacter
  · rw [hr] at h
    cases h
    exact .stopped ⟨hadmitted, hrendered, hnull hr⟩
  · exact .settled (settles_of_stepOutcome h hr)

/-! ### Steps -/

/-- What is known of a declaration whose conversion has come to a stage. -/
def Stage.Sound (t : Target) (root : String) (d : Declaration) : Stage → Prop
  | .waiting => True
  | .admitted => Declaration.neverTag ∉ d.tags
  | .rendered b => Declaration.neverTag ∉ d.tags ∧ t.render d = .ok b
  | .placed b => Declaration.neverTag ∉ d.tags ∧ t.render d = .ok b
  | .finished outcome => Concludes t root d outcome

theorem neverTag_not_mem_of_skipReason {path : String} (h : skipReason disk d path = none) :
    Declaration.neverTag ∉ d.tags := by
  intro hmem
  rw [skipReason, if_pos hmem] at h
  cases h

/-- A step keeps what is known of the declaration, on any disk. -/
theorem Stage.Sound.advance (ht : t.IsRegular) {stage : Stage} (h : stage.Sound t root d)
    (disk : Disk) : (stage.advance t root d disk).value.Sound t root d := by
  cases stage with
  | waiting =>
    dsimp only [Stage.advance]
    split
    · exact .settled .result
    · rename_i hskip
      exact neverTag_not_mem_of_skipReason hskip
  | admitted =>
    dsimp only [Stage.advance]
    split
    · rename_i failure hgen
      exact .settled (settles_of_generate hgen)
    · rename_i b hgen
      exact ⟨h, render_of_generate hgen⟩
  | rendered b =>
    dsimp only [Stage.advance]
    split
    · rename_i abort placed hplace
      rw [place_eq, Prod.mk.injEq] at hplace
      refine concludes_of_stepOutcome h.1 ⟨b, h.2⟩ (fun hr => ?_) hplace.1
      -- a null character in the path above is one in the path
      have hparent := Disk.null_of_makeDirs (Path.isClean_parent _) hr
      exact (Path.prefix_toList_parent _).subset hparent
    · exact h
  | placed b =>
    obtain ⟨text, htext⟩ := ht.complete d b h.2
    dsimp only [Stage.advance]
    split
    · rename_i abort stored hstore
      rw [store_eq htext, Prod.mk.injEq] at hstore
      refine concludes_of_stepOutcome h.1 ⟨b, h.2⟩ (fun hr => ?_) hstore.1
      rcases disk.replace_cases (t.outputPath root d) text.toUTF8 with
        ⟨fault, hfault, hnull⟩ | ⟨mode, hok, -⟩
      · rw [hfault] at hr
        cases hr
        exact hnull rfl
      · rw [hok] at hr
        cases hr
    · exact .settled .result
  | finished outcome => exact h

/-- A conversion alone concludes. -/
theorem convert_concludes (ht : t.IsRegular) (root : String) (disk : Disk) (d : Declaration) :
    Concludes t root d (convert t root disk d).value := by
  -- a conversion is four steps from the start
  have hsteps : ∀ k, ((stepAlone t root d)^[k] (.waiting, disk)).1.Sound t root d := by
    intro k
    induction k with
    | zero => trivial
    | succ k ih =>
      rw [Function.iterate_succ_apply']
      exact ih.advance ht _
  have hfour := hsteps 4
  rw [iterate_stepAlone_waiting] at hfour
  exact hfour

/-! ### Schedules -/

namespace Pool

variable {p : Pool}

/-- What is known of each declaration is so of its stage. -/
def IsSound (t : Target) (root : String) (p : Pool) : Prop :=
  ∀ job ∈ p.jobs, job.2.Sound t root job.1

theorem advance_sound (ht : t.IsRegular) (h : p.IsSound t root) (i : Nat) :
    (p.advance t root i).IsSound t root ∧
      (p.advance t root i).jobs.map (·.1) = p.jobs.map (·.1) := by
  cases hi : p.jobs[i]? with
  | none =>
    rw [advance_of_none hi]
    exact ⟨h, rfl⟩
  | some job =>
    obtain ⟨d, stage⟩ := job
    have hstage : stage.Sound t root d := h (d, stage) (List.mem_of_getElem? hi)
    constructor
    · intro job hjob
      rw [(advance_of_some hi).1] at hjob
      rcases List.mem_or_eq_of_mem_set hjob with hjob | rfl
      · exact h job hjob
      · exact hstage.advance ht p.disk
    · apply List.ext_getElem?
      intro j
      rw [List.getElem?_map, List.getElem?_map]
      by_cases hij : i = j
      · subst hij
        rw [getElem?_advance_self hi, hi]
        rfl
      · rw [getElem?_advance_of_ne hij]

/-- What is known of the declarations stays so, whatever the order of the steps. -/
theorem follow_sound (ht : t.IsRegular) (h : p.IsSound t root) (schedule : List Nat) :
    (p.follow t root schedule).IsSound t root ∧
      (p.follow t root schedule).jobs.map (·.1) = p.jobs.map (·.1) := by
  induction schedule generalizing p with
  | nil => exact ⟨h, rfl⟩
  | cons i schedule ih =>
    obtain ⟨hfirst, hjobs⟩ := advance_sound ht h i
    obtain ⟨hrest, hjobs'⟩ := ih hfirst
    exact ⟨hrest, hjobs'.trans hjobs⟩

/-- When all have come to their ends, each declaration has an outcome. -/
theorem IsSound.outcomes_conclude (h : p.IsSound t root) (hends : p.IsFinished) :
    List.Forall₂ (Concludes t root) (p.jobs.map (·.1)) p.outcomes := by
  obtain ⟨jobs, disk, events⟩ := p
  dsimp only [outcomes]
  induction jobs with
  | nil => exact .nil
  | cons job jobs ih =>
    obtain ⟨outcome, houtcome⟩ := Stage.finished_of_outcome? (hends job List.mem_cons_self)
    have hjob := h job List.mem_cons_self
    rw [houtcome] at hjob
    have hrest := ih (fun job' hjob' => h job' (List.mem_cons_of_mem job hjob'))
      (fun job' hjob' => hends job' (List.mem_cons_of_mem job hjob'))
    rw [List.map_cons, List.filterMap_cons, houtcome]
    exact .cons hjob hrest

end Pool

/-! ### Reports -/

/-- What a batch that collects failures comes to: a report with one entry for each
declaration, unless a null character ends it. -/
def Reports (t : Target) (root : String) (ds : List Declaration) (value : Except Abort Report) :
    Prop :=
  (∃ report, value = .ok report ∧ report.Covers t root ds) ∨
    (value = .error .nullCharacter ∧ ∃ d ∈ ds, Unnameable t root d)

theorem settles_or_stopped {ds : List Declaration} {outcomes : List (Except Abort Result)}
    (h : List.Forall₂ (Concludes t root) ds outcomes) :
    List.Forall₂ (Settles t root) ds outcomes ∨
      (gather false outcomes).1 = .error .nullCharacter ∧ ∃ d ∈ ds, Unnameable t root d := by
  induction h with
  | nil => exact .inl .nil
  | @cons d outcome ds outcomes hfirst _ ih =>
    cases hfirst with
    | stopped hnull => exact .inr ⟨rfl, d, List.mem_cons_self, hnull⟩
    | settled hsettles =>
      rcases ih with hrest | ⟨hgather, d', hd', hnull⟩
      · exact .inl (.cons hsettles hrest)
      · refine .inr ⟨?_, d', List.mem_cons_of_mem d hd', hnull⟩
        cases hsettles <;> simp [gather, hgather]

/-- Outcomes that conclude make a report, or end the batch. -/
theorem gather_reports {ds : List Declaration} {outcomes : List (Except Abort Result)}
    (h : List.Forall₂ (Concludes t root) ds outcomes) :
    Reports t root ds (gather false outcomes).1 :=
  (settles_or_stopped h).imp gather_of_settles id

theorem convertInTurn_reports (ht : t.IsRegular) (root : String) (disk : Disk)
    (ds : List Declaration) :
    Reports t root ds (convertInTurn t root false disk ds).value := by
  rw [convertInTurn_value]
  apply gather_reports
  apply outcomesInTurn_forall₂
  intro d _ disk
  exact convert_concludes ht root disk d

theorem convertBySchedule_reports (ht : t.IsRegular) {ds : List Declaration} {schedule : List Nat}
    (hends : ((Pool.start disk ds).follow t root schedule).IsFinished) :
    Reports t root ds (convertBySchedule t root false disk ds schedule).value := by
  have hstart : (Pool.start disk ds).IsSound t root := by
    intro job hjob
    obtain ⟨d, -, rfl⟩ := List.mem_map.mp hjob
    trivial
  have hjobs : (Pool.start disk ds).jobs.map (·.1) = ds := by
    simp [Pool.start, Function.comp_def]
  obtain ⟨hsound, hsame⟩ := Pool.follow_sound ht hstart schedule
  have hconclude := hsound.outcomes_conclude hends
  rw [hsame, hjobs] at hconclude
  exact gather_reports hconclude

/-- A batch that collects failures comes to a report in which each declaration is entered
once, as a result or as a failure, whatever the workers and the order of their steps are;
only a null character in the path of a declaration that is rendered can end it. -/
theorem convertAll_reports (n : CSharp.Naming) (root : String) (disk : Disk)
    (ds : List Declaration) :
    (∀ jobs, Reports (CSharp.target n) root ds
      (convertAll (CSharp.target n) root false jobs disk ds).value) ∧
    ∀ schedule, ((Pool.start disk ds).follow (CSharp.target n) root schedule).IsFinished →
      Reports (CSharp.target n) root ds
        (convertBySchedule (CSharp.target n) root false disk ds schedule).value := by
  have ht := CSharp.target_isRegular n
  refine ⟨fun jobs => ?_, fun schedule hends => convertBySchedule_reports ht hends⟩
  unfold convertAll
  split
  · exact convertInTurn_reports ht root disk ds
  · apply convertBySchedule_reports ht
    apply Pool.isFinished_follow_of_count
    intro i hi
    apply count_inTurn
    simpa [Pool.start] using hi

/-- Here one type fails, since its file is a directory, and the others are reported all the
same, by three workers and in an order of steps in which the last type is the first to be
skipped. -/
theorem mixedBatch_reported :
    (convertAll (CSharp.target {}) "o" false 3 blockedDisk mixedBatch).value.isOk = true ∧
      Reports (CSharp.target {}) "o" mixedBatch
        (convertAll (CSharp.target {}) "o" false 3 blockedDisk mixedBatch).value ∧
      ((Pool.start blockedDisk mixedBatch).follow (CSharp.target {}) "o"
        [3, 2, 0, 2, 1, 1, 2, 0, 1, 0, 2, 0, 1, 3, 3, 3]).IsFinished ∧
      Reports (CSharp.target {}) "o" mixedBatch
        (convertBySchedule (CSharp.target {}) "o" false blockedDisk mixedBatch
          [3, 2, 0, 2, 1, 1, 2, 0, 1, 0, 2, 0, 1, 3, 3, 3]).value := by
  have hends : ((Pool.start blockedDisk mixedBatch).follow (CSharp.target {}) "o"
      [3, 2, 0, 2, 1, 1, 2, 0, 1, 0, 2, 0, 1, 3, 3, 3]).IsFinished :=
    Pool.isFinished_follow_of_count (by decide)
  have hreports := convertAll_reports {} "o" blockedDisk mixedBatch
  exact ⟨by decide +kernel, hreports.1 3, hends, hreports.2 _ hends⟩

/-- A document with a type whose name holds a null character, and another type. -/
def nullDocument : Json :=
  .obj [("types", .arr [.obj [("name", .str "A\x00")], .obj [("name", .str "B")]])]

/-- The declarations in it. -/
def nullBatch : List Declaration := [{ name := "A\x00" }, { name := "B" }]

/-- The document is loaded, but its first type ends the batch, and the second is never
converted. -/
theorem nullBatch_not_reported :
    Document.load nullDocument = .ok nullBatch ∧
      (convertAll (CSharp.target {}) "o" false 1 {} nullBatch).value = .error .nullCharacter ∧
      (convertAll (CSharp.target {}) "o" false 1 {} nullBatch).disk.look #["o", "B.cs"] = none ∧
      nullCharacterText = "embedded null byte" := by
  refine ⟨by rfl, by decide +kernel, by decide +kernel, rfl⟩

end SharpEmit.Conversion
