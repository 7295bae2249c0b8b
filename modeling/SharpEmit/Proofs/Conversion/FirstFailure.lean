/-
SharpEmit/Proofs/Conversion/FirstFailure.lean

Batches that the first failure ends.  Outcomes are gathered in the order of the declarations,
up to the first that is no result (`Gathers`).  In a pool each conversion comes to what it
comes to alone, so what is gathered shows the first declaration that fails on the disk with
which the batch began, and all those before it have been converted (`StopsAtFirst`,
`Pool.AsAlone.stopsAtFirst`).

One worker converts in turn and stops at that declaration, so that those after it have no
effect at all (`convertInTurn_stopsAtFirst`).
-/
import SharpEmit.Proofs.Conversion.Independence

namespace SharpEmit.Conversion

variable {t : Target} {root : String} {d : Declaration} {disk after : Disk}
  {ds : List Declaration}

/-! ### Gathering -/

/-- What comes of outcomes that are gathered in order, up to the first that is no result. -/
inductive Gathers (outcome : Nat → Option (Except Abort Result)) (count : Nat) :
    Except Abort Report → Prop
  | all {results : List Result} : results.length = count →
      (∀ (i : Nat) r, results[i]? = some r → outcome i = some (.ok r)) →
      Gathers outcome count (.ok { results })
  | stop {k abort} : k < count → outcome k = some (.error abort) →
      (∀ j < k, ∃ r, outcome j = some (.ok r)) → Gathers outcome count (.error abort)

theorem Gathers.unique {outcome : Nat → Option (Except Abort Result)} {count : Nat}
    {value value' : Except Abort Report} (h : Gathers outcome count value)
    (h' : Gathers outcome count value') : value = value' := by
  -- a result and another outcome do not stand at one index
  have hclash : ∀ {k : Nat} {abort : Abort} {results : List Result}, results.length = count →
      (∀ (i : Nat) r, results[i]? = some r → outcome i = some (.ok r)) → k < count →
      outcome k = some (.error abort) → False := by
    intro k abort results hlength hall hk habort
    have hok := hall k results[k] (List.getElem?_eq_getElem (hlength ▸ hk))
    rw [habort] at hok
    cases hok
  cases h with
  | @all results hlength hall =>
    cases h' with
    | @all results' hlength' hall' =>
      have heq : results = results' := by
        refine List.ext_getElem (hlength.trans hlength'.symm) fun i hi hi' => ?_
        have hok := hall i _ (List.getElem?_eq_getElem hi)
        rw [hall' i _ (List.getElem?_eq_getElem hi')] at hok
        exact (Except.ok.inj (Option.some.inj hok)).symm
      rw [heq]
    | stop hk habort _ => exact (hclash hlength hall hk habort).elim
  | @stop k abort hk habort hbefore =>
    cases h' with
    | all hlength hall => exact (hclash hlength hall hk habort).elim
    | @stop k' abort' _ habort' hbefore' =>
      rcases Nat.lt_trichotomy k k' with hlt | rfl | hgt
      · obtain ⟨r, hr⟩ := hbefore' k hlt
        rw [habort] at hr
        cases hr
      · rw [habort] at habort'
        cases habort'
        rfl
      · obtain ⟨r, hr⟩ := hbefore k' hgt
        rw [habort'] at hr
        cases hr

/-- Gathering stops at the first outcome that is no result. -/
theorem gather_gathers (outcomes : List (Except Abort Result)) :
    Gathers (outcomes[·]?) outcomes.length (gather true outcomes).1 := by
  induction outcomes with
  | nil => exact .all rfl (by simp)
  | cons outcome outcomes ih =>
    match outcome with
    | .error (.failed failure) => exact .stop (k := 0) (Nat.succ_pos _) rfl (by simp)
    | .error .nullCharacter => exact .stop (k := 0) (Nat.succ_pos _) rfl (by simp)
    | .error (.misuse fault) => exact .stop (k := 0) (Nat.succ_pos _) rfl (by simp)
    | .ok result =>
      show Gathers _ _ (Report.withResult result <$> (gather true outcomes).1)
      generalize (gather true outcomes).1 = value at ih
      cases ih with
      | @all results hlength hall =>
        refine @Gathers.all _ _ (result :: results) (by simp [hlength]) fun i r hr => ?_
        cases i with
        | zero => simpa using hr
        | succ i => exact hall i r hr
      | @stop k abort hk habort hbefore =>
        refine .stop (k := k + 1) (Nat.succ_lt_succ hk) habort fun j hj => ?_
        cases j with
        | zero => exact ⟨result, rfl⟩
        | succ j => exact hbefore j (Nat.lt_of_succ_lt_succ hj)

/-! ### Outcomes in a pool -/

namespace Pool

variable {p : Pool} {i : Nat}

/-- The outcome of the conversion at an index, if it has come to its end. -/
def outcomeAt (p : Pool) (i : Nat) : Option (Except Abort Result) :=
  p.jobs[i]?.bind (·.2.outcome?)

theorem outcomeAt_eq_some {outcome : Except Abort Result} :
    p.outcomeAt i = some outcome ↔ ∃ d, p.jobs[i]? = some (d, .finished outcome) := by
  unfold outcomeAt
  rw [Option.bind_eq_some_iff]
  constructor
  · rintro ⟨⟨d, stage⟩, hi, houtcome⟩
    cases stage <;> cases houtcome
    exact ⟨d, hi⟩
  · rintro ⟨d, hi⟩
    exact ⟨_, hi, rfl⟩

theorem lt_of_outcomeAt {outcome : Except Abort Result} (h : p.outcomeAt i = some outcome) :
    i < p.jobs.length := by
  obtain ⟨d, hi⟩ := outcomeAt_eq_some.mp h
  exact (List.getElem?_eq_some_iff.mp hi).1

theorem IsFinished.outcomeAt_ne_none (h : p.IsFinished) (hi : i < p.jobs.length) :
    p.outcomeAt i ≠ none := by
  have hsome := h _ (List.getElem_mem hi)
  rw [outcomeAt, List.getElem?_eq_getElem hi]
  intro hnone
  rw [Option.bind_some] at hnone
  rw [hnone] at hsome
  cases hsome

/-- The outcomes of a pool in which all have come to their ends. -/
theorem IsFinished.getElem?_outcomes (h : p.IsFinished) :
    p.outcomes.length = p.jobs.length ∧ ∀ i : Nat, p.outcomes[i]? = p.outcomeAt i := by
  obtain ⟨jobs, disk, events⟩ := p
  dsimp only [outcomes, outcomeAt]
  induction jobs with
  | nil => exact ⟨rfl, fun i => rfl⟩
  | cons job jobs ih =>
    obtain ⟨outcome, houtcome⟩ := Stage.finished_of_outcome? (h job List.mem_cons_self)
    obtain ⟨hlength, hrest⟩ := ih fun job' hjob' => h job' (List.mem_cons_of_mem job hjob')
    rw [List.filterMap_cons, houtcome]
    refine ⟨congrArg Nat.succ hlength, fun i => ?_⟩
    cases i with
    | zero => simp [houtcome, Stage.outcome?]
    | succ i => simpa [Stage.outcome?] using hrest i

/-- What has come to its end stays there. -/
theorem outcomeAt_advance {outcome : Except Abort Result} (h : p.outcomeAt i = some outcome)
    (j : Nat) : (p.advance t root j).outcomeAt i = some outcome := by
  obtain ⟨d, hi⟩ := outcomeAt_eq_some.mp h
  rw [outcomeAt_eq_some]
  by_cases hji : j = i
  · subst hji
    exact ⟨d, getElem?_advance_self hi⟩
  · exact ⟨d, (getElem?_advance_of_ne hji).trans hi⟩

/-- A step that is no step. -/
theorem advance_of_outcomeAt (h : p.outcomeAt i ≠ none ∨ p.jobs[i]? = none) :
    p.advance t root i = p := by
  rcases h with h | h
  · obtain ⟨outcome, houtcome⟩ := Option.ne_none_iff_exists'.mp h
    obtain ⟨d, hi⟩ := outcomeAt_eq_some.mp houtcome
    obtain ⟨hlt, hget⟩ := List.getElem?_eq_some_iff.mp hi
    simp only [advance, hi, Stage.advance]
    rw [← hget, List.set_getElem_self, List.append_nil]
  · exact advance_of_none h

end Pool

/-! ### The first failure -/

/-- A declaration has been converted: its conversion on the disk with which the batch began
comes to the result, and what it then leaves in the place of its file is there, with all
directories. -/
structure Converted (t : Target) (root : String) (disk : Disk) (d : Declaration) (result : Result)
    (after : Disk) : Prop where
  value : (convert t root disk d).value = .ok result
  file : after.look (disk.spelled (t.outputPath root d)) =
    (convert t root disk d).disk.look (disk.spelled (t.outputPath root d))
  directories : ∀ l mode, (convert t root disk d).disk.look l = some (.directory mode) →
    after.look l = some (.directory mode)

/-- The first declaration of a batch whose conversion fails, with its index. -/
structure FailsFirst (t : Target) (root : String) (disk : Disk) (ds : List Declaration) (k : Nat)
    (d : Declaration) : Prop where
  declared : ds[k]? = some d
  fails : Fails t root disk d
  before : ∀ j < k, ∀ d', ds[j]? = some d' → ¬ Fails t root disk d'

/-- A batch has stopped at the first declaration that fails, if there is one.  Whether a
declaration fails does not depend on the others; how it fails does only if its directory is
too long and ends in a dot, or if names cannot be looked up in new directories. -/
structure StopsAtFirst (t : Target) (root : String) (disk : Disk) (ds : List Declaration)
    (outcome : Nat → Option (Except Abort Result)) (value : Except Abort Report) (after : Disk) :
    Prop where
  raises : (∃ abort, value = .error abort) ↔ ∃ d ∈ ds, Fails t root disk d
  first : ∀ k d, FailsFirst t root disk ds k d → ∃ failure,
    value = .error (.failed failure) ∧ outcome k = some (.error (.failed failure)) ∧
    failure.typeName = d.name ∧
    (¬ IsFarDot (t.outputPath root d) → disk.permitsNew .search = true →
      (convert t root disk d).value = .error (.failed failure)) ∧
    ∀ j < k, ∀ d', ds[j]? = some d' →
      ∃ result, outcome j = some (.ok result) ∧ Converted t root disk d' result after
  all : (∀ d ∈ ds, ¬ Fails t root disk d) → ∃ results,
    value = .ok { results } ∧ results.length = ds.length ∧
    ∀ i d, ds[i]? = some d → ∃ result, results[i]? = some result ∧
      outcome i = some (.ok result) ∧ Converted t root disk d result after

theorem FailsFirst.unique {k k' : Nat} {d' : Declaration} (h : FailsFirst t root disk ds k d)
    (h' : FailsFirst t root disk ds k' d') : k = k' := by
  rcases Nat.lt_trichotomy k k' with hlt | heq | hgt
  · exact absurd h.fails (h'.before k hlt d h.declared)
  · exact heq
  · exact absurd h'.fails (h.before k' hgt d' h'.declared)

namespace Pool.AsAlone

variable {p : Pool} {i : Nat}

/-- What has a result has been converted, and does not fail. -/
theorem converted (hp : p.AsAlone t root disk ds) {result : Result}
    (hi : p.outcomeAt i = some (.ok result)) (hd : ds[i]? = some d) :
    Converted t root disk d result p.disk ∧ ¬ Fails t root disk d := by
  obtain ⟨d', hjob⟩ := outcomeAt_eq_some.mp hi
  obtain rfl := Option.some.inj (hd.symm.trans (hp.getElem? hjob))
  obtain ⟨hvalue, hspares⟩ := (hp.each i d _ hjob).of_ok
  refine ⟨⟨hvalue, ?_, hspares.toExtends.dirs⟩, ?_⟩
  · -- the path leads to the same place on the disk that the conversion leaves alone
    have htarget := hspares.target
    rwa [← hspares.toExtends.spelled_eq, hp.grown.spelled_eq] at htarget
  · rintro ⟨failure, hfailure⟩
    rw [hvalue] at hfailure
    cases hfailure

theorem failed (ht : t.IsRegular) (hds : IsApart t root disk ds) (hp : p.AsAlone t root disk ds)
    {abort : Abort} (hi : p.outcomeAt i = some (.error abort)) (hd : ds[i]? = some d) :
    ∃ failure, abort = .failed failure ∧ failure.typeName = d.name ∧ Fails t root disk d ∧
      (¬ IsFarDot (t.outputPath root d) → disk.permitsNew .search = true →
        (convert t root disk d).value = .error (.failed failure)) := by
  obtain ⟨d', hjob⟩ := outcomeAt_eq_some.mp hi
  obtain rfl := Option.some.inj (hd.symm.trans (hp.getElem? hjob))
  have hmem := List.mem_of_getElem? hd
  exact (hp.each i d _ hjob).of_error ht (hds.leads d hmem) (hds.null d hmem)

/-- A pool whose outcomes are gathered up to the first that is no result. -/
theorem stopsAtFirst (ht : t.IsRegular) (hds : IsApart t root disk ds)
    (hp : p.AsAlone t root disk ds) {value : Except Abort Report}
    (hvalue : Gathers p.outcomeAt ds.length value) :
    StopsAtFirst t root disk ds p.outcomeAt value p.disk := by
  cases hvalue with
  | @all results hlength hall =>
    -- there is a result for each declaration, so that none fails
    have heach : ∀ i d, ds[i]? = some d → ∃ result, results[i]? = some result ∧
        p.outcomeAt i = some (.ok result) ∧ Converted t root disk d result p.disk ∧
        ¬ Fails t root disk d := by
      intro i d hd
      have hi : i < results.length := hlength ▸ (List.getElem?_eq_some_iff.mp hd).1
      have hr : results[i]? = some results[i] := List.getElem?_eq_getElem hi
      exact ⟨results[i], hr, hall i _ hr, hp.converted (hall i _ hr) hd⟩
    have hnone : ∀ d ∈ ds, ¬ Fails t root disk d := by
      intro d hd
      obtain ⟨i, hi⟩ := List.getElem?_of_mem hd
      obtain ⟨result, -, -, -, hnot⟩ := heach i d hi
      exact hnot
    refine ⟨⟨?_, ?_⟩, fun k d hk => ?_, fun _ => ⟨results, rfl, hlength, fun i d hd => ?_⟩⟩
    · rintro ⟨abort, habort⟩
      cases habort
    · rintro ⟨d, hd, hfails⟩
      exact absurd hfails (hnone d hd)
    · exact absurd hk.fails (hnone d (List.mem_of_getElem? hk.declared))
    · obtain ⟨result, hr, hi, hconverted, -⟩ := heach i d hd
      exact ⟨result, hr, hi, hconverted⟩
  | @stop k abort hk habort hbefore =>
    have hd : ds[k]? = some ds[k] := List.getElem?_eq_getElem hk
    obtain ⟨failure, rfl, hname, hfails, hsame⟩ := hp.failed ht hds habort hd
    -- there are results for those before, so that none of them fails
    have hearlier : ∀ j < k, ∀ d', ds[j]? = some d' → ∃ result,
        p.outcomeAt j = some (.ok result) ∧ Converted t root disk d' result p.disk ∧
        ¬ Fails t root disk d' := by
      intro j hj d' hd'
      obtain ⟨result, hresult⟩ := hbefore j hj
      exact ⟨result, hresult, hp.converted hresult hd'⟩
    have hfirst : FailsFirst t root disk ds k ds[k] := by
      refine ⟨hd, hfails, fun j hj d' hd' => ?_⟩
      obtain ⟨result, -, -, hnot⟩ := hearlier j hj d' hd'
      exact hnot
    refine ⟨⟨fun _ => ⟨_, List.mem_of_getElem? hd, hfails⟩, fun _ => ⟨_, rfl⟩⟩,
      fun k' d' hk' => ?_, fun hnone => absurd hfails (hnone _ (List.mem_of_getElem? hd))⟩
    obtain rfl := hfirst.unique hk'
    obtain rfl := Option.some.inj (hd.symm.trans hk'.declared)
    refine ⟨failure, rfl, habort, hname, hsame, fun j hj d'' hd'' => ?_⟩
    obtain ⟨result, hresult, hconverted, -⟩ := hearlier j hj d'' hd''
    exact ⟨result, hresult, hconverted⟩

end Pool.AsAlone

/-! ### One worker -/

theorem diskAfter_take_succ (t : Target) (root : String) (disk : Disk) {k : Nat}
    (hk : k < ds.length) : diskAfter t root disk (ds.take (k + 1)) =
      (convert t root (diskAfter t root disk (ds.take k)) ds[k]).disk := by
  rw [List.take_succ_eq_append_getElem hk, diskAfter, List.foldl_append]
  rfl

/-- What the schedule in turn has done after some of the declarations. -/
theorem Pool.follow_inTurn_take (t : Target) (root : String) (disk : Disk)
    (ds : List Declaration) {count : Nat} (hcount : count ≤ ds.length) :
    ((Pool.start disk ds).follow t root (inTurn count)).disk =
        diskAfter t root disk (ds.take count) ∧
      ∀ i : Nat, ((Pool.start disk ds).follow t root (inTurn count)).jobs[i]? =
        ds[i]?.map fun d => (d, if i < count then
          .finished (convert t root (diskAfter t root disk (ds.take i)) d).value else .waiting) := by
  induction count with
  | zero => exact ⟨rfl, fun i => by simp [inTurn, Pool.follow, Pool.start]⟩
  | succ count ih =>
    obtain ⟨hdisk, hjobs⟩ := ih (by omega)
    -- the next declaration waits still, and takes all its steps on the disk of those before
    have hd : ds[count]? = some ds[count] := List.getElem?_eq_getElem hcount
    have hjob := hjobs count
    rw [hd, Option.map_some, if_neg (Nat.lt_irrefl count)] at hjob
    obtain ⟨hjobs', hdisk'⟩ := follow_replicate t root hjob 4
    rw [iterate_stepAlone_waiting, hdisk] at hjobs' hdisk'
    rw [inTurn_succ, follow_append]
    refine ⟨?_, fun i => ?_⟩
    · rw [hdisk', diskAfter_take_succ t root disk hcount]
    · rw [hjobs']
      by_cases hi : i = count
      · subst hi
        rw [List.getElem?_set_self (List.getElem?_eq_some_iff.mp hjob).1, hd]
        simp
      · rw [List.getElem?_set_ne (Ne.symm hi), hjobs]
        congr 1
        funext d
        have hiff : i < count + 1 ↔ i < count := by omega
        simp only [hiff]

theorem getElem?_outcomesInTurn_take (t : Target) (root : String) (disk : Disk)
    (ds : List Declaration) (count i : Nat) :
    (outcomesInTurn t root disk (ds.take count)).1[i]? =
      if i < count then (outcomesInTurn t root disk ds).1[i]? else none := by
  rw [getElem?_outcomesInTurn, getElem?_outcomesInTurn, List.getElem?_take]
  split
  · rename_i hi
    rw [List.take_take, Nat.min_eq_left (Nat.le_of_lt hi)]
  · rfl

/-- The outcomes of the schedule in turn are those of the declarations in turn. -/
theorem Pool.outcomeAt_follow_inTurn (t : Target) (root : String) (disk : Disk) {count : Nat}
    (hcount : count ≤ ds.length) (i : Nat) :
    ((Pool.start disk ds).follow t root (inTurn count)).outcomeAt i =
      (outcomesInTurn t root disk (ds.take count)).1[i]? := by
  rw [outcomeAt, (follow_inTurn_take t root disk ds hcount).2, getElem?_outcomesInTurn_take,
    getElem?_outcomesInTurn]
  cases ds[i]? with
  | none => simp
  | some d => by_cases hi : i < count <;> simp [hi, Stage.outcome?]

/-- Results do not stop one worker. -/
theorem convertInTurn_disk_of_results {k : Nat}
    (h : ∀ j < k, ∃ r, (outcomesInTurn t root disk ds).1[j]? = some (.ok r)) :
    (convertInTurn t root true disk ds).disk =
      (convertInTurn t root true (diskAfter t root disk (ds.take k)) (ds.drop k)).disk := by
  induction k generalizing ds disk with
  | zero => rfl
  | succ k ih =>
    cases ds with
    | nil => rfl
    | cons d ds =>
      obtain ⟨r, hr⟩ := h 0 (Nat.succ_pos k)
      have hfirst : (convert t root disk d).value = .ok r := Option.some.inj hr
      have hrest := ih fun j hj => h (j + 1) (Nat.succ_lt_succ hj)
      simp only [convertInTurn, hfirst]
      exact hrest

/-- One worker gathers the outcomes of the declarations in turn, up to the first that is no
result, and leaves the disk that they leave. -/
theorem convertInTurn_stops (t : Target) (root : String) (disk : Disk) (ds : List Declaration) :
    ∃ count ≤ ds.length,
      (convertInTurn t root true disk ds).disk = diskAfter t root disk (ds.take count) ∧
      Gathers (fun i => (outcomesInTurn t root disk (ds.take count)).1[i]?) ds.length
        (convertInTurn t root true disk ds).value ∧
      ∀ j abort, (outcomesInTurn t root disk (ds.take count)).1[j]? = some (.error abort) →
        count = j + 1 := by
  have hlength : (outcomesInTurn t root disk ds).1.length = ds.length :=
    (outcomesInTurn_forall₂ (R := fun _ _ => True) (fun _ _ _ => trivial) disk).length_eq.symm
  have hgathers := gather_gathers (outcomesInTurn t root disk ds).1
  rw [hlength, ← convertInTurn_value] at hgathers
  generalize (convertInTurn t root true disk ds).value = value at hgathers
  cases hgathers with
  | @all results hresults hall =>
    have hok : ∀ j < ds.length, ∃ r, (outcomesInTurn t root disk ds).1[j]? = some (.ok r) :=
      fun j hj => ⟨_, hall j _ (List.getElem?_eq_getElem (hresults ▸ hj))⟩
    have hdisk := convertInTurn_disk_of_results hok
    rw [List.drop_length] at hdisk
    refine ⟨ds.length, Nat.le_refl _, hdisk, .all hresults ?_, fun j abort hj => ?_⟩
    · rw [List.take_length]
      exact hall
    · rw [List.take_length] at hj
      have hlt : j < ds.length := hlength ▸ (List.getElem?_eq_some_iff.mp hj).1
      obtain ⟨r, hr⟩ := hok j hlt
      rw [hj] at hr
      cases hr
  | @stop k abort hk habort hbefore =>
    -- it stops on the disk of those before, once this conversion has left its own
    have hvalue : (convert t root (diskAfter t root disk (ds.take k)) ds[k]).value =
        .error abort := by
      rw [getElem?_outcomesInTurn, List.getElem?_eq_getElem hk] at habort
      exact Option.some.inj habort
    have hdisk := convertInTurn_disk_of_results hbefore
    have hlast : (convertInTurn t root true (diskAfter t root disk (ds.take k))
        (ds[k] :: ds.drop (k + 1))).disk = diskAfter t root disk (ds.take (k + 1)) := by
      rw [diskAfter_take_succ t root disk hk]
      cases abort <;> simp [convertInTurn, hvalue]
    rw [List.drop_eq_getElem_cons hk, hlast] at hdisk
    refine ⟨k + 1, hk, hdisk, .stop hk ?_ fun j hj => ?_, fun j abort' hj => ?_⟩
    · rw [getElem?_outcomesInTurn_take, if_pos (Nat.lt_succ_self k)]
      exact habort
    · rw [getElem?_outcomesInTurn_take, if_pos (by omega)]
      exact hbefore j hj
    · rw [getElem?_outcomesInTurn_take] at hj
      split at hj
      · rename_i hjk
        by_contra hne
        obtain ⟨r, hr⟩ := hbefore j (by omega)
        rw [hj] at hr
        cases hr
      · cases hj

/-- One worker stops at the first declaration that fails, and nothing that comes later has
had any effect. -/
theorem convertInTurn_stopsAtFirst (ht : t.IsRegular) (hdisk : disk.IsTree)
    (hds : IsApart t root disk ds) :
    ∃ count ≤ ds.length,
      (convertInTurn t root true disk ds).disk = diskAfter t root disk (ds.take count) ∧
      StopsAtFirst t root disk ds (fun i => (outcomesInTurn t root disk (ds.take count)).1[i]?)
        (convertInTurn t root true disk ds).value (convertInTurn t root true disk ds).disk ∧
      ∀ k d, FailsFirst t root disk ds k d → count = k + 1 := by
  obtain ⟨count, hcount, hafter, hgathers, hlast⟩ := convertInTurn_stops t root disk ds
  have hp := (Pool.AsAlone.start hdisk ds).follow ht hds (inTurn count)
  have houtcome : ((Pool.start disk ds).follow t root (inTurn count)).outcomeAt =
      fun i => (outcomesInTurn t root disk (ds.take count)).1[i]? := by
    funext i
    exact Pool.outcomeAt_follow_inTurn t root disk hcount i
  have hstops := hp.stopsAtFirst ht hds (houtcome ▸ hgathers)
  rw [houtcome, (Pool.follow_inTurn_take t root disk ds hcount).1, ← hafter] at hstops
  refine ⟨count, hcount, hafter, hstops, fun k d hk => ?_⟩
  obtain ⟨failure, -, hfailed, -⟩ := hstops.first k d hk
  exact hlast k _ hfailed

end SharpEmit.Conversion
