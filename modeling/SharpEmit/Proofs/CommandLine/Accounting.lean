/-
SharpEmit/Proofs/CommandLine/Accounting.lean

What a finished batch says of its declarations.  A report is made of entries, one for each
declaration: a result or a failure (`Entry`).  Gathering outcomes into a report is taking
their entries apart (`gather_entries`), and the outcomes of one worker are those of the
declarations one after the other, each on the disk that the ones before it have left
(`getElem?_outcomesInTurn`).

Main result: in the report of a batch that collects failures each declaration has just one
entry, which is its own outcome, and the program says how many entries of each kind there are
(`convertAll_accounts`).
-/
import SharpEmit.Proofs.CommandLine.DryRun

namespace SharpEmit

namespace Conversion

variable {t : Target} {root : String} {disk : Disk} {ds : List Declaration} {report : Report}

/-! ### Entries -/

/-- What a report says of a declaration. -/
abbrev Entry := Result ⊕ Failure

/-- The outcome that an entry is about. -/
def Entry.outcome : Entry → Except Abort Result
  | .inl result => .ok result
  | .inr failure => .error (.failed failure)

/-- The report with the given entries: results and failures apart, each in order. -/
def Report.ofEntries (entries : List Entry) : Report :=
  { results := entries.filterMap Sum.getLeft?, failures := entries.filterMap Sum.getRight? }

@[simp] theorem Report.ofEntries_inl (result : Result) (entries : List Entry) :
    ofEntries (.inl result :: entries) = (ofEntries entries).withResult result := rfl

@[simp] theorem Report.ofEntries_inr (failure : Failure) (entries : List Entry) :
    ofEntries (.inr failure :: entries) = (ofEntries entries).withFailure failure := rfl

/-- A report that outcomes make has an entry for each of them. -/
theorem gather_entries {outcomes : List (Except Abort Result)}
    (h : (gather false outcomes).1 = .ok report) :
    ∃ entries : List Entry, outcomes = entries.map Entry.outcome ∧
      report = .ofEntries entries := by
  induction outcomes generalizing report with
  | nil =>
    cases h
    exact ⟨[], rfl, rfl⟩
  | cons outcome outcomes ih =>
    cases hrest : (gather false outcomes).1 with
    | error abort =>
      -- what ends the batch further on leaves no report
      match outcome with
      | .ok result => simp [gather, hrest] at h
      | .error (.failed failure) => simp [gather, hrest] at h
      | .error .nullCharacter | .error (.misuse _) => simp [gather] at h
    | ok others =>
      obtain ⟨entries, houtcomes, rfl⟩ := ih hrest
      match outcome with
      | .ok result =>
        refine ⟨.inl result :: entries, by simp [houtcomes, Entry.outcome], ?_⟩
        simpa [gather, hrest] using h.symm
      | .error (.failed failure) =>
        refine ⟨.inr failure :: entries, by simp [houtcomes, Entry.outcome], ?_⟩
        simpa [gather, hrest] using h.symm
      | .error .nullCharacter | .error (.misuse _) => simp [gather] at h

/-- Each entry is counted once: as written, as skipped or as failed. -/
theorem Report.counts_ofEntries (entries : List Entry) :
    (ofEntries entries).written.length + (ofEntries entries).skipped.length +
      (ofEntries entries).failures.length = entries.length := by
  induction entries with
  | nil => rfl
  | cons entry entries ih =>
    simp only [written, skipped] at ih ⊢
    rcases entry with result | failure
    · rw [ofEntries_inl, withResult]
      cases hskipped : result.skipped <;> simp [hskipped] <;> omega
    · rw [ofEntries_inr, withFailure]
      simp
      omega

/-- A report without failures is one of results only. -/
theorem Report.ok_ofEntries (entries : List Entry) :
    (ofEntries entries).ok = true ↔ ∀ entry ∈ entries, ∃ result, entry = .inl result := by
  have hright : ∀ entry : Entry, entry.getRight? = none ↔ ∃ result, entry = .inl result := by
    rintro (result | failure) <;> simp
  rw [ok, List.isEmpty_iff, ofEntries, List.filterMap_eq_nil_iff]
  simp only [hright]

/-! ### Conversions in turn -/

/-- A batch that is not ended leaves the disk that its declarations leave. -/
theorem disk_of_convertInTurn (h : (convertInTurn t root false disk ds).value = .ok report) :
    (convertInTurn t root false disk ds).disk = diskAfter t root disk ds := by
  induction ds generalizing disk report with
  | nil => rfl
  | cons d ds ih =>
    have hrest : ∀ {f : Report → Report} {value : Except Abort Report},
        f <$> value = .ok report → ∃ others, value = .ok others := by
      intro f value hvalue
      cases value with
      | error abort => cases hvalue
      | ok others => exact ⟨others, rfl⟩
    simp only [convertInTurn] at h ⊢
    cases hfirst : (convert t root disk d).value with
    | ok result =>
      simp only [hfirst] at h ⊢
      obtain ⟨others, hothers⟩ := hrest h
      exact ih hothers
    | error abort =>
      cases abort with
      | failed failure =>
        simp only [hfirst, Bool.false_eq_true, if_false] at h ⊢
        obtain ⟨others, hothers⟩ := hrest h
        exact ih hothers
      | nullCharacter | misuse fault => simp [hfirst] at h

/-- The report of one worker has an entry for each declaration, which is its outcome. -/
theorem convertInTurn_entries (h : (convertInTurn t root false disk ds).value = .ok report) :
    ∃ entries : List Entry, report = .ofEntries entries ∧ entries.length = ds.length ∧
      ∀ i d, ds[i]? = some d → ∃ entry, entries[i]? = some entry ∧
        entry.outcome = (convert t root (diskAfter t root disk (ds.take i)) d).value := by
  rw [convertInTurn_value] at h
  obtain ⟨entries, houtcomes, rfl⟩ := gather_entries h
  have houtcome : ∀ i : Nat, (entries[i]?).map Entry.outcome =
      ds[i]?.map fun d => (convert t root (diskAfter t root disk (ds.take i)) d).value := by
    intro i
    rw [← List.getElem?_map, ← houtcomes, getElem?_outcomesInTurn]
  refine ⟨entries, rfl, ?_, fun i d hd => ?_⟩
  · -- both lists end at the same index
    have hnone : ∀ i : Nat, entries.length ≤ i ↔ ds.length ≤ i := by
      intro i
      rw [← List.getElem?_eq_none_iff, ← List.getElem?_eq_none_iff, ← Option.map_eq_none_iff,
        houtcome, Option.map_eq_none_iff]
    exact Nat.le_antisymm ((hnone _).mpr (Nat.le_refl _)) ((hnone _).mp (Nat.le_refl _))
  · have hi := houtcome i
    rw [hd] at hi
    exact Option.map_eq_some_iff.mp hi

/-- There is no failure among the entries just if each declaration has a result. -/
theorem ok_ofEntries_iff {entries : List Entry} (hlength : entries.length = ds.length)
    (hentry : ∀ i d, ds[i]? = some d → ∃ entry, entries[i]? = some entry ∧
      entry.outcome = (convert t root (diskAfter t root disk (ds.take i)) d).value) :
    (Report.ofEntries entries).ok = true ↔ ∀ i d, ds[i]? = some d →
      ∃ result, (convert t root (diskAfter t root disk (ds.take i)) d).value = .ok result := by
  rw [Report.ok_ofEntries]
  constructor
  · intro hall i d hd
    obtain ⟨entry, hmem, hvalue⟩ := hentry i d hd
    obtain ⟨result, rfl⟩ := hall entry (List.mem_of_getElem? hmem)
    exact ⟨result, hvalue.symm⟩
  · intro hall entry hmem
    obtain ⟨i, hi⟩ := List.getElem?_of_mem hmem
    have hlt : i < ds.length := hlength ▸ (List.getElem?_eq_some_iff.mp hi).1
    have hd : ds[i]? = some ds[i] := List.getElem?_eq_getElem hlt
    obtain ⟨result, hresult⟩ := hall i ds[i] hd
    obtain ⟨entry', hi', hvalue⟩ := hentry i ds[i] hd
    obtain rfl := Option.some.inj (hi.symm.trans hi')
    rw [hresult] at hvalue
    rcases entry with result' | failure
    · exact ⟨result', rfl⟩
    · cases hvalue

end Conversion

/-! ### Runs -/

namespace CommandLine

open Conversion

/-- A command line for a batch of one worker that collects failures. -/
structure Collects (words : List String) (s : Settings) (root : String) : Prop where
  settings : Settings.ofWords words = .ok s
  output : s.options.output = some root
  jobs : ∃ jobs, s.options.jobs = some jobs ∧ jobs ≤ 1
  failFast : s.options.failFast = false
  dryRun : s.options.dryRun = false

/-- The program says what a batch came to, and its exit code whether something failed. -/
theorem run_of_report {words : List String} {s : Settings} {root : String} {disk : Disk}
    {ds : List Declaration} {report : Report} (hs : Collects words s root)
    (hload : loadInput disk s.input = .ok (.ok ds))
    (hreport :
      (convertAll (CSharp.target s.options.naming) root false 1 disk ds).value = .ok report) :
    (run disk words).out = summaryLine root report ∧
      (run disk words).exit = .ok (if report.ok then 0 else 1) := by
  obtain ⟨hwords, hroot, ⟨jobs, hjobs, hone⟩, hfast, hdry⟩ := hs
  have hsame : s.withDryRun false = s := by
    unfold Settings.withDryRun
    rw [← hdry]
  have hrun : run disk words =
      convertInto (CSharp.target s.options.naming) root jobs s.options disk ds := by
    have hwith := runWith_of_not_dry hload hroot hjobs
    rw [hsame] at hwith
    rw [run, hwords]
    exact hwith
  have hvalue : (convertAll (CSharp.target s.options.naming) root s.options.failFast jobs
      disk ds).value = .ok report := by
    rw [convertAll, if_pos hone, hfast]
    exact hreport
  rw [hrun, convertInto, hvalue]
  exact ⟨rfl, rfl⟩

/-- If a batch of one worker that collects failures comes to a report, then this has an entry
for each declaration, and the entry is the outcome of its conversion on the disk that the
declarations before it have left, whether these have failed or not.  The program says how many
were written, were skipped and have failed, and these make up all the declarations. -/
theorem convertAll_accounts (n : CSharp.Naming) (root : String) (disk : Disk)
    (ds : List Declaration) (report : Report)
    (hreport : (convertAll (CSharp.target n) root false 1 disk ds).value = .ok report) :
    (∃ entries : List Entry,
      report.results = entries.filterMap Sum.getLeft? ∧
      report.failures = entries.filterMap Sum.getRight? ∧
      entries.length = ds.length ∧
      ∀ i d, ds[i]? = some d → ∃ entry, entries[i]? = some entry ∧ entry.outcome =
        (convert (CSharp.target n) root (diskAfter (CSharp.target n) root disk (ds.take i)) d).value) ∧
    (convertAll (CSharp.target n) root false 1 disk ds).disk =
      diskAfter (CSharp.target n) root disk ds ∧
    report.written.length + report.skipped.length + report.failures.length = ds.length ∧
    (report.ok = true ↔ ∀ i d, ds[i]? = some d → ∃ result,
      (convert (CSharp.target n) root (diskAfter (CSharp.target n) root disk (ds.take i)) d).value =
        .ok result) ∧
    ∀ words s, Collects words s root → s.options.naming = n →
      loadInput disk s.input = .ok (.ok ds) →
      (run disk words).out =
        "Converted " ++ toString report.written.length ++ " type(s), skipped " ++
          toString report.skipped.length ++ ", failed " ++ toString report.failures.length ++
          " → " ++ root ++ "\n" ∧
      ∃ code, (run disk words).exit = .ok code ∧ (code = 0 ↔ report.failures.length = 0) := by
  have hinTurn := hreport
  rw [convertAll_one] at hinTurn ⊢
  obtain ⟨entries, rfl, hlength, hentry⟩ := convertInTurn_entries hinTurn
  refine ⟨⟨entries, rfl, rfl, hlength, hentry⟩, disk_of_convertInTurn hinTurn,
    (Report.counts_ofEntries entries).trans hlength, ok_ofEntries_iff hlength hentry, ?_⟩
  rintro words s hs rfl hload
  obtain ⟨hout, hexit⟩ := run_of_report hs hload hreport
  refine ⟨hout, _, hexit, ?_⟩
  rw [List.length_eq_zero_iff, ← List.isEmpty_iff]
  show _ ↔ (Report.ofEntries entries).ok = true
  cases (Report.ofEntries entries).ok <;> simp

/-- What comes of the types of an input: two are written, one is skipped and one fails. -/
def variedReport : Report :=
  { results :=
      [⟨"A", "out/A.cs", some .explicit⟩, ⟨"B", "out/B.cs", none⟩, ⟨"D", "out/D.cs", none⟩]
    failures := [⟨"C", .unrendered (.violation (.noConstructor ["n"]))⟩] }

theorem convertAll_accounts_varied :
    (convertAll (CSharp.target {}) "out" false 1 (diskWith variedInput) variedBatch).value =
        .ok variedReport ∧
      (∃ entries : List Entry, entries.length = 4 ∧ variedReport = .ofEntries entries) ∧
      (run (diskWith variedInput) ["types.json"]).out =
        "Converted 2 type(s), skipped 1, failed 1 → out\n" ∧
      ∃ code, (run (diskWith variedInput) ["types.json"]).exit = .ok code ∧ code ≠ 0 := by
  have hreport : (convertAll (CSharp.target {}) "out" false 1 (diskWith variedInput)
      variedBatch).value = .ok variedReport := by decide +kernel
  obtain ⟨⟨entries, hresults, hfailures, hlength, -⟩, -, -, -, hrun⟩ :=
    convertAll_accounts {} "out" (diskWith variedInput) variedBatch variedReport hreport
  obtain ⟨hout, code, hexit, hcode⟩ := hrun ["types.json"] plainSettings
    ⟨by decide +kernel, rfl, ⟨1, rfl, Int.le_refl 1⟩, rfl, rfl⟩ rfl
    (eq_of_loaded? (by decide +kernel))
  refine ⟨hreport, ⟨entries, hlength, ?_⟩, hout, code, hexit, ?_⟩
  · rw [Report.ofEntries, ← hresults, ← hfailures]
  · rw [Ne, hcode]
    decide

end CommandLine

end SharpEmit
