/-
SharpEmit/Proofs/Conversion/Idempotence.lean

Converting a batch a second time.  While the second run goes through the declarations,
its disk is compared with the disk on which the first run had come equally far, and with
the one that the first run left (`Retraces`): each location holds what it held at last,
or it is a file that the second run has just given back the contents that the first run
gave it here.  So at the end of the first run there is nothing to choose from.

Main result: the second run of a batch leaves the disk as it finds it
(`convertAll_twice`).  If a path has a null character, it is asked that its directory is
not too long and that names can be looked up in new directories.  Otherwise the character
may stop the first run and not the second one, and `stoppedBatch_shows` is a batch in
which that shows.
-/
import SharpEmit.Conversion.Batch
import SharpEmit.Proofs.Conversion.Steps

namespace SharpEmit.Conversion

variable {t : Target} {root : String} {d : Declaration} {path : String}
  {disk again final : Disk}

/-! ### The second run -/

/-- A second run on a disk has come as far as a first one on another disk had come,
before that one left the final disk. -/
structure Retraces (final disk again : Disk) : Prop where
  tree : disk.IsTree
  treeAgain : again.IsTree
  later : disk.Extends final
  here : again.here = final.here
  umask : again.umask = final.umask
  look : ∀ l, again.look l = final.look l ∨ ∃ content content' mode,
    disk.look l = some (.file content mode) ∧ again.look l = some (.file content mode) ∧
      final.look l = some (.file content' mode)

namespace Retraces

theorem start (hdisk : disk.IsTree) (hfinal : final.IsTree) (h : disk.Extends final) :
    Retraces final disk final :=
  ⟨hdisk, hfinal, h, rfl, rfl, fun _ => .inl rfl⟩

/-- Once the first run has come to its end, the second one has nothing left to do. -/
theorem same (h : Retraces final final again) : final.Same again := by
  refine ⟨h.here, h.umask, fun l => ?_⟩
  rcases h.look l with heq | ⟨content, content', mode, hdisk, hagain, -⟩
  · exact heq
  · rw [hagain, hdisk]

variable (h : Retraces final disk again)
include h

theorem look_of_not_file {l : Location}
    (hl : ∀ content mode, disk.look l ≠ some (.file content mode)) :
    again.look l = final.look l := by
  rcases h.look l with heq | ⟨content, content', mode, hdisk, -⟩
  · exact heq
  · exact absurd hdisk (hl content mode)

theorem permits_eq (l : Location) (a : Access) : again.permits l a = final.permits l a := by
  unfold Disk.permits
  rcases h.look l with heq | ⟨content, content', mode, -, hagain, hfinal⟩
  · rw [heq]
  · rw [hagain, hfinal]
    rfl

/-- The disk of the second run extends that of the first one. -/
theorem toExtends : disk.Extends again where
  here := h.here.trans h.later.here
  umask := h.umask.trans h.later.umask
  dirs l mode hl := by
    rw [h.look_of_not_file (by simp [hl])]
    exact h.later.dirs l mode hl
  files l content mode hl := by
    rcases h.look l with heq | ⟨content', content'', mode', hdisk, hagain, -⟩
    · rw [heq]
      exact h.later.files l content mode hl
    · rw [hl] at hdisk
      cases hdisk
      exact ⟨content, hagain⟩
  newDirs l mode hnone hl := by
    rw [h.look_of_not_file (by simp [hnone])] at hl
    exact h.later.newDirs l mode hnone hl
  made l name hnone hsome := by
    rw [h.look_of_not_file (by simp [hnone])] at hsome
    simp only [Disk.changeable, h.permits_eq]
    exact h.later.made l name hnone hsome

/-- Making directories keeps the runs together. -/
theorem makeDirs (hclean : Path.IsClean path) (hplain : Path.IsPlain path)
    (hlater : (disk.makeDirs path).2.Extends final) :
    Retraces final (disk.makeDirs path).2 (again.makeDirs path).2 ∧
      ((again.makeDirs path).1 = (disk.makeDirs path).1 ∨
        Disk.Strays path (disk.makeDirs path) (again.makeDirs path)) := by
  have hgrows := disk.makeDirs_grows path
  have hadmits : Disk.Admits again disk (disk.makeDirs path).2 := by
    intro l content mode hnone hsome
    obtain ⟨-, hdir⟩ := (hgrows l).resolve_left fun heq => hsome (heq.trans hnone)
    rw [h.look_of_not_file (by simp [hnone]), hlater.dirs l _ hdir]
    simp
  obtain ⟨halike, hresult⟩ :=
    Disk.makeDirs_alike h.toExtends h.tree h.treeAgain hclean hplain hadmits
  obtain ⟨hext, htree⟩ := Disk.makeDirs_extends h.treeAgain path
  refine ⟨⟨(Disk.makeDirs_extends h.tree path).2, htree, hlater, hext.here.trans h.here,
    hext.umask.trans h.umask, fun l => ?_⟩, hresult⟩
  rw [halike.mirrors l]
  rcases hgrows l with heq | ⟨hnone, hdir⟩
  · rw [if_pos heq, heq]
    exact h.look l
  · left
    rw [if_neg (by simp [hnone, hdir]), hdir, hlater.dirs l _ hdir]

theorem placed (hpath : Leads path) (d : Declaration)
    (hlater : (place disk d path).2.Extends final) :
    Retraces final (place disk d path).2 (place again d path).2 ∧
      ((place again d path).1 = (place disk d path).1 ∨
        (Disk.pathBytesLimit ≤ (Path.parent path).utf8ByteSize ∨
            disk.permitsNew .search = false) ∧
          (∃ failure, (place again d path).1 = .error (.failed failure)) ∧
          (IsFutile disk d path ∨ '\x00' ∈ (Path.parent path).toList)) := by
  rw [place_eq] at hlater
  obtain ⟨hretraces, hresult⟩ :=
    h.makeDirs (Path.isClean_parent path) hpath.plain.parent hlater
  refine ⟨?_, ?_⟩
  · rw [place_eq, place_eq]
    exact hretraces
  · rcases hresult with hsame | hstrays
    · exact .inl (by rw [place_eq, place_eq, hsame])
    · obtain ⟨⟨refusal, hrefused⟩, hcases⟩ := futile_of_strays hpath h.tree hstrays d
      rcases hcases with ⟨hfutile, hwhy⟩ | ⟨hmem, hwhy⟩
      · exact .inr ⟨hwhy.imp_left And.right, ⟨_, hrefused⟩, .inl hfutile⟩
      · exact .inr ⟨hwhy, ⟨_, hrefused⟩, .inr hmem⟩

/-- Whether a file can be replaced is the same in both runs. -/
theorem replaceFault?_eq (hpath : Leads path) (content : ByteArray)
    (hreach : disk.reach (Path.parent path) ≠ .error (.refused .noEntry))
    (hlater : disk.replaceFault? path = none → (disk.replaced path content).Extends final) :
    again.replaceFault? path = disk.replaceFault? path := by
  rcases Disk.replaceFault?_cases h.toExtends h.tree hpath.plain hpath.named hreach with
    heq | ⟨hnone, ⟨mode, hdir⟩, -⟩
  · exact heq
  · -- the first run has put a file where there would be a directory
    have hset : Disk.IsSet disk _ (.file content _) _ := Disk.isSet_replaced hpath.named
    obtain ⟨content', hfile⟩ := (hlater hnone).files (disk.spelled path) content
      (disk.modeAt (disk.spelled path)) (by rw [hset.look, if_pos rfl])
    rcases h.look (disk.spelled path) with heq | ⟨_, _, _, -, hagain, -⟩
    · rw [heq, hfile] at hdir
      cases hdir
    · rw [hagain] at hdir
      cases hdir

/-- Replacing a file keeps the runs together. -/
theorem replaced (hpath : Leads path) {content : ByteArray}
    (hnone : disk.replaceFault? path = none) (hnoneAgain : again.replaceFault? path = none)
    (hlater : (disk.replaced path content).Extends final) :
    Retraces final (disk.replaced path content) (again.replaced path content) := by
  obtain ⟨-, htree⟩ :=
    Disk.replaced_extends h.tree hpath.plain hpath.named hnone content
  obtain ⟨hextAgain, htreeAgain⟩ :=
    Disk.replaced_extends h.treeAgain hpath.plain hpath.named hnoneAgain content
  have hset : Disk.IsSet disk _ (.file content _) _ := Disk.isSet_replaced hpath.named
  have hsetAgain : Disk.IsSet again _ (.file content _) _ := Disk.isSet_replaced hpath.named
  obtain ⟨content', hfile⟩ := hlater.files (disk.spelled path) content
    (disk.modeAt (disk.spelled path)) (by rw [hset.look, if_pos rfl])
  have hmode : again.modeAt (disk.spelled path) = disk.modeAt (disk.spelled path) := by
    rcases h.look (disk.spelled path) with heq | ⟨old, _, mode, hdisk, hagain, -⟩
    · exact Disk.modeAt_of_file (heq.trans hfile)
    · rw [Disk.modeAt_of_file hagain, Disk.modeAt_of_file hdisk]
  refine ⟨htree, htreeAgain, hlater, hextAgain.here.trans h.here,
    hextAgain.umask.trans h.umask, fun l => ?_⟩
  rw [hset.look, hsetAgain.look, h.toExtends.spelled_eq, hmode]
  by_cases hl : l = disk.spelled path
  · rw [if_pos hl, if_pos hl, hl]
    exact .inr ⟨content, content', _, rfl, rfl, hfile⟩
  · rw [if_neg hl, if_neg hl]
    exact h.look l

theorem stored (hpath : Leads path) {b : LineBuffer}
    (hreach : disk.reach (Path.parent path) ≠ .error (.refused .noEntry))
    (hlater : (store disk d path b).2.Extends final) :
    (store again d path b).1 = (store disk d path b).1 ∧
      Retraces final (store disk d path b).2 (store again d path b).2 := by
  cases hb : b.complete with
  | error fault =>
    simp only [store, hb]
    exact ⟨trivial, h⟩
  | ok text =>
    rw [store_eq hb, Disk.replace_eq hpath.plain hpath.named] at hlater ⊢
    rw [store_eq hb, Disk.replace_eq hpath.plain hpath.named]
    have hfault := h.replaceFault?_eq hpath text.toUTF8 hreach fun hnone => by
      rw [hnone] at hlater
      exact hlater
    rw [hfault]
    cases hnone : disk.replaceFault? path with
    | some fault => exact ⟨rfl, h⟩
    | none =>
      rw [hnone] at hlater hfault
      exact ⟨rfl, h.replaced hpath hnone hfault hlater⟩

end Retraces

/-! ### One declaration -/

/-- The outcome of a conversion that ends a whole batch. -/
def endsBatch : Except Abort Result → Bool
  | .error .nullCharacter => true
  | .error (.misuse _) => true
  | _ => false

theorem Settles.endsBatch_eq {r : Except Abort Result} (h : Settles t root d r) :
    endsBatch r = false := by
  cases h <;> rfl

/-- A conversion extends the disk; what it changes was not there, or is in the place of
its path. -/
theorem convert_extends (hpath : Leads (t.outputPath root d)) (hdisk : disk.IsTree) :
    disk.Extends (convert t root disk d).disk ∧ (convert t root disk d).disk.IsTree ∧
      ∀ l, (convert t root disk d).disk.look l ≠ disk.look l →
        disk.look l = none ∨ l = disk.spelled (t.outputPath root d) := by
  obtain ⟨placed, hplaced, hstored⟩ := convert_touches hpath disk
  obtain ⟨hext, htree⟩ := hplaced.toExtends hpath hdisk
  obtain ⟨hext', htree'⟩ := hstored.toExtends hpath htree
  refine ⟨hext.trans hext' htree, htree', fun l hl => ?_⟩
  by_cases hsame : placed.look l = disk.look l
  · rw [← hsame] at hl ⊢
    rw [← hext.spelled_eq]
    exact (hstored.change hpath hl).imp (fun hnew => hnew.2.1) id
  · exact (hplaced.change hpath hsame).imp (fun hnew => hnew.2.1) id

/-- A declaration that only the second run skips has its file from the first one. -/
theorem Retraces.of_kept (h : Retraces final disk again) (hpath : Leads (t.outputPath root d))
    (hholds : disk.holds (t.outputPath root d) = false)
    (hholdsAgain : again.holds (t.outputPath root d) = true)
    (hlater : (convert t root disk d).disk.Extends final) :
    Retraces final (convert t root disk d).disk again ∧
      '\x00' ∉ (t.outputPath root d).toList := by
  obtain ⟨l, hl, -⟩ := (again.holds_iff _).mp hholdsAgain
  have hnone := h.toExtends.look_eq_none_of_holds h.tree hpath.plain hholds hl
  rw [← Disk.spelled_of_locate hl, h.toExtends.spelled_eq] at hnone
  obtain ⟨-, htree, hchange⟩ := convert_extends hpath h.tree
  refine ⟨⟨htree, h.treeAgain, hlater, h.here, h.umask, fun m => ?_⟩, (Disk.fits_of_locate hl).1⟩
  rcases h.look m with heq | ⟨content, content', mode, hdisk, hagain, hfinal⟩
  · exact .inl heq
  · -- files that were there stay as they are
    have hsame : (convert t root disk d).disk.look m = disk.look m := by
      by_contra hne
      rcases hchange m hne with hm | rfl
      · rw [hm] at hdisk
        cases hdisk
      · rw [hnone] at hdisk
        cases hdisk
    exact .inr ⟨content, content', mode, hsame.trans hdisk, hagain, hfinal⟩

section Begun

variable {b : LineBuffer} (hpath : Leads (t.outputPath root d)) (hgen : generate t d = .ok b)
  (hskip : skipReason disk d (t.outputPath root d) = none)
include hpath hgen hskip

theorem placed_extends (hdisk : disk.IsTree) :
    (place disk d (t.outputPath root d)).2.Extends (convert t root disk d).disk := by
  obtain ⟨-, htree⟩ := (place_touches disk d (t.outputPath root d)).toExtends hpath hdisk
  cases hplace : (place disk d (t.outputPath root d)).1 with
  | error abort =>
    rw [(convert_of_place_error hskip hgen hplace).2]
    exact Disk.Extends.refl _
  | ok u =>
    rw [(convert_of_place_ok hskip hgen hplace).2]
    exact ((store_touches hpath _ d b).toExtends hpath htree).1

/-- Where the directories are made alike, the conversions end alike. -/
theorem Retraces.of_place (hdisk : disk.IsTree)
    (hskipAgain : skipReason again d (t.outputPath root d) = none)
    (h : Retraces final (place disk d (t.outputPath root d)).2
      (place again d (t.outputPath root d)).2)
    (hsame : (place again d (t.outputPath root d)).1 = (place disk d (t.outputPath root d)).1)
    (hlater : (convert t root disk d).disk.Extends final) :
    Retraces final (convert t root disk d).disk (convert t root again d).disk ∧
      (convert t root again d).value = (convert t root disk d).value := by
  cases hplace : (place disk d (t.outputPath root d)).1 with
  | error abort =>
    obtain ⟨hvalue, hafter⟩ := convert_of_place_error hskip hgen hplace
    obtain ⟨hvalueAgain, hafterAgain⟩ :=
      convert_of_place_error hskipAgain hgen (hsame.trans hplace)
    rw [hvalue, hafter, hvalueAgain, hafterAgain]
    exact ⟨h, rfl⟩
  | ok u =>
    obtain ⟨hvalue, hafter⟩ := convert_of_place_ok hskip hgen hplace
    obtain ⟨hvalueAgain, hafterAgain⟩ := convert_of_place_ok hskipAgain hgen (hsame.trans hplace)
    rw [hafter] at hlater
    obtain ⟨hstored, hretraces⟩ :=
      h.stored hpath (reach_of_place hpath hdisk hplace) hlater
    rw [hvalue, hafter, hvalueAgain, hafterAgain, hstored]
    exact ⟨hretraces, rfl⟩

omit hpath in
/-- Where the second run is refused the directory and the first one cannot write the file,
both leave the directories only. -/
theorem Retraces.of_futile
    (hskipAgain : skipReason again d (t.outputPath root d) = none)
    (h : Retraces final (place disk d (t.outputPath root d)).2
      (place again d (t.outputPath root d)).2)
    (hfutile : IsFutile disk d (t.outputPath root d)) {abort : Abort}
    (hplaceAgain : (place again d (t.outputPath root d)).1 = .error abort) :
    Retraces final (convert t root disk d).disk (convert t root again d).disk := by
  have hleft : (convert t root disk d).disk = (place disk d (t.outputPath root d)).2 := by
    rcases hfutile with ⟨failure, hfailed⟩ | ⟨hok, hstore⟩
    · exact (convert_of_place_error hskip hgen hfailed).2
    · obtain ⟨abort, habort⟩ := hstore b
      rw [(convert_of_place_ok hskip hgen hok).2]
      exact store_eq_self_of_error (Prod.ext habort rfl)
  rw [hleft, (convert_of_place_error hskipAgain hgen hplaceAgain).2]
  exact h

end Begun

/-- A declaration is skipped on a later disk for the same reason, unless its file is
new. -/
theorem skipReason_cases (h : disk.Extends again) (hdisk : disk.IsTree) (hplain : Path.IsPlain path)
    (d : Declaration) :
    skipReason again d path = skipReason disk d path ∨
      skipReason again d path = some .alreadyConverted ∧ disk.holds path = false ∧
        again.holds path = true := by
  cases hholds : disk.holds path with
  | true => simp [skipReason, hholds, h.holds hdisk hplain hholds]
  | false =>
    cases hholdsAgain : again.holds path with
    | false => simp [skipReason, hholds, hholdsAgain]
    | true =>
      by_cases hnever : Declaration.neverTag ∈ d.tags
      · simp [skipReason, hnever]
      · by_cases honce : Declaration.onceTag ∈ d.tags
        · exact .inr ⟨by simp [skipReason, hnever, honce, hholdsAgain], rfl, rfl⟩
        · simp [skipReason, hnever, honce]

section Step

variable (h : Retraces final disk again) (ht : t.IsRegular) (hpath : Leads (t.outputPath root d))
  (hlater : (convert t root disk d).disk.Extends final)
include h ht hpath hlater

/-- A conversion that begins in both runs keeps them together. -/
theorem Retraces.converted_of_begun {b : LineBuffer} (hgen : generate t d = .ok b)
    (hskip : skipReason disk d (t.outputPath root d) = none)
    (hskipAgain : skipReason again d (t.outputPath root d) = none)
    (hshort : '\x00' ∈ (t.outputPath root d).toList →
      (Path.parent (t.outputPath root d)).utf8ByteSize < Disk.pathBytesLimit ∧
        disk.permitsNew .search = true) :
    Retraces final (convert t root disk d).disk (convert t root again d).disk ∧
      endsBatch (convert t root again d).value = endsBatch (convert t root disk d).value := by
  have hbetween := (placed_extends hpath hgen hskip h.tree).trans hlater
    (convert_extends hpath h.tree).2.1
  obtain ⟨hplaced, hresult⟩ := h.placed hpath d hbetween
  rcases hresult with hsame | ⟨hwhy, ⟨failure, hfailed⟩, hcases⟩
  · obtain ⟨hretraces, hvalue⟩ :=
      hplaced.of_place hpath hgen hskip h.tree hskipAgain hsame hlater
    exact ⟨hretraces, congrArg endsBatch hvalue⟩
  · -- the two runs fail at different steps, but both go on to the next declaration
    have hnull : '\x00' ∉ (t.outputPath root d).toList := by
      intro hmem
      obtain ⟨hsize, hsearch⟩ := hshort hmem
      rcases hwhy with hlong | hclosed
      · omega
      · rw [hsearch] at hclosed
        cases hclosed
    have hfutile := hcases.resolve_right (Path.null_not_mem_parent hnull)
    refine ⟨hplaced.of_futile hgen hskip hskipAgain hfutile hfailed, ?_⟩
    rw [(convert_settles ht hpath hnull again).endsBatch_eq,
      (convert_settles ht hpath hnull disk).endsBatch_eq]

/-- The conversion of a declaration keeps the runs together. -/
theorem Retraces.converted
    (hshort : '\x00' ∈ (t.outputPath root d).toList →
      (Path.parent (t.outputPath root d)).utf8ByteSize < Disk.pathBytesLimit ∧
        disk.permitsNew .search = true) :
    Retraces final (convert t root disk d).disk (convert t root again d).disk ∧
      endsBatch (convert t root again d).value = endsBatch (convert t root disk d).value := by
  rcases skipReason_cases h.toExtends h.tree hpath.plain d with hsame | ⟨hkept, hholds, hholdsAgain⟩
  · cases hskip : skipReason disk d (t.outputPath root d) with
    | some reason =>
      rw [hskip] at hsame
      simp only [convert, hskip, hsame]
      exact ⟨h, trivial⟩
    | none =>
      rw [hskip] at hsame
      cases hgen : generate t d with
      | error failure =>
        simp only [convert, hskip, hsame, hgen]
        exact ⟨h, trivial⟩
      | ok b => exact h.converted_of_begun ht hpath hlater hgen hskip hsame hshort
  · obtain ⟨hretraces, hnull⟩ := h.of_kept hpath hholds hholdsAgain hlater
    have hagain : (convert t root again d).disk = again := by simp only [convert, hkept]
    rw [hagain, (convert_settles ht hpath hnull again).endsBatch_eq,
      (convert_settles ht hpath hnull disk).endsBatch_eq]
    exact ⟨hretraces, rfl⟩

end Step

/-! ### Batches -/

theorem convertInTurn_disk_cons (ds : List Declaration) :
    (convertInTurn t root false disk (d :: ds)).disk =
      if endsBatch (convert t root disk d).value then (convert t root disk d).disk
      else (convertInTurn t root false (convert t root disk d).disk ds).disk := by
  cases hvalue : (convert t root disk d).value with
  | ok result => simp [convertInTurn, hvalue, endsBatch]
  | error abort => cases abort <;> simp [convertInTurn, hvalue, endsBatch]

theorem convertInTurn_value_of_null (h : (convert t root disk d).value = .error .nullCharacter)
    (ds : List Declaration) :
    (convertInTurn t root false disk (d :: ds)).value = .error .nullCharacter := by
  simp [convertInTurn, h]

theorem convertInTurn_extends {ds : List Declaration}
    (hpaths : ∀ d ∈ ds, Leads (t.outputPath root d)) (hdisk : disk.IsTree) :
    disk.Extends (convertInTurn t root false disk ds).disk ∧
      (convertInTurn t root false disk ds).disk.IsTree := by
  induction ds generalizing disk with
  | nil => exact ⟨Disk.Extends.refl disk, hdisk⟩
  | cons d ds ih =>
    obtain ⟨hext, htree, -⟩ := convert_extends (hpaths d List.mem_cons_self) hdisk
    obtain ⟨hext', htree'⟩ := ih (fun d' hd' => hpaths d' (List.mem_cons_of_mem d hd')) htree
    rw [convertInTurn_disk_cons]
    split
    · exact ⟨hext, htree⟩
    · exact ⟨hext.trans hext' htree, htree'⟩

/-- A second run that has come as far as the first one comes to its end with it. -/
theorem Retraces.convertInTurn {ds : List Declaration} (ht : t.IsRegular)
    (hpaths : ∀ d ∈ ds, Leads (t.outputPath root d))
    (hshort : ∀ d ∈ ds, '\x00' ∈ (t.outputPath root d).toList →
      (Path.parent (t.outputPath root d)).utf8ByteSize < Disk.pathBytesLimit ∧
        disk.permitsNew .search = true)
    (h : Retraces (convertInTurn t root false disk ds).disk disk again) :
    (convertInTurn t root false disk ds).disk.Same (convertInTurn t root false again ds).disk := by
  induction ds generalizing disk again with
  | nil => exact h.same
  | cons d ds ih =>
    have hpath := hpaths d List.mem_cons_self
    have hpaths' : ∀ d' ∈ ds, Leads (t.outputPath root d') :=
      fun d' hd' => hpaths d' (List.mem_cons_of_mem d hd')
    obtain ⟨hext, htree, -⟩ := convert_extends hpath h.tree
    have hlater : (convert t root disk d).disk.Extends
        (Conversion.convertInTurn t root false disk (d :: ds)).disk := by
      rw [convertInTurn_disk_cons]
      split
      · exact Disk.Extends.refl _
      · exact (convertInTurn_extends hpaths' htree).1
    obtain ⟨hretraces, hends⟩ := h.converted ht hpath hlater (hshort d List.mem_cons_self)
    -- both runs are stopped by this declaration, or neither is
    rw [convertInTurn_disk_cons] at hretraces ⊢
    rw [convertInTurn_disk_cons, hends]
    split
    · rename_i hfirst
      rw [if_pos hfirst] at hretraces
      exact hretraces.same
    · rename_i hfirst
      rw [if_neg hfirst] at hretraces
      refine ih hpaths' (fun d' hd' => ?_) hretraces
      rw [Disk.permitsNew_of_umask hext.umask]
      exact hshort d' (List.mem_cons_of_mem d hd')

/-- A batch that is converted a second time leaves the disk as it was left the first
time, whatever is skipped and whatever fails, when no path goes back up; only a path
with a null character must have a directory that is not too long, on a disk where names
can be looked up in new directories. -/
theorem convertAll_twice (n : CSharp.Naming) (root : String) (disk : Disk)
    (ds : List Declaration) (hdisk : disk.IsTree)
    (hplain : ∀ d ∈ ds, Path.IsPlain ((CSharp.target n).outputPath root d))
    (hshort : ∀ d ∈ ds, '\x00' ∈ ((CSharp.target n).outputPath root d).toList →
      (Path.parent ((CSharp.target n).outputPath root d)).utf8ByteSize < Disk.pathBytesLimit ∧
        disk.permitsNew .search = true) :
    (convertAll (CSharp.target n) root false 1 disk ds).disk.Same
      (convertAll (CSharp.target n) root false 1
        (convertAll (CSharp.target n) root false 1 disk ds).disk ds).disk := by
  have ht := CSharp.target_isRegular n
  have hpaths : ∀ d ∈ ds, Leads ((CSharp.target n).outputPath root d) :=
    fun d hd => ⟨hplain d hd, ht.named root d⟩
  obtain ⟨hext, htree⟩ := convertInTurn_extends hpaths hdisk
  rw [convertAll_one, convertAll_one]
  exact (Retraces.start hdisk htree hext).convertInTurn ht hpaths hshort

/-- Two types with one file, one of them to be converted only once; one whose file is a
directory; and one that is never converted. -/
def mixedBatch : List Declaration :=
  [{ name := "A", tags := [Declaration.onceTag] }, { name := "A", shape := .interfaceShape },
    { name := "D", package := ["p"] }, { name := "N", tags := [Declaration.neverTag] }]

/-- A disk with that directory. -/
def blockedDisk : Disk :=
  { entries := [(#["o"], .directory 0o755), (#["o", "p"], .directory 0o755),
      (#["o", "p", "D.cs"], .directory 0o755)] }

theorem mixedBatch_twice :
    blockedDisk.IsTree ∧
      (convertAll (CSharp.target {}) "o" false 1 blockedDisk mixedBatch).disk.Same
        (convertAll (CSharp.target {}) "o" false 1
          (convertAll (CSharp.target {}) "o" false 1 blockedDisk mixedBatch).disk
            mixedBatch).disk :=
  ⟨by decide, convertAll_twice {} "o" blockedDisk mixedBatch (by decide) (by decide +kernel)
    (by decide +kernel)⟩

/-! ### A run that is stopped only once -/

/-- A class in a package that is no path, and one that can be written. -/
def stoppedBatch : List Declaration :=
  [{ name := "A", package := [Path.farDot Disk.pathBytesLimit, "\x00"] }, { name := "B" }]

theorem outputPath_stopped (k : Nat) :
    (CSharp.target {}).outputPath "o" { name := "A", package := [Path.farDot k, "\x00"] } =
      Path.join (Path.join ("o/" ++ Path.farDot k) "\x00") "A.cs" := by
  have hjoin : Path.join "o" (Path.farDot k) = "o/" ++ Path.farDot k := by
    have hrelative : Path.isAbsolute (Path.farDot k) = false := by
      simp [Path.isAbsolute, Path.farDot]
    simp [Path.join, hrelative, ← String.toList_inj]
  rw [← hjoin]
  exact congrArg (Path.join (Path.join (Path.join "o" (Path.farDot k)) "\x00"))
    (show CSharp.identifier "A" ++ "." ++ "cs" = "A.cs" by decide)

theorem isPlain_stopped (k : Nat) :
    Path.IsPlain (Path.join (Path.join ("o/" ++ Path.farDot k) "\x00") "A.cs") ∧
      Path.parent (Path.join (Path.join ("o/" ++ Path.farDot k) "\x00") "A.cs") =
        Path.join ("o/" ++ Path.farDot k) "\x00" := by
  obtain ⟨hlist, hparent, hlast, -⟩ := Disk.nullBelow_split k
  obtain ⟨-, hparent', hlast'⟩ := Path.join_split (hlist.trans (List.append_cons _ _ _))
    (by decide) (show '/' ∉ "A.cs".toList by decide)
  have habove : ".." ∉ Path.steps "o/." := by decide +kernel
  refine ⟨?_, hparent'⟩
  rw [Path.IsPlain, Path.steps_eq, hparent', hlast', Path.steps_eq, hparent, hlast, Path.steps_eq,
    Path.parent_append_farDot, Path.lastName_append_farDot]
  simp [habove]

theorem generate_package (package : List String) :
    ∃ b, generate (CSharp.target {}) { name := "A", package } = .ok b := by
  have hsame : CSharp.fault? { name := "A", package } = CSharp.fault? { name := "A" } := rfl
  have hfault : CSharp.fault? { name := "A", package } = none := hsame.trans (by decide +kernel)
  have hrender := CSharp.render_eq {} { name := "A", package }
  rw [hfault] at hrender
  exact ⟨_, congrArg (Except.mapError _) hrender⟩

section Stopped

variable {k : Nat} (hk : Disk.pathBytesLimit ≤ k)
include hk

/-- The first time the null character stops the run. -/
theorem convert_stopped_first :
    (convert (CSharp.target {}) "o" {}
        { name := "A", package := [Path.farDot k, "\x00"] }).value = .error .nullCharacter ∧
      (convert (CSharp.target {}) "o" {}
        { name := "A", package := [Path.farDot k, "\x00"] }).disk = Disk.withO := by
  obtain ⟨b, hgen⟩ := generate_package [Path.farDot k, "\x00"]
  have hplace : ∀ d, place {} d (Path.join (Path.join ("o/" ++ Path.farDot k) "\x00") "A.cs") =
      (.error .nullCharacter, Disk.withO) := by
    intro d
    rw [place_eq, (isPlain_stopped k).2, Disk.makeDirs_nullBelow_fresh hk]
    rfl
  rw [← outputPath_stopped] at hplace
  have hconvert := convert_of_place_error (t := CSharp.target {}) rfl hgen
    (congrArg Prod.fst (hplace _))
  rw [hplace] at hconvert
  exact hconvert

/-- The second time the directory is too long, and the run goes on. -/
theorem convert_stopped_again :
    endsBatch (convert (CSharp.target {}) "o" Disk.withO
        { name := "A", package := [Path.farDot k, "\x00"] }).value = false ∧
      (convert (CSharp.target {}) "o" Disk.withO
        { name := "A", package := [Path.farDot k, "\x00"] }).disk = Disk.withO := by
  obtain ⟨b, hgen⟩ := generate_package [Path.farDot k, "\x00"]
  have hplace : ∀ d, ∃ failure,
      place Disk.withO d (Path.join (Path.join ("o/" ++ Path.farDot k) "\x00") "A.cs") =
        (.error (.failed failure), Disk.withO) := by
    intro d
    rw [place_eq, (isPlain_stopped k).2, Disk.makeDirs_nullBelow_again hk]
    exact ⟨_, rfl⟩
  rw [← outputPath_stopped] at hplace
  obtain ⟨failure, hplace⟩ := hplace { name := "A", package := [Path.farDot k, "\x00"] }
  have hconvert := convert_of_place_error (t := CSharp.target {}) rfl hgen
    (congrArg Prod.fst hplace)
  rw [hplace] at hconvert
  rw [hconvert.1]
  exact ⟨rfl, hconvert.2⟩

end Stopped

/-- The first run ends with the null character, which is not entered as a failure.  The second
run goes on where the first one was stopped, and writes a file. -/
theorem stoppedBatch_shows :
    Disk.IsTree {} ∧
      (∀ d ∈ stoppedBatch, Path.IsPlain ((CSharp.target {}).outputPath "o" d)) ∧
      (convertAll (CSharp.target {}) "o" false 1 {} stoppedBatch).value =
        .error .nullCharacter ∧
      ¬ (convertAll (CSharp.target {}) "o" false 1 {} stoppedBatch).disk.Same
        (convertAll (CSharp.target {}) "o" false 1
          (convertAll (CSharp.target {}) "o" false 1 {} stoppedBatch).disk stoppedBatch).disk := by
  obtain ⟨hvalue, hdisk⟩ := convert_stopped_first (Nat.le_refl _)
  obtain ⟨hends, hdiskAgain⟩ := convert_stopped_again (Nat.le_refl _)
  have hfirst : (convertAll (CSharp.target {}) "o" false 1 {} stoppedBatch).disk = Disk.withO := by
    rw [convertAll_one, stoppedBatch, convertInTurn_disk_cons, hvalue, hdisk]
    exact if_pos rfl
  refine ⟨by decide, fun d hd => ?_, ?_, fun hsame => ?_⟩
  · simp only [stoppedBatch, List.mem_cons, List.not_mem_nil, or_false] at hd
    rcases hd with rfl | rfl
    · rw [outputPath_stopped]
      exact (isPlain_stopped _).1
    · decide +kernel
  · rw [convertAll_one, stoppedBatch]
    exact convertInTurn_value_of_null hvalue _
  · have hlook := hsame.look #["o", "B.cs"]
    have hwritten : (convertInTurn (CSharp.target {}) "o" false Disk.withO
        [{ name := "B" }]).disk.look #["o", "B.cs"] ≠ Disk.withO.look #["o", "B.cs"] := by
      decide +kernel
    rw [hfirst, convertAll_one, stoppedBatch, convertInTurn_disk_cons, hends, hdiskAgain,
      if_neg (by simp)] at hlook
    exact hwritten hlook

end SharpEmit.Conversion
