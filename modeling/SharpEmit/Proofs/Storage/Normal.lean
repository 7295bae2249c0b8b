/-
SharpEmit/Proofs/Storage/Normal.lean

Paths by their texts alone.  `normal` are the names of a path after all that can be
left out: empty names, `.`, and `..` together with the name before it; at the start of a
relative path `..` has no name before it and stays.  A path is `Below` another one when
its normal names go on from there, and then so do the locations that they spell
(`Below.spelled`).

Parts that are joined to a path one after another lead below it, whatever the path is, if
and only if none of them is absolute and by themselves they do not go up
(`forall_below_iff`).  Where they do, what they leave of a single name in front of them does
not hang on that name (`foldl_collapse_single`), so it cannot be below each such name.
-/
import Mathlib.Data.List.Infix
import SharpEmit.Proofs.Storage.Walk

namespace SharpEmit

namespace Path

/-! ### Normal names -/

/-- Normal names with one more name. -/
def collapse (absolute : Bool) (front : List String) (name : String) : List String :=
  if name = "" ∨ name = "." then front
  else if name ≠ ".." ∨ (front = [] ∧ absolute = false) ∨ front.getLast? = some ".." then
    front ++ [name]
  else front.dropLast

/-- The names of a path by its text alone. -/
def normal (path : String) : List String := (names path).foldl (collapse (isAbsolute path)) []

section Collapse

variable {absolute : Bool} {front : List String} {name : String}

theorem collapse_same (h : name = "" ∨ name = ".") : collapse absolute front name = front :=
  if_pos h

theorem collapse_name (h : Disk.isDots name = false) :
    collapse absolute front name = front ++ [name] := by
  simp only [Disk.isDots, Bool.or_eq_false_iff, decide_eq_false_iff_not] at h
  rw [collapse, if_neg (by simp [h]), if_pos (.inl h.2)]

theorem collapse_up_nil : collapse false [] ".." = [".."] := rfl

theorem collapse_up_concat (last : String) :
    collapse absolute (front ++ [last]) ".." =
      if last = ".." then front ++ [last] ++ [".."] else front := by
  by_cases h : last = ".." <;> simp [collapse, h]

theorem isDots_eq_false (h : name ≠ "" ∧ name ≠ ".") (hup : name ≠ "..") :
    Disk.isDots name = false := by
  simp [Disk.isDots, h, hup]

/-- The three kinds of names. -/
theorem name_cases (name : String) :
    (name = "" ∨ name = ".") ∨ Disk.isDots name = false ∨ name = ".." := by
  by_cases hsame : name = "" ∨ name = "."
  · exact .inl hsame
  · by_cases hup : name = ".."
    · exact .inr (.inr hup)
    · exact .inr (.inl (isDots_eq_false (not_or.mp hsame) hup))

/-- Once the names go up from their start, they do so to the end. -/
theorem up_mem_collapse (h : ".." ∈ front) (name : String) :
    ".." ∈ collapse absolute front name := by
  rcases name_cases name with hsame | hname | rfl
  · rw [collapse_same hsame]
    exact h
  · rw [collapse_name hname]
    exact List.mem_append_left _ h
  · obtain ⟨init, last, rfl⟩ := List.eq_nil_or_concat' front |>.resolve_left (List.ne_nil_of_mem h)
    rw [collapse_up_concat]
    split
    · exact List.mem_append_left _ h
    · rename_i hlast
      simpa [Ne.symm hlast] using h

theorem up_mem_foldl_collapse (h : ".." ∈ front) (names : List String) :
    ".." ∈ names.foldl (collapse absolute) front := by
  induction names generalizing front with
  | nil => exact h
  | cons name names ih => exact ih (up_mem_collapse h name)

/-- What comes before names that do not go up is left alone. -/
theorem collapse_append (base : List String) (h : ".." ∉ collapse false front name) :
    collapse absolute (base ++ front) name = base ++ collapse false front name := by
  rcases name_cases name with hsame | hname | rfl
  · rw [collapse_same hsame, collapse_same hsame]
  · rw [collapse_name hname, collapse_name hname, List.append_assoc]
  · rcases List.eq_nil_or_concat' front with rfl | ⟨init, last, rfl⟩
    · simp [collapse_up_nil] at h
    · rw [← List.append_assoc, collapse_up_concat, collapse_up_concat]
      rw [collapse_up_concat] at h
      split
      · rename_i hlast
        simp [hlast] at h
      · rfl

theorem foldl_collapse_append (base : List String) {names : List String}
    (h : ".." ∉ names.foldl (collapse false) front) :
    names.foldl (collapse absolute) (base ++ front) =
      base ++ names.foldl (collapse false) front := by
  induction names generalizing front with
  | nil => rfl
  | cons name names ih =>
    have hfirst : ".." ∉ collapse false front name := fun hup =>
      h (up_mem_foldl_collapse hup names)
    rw [List.foldl_cons, List.foldl_cons, collapse_append base hfirst, ih h]

/-- Names after a single one in front of them, beside the same names alone: they follow it,
or they have taken it away in the place of the first `..`. -/
def Follows (single : String) (alone after : List String) : Prop :=
  (".." ∉ alone ∧ after = single :: alone) ∨ alone = ".." :: after

theorem Follows.collapse {single : String} {alone after : List String}
    (h : Follows single alone after) (hsingle : single ≠ "..") (name : String) :
    Follows single (Path.collapse false alone name) (Path.collapse false after name) := by
  rcases name_cases name with hsame | hname | rfl
  · rw [collapse_same hsame, collapse_same hsame]
    exact h
  · have hup : ".." ≠ name := by
      rintro rfl
      cases hname
    rw [collapse_name hname, collapse_name hname]
    rcases h with ⟨halone, rfl⟩ | rfl
    · exact .inl ⟨by simp [halone, hup], rfl⟩
    · exact .inr rfl
  · rcases h with ⟨halone, rfl⟩ | rfl
    · rcases List.eq_nil_or_concat' alone with rfl | ⟨init, last, rfl⟩
      · -- the single name is taken away here
        refine .inr ?_
        rw [collapse_up_nil, show [single] = [] ++ [single] from rfl, collapse_up_concat,
          if_neg hsingle]
      · have hlast : last ≠ ".." := by
          rintro rfl
          simp at halone
        rw [← List.cons_append, collapse_up_concat, collapse_up_concat, if_neg hlast, if_neg hlast]
        exact .inl ⟨fun hup => halone (List.mem_append_left _ hup), rfl⟩
    · rcases List.eq_nil_or_concat' after with rfl | ⟨init, last, rfl⟩
      · exact .inr rfl
      · rw [← List.cons_append, collapse_up_concat, collapse_up_concat]
        split
        · exact .inr rfl
        · exact .inr rfl

theorem foldl_collapse_single {single : String} (hsingle : single ≠ "..") (names : List String) :
    Follows single (names.foldl (collapse false) []) (names.foldl (collapse false) [single]) := by
  have hrun : ∀ alone after, Follows single alone after →
      Follows single (names.foldl (collapse false) alone) (names.foldl (collapse false) after) := by
    induction names with
    | nil => exact fun _ _ h => h
    | cons name names ih => exact fun _ _ h => ih _ _ (h.collapse hsingle name)
  exact hrun [] [single] (.inl ⟨by simp, rfl⟩)

/-- Normal names are neither empty nor `.`. -/
theorem foldl_collapse_proper {names : List String} (h : ∀ n ∈ front, n ≠ "" ∧ n ≠ ".") :
    ∀ n ∈ names.foldl (collapse absolute) front, n ≠ "" ∧ n ≠ "." := by
  induction names generalizing front with
  | nil => exact h
  | cons name names ih =>
    apply ih
    intro n hn
    unfold collapse at hn
    split at hn
    · exact h n hn
    · rename_i hname
      split at hn
      · rcases List.mem_append.mp hn with hn | hn
        · exact h n hn
        · rw [List.mem_singleton.mp hn]
          exact not_or.mp hname
      · exact h n (List.mem_of_mem_dropLast hn)

end Collapse

theorem normal_proper (path : String) : ∀ n ∈ normal path, n ≠ "" ∧ n ≠ "." :=
  foldl_collapse_proper (by simp)

theorem normal_eq_steps (path : String) :
    normal path = (steps path).foldl (collapse (isAbsolute path)) [] :=
  foldl_filter_ne_empty (fun _ => collapse_same (.inl rfl)) [] (names path)

/-! ### Paths below others -/

/-- By their texts alone, a path leads to a place properly below another path. -/
structure Below (path base : String) : Prop where
  start : isAbsolute path = isAbsolute base
  names : ∃ rest, normal path = normal base ++ rest ∧ rest ≠ [] ∧ ".." ∉ rest

theorem below_iff (path base : String) :
    Below path base ↔ isAbsolute path = isAbsolute base ∧ normal base <+: normal path ∧
      (normal path).drop (normal base).length ≠ [] ∧
      ".." ∉ (normal path).drop (normal base).length := by
  constructor
  · rintro ⟨hstart, rest, hnames, hrest⟩
    rw [hnames, List.drop_left]
    exact ⟨hstart, List.prefix_append _ _, hrest⟩
  · rintro ⟨hstart, ⟨rest, hrest⟩, hdrop⟩
    rw [← hrest, List.drop_left] at hdrop
    exact ⟨hstart, rest, hrest.symm, hdrop⟩

instance (path base : String) : Decidable (Below path base) :=
  decidable_of_iff _ (below_iff path base).symm

/-! ### Parts that are joined -/

theorem isAbsolute_append {base : String} (h : base ≠ "") (rest : String) :
    isAbsolute (base ++ rest) = isAbsolute base := by
  have hne : base.toList ≠ [] := by simpa using h
  simp only [isAbsolute, String.toList_append, List.head?_append_of_ne_nil _ hne]

theorem isAbsolute_join (base path : String) :
    isAbsolute (join base path) = (isAbsolute base || isAbsolute path) := by
  unfold join
  split
  · rename_i habsolute
    rw [habsolute, Bool.or_true]
  · rename_i hrelative
    rw [Bool.eq_false_iff.mpr hrelative, Bool.or_false]
    by_cases hbase : base = ""
    · subst hbase
      rw [if_pos (.inl rfl), String.empty_append]
      exact Bool.eq_false_iff.mpr hrelative
    · split
      · exact isAbsolute_append hbase path
      · rw [String.append_assoc]
        exact isAbsolute_append hbase _

/-- A relative path that is joined adds its steps. -/
theorem steps_join {base path : String} (h : isAbsolute path = false) :
    steps (join base path) = steps base ++ steps path := by
  simp only [steps_eq_pieces, ← List.map_append]
  congr 1
  unfold join
  rw [if_neg (by simp [h])]
  split
  · rename_i hend
    rw [String.toList_append]
    rcases hend with rfl | hslash
    · rfl
    · obtain ⟨front, hfront⟩ := List.getLast?_eq_some_iff.mp hslash
      rw [hfront, List.append_assoc, List.singleton_append, pieces_append_slash,
        pieces_append_slash, pieces_nil, List.append_nil]
  · rw [String.toList_append, String.toList_append, List.append_assoc]
    exact pieces_append_slash base.toList path.toList

theorem isAbsolute_joinAll (base : String) (parts : List String) :
    isAbsolute (joinAll base parts) = (isAbsolute base || parts.any isAbsolute) := by
  induction parts generalizing base with
  | nil => simp [joinAll]
  | cons part parts ih =>
    rw [List.any_cons, ← Bool.or_assoc, ← isAbsolute_join]
    exact ih (join base part)

theorem steps_joinAll {parts : List String} (h : ∀ part ∈ parts, isAbsolute part = false)
    (base : String) : steps (joinAll base parts) = steps base ++ parts.flatMap steps := by
  induction parts generalizing base with
  | nil => simp [joinAll]
  | cons part parts ih =>
    have hrest := ih (fun part' hpart' => h part' (List.mem_cons_of_mem part hpart'))
      (join base part)
    rw [List.flatMap_cons, ← List.append_assoc, ← steps_join (h part List.mem_cons_self)]
    exact hrest

/-- Parts that lead below every path: none of them is absolute, and by themselves they do
not go up. -/
structure LeadsDown (parts : List String) : Prop where
  relative : ∀ part ∈ parts, isAbsolute part = false
  down : ".." ∉ (parts.flatMap steps).foldl (collapse false) []

theorem leadsDown_iff (parts : List String) :
    LeadsDown parts ↔ (∀ part ∈ parts, isAbsolute part = false) ∧
      ".." ∉ (parts.flatMap steps).foldl (collapse false) [] :=
  ⟨fun h => ⟨h.relative, h.down⟩, fun h => ⟨h.1, h.2⟩⟩

instance (parts : List String) : Decidable (LeadsDown parts) :=
  decidable_of_iff _ (leadsDown_iff parts).symm

section Relative

variable {parts : List String} (hrelative : ∀ part ∈ parts, isAbsolute part = false)
include hrelative

theorem isAbsolute_joinAll_of_relative (base : String) :
    isAbsolute (joinAll base parts) = isAbsolute base := by
  have hany : parts.any isAbsolute = false := by simpa using hrelative
  rw [isAbsolute_joinAll, hany, Bool.or_false]

theorem normal_joinAll (base : String) :
    normal (joinAll base parts) =
      (parts.flatMap steps).foldl (collapse (isAbsolute base)) (normal base) := by
  rw [normal_eq_steps, steps_joinAll hrelative, isAbsolute_joinAll_of_relative hrelative,
    List.foldl_append, ← normal_eq_steps]

/-- Parts that go up take away a single name in front of them. -/
theorem normal_joinAll_of_up (hup : ".." ∈ (parts.flatMap steps).foldl (collapse false) [])
    {single : String} (hsingle : single ≠ "..") (hnormal : normal single = [single])
    (hstart : isAbsolute single = false) :
    (parts.flatMap steps).foldl (collapse false) [] = ".." :: normal (joinAll single parts) := by
  rw [normal_joinAll hrelative, hnormal, hstart]
  rcases foldl_collapse_single hsingle (parts.flatMap steps) with ⟨hno, -⟩ | heq
  · exact absurd hup hno
  · exact heq

end Relative

/-- Parts that lead down lead below every path, if they end in a name. -/
theorem LeadsDown.below {parts init : List String} {last : String} (h : LeadsDown parts)
    (hlast : parts.flatMap steps = init ++ [last]) (hname : Disk.isDots last = false)
    (base : String) : Below (joinAll base parts) base := by
  refine ⟨isAbsolute_joinAll_of_relative h.relative base,
    (parts.flatMap steps).foldl (collapse false) [], ?_, ?_, h.down⟩
  · rw [normal_joinAll h.relative]
    have happend := @foldl_collapse_append (isAbsolute base) [] (normal base) _ h.down
    rw [List.append_nil] at happend
    exact happend
  · rw [hlast, List.foldl_append, List.foldl_cons, List.foldl_nil, collapse_name hname]
    simp

/-- Parts that lead below two different names lead down. -/
theorem leadsDown_of_below {parts : List String} (ho : Below (joinAll "o" parts) "o")
    (hp : Below (joinAll "p" parts) "p") : LeadsDown parts := by
  have hrelative : ∀ part ∈ parts, isAbsolute part = false := by
    have hstart := ho.start
    rw [isAbsolute_joinAll] at hstart
    simpa [isAbsolute] using hstart
  have hnormal : normal "o" = ["o"] ∧ normal "p" = ["p"] := by decide +kernel
  refine ⟨hrelative, fun hup => ?_⟩
  -- what goes up leaves the same of both, and it cannot begin with both names
  have hboth := (normal_joinAll_of_up hrelative hup (by decide) hnormal.1 (by decide)).symm.trans
    (normal_joinAll_of_up hrelative hup (by decide) hnormal.2 (by decide))
  obtain ⟨rest, hrest, -⟩ := ho.names
  obtain ⟨rest', hrest', -⟩ := hp.names
  rw [hrest, hrest', hnormal.1, hnormal.2] at hboth
  simp at hboth

/-- Parts that end in a name lead below every path if and only if they lead down. -/
theorem forall_below_iff {parts : List String}
    (hnamed : (∀ part ∈ parts, isAbsolute part = false) →
      ∃ init last, parts.flatMap steps = init ++ [last] ∧ Disk.isDots last = false) :
    (∀ base, base ≠ "" → Below (joinAll base parts) base) ↔ LeadsDown parts := by
  constructor
  · intro hbelow
    exact leadsDown_of_below (hbelow "o" (by decide)) (hbelow "p" (by decide))
  · intro hdown base _
    obtain ⟨init, last, hlast, hname⟩ := hnamed hdown.relative
    exact hdown.below hlast hname base

end Path

namespace Disk

/-! ### The places that normal names spell -/

theorem foldl_descend_collapse {absolute : Bool} {front : List String} {start : Location}
    (hstart : absolute = true → start = #[]) (hfront : ∀ n ∈ front, n ≠ "" ∧ n ≠ ".")
    (name : String) :
    (Path.collapse absolute front name).foldl descend start =
      descend (front.foldl descend start) name := by
  rcases Path.name_cases name with hsame | hname | rfl
  · rw [Path.collapse_same hsame, descend, if_pos hsame]
  · rw [Path.collapse_name hname, List.foldl_append]
    rfl
  · rcases List.eq_nil_or_concat' front with rfl | ⟨init, last, rfl⟩
    · cases absolute with
      | true =>
        rw [hstart rfl]
        rfl
      | false => rfl
    · rw [Path.collapse_up_concat]
      split
      · rw [List.foldl_append]
        rfl
      · rename_i hlast
        have hproper := Path.isDots_eq_false (hfront last (by simp)) hlast
        rw [List.foldl_append, List.foldl_cons, List.foldl_nil, descend_of_not_isDots hproper]
        simp [descend]

/-- A path spells the location that its normal names spell. -/
theorem spelled_eq_normal (d : Disk) (path : String) :
    d.spelled path = (Path.normal path).foldl descend (d.start path) := by
  have hstart : Path.isAbsolute path = true → d.start path = #[] := fun h => if_pos h
  have hrun : ∀ (names front : List String), (∀ n ∈ front, n ≠ "" ∧ n ≠ ".") →
      names.foldl descend (front.foldl descend (d.start path)) =
        (names.foldl (Path.collapse (Path.isAbsolute path)) front).foldl descend (d.start path) := by
    intro names
    induction names with
    | nil => exact fun _ _ => rfl
    | cons name names ih =>
      intro front hfront
      have hnext := ih (Path.collapse (Path.isAbsolute path) front name)
        (@Path.foldl_collapse_proper _ _ [name] hfront)
      rw [foldl_descend_collapse hstart hfront] at hnext
      exact hnext
  exact hrun (Path.names path) [] (by simp)

end Disk

/-- A path below another one spells a location properly below. -/
theorem Path.Below.spelled {path base : String} (h : Below path base) (d : Disk) :
    OnWay (d.spelled base) (d.spelled path) ∧ d.spelled base ≠ d.spelled path := by
  obtain ⟨rest, hnames, hne, hup⟩ := h.names
  have hproper : ∀ n ∈ rest, Disk.isDots n = false := by
    intro n hn
    apply isDots_eq_false
    · exact normal_proper path n (hnames ▸ List.mem_append_right _ hn)
    · exact fun heq => hup (heq ▸ hn)
  have hstart : d.start path = d.start base := by simp only [Disk.start, h.start]
  have hlist : (d.spelled path).toList = (d.spelled base).toList ++ rest := by
    rw [d.spelled_eq_normal path, d.spelled_eq_normal base, hnames, List.foldl_append, hstart,
      Disk.toList_foldl_descend_of_proper hproper]
  refine ⟨⟨rest, hlist.symm⟩, fun heq => hne ?_⟩
  rw [heq] at hlist
  exact List.self_eq_append_right.mp hlist

end SharpEmit
