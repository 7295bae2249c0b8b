/-
SharpEmit/Proofs/Storage/Path.lean

The names that a path goes through.  `steps` are the names between the slashes
that are not empty; the steps of a path are those of its directory and then its
last name (`steps_eq`).  A directory as `parent` gives it has no slash at its end
to drop (`isClean_parent`), and on such paths `lineage` goes from a path to its
directory until there is none (`IsClean.lineage_eq`).
-/
import Mathlib.Data.List.TakeWhile
import SharpEmit.Storage.Path

namespace SharpEmit.Path

/-! ### Pieces between slashes -/

/-- The pieces of a list of characters between its slashes, the empty ones left
out. -/
def pieces (cs : List Char) : List (List Char) := (cs.splitOn '/').filter (· ≠ [])

@[simp] theorem pieces_nil : pieces [] = [] := rfl

theorem pieces_append_slash (as bs : List Char) :
    pieces (as ++ '/' :: bs) = pieces as ++ pieces bs := by
  simp only [pieces, List.splitOn_append_cons_self, List.filter_append]

theorem pieces_append_slashes (as : List Char) (k : Nat) :
    pieces (as ++ List.replicate k '/') = pieces as := by
  induction k with
  | zero => simp
  | succ k ih =>
    rw [List.replicate_succ', ← List.append_assoc, pieces_append_slash, ih]
    simp

/-! ### The last slash -/

theorem splitLast_append (cs : List Char) : (splitLast cs).1 ++ (splitLast cs).2 = cs := by
  simp only [splitLast]
  rw [← List.reverse_append, List.takeWhile_append_dropWhile, List.reverse_reverse]

theorem splitLast_append_slash (as : List Char) {bs : List Char} (h : '/' ∉ bs) :
    splitLast (as ++ '/' :: bs) = (as ++ ['/'], bs) := by
  have hall : ∀ c ∈ bs.reverse, decide (c ≠ '/') = true := by
    intro c hc
    rw [decide_eq_true_eq]
    rintro rfl
    exact h (List.mem_reverse.mp hc)
  simp only [splitLast, List.reverse_append, List.reverse_cons, List.append_assoc]
  rw [List.dropWhile_append_of_pos hall, List.takeWhile_append_of_pos hall]
  simp

theorem slash_not_mem_splitLast (cs : List Char) : '/' ∉ (splitLast cs).2 := by
  intro h
  have hne := List.mem_takeWhile_imp (List.mem_reverse.mp h)
  simp at hne

/-- What stands before the last name is nothing or ends in a slash. -/
theorem splitLast_fst (cs : List Char) :
    (splitLast cs).1 = [] ∨ ∃ as, (splitLast cs).1 = as ++ ['/'] := by
  have hhead := List.head?_dropWhile_not (· ≠ '/') cs.reverse
  simp only [splitLast]
  cases h : cs.reverse.dropWhile (· ≠ '/') with
  | nil => exact .inl rfl
  | cons c rest =>
    rw [h] at hhead
    obtain rfl : c = '/' := by simpa using hhead
    exact .inr ⟨rest.reverse, by simp⟩

/-- The last piece, also if it is empty, and what the others are. -/
theorem splitOn_eq_splitLast (cs : List Char) :
    ∃ front, cs.splitOn '/' = front ++ [(splitLast cs).2] ∧
      front.filter (· ≠ []) = pieces (splitLast cs).1 := by
  have hcs := splitLast_append cs
  have hlast := List.splitOn_eq_singleton (slash_not_mem_splitLast cs)
  rcases splitLast_fst cs with h | ⟨as, h⟩
  · rw [h, List.nil_append] at hcs
    rw [hcs] at hlast
    exact ⟨[], by rw [hlast, hcs, List.nil_append], by rw [h]; rfl⟩
  · refine ⟨as.splitOn '/', ?_, ?_⟩
    · rw [← hlast, ← List.splitOn_append_cons_self, ← List.singleton_append, ← List.append_assoc,
        ← h, hcs]
    · rw [h, pieces_append_slash]
      simp [pieces]

/-- The pieces before the last slash, and then the last one. -/
theorem pieces_eq_splitLast (cs : List Char) :
    pieces cs = pieces (splitLast cs).1 ++ [(splitLast cs).2].filter (· ≠ []) := by
  obtain ⟨front, hsplit, hfront⟩ := splitOn_eq_splitLast cs
  rw [pieces, hsplit, List.filter_append, hfront]

/-! ### Slashes at the end -/

/-- Without its slashes at the end a list is itself if it holds nothing else. -/
theorem dropSlashes_cases (cs : List Char) :
    (∃ k, cs = List.replicate k '/' ∧ dropSlashes cs = cs) ∨
      ∃ as c k, c ≠ '/' ∧ cs = as ++ c :: List.replicate k '/' ∧ dropSlashes cs = as ++ [c] := by
  have happend := List.takeWhile_append_dropWhile (p := (· = '/')) (l := cs.reverse)
  have hhead := List.head?_dropWhile_not (· = '/') cs.reverse
  have htake : cs.reverse.takeWhile (· = '/') =
      List.replicate (cs.reverse.takeWhile (· = '/')).length '/' := by
    refine List.eq_replicate_of_mem fun c hc => ?_
    simpa using List.mem_takeWhile_imp hc
  have hcs := congrArg List.reverse happend
  rw [List.reverse_append, List.reverse_reverse, htake, List.reverse_replicate] at hcs
  cases h : cs.reverse.dropWhile (· = '/') with
  | nil =>
    rw [h, List.reverse_nil, List.nil_append] at hcs
    exact .inl ⟨_, hcs.symm, by simp [dropSlashes, h]⟩
  | cons c rest =>
    rw [h, List.reverse_cons, List.append_assoc] at hcs
    rw [h] at hhead
    refine .inr ⟨rest.reverse, c, _, by simpa using hhead, hcs.symm, ?_⟩
    simp [dropSlashes, h]

theorem dropSlashes_append_slashes (as : List Char) {c : Char} (hc : c ≠ '/') (k : Nat) :
    dropSlashes (as ++ c :: List.replicate k '/') = as ++ [c] := by
  have hall : ∀ a ∈ List.replicate k '/', decide (a = '/') = true := by
    intro a ha
    simp [List.eq_of_mem_replicate ha]
  simp only [dropSlashes, List.reverse_append, List.reverse_cons, List.reverse_replicate,
    List.append_assoc]
  rw [List.dropWhile_append_of_pos hall]
  simp [hc]

theorem pieces_dropSlashes (cs : List Char) : pieces (dropSlashes cs) = pieces cs := by
  rcases dropSlashes_cases cs with ⟨k, -, h⟩ | ⟨as, c, k, -, hcs, h⟩
  · rw [h]
  · rw [h, hcs, ← pieces_append_slashes (as ++ [c]) k, List.append_assoc]
    rfl

theorem dropSlashes_dropSlashes (cs : List Char) : dropSlashes (dropSlashes cs) = dropSlashes cs := by
  rcases dropSlashes_cases cs with ⟨k, -, h⟩ | ⟨as, c, k, hc, -, h⟩
  · rw [h, h]
  · rw [h]
    simp [dropSlashes, hc]

theorem prefix_dropSlashes (cs : List Char) : dropSlashes cs <+: cs := by
  rcases dropSlashes_cases cs with ⟨k, -, h⟩ | ⟨as, c, k, -, hcs, h⟩
  · exact ⟨[], by rw [h, List.append_nil]⟩
  · exact ⟨List.replicate k '/', by rw [h, hcs, List.append_assoc]; rfl⟩

/-! ### Steps -/

/-- The names of a path that are not empty. -/
def steps (path : String) : List String := (names path).filter (· ≠ "")

theorem steps_eq_pieces (path : String) : steps path = (pieces path.toList).map String.ofList := by
  simp only [steps, names, pieces, List.filter_map]
  congr 2
  funext cs
  simp

/-- A walk that stays where it is on an empty name takes the steps only. -/
theorem foldl_filter_ne_empty {α : Type} {walk : α → String → α} (h : ∀ a, walk a "" = a) (a : α)
    (names : List String) : names.foldl walk a = (names.filter (· ≠ "")).foldl walk a := by
  induction names generalizing a with
  | nil => rfl
  | cons name names ih =>
    by_cases hname : name = ""
    · subst hname
      rw [List.foldl_cons, h]
      exact ih a
    · rw [List.filter_cons_of_pos (by simpa using hname), List.foldl_cons, List.foldl_cons, ih]

theorem lastName_empty : lastName "" = "" := rfl

theorem lastName_eq_empty_iff (path : String) : lastName path = "" ↔ (splitLast path.toList).2 = [] := by
  simp [lastName]

theorem steps_parent (path : String) :
    steps (parent path) = (pieces (splitLast path.toList).1).map String.ofList := by
  rw [steps_eq_pieces, parent, String.toList_ofList, pieces_dropSlashes]

/-- The steps of a path are those of its directory and then its last name. -/
theorem steps_eq (path : String) : steps path = steps (parent path) ++ [lastName path].filter (· ≠ "") := by
  rw [steps_eq_pieces, steps_parent, pieces_eq_splitLast, List.map_append]
  congr 1
  simp only [lastName]
  by_cases h : (splitLast path.toList).2 = [] <;> simp [h]

theorem mem_steps_of_parent {path name : String} (h : name ∈ steps (parent path)) :
    name ∈ steps path := by
  rw [steps_eq]
  exact List.mem_append_left _ h

/-- The names of a path without the last one are the steps of its directory, and
empty ones. -/
theorem names_eq (path : String) :
    (names path).getLastD "" = lastName path ∧
      (names path).dropLast.filter (· ≠ "") = steps (parent path) := by
  obtain ⟨front, hsplit, hfront⟩ := splitOn_eq_splitLast path.toList
  have hnames : names path = front.map String.ofList ++ [lastName path] := by
    rw [names, hsplit, List.map_append]
    rfl
  rw [hnames]
  refine ⟨by simp, ?_⟩
  rw [List.dropLast_concat, steps_parent, ← hfront, List.filter_map]
  congr 2
  funext cs
  simp

/-- The path never goes back up. -/
def IsPlain (path : String) : Prop := ".." ∉ steps path

instance (path : String) : Decidable (IsPlain path) :=
  inferInstanceAs (Decidable (".." ∉ steps path))

theorem IsPlain.parent {path : String} (h : IsPlain path) : IsPlain (parent path) :=
  fun hmem => h (mem_steps_of_parent hmem)

theorem IsPlain.lastName_ne {path : String} (h : IsPlain path) : lastName path ≠ ".." := by
  intro hlast
  apply h
  rw [steps_eq, hlast]
  simp

/-! ### Directories -/

theorem prefix_toList_parent (path : String) : (parent path).toList <+: path.toList := by
  rw [parent, String.toList_ofList]
  refine (prefix_dropSlashes _).trans ?_
  exact ⟨_, splitLast_append path.toList⟩

theorem head?_dropSlashes (cs : List Char) : (dropSlashes cs).head? = cs.head? := by
  rcases dropSlashes_cases cs with ⟨k, -, h⟩ | ⟨as, c, k, -, hcs, h⟩
  · rw [h]
  · rw [h, hcs]
    cases as <;> rfl

/-- The directory of a path starts where the path starts. -/
theorem isAbsolute_parent (path : String) : isAbsolute (parent path) = isAbsolute path := by
  have hsplit := splitLast_append path.toList
  have hslash := slash_not_mem_splitLast path.toList
  simp only [isAbsolute, parent, String.toList_ofList, head?_dropSlashes]
  rcases splitLast_fst path.toList with h | ⟨as, h⟩
  · -- without a slash the path is one name
    rw [h, List.nil_append] at hsplit
    rw [h, hsplit] at *
    cases hlist : path.toList with
    | nil => rfl
    | cons c cs =>
      have hc : c ≠ '/' := by
        rintro rfl
        exact hslash (hlist ▸ List.mem_cons_self)
      simp [hc]
  · have hhead : ((splitLast path.toList).1 ++ (splitLast path.toList).2).head? =
        (splitLast path.toList).1.head? := by
      rw [h]
      cases as <;> rfl
    rw [hsplit] at hhead
    rw [hhead]

theorem null_not_mem_parent {path : String} (h : '\x00' ∉ path.toList) :
    '\x00' ∉ (parent path).toList :=
  fun hmem => h ((prefix_toList_parent path).subset hmem)

theorem utf8ByteSize_parent_le (path : String) :
    (parent path).utf8ByteSize ≤ path.utf8ByteSize := by
  obtain ⟨rest, h⟩ := prefix_toList_parent path
  have hpath : path = parent path ++ String.ofList rest := by
    rw [← String.toList_inj, String.toList_append, String.toList_ofList, h]
  have hsize := congrArg String.utf8ByteSize hpath
  rw [String.utf8ByteSize_append] at hsize
  omega

theorem mem_dropSlashes {c : Char} (hc : c ≠ '/') {cs : List Char} : c ∈ dropSlashes cs ↔ c ∈ cs := by
  rcases dropSlashes_cases cs with ⟨k, -, h⟩ | ⟨as, a, k, -, hcs, h⟩
  · rw [h]
  · rw [h, hcs]
    simp [hc]

/-- A character of a path other than a slash is in its directory or its last name. -/
theorem mem_toList_iff {c : Char} (hc : c ≠ '/') (path : String) :
    c ∈ path.toList ↔ c ∈ (parent path).toList ∨ c ∈ (lastName path).toList := by
  rw [parent, lastName, String.toList_ofList, String.toList_ofList, mem_dropSlashes hc,
    ← List.mem_append, splitLast_append]

/-- A name joined to a directory comes after a slash, and is the last name. -/
theorem join_split {base name : String} {as : List Char} {c : Char}
    (hbase : base.toList = as ++ [c]) (hc : c ≠ '/') (hname : '/' ∉ name.toList) :
    (join base name).toList = base.toList ++ '/' :: name.toList ∧
      parent (join base name) = base ∧ lastName (join base name) = name := by
  have hrelative : isAbsolute name = false := by
    rw [isAbsolute, decide_eq_false_iff_not]
    exact fun hhead => hname (List.mem_of_head? hhead)
  have hne : base ≠ "" := by
    rintro rfl
    simp at hbase
  have hjoin : (join base name).toList = base.toList ++ '/' :: name.toList := by
    simp [join, hrelative, hne, hbase, hc]
  have hslash : base.toList ++ ['/'] = as ++ c :: List.replicate 1 '/' := by simp [hbase]
  rw [parent, lastName, hjoin, splitLast_append_slash _ hname, hslash,
    dropSlashes_append_slashes as hc, ← hbase, String.ofList_toList, String.ofList_toList]
  exact ⟨rfl, rfl, rfl⟩

theorem length_le_utf8ByteSize (cs : List Char) : cs.length ≤ (String.ofList cs).utf8ByteSize := by
  induction cs with
  | nil => simp
  | cons c cs ih =>
    have hsize : (String.ofList [c]).utf8ByteSize = c.utf8Size := String.utf8ByteSize_singleton
    have hpos := c.utf8Size_pos
    rw [← List.singleton_append, String.ofList_append, String.utf8ByteSize_append,
      List.singleton_append, List.length_cons]
    omega

/-! ### Paths without a slash to drop -/

/-- The path has no slash at its end that could be dropped. -/
def IsClean (path : String) : Prop := dropSlashes path.toList = path.toList

theorem isClean_parent (path : String) : IsClean (parent path) := by
  simp [IsClean, parent, dropSlashes_dropSlashes]

theorem isClean_of_toList {path : String} {as : List Char} {c : Char}
    (h : path.toList = as ++ [c]) (hc : c ≠ '/') : IsClean path := by
  rw [IsClean, h]
  exact dropSlashes_append_slashes as hc 0

theorem IsClean.ofList_dropSlashes {path : String} (h : IsClean path) :
    String.ofList (dropSlashes path.toList) = path := by
  rw [h, String.ofList_toList]

/-- A clean path without a last name is its own directory. -/
theorem IsClean.parent_eq_self {path : String} (h : IsClean path) (hlast : lastName path = "") :
    parent path = path := by
  have hsplit := splitLast_append path.toList
  rw [(lastName_eq_empty_iff path).mp hlast, List.append_nil] at hsplit
  rw [parent, hsplit, h.ofList_dropSlashes]

theorem IsClean.withoutSlash_eq {path : String} (h : IsClean path) : withoutSlash path = path := by
  unfold withoutSlash
  split
  · rename_i hlast
    exact h.parent_eq_self hlast
  · rfl

theorem IsClean.endsInDot_iff {path : String} (h : IsClean path) :
    endsInDot path = true ↔ lastName path = "." := by
  simp [endsInDot, h.withoutSlash_eq]

/-- The lineage of a clean path: the path alone when it names no directory above. -/
theorem IsClean.lineage_eq {path : String} (h : IsClean path) :
    lineage path =
      if lastName path = "" ∨ parent path = "" then [path] else path :: lineage (parent path) := by
  rw [lineage]
  simp only [h.withoutSlash_eq]
  by_cases hlast : lastName path = ""
  · simp [hlast]
  · by_cases hparent : parent path = "" <;> simp [hlast, hparent]

/-- A clean path without a directory above takes at most one step. -/
theorem IsClean.steps_parent {path : String} (h : IsClean path)
    (hnone : lastName path = "" ∨ parent path = "") : steps (parent path) = [] := by
  rcases hnone with hlast | hparent
  · rw [h.parent_eq_self hlast, steps_eq_pieces]
    rcases dropSlashes_cases path.toList with ⟨k, hcs, -⟩ | ⟨as, c, k, hc, -, hcs⟩
    · rw [hcs, ← List.nil_append (List.replicate k '/'), pieces_append_slashes]
      rfl
    · -- a path that ends in another character has a last name
      rw [h] at hcs
      have hempty := (lastName_eq_empty_iff path).mp hlast
      simp [splitLast, hcs, hc] at hempty
  · rw [hparent]
    rfl

/-- What holds of the clean paths without a directory above, and of a path when it
holds of its directory, holds of all clean paths. -/
theorem IsClean.induction {motive : (path : String) → IsClean path → Prop}
    (single : ∀ path h, lastName path = "" ∨ parent path = "" → motive path h)
    (below : ∀ path h, lastName path ≠ "" → parent path ≠ "" →
      motive (parent path) (isClean_parent path) → motive path h)
    (path : String) (h : IsClean path) : motive path h := by
  by_cases hlast : lastName path = ""
  · exact single path h (.inl hlast)
  · by_cases hparent : parent path = ""
    · exact single path h (.inr hparent)
    · exact below path h hlast hparent
        (IsClean.induction single below (parent path) (isClean_parent path))
termination_by path.length
decreasing_by exact length_parent_lt hlast

/-! ### A dot far out -/

/-- A dot, a row of slashes and another dot. -/
def farDot (k : Nat) : String := String.ofList ('.' :: List.replicate k '/' ++ ['/', '.'])

theorem toList_append_farDot (base : String) (k : Nat) :
    (base ++ farDot k).toList = (base.toList ++ '.' :: List.replicate k '/') ++ '/' :: ['.'] := by
  simp [farDot]

theorem lastName_append_farDot (base : String) (k : Nat) : lastName (base ++ farDot k) = "." := by
  rw [lastName, toList_append_farDot, splitLast_append_slash _ (by decide)]

/-- The slashes before the last dot are dropped all at once. -/
theorem parent_append_farDot (base : String) (k : Nat) :
    parent (base ++ farDot k) = base ++ "." := by
  have hslashes : (base.toList ++ '.' :: List.replicate k '/') ++ ['/'] =
      base.toList ++ '.' :: List.replicate (k + 1) '/' := by
    simp [List.replicate_succ']
  rw [parent, toList_append_farDot, splitLast_append_slash _ (by decide), hslashes,
    dropSlashes_append_slashes _ (by decide), ← String.toList_inj]
  simp

theorem isClean_append_farDot (base : String) (k : Nat) : IsClean (base ++ farDot k) :=
  isClean_of_toList ((toList_append_farDot base k).trans (List.append_cons _ _ _)) (by decide)

theorem le_utf8ByteSize_append_farDot (base : String) (k : Nat) :
    k ≤ (base ++ farDot k).utf8ByteSize := by
  have hlength := length_le_utf8ByteSize ('.' :: List.replicate k '/' ++ ['/', '.'])
  rw [String.utf8ByteSize_append, farDot]
  exact Nat.le_add_left_of_le (Nat.le_trans (by simp; omega) hlength)

end SharpEmit.Path
