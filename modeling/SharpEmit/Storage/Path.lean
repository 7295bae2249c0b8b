/-
SharpEmit/Storage/Path.lean

Path texts: names with slashes between them.  A path that starts with a slash
is absolute; `.` and `..` keep their usual meaning until the path is walked on
a disk.
-/

namespace SharpEmit.Path

/-! ### Joining -/

/-- The path starts at the root of the disk. -/
def isAbsolute (path : String) : Bool := path.toList.head? = some '/'

/-- A path below another one; an absolute path stands for itself. -/
def join (base path : String) : String :=
  if isAbsolute path then path
  else if base = "" ∨ base.toList.getLast? = some '/' then base ++ path
  else base ++ "/" ++ path

/-- A path below another one, name by name. -/
def joinAll (base : String) (names : List String) : String := names.foldl join base

/-! ### Splitting -/

/-- A list of characters up to its last slash, that one included, and the rest. -/
def splitLast (cs : List Char) : List Char × List Char :=
  let rev := cs.reverse
  ((rev.dropWhile (· ≠ '/')).reverse, (rev.takeWhile (· ≠ '/')).reverse)

/-- A list of characters without the slashes at its end, unless it holds nothing
else. -/
def dropSlashes (cs : List Char) : List Char :=
  let kept := (cs.reverse.dropWhile (· = '/')).reverse
  if kept = [] then cs else kept

/-- The directory of a path: what stands before its last slash. -/
def parent (path : String) : String := String.ofList (dropSlashes (splitLast path.toList).1)

/-- The last name of a path: what stands after its last slash. -/
def lastName (path : String) : String := String.ofList (splitLast path.toList).2

/-- The names between the slashes of a path; some may be empty. -/
def names (path : String) : List String := (path.toList.splitOn '/').map String.ofList

/-! ### Lengths -/

theorem length_dropSlashes_le (cs : List Char) : (dropSlashes cs).length ≤ cs.length := by
  simp only [dropSlashes]
  split
  · exact Nat.le_refl _
  · have := (List.dropWhile_sublist (· = '/') (l := cs.reverse)).length_le
    simpa using this

theorem length_splitLast (cs : List Char) :
    (splitLast cs).1.length + (splitLast cs).2.length = cs.length := by
  have h := congrArg List.length (List.takeWhile_append_dropWhile (p := (· ≠ '/')) (l := cs.reverse))
  simp only [List.length_append, List.length_reverse] at h
  simp only [splitLast, List.length_reverse]
  omega

/-- The directory of a path with a last name is shorter than the path. -/
theorem length_parent_lt {path : String} (h : lastName path ≠ "") :
    (parent path).length < path.length := by
  have hsum := length_splitLast path.toList
  have hle := length_dropSlashes_le (splitLast path.toList).1
  have hne : (splitLast path.toList).2 ≠ [] := by
    intro e
    exact h (by simp [lastName, e])
  have hpos := List.length_pos_iff.mpr hne
  simp only [parent, String.length_ofList]
  rw [← String.length_toList]
  omega

/-- The directory of a path is no longer than the path. -/
theorem length_parent_le (path : String) : (parent path).length ≤ path.length := by
  have hsum := length_splitLast path.toList
  have hle := length_dropSlashes_le (splitLast path.toList).1
  simp only [parent, String.length_ofList]
  rw [← String.length_toList]
  omega

/-! ### Directories above a path -/

/-- A path without the slashes at its end. -/
def withoutSlash (path : String) : String :=
  if lastName path = "" then parent path else path

/-- The last name of a path is a single dot. -/
def endsInDot (path : String) : Bool := lastName (withoutSlash path) = "."

theorem length_parent_withoutSlash_lt {path : String} (h : lastName (withoutSlash path) ≠ "") :
    (parent (withoutSlash path)).length < path.length := by
  have hlt := length_parent_lt h
  unfold withoutSlash at hlt ⊢
  split at hlt
  · rename_i hnil
    simp only [hnil, if_true]
    exact Nat.lt_of_lt_of_le hlt (length_parent_le path)
  · rename_i hne
    simpa only [hne, if_false] using hlt

/-- A path and the directories above it that it names, the path first. -/
def lineage (path : String) : List String :=
  if _h : lastName (withoutSlash path) = "" then [path]
  else if parent (withoutSlash path) = "" then [path]
  else path :: lineage (parent (withoutSlash path))
termination_by path.length
decreasing_by exact length_parent_withoutSlash_lt _h

end SharpEmit.Path
