/-
SharpEmit/Storage/Disk.lean

A disk: which locations hold a directory and which a file with contents, the
mode of each, the directory from which relative paths start, and the permissions
that new nodes are denied.  A location is the row of names from the root; the root
itself is always a directory.

Walking a path goes name by name through existing directories.  A name may be
at most 255 bytes long, a path must be shorter than 4096 bytes.  Everything is
done by the owner, whose part of a mode says what is permitted: names are looked
up only in a directory that may be searched, and added to or taken from it only
if it may be written, too.
-/
import SharpEmit.Storage.Path

namespace SharpEmit

/-! ### Contents -/

/-- What a location holds. -/
inductive Node where
  | directory (mode : Nat)
  | file (content : ByteArray) (mode : Nat)

/-- Files are equal when their bytes and their modes are. -/
instance : DecidableEq Node
  | .directory m, .directory m' =>
    match Nat.decEq m m' with
    | isTrue hm => isTrue (by rw [hm])
    | isFalse hm => isFalse fun e => hm (by injection e)
  | .directory _, .file _ _ => isFalse (by simp)
  | .file _ _, .directory _ => isFalse (by simp)
  | .file c m, .file c' m' =>
    match ByteArray.instDecidableEq c c', Nat.decEq m m' with
    | isTrue hc, isTrue hm => isTrue (by rw [hc, hm])
    | isFalse hc, _ => isFalse fun e => hc (by injection e)
    | _, isFalse hm => isFalse fun e => hm (by injection e)

/-- What the owner may want to do with a node. -/
inductive Access where
  | read
  | write
  | search
deriving DecidableEq, Repr

/-- The place of the owner's permission in a mode. -/
def Access.bit : Access → Nat
  | .read => 8
  | .write => 7
  | .search => 6

/-- The mode of a node. -/
def Node.mode : Node → Nat
  | .directory mode => mode
  | .file _ mode => mode

/-- The node permits its owner an access. -/
def Node.permits (node : Node) (a : Access) : Bool := node.mode.testBit a.bit

/-- The names from the root to a place on the disk. -/
abbrev Location := Array String

/-- A location as an absolute path. -/
def Location.path (l : Location) : String := "/" ++ "/".intercalate l.toList

/-- A disk.  `umask` holds the permissions that new files and directories are denied. -/
structure Disk where
  here : Location := #[]
  entries : List (Location × Node) := []
  umask : Nat := 0o022
deriving DecidableEq

/-- Why the disk refuses an operation. -/
inductive Refusal where
  | noEntry
  | fileExists
  | notDirectory
  | isDirectory
  | nameTooLong
  | notPermitted
deriving DecidableEq, Repr

/-- The refusal in words. -/
def Refusal.text : Refusal → String
  | .noEntry => "No such file or directory"
  | .fileExists => "File exists"
  | .notDirectory => "Not a directory"
  | .isDirectory => "Is a directory"
  | .nameTooLong => "File name too long"
  | .notPermitted => "Permission denied"

/-- The number by which the refusal is known. -/
def Refusal.number : Refusal → Nat
  | .noEntry => 2
  | .fileExists => 17
  | .notDirectory => 20
  | .isDirectory => 21
  | .nameTooLong => 36
  | .notPermitted => 13

/-- Why an operation on a path fails: the disk refuses it, or the path holds a
null character and is not a path at all. -/
inductive PathFault where
  | refused (refusal : Refusal)
  | nullCharacter
deriving DecidableEq, Repr

/-- What is said of a path with a null character. -/
def nullCharacterText : String := "embedded null byte"

namespace Disk

/-- What is left of a mode without the permissions that are denied. -/
def granted (umask mode : Nat) : Nat := mode ^^^ (mode &&& umask)

/-- The mode of a new file. -/
def newFileMode (d : Disk) : Nat := granted d.umask 0o666

/-- The mode of a new directory. -/
def newDirMode (d : Disk) : Nat := granted d.umask 0o777

/-- The mode of the root. -/
def rootMode : Nat := 0o755

/-- What a location holds, if anything. -/
def look (d : Disk) (l : Location) : Option Node :=
  if l = #[] then some (.directory rootMode) else d.entries.lookup l

/-- Nothing at a location forbids an access. -/
def permits (d : Disk) (l : Location) (a : Access) : Bool :=
  match d.look l with
  | some node => node.permits a
  | none => true

/-- Names may be added to a directory and taken from it. -/
def changeable (d : Disk) (l : Location) : Bool := d.permits l .write && d.permits l .search

/-- The disk with a location holding a node. -/
def set (d : Disk) (l : Location) (node : Node) : Disk :=
  { d with
    entries :=
      if d.entries.any (·.1 = l) then
        d.entries.map fun e => if e.1 = l then (l, node) else e
      else d.entries ++ [(l, node)] }

/-- The disk with a location holding nothing. -/
def erase (d : Disk) (l : Location) : Disk :=
  { d with entries := d.entries.filter (·.1 ≠ l) }

/-! ### Views -/

theorem lookup_map_replace (es : List (Location × Node)) (l m : Location) (node : Node) :
    (es.map fun e => if e.1 = l then (l, node) else e).lookup m =
      if m = l ∧ es.any (·.1 = l) then some node else es.lookup m := by
  induction es with
  | nil => simp
  | cons e es ih =>
    obtain ⟨k, v⟩ := e
    by_cases hk : k = l <;> by_cases hm : m = k <;> grind

theorem lookup_append_new (es : List (Location × Node)) (l m : Location) (node : Node)
    (h : ¬ es.any (·.1 = l)) :
    (es ++ [(l, node)]).lookup m = if m = l then some node else es.lookup m := by
  induction es with
  | nil => by_cases hm : m = l <;> grind
  | cons e es ih =>
    obtain ⟨k, v⟩ := e
    by_cases hm : m = k <;> grind

theorem lookup_filter_ne (es : List (Location × Node)) (l m : Location) :
    (es.filter (·.1 ≠ l)).lookup m = if m = l then none else es.lookup m := by
  induction es with
  | nil => simp
  | cons e es ih =>
    obtain ⟨k, v⟩ := e
    by_cases hk : k = l <;> by_cases hm : m = k <;> grind

/-- A location that is set holds the node, and all others hold what they held. -/
theorem look_set (d : Disk) (l m : Location) (node : Node) (h : m ≠ #[]) :
    (d.set l node).look m = if m = l then some node else d.look m := by
  simp only [look, set, h, if_false]
  split
  · rename_i hl
    rw [lookup_map_replace]
    simp [hl]
  · rename_i hl
    exact lookup_append_new d.entries l m node hl

/-- A location that is erased holds nothing, and all others hold what they held. -/
theorem look_erase (d : Disk) (l m : Location) (h : m ≠ #[]) :
    (d.erase l).look m = if m = l then none else d.look m := by
  simp only [look, erase, h, if_false]
  exact lookup_filter_ne d.entries l m

/-! ### Walking -/

/-- The longest name, in bytes. -/
def maxNameBytes : Nat := 255

/-- The first length of a path, in bytes, that is too long. -/
def pathBytesLimit : Nat := 4096

/-- A name that leads to a directory without naming it. -/
def isDots (name : String) : Bool := name = "" || name = "." || name = ".."

/-- Where a path starts. -/
def start (d : Disk) (path : String) : Location :=
  if Path.isAbsolute path then #[] else d.here

/-- One name further down, to a directory that exists. -/
def enter (d : Disk) (l : Location) (name : String) : Except PathFault Location :=
  if name = "" then .ok l
  else if ¬ d.permits l .search then .error (.refused .notPermitted)
  else if name = "." then .ok l
  else if name = ".." then .ok l.pop
  else if maxNameBytes < name.utf8ByteSize then .error (.refused .nameTooLong)
  else
    match d.look (l.push name) with
    | some (.directory _) => .ok (l.push name)
    | some (.file _ _) => .error (.refused .notDirectory)
    | none => .error (.refused .noEntry)

/-- The place of a last name, whether it holds something or not. -/
def child (d : Disk) (l : Location) (name : String) : Except PathFault Location :=
  if isDots name then d.enter l name
  else if ¬ d.permits l .search then .error (.refused .notPermitted)
  else if maxNameBytes < name.utf8ByteSize then .error (.refused .nameTooLong)
  else .ok (l.push name)

/-- The place that a path leads to; all names but the last are directories. -/
def locate (d : Disk) (path : String) : Except PathFault Location :=
  if path.toList.contains '\x00' then .error .nullCharacter
  else if path = "" then .error (.refused .noEntry)
  else if pathBytesLimit ≤ path.utf8ByteSize then .error (.refused .nameTooLong)
  else do
    let names := Path.names path
    let l ← names.dropLast.foldlM d.enter (d.start path)
    d.child l (names.getLastD "")

/-- What a path leads to. -/
def stat (d : Disk) (path : String) : Except PathFault Node := do
  match d.look (← d.locate path) with
  | some node => pure node
  | none => .error (.refused .noEntry)

/-- The path leads to something. -/
def holds (d : Disk) (path : String) : Bool := (d.stat path).isOk

/-- The path leads to a directory. -/
def isDirectory (d : Disk) (path : String) : Bool :=
  match d.stat path with
  | .ok (.directory _) => true
  | _ => false

/-! ### Directories -/

/-- Makes one directory. -/
def makeDir (d : Disk) (path : String) : Except PathFault Disk := do
  let l ← d.locate (String.ofList (Path.dropSlashes path.toList))
  match d.look l with
  | some _ => .error (.refused .fileExists)
  | none =>
    if d.changeable l.pop then pure (d.set l (.directory d.newDirMode))
    else .error (.refused .notPermitted)

/-- Makes one directory, unless it is there. -/
def ensureDir (d : Disk) (path : String) : Except PathFault Unit × Disk :=
  match d.makeDir path with
  | .ok d => (.ok (), d)
  | .error .nullCharacter => (.error .nullCharacter, d)
  | .error (.refused r) => if d.isDirectory path then (.ok (), d) else (.error (.refused r), d)

/-- Makes the first directory of a lineage once the others have been made.  A path
that ends in `.` names the directory above it. -/
def ensureLast (d : Disk) (path : String) : Except PathFault Unit × Disk :=
  if Path.endsInDot path then (.ok (), d) else d.ensureDir path

/-- Makes the directories of a lineage, the last one first, unless they are there.
Those made before a failure stay; a file in the place of one of them shows when
the next is made below it. -/
def makeLineage (d : Disk) : List String → Except PathFault Unit × Disk
  | [] => (.ok (), d)
  | path :: rest =>
    match rest.head? with
    | none => d.ensureDir path
    | some above =>
      if d.holds above then d.ensureDir path
      else
        match d.makeLineage rest with
        | (.ok (), d) => d.ensureLast path
        | (.error (.refused .fileExists), d) => d.ensureLast path
        | (.error fault, d) => (.error fault, d)

/-- Makes a directory with all its parents, unless they are there. -/
def makeDirs (d : Disk) (path : String) : Except PathFault Unit × Disk :=
  d.makeLineage (Path.lineage path)

/-! ### Files -/

/-- The contents of a file. -/
def read (d : Disk) (path : String) : Except PathFault ByteArray := do
  match ← d.stat path with
  | .file content mode =>
    if (Node.file content mode).permits .read then pure content
    else .error (.refused .notPermitted)
  | .directory _ => .error (.refused .isDirectory)

/-- The mode of a file after it was written in place: the marks by which it would
run as its owner, or as its group, are taken off. -/
def writtenMode (mode : Nat) : Nat :=
  let unowned := if mode.testBit 11 then mode - 0o4000 else mode
  if unowned.testBit 10 && unowned.testBit 3 then unowned - 0o2000 else unowned

/-- Writes a file in place; one that is there keeps its permissions. -/
def overwrite (d : Disk) (path : String) (content : ByteArray) : Except PathFault Disk := do
  let l ← d.locate path
  match d.look l with
  | some (.directory _) => .error (.refused .isDirectory)
  | some (.file _ mode) =>
    if d.permits l .write then pure (d.set l (.file content (writtenMode mode)))
    else .error (.refused .notPermitted)
  | none =>
    if d.changeable l.pop then pure (d.set l (.file content d.newFileMode))
    else .error (.refused .notPermitted)

/-- The first number that is no mode: a mode has three permissions each for the
owner, the group and all others, and three marks. -/
def modeLimit : Nat := 0o10000

/-- Changes the mode of a file or a directory to what of a number is a mode. -/
def chmod (d : Disk) (path : String) (number : Nat) : Except PathFault Disk := do
  let l ← d.locate path
  let mode := number % modeLimit
  match d.look l with
  | some (.directory _) => pure (d.set l (.directory mode))
  | some (.file content _) => pure (d.set l (.file content mode))
  | none => .error (.refused .noEntry)

/-- Removes a file. -/
def remove (d : Disk) (path : String) : Except PathFault Disk := do
  let l ← d.locate path
  match d.look l with
  | some (.directory _) => .error (.refused .isDirectory)
  | some (.file _ _) =>
    if d.changeable l.pop then pure (d.erase l) else .error (.refused .notPermitted)
  | none => .error (.refused .noEntry)

/-- A directory from which a walk does not go on as usual: it cannot read the names
in it, or not look them up. -/
def isBarrier : Node → Bool
  | .directory mode =>
    ! ((Node.directory mode).permits .read && (Node.directory mode).permits .search)
  | .file _ _ => false

/-- The walk does not get past a barrier to what a location holds: where names can
be read but not looked up, it still finds the directories right there. -/
def hides (barrier : Location × Node) (l : Location) (node : Node) : Bool :=
  barrier.1.isPrefixOf l && decide (barrier.1.size < l.size) &&
    ! (barrier.2.permits .read && decide (barrier.1.size + 1 = l.size) &&
      match node with
      | .directory _ => true
      | .file _ _ => false)

/-- The relative path of a location below the current directory; that of a
directory ends in a slash. -/
def relativePath (d : Disk) (l : Location) (node : Node) : String :=
  let path := "/".intercalate (l.toList.drop d.here.size)
  match node with
  | .directory _ => path ++ "/"
  | .file _ _ => path

/-- Everything that a walk from the current directory finds, in the order of
paths. -/
def listing (d : Disk) : List (String × Node) :=
  let barriers := d.entries.filter (isBarrier ·.2)
  let below := d.entries.filter fun e =>
    d.here.isPrefixOf e.1 && decide (d.here.size < e.1.size) &&
      ! barriers.any (hides · e.1 e.2)
  let below := below.map fun e => (d.relativePath e.1 e.2, e.2)
  below.mergeSort fun a b => decide (a.1 ≤ b.1)

end Disk

end SharpEmit
