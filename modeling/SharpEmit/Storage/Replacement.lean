/-
SharpEmit/Storage/Replacement.lean

Replacing a file as a whole.  The new contents go to a temporary file in the
same directory, whose absolute path must not be too long; it gets the mode of the
file that it replaces, and is renamed over it as the last step.  When a step
fails, the temporary file is removed and the file is as it was.
-/
import SharpEmit.Storage.Disk

namespace SharpEmit.Disk

/-! ### Steps -/

/-- The location that a path spells, by its text alone: `..` takes the name
before it away. -/
def spelled (d : Disk) (path : String) : Location :=
  (Path.names path).foldl
    (fun l name =>
      if name = "" ∨ name = "." then l else if name = ".." then l.pop else l.push name)
    (d.start path)

/-- The name of the `k`-th temporary file of a directory, with at least eight
digits. -/
def tempName (k : Nat) : String :=
  ".tmp-" ++ String.ofList ((Nat.toDigits 10 k).leftpad 8 '0') ++ ".part"

/-- The length of the absolute path of a temporary file in a directory, in bytes.
It does not hang on which names are free: they have eight digits. -/
def tempPathBytes (dir : Location) : Nat :=
  (Location.path (dir.push (tempName 0))).utf8ByteSize

/-- A location in a directory that holds nothing and is not the target. -/
def freshIn (d : Disk) (dir target : Location) : Location :=
  let free := (List.range (d.entries.length + 2)).find? fun k =>
    (d.look (dir.push (tempName k))).isNone && dir.push (tempName k) ≠ target
  dir.push (tempName (free.getD 0))

/-- The mode of a temporary file before it gets that of its target. -/
def tempMode (d : Disk) : Nat := granted d.umask 0o600

/-- The mode that a file written under a path should have: that of the file in
its place, or that of a new file. -/
def modeFor (d : Disk) (path : String) : Except PathFault Nat :=
  match d.stat path with
  | .ok node => .ok node.mode
  | .error (.refused .noEntry) => .ok d.newFileMode
  | .error fault => .error fault

/-- Moves what a location holds over the place that a path leads to. -/
def rename (d : Disk) (source : Location) (path : String) : Except PathFault Disk := do
  let l ← d.locate path
  match d.look source, d.look l with
  | none, _ => .error (.refused .noEntry)
  | _, some (.directory _) => .error (.refused .isDirectory)
  | some node, _ => pure ((d.set l node).erase source)

/-! ### Replacement -/

/-- Replaces the file at a path, or makes it. -/
def replace (d : Disk) (path : String) (content : ByteArray) : Except PathFault Unit × Disk :=
  let target := d.spelled path
  let temp := d.freshIn target.pop target
  if pathBytesLimit ≤ tempPathBytes target.pop then (.error (.refused .nameTooLong), d)
  else
    match target.pop.toList.foldlM d.enter #[] with
    | .error fault => (.error fault, d)
    | .ok dir =>
      if ¬ d.changeable dir then (.error (.refused .notPermitted), d)
      else
        let created := d.set temp (.file ByteArray.empty d.tempMode)
        let filled := created.set temp (.file content d.tempMode)
        match filled.modeFor path with
        | .error fault => (.error fault, filled.erase temp)
        | .ok mode =>
          let ready := filled.set temp (.file content mode)
          match ready.rename temp path with
          | .error fault => (.error fault, ready.erase temp)
          | .ok d => (.ok (), d)

end SharpEmit.Disk
