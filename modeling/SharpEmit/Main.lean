/-
SharpEmit/Main.lean

The command line program on the disk of the machine.  The places on which a run
depends are copied to a disk of the library, the run takes place there, and what
it changed is carried over.
-/
import SharpEmit.CommandLine.Program

namespace SharpEmit.Main

open CommandLine

/-! ### The machine's disk -/

/-- Copies what a location of the machine holds. -/
def observe (disk : Disk) (l : Location) : IO Disk := do
  let place := (← IO.currentDir) / l.path
  if ← place.isDir then pure (disk.set l (.directory disk.newDirMode))
  else if ← place.pathExists then
    pure (disk.set l (.file (← IO.FS.readBinFile place) disk.newFileMode))
  else pure disk

/-- Copies what a path and the directories above it hold. -/
def observePath (disk : Disk) (path : String) : IO Disk :=
  if path.toList.contains '\x00' then pure disk
  else (Path.lineage path).reverse.foldlM (fun disk p => observe disk (disk.spelled p)) disk

/-- The disk of the machine, as far as a run depends on it. -/
def snapshot (words : List String) : IO Disk := do
  let here := ((Path.names (← IO.currentDir).toString).filter (· ≠ "")).toArray
  let above := (List.range here.size).map fun k => here.take (k + 1)
  let disk := above.foldl (fun disk l => disk.set l (.directory disk.newDirMode)) ({ here } : Disk)
  let disk ← (watchedPaths disk words).foldlM observePath disk
  (watchedPaths disk words).foldlM observePath disk

/-- Replaces a file as a whole: its contents go to a temporary file beside it, which is
renamed over it as the last step and removed if a step fails.  The machine does not
tell the mode of a file, so the new one has that of any new file. -/
def carryFile (disk : Disk) (l : Location) (content : ByteArray) : IO Unit := do
  let temp := (← IO.currentDir) / (disk.freshIn l.pop l).path
  try
    IO.FS.writeBinFile temp content
    IO.FS.rename temp l.path
  catch fault =>
    if ← temp.pathExists then IO.FS.removeFile temp
    throw fault

/-- Carries what a run changed over to the machine. -/
def carryOver (before after : Disk) : IO Unit :=
  after.entries.forM fun (l, node) => do
    if before.look l ≠ some node then
      match node with
      | .directory _ => IO.FS.createDirAll l.path
      | .file content _ => carryFile before l content

end SharpEmit.Main

/-- Runs the program with the words after its name. -/
def main (words : List String) : IO UInt32 := do
  let before ← SharpEmit.Main.snapshot words
  let console := SharpEmit.CommandLine.run before words
  SharpEmit.Main.carryOver before console.disk
  IO.print console.out
  IO.eprint console.err
  match console.exit with
  | .ok code => pure code.toUInt32
  | .error crash =>
    IO.eprintln crash.message
    pure 1
