/-
SharpEmit/Conversion/Single.lean

Converting one declaration into at most one file.  The steps are: decide
whether the type is skipped, render it, make the directory, replace the file.
Nothing is written before the rendering has succeeded.
-/
import SharpEmit.Conversion.Journal
import SharpEmit.Rendering.Target
import SharpEmit.Storage.Replacement

namespace SharpEmit.Conversion

/-! ### Outcomes -/

/-- Why a type is skipped. -/
inductive SkipReason where
  | explicit
  | alreadyConverted
deriving DecidableEq, Repr

/-- The word for a reason. -/
def SkipReason.word : SkipReason → String
  | .explicit => "explicit"
  | .alreadyConverted => "already-converted"

/-- A finished conversion: the type was skipped for a reason, or written. -/
structure Result where
  name : String
  path : String
  skipped : Option SkipReason
deriving DecidableEq, Repr

/-- What ends a conversion without a result: a failure of this type, or a fault
that ends the whole run. -/
inductive Abort where
  | failed (failure : Failure)
  | nullCharacter
  | misuse (fault : LineBuffer.Misuse)
deriving DecidableEq, Repr

/-- What an activity comes to: a value, the disk it leaves and what it told. -/
structure Run (α : Type) where
  value : α
  disk : Disk
  events : List Event

/-! ### Steps -/

/-- Why a declaration must not be converted to the given path, if so: a tag
forbids it, or allows it only while nothing is there. -/
def skipReason (disk : Disk) (d : Declaration) (path : String) : Option SkipReason :=
  if Declaration.neverTag ∈ d.tags then some .explicit
  else if Declaration.onceTag ∈ d.tags ∧ disk.holds path then some .alreadyConverted
  else none

/-- What is told of a skipped type. -/
def skipEvent (d : Declaration) (path : String) : SkipReason → Event
  | .explicit => .neverConverted d.name
  | .alreadyConverted => .kept d.name path

/-- Renders a declaration. -/
def generate (t : Target) (d : Declaration) : Except Failure LineBuffer :=
  (t.render d).mapError fun e => ⟨d.name, .unrendered e⟩

/-- Makes the directory of a path. -/
def place (disk : Disk) (d : Declaration) (path : String) : Except Abort Unit × Disk :=
  match disk.makeDirs (Path.parent path) with
  | (.ok (), disk) => (.ok (), disk)
  | (.error .nullCharacter, disk) => (.error .nullCharacter, disk)
  | (.error (.refused r), disk) => (.error (.failed ⟨d.name, .uncreated (Path.parent path) r⟩), disk)

/-- Writes the text of a buffer to a path. -/
def store (disk : Disk) (d : Declaration) (path : String) (b : LineBuffer) :
    Except Abort Unit × Disk :=
  match b.complete with
  | .error fault => (.error (.misuse fault), disk)
  | .ok text =>
    match disk.replace path text.toUTF8 with
    | (.ok (), disk) => (.ok (), disk)
    | (.error .nullCharacter, disk) => (.error .nullCharacter, disk)
    | (.error (.refused r), disk) => (.error (.failed ⟨d.name, .unwritten path r⟩), disk)

/-! ### Conversion -/

/-- Converts a declaration. -/
def convert (t : Target) (root : String) (disk : Disk) (d : Declaration) :
    Run (Except Abort Result) :=
  let path := t.outputPath root d
  match skipReason disk d path with
  | some reason => ⟨.ok ⟨d.name, path, some reason⟩, disk, [skipEvent d path reason]⟩
  | none =>
    match generate t d with
    | .error failure => ⟨.error (.failed failure), disk, []⟩
    | .ok buffer =>
      match place disk d path with
      | (.error abort, disk) => ⟨.error abort, disk, []⟩
      | (.ok (), disk) =>
        match store disk d path buffer with
        | (.error abort, disk) => ⟨.error abort, disk, []⟩
        | (.ok (), disk) => ⟨.ok ⟨d.name, path, none⟩, disk, [.wrote path]⟩

/-- Converts declarations in turn, up to the first that has no result. -/
def convertEach (t : Target) (root : String) (disk : Disk) :
    List Declaration → Run (Except Abort (List Result))
  | [] => ⟨.ok [], disk, []⟩
  | d :: rest =>
    let first := convert t root disk d
    match first.value with
    | .error abort => ⟨.error abort, first.disk, first.events⟩
    | .ok result =>
      let others := convertEach t root first.disk rest
      ⟨(result :: ·) <$> others.value, others.disk, first.events ++ others.events⟩

end SharpEmit.Conversion
