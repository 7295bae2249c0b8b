/-
SharpEmit/CommandLine/Program.lean

The command line program on a disk: it loads the declarations of the input,
converts them and says how many were written, or shows their text in a dry run.
-/
import SharpEmit.CSharp.Target
import SharpEmit.CommandLine.Settings
import SharpEmit.Conversion.Batch
import SharpEmit.Document.Reader

namespace SharpEmit.CommandLine

open Conversion

/-! ### Texts -/

/-- The name under which the program is called. -/
def programName : String := "as2cs.py"

/-- Lines as a text. -/
def ofLines (lines : List String) : String := String.join (lines.map (· ++ "\n"))

/-- How the program is called. -/
def usageText : String :=
  ofLines
    ["usage: as2cs.py [-h] [-o OUTPUT] [--fail-fast] [-j JOBS]",
    "                [--getter-prefix GETTER_PREFIX]",
    "                [--setter-prefix SETTER_PREFIX]",
    "                [--default-namespace DEFAULT_NAMESPACE] [--dry-run] [-v]",
    "                input"]

/-- What the program does and what its options mean. -/
def helpText : String :=
  usageText ++ ofLines
    ["",
    "ActionScript to C# class emitter",
    "",
    "positional arguments:",
    "  input                 JSON file with resolved type declarations",
    "",
    "options:",
    "  -h, --help            show this help message and exit",
    "  -o OUTPUT, --output OUTPUT",
    "                        Output root directory (default: out)",
    "  --fail-fast           Stop at the first type that fails to convert",
    "  -j JOBS, --jobs JOBS  Convert this many types in parallel",
    "  --getter-prefix GETTER_PREFIX",
    "                        Prefix for getter method names (default: get)",
    "  --setter-prefix SETTER_PREFIX",
    "                        Prefix for setter method names (default: set)",
    "  --default-namespace DEFAULT_NAMESPACE",
    "                        Namespace for types without a package",
    "  --dry-run             Print the C# source instead of writing files",
    "  -v, --verbose         Log skipped types (-v) and written files (-vv)"]

/-! ### Runs -/

/-- A fault that ends the program without an exit code of its own. -/
inductive Crash where
  | unreadable (path : String) (refusal : Refusal)
  | nullCharacter
  | document (error : Document.LoadError)
  | misuse (fault : LineBuffer.Misuse)
  | noOutput
  | noWorkers

/-- The fault in words. -/
def Crash.message : Crash → String
  | .unreadable path refusal =>
    "[Errno " ++ toString refusal.number ++ "] " ++ refusal.text ++ ": " ++ Text.quoted path
  | .nullCharacter => nullCharacterText
  | .document error => error.message
  | .misuse fault => fault.message
  | .noOutput => "expected str, bytes or os.PathLike object, not list"
  | .noWorkers => "'<=' not supported between instances of 'list' and 'int'"

/-- What a run of the program leaves: its exit code, its output, and the disk. -/
structure Console where
  exit : Except Crash Nat
  out : String := ""
  err : String := ""
  disk : Disk

/-- Whether the journal shows an event: failures always, skipped types and
written files when the user asks for them. -/
def shows (verbose : Nat) (e : Event) : Bool :=
  match e.level with
  | .error => true
  | .info => 1 ≤ verbose
  | .debug => 2 ≤ verbose

/-- The lines of the journal that are shown. -/
def journalText (verbose : Nat) (events : List Event) : String :=
  ofLines ((events.filter (shows verbose)).map Event.line)

/-- A line that says why the program stops. -/
def errorLine (text : String) : String := "error: " ++ text ++ "\n"

/-- What is said of a finished batch. -/
def summaryLine (output : String) (r : Report) : String :=
  "Converted " ++ toString r.written.length ++ " type(s), skipped " ++ toString r.skipped.length ++
    ", failed " ++ toString r.failures.length ++ " → " ++ output ++ "\n"

/-- Shows the text of each declaration, those never converted left out. -/
def dryRun (t : Target) (failFast : Bool) (disk : Disk) : List Declaration → Console
  | [] => { exit := .ok 0, disk }
  | d :: rest =>
    if Declaration.neverTag ∈ d.tags then dryRun t failFast disk rest
    else
      match generate t d with
      | .ok buffer =>
        let others := dryRun t failFast disk rest
        { others with out := buffer.text ++ others.out }
      | .error failure =>
        if failFast then { exit := .ok 1, err := errorLine failure.message, disk }
        else
          let others := dryRun t failFast disk rest
          { others with exit := .ok 1, err := errorLine failure.message ++ others.err }

/-- Converts the declarations to an output root and says what came of it. -/
def convertInto (t : Target) (root : String) (jobs : Int) (o : Options) (disk : Disk)
    (ds : List Declaration) : Console :=
  let run := convertAll t root o.failFast jobs disk ds
  let journal := journalText o.verbose run.events
  match run.value with
  | .ok report =>
    { exit := .ok (if report.ok then 0 else 1), out := summaryLine root report, err := journal,
      disk := run.disk }
  | .error (.failed failure) =>
    { exit := .ok 1, err := journal ++ errorLine failure.message, disk := run.disk }
  | .error .nullCharacter => { exit := .error .nullCharacter, err := journal, disk := run.disk }
  | .error (.misuse fault) => { exit := .error (.misuse fault), err := journal, disk := run.disk }

/-- Converts the declarations.  The number of workers is needed in any case, the
output root as soon as there is something to convert. -/
def convertRun (t : Target) (o : Options) (disk : Disk) (ds : List Declaration) : Console :=
  match o.jobs, o.output, ds with
  | none, _, _ => { exit := .error .noWorkers, disk }
  | some _, none, [] => { exit := .ok 0, out := summaryLine missingText {}, disk }
  | some _, none, _ :: _ => { exit := .error .noOutput, disk }
  | some jobs, some root, ds => convertInto t root jobs o disk ds

/-- Loads the declarations of the input. -/
def loadInput (disk : Disk) (input : String) : Except Crash (Except String (List Declaration)) :=
  match disk.read input with
  | .error (.refused .noEntry) => .ok (.error ("file '" ++ input ++ "' not found"))
  | .error (.refused refusal) => .error (.unreadable input refusal)
  | .error .nullCharacter => .error .nullCharacter
  | .ok bytes =>
    match Document.loadBytes bytes with
    | .ok ds => .ok (.ok ds)
    | .error (.rejected problem place) =>
      .ok (.error (input ++ ": " ++ (Document.LoadError.rejected problem place).message))
    | .error error => .error (.document error)

/-- Runs the program with settings. -/
def runWith (disk : Disk) (s : Settings) : Console :=
  match loadInput disk s.input with
  | .error crash => { exit := .error crash, disk }
  | .ok (.error text) => { exit := .ok 1, err := errorLine text, disk }
  | .ok (.ok ds) =>
    let t := CSharp.target s.options.naming
    if s.options.dryRun then dryRun t s.options.failFast disk ds
    else convertRun t s.options disk ds

/-- The paths on which a run depends: the input and, once its contents are on the
disk, the file of each type. -/
def watchedPaths (disk : Disk) (words : List String) : List String :=
  match Settings.ofWords words with
  | .error _ => []
  | .ok s =>
    let ds :=
      match loadInput disk s.input with
      | .ok (.ok ds) => ds
      | _ => []
    match s.options.output with
    | none => [s.input]
    | some root => s.input :: ds.map ((CSharp.target s.options.naming).outputPath root)

/-- Runs the program with the words of a command line. -/
def run (disk : Disk) (words : List String) : Console :=
  match Settings.ofWords words with
  | .error .help => { exit := .ok 0, out := helpText, disk }
  | .error (.misuse error) =>
    { exit := .ok 2, err := usageText ++ programName ++ ": error: " ++ error.message ++ "\n", disk }
  | .ok settings => runWith disk settings

end SharpEmit.CommandLine
