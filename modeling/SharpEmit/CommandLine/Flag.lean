/-
SharpEmit/CommandLine/Flag.lean

The options of the command line, their spellings, and what can be wrong with
the words of a command line.
-/
import SharpEmit.Text.Quoted

namespace SharpEmit.CommandLine

/-! ### Options -/

/-- An option. -/
inductive Flag where
  | help
  | output
  | failFast
  | jobs
  | getterPrefix
  | setterPrefix
  | defaultNamespace
  | dryRun
  | verbose
deriving DecidableEq, Repr

/-- Every spelling of every option. -/
def spellings : List (String × Flag) :=
  [("-h", .help), ("--help", .help), ("-o", .output), ("--output", .output),
    ("--fail-fast", .failFast), ("-j", .jobs), ("--jobs", .jobs),
    ("--getter-prefix", .getterPrefix), ("--setter-prefix", .setterPrefix),
    ("--default-namespace", .defaultNamespace), ("--dry-run", .dryRun), ("-v", .verbose),
    ("--verbose", .verbose)]

/-- The option with a spelling. -/
def Flag.ofSpelling? (s : String) : Option Flag := spellings.lookup s

/-- The option takes a value. -/
def Flag.takesValue : Flag → Bool
  | .output | .jobs | .getterPrefix | .setterPrefix | .defaultNamespace => true
  | .help | .failFast | .dryRun | .verbose => false

/-- The option by all its spellings, as messages name it. -/
def Flag.label (f : Flag) : String :=
  "/".intercalate ((spellings.filter (·.2 = f)).map (·.1))

/-! ### Misuse -/

/-- What is wrong with a command line. -/
inductive UsageError where
  | ambiguous (word : String) (candidates : List String)
  | missingValue (flag : Flag)
  | unwantedValue (flag : Flag) (value : String)
  | notInteger (flag : Flag) (value : String)
  | missingInput
  | unrecognized (words : List String)
deriving DecidableEq, Repr

/-- A message about an option. -/
def Flag.about (f : Flag) (text : String) : String := "argument " ++ f.label ++ ": " ++ text

/-- The misuse in words. -/
def UsageError.message : UsageError → String
  | .ambiguous word candidates =>
    "ambiguous option: " ++ word ++ " could match " ++ ", ".intercalate candidates
  | .missingValue flag => flag.about "expected one argument"
  | .unwantedValue flag value => flag.about ("ignored explicit argument " ++ Text.quoted value)
  | .notInteger flag value => flag.about ("invalid int value: " ++ Text.quoted value)
  | .missingInput => "the following arguments are required: input"
  | .unrecognized words => "unrecognized arguments: " ++ " ".intercalate words

end SharpEmit.CommandLine
