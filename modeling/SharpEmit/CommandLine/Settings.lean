/-
SharpEmit/CommandLine/Settings.lean

From the words of a command line to the settings of a run.  Options may stand
anywhere, and the last of repeated ones counts; the first value that no option
takes is the input.  Short options without values may share a dash with the
option after them.  The mark `--` is never a value: an option to which it is
attached is left without one.
-/
import SharpEmit.CSharp.Naming
import SharpEmit.CommandLine.Word
import SharpEmit.Text.Integer

namespace SharpEmit.CommandLine

/-! ### Settings -/

/-- What the options of a command line decide.  The output root or the number of
workers is missing when its option was left without a value. -/
structure Options where
  output : Option String := some "out"
  failFast : Bool := false
  jobs : Option Int := some 1
  naming : CSharp.Naming := {}
  dryRun : Bool := false
  verbose : Nat := 0
deriving DecidableEq, Repr

/-- The settings of a run. -/
structure Settings where
  input : String
  options : Options
deriving DecidableEq, Repr

/-- Why there is nothing to run: the user asks for help, or misuses the command
line. -/
inductive Stop where
  | help
  | misuse (error : UsageError)
deriving DecidableEq, Repr

/-- What has been read of a command line. -/
structure Draft where
  options : Options := {}
  input : Option String := none
  unrecognized : List String := []
deriving DecidableEq, Repr

/-- A word that nothing takes. -/
def Draft.leave (s : Draft) (word : String) : Draft :=
  { s with unrecognized := s.unrecognized ++ [word] }

/-! ### Options -/

/-- The options in one word: those before the last, which take no value, then
the last with the value attached to it. -/
structure Bundle where
  before : List Flag := []
  last : Flag
  attached : Option String := none
deriving DecidableEq, Repr

/-- The options in the characters after a short option. -/
def unbundle (flag : Flag) : List Char → Except UsageError Bundle
  | [] => .error (.unwantedValue flag "")
  | c :: rest =>
    if flag.takesValue then .ok { last := flag, attached := some (String.ofList (c :: rest)) }
    else
      match Flag.ofSpelling? (String.ofList ['-', c]) with
      | none => .error (.unwantedValue flag (String.ofList (c :: rest)))
      | some next =>
        if rest.isEmpty then .ok { before := [flag], last := next }
        else do
          let bundle ← unbundle next rest
          pure { bundle with before := flag :: bundle.before }

/-- The options in one word. -/
def bundleOf (flag : Flag) (spelling : String) (attached : Option String) :
    Except UsageError Bundle :=
  match attached with
  | none => .ok { last := flag }
  | some value =>
    if flag.takesValue then .ok { last := flag, attached := some value }
    else if isLong spelling then .error (.unwantedValue flag value)
    else unbundle flag value.toList

/-- The value in the text attached to an option: the mark `--` is none. -/
def attachedValue (text : String) : Option String := if text = "--" then none else some text

/-- What a text shows in the place of a missing value. -/
def missingText : String := "[]"

/-- Takes an option, with its value if it has one. -/
def Draft.take (s : Draft) (flag : Flag) (value : Option String) : Except Stop Draft :=
  let o := s.options
  let set := fun (o : Options) => Except.ok { s with options := o }
  match flag with
  | .help => .error .help
  | .output => set { o with output := value }
  | .failFast => set { o with failFast := true }
  | .jobs =>
    match value with
    | none => set { o with jobs := none }
    | some text =>
      match Text.integer? text with
      | some n => set { o with jobs := some n }
      | none => .error (.misuse (.notInteger flag text))
  | .getterPrefix => set { o with naming := { o.naming with getterPrefix := value.getD "" } }
  | .setterPrefix => set { o with naming := { o.naming with setterPrefix := value.getD "" } }
  | .defaultNamespace =>
    set { o with naming := { o.naming with defaultNamespace := value.getD missingText } }
  | .dryRun => set { o with dryRun := true }
  | .verbose => set { o with verbose := o.verbose + 1 }

/-- Takes the options of one word in order. -/
def Draft.takeBundle (s : Draft) (b : Bundle) (value : Option String) : Except Stop Draft := do
  let s ← b.before.foldlM (fun s flag => s.take flag none) s
  s.take b.last value

/-! ### Command lines -/

/-- Reads words by their roles. -/
def Draft.read (s : Draft) : List Word → Except Stop Draft
  | [] => .ok s
  | .value text :: rest =>
    match s.input, rest with
    | none, .mark :: rest => { s with input := some text }.read rest
    | none, rest => { s with input := some text }.read rest
    | some _, rest => (s.leave text).read rest
  | .mark :: rest =>
    match s.input, rest with
    | none, .value text :: rest => { s with input := some text }.read rest
    | _, rest => (s.leave "--").read rest
  | .unknown text :: rest => (s.leave text).read rest
  | .option flag spelling attached :: rest =>
    match bundleOf flag spelling attached with
    | .error e => .error (.misuse e)
    | .ok bundle =>
      match bundle.last.takesValue, bundle.attached, rest with
      | true, none, .value text :: rest => do (← s.takeBundle bundle (some text)).read rest
      | true, none, _ => .error (.misuse (.missingValue bundle.last))
      | _, text, rest => do (← s.takeBundle bundle (text.bind attachedValue)).read rest

/-- The settings in the words of a command line. -/
def Settings.ofWords (words : List String) : Except Stop Settings := do
  let roles ← (rolesOf words).mapError .misuse
  let s ← ({} : Draft).read roles
  match s.input with
  | none => .error (.misuse .missingInput)
  | some input =>
    if s.unrecognized.isEmpty then pure { input, options := s.options }
    else .error (.misuse (.unrecognized s.unrecognized))

end SharpEmit.CommandLine
