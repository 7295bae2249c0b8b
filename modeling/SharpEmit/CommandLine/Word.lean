/-
SharpEmit/CommandLine/Word.lean

The words of a command line and what each is: an option, perhaps with a value
attached, a value, or the mark `--` after which every word is a value.  A long
option may be cut short as long as only one option starts that way.
-/
import SharpEmit.CommandLine.Flag
import SharpEmit.Text.Digit

namespace SharpEmit.CommandLine

/-- A word by its role. -/
inductive Word where
  | value (text : String)
  | mark
  | option (flag : Flag) (spelling : String) (attached : Option String)
  | unknown (text : String)
deriving DecidableEq, Repr

/-! ### Shapes of words -/

/-- A negative number, which is a value and no option: a minus sign and digits,
perhaps with a point among or before them.  A line end may follow. -/
def isNegativeNumber (cs : List Char) : Bool :=
  match cs with
  | '-' :: body =>
    let rest := body.dropWhile Text.isDecimal
    let ends := fun cs => decide (cs = [] ∨ cs = ['\n'])
    match rest with
    | '.' :: rest =>
      rest.head?.any Text.isDecimal && ends (rest.dropWhile Text.isDecimal)
    | _ => body.head?.any Text.isDecimal && ends rest
  | _ => false

/-- A word at its first equals sign: what stands before it, and what stands after
it if there is one. -/
def splitEquals (word : String) : String × Option String :=
  let cs := word.toList
  match cs.dropWhile (· ≠ '=') with
  | [] => (word, none)
  | _ :: value => (String.ofList (cs.takeWhile (· ≠ '=')), some (String.ofList value))

/-- The word starts with two dashes. -/
def isLong (word : String) : Bool := "--".toList.isPrefixOf word.toList

/-- The options that a word may stand for, with the value attached to it: a cut
long option, or a short option with more characters after it. -/
def candidates (word : String) : List (Flag × String × Option String) :=
  if isLong word then
    let (name, attached) := splitEquals word
    (spellings.filter fun s => name.toList.isPrefixOf s.1.toList).map fun s => (s.2, s.1, attached)
  else
    let short := String.ofList (word.toList.take 2)
    (spellings.filter (·.1 = short)).map fun s =>
      (s.2, s.1, some (String.ofList (word.toList.drop 2)))

/-! ### Roles -/

/-- What a word is that no option is spelled like. -/
def otherRole (word : String) : Except UsageError Word :=
  match candidates word with
  | [(flag, spelling, attached)] => .ok (.option flag spelling attached)
  | [] =>
    if isNegativeNumber word.toList || word.toList.contains ' ' then .ok (.value word)
    else .ok (.unknown word)
  | many => .error (.ambiguous word (many.map (·.2.1)))

/-- What a word before the mark is. -/
def roleOf (word : String) : Except UsageError Word :=
  if word.toList.head? ≠ some '-' then .ok (.value word)
  else
    match Flag.ofSpelling? word with
    | some flag => .ok (.option flag word none)
    | none =>
      if word = "-" then .ok (.value word)
      else
        let (name, attached) := splitEquals word
        match Flag.ofSpelling? name, attached with
        | some flag, some value => .ok (.option flag name (some value))
        | _, _ => otherRole word

/-- The roles of all words. -/
def rolesOf : List String → Except UsageError (List Word)
  | [] => .ok []
  | "--" :: rest => .ok (.mark :: rest.map .value)
  | word :: rest => do
    let role ← roleOf word
    let roles ← rolesOf rest
    pure (role :: roles)

end SharpEmit.CommandLine
