/-
SharpEmit/LineBuffer.lean

A text under construction, line by line, with nested blocks.  A line takes the
indentation of the block it ends in; an empty line takes none.  The text is
complete when every block is closed.
-/

namespace SharpEmit

/-- Lines written so far, the unfinished line after them, and the depth of open
blocks. -/
structure LineBuffer where
  indentUnit : String := "    "
  level : Nat := 0
  lines : List String := []
  pending : String := ""
deriving DecidableEq, Repr

namespace LineBuffer

/-! ### Faults -/

/-- A misuse of blocks. -/
inductive Misuse where
  | unmatchedClose
  | leftOpen (count : Nat)
deriving DecidableEq, Repr

/-- The misuse in words. -/
def Misuse.message : Misuse → String
  | .unmatchedClose => "block_close() without matching block_open()"
  | .leftOpen count => toString count ++ " block(s) left open"

/-! ### Writing -/

/-- The indentation of a block depth. -/
def indent (b : LineBuffer) : String := String.join (List.replicate b.level b.indentUnit)

/-- Adds to the unfinished line. -/
def write (b : LineBuffer) (text : String) : LineBuffer :=
  { b with pending := b.pending ++ text }

/-- Ends the unfinished line with a text. -/
def writeln (b : LineBuffer) (text : String) : LineBuffer :=
  let content := b.pending ++ text
  let line := if content = "" then "" else b.indent ++ content
  { b with lines := b.lines ++ [line], pending := "" }

/-- An empty line, or the end of an unfinished one. -/
def blankLine (b : LineBuffer) : LineBuffer := b.writeln ""

/-- Writes each text as a line. -/
def writeLines (b : LineBuffer) (texts : List String) : LineBuffer := texts.foldl writeln b

/-- Opens a block. -/
def openBlock (b : LineBuffer) : LineBuffer :=
  let b := b.writeln "\x7b"
  { b with level := b.level + 1 }

/-- Closes the innermost block. -/
def closeBlock (b : LineBuffer) : Except Misuse LineBuffer :=
  if b.level = 0 then .error .unmatchedClose
  else .ok ({ b with level := b.level - 1 }.writeln "\x7d")

/-! ### Calls -/

/-- What can be asked of a buffer. -/
inductive Call where
  | write (text : String)
  | writeln (text : String)
  | blankLine
  | writeLines (texts : List String)
  | openBlock
  | closeBlock
deriving DecidableEq, Repr

/-- Carries out a call, or says why it is refused. -/
def perform (b : LineBuffer) : Call → Except Misuse LineBuffer
  | .write text => .ok (b.write text)
  | .writeln text => .ok (b.writeln text)
  | .blankLine => .ok b.blankLine
  | .writeLines texts => .ok (b.writeLines texts)
  | .openBlock => .ok b.openBlock
  | .closeBlock => b.closeBlock

/-- The buffer after a call; one that is refused leaves it as it is. -/
def after (b : LineBuffer) (call : Call) : LineBuffer :=
  match b.perform call with
  | .ok next => next
  | .error _ => b

/-- The buffer after one call after the other. -/
def run (b : LineBuffer) (calls : List Call) : LineBuffer := calls.foldl after b

/-! ### The text -/

/-- The text: every line ended, the unfinished one included if it has begun. -/
def text (b : LineBuffer) : String :=
  let all := b.lines ++ if b.pending = "" then [] else [b.pending]
  "\n".intercalate all ++ "\n"

/-- The text, once every block is closed. -/
def complete (b : LineBuffer) : Except Misuse String :=
  if b.level = 0 then .ok b.text else .error (.leftOpen b.level)

end LineBuffer

end SharpEmit
