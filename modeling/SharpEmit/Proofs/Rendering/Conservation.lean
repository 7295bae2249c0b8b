/-
SharpEmit/Proofs/Rendering/Conservation.lean

What a buffer keeps of what is written on it.  A buffer advances by ending lines and taking in
text (`Advances`): the new lines come after the stored ones, each indented by the level in
force at its end, and what was pending, with the text that is taken in after it, is found
again in the contents of the new lines and in what is pending then.  Advances compose
(`Advances.trans`), and ending a line is one, so each call that is carried out is one
(`advances_perform`) and so is every run (`advances_run`).

Main result: on a fresh buffer, after any calls, the level is the number of blocks opened less
the number of blocks closed, nothing is refused but to close a block where none is open, the
stored lines stay, and no text is lost (`run_fresh_accounts`).
-/
import SharpEmit.LineBuffer

namespace SharpEmit.LineBuffer

/-! ### What calls do -/

/-- A buffer on which nothing has been written. -/
def fresh (unit : String) : LineBuffer := { indentUnit := unit }

/-- The text that a call hands over. -/
def Call.text : Call → String
  | .write text => text
  | .writeln text => text
  | .blankLine => ""
  | .writeLines texts => String.join texts
  | .openBlock => "\x7b"
  | .closeBlock => "\x7d"

/-- The calls of a run that are carried out. -/
def accepted (b : LineBuffer) : List Call → List Call
  | [] => []
  | call :: calls =>
    match b.perform call with
    | .ok next => call :: next.accepted calls
    | .error _ => b.accepted calls

/-- A line that has ended: the level in force at its end, and its content. -/
structure EndedLine where
  level : Nat
  content : String
deriving DecidableEq, Repr

/-- The line as it is stored: empty, or the unit as often as the level says and the content. -/
def EndedLine.stored (unit : String) (line : EndedLine) : String :=
  if line.content = "" then "" else String.join (List.replicate line.level unit) ++ line.content

/-- The lines that a call ends.  What is pending goes into the first of them; both braces of a
block stand outside it. -/
def ending (b : LineBuffer) : Call → List EndedLine
  | .write _ => []
  | .writeln text => [⟨b.level, b.pending ++ text⟩]
  | .blankLine => [⟨b.level, b.pending⟩]
  | .writeLines [] => []
  | .writeLines (text :: texts) => ⟨b.level, b.pending ++ text⟩ :: texts.map (.mk b.level)
  | .openBlock => [⟨b.level, b.pending ++ "\x7b"⟩]
  | .closeBlock => if b.level = 0 then [] else [⟨b.level - 1, b.pending ++ "\x7d"⟩]

/-- The lines that the calls of a run end. -/
def ended (b : LineBuffer) : List Call → List EndedLine
  | [] => []
  | call :: calls => b.ending call ++ (b.after call).ended calls

variable {b b' b'' : LineBuffer} {call : Call} {misuse : Misuse}

/-! ### Refusal -/

theorem closeBlock_eq_error_iff :
    b.closeBlock = .error misuse ↔ b.level = 0 ∧ misuse = .unmatchedClose := by
  by_cases hlevel : b.level = 0
  · rw [closeBlock, if_pos hlevel]
    simp [hlevel, eq_comm]
  · rw [closeBlock, if_neg hlevel]
    simp [hlevel]

theorem closeBlock_eq_ok_iff :
    b.closeBlock = .ok b' ↔
      b.level ≠ 0 ∧ { b with level := b.level - 1 }.writeln "\x7d" = b' := by
  by_cases hlevel : b.level = 0
  · rw [closeBlock, if_pos hlevel]
    simp [hlevel]
  · rw [closeBlock, if_neg hlevel]
    simp [hlevel]

/-- The only call that is refused is to close a block where none is open. -/
theorem perform_eq_error_iff :
    b.perform call = .error misuse ↔
      call = .closeBlock ∧ b.level = 0 ∧ misuse = .unmatchedClose := by
  cases call with
  | closeBlock => simp [perform, closeBlock_eq_error_iff]
  | _ => simp [perform]

theorem after_of_ok (h : b.perform call = .ok b') : b.after call = b' := by
  rw [after, h]

theorem after_of_error (h : b.perform call = .error misuse) : b.after call = b := by
  rw [after, h]

theorem accepted_of_ok (h : b.perform call = .ok b') (calls : List Call) :
    b.accepted (call :: calls) = call :: b'.accepted calls := by
  rw [accepted, h]

theorem accepted_of_error (h : b.perform call = .error misuse) (calls : List Call) :
    b.accepted (call :: calls) = b.accepted calls := by
  rw [accepted, h]

/-- A call that is refused ends no line. -/
theorem ending_of_error (h : b.perform call = .error misuse) : b.ending call = [] := by
  obtain ⟨rfl, hlevel, -⟩ := perform_eq_error_iff.mp h
  rw [ending, if_pos hlevel]

/-! ### Advances -/

/-- From the first buffer to the second, lines have ended and a text has been taken in. -/
structure Advances (b b' : LineBuffer) (ended : List EndedLine) (text : String) : Prop where
  unit : b'.indentUnit = b.indentUnit
  lines : b'.lines = b.lines ++ ended.map (EndedLine.stored b.indentUnit)
  text : String.join (ended.map EndedLine.content) ++ b'.pending = b.pending ++ text

theorem Advances.refl (b : LineBuffer) : Advances b b [] "" where
  unit := rfl
  lines := by simp
  text := by simp

theorem Advances.trans {ended ended' : List EndedLine} {text text' : String}
    (h : Advances b b' ended text) (h' : Advances b' b'' ended' text') :
    Advances b b'' (ended ++ ended') (text ++ text') where
  unit := h'.unit.trans h.unit
  lines := by rw [h'.lines, h.lines, h.unit, List.map_append, List.append_assoc]
  text := by
    rw [List.map_append, String.join_append, String.append_assoc, h'.text, ← String.append_assoc,
      h.text, String.append_assoc]

theorem advances_write (b : LineBuffer) (text : String) : Advances b (b.write text) [] text where
  unit := rfl
  lines := by simp [write]
  text := by simp [write]

theorem advances_writeln (b : LineBuffer) (text : String) :
    Advances b (b.writeln text) [⟨b.level, b.pending ++ text⟩] text where
  unit := rfl
  lines := rfl
  text := by simp [writeln]

/-- Where nothing is pending, the lines are the texts. -/
theorem ending_writeLines (h : b.pending = "") (texts : List String) :
    b.ending (.writeLines texts) = texts.map (.mk b.level) := by
  cases texts with
  | nil => rfl
  | cons text texts => rw [ending, h, String.empty_append, List.map_cons]

/-- By induction on the texts: after the first of them nothing is pending. -/
theorem advances_writeLines (b : LineBuffer) (texts : List String) :
    Advances b (b.writeLines texts) (b.ending (.writeLines texts)) (String.join texts) := by
  induction texts generalizing b with
  | nil => exact .refl b
  | cons text texts ih =>
    have hrest := ih (b.writeln text)
    rw [ending_writeLines rfl] at hrest
    rw [String.join_cons]
    exact (advances_writeln b text).trans hrest

/-- A call that is carried out takes in its text. -/
theorem advances_perform (h : b.perform call = .ok b') :
    Advances b b' (b.ending call) call.text := by
  cases call with
  | write text =>
    cases h
    exact advances_write b text
  | writeln text =>
    cases h
    exact advances_writeln b text
  | blankLine =>
    cases h
    have hline := advances_writeln b ""
    rw [String.append_empty] at hline
    exact hline
  | writeLines texts =>
    cases h
    exact advances_writeLines b texts
  | openBlock =>
    cases h
    -- the level changes after the line has ended
    obtain ⟨hunit, hlines, htext⟩ := advances_writeln b "\x7b"
    exact ⟨hunit, hlines, htext⟩
  | closeBlock =>
    -- the level changes before the line ends
    obtain ⟨hlevel, rfl⟩ := closeBlock_eq_ok_iff.mp h
    obtain ⟨hunit, hlines, htext⟩ := advances_writeln { b with level := b.level - 1 } "\x7d"
    rw [ending, if_neg hlevel]
    exact ⟨hunit, hlines, htext⟩

/-! ### Levels -/

theorem level_writeLines (b : LineBuffer) (texts : List String) :
    (b.writeLines texts).level = b.level := by
  induction texts generalizing b with
  | nil => rfl
  | cons text texts ih => exact ih (b.writeln text)

/-- A call that is carried out changes the level by the block that it opens or closes. -/
theorem level_perform (h : b.perform call = .ok b') :
    (b'.level + if call == .closeBlock then 1 else 0) =
      b.level + if call == .openBlock then 1 else 0 := by
  cases call with
  | closeBlock =>
    obtain ⟨hlevel, rfl⟩ := closeBlock_eq_ok_iff.mp h
    show b.level - 1 + 1 = b.level
    omega
  | writeLines texts =>
    cases h
    exact level_writeLines b texts
  | _ =>
    cases h
    rfl

/-! ### Runs -/

theorem run_cons (b : LineBuffer) (call : Call) (calls : List Call) :
    b.run (call :: calls) = (b.after call).run calls := rfl

theorem run_append (b : LineBuffer) (calls more : List Call) :
    b.run (calls ++ more) = (b.run calls).run more :=
  List.foldl_append

/-- By induction on the calls: a call that is refused adds no line and no text. -/
theorem advances_run (b : LineBuffer) (calls : List Call) :
    Advances b (b.run calls) (b.ended calls)
      (String.join ((b.accepted calls).map Call.text)) := by
  induction calls generalizing b with
  | nil => exact .refl b
  | cons call calls ih =>
    rw [run_cons, ended]
    cases hcall : b.perform call with
    | ok b' =>
      rw [after_of_ok hcall, accepted_of_ok hcall, List.map_cons, String.join_cons]
      exact (advances_perform hcall).trans (ih b')
    | error misuse =>
      rw [after_of_error hcall, accepted_of_error hcall, ending_of_error hcall, List.nil_append]
      exact ih b

/-- The level counts the blocks that have been opened and not closed. -/
theorem level_run (b : LineBuffer) (calls : List Call) :
    (b.run calls).level + (b.accepted calls).count .closeBlock =
      b.level + calls.count .openBlock := by
  induction calls generalizing b with
  | nil => rfl
  | cons call calls ih =>
    rw [run_cons]
    cases hcall : b.perform call with
    | ok b' =>
      have hstep := level_perform hcall
      have hrest := ih b'
      rw [after_of_ok hcall, accepted_of_ok hcall, List.count_cons, List.count_cons]
      omega
    | error misuse =>
      -- what is refused opens no block
      obtain ⟨rfl, -⟩ := perform_eq_error_iff.mp hcall
      have hopened : (Call.closeBlock :: calls).count .openBlock = calls.count .openBlock :=
        List.count_cons_of_ne (by simp)
      rw [after_of_error hcall, accepted_of_error hcall, hopened, ih b]

/-- The stored lines stay as they are. -/
theorem lines_prefix_run (b : LineBuffer) (calls : List Call) : b.lines <+: (b.run calls).lines :=
  ⟨_, (advances_run b calls).lines.symm⟩

/-- After any calls on a fresh buffer, the blocks closed and the level together are the blocks
opened; the only call that is refused is to close a block on level 0, and it changes nothing;
further calls leave the stored lines as they are; and the lines are those that the calls have
ended, whose contents, with what is pending after them, are the texts of the calls that were
carried out. -/
theorem run_fresh_accounts (unit : String) (calls : List Call) :
    let b := (fresh unit).run calls
    b.level + ((fresh unit).accepted calls).count .closeBlock = calls.count .openBlock ∧
      (∀ call misuse, b.perform call = .error misuse ↔
        call = .closeBlock ∧ b.level = 0 ∧ misuse = .unmatchedClose) ∧
      (∀ call misuse, b.perform call = .error misuse → b.after call = b) ∧
      (∀ more, b.lines <+: ((fresh unit).run (calls ++ more)).lines) ∧
      b.lines = ((fresh unit).ended calls).map (EndedLine.stored unit) ∧
      String.join (((fresh unit).ended calls).map EndedLine.content) ++ b.pending =
        String.join (((fresh unit).accepted calls).map Call.text) := by
  intro b
  have hlevel := level_run (fresh unit) calls
  have hadvances := advances_run (fresh unit) calls
  refine ⟨?_, ?_, ?_, ?_, ?_, ?_⟩
  · rw [hlevel]
    exact Nat.zero_add _
  · intro call misuse
    exact perform_eq_error_iff
  · intro call misuse hrefused
    exact after_of_error hrefused
  · intro more
    rw [run_append]
    exact lines_prefix_run b more
  · rw [hadvances.lines]
    exact List.nil_append _
  · rw [hadvances.text]
    exact String.empty_append

/-- Text is pending before both braces of a block, and blocks are closed where none is open,
at the beginning and after the block. -/
def gluedCalls : List Call :=
  [.closeBlock, .write "class ", .writeln "B", .write "do ", .openBlock, .blankLine,
    .writeLines ["x;", "y;"], .write "z; ", .closeBlock, .closeBlock, .write "// end"]

theorem run_fresh_accounts_glued :
    (fresh "\t").run gluedCalls =
        { indentUnit := "\t", lines := ["class B", "do \x7b", "", "\tx;", "\ty;", "z; \x7d"],
          pending := "// end" } ∧
      ((fresh "\t").accepted gluedCalls).count .closeBlock = 1 ∧
      ((fresh "\t").run gluedCalls).after .closeBlock = (fresh "\t").run gluedCalls ∧
      String.join (((fresh "\t").ended gluedCalls).map EndedLine.content) ++ "// end" =
        "class Bdo \x7bx;y;z; \x7d// end" := by
  obtain ⟨hlevel, hrefused, hkept, -, -, htext⟩ := run_fresh_accounts "\t" gluedCalls
  have hrun : (fresh "\t").run gluedCalls =
      { indentUnit := "\t", lines := ["class B", "do \x7b", "", "\tx;", "\ty;", "z; \x7d"],
        pending := "// end" } := by decide +kernel
  rw [hrun] at hlevel hrefused hkept htext ⊢
  refine ⟨rfl, ?_, hkept _ _ ((hrefused _ _).mpr ⟨rfl, rfl, rfl⟩), htext.trans ?_⟩
  · exact (Nat.zero_add _).symm.trans hlevel
  · decide +kernel

end SharpEmit.LineBuffer
