/-
SharpEmit/Proofs/Rendering/Layout.lean

Nested text as data: lines, and blocks of further text in braces.  A layout has
lines at every depth; a line of depth `k` is `4 * k` spaces and its text, and an
empty text is an empty line.

A buffer between two lines is given by its depth and its lines (`upTo`).  On such
buffers writing a line adds the line of a layout, and opening and closing a block
around what adds `xs` adds the block of `xs`.
-/
import SharpEmit.LineBuffer

namespace SharpEmit

/-! ### Layouts -/

/-- Nested text. -/
inductive Layout where
  | line (text : String)
  | block (body : List Layout)

namespace Layout

/-- A text as a line of the given depth. -/
def indented (depth : Nat) (text : String) : String :=
  if text = "" then "" else String.ofList (List.replicate (4 * depth) ' ') ++ text

mutual

/-- The lines of a layout that stands at the given depth. -/
def lines (depth : Nat) : Layout → List String
  | .line text => [indented depth text]
  | .block body =>
    indented depth "\x7b" :: linesAll (depth + 1) body ++ [indented depth "\x7d"]

/-- The lines of layouts one after the other. -/
def linesAll (depth : Nat) : List Layout → List String
  | [] => []
  | x :: xs => lines depth x ++ linesAll depth xs

end

@[simp] theorem linesAll_nil (depth : Nat) : linesAll depth [] = [] := by
  rw [linesAll]

@[simp] theorem linesAll_append (depth : Nat) (xs ys : List Layout) :
    linesAll depth (xs ++ ys) = linesAll depth xs ++ linesAll depth ys := by
  induction xs with
  | nil => simp
  | cons x xs ih => simp only [List.cons_append, linesAll, ih, List.append_assoc]

@[simp] theorem linesAll_line (depth : Nat) (text : String) :
    linesAll depth [.line text] = [indented depth text] := by
  simp [linesAll, lines]

@[simp] theorem linesAll_block (depth : Nat) (body : List Layout) :
    linesAll depth [.block body] =
      indented depth "\x7b" :: linesAll (depth + 1) body ++ [indented depth "\x7d"] := by
  simp [linesAll, lines]

theorem linesAll_map_line (depth : Nat) (texts : List String) :
    linesAll depth (texts.map .line) = texts.map (indented depth) := by
  induction texts with
  | nil => simp
  | cons text texts ih => simp [linesAll, lines, ih]

theorem linesAll_flatMap {α : Type} (depth : Nat) (layout : α → List Layout) (xs : List α) :
    linesAll depth (xs.flatMap layout) = xs.flatMap fun x => linesAll depth (layout x) := by
  induction xs with
  | nil => simp
  | cons x xs ih => simp [ih]

/-- What comes last in a block that comes last. -/
theorem linesAll_suffix_block (depth : Nat) (xs ys zs : List Layout) :
    linesAll (depth + 1) zs ++ [indented depth "\x7d"] <:+
      linesAll depth (xs ++ [.block (ys ++ zs)]) := by
  rw [linesAll_append, linesAll_block, linesAll_append]
  exact ⟨linesAll depth xs ++ indented depth "\x7b" :: linesAll (depth + 1) ys, by simp⟩

/-- A head and a block of lines. -/
def withBody (head : String) (body : List String) : List Layout :=
  [.line head, .block (body.map .line)]

end Layout

/-! ### Buffers between two lines -/

namespace LineBuffer

open Layout

/-- The buffer of the given depth after the given lines. -/
def upTo (depth : Nat) (lines : List String) : LineBuffer := { level := depth, lines }

theorem indent_upTo (k : Nat) (ls : List String) :
    (upTo k ls).indent = String.ofList (List.replicate (4 * k) ' ') := by
  show String.join (List.replicate k "    ") = _
  induction k with
  | zero => rfl
  | succ k ih =>
    have hsplit : List.replicate (4 * (k + 1)) ' ' =
        [' ', ' ', ' ', ' '] ++ List.replicate (4 * k) ' ' := by
      rw [show 4 * (k + 1) = 4 + 4 * k by omega, ← List.replicate_append_replicate]
      rfl
    rw [List.replicate_succ, hsplit, String.ofList_append, ← ih]
    simp [String.join_cons]

/-- A line is written at the depth of the buffer. -/
theorem writeln_upTo (k : Nat) (ls : List String) (text : String) :
    (upTo k ls).writeln text = upTo k (ls ++ [indented k text]) := by
  have hindent := indent_upTo k ls
  simp only [writeln, hindent, indented]
  simp [upTo]

theorem openBlock_upTo (k : Nat) (ls : List String) :
    (upTo k ls).openBlock = upTo (k + 1) (ls ++ [indented k "\x7b"]) := by
  simp only [openBlock, writeln_upTo]
  rfl

theorem closeBlock_upTo (k : Nat) (ls : List String) :
    (upTo (k + 1) ls).closeBlock = .ok (upTo k (ls ++ [indented k "\x7d"])) := by
  have hlevel : ({ upTo (k + 1) ls with level := (upTo (k + 1) ls).level - 1 } : LineBuffer) =
      upTo k ls := rfl
  simp only [closeBlock, hlevel, writeln_upTo]
  simp [upTo]

end LineBuffer

end SharpEmit
