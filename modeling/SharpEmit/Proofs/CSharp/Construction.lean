/-
SharpEmit/Proofs/CSharp/Construction.lean

Deferred initializers run once for each object.  An object is made by a constructor, which
may first call another one of its class, and so on; which one is called is left open
(`Delegation`), as long as the calls come to an end.  The constructors that run are then a
row of which only the last calls none of its class (`Delegation.Runs`).

A constructor that calls another one of its class is written with the body it has, and any
other one of a class with deferred initializers with the call of their method in front.
Along a row there is one of the second sort, at its end, so by induction on the row there is
one call.

Main result: so it is in the lines of every class that is rendered
(`initializer_called_once`).
-/
import Mathlib.Logic.Function.Iterate
import SharpEmit.Proofs.CSharp.Layout

namespace SharpEmit.CSharp

open Layout

/-! ### Rows of constructors -/

/-- A choice of the constructor that each constructor calls; it matters only for those that
call one of their class.  Whichever is called at first, the calls end. -/
structure Delegation (d : Declaration) where
  next : Fin d.constructors.length → Fin d.constructors.length
  ends : ∀ i, ∃ k, ¬ CallsOwnClass (d.constructors.get (next^[k] i))

namespace Delegation

variable {d : Declaration}

/-- The constructors that run when one of them is called, up to one that calls no other. -/
inductive Runs (r : Delegation d) :
    Fin d.constructors.length → List (Fin d.constructors.length) → Prop
  | last (i : Fin d.constructors.length) :
      ¬ CallsOwnClass (d.constructors.get i) → Runs r i [i]
  | call (i : Fin d.constructors.length) (row : List (Fin d.constructors.length)) :
      CallsOwnClass (d.constructors.get i) → Runs r (r.next i) row → Runs r i (i :: row)

/-- A row comes to an end, because the calls do. -/
theorem exists_runs (r : Delegation d) (i : Fin d.constructors.length) : ∃ row, r.Runs i row := by
  obtain ⟨k, hk⟩ := r.ends i
  induction k generalizing i with
  | zero => exact ⟨[i], .last i hk⟩
  | succ k ih =>
    by_cases hcalls : CallsOwnClass (d.constructors.get i)
    · rw [Function.iterate_succ_apply] at hk
      obtain ⟨row, hrow⟩ := ih (r.next i) hk
      exact ⟨i :: row, .call i row hcalls hrow⟩
    · -- the row may be shorter than the number of calls that is known
      exact ⟨[i], .last i hcalls⟩

end Delegation

/-! ### Bodies as they are written -/

/-- The body of a function is written with a call of the initializers in front of its own
lines. -/
def addsCall (part : ClassPart) (f : Function) : Bool :=
  writtenBody part f = "__internalInitializeFields();" :: f.body

/-- The lines of a function of a class: a head, and a body in braces. -/
def functionLines (head : String) (body : List String) : List String :=
  indented 2 head :: indented 2 "\x7b" :: body.map (indented 3) ++ [indented 2 "\x7d"]

/-- Nothing else is done to a body. -/
theorem writtenBody_eq (part : ClassPart) (f : Function) :
    writtenBody part f = f.body ∨
      writtenBody part f = "__internalInitializeFields();" :: f.body := by
  unfold writtenBody
  split
  · exact .inr rfl
  · exact .inl rfl

/-- The call is added in constructors that call none of their class, if there is a deferred
field. -/
theorem addsCall_iff (part : ClassPart) {f : Function} (hf : f.isConstructor = true) :
    addsCall part f = true ↔ (∃ g ∈ part.fields, IsDeferred g) ∧ ¬ CallsOwnClass f := by
  unfold addsCall writtenBody
  rw [decide_eq_true_eq]
  constructor
  · intro h
    split at h
    · rename_i hneeds
      exact hneeds.2
    · -- a list is not its own tail
      exact absurd h.symm (List.cons_ne_self _ _)
  · intro hneeds
    exact if_pos ⟨hf, hneeds⟩

/-- The head of a constructor says whether another one of the class is called. -/
theorem writtenHead_says (n : Naming) (d : Declaration) (part : ClassPart) {f : Function}
    (hf : f.isConstructor = true) :
    (∀ args, f.chain = some ⟨.sameClass, args⟩ → writtenHead n d part f =
      constructorStart d f ++ (" : this(" ++ ", ".intercalate args ++ ")")) ∧
    (¬ CallsOwnClass f → writtenHead n d part f = constructorStart d f ∨
      ∃ args, writtenHead n d part f =
        constructorStart d f ++ (" : base(" ++ ", ".intercalate args ++ ")")) := by
  rw [writtenHead, if_pos hf]
  refine ⟨fun args hchain => by rw [hchain]; rfl, fun hcalls => ?_⟩
  cases hchain : f.chain with
  | none => exact .inl String.append_empty
  | some c =>
    obtain ⟨kind, args⟩ := c
    cases kind with
    | sameClass => exact absurd ⟨args, hchain⟩ hcalls
    | baseClass => exact .inr ⟨args, rfl⟩

theorem isConstructor_get (d : Declaration) (i : Fin d.constructors.length) :
    (d.constructors.get i).isConstructor = true :=
  (List.mem_filter.mp (List.get_mem d.constructors i)).2

/-- Along a row with deferred initializers, the last constructor calls them and it alone. -/
theorem Delegation.Runs.filter_addsCall {d : Declaration} {r : Delegation d} {part : ClassPart}
    {i : Fin d.constructors.length} {row : List (Fin d.constructors.length)} (h : r.Runs i row)
    (hdeferred : ∃ f ∈ part.fields, IsDeferred f) :
    ∃ last, row.getLast? = some last ∧
      row.filter (fun j => addsCall part (d.constructors.get j)) = [last] := by
  induction h with
  | last i hlast =>
    refine ⟨i, rfl, ?_⟩
    rw [List.filter_cons_of_pos, List.filter_nil]
    exact (addsCall_iff part (isConstructor_get d i)).mpr ⟨hdeferred, hlast⟩
  | call i row hcalls _ ih =>
    obtain ⟨last, hend, hrow⟩ := ih
    refine ⟨last, by simp [List.getLast?_cons, hend], ?_⟩
    rw [List.filter_cons_of_neg, hrow]
    intro hadds
    exact ((addsCall_iff part (isConstructor_get d i)).mp hadds).2 hcalls

/-- Without deferred initializers nothing is called. -/
theorem filter_addsCall_eq_nil {d : Declaration} {part : ClassPart}
    (hdeferred : ¬ ∃ f ∈ part.fields, IsDeferred f) (row : List (Fin d.constructors.length)) :
    row.filter (fun j => addsCall part (d.constructors.get j)) = [] := by
  rw [List.filter_eq_nil_iff]
  intro j _ hadds
  exact hdeferred ((addsCall_iff part (isConstructor_get d j)).mp hadds).1

/-! ### The lines of a class -/

theorem linesAll_withBody (head : String) (body : List String) :
    linesAll 2 (withBody head body) = functionLines head body := by
  show linesAll 2 ([.line head] ++ [.block (body.map .line)]) = _
  rw [linesAll_append, linesAll_line, linesAll_block, linesAll_map_line]
  rfl

/-- The lines of the functions of a class. -/
def functionsLines (n : Naming) (d : Declaration) (part : ClassPart) : List String :=
  d.functions.flatMap fun f => functionLines (writtenHead n d part f) (writtenBody part f)

theorem linesAll_flatMap_functionLayout (n : Naming) (d : Declaration) (part : ClassPart) :
    linesAll 2 (d.functions.flatMap (functionLayout n d part)) = functionsLines n d part := by
  unfold functionsLines functionLayout
  rw [linesAll_flatMap]
  simp only [linesAll_withBody]

theorem functionsLines_suffix_typeLayout (n : Naming) {d : Declaration} {part : ClassPart}
    (hshape : d.shape = .classShape part) :
    functionsLines n d part ++ ["    \x7d"] <:+ linesAll 1 (typeLayout n d) := by
  rw [typeLayout_of_class n hshape, ← linesAll_flatMap_functionLayout]
  exact linesAll_suffix_block 1 _ _ _

/-- A file ends with the block of its namespace. -/
theorem block_suffix_fileLayout (n : Naming) (d : Declaration) :
    linesAll 1 ((d.aliases.map delegateText).map .line ++ typeLayout n d) ++ ["\x7d"] <:+
      linesAll 0 (fileLayout n d) := by
  have hsplit (x y z : Layout) : [x, y, z] = [x, y] ++ [z] := rfl
  unfold fileLayout
  rw [hsplit, ← List.append_assoc, List.map_map]
  exact linesAll_suffix_block 0 _ [] _

theorem typeLayout_suffix_fileLayout (n : Naming) (d : Declaration) :
    linesAll 1 (typeLayout n d) ++ ["\x7d"] <:+ linesAll 0 (fileLayout n d) := by
  refine List.IsSuffix.trans ?_ (block_suffix_fileLayout n d)
  rw [linesAll_append, List.append_assoc]
  exact List.suffix_append _ _

/-- The functions of a class come last in its file. -/
theorem functionsLines_suffix_fileLayout (n : Naming) {d : Declaration} {part : ClassPart}
    (hshape : d.shape = .classShape part) :
    functionsLines n d part ++ ["    \x7d", "\x7d"] <:+ linesAll 0 (fileLayout n d) := by
  obtain ⟨inType, htype⟩ := functionsLines_suffix_typeLayout n hshape
  obtain ⟨inFile, hfile⟩ := typeLayout_suffix_fileLayout n d
  refine ⟨inFile ++ inType, ?_⟩
  rw [← hfile, ← htype]
  simp

/-- Each function of a class has its head in the file. -/
theorem writtenHead_mem (n : Naming) {d : Declaration} {part : ClassPart}
    (hshape : d.shape = .classShape part) {f : Function} (hf : f ∈ d.functions) :
    indented 2 (writtenHead n d part f) ∈ linesAll 0 (fileLayout n d) := by
  apply (functionsLines_suffix_fileLayout n hshape).subset
  apply List.mem_append_left
  exact List.mem_flatMap.mpr ⟨f, hf, List.mem_cons_self⟩

/-- However the constructors of a class call each other, making an object calls its deferred
initializers once, in the constructor that is reached last and before the body which that
one has, and not at all if there are none.  Nothing else is added to a body, and the heads
say which constructors call another one of the class. -/
theorem initializer_called_once (n : Naming) {d : Declaration} {part : ClassPart}
    {b : LineBuffer} (hshape : d.shape = .classShape part) (hrender : render n d = .ok b) :
    functionsLines n d part ++ ["    \x7d", "\x7d"] <:+ b.lines ∧
    (∀ f ∈ d.functions, writtenBody part f = f.body ∨
      writtenBody part f = "__internalInitializeFields();" :: f.body) ∧
    (∀ f ∈ d.constructors,
      (∀ args, f.chain = some ⟨.sameClass, args⟩ → writtenHead n d part f =
        constructorStart d f ++ (" : this(" ++ ", ".intercalate args ++ ")")) ∧
      (¬ CallsOwnClass f → writtenHead n d part f = constructorStart d f ∨
        ∃ args, writtenHead n d part f =
          constructorStart d f ++ (" : base(" ++ ", ".intercalate args ++ ")"))) ∧
    ∀ (r : Delegation d) (i : Fin d.constructors.length),
      (∃ row, r.Runs i row) ∧ ∀ row, r.Runs i row →
        ((∃ f ∈ part.fields, IsDeferred f) → ∃ last, row.getLast? = some last ∧
          row.filter (fun j => addsCall part (d.constructors.get j)) = [last]) ∧
        ((¬ ∃ f ∈ part.fields, IsDeferred f) →
          row.filter (fun j => addsCall part (d.constructors.get j)) = []) := by
  refine ⟨?_, ?_, ?_, ?_⟩
  · rw [(lines_of_render hrender).2]
    exact functionsLines_suffix_fileLayout n hshape
  · intro f _
    exact writtenBody_eq part f
  · intro f hf
    exact writtenHead_says n d part (List.mem_filter.mp hf).2
  · intro r i
    refine ⟨r.exists_runs i, fun row hrow => ⟨hrow.filter_addsCall, fun hdeferred => ?_⟩⟩
    exact filter_addsCall_eq_nil hdeferred row

/-- One field, with a deferred initializer. -/
def layeredPart : ClassPart :=
  { fields := [{ name := "n", type := some (.ofPrimitive "int"), initializer := some "f()" }] }

/-- A class with a deferred initializer, of whose constructors the first calls the second, the
second the third and the third one of the base class. -/
def layeredClass : Declaration :=
  { name := "Counter"
    functions :=
      [{ name := "Counter", isConstructor := true, chain := some ⟨.sameClass, ["0"]⟩ },
       { name := "reset", body := ["n = 0;"] },
       { name := "Counter", isConstructor := true, chain := some ⟨.sameClass, ["0", "1"]⟩ },
       { name := "Counter", isConstructor := true, chain := some ⟨.baseClass, []⟩,
         body := ["__internalInitializeFields();"] }]
    shape := .classShape layeredPart }

/-- Each constructor calls the one after it. -/
def layeredCalls : Delegation layeredClass where
  next i := if i.val = 0 then ⟨1, by decide⟩ else ⟨2, by decide⟩
  ends i := ⟨2, by revert i; decide +kernel⟩

theorem initializer_called_once_layered :
    ∃ b, render {} layeredClass = .ok b ∧
      functionsLines {} layeredClass layeredPart ++ ["    \x7d", "\x7d"] <:+ b.lines ∧
      layeredClass.constructors.map (writtenHead {} layeredClass layeredPart) =
        ["public Counter() : this(0)", "public Counter() : this(0, 1)",
          "public Counter() : base()"] ∧
      layeredCalls.Runs ⟨0, by decide⟩ [⟨0, by decide⟩, ⟨1, by decide⟩, ⟨2, by decide⟩] ∧
      [(⟨0, by decide⟩ : Fin layeredClass.constructors.length), ⟨1, by decide⟩,
        ⟨2, by decide⟩].filter (fun j => addsCall layeredPart (layeredClass.constructors.get j)) =
        [⟨2, by decide⟩] := by
  have hfault : fault? layeredClass = none := by decide +kernel
  obtain ⟨b, hb⟩ : ∃ b, render {} layeredClass = .ok b := ⟨_, by rw [render_eq, hfault]⟩
  obtain ⟨hlines, -, -, hcalls⟩ := initializer_called_once {} (d := layeredClass) rfl hb
  have hrow : layeredCalls.Runs ⟨0, by decide⟩ [⟨0, by decide⟩, ⟨1, by decide⟩, ⟨2, by decide⟩] :=
    .call _ _ (by decide +kernel) (.call _ _ (by decide +kernel) (.last _ (by decide +kernel)))
  have hdeferred : ∃ f ∈ layeredPart.fields, IsDeferred f :=
    (exists_isDeferred_iff layeredPart).mpr (by decide +kernel)
  obtain ⟨last, hlast, hfilter⟩ := ((hcalls layeredCalls _).2 _ hrow).1 hdeferred
  obtain rfl := Option.some.inj hlast
  exact ⟨b, hb, hlines, by decide +kernel, hrow, hfilter⟩

end SharpEmit.CSharp
