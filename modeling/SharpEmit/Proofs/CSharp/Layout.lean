/-
SharpEmit/Proofs/CSharp/Layout.lean

The text of a declaration as a layout.  Emission writes line by line into a
buffer, opens and closes blocks and stops at the first fault; the layout of a
declaration (`fileLayout`), in which every line is written out, and its first
fault (`fault?`) are plain functions.

`Emits m fault xs` says that a step of emission stops with the fault if there is
one, and otherwise adds the layouts `xs` at whatever depth it finds and leaves
that depth as it was.  It is closed under sequence, repetition and blocks, so
each part of emission has its statement from its parts, and `render_eq` is the
one for a whole declaration.
-/
import SharpEmit.Proofs.CSharp.Lines
import SharpEmit.Proofs.Rendering.Layout

namespace SharpEmit.CSharp

open Layout

/-! ### The layout of a declaration -/

/-- The method that runs deferred initializers, if there are any. -/
def initializerLayout (part : ClassPart) : List Layout :=
  if ∃ f ∈ part.fields, IsDeferred f then
    withBody "private void __internalInitializeFields()" (part.fields.filterMap assignment?)
  else []

/-- A function of a class: its head and its body as a block. -/
def functionLayout (n : Naming) (d : Declaration) (part : ClassPart) (f : Function) :
    List Layout :=
  withBody (writtenHead n d part f) (writtenBody part f)

/-- What stands between the braces of a class. -/
def classBody (n : Naming) (d : Declaration) (part : ClassPart) : List Layout :=
  part.fields.map (.line ∘ fieldText) ++ initializerLayout part ++
    d.functions.flatMap (functionLayout n d part)

/-- A class or an interface. -/
def typeLayout (n : Naming) (d : Declaration) : List Layout :=
  match d.shape with
  | .interfaceShape =>
    withBody (interfaceText d) ((d.functions.filter (!·.isConstructor)).map (signatureText n))
  | .classShape part => [.line (classText d part), .block (classBody n d part)]

theorem typeLayout_of_class (n : Naming) {d : Declaration} {part : ClassPart}
    (hshape : d.shape = .classShape part) :
    typeLayout n d = [.line (classText d part)] ++ [.block (classBody n d part)] := by
  unfold typeLayout
  rw [hshape]
  rfl

/-- A whole file. -/
def fileLayout (n : Naming) (d : Declaration) : List Layout :=
  [.line "using System;", .line ""] ++
    ((imports n d).filter (· ≠ "System")).map (fun name => .line ("using " ++ name ++ ";")) ++
    [.line "", .line ("namespace " ++ n.namespaceOf d.package),
      .block (d.aliases.map (.line ∘ delegateText) ++ typeLayout n d)]

/-! ### The fault of a declaration -/

/-- What is wrong with a function of a class. -/
def badFunction? (f : Function) : Option Violation :=
  if f.isConstructor then badConstructor? f else none

/-- The first violation of a declaration, in the order in which they are looked
for. -/
def violation? (d : Declaration) : Option Violation :=
  match d.shape with
  | .interfaceShape => untypedParam? d.functions
  | .classShape part =>
    repeatedInterface? part.interfaces <|> untypedField? part.fields <|>
      untypedParam? d.functions <|> reservedMember? part.fields d.functions <|>
      missingConstructor? (deferredFields part.fields) d.constructors <|>
      part.fields.findSome? valuelessConst? <|> d.functions.findSome? badFunction?

/-- Why a declaration has no text, if so. -/
def fault? (d : Declaration) : Option RenderError :=
  if d.lacksReference then some (.breakdown .absentReference)
  else (violation? d).map .violation

/-! ### Steps that add layouts -/

/-- The step stops with the fault, or adds the layouts at the depth it finds. -/
def Emits (m : Emission Unit) (fault : Option RenderError) (xs : List Layout) : Prop :=
  ∀ k ls, m.run (LineBuffer.upTo k ls) =
    match fault with
    | some e => .error e
    | none => .ok ((), LineBuffer.upTo k (ls ++ linesAll k xs))

theorem emits_pure : Emits (pure ()) none [] := by
  intro k ls
  rw [linesAll_nil, List.append_nil]
  rfl

theorem emits_line (text : String) : Emits (line text) none [.line text] := by
  intro k ls
  rw [linesAll_line, ← LineBuffer.writeln_upTo]
  rfl

theorem emits_demand (v : Option Violation) : Emits (demand v) (v.map .violation) [] := by
  intro k ls
  cases v with
  | none => exact emits_pure k ls
  | some v => rfl

/-- What comes second is reached if the first has no fault. -/
theorem Emits.bind {m m' : Emission Unit} {f f' : Option RenderError} {xs ys : List Layout}
    (h : Emits m f xs) (h' : Emits m' f' ys) :
    Emits (do m; m') (f <|> f') (xs ++ ys) := by
  intro k ls
  rw [StateT.run_bind, h k ls]
  cases f with
  | some e => rfl
  | none =>
    show m'.run (LineBuffer.upTo k (ls ++ linesAll k xs)) = _
    rw [h' k _, linesAll_append, List.append_assoc]
    rfl

theorem Emits.congr {m : Emission Unit} {f f' : Option RenderError} {xs ys : List Layout}
    (h : Emits m f xs) (hf : f = f') (hxs : xs = ys) : Emits m f' ys := by
  subst hf hxs
  exact h

/-- A block is left at the depth at which it was entered. -/
theorem Emits.block {m : Emission Unit} {f : Option RenderError} {xs : List Layout}
    (h : Emits m f xs) : Emits (do openBlock; m; closeBlock) f [.block xs] := by
  intro k ls
  have hopen : openBlock.run (LineBuffer.upTo k ls) =
      .ok ((), LineBuffer.upTo (k + 1) (ls ++ [indented k "\x7b"])) := by
    rw [← LineBuffer.openBlock_upTo]
    rfl
  rw [StateT.run_bind, hopen]
  show (m >>= fun _ => closeBlock).run _ = _
  rw [StateT.run_bind, h]
  cases f with
  | some e => rfl
  | none =>
    show closeBlock.run (LineBuffer.upTo (k + 1) _) = _
    have hclose := LineBuffer.closeBlock_upTo k (ls ++ [indented k "\x7b"] ++ linesAll (k + 1) xs)
    simp only [closeBlock, StateT.run_bind, StateT.run_get, pure_bind, hclose]
    simp [StateT.run_set]
    rfl

theorem emits_forM {α : Type} {step : α → Emission Unit} {fault : α → Option RenderError}
    {layout : α → List Layout} (h : ∀ x, Emits (step x) (fault x) (layout x)) (xs : List α) :
    Emits (xs.forM step) (xs.findSome? fault) (xs.flatMap layout) := by
  induction xs with
  | nil => exact emits_pure
  | cons x xs ih =>
    refine ((h x).bind ih).congr ?_ rfl
    rw [List.findSome?_cons]
    cases fault x <;> rfl

/-! ### The parts of emission -/

theorem emits_lines {α : Type} (text : α → String) (xs : List α) :
    Emits (xs.forM fun x => line (text x)) none (xs.map (.line ∘ text)) := by
  refine (emits_forM (fun x => emits_line (text x)) xs).congr ?_ ?_
  · exact List.findSome?_eq_none_iff.mpr fun _ _ => rfl
  · exact List.map_eq_flatMap.symm

theorem emits_body (head : String) (body : List String) :
    Emits (emitBody head body) none (withBody head body) :=
  (emits_line head).bind (emits_lines id body).block

theorem emits_field (f : Field) :
    Emits (emitField f) ((valuelessConst? f).map .violation) [.line (fieldText f)] := by
  rw [← fieldLine_eq_text]
  refine ((emits_demand (valuelessConst? f)).bind (emits_line (fieldLine f))).congr ?_ rfl
  cases valuelessConst? f <;> rfl

theorem emits_function (n : Naming) (d : Declaration) (part : ClassPart) (f : Function) :
    Emits (emitFunction n d part.isFinal (!(deferredFields part.fields).isEmpty) f)
      ((badFunction? f).map .violation) (functionLayout n d part f) := by
  unfold emitFunction badFunction? functionLayout
  cases hf : f.isConstructor with
  | true =>
    rw [writtenHead_of_constructor n d part hf, writtenBody_of_constructor part hf]
    refine ((emits_demand (badConstructor? f)).bind (emits_body (constructorHead d f)
      (constructorBody f !(deferredFields part.fields).isEmpty))).congr ?_ rfl
    cases badConstructor? f <;> rfl
  | false =>
    rw [writtenHead_of_method n d part hf, writtenBody_of_method part hf]
    exact emits_body (methodHead n part.isFinal f) f.body

theorem emits_interface (n : Naming) (d : Declaration) :
    Emits (emitInterface n d) ((untypedParam? d.functions).map .violation)
      (withBody (interfaceText d)
        ((d.functions.filter (!·.isConstructor)).map (signatureText n))) := by
  rw [← interfaceHead_eq_text, ← funext (signatureLine_eq_text n)]
  refine ((emits_demand (untypedParam? d.functions)).bind (emits_body _ _)).congr ?_ rfl
  cases untypedParam? d.functions <;> rfl

/-- Writes the method that runs deferred initializers, if there are any. -/
def emitInitializer (deferred : List Field) : Emission Unit :=
  if deferred.isEmpty then pure ()
  else emitBody initializerHead (deferred.map assignmentLine)

/-- Writes what stands between the braces of a class. -/
def emitMembers (n : Naming) (d : Declaration) (part : ClassPart) : Emission Unit := do
  demand (missingConstructor? (deferredFields part.fields) d.constructors)
  part.fields.forM emitField
  emitInitializer (deferredFields part.fields)
  d.functions.forM (emitFunction n d part.isFinal !(deferredFields part.fields).isEmpty)

/-- Writes a class or an interface. -/
def emitType (n : Naming) (d : Declaration) : Emission Unit :=
  match d.shape with
  | .interfaceShape => emitInterface n d
  | .classShape part => emitClass n d part

theorem emitClass_eq (n : Naming) (d : Declaration) (part : ClassPart) :
    emitClass n d part = (do
      demand (repeatedInterface? part.interfaces)
      demand (untypedField? part.fields)
      demand (untypedParam? d.functions)
      demand (reservedMember? part.fields d.functions)
      line (classHead d part)
      openBlock
      emitMembers n d part
      closeBlock) := by
  unfold emitClass emitMembers emitInitializer
  dsimp only
  cases (deferredFields part.fields).isEmpty <;> simp

theorem emit_eq (n : Naming) (d : Declaration) :
    emit n d = (do
      line (importLine defaultImport)
      line ""
      demandReferences d
      ((imports n d).filter (· ≠ defaultImport)).forM fun name => line (importLine name)
      line ""
      line ("namespace " ++ n.namespaceOf d.package)
      openBlock
      (do d.aliases.forM fun a => line (delegateLine a); emitType n d)
      closeBlock) := by
  unfold emit emitType
  cases d.shape <;> simp

theorem emits_initializer (part : ClassPart) :
    Emits (emitInitializer (deferredFields part.fields)) none (initializerLayout part) := by
  have hneeded := exists_isDeferred_iff part
  unfold emitInitializer initializerLayout
  split
  · rename_i hempty
    rw [if_neg (by simp [hneeded, hempty])]
    exact emits_pure
  · rename_i hsome
    rw [if_pos (by simp [hneeded, hsome]), ← map_assignmentLine_deferredFields]
    exact emits_body initializerHead _

theorem emits_members (n : Naming) (d : Declaration) (part : ClassPart) :
    Emits (emitMembers n d part)
      ((missingConstructor? (deferredFields part.fields) d.constructors <|>
        part.fields.findSome? valuelessConst? <|> d.functions.findSome? badFunction?).map
          .violation)
      (classBody n d part) := by
  have hfields := emits_forM emits_field part.fields
  have hfunctions := emits_forM (emits_function n d part) d.functions
  refine ((emits_demand _).bind (hfields.bind ((emits_initializer _).bind hfunctions))).congr ?_ ?_
  · simp [Option.map_or, List.map_findSome?, Function.comp_def]
  · simp [classBody, List.map_eq_flatMap]

theorem emits_class (n : Naming) (d : Declaration) (part : ClassPart) :
    Emits (emitClass n d part) ((violation? { d with shape := .classShape part }).map .violation)
      [.line (classText d part), .block (classBody n d part)] := by
  rw [emitClass_eq, ← classHead_eq_text]
  refine ((emits_demand _).bind ((emits_demand _).bind ((emits_demand _).bind
    ((emits_demand _).bind ((emits_line _).bind (emits_members n d part).block))))).congr ?_ ?_
  · simp [violation?, Declaration.constructors, Option.map_or]
  · simp

theorem emits_type (n : Naming) (d : Declaration) :
    Emits (emitType n d) ((violation? d).map .violation) (typeLayout n d) := by
  obtain ⟨name, package, tags, aliases, functions, shape⟩ := d
  cases shape with
  | interfaceShape => exact emits_interface n _
  | classShape part => exact emits_class n _ part

theorem emits_references (d : Declaration) :
    Emits (demandReferences d)
      (if d.lacksReference then some (.breakdown .absentReference) else none) [] := by
  unfold demandReferences
  split
  · intro k ls
    rfl
  · exact emits_pure

theorem emits_emit (n : Naming) (d : Declaration) :
    Emits (emit n d) (fault? d) (fileLayout n d) := by
  rw [emit_eq]
  refine ((emits_line _).bind ((emits_line _).bind ((emits_references d).bind
    ((emits_lines _ _).bind ((emits_line _).bind ((emits_line _).bind
      ((emits_lines _ _).bind (emits_type n d)).block)))))).congr ?_ ?_
  · unfold fault?
    cases d.lacksReference <;> simp
  · rw [fileLayout, funext delegateLine_eq_text]
    simp only [List.nil_append, List.cons_append]
    rfl

/-! ### Rendering -/

/-- Rendering stops with the fault of the declaration, or gives its layout. -/
theorem render_eq (n : Naming) (d : Declaration) :
    render n d =
      match fault? d with
      | some e => .error e
      | none => .ok (LineBuffer.upTo 0 (linesAll 0 (fileLayout n d))) := by
  have h := emits_emit n d 0 []
  show ((emit n d).run (LineBuffer.upTo 0 []) >>= fun r => pure r.2) = _
  rw [h]
  cases fault? d <;> rfl

/-- What has no fault is rendered. -/
theorem exists_render_of_fault? (n : Naming) {d : Declaration} (h : fault? d = none) :
    ∃ b, render n d = .ok b := by
  rw [render_eq, h]
  exact ⟨_, rfl⟩

/-- What is rendered has no fault, and its lines are those of its layout. -/
theorem lines_of_render {n : Naming} {d : Declaration} {b : LineBuffer} (h : render n d = .ok b) :
    fault? d = none ∧ b.lines = linesAll 0 (fileLayout n d) := by
  rw [render_eq] at h
  cases hfault : fault? d with
  | some e =>
    rw [hfault] at h
    cases h
  | none =>
    rw [hfault] at h
    cases h
    exact ⟨rfl, rfl⟩

/-- Its buffer holds nothing else. -/
theorem eq_upTo_of_render {n : Naming} {d : Declaration} {b : LineBuffer}
    (h : render n d = .ok b) : b = LineBuffer.upTo 0 (linesAll 0 (fileLayout n d)) := by
  have hfault := (lines_of_render h).1
  rw [render_eq, hfault] at h
  exact (Except.ok.inj h).symm

theorem fault?_ne_misuse (d : Declaration) (misuse : LineBuffer.Misuse) :
    fault? d ≠ some (.breakdown (.misuse misuse)) := by
  unfold fault?
  split
  · simp
  · simp [Option.map_eq_some_iff]

/-- The buffer of a rendered declaration holds the lines of its layout and nothing
else: no block is open, no line is unfinished, and the text is complete.  No block
is ever closed that was not open, whether rendering comes to an end or stops. -/
theorem render_lines_eq_layout (n : Naming) (d : Declaration) :
    (∀ b, render n d = .ok b →
      b.lines = linesAll 0 (fileLayout n d) ∧ b.level = 0 ∧ b.pending = "" ∧
        b.complete = .ok ("\n".intercalate (linesAll 0 (fileLayout n d)) ++ "\n")) ∧
    ∀ misuse, render n d ≠ .error (.breakdown (.misuse misuse)) := by
  rw [render_eq]
  cases hf : fault? d with
  | some e =>
    refine ⟨fun b h => (by cases h), fun misuse h => ?_⟩
    obtain rfl : e = .breakdown (.misuse misuse) := by injection h
    exact fault?_ne_misuse d misuse hf
  | none =>
    refine ⟨fun b h => ?_, fun misuse h => (by cases h)⟩
    obtain rfl : LineBuffer.upTo 0 (linesAll 0 (fileLayout n d)) = b := by injection h
    refine ⟨rfl, rfl, rfl, ?_⟩
    simp [LineBuffer.complete, LineBuffer.text, LineBuffer.upTo]

/-- Conventions other than the usual ones. -/
def sampleNaming : Naming :=
  { getterPrefix := "read", setterPrefix := "", defaultNamespace := "Root" }

/-- An interface with a function type, accessors, a constructor and a reserved word for a
name. -/
def sampleInterface : Declaration :=
  { name := "IShape"
    aliases := [{ name := "Done", params :=
      [⟨"code", some (.ofPrimitive "uint")⟩, ⟨"event", some { name := "String" }⟩] }]
    functions :=
      [{ name := "IShape", isConstructor := true },
       { name := "width", isGetter := true, returnType := some (.ofPrimitive "Number") },
       { name := "width", isSetter := true, params := [⟨"w", some (.ofPrimitive "Number")⟩] },
       { name := "base", visibility := .priv }]
    shape := .interfaceShape }

/-- A class with all kinds of fields, constructors and methods. -/
def sampleClass : Declaration :=
  { name := "Counter"
    package := ["app", "event"]
    aliases := [{ name := "Next", returnType := some (.ofPrimitive "Boolean") }]
    functions :=
      [{ name := "Counter", isConstructor := true, chain := some ⟨.sameClass, ["0", "null"]⟩ },
       { name := "Counter", isConstructor := true, visibility := .prot,
         params := [⟨"n", some (.ofPrimitive "int")⟩, ⟨"next", some { name := "Next" }⟩],
         chain := some ⟨.baseClass, ["n"]⟩, body := ["", "run();"] },
       { name := "n", isGetter := true, returnType := some (.ofPrimitive "int"),
         body := ["return n;"] },
       { name := "make", isStatic := true, returnType := some { name := "Counter" } },
       { name := "run", isOverride := true, visibility := .intern },
       { name := "log", visibility := .priv }]
    shape := .classShape
      { base := some (.ofQualified "lock.Node" [.ofPrimitive "int"])
        interfaces := [{ name := "IShape" }, { name := "ILog" }]
        fields :=
          [{ name := "LIMIT", type := some (.ofPrimitive "int"), isConst := true,
             initializer := some "1 << 4" },
           { name := "ALL", type := some { name := "List" }, isConst := true,
             initializer := some "null" },
           { name := "last", type := some (.ofPrimitive "*"), isStatic := true },
           { name := "n", type := some (.ofPrimitive "int"), visibility := .priv,
             initializer := some "LIMIT - 1" }] } }

/-- A final class with a method. -/
def finalClass : Declaration :=
  { name := "lock", functions := [{ name := "run" }], shape := .classShape { isFinal := true } }

theorem render_samples :
    (∃ b, render sampleNaming sampleInterface = .ok b ∧ b.level = 0 ∧ b.lines =
      ["using System;", "", "", "namespace Root", "\x7b",
        "    public delegate void Done(uint code, String @event);",
        "    public interface IShape", "    \x7b",
        "        float readWidth();", "        void width(float w);", "        void @base();",
        "    \x7d", "\x7d"]) ∧
    (∃ b, render sampleNaming sampleClass = .ok b ∧ b.level = 0 ∧ b.lines =
      ["using System;", "", "using @lock;", "", "namespace app.@event", "\x7b",
        "    public delegate bool Next();",
        "    public class Counter : Node<int>, IShape, ILog", "    \x7b",
        "        public const int LIMIT = 1 << 4;", "        public static List ALL = null;",
        "        public static Object last;", "        private int n;",
        "        private void __internalInitializeFields()", "        \x7b",
        "            n = LIMIT - 1;", "        \x7d",
        "        public Counter() : this(0, null)", "        \x7b", "        \x7d",
        "        protected Counter(int n, Next next) : base(n)", "        \x7b",
        "            __internalInitializeFields();", "", "            run();", "        \x7d",
        "        public virtual int readN()", "        \x7b", "            return n;", "        \x7d",
        "        public static Counter make()", "        \x7b", "        \x7d",
        "        internal override void run()", "        \x7b", "        \x7d",
        "        private void log()", "        \x7b", "        \x7d", "    \x7d", "\x7d"]) ∧
    ∃ b, render {} finalClass = .ok b ∧ b.level = 0 ∧ b.lines =
      ["using System;", "", "", "namespace Global", "\x7b", "    public sealed class @lock",
        "    \x7b", "        public void run()", "        \x7b", "        \x7d", "    \x7d",
        "\x7d"] := by
  have hlines : ∀ n d ls, fault? d = none → linesAll 0 (fileLayout n d) = ls →
      ∃ b, render n d = .ok b ∧ b.level = 0 ∧ b.lines = ls := by
    rintro n d ls hfault rfl
    obtain ⟨b, hb⟩ := exists_render_of_fault? n hfault
    obtain ⟨hlayout, hlevel, -⟩ := (render_lines_eq_layout n d).1 b hb
    exact ⟨b, hb, hlevel, hlayout⟩
  exact ⟨hlines _ _ _ (by decide +kernel) (by decide +kernel),
    hlines _ _ _ (by decide +kernel) (by decide +kernel),
    hlines _ _ _ (by decide +kernel) (by decide +kernel)⟩

end SharpEmit.CSharp
