/-
SharpEmit/Proofs/CSharp/Bodies.lean

The bodies of functions are read back from the text of a class.  A line of a body is indented
deeper than the brace that ends the body, or is empty, so it never is that brace
(`indented_succ_ne_close`), and the first line that is ends the body.  Lines without line ends
are cut in one way only, so by induction on a body it is found again before its brace
(`block_inj`), and by induction on the functions all of them are, since the heads between them
are known (`functionsLines_inj`).  A head may hold line ends.

Main result: of two classes that differ at most in the bodies of their functions, the texts are
equal if and only if the bodies are (`text_eq_iff_bodies`).
-/
import SharpEmit.Proofs.CSharp.Construction
import SharpEmit.Proofs.Text.Boundaries

namespace SharpEmit

/-! ### Lines as text -/

/-- The text of lines, each with the line end after it. -/
def ofLines (lines : List String) : List Char := lines.flatMap fun line => line.toList ++ ['\n']

@[simp] theorem ofLines_nil : ofLines [] = [] := rfl

@[simp] theorem ofLines_cons (line : String) (lines : List String) :
    ofLines (line :: lines) = line.toList ++ '\n' :: ofLines lines := by
  simp [ofLines]

@[simp] theorem ofLines_append (lines lines' : List String) :
    ofLines (lines ++ lines') = ofLines lines ++ ofLines lines' := List.flatMap_append

/-- Line ends between lines and after the last one come after each. -/
theorem toList_intercalate_lines {lines : List String} (hne : lines ≠ []) :
    ("\n".intercalate lines ++ "\n").toList = ofLines lines := by
  induction lines with
  | nil => exact absurd rfl hne
  | cons line lines ih =>
    cases lines with
    | nil =>
      rw [String.intercalate_singleton, String.toList_append, ofLines_cons]
      rfl
    | cons next lines =>
      rw [String.intercalate_cons_cons, String.append_assoc, String.toList_append,
        ih (List.cons_ne_nil next lines), String.toList_append, ofLines_cons line,
        List.append_assoc]
      rfl

/-- A buffer between two lines has the text of its lines. -/
theorem LineBuffer.toList_text_upTo {lines : List String} (hne : lines ≠ []) :
    (upTo 0 lines).text.toList = ofLines lines := by
  rw [← toList_intercalate_lines hne]
  simp [text, upTo]

/-- A line without line ends is cut off in one way only. -/
theorem line_inj {line line' : String} {rest rest' : List Char} (h : '\n' ∉ line.toList)
    (h' : '\n' ∉ line'.toList) (heq : line.toList ++ '\n' :: rest = line'.toList ++ '\n' :: rest') :
    line = line' ∧ rest = rest' := by
  have hbreaks : ∀ rest, Text.Breaks (· = '\n') ('\n' :: rest) :=
    Text.Breaks.cons (p := (· = '\n')) rfl
  have hplain : ∀ text : String, '\n' ∉ text.toList → ∀ c ∈ text.toList, ¬ c = '\n' := by
    rintro text htext c hc rfl
    exact htext hc
  obtain ⟨hline, hrest⟩ :=
    Text.append_inj_of_breaks (hplain line h) (hplain line' h') (hbreaks rest) (hbreaks rest') heq
  exact ⟨String.toList_inj.mp hline, (List.cons.inj hrest).2⟩

/-! ### Blocks -/

namespace Layout

theorem indented_empty (depth : Nat) : indented depth "" = "" := rfl

theorem toList_indented {text : String} (h : text ≠ "") (depth : Nat) :
    (indented depth text).toList = List.replicate (4 * depth) ' ' ++ text.toList := by
  rw [indented, if_neg h, String.toList_append, String.toList_ofList]

theorem indented_ne_empty {text : String} (h : text ≠ "") (depth : Nat) :
    indented depth text ≠ "" := by
  intro hempty
  have hlist := toList_indented h depth
  rw [hempty] at hlist
  exact h (String.toList_eq_nil_iff.mp (List.append_eq_nil_iff.mp hlist.symm).2)

/-- A line shows its text. -/
theorem indented_inj {depth : Nat} {text text' : String}
    (heq : indented depth text = indented depth text') : text = text' := by
  by_cases h : text = ""
  · subst h
    by_contra h'
    exact indented_ne_empty (Ne.symm h') depth heq.symm
  · have h' : text' ≠ "" := by
      rintro rfl
      exact indented_ne_empty h depth heq
    rw [← String.toList_inj, toList_indented h, toList_indented h'] at heq
    exact String.toList_inj.mp (List.append_cancel_left heq)

theorem newline_not_mem_indented {text : String} (h : '\n' ∉ text.toList) (depth : Nat) :
    '\n' ∉ (indented depth text).toList := by
  by_cases hempty : text = ""
  · rw [hempty, indented_empty]
    decide
  · rw [toList_indented hempty, List.mem_append]
    rintro (hspace | hmem)
    · exact absurd (List.eq_of_mem_replicate hspace) (by decide)
    · exact h hmem

/-- No line in a block is the brace that ends it. -/
theorem indented_succ_ne_close (depth : Nat) (text : String) :
    indented (depth + 1) text ≠ indented depth "\x7d" := by
  intro heq
  have hclose : "\x7d" ≠ "" := by decide
  by_cases h : text = ""
  · rw [h, indented_empty] at heq
    exact indented_ne_empty hclose depth heq.symm
  · -- where the brace stands, the line has a space
    rw [← String.toList_inj, toList_indented h, toList_indented hclose, Nat.mul_add,
      ← List.replicate_append_replicate, List.append_assoc] at heq
    exact absurd (List.cons.inj (List.append_cancel_left heq)).1 (by decide)

/-- The lines of a block are read back before the brace that ends it. -/
theorem block_inj {depth : Nat} {lines lines' : List String} {rest rest' : List Char}
    (h : ∀ line ∈ lines, '\n' ∉ line.toList) (h' : ∀ line ∈ lines', '\n' ∉ line.toList)
    (heq : ofLines (lines.map (indented (depth + 1)) ++ [indented depth "\x7d"]) ++ rest =
      ofLines (lines'.map (indented (depth + 1)) ++ [indented depth "\x7d"]) ++ rest') :
    lines = lines' ∧ rest = rest' := by
  have hclose : '\n' ∉ (indented depth "\x7d").toList := newline_not_mem_indented (by decide) depth
  -- line by line, and the brace cannot be matched with a line
  induction lines generalizing lines' with
  | nil =>
    cases lines' with
    | nil => exact ⟨rfl, List.append_cancel_left heq⟩
    | cons line' lines' =>
      have hline' := newline_not_mem_indented (h' line' List.mem_cons_self) (depth + 1)
      have hcut := line_inj hclose hline' (by simpa using heq)
      exact absurd hcut.1.symm (indented_succ_ne_close depth line')
  | cons line lines ih =>
    have hline := newline_not_mem_indented (h line List.mem_cons_self) (depth + 1)
    cases lines' with
    | nil =>
      have hcut := line_inj hline hclose (by simpa using heq)
      exact absurd hcut.1 (indented_succ_ne_close depth line)
    | cons line' lines' =>
      have hline' := newline_not_mem_indented (h' line' List.mem_cons_self) (depth + 1)
      obtain ⟨hsame, hmore⟩ := line_inj hline hline' (by simpa using heq)
      obtain ⟨rfl, rfl⟩ := ih (fun l hl => h l (List.mem_cons_of_mem _ hl))
        (fun l hl => h' l (List.mem_cons_of_mem _ hl)) (by simpa using hmore)
      exact ⟨by rw [indented_inj hsame], rfl⟩

end Layout

/-! ### Declarations without bodies -/

/-- A function without its body. -/
def Function.withoutBody (f : Function) : Function := { f with body := [] }

/-- A declaration without the bodies of its functions. -/
def Declaration.withoutBodies (d : Declaration) : Declaration :=
  { d with functions := d.functions.map Function.withoutBody }

theorem Function.eq_of_withoutBody {f g : Function} (h : f.withoutBody = g.withoutBody)
    (hbody : f.body = g.body) : f = g := by
  have hf : f = { f.withoutBody with body := f.body } := rfl
  rw [hf, h, hbody]
  rfl

theorem Function.eq_of_map_withoutBody {fs gs : List Function}
    (h : fs.map withoutBody = gs.map withoutBody) (hbodies : fs.map (·.body) = gs.map (·.body)) :
    fs = gs := by
  induction fs generalizing gs with
  | nil => exact (List.map_eq_nil_iff.mp h.symm).symm
  | cons f fs ih =>
    obtain ⟨g, gs, rfl, hg, hgs⟩ := List.map_eq_cons_iff.mp h.symm
    obtain ⟨hbody, hmore⟩ := List.cons.inj hbodies
    rw [eq_of_withoutBody hg.symm hbody, ih hgs.symm hmore]

/-- A declaration is known from its bodies and the rest of it. -/
theorem Declaration.eq_of_withoutBodies {d e : Declaration} (h : d.withoutBodies = e.withoutBodies)
    (hbodies : d.functions.map (·.body) = e.functions.map (·.body)) : d = e := by
  have hfunctions : d.functions = e.functions :=
    Function.eq_of_map_withoutBody (congrArg functions h) hbodies
  have hd : d = { d.withoutBodies with functions := d.functions } := rfl
  rw [hd, h, hfunctions]
  rfl

theorem Declaration.references_withoutBodies (d : Declaration) :
    d.withoutBodies.references = d.references := by
  simp only [references, signatureTypes, withoutBodies, List.flatMap_map]
  rfl

/-! ### The text of a class -/

namespace CSharp

open Layout

/-- The lines of a class before those of its functions. -/
def linesBefore (n : Naming) (d : Declaration) (part : ClassPart) : List String :=
  linesAll 0 ([.line "using System;", .line ""] ++
      ((imports n d).filter (· ≠ "System")).map (fun name => .line ("using " ++ name ++ ";")) ++
      [.line "", .line ("namespace " ++ n.namespaceOf d.package)]) ++
    indented 0 "\x7b" :: linesAll 1 (d.aliases.map (.line ∘ delegateText) ++
      [.line (classText d part)]) ++
    indented 1 "\x7b" :: linesAll 2 (part.fields.map (.line ∘ fieldText) ++ initializerLayout part)

theorem linesAll_fileLayout (n : Naming) {d : Declaration} {part : ClassPart}
    (hshape : d.shape = .classShape part) :
    linesAll 0 (fileLayout n d) =
      linesBefore n d part ++ functionsLines n d part ++
        [indented 1 "\x7d", indented 0 "\x7d"] := by
  have hsplit (x y z : Layout) : [x, y, z] = [x, y] ++ [z] := rfl
  unfold fileLayout linesBefore
  rw [hsplit, typeLayout_of_class n hshape, classBody, ← linesAll_flatMap_functionLayout]
  simp only [linesAll_append, linesAll_block]
  simp

/-- Bodies have no part in what comes before the functions. -/
theorem linesBefore_withoutBodies (n : Naming) (d : Declaration) (part : ClassPart) :
    linesBefore n d.withoutBodies part = linesBefore n d part := by
  have himports : imports n d.withoutBodies = imports n d := by
    unfold imports
    rw [Declaration.references_withoutBodies]
    rfl
  unfold linesBefore
  rw [himports]
  rfl

theorem writtenHead_withoutBody (n : Naming) (d : Declaration) (part : ClassPart) (f : Function) :
    writtenHead n d.withoutBodies part f.withoutBody = writtenHead n d part f := rfl

/-- What is written in front of the lines of a body does not depend on them. -/
theorem writtenBody_withoutBody (part : ClassPart) (f : Function) :
    writtenBody part f = writtenBody part f.withoutBody ++ f.body := by
  have hsame : (f.withoutBody.isConstructor = true ∧ (∃ g ∈ part.fields, IsDeferred g) ∧
      ¬ CallsOwnClass f.withoutBody) ↔
      (f.isConstructor = true ∧ (∃ g ∈ part.fields, IsDeferred g) ∧ ¬ CallsOwnClass f) := Iff.rfl
  simp only [writtenBody, hsame]
  split
  · rfl
  · rfl

theorem newline_not_mem_writtenBody {part : ClassPart} {f : Function}
    (h : ∀ line ∈ f.body, '\n' ∉ line.toList) :
    ∀ line ∈ writtenBody part f, '\n' ∉ line.toList := by
  obtain heq | heq := writtenBody_eq part f
  · rwa [heq]
  · rw [heq]
    exact List.forall_mem_cons.mpr ⟨by decide, h⟩

theorem ofLines_functionLines (head : String) (body : List String) :
    ofLines (functionLines head body) = ofLines [indented 2 head, indented 2 "\x7b"] ++
      ofLines (body.map (indented 3) ++ [indented 2 "\x7d"]) := by
  rw [← ofLines_append]
  rfl

/-- The bodies of functions with known heads are read back one after the other. -/
theorem functionsLines_inj {head : Function → String} {part : ClassPart} {fs gs : List Function}
    {rest rest' : List Char} (hsame : fs.map Function.withoutBody = gs.map Function.withoutBody)
    (hfs : ∀ f ∈ fs, ∀ line ∈ f.body, '\n' ∉ line.toList)
    (hgs : ∀ g ∈ gs, ∀ line ∈ g.body, '\n' ∉ line.toList)
    (heq : ofLines (fs.flatMap fun f => functionLines (head f.withoutBody) (writtenBody part f)) ++
        rest =
      ofLines (gs.flatMap fun g => functionLines (head g.withoutBody) (writtenBody part g)) ++
        rest') :
    fs.map (·.body) = gs.map (·.body) := by
  induction fs generalizing gs with
  | nil => rw [List.map_eq_nil_iff.mp hsame.symm]
  | cons f fs ih =>
    obtain ⟨g, gs, rfl, hg, hmore⟩ := List.map_eq_cons_iff.mp hsame.symm
    rw [List.forall_mem_cons] at hfs hgs
    -- the head is cancelled as a whole, since it may hold line ends
    simp only [List.flatMap_cons, ofLines_append _ (List.flatMap _ _), ofLines_functionLines, hg,
      List.append_assoc] at heq
    obtain ⟨hbody, hrest⟩ := block_inj (newline_not_mem_writtenBody hfs.1)
      (newline_not_mem_writtenBody hgs.1) (List.append_cancel_left heq)
    rw [writtenBody_withoutBody, writtenBody_withoutBody part g, hg] at hbody
    rw [List.map_cons, List.map_cons, List.append_cancel_left hbody,
      ih hmore.symm hfs.2 hgs.2 hrest]

/-- The text of a class, with what its bodies have no part in written without them. -/
theorem toList_text_of_render {n : Naming} {d : Declaration} {part : ClassPart} {b : LineBuffer}
    (hshape : d.shape = .classShape part) (h : render n d = .ok b) :
    b.text.toList = ofLines (linesBefore n d.withoutBodies part) ++
      (ofLines (d.functions.flatMap fun f =>
        functionLines (writtenHead n d.withoutBodies part f.withoutBody) (writtenBody part f)) ++
      ofLines [indented 1 "\x7d", indented 0 "\x7d"]) := by
  have hlines := linesAll_fileLayout n hshape
  have hne : linesAll 0 (fileLayout n d) ≠ [] := by
    rw [hlines]
    simp
  rw [eq_upTo_of_render h, LineBuffer.toList_text_upTo hne, hlines, ofLines_append, ofLines_append,
    List.append_assoc, linesBefore_withoutBodies]
  simp only [functionsLines, writtenHead_withoutBody]

/-- Of two classes that differ at most in the bodies of their functions, and have no line ends
within lines of bodies, the texts are equal if and only if the bodies are. -/
theorem text_eq_iff_bodies (n : Naming) {d e : Declaration} {part : ClassPart} {b c : LineBuffer}
    (hshape : d.shape = .classShape part) (hsame : d.withoutBodies = e.withoutBodies)
    (hd : ∀ f ∈ d.functions, ∀ line ∈ f.body, '\n' ∉ line.toList)
    (he : ∀ f ∈ e.functions, ∀ line ∈ f.body, '\n' ∉ line.toList)
    (hb : render n d = .ok b) (hc : render n e = .ok c) :
    b.text = c.text ↔ d.functions.map (·.body) = e.functions.map (·.body) := by
  constructor
  · intro htext
    have hshape' : e.shape = .classShape part := by
      rw [← hshape]
      exact (congrArg Declaration.shape hsame).symm
    rw [← String.toList_inj, toList_text_of_render hshape hb, toList_text_of_render hshape' hc,
      ← hsame] at htext
    exact functionsLines_inj (congrArg Declaration.functions hsame) hd he
      (List.append_cancel_left htext)
  · intro hbodies
    obtain rfl := Declaration.eq_of_withoutBodies hsame hbodies
    rw [Except.ok.inj (hb.symm.trans hc)]

/-- Lines that would end a body and begin the next one, but for their indentation. -/
def imitation : List String := ["\x7d", "public virtual void run()", "\x7b"]

/-- A class with a deferred initializer, a constructor and a method. -/
def twoBodiesClass (first second : List String) : Declaration :=
  { name := "Door"
    functions := [{ name := "Door", isConstructor := true, body := first },
      { name := "run", body := second }]
    shape := .classShape layeredPart }

theorem text_eq_iff_bodies_imitation :
    ∃ b c, render {} (twoBodiesClass ("" :: imitation) [""]) = .ok b ∧
      render {} (twoBodiesClass [""] (imitation ++ [""])) = .ok c ∧
      b.lines.map (·.toList.dropWhile (· = ' ')) = c.lines.map (·.toList.dropWhile (· = ' ')) ∧
      b.text ≠ c.text := by
  have hfault : fault? (twoBodiesClass ("" :: imitation) [""]) = none := by decide +kernel
  have hfault' : fault? (twoBodiesClass [""] (imitation ++ [""])) = none := by decide +kernel
  obtain ⟨b, hb⟩ : ∃ b, render {} (twoBodiesClass ("" :: imitation) [""]) = .ok b :=
    ⟨_, by rw [render_eq, hfault]⟩
  obtain ⟨c, hc⟩ : ∃ c, render {} (twoBodiesClass [""] (imitation ++ [""])) = .ok c :=
    ⟨_, by rw [render_eq, hfault']⟩
  have hshape : (twoBodiesClass ("" :: imitation) [""]).shape = .classShape layeredPart := rfl
  have hsame : (twoBodiesClass ("" :: imitation) [""]).withoutBodies =
      (twoBodiesClass [""] (imitation ++ [""])).withoutBodies := rfl
  refine ⟨b, c, hb, hc, ?_, fun htext => ?_⟩
  · rw [(lines_of_render hb).2, (lines_of_render hc).2]
    decide +kernel
  · have hbodies := (text_eq_iff_bodies {} hshape hsame (by decide +kernel) (by decide +kernel)
      hb hc).mp htext
    exact absurd hbodies (by decide +kernel)

end CSharp

end SharpEmit
