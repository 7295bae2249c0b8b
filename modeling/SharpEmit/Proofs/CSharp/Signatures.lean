/-
SharpEmit/Proofs/CSharp/Signatures.lean

Interfaces beside classes with the same functions.  An interface writes a function as a
signature, a class as a head in front of its body.  The two are put together by different
rules: a signature spells its result whatever that is, a head asks first whether there is a
value; but they come to the same text (`returnText_eq`), and after the words that only a class
has, who may use the function and how, a head goes on as the signature does
(`methodHead_eq`).

Those words can be taken off since they are known (`afterWords?`).  They can also be told from
the text of the head, unless the name of the result has a space in it: a type with the name of
a modifier is escaped (`abridged_methodHead`).

Main result: the signatures of an interface are the heads of a class with the same functions,
constructors left out, without those words and with a semicolon (`signatures_agree`).
-/
import SharpEmit.Proofs.CSharp.Construction
import SharpEmit.Proofs.CSharp.TypeNames

namespace SharpEmit.CSharp

open Layout

/-! ### Heads and signatures -/

/-- A function as it is called: its result, its name and its parameters. -/
def bareHead (n : Naming) (f : Function) : String :=
  optionalTypeName f.returnType ++ " " ++ functionName n f ++ "(" ++ paramsText f.params ++ ")"

theorem signatureLine_eq (n : Naming) (f : Function) : signatureLine n f = bareHead n f ++ ";" := by
  simp [signatureLine, bareHead, String.append_assoc]

/-! ### Words before the result -/

/-- The words before the result in the head of a method: who may use it, and its modifier if it
has one. -/
def leadingWords (isFinal : Bool) (f : Function) : List String :=
  f.visibility.word ::
    (if functionModifier isFinal f = "" then [] else [functionModifier isFinal f])

/-- Words with a space after each. -/
def spaced (words : List String) : String := String.join (words.map (· ++ " "))

theorem methodHead_eq (n : Naming) (isFinal : Bool) (f : Function) :
    methodHead n isFinal f = spaced (leadingWords isFinal f) ++ bareHead n f := by
  unfold methodHead leadingWords spaced bareHead
  rw [returnText_eq]
  by_cases hmodifier : functionModifier isFinal f = ""
  · simp [hmodifier, String.append_assoc]
  · simp [hmodifier, String.append_assoc]

/-- What comes after words at the start of a text, if the text begins with them. -/
def afterWords? : List String → String → Option String
  | [], text => some text
  | word :: words, text =>
    ((word.toList ++ [' ']).isPrefixOf? text.toList).bind fun rest =>
      afterWords? words (String.ofList rest)

theorem afterWords?_spaced (words : List String) (rest : String) :
    afterWords? words (spaced words ++ rest) = some rest := by
  induction words with
  | nil => simp [afterWords?, spaced]
  | cons word words ih =>
    have hprefix : (word.toList ++ [' ']).isPrefixOf? (spaced (word :: words) ++ rest).toList =
        some (spaced words ++ rest).toList := by
      rw [List.isPrefixOf?_eq_some_iff_append_eq]
      simp [spaced]
    rw [afterWords?, hprefix, Option.bind_some, String.ofList_toList, ih]

/-! ### Words told from the text -/

/-- The modifiers that a method can have. -/
def modifierWords : List String := ["static", "override", "virtual"]

/-- The first word of a text, and what comes after the space that ends it. -/
def cutWord (cs : List Char) : List Char × List Char :=
  (cs.takeWhile (· ≠ ' '), (cs.dropWhile (· ≠ ' ')).tail)

/-- A head without its first word, and without the second one if that is a modifier. -/
def abridged (head : String) : String :=
  let rest := (cutWord head.toList).2
  if String.ofList (cutWord rest).1 ∈ modifierWords then String.ofList (cutWord rest).2
  else String.ofList rest

theorem takeWhile_append_of_no_space {word : List Char} (h : ' ' ∉ word) (rest : List Char) :
    (word ++ rest).takeWhile (· ≠ ' ') = word ++ rest.takeWhile (· ≠ ' ') := by
  apply List.takeWhile_append_of_pos
  intro c hc
  exact decide_eq_true fun hspace => h (hspace ▸ hc)

theorem cutWord_append {word : List Char} (h : ' ' ∉ word) (rest : List Char) :
    cutWord (word ++ ' ' :: rest) = (word, rest) := by
  have hdrop : (word ++ ' ' :: rest).dropWhile (· ≠ ' ') = ' ' :: rest := by
    rw [List.dropWhile_append_of_pos]
    · simp
    · intro c hc
      exact decide_eq_true fun hspace => h (hspace ▸ hc)
  rw [cutWord, hdrop, takeWhile_append_of_no_space h]
  simp

theorem functionModifier_mem (isFinal : Bool) (f : Function) :
    functionModifier isFinal f = "" ∨ functionModifier isFinal f ∈ modifierWords := by
  unfold functionModifier modifierWords
  repeat' split
  all_goals simp

/-- The head of a type is no modifier, and has a space only if the name has one. -/
theorem typeHead_not_mem_modifierWords (name : String) (package : List String) :
    typeHead name package ∉ modifierWords ∧
      (' ' ∉ name.toList → ' ' ∉ (typeHead name package).toList) := by
  have hreserved : ∀ word ∈ modifierWords, word ∈ keywords := by decide +kernel
  have hbuiltin : ∀ e ∈ builtinTypes, e.2 ∉ modifierWords ∧ ' ' ∉ e.2.toList := by decide +kernel
  rcases typeHead_cases name package with hhead | ⟨-, hmem⟩
  · rw [hhead]
    refine ⟨fun hword => identifier_not_mem_keywords name (hreserved _ hword), fun hname hspace => ?_⟩
    exact hname (mem_identifier (by decide) hspace)
  · exact ⟨(hbuiltin _ hmem).1, fun _ => (hbuiltin _ hmem).2⟩

/-- The name of a type without a space in its own name begins with a word that is no modifier,
and ends there or goes on with a bracket. -/
theorem typeName_begins {t : TypeRef} (h : ' ' ∉ t.name.toList) :
    ∃ head args, (typeName t).toList = head.toList ++ TypeTree.bracketed args ∧
      ' ' ∉ head.toList ∧ head ∉ modifierWords := by
  obtain ⟨name, package, args, kind⟩ := t
  rw [toList_typeName, erased]
  split
  · exact ⟨"void", [], by rw [TypeTree.chars], by decide, by decide⟩
  · obtain ⟨hword, hspace⟩ := typeHead_not_mem_modifierWords name package
    exact ⟨typeHead name package, erasedAll args, by rw [TypeTree.chars], hspace h, hword⟩

/-- The first word of what follows the words of a class is not taken for one of them. -/
theorem cutWord_bareHead (n : Naming) {f : Function}
    (h : ∀ t, f.returnType = some t → ' ' ∉ t.name.toList) :
    String.ofList (cutWord (bareHead n f).toList).1 ∉ modifierWords := by
  obtain ⟨head, args, hresult, hspace, hword⟩ : ∃ head args,
      (optionalTypeName f.returnType).toList = head.toList ++ TypeTree.bracketed args ∧
        ' ' ∉ head.toList ∧ head ∉ modifierWords := by
    cases hreturn : f.returnType with
    | none => exact ⟨"void", [], rfl, by decide, by decide⟩
    | some t => exact typeName_begins (h t hreturn)
  have hbare : ∃ rest, (bareHead n f).toList =
      head.toList ++ (TypeTree.bracketed args ++ ' ' :: rest) := by
    refine ⟨(functionName n f ++ "(" ++ paramsText f.params ++ ")").toList, ?_⟩
    simp [bareHead, hresult]
  obtain ⟨rest, hbare⟩ := hbare
  rw [hbare, cutWord, takeWhile_append_of_no_space hspace]
  cases args with
  | nil =>
    rw [TypeTree.bracketed, List.nil_append, List.takeWhile_cons_of_neg (by simp), List.append_nil,
      String.ofList_toList]
    exact hword
  | cons a args =>
    -- with arguments the word has a bracket in it
    have hplain : ∀ word ∈ modifierWords, '<' ∉ word.toList := by decide +kernel
    intro hmem
    apply hplain _ hmem
    rw [TypeTree.bracketed, List.cons_append, List.takeWhile_cons_of_pos (by decide),
      String.toList_ofList]
    exact List.mem_append_right _ List.mem_cons_self

/-- Without a space in the name of its result, a head shows which words are those of the
class. -/
theorem abridged_methodHead (n : Naming) (isFinal : Bool) {f : Function}
    (h : ∀ t, f.returnType = some t → ' ' ∉ t.name.toList) :
    abridged (methodHead n isFinal f) = bareHead n f := by
  have hvisibility : ' ' ∉ f.visibility.word.toList := by cases f.visibility <;> decide
  have hfirst : ∀ rest : String,
      (cutWord (f.visibility.word ++ " " ++ rest).toList).2 = rest.toList := by
    intro rest
    have hchars : (f.visibility.word ++ " " ++ rest).toList =
        f.visibility.word.toList ++ ' ' :: rest.toList := by simp
    rw [hchars, cutWord_append hvisibility]
  rw [methodHead_eq, leadingWords]
  by_cases hmodifier : functionModifier isFinal f = ""
  · -- the next word is one of the bare head, which has no modifiers
    have hhead : spaced [f.visibility.word] ++ bareHead n f =
        f.visibility.word ++ " " ++ bareHead n f := by simp [spaced]
    rw [if_pos hmodifier, hhead, abridged, hfirst, if_neg (cutWord_bareHead n h),
      String.ofList_toList]
  · have hhead : spaced [f.visibility.word, functionModifier isFinal f] ++ bareHead n f =
        f.visibility.word ++ " " ++ (functionModifier isFinal f ++ " " ++ bareHead n f) := by
      simp [spaced, String.append_assoc]
    have hword := (functionModifier_mem isFinal f).resolve_left hmodifier
    have hspace : ' ' ∉ (functionModifier isFinal f).toList := by
      have hwords : ∀ word ∈ modifierWords, ' ' ∉ word.toList := by decide +kernel
      exact hwords _ hword
    have hchars : (functionModifier isFinal f ++ " " ++ bareHead n f).toList =
        (functionModifier isFinal f).toList ++ ' ' :: (bareHead n f).toList := by simp
    rw [if_neg hmodifier, hhead, abridged, hfirst, hchars, cutWord_append hspace]
    simp only [String.ofList_toList]
    rw [if_pos hword]

/-! ### Interfaces and classes -/

/-- The functions of a declaration that are no constructors. -/
def methods (d : Declaration) : List Function := d.functions.filter (!·.isConstructor)

/-- The lines of an interface from its head on. -/
def interfaceLines (d : Declaration) (signatures : List String) : List String :=
  indented 1 (interfaceHead d) :: "    \x7b" :: signatures.map (indented 2) ++
    ["    \x7d", "\x7d"]

/-- An interface comes last in its file, with a signature for each method. -/
theorem interfaceLines_suffix_fileLayout (n : Naming) {d : Declaration}
    (hshape : d.shape = .interfaceShape) :
    interfaceLines d ((methods d).map (signatureLine n)) <:+ linesAll 0 (fileLayout n d) := by
  have htype : linesAll 1 (typeLayout n d) ++ ["\x7d"] =
      interfaceLines d ((methods d).map (signatureLine n)) := by
    have hlayout : typeLayout n d = [.line (interfaceHead d)] ++
        [.block (((methods d).map (signatureLine n)).map .line)] := by
      unfold typeLayout
      rw [hshape, interfaceHead_eq_text, funext (signatureLine_eq_text n)]
      rfl
    rw [hlayout, linesAll_append, linesAll_line, linesAll_block, linesAll_map_line, interfaceLines]
    simp only [List.cons_append, List.nil_append, List.append_assoc]
    rfl
  rw [← htype]
  exact typeLayout_suffix_fileLayout n d

theorem writtenHead_of_mem_methods (n : Naming) {d : Declaration} (part : ClassPart) {f : Function}
    (hf : f ∈ methods d) : writtenHead n d part f = methodHead n part.isFinal f := by
  obtain ⟨-, hplain⟩ := List.mem_filter.mp hf
  exact writtenHead_of_method n d part (by simpa using hplain)

/-- An interface and a class with the same functions, both rendered, write them alike.  The
signatures of the interface are, in order, what is left of the heads of the class that are not
those of constructors when the visibility and the modifier are taken off and a semicolon is
put behind.  If no name of a result has a space in it, the words to take off can be told from
the text of the head. -/
theorem signatures_agree (n : Naming) {i c : Declaration} {part : ClassPart} {b b' : LineBuffer}
    (hi : i.shape = .interfaceShape) (hc : c.shape = .classShape part)
    (hsame : i.functions = c.functions) (hb : render n i = .ok b) (hb' : render n c = .ok b') :
    ∃ signatures : List String,
      interfaceLines i signatures <:+ b.lines ∧
      functionsLines n c part ++ ["    \x7d", "\x7d"] <:+ b'.lines ∧
      signatures.map some = (methods c).map (fun f =>
        (afterWords? (leadingWords part.isFinal f) (writtenHead n c part f)).map (· ++ ";")) ∧
      ((∀ f ∈ methods c, ∀ t, f.returnType = some t → ' ' ∉ t.name.toList) →
        signatures = (methods c).map fun f => abridged (writtenHead n c part f) ++ ";") := by
  obtain ⟨-, hlines⟩ := lines_of_render hb
  obtain ⟨-, hlines'⟩ := lines_of_render hb'
  have hmethods : methods i = methods c := congrArg (List.filter _) hsame
  refine ⟨(methods c).map (signatureLine n), ?_, ?_, ?_, fun hspace => ?_⟩
  · rw [hlines, ← hmethods]
    exact interfaceLines_suffix_fileLayout n hi
  · rw [hlines']
    exact functionsLines_suffix_fileLayout n hc
  · rw [List.map_map]
    apply List.map_congr_left
    intro f hf
    rw [writtenHead_of_mem_methods n part hf, methodHead_eq, afterWords?_spaced, Option.map_some,
      ← signatureLine_eq]
    rfl
  · apply List.map_congr_left
    intro f hf
    rw [writtenHead_of_mem_methods n part hf, abridged_methodHead n part.isFinal (hspace f hf),
      signatureLine_eq]

/-- A constructor, a getter, a static method with a modifier for the name of its result, an
overriding one that returns nothing, and a private one of which no result is known. -/
def sharedFunctions : List Function :=
  [{ name := "Shape", isConstructor := true },
   { name := "width", isGetter := true, returnType := some (.ofPrimitive "Number") },
   { name := "unit", isStatic := true, returnType := some { name := "virtual" } },
   { name := "reset", isOverride := true, visibility := .prot,
     returnType := some { name := "void", kind := .void } },
   { name := "log", visibility := .priv, params := [⟨"base", some { name := "String" }⟩] }]

/-- An interface with these functions. -/
def shapeInterface : Declaration :=
  { name := "IShape", functions := sharedFunctions, shape := .interfaceShape }

/-- A class with these functions. -/
def shapeClass : Declaration :=
  { name := "Shape", functions := sharedFunctions, shape := .classShape {} }

theorem signatures_agree_shapes :
    ∃ b b', render {} shapeInterface = .ok b ∧ render {} shapeClass = .ok b' ∧
      ∃ signatures, interfaceLines shapeInterface signatures <:+ b.lines ∧
        functionsLines {} shapeClass {} ++ ["    \x7d", "\x7d"] <:+ b'.lines ∧
        (methods shapeClass).map (writtenHead {} shapeClass {}) =
          ["public virtual float getWidth()", "public static @virtual unit()",
            "protected override void reset()", "private void log(String @base)"] ∧
        signatures = ["float getWidth();", "@virtual unit();", "void reset();",
          "void log(String @base);"] := by
  have hfault : fault? shapeInterface = none := by decide +kernel
  have hfault' : fault? shapeClass = none := by decide +kernel
  obtain ⟨b, hb⟩ := exists_render_of_fault? {} hfault
  obtain ⟨b', hb'⟩ := exists_render_of_fault? {} hfault'
  obtain ⟨signatures, hlines, hlines', -, htext⟩ := @signatures_agree {} shapeInterface shapeClass {}
    b b' rfl rfl rfl hb hb'
  have hspace : ∀ f ∈ methods shapeClass, ∀ t, f.returnType = some t → ' ' ∉ t.name.toList := by
    have hresults : ∀ t ∈ (methods shapeClass).filterMap (·.returnType), ' ' ∉ t.name.toList := by
      decide +kernel
    intro f hf t ht
    exact hresults t (List.mem_filterMap.mpr ⟨f, hf, ht⟩)
  refine ⟨b, b', hb, hb', signatures, hlines, hlines', by decide +kernel, (htext hspace).trans ?_⟩
  decide +kernel

end SharpEmit.CSharp
