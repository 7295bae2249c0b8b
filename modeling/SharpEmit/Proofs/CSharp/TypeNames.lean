/-
SharpEmit/Proofs/CSharp/TypeNames.lean

What the name of a type shows.  A reference is written with its head and, in brackets, with its
arguments; the package, the kind and what a name was before it became a head are not shown, and
of a type without a value nothing but `void`.  What is left is a tree of heads (`erased`), and
the name is spelled from it alone (`toList_typeName`).

Heads without brackets and commas end where a bracket or a comma begins, or the text ends.  So a
spelled tree is cut off from what follows it in one way only, and by induction on the tree it is
read back (`chars_inj`).

Main result: references whose names hold no brackets and commas have the same name in C# if and
only if they have the same tree (`typeName_eq_iff_erased`).
-/
import SharpEmit.Proofs.CSharp.Imports
import SharpEmit.Proofs.CSharp.MethodNames
import SharpEmit.Proofs.Text.Boundaries

namespace SharpEmit.CSharp

open Text

/-! ### Trees of heads -/

/-- The head of a type, and below it those of its arguments. -/
inductive TypeTree where
  | node (head : String) (args : List TypeTree)

mutual

/-- What the name of a reference shows.  Of a type without a value, or a missing one, that is
`void` and none of its arguments. -/
def erased : TypeRef → TypeTree
  | ⟨name, package, args, kind⟩ =>
    if kind = .void ∨ kind = .absent then .node "void" []
    else .node (typeHead name package) (erasedAll args)

/-- What the names of references show, one by one. -/
def erasedAll : List TypeRef → List TypeTree
  | [] => []
  | t :: ts => erased t :: erasedAll ts

end

namespace TypeTree

mutual

/-- The spelling of a tree. -/
def chars : TypeTree → List Char
  | .node head args => head.toList ++ bracketed args

/-- The spelling of arguments in brackets; there are no brackets without an argument. -/
def bracketed : List TypeTree → List Char
  | [] => []
  | a :: as => '<' :: (chars a ++ further as)

/-- The spelling of the arguments after another one, up to the bracket that ends them. -/
def further : List TypeTree → List Char
  | [] => ['>']
  | a :: as => ',' :: ' ' :: (chars a ++ further as)

end

end TypeTree

open TypeTree

/-! ### Names are spelled trees -/

mutual

/-- The name of a reference is the spelling of its tree. -/
theorem toList_typeName : ∀ t, (typeName t).toList = (erased t).chars
  | ⟨name, package, args, kind⟩ => by
    rw [typeName, erased]
    split
    · simp [chars, bracketed]
    · cases args with
      | nil => simp [erasedAll, chars, bracketed]
      | cons t ts =>
        have hmore := intercalate_typeNames ts (typeName t).toList
        rw [toList_typeName t] at hmore
        simp [typeNames, erasedAll, chars, bracketed, toList_typeName t, hmore]

/-- Names after a first text, with commas between them and the bracket that ends them. -/
theorem intercalate_typeNames : ∀ ts first,
    [',', ' '].intercalate (first :: (typeNames ts).map String.toList) ++ ['>'] =
      first ++ further (erasedAll ts)
  | [], first => by simp [typeNames, erasedAll, further]
  | t :: ts, first => by
    have hmore := intercalate_typeNames ts (typeName t).toList
    rw [toList_typeName t] at hmore
    simp [typeNames, erasedAll, further, toList_typeName t, hmore]

end

/-! ### Trees are read back -/

/-- A character that ends a head. -/
def IsDelimiter (c : Char) : Prop := c ∈ ['<', '>', ',']

instance (c : Char) : Decidable (IsDelimiter c) := inferInstanceAs (Decidable (_ ∈ _))

/-- A character that ends an argument. -/
def EndsArgument (c : Char) : Prop := c ∈ ['>', ',']

instance (c : Char) : Decidable (EndsArgument c) := inferInstanceAs (Decidable (_ ∈ _))

/-- The text is free of brackets and commas. -/
def IsPlain (text : String) : Prop := ∀ c ∈ text.toList, ¬ IsDelimiter c

instance (text : String) : Decidable (IsPlain text) :=
  List.decidableBAll (fun c => ¬ IsDelimiter c) text.toList

/-- Every head of the tree is plain. -/
inductive TypeTree.Plain : TypeTree → Prop
  | node {head : String} {args : List TypeTree} :
      IsPlain head → (∀ a ∈ args, Plain a) → Plain (.node head args)

theorem breaks_further (as : List TypeTree) (rest : List Char) :
    Breaks EndsArgument (further as ++ rest) := by
  cases as with
  | nil => exact .cons (by decide) _
  | cons a as => exact .cons (by decide) _

/-- Where an argument can end, a head can. -/
theorem breaks_bracketed {rest : List Char} (h : Breaks EndsArgument rest) (as : List TypeTree) :
    Breaks IsDelimiter (bracketed as ++ rest) := by
  cases as with
  | nil =>
    intro c hc
    exact List.mem_cons_of_mem _ (h c hc)
  | cons a as => exact .cons (by decide) _

/-- Arguments in brackets are spelled as they are after another one, but for the first
characters. -/
theorem further_eq_of_bracketed {as bs : List TypeTree} {rest rest' : List Char}
    (hrest : Breaks EndsArgument rest) (hrest' : Breaks EndsArgument rest')
    (h : bracketed as ++ rest = bracketed bs ++ rest') :
    further as ++ rest = further bs ++ rest' := by
  -- where there are no arguments, no bracket can follow
  have hopen : ∀ cs, ¬ Breaks EndsArgument ('<' :: cs) := by
    intro cs hcs
    exact absurd (hcs _ rfl) (by decide)
  cases as with
  | nil =>
    cases bs with
    | nil => exact congrArg _ h
    | cons b bs =>
      rw [bracketed, List.nil_append] at h
      exact absurd (h ▸ hrest) (hopen _)
  | cons a as =>
    cases bs with
    | nil =>
      rw [bracketed, bracketed, List.nil_append] at h
      exact absurd (h ▸ hrest') (hopen _)
    | cons b bs => simpa [bracketed, further] using h

mutual

/-- A spelled tree is read in one way only, where an argument can end after it. -/
theorem chars_inj : ∀ {a b : TypeTree} {rest rest' : List Char}, a.Plain → b.Plain →
    Breaks EndsArgument rest → Breaks EndsArgument rest' →
    a.chars ++ rest = b.chars ++ rest' → a = b ∧ rest = rest'
  | .node head as, .node head' bs, rest, rest', .node hhead has, .node hhead' hbs, hrest, hrest',
      h => by
    rw [chars, chars, List.append_assoc, List.append_assoc] at h
    obtain ⟨hheads, hargs⟩ := append_inj_of_breaks hhead hhead' (breaks_bracketed hrest as)
      (breaks_bracketed hrest' bs) h
    obtain rfl := String.toList_inj.mp hheads
    obtain ⟨rfl, rfl⟩ := further_inj has hbs (further_eq_of_bracketed hrest hrest' hargs)
    exact ⟨rfl, rfl⟩

/-- So are arguments, up to the bracket that ends them. -/
theorem further_inj : ∀ {as bs : List TypeTree} {rest rest' : List Char},
    (∀ a ∈ as, a.Plain) → (∀ b ∈ bs, b.Plain) →
    further as ++ rest = further bs ++ rest' → as = bs ∧ rest = rest'
  | [], [], _, _, _, _, h => ⟨rfl, (List.cons.inj h).2⟩
  | [], _ :: _, _, _, _, _, h => absurd (List.cons.inj h).1 (by decide)
  | _ :: _, [], _, _, _, _, h => absurd (List.cons.inj h).1 (by decide)
  | a :: as, b :: bs, rest, rest', has, hbs, h => by
    have hargs : a.chars ++ (further as ++ rest) = b.chars ++ (further bs ++ rest') := by
      simpa [further] using h
    obtain ⟨rfl, hfurther⟩ := chars_inj (has a List.mem_cons_self) (hbs b List.mem_cons_self)
      (breaks_further as rest) (breaks_further bs rest') hargs
    obtain ⟨rfl, rfl⟩ := further_inj (fun a ha => has a (List.mem_cons_of_mem _ ha))
      (fun b hb => hbs b (List.mem_cons_of_mem _ hb)) hfurther
    exact ⟨rfl, rfl⟩

end

/-! ### References with plain names -/

/-- No name within the reference holds a bracket or a comma. -/
def HasPlainNames (t : TypeRef) : Prop := ∀ u, TypeRef.Within u t → IsPlain u.name

/-- The head of a type is its name as an identifier, or that of a built-in type. -/
theorem typeHead_cases (name : String) (package : List String) :
    typeHead name package = identifier name ∨
      package = [] ∧ (name, typeHead name package) ∈ builtinTypes := by
  unfold typeHead
  split
  · rename_i builtin hlookup
    obtain ⟨hpackage, hlookup⟩ := Option.ite_none_right_eq_some.mp hlookup
    obtain ⟨before, after, hlist, -⟩ := List.lookup_eq_some_iff.mp hlookup
    refine .inr ⟨hpackage, ?_⟩
    rw [hlist]
    exact List.mem_append_right _ List.mem_cons_self
  · exact .inl rfl

theorem isPlain_typeHead {name : String} (h : IsPlain name) (package : List String) :
    IsPlain (typeHead name package) := by
  have hbuiltin : ∀ e ∈ builtinTypes, IsPlain e.2 := by decide +kernel
  rcases typeHead_cases name package with hhead | ⟨-, hmem⟩
  · intro c hc hdelimiter
    have hat : c ≠ '@' := by
      rintro rfl
      exact absurd hdelimiter (by decide)
    rw [hhead] at hc
    exact h c (mem_identifier hat hc) hdelimiter
  · exact hbuiltin _ hmem

mutual

theorem plain_erased : ∀ t, HasPlainNames t → (erased t).Plain
  | ⟨name, package, args, kind⟩, h => by
    rw [erased]
    split
    · exact .node (by decide) (by simp)
    · refine .node (isPlain_typeHead (h _ .self) package) ?_
      exact plain_erasedAll args fun t ht u hu => h u (.arg ht hu)

theorem plain_erasedAll : ∀ ts, (∀ t ∈ ts, HasPlainNames t) → ∀ a ∈ erasedAll ts, a.Plain
  | [], _ => by simp [erasedAll]
  | t :: ts, h => by
    rw [erasedAll, List.forall_mem_cons]
    exact ⟨plain_erased t (h t List.mem_cons_self),
      plain_erasedAll ts fun u hu => h u (List.mem_cons_of_mem _ hu)⟩

end

/-- Two references whose names hold no brackets and commas have the same name in C# if and only
if their trees are the same.  Spaces in names do no harm. -/
theorem typeName_eq_iff_erased {t u : TypeRef} (ht : HasPlainNames t) (hu : HasPlainNames u) :
    typeName t = typeName u ↔ erased t = erased u := by
  rw [← String.toList_inj, toList_typeName, toList_typeName]
  constructor
  · intro h
    refine (chars_inj (plain_erased t ht) (plain_erased u hu) .nil .nil ?_).1
    rw [h]
  · intro h
    rw [h]

/-- A map from anything to functions without a result. -/
def looseMap : TypeRef :=
  { name := "Map"
    package := ["util"]
    args := [{ name := "*" },
      { name := "Function"
        args := [{ name := "none", args := [.ofPrimitive "int"], kind := .void }] }] }

/-- Another map, written in the same way. -/
def objectMap : TypeRef :=
  { name := "Map"
    args := [{ name := "Object", kind := .primitive },
      { name := "Function", args := [{ name := "void" }], kind := .functionType }] }

/-- A map to plain functions, which is written in another way. -/
def plainMap : TypeRef :=
  { name := "Map", args := [{ name := "Object" }, { name := "Function" }, { name := "void" }] }

theorem hasPlainNames_of_withArgs {t : TypeRef}
    (h : ∀ u ∈ TypeRef.withArgs [t], IsPlain u.name) : HasPlainNames t :=
  fun u hu => h u (TypeRef.mem_withArgs_iff.mpr ⟨t, List.mem_singleton.mpr rfl, hu⟩)

/-- Of the three maps the first two have the same tree, `Map<Object, Function<void>>`. -/
theorem typeName_eq_iff_erased_maps :
    (typeName looseMap = "Map<Object, Function<void>>" ∧ erased looseMap = erased objectMap) ∧
      typeName plainMap = "Map<Object, Function, void>" ∧ erased looseMap ≠ erased plainMap := by
  have hloose : HasPlainNames looseMap := hasPlainNames_of_withArgs (by decide +kernel)
  have hobject : HasPlainNames objectMap := hasPlainNames_of_withArgs (by decide +kernel)
  have hplain : HasPlainNames plainMap := hasPlainNames_of_withArgs (by decide +kernel)
  refine ⟨⟨by decide +kernel, (typeName_eq_iff_erased hloose hobject).mp (by decide +kernel)⟩,
    by decide +kernel, fun h => ?_⟩
  exact absurd ((typeName_eq_iff_erased hloose hplain).mpr h) (by decide +kernel)

end SharpEmit.CSharp
