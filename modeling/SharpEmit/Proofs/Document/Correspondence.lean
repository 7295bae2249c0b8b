/-
SharpEmit/Proofs/Document/Correspondence.lean

What a document has and what was read of it, part by part.  Five keys hold values whose items
are read one by one: function types, functions and fields, which are objects, and interfaces
and type arguments, which are types.  Under such a key a list gives one thing for each of its
items, in order (`Listed`).  That the value is a list is not tested, and a walk over it also
meets the characters of a text and the keys of an object (`Walked`).  Since characters and keys
are texts, they are never read as function types, functions or fields, so there the value must
then be empty; but every text is a type.

Main result: in a loaded document this is all that can stand under these keys, in every
element and in every type object at whatever depth (`load_correspondence`).  In particular a
text in the place of a list of interfaces is spelled out (`load_of_text_interfaces`).
-/
import Mathlib.Data.List.Forall2
import SharpEmit.Proofs.Document.Failure
import SharpEmit.Proofs.Document.Resolution

namespace SharpEmit.Document

/-! ### Items -/

section Items

variable {α : Type} {Item : Json → α → Prop}

/-- A list whose items were read, each in its turn; or nothing, and nothing was read. -/
inductive Listed (Item : Json → α → Prop) : Option Json → List α → Prop
  | missing : Listed Item none []
  | list {items as} : List.Forall₂ Item items as → Listed Item (some (.arr items)) as

/-- A value whose items were read, each in its turn; the items of a text are its characters,
those of an object its keys. -/
inductive Walked (Item : Json → α → Prop) : Option Json → List α → Prop
  | listed {found as} : Listed Item found as → Walked Item found as
  | text {s as} : List.Forall₂ Item (s.toList.map fun c => .str (.singleton c)) as →
      Walked Item (some (.str s)) as
  | keys {members as} : List.Forall₂ Item (members.map fun m => .str m.1) as →
      Walked Item (some (.obj members)) as

/-- A list whose items were read, or nothing of which nothing was: a missing value, or an empty
text or object. -/
def ListedOrEmpty (Item : Json → α → Prop) (found : Option Json) (as : List α) : Prop :=
  Listed Item found as ∨ ((found = some (.str "") ∨ found = some (.obj [])) ∧ as = [])

theorem exists_item_of_forall₂ {items : List Json} {as : List α} (h : List.Forall₂ Item items as) :
    ∀ a ∈ as, ∃ item, Item item a := by
  induction h with
  | nil => simp
  | cons hitem _ ih => exact List.forall_mem_cons.mpr ⟨⟨_, hitem⟩, ih⟩

/-- What was read was read from something. -/
theorem Listed.exists_item {found : Option Json} {as : List α} (h : Listed Item found as) :
    ∀ a ∈ as, ∃ item, Item item a := by
  cases h with
  | missing => simp
  | list hitems => exact exists_item_of_forall₂ hitems

theorem ListedOrEmpty.exists_item {found : Option Json} {as : List α}
    (h : ListedOrEmpty Item found as) : ∀ a ∈ as, ∃ item, Item item a := by
  rcases h with hlisted | ⟨-, rfl⟩
  · exact hlisted.exists_item
  · simp

theorem walked_of_items {found : Option Json} {items : List Json} {as : List α}
    (hitems : (found.getD (.arr [])).items = .ok items) (h : List.Forall₂ Item items as) :
    Walked Item found as := by
  cases found with
  | none =>
    cases hitems
    cases h
    exact .listed .missing
  | some value =>
    cases value with
    | arr items =>
      cases hitems
      exact .listed (.list h)
    | str s =>
      cases hitems
      exact .text h
    | obj members =>
      cases hitems
      exact .keys h
    | _ => cases hitems

/-- Where only objects are read there is no character and no key to read. -/
theorem Walked.listedOrEmpty (hobject : ∀ s a, ¬ Item (.str s) a) {found : Option Json}
    {as : List α} (h : Walked Item found as) : ListedOrEmpty Item found as := by
  cases h with
  | listed hlisted => exact .inl hlisted
  | @text s as hitems =>
    cases hchars : s.toList with
    | nil =>
      rw [hchars] at hitems
      cases hitems
      exact .inr ⟨.inl (congrArg (some ∘ Json.str) (String.toList_eq_nil_iff.mp hchars)), rfl⟩
    | cons c rest =>
      -- the first character would have been read
      rw [hchars] at hitems
      cases hitems with
      | cons hitem _ => exact absurd hitem (hobject _ _)
  | @keys members as hitems =>
    cases members with
    | nil =>
      cases hitems
      exact .inr ⟨.inr rfl, rfl⟩
    | cons m rest =>
      cases hitems with
      | cons hitem _ => exact absurd hitem (hobject _ _)

end Items

/-! ### Parts of a document -/

/-- A type read from a value: a dotted text without arguments, or an object whose arguments
are types in their turn. -/
inductive TypeFrom : Json → TypeRef → Prop
  | text {s t} : Text.splitQualified s = (t.package, t.name) → t.args = [] →
      TypeFrom (.str s) t
  | object {members t} : Named members t.name →
      Walked TypeFrom (Json.lookup "args" members) t.args → TypeFrom (.obj members) t

/-- A type read from what was found, if one was read. -/
def OptionalTypeFrom (found : Option Json) (type : Option TypeRef) : Prop :=
  ∀ t ∈ type, ∃ value, found = some value ∧ TypeFrom value t

/-- Something with a type, read from an object. -/
inductive TypedFrom : Json → String → Option TypeRef → Prop
  | mk {members name value t} : Named members name → Json.lookup "type" members = some value →
      TypeFrom value t → TypedFrom (.obj members) name (some t)

/-- A parameter read from an object. -/
def ParamFrom (value : Json) (p : Param) : Prop := TypedFrom value p.name p.type

/-- A field read from an object. -/
def FieldFrom (value : Json) (f : Field) : Prop := TypedFrom value f.name f.type

/-- Something with a result and parameters, read from an object. -/
inductive SignatureFrom : Json → String → Option TypeRef → List Param → Prop
  | mk {members name returnType params} : Named members name →
      OptionalTypeFrom (Json.lookup "returns" members) returnType →
      Listed ParamFrom (Json.lookup "params" members) params →
      SignatureFrom (.obj members) name returnType params

/-- A function read from an object. -/
def FunctionFrom (value : Json) (f : Function) : Prop :=
  SignatureFrom value f.name f.returnType f.params

/-- A function type read from an object. -/
def AliasFrom (value : Json) (a : Alias) : Prop :=
  SignatureFrom value a.name a.returnType a.params

/-- What only a class has, read from the members of an element. -/
structure ClassPartFrom (members : Members) (part : ClassPart) : Prop where
  fields : ListedOrEmpty FieldFrom (Json.lookup "fields" members) part.fields
  base : OptionalTypeFrom (Json.lookup "extends" members) part.base
  interfaces : Walked TypeFrom (Json.lookup "implements" members) part.interfaces

/-- A declaration read from an element. -/
inductive DeclarationFrom : Json → Declaration → Prop
  | mk {members d} : Named members d.name →
      ListedOrEmpty AliasFrom (Json.lookup "functionTypes" members) d.aliases →
      ListedOrEmpty FunctionFrom (Json.lookup "functions" members) d.functions →
      (∀ part, d.shape = .classShape part → ClassPartFrom members part) →
      DeclarationFrom (.obj members) d

/-! ### Reading them -/

/-- What stands for a missing type is no type. -/
theorem TypeFrom.of_getD {members : Members} {key : String} {t : TypeRef}
    (h : TypeFrom (members.getD key .null) t) :
    ∃ value, Json.lookup key members = some value ∧ TypeFrom value t := by
  refine ⟨members.getD key .null, lookup_of_getD rfl ?_, h⟩
  intro hnull
  rw [← hnull] at h
  cases h

section Readers

variable {α : Type} {Item : Json → α → Prop} {scope : List String}

theorem eachFrom_from {read : Pointer → Json → Loaded α}
    (h : ∀ place item, Gives (Item item) (read place item)) (place : Pointer) (i : Nat)
    (items : List Json) : Gives (List.Forall₂ Item items) (eachFrom read place i items) := by
  induction items generalizing i with
  | nil => exact .ok .nil
  | cons item rest ih =>
    refine (h _ item).bind fun a ha => ?_
    exact (ih (i + 1)).bind fun as has => .ok (.cons ha has)

/-- The items of what is under a key are read in their order. -/
theorem each_walked {read : Pointer → Json → Loaded α}
    (h : ∀ place item, Gives (Item item) (read place item)) (place : Pointer) {members : Members}
    {key : String} {items : List Json} (hitems : (members.getD key (.arr [])).items = .ok items) :
    Gives (Walked Item (Json.lookup key members)) (each read place items) :=
  fun as has => walked_of_items hitems (eachFrom_from h place 0 items as has)

/-- The items of a list under a key are read in their order. -/
theorem list_from {read : Pointer → Json → Loaded α}
    (h : ∀ place item, Gives (Item item) (read place item)) (place : Pointer) (members : Members)
    (key : String) :
    Gives (Listed Item (Json.lookup key members))
      (listAt place (members.getD key (.arr [])) >>= each read place) := by
  have hitems : Gives (fun items => members.getD key (.arr []) = .arr items)
      (listAt place (members.getD key (.arr []))) := fun _ => eq_of_listAt
  refine hitems.bind fun items hitems as has => ?_
  have has := eachFrom_from h place 0 items as has
  cases hlookup : Json.lookup key members with
  | none =>
    -- the empty list stands for the missing one
    rw [Members.getD, hlookup] at hitems
    cases hitems
    cases has
    exact .missing
  | some value =>
    rw [Members.getD, hlookup] at hitems
    cases hitems
    exact .list has

/-! #### Types -/

mutual

/-- A type is read from its value, and its arguments from the items of theirs. -/
theorem typeAt_from (place : Pointer) : ∀ value, Gives (TypeFrom value) (typeAt scope place value)
  | .str s => by
    rw [typeAt]
    exact .ok (.text rfl rfl)
  | .obj members => by
    rw [typeAt]
    refine (nameAt_gives _ members).bind fun name hname => ?_
    refine (argsAt_from (place.key "args") members).bind fun args hargs => ?_
    exact .after _ fun package => .ok (.object hname hargs)
  | .null | .bool _ | .int _ | .real _ | .arr _ => by
    rw [typeAt]
    · exact .error _
    all_goals simp

theorem argsAt_from (place : Pointer) :
    ∀ members : Members,
      Gives (Walked TypeFrom (Json.lookup "args" members)) (argsAt scope place members)
  | [] => by
    rw [argsAt]
    exact .ok (.listed .missing)
  | (key, value) :: rest => by
    rw [argsAt, lookup_cons]
    split
    · exact argItemsAt_from place value
    · exact argsAt_from place rest

theorem argItemsAt_from (place : Pointer) :
    ∀ value, Gives (Walked TypeFrom (some value)) (argItemsAt scope place value)
  | .arr items => by
    rw [argItemsAt]
    exact fun ts hts => .listed (.list (typesFrom_from place 0 items ts hts))
  | .str s => by
    -- a character is read as a dotted text, so it is a type without arguments
    rw [argItemsAt]
    refine .ok (.text ?_)
    rw [List.forall₂_map_left_iff, List.forall₂_map_right_iff, List.forall₂_same]
    exact fun c _ => .text rfl rfl
  | .obj members => by
    rw [argItemsAt]
    refine .ok (.keys ?_)
    rw [List.forall₂_map_left_iff, List.forall₂_map_right_iff, List.forall₂_same]
    exact fun m _ => .text rfl rfl
  | .null | .bool _ | .int _ | .real _ => by
    rw [argItemsAt]
    · exact .error _
    all_goals simp

theorem typesFrom_from (place : Pointer) (i : Nat) :
    ∀ items, Gives (List.Forall₂ TypeFrom items) (typesFrom scope place i items)
  | [] => by
    rw [typesFrom]
    exact .ok .nil
  | item :: rest => by
    rw [typesFrom]
    refine (typeAt_from _ item).bind fun t ht => ?_
    exact (typesFrom_from place (i + 1) rest).bind fun ts hts => .ok (.cons ht hts)

end

theorem optionalTypeAt_from (place : Pointer) (members : Members) (key : String) :
    Gives (OptionalTypeFrom (Json.lookup key members))
      (optionalTypeAt scope place (members.getD key .null)) := by
  unfold optionalTypeAt
  split
  · refine (typeAt_from place _).map ?_
    rintro t ht _ ⟨⟩
    exact ht.of_getD
  · exact .ok (by simp [OptionalTypeFrom])

/-! #### Members -/

theorem paramAt_from (place : Pointer) (value : Json) :
    Gives (ParamFrom value) (paramAt scope place value) := by
  refine (objectAt_gives place value).bind fun members hvalue => ?_
  rw [hvalue]
  refine (nameAt_gives _ members).bind fun name hname => ?_
  refine (typeAt_from _ _).bind fun t ht => ?_
  obtain ⟨found, hfound, htype⟩ := ht.of_getD
  exact .ok (TypedFrom.mk hname hfound htype)

theorem fieldAt_from (place : Pointer) (value : Json) :
    Gives (FieldFrom value) (fieldAt scope place value) := by
  refine (objectAt_gives place value).bind fun members hvalue => ?_
  rw [hvalue]
  refine (nameAt_gives _ members).bind fun name hname => ?_
  refine (typeAt_from _ _).bind fun t ht => ?_
  obtain ⟨found, hfound, htype⟩ := ht.of_getD
  refine .after _ fun visibility => .after _ fun initializer => ?_
  exact .ok (TypedFrom.mk hname hfound htype)

theorem functionAt_from (place : Pointer) (value : Json) :
    Gives (FunctionFrom value) (functionAt scope place value) := by
  refine (objectAt_gives place value).bind fun members hvalue => ?_
  rw [hvalue]
  refine (nameAt_gives _ members).bind fun name hname => .after _ fun visibility => ?_
  refine (optionalTypeAt_from _ members "returns").bind fun returnType hreturn => ?_
  refine (list_from paramAt_from _ members "params").bind fun params hparams => ?_
  refine .after _ fun body => ?_
  dsimp only
  -- whether a call is read or not, the rest was read before
  split
  all_goals exact .after _ fun chain => .ok (SignatureFrom.mk hname hreturn hparams)

theorem aliasAt_from (place : Pointer) (value : Json) :
    Gives (AliasFrom value) (aliasAt scope place value) := by
  refine (objectAt_gives place value).bind fun members hvalue => ?_
  rw [hvalue]
  refine (nameAt_gives _ members).bind fun name hname => ?_
  refine (optionalTypeAt_from _ members "returns").bind fun returnType hreturn => ?_
  refine (list_from paramAt_from _ members "params").bind fun params hparams => ?_
  exact .ok (SignatureFrom.mk hname hreturn hparams)

/-! #### Declarations -/

theorem classPartAt_from (place : Pointer) (members : Members) :
    Gives (ClassPartFrom members) (classPartAt scope place members) := by
  refine (itemsOf_gives _).bind fun items hitems => ?_
  refine (each_walked fieldAt_from _ hitems).bind fun fields hfields => ?_
  refine (optionalTypeAt_from _ members "extends").bind fun base hbase => ?_
  refine (itemsOf_gives _).bind fun items hitems => ?_
  refine (each_walked typeAt_from _ hitems).bind fun interfaces hinterfaces => .ok ?_
  exact ⟨hfields.listedOrEmpty (by rintro s f ⟨⟩), hbase, hinterfaces⟩

theorem shapeAt_from (place : Pointer) (members : Members) :
    Gives (fun shape => ∀ part, shape = .classShape part → ClassPartFrom members part)
      (shapeAt scope place members) := by
  unfold shapeAt
  split
  · exact .ok (by simp)
  · refine (classPartAt_from place members).map ?_
    rintro part hpart _ ⟨⟩
    exact hpart
  · exact .error _

end Readers

theorem declarationAt_from (place : Pointer) (value : Json) :
    Gives (DeclarationFrom value) (declarationAt place value) := by
  refine (objectAt_gives place value).bind fun members hvalue => ?_
  rw [hvalue]
  refine (nameAt_gives _ members).bind fun name hname => ?_
  refine (itemsOf_gives _).bind fun entries hentries => ?_
  refine .after _ fun scope => .after _ fun package => .after _ fun tags => ?_
  refine (each_walked aliasAt_from _ hentries).bind fun aliases haliases => ?_
  refine (itemsOf_gives _).bind fun items hitems => ?_
  refine (each_walked functionAt_from _ hitems).bind fun functions hfunctions => ?_
  refine (shapeAt_from place members).bind fun shape hshape => .ok ?_
  exact .mk hname (haliases.listedOrEmpty (by rintro s a ⟨⟩))
    (hfunctions.listedOrEmpty (by rintro s f ⟨⟩)) hshape

/-! ### Documents -/

/-- The declarations of a document that is loaded are read from its elements, each in its turn:
of function types, functions and fields one for each item of a list, or none of a missing, an
empty text or an empty object; of interfaces and, at any depth, of type arguments one for each
item of a list, each character of a text or each key of an object. -/
theorem load_correspondence (document : Json) (ds : List Declaration)
    (h : load document = .ok ds) :
    ∃ elements, document.get? "types" = some (.arr elements) ∧
      List.Forall₂ DeclarationFrom elements ds := by
  obtain ⟨elements, helements, hds⟩ := elements_of_load h
  exact ⟨elements, helements, eachFrom_from declarationAt_from _ 0 elements ds hds⟩

/-- A class with a list of fields, a text for its interfaces, an empty text for its functions
and an object for the arguments of a type. -/
def looseDocument : Json :=
  .obj [("types", .arr [.obj [("name", .str "A"), ("implements", .str "IB"),
    ("functions", .str ""),
    ("fields", .arr [.obj [("name", .str "x"),
      ("type", .obj [("name", .str "Map"), ("args", .obj [("K", .null)])])]])]])]

/-- What is read of it. -/
def looseClass : Declaration :=
  { name := "A"
    shape := .classShape
      { fields := [{ name := "x", type := some { name := "Map", args := [{ name := "K" }] } }]
        interfaces := [{ name := "I" }, { name := "B" }] } }

theorem load_correspondence_loose :
    load looseDocument = .ok [looseClass] ∧
      ∃ elements, looseDocument.get? "types" = some (.arr elements) ∧
        List.Forall₂ DeclarationFrom elements [looseClass] :=
  ⟨rfl, load_correspondence looseDocument [looseClass] rfl⟩

/-- A text in the place of a list of interfaces is no list, and the document is loaded all the
same, with an interface for each character. -/
theorem load_of_text_interfaces :
    let members := [("name", .str "A"), ("implements", .str "IB")]
    load (.obj [("types", .arr [.obj members])]) =
        .ok [{ name := "A"
               shape := .classShape { interfaces := [{ name := "I" }, { name := "B" }] } }] ∧
      ∃ value, Json.lookup "implements" members = some value ∧ ∀ items, value ≠ .arr items :=
  ⟨rfl, .str "IB", rfl, by simp⟩

end SharpEmit.Document
