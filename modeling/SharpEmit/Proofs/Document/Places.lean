/-
SharpEmit/Proofs/Document/Places.lean

Where a refusal points.  A reader is given a value and a place, and refuses the value by the
name of that place; that the two belong together is up to whoever calls it.  Here a place is
followed from the document: `Finds document place found` says that the step to it is taken
from an object or from a list that is long enough, and that `found` is there, which is
nothing if the object lacks the key.  Each reader that is given what is found at its place, or
what stands for it, refuses a value that fails the test it names (`Fails`, `Located`).

The items under five keys are read without a test that they are in a list.  Where they are
(`HasLists`), every refusal of a document is of this kind, unless it is no document of
declarations at all (`rejection_points`).  One refusal is coarser than the others: a function
type without a name is refused for its whole list (`declarationAt_of_nameless_alias`).
-/
import SharpEmit.Proofs.Document.Failure

namespace SharpEmit.Document

/-! ### Places of a document -/

theorem Pointer.get?_step (document : Json) (place : Pointer) (step : Step) :
    (Pointer.mk (place.steps ++ [step])).get? document = (place.get? document).bind step.get? := by
  rw [Pointer.get?_append]
  show (place.get? document).bind _ = _
  congr 1
  funext value
  rw [Pointer.get?_cons]
  exact bind_pure (step.get? value)

theorem Pointer.get?_key (document : Json) (place : Pointer) (key : String) :
    (place.key key).get? document = (place.get? document).bind (Json.get? key) :=
  Pointer.get?_step document place (.key key)

theorem Pointer.get?_index (document : Json) (place : Pointer) (i : Nat) :
    (place.index i).get? document = (place.get? document).bind (Step.get? (.index i)) :=
  Pointer.get?_step document place (.index i)

/-- The place of an element. -/
def elementPlace (i : Nat) : Pointer := (Pointer.root.key "types").index i

/-- The places of a document where a type is expected. -/
inductive IsTypePlace : Pointer → Prop
  | base (i : Nat) : IsTypePlace ((elementPlace i).key "extends")
  | interface (i j : Nat) : IsTypePlace (((elementPlace i).key "implements").index j)
  | field (i j : Nat) : IsTypePlace ((((elementPlace i).key "fields").index j).key "type")
  | result {key : String} (i j : Nat) : key ∈ ["functionTypes", "functions"] →
      IsTypePlace ((((elementPlace i).key key).index j).key "returns")
  | param {key : String} (i j k : Nat) : key ∈ ["functionTypes", "functions"] →
      IsTypePlace ((((((elementPlace i).key key).index j).key "params").index k).key "type")
  | arg {place : Pointer} (j : Nat) : IsTypePlace place →
      IsTypePlace ((place.key "args").index j)

/-- What is found at a place: the value under a key of an object, if it has the key, or an
item of a list. -/
inductive Finds (document : Json) : Pointer → Option Json → Prop
  | member {place : Pointer} {members : Members} (key : String) :
      place.get? document = some (.obj members) →
      Finds document (place.key key) (Json.lookup key members)
  | item {place : Pointer} {items : List Json} {i : Nat} {value : Json} :
      place.get? document = some (.arr items) → items[i]? = some value →
      Finds document (place.index i) (some value)

theorem Finds.get? {document : Json} {place : Pointer} {found : Option Json}
    (h : Finds document place found) : place.get? document = found := by
  cases h with
  | member key hplace =>
    rw [Pointer.get?_key, hplace]
    rfl
  | item hplace hi =>
    rw [Pointer.get?_index, hplace]
    exact hi

/-- The keys of an element under which lists are expected and not tested for. -/
def listKeys : List String := ["functionTypes", "functions", "fields", "implements"]

/-- Lists are where their items are read: in the elements and in the objects for types. -/
structure HasLists (document : Json) : Prop where
  element : ∀ (i : Nat) (key : String) (value : Json),
    key ∈ listKeys →
    ((elementPlace i).key key).get? document = some value → ∃ items, value = .arr items
  args : ∀ (place : Pointer) (value : Json), IsTypePlace place →
    (place.key "args").get? document = some value → ∃ items, value = .arr items

/-! ### Tests -/

/-- What is found at a place, or that nothing is, fails the test of a problem. -/
inductive Fails : Problem → Option Json → Prop
  | notObject {value : Json} : (∀ members, value ≠ .obj members) → Fails .notObject (some value)
  | notList {value : Json} : (∀ items, value ≠ .arr items) → Fails .notList (some value)
  | notString {value : Json} : (∀ s, value ≠ .str s) → Fails .notString (some value)
  | notName {found : Option Json} : (∀ s, found = some (.str s) → s = "") → Fails .notName found
  | notType {found : Option Json} : (∀ s, found ≠ some (.str s)) →
      (∀ members, found ≠ some (.obj members)) → Fails .notType found
  | notPackage {value : Json} : (∀ s, value ≠ .str s) →
      (∀ parts : List String, value ≠ .arr (parts.map .str)) → Fails .notPackage (some value)
  | unknownKind {value : Json} : value ≠ .str "class" → value ≠ .str "interface" →
      Fails (.unknownKind value) (some value)
  | unknownVisibility {value : Json} :
      (∀ word ∈ ["public", "protected", "private", "internal"], value ≠ .str word) →
      Fails (.unknownVisibility value) (some value)
  | unknownChain {found : Option Json} : found ≠ some (.str "this") →
      found ≠ some (.str "super") → Fails (.unknownChain (found.getD .null)) found

/-- The refusal of what is found at a place, by a test that it fails. -/
inductive Located (document : Json) : LoadError → Prop
  | rejected {problem : Problem} {place : Pointer} {found : Option Json} :
      Finds document place found → Fails problem found →
      Located document (.rejected problem place)

section Readers

variable {document value : Json} {place : Pointer} {found : Option Json}

/-! #### Simple values -/

theorem objectAt_located (h : Finds document place (some value)) :
    FailsBy (Located document) (objectAt place value) := by
  cases value with
  | obj members => exact .ok members
  | _ => exact .error (.rejected h (.notObject (by simp)))

theorem listAt_located (h : Finds document place found) :
    FailsBy (Located document) (listAt place (found.getD (.arr []))) := by
  cases found with
  | none => exact .ok []
  | some value =>
    cases value with
    | arr items => exact .ok items
    | _ => exact .error (.rejected h (.notList (by simp)))

/-- What is read as an object is one in the document. -/
theorem Finds.object (h : Finds document place (some value)) {members : Members}
    (hmembers : objectAt place value = .ok members) :
    place.get? document = some (.obj members) := by
  rw [h.get?, eq_of_objectAt hmembers]

/-- The items of what is read as a list are at their places; of a missing list there are
none. -/
theorem Finds.item_of_listAt (h : Finds document place found) {items : List Json}
    (hitems : listAt place (found.getD (.arr [])) = .ok items) {i : Nat} {item : Json}
    (hi : items[i]? = some item) : Finds document (place.index i) (some item) := by
  cases found with
  | none =>
    cases hitems
    cases hi
  | some value =>
    cases eq_of_listAt hitems
    exact .item h.get? hi

/-- What counts as set is not missing. -/
theorem Finds.of_isSet (h : Finds document place found)
    (hset : (found.getD .null).isSet = true) : Finds document place (some (found.getD .null)) := by
  cases found with
  | none => cases hset
  | some value => exact h

theorem stringAt_located (h : Finds document place (some value)) :
    FailsBy (Located document) (stringAt place value) := by
  cases value with
  | str s => exact .ok s
  | _ => exact .error (.rejected h (.notString (by simp)))

/-- A name is refused at a place where none is found, whatever was tested. -/
theorem nameAt_located_of_fails (h : Finds document place found) (hfails : Fails .notName found)
    (value : Json) : FailsBy (Located document) (nameAt place value) := by
  cases value with
  | str s =>
    show FailsBy _ (if s = "" then reject .notName place else .ok s)
    split
    · exact .error (.rejected h hfails)
    · exact .ok s
  | _ => exact .error (.rejected h hfails)

theorem nameAt_located (h : Finds document place found) :
    FailsBy (Located document) (nameAt place (found.getD .null)) := by
  by_cases hname : ∀ s, found = some (.str s) → s = ""
  · exact nameAt_located_of_fails h (.notName hname) _
  · simp only [Classical.not_forall] at hname
    obtain ⟨s, rfl, hs⟩ := hname
    show FailsBy _ (if s = "" then reject .notName place else .ok s)
    rw [if_neg hs]
    exact .ok s

theorem optionalStringAt_located (h : Finds document place found) :
    FailsBy (Located document) (optionalStringAt place (found.getD .null)) := by
  cases found with
  | none => exact .ok none
  | some value =>
    cases value with
    | null => exact .ok none
    | _ => exact (stringAt_located h).map some

theorem stringsAt_located (h : Finds document place found) :
    FailsBy (Located document) (stringsAt place (found.getD (.arr []))) := by
  refine (listAt_located h).bind fun items hitems => each_failsBy fun i item hi => ?_
  exact stringAt_located (h.item_of_listAt hitems hi)

theorem strings?_eq_none {items : List Json} (h : strings? items = none) (parts : List String) :
    items ≠ parts.map .str := by
  rintro rfl
  induction parts with
  | nil => cases h
  | cons part parts ih =>
    rw [List.map_cons, strings?] at h
    exact ih (by simpa using h)

theorem packageAt_located (h : Finds document place found) :
    FailsBy (Located document) (packageAt place (found.getD (.str ""))) := by
  cases found with
  | none => exact .ok _
  | some value =>
    cases value with
    | str s => exact .ok _
    | arr items =>
      show FailsBy _ (packageAt place (.arr items))
      simp only [packageAt]
      split
      · exact .ok _
      · rename_i hstrings
        refine .error (.rejected h (.notPackage (by simp) ?_))
        intro parts hparts
        exact strings?_eq_none hstrings parts (Json.arr.inj hparts)
    | _ => exact .error (.rejected h (.notPackage (by simp) (by simp)))

theorem visibilityAt_located (h : Finds document place found) :
    FailsBy (Located document) (visibilityAt place (found.getD (.str "public"))) := by
  cases found with
  | none => exact .ok Visibility.pub
  | some value =>
    show FailsBy _ (visibilityAt place value)
    unfold visibilityAt
    dsimp only
    split
    · exact .ok _
    · rename_i hknown
      refine .error (.rejected h (.unknownVisibility ?_))
      rintro word hword rfl
      simp only [List.mem_cons, List.not_mem_nil, or_false] at hword
      obtain rfl | rfl | rfl | rfl := hword
      all_goals cases hknown

theorem chainAt_located (h : Finds document place (some value)) :
    FailsBy (Located document) (chainAt place value) := by
  refine (objectAt_located h).bind fun members hmembers => ?_
  have hobject := h.object hmembers
  have hargs : ∀ kind : ChainKind, FailsBy (Located document)
      (listAt (place.key "args") (members.getD "args" (.arr [])) >>= fun args =>
        pure { kind, args := args.map Json.display : Chain }) :=
    fun kind => (listAt_located (.member "args" hobject)).bind fun _ _ => .ok _
  dsimp only
  split
  · exact hargs _
  · exact hargs _
  · rename_i other hthis hsuper
    refine FailsBy.bind (.error (.rejected (.member "kind" hobject) (.unknownChain ?_ ?_)))
      fun kind _ => hargs kind
    · intro hkind
      exact hthis (by rw [Members.getD, hkind]; rfl)
    · intro hkind
      exact hsuper (by rw [Members.getD, hkind]; rfl)

/-! #### Types -/

/-- What is found where a type is expected fails to be one as what stands for it does. -/
theorem Fails.notType_of_getD (h : found.getD .null = value) (hstr : ∀ s, value ≠ .str s)
    (hobj : ∀ members, value ≠ .obj members) : Fails .notType found := by
  refine .notType ?_ ?_
  · rintro s rfl
    exact hstr s h.symm
  · rintro members rfl
    exact hobj members h.symm

mutual

/-- A type is refused at its own place or at that of one of its parts. -/
theorem typeAt_located (hlists : HasLists document) (scope : List String) (place : Pointer) :
    ∀ (value : Json) (found : Option Json), IsTypePlace place → Finds document place found →
      found.getD .null = value → FailsBy (Located document) (typeAt scope place value)
  | .str s, _, _, _, _ => by
    rw [typeAt]
    exact .ok _
  | .obj members, found, hplace, hfinds, hfound => by
    have hobject : place.get? document = some (.obj members) := by
      cases found with
      | none => cases hfound
      | some value => exact hfinds.get?.trans (congrArg some hfound)
    rw [typeAt]
    refine (nameAt_located (.member "name" hobject)).bind fun name _ => ?_
    refine FailsBy.bind (argsAt_located hlists scope (place.key "args") members ?_
      fun j => hplace.arg j) fun args _ => ?_
    · intro value hvalue
      have hget := (Finds.member "args" hobject).get?.trans hvalue
      exact ⟨hget, hlists.args place value hplace hget⟩
    · exact (packageAt_located (.member "package" hobject)).bind fun package _ => .ok _
  | .null, _, _, hfinds, hfound | .bool _, _, _, hfinds, hfound | .int _, _, _, hfinds, hfound
  | .real _, _, _, hfinds, hfound | .arr _, _, _, hfinds, hfound => by
    rw [typeAt]
    · exact .error (.rejected hfinds (.notType_of_getD hfound (by simp) (by simp)))
    all_goals simp

theorem argsAt_located (hlists : HasLists document) (scope : List String) (place : Pointer) :
    ∀ members : Members,
      (∀ value, Json.lookup "args" members = some value →
        place.get? document = some value ∧ ∃ items, value = .arr items) →
      (∀ j, IsTypePlace (place.index j)) →
      FailsBy (Located document) (argsAt scope place members)
  | [], _, _ => by
    rw [argsAt]
    exact .ok _
  | (key, value) :: rest, h, hplaces => by
    rw [argsAt]
    split
    · rename_i hkey
      obtain ⟨hget, hlist⟩ := h value (by rw [lookup_cons, if_pos hkey])
      exact argItemsAt_located hlists scope place value hget hlist hplaces
    · rename_i hkey
      refine argsAt_located hlists scope place rest (fun value' hvalue => h value' ?_) hplaces
      rw [lookup_cons, if_neg hkey]
      exact hvalue

theorem argItemsAt_located (hlists : HasLists document) (scope : List String) (place : Pointer) :
    ∀ value, place.get? document = some value → (∃ items, value = .arr items) →
      (∀ j, IsTypePlace (place.index j)) →
      FailsBy (Located document) (argItemsAt scope place value)
  | .arr items, hget, _, hplaces => by
    rw [argItemsAt]
    apply typesFrom_located hlists scope place 0 items
    intro j item hj
    rw [Nat.zero_add]
    exact ⟨hplaces j, .item hget hj⟩
  | .str _, _, hlist, _ | .obj _, _, hlist, _ | .null, _, hlist, _ | .bool _, _, hlist, _
  | .int _, _, hlist, _ | .real _, _, hlist, _ => by
    -- these can be gone through too, but are no lists
    obtain ⟨items, hitems⟩ := hlist
    cases hitems

theorem typesFrom_located (hlists : HasLists document) (scope : List String) (place : Pointer)
    (i : Nat) :
    ∀ items : List Json,
      (∀ j item, items[j]? = some item → IsTypePlace (place.index (i + j)) ∧
        Finds document (place.index (i + j)) (some item)) →
      FailsBy (Located document) (typesFrom scope place i items)
  | [], _ => by
    rw [typesFrom]
    exact .ok _
  | item :: rest, h => by
    rw [typesFrom]
    obtain ⟨hplace, hfinds⟩ := h 0 item rfl
    refine (typeAt_located hlists scope _ item _ hplace hfinds rfl).bind fun t _ => ?_
    refine FailsBy.bind (typesFrom_located hlists scope place (i + 1) rest ?_) fun ts _ => .ok _
    intro j item' hitem
    have hindex : i + 1 + j = i + (j + 1) := by omega
    rw [hindex]
    exact h (j + 1) item' hitem

end

theorem optionalTypeAt_located (hlists : HasLists document) (scope : List String)
    (hplace : IsTypePlace place) (h : Finds document place found) :
    FailsBy (Located document) (optionalTypeAt scope place (found.getD .null)) := by
  unfold optionalTypeAt
  split
  · exact (typeAt_located hlists scope place _ found hplace h rfl).map some
  · exact .ok none

/-! #### Members -/

theorem paramAt_located (hlists : HasLists document) (scope : List String)
    (hplace : IsTypePlace (place.key "type")) (h : Finds document place (some value)) :
    FailsBy (Located document) (paramAt scope place value) := by
  refine (objectAt_located h).bind fun members hmembers => ?_
  have hobject := h.object hmembers
  refine (nameAt_located (.member "name" hobject)).bind fun name _ => ?_
  exact (typeAt_located hlists scope _ _ _ hplace (.member "type" hobject) rfl).bind
    fun type _ => .ok _

theorem paramsAt_located (hlists : HasLists document) (scope : List String)
    (hplaces : ∀ k, IsTypePlace ((place.index k).key "type")) (h : Finds document place found) :
    FailsBy (Located document) (paramsAt scope place (found.getD (.arr []))) := by
  refine (listAt_located h).bind fun items hitems => each_failsBy fun k item hk => ?_
  exact paramAt_located hlists scope (hplaces k) (h.item_of_listAt hitems hk)

theorem fieldAt_located (hlists : HasLists document) (scope : List String)
    (hplace : IsTypePlace (place.key "type")) (h : Finds document place (some value)) :
    FailsBy (Located document) (fieldAt scope place value) := by
  refine (objectAt_located h).bind fun members hmembers => ?_
  have hobject := h.object hmembers
  refine (nameAt_located (.member "name" hobject)).bind fun name _ => ?_
  refine (typeAt_located hlists scope _ _ _ hplace (.member "type" hobject) rfl).bind
    fun type _ => ?_
  refine (visibilityAt_located (.member "visibility" hobject)).bind fun visibility _ => ?_
  exact (optionalStringAt_located (.member "initializer" hobject)).bind fun initializer _ => .ok _

theorem functionAt_located (hlists : HasLists document) (scope : List String)
    (hreturns : IsTypePlace (place.key "returns"))
    (hparams : ∀ k, IsTypePlace (((place.key "params").index k).key "type"))
    (h : Finds document place (some value)) :
    FailsBy (Located document) (functionAt scope place value) := by
  refine (objectAt_located h).bind fun members hmembers => ?_
  have hobject := h.object hmembers
  refine (nameAt_located (.member "name" hobject)).bind fun name _ => ?_
  refine (visibilityAt_located (.member "visibility" hobject)).bind fun visibility _ => ?_
  refine (optionalTypeAt_located hlists scope hreturns (.member "returns" hobject)).bind
    fun returnType _ => ?_
  refine (paramsAt_located hlists scope hparams (.member "params" hobject)).bind
    fun params _ => ?_
  refine (stringsAt_located (.member "body" hobject)).bind fun body _ => ?_
  dsimp only
  -- a call that is not set is not looked at, so the one that is refused is there
  split
  · rename_i hset
    have hdelegates := (Finds.member "delegates" hobject).of_isSet hset
    exact ((chainAt_located hdelegates).map some).bind fun chain _ => .ok _
  · exact .ok _

theorem aliasAt_located (hlists : HasLists document) (scope : List String)
    (hreturns : IsTypePlace (place.key "returns"))
    (hparams : ∀ k, IsTypePlace (((place.key "params").index k).key "type"))
    (h : Finds document place (some value)) :
    FailsBy (Located document) (aliasAt scope place value) := by
  refine (objectAt_located h).bind fun members hmembers => ?_
  have hobject := h.object hmembers
  refine (nameAt_located (.member "name" hobject)).bind fun name _ => ?_
  refine (optionalTypeAt_located hlists scope hreturns (.member "returns" hobject)).bind
    fun returnType _ => ?_
  exact (paramsAt_located hlists scope hparams (.member "params" hobject)).bind
    fun params _ => .ok _

/-! #### Declarations -/

section Element

variable {i : Nat} {members : Members} {key : String}

theorem HasLists.lookup_cases (hlists : HasLists document)
    (hobject : (elementPlace i).get? document = some (.obj members)) (hkey : key ∈ listKeys) :
    Json.lookup key members = none ∨ ∃ items, Json.lookup key members = some (.arr items) := by
  cases hlookup : Json.lookup key members with
  | none => exact .inl rfl
  | some value =>
    have hget := (Finds.member key hobject).get?.trans hlookup
    obtain ⟨items, rfl⟩ := hlists.element i key value hkey hget
    exact .inr ⟨items, rfl⟩

/-- Going through a list, or nothing, does not fail. -/
theorem itemsOf_located (hlists : HasLists document)
    (hobject : (elementPlace i).get? document = some (.obj members)) (hkey : key ∈ listKeys) :
    FailsBy (Located document) (itemsOf (members.getD key (.arr []))) := by
  unfold Members.getD
  rcases hlists.lookup_cases hobject hkey with hlookup | ⟨items, hlookup⟩
  · rw [hlookup]
    exact .ok []
  · rw [hlookup]
    exact .ok items

/-- The items of an element are at their places. -/
theorem each_located {α : Type} {read : Pointer → Json → Loaded α} (hlists : HasLists document)
    (hobject : (elementPlace i).get? document = some (.obj members)) (hkey : key ∈ listKeys)
    {items : List Json} (hitems : itemsOf (members.getD key (.arr [])) = .ok items)
    (hread : ∀ j value, Finds document (((elementPlace i).key key).index j) (some value) →
      FailsBy (Located document) (read (((elementPlace i).key key).index j) value)) :
    FailsBy (Located document) (each read ((elementPlace i).key key) items) := by
  apply each_failsBy
  intro j item hj
  have hfinds := Finds.member key hobject
  unfold Members.getD at hitems
  rcases hlists.lookup_cases hobject hkey with hlookup | ⟨all, hlookup⟩
  · rw [hlookup] at hitems
    cases hitems
    cases hj
  · rw [hlookup] at hitems hfinds
    cases hitems
    exact hread j item (.item hfinds.get? hj)

/-- The name of a function type is refused by the place of the list in which it is, and a list
is no name either. -/
theorem aliasNames_located (h : Finds document place found) (hfails : Fails .notName found)
    (items : List Json) : FailsBy (Located document) (aliasNames place items) := by
  induction items with
  | nil => exact .ok []
  | cons item rest ih =>
    cases item with
    | obj members =>
      refine (nameAt_located_of_fails h hfails _).bind fun name _ => ?_
      exact FailsBy.bind ih fun names _ => .ok _
    | _ => exact ih

/-- One entry without a name is enough, whichever it is. -/
theorem aliasNames_of_nameless (place : Pointer) {entry : Members} {items : List Json}
    (hentry : .obj entry ∈ items) (hname : ∀ s, entry.getD "name" .null = .str s → s = "") :
    aliasNames place items = reject .notName place := by
  have hnames : ∀ members : Members, nameAt place (members.getD "name" .null) =
      reject .notName place ∨ ∃ s, s ≠ "" ∧ members.getD "name" .null = .str s := by
    intro members
    cases members.getD "name" .null with
    | str s =>
      by_cases hs : s = ""
      · exact .inl (if_pos hs)
      · exact .inr ⟨s, hs, rfl⟩
    | _ => exact .inl rfl
  induction items with
  | nil => cases hentry
  | cons item rest ih =>
    cases item with
    | obj members =>
      rw [aliasNames]
      rcases hnames members with hrefused | ⟨s, hs, hmember⟩
      · rw [hrefused]
        rfl
      · -- this entry has a name, so it is another one that has none
        have hrest : .obj entry ∈ rest := by
          rcases List.mem_cons.mp hentry with heq | hrest
          · cases heq
            exact absurd (hname s hmember) hs
          · exact hrest
        rw [ih hrest, hmember, nameAt, if_neg hs]
        rfl
    | _ => exact ih ((List.mem_cons.mp hentry).resolve_left (by simp))

/-- So a function type without a name is refused for the list: unlike all else that is in a
list, it is not told apart from the others. -/
theorem declarationAt_of_nameless_alias (place : Pointer) {members entry : Members}
    {items : List Json} {name : String} (hname : name ≠ "")
    (hmember : Json.lookup "name" members = some (.str name))
    (hitems : Json.lookup "functionTypes" members = some (.arr items))
    (hentry : .obj entry ∈ items) (hnone : ∀ s, entry.getD "name" .null = .str s → s = "") :
    declarationAt place (.obj members) = reject .notName (place.key "functionTypes") := by
  have hread : nameAt (place.key "name") (members.getD "name" .null) = .ok name := by
    rw [Members.getD, hmember]
    exact if_neg hname
  have hwalk : itemsOf (members.getD "functionTypes" (.arr [])) = .ok items := by
    rw [Members.getD, hitems]
    rfl
  show (nameAt _ _ >>= fun name => itemsOf _ >>= fun items => aliasNames _ items >>= _) = _
  rw [hread, hwalk]
  show (aliasNames _ items >>= _) = _
  rw [aliasNames_of_nameless _ hentry hnone]
  rfl

theorem classPartAt_located (hlists : HasLists document) (scope : List String)
    (hobject : (elementPlace i).get? document = some (.obj members)) :
    FailsBy (Located document) (classPartAt scope (elementPlace i) members) := by
  refine (itemsOf_located hlists hobject (by decide)).bind fun fieldItems hfields => ?_
  refine (each_located hlists hobject (by decide) hfields fun j value hvalue =>
    fieldAt_located hlists scope (.field i j) hvalue).bind fun fields _ => ?_
  refine (optionalTypeAt_located hlists scope (.base i) (.member "extends" hobject)).bind
    fun base _ => ?_
  refine (itemsOf_located hlists hobject (by decide)).bind fun interfaceItems hinterfaces => ?_
  exact (each_located hlists hobject (by decide) hinterfaces fun j value hvalue =>
    typeAt_located hlists scope _ value _ (.interface i j) hvalue rfl).bind
      fun interfaces _ => .ok _

theorem shapeAt_located (hlists : HasLists document) (scope : List String)
    (hobject : (elementPlace i).get? document = some (.obj members)) :
    FailsBy (Located document) (shapeAt scope (elementPlace i) members) := by
  have hfinds := Finds.member "kind" hobject
  unfold shapeAt Members.getD
  cases hlookup : Json.lookup "kind" members with
  | none =>
    -- without a kind it is a class
    exact (classPartAt_located hlists scope hobject).map _
  | some value =>
    rw [hlookup] at hfinds
    dsimp only [Option.getD_some]
    split
    · exact .ok _
    · exact (classPartAt_located hlists scope hobject).map _
    · rename_i hinterface hclass
      exact .error (.rejected hfinds (.unknownKind hclass hinterface))

theorem declarationAt_located (hlists : HasLists document)
    (h : Finds document (elementPlace i) (some value)) :
    FailsBy (Located document) (declarationAt (elementPlace i) value) := by
  refine (objectAt_located h).bind fun members hmembers => ?_
  have hobject := h.object hmembers
  have hunnamed : Fails .notName (Json.lookup "functionTypes" members) := by
    have hkey : "functionTypes" ∈ listKeys := by decide
    rcases hlists.lookup_cases hobject hkey with hlookup | ⟨items, hlookup⟩
    all_goals
      rw [hlookup]
      exact .notName (by simp)
  refine (nameAt_located (.member "name" hobject)).bind fun name _ => ?_
  refine (itemsOf_located hlists hobject (by decide)).bind fun aliasItems haliases => ?_
  refine (aliasNames_located (.member "functionTypes" hobject) hunnamed _).bind fun scope _ => ?_
  refine (packageAt_located (.member "package" hobject)).bind fun package _ => ?_
  refine (stringsAt_located (.member "metadata" hobject)).bind fun tags _ => ?_
  refine (each_located hlists hobject (by decide) haliases fun j value hvalue =>
    aliasAt_located hlists scope (.result i j (by decide)) (fun k => .param i j k (by decide))
      hvalue).bind fun aliases _ => ?_
  refine (itemsOf_located hlists hobject (by decide)).bind fun functionItems hfunctions => ?_
  refine (each_located hlists hobject (by decide) hfunctions fun j value hvalue =>
    functionAt_located hlists scope (.result i j (by decide)) (fun k => .param i j k (by decide))
      hvalue).bind fun functions _ => ?_
  exact (shapeAt_located hlists scope hobject).bind fun shape _ => .ok _

end Element

end Readers

/-! ### Documents -/

/-- All that is refused of a document of declarations is in it. -/
theorem load_located {document : Json} (hlists : HasLists document) {elements : List Json}
    (helements : document.get? "types" = some (.arr elements)) :
    FailsBy (Located document) (load document) := by
  have hget : (Pointer.root.key "types").get? document = some (.arr elements) := by
    rw [Pointer.get?_key]
    exact helements
  rw [load_of_elements helements]
  apply each_failsBy
  intro i item hi
  exact declarationAt_located hlists (.item hget hi)

/-- Where lists are, a document that is not loaded is refused with a place.  It is the whole
document, which is no object with a list of types; or the step to the place is taken from an
object or from a list that is long enough, and what is found there, or that nothing is, fails
the test of the refusal. -/
theorem rejection_points (document : Json) (e : LoadError) (hlists : HasLists document)
    (he : load document = .error e) :
    ∃ problem place, e = .rejected problem place ∧
      ((place = .root ∧ problem = .notDocument ∧
          ∀ elements, document.get? "types" ≠ some (.arr elements)) ∨
        (Finds document place (place.get? document) ∧ Fails problem (place.get? document))) := by
  by_cases htypes : ∃ elements, document.get? "types" = some (.arr elements)
  · obtain ⟨elements, helements⟩ := htypes
    cases load_located hlists helements e he with
    | @rejected problem place found hfinds hfails =>
      have hget := hfinds.get?
      exact ⟨problem, place, rfl, .inr ⟨by rwa [hget], by rwa [hget]⟩⟩
  · have hnone : ∀ elements, document.get? "types" ≠ some (.arr elements) :=
      fun elements helements => htypes ⟨elements, helements⟩
    rw [load_of_no_elements hnone] at he
    cases he
    exact ⟨_, _, rfl, .inl ⟨rfl, rfl, hnone⟩⟩

/-- A type whose second argument has no name. -/
def namelessArgument : Json :=
  .obj [("name", .str "Vector"), ("args", .arr [.str "int", .obj [("name", .str "")]])]

/-- A class with a field of that type. -/
def namelessDocument : Json :=
  .obj [("types", .arr [.obj [("name", .str "A"),
    ("fields", .arr [.obj [("name", .str "x"), ("type", namelessArgument)]])]])]

/-- The types of the document are the one of the field and its two arguments. -/
theorem get?_namelessDocument {place : Pointer} (h : IsTypePlace place) :
    place.get? namelessDocument = none ∨ place.get? namelessDocument = some namelessArgument ∨
      place.get? namelessDocument = some (.str "int") ∨
      place.get? namelessDocument = some (.obj [("name", .str "")]) := by
  induction h with
  | base i => cases i <;> exact .inl rfl
  | interface i j => cases i <;> exact .inl rfl
  | field i j =>
    cases i with
    | succ i => exact .inl rfl
    | zero =>
      cases j with
      | succ j => exact .inl rfl
      | zero => exact .inr (.inl rfl)
  | result i j hkey =>
    simp only [List.mem_cons, List.not_mem_nil, or_false] at hkey
    obtain rfl | rfl := hkey
    all_goals cases i <;> exact .inl rfl
  | param i j k hkey =>
    simp only [List.mem_cons, List.not_mem_nil, or_false] at hkey
    obtain rfl | rfl := hkey
    all_goals cases i <;> exact .inl rfl
  | arg j _ ih =>
    rw [Pointer.get?_index, Pointer.get?_key]
    obtain ih | ih | ih | ih := ih
    all_goals rw [ih]
    · exact .inl rfl
    · match j with
      | 0 => exact .inr (.inr (.inl rfl))
      | 1 => exact .inr (.inr (.inr rfl))
      | j + 2 => exact .inl rfl
    · exact .inl rfl
    · exact .inl rfl

theorem hasLists_namelessDocument : HasLists namelessDocument where
  element i key value hkey hvalue := by
    rw [Pointer.get?_key] at hvalue
    cases i with
    | succ i => cases hvalue
    | zero =>
      simp only [listKeys, List.mem_cons, List.not_mem_nil, or_false] at hkey
      obtain rfl | rfl | rfl | rfl := hkey
      all_goals cases hvalue
      exact ⟨_, rfl⟩
  args place value hplace hvalue := by
    rw [Pointer.get?_key] at hvalue
    obtain h | h | h | h := get?_namelessDocument hplace
    all_goals
      rw [h] at hvalue
      cases hvalue
    exact ⟨_, rfl⟩

theorem rejection_points_nameless :
    HasLists namelessDocument ∧ ∃ problem place,
      load namelessDocument = .error (.rejected problem place) ∧
        LoadError.message (.rejected problem place) =
          "expected a non-empty string at $.types[0].fields[0].type.args[1].name" ∧
        problem.text = "expected a non-empty string" ∧
        place.text = "$.types[0].fields[0].type.args[1].name" ∧
        Finds namelessDocument place (place.get? namelessDocument) ∧
        Fails problem (place.get? namelessDocument) := by
  have he : load namelessDocument = .error (.rejected .notName
      (((((((elementPlace 0).key "fields").index 0).key "type").key "args").index 1).key
        "name")) := rfl
  obtain ⟨problem, place, heq, h⟩ :=
    rejection_points namelessDocument _ hasLists_namelessDocument he
  cases heq
  refine ⟨hasLists_namelessDocument, _, _, he, by decide +kernel, rfl, by decide, ?_⟩
  rcases h with ⟨hroot, -⟩ | h
  · cases hroot
  · exact h

end SharpEmit.Document
