/-
SharpEmit/Proofs/Document/Failure.lean

How loading a document can fail.  Readers are put together by going on from one to the
next, so what is known of the errors of each is known of the errors of all (`FailsBy`).
A reader works on a value with the place where it stands; the value need not be there,
since a missing one has a stand-in, and the characters of a text stand nowhere.  But
every object within it is (`Stands`), and that is enough to say where a fault lies.

Main result: apart from refusals with a place, loading fails only where it goes through
the items of a value that has none, and then this value is in the document under one of
five keys (`load_error_cases`).  The tests that would refuse it there are made elsewhere,
so `load_of_scalar_functions` is a document that is not refused as it should be.
-/
import SharpEmit.Document.Reader

namespace SharpEmit.Document

/-! ### Readings that fail for a reason -/

section FailsBy

variable {α β : Type} {P : LoadError → Prop}

/-- A reading fails only with errors that have a property. -/
def FailsBy (P : LoadError → Prop) (r : Loaded α) : Prop := ∀ e, r = .error e → P e

theorem FailsBy.ok (a : α) : FailsBy P (.ok a) := by
  intro e he
  cases he

theorem FailsBy.error {e : LoadError} (h : P e) : FailsBy P (.error e : Loaded α) := by
  intro e' he
  cases he
  exact h

/-- Of readings one after the other the first fails, or the next on what it has read. -/
theorem FailsBy.bind {r : Loaded α} {next : α → Loaded β} (h : FailsBy P r)
    (hnext : ∀ a, r = .ok a → FailsBy P (next a)) : FailsBy P (r >>= next) := by
  cases r with
  | error e => exact .error (h e rfl)
  | ok a => exact hnext a rfl

theorem FailsBy.map {r : Loaded α} (h : FailsBy P r) (f : α → β) : FailsBy P (f <$> r) := by
  cases r with
  | error e => exact .error (h e rfl)
  | ok a => exact .ok (f a)

theorem eachFrom_failsBy {read : Pointer → Json → Loaded α} {place : Pointer} {i : Nat}
    {items : List Json}
    (h : ∀ j item, items[j]? = some item → FailsBy P (read (place.index (i + j)) item)) :
    FailsBy P (eachFrom read place i items) := by
  induction items generalizing i with
  | nil => exact .ok []
  | cons item rest ih =>
    refine (h 0 item rfl).bind fun a _ => ?_
    refine FailsBy.bind (ih fun j item' hitem => ?_) fun as _ => .ok (a :: as)
    have hplace : i + 1 + j = i + (j + 1) := by omega
    rw [hplace]
    exact h (j + 1) item' hitem

/-- Reading each item fails as the reading of one of them does. -/
theorem each_failsBy {read : Pointer → Json → Loaded α} {place : Pointer} {items : List Json}
    (h : ∀ i item, items[i]? = some item → FailsBy P (read (place.index i) item)) :
    FailsBy P (each read place items) := by
  apply eachFrom_failsBy
  intro i item hitem
  rw [Nat.zero_add]
  exact h i item hitem

end FailsBy

/-! ### Places within places -/

theorem Pointer.get?_append (document : Json) (steps rest : List Step) :
    (Pointer.mk (steps ++ rest)).get? document =
      (Pointer.mk steps).get? document >>= (Pointer.mk rest).get? :=
  List.foldlM_append

theorem Pointer.get?_cons (value : Json) (step : Step) (rest : List Step) :
    (Pointer.mk (step :: rest)).get? value = step.get? value >>= (Pointer.mk rest).get? :=
  List.foldlM_cons

theorem lookup_cons (key key' : String) (value : Json) (rest : Members) :
    Json.lookup key ((key', value) :: rest) =
      if key' = key then some value else Json.lookup key rest := by
  by_cases h : key' = key
  · rw [if_pos h, h]
    exact List.lookup_cons_self
  · simp only [Json.lookup, List.lookup_cons, beq_eq_false_iff_ne.mpr (Ne.symm h), if_neg h]

/-- The value at a place, or what stands for it, as far as it matters: every object within
it is in the document, at the place that leads to it. -/
def Stands (document : Json) (place : Pointer) (value : Json) : Prop :=
  ∀ steps members, (Pointer.mk steps).get? value = some (.obj members) →
    (Pointer.mk (place.steps ++ steps)).get? document = some (.obj members)

namespace Stands

variable {document value : Json} {place : Pointer} {members : Members} {items : List Json}

theorem root (document : Json) : Stands document .root document := fun _ _ h => h

theorem object (h : Stands document place (.obj members)) :
    place.get? document = some (.obj members) := by
  have hobject := h [] members rfl
  rw [List.append_nil] at hobject
  exact hobject

/-- One step further down. -/
theorem step (h : Stands document place value) {s : Step} {below : Json}
    (hbelow : s.get? value = some below) : Stands document ⟨place.steps ++ [s]⟩ below := by
  intro steps members hget
  have hcons : (Pointer.mk (s :: steps)).get? value = some (.obj members) := by
    rw [Pointer.get?_cons, hbelow]
    exact hget
  show (Pointer.mk ((place.steps ++ [s]) ++ steps)).get? document = some (.obj members)
  rw [List.append_assoc]
  exact h (s :: steps) members hcons

/-- A value without parts stands anywhere. -/
theorem of_step_eq_none (hobject : ∀ members, value ≠ .obj members)
    (hnone : ∀ s : Step, s.get? value = none) : Stands document place value := by
  intro steps members hget
  cases steps with
  | nil => exact absurd (Option.some.inj hget) (hobject members)
  | cons s steps =>
    rw [Pointer.get?_cons, hnone] at hget
    cases hget

theorem null : Stands document place .null :=
  of_step_eq_none (by simp) (by rintro (key | i) <;> rfl)

theorem str (s : String) : Stands document place (.str s) :=
  of_step_eq_none (by simp) (by rintro (key | i) <;> rfl)

theorem nil : Stands document place (.arr []) :=
  of_step_eq_none (by simp) (by rintro (key | i) <;> rfl)

theorem item (h : Stands document place (.arr items)) {i : Nat} {value : Json}
    (hi : items[i]? = some value) : Stands document (place.index i) value :=
  h.step (s := .index i) hi

/-- What is under a key, or stands for it. -/
theorem getD (h : Stands document place (.obj members)) (key : String) {default : Json}
    (hdefault : Stands document (place.key key) default) :
    Stands document (place.key key) (members.getD key default) := by
  unfold Members.getD
  cases hlookup : Json.lookup key members with
  | none => exact hdefault
  | some value => exact h.step (s := .key key) hlookup

end Stands

/-! ### Faults in the document -/

/-- The keys whose values are gone through without a test. -/
def iteratedKeys : List String := ["functionTypes", "functions", "fields", "implements", "args"]

/-- An error that the document explains: a value is refused, or one under these keys has no
items. -/
inductive Explains (document : Json) : LoadError → Prop
  | rejected {problem place} : Explains document (.rejected problem place)
  | notIterable {place : Pointer} {key : String} {value : Json} {scalar : Json.Scalar} :
      key ∈ iteratedKeys → (place.key key).get? document = some value →
      value.items = .error scalar → Explains document (.notIterable scalar)

section Readers

variable {document : Json}

theorem reject_failsBy {α : Type} (problem : Problem) (place : Pointer) :
    FailsBy (Explains document) (reject problem place : Loaded α) :=
  .error .rejected

/-! #### Simple values -/

theorem objectAt_failsBy (place : Pointer) (value : Json) :
    FailsBy (Explains document) (objectAt place value) := by
  cases value with
  | obj members => exact .ok members
  | _ => exact reject_failsBy _ _

theorem eq_of_objectAt {place : Pointer} {value : Json} {members : Members}
    (h : objectAt place value = .ok members) : value = .obj members := by
  cases value <;> cases h
  rfl

theorem listAt_failsBy (place : Pointer) (value : Json) :
    FailsBy (Explains document) (listAt place value) := by
  cases value with
  | arr items => exact .ok items
  | _ => exact reject_failsBy _ _

theorem eq_of_listAt {place : Pointer} {value : Json} {items : List Json}
    (h : listAt place value = .ok items) : value = .arr items := by
  cases value <;> cases h
  rfl

theorem stringAt_failsBy (place : Pointer) (value : Json) :
    FailsBy (Explains document) (stringAt place value) := by
  cases value with
  | str s => exact .ok s
  | _ => exact reject_failsBy _ _

theorem nameAt_failsBy (place : Pointer) (value : Json) :
    FailsBy (Explains document) (nameAt place value) := by
  cases value with
  | str s =>
    show FailsBy _ (if s = "" then reject .notName place else .ok s)
    split
    · exact reject_failsBy _ _
    · exact .ok s
  | _ => exact reject_failsBy _ _

theorem optionalStringAt_failsBy (place : Pointer) (value : Json) :
    FailsBy (Explains document) (optionalStringAt place value) := by
  cases value with
  | null => exact .ok none
  | _ => exact (stringAt_failsBy place _).map some

theorem stringsAt_failsBy (place : Pointer) (value : Json) :
    FailsBy (Explains document) (stringsAt place value) :=
  (listAt_failsBy place value).bind fun _ _ => each_failsBy fun _ _ _ => stringAt_failsBy _ _

theorem packageAt_failsBy (place : Pointer) (value : Json) :
    FailsBy (Explains document) (packageAt place value) := by
  cases value with
  | str s => exact .ok _
  | arr items =>
    simp only [packageAt]
    split
    · exact .ok _
    · exact reject_failsBy _ _
  | _ => exact reject_failsBy _ _

theorem visibilityAt_failsBy (place : Pointer) (value : Json) :
    FailsBy (Explains document) (visibilityAt place value) := by
  unfold visibilityAt
  dsimp only
  split
  · exact .ok _
  · exact reject_failsBy _ _

theorem chainAt_failsBy (place : Pointer) (value : Json) :
    FailsBy (Explains document) (chainAt place value) := by
  refine (objectAt_failsBy place value).bind fun members _ => ?_
  have hargs : ∀ kind : ChainKind, FailsBy (Explains document)
      (listAt (place.key "args") (members.getD "args" (.arr [])) >>= fun args =>
        pure { kind, args := args.map Json.display : Chain }) :=
    fun kind => (listAt_failsBy _ _).bind fun _ _ => .ok _
  dsimp only
  split
  · exact hargs _
  · exact hargs _
  · exact (reject_failsBy _ _).bind fun kind _ => hargs kind

/-! #### Values that are gone through -/

/-- Only a value with no items cannot be gone through. -/
theorem itemsOf_failsBy {P : LoadError → Prop} {value : Json}
    (h : ∀ scalar, value.items = .error scalar → P (.notIterable scalar)) :
    FailsBy P (itemsOf value) := by
  unfold itemsOf
  cases hitems : value.items with
  | ok items => exact .ok items
  | error scalar => exact .error (h scalar hitems)

/-- The items of a value stand in their places; those of a text are texts. -/
theorem Stands.of_itemsOf {place : Pointer} {value : Json} {items : List Json}
    (h : Stands document place value) (hitems : itemsOf value = .ok items) {i : Nat} {item : Json}
    (hi : items[i]? = some item) : Stands document (place.index i) item := by
  cases value with
  | arr all =>
    cases hitems
    exact h.item hi
  | str s =>
    cases hitems
    obtain ⟨c, -, rfl⟩ := List.mem_map.mp (List.mem_of_getElem? hi)
    exact .str _
  | obj members =>
    cases hitems
    obtain ⟨m, -, rfl⟩ := List.mem_map.mp (List.mem_of_getElem? hi)
    exact .str _
  | _ => cases hitems

/-- A scalar under a key that is gone through explains why that fails. -/
theorem Stands.explains {place : Pointer} {members : Members} {key : String} {value : Json}
    {scalar : Json.Scalar} (h : Stands document place (.obj members)) (hkey : key ∈ iteratedKeys)
    (hvalue : Json.lookup key members = some value) (hscalar : value.items = .error scalar) :
    Explains document (.notIterable scalar) := by
  refine @Explains.notIterable document place key value scalar hkey ?_ hscalar
  show (Pointer.mk (place.steps ++ [.key key])).get? document = some value
  rw [Pointer.get?_append, show (Pointer.mk place.steps).get? document = some (.obj members) from
    h.object]
  show (Pointer.mk [.key key]).get? (.obj members) = some value
  rw [Pointer.get?_cons, show Step.get? (.key key) (.obj members) = some value from hvalue]
  rfl

theorem itemsOf_getD_failsBy {place : Pointer} {members : Members} {key : String}
    (h : Stands document place (.obj members)) (hkey : key ∈ iteratedKeys) :
    FailsBy (Explains document) (itemsOf (members.getD key (.arr []))) := by
  apply itemsOf_failsBy
  intro scalar hscalar
  unfold Members.getD at hscalar
  cases hlookup : Json.lookup key members with
  | none =>
    rw [hlookup] at hscalar
    cases hscalar
  | some value =>
    rw [hlookup] at hscalar
    exact h.explains hkey hlookup hscalar

/-- The items under a key fail to be read as one of them does. -/
theorem Stands.each_failsBy {α : Type} {read : Pointer → Json → Loaded α} {place : Pointer}
    {members : Members} {key : String} {items : List Json}
    (h : Stands document place (.obj members))
    (hitems : itemsOf (members.getD key (.arr [])) = .ok items)
    (hread : ∀ place value, Stands document place value →
      FailsBy (Explains document) (read place value)) :
    FailsBy (Explains document) (each read (place.key key) items) := by
  apply Document.each_failsBy
  intro i item hi
  exact hread _ _ ((h.getD key .nil).of_itemsOf hitems hi)

/-! #### Types -/

mutual

/-- A type fails to be read where one of its own parts does. -/
theorem typeAt_failsBy (scope : List String) (place : Pointer) :
    ∀ value, Stands document place value →
      FailsBy (Explains document) (typeAt scope place value)
  | .str s, _ => by
    rw [typeAt]
    exact .ok _
  | .obj members, h => by
    rw [typeAt]
    refine (nameAt_failsBy _ _).bind fun name _ => ?_
    refine FailsBy.bind (argsAt_failsBy scope (place.key "args") members ?_) fun args _ => ?_
    · intro value hvalue
      exact ⟨h.step (s := .key "args") hvalue, fun scalar => h.explains (by decide) hvalue⟩
    · exact (packageAt_failsBy _ _).bind fun package _ => .ok _
  | .null, _ | .bool _, _ | .int _, _ | .real _, _ | .arr _, _ => by
    rw [typeAt]
    · exact reject_failsBy _ _
    all_goals simp

/-- The arguments are looked for among the members themselves. -/
theorem argsAt_failsBy (scope : List String) (place : Pointer) :
    ∀ members : Members,
      (∀ value, Json.lookup "args" members = some value → Stands document place value ∧
        ∀ scalar, value.items = .error scalar → Explains document (.notIterable scalar)) →
      FailsBy (Explains document) (argsAt scope place members)
  | [], _ => by
    rw [argsAt]
    exact .ok _
  | (key, value) :: rest, h => by
    rw [argsAt]
    split
    · rename_i hkey
      obtain ⟨hstands, hscalar⟩ := h value (by rw [lookup_cons, if_pos hkey])
      exact argItemsAt_failsBy scope place value hstands hscalar
    · rename_i hkey
      apply argsAt_failsBy scope place rest
      intro value' hvalue
      apply h
      rw [lookup_cons, if_neg hkey]
      exact hvalue

theorem argItemsAt_failsBy (scope : List String) (place : Pointer) :
    ∀ value, Stands document place value →
      (∀ scalar, value.items = .error scalar → Explains document (.notIterable scalar)) →
      FailsBy (Explains document) (argItemsAt scope place value)
  | .arr items, h, _ => by
    rw [argItemsAt]
    apply typesFrom_failsBy scope place 0 items
    intro i item hi
    rw [Nat.zero_add]
    exact h.item hi
  | .str s, _, _ => by
    rw [argItemsAt]
    exact .ok _
  | .obj members, _, _ => by
    rw [argItemsAt]
    exact .ok _
  | .null, _, hscalar | .bool _, _, hscalar | .int _, _, hscalar | .real _, _, hscalar => by
    rw [argItemsAt]
    · exact (itemsOf_failsBy hscalar).bind fun _ _ => .ok _
    all_goals simp

theorem typesFrom_failsBy (scope : List String) (place : Pointer) (i : Nat) :
    ∀ items : List Json,
      (∀ j item, items[j]? = some item → Stands document (place.index (i + j)) item) →
      FailsBy (Explains document) (typesFrom scope place i items)
  | [], _ => by
    rw [typesFrom]
    exact .ok _
  | item :: rest, h => by
    rw [typesFrom]
    refine (typeAt_failsBy scope _ item (h 0 item rfl)).bind fun t _ => ?_
    refine FailsBy.bind (typesFrom_failsBy scope place (i + 1) rest ?_) fun ts _ => .ok _
    intro j item' hitem
    have hplace : i + 1 + j = i + (j + 1) := by omega
    rw [hplace]
    exact h (j + 1) item' hitem

end

theorem optionalTypeAt_failsBy (scope : List String) (place : Pointer) (value : Json)
    (h : Stands document place value) :
    FailsBy (Explains document) (optionalTypeAt scope place value) := by
  unfold optionalTypeAt
  split
  · exact (typeAt_failsBy scope place value h).map some
  · exact .ok none

/-! #### Members -/

theorem paramAt_failsBy (scope : List String) (place : Pointer) (value : Json)
    (h : Stands document place value) :
    FailsBy (Explains document) (paramAt scope place value) := by
  refine (objectAt_failsBy place value).bind fun members hmembers => ?_
  rw [eq_of_objectAt hmembers] at h
  refine (nameAt_failsBy _ _).bind fun name _ => ?_
  exact (typeAt_failsBy scope _ _ (h.getD "type" .null)).bind fun type _ => .ok _

theorem paramsAt_failsBy (scope : List String) (place : Pointer) (value : Json)
    (h : Stands document place value) :
    FailsBy (Explains document) (paramsAt scope place value) := by
  refine (listAt_failsBy place value).bind fun items hitems => ?_
  rw [eq_of_listAt hitems] at h
  exact each_failsBy fun i item hi => paramAt_failsBy scope _ item (h.item hi)

theorem fieldAt_failsBy (scope : List String) (place : Pointer) (value : Json)
    (h : Stands document place value) :
    FailsBy (Explains document) (fieldAt scope place value) := by
  refine (objectAt_failsBy place value).bind fun members hmembers => ?_
  rw [eq_of_objectAt hmembers] at h
  refine (nameAt_failsBy _ _).bind fun name _ => ?_
  refine (typeAt_failsBy scope _ _ (h.getD "type" .null)).bind fun type _ => ?_
  refine (visibilityAt_failsBy _ _).bind fun visibility _ => ?_
  exact (optionalStringAt_failsBy _ _).bind fun initializer _ => .ok _

theorem functionAt_failsBy (scope : List String) (place : Pointer) (value : Json)
    (h : Stands document place value) :
    FailsBy (Explains document) (functionAt scope place value) := by
  refine (objectAt_failsBy place value).bind fun members hmembers => ?_
  rw [eq_of_objectAt hmembers] at h
  refine (nameAt_failsBy _ _).bind fun name _ => ?_
  refine (visibilityAt_failsBy _ _).bind fun visibility _ => ?_
  refine (optionalTypeAt_failsBy scope _ _ (h.getD "returns" .null)).bind fun returnType _ => ?_
  refine (paramsAt_failsBy scope _ _ (h.getD "params" .nil)).bind fun params _ => ?_
  refine (stringsAt_failsBy _ _).bind fun body _ => ?_
  dsimp only
  split
  · exact ((chainAt_failsBy _ _).map some).bind fun chain _ => .ok _
  · exact .ok _

theorem aliasAt_failsBy (scope : List String) (place : Pointer) (value : Json)
    (h : Stands document place value) :
    FailsBy (Explains document) (aliasAt scope place value) := by
  refine (objectAt_failsBy place value).bind fun members hmembers => ?_
  rw [eq_of_objectAt hmembers] at h
  refine (nameAt_failsBy _ _).bind fun name _ => ?_
  refine (optionalTypeAt_failsBy scope _ _ (h.getD "returns" .null)).bind fun returnType _ => ?_
  exact (paramsAt_failsBy scope _ _ (h.getD "params" .nil)).bind fun params _ => .ok _

/-! #### Declarations -/

theorem aliasNames_failsBy (place : Pointer) (items : List Json) :
    FailsBy (Explains document) (aliasNames place items) := by
  induction items with
  | nil => exact .ok []
  | cons item rest ih =>
    cases item with
    | obj members =>
      refine (nameAt_failsBy _ _).bind fun name _ => ?_
      exact FailsBy.bind ih fun names _ => .ok _
    | _ => exact ih

theorem classPartAt_failsBy (scope : List String) {place : Pointer} {members : Members}
    (h : Stands document place (.obj members)) :
    FailsBy (Explains document) (classPartAt scope place members) := by
  refine (itemsOf_getD_failsBy h (by decide)).bind fun fieldItems hfields => ?_
  refine (h.each_failsBy hfields (fieldAt_failsBy scope)).bind fun fields _ => ?_
  refine (optionalTypeAt_failsBy scope _ _ (h.getD "extends" .null)).bind fun base _ => ?_
  refine (itemsOf_getD_failsBy h (by decide)).bind fun interfaceItems hinterfaces => ?_
  exact (h.each_failsBy hinterfaces (typeAt_failsBy scope)).bind fun interfaces _ => .ok _

theorem shapeAt_failsBy (scope : List String) {place : Pointer} {members : Members}
    (h : Stands document place (.obj members)) :
    FailsBy (Explains document) (shapeAt scope place members) := by
  unfold shapeAt
  split
  · exact .ok _
  · exact (classPartAt_failsBy scope h).map _
  · exact reject_failsBy _ _

theorem declarationAt_failsBy (place : Pointer) (value : Json) (h : Stands document place value) :
    FailsBy (Explains document) (declarationAt place value) := by
  refine (objectAt_failsBy place value).bind fun members hmembers => ?_
  rw [eq_of_objectAt hmembers] at h
  refine (nameAt_failsBy _ _).bind fun name _ => ?_
  refine (itemsOf_getD_failsBy h (by decide)).bind fun aliasItems haliases => ?_
  refine (aliasNames_failsBy _ _).bind fun scope _ => ?_
  refine (packageAt_failsBy _ _).bind fun package _ => ?_
  refine (stringsAt_failsBy _ _).bind fun tags _ => ?_
  refine (h.each_failsBy haliases (aliasAt_failsBy scope)).bind fun aliases _ => ?_
  refine (itemsOf_getD_failsBy h (by decide)).bind fun functionItems hfunctions => ?_
  refine (h.each_failsBy hfunctions (functionAt_failsBy scope)).bind fun functions _ => ?_
  exact (shapeAt_failsBy scope h).bind fun shape _ => .ok _

/-- All that makes loading fail is in the document. -/
theorem load_failsBy (document : Json) : FailsBy (Explains document) (load document) := by
  unfold load
  split
  · rename_i types htypes
    apply each_failsBy
    intro i item hi
    apply declarationAt_failsBy
    exact ((Stands.root document).step (s := .key "types") htypes).item hi
  · exact reject_failsBy _ _

end Readers

/-! ### Elements of a document -/

theorem load_of_elements {document : Json} {elements : List Json}
    (h : document.get? "types" = some (.arr elements)) :
    load document = each declarationAt (Pointer.root.key "types") elements := by
  unfold load
  rw [h]

theorem load_of_no_elements {document : Json}
    (h : ∀ elements, document.get? "types" ≠ some (.arr elements)) :
    load document = reject .notDocument .root := by
  unfold load
  split
  · rename_i elements helements
    exact absurd helements (h elements)
  · rfl

/-- What is loaded was read from the elements of a document. -/
theorem elements_of_load {document : Json} {ds : List Declaration} (h : load document = .ok ds) :
    ∃ elements, document.get? "types" = some (.arr elements) ∧
      each declarationAt (Pointer.root.key "types") elements = .ok ds := by
  by_cases htypes : ∃ elements, document.get? "types" = some (.arr elements)
  · obtain ⟨elements, helements⟩ := htypes
    exact ⟨elements, helements, (load_of_elements helements).symm.trans h⟩
  · rw [load_of_no_elements fun elements helements => htypes ⟨elements, helements⟩] at h
    cases h

/-! ### Documents that do not load -/

/-- A document is loaded, or one of its values is refused, or going through the items of a
value fails: of a scalar that is in the document under one of the keys for which this is
not tested. -/
theorem load_error_cases (document : Json) :
    (∃ ds, load document = .ok ds) ∨
      (∃ problem place, load document = .error (.rejected problem place)) ∨
      ∃ (place : Pointer) (key : String) (value : Json) (scalar : Json.Scalar),
        key ∈ iteratedKeys ∧ (place.key key).get? document = some value ∧
          value.items = .error scalar ∧ load document = .error (.notIterable scalar) := by
  cases hload : load document with
  | ok ds => exact .inl ⟨ds, rfl⟩
  | error e =>
    right
    have hexplains := load_failsBy document e hload
    cases hexplains with
    | rejected => exact .inl ⟨_, _, rfl⟩
    | notIterable hkey hvalue hscalar => exact .inr ⟨_, _, _, _, hkey, hvalue, hscalar, rfl⟩

/-- A document with a number in the place of a list of functions. -/
def scalarFunctions : Json :=
  .obj [("types", .arr [.obj [("name", .str "A"), ("functions", .int 5)]])]

/-- It is neither loaded nor refused with a place. -/
theorem load_of_scalar_functions :
    load scalarFunctions = .error (.notIterable .int) ∧
      (LoadError.notIterable .int).message = "'int' object is not iterable" :=
  ⟨rfl, by decide⟩

end SharpEmit.Document
