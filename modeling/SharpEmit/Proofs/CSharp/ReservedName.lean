/-
SharpEmit/Proofs/CSharp/ReservedName.lean

The name of the method that runs deferred initializers, and the members that get it.  No field
and no function of a rendered class has this name by itself, but functions are written under
other names: what an accessor is called is put together from a leading word and its name with a
capital.  A leading word ends somewhere in the reserved name, and what is left of that must be
a capitalized name; small letters never are capitals (`Text.source_of_upperCase`), so there are
few such places, and each comes from few names (`clashes`, `lead_capitalize_eq_iff`).

Main result: in a rendered class no field has the reserved name, and of the methods those have
it, and only those, that are accessors with one of seven pairs of a leading word and a name
(`reservedName_taken_iff`).  So it is taken by a getter `initializeFields` that is called
`__internalInitializeFields` for its leading word (`initializeFields_taken`).
-/
import SharpEmit.Proofs.CSharp.MethodNames
import SharpEmit.Proofs.CSharp.Signatures
import SharpEmit.Proofs.CSharp.Validity

namespace SharpEmit

/-! ### What a capital comes from -/

namespace Text

/-- The upper case of a character is a long one, or the image in a run that holds the
character, or the character itself if there is no such run. -/
theorem upperCase_cases (c : Char) :
    (∃ images, (c.toNat, images) ∈ longUpperCases ∧ upperCase c = images.map Char.ofNat) ∨
    (∃ r ∈ caseRuns, ∃ k, r.image? c.toNat = some k ∧ upperCase c = [Char.ofNat k]) ∨
    (∀ r ∈ caseRuns, r.image? c.toNat = none) ∧ upperCase c = [c] := by
  unfold upperCase
  cases hlong : longUpperCases.lookup c.toNat with
  | some images =>
    obtain ⟨before, after, hlist, -⟩ := List.lookup_eq_some_iff.mp hlong
    refine .inl ⟨images, ?_, rfl⟩
    rw [hlist]
    exact List.mem_append_right _ List.mem_cons_self
  | none =>
    cases hrun : caseRuns.findSome? (·.image? c.toNat) with
    | some k =>
      obtain ⟨r, hr, hk⟩ := List.exists_of_findSome?_eq_some hrun
      exact .inr (.inl ⟨r, hr, k, hk, rfl⟩)
    | none => exact .inr (.inr ⟨List.findSome?_eq_none_iff.mp hrun, rfl⟩)

/-- The code points with a single upper case among the ASCII characters, of which it is the
given one: the small letters, the dotless `i`, the long `s`, and any character that is no
small letter for itself. -/
def IsSource (k x : Nat) : Prop :=
  k = x ∧ ¬ (0x61 ≤ x ∧ x ≤ 0x7a) ∨ (0x41 ≤ x ∧ x ≤ 0x5a) ∧ k = x + 0x20 ∨
    k = 0x131 ∧ x = 0x49 ∨ k = 0x17f ∧ x = 0x53

theorem isSource_of_image {r : CaseRun} (hr : r ∈ caseRuns) {k x : Nat} (hx : x < 128)
    (h : r.image? k = some x) : IsSource k x := by
  have hruns : ∀ r ∈ caseRuns, 128 ≤ r.image ∨
      (r.first, r.last, r.image) ∈ [(0x61, 0x7a, 0x41), (0x131, 0x131, 0x49), (0x17f, 0x17f, 0x53)] := by
    decide +kernel
  unfold CaseRun.image? at h
  split at h
  · rename_i hin
    obtain rfl := Option.some.inj h
    rcases hruns r hr with hlarge | hsmall
    · omega
    · unfold IsSource
      simp only [List.mem_cons, Prod.mk.injEq, List.not_mem_nil, or_false] at hsmall
      omega
  · cases h

/-- What has an ASCII character for its upper case. -/
theorem source_of_upperCase {c x : Char} (hx : 0 < x.toNat ∧ x.toNat < 128)
    (h : upperCase c = [x]) : IsSource c.toNat x.toNat := by
  have hlong : ∀ e ∈ longUpperCases, e.2.length ≠ 1 := by decide +kernel
  rcases upperCase_cases c with ⟨images, hmem, himages⟩ | ⟨r, hr, k, hk, himage⟩ | ⟨hnone, hself⟩
  · have hlength := congrArg List.length (himages.symm.trans h)
    rw [List.length_map] at hlength
    exact absurd hlength (hlong _ hmem)
  · obtain rfl : Char.ofNat k = x := (List.cons.inj (himage.symm.trans h)).1
    -- a number that is no code point would stand for the first one
    have hvalue : (Char.ofNat k).toNat = k := by
      by_cases hvalid : k.isValidChar
      · have hchar : Char.ofNat k = Char.ofNatAux k hvalid := dif_pos hvalid
        rw [hchar]
        rfl
      · have hzero : Char.ofNat k = Char.ofNat 0 := dif_neg hvalid
        rw [hzero] at hx
        exact absurd hx (by decide)
    rw [hvalue] at hx ⊢
    exact isSource_of_image hr hx.2 hk
  · obtain rfl : c = x := (List.cons.inj (hself.symm.trans h)).1
    refine .inl ⟨rfl, fun hsmall => ?_⟩
    have himage : smallLetters.image? c.toNat ≠ none := by
      simp [smallLetters, CaseRun.image?, hsmall, Nat.mod_one]
    exact himage (hnone smallLetters List.mem_cons_self)

end Text

namespace CSharp

open Layout

/-! ### Names that come out as the reserved one -/

/-- The leading words and names of accessors that are called by the reserved name. -/
def clashes : List (String × String) :=
  [("_", "_internalInitializeFields"),
    ("__internal", "initializeFields"),
    ("__internal", "InitializeFields"),
    ("__internal", "ınitializeFields"),
    ("__internalInitialize", "fields"),
    ("__internalInitialize", "Fields"),
    ("__internalInitializeFields", "")]

/-- The capitals in the reserved name, each with a character that it comes from. -/
def reservedCapitals : List (Char × Char) :=
  [('_', '_'), ('I', 'i'), ('I', 'I'), ('I', 'ı'), ('F', 'f'), ('F', 'F')]

/-- What is the upper case of a character within the reserved name is one of its capitals. -/
theorem reservedCapital_of_upperCase {c : Char} (h : Text.upperCase c <:+: initializerName.toList) :
    ∃ x, Text.upperCase c = [x] ∧ (x, c) ∈ reservedCapitals := by
  have hlong : ∀ e ∈ Text.longUpperCases,
      ¬ e.2.map Char.ofNat <:+: initializerName.toList := by decide +kernel
  have hchars : ∀ k ∈ initializerName.toList.map Char.toNat, (0 < k ∧ k < 128) ∧
      (k ∈ [0x5f, 0x49, 0x46] ∨ 0x61 ≤ k ∧ k ≤ 0x7a) := by decide +kernel
  obtain ⟨x, hx⟩ : ∃ x, Text.upperCase c = [x] := by
    rcases Text.upperCase_cases c with ⟨images, hmem, himages⟩ | ⟨-, -, k, -, hk⟩ | ⟨-, hself⟩
    · rw [himages] at h
      exact absurd h (hlong _ hmem)
    · exact ⟨_, hk⟩
    · exact ⟨_, hself⟩
  refine ⟨x, hx, ?_⟩
  rw [hx] at h
  obtain ⟨hascii, hcapital⟩ := hchars x.toNat
    (List.mem_map_of_mem (h.subset List.mem_cons_self))
  have hsource := Text.source_of_upperCase hascii hx
  have hpair : (x.toNat, c.toNat) ∈ reservedCapitals.map fun p => (p.1.toNat, p.2.toNat) := by
    show (x.toNat, c.toNat) ∈ [(0x5f, 0x5f), (0x49, 0x69), (0x49, 0x49), (0x49, 0x131),
      (0x46, 0x66), (0x46, 0x46)]
    rw [Text.IsSource] at hsource
    rcases hcapital with hcapital | hsmall
    · simp only [List.mem_cons, List.not_mem_nil, or_false] at hcapital
      rcases hcapital with hx' | hx' | hx'
      · have hc : c.toNat = 0x5f := by omega
        simp [hx', hc]
      · have hc : c.toNat = 0x69 ∨ c.toNat = 0x49 ∨ c.toNat = 0x131 := by omega
        rcases hc with hc | hc | hc <;> simp [hx', hc]
      · have hc : c.toNat = 0x66 ∨ c.toNat = 0x46 := by omega
        rcases hc with hc | hc <;> simp [hx', hc]
    · -- a small letter is no capital of anything
      omega
  obtain ⟨p, hp, heq⟩ := List.mem_map.mp hpair
  obtain ⟨hx', hc'⟩ := Prod.mk.inj heq
  have hp' : p = (x, c) := Prod.ext (Char.toNat_inj.mp hx') (Char.toNat_inj.mp hc')
  exact hp' ▸ hp

theorem identifier_cases (name : String) :
    identifier name = name ∨ (identifier name).toList = '@' :: name.toList := by
  unfold identifier
  split
  · exact .inr (by simp)
  · exact .inl rfl

theorem identifier_eq_initializerName_iff (name : String) :
    identifier name = initializerName ↔ name = initializerName := by
  constructor
  · intro h
    rcases identifier_cases name with hself | hescaped
    · rw [← hself, h]
    · rw [h] at hescaped
      exact absurd (List.cons.inj hescaped).1 (by decide)
  · rintro rfl
    decide +kernel

/-- A leading word and a capitalized name make the reserved name in just the listed ways. -/
theorem lead_capitalize_eq_iff {lead name : String} (hlead : lead ≠ "") :
    lead ++ Text.capitalize (identifier name) = initializerName ↔ (lead, name) ∈ clashes := by
  have hclashes : ∀ p ∈ clashes, p.1 ++ Text.capitalize (identifier p.2) = initializerName := by
    decide +kernel
  -- every place of a capital in the reserved name, but for its beginning
  have hplaces : ∀ k < initializerName.toList.length, k ≠ 0 →
      reservedCapitals.all (fun p =>
        initializerName.toList.drop k ≠ p.1 :: initializerName.toList.drop (k + 1) ||
          (String.ofList (initializerName.toList.take k),
            String.ofList (p.2 :: initializerName.toList.drop (k + 1))) ∈ clashes) = true := by
    decide +kernel
  refine ⟨fun h => ?_, fun h => hclashes _ h⟩
  have hchars : lead.toList ++ (Text.capitalize (identifier name)).toList =
      initializerName.toList := by
    rw [← String.toList_append, h]
  cases hname : (identifier name).toList with
  | nil =>
    rcases identifier_cases name with hself | hescaped
    · have hempty : name = "" := by rw [← hself, String.toList_eq_nil_iff.mp hname]
      subst hempty
      have hlead' : lead = initializerName := by simpa [Text.capitalize, identifier, keywords] using h
      rw [hlead']
      decide +kernel
    · rw [hname] at hescaped
      cases hescaped
  | cons c rest =>
    have hcapital : (Text.capitalize (identifier name)).toList = Text.upperCase c ++ rest := by
      rw [Text.capitalize, hname, String.toList_ofList]
    rw [hcapital] at hchars
    obtain ⟨x, hx, hpair⟩ := reservedCapital_of_upperCase (c := c)
      ⟨lead.toList, rest, by rw [List.append_assoc, hchars]⟩
    rw [hx, List.singleton_append] at hchars
    -- the leading word and the rest of the name are what stands before and after the capital
    have hlength : lead.toList.length < initializerName.toList.length := by
      rw [← hchars, List.length_append, List.length_cons]
      omega
    have htake : initializerName.toList.take lead.toList.length = lead.toList := by
      rw [← hchars, List.take_left]
    have hdrop : initializerName.toList.drop lead.toList.length = x :: rest := by
      rw [← hchars, List.drop_left]
    have hrest : initializerName.toList.drop (lead.toList.length + 1) = rest := by
      rw [← List.drop_drop, hdrop, List.drop_one, List.tail_cons]
    have hplace := List.all_eq_true.mp (hplaces _ hlength fun hzero =>
      hlead (String.toList_eq_nil_iff.mp (List.length_eq_zero_iff.mp hzero))) (x, c) hpair
    rw [htake, hrest, hdrop, String.ofList_toList, ← hname, String.ofList_toList] at hplace
    have hclash : (lead, identifier name) ∈ clashes := by simpa using hplace
    rcases identifier_cases name with hself | hescaped
    · rwa [hself] at hclash
    · -- no capital comes from the sign of escaped names
      have hsign : '@' ∉ reservedCapitals.map Prod.snd := by decide
      rw [hname] at hescaped
      obtain rfl := (List.cons.inj hescaped).1
      exact absurd (List.mem_map_of_mem hpair) hsign

/-- What a function is called is the reserved name if it has this name itself and nothing comes
before it, or by one of the pairs. -/
theorem functionName_eq_initializerName_iff (n : Naming) (f : Function) :
    functionName n f = initializerName ↔
      accessorLead n f = "" ∧ f.name = initializerName ∨ (accessorLead n f, f.name) ∈ clashes := by
  have hleads : ∀ p ∈ clashes, p.1 ≠ "" := by decide +kernel
  rw [functionName_eq, accessorName]
  by_cases hlead : accessorLead n f = ""
  · rw [if_pos hlead, identifier_eq_initializerName_iff]
    constructor
    · exact fun hname => .inl ⟨hlead, hname⟩
    · rintro (⟨-, hname⟩ | hclash)
      · exact hname
      · exact absurd hlead (hleads _ hclash)
  · rw [if_neg hlead, lead_capitalize_eq_iff hlead]
    constructor
    · exact .inr
    · rintro (⟨hnone, -⟩ | hclash)
      · exact absurd hnone hlead
      · exact hclash

/-! ### Members of rendered classes -/

/-- In a class that is rendered no field is written under the name of the method that runs
deferred initializers.  A method is written under that name if and only if it is an accessor,
and its leading word and its own name are one of seven pairs. -/
theorem reservedName_taken_iff (n : Naming) {d : Declaration} {part : ClassPart} {b : LineBuffer}
    (hshape : d.shape = .classShape part) (hrender : render n d = .ok b) :
    (∀ f ∈ part.fields, indented 2 (fieldLine f) ∈ b.lines ∧
      identifier f.name ≠ "__internalInitializeFields") ∧
    ∀ f ∈ methods d, indented 2 (methodHead n part.isFinal f) ∈ b.lines ∧
      (functionName n f = "__internalInitializeFields" ↔
        (accessorLead n f, f.name) ∈ clashes) := by
  obtain ⟨-, hlines⟩ := lines_of_render hrender
  obtain ⟨-, hmet⟩ := not_breaks_of_render hrender
  rw [hlines]
  constructor
  · intro f hf
    refine ⟨fieldLine_mem n hshape hf, fun hname => ?_⟩
    exact hmet .freeName (.freeName hshape
      (.inl ⟨f, hf, (identifier_eq_initializerName_iff f.name).mp hname⟩))
  · intro f hf
    have hfunction : f ∈ d.functions := (List.mem_filter.mp hf).1
    refine ⟨?_, (functionName_eq_initializerName_iff n f).trans ⟨?_, .inr⟩⟩
    · rw [← writtenHead_of_mem_methods n part hf]
      exact writtenHead_mem n hshape hfunction
    · rintro (⟨-, hname⟩ | hclash)
      · exact absurd (.freeName hshape (.inr ⟨f, hfunction, hname⟩)) (hmet .freeName)
      · exact hclash

/-- A class with a deferred initializer, a constructor, and two getters. -/
def initializingClass : Declaration :=
  { name := "Counter"
    functions :=
      [{ name := "Counter", isConstructor := true },
       { name := "initializeFields", isGetter := true },
       { name := "fields", isGetter := true }]
    shape := .classShape layeredPart }

/-- Of the two getters one gets the reserved name. -/
theorem reservedName_taken_iff_initializing :
    ∃ b, render { getterPrefix := "__internal" } initializingClass = .ok b ∧
      identifier "n" ≠ "__internalInitializeFields" ∧
      functionName { getterPrefix := "__internal" } { name := "initializeFields", isGetter := true } =
        "__internalInitializeFields" ∧
      functionName { getterPrefix := "__internal" } { name := "fields", isGetter := true } ≠
        "__internalInitializeFields" := by
  have hfault : fault? initializingClass = none := by decide +kernel
  obtain ⟨b, hb⟩ := exists_render_of_fault? { getterPrefix := "__internal" } hfault
  obtain ⟨hfields, hmethods⟩ := @reservedName_taken_iff { getterPrefix := "__internal" }
    initializingClass layeredPart b rfl hb
  refine ⟨b, hb, (hfields _ List.mem_cons_self).2, ?_, fun htaken => ?_⟩
  · exact (hmethods _ (by decide +kernel)).2.mpr (by decide +kernel)
  · exact absurd ((hmethods _ (by decide +kernel)).2.mp htaken) (by decide +kernel)

/-- The class is rendered, and the getter is written under the name of the method. -/
theorem initializeFields_taken :
    ∃ b, render { getterPrefix := "__internal" } initializingClass = .ok b ∧
      "        private void __internalInitializeFields()" ∈ b.lines ∧
      "        public virtual void __internalInitializeFields()" ∈ b.lines := by
  have hfault : fault? initializingClass = none := by decide +kernel
  obtain ⟨b, hb⟩ := exists_render_of_fault? { getterPrefix := "__internal" } hfault
  refine ⟨b, hb, ?_, ?_⟩
  · rw [(lines_of_render hb).2]
    decide +kernel
  · rw [(lines_of_render hb).2]
    decide +kernel

end CSharp

end SharpEmit
