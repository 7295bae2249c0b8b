/-
SharpEmit/Proofs/CSharp/MethodNames.lean

Which names of functions can be declared in C#.  A name is escaped first if it is a reserved
word, and an accessor then gets its leading word in front (`functionName_eq`).  After a leading
word a name begins with a capital or an underscore, so what comes out for a plain name is an
identifier and no reserved word (`isDeclarable_lead`).

Main result: the name of a function can be declared unless the function is an accessor with a
leading word and its own name is a reserved word (`functionName_declarable_iff`).  There the
escape ends up in the middle: a getter `class` is called `get@class`
(`getter_class_not_declarable`).
-/
import SharpEmit.CSharp.Signature

namespace SharpEmit

/-! ### Capitals -/

/-- The run of the small letters, the first one. -/
def Text.smallLetters : CaseRun := ⟨0x61, 0x7a, 1, 0x41⟩

/-- Of the ASCII characters only the small letters change: the rest of the tables is about
other characters. -/
theorem Text.upperCase_of_ascii {c : Char} (h : c.toNat < 128) : upperCase c = [c.toUpper] := by
  have hlong : ∀ e ∈ longUpperCases, 128 ≤ e.1 := by decide +kernel
  have hruns : ∀ r ∈ caseRuns.tail, 128 ≤ r.first := by decide +kernel
  have hletters : ∀ k < 128, ((smallLetters.image? k).map Char.ofNat).getD (Char.ofNat k) =
      (Char.ofNat k).toUpper := by decide +kernel
  have hlookup : longUpperCases.lookup c.toNat = none := by
    refine List.lookup_eq_none_iff.mpr fun e he => ?_
    have hle := hlong e he
    rw [bne_iff_ne]
    omega
  have hrest : caseRuns.tail.findSome? (·.image? c.toNat) = none := by
    refine List.findSome?_eq_none_iff.mpr fun r hr => ?_
    have hle := hruns r hr
    exact if_neg fun hin => by omega
  have hfirst : caseRuns.findSome? (·.image? c.toNat) = smallLetters.image? c.toNat := by
    rw [show caseRuns = smallLetters :: caseRuns.tail from rfl, List.findSome?_cons, hrest]
    cases smallLetters.image? c.toNat <;> rfl
  have hc := hletters c.toNat h
  rw [Char.ofNat_toNat] at hc
  rw [upperCase, hlookup, hfirst, ← hc]

theorem Text.toList_capitalize {name : String} {c : Char} {rest : List Char}
    (h : name.toList = c :: rest) (hc : c.toNat < 128) :
    (capitalize name).toList = c.toUpper :: rest := by
  rw [capitalize, h]
  dsimp only
  rw [String.toList_ofList, upperCase_of_ascii hc]
  rfl

namespace CSharp

/-! ### Identifiers -/

theorem mem_identifier {c : Char} (hc : c ≠ '@') {name : String}
    (h : c ∈ (identifier name).toList) : c ∈ name.toList := by
  unfold identifier at h
  split at h
  · simpa [hc] using h
  · exact h

/-- No reserved word is left as it is. -/
theorem identifier_not_mem_keywords (name : String) : identifier name ∉ keywords := by
  have hescaped : ∀ word ∈ keywords, "@" ++ word ∉ keywords := by decide +kernel
  unfold identifier
  split
  · rename_i hkeyword
    exact hescaped name hkeyword
  · rename_i hplain
    exact hplain

/-- A letter or the underscore. -/
def isInitial (c : Char) : Bool := c.isAlpha || c = '_'

/-- A character that can follow in an identifier. -/
def isInner (c : Char) : Bool := isInitial c || c.isDigit

/-- An identifier in ASCII: a letter or an underscore, and then letters, digits and
underscores. -/
def IsWord (name : String) : Prop :=
  name.toList.head?.any isInitial = true ∧ name.toList.all isInner = true

instance (name : String) : Decidable (IsWord name) :=
  inferInstanceAs (Decidable (_ ∧ _))

/-- The names that can be declared: identifiers that are no reserved words, and any identifier
after a single `@`. -/
inductive IsDeclarable : String → Prop
  | plain {word : String} : IsWord word → word ∉ keywords → IsDeclarable word
  | verbatim {word : String} : IsWord word → IsDeclarable ("@" ++ word)

theorem ascii_of_isInitial {c : Char} (h : isInitial c = true) : c.toNat < 128 := by
  have hcapital : c.isUpper = true → c.toNat ≤ 'Z'.toNat := fun h =>
    UInt32.le_iff_toNat_le.mp (of_decide_eq_true h).2
  have hsmall : c.isLower = true → c.toNat ≤ 'z'.toNat := fun h =>
    UInt32.le_iff_toNat_le.mp (of_decide_eq_true (Bool.and_eq_true_iff.mp h).2)
  rw [isInitial, Bool.or_eq_true, decide_eq_true_eq] at h
  rcases h with h | rfl
  · rcases Bool.or_eq_true_iff.mp h with hletter | hletter
    · exact Nat.lt_of_le_of_lt (hcapital hletter) (by decide)
    · exact Nat.lt_of_le_of_lt (hsmall hletter) (by decide)
  · decide

/-- In upper case the first character of an identifier still is one, and no small letter. -/
theorem isInitial_toUpper {c : Char} (h : isInitial c = true) :
    isInitial c.toUpper = true ∧ c.toUpper.isLower = false := by
  have htable : ∀ k < 128, isInitial (Char.ofNat k) = true →
      isInitial (Char.ofNat k).toUpper = true ∧ (Char.ofNat k).toUpper.isLower = false := by
    decide +kernel
  have hc := htable c.toNat (ascii_of_isInitial h)
  rw [Char.ofNat_toNat] at hc
  exact hc h

namespace IsWord

variable {name : String}

theorem exists_cons (h : IsWord name) : ∃ c rest, name.toList = c :: rest ∧ isInitial c = true := by
  obtain ⟨hhead, -⟩ := h
  cases hlist : name.toList with
  | nil => simp [hlist] at hhead
  | cons c rest => exact ⟨c, rest, rfl, by simpa [hlist] using hhead⟩

theorem ne_empty (h : IsWord name) : name ≠ "" := by
  rintro rfl
  exact absurd h (by decide)

/-- The sign of escaped names does not occur in an identifier. -/
theorem at_not_mem (h : IsWord name) : '@' ∉ name.toList := by
  intro hmem
  exact absurd (List.all_eq_true.mp h.2 '@' hmem) (by decide)

theorem append {lead : String} (hlead : IsWord lead) (h : name.toList.all isInner = true) :
    IsWord (lead ++ name) := by
  obtain ⟨c, rest, hlist, hc⟩ := hlead.exists_cons
  have hall := hlead.2
  rw [hlist] at hall
  refine ⟨?_, ?_⟩
  · rw [String.toList_append, hlist]
    exact hc
  · rw [String.toList_append, List.all_append, hlist, hall, h]
    rfl

/-- A capitalized identifier begins with no small letter, and the rest is as it was. -/
theorem capitalize (h : IsWord name) :
    (Text.capitalize name).toList.all isInner = true ∧
      ∃ c ∈ (Text.capitalize name).toList, c.isLower = false := by
  obtain ⟨c, rest, hlist, hc⟩ := h.exists_cons
  obtain ⟨hcapital, hlower⟩ := isInitial_toUpper hc
  have hall := h.2
  rw [hlist, List.all_cons, Bool.and_eq_true] at hall
  rw [Text.toList_capitalize hlist (ascii_of_isInitial hc)]
  refine ⟨?_, c.toUpper, List.mem_cons_self, hlower⟩
  rw [List.all_cons, hall.2, isInner, hcapital]
  rfl

end IsWord

/-! ### Accessors -/

/-- The word that stands before the name of a function: that of getters, that of setters, or
none. -/
def accessorLead (n : Naming) (f : Function) : String :=
  if f.isGetter then n.getterPrefix else if f.isSetter then n.setterPrefix else ""

theorem functionName_eq (n : Naming) (f : Function) :
    functionName n f = accessorName (accessorLead n f) (identifier f.name) := by
  unfold functionName accessorLead Naming.getter Naming.setter
  dsimp only
  split
  · rfl
  · split <;> rfl

theorem isDeclarable_identifier {name : String} (h : IsWord name) :
    IsDeclarable (identifier name) := by
  unfold identifier
  split
  · exact .verbatim h
  · rename_i hplain
    exact .plain h hplain

/-- A leading word and a capitalized name make a name that is not reserved: reserved words are
in small letters. -/
theorem isDeclarable_lead {lead name : String} (hlead : IsWord lead) (h : IsWord name) :
    IsDeclarable (lead ++ Text.capitalize name) := by
  obtain ⟨hinner, c, hc, hlower⟩ := h.capitalize
  refine .plain (hlead.append hinner) fun hkeyword => ?_
  have hsmall : ∀ word ∈ keywords, word.toList.all Char.isLower = true := by decide +kernel
  have hmem : c ∈ (lead ++ Text.capitalize name).toList := by
    rw [String.toList_append]
    exact List.mem_append_right _ hc
  have hlower' := List.all_eq_true.mp (hsmall _ hkeyword) c hmem
  rw [hlower] at hlower'
  cases hlower'

/-- An escaped name after a leading word keeps its sign. -/
theorem capitalize_at (name : String) : Text.capitalize ("@" ++ name) = "@" ++ name := by
  have hlist : ("@" ++ name).toList = '@' :: name.toList := by rw [String.toList_append]; rfl
  rw [← String.toList_inj, Text.toList_capitalize hlist (by decide), hlist]
  rfl

/-- Nothing can be declared with the sign behind a leading word. -/
theorem not_isDeclarable_lead_at {lead : String} (hlead : IsWord lead) (name : String) :
    ¬ IsDeclarable (lead ++ ("@" ++ name)) := by
  intro h
  obtain ⟨c, rest, hlist, hc⟩ := hlead.exists_cons
  generalize htext : lead ++ ("@" ++ name) = text at h
  have hchars : c :: rest ++ '@' :: name.toList = text.toList := by
    rw [← htext, String.toList_append, hlist, String.toList_append]
    rfl
  cases h with
  | plain hword _ =>
    apply hword.at_not_mem
    rw [← hchars]
    exact List.mem_append_right _ List.mem_cons_self
  | verbatim hword =>
    -- the sign would have to be the first character of the leading word
    rw [String.toList_append] at hchars
    obtain rfl : c = '@' := by injection hchars
    exact absurd hc (by decide)

/-! ### Names of functions -/

/-- The name of a function can be declared unless a leading word comes before a name that is
reserved; then the escaped name comes after that word as it is. -/
theorem functionName_declarable_iff (n : Naming) (f : Function) (hname : IsWord f.name)
    (hgetter : n.getterPrefix = "" ∨ IsWord n.getterPrefix)
    (hsetter : n.setterPrefix = "" ∨ IsWord n.setterPrefix) :
    (IsDeclarable (functionName n f) ↔ (f.name ∈ keywords → accessorLead n f = "")) ∧
      (f.name ∈ keywords → accessorLead n f ≠ "" →
        functionName n f = accessorLead n f ++ "@" ++ f.name) := by
  have hlead : accessorLead n f = "" ∨ IsWord (accessorLead n f) := by
    unfold accessorLead
    split
    · exact hgetter
    · split
      · exact hsetter
      · exact .inl rfl
  rw [functionName_eq, accessorName]
  rcases hlead with hnone | hword
  · rw [if_pos hnone]
    exact ⟨iff_of_true (isDeclarable_identifier hname) fun _ => hnone,
      fun _ hne => absurd hnone hne⟩
  · rw [if_neg hword.ne_empty]
    by_cases hkeyword : f.name ∈ keywords
    · rw [identifier, if_pos hkeyword, capitalize_at]
      refine ⟨iff_of_false (not_isDeclarable_lead_at hword f.name) fun hnone => ?_, fun _ _ => ?_⟩
      · exact hword.ne_empty (hnone hkeyword)
      · rw [String.append_assoc]
    · rw [identifier, if_neg hkeyword]
      exact ⟨iff_of_true (isDeclarable_lead hword hname) fun h => absurd h hkeyword,
        fun h => absurd h hkeyword⟩

/-- A setter `class` without a leading word, and a getter `width` with one. -/
theorem functionName_declarable_samples :
    (IsDeclarable (functionName { setterPrefix := "" } { name := "class", isSetter := true }) ∧
      functionName { setterPrefix := "" } { name := "class", isSetter := true } = "@class") ∧
    IsDeclarable (functionName {} { name := "width", isGetter := true }) ∧
      functionName {} { name := "width", isGetter := true } = "getWidth" := by
  have hclass := functionName_declarable_iff { setterPrefix := "" }
    { name := "class", isSetter := true } (by decide) (.inr (by decide)) (.inl rfl)
  have hwidth := functionName_declarable_iff {} { name := "width", isGetter := true }
    (by decide) (.inr (by decide)) (.inr (by decide))
  exact ⟨⟨hclass.1.mpr fun _ => rfl, by decide +kernel⟩,
    hwidth.1.mpr fun h => absurd h (by decide +kernel), by decide +kernel⟩

/-- The name of a getter `class` cannot be declared. -/
theorem getter_class_not_declarable :
    IsWord "class" ∧ IsWord "get" ∧
      functionName {} { name := "class", isGetter := true } = "get@class" ∧
      ¬ IsDeclarable (functionName {} { name := "class", isGetter := true }) := by
  have hname : functionName {} { name := "class", isGetter := true } =
      "get" ++ ("@" ++ "class") := by decide +kernel
  refine ⟨by decide, by decide, by decide +kernel, ?_⟩
  rw [hname]
  exact not_isDeclarable_lead_at (by decide) "class"

end CSharp

end SharpEmit
