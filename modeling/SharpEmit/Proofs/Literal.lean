/-
SharpEmit/Proofs/Literal.lean

The grammar of plain literals.  Each kind of literal is a language over characters, put together
from single characters by choice, sequence and repetition, and the tests for literals decide
these languages.

A sign, a point or an exponent may be missing, and what follows never begins like it, so a test
that looks at one character takes the right choice (`mem_optional_mul`); a run of digits is
followed by no digit, so it is taken as a whole (`mem_many_mul`).  The texts that close a string
are the solution of an equation between languages, and by Arden's lemma there is only one
(`closes_iff`).

Main result: a text is a literal if and only if what is left of it without the white space
around it is in the language of literals (`isLiteral_exact`).
-/
import Mathlib.Computability.Language
import SharpEmit.Literal
import SharpEmit.Proofs.Text.Boundaries

namespace SharpEmit.Literal

open Computability

/-! ### The grammar -/

/-- One character of the given kind. -/
def single (p : Char → Prop) : Language Char := {cs | ∃ c, p c ∧ cs = [c]}

/-- A text of the language, or nothing. -/
def optional (l : Language Char) : Language Char := 1 + l

/-- Any number of characters of the given kind. -/
def many (p : Char → Prop) : Language Char := (single p)∗

/-- One or more characters of the given kind. -/
def run (p : Char → Prop) : Language Char := single p * many p

/-- A decimal digit of any script. -/
def IsDigit (c : Char) : Prop := Text.isDecimal c = true

instance (c : Char) : Decidable (IsDigit c) := inferInstanceAs (Decidable (_ = true))

/-- One of the digits `0`–`9`, `a`–`f`, `A`–`F`. -/
def IsHexDigit (c : Char) : Prop :=
  ('0' ≤ c ∧ c ≤ '9') ∨ ('a' ≤ c ∧ c ≤ 'f') ∨ ('A' ≤ c ∧ c ≤ 'F')

/-- A minus sign or none. -/
def minus : Language Char := optional (single (· = '-'))

/-- A point and any number of digits, or nothing. -/
def fraction : Language Char := optional (single (· = '.') * many IsDigit)

/-- An exponent with a sign or none, or nothing. -/
def exponent : Language Char :=
  optional (single (fun c => c = 'e' ∨ c = 'E') *
    (optional (single fun c => c = '-' ∨ c = '+') * run IsDigit))

/-- A decimal number. -/
def decimalNumber : Language Char := minus * (run IsDigit * (fraction * exponent))

/-- A hexadecimal number. -/
def hexNumber : Language Char :=
  minus * (single (· = '0') * (single (fun c => c = 'x' ∨ c = 'X') * run IsHexDigit))

/-- What a string in the quotes `q` is made of: a character other than the quote and the
backslash, or a backslash and any character but a line end. -/
def item (q : Char) : Language Char :=
  single (fun c => c ≠ q ∧ c ≠ '\\') + single (· = '\\') * single (· ≠ '\n')

/-- A string in the quotes `q`. -/
def quotedText (q : Char) : Language Char :=
  single (· = q) * ((item q)∗ * single (· = q))

/-- The words that are literals. -/
def word : Language Char := {"true".toList, "false".toList, "null".toList}

/-- A literal without white space around it. -/
def bare : Language Char :=
  decimalNumber + hexNumber + quotedText '"' + quotedText '\'' + word

/-! ### Single characters, choices and runs -/

variable {p : Char → Prop} {l : Language Char} {c : Char} {cs : List Char}

@[simp] theorem cons_mem_single_mul : c :: cs ∈ single p * l ↔ p c ∧ cs ∈ l := by
  rw [Language.mem_mul]
  constructor
  · rintro ⟨_, ⟨a, ha, rfl⟩, rest, hrest, heq⟩
    obtain ⟨rfl, rfl⟩ := List.cons.inj heq
    exact ⟨ha, hrest⟩
  · rintro ⟨hc, hcs⟩
    exact ⟨[c], ⟨c, hc, rfl⟩, cs, hcs, rfl⟩

@[simp] theorem nil_mem_single_mul : [] ∈ single p * l ↔ False := by
  rw [Language.mem_mul, iff_false]
  rintro ⟨_, ⟨a, -, rfl⟩, rest, -, heq⟩
  cases heq

theorem mem_single : cs ∈ single p ↔ ∃ c, p c ∧ cs = [c] := Iff.rfl

theorem mem_optional : cs ∈ optional l ↔ cs = [] ∨ cs ∈ l := by
  rw [optional, Language.mem_add, Language.mem_one]

/-- Before another text, an optional one is missing or there. -/
theorem mem_optional_mul {m : Language Char} : cs ∈ optional l * m ↔ cs ∈ m ∨ cs ∈ l * m := by
  rw [optional, add_mul, one_mul, Language.mem_add]

/-- Before another text, a run is empty or begins with a character. -/
theorem many_mul : many p * l = l + single p * (many p * l) := by
  have hstar : many p = 1 + single p * many p :=
    (Language.one_add_self_mul_kstar_eq_kstar (single p)).symm
  conv_lhs => rw [hstar, add_mul, one_mul, mul_assoc]

/-- A run ends where a text begins that cannot begin with a character of its kind. -/
theorem mem_many_mul {test : Char → Bool} (htest : ∀ c, test c = true ↔ p c)
    (hl : ∀ c rest, c :: rest ∈ l → ¬ p c) (cs : List Char) :
    cs ∈ many p * l ↔ cs.dropWhile test ∈ l := by
  induction cs with
  | nil =>
    rw [many_mul, Language.mem_add, nil_mem_single_mul, or_false]
    rfl
  | cons c cs ih =>
    rw [many_mul, Language.mem_add, cons_mem_single_mul, ih]
    by_cases hc : p c
    · rw [List.dropWhile_cons_of_pos ((htest c).mpr hc)]
      exact ⟨fun h => (h.resolve_left fun hmem => hl c cs hmem hc).2, fun h => .inr ⟨hc, h⟩⟩
    · rw [List.dropWhile_cons_of_neg fun h => hc ((htest c).mp h)]
      exact or_iff_left fun h => hc h.1

theorem mem_many {test : Char → Bool} (htest : ∀ c, test c = true ↔ p c) :
    cs ∈ many p ↔ cs.all test = true := by
  have hend := mem_many_mul (l := 1) htest (by simp) cs
  rw [mul_one, Language.mem_one, List.dropWhile_eq_nil_iff] at hend
  rw [hend, List.all_eq_true]

theorem mem_run {test : Char → Bool} (htest : ∀ c, test c = true ↔ p c) :
    cs ∈ run p ↔ (!cs.isEmpty && cs.all test) = true := by
  cases cs with
  | nil => simp [run]
  | cons c cs => simp [run, mem_many htest, htest]

/-! ### Numbers -/

theorem isDecimal_iff (c : Char) : Text.isDecimal c = true ↔ IsDigit c := Iff.rfl

theorem isHex_iff (c : Char) : Text.isHex c = true ↔ IsHexDigit c := by
  unfold Text.isHex Text.hexValue? IsHexDigit
  split
  · simp [*]
  · split
    · simp [*]
    · split <;> simp [*]

theorem isDigits_iff (cs : List Char) : isDigits cs = true ↔ cs ∈ run IsDigit :=
  (mem_run isDecimal_iff).symm

/-- Where a text cannot begin with a minus sign, such a sign in front is the optional one. -/
theorem mem_minus_mul (hl : ∀ rest, '-' :: rest ∉ l) (cs : List Char) :
    cs ∈ minus * l ↔ unsigned cs ∈ l := by
  rw [minus, mem_optional_mul]
  cases cs with
  | nil => simp [unsigned]
  | cons c cs =>
    rw [cons_mem_single_mul]
    by_cases hc : c = '-'
    · subst hc
      simp [unsigned, hl]
    · simp [unsigned, hc]

theorem mem_sign_mul (hl : ∀ rest, '-' :: rest ∉ l ∧ '+' :: rest ∉ l) (cs : List Char) :
    cs ∈ optional (single fun c => c = '-' ∨ c = '+') * l ↔ unsignedExponent cs ∈ l := by
  rw [mem_optional_mul]
  cases cs with
  | nil => simp [unsignedExponent]
  | cons c cs =>
    rw [cons_mem_single_mul]
    by_cases hminus : c = '-'
    · subst hminus
      simp [unsignedExponent, hl]
    · by_cases hplus : c = '+'
      · subst hplus
        simp [unsignedExponent, hl]
      · simp [unsignedExponent, hminus, hplus]

/-- A run of digits begins with no other character. -/
theorem isDigit_of_run {c : Char} {rest : List Char} (h : c :: rest ∈ run IsDigit * l) :
    IsDigit c := by
  rw [run, mul_assoc, cons_mem_single_mul] at h
  exact h.1

theorem isExponentPart_iff (cs : List Char) : isExponentPart cs = true ↔ cs ∈ exponent := by
  rw [exponent, mem_optional]
  cases cs with
  | nil => simp [isExponentPart]
  | cons e rest =>
    have hsign : ∀ rest, '-' :: rest ∉ run IsDigit ∧ '+' :: rest ∉ run IsDigit := by
      intro rest
      rw [← mul_one (run IsDigit)]
      exact ⟨fun h => absurd (isDigit_of_run h) (by decide +kernel),
        fun h => absurd (isDigit_of_run h) (by decide +kernel)⟩
    simp [isExponentPart, mem_sign_mul hsign, isDigits_iff]

/-- What can follow the digits of a number begins with no digit. -/
theorem not_isDigit_of_exponent (c : Char) (rest : List Char) (h : c :: rest ∈ exponent) :
    ¬ IsDigit c := by
  rw [exponent, mem_optional, cons_mem_single_mul] at h
  rcases h with hnil | ⟨rfl | rfl, -⟩
  · cases hnil
  · decide +kernel
  · decide +kernel

theorem mem_fraction_mul (cs : List Char) :
    cs ∈ fraction * exponent ↔
      cs ∈ exponent ∨ cs ∈ single (· = '.') * (many IsDigit * exponent) := by
  rw [fraction, mem_optional_mul, mul_assoc]

theorem isFractionPart_iff (cs : List Char) :
    isFractionPart cs = true ↔ cs ∈ fraction * exponent := by
  rw [mem_fraction_mul]
  cases cs with
  | nil => simp [isFractionPart, isExponentPart_iff]
  | cons c rest =>
    rw [cons_mem_single_mul, mem_many_mul isDecimal_iff not_isDigit_of_exponent]
    by_cases hc : c = '.'
    · subst hc
      have hpoint : '.' :: rest ∉ exponent := by
        rw [exponent, mem_optional, cons_mem_single_mul]
        simp
      simp [isFractionPart, isExponentPart_iff, hpoint]
    · simp [isFractionPart, isExponentPart_iff, hc]

theorem not_isDigit_of_fraction (c : Char) (rest : List Char)
    (h : c :: rest ∈ fraction * exponent) : ¬ IsDigit c := by
  rw [mem_fraction_mul, cons_mem_single_mul] at h
  rcases h with hexponent | ⟨rfl, -⟩
  · exact not_isDigit_of_exponent c rest hexponent
  · decide +kernel

theorem isDecimalNumber_iff (cs : List Char) :
    isDecimalNumber cs = true ↔ cs ∈ decimalNumber := by
  rw [decimalNumber, mem_minus_mul fun rest h => absurd (isDigit_of_run h) (by decide +kernel)]
  unfold isDecimalNumber
  dsimp only
  cases unsigned cs with
  | nil => simp [run, mul_assoc]
  | cons c rest =>
    rw [run, mul_assoc, cons_mem_single_mul, mem_many_mul isDecimal_iff not_isDigit_of_fraction,
      ← isFractionPart_iff, Bool.and_eq_true]
    refine and_congr_right fun hc => ?_
    rw [List.dropWhile_cons_of_pos (show Text.isDecimal c = true from hc)]

theorem isHexNumber_iff (cs : List Char) : isHexNumber cs = true ↔ cs ∈ hexNumber := by
  rw [hexNumber, mem_minus_mul (by simp)]
  unfold isHexNumber
  rcases unsigned cs with _ | ⟨z, _ | ⟨x, ds⟩⟩
  · simp
  · simp
  · by_cases hz : z = '0'
    · subst hz
      simp [mem_run isHex_iff, and_assoc]
    · simp [hz]

/-! ### Strings -/

theorem mem_item_mul {q : Char} :
    cs ∈ item q * l ↔ cs ∈ single (fun c => c ≠ q ∧ c ≠ '\\') * l ∨
      cs ∈ single (· = '\\') * (single (· ≠ '\n') * l) := by
  rw [item, add_mul, mul_assoc, Language.mem_add]

/-- The texts that close a string in the quotes `q`. -/
def closing (q : Char) : Language Char := {cs | closes q cs = true}

theorem mem_closing {q : Char} : cs ∈ closing q ↔ closes q cs = true := Iff.rfl

/-- A text closes a string if it is the quote, or does so after an item. -/
theorem closing_eq {q : Char} (hq : q ≠ '\\') :
    closing q = item q * closing q + single (· = q) := by
  ext cs
  rw [Language.mem_add, mem_item_mul, mem_single, mem_closing]
  cases cs with
  | nil => simp [closes]
  | cons c rest =>
    by_cases hc : c = '\\'
    · subst hc
      cases rest with
      | nil => simp [closes, hq.symm]
      | cons c rest => simp [closes, mem_closing]
    · rw [cons_mem_single_mul, cons_mem_single_mul, mem_closing]
      by_cases hend : c = q
      · simp [closes, hend, hq]
      · simp [closes, hc, hend]

theorem closes_iff {q : Char} (hq : q ≠ '\\') :
    closes q cs = true ↔ cs ∈ (item q)∗ * single (· = q) := by
  have hitem : [] ∉ item q := by
    rintro (⟨c, -, hnil⟩ | hpair)
    · cases hnil
    · exact nil_mem_single_mul.mp hpair
  rw [← (Language.self_eq_mul_add_iff hitem).mp (closing_eq hq), mem_closing]

theorem isQuoted_iff {q : Char} (hq : q ≠ '\\') (cs : List Char) :
    isQuoted q cs = true ↔ cs ∈ quotedText q := by
  rw [quotedText]
  cases cs with
  | nil => simp [isQuoted]
  | cons c rest => simp [isQuoted, closes_iff hq]

/-! ### Literals -/

theorem isBare_iff (cs : List Char) : isBare cs = true ↔ cs ∈ bare := by
  have hword : words.contains cs = true ↔ cs ∈ word := by
    rw [List.contains_iff_mem, words, List.mem_cons, List.mem_cons, List.mem_singleton]
    exact Iff.rfl
  simp only [isBare, Bool.or_eq_true, isDecimalNumber_iff, isHexNumber_iff,
    isQuoted_iff (show '"' ≠ '\\' by decide), isQuoted_iff (show '\'' ≠ '\\' by decide), hword]
  rfl

/-- A text is a literal if and only if it is one after the white space around it is cut off. -/
theorem isLiteral_exact (s : String) :
    isLiteral s = true ↔ ∃ core, Text.Trimmed s.toList core ∧ core ∈ bare := by
  rw [isLiteral, isBare_iff]
  constructor
  · intro h
    exact ⟨_, Text.trimmed_trim s.toList, h⟩
  · rintro ⟨core, htrimmed, hcore⟩
    rwa [htrimmed.trim_eq]

-- digits of two scripts, and a space that is not the usual one around a number
example : isLiteral "0" = true ∧ isLiteral "\u0660" = true ∧ isLiteral "\u00A0-1.5e3\u00A0" = true ∧
    isLiteral "0x\u0660" = false := by decide +kernel

end SharpEmit.Literal
