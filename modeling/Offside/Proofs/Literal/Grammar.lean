import Offside.Proofs.Literal.Integer

/-!
# The grammar of number literals

A number literal is an integer in one of four radixes, a floating-point number, or either of the
decimal kinds with the letter j behind it. The grammar (`Numeral`) is stated apart from how literals
are scanned and read, for texts in lower case. What it says of decimal numbers is said over any kind
of groups of digits, so that it serves for literals with underscores and for those without.
-/
namespace Offside

open Text

namespace Literal

/-- What kind of number a literal writes. -/
inductive NumeralKind where
  /-- An integer. -/
  | integer
  /-- A floating-point number. -/
  | float
  /-- An imaginary number. -/
  | imaginary
  deriving DecidableEq, Inhabited

/-- The kind of a number. -/
def kindOf : Number → NumeralKind
  | .int _ => .integer
  | .big _ => .integer
  | .float _ => .float
  | .imaginary _ => .imaginary

section Grammar

/-- Digits of a radix with at most one underscore between two of them. -/
inductive DigitGroup (radix : Nat) : List Char → Prop where
  /-- One digit. -/
  | last {c : Char} (digit : isDigitOf radix c = true) : DigitGroup radix [c]
  /-- A digit before others. -/
  | next {c : Char} {rest : List Char} (digit : isDigitOf radix c = true)
    (group : DigitGroup radix rest) : DigitGroup radix (c :: rest)
  /-- A digit and an underscore before others. -/
  | apart {c : Char} {rest : List Char} (digit : isDigitOf radix c = true)
    (group : DigitGroup radix rest) : DigitGroup radix (c :: '_' :: rest)

/-- Digits without underscores. -/
def Digits (radix : Nat) (text : List Char) : Prop :=
  text ≠ [] ∧ text.all (isDigitOf radix) = true

variable (group : List Char → Prop)

/-- A point with a group of digits on at least one side. -/
inductive PointFloat : List Char → Prop where
  /-- Digits before the point. -/
  | before {whole : List Char} (digits : group whole) : PointFloat (whole ++ ['.'])
  /-- Digits on both sides of the point. -/
  | between {whole part : List Char} (digits : group whole) (behind : group part) :
    PointFloat (whole ++ '.' :: part)
  /-- Digits behind the point. -/
  | behind {part : List Char} (digits : group part) : PointFloat ('.' :: part)

/-- What stands behind the letter of an exponent: a group of digits, with or without a sign. -/
inductive Exponent : List Char → Prop where
  /-- An exponent without a sign. -/
  | plain {digits : List Char} (behind : group digits) : Exponent digits
  /-- An exponent with a sign. -/
  | signed {sign : Char} {digits : List Char} (known : sign = '+' ∨ sign = '-')
    (behind : group digits) : Exponent (sign :: digits)

/-- A number with a point, or a number with an exponent. -/
inductive Floating : List Char → Prop where
  /-- A number with a point alone. -/
  | point {text : List Char} (float : PointFloat group text) : Floating text
  /-- A number with an exponent. -/
  | scaled {front tail : List Char} (mantissa : group front ∨ PointFloat group front)
    (exponent : Exponent group tail) : Floating (front ++ 'e' :: tail)

/-- A decimal number: of groups of digits, by kind. An integer has no zero in front, unless all of
its digits are zero. -/
inductive DecimalNumeral : NumeralKind → List Char → Prop where
  /-- An integer. -/
  | integer {text : List Char} (digits : group text)
    (leading : text.head? ≠ some '0' ∨ ∀ c ∈ text, c = '0' ∨ c = '_') : DecimalNumeral .integer text
  /-- A floating-point number. -/
  | float {text : List Char} (float : Floating group text) : DecimalNumeral .float text
  /-- An imaginary number. -/
  | imaginary {text : List Char} (value : group text ∨ Floating group text) :
    DecimalNumeral .imaginary (text ++ ['j'])

/-- A mantissa: a group of digits, or a number with a point. -/
def Mantissa (text : List Char) : Prop := group text ∨ PointFloat group text

/-- What stands behind a mantissa: nothing, or an exponent. -/
def Tail (text : List Char) : Prop :=
  text = [] ∨ ∃ exponent, text = 'e' :: exponent ∧ Exponent group exponent

/-- A group or a floating-point number is a mantissa and what may stand behind it. -/
theorem floating_iff (text : List Char) :
    (group text ∨ Floating group text) ↔
      ∃ front tail, text = front ++ tail ∧ Mantissa group front ∧ Tail group tail := by
  constructor
  · rintro (digits | floating)
    · exact ⟨text, [], (List.append_nil text).symm, .inl digits, .inl rfl⟩
    · cases floating with
      | point float => exact ⟨text, [], (List.append_nil text).symm, .inr float, .inl rfl⟩
      | scaled mantissa exponent => exact ⟨_, _, rfl, mantissa, .inr ⟨_, rfl, exponent⟩⟩
  · rintro ⟨front, tail, rfl, mantissa, rfl | ⟨exponent, rfl, behind⟩⟩
    · rw [List.append_nil]
      exact mantissa.imp_right .point
    · exact .inr (.scaled mantissa behind)

variable {group} {admits : Char → Prop}

/-- The characters of a number with a point are those of its groups and the point. -/
theorem PointFloat.chars {text : List Char} (float : PointFloat group text)
    (inside : ∀ text, group text → ∀ c ∈ text, admits c) (point : admits '.') :
    ∀ c ∈ text, admits c := by
  cases float with
  | before whole => simpa [or_imp, forall_and, point] using inside _ whole
  | between whole part =>
    simpa [or_imp, forall_and, point] using ⟨inside _ whole, inside _ part⟩
  | behind part => simpa [or_imp, forall_and, point] using inside _ part

/-- The characters of a floating-point number are those of its groups and the marks around them. -/
theorem Floating.chars {text : List Char} (floating : Floating group text)
    (inside : ∀ text, group text → ∀ c ∈ text, admits c)
    (marks : ∀ c ∈ ['.', 'e', '+', '-'], admits c) : ∀ c ∈ text, admits c := by
  cases floating with
  | point float => exact float.chars inside (marks '.' (by decide))
  | @scaled front tail mantissa exponent =>
    have front_chars : ∀ c ∈ front, admits c :=
      mantissa.elim (inside front) fun float => float.chars inside (marks '.' (by decide))
    have tail_chars : ∀ c ∈ tail, admits c := by
      cases exponent with
      | plain behind => exact inside tail behind
      | signed known behind =>
        intro c member
        rcases List.mem_cons.1 member with rfl | member
        · exact marks c (by rcases known with rfl | rfl <;> decide)
        · exact inside _ behind c member
    intro c member
    rcases List.mem_append.1 member with member | member
    · exact front_chars c member
    · rcases List.mem_cons.1 member with rfl | member
      · exact marks 'e' (by decide)
      · exact tail_chars c member

/-- The characters of a decimal number are those of its groups and the marks around them. -/
theorem DecimalNumeral.chars {kind : NumeralKind} {text : List Char}
    (number : DecimalNumeral group kind text)
    (inside : ∀ text, group text → ∀ c ∈ text, admits c)
    (marks : ∀ c ∈ ['.', 'e', '+', '-', 'j'], admits c) : ∀ c ∈ text, admits c := by
  have others : ∀ c ∈ ['.', 'e', '+', '-'], admits c := fun c member =>
    marks c (List.mem_append_left ['j'] member)
  cases number with
  | integer digits _ => exact inside text digits
  | float floating => exact floating.chars inside others
  | imaginary value =>
    intro c member
    rcases List.mem_append.1 member with member | member
    · exact value.elim (fun digits => inside _ digits c member) fun floating =>
        floating.chars inside others c member
    · rw [List.mem_singleton.1 member]
      exact marks 'j' (by decide)

end Grammar

/-- A number literal in lower case. -/
inductive Numeral : NumeralKind → List Char → Prop where
  /-- An integer of a radix other than ten. -/
  | marked {radix : Nat} {digits : List Char} (known : radix ∈ [16, 8, 2])
    (group : DigitGroup radix digits) : Numeral .integer (radixPrefix radix ++ digits)
  /-- An integer of a radix other than ten, with an underscore before its first digit. -/
  | apart {radix : Nat} {digits : List Char} (known : radix ∈ [16, 8, 2])
    (group : DigitGroup radix digits) : Numeral .integer (radixPrefix radix ++ '_' :: digits)
  /-- A decimal number. -/
  | decimal {kind : NumeralKind} {text : List Char}
    (number : DecimalNumeral (DigitGroup 10) kind text) : Numeral kind text

end Literal

end Offside
