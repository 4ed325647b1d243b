import Offside.Proofs.Layout.Fronts
import Offside.Proofs.Literal.Spacing

/-!
# Number literals are read by their grammar

A literal that starts as a number does is read as a number of a kind exactly if it is a numeral of
that kind (`decodeNumber_kind`).
-/
namespace Offside

open Text Lexeme

namespace Literal

section Readers

/-- Digits of the radix ten are decimal digits. -/
theorem digits_iff (text : List Char) :
    Digits 10 text ↔ text ≠ [] ∧ ∀ c ∈ text, c.isDigit = true := by
  have same (c : Char) : isDigitOf 10 c = true ↔ c.isDigit = true := by
    constructor
    · exact isDigit_of_isDigitOf
    · intro digit
      rw [isDigitOf, digitValue?_of_isDigit digit]
      rfl
  rw [Digits, List.all_eq_true]
  simp only [same]

/-- A sign is no digit, so that digits are read without one. -/
theorem readSign_digits {text : List Char} (digits : Digits 10 text) :
    readSign text = (false, text) := by
  have decimal := ((digits_iff text).1 digits).2
  unfold readSign
  split
  · exact absurd (decimal '-' List.mem_cons_self) (by decide)
  · exact absurd (decimal '+' List.mem_cons_self) (by decide)
  · rfl

/-- Digits stand behind the sign of an exponent. -/
theorem exponent_iff (text : List Char) :
    Exponent (Digits 10) text ↔ Digits 10 (readSign text).2 := by
  constructor
  · intro exponent
    cases exponent with
    | plain behind =>
      rw [readSign_digits behind]
      exact behind
    | signed known behind => rcases known with rfl | rfl <;> exact behind
  · intro digits
    unfold readSign at digits
    split at digits
    · exact .signed (.inr rfl) digits
    · exact .signed (.inl rfl) digits
    · exact .plain digits

/-- An exponent is read where one may stand. -/
theorem readExponent?_isSome (tail : List Char) :
    (readExponent? tail).isSome ↔ Tail (Digits 10) tail := by
  cases tail with
  | nil => exact iff_of_true rfl (.inl rfl)
  | cons c rest =>
    have letter : Tail (Digits 10) (c :: rest) ↔ c = 'e' ∧ Digits 10 (readSign rest).2 := by
      simp [Tail, exponent_iff]
    rw [letter, digits_iff, readExponent?]
    simp [Option.isSome_ite, and_assoc]

/-- A text starts with neither a digit nor a point. -/
def Ends (text : List Char) : Prop := ∀ c ∈ text.head?, c.isDigit = false ∧ c ≠ '.'

/-- What may stand behind a mantissa does not go on with it. -/
theorem Tail.ends {text : List Char} (tail : Tail (Digits 10) text) : Ends text := by
  rcases tail with rfl | ⟨exponent, rfl, -⟩
  · rintro _ ⟨⟩
  · rintro _ ⟨⟩
    decide

/-- Digits are taken up to what ends them. -/
theorem takeWhile_digits (front tail : List Char) (all : ∀ c ∈ front, c.isDigit = true)
    (ends : ∀ c ∈ tail.head?, c.isDigit = false) :
    (front ++ tail).takeWhile Char.isDigit = front ∧
      (front ++ tail).dropWhile Char.isDigit = tail := by
  have taken := Munch.many_append all ends
  exact ⟨congrArg Prod.fst taken, congrArg Prod.snd taken⟩

/-- A number without a point is read as its digits and its exponent. -/
theorem readScientific?_whole {whole tail : List Char} (all : ∀ c ∈ whole, c.isDigit = true)
    (ends : Ends tail) (negative : Bool) :
    (readScientific? negative (whole ++ tail)).isSome ↔
      whole ≠ [] ∧ (readExponent? tail).isSome := by
  obtain ⟨taken, left⟩ := takeWhile_digits whole tail all fun c front => (ends c front).1
  rw [readScientific?, taken, left]
  cases tail with
  | nil => cases whole <;> simp
  | cons c rest =>
    have other : c ≠ '.' := (ends c rfl).2
    cases whole <;> simp [other]

/-- A number with a point is read as the digits on both sides of it and its exponent. -/
theorem readScientific?_point (whole part tail : List Char)
    (all : ∀ c ∈ whole, c.isDigit = true) (all' : ∀ c ∈ part, c.isDigit = true)
    (ends : ∀ c ∈ tail.head?, c.isDigit = false) (negative : Bool) :
    (readScientific? negative (whole ++ '.' :: (part ++ tail))).isSome ↔
      (whole ≠ [] ∨ part ≠ []) ∧ (readExponent? tail).isSome := by
  obtain ⟨taken, left⟩ := takeWhile_digits whole ('.' :: (part ++ tail)) all (by rintro _ ⟨⟩; rfl)
  obtain ⟨taken', left'⟩ := takeWhile_digits part tail all' ends
  rw [readScientific?, taken, left]
  simp only [taken', left']
  cases whole with
  | nil => cases part <;> simp
  | cons c rest => simp

/-- A number without a point around it: its mantissa is digits on at least one side of a point. -/
theorem mantissa_point {whole part : List Char} (all : ∀ c ∈ whole, c.isDigit = true)
    (all' : ∀ c ∈ part, c.isDigit = true) (some_ : whole ≠ [] ∨ part ≠ []) :
    Mantissa (Digits 10) (whole ++ '.' :: part) := by
  right
  by_cases none_ : whole = []
  · subst none_
    exact .behind ((digits_iff part).2 ⟨some_.resolve_left (absurd rfl), all'⟩)
  · have digits := (digits_iff whole).2 ⟨none_, all⟩
    by_cases bare : part = []
    · rw [bare]
      exact .before digits
    · exact .between digits ((digits_iff part).2 ⟨bare, all'⟩)

/-- What is left behind the digits in front does not start with one. -/
theorem head?_dropWhile (text : List Char) :
    ∀ c ∈ (text.dropWhile Char.isDigit).head?, c.isDigit = false := by
  intro c front
  have first := List.head?_dropWhile_not Char.isDigit text
  rw [Option.mem_def.1 front] at first
  exact first

/-- Exactly the decimal numbers without kind are read. -/
theorem readScientific?_isSome (negative : Bool) (text : List Char) :
    (readScientific? negative text).isSome ↔
      Digits 10 text ∨ Floating (Digits 10) text := by
  rw [floating_iff]
  constructor
  · intro read
    have whole_digits : ∀ c ∈ text.takeWhile Char.isDigit, c.isDigit = true := fun c member =>
      List.mem_takeWhile_imp member
    have split := List.takeWhile_append_dropWhile (p := Char.isDigit) (l := text)
    have stops := head?_dropWhile text
    generalize text.takeWhile Char.isDigit = whole at whole_digits split
    generalize text.dropWhile Char.isDigit = behind at split stops
    subst split
    by_cases point : ∃ rest, behind = '.' :: rest
    · obtain ⟨rest, rfl⟩ := point
      have part_digits : ∀ c ∈ rest.takeWhile Char.isDigit, c.isDigit = true := fun c member =>
        List.mem_takeWhile_imp member
      have stops' := head?_dropWhile rest
      have split' := List.takeWhile_append_dropWhile (p := Char.isDigit) (l := rest)
      rw [← split'] at read ⊢
      rw [readScientific?_point _ _ _ whole_digits part_digits stops', readExponent?_isSome] at read
      refine ⟨whole ++ '.' :: rest.takeWhile Char.isDigit, rest.dropWhile Char.isDigit, ?_,
        mantissa_point whole_digits part_digits read.1, read.2⟩
      rw [List.append_assoc, List.cons_append]
    · have ends : Ends behind := by
        intro c front
        refine ⟨stops c front, ?_⟩
        rintro rfl
        cases behind with
        | nil => simp at front
        | cons d rest =>
          obtain rfl := Option.some.inj front
          exact point ⟨rest, rfl⟩
      rw [readScientific?_whole whole_digits ends, readExponent?_isSome] at read
      exact ⟨whole, behind, rfl, .inl ((digits_iff whole).2 ⟨read.1, whole_digits⟩), read.2⟩
  · rintro ⟨front, tail, rfl, mantissa, behind⟩
    have exponent := (readExponent?_isSome tail).2 behind
    have stops : ∀ c ∈ tail.head?, c.isDigit = false := fun c first => (behind.ends c first).1
    rcases mantissa with digits | float
    · obtain ⟨some_, all⟩ := (digits_iff front).1 digits
      exact (readScientific?_whole all behind.ends negative).2 ⟨some_, exponent⟩
    · cases float with
      | @before whole digits =>
        obtain ⟨some_, all⟩ := (digits_iff whole).1 digits
        rw [List.append_assoc]
        exact (readScientific?_point whole [] tail all (by simp) stops negative).2
          ⟨.inl some_, exponent⟩
      | @between whole part digits behind_ =>
        obtain ⟨some_, all⟩ := (digits_iff whole).1 digits
        rw [List.append_assoc]
        exact (readScientific?_point whole part tail all ((digits_iff part).1 behind_).2 stops
          negative).2 ⟨.inl some_, exponent⟩
      | @behind part digits =>
        obtain ⟨some_, all⟩ := (digits_iff part).1 digits
        exact (readScientific?_point [] part tail (by simp) all stops negative).2
          ⟨.inr some_, exponent⟩

/-- A text starts as a decimal number does: with a digit or a point. -/
def StartsDecimal (text : List Char) : Prop := ∃ c ∈ text.head?, c.isDigit = true ∨ c = '.'

/-- A text that starts as a decimal number does is read without a sign and as no word. -/
theorem readDouble?_isSome {text : List Char} (starts : StartsDecimal text) :
    (readDouble? text).isSome ↔ Digits 10 text ∨ Floating (Digits 10) text := by
  obtain ⟨c, front, first⟩ := starts
  cases text with
  | nil => contradiction
  | cons d rest =>
    obtain rfl : d = c := Option.some.inj front
    have apart : ∀ other ∈ ['-', '+', 'i', 'n'], d ≠ other := by
      have others : ∀ other ∈ ['-', '+', 'i', 'n'], ¬(other.isDigit = true ∨ other = '.') := by
        simp
      rintro other member rfl
      exact others _ member first
    have unsigned : readSign (d :: rest) = (false, d :: rest) := by
      unfold readSign
      split
      · rename_i same
        exact absurd (List.head_eq_of_cons_eq same) (apart '-' (by decide))
      · rename_i same
        exact absurd (List.head_eq_of_cons_eq same) (apart '+' (by decide))
      · rfl
    rw [← readScientific?_isSome false, readDouble?, unsigned]
    simp [apart 'i' (by decide), apart 'n' (by decide)]

/-- No character but a digit stands among digits. -/
theorem Digits.not_mem {text : List Char} (digits : Digits 10 text) {c : Char}
    (other : c.isDigit = false) : c ∉ text := by
  intro member
  rw [((digits_iff text).1 digits).2 c member] at other
  contradiction

/-- The letter of an imaginary number stands in no floating-point number. -/
theorem Floating.not_mem {text : List Char} (floating : Floating (Digits 10) text) :
    'j' ∉ text := by
  have others : ∀ c ∈ text, c ≠ 'j' :=
    floating.chars (fun _ digits c member same => digits.not_mem (by rw [same]; rfl) member)
      (by simp)
  exact fun member => others 'j' member rfl

/-- A point or the letter e stands in a floating-point number. -/
theorem Floating.mark {text : List Char} (floating : Floating (Digits 10) text) :
    (text.any fun c => c == '.' || c == 'e') = true := by
  have point {text : List Char} (float : PointFloat (Digits 10) text) : '.' ∈ text := by
    cases float <;> simp
  rw [List.any_eq_true]
  cases floating with
  | point float => exact ⟨'.', point float, rfl⟩
  | scaled mantissa exponent => exact ⟨'e', by simp, rfl⟩

/-- Neither a point nor the letter e stands among digits. -/
theorem Digits.unmarked {text : List Char} (digits : Digits 10 text) :
    (text.any fun c => c == '.' || c == 'e') = false := by
  rw [List.any_eq_false]
  intro c member mark
  rw [Bool.or_eq_true, beq_iff_eq, beq_iff_eq] at mark
  rcases mark with rfl | rfl
  · exact digits.not_mem (by decide) member
  · exact digits.not_mem (by decide) member

/-- Zeros in front of an integer fit where it does not start with one, or has no other digits. -/
theorem leadingZerosFit_iff {text : List Char} (digits : Digits 10 text) :
    leadingZerosFit text = true ↔ text.head? ≠ some '0' ∨ ∀ c ∈ text, c = '0' ∨ c = '_' := by
  have zeros : text.all (· == '0') = true ↔ ∀ c ∈ text, c = '0' ∨ c = '_' := by
    rw [List.all_eq_true]
    constructor
    · exact fun all c member => .inl (beq_iff_eq.1 (all c member))
    · intro all c member
      have other : c ≠ '_' := by
        rintro rfl
        exact digits.not_mem (by decide) member
      exact beq_iff_eq.2 ((all c member).resolve_right other)
  rw [leadingZerosFit, Bool.or_eq_true, Bool.or_eq_true, zeros, bne_iff_ne, decide_eq_true_eq,
    or_assoc]
  refine or_iff_right_of_imp fun short => ?_
  cases text with
  | nil => exact absurd rfl digits.1
  | cons c rest =>
    have alone : rest = [] := List.length_eq_zero_iff.1 (by simpa using short)
    subst alone
    by_cases zero : c = '0'
    · exact .inr (by simp [zero])
    · exact .inl (by simpa using zero)

/-- Exactly digits are read as an integer. -/
theorem readInteger?_kind (radix : Nat) (digits : List Char) (kind : NumeralKind) :
    (∃ number, readInteger? radix digits = some number ∧ kindOf number = kind) ↔
      Digits radix digits ∧ kind = .integer := by
  by_cases checked : digits.isEmpty = false ∧ digits.all (isDigitOf radix) = true
  · obtain ⟨some_, all⟩ := checked
    rw [readInteger?_of_digits some_ all]
    have same (word : Option Narrow) (text : String) :
        kindOf (word.elim (.big text) .int) = .integer := by
      cases word <;> rfl
    have inside : Digits radix digits := ⟨List.isEmpty_eq_false_iff.1 some_, all⟩
    simp [same, inside, eq_comm]
  · have none_ : readInteger? radix digits = none := by
      rw [readInteger?, if_pos]
      rw [Bool.or_eq_true, Bool.not_eq_true']
      by_cases empty : digits.isEmpty = true
      · exact .inl empty
      · exact .inr (Bool.eq_false_iff.2 fun all => checked ⟨Bool.eq_false_iff.2 empty, all⟩)
    have outside : ¬Digits radix digits := fun inside =>
      checked ⟨List.isEmpty_eq_false_iff.2 inside.1, inside.2⟩
    simp [none_, outside]

/-- What is made of a double that is read is of one kind. -/
theorem map_kind {read : Option Double} (make : Double → Number) (made : NumeralKind)
    (kind_eq : ∀ value, kindOf (make value) = made) (kind : NumeralKind) :
    (∃ number, read.map make = some number ∧ kindOf number = kind) ↔
      read.isSome ∧ kind = made := by
  cases read <;> simp [kind_eq, eq_comm]

section Kinds

variable {text : List Char} {kind : NumeralKind}

/-- The numbers that end in the letter j are the imaginary ones. -/
theorem decimalNumeral_imaginary_iff :
    DecimalNumeral (Digits 10) kind (text ++ ['j']) ↔
      (Digits 10 text ∨ Floating (Digits 10) text) ∧ kind = .imaginary := by
  constructor
  · intro number
    generalize whole : text ++ ['j'] = written at number
    have inside : 'j' ∈ written := by simp [← whole]
    cases number with
    | integer digits _ => exact absurd inside (digits.not_mem (by decide))
    | float floating => exact absurd inside floating.not_mem
    | imaginary value =>
      obtain rfl := List.append_cancel_right whole
      exact ⟨value, rfl⟩
  · rintro ⟨value, rfl⟩
    exact .imaginary value

/-- The others with a point or an exponent are floating-point numbers. -/
theorem decimalNumeral_float_iff (last : text.getLast? ≠ some 'j')
    (mark : (text.any fun c => c == '.' || c == 'e') = true) :
    DecimalNumeral (Digits 10) kind text ↔
      (Digits 10 text ∨ Floating (Digits 10) text) ∧ kind = .float := by
  have apart : ¬Digits 10 text := fun digits => by
    rw [digits.unmarked] at mark
    contradiction
  constructor
  · intro number
    cases number with
    | integer digits _ => exact absurd digits apart
    | float floating => exact ⟨.inr floating, rfl⟩
    | imaginary value => exact absurd (by simp) last
  · rintro ⟨value, rfl⟩
    exact .float (value.resolve_left apart)

/-- The others are integers. -/
theorem decimalNumeral_integer_iff (last : text.getLast? ≠ some 'j')
    (mark : ¬(text.any fun c => c == '.' || c == 'e') = true) :
    DecimalNumeral (Digits 10) kind text ↔
      (Digits 10 text ∧ leadingZerosFit text = true) ∧ kind = .integer := by
  constructor
  · intro number
    cases number with
    | integer digits leading => exact ⟨⟨digits, (leadingZerosFit_iff digits).2 leading⟩, rfl⟩
    | float floating => exact absurd floating.mark mark
    | imaginary value => exact absurd (by simp) last
  · rintro ⟨⟨digits, fit⟩, rfl⟩
    exact .integer digits ((leadingZerosFit_iff digits).1 fit)

end Kinds

/-- A decimal number in front of the letter j starts as the whole does. -/
theorem StartsDecimal.of_concat {front : List Char} (starts : StartsDecimal (front ++ ['j'])) :
    StartsDecimal front := by
  obtain ⟨c, leads, first⟩ := starts
  cases front with
  | nil =>
    obtain rfl := Option.some.inj leads
    exact absurd first (by decide)
  | cons d rest => exact ⟨c, leads, first⟩

/-- Exactly the decimal numbers of a kind are read as a number of that kind. -/
theorem readDecimal?_kind {text : List Char} (starts : StartsDecimal text) (kind : NumeralKind) :
    (∃ number, readDecimal? text = some number ∧ kindOf number = kind) ↔
      DecimalNumeral (Digits 10) kind text := by
  rw [readDecimal?]
  by_cases last : text.getLast? = some 'j'
  · obtain ⟨front, rfl⟩ := List.getLast?_eq_some_iff.1 last
    rw [if_pos last, List.dropLast_concat, map_kind .imaginary .imaginary fun _ => rfl,
      readDouble?_isSome starts.of_concat, decimalNumeral_imaginary_iff]
  rw [if_neg last]
  by_cases mark : (text.any fun c => c == '.' || c == 'e') = true
  · rw [if_pos mark, map_kind .float .float fun _ => rfl, readDouble?_isSome starts,
      decimalNumeral_float_iff last mark]
  rw [if_neg mark, decimalNumeral_integer_iff last mark]
  by_cases fit : leadingZerosFit text = true
  · rw [if_pos fit, readInteger?_kind, and_iff_left fit]
  · rw [if_neg fit]
    simp [fit]

end Readers

section Decoding

/-- The characters of a group are its digits and underscores. -/
theorem DigitGroup.chars {radix : Nat} {text : List Char} (group : DigitGroup radix text) :
    ∀ c ∈ text, isDigitOf radix c = true ∨ c = '_' := by
  induction group with
  | last digit => simp [digit]
  | next digit _ ih => simpa [digit] using ih
  | apart digit _ ih => simpa [digit] using ih

/-- The letters of radixes, in both cases. -/
def radixLetters : List Char := ['x', 'o', 'b', 'X', 'O', 'B']

/-- No letter of a radix stands in a decimal number. -/
theorem DecimalNumeral.unmarked {kind : NumeralKind} {text : List Char}
    (number : DecimalNumeral (DigitGroup 10) kind text) : ∀ c ∈ text, c ∉ radixLetters := by
  refine number.chars (fun text group c member letter => ?_) (by simp [radixLetters])
  have apart : radixLetters.all (fun c => !(isDigitOf 10 c || c == '_')) = true := by decide
  have here := List.all_eq_true.1 apart c letter
  rcases group.chars c member with digit | underscore
  · simp [digit] at here
  · simp [underscore] at here

variable {radix : Nat}

/-- The mark of a radix announces it. -/
theorem radixOf_radixPrefix (known : radix ∈ [16, 8, 2]) (rest : List Char) :
    radixOf (radixPrefix radix ++ rest) = radix := by
  simp only [List.mem_cons, List.not_mem_nil, or_false] at known
  rcases known with rfl | rfl | rfl <;> rfl

/-- A letter of a radix other than ten stands in its mark. -/
theorem exists_mem_radixPrefix (known : radix ∈ [16, 8, 2]) :
    ∃ c ∈ radixPrefix radix, c ∈ radixLetters := by
  simp only [List.mem_cons, List.not_mem_nil, or_false] at known
  rcases known with rfl | rfl | rfl
  · exact ⟨'x', by decide, by decide⟩
  · exact ⟨'o', by decide, by decide⟩
  · exact ⟨'b', by decide, by decide⟩

/-- Behind the mark of a radix stands a group of digits, or an underscore and a group. -/
theorem marked_iff (rest : List Char) :
    (underscoresFit radix true rest = true ∧ Digits radix (rest.filter (· != '_'))) ↔
      DigitGroup radix rest ∨ ∃ digits, rest = '_' :: digits ∧ DigitGroup radix digits := by
  constructor
  · rintro ⟨fit, digits⟩
    cases rest with
    | nil => exact absurd rfl digits.1
    | cons c more =>
      by_cases underscore : c = '_'
      · subst underscore
        rw [underscoresFit, if_pos rfl, Bool.and_eq_true] at fit
        rw [List.filter_cons_of_neg (by simp)] at digits
        exact .inr ⟨more, rfl, Spaces.group ⟨fit.2, rfl⟩ digits⟩
      · have fit' : underscoresFit radix false (c :: more) = true := by
          rw [underscoresFit, if_neg underscore] at fit ⊢
          exact fit
        exact .inl (Spaces.group ⟨fit', rfl⟩ digits)
  · rintro (group | ⟨digits, rfl, group⟩)
    · obtain ⟨_, ⟨fit, rfl⟩, digits⟩ := group.spaces
      obtain ⟨c, more, rfl, first⟩ := group.head
      rw [underscoresFit_digit first] at fit
      exact ⟨by rw [underscoresFit_digit first, fit], digits⟩
    · obtain ⟨_, ⟨fit, rfl⟩, all⟩ := group.spaces
      obtain ⟨c, more, rfl, first⟩ := group.head
      refine ⟨?_, ?_⟩
      · rw [underscoresFit, if_pos rfl, fit]
        simp [first]
      · rw [List.filter_cons_of_neg (by simp)]
        exact all

/-- A literal with the mark of a radix is a numeral exactly if a group of digits stands behind it,
and it is an integer then. -/
theorem numeral_radixPrefix_iff (known : radix ∈ [16, 8, 2]) (rest : List Char)
    (kind : NumeralKind) :
    Numeral kind (radixPrefix radix ++ rest) ↔
      (DigitGroup radix rest ∨ ∃ digits, rest = '_' :: digits ∧ DigitGroup radix digits) ∧
        kind = .integer := by
  constructor
  · intro numeral
    generalize whole : radixPrefix radix ++ rest = text at numeral
    cases numeral with
    | @marked radix' digits known' group =>
      have same := radixOf_radixPrefix known rest
      rw [whole, radixOf_radixPrefix known'] at same
      subst same
      obtain rfl := List.append_cancel_left whole
      exact ⟨.inl group, rfl⟩
    | @apart radix' digits known' group =>
      have same := radixOf_radixPrefix known rest
      rw [whole, radixOf_radixPrefix known'] at same
      subst same
      obtain rfl := List.append_cancel_left whole
      exact ⟨.inr ⟨digits, rfl, group⟩, rfl⟩
    | decimal number =>
      obtain ⟨c, member, letter⟩ := exists_mem_radixPrefix known
      subst whole
      exact absurd letter (number.unmarked c (List.mem_append_left rest member))
  · rintro ⟨group | ⟨digits, rfl, group⟩, rfl⟩
    · exact .marked known group
    · exact .apart known group

/-- A literal without the mark of a radix is a numeral exactly if it is a decimal number. -/
theorem numeral_decimal_iff {text : List Char} (decimal : radixOf text = 10) (kind : NumeralKind) :
    Numeral kind text ↔ DecimalNumeral (DigitGroup 10) kind text := by
  have apart {radix : Nat} (known : radix ∈ [16, 8, 2]) (rest : List Char)
      (same : radixOf (radixPrefix radix ++ rest) = 10) : False := by
    rw [radixOf_radixPrefix known] at same
    subst same
    exact absurd known (by decide)
  constructor
  · intro numeral
    cases numeral with
    | marked known group => exact (apart known _ decimal).elim
    | apart known group => exact (apart known _ decimal).elim
    | decimal number => exact number
  · exact .decimal

/-- A literal that starts as a number does starts so in lower case and without underscores. -/
theorem startsDecimal_of_startsNumber {text : List Char} (starts : startsNumber text = true) :
    StartsDecimal ((text.map Char.toLower).filter (· != '_')) := by
  have first : ∃ c rest, text = c :: rest ∧ (c.isDigit = true ∨ c = '.') := by
    rcases startsNumber_cases starts with ⟨c, rest, rfl, -⟩ | ⟨c, rest, rfl, digit⟩
    · exact ⟨'.', c :: rest, rfl, .inr rfl⟩
    · exact ⟨c, rest, rfl, .inl digit⟩
  obtain ⟨c, rest, rfl, front⟩ := first
  have lower : c.toLower = c := by
    rcases front with digit | rfl
    · exact toLower_of_isDigit digit
    · rfl
  have kept : c ≠ '_' := by
    rintro rfl
    exact absurd front (by decide)
  rw [List.map_cons, lower, filter_kept kept]
  exact ⟨c, rfl, front⟩

/-- A literal that starts as a number does is read as a number of a kind exactly if it is a numeral
of that kind. -/
theorem decodeNumber_kind {text : String} (starts : startsNumber text.toList = true)
    (kind : NumeralKind) :
    (∃ number, decodeNumber text = .ok number ∧ kindOf number = kind) ↔
      Numeral kind (text.toList.map Char.toLower) := by
  have leads := startsDecimal_of_startsNumber starts
  simp only [decodeNumber_ok_iff]
  rw [readNumber?]
  generalize text.toList.map Char.toLower = lower at leads ⊢
  cases radixOf_cases lower with
  | inl decimal =>
    rw [numeral_decimal_iff decimal, DecimalNumeral.lifts, decimal, underscoresFitIn, if_pos rfl]
    by_cases fit : underscoresFit 10 false lower = true
    · rw [fit, Bool.not_true, if_neg Bool.false_ne_true, if_pos rfl, readDecimal?_kind leads]
      constructor
      · exact fun number => ⟨_, ⟨fit, rfl⟩, number⟩
      · rintro ⟨_, ⟨-, rfl⟩, number⟩
        exact number
    · rw [Bool.eq_false_iff.2 fit, Bool.not_false, if_pos rfl]
      constructor
      · rintro ⟨_, none_, -⟩
        contradiction
      · rintro ⟨_, ⟨fits, -⟩, -⟩
        exact absurd fits fit
  | inr other =>
    obtain ⟨known, rest, marked⟩ := other
    generalize radixOf lower = radix at known marked
    subst marked
    have not_ten : ¬radix = 10 := by
      rintro rfl
      exact absurd known (by decide)
    rw [numeral_radixPrefix_iff known, ← marked_iff, underscoresFitIn, if_neg not_ten,
      drop_radixPrefix known, filter_radixPrefix known, drop_radixPrefix known]
    by_cases fit : underscoresFit radix true rest = true
    · rw [fit, Bool.not_true, if_neg Bool.false_ne_true, if_neg not_ten, readInteger?_kind]
      simp
    · rw [Bool.eq_false_iff.2 fit, Bool.not_false, if_pos rfl]
      simp

end Decoding

end Literal

end Offside
