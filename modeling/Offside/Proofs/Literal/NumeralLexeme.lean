import Offside.Proofs.Literal.Numeral

/-!
# Number literals are lexemes

A numeral that starts as a number does is scanned as one token, unless it writes the letter of an
imaginary number as a capital (`isLexeme_numeral`). The scanners of numbers take a numeral in lower
case up to the end of its line, and letter case does not matter to them otherwise (`Munch.Folds`).
-/
namespace Offside

open Text Lexeme Literal

namespace Munch

/-- A scanner takes exactly a text where something stands behind it. -/
abbrev Takes (munch : Munch) (taken rest : List Char) : Prop :=
  munch (taken ++ rest) = (taken, rest)

section Taking

variable {first second : Munch} {head tail rest : List Char}

/-- Two scanners in order take what each of them takes. -/
theorem Takes.andThen (left : first.Takes head (tail ++ rest)) (right : second.Takes tail rest) :
    (first.andThen second).Takes (head ++ tail) rest := by
  rw [Takes, Munch.andThen, List.append_assoc, left]
  dsimp only
  rw [right]

/-- Two scanners in order take what the second one takes, where the first one takes nothing. -/
theorem Takes.skip (left : first.Takes [] (tail ++ rest)) (right : second.Takes tail rest) :
    (first.andThen second).Takes tail rest :=
  Takes.andThen left right

/-- A scanner behind a guard takes what the two take in order, where the guard takes something. -/
theorem Takes.guarded (some_ : head ≠ []) (left : first.Takes head (tail ++ rest))
    (right : second.Takes tail rest) : (first.guardedBy second).Takes (head ++ tail) rest := by
  have both := Takes.andThen left right
  rw [Takes] at both ⊢
  rw [Munch.guardedBy, if_neg, both]
  rw [List.append_assoc, left]
  exact some_

/-- A scanner behind a guard takes nothing where the guard takes nothing. -/
theorem Takes.unguarded (left : first.Takes [] rest) : (first.guardedBy second).Takes [] rest := by
  have empty : (first ([] ++ rest)).1 = [] := by rw [left]
  rw [Takes, Munch.guardedBy, if_pos empty]
  rfl

/-- Nothing is taken where no character of the class stands in front. -/
theorem one_takes_nothing {admits : Char → Bool} (stops : ∀ c ∈ rest.head?, admits c = false) :
    (one admits).Takes [] rest := by
  cases rest with
  | nil => rfl
  | cons c more => rw [Takes, List.nil_append, one, stops c rfl, if_neg Bool.false_ne_true]

/-- One character of the class is taken. -/
theorem one_takes {admits : Char → Bool} {c : Char} (admitted : admits c = true) :
    (one admits).Takes [c] rest := by
  rw [Takes, List.singleton_append, one, if_pos admitted]

end Taking

/-- Letter case does not matter to a scanner, but for the capital J. -/
def Folds (munch : Munch) : Prop :=
  ∀ text, 'J' ∉ text → munch (text.map Char.toLower) =
    ((munch text).1.map Char.toLower, (munch text).2.map Char.toLower)

section Folding

/-- A property of characters does not depend on their case if no capital has it otherwise than its
small letter. The capital J is left out. -/
theorem eq_toLower {α : Type} (property : Char → α)
    (capitals : ∀ index < 26, index ≠ 9 →
      property (Char.ofNat (index + 65)).toLower = property (Char.ofNat (index + 65)))
    {c : Char} (other : c ≠ 'J') : property c.toLower = property c := by
  by_cases capital : 65 ≤ c.toNat ∧ c.toNat ≤ 90
  · have same : Char.ofNat (c.toNat - 65 + 65) = c := by
      rw [Nat.sub_add_cancel capital.1, Char.ofNat_toNat]
    have index : c.toNat - 65 ≠ 9 := by
      intro nine
      have code : c.toNat = 'J'.toNat := by
        rw [show 'J'.toNat = 74 from rfl]
        omega
      exact other (Char.toNat_inj.1 code)
    have here := capitals (c.toNat - 65) (by omega) index
    rwa [same] at here
  · have lower : c.toLower = c := by
      unfold Char.toLower
      rw [dif_neg]
      exact fun range => capital
        ⟨UInt32.le_iff_toNat_le.1 range.1, UInt32.le_iff_toNat_le.1 range.2⟩
    rw [lower]

variable {admits : Char → Bool}

/-- Letter case does not matter to a scanner of a class to which it does not matter. -/
theorem many_folds (same : ∀ c, c ≠ 'J' → admits c.toLower = admits c) : (many admits).Folds := by
  intro text plain
  have class_eq : text.takeWhile (admits ∘ Char.toLower) = text.takeWhile admits ∧
      text.dropWhile (admits ∘ Char.toLower) = text.dropWhile admits := by
    induction text with
    | nil => exact ⟨rfl, rfl⟩
    | cons c rest ih =>
      rw [List.mem_cons, not_or] at plain
      have here := same c (Ne.symm plain.1)
      obtain ⟨taken, left⟩ := ih plain.2
      simp [List.takeWhile_cons, List.dropWhile_cons, here, taken, left]
  rw [many, many, List.takeWhile_map, List.dropWhile_map, class_eq.1, class_eq.2]

/-- Letter case does not matter to a scanner of one character of a class to which it does not
matter. -/
theorem one_folds (same : ∀ c, c ≠ 'J' → admits c.toLower = admits c) : (one admits).Folds := by
  intro text plain
  cases text with
  | nil => rfl
  | cons c rest =>
    rw [List.mem_cons, not_or] at plain
    rw [List.map_cons, one, one, same c (Ne.symm plain.1)]
    split <;> rfl

/-- Letter case does not matter to two scanners in order. -/
theorem andThen_folds {first second : Munch} (lossless : first.Lossless) (head : first.Folds)
    (tail : second.Folds) : (first.andThen second).Folds := by
  intro text plain
  have behind : 'J' ∉ (first text).2 := by
    intro member
    rw [← lossless text] at plain
    exact plain (List.mem_append_right _ member)
  rw [Munch.andThen, Munch.andThen, head text plain]
  dsimp only
  rw [tail _ behind, List.map_append]

/-- Letter case does not matter to a scanner behind a guard. -/
theorem guardedBy_folds {first second : Munch} (lossless : first.Lossless) (head : first.Folds)
    (tail : second.Folds) : (first.guardedBy second).Folds := by
  intro text plain
  have both := andThen_folds lossless head tail text plain
  rw [guardedBy, guardedBy, head text plain]
  by_cases empty : (first text).1 = []
  · rw [if_pos (by rw [empty]; rfl), if_pos empty]
    rfl
  · rw [if_neg (mt List.map_eq_nil_iff.1 empty), if_neg empty, both]

end Folding

end Munch

namespace Lexeme

section Folding

/-- Letter case does not matter to the mark of a radix if it does not matter to its letters. -/
theorem radixMark_folds {letters : List Char}
    (same : ∀ c, c ≠ 'J' → letters.contains c.toLower = letters.contains c) :
    (radixMark letters).Folds := by
  intro text plain
  cases text with
  | nil => rfl
  | cons c rest =>
    have zero : c.toLower = '0' ↔ c = '0' := by
      have other : c ≠ 'J' := fun capital => plain (by simp [capital])
      have here := Munch.eq_toLower (fun c => c == '0') (by decide) other
      rw [← beq_iff_eq, here, beq_iff_eq]
    by_cases first : c = '0'
    · subst first
      cases rest with
      | nil => rfl
      | cons d more =>
        rw [List.mem_cons, List.mem_cons, not_or, not_or] at plain
        have lower : '0'.toLower = '0' := rfl
        rw [List.map_cons, List.map_cons, lower, radixMark, radixMark,
          same d (Ne.symm plain.2.1)]
        split <;> rfl
    · have nothing (text : List Char) (other : text.head? ≠ some '0') :
          radixMark letters text = ([], text) := by
        unfold radixMark
        split
        · exact absurd rfl other
        · rfl
      rw [nothing (c :: rest) (by simpa using first)]
      exact nothing _ (by simpa [zero] using first)

/-- Letter case does not matter to the scanner of numbers. -/
theorem number_folds : number.Folds := by
  have part : ∀ c, c ≠ 'J' → isNumberPart c.toLower = isNumberPart c := fun c other =>
    Munch.eq_toLower isNumberPart (by decide) other
  have hexPart : ∀ c, c ≠ 'J' → isHexPart c.toLower = isHexPart c := fun c other =>
    Munch.eq_toLower isHexPart (by decide) other
  have point : (Munch.one (· == '.')).Folds := Munch.one_folds fun c other =>
    Munch.eq_toLower (· == '.') (by decide) other
  have letter : (Munch.one fun c => c == 'e' || c == 'E').Folds := Munch.one_folds fun c other =>
    Munch.eq_toLower (fun c => c == 'e' || c == 'E') (by decide) other
  have sign : (Munch.one fun c => c == '+' || c == '-').Folds := Munch.one_folds fun c other =>
    Munch.eq_toLower (fun c => c == '+' || c == '-') (by decide) other
  have unit : (Munch.one (· == 'j')).Folds := Munch.one_folds fun c other =>
    Munch.eq_toLower (· == 'j') (by decide) other
  have hexMark : (radixMark ['x', 'X']).Folds := radixMark_folds fun c other =>
    Munch.eq_toLower (['x', 'X'].contains ·) (by decide) other
  have otherMark : (radixMark ['o', 'O', 'b', 'B']).Folds := radixMark_folds fun c other =>
    Munch.eq_toLower (['o', 'O', 'b', 'B'].contains ·) (by decide) other
  have fraction_folds {isPart : Char → Bool}
      (same : ∀ c, c ≠ 'J' → isPart c.toLower = isPart c) : (fraction isPart).Folds :=
    Munch.guardedBy_folds (Munch.one_lossless _) point (Munch.many_folds same)
  have exponent_folds : exponent.Folds :=
    Munch.guardedBy_folds (Munch.one_lossless _) letter
      (Munch.andThen_folds (Munch.one_lossless _) sign (Munch.many_folds part))
  have hex : hexNumber.Folds :=
    Munch.guardedBy_folds (radixMark_lossless _) hexMark
      (Munch.andThen_folds (Munch.many_lossless _) (Munch.many_folds hexPart)
        (fraction_folds hexPart))
  have plain : plainNumber.Folds :=
    Munch.andThen_folds (radixMark_lossless _) otherMark
      (Munch.andThen_folds (Munch.many_lossless _) (Munch.many_folds part)
        (Munch.andThen_folds (fraction_lossless _) (fraction_folds part) exponent_folds))
  intro text allowed
  rw [number, number, hexMark text allowed]
  by_cases marked : (radixMark ['x', 'X'] text).1 = []
  · rw [if_pos (by rw [marked]; rfl), if_pos marked]
    exact Munch.andThen_folds plainNumber_lossless plain unit text allowed
  · rw [if_neg (mt List.map_eq_nil_iff.1 marked), if_neg marked]
    exact Munch.andThen_folds hexNumber_lossless hex unit text allowed

end Folding

section Taking

variable {rest : List Char}

/-- No mark of a radix is in front where no letter of one is in the text. -/
theorem radixMark_takes_nothing {letters : List Char} (apart : ∀ c ∈ rest, c ∉ letters) :
    (radixMark letters).Takes [] rest := by
  rw [Munch.Takes, List.nil_append]
  unfold radixMark
  split
  · rename_i c more
    have other : letters.contains c = false := by
      rw [Bool.eq_false_iff]
      intro member
      exact apart c (by simp) (List.contains_iff_mem.1 member)
    rw [other, if_neg Bool.false_ne_true]
  · rfl

/-- No fraction is in front where no point is. -/
theorem fraction_takes_nothing {isPart : Char → Bool} (stops : ∀ c ∈ rest.head?, c ≠ '.') :
    (fraction isPart).Takes [] rest :=
  Munch.Takes.unguarded (Munch.one_takes_nothing fun c first => by simpa using stops c first)

/-- A fraction is taken up to what is no part of it. -/
theorem fraction_takes {isPart : Char → Bool} {part : List Char}
    (all : ∀ c ∈ part, isPart c = true) (stops : ∀ c ∈ rest.head?, isPart c = false) :
    (fraction isPart).Takes ('.' :: part) rest :=
  Munch.Takes.guarded (List.cons_ne_nil '.' []) (Munch.one_takes rfl)
    (Munch.many_append all stops)

/-- The characters of a group of decimal digits are parts of a number. -/
theorem isNumberPart_of_mem {text : List Char} (group : DigitGroup 10 text) :
    ∀ c ∈ text, isNumberPart c = true := by
  intro c member
  rw [isNumberPart, Bool.or_eq_true, beq_iff_eq]
  exact (group.chars c member).imp_left isDigit_of_isDigitOf

/-- What goes on with no part of a number: it is none, and neither a point nor the letter e. -/
def EndsNumber (rest : List Char) : Prop :=
  ∀ c ∈ rest.head?, isNumberPart c = false ∧ c ≠ '.' ∧ c ≠ 'e' ∧ c ≠ 'E'

/-- What may stand behind a mantissa is taken as an exponent. -/
theorem exponent_takes {tail : List Char} (behind : Tail (DigitGroup 10) tail)
    (ends : EndsNumber rest) : exponent.Takes tail rest := by
  rcases behind with rfl | ⟨digits, rfl, exponent⟩
  · refine Munch.Takes.unguarded (Munch.one_takes_nothing fun c first => ?_)
    have other := ends c first
    simp [other]
  · have stops : ∀ c ∈ rest.head?, isNumberPart c = false := fun c first => (ends c first).1
    have letter : (Munch.one fun c => c == 'e' || c == 'E').Takes ['e'] (digits ++ rest) :=
      Munch.one_takes rfl
    refine Munch.Takes.guarded (List.cons_ne_nil 'e' []) letter ?_
    cases exponent with
    | plain group =>
      have taken := Munch.many_append (isNumberPart_of_mem group) stops
      refine Munch.Takes.skip (Munch.one_takes_nothing fun c first => ?_) taken
      obtain ⟨d, more, rfl, digit⟩ := group.head
      obtain rfl := Option.some.inj first
      have decimal := isDigit_of_isDigitOf digit
      rw [Bool.eq_false_iff]
      intro sign
      rw [Bool.or_eq_true, beq_iff_eq, beq_iff_eq] at sign
      rcases sign with rfl | rfl <;> exact absurd decimal (by decide)
    | signed known group =>
      have taken := Munch.many_append (isNumberPart_of_mem group) stops
      refine Munch.Takes.andThen (Munch.one_takes ?_) taken
      rcases known with rfl | rfl <;> rfl

/-- A mantissa and what may stand behind it are taken as digits, a fraction and an exponent. -/
theorem mantissa_takes {front tail : List Char} (mantissa : Mantissa (DigitGroup 10) front)
    (behind : Tail (DigitGroup 10) tail) (ends : EndsNumber rest) :
    ((Munch.many isNumberPart).andThen ((fraction isNumberPart).andThen exponent)).Takes
      (front ++ tail) rest := by
  have last := exponent_takes behind ends
  have stops : ∀ c ∈ (tail ++ rest).head?, isNumberPart c = false ∧ c ≠ '.' := by
    rcases behind with rfl | ⟨digits, rfl, -⟩
    · exact fun c first => ⟨(ends c first).1, (ends c first).2.1⟩
    · rintro _ ⟨⟩
      decide
  have stop : ∀ c ∈ (tail ++ rest).head?, isNumberPart c = false := fun c first =>
    (stops c first).1
  have point (more : List Char) : ∀ c ∈ ('.' :: more).head?, isNumberPart c = false := by
    rintro _ ⟨⟩
    rfl
  rcases mantissa with group | float
  · have none_ : (fraction isNumberPart).Takes [] (tail ++ rest) :=
      fraction_takes_nothing fun c first => (stops c first).2
    exact .andThen (Munch.many_append (isNumberPart_of_mem group) stop) (.skip none_ last)
  · cases float with
    | before whole =>
      have part : (fraction isNumberPart).Takes ['.'] (tail ++ rest) :=
        fraction_takes (by simp) stop
      rw [List.append_assoc]
      exact .andThen (Munch.many_append (isNumberPart_of_mem whole) (point _)) (.andThen part last)
    | between whole group =>
      have part := fraction_takes (isNumberPart_of_mem group) stop
      rw [List.append_assoc]
      exact .andThen (Munch.many_append (isNumberPart_of_mem whole) (point _)) (.andThen part last)
    | @behind part group =>
      have taken := fraction_takes (isNumberPart_of_mem group) stop
      have nothing : (Munch.many isNumberPart).Takes [] ('.' :: part ++ tail ++ rest) :=
        Munch.many_append (by simp) (point _)
      exact .skip nothing (.andThen taken last)

/-- A decimal number is a mantissa, an exponent that may be missing and a letter that may be. -/
theorem decimal_parts {kind : NumeralKind} {text : List Char}
    (decimal : DecimalNumeral (DigitGroup 10) kind text) :
    ∃ front tail unit, text = front ++ tail ++ unit ∧ Mantissa (DigitGroup 10) front ∧
      Tail (DigitGroup 10) tail ∧ (unit = [] ∨ unit = ['j']) := by
  have parts {text : List Char} (value : DigitGroup 10 text ∨ Floating (DigitGroup 10) text) :=
    (floating_iff (DigitGroup 10) text).1 value
  cases decimal with
  | integer group _ =>
    obtain ⟨front, tail, rfl, mantissa, behind⟩ := parts (.inl group)
    exact ⟨front, tail, [], by simp, mantissa, behind, .inl rfl⟩
  | float floating =>
    obtain ⟨front, tail, rfl, mantissa, behind⟩ := parts (.inr floating)
    exact ⟨front, tail, [], by simp, mantissa, behind, .inl rfl⟩
  | imaginary value =>
    obtain ⟨front, tail, rfl, mantissa, behind⟩ := parts value
    exact ⟨front, tail, ['j'], rfl, mantissa, behind, .inr rfl⟩

/-- A decimal number is taken up to the end of its line. -/
theorem number_takes_decimal {kind : NumeralKind} {text : List Char}
    (decimal : DecimalNumeral (DigitGroup 10) kind text) : number.Takes text ['\n'] := by
  have apart (letters : List Char) (known : letters ⊆ radixLetters) :
      (radixMark letters).Takes [] (text ++ ['\n']) := by
    refine radixMark_takes_nothing fun c member letter => ?_
    rcases List.mem_append.1 member with inside | last
    · exact decimal.unmarked c inside (known letter)
    · obtain rfl := List.mem_singleton.1 last
      exact absurd (known letter) (by decide)
  have hex := apart ['x', 'X'] (by decide)
  have other := apart ['o', 'O', 'b', 'B'] (by decide)
  obtain ⟨front, tail, unit, rfl, mantissa, behind, known⟩ := decimal_parts decimal
  have ends : EndsNumber (unit ++ ['\n']) := by
    rcases known with rfl | rfl
    all_goals
      rintro _ ⟨⟩
      decide
  have letter : (Munch.one (· == 'j')).Takes unit ['\n'] := by
    rcases known with rfl | rfl <;> rfl
  have body : plainNumber.Takes (front ++ tail) (unit ++ ['\n']) := by
    refine Munch.Takes.skip ?_ (mantissa_takes mantissa behind ends)
    rwa [List.append_assoc] at other
  have unmarked : (radixMark ['x', 'X'] (front ++ tail ++ unit ++ ['\n'])).1 = [] :=
    congrArg Prod.fst hex
  rw [Munch.Takes, number, if_pos unmarked]
  exact Munch.Takes.andThen body letter

/-- An integer behind the mark of a radix is taken up to the end of its line. -/
theorem number_takes_marked {radix : Nat} (known : radix ∈ [16, 8, 2]) {digits : List Char}
    (all : ∀ c ∈ digits, isDigitOf radix c = true ∨ c = '_') :
    number.Takes (radixPrefix radix ++ digits) ['\n'] := by
  have feed (isPart : Char → Bool) (refused : isPart '\n' = false) :
      ∀ c ∈ (['\n'] : List Char).head?, isPart c = false := by
    rintro _ ⟨⟩
    exact refused
  have letter : (Munch.one (· == 'j')).Takes [] ['\n'] := rfl
  by_cases sixteen : radix = 16
  · subst sixteen
    have parts : ∀ c ∈ digits, isHexPart c = true := fun c member => by
      rw [isHexPart, Bool.or_eq_true, beq_iff_eq]
      exact all c member
    have none_ : (fraction isHexPart).Takes [] ['\n'] := rfl
    have taken := Munch.Takes.andThen (Munch.many_append parts (feed isHexPart (by decide))) none_
    rw [List.append_nil] at taken
    have mark : (radixMark ['x', 'X']).Takes ['0', 'x'] (digits ++ ['\n']) := rfl
    have body : hexNumber.Takes (['0', 'x'] ++ digits) ['\n'] :=
      .guarded (List.cons_ne_nil _ _) mark taken
    have whole := Munch.Takes.andThen body letter
    rw [List.append_nil] at whole
    exact whole
  · have low : radix ≤ 10 := by
      simp only [List.mem_cons, List.not_mem_nil, or_false] at known
      omega
    have parts : ∀ c ∈ digits, isNumberPart c = true := fun c member => by
      rw [isNumberPart, Bool.or_eq_true, beq_iff_eq]
      exact (all c member).imp_left (isDigit_of_low low)
    have none_ : ((fraction isNumberPart).andThen exponent).Takes [] ['\n'] := rfl
    have taken :=
      Munch.Takes.andThen (Munch.many_append parts (feed isNumberPart (by decide))) none_
    rw [List.append_nil] at taken
    have mark : (radixMark ['o', 'O', 'b', 'B']).Takes (radixPrefix radix) (digits ++ ['\n']) ∧
        (radixMark ['x', 'X'] (radixPrefix radix ++ digits ++ ['\n'])).1 = [] := by
      simp only [List.mem_cons, List.not_mem_nil, or_false] at known
      rcases known.resolve_left sixteen with rfl | rfl
      · exact ⟨rfl, rfl⟩
      · exact ⟨rfl, rfl⟩
    have body : plainNumber.Takes (radixPrefix radix ++ digits) ['\n'] :=
      Munch.Takes.andThen mark.1 taken
    have whole := Munch.Takes.andThen body letter
    rw [List.append_nil] at whole
    rw [Munch.Takes, number, if_pos mark.2]
    exact whole

/-- A numeral in lower case is taken up to the end of its line. -/
theorem number_takes {kind : NumeralKind} {text : List Char} (numeral : Numeral kind text) :
    number.Takes text ['\n'] := by
  cases numeral with
  | marked known group => exact number_takes_marked known group.chars
  | apart known group => exact number_takes_marked known (by simpa using group.chars)
  | decimal number => exact number_takes_decimal number

end Taking

end Lexeme

section Numerals

variable {kind : NumeralKind} {text : String}

/-- A numeral without a capital J is taken up to the end of its line. -/
theorem number_takes_text (numeral : Numeral kind (text.toList.map Char.toLower))
    (small : 'J' ∉ text.toList) : Lexeme.number.Takes text.toList ['\n'] := by
  have allowed : 'J' ∉ text.toList ++ ['\n'] := by simpa using small
  have folded := number_folds (text.toList ++ ['\n']) allowed
  have lower := number_takes numeral
  have whole := number_lossless (text.toList ++ ['\n'])
  rw [Munch.Takes] at lower ⊢
  rw [List.map_append, List.map_singleton, show '\n'.toLower = '\n' from rfl, lower,
    Prod.mk.injEq] at folded
  have length_eq := congrArg List.length folded.1
  rw [List.length_map, List.length_map] at length_eq
  obtain ⟨taken, left⟩ := List.append_inj whole length_eq.symm
  exact Prod.ext taken left

/-- A literal that starts as a number does starts so where the end of a line follows. -/
theorem startsNumber_append {front : List Char} (starts : startsNumber front = true) :
    startsNumber (front ++ ['\n']) = true := by
  rcases startsNumber_cases starts with ⟨c, rest, rfl, digit⟩ | ⟨c, rest, rfl, digit⟩
  · exact digit
  · exact startsNumber_of_isDigit digit

/-- A literal that starts as a number does starts a logical line. -/
theorem startsLogical_of_startsNumber {front : List Char} (starts : startsNumber front = true) :
    front.head?.any startsLogical = true := by
  rcases startsNumber_cases starts with ⟨c, rest, rfl, digit⟩ | ⟨c, rest, rfl, digit⟩
  · rfl
  · exact startsLogical_of_class digit (by simp)

/-- A numeral that starts as a number does is one lexeme if it has no capital J. -/
theorem isLexeme_numeral (starts : startsNumber text.toList = true)
    (numeral : Numeral kind (text.toList.map Char.toLower)) (small : 'J' ∉ text.toList) :
    IsLexeme .number text := by
  have taken := number_takes_text numeral small
  refine ⟨?_, startsLogical_of_startsNumber starts, fun line => ?_⟩
  · have unbroken := number_avoidsBreak (text.toList ++ ['\n'])
    rwa [taken] at unbroken
  · exact Cursor.step_number (startsNumber_append starts) taken

end Numerals

namespace Literal

/-- Among the literals that start as a number does, exactly the numerals have a value, and it is of
their kind. A numeral without a capital J is one token, up to the end of its line and the end
mark. -/
theorem decodeNumber_numeral {text : String} (starts : startsNumber text.toList = true) :
    (∀ kind, (∃ number, decodeNumber text = .ok number ∧ kindOf number = kind) ↔
      Numeral kind (text.toList.map Char.toLower)) ∧
    ∀ kind, Numeral kind (text.toList.map Char.toLower) → 'J' ∉ text.toList →
      ∀ file, tokenize text file = .ok [⟨.number, text, 1, text ++ "\n"⟩,
        ⟨.newline, "", 1, text ++ "\n"⟩, .endMarker 1] := by
  constructor
  · exact decodeNumber_kind starts
  · intro kind numeral small file
    exact tokenize_lexeme (isLexeme_numeral starts numeral small) file

/-- An imaginary number with a point, an underscore and an exponent. -/
theorem decodeNumber_numeral_of_scaled :
    (∃ number, decodeNumber "1_0.5E-3j" = .ok number ∧ kindOf number = .imaginary) ∧
    tokenize "1_0.5E-3j" none = .ok [⟨.number, "1_0.5E-3j", 1, "1_0.5E-3j\n"⟩,
      ⟨.newline, "", 1, "1_0.5E-3j\n"⟩, .endMarker 1] := by
  have starts : startsNumber "1_0.5E-3j".toList = true := by decide
  have whole : DigitGroup 10 ['1', '_', '0'] := .apart rfl (.last rfl)
  have float : PointFloat (DigitGroup 10) ['1', '_', '0', '.', '5'] := .between whole (.last rfl)
  have exponent : Exponent (DigitGroup 10) ['-', '3'] := .signed (.inr rfl) (.last rfl)
  have scaled : Floating (DigitGroup 10) ['1', '_', '0', '.', '5', 'e', '-', '3'] :=
    .scaled (.inr float) exponent
  have numeral : Numeral .imaginary ("1_0.5E-3j".toList.map Char.toLower) := by
    have chars : "1_0.5E-3j".toList.map Char.toLower =
        ['1', '_', '0', '.', '5', 'e', '-', '3'] ++ ['j'] := by decide
    rw [chars]
    exact .decimal (.imaginary (.inr scaled))
  obtain ⟨valued, token⟩ := decodeNumber_numeral starts
  exact ⟨(valued .imaginary).2 numeral, token .imaginary numeral (by decide) none⟩

end Literal

end Offside
