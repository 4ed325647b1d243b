import Mathlib.Data.List.Basic
import Offside.Proofs.Literal.Limbs
import Offside.Proofs.Literal.Pieces

/-!
# Integer literals

The positional value of an integer literal is stated apart from how it is read
(`WritesInteger`). A literal that is read as an integer has that value exactly, whether it is kept
as a word or as decimal digits (`decodeNumber_integer`).
-/
namespace Offside

open Text

namespace Literal

/-- The characters that announce a radix. Decimal digits are announced by none. -/
def radixPrefix : Nat → List Char
  | 16 => ['0', 'x']
  | 8 => ['0', 'o']
  | 2 => ['0', 'b']
  | _ => []

/-- A literal with letter case ignored and without its underscores. -/
def plainLiteral (text : String) : List Char :=
  (text.toList.map Char.toLower).filter (· != '_')

/-- A text writes an integer: letter case ignored and without its underscores, it is the mark of a
radix and digits below that radix, the most significant one first. -/
structure WritesInteger (text : String) (radix : Nat) (digits : List Nat) : Prop where
  /-- The radix is one that literals may have. -/
  radix_mem : radix ∈ [10, 16, 8, 2]
  /-- There is a digit. -/
  some_ : digits ≠ []
  /-- Each digit is below the radix. -/
  digits_lt : ∀ digit ∈ digits, digit < radix
  /-- The text is the mark and the digits. -/
  written : plainLiteral text = radixPrefix radix ++ digits.map Nat.digitChar

/-- A number is an integer. -/
inductive IsInteger : Number → Prop where
  /-- A word. -/
  | int (word : Narrow) : IsInteger (.int word)
  /-- The decimal digits of an integer that is no word. -/
  | big (digits : String) : IsInteger (.big digits)

section Digits

/-- A digit of the radix sixteen is a digit of every lower radix that it is below. -/
theorem digitValue?_of_sixteen {radix digit : Nat} {c : Char}
    (found : digitValue? 16 c = some digit) (below : digit < radix) :
    digitValue? radix c = some digit := by
  simp only [digitValue?, Option.ite_none_right_eq_some, Option.some.injEq] at found ⊢
  split_ifs at found ⊢ <;> omega

/-- Digits below a radix are read as their positional value. -/
theorem readDigits_map_digitChar {radix : Nat} (low : radix ≤ 16) {digits : List Nat}
    (below : ∀ digit ∈ digits, digit < radix) :
    readDigits radix (digits.map Nat.digitChar) = Nat.ofDigits radix digits.reverse := by
  rw [readDigits, Nat.ofDigits_eq_foldr, List.foldr_reverse, List.foldl_map]
  refine List.foldl_ext _ _ 0 fun value digit member => ?_
  have here := below digit member
  have found := digitValue?_of_sixteen
    (digitValue?_digitChar digit (Nat.lt_of_lt_of_le here low)) here
  rw [found, Option.getD_some, Nat.mul_comm, Nat.add_comm]
  rfl

/-- A character in lower case is no capital letter. -/
theorem not_capital_toLower (c : Char) : ¬(65 ≤ c.toLower.toNat ∧ c.toLower.toNat ≤ 90) := by
  unfold Char.toLower
  split
  · rename_i capital
    have least : 65 ≤ c.val.toNat := UInt32.le_iff_toNat_le.1 capital.1
    have most : c.val.toNat ≤ 90 := UInt32.le_iff_toNat_le.1 capital.2
    have moved : (c.val + 32).toNat = c.val.toNat + 32 := by
      rw [UInt32.toNat_add]
      exact Nat.mod_eq_of_lt (by rw [show UInt32.toNat 32 = 32 from rfl]; omega)
    intro range
    have still : (c.val + 32).toNat ≤ 90 := range.2
    omega
  · rename_i other
    exact fun range => other ⟨UInt32.le_iff_toNat_le.2 range.1, UInt32.le_iff_toNat_le.2 range.2⟩

/-- A digit in lower case is written for its value. -/
theorem digitChar_of_digitValue? {radix digit : Nat} (low : radix ≤ 16) {c : Char}
    (found : digitValue? radix c.toLower = some digit) : Nat.digitChar digit = c.toLower := by
  have below : digit < 16 := Nat.lt_of_lt_of_le (digitValue?_lt found) low
  simp only [digitValue?, Option.ite_none_right_eq_some, Option.some.injEq] at found
  by_cases digit_char : c.toLower.isDigit = true
  · rw [if_pos digit_char] at found
    rw [← found.2]
    exact digitChar_of_isDigit digit_char
  · rw [if_neg digit_char] at found
    by_cases letter : ('a' ≤ c.toLower && c.toLower ≤ 'f') = true
    · rw [if_pos letter] at found
      have written : ∀ value < 16, 10 ≤ value → Nat.digitChar value = Char.ofNat (value + 87) := by
        decide
      rw [Bool.and_eq_true, decide_eq_true_eq] at letter
      have least : 97 ≤ c.toLower.toNat := letter.1
      have value : digit + 87 = c.toLower.toNat := by
        rw [← found.2, show 'a'.toNat = 97 from rfl]
        omega
      rw [written digit below (by rw [← found.2]; exact Nat.le_add_left _ _), value,
        Char.ofNat_toNat]
    · rw [if_neg letter] at found
      have capital : ¬('A' ≤ c.toLower && c.toLower ≤ 'F') = true := by
        rw [Bool.and_eq_true, decide_eq_true_eq, decide_eq_true_eq]
        intro range
        have most : c.toLower.toNat ≤ 70 := range.2
        exact not_capital_toLower c ⟨range.1, Nat.le_trans most (by decide)⟩
      rw [if_neg capital] at found
      exact absurd found.1 (Nat.lt_irrefl radix)

/-- A digit of a radix up to ten is a decimal digit. -/
theorem isDigit_of_low {radix : Nat} (low : radix ≤ 10) {c : Char}
    (digit : isDigitOf radix c = true) : c.isDigit = true := by
  obtain ⟨value, found⟩ := Option.isSome_iff_exists.1 digit
  have below := digitValue?_lt found
  simp only [digitValue?, Option.ite_none_right_eq_some, Option.some.injEq] at found
  by_contra other
  rw [if_neg other] at found
  split_ifs at found <;> omega

/-- A digit of the radix ten is a decimal digit. -/
theorem isDigit_of_isDigitOf {c : Char} (digit : isDigitOf 10 c = true) : c.isDigit = true :=
  isDigit_of_low (Nat.le_refl 10) digit

/-- Decimal digits of a positive number are its decimal digits, if no zeros stand in front. -/
theorem toDigits_readDigits {digits : List Char} (all : digits.all (isDigitOf 10) = true)
    (fit : leadingZerosFit digits = true) (positive : 0 < readDigits 10 digits) :
    Nat.toDigits 10 (readDigits 10 digits) = digits := by
  have decimal : ∀ c ∈ digits, c.isDigit = true := fun c member =>
    isDigit_of_isDigitOf (List.all_eq_true.1 all c member)
  have zeros : ¬∀ c ∈ digits, c = '0' := by
    intro same
    rw [readDigits_eq_ofDigitChars decimal, List.eq_replicate_of_mem same,
      Nat.ofDigitChars_replicate_zero] at positive
    exact absurd positive (Nat.lt_irrefl 0)
  rw [readDigits_eq_ofDigitChars decimal]
  cases digits with
  | nil => exact absurd (fun c member => absurd member List.not_mem_nil) zeros
  | cons c rest =>
    have digit := decimal c List.mem_cons_self
    have range := range_of_isDigit digit
    have single : Nat.toDigits 10 (c.toNat - 48) = [c] := by
      rw [Nat.toDigits_of_lt_base (by omega), digitChar_of_isDigit digit]
    have leads : c ≠ '0' := by
      rintro rfl
      cases rest with
      | nil => exact zeros (by simp)
      | cons next more =>
        have all_zeros : ('0' :: next :: more).all (· == '0') = true := by
          simpa [leadingZerosFit] using fit
        exact zeros fun d member => by simpa using List.all_eq_true.1 all_zeros d member
    have some_ : 0 < c.toNat - 48 := by
      have apart : c.toNat ≠ 48 := fun same => leads (Char.toNat_inj.1 same)
      omega
    have longer := toDigits_append some_ fun d member => decimal d (List.mem_cons_of_mem c member)
    rw [single] at longer
    rw [Nat.ofDigitChars_cons, Nat.mul_zero, Nat.zero_add]
    exact longer.symm

end Digits

section Reading

/-- Digits that are read as an integer are read as the number that they write. -/
theorem readInteger?_eq_some {radix : Nat} (known : radix ∈ [10, 16, 8, 2]) {digits : List Char}
    (fit : radix = 10 → leadingZerosFit digits = true) {number : Number}
    (read : readInteger? radix digits = some number) :
    digits ≠ [] ∧ digits.all (isDigitOf radix) = true ∧
      number = .ofNat (readDigits radix digits) := by
  have low : 0 < radix ∧ radix ≤ 16 := by
    simp only [List.mem_cons, List.not_mem_nil, or_false] at known
    omega
  have checked : (digits.isEmpty || !digits.all (isDigitOf radix)) = false := by
    rw [Bool.eq_false_iff]
    intro wrong
    rw [readInteger?, wrong, if_pos rfl] at read
    contradiction
  rw [Bool.or_eq_false_iff, Bool.not_eq_false'] at checked
  obtain ⟨some_, all⟩ := checked
  refine ⟨List.isEmpty_eq_false_iff.1 some_, all, ?_⟩
  rw [readInteger?_of_digits some_ all] at read
  rw [← Option.some.inj read, ofNat_eq_elim]
  dsimp only
  cases word : Narrow.ofInt? (readDigits radix digits) with
  | some _ => rfl
  | none =>
    have positive : 0 < readDigits radix digits := by
      rw [Nat.pos_iff_ne_zero]
      intro zero
      rw [zero] at word
      contradiction
    have same : bigDigits radix digits = decimalDigits (readDigits radix digits) := by
      unfold bigDigits
      by_cases decimal : radix = 10
      · rw [if_pos decimal]
        subst decimal
        exact (toDigits_readDigits all (fit rfl) positive).symm
      · rw [if_neg decimal]
        exact toDecimal_eq low.1 low.2 all
    rw [same]

/-- A literal announces the radix ten, or it starts with the mark of another radix. -/
theorem radixOf_cases (literal : List Char) :
    radixOf literal = 10 ∨ radixOf literal ∈ [16, 8, 2] ∧
      ∃ rest, literal = radixPrefix (radixOf literal) ++ rest := by
  unfold radixOf
  split
  · exact .inr ⟨by decide, _, rfl⟩
  · exact .inr ⟨by decide, _, rfl⟩
  · exact .inr ⟨by decide, _, rfl⟩
  · exact .inl rfl

/-- A literal has a value exactly if a number is read. -/
theorem decodeNumber_ok_iff {text : String} {number : Number} :
    decodeNumber text = .ok number ↔ readNumber? text.toList = some number := by
  unfold decodeNumber
  cases readNumber? text.toList <;> simp

/-- The mark of a radix other than ten has no underscore in it. -/
theorem filter_radixPrefix {radix : Nat} (known : radix ∈ [16, 8, 2]) (rest : List Char) :
    (radixPrefix radix ++ rest).filter (· != '_') =
      radixPrefix radix ++ rest.filter (· != '_') := by
  rw [List.filter_append]
  simp only [List.mem_cons, List.not_mem_nil, or_false] at known
  rcases known with rfl | rfl | rfl <;> rfl

/-- The mark of a radix other than ten is two characters long. -/
theorem drop_radixPrefix {radix : Nat} (known : radix ∈ [16, 8, 2]) (rest : List Char) :
    (radixPrefix radix ++ rest).drop 2 = rest := by
  simp only [List.mem_cons, List.not_mem_nil, or_false] at known
  rcases known with rfl | rfl | rfl <;> rfl

/-- A literal that is read as an integer is the mark of a radix and digits of it, and it is read as
the number that these write. -/
theorem decodeNumber_eq_ok {text : String} {number : Number}
    (decoded : decodeNumber text = .ok number) (whole : IsInteger number) :
    ∃ radix digits, radix ∈ [10, 16, 8, 2] ∧ plainLiteral text = radixPrefix radix ++ digits ∧
      digits ≠ [] ∧ digits.all (isDigitOf radix) = true ∧
      number = .ofNat (readDigits radix digits) := by
  have read := decodeNumber_ok_iff.1 decoded
  have fits : underscoresFitIn (radixOf (text.toList.map Char.toLower))
      (text.toList.map Char.toLower) = true := by
    by_contra wrong
    rw [readNumber?, Bool.eq_false_iff.2 wrong, Bool.not_false, if_pos rfl] at read
    contradiction
  rw [readNumber?, fits, Bool.not_true, if_neg Bool.false_ne_true] at read
  cases radixOf_cases (text.toList.map Char.toLower) with
  | inl decimal =>
    rw [if_pos decimal, readDecimal?] at read
    have real : ¬(plainLiteral text).getLast? = some 'j' := by
      intro last
      rw [plainLiteral] at last
      rw [if_pos last] at read
      obtain ⟨value, -, rfl⟩ := Option.map_eq_some_iff.1 read
      contradiction
    have point : ¬((plainLiteral text).any fun c => c == '.' || c == 'e') = true := by
      intro inside
      rw [plainLiteral] at inside real
      rw [if_neg real, if_pos inside] at read
      obtain ⟨value, -, rfl⟩ := Option.map_eq_some_iff.1 read
      contradiction
    rw [plainLiteral] at real point
    rw [if_neg real, if_neg point] at read
    split at read
    · rename_i fit
      exact ⟨10, _, by decide, rfl, readInteger?_eq_some (by decide) (fun _ => fit) read⟩
    · contradiction
  | inr other =>
    obtain ⟨known, rest, marked⟩ := other
    have plain : plainLiteral text = _ := (congrArg _ marked).trans (filter_radixPrefix known rest)
    generalize radixOf (text.toList.map Char.toLower) = radix at known read plain
    have not_ten : ¬radix = 10 := by
      rintro rfl
      exact absurd known (by decide)
    rw [plainLiteral] at plain
    rw [if_neg not_ten, plain, drop_radixPrefix known] at read
    have integer := readInteger?_eq_some (List.mem_cons_of_mem 10 known)
      (fun ten => absurd ten not_ten) read
    exact ⟨radix, _, List.mem_cons_of_mem 10 known, plain, integer⟩

end Reading

/-- A text writes a value: that of the digits of an integer. -/
def WritesValue (text : String) (value : Nat) : Prop :=
  ∃ radix digits, WritesInteger text radix digits ∧ Nat.ofDigits radix digits.reverse = value

section Value

variable {text : String} {radix : Nat} {digits : List Nat}

/-- The radix of a text that writes an integer is the one it announces. -/
theorem WritesInteger.radixOf_eq (writes : WritesInteger text radix digits) :
    radixOf (plainLiteral text) = radix := by
  have known := writes.radix_mem
  rw [writes.written]
  simp only [List.mem_cons, List.not_mem_nil, or_false] at known
  rcases known with rfl | rfl | rfl | rfl
  · refine radixOf_of_digits fun c member => ?_
    obtain ⟨digit, inside, rfl⟩ := List.mem_map.1 member
    have decimal : ∀ value < 10, (Nat.digitChar value).isDigit = true := by decide
    exact decimal digit (writes.digits_lt digit inside)
  · rfl
  · rfl
  · rfl

/-- A text that writes an integer has one positional value. -/
theorem WritesInteger.value_unique {radix' : Nat} {digits' : List Nat}
    (writes : WritesInteger text radix digits) (again : WritesInteger text radix' digits') :
    Nat.ofDigits radix digits.reverse = Nat.ofDigits radix' digits'.reverse := by
  obtain rfl : radix = radix' := writes.radixOf_eq.symm.trans again.radixOf_eq
  have low : radix ≤ 16 := by
    have known := writes.radix_mem
    simp only [List.mem_cons, List.not_mem_nil, or_false] at known
    omega
  have same : digits.map Nat.digitChar = digits'.map Nat.digitChar :=
    List.append_cancel_left (writes.written.symm.trans again.written)
  rw [← readDigits_map_digitChar low writes.digits_lt, same,
    readDigits_map_digitChar low again.digits_lt]

/-- A literal that is read as an integer writes one, and it is read as the value that it writes. -/
theorem exists_writesInteger {number : Number} (decoded : decodeNumber text = .ok number)
    (whole : IsInteger number) :
    ∃ radix digits, WritesInteger text radix digits ∧
      number = .ofNat (Nat.ofDigits radix digits.reverse) := by
  obtain ⟨radix, chars, known, plain, some_, all, value⟩ := decodeNumber_eq_ok decoded whole
  have low : radix ≤ 16 := by
    simp only [List.mem_cons, List.not_mem_nil, or_false] at known
    omega
  have lower : ∀ c ∈ chars, ∃ d : Char, c = d.toLower := by
    intro c member
    have inside : c ∈ plainLiteral text := by
      rw [plain]
      exact List.mem_append_right _ member
    rw [plainLiteral, List.mem_filter, List.mem_map] at inside
    obtain ⟨⟨d, -, same⟩, -⟩ := inside
    exact ⟨d, same.symm⟩
  have spelled : (chars.filterMap (digitValue? radix)).map Nat.digitChar = chars := by
    clear plain some_ value
    induction chars with
    | nil => rfl
    | cons c rest ih =>
      rw [List.all_cons, Bool.and_eq_true] at all
      obtain ⟨digit, found⟩ := Option.isSome_iff_exists.1 all.1
      obtain ⟨d, rfl⟩ := lower c List.mem_cons_self
      rw [List.filterMap_cons_some found, List.map_cons, digitChar_of_digitValue? low found,
        ih all.2 fun c member => lower c (List.mem_cons_of_mem _ member)]
  have below : ∀ digit ∈ chars.filterMap (digitValue? radix), digit < radix := by
    intro digit member
    obtain ⟨c, -, found⟩ := List.mem_filterMap.1 member
    exact digitValue?_lt found
  refine ⟨radix, chars.filterMap (digitValue? radix), ⟨known, ?_, below, ?_⟩, ?_⟩
  · rintro none_
    rw [none_] at spelled
    exact some_ spelled.symm
  · rw [spelled, plain]
  · rw [← readDigits_map_digitChar low below, spelled, value]

end Value

/-- The number of a value that fits in a word is that word. -/
theorem ofNat_of_le {value : Nat} (fits : value ≤ 2 ^ 127 - 1) :
    ∃ word : Narrow, word.value = value ∧ Number.ofNat value = .int word := by
  have limit : wordLimit = 2 ^ 127 := by decide
  have range : -wordLimit ≤ (value : Int) ∧ (value : Int) < wordLimit := by
    rw [limit]
    omega
  refine ⟨⟨value, range.1, range.2⟩, rfl, ?_⟩
  rw [ofNat_eq_elim]
  dsimp only
  rw [Narrow.ofInt?, dif_pos range]
  rfl

/-- The number of a value that fits in no word is its decimal digits. -/
theorem ofNat_of_lt {value : Nat} (great : 2 ^ 127 - 1 < value) :
    Number.ofNat value = .big (String.ofList (Nat.toDigits 10 value)) := by
  have limit : wordLimit = 2 ^ 127 := by decide
  have range : ¬(-wordLimit ≤ (value : Int) ∧ (value : Int) < wordLimit) := by
    rw [limit]
    omega
  rw [ofNat_eq_elim]
  dsimp only
  rw [Narrow.ofInt?, dif_neg range]
  rfl

/-- A literal that is read as an integer writes one value, and it is read as exactly that value: as
a word if it fits, and as its decimal digits otherwise. Every other literal of the same value, in
whatever radix, is read as the same number. -/
theorem decodeNumber_integer {text : String} {number : Number}
    (decoded : decodeNumber text = .ok number) (whole : IsInteger number) :
    (∃! value, WritesValue text value) ∧
    ∀ value, WritesValue text value →
      (value ≤ 2 ^ 127 - 1 → ∃ word : Narrow, word.value = value ∧ number = .int word) ∧
      (2 ^ 127 - 1 < value → number = .big (String.ofList (Nat.toDigits 10 value))) ∧
      ∀ other same, decodeNumber other = .ok same → IsInteger same → WritesValue other value →
        same = number := by
  -- The number of every literal is a function of the value that the literal writes.
  have number_eq {text : String} {number : Number} (decoded : decodeNumber text = .ok number)
      (whole : IsInteger number) {value : Nat} (writes : WritesValue text value) :
      number = .ofNat value := by
    obtain ⟨radix, digits, own, exact_⟩ := exists_writesInteger decoded whole
    obtain ⟨radix', digits', again, rfl⟩ := writes
    rw [exact_, own.value_unique again]
  constructor
  · obtain ⟨radix, digits, writes, -⟩ := exists_writesInteger decoded whole
    refine ⟨_, ⟨radix, digits, writes, rfl⟩, ?_⟩
    rintro _ ⟨radix', digits', again, rfl⟩
    exact again.value_unique writes
  · intro value writes
    have here := number_eq decoded whole writes
    refine ⟨fun fits => ?_, fun great => ?_, fun other same decoded' whole' writes' => ?_⟩
    · obtain ⟨word, exact_, found⟩ := ofNat_of_le fits
      exact ⟨word, exact_, here.trans found⟩
    · exact here.trans (ofNat_of_lt great)
    · rw [here]
      exact number_eq decoded' whole' writes'

/-- A word in the radix sixteen, and the least integer that is no word. -/
theorem decodeNumber_integer_of_limit :
    decodeNumber "0X_fF" = .ok (.int ⟨255, by decide, by decide⟩) ∧
    (∃ word : Narrow, word.value = 255 ∧ Number.int ⟨255, by decide, by decide⟩ = .int word) ∧
    decodeNumber "170141183460469231731687303715884105728" =
      .ok (.big "170141183460469231731687303715884105728") ∧
    ∃! value, WritesValue "170141183460469231731687303715884105728" value := by
  have hex : decodeNumber "0X_fF" = .ok (.int ⟨255, by decide, by decide⟩) := by decide +kernel
  have writes : WritesValue "0X_fF" 255 :=
    ⟨16, [15, 15], ⟨by decide, by decide, by decide, by decide⟩, by decide⟩
  have decimal : decodeNumber "170141183460469231731687303715884105728" =
      .ok (.big "170141183460469231731687303715884105728") := by decide +kernel
  have word := ((decodeNumber_integer hex (.int _)).2 255 writes).1 (by decide)
  exact ⟨hex, word, decimal, (decodeNumber_integer decimal (.big _)).1⟩

end Literal

end Offside
