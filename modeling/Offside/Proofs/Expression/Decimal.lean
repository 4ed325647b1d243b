import Offside.Literal.Numeric

/-!
# Decimal literals

The decimal digits of an integer are a literal of that integer
(`Literal.decodeNumber_decimalText`).
-/
namespace Offside

open Text

namespace Literal

/-- A decimal digit lies between zero and nine. -/
theorem range_of_isDigit {c : Char} (digit : c.isDigit = true) : 48 ≤ c.toNat ∧ c.toNat ≤ 57 :=
  Char.isDigit_iff_toNat.1 digit

/-- The value of a decimal digit in the radix ten. -/
theorem digitValue?_of_isDigit {c : Char} (digit : c.isDigit = true) :
    digitValue? 10 c = some (c.toNat - '0'.toNat) := by
  have range := range_of_isDigit digit
  have small : c.toNat - '0'.toNat < 10 := by
    rw [show '0'.toNat = 48 from rfl]
    omega
  unfold digitValue?
  simp only [digit, if_true]
  rw [if_pos small]

/-- A decimal digit is in lower case. -/
theorem toLower_of_isDigit {c : Char} (digit : c.isDigit = true) : c.toLower = c := by
  have range := range_of_isDigit digit
  unfold Char.toLower
  rw [dif_neg]
  rintro ⟨least, -⟩
  have great : 65 ≤ c.toNat := UInt32.le_iff_toNat_le.1 least
  omega

/-- Decimal digits are read as the number that they write. -/
theorem readDigits_eq_ofDigitChars {digits : List Char}
    (decimal : ∀ c ∈ digits, c.isDigit = true) :
    readDigits 10 digits = Nat.ofDigitChars 10 digits 0 := by
  have fold (value : Nat) :
      digits.foldl (fun value c => value * 10 + (digitValue? 10 c).getD 0) value =
        digits.foldl (fun value c => 10 * value + (c.toNat - '0'.toNat)) value := by
    induction digits generalizing value with
    | nil => rfl
    | cons c rest ih =>
      have here := digitValue?_of_isDigit (decimal c List.mem_cons_self)
      rw [List.foldl_cons, List.foldl_cons, here, Option.getD_some, Nat.mul_comm,
        ih fun d member => decimal d (List.mem_cons_of_mem c member)]
  rw [readDigits, Nat.ofDigitChars_eq_foldl, fold]

/-- The decimal digits of a positive number do not start with zero. -/
theorem head?_toDigits {value : Nat} (positive : 0 < value) :
    (Nat.toDigits 10 value).head? ≠ some '0' := by
  induction value using Nat.strongRecOn with
  | ind value ih =>
    by_cases small : value < 10
    · have digits : ∀ digit < 10, 0 < digit → some (Nat.digitChar digit) ≠ some '0' := by decide
      rw [Nat.toDigits_of_lt_base small, List.head?_cons]
      exact digits value small positive
    · have great : 10 ≤ value := by omega
      have shorter := ih (value / 10) (by omega) (by omega)
      rw [Nat.toDigits_of_base_le (by decide) great, List.head?_append]
      cases front : (Nat.toDigits 10 (value / 10)).head? with
      | none => exact absurd (List.head?_eq_none_iff.1 front) Nat.toDigits_ne_nil
      | some digit =>
        rw [front] at shorter
        exact shorter

/-- A character that is no digit does not stand among decimal digits. -/
theorem not_mem_toDigits {c : Char} (other : c.isDigit = false) (value : Nat) :
    c ∉ Nat.toDigits 10 value := by
  intro member
  rw [Nat.isDigit_of_mem_toDigits (by decide) (by decide) member] at other
  contradiction

/-- A literal of decimal digits announces no radix. -/
theorem radixOf_of_digits {digits : List Char} (decimal : ∀ c ∈ digits, c.isDigit = true) :
    radixOf digits = 10 := by
  unfold radixOf
  split
  · exact absurd (decimal 'x' (by simp)) (by decide)
  · exact absurd (decimal 'o' (by simp)) (by decide)
  · exact absurd (decimal 'b' (by simp)) (by decide)
  · rfl

/-- Underscores fit in a literal without any. -/
theorem underscoresFit_of_not_mem {radix : Nat} {literal : List Char} (bare : '_' ∉ literal)
    (mayStand : Bool) : underscoresFit radix mayStand literal = true := by
  induction literal generalizing mayStand with
  | nil => rfl
  | cons c rest ih =>
    rw [List.mem_cons, not_or] at bare
    rw [underscoresFit, if_neg (Ne.symm bare.1)]
    exact ih bare.2 _

/-- No zeros stand in front of the decimal digits of a number. -/
theorem leadingZerosFit_toDigits (value : Nat) :
    leadingZerosFit (Nat.toDigits 10 value) = true := by
  unfold leadingZerosFit
  cases value with
  | zero => rfl
  | succ value => simp [head?_toDigits (Nat.succ_pos value)]

/-- The number of a natural value, by whether it fits in a word. -/
theorem ofNat_eq_elim : Number.ofNat = fun value : Nat =>
    (Narrow.ofInt? value).elim (.big (String.ofList (decimalDigits value))) .int := by
  -- The function is unfolded before it is applied: its match would be reduced down to the bits of
  -- the limit otherwise.
  delta Number.ofNat
  funext value
  generalize Narrow.ofInt? value = found
  cases found <;> rfl

/-- The integer of some digits is a word if it fits, and decimal digits otherwise. -/
theorem readInteger?_of_digits {radix : Nat} {digits : List Char} (some_ : digits.isEmpty = false)
    (all : digits.all (isDigitOf radix) = true) :
    readInteger? radix digits = some ((Narrow.ofInt? (readDigits radix digits)).elim
      (.big (String.ofList (bigDigits radix digits))) .int) := by
  rw [readInteger?, some_, all]
  generalize Narrow.ofInt? (readDigits radix digits) = found
  cases found <;> rfl

/-- Decimal digits are an integer literal of the number that they write. -/
theorem readInteger?_toDigits (value : Nat) :
    readInteger? 10 (Nat.toDigits 10 value) = some (.ofNat value) := by
  have decimal : ∀ c ∈ Nat.toDigits 10 value, c.isDigit = true := fun c member =>
    Nat.isDigit_of_mem_toDigits (by decide) (by decide) member
  have digits : (Nat.toDigits 10 value).all (isDigitOf 10) = true := by
    rw [List.all_eq_true]
    intro c member
    rw [isDigitOf, digitValue?_of_isDigit (decimal c member)]
    rfl
  have nonempty : (Nat.toDigits 10 value).isEmpty = false := by
    rw [List.isEmpty_eq_false_iff]
    exact Nat.toDigits_ne_nil
  rw [readInteger?_of_digits nonempty digits, readDigits_eq_ofDigitChars decimal,
    Nat.ofDigitChars_ten_toDigits, ofNat_eq_elim]
  rfl

/-- Decimal digits are neither of a floating-point nor of an imaginary number. -/
theorem readDecimal?_toDigits (value : Nat) :
    readDecimal? (Nat.toDigits 10 value) = some (.ofNat value) := by
  have real : (Nat.toDigits 10 value).getLast? ≠ some 'j' := fun last =>
    not_mem_toDigits (by decide) value (List.mem_of_getLast? last)
  have whole : ((Nat.toDigits 10 value).any fun c => c == '.' || c == 'e') = false := by
    rw [List.any_eq_false]
    intro c member mark
    rw [Bool.or_eq_true, beq_iff_eq, beq_iff_eq] at mark
    rcases mark with rfl | rfl
    · exact not_mem_toDigits (by decide) value member
    · exact not_mem_toDigits (by decide) value member
  rw [readDecimal?, if_neg real, whole, leadingZerosFit_toDigits, readInteger?_toDigits]
  rfl

/-- The decimal digits of a natural number are a literal of that number. -/
theorem readNumber?_toDigits (value : Nat) :
    readNumber? (Nat.toDigits 10 value) = some (.ofNat value) := by
  have decimal : ∀ c ∈ Nat.toDigits 10 value, c.isDigit = true := fun c member =>
    Nat.isDigit_of_mem_toDigits (by decide) (by decide) member
  have bare : '_' ∉ Nat.toDigits 10 value := not_mem_toDigits (by decide) value
  have lower : (Nat.toDigits 10 value).map Char.toLower = Nat.toDigits 10 value := by
    rw [List.map_congr_left fun c member => toLower_of_isDigit (decimal c member), List.map_id']
  have digits : (Nat.toDigits 10 value).filter (· != '_') = Nat.toDigits 10 value := by
    rw [List.filter_eq_self]
    intro c member
    rw [bne_iff_ne]
    rintro rfl
    exact bare member
  have fits : underscoresFitIn 10 (Nat.toDigits 10 value) = true :=
    underscoresFit_of_not_mem bare false
  rw [readNumber?, lower, radixOf_of_digits decimal, digits, fits]
  rw [Bool.not_true, if_neg Bool.false_ne_true, if_pos rfl]
  exact readDecimal?_toDigits value

/-- The decimal text of an integer that is not negative is a literal of that integer. -/
theorem decodeNumber_decimalText {value : Narrow} (positive : 0 ≤ value.value) :
    decodeNumber (decimalText value.value) = .ok (.int value) := by
  have unsigned : ¬value.value < 0 := Int.not_lt.2 positive
  have same : (value.value.natAbs : Int) = value.value := Int.natAbs_of_nonneg positive
  have fits : -wordLimit ≤ value.value ∧ value.value < wordLimit :=
    ⟨value.least_le, value.lt_limit⟩
  have narrow : Narrow.ofInt? value.value = some value := by
    unfold Narrow.ofInt?
    split
    · rfl
    · contradiction
  rw [decodeNumber, decimalText, if_neg unsigned, String.toList_ofList, decimalDigits,
    readNumber?_toDigits, ofNat_eq_elim]
  dsimp only
  rw [same, narrow]
  rfl

end Literal

end Offside
