import Mathlib.Data.Nat.Digits.Defs
import Offside.Literal.Limbs
import Offside.Proofs.Expression.Decimal

/-!
# Limbs of a number

The digits that limbs write are the decimal digits of the number that the digits of the literal
write (`Literal.toDecimal_eq`). The words of a pass never overflow, a pass appends one digit to the
number, and a number has no more limbs than it needs.
-/
namespace Offside.Literal

open Text

section Words

/-- What every limb is below. -/
theorem limbBase_exact : limbBase.toNat = 1000000000 := rfl

/-- Every limb holds nine decimal digits. -/
def Limbed (limbs : List UInt64) : Prop :=
  ∀ limb ∈ limbs, limb.toNat < 1000000000

/-- The number of limbs. -/
def limbsValue (limbs : List UInt64) : Nat :=
  Nat.ofDigits 1000000000 (limbs.map UInt64.toNat)

/-- No limbs are zero. -/
@[simp] theorem limbsValue_nil : limbsValue [] = 0 := rfl

/-- The number of limbs, by the least one. -/
@[simp] theorem limbsValue_cons (limb : UInt64) (rest : List UInt64) :
    limbsValue (limb :: rest) = limb.toNat + 1000000000 * limbsValue rest :=
  Nat.ofDigits_cons

/-- The number of limbs behind others. -/
theorem limbsValue_append (least rest : List UInt64) :
    limbsValue (least ++ rest) =
      limbsValue least + 1000000000 ^ least.length * limbsValue rest := by
  rw [limbsValue, limbsValue, limbsValue, List.map_append, Nat.ofDigits_append, List.length_map]

/-- A limb times a factor, plus a carry, does not overflow. -/
theorem scaled_exact {limb factor carry : UInt64} (limbed : limb.toNat < 1000000000)
    (low : factor.toNat ≤ 16) (carried : carry.toNat ≤ 16) :
    (limb * factor + carry).toNat = limb.toNat * factor.toNat + carry.toNat := by
  have product : limb.toNat * factor.toNat ≤ 999999999 * 16 :=
    Nat.mul_le_mul (by omega) low
  have fits : limb.toNat * factor.toNat < 2 ^ 64 := by omega
  rw [UInt64.toNat_add, UInt64.toNat_mul, Nat.mod_eq_of_lt fits]
  exact Nat.mod_eq_of_lt (by omega)

end Words

section Pass

variable {factor : UInt64}

/-- A pass keeps the count of the limbs. -/
theorem length_scaleLimbs (limbs : List UInt64) (carry : UInt64) :
    (scaleLimbs factor carry limbs).1.length = limbs.length := by
  induction limbs generalizing carry with
  | nil => rfl
  | cons limb rest ih =>
    rw [scaleLimbs]
    dsimp only
    rw [List.length_cons, List.length_cons, ih]

/-- A pass multiplies the number by the factor and adds the carry. What does not fit in the limbs
is carried behind them, and it is no greater than what was carried in. -/
theorem scaleLimbs_exact (low : factor.toNat ≤ 16) {limbs : List UInt64}
    (limbed : Limbed limbs) {carry : UInt64} (carried : carry.toNat ≤ 16) :
    Limbed (scaleLimbs factor carry limbs).1 ∧ (scaleLimbs factor carry limbs).2.toNat ≤ 16 ∧
      limbsValue (scaleLimbs factor carry limbs).1 +
          1000000000 ^ limbs.length * (scaleLimbs factor carry limbs).2.toNat =
        limbsValue limbs * factor.toNat + carry.toNat := by
  induction limbs generalizing carry with
  | nil =>
    refine ⟨by simp [scaleLimbs, Limbed], carried, ?_⟩
    simp [scaleLimbs]
  | cons limb rest ih =>
    have here : limb.toNat < 1000000000 := limbed limb List.mem_cons_self
    have others : Limbed rest := fun later member => limbed later (List.mem_cons_of_mem limb member)
    have exact_ := scaled_exact here low carried
    have product : limb.toNat * factor.toNat ≤ 999999999 * 16 := Nat.mul_le_mul (by omega) low
    have low_limb : ((limb * factor + carry) % limbBase).toNat =
        (limb.toNat * factor.toNat + carry.toNat) % 1000000000 := by
      rw [UInt64.toNat_mod, exact_, limbBase_exact]
    have next : ((limb * factor + carry) / limbBase).toNat =
        (limb.toNat * factor.toNat + carry.toNat) / 1000000000 := by
      rw [UInt64.toNat_div, exact_, limbBase_exact]
    have carried_on : ((limb * factor + carry) / limbBase).toNat ≤ 16 := by omega
    obtain ⟨rest_limbed, rest_carry, rest_value⟩ := ih others carried_on
    rw [scaleLimbs]
    dsimp only
    refine ⟨?_, rest_carry, ?_⟩
    · intro later member
      rw [List.mem_cons] at member
      cases member with
      | inl first =>
        rw [first, low_limb]
        omega
      | inr inside => exact rest_limbed later inside
    · have parts := Nat.mod_add_div (limb.toNat * factor.toNat + carry.toNat) 1000000000
      rw [limbsValue_cons, limbsValue_cons, low_limb, List.length_cons, Nat.pow_succ,
        Nat.mul_comm (1000000000 ^ rest.length), Nat.mul_assoc, Nat.add_assoc, ← Nat.mul_add,
        rest_value, next, Nat.add_mul, Nat.mul_assoc, Nat.mul_add]
      omega

end Pass

section Carry

/-- The limbs of a carry hold it. -/
theorem carryLimbs_exact (carry : UInt64) :
    Limbed (carryLimbs carry) ∧ limbsValue (carryLimbs carry) = carry.toNat := by
  fun_induction carryLimbs carry with
  | case1 carry positive ih =>
    have low_limb : (carry % limbBase).toNat = carry.toNat % 1000000000 := by
      rw [UInt64.toNat_mod, limbBase_exact]
    have next : (carry / limbBase).toNat = carry.toNat / 1000000000 := by
      rw [UInt64.toNat_div, limbBase_exact]
    constructor
    · intro limb member
      rw [List.mem_cons] at member
      cases member with
      | inl first =>
        rw [first, low_limb]
        omega
      | inr inside => exact ih.1 limb inside
    · rw [limbsValue_cons, ih.2, low_limb, next]
      omega
  | case2 carry positive =>
    have zero : ¬0 < carry.toNat := fun above => positive (UInt64.lt_iff_toNat_lt.2 above)
    exact ⟨by simp [Limbed], by rw [limbsValue_nil]; omega⟩

/-- A carry has no more limbs than it needs. -/
theorem carryLimbs_fills (carry : UInt64) :
    carryLimbs carry = [] ∨ 1000000000 ^ ((carryLimbs carry).length - 1) ≤ carry.toNat := by
  fun_induction carryLimbs carry with
  | case1 carry positive ih =>
    have above : 0 < carry.toNat := UInt64.lt_iff_toNat_lt.1 positive
    have next : (carry / limbBase).toNat = carry.toNat / 1000000000 := by
      rw [UInt64.toNat_div, limbBase_exact]
    right
    rw [List.length_cons, Nat.add_sub_cancel]
    cases more : carryLimbs (carry / limbBase) with
    | nil => exact above
    | cons limb rest =>
      have fills := ih.resolve_left (by rw [more]; exact List.cons_ne_nil limb rest)
      rw [more, next, List.length_cons, Nat.add_sub_cancel] at fills
      have whole := Nat.mul_le_mul_right 1000000000 fills
      have rounded := Nat.div_mul_le_self carry.toNat 1000000000
      rw [List.length_cons, Nat.pow_succ]
      exact Nat.le_trans whole rounded
  | case2 carry positive => exact .inl rfl

end Carry

/-- Limbs of a number: each holds nine digits, and there are no more of them than it needs. -/
structure LimbsOf (limbs : List UInt64) (value : Nat) : Prop where
  /-- Each limb holds nine digits. -/
  limbed : Limbed limbs
  /-- There is a limb. -/
  some_ : limbs ≠ []
  /-- The limbs hold the number. -/
  value_eq : limbsValue limbs = value
  /-- The number needs the last limb, unless it is the only one. -/
  fills : limbs.length = 1 ∨ 1000000000 ^ (limbs.length - 1) ≤ value

/-- One limb of zero is the limbs of zero. -/
theorem LimbsOf.zero : LimbsOf [0] 0 where
  limbed := by simp [Limbed]
  some_ := List.cons_ne_nil 0 []
  value_eq := rfl
  fills := .inl rfl

/-- A digit that is appended to limbs is appended to their number. -/
theorem LimbsOf.appendDigit {limbs : List UInt64} {value : Nat} (old : LimbsOf limbs value)
    {radix digit : UInt64} (low : radix.toNat ≤ 16) (some_radix : 0 < radix.toNat)
    (below : digit.toNat ≤ 16) :
    LimbsOf (appendDigit radix limbs digit) (value * radix.toNat + digit.toNat) := by
  obtain ⟨limbed, carried, exact_⟩ := scaleLimbs_exact low old.limbed below
  obtain ⟨more_limbed, more_exact⟩ := carryLimbs_exact (scaleLimbs radix digit limbs).2
  have same : (scaleLimbs radix digit limbs).1.length = limbs.length :=
    length_scaleLimbs limbs digit
  have grows : value ≤ value * radix.toNat := Nat.le_mul_of_pos_right value some_radix
  rw [old.value_eq] at exact_
  have here : limbsValue (Literal.appendDigit radix limbs digit) =
      value * radix.toNat + digit.toNat := by
    rw [Literal.appendDigit, limbsValue_append, more_exact, same]
    exact exact_
  refine ⟨?_, ?_, here, ?_⟩
  · intro limb member
    rw [Literal.appendDigit, List.mem_append] at member
    exact member.elim (limbed limb) (more_limbed limb)
  · rw [Literal.appendDigit]
    intro none_
    rw [List.append_eq_nil_iff, List.eq_nil_iff_length_eq_zero, same,
      ← List.eq_nil_iff_length_eq_zero] at none_
    exact old.some_ none_.1
  · rw [Literal.appendDigit, List.length_append, same]
    cases carryLimbs_fills (scaleLimbs radix digit limbs).2 with
    | inl none_ =>
      rw [none_, List.length_nil, Nat.add_zero]
      have fills := old.fills
      omega
    | inr fills =>
      right
      have one : 1 ≤ limbs.length := List.length_pos_iff.2 old.some_
      generalize (scaleLimbs radix digit limbs).2 = left at exact_ fills ⊢
      calc
        1000000000 ^ (limbs.length + (carryLimbs left).length - 1)
          ≤ 1000000000 ^ (limbs.length + ((carryLimbs left).length - 1)) :=
            Nat.pow_le_pow_right (by decide) (by omega)
        _ = 1000000000 ^ limbs.length * 1000000000 ^ ((carryLimbs left).length - 1) :=
            Nat.pow_add _ _ _
        _ ≤ 1000000000 ^ limbs.length * left.toNat := Nat.mul_le_mul_left _ fills
        _ ≤ value * radix.toNat + digit.toNat := by
            rw [← exact_]
            exact Nat.le_add_left _ _

/-- A digit of a radix has a value below the radix. -/
theorem digitValue?_lt {radix : Nat} {c : Char} {digit : Nat}
    (found : digitValue? radix c = some digit) : digit < radix := by
  simp only [digitValue?, Option.ite_none_right_eq_some, Option.some.injEq] at found
  exact found.2 ▸ found.1

/-- The limbs of digits hold the number that the digits write. -/
theorem limbsOf_spec {radix : Nat} (some_radix : 0 < radix) (low : radix ≤ 16)
    {digits : List Char} (all : digits.all (isDigitOf radix) = true) :
    LimbsOf (limbsOf radix digits) (readDigits radix digits) := by
  have radix_exact : (UInt64.ofNat radix).toNat = radix :=
    UInt64.toNat_ofNat_of_lt' (Nat.lt_of_le_of_lt low (by decide))
  have pass (limbs : List UInt64) (value : Nat) (old : LimbsOf limbs value) :
      LimbsOf (((digits.filterMap (digitValue? radix)).map UInt64.ofNat).foldl
          (appendDigit (UInt64.ofNat radix)) limbs)
        (digits.foldl (fun value c => value * radix + (digitValue? radix c).getD 0) value) := by
    induction digits generalizing limbs value with
    | nil => exact old
    | cons c rest ih =>
      rw [List.all_cons, Bool.and_eq_true] at all
      obtain ⟨digit, found⟩ := Option.isSome_iff_exists.1 all.1
      have below := digitValue?_lt found
      have digit_exact : (UInt64.ofNat digit).toNat = digit :=
        UInt64.toNat_ofNat_of_lt' (Nat.lt_of_lt_of_le (Nat.lt_of_lt_of_le below low) (by decide))
      have next : LimbsOf (appendDigit (UInt64.ofNat radix) limbs (UInt64.ofNat digit))
          (value * (UInt64.ofNat radix).toNat + (UInt64.ofNat digit).toNat) :=
        old.appendDigit (by omega) (by omega) (by omega)
      rw [radix_exact, digit_exact] at next
      rw [List.filterMap_cons_some found, List.map_cons, List.foldl_cons, List.foldl_cons, found]
      exact ih all.2 _ _ next
  exact pass [0] 0 .zero

section Text

/-- A decimal digit is written for its value. -/
theorem digitChar_of_isDigit {c : Char} (digit : c.isDigit = true) :
    Nat.digitChar (c.toNat - 48) = c := by
  have range := range_of_isDigit digit
  have written : ∀ value < 10, Nat.digitChar value = Char.ofNat (value + 48) := by decide
  rw [written (c.toNat - 48) (by omega), Nat.sub_add_cancel range.1, Char.ofNat_toNat]

/-- Decimal digits behind those of a positive number are the digits of a greater one. -/
theorem toDigits_append {value : Nat} (positive : 0 < value) {digits : List Char}
    (decimal : ∀ c ∈ digits, c.isDigit = true) :
    Nat.toDigits 10 value ++ digits = Nat.toDigits 10 (Nat.ofDigitChars 10 digits value) := by
  induction digits generalizing value with
  | nil => rw [List.append_nil, Nat.ofDigitChars_nil]
  | cons c rest ih =>
    have digit := decimal c List.mem_cons_self
    have range := range_of_isDigit digit
    have below : c.toNat - 48 < 10 := by omega
    have single : Nat.toDigits 10 (c.toNat - 48) = [c] := by
      rw [Nat.toDigits_of_lt_base below, digitChar_of_isDigit digit]
    have longer := Nat.toDigits_append_toDigits (by decide : 1 < 10) positive below
    rw [single] at longer
    rw [Nat.ofDigitChars_cons, List.append_cons, longer]
    exact ih (by omega) fun d member => decimal d (List.mem_cons_of_mem c member)

/-- A limb behind the digits of a positive number. -/
theorem toDigits_append_limbDigits {value : Nat} (positive : 0 < value) {limb : UInt64}
    (limbed : limb.toNat < 1000000000) :
    Nat.toDigits 10 value ++ limbDigits limb =
      Nat.toDigits 10 (limb.toNat + 1000000000 * value) := by
  have decimal : ∀ c ∈ Nat.toDigits 10 limb.toNat, c.isDigit = true := fun c member =>
    Nat.isDigit_of_mem_toDigits (by decide) (by decide) member
  have short : (Nat.toDigits 10 limb.toNat).length ≤ 9 :=
    Nat.toDigits_length 10 limb.toNat 9 (by decide) limbed
  have padded : ∀ c ∈ limbDigits limb, c.isDigit = true := by
    intro c member
    rw [limbDigits, List.mem_append] at member
    cases member with
    | inl zero =>
      rw [List.eq_of_mem_replicate zero]
      rfl
    | inr digit => exact decimal c digit
  have nine : (limbDigits limb).length = 9 := by
    rw [limbDigits, List.length_append, List.length_replicate, decimalDigits]
    omega
  have own : Nat.ofDigitChars 10 (limbDigits limb) 0 = limb.toNat := by
    rw [limbDigits, Nat.ofDigitChars_append, Nat.ofDigitChars_replicate_zero, Nat.mul_zero,
      decimalDigits, Nat.ofDigitChars_ten_toDigits]
  rw [toDigits_append positive padded, Nat.ofDigitChars_eq_ofDigitChars_zero, nine, own,
    Nat.add_comm]

/-- The least limb is written behind the others. -/
theorem limbsDigits_cons {rest : List UInt64} (others : rest ≠ []) (limb : UInt64) :
    limbsDigits (limb :: rest) = limbsDigits rest ++ limbDigits limb := by
  obtain ⟨top, more, front⟩ := List.exists_cons_of_ne_nil (mt List.reverse_eq_nil_iff.1 others)
  rw [limbsDigits, limbsDigits, List.reverse_cons, front, List.cons_append]
  simp

/-- Limbs are written as the decimal digits of their number, if it needs the last one. -/
theorem limbsDigits_eq {limbs : List UInt64} (limbed : Limbed limbs) (some_ : limbs ≠ [])
    (fills : limbs.length = 1 ∨ 1000000000 ^ (limbs.length - 1) ≤ limbsValue limbs) :
    limbsDigits limbs = Nat.toDigits 10 (limbsValue limbs) := by
  induction limbs with
  | nil => exact absurd rfl some_
  | cons limb rest ih =>
    have here : limb.toNat < 1000000000 := limbed limb List.mem_cons_self
    have below : Limbed rest := fun later member => limbed later (List.mem_cons_of_mem limb member)
    cases rest with
    | nil => simp [limbsDigits, decimalDigits]
    | cons next more =>
      have others : next :: more ≠ [] := List.cons_ne_nil next more
      have filled : 1000000000 ^ more.length ≤ limbsValue (next :: more) := by
        have whole := fills.resolve_left (by simp)
        rw [limbsValue_cons, List.length_cons, List.length_cons, Nat.add_sub_cancel,
          Nat.pow_succ] at whole
        generalize 1000000000 ^ more.length = power at whole ⊢
        omega
      have positive : 0 < limbsValue (next :: more) :=
        Nat.lt_of_lt_of_le (Nat.pow_pos (by decide)) filled
      rw [limbsDigits_cons others, ih below others (.inr filled), limbsValue_cons]
      exact toDigits_append_limbDigits positive here

/-- The limbs of a number are written as its decimal digits. -/
theorem toDecimal_eq {radix : Nat} (some_radix : 0 < radix) (low : radix ≤ 16)
    {digits : List Char} (all : digits.all (isDigitOf radix) = true) :
    toDecimal radix digits = decimalDigits (readDigits radix digits) := by
  have limbs := limbsOf_spec some_radix low all
  have fills := limbs.fills
  rw [← limbs.value_eq] at fills
  rw [toDecimal, limbsDigits_eq limbs.limbed limbs.some_ fills, limbs.value_eq, decimalDigits]

end Text

end Offside.Literal
