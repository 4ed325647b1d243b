import Offside.Proofs.Literal.Grammar

/-!
# Underscores in number literals

Underscores that stand between digits may be left out of a decimal literal and put back
(`DecimalNumeral.lifts`): a separator of groups divides the underscores that fit into those on its
two sides (`underscoresFit_append`), and a group is digits with underscores that fit
(`lifts_group`).
-/
namespace Offside

open Text

namespace Literal

section Spacing

variable {radix : Nat}

/-- A text is another one with underscores in it, each of them between two digits. -/
structure Spaces (radix : Nat) (text bare : List Char) : Prop where
  /-- The underscores stand between digits. -/
  fit : underscoresFit radix false text = true
  /-- Without them, the text is the other one. -/
  bare_eq : text.filter (· != '_') = bare

/-- A character that separates groups of digits: it is neither a digit nor an underscore. -/
def Separator (radix : Nat) (c : Char) : Prop :=
  c ≠ '_' ∧ isDigitOf radix c = false

/-- Underscores fit around a separator where they fit on both sides of it. -/
theorem underscoresFit_append {c : Char} (separator : Separator radix c) (front back : List Char)
    (mayStand : Bool) :
    underscoresFit radix mayStand (front ++ c :: back) =
      (underscoresFit radix mayStand front && underscoresFit radix false back) := by
  induction front generalizing mayStand with
  | nil =>
    have here : underscoresFit radix mayStand (c :: back) = underscoresFit radix false back := by
      rw [underscoresFit, if_neg separator.1, separator.2]
    exact here
  | cons d rest ih =>
    rw [List.cons_append, underscoresFit, underscoresFit]
    by_cases underscore : d = '_'
    · rw [if_pos underscore, if_pos underscore, ih, ← Bool.and_assoc]
      cases rest with
      | nil => simp [separator.2]
      | cons next more => rfl
    · rw [if_neg underscore, if_neg underscore, ih]

/-- A character that is no underscore stays in the text without underscores. -/
theorem filter_kept {c : Char} (other : c ≠ '_') (rest : List Char) :
    (c :: rest).filter (· != '_') = c :: rest.filter (· != '_') :=
  List.filter_cons_of_pos (bne_iff_ne.2 other)

/-- Texts with underscores may be put together around a separator. -/
theorem Spaces.join {c : Char} (separator : Separator radix c) {front back : List Char}
    {front' back' : List Char} (left : Spaces radix front front')
    (right : Spaces radix back back') :
    Spaces radix (front ++ c :: back) (front' ++ c :: back') where
  fit := by rw [underscoresFit_append separator, left.fit, right.fit]; rfl
  bare_eq := by
    rw [List.filter_append, filter_kept separator.1, left.bare_eq, right.bare_eq]

/-- A text with underscores comes apart at every separator. -/
theorem Spaces.split {c : Char} (separator : Separator radix c) {text front' back' : List Char}
    (spaces : Spaces radix text (front' ++ c :: back')) :
    ∃ front back, text = front ++ c :: back ∧ Spaces radix front front' ∧
      Spaces radix back back' := by
  obtain ⟨early, late, rfl, early_eq, late_eq⟩ := List.filter_eq_append_iff.1 spaces.bare_eq
  obtain ⟨skipped, back, rfl, skip, -, back_eq⟩ := List.filter_eq_cons_iff.1 late_eq
  have fit := spaces.fit
  rw [← List.append_assoc, underscoresFit_append separator, Bool.and_eq_true] at fit
  have front_eq : (early ++ skipped).filter (· != '_') = front' := by
    rw [List.filter_append, early_eq, List.filter_eq_nil_iff.2 skip, List.append_nil]
  exact ⟨early ++ skipped, back, (List.append_assoc _ _ _).symm, ⟨fit.1, front_eq⟩,
    ⟨fit.2, back_eq⟩⟩

/-- Only the empty text has nothing but underscores that fit. -/
theorem Spaces.eq_nil {text : List Char} (spaces : Spaces radix text []) : text = [] := by
  cases text with
  | nil => rfl
  | cons c rest =>
    have underscores := List.filter_eq_nil_iff.1 spaces.bare_eq c List.mem_cons_self
    have underscore : c = '_' := by simpa using underscores
    have fit := spaces.fit
    rw [underscoresFit, if_pos underscore, Bool.false_and, Bool.false_and] at fit
    contradiction

/-- Nothing is nothing with underscores. -/
theorem Spaces.nil : Spaces radix [] [] := ⟨rfl, rfl⟩

/-- An underscore is no digit. -/
theorem isDigitOf_underscore : isDigitOf radix '_' = false := by
  simp [isDigitOf, digitValue?]

/-- A digit is no underscore. -/
theorem ne_underscore {c : Char} (digit : isDigitOf radix c = true) : c ≠ '_' := by
  rintro rfl
  rw [isDigitOf_underscore] at digit
  contradiction

/-- A group starts with a digit. -/
theorem DigitGroup.head {text : List Char} (group : DigitGroup radix text) :
    ∃ c rest, text = c :: rest ∧ isDigitOf radix c = true := by
  cases group with
  | last digit => exact ⟨_, _, rfl, digit⟩
  | next digit _ => exact ⟨_, _, rfl, digit⟩
  | apart digit _ => exact ⟨_, _, rfl, digit⟩

/-- A digit lets underscores fit as they do behind it. -/
theorem underscoresFit_digit {c : Char} (digit : isDigitOf radix c = true) (rest : List Char)
    (mayStand : Bool) :
    underscoresFit radix mayStand (c :: rest) = underscoresFit radix true rest := by
  rw [underscoresFit, if_neg (ne_underscore digit), digit]

/-- A group is digits with underscores that fit. -/
theorem DigitGroup.spaces {text : List Char} (group : DigitGroup radix text) :
    ∃ bare, Spaces radix text bare ∧ Digits radix bare := by
  -- Whether an underscore may stand before a group does not matter, since a digit is its first
  -- character: this is what the induction needs behind a digit.
  have fit (mayStand : Bool) : underscoresFit radix mayStand text = true := by
    induction group generalizing mayStand with
    | last digit => rw [underscoresFit_digit digit, underscoresFit]
    | next digit group ih => rw [underscoresFit_digit digit, ih]
    | apart digit group ih =>
      obtain ⟨c, rest, rfl, first⟩ := group.head
      rw [underscoresFit_digit digit, underscoresFit, if_pos rfl, ih]
      simp [first]
  have digits : Digits radix (text.filter (· != '_')) := by
    clear fit
    induction group with
    | last digit =>
      rw [filter_kept (ne_underscore digit)]
      exact ⟨List.cons_ne_nil _ _, by simp [digit]⟩
    | next digit group ih =>
      rw [filter_kept (ne_underscore digit)]
      exact ⟨List.cons_ne_nil _ _, by rw [List.all_cons, digit, ih.2]; rfl⟩
    | apart digit group ih =>
      rw [filter_kept (ne_underscore digit), List.filter_cons_of_neg (by simp)]
      exact ⟨List.cons_ne_nil _ _, by rw [List.all_cons, digit, ih.2]; rfl⟩
  exact ⟨_, ⟨fit false, rfl⟩, digits⟩

/-- A digit before digits with underscores that fit behind it is a group. -/
theorem DigitGroup.of_fit {c : Char} {rest : List Char} (digit : isDigitOf radix c = true)
    (fit : underscoresFit radix true rest = true)
    (all : (rest.filter (· != '_')).all (isDigitOf radix) = true) :
    DigitGroup radix (c :: rest) := by
  cases rest with
  | nil => exact .last digit
  | cons d more =>
    by_cases underscore : d = '_'
    · subst underscore
      rw [List.filter_cons_of_neg (by simp)] at all
      cases more with
      | nil =>
        rw [underscoresFit, if_pos rfl] at fit
        contradiction
      | cons e tail =>
        rw [underscoresFit, if_pos rfl, Bool.and_eq_true, Bool.and_eq_true] at fit
        have here : isDigitOf radix e = true := by simpa using fit.1.2
        have behind := fit.2
        rw [underscoresFit_digit here] at behind
        rw [filter_kept (ne_underscore here), List.all_cons, Bool.and_eq_true] at all
        exact .apart digit (DigitGroup.of_fit here behind all.2)
    · rw [filter_kept underscore, List.all_cons, Bool.and_eq_true] at all
      rw [underscoresFit_digit all.1] at fit
      exact .next digit (DigitGroup.of_fit all.1 fit all.2)

/-- Digits with underscores that fit are a group. -/
theorem Spaces.group {text bare : List Char} (spaces : Spaces radix text bare)
    (digits : Digits radix bare) : DigitGroup radix text := by
  obtain ⟨fit, rfl⟩ := spaces
  cases text with
  | nil => exact absurd rfl digits.1
  | cons c rest =>
    by_cases underscore : c = '_'
    · rw [underscoresFit, if_pos underscore, Bool.false_and, Bool.false_and] at fit
      contradiction
    · have all := digits.2
      rw [filter_kept underscore, List.all_cons, Bool.and_eq_true] at all
      rw [underscoresFit_digit all.1] at fit
      exact .of_fit all.1 fit all.2

end Spacing

section Lifting

/-- What holds of a text with underscores is what holds of the text without them. -/
def Lifts (spaced bare : List Char → Prop) : Prop :=
  ∀ text, spaced text ↔ ∃ plain, Spaces 10 text plain ∧ bare plain

/-- A group is digits without its underscores. -/
theorem lifts_group : Lifts (DigitGroup 10) (Digits 10) := by
  intro text
  constructor
  · exact DigitGroup.spaces
  · rintro ⟨plain, spaces, digits⟩
    exact spaces.group digits

/-- The characters between the groups of a decimal literal separate them. -/
theorem separator_of_mem {c : Char} (member : c ∈ ['.', 'e', '+', '-', 'j']) : Separator 10 c := by
  simp only [List.mem_cons, List.not_mem_nil, or_false] at member
  rcases member with rfl | rfl | rfl | rfl | rfl
  all_goals exact ⟨by decide, by decide⟩

variable {group digits : List Char → Prop}

/-- A number with a point is one without its underscores. -/
theorem PointFloat.lifts (lifts : Lifts group digits) :
    Lifts (PointFloat group) (PointFloat digits) := by
  have point : Separator 10 '.' := separator_of_mem (by decide)
  intro text
  constructor
  · intro float
    cases float with
    | before whole =>
      obtain ⟨plain, spaces, all⟩ := (lifts _).1 whole
      exact ⟨_, spaces.join point .nil, .before all⟩
    | between whole part =>
      obtain ⟨plain, spaces, all⟩ := (lifts _).1 whole
      obtain ⟨plain', spaces', all'⟩ := (lifts _).1 part
      exact ⟨_, spaces.join point spaces', .between all all'⟩
    | behind part =>
      obtain ⟨plain, spaces, all⟩ := (lifts _).1 part
      exact ⟨_, Spaces.nil.join point spaces, .behind all⟩
  · rintro ⟨plain, spaces, float⟩
    cases float with
    | before whole =>
      obtain ⟨front, back, rfl, left, right⟩ := spaces.split point
      obtain rfl := right.eq_nil
      exact .before ((lifts _).2 ⟨_, left, whole⟩)
    | between whole part =>
      obtain ⟨front, back, rfl, left, right⟩ := spaces.split point
      exact .between ((lifts _).2 ⟨_, left, whole⟩) ((lifts _).2 ⟨_, right, part⟩)
    | @behind part all =>
      have apart : Spaces 10 text ([] ++ '.' :: part) := spaces
      obtain ⟨front, back, rfl, left, right⟩ := apart.split point
      obtain rfl := left.eq_nil
      exact .behind ((lifts _).2 ⟨_, right, all⟩)

/-- What stands behind the letter of an exponent is one without its underscores. -/
theorem Exponent.lifts (lifts : Lifts group digits) : Lifts (Exponent group) (Exponent digits) := by
  have separates {sign : Char} (known : sign = '+' ∨ sign = '-') : Separator 10 sign :=
    separator_of_mem (by rcases known with rfl | rfl <;> decide)
  intro text
  constructor
  · intro exponent
    cases exponent with
    | plain behind =>
      obtain ⟨plain, spaces, all⟩ := (lifts _).1 behind
      exact ⟨_, spaces, .plain all⟩
    | signed known behind =>
      obtain ⟨plain, spaces, all⟩ := (lifts _).1 behind
      exact ⟨_, Spaces.nil.join (separates known) spaces, .signed known all⟩
  · rintro ⟨plain, spaces, exponent⟩
    cases exponent with
    | plain behind => exact .plain ((lifts _).2 ⟨_, spaces, behind⟩)
    | @signed sign part known behind =>
      have apart : Spaces 10 text ([] ++ sign :: part) := spaces
      obtain ⟨front, back, rfl, left, right⟩ := apart.split (separates known)
      obtain rfl := left.eq_nil
      exact .signed known ((lifts _).2 ⟨_, right, behind⟩)

/-- Either of two kinds of text is one without its underscores. -/
theorem Lifts.or {group' digits' : List Char → Prop} (left : Lifts group digits)
    (right : Lifts group' digits') :
    Lifts (fun text => group text ∨ group' text) fun text => digits text ∨ digits' text := by
  intro text
  dsimp only
  rw [left text, right text, ← exists_or]
  simp only [and_or_left]

/-- A floating-point number is one without its underscores. -/
theorem Floating.lifts (lifts : Lifts group digits) : Lifts (Floating group) (Floating digits) := by
  have letter : Separator 10 'e' := separator_of_mem (by decide)
  have mantissas := lifts.or (PointFloat.lifts lifts)
  intro text
  constructor
  · intro floating
    cases floating with
    | point float =>
      obtain ⟨plain, spaces, point⟩ := (PointFloat.lifts lifts _).1 float
      exact ⟨_, spaces, .point point⟩
    | scaled mantissa exponent =>
      obtain ⟨plain, spaces, front⟩ := (mantissas _).1 mantissa
      obtain ⟨plain', spaces', tail⟩ := (Exponent.lifts lifts _).1 exponent
      exact ⟨_, spaces.join letter spaces', .scaled front tail⟩
  · rintro ⟨plain, spaces, floating⟩
    cases floating with
    | point float => exact .point ((PointFloat.lifts lifts _).2 ⟨_, spaces, float⟩)
    | scaled mantissa exponent =>
      obtain ⟨front, back, rfl, left, right⟩ := spaces.split letter
      exact .scaled ((mantissas _).2 ⟨_, left, mantissa⟩)
        ((Exponent.lifts lifts _).2 ⟨_, right, exponent⟩)

/-- No zero stands in front of a group where none stands in front of its digits. -/
theorem DigitGroup.leading_iff {text plain : List Char} (group : DigitGroup 10 text)
    (spaces : Spaces 10 text plain) :
    (text.head? ≠ some '0' ∨ ∀ c ∈ text, c = '0' ∨ c = '_') ↔
      (plain.head? ≠ some '0' ∨ ∀ c ∈ plain, c = '0' ∨ c = '_') := by
  obtain ⟨fit, rfl⟩ := spaces
  have first : (text.filter (· != '_')).head? = text.head? := by
    obtain ⟨c, rest, rfl, digit⟩ := group.head
    rw [filter_kept (ne_underscore digit), List.head?_cons, List.head?_cons]
  have others : (∀ c ∈ text.filter (· != '_'), c = '0' ∨ c = '_') ↔
      ∀ c ∈ text, c = '0' ∨ c = '_' := by
    constructor
    · intro zeros c member
      by_cases underscore : c = '_'
      · exact .inr underscore
      · exact zeros c (List.mem_filter.2 ⟨member, bne_iff_ne.2 underscore⟩)
    · exact fun zeros c member => zeros c (List.mem_of_mem_filter member)
  rw [first, others]

/-- A decimal number is one without its underscores. -/
theorem DecimalNumeral.lifts (kind : NumeralKind) :
    Lifts (DecimalNumeral (DigitGroup 10) kind) (DecimalNumeral (Digits 10) kind) := by
  have letter : Separator 10 'j' := separator_of_mem (by decide)
  have values := lifts_group.or (Floating.lifts lifts_group)
  intro text
  constructor
  · intro number
    cases number with
    | integer group leading =>
      obtain ⟨plain, spaces, all⟩ := group.spaces
      exact ⟨plain, spaces, .integer all ((group.leading_iff spaces).1 leading)⟩
    | float floating =>
      obtain ⟨plain, spaces, float⟩ := (Floating.lifts lifts_group _).1 floating
      exact ⟨plain, spaces, .float float⟩
    | imaginary value =>
      obtain ⟨plain, spaces, front⟩ := (values _).1 value
      exact ⟨_, spaces.join letter .nil, .imaginary front⟩
  · rintro ⟨plain, spaces, number⟩
    cases number with
    | integer all leading =>
      have group := spaces.group all
      exact .integer group ((group.leading_iff spaces).2 leading)
    | float floating => exact .float ((Floating.lifts lifts_group _).2 ⟨_, spaces, floating⟩)
    | imaginary value =>
      obtain ⟨front, back, rfl, left, right⟩ := spaces.split letter
      obtain rfl := right.eq_nil
      exact .imaginary ((values _).2 ⟨_, left, value⟩)

end Lifting

end Literal

end Offside
