import Mathlib.Data.List.Find
import Offside.Proofs.Layout.Fronts

/-!
# Breakers

A breaker is a character at which each lexeme but a string literal ends: a closing parenthesis, a
backslash, the end of a line, the mark of a comment, or white space. What is taken of a text in
front of a breaker is what is taken of the text alone (`Munch.Local`). A string literal ends where
its closing marks are, whatever is behind them.
-/
namespace Offside

open Text Lexeme

/-- Characters at which lexemes end. -/
def breakers : List Char := ')' :: '\\' :: '\n' :: '#' :: blanks

/-- The first character of a text is a breaker, if there is one. -/
def Stops (text : List Char) : Prop :=
  ∀ c ∈ text.head?, c ∈ breakers

/-- A class without breakers refuses the first character. -/
theorem Stops.refused {admits : Char → Bool} (none_ : (breakers.all fun c => !admits c) = true)
    {c : Char} {rest : List Char} (stops : Stops (c :: rest)) : admits c = false := by
  have here := List.all_eq_true.1 none_ c (stops c rfl)
  simpa using here

/-- The first character is none that is no breaker. -/
theorem Stops.ne {c d : Char} {rest : List Char} (stops : Stops (c :: rest))
    (other : breakers.contains d = false) : c ≠ d := by
  rintro rfl
  rw [List.contains_iff_mem.2 (stops c rfl)] at other
  contradiction

namespace Munch

/-- In front of a breaker the scanner takes what it takes of the text alone. -/
def Local (munch : Munch) : Prop :=
  ∀ text rest, Stops rest → munch (text ++ rest) = ((munch text).1, (munch text).2 ++ rest)

/-- A scanner of a class without breakers stops at them. -/
theorem many_local {admits : Char → Bool} (none_ : (breakers.all fun c => !admits c) = true) :
    (many admits).Local := by
  intro text rest stops
  induction text with
  | nil =>
    cases rest with
    | nil => rfl
    | cons c rest => simp [many, stops.refused none_]
  | cons c text ih =>
    simp only [many, Prod.mk.injEq] at ih ⊢
    by_cases admitted : admits c = true
    · simp [admitted, ih.1, ih.2]
    · simp [admitted]

/-- So does one that takes a single character. -/
theorem one_local {admits : Char → Bool} (none_ : (breakers.all fun c => !admits c) = true) :
    (one admits).Local := by
  intro text rest stops
  cases text with
  | nil =>
    cases rest with
    | nil => rfl
    | cons c rest => simp [one, stops.refused none_]
  | cons c text => by_cases admitted : admits c = true <;> simp [one, admitted]

/-- Two scanners in order. -/
theorem andThen_local {first second : Munch} (head : first.Local) (tail : second.Local) :
    (first.andThen second).Local := by
  intro text rest stops
  simp only [andThen]
  rw [head text rest stops]
  dsimp only
  rw [tail _ rest stops]

/-- A scanner behind a guard. -/
theorem guardedBy_local {first second : Munch} (head : first.Local) (tail : second.Local) :
    (first.guardedBy second).Local := by
  intro text rest stops
  have whole := andThen_local head tail text rest stops
  simp only [guardedBy]
  rw [head text rest stops]
  dsimp only
  by_cases empty : (first text).1 = []
  · rw [if_pos empty, if_pos empty]
  · rw [if_neg empty, if_neg empty, whole]

/-- A scanner that takes in front of a breaker what it takes alone takes no breaker. -/
theorem Local.avoids {munch : Munch} (stops : munch.Local) (lossless : munch.Lossless)
    (text : List Char) : ∀ c ∈ (munch text).1, c ∉ breakers := by
  intro c member breaks
  obtain ⟨front, behind, taken⟩ := List.append_of_mem member
  have whole := lossless text
  rw [taken, List.append_assoc] at whole
  have ends : Stops (c :: behind ++ (munch text).2) := by
    intro d first
    obtain rfl := Option.some.inj first
    exact breaks
  have same := congrArg Prod.fst (stops front _ ends)
  rw [whole, taken] at same
  -- All that is taken would be taken of the text in front of the breaker.
  have short := congrArg List.length (lossless front)
  rw [← same] at short
  simp only [List.length_append, List.length_cons] at short
  omega

end Munch

namespace Lexeme

open Munch

/-- The mark of a radix whose letters are no breakers. -/
theorem radixMark_local {letters : List Char}
    (none_ : (breakers.all fun c => !letters.contains c) = true) : (radixMark letters).Local := by
  intro text rest stops
  cases text with
  | nil =>
    cases rest with
    | nil => rfl
    | cons c rest =>
      rw [List.nil_append, radixMark]
      · rfl
      · exact fun _ _ same => stops.ne rfl (List.cons.inj same).1
  | cons c text =>
    by_cases zero : c = '0'
    · subst zero
      cases text with
      | nil =>
        cases rest with
        | nil => rfl
        | cons c rest =>
          have other : letters.contains c = false := stops.refused none_
          show (if letters.contains c then _ else _) = _
          rw [other]
          rfl
      | cons d text =>
        show (if letters.contains d then _ else _) = _
        rw [radixMark]
        by_cases listed : letters.contains d = true
        · rw [if_pos listed, if_pos listed]
          rfl
        · rw [if_neg listed, if_neg listed]
          rfl
    · rw [List.cons_append, radixMark, radixMark]
      · rfl
      · exact fun _ _ same => zero (List.cons.inj same).1
      · exact fun _ _ same => zero (List.cons.inj same).1

/-- A fraction ends at a breaker. -/
theorem fraction_local {isPart : Char → Bool}
    (none_ : (breakers.all fun c => !isPart c) = true) : (fraction isPart).Local :=
  guardedBy_local (one_local rfl) (many_local none_)

/-- A number ends at a breaker. -/
theorem number_local : number.Local := by
  have hex : hexNumber.Local :=
    guardedBy_local (radixMark_local rfl) (andThen_local (many_local rfl) (fraction_local rfl))
  have exponent : exponent.Local :=
    guardedBy_local (one_local rfl) (andThen_local (one_local rfl) (many_local rfl))
  have plain : plainNumber.Local :=
    andThen_local (radixMark_local rfl)
      (andThen_local (many_local rfl) (andThen_local (fraction_local rfl) exponent))
  have radix : (radixMark ['x', 'X']).Local := radixMark_local rfl
  intro text rest stops
  simp only [number]
  rw [radix text rest stops]
  dsimp only
  split
  · exact andThen_local plain (one_local rfl) text rest stops
  · exact andThen_local hex (one_local rfl) text rest stops

/-- A name ends at a breaker. -/
theorem name_local : name.Local :=
  many_local rfl

/-- A number starts in front of a breaker just if one starts in the text alone. -/
theorem startsNumber_append (text : List Char) {rest : List Char} (stops : Stops rest) :
    startsNumber (text ++ rest) = startsNumber text := by
  cases text with
  | nil =>
    cases rest with
    | nil => rfl
    | cons c rest =>
      have digit : c.isDigit = false := stops.refused rfl
      exact startsNumber_eq_false (stops.ne rfl) digit
  | cons c text =>
    cases text with
    | cons d text => by_cases point : c = '.' <;> simp [startsNumber, point]
    | nil =>
      cases rest with
      | nil => rfl
      | cons d rest =>
        have digit : d.isDigit = false := stops.refused rfl
        by_cases point : c = '.'
        · simp [startsNumber, point, digit]
        · simp [startsNumber, point]

/-- A text without breakers is in front of one just if it is in front in the text alone. -/
theorem isPrefixOf_append {front text rest : List Char}
    (none_ : (front.all fun c => !breakers.contains c) = true) (stops : Stops rest) :
    front.isPrefixOf (text ++ rest) = front.isPrefixOf text := by
  induction front generalizing text with
  | nil => rfl
  | cons c front ih =>
    simp only [List.all_cons, Bool.and_eq_true] at none_
    cases text with
    | cons d text =>
      rw [List.cons_append, List.isPrefixOf_cons_cons, List.isPrefixOf_cons_cons, ih none_.2]
    | nil =>
      cases rest with
      | nil => rfl
      | cons d rest =>
        have differs : (c == d) = false := by
          rw [beq_eq_false_iff_ne]
          rintro rfl
          have breaks := stops c rfl
          simp [breaks] at none_
        rw [List.nil_append, List.isPrefixOf_cons_cons, differs]
        rfl

/-- An operator ends at a breaker. -/
theorem operator_append {c : Char} (text : List Char) {rest : List Char} (stops : Stops rest) :
    operator (c :: text ++ rest) =
      ((operator (c :: text)).1, (operator (c :: text)).2 ++ rest) := by
  have same : longOperators.find? (·.isPrefixOf (c :: text ++ rest)) =
      longOperators.find? (·.isPrefixOf (c :: text)) := by
    refine List.find?_congr fun found member => isPrefixOf_append ?_ stops
    have all : (longOperators.all fun found => found.all fun c => !breakers.contains c) = true := rfl
    exact List.all_eq_true.1 all found member
  rw [operator, operator, same]
  split
  · rename_i found search
    have leads := List.find?_some search
    obtain ⟨behind, whole⟩ := List.isPrefixOf_iff_prefix.1 leads
    rw [← whole, List.append_assoc, List.drop_left, List.drop_left]
  · rfl

/-- A character that is no backslash in a literal between single marks. -/
theorem shortPart_unescaped {quote c : Char} (rest : List Char) (plain : c ≠ '\\') :
    shortPart quote (c :: rest) =
      if c = quote then .closed [c] rest
      else if c = '\n' then .broken
      else (shortPart quote rest).after [c] := by
  rw [shortPart]
  · exact fun same _ => plain same
  · exact fun _ same _ => plain same
  · exact fun _ _ same _ => plain same

/-- A literal between single marks ends at its mark, whatever is behind it. -/
theorem shortPart_behind {quote : Char} {text taken rest : List Char}
    (closed : shortPart quote text = .closed taken rest) (other : List Char) :
    shortPart quote (taken ++ other) = .closed taken other := by
  have plain {c : Char} {tail : List Char} (first : c = '\\' → tail = [] → False)
      (later : ∀ d more, c = '\\' → tail = d :: more → False) : c ≠ '\\' := by
    intro slash
    cases tail with
    | nil => exact first slash rfl
    | cons d more => exact later d more slash rfl
  fun_induction shortPart quote text generalizing taken with
  | case1 | case2 | case3 | case6 => simp at closed
  | case4 c tail differs ih =>
    obtain ⟨later, found, rfl⟩ := StringPart.after_eq_closed closed
    have behind := ih found
    rw [List.append_assoc, List.cons_append, List.cons_append, List.nil_append, shortPart, behind]
    · rfl
    · exact differs
  | case5 tail empty _ slash =>
    obtain ⟨rfl, rfl⟩ := StringPart.closed.inj closed
    rw [List.cons_append, shortPart_unescaped _ (plain empty slash), if_pos rfl]
    rfl
  | case7 c tail empty _ slash differs unbroken ih =>
    obtain ⟨later, found, rfl⟩ := StringPart.after_eq_closed closed
    have behind := ih found
    rw [List.append_assoc, List.cons_append, shortPart_unescaped _ (plain empty slash), if_neg differs,
      if_neg unbroken, List.nil_append, behind]
    rfl

/-- A literal between triple marks holds its closing marks. -/
theorem longPart_length {quote : Char} {escaped : Bool} {text taken rest : List Char}
    (closed : longPart quote escaped text = .closed taken rest) : 3 ≤ taken.length := by
  induction text generalizing escaped taken with
  | nil => simp [longPart] at closed
  | cons c tail ih =>
    rw [longPart] at closed
    split at closed
    · obtain ⟨rfl, -⟩ := StringPart.closed.inj closed
      exact Nat.le_refl 3
    · obtain ⟨later, found, rfl⟩ := StringPart.after_eq_closed closed
      exact Nat.le_succ_of_le (ih found)

/-- A literal between triple marks ends at its marks, whatever is behind it. -/
theorem longPart_behind {quote : Char} {escaped : Bool} {text taken rest : List Char}
    (closed : longPart quote escaped text = .closed taken rest) (other : List Char) :
    longPart quote escaped (taken ++ other) = .closed taken other := by
  induction text generalizing escaped taken with
  | nil => simp [longPart] at closed
  | cons c tail ih =>
    rw [longPart] at closed
    split at closed
    · rename_i marks
      obtain ⟨rfl, -⟩ := StringPart.closed.inj closed
      rw [Bool.and_eq_true] at marks
      rw [List.cons_append, longPart, marks.1]
      simp
    · rename_i open_
      obtain ⟨later, found, rfl⟩ := StringPart.after_eq_closed closed
      -- The marks are looked for in three characters, which the literal holds.
      have long := longPart_length found
      have whole := longPart_closed found
      obtain ⟨d, e, more, rfl⟩ : ∃ d e more, later = d :: e :: more := by
        rcases later with - | ⟨d, - | ⟨e, more⟩⟩
        · simp at long
        · simp at long
        · exact ⟨d, e, more, rfl⟩
      have same : ([quote, quote, quote].isPrefixOf (c :: (d :: e :: more ++ other))) =
          [quote, quote, quote].isPrefixOf (c :: tail) := by
        rw [← whole]
        simp [List.isPrefixOf]
      have behind := ih found
      rw [List.append_assoc, List.cons_append, List.nil_append, longPart, same, if_neg open_, behind]
      rfl

end Lexeme

end Offside
