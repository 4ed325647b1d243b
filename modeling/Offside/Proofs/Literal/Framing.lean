import Offside.Proofs.Layout.Literals
import Offside.Proofs.Literal.Quoted

/-!
# Literals are framed alike

The scanner delimits a string literal as it meets the marks, and the reader of its value finds them
again in the text of the token alone. Both find the same letters, the same separator and the same
body (`Quotation.Closed.frames`), since no literal between single marks starts with three of them.
So the reader never misses the closing marks, and it can only fail at an escape in the body
(`decodeString_frames`).
-/
namespace Offside

open Text Lexeme

namespace Literal

/-- The value of a body behind letters, as it is written if r is one of them. -/
def readBetween (letters body : List Char) : Except Cause Quoted :=
  let isBytes := letters.any fun c => c == 'b' || c == 'B'
  let isRaw := letters.any fun c => c == 'r' || c == 'R'
  if isRaw then
    if isBytes then .ok (.bytes (body.flatMap String.utf8EncodeChar))
    else .ok (.text (String.ofList body))
  else if isBytes then (readBody byteAlphabet 0 body).map .bytes
  else (readBody textAlphabet 0 body).map fun units => .text (String.ofList units)

/-- The reader of a literal finds the parts of a quotation in its text. -/
structure Frames (quotation : Quotation) : Prop where
  /-- The letters stand before the first mark. -/
  letters : quotation.text.takeWhile (fun c => !isQuote c) = quotation.letters
  /-- The quoted text starts there. -/
  quoted : quotation.text.dropWhile (fun c => !isQuote c) = quotation.quoted
  /-- Its marks are the separator. -/
  separator : separator quotation.quoted = quotation.marks
  /-- The body stands between them. -/
  body : unquote? quotation.quoted = some quotation.body

/-- A reading that fails does so at an escape that stands in the text. -/
def FailsAtEscape {α : Type} (text : List Char) (read : Except Cause α) : Prop :=
  ∀ cause, read = .error cause →
    ∃ sequence : String, cause = .invalidEscape sequence ∧ sequence.toList <:+: text

namespace FailsAtEscape

variable {α β : Type} {text whole : List Char} {read : Except Cause α}

/-- A value is no failure. -/
theorem ok (value : α) : FailsAtEscape text (.ok value : Except Cause α) := by
  intro cause failed
  contradiction

/-- An escape that stands in a text stands in a longer one. -/
theorem within (fails : FailsAtEscape text read) (inside : text <:+: whole) :
    FailsAtEscape whole read := by
  intro cause failed
  obtain ⟨sequence, same, part⟩ := fails cause failed
  exact ⟨sequence, same, part.trans inside⟩

/-- A reading in two steps fails at an escape if both do. -/
theorem bind {next : α → Except Cause β} (first : FailsAtEscape text read)
    (second : ∀ value, FailsAtEscape text (next value)) : FailsAtEscape text (read >>= next) := by
  cases read with
  | error cause =>
    rintro _ ⟨⟩
    exact first cause rfl
  | ok value => exact second value

/-- What is done to the value does not fail. -/
theorem map (fails : FailsAtEscape text read) (f : α → β) : FailsAtEscape text (read.map f) := by
  cases read with
  | error cause =>
    rintro _ ⟨⟩
    exact fails cause rfl
  | ok value => exact ok (f value)

end FailsAtEscape

section Escapes

variable {α : Type} (alphabet : Alphabet α)

/-- A code that is no unit is shown as a sequence of the text. -/
theorem codeEscape_fails (code size : Nat) {sequence text : List Char}
    (inside : sequence <:+: text) :
    FailsAtEscape text (codeEscape alphabet code size sequence) := by
  unfold codeEscape
  cases alphabet.code code with
  | some unit => exact .ok _
  | none =>
    rintro cause ⟨⟩
    exact ⟨String.ofList sequence, rfl, by rwa [String.toList_ofList]⟩

/-- Digits that are missing are shown with the ones that are there. -/
theorem hexEscape_fails (width : Nat) (letter : Char) (rest : List Char) :
    FailsAtEscape ('\\' :: letter :: rest) (hexEscape alphabet width letter rest) := by
  have inside : '\\' :: letter :: rest.take width <:+: '\\' :: letter :: rest := by
    have shorter : rest.take width <+: rest := List.take_prefix width rest
    exact ((List.prefix_append_right_inj ['\\', letter]).2 shorter).isInfix
  unfold hexEscape
  dsimp only
  split
  · exact codeEscape_fails alphabet _ _ inside
  · rintro cause ⟨⟩
    exact ⟨_, rfl, by rwa [String.toList_ofList]⟩

/-- An escape that is wrong is shown from its backslash on. -/
theorem readEscape_fails (rest : List Char) :
    FailsAtEscape ('\\' :: rest) (readEscape alphabet rest) := by
  cases rest with
  | nil => exact .ok _
  | cons letter rest =>
    rw [readEscape]
    split
    · apply codeEscape_fails
      have digits := List.takeWhile_prefix (l := (letter :: rest).take 3) isOctalDigit
      have shorter := digits.trans (List.take_prefix 3 (letter :: rest))
      exact ((List.prefix_append_right_inj ['\\']).2 shorter).isInfix
    · cases escapeWidth? alphabet.wide letter with
      | some width => exact hexEscape_fails alphabet width letter rest
      | none =>
        dsimp only
        split
        · exact .ok _
        · cases simpleEscape? letter <;> exact .ok _

/-- A body can only fail at one of its escapes. -/
theorem readBody_fails (covered : Nat) (body : List Char) :
    FailsAtEscape body (readBody alphabet covered body) := by
  induction body generalizing covered with
  | nil =>
    cases covered <;> exact .ok _
  | cons c rest ih =>
    have behind : rest <:+: c :: rest := (List.suffix_cons c rest).isInfix
    cases covered with
    | succ covered => exact (ih covered).within behind
    | zero =>
      rw [readBody]
      split
      · rename_i escape
        rw [escape]
        apply (readEscape_fails alphabet rest).bind
        intro found
        apply ((ih found.2).within (escape ▸ behind)).bind
        intro later
        exact .ok _
      · apply ((ih 0).within behind).bind
        intro later
        exact .ok _

/-- The value of a body can only fail at one of its escapes. -/
theorem readBetween_fails (letters body : List Char) :
    FailsAtEscape body (readBetween letters body) := by
  unfold readBetween
  dsimp only
  split
  · split <;> exact .ok _
  · split
    · exact (readBody_fails byteAlphabet 0 body).map _
    · exact (readBody_fails textAlphabet 0 body).map _

end Escapes

/-- The value of a literal that is framed is the value of its body behind its letters. -/
theorem Frames.readQuoted {quotation : Quotation} (frames : Frames quotation) :
    readQuoted quotation.text = readBetween quotation.letters quotation.body := by
  rw [Literal.readQuoted, frames.letters, frames.quoted, frames.body]
  rfl

end Literal

open Literal

namespace Quotation

/-- Between marks stands a quoted text. -/
theorem quoted_ne_nil (quotation : Quotation) : quotation.quoted ≠ [] := by
  cases quotation with
  | mk letters quote triple body => cases triple <;> exact List.cons_ne_nil _ _

/-- The quoted text starts with the quotation mark. -/
theorem head?_quoted (quotation : Quotation) :
    quotation.quoted.head? = some quotation.quote := by
  cases quotation with
  | mk letters quote triple body => cases triple <;> rfl

variable {quotation : Quotation}

/-- No quotation mark stands among the letters of a literal. -/
theorem Closed.letters_unmarked (closed : quotation.Closed) :
    ∀ c ∈ quotation.letters, (!isQuote c) = true := by
  rcases closed.lettered with none | lettered
  · simp [none]
  · have unmarked : stringMarks.all (fun letters => letters.all fun c => !isQuote c) = true := rfl
    exact List.all_eq_true.1 (List.all_eq_true.1 unmarked _ (List.contains_iff_mem.1 lettered))

/-- The letter b before a literal is small. -/
theorem Closed.letters_small (closed : quotation.Closed) : 'B' ∉ quotation.letters := by
  rcases closed.lettered with none | lettered
  · simp [none]
  · have small : ∀ letters ∈ stringMarks, 'B' ∉ letters := by decide
    exact small _ (List.contains_iff_mem.1 lettered)

/-- The reader takes the marks that the scanner took. Triple marks on both sides are six bytes, and
a literal between single marks does not start with three. -/
theorem Closed.separator_eq (closed : quotation.Closed) :
    separator quotation.quoted = quotation.marks := by
  have tripled := closed.tripled
  have first := quotation.head?_quoted
  cases whole : quotation.quoted with
  | nil => exact absurd whole quotation.quoted_ne_nil
  | cons quote rest =>
    rw [whole] at tripled first
    obtain rfl : quote = quotation.quote := Option.some.inj first
    rw [separator]
    cases triple : quotation.triple with
    | false =>
      have unmarked : [quotation.quote, quotation.quote, quotation.quote].isPrefixOf
          (quotation.quote :: rest) = false := by
        rw [← Bool.not_eq_true, List.isPrefixOf_iff_prefix]
        intro marks
        have taken := tripled.2 marks
        rw [triple] at taken
        contradiction
      have marks : quotation.marks = [quotation.quote] := by
        rw [Quotation.marks, triple]
        rfl
      rw [marks]
      simp [unmarked]
    | true =>
      have marks : quotation.marks = [quotation.quote, quotation.quote, quotation.quote] := by
        rw [Quotation.marks, triple]
        rfl
      have long : 6 ≤ encodedSize (quotation.quote :: rest) := by
        have size := length_le_encodedSize (quotation.quote :: rest)
        have length : (quotation.quote :: rest).length = 6 + quotation.body.length := by
          rw [← whole, quoted, marks]
          simp only [List.length_append, List.length_cons, List.length_nil]
          omega
        omega
      have marked : [quotation.quote, quotation.quote, quotation.quote].isPrefixOf
          (quotation.quote :: rest) = true :=
        List.isPrefixOf_iff_prefix.2 (tripled.1 triple)
      rw [marks]
      simp [long, marked]

/-- A search for a quotation mark ends in front of the quoted text. -/
theorem Closed.quoted_marked (closed : quotation.Closed) :
    quotation.quoted.takeWhile (fun c => !isQuote c) = [] ∧
      quotation.quoted.dropWhile (fun c => !isQuote c) = quotation.quoted := by
  have first := quotation.head?_quoted
  have mark := closed.quotes
  cases whole : quotation.quoted with
  | nil => exact absurd whole quotation.quoted_ne_nil
  | cons quote rest =>
    rw [whole] at first
    obtain rfl : quote = quotation.quote := Option.some.inj first
    have stops : ¬(!isQuote quotation.quote) = true := by simp [mark]
    exact ⟨List.takeWhile_cons_of_neg stops, List.dropWhile_cons_of_neg stops⟩

/-- A literal that ends where its marks say is framed by the reader as it is. -/
theorem Closed.frames (closed : quotation.Closed) : Frames quotation where
  letters := by
    have stops := closed.quoted_marked
    rw [text, List.takeWhile_append_of_pos closed.letters_unmarked, stops.1, List.append_nil]
  quoted := by
    rw [text, List.dropWhile_append_of_pos closed.letters_unmarked, closed.quoted_marked.2]
  separator := closed.separator_eq
  body := unquote?_of_separator closed.separator_eq rfl quotation.quoted_ne_nil

end Quotation

/-- The value of a literal that is marked by r is its body as it is written, and in UTF-8 if the
literal is marked by b as well. -/
theorem Literal.readBetween_raw {quotation : Quotation} (closed : quotation.Closed)
    (raw : 'r' ∈ quotation.letters) :
    readBetween quotation.letters quotation.body =
      .ok (if 'b' ∈ quotation.letters then .bytes (quotation.body.flatMap String.utf8EncodeChar)
        else .text (String.ofList quotation.body)) := by
  have small : 'B' ∉ quotation.letters := closed.letters_small
  have isRaw : (quotation.letters.any fun c => c == 'r' || c == 'R') = true :=
    List.any_eq_true.2 ⟨'r', raw, rfl⟩
  have isBytes : (quotation.letters.any fun c => c == 'b' || c == 'B') =
      decide ('b' ∈ quotation.letters) := by
    rw [Bool.eq_iff_iff, List.any_eq_true, decide_eq_true_iff]
    constructor
    · rintro ⟨c, member, marks⟩
      rw [Bool.or_eq_true, beq_iff_eq, beq_iff_eq] at marks
      rcases marks with rfl | rfl
      · exact member
      · exact absurd member small
    · intro member
      exact ⟨'b', member, rfl⟩
  rw [readBetween]
  simp only [isRaw, isBytes, if_true, decide_eq_true_eq]
  split <;> rfl

/-- Each string token of a source text is framed by the reader of its value as the scanner
delimits it: behind the same letters, between the same marks, around the same body. The reader
never misses the closing marks; it only fails at an escape that stands in the body. What is marked
by r is read as it is written. -/
theorem decodeString_frames (source : String) (file : Option String) :
    ∀ token ∈ (Stream.ofSource source file).tokens, token.kind = .string →
      ∃ (quotation : Quotation) (place next : Cursor), token.value.toList = quotation.text ∧
        quotation.Delimited place next ∧ quotation.Closed ∧ Frames quotation ∧
        FailsAtEscape quotation.body (decodeString token.value) ∧
        ('r' ∈ quotation.letters → decodeString token.value =
          .ok (if 'b' ∈ quotation.letters
            then .bytes (quotation.body.flatMap String.utf8EncodeChar)
            else .text (String.ofList quotation.body))) := by
  intro token member string
  have delimited := holdsOfSteps_isDelimited.ofSource source file token member string
  obtain ⟨quotation, place, next, whole, delimited, closed⟩ := delimited
  have frames := closed.frames
  have decoded : decodeString token.value =
      readBetween quotation.letters quotation.body := by
    rw [decodeString, whole, frames.readQuoted]
  have fails : FailsAtEscape quotation.body (decodeString token.value) := by
    rw [decoded]
    exact readBetween_fails _ _
  have raw (marked : 'r' ∈ quotation.letters) := decoded.trans (readBetween_raw closed marked)
  exact ⟨quotation, place, next, whole, delimited, closed, frames, fails, raw⟩

/-- A raw byte literal over two lines is read as it is written, also two marks in its body. -/
theorem decodeString_frames_of_lines :
    let token : Token :=
      ⟨.string, "rb'''\\x\n'' é'''", 1, "rb'''\\x\n"⟩
    token ∈ (Stream.ofSource "rb'''\\x\n'' é'''" none).tokens ∧ token.kind = .string ∧
      ∃ quotation : Quotation, token.value.toList = quotation.text ∧
        'r' ∈ quotation.letters ∧ decodeString token.value =
          .ok (.bytes (quotation.body.flatMap String.utf8EncodeChar)) := by
  intro token
  have scanned : token ∈ (Stream.ofSource "rb'''\\x\n'' é'''" none).tokens := by
    decide +kernel
  obtain ⟨quotation, -, -, whole, -, -, frames, -, raw⟩ :=
    decodeString_frames _ none token scanned rfl
  have letters : quotation.letters = ['r', 'b'] := by
    rw [← frames.letters, ← whole]
    decide +kernel
  have marked : 'r' ∈ quotation.letters := by simp [letters]
  have isBytes : 'b' ∈ quotation.letters := by simp [letters]
  have decoded := raw marked
  rw [if_pos isBytes] at decoded
  exact ⟨scanned, rfl, quotation, whole, marked, decoded⟩

end Offside
