import Offside.Proofs.Expression.Decimal
import Offside.Proofs.Expression.RoundTrip
import Offside.Proofs.Grammar.Whole
import Offside.Proofs.Layout.Fronts
import Offside.Proofs.Literal.NumeralLexeme
import Offside.Proofs.Literal.Quoted

/-!
# Literals read back

The quoted form of a text or of a byte list and the digits of an integer are texts of one lexeme
each, and such a text is parsed as the value that the lexeme is decoded to
(`parse_written_literal`).
-/
namespace Offside

open Text Lexeme Literal Parse

section Lexemes

/-- What is inside a quoted value has no line feed. -/
theorem Literal.Piece.unbroken {α : Type} {alphabet : Alphabet α} {quote : Char} {unit : α}
    {piece : List Char} (written : Piece alphabet quote unit piece) : '\n' ∉ piece := by
  cases written with
  | plain passes _ => simpa using Ne.symm passes.2.2
  | escape unbroken passes _ =>
    rw [List.mem_cons, List.mem_cons, not_or, not_or]
    exact ⟨by decide, Ne.symm unbroken, fun member => (passes _ member).2.2 rfl⟩

/-- A quoted value has no line feed. -/
theorem Literal.unbroken_pieces {α : Type} {alphabet : Alphabet α} {quote : Char}
    {piece : α → List Char} (mark : isQuote quote = true)
    (written : ∀ unit, Piece alphabet quote unit (piece unit)) (units : List α) :
    '\n' ∉ quote :: (units.flatMap piece ++ [quote]) := by
  have other : '\n' ≠ quote := by
    rintro rfl
    exact absurd mark (by decide)
  intro member
  rw [List.mem_cons, List.mem_append, List.mem_flatMap, List.mem_singleton] at member
  rcases member with first | ⟨unit, -, inside⟩ | last
  · exact other first
  · exact (written unit).unbroken inside
  · exact other last

/-- A quotation mark is no white space, and it is none of a name. -/
theorem plain_of_isQuote {quote : Char} (mark : isQuote quote = true) :
    startsLogical quote = true ∧ isNamePart quote = false := by
  rw [isQuote, Bool.or_eq_true, beq_iff_eq, beq_iff_eq] at mark
  rcases mark with rfl | rfl <;> decide

/-- The quoted form of a text is one lexeme. -/
theorem isLexeme_quoteText (text : String) : IsLexeme .string (quoteText text) := by
  obtain ⟨quote, mark, form⟩ := quoteChars_eq text.toList
  have chars : (quoteText text).toList =
      quote :: (text.toList.flatMap (escapeChar quote) ++ [quote]) := by
    rw [quoteText, String.toList_ofList, form]
  refine ⟨?_, ?_, fun line => ?_⟩
  · rw [chars]
    exact unbroken_pieces mark (escapeChar_piece mark) _
  · rw [chars]
    exact (plain_of_isQuote mark).1
  · have other : (['\n'] : List Char).head? ≠ some quote := by
      rintro ⟨⟩
      exact absurd mark (by decide)
    have scanned := scanString_pieces mark (escapeChar_piece mark) text.toList line [] other
    rw [chars, List.cons_append, List.append_assoc]
    exact Cursor.step_quoted mark scanned

/-- The quoted form of a byte list is one lexeme. -/
theorem isLexeme_quoteBytes (bytes : List UInt8) : IsLexeme .string (quoteBytes bytes) := by
  obtain ⟨quote, mark, form⟩ := quoteByteChars_eq bytes
  have chars : (quoteBytes bytes).toList =
      'b' :: quote :: (bytes.flatMap (escapeByte quote) ++ [quote]) := by
    rw [quoteBytes, String.toList_ofList, form]
  refine ⟨?_, ?_, fun line => ?_⟩
  · have unbroken := unbroken_pieces mark (escapeByte_piece mark) bytes
    rw [chars, List.mem_cons, not_or]
    exact ⟨by decide, unbroken⟩
  · rw [chars]
    rfl
  · have other : (['\n'] : List Char).head? ≠ some quote := by
      rintro ⟨⟩
      exact absurd mark (by decide)
    have scanned := scanString_pieces mark (escapeByte_piece mark) bytes line [] other
    have front : IsWord ['b'] (quote :: (bytes.flatMap (escapeByte quote) ++ quote :: ['\n'])) :=
      ⟨rfl, List.all_eq_true.1 rfl, by simpa using (plain_of_isQuote mark).2⟩
    rw [chars, List.cons_append, List.cons_append, List.append_assoc]
    exact Cursor.step_marked front mark (by decide) scanned

/-- The decimal digits of a number are one lexeme. -/
theorem isLexeme_digits (value : Nat) :
    IsLexeme .number (String.ofList (decimalDigits value)) := by
  have decimal : ∀ c ∈ Nat.toDigits 10 value, c.isDigit = true := fun c member =>
    Nat.isDigit_of_mem_toDigits (by decide) (by decide) member
  have some_ : Nat.toDigits 10 value ≠ [] := Nat.toDigits_ne_nil
  have chars : (String.ofList (decimalDigits value)).toList = Nat.toDigits 10 value :=
    String.toList_ofList
  have starts : startsNumber (String.ofList (decimalDigits value)).toList = true := by
    rw [chars]
    obtain ⟨c, rest, front⟩ := List.exists_cons_of_ne_nil some_
    rw [front] at decimal ⊢
    exact startsNumber_of_isDigit (decimal c List.mem_cons_self)
  have decoded : decodeNumber (String.ofList (decimalDigits value)) = .ok (.ofNat value) := by
    rw [decodeNumber_ok_iff, chars]
    exact readNumber?_toDigits value
  have small : 'J' ∉ (String.ofList (decimalDigits value)).toList := by
    rw [chars]
    exact not_mem_toDigits (by decide) value
  exact isLexeme_numeral starts ((decodeNumber_kind starts _).1 ⟨_, decoded, rfl⟩) small

end Lexemes

/-- A text of one lexeme is parsed as the literal that is read from its token. -/
theorem parse_lexeme {kind : Kind} {text : String} {expr : Expr} (rule : PrefixRule)
    (lexeme : IsLexeme kind text) (literal : kind = .string ∨ kind = .number)
    (starts : Token.prefixRule ⟨kind, text, 0, ""⟩ = rule)
    (read : ∀ inner rest, (rule.parse inner).Gives (⟨kind, text, 0, ""⟩ :: rest) (.plain expr) rest)
    (file : Option String) : parse text file .eval = .ok (.expression expr) := by
  have ends : IsEnding [⟨.newline, "", 1, text ++ "\n"⟩, .endMarker 1] := .lineEnd rfl (.last rfl)
  have significant : ([⟨kind, text, 1, text ++ "\n"⟩, ⟨.newline, "", 1, text ++ "\n"⟩,
      .endMarker 1] : List Token).filter Token.isSignificant =
      [⟨kind, text, 1, text ++ "\n"⟩, ⟨.newline, "", 1, text ++ "\n"⟩, .endMarker 1] := by
    rcases literal with rfl | rfl <;> rfl
  have opens : Token.Opens ⟨kind, text, 0, ""⟩ := by
    rcases literal with rfl | rfl <;> exact ⟨rfl, rfl⟩
  have operand : Yields 0 [⟨kind, text, 0, ""⟩, ⟨.newline, "", 0, ""⟩, ⟨.endMarker, "", 0, ""⟩]
      (.plain expr) [⟨.newline, "", 0, ""⟩, ⟨.endMarker, "", 0, ""⟩] :=
    .start starts (fun _ _ => read _ _) (Nat.le_refl _) (.stop (Nat.le_of_eq rfl))
  have whole : (Inner.run wholeExpression).Gives
      [⟨kind, text, 0, ""⟩, ⟨.newline, "", 0, ""⟩, ⟨.endMarker, "", 0, ""⟩] expr [] := by
    refine .run fun depth deep => ?_
    rw [wholeExpression_eq]
    refine .bind (operand.expr (by decide) opens deep).2 fun shorter => ?_
    exact ends.gives expr (Nat.lt_of_le_of_lt shorter deep)
  have read : (parseRoot .eval).Gives
      ((List.filter Token.isSignificant [⟨kind, text, 1, text ++ "\n"⟩,
        ⟨.newline, "", 1, text ++ "\n"⟩, .endMarker 1]).map Token.bare) (.expression expr) [] := by
    rw [significant]
    exact .bind whole fun _ => .pure _ _
  exact parse_of_gives (tokenize_lexeme lexeme file) read

/-- A string literal is parsed as the value that it is decoded to. -/
theorem parse_string {text : String} {value : Quoted} (lexeme : IsLexeme .string text)
    (decoded : decodeString text = .ok value) (file : Option String) :
    parse text file .eval = .ok (.expression value.expr) := by
  refine parse_lexeme .string lexeme (.inl rfl) rfl (fun _ rest => ?_) file
  show stringRule.Gives _ _ _
  refine .current_bind fun found same => ?_
  rw [Token.value_of_bare same]
  show (lift (decodeString text) >>= _ : Parse Parsed).Gives _ _ _
  rw [decoded]
  exact .bind (.pure _ _) fun _ => .advance_bind fun _ _ => .pure _ rest

/-- A number literal is parsed as the value that it is decoded to. -/
theorem parse_number {text : String} {value : Number} (lexeme : IsLexeme .number text)
    (decoded : decodeNumber text = .ok value) (file : Option String) :
    parse text file .eval = .ok (.expression (.num value)) := by
  refine parse_lexeme .number lexeme (.inr rfl) rfl (fun _ rest => ?_) file
  show numberRule.Gives _ _ _
  refine .current_bind fun found same => ?_
  rw [Token.value_of_bare same]
  show (lift (decodeNumber text) >>= _ : Parse Parsed).Gives _ _ _
  rw [decoded]
  exact .bind (.pure _ _) fun _ => .advance_bind fun _ _ => .pure _ rest

/-- The decimal digits of a number that does not fit in a word are a literal of these digits. -/
theorem decodeNumber_decimalDigits {value : Nat} (great : wordLimit ≤ value) :
    decodeNumber (String.ofList (decimalDigits value)) =
      .ok (.big (String.ofList (decimalDigits value))) := by
  have wide : Narrow.ofInt? value = none := by
    unfold Narrow.ofInt?
    split
    · rename_i fits
      exact absurd fits.2 (Int.not_lt.2 great)
    · rfl
  rw [decodeNumber, String.toList_ofList, decimalDigits, readNumber?_toDigits, ofNat_eq_elim]
  dsimp only
  rw [wide]
  rfl

/-- What writes a value is parsed as that value, for every text, every byte list and every integer
that is not negative: a word, or the decimal digits of one that does not fit in a word. -/
theorem parse_written_literal (file : Option String) :
    (∀ text : String,
      parse (quoteText text) file .eval = .ok (.expression (.str text))) ∧
    (∀ bytes : List UInt8,
      parse (quoteBytes bytes) file .eval = .ok (.expression (.bytes bytes))) ∧
    (∀ word : Narrow, 0 ≤ word.value →
      parse (Number.int word).text file .eval = .ok (.expression (.num (.int word)))) ∧
    ∀ (value : Nat) (digits : String), wordLimit ≤ value →
      digits = String.ofList (decimalDigits value) →
      parse (Number.big digits).text file .eval = .ok (.expression (.num (.big digits))) := by
  refine ⟨fun text => ?_, fun bytes => ?_, fun word positive => ?_, ?_⟩
  · exact parse_string (isLexeme_quoteText text) (decodeString_quoteText text) file
  · exact parse_string (isLexeme_quoteBytes bytes) (decodeString_quoteBytes bytes) file
  · have unsigned : ¬word.value < 0 := Int.not_lt.2 positive
    have written : (Number.int word).text = String.ofList (decimalDigits word.value.natAbs) := by
      show decimalText word.value = _
      rw [decimalText, if_neg unsigned]
    have decoded : decodeNumber (Number.int word).text = .ok (.int word) :=
      decodeNumber_decimalText positive
    rw [written] at decoded ⊢
    exact parse_number (isLexeme_digits _) decoded file
  · rintro value digits great rfl
    exact parse_number (isLexeme_digits value) (decodeNumber_decimalDigits great) file

/-- A text with both quotation marks and a control character, a word, and the least number that is
none. -/
theorem parse_written_literal_of_marks :
    parse (quoteText "a'\"\x7f") none .eval = .ok (.expression (.str "a'\"\x7f")) ∧
    parse (Number.int ⟨12, by decide, by decide⟩).text none .eval =
      .ok (.expression (.num (.int ⟨12, by decide, by decide⟩))) ∧
    parse (Number.big "170141183460469231731687303715884105728").text none .eval =
      .ok (.expression (.num (.big "170141183460469231731687303715884105728"))) := by
  obtain ⟨texts, -, words, digits⟩ := parse_written_literal none
  refine ⟨texts _, words _ (by decide), digits 170141183460469231731687303715884105728 _ ?_ ?_⟩
  · decide
  · rfl

end Offside
