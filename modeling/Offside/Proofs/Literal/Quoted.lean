import Offside.Layout
import Offside.Proofs.Literal.Pieces

/-!
# Quoted values are literals

The quoted form of a text or of a byte list is a literal of that value
(`decodeString_quoteText`, `decodeString_quoteBytes`), and the scanner finds it whole where it
stands in a line (`scanString_pieces`).
-/
namespace Offside

open Text Lexeme

namespace Literal

/-- The marks that the reader of a quoted text takes on each side. -/
def separator (quoted : List Char) : List Char :=
  match quoted with
  | [] => []
  | quote :: _ =>
    let triple := [quote, quote, quote]
    if 6 ≤ encodedSize quoted && triple.isPrefixOf quoted then triple else [quote]

/-- The number of bytes is no less than the number of characters. -/
theorem length_le_encodedSize (text : List Char) : text.length ≤ encodedSize text := by
  induction text with
  | nil => exact Nat.le_refl 0
  | cons c text ih =>
    have positive := Char.utf8Size_pos c
    rw [List.length_cons, encodedSize]
    omega

/-- What stands in a quoted text between the marks that the reader takes is found. -/
theorem unquote?_of_separator {quoted marks body : List Char} (taken : separator quoted = marks)
    (whole : quoted = marks ++ (body ++ marks)) (nonempty : quoted ≠ []) :
    unquote? quoted = some body := by
  have size : quoted.length = 2 * marks.length + body.length := by
    rw [whole, List.length_append, List.length_append]
    omega
  have long : ¬encodedSize quoted < 2 * marks.length := by
    have bound := length_le_encodedSize quoted
    omega
  have closing : marks.isSuffixOf quoted = true := by
    rw [List.isSuffixOf_iff_suffix, whole, ← List.append_assoc]
    exact List.suffix_append _ _
  have inside : (quoted.drop marks.length).take (quoted.length - 2 * marks.length) = body := by
    have rest : quoted.length - 2 * marks.length = body.length := by omega
    rw [rest, whole, List.drop_left, List.take_left]
  cases quoted with
  | nil => contradiction
  | cons quote rest =>
    rw [separator] at taken
    simp only [unquote?, taken, long, closing, inside, decide_false, Bool.not_true, Bool.or_self,
      Bool.false_eq_true, if_false]

variable {α : Type} {alphabet : Alphabet α} {quote : Char} {piece : α → List Char}

/-- Between the marks of a quoted value stand its pieces. -/
theorem unquote?_pieces (mark : isQuote quote = true)
    (written : ∀ unit, Piece alphabet quote unit (piece unit)) (units : List α) :
    unquote? (quote :: (units.flatMap piece ++ [quote])) = some (units.flatMap piece) := by
  have single : [quote, quote].isPrefixOf (units.flatMap piece ++ [quote]) = false :=
    not_marks_pieces mark written units (by simp)
  have taken : separator (quote :: (units.flatMap piece ++ [quote])) = [quote] := by
    simp [separator, List.isPrefixOf, single]
  exact unquote?_of_separator taken rfl (List.cons_ne_nil _ _)

/-- The quoted form of a text is a literal of the text. -/
theorem decodeString_quoteText (text : String) :
    decodeString (quoteText text) = .ok (.text text) := by
  obtain ⟨quote, mark, form⟩ := quoteChars_eq text.toList
  rw [decodeString, quoteText, String.toList_ofList, form, readQuoted]
  rw [List.takeWhile_cons_of_neg (by simp [mark]), List.dropWhile_cons_of_neg (by simp [mark]),
    unquote?_pieces mark (escapeChar_piece mark)]
  show (readBody textAlphabet 0 (text.toList.flatMap (escapeChar quote))).map
    (fun units => Quoted.text (String.ofList units)) = _
  rw [readBody_pieces (escapeChar_piece mark)]
  show Except.ok (Quoted.text (String.ofList text.toList)) = _
  rw [String.ofList_toList]

/-- The quoted form of a byte list is a literal of the byte list. -/
theorem decodeString_quoteBytes (bytes : List UInt8) :
    decodeString (quoteBytes bytes) = .ok (.bytes bytes) := by
  obtain ⟨quote, mark, form⟩ := quoteByteChars_eq bytes
  rw [decodeString, quoteBytes, String.toList_ofList, form, readQuoted]
  rw [List.takeWhile_cons_of_pos (by decide), List.takeWhile_cons_of_neg (by simp [mark]),
    List.dropWhile_cons_of_pos (by decide), List.dropWhile_cons_of_neg (by simp [mark]),
    unquote?_pieces mark (escapeByte_piece mark)]
  show (readBody byteAlphabet 0 (bytes.flatMap (escapeByte quote))).map Quoted.bytes = _
  rw [readBody_pieces (escapeByte_piece mark)]
  rfl

/-- The scanner finds a quoted value whole. -/
theorem scanString_pieces (mark : isQuote quote = true)
    (written : ∀ unit, Piece alphabet quote unit (piece unit)) (units : List α) (line : Line)
    (below : List Line) {rest : List Char} (other : rest.head? ≠ some quote) :
    scanString ⟨line, quote :: (units.flatMap piece ++ quote :: rest), below⟩ =
      .ok (quote :: (units.flatMap piece ++ [quote]), ⟨line, rest, below⟩) := by
  have short := not_marks_pieces mark written units other
  have closed := shortPart_pieces mark written units rest
  exact scanString_eq_ok_iff.2 (.single rfl (by simp [short]) (.here closed))

end Literal

end Offside
