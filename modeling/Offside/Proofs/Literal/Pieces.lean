import Mathlib.Algebra.Group.Nat.Defs
import Mathlib.Tactic.SplitIfs
import Offside.Lexeme
import Offside.Literal.Text
import Offside.Text.Quoted

/-!
# Pieces of quoted values

Between its marks the quoted form of a value is made of pieces, one for each unit of the value: a
character, or an escape that writes the unit whatever stands behind it (`Piece`). A piece is taken
whole by the scanner of literals, it is read back as its unit, and no two pieces of different units
start alike. What holds of a piece is carried over to all units of a value by induction on them
(`shortPart_pieces`, `readBody_pieces`, `pieces_unambiguous`).
-/
namespace Offside.Literal

open Text Lexeme

section Digits

/-- A digit is read as the number that it is written for. -/
theorem digitValue?_digitChar :
    ∀ value < 16, digitValue? 16 (Nat.digitChar value) = some value := by
  decide

/-- There are as many hexadecimal digits as the width says. -/
@[simp] theorem length_hexDigits (width value : Nat) : (hexDigits width value).length = width := by
  induction width generalizing value with
  | zero => rfl
  | succ width ih => rw [hexDigits, List.length_append, ih, List.length_singleton]

/-- Hexadecimal digits are written in digits of the radix sixteen. -/
theorem isDigitOf_of_mem_hexDigits {width value : Nat} {c : Char}
    (member : c ∈ hexDigits width value) : isDigitOf 16 c = true := by
  induction width generalizing value with
  | zero => simp [hexDigits] at member
  | succ width ih =>
    rw [hexDigits, List.mem_append, List.mem_singleton] at member
    rcases member with earlier | rfl
    · exact ih earlier
    · have small : value % 16 < 16 := Nat.mod_lt value (by decide)
      rw [isDigitOf, digitValue?_digitChar _ small]
      rfl

/-- Hexadecimal digits are read as the number that they are written for, if it has no more. -/
theorem readDigits_hexDigits {width value : Nat} (fits : value < 16 ^ width) :
    readDigits 16 (hexDigits width value) = value := by
  induction width generalizing value with
  | zero =>
    rw [Nat.pow_zero] at fits
    have zero : value = 0 := by omega
    rw [zero]
    rfl
  | succ width ih =>
    have small : value % 16 < 16 := Nat.mod_lt value (by decide)
    have above : value / 16 < 16 ^ width := by
      rw [Nat.pow_succ] at fits
      omega
    have earlier := ih above
    rw [readDigits] at earlier
    rw [readDigits, hexDigits, List.foldl_append, earlier, List.foldl_cons, List.foldl_nil,
      digitValue?_digitChar _ small, Option.getD_some]
    omega

end Digits

end Offside.Literal

namespace Offside.Lexeme

open Text

/-- A character that stands for itself between two marks: it neither escapes, nor closes, nor ends
the line. -/
def Passes (quote c : Char) : Prop := c ≠ '\\' ∧ c ≠ quote ∧ c ≠ '\n'

/-- A digit stands for itself between two marks. -/
theorem passes_of_isDigitOf {quote c : Char} (mark : isQuote quote = true)
    (digit : isDigitOf 16 c = true) : Passes quote c := by
  have slash : isDigitOf 16 '\\' = false := by decide
  have feed : isDigitOf 16 '\n' = false := by decide
  have single : isDigitOf 16 '\'' = false := by decide
  have double : isDigitOf 16 '"' = false := by decide
  rw [isQuote, Bool.or_eq_true, beq_iff_eq, beq_iff_eq] at mark
  refine ⟨?_, ?_, ?_⟩
  · rintro rfl
    rw [digit] at slash
    contradiction
  · rintro rfl
    rcases mark with rfl | rfl
    · rw [digit] at double
      contradiction
    · rw [digit] at single
      contradiction
  · rintro rfl
    rw [digit] at feed
    contradiction

/-- A character that stands for itself is taken into a literal. -/
theorem shortPart_cons {quote c : Char} (passes : Passes quote c) (rest : List Char) :
    shortPart quote (c :: rest) = (shortPart quote rest).after [c] := by
  rw [shortPart, if_neg passes.2.1, if_neg passes.2.2]
  all_goals simp [passes.1]

/-- A backslash and the letter behind it are taken into a literal. -/
theorem shortPart_escape {quote letter : Char} (unbroken : letter ≠ '\n') (rest : List Char) :
    shortPart quote ('\\' :: letter :: rest) = (shortPart quote rest).after ['\\', letter] := by
  rw [shortPart]
  exact unbroken

/-- The mark closes a literal. -/
theorem shortPart_mark {quote : Char} (mark : isQuote quote = true) (rest : List Char) :
    shortPart quote (quote :: rest) = .closed [quote] rest := by
  have slash : quote ≠ '\\' := by
    rintro rfl
    exact absurd mark (by decide)
  rw [shortPart, if_pos rfl]
  all_goals simp [slash]

/-- Nothing is taken in front of a part. -/
theorem StringPart.after_nil (part : StringPart) : part.after [] = part := by
  cases part <;> rfl

/-- What is taken in front of a part is taken in two turns. -/
theorem StringPart.after_append (part : StringPart) (front back : List Char) :
    part.after (front ++ back) = (part.after back).after front := by
  cases part <;> simp [StringPart.after]

/-- Characters that stand for themselves are taken into a literal. -/
theorem shortPart_of_passes {quote : Char} {taken : List Char}
    (passes : ∀ c ∈ taken, Passes quote c) (rest : List Char) :
    shortPart quote (taken ++ rest) = (shortPart quote rest).after taken := by
  induction taken with
  | nil => rw [List.nil_append, StringPart.after_nil]
  | cons c taken ih =>
    have later := ih fun d member => passes d (List.mem_cons_of_mem c member)
    rw [List.cons_append, shortPart_cons (passes c List.mem_cons_self), later,
      ← StringPart.after_append, List.singleton_append]

end Offside.Lexeme

namespace Offside.Literal

open Text Lexeme

variable {α : Type}

/-- The characters between two marks that write one unit: one that stands for itself, or an escape
of a letter and digits that writes the unit whatever stands behind it. -/
inductive Piece (alphabet : Alphabet α) (quote : Char) (unit : α) : List Char → Prop where
  /-- A character that stands for itself. -/
  | plain {c : Char} (passes : Passes quote c) (writes : alphabet.character c = [unit]) :
    Piece alphabet quote unit [c]
  /-- An escape. -/
  | escape {letter : Char} {digits : List Char} (unbroken : letter ≠ '\n')
    (passes : ∀ c ∈ digits, Passes quote c)
    (writes : ∀ rest, readEscape alphabet (letter :: digits ++ rest) =
      .ok ([unit], digits.length + 1)) :
    Piece alphabet quote unit ('\\' :: letter :: digits)

/-- Characters that an escape covers are passed over. -/
theorem readBody_covered (alphabet : Alphabet α) (covered rest : List Char) :
    readBody alphabet covered.length (covered ++ rest) = readBody alphabet 0 rest := by
  induction covered with
  | nil => rfl
  | cons c covered ih =>
    rw [List.length_cons, List.cons_append, readBody]
    exact ih

namespace Piece

variable {alphabet : Alphabet α} {quote : Char} {unit : α} {piece : List Char}

/-- A piece is taken whole into a literal. -/
theorem shortPart_append (written : Piece alphabet quote unit piece) (rest : List Char) :
    shortPart quote (piece ++ rest) = (shortPart quote rest).after piece := by
  cases written with
  | plain passes _ =>
    exact shortPart_of_passes (fun d member => List.mem_singleton.1 member ▸ passes) rest
  | @escape letter digits unbroken passes _ =>
    rw [List.cons_append, List.cons_append, shortPart_escape unbroken,
      shortPart_of_passes passes rest, ← StringPart.after_append]
    rfl

/-- A piece is read back as its unit. -/
theorem readBody_append (written : Piece alphabet quote unit piece) (rest : List Char) :
    readBody alphabet 0 (piece ++ rest) = (readBody alphabet 0 rest).map (unit :: ·) := by
  cases written with
  | plain passes writes =>
    rw [List.singleton_append, readBody, if_neg passes.1, writes]
    cases readBody alphabet 0 rest <;> rfl
  | @escape letter digits _ _ writes =>
    have covered := readBody_covered alphabet (letter :: digits) rest
    rw [List.length_cons] at covered
    rw [List.cons_append, readBody, if_pos rfl, writes]
    show (do
      let later ← readBody alphabet (digits.length + 1) (letter :: digits ++ rest)
      Except.ok ([unit] ++ later)) = _
    rw [covered]
    cases readBody alphabet 0 rest <;> rfl

/-- A piece does not start with the mark. -/
theorem head_ne (written : Piece alphabet quote unit piece) (mark : isQuote quote = true)
    (rest : List Char) : (piece ++ rest).head? ≠ some quote := by
  cases written with
  | plain passes _ =>
    intro same
    exact passes.2.1 (Option.some.inj same)
  | escape =>
    intro same
    rw [← Option.some.inj same] at mark
    exact absurd mark (by decide)

end Piece

section Escapes

/-- An escape of hexadecimal digits writes the unit with their code. -/
theorem readEscape_hexDigits {alphabet : Alphabet α} {letter : Char} {width code : Nat} {unit : α}
    (plain : isOctalDigit letter = false) (wide : escapeWidth? alphabet.wide letter = some width)
    (fits : code < 16 ^ width) (writes : alphabet.code code = some unit) (rest : List Char) :
    readEscape alphabet (letter :: hexDigits width code ++ rest) =
      .ok ([unit], (hexDigits width code).length + 1) := by
  have digits : (hexDigits width code ++ rest).take width = hexDigits width code :=
    List.take_left' (length_hexDigits width code)
  have all : (hexDigits width code).all (isDigitOf 16) = true :=
    List.all_eq_true.2 fun c member => isDigitOf_of_mem_hexDigits member
  rw [List.cons_append, readEscape, if_neg (by simp [plain]), wide]
  show hexEscape alphabet width letter _ = _
  rw [hexEscape, digits, all, length_hexDigits, readDigits_hexDigits fits, codeEscape, writes,
    Nat.add_comm]
  simp

/-- An escape of hexadecimal digits is a piece. -/
theorem Piece.ofHexDigits {alphabet : Alphabet α} {quote letter : Char} {width code : Nat}
    {unit : α} (mark : isQuote quote = true) (plain : isOctalDigit letter = false)
    (wide : escapeWidth? alphabet.wide letter = some width) (fits : code < 16 ^ width)
    (writes : alphabet.code code = some unit) :
    Piece alphabet quote unit ('\\' :: letter :: hexDigits width code) := by
  refine .escape ?_ (fun c member => passes_of_isDigitOf mark (isDigitOf_of_mem_hexDigits member))
    (readEscape_hexDigits plain wide fits writes)
  rintro rfl
  simp [escapeWidth?] at wide

/-- An escape of one letter is a piece. -/
theorem Piece.ofLetter {alphabet : Alphabet α} {quote letter c : Char} {unit : α}
    (plain : isOctalDigit letter = false) (narrow : escapeWidth? alphabet.wide letter = none)
    (unbroken : letter ≠ '\n') (simple : simpleEscape? letter = some c)
    (writes : alphabet.character c = [unit]) : Piece alphabet quote unit ['\\', letter] := by
  refine .escape unbroken (fun d member => absurd member (List.not_mem_nil)) fun rest => ?_
  rw [List.cons_append, readEscape, if_neg (by simp [plain]), narrow]
  show (if letter = '\n' then _ else _) = _
  rw [if_neg unbroken, simple]
  show Except.ok (alphabet.character c, 1) = _
  rw [writes]
  rfl

/-- What is written for a character of a text is a piece. -/
theorem escapeChar_piece {quote : Char} (mark : isQuote quote = true) (c : Char) :
    Piece textAlphabet quote c (escapeChar quote c) := by
  have writes : textAlphabet.code c.toNat = some c := by
    have valid : c.toNat.isValidChar := c.valid
    show characterOfCode? c.toNat = some c
    rw [characterOfCode?, if_pos valid, Char.ofNat_toNat]
  unfold escapeChar escapeCode
  split_ifs with slash feed back tab closing printable small middle
  · subst slash
    exact .ofLetter rfl rfl (by decide) rfl rfl
  · subst feed
    exact .ofLetter rfl rfl (by decide) rfl rfl
  · subst back
    exact .ofLetter rfl rfl (by decide) rfl rfl
  · subst tab
    exact .ofLetter rfl rfl (by decide) rfl rfl
  · subst closing
    rw [isQuote, Bool.or_eq_true, beq_iff_eq, beq_iff_eq] at mark
    rcases mark with rfl | rfl
    · exact .ofLetter rfl rfl (by decide) rfl rfl
    · exact .ofLetter rfl rfl (by decide) rfl rfl
  · exact .plain ⟨slash, closing, feed⟩ rfl
  · exact .ofHexDigits mark rfl rfl small writes
  · exact .ofHexDigits mark rfl rfl middle writes
  · have least : c.toNat < 0x110000 := by
      rcases c.valid with low | high
      · exact Nat.lt_trans low (by decide)
      · exact high.2
    exact .ofHexDigits mark rfl rfl (by omega) writes

/-- The character with the code of a byte has that code. -/
theorem toNat_ofNat_byte (byte : UInt8) : (Char.ofNat byte.toNat).toNat = byte.toNat := by
  have small := byte.toNat_lt
  have valid : byte.toNat.isValidChar := Or.inl (by omega)
  rw [Char.ofNat, dif_pos valid]
  rfl

/-- A byte below the limit of ASCII is written as the character with its code. -/
theorem character_of_byte {byte : UInt8} {c : Char} (found : Char.ofNat byte.toNat = c)
    (small : c.toNat < 0x80) : byteAlphabet.character c = [byte] := by
  have code := toNat_ofNat_byte byte
  rw [found] at code
  have least : c.val.toNat ≤ 127 := Nat.le_of_lt_succ small
  show String.utf8EncodeChar c = [byte]
  rw [String.utf8EncodeChar]
  show (if c.val.toNat ≤ 127 then [UInt8.ofNat c.toNat] else _) = [byte]
  rw [if_pos least, code, UInt8.ofNat_toNat]

/-- What is written for a byte is a piece. -/
theorem escapeByte_piece {quote : Char} (mark : isQuote quote = true) (byte : UInt8) :
    Piece byteAlphabet quote byte (escapeByte quote byte) := by
  have writes : byteAlphabet.code byte.toNat = some byte := by
    show (if byte.toNat < 256 then some (UInt8.ofNat byte.toNat) else none) = some byte
    rw [if_pos byte.toNat_lt, UInt8.ofNat_toNat]
  unfold escapeByte
  extract_lets c
  split_ifs with slash feed back tab closing printable
  · exact .ofLetter rfl rfl (by decide) rfl (character_of_byte slash (by decide))
  · exact .ofLetter rfl rfl (by decide) rfl (character_of_byte feed (by decide))
  · exact .ofLetter rfl rfl (by decide) rfl (character_of_byte back (by decide))
  · exact .ofLetter rfl rfl (by decide) rfl (character_of_byte tab (by decide))
  · rw [closing]
    rw [isQuote, Bool.or_eq_true, beq_iff_eq, beq_iff_eq] at mark
    rcases mark with rfl | rfl
    · exact .ofLetter rfl rfl (by decide) rfl (character_of_byte closing (by decide))
    · exact .ofLetter rfl rfl (by decide) rfl (character_of_byte closing (by decide))
  · rw [Bool.and_eq_true, decide_eq_true_eq, decide_eq_true_eq] at printable
    have small : byte.toNat ≤ 126 := UInt8.le_iff_toNat_le.1 printable.2
    refine .plain ⟨slash, closing, feed⟩ (character_of_byte rfl ?_)
    rw [toNat_ofNat_byte]
    omega
  · exact .ofHexDigits mark rfl rfl byte.toNat_lt writes

end Escapes

section Values

variable {alphabet : Alphabet α} {quote : Char} {piece : α → List Char}

/-- The mark behind the pieces of a value closes the literal. -/
theorem shortPart_pieces (mark : isQuote quote = true)
    (written : ∀ unit, Piece alphabet quote unit (piece unit)) (units : List α)
    (rest : List Char) :
    shortPart quote (units.flatMap piece ++ quote :: rest) =
      .closed (units.flatMap piece ++ [quote]) rest := by
  induction units with
  | nil => exact shortPart_mark mark rest
  | cons unit units ih =>
    rw [List.flatMap_cons, List.append_assoc, (written unit).shortPart_append, ih,
      List.append_assoc]
    rfl

/-- The pieces of a value are read back as the value. -/
theorem readBody_pieces (written : ∀ unit, Piece alphabet quote unit (piece unit))
    (units : List α) : readBody alphabet 0 (units.flatMap piece) = .ok units := by
  induction units with
  | nil => rfl
  | cons unit units ih =>
    rw [List.flatMap_cons, (written unit).readBody_append, ih]
    rfl

/-- Pieces up to a mark write one value alone. -/
theorem pieces_unambiguous (mark : isQuote quote = true)
    (written : ∀ unit, Piece alphabet quote unit (piece unit)) {units units' : List α}
    {rest rest' : List Char}
    (same : units.flatMap piece ++ quote :: rest = units'.flatMap piece ++ quote :: rest') :
    units = units' ∧ rest = rest' := by
  have closed := shortPart_pieces mark written units rest
  rw [same, shortPart_pieces mark written units' rest', StringPart.closed.injEq] at closed
  have body : units'.flatMap piece = units.flatMap piece := List.append_cancel_right closed.1
  have read := readBody_pieces written units
  rw [← body, readBody_pieces written units', Except.ok.injEq] at read
  exact ⟨read.symm, closed.2.symm⟩

/-- The mark that opens a value does not stand twice in front of it. -/
theorem not_marks_pieces (mark : isQuote quote = true)
    (written : ∀ unit, Piece alphabet quote unit (piece unit)) (units : List α)
    {rest : List Char} (other : rest.head? ≠ some quote) :
    [quote, quote].isPrefixOf (units.flatMap piece ++ quote :: rest) = false := by
  rw [Bool.eq_false_iff]
  intro leads
  obtain ⟨behind, whole⟩ := List.isPrefixOf_iff_prefix.1 leads
  cases units with
  | nil =>
    have second : quote :: behind = rest := List.tail_eq_of_cons_eq whole
    rw [← second] at other
    exact other rfl
  | cons unit units =>
    have first := (written unit).head_ne mark (units.flatMap piece ++ quote :: rest)
    rw [List.flatMap_cons, List.append_assoc] at whole
    rw [← whole] at first
    exact first rfl

end Values

/-- The mark that is chosen is a quotation mark. -/
theorem isQuote_chooseQuote (hasSingle hasDouble : Bool) :
    isQuote (chooseQuote hasSingle hasDouble) = true := by
  cases hasSingle <;> cases hasDouble <;> rfl

/-- The quoted form of a text is its pieces between two marks. -/
theorem quoteChars_eq (text : List Char) : ∃ quote, isQuote quote = true ∧
    quoteChars text = quote :: (text.flatMap (escapeChar quote) ++ [quote]) :=
  ⟨_, isQuote_chooseQuote _ _, rfl⟩

/-- The quoted form of a byte list is its pieces between two marks, behind a letter. -/
theorem quoteByteChars_eq (bytes : List UInt8) : ∃ quote, isQuote quote = true ∧
    quoteByteChars bytes = 'b' :: quote :: (bytes.flatMap (escapeByte quote) ++ [quote]) :=
  ⟨_, isQuote_chooseQuote _ _, rfl⟩

/-- The quoted form of a text ends where it says, and no other text has it. -/
theorem quoteChars_unambiguous {text text' rest rest' : List Char}
    (same : quoteChars text ++ rest = quoteChars text' ++ rest') : text = text' ∧ rest = rest' := by
  obtain ⟨quote, mark, form⟩ := quoteChars_eq text
  obtain ⟨quote', _, form'⟩ := quoteChars_eq text'
  rw [form, form', List.cons_append, List.cons_append, List.cons.injEq] at same
  obtain ⟨rfl, body⟩ := same
  rw [List.append_assoc, List.append_assoc] at body
  exact pieces_unambiguous mark (escapeChar_piece mark) body

/-- The quoted form of a byte list ends where it says, and no other byte list has it. -/
theorem quoteByteChars_unambiguous {bytes bytes' : List UInt8} {rest rest' : List Char}
    (same : quoteByteChars bytes ++ rest = quoteByteChars bytes' ++ rest') :
    bytes = bytes' ∧ rest = rest' := by
  obtain ⟨quote, mark, form⟩ := quoteByteChars_eq bytes
  obtain ⟨quote', _, form'⟩ := quoteByteChars_eq bytes'
  rw [form, form', List.cons_append, List.cons_append, List.cons_append, List.cons_append,
    List.cons.injEq, List.cons.injEq] at same
  obtain ⟨-, rfl, body⟩ := same
  rw [List.append_assoc, List.append_assoc] at body
  exact pieces_unambiguous mark (escapeByte_piece mark) body

end Offside.Literal
