import Offside.Proofs.Literal.Pieces
import Offside.Proofs.Tree.Everywhere
import Offside.Proofs.Tree.LineBreaks

/-!
# Written trees on lines

Each part of a tree is written as a text that is broken into lines wherever it stands
(`Spreadable`), since words hold no marks and what is quoted goes on up to its mark
(`Spreadable.literal`). So a tree is shown on lines that hold all of its text and tell its brackets
(`Root.isSpread_pretty`).
-/
namespace Offside

open Text Lexeme Literal

/-- The quotation marks, the brackets and the marks between words. -/
def wordBreaks : List Char := ['\'', '"', '(', '[', ')', ']', ',', ' ', '\n']

/-- A character that may stand in a word. -/
def isWordChar (c : Char) : Bool := !wordBreaks.contains c

/-- A word holds no marks. -/
def isWord (word : List Char) : Bool := word.all isWordChar

/-- What is written in front of a text that is broken into lines outside quoted text is broken into
lines with it. -/
def Spreadable (write : List Char → List Char) : Prop :=
  ∀ depth text shown, Spreads .outside depth text shown →
    ∃ out, Spreads .outside depth (write text) out

namespace Spreadable

/-- Nothing. -/
theorem nil : Spreadable fun rest => rest :=
  fun _ _ shown spreads => ⟨shown, spreads⟩

/-- One part in front of another one. -/
theorem comp {first second : List Char → List Char} (front : Spreadable first)
    (back : Spreadable second) : Spreadable fun rest => first (second rest) := by
  intro depth text shown spreads
  obtain ⟨out, later⟩ := back depth text shown spreads
  exact front depth (second text) out later

/-- A character of a word. -/
theorem char {c : Char} (plain : isWordChar c = true) : Spreadable (c :: ·) := by
  intro depth text shown spreads
  simp only [isWordChar, wordBreaks, Bool.not_eq_true', List.contains_eq_mem,
    decide_eq_false_iff_not, List.mem_cons, List.not_mem_nil, or_false, not_or] at plain
  obtain ⟨single, double, round, square, roundEnd, squareEnd, comma, space, unbroken⟩ := plain
  have stays : Quoting.outside.after c = .outside := if_neg (by simp [isQuote, single, double])
  have opens : isOpening c = false := by simp [isOpening, round, square]
  have closes : isClosing c = false := by simp [isClosing, roundEnd, squareEnd]
  exact ⟨c :: shown, .keep unbroken (fun _ => ⟨opens, closes, comma, space⟩) (by rwa [stays])⟩

/-- A word. -/
theorem word {word : List Char} (plain : isWord word = true) : Spreadable (word ++ ·) := by
  induction word with
  | nil => exact nil
  | cons c word ih =>
    rw [isWord, List.all_cons, Bool.and_eq_true] at plain
    have spreadable : Spreadable fun rest => c :: (word ++ rest) := comp (char plain.1) (ih plain.2)
    exact spreadable

/-- A part in brackets. -/
theorem bracketed {write : List Char → List Char} (inner : Spreadable write) {first last : Char}
    (opens : isOpening first = true) (closes : isClosing last = true) :
    Spreadable fun rest => first :: write (last :: rest) := by
  intro depth text shown spreads
  obtain ⟨out, later⟩ := inner (depth + 1) (last :: text) _ (.closing closes spreads)
  exact ⟨_, .opening opens later⟩

/-- A part behind a name. -/
theorem field {write : List Char → List Char} {name : String} (plain : isWord name.toList = true)
    (inner : Spreadable write) : Spreadable fun rest => name.toList ++ '=' :: write rest := by
  have assigned : Spreadable fun rest => '=' :: write rest := comp (char rfl) inner
  exact comp (word plain) assigned

/-- Two parts with a comma between them. -/
theorem separated {first second : List Char → List Char} (front : Spreadable first)
    (back : Spreadable second) : Spreadable fun rest => first (',' :: ' ' :: second rest) := by
  intro depth text shown spreads
  obtain ⟨out, later⟩ := back depth text shown spreads
  exact front depth _ _ (.comma later)

end Spreadable

section quoted

variable {α : Type} {quote : Char} {depth : Nat} {text shown : List Char}

/-- Characters that stand for themselves go on in quoted text. -/
theorem Spreads.passes {taken : List Char} (passes : ∀ c ∈ taken, Passes quote c)
    (spreads : Spreads (.inside quote) depth text shown) :
    Spreads (.inside quote) depth (taken ++ text) (taken ++ shown) := by
  induction taken with
  | nil => exact spreads
  | cons c taken ih =>
    obtain ⟨⟨slash, mark, unbroken⟩, later⟩ := List.forall_mem_cons.1 passes
    have stays : (Quoting.inside quote).after c = .inside quote := by
      rw [Quoting.after, if_neg slash, if_neg mark]
    refine .keep unbroken (fun out => by contradiction) ?_
    rw [stays]
    exact ih later

/-- What is written for one unit goes on in quoted text. -/
theorem Literal.Piece.spreads {alphabet : Alphabet α} {unit : α} {piece : List Char}
    (written : Piece alphabet quote unit piece)
    (spreads : Spreads (.inside quote) depth text shown) :
    Spreads (.inside quote) depth (piece ++ text) (piece ++ shown) := by
  cases written with
  | plain passes _ =>
    exact spreads.passes fun d member => List.mem_singleton.1 member ▸ passes
  | escape unbroken passes _ =>
    have letter := Spreads.passes passes spreads
    exact .keep (by decide) (fun out => by contradiction)
      (.keep unbroken (fun out => by contradiction) letter)

/-- A text between two marks is broken into lines only behind it. -/
theorem Spreadable.literal {alphabet : Alphabet α} {piece : α → List Char}
    (mark : isQuote quote = true) (written : ∀ unit, Piece alphabet quote unit (piece unit))
    (units : List α) :
    Spreadable fun rest => quote :: (units.flatMap piece ++ quote :: rest) := by
  intro depth text shown spreads
  have unbroken : quote ≠ '\n' := by
    rintro rfl
    exact absurd mark (by decide)
  have slash : quote ≠ '\\' := by
    rintro rfl
    exact absurd mark (by decide)
  have opens : Quoting.outside.after quote = .inside quote := if_pos mark
  have closes : (Quoting.inside quote).after quote = .outside := by
    rw [Quoting.after, if_neg slash, if_pos rfl]
  have body : Spreads (.inside quote) depth (units.flatMap piece ++ quote :: text)
      (units.flatMap piece ++ quote :: shown) := by
    induction units with
    | nil => exact .keep unbroken (fun out => by contradiction) (by rwa [closes])
    | cons unit units ih =>
      rw [List.flatMap_cons, List.append_assoc, List.append_assoc]
      exact (written unit).spreads ih
  refine ⟨_, .keep unbroken (fun _ => ?_) (by rw [opens]; exact body)⟩
  rw [isQuote, Bool.or_eq_true, beq_iff_eq, beq_iff_eq] at mark
  rcases mark with rfl | rfl <;> decide

end quoted

namespace Spreadable

/-- The literal of a text. -/
theorem quoteChars (text : List Char) : Spreadable (Text.quoteChars text ++ ·) := by
  obtain ⟨quote, mark, form⟩ := quoteChars_eq text
  have literal := Spreadable.literal mark (escapeChar_piece mark) text
  rw [form]
  simpa using literal

/-- The literal of a byte list. -/
theorem quoteByteChars (bytes : List UInt8) : Spreadable (Text.quoteByteChars bytes ++ ·) := by
  obtain ⟨quote, mark, form⟩ := quoteByteChars_eq bytes
  have literal := comp (char (c := 'b') rfl) (.literal mark (escapeByte_piece mark) bytes)
  rw [form]
  simpa using literal

end Spreadable

section words

/-- Nothing is a word. -/
@[simp] theorem isWord_nil : isWord [] = true := rfl

/-- A character in front of a word. -/
@[simp] theorem isWord_cons (c : Char) (word : List Char) :
    isWord (c :: word) = (isWordChar c && isWord word) :=
  List.all_cons

/-- Words one behind the other. -/
@[simp] theorem isWord_append (first second : List Char) :
    isWord (first ++ second) = (isWord first && isWord second) :=
  List.all_append

/-- Digits are a word. -/
theorem isWord_of_digits {digits : List Char} (all : ∀ c ∈ digits, c.isDigit = true) :
    isWord digits = true := by
  have none_ : wordBreaks.all (!·.isDigit) = true := by decide
  refine List.all_eq_true.2 fun c member => ?_
  have digit := all c member
  by_contra breaks
  have within : c ∈ wordBreaks := by simpa [isWordChar] using breaks
  have other := List.all_eq_true.1 none_ c within
  rw [digit] at other
  contradiction

/-- Decimal digits are a word. -/
theorem isWord_decimalDigits (value : Nat) : isWord (decimalDigits value) = true :=
  isWord_of_digits fun _ member => Nat.isDigit_of_mem_toDigits (by decide) (by decide) member

/-- The decimal text of an integer is a word. -/
theorem isWord_decimalText (value : Int) : isWord (decimalText value).toList = true := by
  rw [decimalText, String.toList_ofList]
  have sign : isWordChar '-' = true := rfl
  split
  · rw [isWord_cons, sign, isWord_decimalDigits]
    rfl
  · exact isWord_decimalDigits _

/-- The first characters of a word are a word. -/
theorem isWord_take {word : List Char} (plain : isWord word = true) (count : Nat) :
    isWord (word.take count) = true :=
  List.all_eq_true.2 fun c member => List.all_eq_true.1 plain c (List.mem_of_mem_take member)

/-- The last characters of a word are a word. -/
theorem isWord_drop {word : List Char} (plain : isWord word = true) (count : Nat) :
    isWord (word.drop count) = true :=
  List.all_eq_true.2 fun c member => List.all_eq_true.1 plain c (List.mem_of_mem_drop member)

/-- Zeros are a word. -/
theorem isWord_zeros (count : Nat) : isWord (List.replicate count '0') = true :=
  isWord_of_digits fun c member => by rw [List.eq_of_mem_replicate member]; rfl

/-- Digits with a point are a word. -/
theorem isWord_pointed {digits : List Char} (plain : isWord digits = true) :
    isWord (Double.pointed digits) = true := by
  have point : isWordChar '.' = true := rfl
  cases digits with
  | nil => rfl
  | cons digit rest =>
    cases rest with
    | nil => exact plain
    | cons other rest =>
      rw [isWord_cons, Bool.and_eq_true] at plain
      rw [Double.pointed, isWord_cons, isWord_cons, plain.1, point, plain.2]
      · rfl
      · exact List.cons_ne_nil _ _

/-- The positional form of a decimal is a word. -/
theorem isWord_positionalText (decimal : Decimal) :
    isWord (Double.positionalText decimal) = true := by
  have point : isWordChar '.' = true := rfl
  have zero : isWordChar '0' = true := rfl
  have digits : isWord decimal.digits = true := isWord_decimalDigits decimal.coefficient
  unfold Double.positionalText
  dsimp only
  split_ifs
  · simp [isWord_zeros, digits, point, zero]
  · simp [isWord_take digits, isWord_drop digits, point]
  · simp [isWord_zeros, digits, point, zero]

/-- The text of a double is a word. -/
theorem isWord_textChars (value : Double) : isWord value.textChars = true := by
  have digits (decimal : Decimal) : isWord decimal.digits = true :=
    isWord_decimalDigits decimal.coefficient
  have power : isWordChar 'e' = true := rfl
  have minus : isWordChar '-' = true := rfl
  have plus : isWordChar '+' = true := rfl
  have zero : isWordChar '0' = true := rfl
  have bare (decimal : Decimal) : isWord (Double.bareExponentText decimal) = true := by
    simp [Double.bareExponentText, isWord_pointed (digits decimal), power, isWord_decimalText]
  have signed (decimal : Decimal) : isWord (Double.exponentText decimal) = true := by
    unfold Double.exponentText
    dsimp only
    split_ifs <;>
      simp [isWord_pointed (digits decimal), power, minus, plus, zero, isWord_decimalDigits]
  unfold Double.textChars
  dsimp only
  split_ifs <;> simp [minus, isWord_positionalText, bare, signed] <;> decide

/-- The text of a number is a word, if the digits that it keeps are decimal digits. -/
theorem Number.isWord_text (number : Number)
    (digital : ∀ digits, number = .big digits → ∀ c ∈ digits.toList, c.isDigit = true) :
    isWord number.text.toList = true := by
  cases number with
  | int word => exact isWord_decimalText word.value
  | big digits => exact isWord_of_digits (digital digits rfl)
  | float value =>
    rw [Number.text, Double.text, String.toList_ofList]
    exact isWord_textChars value
  | imaginary value =>
    rw [Number.text, String.toList_ofList]
    have imaginary : isWord ['j'] = true := rfl
    rw [isWord_append, imaginary, Bool.and_true, dropPointZero]
    split
    · exact isWord_take (isWord_textChars value) _
    · exact isWord_textChars value

end words

mutual

/-- The kinds, the names of fields and the numbers in a node are words. -/
def Node.Plain : Node → Prop
  | ⟨kind, fields⟩ => isWord kind.toList = true ∧ fieldsPlain fields

/-- The names of fields and the kinds and the numbers in them are words. -/
def fieldsPlain : List Field → Prop
  | [] => True
  | ⟨name, value⟩ :: rest => isWord name.toList = true ∧ value.Plain ∧ fieldsPlain rest

/-- The kinds, the names of fields and the numbers in a value are words. -/
def Value.Plain : Value → Prop
  | .node value => value.Plain
  | .list items => itemsPlain items
  | .number value => isWord value.text.toList = true
  | .identifier _ | .text _ | .bytes _ | .constant _ | .count _ | .absent => True

/-- The kinds, the names of fields and the numbers in values are words. -/
def itemsPlain : List Value → Prop
  | [] => True
  | item :: rest => item.Plain ∧ itemsPlain rest

end

mutual

/-- A node is broken into lines wherever it stands. -/
theorem Node.spreadable (node : Node) (plain : node.Plain) : Spreadable node.write := by
  cases node with
  | mk kind fields =>
    have inner : Spreadable fun rest => '(' :: writeFields fields (')' :: rest) :=
      (fields_spreadable fields plain.2).bracketed rfl rfl
    have whole : Spreadable fun rest => kind.toList ++ '(' :: writeFields fields (')' :: rest) :=
      .comp (.word plain.1) inner
    exact whole

/-- So are fields. -/
theorem fields_spreadable (fields : List Field) (plain : fieldsPlain fields) :
    Spreadable (writeFields fields) := by
  cases fields with
  | nil => exact .nil
  | cons field rest =>
    obtain ⟨name, value⟩ := field
    have first := Spreadable.field plain.1 (value.spreadable plain.2.1)
    have others := fields_spreadable rest plain.2.2
    cases rest with
    | nil => exact first
    | cons next rest => exact .separated first others

/-- So is a value. -/
theorem Value.spreadable (value : Value) (plain : value.Plain) : Spreadable value.write := by
  cases value with
  | node value => exact value.spreadable plain
  | list items => exact (items_spreadable items plain).bracketed rfl rfl
  | identifier text | text text => exact .quoteChars text.toList
  | bytes value => exact .quoteByteChars value
  | number value => exact .word plain
  | constant value => exact .word (by cases value <;> rfl)
  | count value => exact .word (isWord_decimalDigits value)
  | absent =>
    have none_ : isWord "None".toList = true := rfl
    exact .word none_

/-- So are items. -/
theorem items_spreadable (items : List Value) (plain : itemsPlain items) :
    Spreadable (writeItems items) := by
  cases items with
  | nil => exact .nil
  | cons item rest =>
    have first := item.spreadable plain.1
    have others := items_spreadable rest plain.2
    cases rest with
    | nil => exact first
    | cons next rest => exact .separated first others

end

/-- If a part keeps the digits of a number, they are decimal digits. -/
def Part.Digital : Part → Prop
  | .expr (.num (.big digits)) => ∀ c ∈ digits.toList, c.isDigit = true
  | _ => True

section fields

variable {name kind : String} {value : Value} {rest fields : List Field}

/-- No fields. -/
theorem fieldsPlain.nil : fieldsPlain [] := trivial

/-- A field in front of others. -/
theorem fieldsPlain.cons (word : isWord name.toList = true) (plain : value.Plain)
    (later : fieldsPlain rest) : fieldsPlain (⟨name, value⟩ :: rest) :=
  ⟨word, plain, later⟩

/-- A node as a value. -/
theorem Value.Plain.child (word : isWord kind.toList = true) (plain : fieldsPlain fields) :
    (Value.child kind fields).Plain :=
  ⟨word, plain⟩

/-- Items that are each plain. -/
theorem itemsPlain_map {α : Type} {write : α → Value} {values : List α}
    (plain : ∀ value ∈ values, (write value).Plain) : itemsPlain (values.map write) := by
  induction values with
  | nil => exact trivial
  | cons value rest ih =>
    obtain ⟨here, later⟩ := List.forall_mem_cons.1 plain
    exact ⟨here, ih later⟩

/-- An identifier that may be missing. -/
theorem Value.plain_optionalIdentifier (word : Option String) :
    (Value.optionalIdentifier word).Plain := by
  cases word <;> exact trivial

end fields

section marks

/-- A binary operator is a word. -/
theorem BinaryOperator.plain (operator : BinaryOperator) : (Value.leaf operator.kind).Plain :=
  .child (by cases operator <;> rfl) .nil

/-- A unary operator is a word. -/
theorem UnaryOperator.plain (operator : UnaryOperator) : (Value.leaf operator.kind).Plain :=
  .child (by cases operator <;> rfl) .nil

/-- A comparison is a word. -/
theorem Comparison.plain (operator : Comparison) : (Value.leaf operator.kind).Plain :=
  .child (by cases operator <;> rfl) .nil

/-- A boolean operator is a word. -/
theorem BooleanOperator.plain (operator : BooleanOperator) : (Value.leaf operator.kind).Plain :=
  .child (by cases operator <;> rfl) .nil

/-- A context is a word. -/
theorem Context.plain (context : Context) : (Value.leaf context.kind).Plain :=
  .child (by cases context <;> rfl) .nil

/-- The kind of an expression is a word. -/
theorem Expr.isWord_kind (value : Expr) : isWord value.kind.toList = true := by
  cases value <;> (simp only [Expr.kind]; rfl)

/-- The kind of a slice is a word. -/
theorem Slice.isWord_kind (slice : Slice) : isWord slice.kind.toList = true := by
  cases slice <;> (simp only [Slice.kind]; rfl)

/-- The kind of a statement is a word. -/
theorem Stmt.isWord_kind (stmt : Stmt) : isWord stmt.kind.toList = true := by
  cases stmt with
  | functionDef isAsync | forLoop isAsync | withItems isAsync =>
    cases isAsync <;> (simp only [Stmt.kind]; rfl)
  | _ => simp only [Stmt.kind]; rfl

end marks

mutual

/-- An expression is plain if the digits in it are decimal digits. -/
theorem Expr.plain (value : Expr) (digital : value.All Part.Digital) :
    (Value.child value.kind value.fields).Plain := by
  refine .child value.isWord_kind ?_
  cases value with
  | boolOp operator values =>
    exact .cons rfl operator.plain (.cons rfl (exprs_plain values digital.2) .nil)
  | binOp left operator right =>
    exact .cons rfl (left.plain digital.2.1) (.cons rfl operator.plain
      (.cons rfl (right.plain digital.2.2) .nil))
  | unaryOp operator operand =>
    exact .cons rfl operator.plain (.cons rfl (operand.plain digital.2) .nil)
  | lambda parameters body =>
    exact .cons rfl (parameters.plain digital.2.1) (.cons rfl (body.plain digital.2.2) .nil)
  | ifExp test body orelse =>
    exact .cons rfl (test.plain digital.2.1) (.cons rfl (body.plain digital.2.2.1)
      (.cons rfl (orelse.plain digital.2.2.2) .nil))
  | dict keys values =>
    exact .cons rfl (keys_plain keys digital.2.1) (.cons rfl (exprs_plain values digital.2.2) .nil)
  | set elements => exact .cons rfl (exprs_plain elements digital.2) .nil
  | listComp element clauses | setComp element clauses | generator element clauses =>
    exact .cons rfl (element.plain digital.2.1)
      (.cons rfl (clauses_plain clauses digital.2.2) .nil)
  | dictComp key value clauses =>
    exact .cons rfl (key.plain digital.2.1) (.cons rfl (value.plain digital.2.2.1)
      (.cons rfl (clauses_plain clauses digital.2.2.2) .nil))
  | await value | yieldFrom value => exact .cons rfl (value.plain digital.2) .nil
  | yield value => exact .cons rfl (optional_plain value digital.2) .nil
  | compare left operators comparators =>
    exact .cons rfl (left.plain digital.2.1)
      (.cons rfl (itemsPlain_map fun operator _ => operator.plain)
      (.cons rfl (exprs_plain comparators digital.2.2) .nil))
  | call function arguments keywords =>
    exact .cons rfl (function.plain digital.2.1) (.cons rfl (exprs_plain arguments digital.2.2.1)
      (.cons rfl (keywords_plain keywords digital.2.2.2) .nil))
  | num value =>
    refine .cons rfl (value.isWord_text fun digits kept => ?_) .nil
    subst kept
    exact digital
  | str value => exact .cons rfl trivial .nil
  | bytes value => exact .cons rfl trivial .nil
  | constant value => exact .cons rfl trivial .nil
  | ellipsis => exact .nil
  | «attribute» value name context =>
    exact .cons rfl (value.plain digital.2) (.cons rfl trivial (.cons rfl context.plain .nil))
  | subscript value slice context =>
    exact .cons rfl (value.plain digital.2.1) (.cons rfl (slice.plain digital.2.2)
      (.cons rfl context.plain .nil))
  | starred value context =>
    exact .cons rfl (value.plain digital.2) (.cons rfl context.plain .nil)
  | name id context => exact .cons rfl trivial (.cons rfl context.plain .nil)
  | list elements context | tuple elements context =>
    exact .cons rfl (exprs_plain elements digital.2) (.cons rfl context.plain .nil)

/-- A slice is plain. -/
theorem Slice.plain (slice : Slice) (digital : slice.All Part.Digital) :
    (Value.child slice.kind slice.fields).Plain := by
  refine .child slice.isWord_kind ?_
  cases slice with
  | range lower upper step =>
    exact .cons rfl (optional_plain lower digital.2.1)
      (.cons rfl (optional_plain upper digital.2.2.1)
      (.cons rfl (optional_plain step digital.2.2.2) .nil))
  | dimensions slices => exact .cons rfl (slices_plain slices digital.2) .nil
  | index value => exact .cons rfl (value.plain digital.2) .nil

/-- Parameters are plain. -/
theorem Arguments.plain (parameters : Arguments) (digital : parameters.All Part.Digital) :
    (Value.child "arguments" parameters.fields).Plain := by
  obtain ⟨args, vararg, kwonlyargs, kwDefaults, kwarg, defaults⟩ := parameters
  obtain ⟨-, first, second, third, fourth, fifth, sixth⟩ := digital
  exact .child rfl (.cons rfl (args_plain args first) (.cons rfl (optionalArg_plain vararg second)
    (.cons rfl (args_plain kwonlyargs third) (.cons rfl (keys_plain kwDefaults fourth)
    (.cons rfl (optionalArg_plain kwarg fifth) (.cons rfl (exprs_plain defaults sixth) .nil))))))

/-- A parameter is plain. -/
theorem Arg.plain (arg : Arg) (digital : arg.All Part.Digital) :
    (Value.child "arg" arg.fields).Plain := by
  obtain ⟨name, annotation⟩ := arg
  exact .child rfl (.cons rfl trivial (.cons rfl (optional_plain annotation digital.2) .nil))

/-- A named argument is plain. -/
theorem Keyword.plain (keyword : Keyword) (digital : keyword.All Part.Digital) :
    (Value.child "keyword" keyword.fields).Plain := by
  obtain ⟨name, value⟩ := keyword
  exact .child rfl (.cons rfl (Value.plain_optionalIdentifier name)
    (.cons rfl (value.plain digital.2) .nil))

/-- A clause is plain. -/
theorem Comprehension.plain (clause : Comprehension) (digital : clause.All Part.Digital) :
    (Value.child "comprehension" clause.fields).Plain := by
  obtain ⟨target, iter, conditions, isAsync⟩ := clause
  exact .child rfl (.cons rfl (target.plain digital.2.1) (.cons rfl (iter.plain digital.2.2.1)
    (.cons rfl (exprs_plain conditions digital.2.2.2) (.cons rfl trivial .nil))))

/-- Expressions are plain. -/
theorem exprs_plain (values : List Expr) (digital : exprsAll Part.Digital values) :
    (Value.list (exprValues values)).Plain := by
  cases values with
  | nil => exact trivial
  | cons value rest => exact ⟨value.plain digital.1, exprs_plain rest digital.2⟩

/-- An expression that may be missing is plain. -/
theorem optional_plain (value : Option Expr) (digital : optionalAll Part.Digital value) :
    (optionalValue value).Plain := by
  cases value with
  | none => exact trivial
  | some value => exact value.plain digital

/-- Expressions that may be missing are plain. -/
theorem keys_plain (values : List (Option Expr)) (digital : keysAll Part.Digital values) :
    (Value.list (optionalValues values)).Plain := by
  cases values with
  | nil => exact trivial
  | cons value rest => exact ⟨optional_plain value digital.1, keys_plain rest digital.2⟩

/-- Slices are plain. -/
theorem slices_plain (slices : List Slice) (digital : slicesAll Part.Digital slices) :
    (Value.list (sliceValues slices)).Plain := by
  cases slices with
  | nil => exact trivial
  | cons slice rest => exact ⟨slice.plain digital.1, slices_plain rest digital.2⟩

/-- Several parameters are plain. -/
theorem args_plain (args : List Arg) (digital : argsAll Part.Digital args) :
    (Value.list (argValues args)).Plain := by
  cases args with
  | nil => exact trivial
  | cons arg rest => exact ⟨arg.plain digital.1, args_plain rest digital.2⟩

/-- A parameter that may be missing is plain. -/
theorem optionalArg_plain (arg : Option Arg) (digital : optionalArgAll Part.Digital arg) :
    (optionalArgValue arg).Plain := by
  cases arg with
  | none => exact trivial
  | some arg => exact arg.plain digital

/-- Named arguments are plain. -/
theorem keywords_plain (keywords : List Keyword) (digital : keywordsAll Part.Digital keywords) :
    (Value.list (keywordValues keywords)).Plain := by
  cases keywords with
  | nil => exact trivial
  | cons keyword rest => exact ⟨keyword.plain digital.1, keywords_plain rest digital.2⟩

/-- Clauses are plain. -/
theorem clauses_plain (clauses : List Comprehension) (digital : clausesAll Part.Digital clauses) :
    (Value.list (clauseValues clauses)).Plain := by
  cases clauses with
  | nil => exact trivial
  | cons clause rest => exact ⟨clause.plain digital.1, clauses_plain rest digital.2⟩

end

/-- Imported names are plain. -/
theorem aliases_plain (names : List Alias) : (aliasList names).Plain :=
  itemsPlain_map fun name _ => .child rfl (.cons rfl trivial
    (.cons rfl (Value.plain_optionalIdentifier name.asname) .nil))

/-- A context of a with statement is plain. -/
theorem WithItem.plain (item : WithItem) (digital : item.All Part.Digital) :
    (Value.node item.node).Plain :=
  .child rfl (.cons rfl (item.context.plain digital.2.1)
    (.cons rfl (optional_plain item.target digital.2.2) .nil))

/-- Identifiers in order are plain. -/
theorem Value.plain_identifiers (words : List String) : (Value.identifiers words).Plain :=
  itemsPlain_map fun _ _ => trivial

mutual

/-- A statement is plain if the digits in it are decimal digits. -/
theorem Stmt.plain (stmt : Stmt) (digital : stmt.All Part.Digital) :
    (Value.child stmt.kind stmt.fields).Plain := by
  refine .child stmt.isWord_kind ?_
  cases stmt with
  | functionDef isAsync name parameters body decorators returns line =>
    exact .cons rfl trivial (.cons rfl (parameters.plain digital.2.1)
      (.cons rfl (stmts_plain body digital.2.2.1)
      (.cons rfl (exprs_plain decorators digital.2.2.2.1)
      (.cons rfl (optional_plain returns digital.2.2.2.2) .nil))))
  | classDef name bases keywords body decorators line =>
    exact .cons rfl trivial (.cons rfl (exprs_plain bases digital.2.1)
      (.cons rfl (keywords_plain keywords digital.2.2.1)
      (.cons rfl (stmts_plain body digital.2.2.2.1)
      (.cons rfl (exprs_plain decorators digital.2.2.2.2) .nil))))
  | returnValue value => exact .cons rfl (optional_plain value digital.2) .nil
  | delete targets => exact .cons rfl (exprs_plain targets digital.2) .nil
  | assign targets value =>
    exact .cons rfl (exprs_plain targets digital.2.1) (.cons rfl (value.plain digital.2.2) .nil)
  | augAssign target operator value =>
    exact .cons rfl (target.plain digital.2.1) (.cons rfl operator.plain
      (.cons rfl (value.plain digital.2.2) .nil))
  | annAssign target type value simple =>
    exact .cons rfl (target.plain digital.2.1) (.cons rfl (type.plain digital.2.2.1)
      (.cons rfl (optional_plain value digital.2.2.2) (.cons rfl trivial .nil)))
  | forLoop isAsync target iter body orelse =>
    exact .cons rfl (target.plain digital.2.1) (.cons rfl (iter.plain digital.2.2.1)
      (.cons rfl (stmts_plain body digital.2.2.2.1)
      (.cons rfl (stmts_plain orelse digital.2.2.2.2) .nil)))
  | whileLoop test body orelse | ifElse test body orelse =>
    exact .cons rfl (test.plain digital.2.1) (.cons rfl (stmts_plain body digital.2.2.1)
      (.cons rfl (stmts_plain orelse digital.2.2.2) .nil))
  | withItems isAsync items body =>
    exact .cons rfl (itemsPlain_map fun item member => item.plain (digital.2.1 item member))
      (.cons rfl (stmts_plain body digital.2.2) .nil)
  | raise exception cause =>
    exact .cons rfl (optional_plain exception digital.2.1)
      (.cons rfl (optional_plain cause digital.2.2) .nil)
  | tryExcept body handlers orelse final =>
    exact .cons rfl (stmts_plain body digital.2.1)
      (.cons rfl (handlers_plain handlers digital.2.2.1)
      (.cons rfl (stmts_plain orelse digital.2.2.2.1)
      (.cons rfl (stmts_plain final digital.2.2.2.2) .nil)))
  | assert test message =>
    exact .cons rfl (test.plain digital.2.1) (.cons rfl (optional_plain message digital.2.2) .nil)
  | importModules names => exact .cons rfl (aliases_plain names) .nil
  | importFrom module names level =>
    exact .cons rfl (Value.plain_optionalIdentifier module) (.cons rfl (aliases_plain names)
      (.cons rfl trivial .nil))
  | globals names | nonlocals names => exact .cons rfl (Value.plain_identifiers names) .nil
  | expr value => exact .cons rfl (value.plain digital.2) .nil
  | pass | breakLoop | continueLoop => exact .nil

/-- A handler is plain. -/
theorem ExceptHandler.plain (handler : ExceptHandler) (digital : handler.All Part.Digital) :
    (Value.child "ExceptHandler" handler.fields).Plain := by
  obtain ⟨type, name, body⟩ := handler
  exact .child rfl (.cons rfl (optional_plain type digital.2.1)
    (.cons rfl (Value.plain_optionalIdentifier name)
    (.cons rfl (stmts_plain body digital.2.2) .nil)))

/-- Statements are plain. -/
theorem stmts_plain (body : List Stmt) (digital : stmtsAll Part.Digital body) :
    (Value.list (stmtValues body)).Plain := by
  cases body with
  | nil => exact trivial
  | cons stmt rest => exact ⟨stmt.plain digital.1, stmts_plain rest digital.2⟩

/-- Handlers are plain. -/
theorem handlers_plain (handlers : List ExceptHandler)
    (digital : handlersAll Part.Digital handlers) :
    (Value.list (handlerValues handlers)).Plain := by
  cases handlers with
  | nil => exact trivial
  | cons handler rest => exact ⟨handler.plain digital.1, handlers_plain rest digital.2⟩

end

/-- A tree is plain if the digits in it are decimal digits. -/
theorem Root.plain (root : Root) (digital : root.All Part.Digital) : root.node.Plain := by
  cases root with
  | module body => exact ⟨rfl, .cons rfl (stmts_plain body digital.2) .nil⟩
  | interactive body => exact ⟨rfl, .cons rfl (stmts_plain body digital.2) .nil⟩
  | expression body => exact ⟨rfl, .cons rfl (body.plain digital.2) .nil⟩

/-- A written tree with line breaks loses nothing, if the digits that numbers keep are decimal
digits: without the spaces at the starts of its lines it is the written tree without the spaces
behind commas, each line is indented by two spaces for each open bracket, and brackets are closed in
order. -/
theorem Root.isSpread_pretty (root : Root)
    (digital : ∀ part ∈ root.walk everyPart, part.Digital) :
    IsSpread root.dump.toList (pretty root.dump).toList := by
  have plain := root.plain (root.all_iff.2 digital)
  obtain ⟨out, spreads⟩ := root.node.spreadable plain 0 [] [] .done
  have shown : (pretty root.dump).toList = out := by
    rw [pretty, String.toList_ofList, Root.dump, Node.dump, String.toList_ofList]
    exact spreads.run
  rw [shown, Root.dump, Node.dump, String.toList_ofList]
  exact spreads.isSpread

/-- Brackets, commas and marks in quoted text and a number that does not fit in a word. -/
theorem Root.isSpread_pretty_of_marks :
    let elements : List Expr := [.str "a, ('\"]\n", .bytes [0x5b, 0x2c, 0x20, 0x0a],
      .num (.big "170141183460469231731687303715884105728")]
    let root : Root := .expression (.tuple elements .load)
    (∀ part ∈ root.walk everyPart, part.Digital) ∧
      IsSpread root.dump.toList (pretty root.dump).toList := by
  intro elements root
  have digits : "170141183460469231731687303715884105728".toList.all (·.isDigit) = true := rfl
  have everywhere : root.All Part.Digital :=
    ⟨trivial, trivial, trivial, trivial, List.all_eq_true.1 digits, trivial⟩
  have digital := root.all_iff.1 everywhere
  exact ⟨digital, root.isSpread_pretty digital⟩

end Offside
