import Offside.Proofs.Expression.Decimal
import Offside.Proofs.Literal.Pieces
import Offside.Tree.Dump

/-!
# What written values tell

Two values tell a fact if the fact holds wherever they are written alike, whatever may follow them
(`Value.Tells`). Then they also end at the same place, so what fields and items tell is put together
from what each of them tells. A word ends at the first comma or bracket, quoted text at its mark,
and a node at its closing bracket.
-/
namespace Offside

open Text Literal

/-- A comma or a bracket, which stands in no word. -/
def isSeparator (c : Char) : Bool := c == ',' || c == ')' || c == ']' || c == '('

/-- A word without commas and brackets. -/
def Unseparated (word : List Char) : Prop := ∀ c ∈ word, isSeparator c = false

/-- A word of other characters has neither commas nor brackets. -/
theorem unseparated_of_all {word : List Char} (all : word.all (fun c => !isSeparator c) = true) :
    Unseparated word := fun c member => by simpa using List.all_eq_true.1 all c member

/-- A text that is empty or starts with a comma or a bracket. -/
def Separates (rest : List Char) : Prop := rest.head?.all isSeparator = true

/-- An opening bracket ends a word. -/
theorem separates_open (rest : List Char) : Separates ('(' :: rest) := rfl

/-- Words up to a comma or a bracket are told apart from each other. -/
theorem Unseparated.unambiguous {word word' rest rest' : List Char} (plain : Unseparated word)
    (plain' : Unseparated word') (ends : Separates rest) (ends' : Separates rest')
    (same : word ++ rest = word' ++ rest') : word = word' ∧ rest = rest' := by
  induction word generalizing word' with
  | nil =>
    cases word' with
    | nil => exact ⟨rfl, same⟩
    | cons c word' =>
      rw [List.nil_append, List.cons_append] at same
      rw [same, Separates, List.head?_cons, Option.all_some, plain' c List.mem_cons_self] at ends
      contradiction
  | cons c word ih =>
    cases word' with
    | nil =>
      rw [List.nil_append, List.cons_append] at same
      rw [← same, Separates, List.head?_cons, Option.all_some, plain c List.mem_cons_self] at ends'
      contradiction
    | cons c' word' =>
      rw [List.cons_append, List.cons_append, List.cons.injEq] at same
      obtain ⟨rfl, later⟩ := same
      have tail : Unseparated word := fun d member => plain d (List.mem_cons_of_mem c member)
      have tail' : Unseparated word' := fun d member => plain' d (List.mem_cons_of_mem c member)
      obtain ⟨rfl, behind⟩ := ih tail tail' later
      exact ⟨rfl, behind⟩

/-- Digits are neither commas nor brackets. -/
theorem isSeparator_of_isDigit {c : Char} (digit : c.isDigit = true) : isSeparator c = false := by
  rw [Bool.eq_false_iff]
  intro mark
  simp only [isSeparator, Bool.or_eq_true, beq_iff_eq] at mark
  rcases mark with ((rfl | rfl) | rfl) | rfl <;> exact absurd digit (by decide)

/-- Decimal digits have neither commas nor brackets. -/
theorem unseparated_decimalDigits (value : Nat) : Unseparated (decimalDigits value) :=
  fun _ member => isSeparator_of_isDigit
    (Nat.isDigit_of_mem_toDigits (by decide) (by decide) member)

/-- Numbers with the same decimal digits are equal. -/
theorem decimalDigits_inj {value value' : Nat} (same : decimalDigits value = decimalDigits value') :
    value = value' := by
  have read := Nat.ofDigitChars_ten_toDigits (n := value)
  rw [decimalDigits, decimalDigits] at same
  rw [same, Nat.ofDigitChars_ten_toDigits] at read
  exact read.symm

/-- What may follow a value: nothing, a comma, or the bracket that closes a list or a node. -/
def Closes (rest : List Char) : Prop := ∀ c ∈ rest.head?, isSeparator c = true ∧ c ≠ '('

/-- A character that may follow a value. -/
theorem closes_cons {c : Char} {rest : List Char} (mark : isSeparator c = true) (other : c ≠ '(') :
    Closes (c :: rest) := by
  intro first front
  obtain rfl := Option.some.inj front
  exact ⟨mark, other⟩

/-- What may follow a value does not belong to a word. -/
theorem Closes.separates {rest : List Char} (closes : Closes rest) : Separates rest := by
  cases rest with
  | nil => rfl
  | cons c rest => exact (closes c rfl).1

/-- An opening bracket does not follow a value. -/
theorem Closes.ne_open {rest behind : List Char} (closes : Closes rest) : rest ≠ '(' :: behind := by
  rintro rfl
  exact (closes '(' rfl).2 rfl

/-- Wherever the two values are written alike, the fact holds and what follows them is the same. -/
def Value.Tells (value value' : Value) (fact : Prop) : Prop :=
  ∀ rest rest', Closes rest → Closes rest' → value.write rest = value'.write rest' →
    fact ∧ rest = rest'

/-- What fields tell that have the same names: what each of the values tells. -/
inductive FieldsTell : List Field → List Field → Prop → Prop where
  /-- No fields. -/
  | nil : FieldsTell [] [] True
  /-- A field, and the fields behind it. -/
  | cons {name : String} {value value' : Value} {fields fields' : List Field} {fact more : Prop}
      (first : value.Tells value' fact) (later : FieldsTell fields fields' more) :
      FieldsTell (⟨name, value⟩ :: fields) (⟨name, value'⟩ :: fields') (fact ∧ more)

/-- What items up to a closing bracket tell. -/
def ItemsTell (items items' : List Value) (fact : Prop) : Prop :=
  ∀ rest rest', writeItems items (']' :: rest) = writeItems items' (']' :: rest') →
    fact ∧ rest = rest'

section Fields

/-- What is written behind a field. -/
def fieldsBehind (fields : List Field) (rest : List Char) : List Char :=
  match fields with
  | [] => ')' :: rest
  | _ :: _ => ',' :: ' ' :: writeFields fields (')' :: rest)

/-- A field is written, and then what is behind it. -/
theorem writeFields_cons (name : String) (value : Value) (fields : List Field) (rest : List Char) :
    writeFields (⟨name, value⟩ :: fields) (')' :: rest) =
      name.toList ++ '=' :: value.write (fieldsBehind fields rest) := by
  cases fields with
  | nil => rw [writeFields, Field.write, fieldsBehind]
  | cons field fields =>
    rw [writeFields, Field.write, fieldsBehind]
    exact List.cons_ne_nil _ _

/-- What is behind a field closes its value. -/
theorem closes_fieldsBehind (fields : List Field) (rest : List Char) :
    Closes (fieldsBehind fields rest) := by
  cases fields with
  | nil => exact closes_cons rfl (by decide)
  | cons => exact closes_cons rfl (by decide)

/-- Fields tell what each of them tells. -/
theorem FieldsTell.read {fields fields' : List Field} {fact : Prop}
    (tells : FieldsTell fields fields' fact) {rest rest' : List Char}
    (same : writeFields fields (')' :: rest) = writeFields fields' (')' :: rest')) :
    fact ∧ rest = rest' := by
  induction tells generalizing rest rest' with
  | nil =>
    rw [writeFields, writeFields, List.cons.injEq] at same
    exact ⟨trivial, same.2⟩
  | @cons name value value' fields fields' fact more first later ih =>
    rw [writeFields_cons, writeFields_cons, List.append_cancel_left_eq, List.cons.injEq] at same
    obtain ⟨here, behind⟩ :=
      first _ _ (closes_fieldsBehind fields rest) (closes_fieldsBehind fields' rest') same.2
    cases later with
    | nil =>
      rw [fieldsBehind, fieldsBehind, List.cons.injEq] at behind
      exact ⟨⟨here, trivial⟩, behind.2⟩
    | cons next others =>
      rw [fieldsBehind, fieldsBehind, List.cons.injEq, List.cons.injEq] at behind
      obtain ⟨below, end_⟩ := ih behind.2.2
      exact ⟨⟨here, below⟩, end_⟩

end Fields

namespace Value

variable {value value' : Value} {fact more : Prop}

/-- A fact that follows from what is told is told. -/
theorem Tells.imp (tells : value.Tells value' fact) (follows : fact → more) :
    value.Tells value' more := fun rest rest' closes closes' same =>
  (tells rest rest' closes closes' same).imp follows id

/-- What is told of two values is told of them the other way round. -/
theorem Tells.symm (tells : value.Tells value' fact) : value'.Tells value fact :=
  fun rest rest' closes closes' same =>
    (tells rest' rest closes' closes same.symm).imp id Eq.symm

/-- Words are told apart. -/
theorem Tells.ofWords {word word' : List Char} (written : ∀ rest, value.write rest = word ++ rest)
    (written' : ∀ rest, value'.write rest = word' ++ rest) (plain : Unseparated word)
    (plain' : Unseparated word') : value.Tells value' (word = word') := by
  intro rest rest' closes closes' same
  rw [written, written'] at same
  exact plain.unambiguous plain' closes.separates closes'.separates same

/-- What is told of two values that are not there. -/
theorem tells_absent (holds : fact) : absent.Tells absent fact := fun _ _ _ _ same =>
  ⟨holds, List.append_cancel_left same⟩

section Nodes

variable {kind kind' : String} {fields fields' : List Field}

/-- A node is written as its kind and its fields in brackets. -/
theorem write_child (kind : String) (fields : List Field) (rest : List Char) :
    (child kind fields).write rest = kind.toList ++ '(' :: writeFields fields (')' :: rest) := by
  rw [child, write, Node.write]

/-- Nodes of one kind tell what follows from what their fields tell. -/
theorem Tells.node (tells : FieldsTell fields fields' fact) (follows : fact → more) :
    (child kind fields).Tells (child kind fields') more := by
  intro rest rest' _ _ same
  rw [write_child, write_child, List.append_cancel_left_eq, List.cons.injEq] at same
  exact (tells.read same.2).imp follows id

/-- Nodes tell their kinds. -/
theorem Tells.ofKind (plain : Unseparated kind.toList) (plain' : Unseparated kind'.toList)
    (tells : kind = kind' → (child kind fields).Tells (child kind' fields') fact) :
    (child kind fields).Tells (child kind' fields') fact := by
  intro rest rest' closes closes' same
  have whole := same
  rw [write_child, write_child] at same
  have kinds := (plain.unambiguous plain' (separates_open _) (separates_open _) same).1
  exact tells (String.toList_inj.1 kinds) rest rest' closes closes' whole

/-- Nodes without fields tell what follows from their kinds. -/
theorem tells_leaf (plain : Unseparated kind.toList) (plain' : Unseparated kind'.toList)
    (follows : kind = kind' → fact) : (leaf kind).Tells (leaf kind') fact := by
  refine .ofKind plain plain' fun same => ?_
  subst same
  exact .node .nil fun _ => follows rfl

/-- A node is told apart from what is not there. -/
theorem tells_absent_child (plain : Unseparated kind.toList) :
    absent.Tells (child kind fields) fact := by
  intro rest rest' closes _ same
  rw [write_child, write] at same
  have none_plain : Unseparated Constant.none.text.toList := unseparated_of_all rfl
  have behind := (none_plain.unambiguous plain closes.separates (separates_open _) same).2
  exact absurd behind closes.ne_open

end Nodes

/-- Equal texts are told. -/
theorem tells_text (text text' : String) :
    (Value.text text).Tells (.text text') (text = text') := by
  intro rest rest' _ _ same
  obtain ⟨chars, behind⟩ := quoteChars_unambiguous same
  exact ⟨String.toList_inj.1 chars, behind⟩

/-- Equal identifiers are told. -/
theorem tells_identifier (word word' : String) :
    (identifier word).Tells (identifier word') (word = word') :=
  tells_text word word'

/-- Equal byte lists are told. -/
theorem tells_bytes (bytes bytes' : List UInt8) :
    (Value.bytes bytes).Tells (.bytes bytes') (bytes = bytes') :=
  fun _ _ _ _ same => quoteByteChars_unambiguous same

/-- An identifier is told apart from what is not there. -/
theorem tells_absent_identifier (word : String) : absent.Tells (identifier word) fact := by
  intro rest rest' _ _ same
  obtain ⟨quote, mark, form⟩ := quoteChars_eq word.toList
  rw [write, write, form, List.cons_append] at same
  have first : 'N' = quote := List.head_eq_of_cons_eq same
  rw [← first] at mark
  exact absurd mark (by decide)

/-- Equal identifiers that may be missing are told. -/
theorem tells_optionalIdentifier : ∀ word word' : Option String,
    (optionalIdentifier word).Tells (optionalIdentifier word') (word = word')
  | none, none => tells_absent rfl
  | none, some word => tells_absent_identifier word
  | some word, none => (tells_absent_identifier word).symm
  | some word, some word' => (tells_identifier word word').imp (congrArg some)

/-- The words of constants have neither commas nor brackets. -/
theorem unseparated_constant (value : Constant) : Unseparated value.text.toList :=
  unseparated_of_all (by cases value <;> rfl)

/-- Equal constants are told. -/
theorem tells_constant (value value' : Constant) :
    (Value.constant value).Tells (.constant value') (value = value') := by
  have words : (Value.constant value).Tells (.constant value')
      (value.text.toList = value'.text.toList) :=
    .ofWords (fun _ => rfl) (fun _ => rfl) (unseparated_constant value)
      (unseparated_constant value')
  refine words.imp fun same => ?_
  have texts := String.toList_inj.1 same
  cases value <;> cases value' <;> first | rfl | exact absurd texts (by decide)

/-- Equal counts are told. -/
theorem tells_count (value value' : Nat) :
    (count value).Tells (count value') (value = value') :=
  (Tells.ofWords (fun _ => rfl) (fun _ => rfl) (unseparated_decimalDigits value)
    (unseparated_decimalDigits value')).imp decimalDigits_inj

/-- Equal flags are told. -/
theorem tells_flag (value value' : UInt8) : (flag value).Tells (flag value') (value = value') :=
  (tells_count value.toNat value'.toNat).imp UInt8.toNat_inj.1

end Value

section Numbers

/-- The number is an integer that is kept in the one way there is for it: as a word, or as decimal
digits if it is too great for a word. -/
inductive Number.IsInteger : Number → Prop where
  /-- A word. -/
  | int (word : Narrow) : IsInteger (.int word)
  /-- The decimal digits of an integer that is too great for a word. -/
  | big {value : Nat} (great : wordLimit ≤ value) :
    IsInteger (.big (String.ofList (decimalDigits value)))

/-- The characters of the decimal text of an integer. -/
theorem toList_decimalText (value : Int) : (decimalText value).toList =
    if value < 0 then '-' :: decimalDigits value.natAbs else decimalDigits value.natAbs := by
  rw [decimalText, String.toList_ofList]

/-- The decimal text of an integer that is not negative is its digits. -/
theorem decimalText_natCast (value : Nat) :
    decimalText value = String.ofList (decimalDigits value) := by
  have unsigned : ¬(value : Int) < 0 := Int.not_lt.2 (Int.natCast_nonneg value)
  rw [decimalText, if_neg unsigned, Int.natAbs_natCast]

/-- A sign is not among decimal digits. -/
theorem sign_cons_ne_decimalDigits (digits : List Char) (value : Nat) :
    '-' :: digits ≠ decimalDigits value := by
  intro same
  have member : '-' ∈ decimalDigits value := same ▸ List.mem_cons_self
  exact not_mem_toDigits (by decide) value member

/-- Integers with the same decimal text are equal. -/
theorem decimalText_inj {value value' : Int} (same : decimalText value = decimalText value') :
    value = value' := by
  have chars := congrArg String.toList same
  rw [toList_decimalText, toList_decimalText] at chars
  by_cases negative : value < 0
  · by_cases negative' : value' < 0
    · rw [if_pos negative, if_pos negative', List.cons.injEq] at chars
      have size := decimalDigits_inj chars.2
      omega
    · rw [if_pos negative, if_neg negative'] at chars
      exact absurd chars (sign_cons_ne_decimalDigits _ _)
  · by_cases negative' : value' < 0
    · rw [if_neg negative, if_pos negative'] at chars
      exact absurd chars.symm (sign_cons_ne_decimalDigits _ _)
    · rw [if_neg negative, if_neg negative'] at chars
      have size := decimalDigits_inj chars
      omega

/-- The decimal text of an integer has neither commas nor brackets. -/
theorem unseparated_decimalText (value : Int) : Unseparated (decimalText value).toList := by
  have digits := unseparated_decimalDigits value.natAbs
  rw [toList_decimalText]
  split
  · intro c member
    rcases List.mem_cons.1 member with rfl | inside
    · rfl
    · exact digits c inside
  · exact digits

namespace Number.IsInteger

/-- Such a number is written as the decimal text of an integer. -/
theorem text_eq {number : Number} (integer : number.IsInteger) :
    ∃ value, number.text = decimalText value := by
  cases integer with
  | int word => exact ⟨word.value, rfl⟩
  | @big value great => exact ⟨value, (decimalText_natCast value).symm⟩

/-- Such numbers with the same text are equal. -/
theorem eq_of_text {number number' : Number} (integer : number.IsInteger)
    (integer' : number'.IsInteger) (same : number.text = number'.text) : number = number' := by
  cases integer with
  | int word =>
    obtain ⟨value, least, limit⟩ := word
    cases integer' with
    | int word' =>
      obtain ⟨value', least', limit'⟩ := word'
      have values : value = value' := decimalText_inj same
      subst values
      rfl
    | @big value' great =>
      have values : value = (value' : Int) :=
        decimalText_inj (same.trans (decimalText_natCast value').symm)
      omega
  | @big value great =>
    cases integer' with
    | int word' =>
      obtain ⟨value', least', limit'⟩ := word'
      have values : (value : Int) = value' :=
        decimalText_inj ((decimalText_natCast value).trans same)
      omega
    | big => exact congrArg Number.big same

end Number.IsInteger

/-- Equal integers are told. -/
theorem Value.tells_number {number number' : Number} (integer : number.IsInteger)
    (integer' : number'.IsInteger) :
    (Value.number number).Tells (.number number') (number = number') := by
  obtain ⟨value, text⟩ := integer.text_eq
  obtain ⟨value', text'⟩ := integer'.text_eq
  have plain := unseparated_decimalText value
  have plain' := unseparated_decimalText value'
  rw [← text] at plain
  rw [← text'] at plain'
  have words : (Value.number number).Tells (.number number')
      (number.text.toList = number'.text.toList) :=
    .ofWords (fun _ => rfl) (fun _ => rfl) plain plain'
  exact words.imp fun same => integer.eq_of_text integer' (String.toList_inj.1 same)

end Numbers

section Items

/-- What is written behind an item. -/
def itemsBehind (items : List Value) (rest : List Char) : List Char :=
  match items with
  | [] => ']' :: rest
  | _ :: _ => ',' :: ' ' :: writeItems items (']' :: rest)

/-- An item is written, and then what is behind it. -/
theorem writeItems_cons (item : Value) (items : List Value) (rest : List Char) :
    writeItems (item :: items) (']' :: rest) = item.write (itemsBehind items rest) := by
  cases items with
  | nil => rw [writeItems, itemsBehind]
  | cons next items =>
    rw [writeItems, itemsBehind]
    exact List.cons_ne_nil _ _

/-- What is behind an item closes it. -/
theorem closes_itemsBehind (items : List Value) (rest : List Char) :
    Closes (itemsBehind items rest) := by
  cases items with
  | nil => exact closes_cons rfl (by decide)
  | cons => exact closes_cons rfl (by decide)

/-- The value does not start with the bracket that closes a list. -/
def Value.Opens (value : Value) : Prop :=
  ∀ rest, (value.write rest).head? ≠ some ']'

/-- Nodes do not start with a closing bracket. -/
theorem Value.opens_child {kind : String} (plain : Unseparated kind.toList)
    (fields : List Field) : (Value.child kind fields).Opens := by
  intro rest front
  rw [write_child] at front
  cases chars : kind.toList with
  | nil =>
    rw [chars, List.nil_append, List.head?_cons] at front
    exact absurd front (by decide)
  | cons c word =>
    rw [chars, List.cons_append, List.head?_cons, Option.some.injEq] at front
    have plain := plain c (chars ▸ List.mem_cons_self)
    rw [front] at plain
    exact absurd plain (by decide)

/-- What is not there does not start with a closing bracket. -/
theorem Value.opens_absent : Value.absent.Opens := by
  intro rest front
  have first : 'N' = ']' := Option.some.inj front
  exact absurd first (by decide)

/-- Identifiers do not start with a closing bracket. -/
theorem Value.opens_identifier (word : String) : (Value.identifier word).Opens := by
  intro rest front
  obtain ⟨quote, mark, form⟩ := quoteChars_eq word.toList
  rw [write, form, List.cons_append, List.head?_cons, Option.some.injEq] at front
  rw [front] at mark
  exact absurd mark (by decide)

variable {item item' : Value} {items items' : List Value} {fact more : Prop}

/-- What is told of items of which there are none. -/
theorem ItemsTell.nil (holds : fact) : ItemsTell [] [] fact := fun _ _ same =>
  ⟨holds, List.tail_eq_of_cons_eq same⟩

/-- What is told of items is told of them the other way round. -/
theorem ItemsTell.symm (tells : ItemsTell items items' fact) : ItemsTell items' items fact :=
  fun rest rest' same => (tells rest' rest same.symm).imp id Eq.symm

/-- No items are told apart from some. -/
theorem ItemsTell.nil_cons (opens : item.Opens) : ItemsTell [] (item :: items) fact := by
  intro rest rest' same
  have front := opens (itemsBehind items rest')
  rw [← writeItems_cons, ← same] at front
  exact absurd rfl front

/-- Items tell what each of them tells. -/
theorem Value.Tells.cons (first : item.Tells item' fact) (later : ItemsTell items items' more) :
    ItemsTell (item :: items) (item' :: items') (fact ∧ more) := by
  intro rest rest' same
  rw [writeItems_cons, writeItems_cons] at same
  obtain ⟨here, behind⟩ :=
    first _ _ (closes_itemsBehind items rest) (closes_itemsBehind items' rest') same
  have below : writeItems items (']' :: rest) = writeItems items' (']' :: rest') := by
    cases items with
    | nil =>
      cases items' with
      | nil => exact behind
      | cons => exact absurd (List.head_eq_of_cons_eq behind) (by decide)
    | cons =>
      cases items' with
      | nil => exact absurd (List.head_eq_of_cons_eq behind) (by decide)
      | cons => exact List.tail_eq_of_cons_eq (List.tail_eq_of_cons_eq behind)
  obtain ⟨lower, end_⟩ := later rest rest' below
  exact ⟨⟨here, lower⟩, end_⟩

/-- A fact that follows from what is told is told. -/
theorem ItemsTell.imp (tells : ItemsTell items items' fact) (follows : fact → more) :
    ItemsTell items items' more := fun rest rest' same =>
  (tells rest rest' same).imp follows id

/-- Items that tell the first value and the values behind it tell the list of them. -/
theorem ItemsTell.cons_cons {α : Type} {value value' : α} {rest rest' : List α}
    (first : item.Tells item' (value = value')) (later : ItemsTell items items' (rest = rest')) :
    ItemsTell (item :: items) (item' :: items') (value :: rest = value' :: rest') :=
  (first.cons later).imp fun same => by rw [same.1, same.2]

/-- Lists tell what their items tell. -/
theorem ItemsTell.list (tells : ItemsTell items items' fact) :
    (Value.list items).Tells (.list items') fact := by
  intro rest rest' _ _ same
  rw [Value.write, Value.write, List.cons.injEq] at same
  exact tells rest rest' same.2

/-- Items that are each told are told in order. -/
theorem ItemsTell.map {α : Type} {write : α → Value}
    (opens : ∀ value, (write value).Opens)
    (tells : ∀ value value', (write value).Tells (write value') (value = value')) :
    ∀ values values' : List α, ItemsTell (values.map write) (values'.map write) (values = values')
  | [], [] => .nil rfl
  | [], value :: _ => .nil_cons (opens value)
  | value :: _, [] => (ItemsTell.nil_cons (opens value)).symm
  | value :: values, value' :: values' =>
    .cons_cons (tells value value') (ItemsTell.map opens tells values values')

end Items

end Offside
