import Mathlib.Data.Option.Basic
import Offside.Proofs.Grammar.Mirror
import Offside.Proofs.Tree.Relabeling

/-!
# Tokens of two texts in step

The tokens of two texts are paired one by one: the kinds agree, the identifiers are renamed, all
other texts are the same, and the lines correspond (`Pairing.Tokens`). What the grammar asks of a
token in front has the same answer on both sides (`Pairing.Beside`).

A pairing may end at a seam, before a line end of the first text and, in the second one, before a
line end as well or a mark with which an expression ends too. There only a look for that mark tells
the two texts apart.
-/
namespace Offside

/-- A name is a word: its first character may start a name, and all of them may stand in one. -/
def Token.HoldsWord (token : Token) : Prop :=
  token.kind = .name → token.value.toList.head?.any Text.isNameStart = true ∧
    token.value.toList.all Text.isNamePart = true

/-- A cause and the cause for the renamed text: they have one name, and they are the same if
nothing is renamed. -/
structure Cause.Like (cause : Cause) (rename : Renaming) (found : Cause) : Prop where
  /-- The names agree. -/
  name : found.name = cause.name
  /-- Without a renaming the causes agree. -/
  same : rename = .none → found = cause

/-- A cause that names nothing is the cause for the renamed text. -/
theorem Cause.Like.refl {rename : Renaming} (cause : Cause) : cause.Like rename cause :=
  ⟨rfl, fun _ => rfl⟩

/-- How the tokens of two texts correspond. -/
structure Pairing where
  /-- How identifiers are renamed. -/
  rename : Renaming
  /-- Where a line of the first text is. -/
  near : Nat → Nat
  /-- Where a line of the second text is. -/
  far : Nat → Nat
  /-- What stands behind the seam in the first text. -/
  tail : List Token
  /-- What stands behind the seam in the second text. -/
  after : List Token
  /-- The mark behind the seam in the second text. -/
  mark : String
  /-- There is no seam, or behind it there are a line end and a line end or the mark. -/
  seam : tail = [] ∧ after = [] ∨ ∃ token rest found later, tail = token :: rest ∧
    after = found :: later ∧ token.kind = .newline ∧
    (found.kind = .newline ∧ far found.line = near token.line ∨
      found.kind = .operator ∧ found.value = mark)
  /-- The mark is a closing parenthesis or a semicolon. -/
  known : mark = ")" ∨ mark = ";"

namespace Pairing

/-- Texts without a seam, with a renaming and with lines that correspond. -/
def whole (rename : Renaming) (near far : Nat → Nat) : Pairing :=
  ⟨rename, near, far, [], [], ";", .inl ⟨rfl, rfl⟩, .inr rfl⟩

variable (pairing : Pairing)

/-- A token and the token of the second text that corresponds to it. -/
structure Tokens (token found : Token) : Prop where
  /-- The kinds agree. -/
  kind : found.kind = token.kind
  /-- A name is renamed. -/
  name : token.kind = .name → found.value = pairing.rename.word token.value
  /-- The texts of other lexemes agree. -/
  value : token.kind = .number ∨ token.kind = .string ∨ token.kind = .operator →
    found.value = token.value
  /-- A name is a word, unless nothing is renamed. -/
  word : pairing.rename = .none ∨ token.HoldsWord
  /-- The lines correspond. -/
  line : pairing.far found.line = pairing.near token.line

/-- A fault and the fault of the second text that corresponds to it. -/
structure Faults (fault found : Fault) : Prop where
  /-- The causes are alike. -/
  cause : fault.cause.Like pairing.rename found.cause
  /-- The lines correspond. -/
  line : pairing.far found.position.line = pairing.near fault.position.line
  /-- The files are the same. -/
  file : found.position.file = fault.position.file

/-- Two states with paired tokens in front, up to the seam. There are at most as many of them as
there is room for. -/
structure Beside (room : Nat) (state start : State) : Prop where
  /-- The tokens up to the seam are paired. -/
  front : ∃ front back, state.ahead = front ++ pairing.tail ∧ start.ahead = back ++ pairing.after ∧
    List.Forall₂ pairing.Tokens front back ∧ front.length ≤ room
  /-- The grammar is the standard one. -/
  grammar : state.grammar = .standard
  /-- So it is on the other side. -/
  otherGrammar : start.grammar = .standard
  /-- The file is the same. -/
  file : start.file = state.file
  /-- The decorators that wait are renamed. -/
  decorators : start.decorators = state.decorators.map (Expr.relabel pairing.rename.word)
  /-- The faults that wait correspond. -/
  failure : Option.Rel pairing.Faults state.failure start.failure
  /-- The lines correspond. -/
  line : pairing.far start.line = pairing.near state.line

/-- The token in front is before the seam. -/
def Inside (state : State) : Prop :=
  ∃ token rest, state.ahead = token :: (rest ++ pairing.tail)

/-- The bound on the other side is enough for as many tokens as there is room for, if the first
bound is. Without a seam, where faults are followed as well, it is the same bound. -/
def Enough (room bound otherBound : Nat) : Prop :=
  bound = otherBound ∨ pairing.tail ≠ [] ∧ room < otherBound

/-- A look for a text gives the same on both sides: the text is no identifier, and it is not the
mark at the seam. -/
structure Tells (text : String) : Prop where
  /-- The text is no identifier. -/
  fixed : isIdentifier text = false
  /-- It is not the mark at the seam. -/
  apart : pairing.tail = [] ∨ text ≠ pairing.mark

end Pairing

/-- A text that is neither an identifier nor one of the marks that may stand at a seam. -/
def isTelling (text : String) : Bool :=
  !isIdentifier text && text != ")" && text != ";"

variable {pairing : Pairing}

/-- A look for most texts gives the same on both sides. -/
theorem Pairing.tells {text : String} (telling : isTelling text = true) : pairing.Tells text := by
  simp only [isTelling, Bool.and_eq_true, Bool.not_eq_true', bne_iff_ne] at telling
  obtain ⟨⟨fixed, round⟩, semicolon⟩ := telling
  refine ⟨fixed, .inr ?_⟩
  rcases pairing.known with known | known
  · rw [known]
    exact round
  · rw [known]
    exact semicolon

namespace Pairing.Tokens

variable {token found : Token}

/-- Ends of lines are paired. -/
theorem newline (kind : token.kind = .newline) (otherKind : found.kind = .newline)
    (line : pairing.far found.line = pairing.near token.line) : pairing.Tokens token found where
  kind := by rw [kind, otherKind]
  name named := by
    rw [kind] at named
    contradiction
  value other := by simp [kind] at other
  word := .inr fun named => by
    rw [kind] at named
    contradiction
  line := line

/-- The same text is asked for on both sides. -/
theorem isText (tokens : pairing.Tokens token found) {text : String}
    (fixed : isIdentifier text = false) : found.isText text = token.isText text := by
  rw [Token.isText, Token.isText, tokens.kind]
  by_cases named : token.kind = .name
  · rw [tokens.name named, Bool.eq_iff_iff]
    simp [pairing.rename.word_eq_iff fixed]
  · by_cases operator : token.kind = .operator
    · rw [tokens.value (.inr (.inr operator))]
    · rw [beq_false_of_ne named, beq_false_of_ne operator]
      rfl

/-- A table whose keys are no identifiers holds the same for a name and for its new name. -/
theorem lookup_word {α : Type} (rename : Renaming) {table : List (String × α)}
    (fixed : ∀ entry ∈ table, isIdentifier entry.1 = false) (text : String) :
    table.lookup (rename.word text) = table.lookup text := by
  cases named : isIdentifier text with
  | false => rw [rename.fixes text named]
  | true =>
    have missing {word : String} (identifier : isIdentifier word = true) :
        table.lookup word = none := by
      refine List.lookup_eq_none_iff.2 fun entry member => ?_
      rw [bne_iff_ne]
      rintro rfl
      rw [fixed entry member] at identifier
      contradiction
    rw [missing named, missing (rename.keeps text named)]

/-- Tokens mean the same in expressions. -/
theorem behavior? (tokens : pairing.Tokens token found) :
    Grammar.standard.behavior? found = Grammar.standard.behavior? token := by
  have texts : ∀ entry ∈ Grammar.standard.byText, isIdentifier entry.1 = false := by decide
  rw [Grammar.behavior?, Grammar.behavior?, tokens.kind]
  by_cases named : token.kind = .name
  · rw [tokens.name named, lookup_word _ texts]
  · by_cases operator : token.kind = .operator
    · rw [tokens.value (.inr (.inr operator))]
    · simp [named, operator]

/-- A name that a table without identifiers holds has the same text on both sides. -/
theorem value_of_lookup (tokens : pairing.Tokens token found) (named : token.kind = .name)
    {α : Type} {table : List (String × α)} {meaning : α}
    (fixed : ∀ entry ∈ table, isIdentifier entry.1 = false)
    (known : table.lookup token.value = some meaning) : found.value = token.value := by
  rw [tokens.name named]
  obtain ⟨front, back, same, -⟩ := List.lookup_eq_some_iff.1 known
  refine pairing.rename.fixes _ (fixed (token.value, meaning) ?_)
  rw [same]
  exact List.mem_append_right front List.mem_cons_self

/-- A token with a meaning of its own in expressions has the same text on both sides. -/
theorem value_of_behavior (tokens : pairing.Tokens token found) {behavior : Behavior}
    (known : Grammar.standard.behavior? token = some behavior) : found.value = token.value := by
  have texts : ∀ entry ∈ Grammar.standard.byText, isIdentifier entry.1 = false := by decide
  cases kind : token.kind with
  | name =>
    rw [Grammar.behavior?, kind] at known
    exact tokens.value_of_lookup kind texts known
  | number => exact tokens.value (.inl kind)
  | string => exact tokens.value (.inr (.inl kind))
  | operator => exact tokens.value (.inr (.inr kind))
  | _ =>
    rw [Grammar.behavior?, kind] at known
    contradiction

/-- Tokens start the same statements. -/
theorem statementRule? (tokens : pairing.Tokens token found)
    {table : List (String × StatementRule)}
    (fixed : ∀ entry ∈ table, isIdentifier entry.1 = false) :
    Grammar.statementRule? table found = Grammar.statementRule? table token := by
  rw [Grammar.statementRule?, Grammar.statementRule?, tokens.kind]
  by_cases named : token.kind = .name
  · rw [tokens.name named, lookup_word _ fixed]
  · rw [if_neg named, if_neg named]

/-- A reserved word is one on both sides. -/
theorem isKeyword (tokens : pairing.Tokens token found) : found.isKeyword = token.isKeyword := by
  rw [Token.isKeyword, Token.isKeyword, tokens.kind]
  by_cases named : token.kind = .name
  · have fixed : ∀ word ∈ reservedWords, isIdentifier word = false := by decide
    have reserved {word : String} (identifier : isIdentifier word = true) :
        isReserved word = false := by
      rw [isReserved, Bool.eq_false_iff]
      intro member
      rw [fixed word (List.contains_iff_mem.1 member)] at identifier
      contradiction
    rw [tokens.name named]
    cases identifier : isIdentifier token.value with
    | false => rw [pairing.rename.fixes _ identifier]
    | true => rw [reserved identifier, reserved (pairing.rename.keeps _ identifier)]
  · rw [beq_false_of_ne named]
    rfl

/-- A name has no points, or nothing is renamed. -/
theorem mapDotted_value (tokens : pairing.Tokens token found) (named : token.kind = .name) :
    mapDotted pairing.rename.word token.value = pairing.rename.word token.value := by
  rcases tokens.word with unnamed | word
  · rw [unnamed]
    exact mapDotted_id token.value
  · refine mapDotted_of_plain _ fun point => ?_
    have part := List.all_eq_true.1 (word named).2 '.' point
    contradiction

/-- A message names tokens the same if nothing is renamed. -/
theorem describe (tokens : pairing.Tokens token found) (unnamed : pairing.rename = .none) :
    found.describe = token.describe := by
  rw [Token.describe, Token.describe, tokens.kind]
  cases kind : token.kind with
  | name =>
    rw [tokens.name kind, unnamed]
    rfl
  | number => rw [tokens.value (.inl kind)]
  | string => rw [tokens.value (.inr (.inl kind))]
  | operator => rw [tokens.value (.inr (.inr kind))]
  | _ => rfl

end Pairing.Tokens

/-- A cause that says which token is in front. -/
theorem Cause.Like.describe (make : String → Cause)
    (named : ∀ first second, (make first).name = (make second).name) {token found : Token}
    (tokens : pairing.Tokens token found) :
    (make token.describe).Like pairing.rename (make found.describe) :=
  ⟨named _ _, fun unnamed => by rw [tokens.describe unnamed]⟩

namespace Pairing

variable {room : Nat} {state start : State}

/-- A bound that is enough is enough for fewer tokens. -/
theorem Enough.less {less bound otherBound : Nat} (enough : pairing.Enough room bound otherBound)
    (fewer : less ≤ room) : pairing.Enough less bound otherBound :=
  enough.imp_right fun seam => ⟨seam.1, Nat.lt_of_le_of_lt fewer seam.2⟩

/-- One token less needs one turn less. -/
theorem Enough.pred {bound otherBound : Nat}
    (enough : pairing.Enough (room + 1) (bound + 1) (otherBound + 1)) :
    pairing.Enough room bound otherBound :=
  enough.imp Nat.succ.inj fun seam => ⟨seam.1, Nat.lt_of_succ_lt_succ seam.2⟩

/-- Behind the seam there is something on both sides or on neither. -/
theorem after_eq_nil : pairing.after = [] ↔ pairing.tail = [] := by
  rcases pairing.seam with ⟨bare, otherBare⟩ | ⟨_, _, _, _, front, back, -⟩
  · simp [bare, otherBare]
  · simp [front, back]

namespace Beside

/-- A fault waits on both sides or on neither. -/
theorem failure_none (beside : pairing.Beside room state start) :
    state.failure = none ↔ start.failure = none := by
  have faults := beside.failure
  constructor
  · intro none_
    rw [none_] at faults
    cases failure : start.failure with
    | none => rfl
    | some fault =>
      rw [failure] at faults
      cases faults
  · intro none_
    rw [none_] at faults
    cases failure : state.failure with
    | none => rfl
    | some fault =>
      rw [failure] at faults
      cases faults

/-- Where a fault waits, one that corresponds to it waits on the other side. -/
theorem failure_some (beside : pairing.Beside room state start) {fault : Fault}
    (failure : state.failure = some fault) :
    ∃ found, start.failure = some found ∧ pairing.Faults fault found := by
  have faults := beside.failure
  rw [failure] at faults
  cases otherFailure : start.failure with
  | none =>
    rw [otherFailure] at faults
    cases faults
  | some found =>
    rw [otherFailure] at faults
    cases faults with
    | some faults => exact ⟨found, rfl, faults⟩

/-- Either both states have a token in front before the seam, or both are at the seam. -/
theorem cases (beside : pairing.Beside room state start) :
    (∃ token found front back, state.ahead = token :: (front ++ pairing.tail) ∧
      start.ahead = found :: (back ++ pairing.after) ∧ pairing.Tokens token found ∧
      List.Forall₂ pairing.Tokens front back ∧ front.length < room) ∨
    (state.ahead = pairing.tail ∧ start.ahead = pairing.after) := by
  obtain ⟨front, back, ahead, otherAhead, tokens, within⟩ := beside.front
  cases tokens with
  | nil => exact .inr ⟨ahead, otherAhead⟩
  | cons here rest => exact .inl ⟨_, _, _, _, ahead, otherAhead, here, rest, within⟩

/-- Before the seam both states have a token in front. -/
theorem inside_cases (beside : pairing.Beside room state start) (inside : pairing.Inside state) :
    ∃ token found front back, state.ahead = token :: (front ++ pairing.tail) ∧
      start.ahead = found :: (back ++ pairing.after) ∧ pairing.Tokens token found ∧
      List.Forall₂ pairing.Tokens front back ∧ front.length < room := by
  refine beside.cases.resolve_right ?_
  rintro ⟨here, -⟩
  obtain ⟨token, rest, ahead⟩ := inside
  have same := congrArg List.length (ahead.symm.trans here)
  simp only [List.length_cons, List.length_append] at same
  omega

/-- Before the seam there is room for a token. -/
theorem exists_room (beside : pairing.Beside room state start) (inside : pairing.Inside state) :
    ∃ less, room = less + 1 := by
  obtain ⟨_, _, _, _, _, _, _, _, within⟩ := beside.inside_cases inside
  exact Nat.exists_eq_add_of_le' (Nat.one_le_of_lt within)

/-- The tokens in front are paired, or there is a seam behind which a line ends in the first text
and the mark stands in the second one. -/
theorem current_cases (beside : pairing.Beside room state start) :
    pairing.Tokens state.current start.current ∨
      (pairing.tail ≠ [] ∧ state.ahead = pairing.tail ∧ state.current.kind = .newline ∧
        start.current.kind = .operator ∧ start.current.value = pairing.mark) := by
  rcases beside.cases with ⟨token, found, front, back, ahead, otherAhead, here, -⟩ | ⟨here, there⟩
  · left
    rw [State.current, State.current, ahead, otherAhead]
    exact here
  · rcases pairing.seam with ⟨bare, otherBare⟩ |
      ⟨token, rest, found, later, front, back, ends, ⟨kind, line⟩ | mark⟩
    · left
      rw [State.current, State.current, here, there, bare, otherBare]
      exact ⟨rfl, fun named => by contradiction, fun other => by simp [Token.endMarker] at other,
        .inr fun named => by contradiction, beside.line⟩
    · left
      rw [State.current, State.current, here, there, front, back]
      exact .newline ends kind line
    · right
      rw [State.current, State.current, here, there, front, back]
      exact ⟨List.cons_ne_nil _ _, rfl, ends, mark⟩

/-- Without a seam the tokens in front are paired. -/
theorem current (beside : pairing.Beside room state start) (bare : pairing.tail = []) :
    pairing.Tokens state.current start.current :=
  beside.current_cases.resolve_right fun seam => seam.1 bare

/-- Before the seam the tokens in front are paired. -/
theorem current_inside (beside : pairing.Beside room state start)
    (inside : pairing.Inside state) : pairing.Tokens state.current start.current := by
  obtain ⟨token, found, front, back, ahead, otherAhead, tokens, -⟩ := beside.inside_cases inside
  rw [State.current, State.current, ahead, otherAhead]
  exact tokens

/-- A token that is neither the end mark nor at the seam is before the seam. -/
theorem inside (beside : pairing.Beside room state start)
    (more : state.current.kind ≠ .endMarker)
    (apart : pairing.tail = [] ∨ state.current.kind ≠ .newline) : pairing.Inside state := by
  rcases beside.cases with ⟨token, found, front, back, ahead, -⟩ | ⟨here, -⟩
  · exact ⟨token, front, ahead⟩
  · rcases beside.current_cases with tokens | ⟨seam, -, ends, -⟩
    · by_cases bare : pairing.tail = []
      · rw [State.current, here, bare] at more
        exact absurd rfl more
      · rcases pairing.seam with ⟨empty, -⟩ | ⟨first, rest, found, later, front, -, ends, -⟩
        · exact absurd empty bare
        · refine absurd ?_ (apart.resolve_left bare)
          rw [State.current, here, front]
          exact ends
    · exact absurd ends (apart.resolve_left seam)

/-- A name or an operator is before the seam. -/
theorem inside_of_isText (beside : pairing.Beside room state start) {text : String}
    (written : state.current.isText text = true) : pairing.Inside state := by
  have kinds : state.current.kind = .name ∨ state.current.kind = .operator := by
    simp only [Token.isText, Bool.and_eq_true, Bool.or_eq_true, beq_iff_eq] at written
    exact written.1
  refine beside.inside ?_ (.inr ?_)
  · intro other
    simp [other] at kinds
  · intro other
    simp [other] at kinds

/-- A name is before the seam, and it is renamed. -/
theorem name_in_front (beside : pairing.Beside room state start)
    (named : state.current.kind = .name) :
    pairing.Inside state ∧ start.current.value = pairing.rename.word state.current.value := by
  have inside : pairing.Inside state := by
    refine beside.inside ?_ (.inr ?_)
    · rw [named]
      decide
    · rw [named]
      decide
  exact ⟨inside, (beside.current_inside inside).name named⟩

/-- A look at the token in front finds the same on both sides, if it does so for paired tokens and
at the seam. -/
theorem look {α : Type} (view : Token → α)
    (same : ∀ token found, pairing.Tokens token found → view found = view token)
    (apart : ∀ token found : Token, pairing.tail ≠ [] → token.kind = .newline →
      found.kind = .operator → found.value = pairing.mark → view found = view token)
    (beside : pairing.Beside room state start) : view start.current = view state.current := by
  rcases beside.current_cases with tokens | ⟨seam, -, ends, kind, value⟩
  · exact same _ _ tokens
  · exact apart _ _ seam ends kind value

/-- A look for a text that tells nothing apart at the seam finds the same on both sides. -/
theorem isText (beside : pairing.Beside room state start) {text : String}
    (tells : pairing.Tells text) : start.current.isText text = state.current.isText text := by
  refine beside.look (fun token => token.isText text) (fun _ _ tokens => tokens.isText tells.fixed)
    fun token found seam ends kind value => ?_
  have other : (pairing.mark == text) = false :=
    beq_false_of_ne (tells.apart.resolve_left seam).symm
  rw [Token.isText, Token.isText, kind, value, ends, other]
  rfl

/-- The token in front means the same in expressions on both sides. -/
theorem behavior? (beside : pairing.Beside room state start) :
    Grammar.standard.behavior? start.current = Grammar.standard.behavior? state.current := by
  refine beside.look _ (fun _ _ tokens => tokens.behavior?) fun token found seam ends kind value => ?_
  rw [Grammar.behavior?, Grammar.behavior?, kind, value, ends]
  rcases pairing.known with known | known
  · rw [known]
    rfl
  · rw [known]
    rfl

/-- A token with a meaning of its own in expressions is before the seam, and it has the same text
on both sides. -/
theorem leads_of_behavior (beside : pairing.Beside room state start) {behavior : Behavior}
    (known : Grammar.standard.behavior? state.current = some behavior) :
    pairing.Inside state ∧ start.current.value = state.current.value := by
  have inside : pairing.Inside state := by
    refine beside.inside ?_ (.inr ?_)
    · intro last
      rw [Grammar.behavior?, last] at known
      contradiction
    · intro ends
      rw [Grammar.behavior?, ends] at known
      contradiction
  exact ⟨inside, (beside.current_inside inside).value_of_behavior known⟩

/-- The token in front ends an expression on both sides or on neither. -/
theorem atDelimiter (beside : pairing.Beside room state start) :
    (start.current.kind = .newline || start.current.kind = .endMarker ||
      (start.current.kind = .operator && Parse.delimiters.contains start.current.value)) =
    (state.current.kind = .newline || state.current.kind = .endMarker ||
      (state.current.kind = .operator && Parse.delimiters.contains state.current.value)) := by
  refine beside.look (fun token => token.kind = .newline || token.kind = .endMarker ||
    (token.kind = .operator && Parse.delimiters.contains token.value)) ?_ ?_
  · intro token found tokens
    rw [tokens.kind]
    by_cases operator : token.kind = .operator
    · rw [tokens.value (.inr (.inr operator))]
    · rw [decide_eq_false operator, Bool.false_and, Bool.false_and]
  · intro token found seam ends kind value
    rw [kind, value, ends]
    rcases pairing.known with known | known
    · rw [known]
      rfl
    · rw [known]
      rfl

/-- The token in front starts the same statement on both sides. -/
theorem statementRule? (beside : pairing.Beside room state start)
    {table : List (String × StatementRule)}
    (fixed : ∀ entry ∈ table, isIdentifier entry.1 = false) :
    Grammar.statementRule? table start.current = Grammar.statementRule? table state.current := by
  refine beside.look _ (fun _ _ tokens => tokens.statementRule? fixed)
    fun token found seam ends kind value => ?_
  rw [Grammar.statementRule?, Grammar.statementRule?, kind, ends]
  rfl

/-- A word that starts a statement is before the seam, and it is the same on both sides. -/
theorem leads_of_statementRule (beside : pairing.Beside room state start)
    {table : List (String × StatementRule)} {rule : StatementRule}
    (fixed : ∀ entry ∈ table, isIdentifier entry.1 = false)
    (known : Grammar.statementRule? table state.current = some rule) :
    pairing.Inside state ∧ start.current.value = state.current.value := by
  rw [Grammar.statementRule?] at known
  split at known
  · rename_i named
    obtain ⟨inside, -⟩ := beside.name_in_front named
    exact ⟨inside, (beside.current_inside inside).value_of_lookup named fixed known⟩
  · contradiction

end Beside

end Pairing

end Offside
