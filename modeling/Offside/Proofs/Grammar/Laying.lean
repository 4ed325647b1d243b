import Offside.Proofs.Grammar.Brackets
import Offside.Proofs.Grammar.Headings

/-!
# Parsers that lay lines

A parser of statements says what the tokens before it and its own are together: tokens inside one
line, a line with whole statements below it, or whole statements (`Parse.Lays`). Each way of
putting parsers together has a rule. What follows symbols inside one line takes no mark of the
layout (`Derives.isInline`), so a parser of such a phrase goes on with the line
(`Parse.Makes.inside`).
-/
namespace Offside

open Parse

/-- The phrase stands inside one line. -/
def Phrase.isInline : Phrase → Bool
  | .assignment .. | .deleteTargets .. | .names .. | .dotted .. | .dottedName _ | .asName _
  | .modules .. | .points .. | .importedNames .. | .importedList _ | .small _ | .moreSmall ..
  | .returns _ | .classArguments _ | .withItem _ | .withItems .. => true
  | phrase => phrase.isExpression

/-- The symbol stands inside one line. -/
def Symbol.isInline : Symbol → Bool
  | .terminal (.layout _) => false
  | .phrase inner => inner.isInline
  | _ => true

/-- What stands inside one line is made up of parts that do. -/
theorem Production.isInline {phrase : Phrase} {body : List Symbol}
    (production : Production phrase body) (inside : phrase.isInline = true) :
    ∀ symbol ∈ body, symbol.isInline = true := by
  rw [← List.all_eq_true]
  cases production with
  | expr production => cases production <;> rfl
  | stmt production => cases production <;> first | rfl | contradiction

/-- A word or an operator is no mark of the layout. -/
theorem Token.isLayout_of_isText {token : Token} {text : String}
    (written : token.isText text = true) : token.kind.isLayout = false := by
  simp only [Token.isText, Bool.and_eq_true, Bool.or_eq_true, beq_iff_eq] at written
  rcases written.1 with kind | kind <;> rw [kind] <;> rfl

/-- Only the terminals of marks of the layout ask for such marks. -/
theorem Terminal.Admits.isLayout {terminal : Terminal} {token : Token}
    (admits : terminal.Admits token) (inside : (Symbol.terminal terminal).isInline = true) :
    token.kind.isLayout = false := by
  cases terminal with
  | text => exact Token.isLayout_of_isText admits
  | word => exact Token.isLayout_of_isText admits.1
  | layout => contradiction
  | identifier | name | number | string | augmented => rw [admits.1]; rfl

/-- Parts of one line cover no mark of the layout. -/
theorem Derives.isInline {symbols : List Symbol} {dropped : List Expr} {ahead behind : List Token}
    (derives : Derives symbols dropped ahead behind)
    (inside : ∀ symbol ∈ symbols, symbol.isInline = true) :
    ∃ covered, ahead = covered ++ behind ∧ ∀ token ∈ covered, token.kind.isLayout = false := by
  induction derives with
  | nil => exact ⟨[], rfl, fun _ member => absurd member List.not_mem_nil⟩
  | terminal admits rest ih =>
    obtain ⟨here, later⟩ := List.forall_mem_cons.1 inside
    obtain ⟨covered, rfl, plain⟩ := ih later
    exact ⟨_ :: covered, rfl, List.forall_mem_cons.2 ⟨admits.isLayout here, plain⟩⟩
  | phrase production within rest ihBody ihRest =>
    obtain ⟨here, later⟩ := List.forall_mem_cons.1 inside
    obtain ⟨front, rfl, plain⟩ := ihBody (production.isInline here)
    obtain ⟨back, rfl, more⟩ := ihRest later
    exact ⟨front ++ back, (List.append_assoc _ _ _).symm, List.forall_mem_append.2 ⟨plain, more⟩⟩
  | dropped rest ih => exact ih (List.forall_mem_cons.1 inside).2

/-- Parts of one line take no mark of the layout. -/
theorem State.Moves.within {symbols : List Symbol} {start behind : State}
    (moves : State.Moves symbols start behind)
    (inside : ∀ symbol ∈ symbols, symbol.isInline = true) :
    ∃ covered, start.ahead = covered ++ behind.ahead ∧
      ∀ token ∈ covered, token.kind.isLayout = false := by
  obtain ⟨dropped, derives⟩ := moves.covers
  exact derives.isInline inside

/-- A terminal takes the token that it asks for. -/
theorem State.Moves.token {terminal : Terminal} {start behind : State}
    (moves : State.Moves [.terminal terminal] start behind) :
    ∃ token, start.ahead = token :: behind.ahead ∧ terminal.Admits token := by
  obtain ⟨dropped, derives⟩ := moves.covers
  obtain ⟨token, later, same, admits, rest⟩ := derives.of_terminal
  cases rest
  exact ⟨token, same, admits⟩

/-- The tokens are inside one line that starts as given. -/
def Inside (opening tokens : List Token) : Prop :=
  opening <+: tokens ∧ ∀ token ∈ tokens, token.kind.isLayout = false

/-- The tokens are a line that starts as given, with whole statements below it. -/
def Headed (opening : List Token) (definitions : List Stmt) (tokens : List Token) : Prop :=
  ∃ line lines, tokens = line ++ lines.flatten ∧ opening <+: line ∧ IsLine line ∧
    Settled definitions lines

/-- The tokens are lines of whole statements. -/
def Settles (definitions : List Stmt) (tokens : List Token) : Prop :=
  ∃ lines, tokens = lines.flatten ∧ Settled definitions lines

/-- The tokens are the heading of a definition, with its body below it. -/
def Defines (definition : Stmt) (tokens : List Token) : Prop :=
  ∃ line lines inside, tokens = line ++ lines.flatten ∧ IsLine line ∧
    startsDecorator line = false ∧ opensDefinition line = true ∧ definition.Heads line ∧
    definition.definitions = definition :: inside ∧ Settled inside lines

/-- The tokens are a definition that takes the decorators that wait, or whole statements before
which none wait. -/
def TakesWaiting (waiting : List Expr) (stmt : Stmt) (tokens : List Token) : Prop :=
  (stmt.decorators = waiting ∧ Defines stmt tokens) ∨
    (waiting = [] ∧ Settles stmt.definitions tokens)

/-- Tokens that open no definition and hold no decorator, whatever follows them. -/
def IsPlainOpening (opening : List Token) : Prop :=
  ∀ rest, startsDecorator (opening ++ rest) = false ∧ opensDefinition (opening ++ rest) = false

/-- The tokens are the words of a function, which starts on a line. -/
def OpensFunction (isAsync : Bool) (place : Nat) (words : List Token) : Prop :=
  (∀ rest, startsDecorator (words ++ rest) = false ∧ opensDefinition (words ++ rest) = true) ∧
    words.head?.map Token.line = some place ∧
    words.map Token.value = (if isAsync then ["async", "def"] else ["def"]) ∧
    ∀ token ∈ words, token.kind.isLayout = false

section shapes

variable {opening tokens more : List Token} {definitions others : List Stmt} {token : Token}

/-- A token that is no mark of the layout goes on with a line. -/
theorem Inside.concat (inside : Inside opening tokens) (plain : token.kind.isLayout = false) :
    Inside opening (tokens ++ [token]) :=
  ⟨inside.1.trans (List.prefix_append _ _),
    List.forall_mem_append.2 ⟨inside.2, by simpa using plain⟩⟩

/-- A word or an operator goes on with a line. -/
theorem Inside.word {text : String} (inside : Inside opening tokens)
    (written : token.isText text = true) : Inside opening (tokens ++ [token]) :=
  inside.concat (Token.isLayout_of_isText written)

/-- A word or an operator goes on with the first tokens of a line. -/
theorem Inside.first {text : String} (plain : ∀ token ∈ tokens, token.kind.isLayout = false)
    (written : token.isText text = true) : Inside (tokens ++ [token]) (tokens ++ [token]) :=
  ⟨List.prefix_refl _,
    List.forall_mem_append.2 ⟨plain, by simpa using Token.isLayout_of_isText written⟩⟩

/-- A word or an operator starts a line. -/
theorem Inside.start {text : String} (written : token.isText text = true) :
    Inside [token] ([] ++ [token]) :=
  .first (fun _ member => absurd member List.not_mem_nil) written

/-- Tokens that are no marks of the layout go on with a line. -/
theorem Inside.append (inside : Inside opening tokens)
    (plain : ∀ token ∈ more, token.kind.isLayout = false) : Inside opening (tokens ++ more) :=
  ⟨inside.1.trans (List.prefix_append _ _), List.forall_mem_append.2 ⟨inside.2, plain⟩⟩

/-- A mark of the layout ends a line in which something stands. -/
theorem Inside.ends (inside : Inside opening tokens) (some_ : tokens ≠ [])
    (layout : token.kind.isLayout = true) : Headed opening [] (tokens ++ [token]) :=
  ⟨tokens ++ [token], [], by simp, inside.1.trans (List.prefix_append _ _),
    ⟨tokens, token, rfl, inside.2, layout, fun _ => some_⟩, .nil⟩

/-- Whole statements go on below a line. -/
theorem Headed.append (headed : Headed opening definitions tokens) (below : Settles others more) :
    Headed opening (definitions ++ others) (tokens ++ more) := by
  obtain ⟨line, lines, rfl, starts, whole, settled⟩ := headed
  obtain ⟨further, rfl, after⟩ := below
  exact ⟨line, lines ++ further, by simp, starts, whole, settled.append after⟩

/-- No tokens hold no statement. -/
theorem Settles.nil : Settles [] [] := ⟨[], rfl, .nil⟩

/-- Whole statements in order are whole statements. -/
theorem Settles.append (front : Settles definitions tokens) (below : Settles others more) :
    Settles (definitions ++ others) (tokens ++ more) := by
  obtain ⟨upper, rfl, settled⟩ := front
  obtain ⟨lower, rfl, after⟩ := below
  exact ⟨upper ++ lower, by simp, settled.append after⟩

/-- A mark of a block alone is a line without a statement. -/
theorem Settles.mark (layout : token.kind.isLayout = true) (open_ : token.kind ≠ .newline) :
    Settles [] [token] := by
  have other {text : String} : token.isText text = false := by
    by_contra written
    rw [Bool.not_eq_false] at written
    rw [Token.isLayout_of_isText written] at layout
    contradiction
  have word {text : String} : token.isWord text = false := by
    have written := @other text
    simp only [Token.isText, Token.isWord, Bool.and_eq_false_iff, Bool.or_eq_false_iff] at written ⊢
    exact written.imp_left And.left
  have line : IsLine [token] := ⟨[], token, rfl, by simp, layout, fun ends => absurd ends open_⟩
  refine ⟨[[token]], by simp, .plain line ?_ ?_⟩
  · simp [startsDecorator, other]
  · simp [opensDefinition, word]

/-- A line that opens no definition and what is below it are whole statements. -/
theorem Headed.settles (headed : Headed opening definitions tokens)
    (plain : IsPlainOpening opening) : Settles definitions tokens := by
  obtain ⟨line, lines, rfl, ⟨rest, rfl⟩, whole, settled⟩ := headed
  obtain ⟨bare, closed⟩ := plain rest
  exact ⟨(opening ++ rest) :: lines, by simp, (Settled.plain whole bare closed).append settled⟩

/-- A word that is none of definitions and no sign of a decorator opens no definition. -/
theorem IsPlainOpening.of_isText {text : String} (written : token.isText text = true)
    (other : text ∉ ["@", "def", "class", "async"]) : IsPlainOpening [token] := by
  intro rest
  rw [Token.isText, Bool.and_eq_true, beq_iff_eq] at written
  obtain ⟨-, rfl⟩ := written
  simp only [List.mem_cons, List.not_mem_nil, or_false, not_or] at other
  obtain ⟨sign, function, type, async⟩ := other
  constructor
  · simp [startsDecorator, Token.isText, sign]
  · simp [opensDefinition, Token.isWord, function, type, async]

/-- The value of a word. -/
theorem Token.isWord_value {word : String} (written : token.isWord word = true) :
    token.value = word := by
  rw [Token.isWord, Bool.and_eq_true, beq_iff_eq, beq_iff_eq] at written
  exact written.2

/-- A word is a name or an operator. -/
theorem Token.isText_of_isWord {word : String} (written : token.isWord word = true) :
    token.isText word = true := by
  rw [Token.isWord, Bool.and_eq_true] at written
  rw [Token.isText, written.1, written.2]
  rfl

/-- Behind the word async, a word other than def opens no definition. -/
theorem IsPlainOpening.of_async {first : Token} {text : String}
    (async : first.isWord "async" = true) (written : token.isText text = true)
    (other : text ≠ "def") : IsPlainOpening ([first] ++ [token]) := by
  intro rest
  have value := Token.isWord_value async
  rw [Token.isText, Bool.and_eq_true, beq_iff_eq] at written
  obtain ⟨-, rfl⟩ := written
  constructor
  · simp [startsDecorator, Token.isText, value]
  · simp [opensDefinition, Token.isWord, Token.isText, value, other]

/-- The word def opens a definition. -/
theorem OpensFunction.of_def {found : Token} (word : token.isWord "def" = true)
    (same : found = token) : OpensFunction false token.line ([] ++ [found]) := by
  subst same
  have value := Token.isWord_value word
  refine ⟨fun rest => ⟨?_, ?_⟩, rfl, by simp [value], ?_⟩
  · simp [startsDecorator, Token.isText, value]
  · simp [opensDefinition, word]
  · simpa using Token.isLayout_of_isText (Token.isText_of_isWord word)

/-- The words async and def open a definition. -/
theorem OpensFunction.of_async {first : Token} (async : first.isWord "async" = true)
    (written : token.isText "def" = true) :
    OpensFunction true first.line ([first] ++ [token]) := by
  have value := Token.isWord_value async
  have named : token.value = "def" := by
    rw [Token.isText, Bool.and_eq_true, beq_iff_eq] at written
    exact written.2
  refine ⟨fun rest => ⟨?_, ?_⟩, rfl, by simp [value, named], ?_⟩
  · simp [startsDecorator, Token.isText, value]
  · simp [opensDefinition, async, written]
  · simp [Token.isLayout_of_isText (Token.isText_of_isWord async),
      Token.isLayout_of_isText written]

end shapes

namespace Parse

variable {α β : Type}

/-- Where the parser succeeds, it takes tokens that with those taken before are as told of what it
gives. -/
def Lays (waiting after : List Expr) (parser : Parse β) (taken : List Token → Prop)
    (front : Token → Prop) (laid : β → List Token → Prop) : Prop :=
  ∀ before state out behind, state.grammar = .standard → state.decorators = waiting →
    taken before → front state.current → parser state = .ok out behind →
    ∃ more, state.ahead = more ++ behind.ahead ∧ laid out (before ++ more) ∧
      behind.grammar = .standard ∧ behind.decorators = after

/-- A parser that follows symbols inside one line goes on with the line. -/
theorem Follows.inside {waiting : List Expr} {parser : Parse β} {front : Token → Prop}
    (follows : parser.Follows waiting waiting front [] fun _ symbols =>
      ∀ symbol ∈ symbols, symbol.isInline = true)
    (opening : List Token) :
    parser.Lays waiting waiting (Inside opening) front fun _ => Inside opening := by
  intro before state out behind standard waits inside known read
  obtain ⟨symbols, within, moves, kept⟩ :=
    follows state state out behind standard waits (.refl state) known read
  obtain ⟨more, same, plain⟩ := moves.within within
  exact ⟨more, same, inside.append plain, moves.grammar.trans standard, kept⟩

/-- A parser that makes a phrase inside one line goes on with the line. -/
theorem Makes.inside {waiting : List Expr} {parser : Parse β} {phrase : β → Phrase}
    {front : Token → Prop} (makes : parser.Makes waiting phrase)
    (within : ∀ out, (phrase out).isInline = true) (opening : List Token) :
    parser.Lays waiting waiting (Inside opening) front fun _ => Inside opening :=
  Follows.inside (makes.last fun out => by simpa [Symbol.isInline] using within out) opening

section rules

variable {waiting after : List Expr} {taken : List Token → Prop} {front : Token → Prop}
  {laid : β → List Token → Prop}

/-- A value without reading. -/
theorem Lays.pure {value : β} (fit : ∀ before, taken before → laid value before) :
    (Pure.pure value : Parse β).Lays waiting waiting taken front laid := by
  intro before state out behind standard waits known _ read
  obtain ⟨rfl, rfl⟩ := pure_ok read
  exact ⟨[], rfl, by simpa using fit before known, standard, waits⟩

/-- Two parsers in order. -/
theorem Lays.bind {inner : List Expr} {parser : Parse α} {next : α → Parse β}
    {between : α → List Token → Prop}
    (first : parser.Lays waiting inner taken front between)
    (later : ∀ value, (next value).Lays inner after (between value) (fun _ => True) laid) :
    (parser >>= next).Lays waiting after taken front laid := by
  intro before state out behind standard waits known looked read
  obtain ⟨value, middle, head, tail⟩ := bind_ok read
  obtain ⟨more, same, fits, standard, waits⟩ :=
    first before state value middle standard waits known looked head
  obtain ⟨further, others, fits, standard, waits⟩ :=
    later value _ middle out behind standard waits fits trivial tail
  refine ⟨more ++ further, ?_, ?_, standard, waits⟩
  · rw [same, others, List.append_assoc]
  · rwa [List.append_assoc] at fits

/-- More may be known of the tokens taken before and of the token in front, and less is told of
all of them. -/
theorem Lays.weaken {parser : Parse β} {other : List Token → Prop} {known : Token → Prop}
    {told : β → List Token → Prop} (lays : parser.Lays waiting after taken front laid)
    (stronger : ∀ before, other before → taken before)
    (looked : ∀ token, known token → front token)
    (weaker : ∀ out tokens, laid out tokens → told out tokens) :
    parser.Lays waiting after other known told := by
  intro before state out behind standard waits holds sees read
  obtain ⟨more, same, fits, rest⟩ :=
    lays before state out behind standard waits (stronger _ holds) (looked _ sees) read
  exact ⟨more, same, weaker _ _ fits, rest⟩

/-- Nothing need be known of the token in front. -/
theorem Lays.anywhere {parser : Parse β}
    (lays : parser.Lays waiting after taken (fun _ => True) laid) :
    parser.Lays waiting after taken front laid :=
  lays.weaken (fun _ holds => holds) (fun _ _ => trivial) fun _ _ fits => fits

/-- What is told without regard to the tokens taken before may be used behind any. -/
theorem Lays.frame {parser : Parse β} {told : β → List Token → Prop}
    (lays : parser.Lays waiting after (· = []) front told)
    (fit : ∀ before out more, taken before → told out more → laid out (before ++ more)) :
    parser.Lays waiting after taken front laid := by
  intro before state out behind standard waits known looked read
  obtain ⟨more, same, fits, rest⟩ := lays [] state out behind standard waits rfl looked read
  exact ⟨more, same, fit before out more known fits, rest⟩

/-- Whole statements go on below whole statements. -/
theorem Lays.below {parser : Parse β} {definitions : List Stmt} {found : β → List Stmt}
    (lays : parser.Lays waiting after (· = []) front fun out => Settles (found out)) :
    parser.Lays waiting after (Settles definitions) front fun out =>
      Settles (definitions ++ found out) :=
  lays.frame fun _ _ _ front below => front.append below

/-- A failure gives nothing. -/
theorem Lays.fail {cause : Cause} :
    (Parse.fail cause : Parse β).Lays waiting after taken front laid := by
  intro before state out behind _ _ _ _ read
  contradiction

/-- A look at the token in front. -/
theorem Lays.current {next : Token → Parse β}
    (later : ∀ token, front token →
      (next token).Lays waiting after taken (fun found => found = token) laid) :
    (Parse.current >>= next).Lays waiting after taken front laid := by
  intro before state out behind standard waits known looked read
  exact later state.current looked before state out behind standard waits known rfl read

/-- A failure that names the token in front gives nothing. -/
theorem Lays.failExpected {expected : String} :
    (Parse.failExpected expected : Parse β).Lays waiting after taken front laid :=
  .current fun _ _ => .fail

/-- A look for a name or an operator. -/
theorem Lays.check {text : String} {next : Bool → Parse β}
    (later : ∀ found, (next found).Lays waiting after taken
      (fun token => front token ∧ token.isText text = found) laid) :
    (Parse.check text >>= next).Lays waiting after taken front laid := by
  intro before state out behind standard waits known looked read
  exact later _ before state out behind standard waits known ⟨looked, rfl⟩ read

/-- A look for a kind. -/
theorem Lays.checkKind {kind : Kind} {next : Bool → Parse β}
    (later : ∀ found, (next found).Lays waiting after taken
      (fun token => front token ∧ decide (token.kind = kind) = found) laid) :
    (Parse.checkKind kind >>= next).Lays waiting after taken front laid := by
  intro before state out behind standard waits known looked read
  exact later _ before state out behind standard waits known ⟨looked, rfl⟩ read

/-- A look for the rule of the compound statement that starts with the token in front. -/
theorem Lays.compoundRule? {next : Option StatementRule → Parse β}
    (later : ∀ found, (next found).Lays waiting after taken
      (fun token => front token ∧ Grammar.statementRule? Grammar.standard.compound token = found)
      laid) :
    (Parse.compoundRule? >>= next).Lays waiting after taken front laid := by
  intro before state out behind standard waits known looked read
  refine later _ before state out behind standard waits known ⟨looked, ?_⟩ read
  rw [standard]

/-- A look for decorators that wait. -/
theorem Lays.hasDecorators {next : Bool → Parse β}
    (later : (next !waiting.isEmpty).Lays waiting after taken front laid) :
    (Parse.hasDecorators >>= next).Lays waiting after taken front laid := by
  intro before state out behind standard waits known looked read
  subst waits
  exact later before state out behind standard rfl known looked read

/-- The decorators that wait are taken. -/
theorem Lays.takeDecorators {next : List Expr → Parse β}
    (later : (next waiting).Lays [] after taken front laid) :
    (Parse.takeDecorators >>= next).Lays waiting after taken front laid := by
  intro before state out behind standard waits known looked read
  subst waits
  exact later before { state with decorators := [] } out behind standard rfl known looked read

/-- The token in front is taken, if it is not the end mark. -/
theorem Lays.advance (shape : Token → List Token → Prop) {next : Token → Parse β}
    (some_ : ∀ token, front token → token.kind ≠ .endMarker)
    (step : ∀ before token, taken before → front token → shape token (before ++ [token]))
    (later : ∀ token, front token →
      (next token).Lays waiting after (shape token) (fun _ => True) laid) :
    (Parse.advance >>= next).Lays waiting after taken front laid := by
  have single : Parse.advance.Lays waiting waiting taken front fun token tokens =>
      front token ∧ shape token tokens := by
    intro before state token behind standard waits known looked read
    obtain ⟨ahead, line, failure, file, grammar, decorators⟩ := state
    cases ahead with
    | nil => exact absurd rfl (some_ _ looked)
    | cons first ahead =>
      have shaped : front first ∧ shape first (before ++ [first]) :=
        ⟨looked, step before first known looked⟩
      cases ahead with
      | cons second ahead =>
        obtain ⟨rfl, rfl⟩ := EStateM.Result.ok.inj read
        exact ⟨[first], rfl, shaped, standard, waits⟩
      | nil =>
        cases failure with
        | some fault => contradiction
        | none =>
          obtain ⟨rfl, rfl⟩ := EStateM.Result.ok.inj read
          exact ⟨[first], rfl, shaped, standard, waits⟩
  refine single.bind fun token => ?_
  intro before state out behind standard waits known looked read
  exact later token known.1 before state out behind standard waits known.2 looked read

/-- A name or an operator is no end mark. -/
theorem kind_ne_of_isText {token : Token} {text : String} (written : token.isText text = true) :
    token.kind ≠ .endMarker := by
  have admits : Terminal.Admits token (.text text) := written
  exact admits.kind_ne

/-- A name or an operator is required. -/
theorem Lays.expect {text : String} (shape : Token → List Token → Prop) {next : Token → Parse β}
    (step : ∀ before token, taken before → front token → token.isText text = true →
      shape token (before ++ [token]))
    (later : ∀ token, front token → token.isText text = true →
      (next token).Lays waiting after (shape token) (fun _ => True) laid) :
    (Parse.expect text >>= next).Lays waiting after taken front laid := by
  rw [expect_bind]
  refine .check fun found => ?_
  cases found with
  | true =>
    exact .advance shape (fun _ known => kind_ne_of_isText known.2)
      (fun before token holds known => step before token holds known.1 known.2)
      fun token known => later token known.1 known.2
  | false =>
    have refused : (Parse.failExpected text : Parse Token).Lays waiting after taken
      (fun token => front token ∧ token.isText text = false) fun _ _ => False := .failExpected
    exact refused.bind fun _ before _ _ _ _ _ impossible => impossible.elim

/-- A name or an operator is required inside a line. -/
theorem Lays.expect_inside {opening : List Token} {text : String} {next : Token → Parse β}
    (later : ∀ token,
      (next token).Lays waiting after (Inside opening) (fun _ => True) laid) :
    (Parse.expect text >>= next).Lays waiting after (Inside opening) front laid :=
  .expect (fun _ => Inside opening) (fun _ _ inside _ written => inside.word written)
    fun token _ _ => later token

/-- A name or an operator is taken if it is in front. -/
theorem Lays.eat {text : String} (shape : Token → List Token → Prop) {next : Bool → Parse β}
    (step : ∀ before token, taken before → token.isText text = true →
      shape token (before ++ [token]))
    (later : ∀ token, token.isText text = true →
      (next true).Lays waiting after (shape token) (fun _ => True) laid)
    (other : (next false).Lays waiting after taken (fun _ => True) laid) :
    (Parse.eat text >>= next).Lays waiting after taken front laid := by
  have looked : Parse.eat text >>= next = Parse.check text >>= fun found =>
      if found then Parse.advance >>= fun _ => next true else next false := by
    rw [Parse.eat, bind_assoc]
    congr 1
    funext found
    cases found <;> simp
  rw [looked]
  refine .check fun found => ?_
  cases found with
  | true =>
    exact .advance shape (fun _ known => kind_ne_of_isText known.2)
      (fun before token holds known => step before token holds known.2)
      fun token known => later token known.2
  | false => exact other.anywhere

/-- A name that is no reserved word is required. -/
theorem Lays.expectName (shape : Token → List Token → Prop) {next : String → Parse β}
    (step : ∀ before token, taken before → token.kind = .name → shape token (before ++ [token]))
    (later : ∀ token, token.kind = .name →
      (next token.value).Lays waiting after (shape token) (fun _ => True) laid) :
    (Parse.expectName >>= next).Lays waiting after taken front laid := by
  rw [Parse.expectName, bind_assoc]
  refine .current fun token _ => ?_
  by_cases named : (token.kind = .name && !token.isKeyword) = true
  · rw [if_pos named, bind_assoc]
    rw [Bool.and_eq_true, decide_eq_true_eq] at named
    refine .advance shape ?_ ?_ ?_
    · rintro _ rfl last
      rw [named.1] at last
      contradiction
    · rintro before _ holds rfl
      exact step before _ holds named.1
    · rintro _ rfl
      rw [pure_bind]
      exact later _ named.1
  · rw [if_neg named]
    have refused : (Parse.failExpected Kind.name.text : Parse String).Lays waiting after taken
      (fun found => found = token) fun _ _ => False := .failExpected
    exact refused.bind fun _ before _ _ _ _ _ impossible => impossible.elim

/-- A token of a kind is required. -/
theorem Lays.expectKind {kind : Kind} (some_ : kind ≠ .endMarker)
    (shape : Token → List Token → Prop) {next : Token → Parse β}
    (step : ∀ before token, taken before → token.kind = kind → shape token (before ++ [token]))
    (later : ∀ token, token.kind = kind →
      (next token).Lays waiting after (shape token) (fun _ => True) laid) :
    (Parse.expectKind kind >>= next).Lays waiting after taken front laid := by
  have required : Parse.expectKind kind >>= next = Parse.checkKind kind >>= fun found =>
      (if found then Parse.advance else Parse.failExpected kind.text) >>= next := by
    rw [Parse.expectKind, bind_assoc]
  rw [required]
  refine .checkKind fun found => ?_
  cases found with
  | true =>
    refine .advance shape (fun token known last => ?_) (fun before token holds known => ?_)
      fun token known => ?_
    · exact some_ ((of_decide_eq_true known.2).symm.trans last)
    · exact step before token holds (of_decide_eq_true known.2)
    · exact later token (of_decide_eq_true known.2)
  | false =>
    have refused : (Parse.failExpected kind.text : Parse Token).Lays waiting after taken
      (fun token => front token ∧ decide (token.kind = kind) = false) fun _ _ => False :=
        .failExpected
    exact refused.bind fun _ before _ _ _ _ _ impossible => impossible.elim

/-- A token of a kind is taken if it is in front. -/
theorem Lays.eatKind {kind : Kind} (some_ : kind ≠ .endMarker)
    (shape : Token → List Token → Prop) {next : Bool → Parse β}
    (step : ∀ before token, taken before → token.kind = kind → shape token (before ++ [token]))
    (later : ∀ token, token.kind = kind →
      (next true).Lays waiting after (shape token) (fun _ => True) laid)
    (other : (next false).Lays waiting after taken (fun _ => True) laid) :
    (Parse.eatKind kind >>= next).Lays waiting after taken front laid := by
  have looked : Parse.eatKind kind >>= next = Parse.checkKind kind >>= fun found =>
      if found then Parse.advance >>= fun _ => next true else next false := by
    rw [Parse.eatKind, bind_assoc]
    congr 1
    funext found
    cases found <;> simp [some_]
  rw [looked]
  refine .checkKind fun found => ?_
  cases found with
  | true =>
    refine .advance shape (fun token known last => ?_) (fun before token holds known => ?_)
      fun token known => ?_
    · exact some_ ((of_decide_eq_true known.2).symm.trans last)
    · exact step before token holds (of_decide_eq_true known.2)
    · exact later token (of_decide_eq_true known.2)
  | false => exact other.anywhere

/-- What a turn of a loop leads to keeps the invariant of the loop or is what the loop tells. -/
def TurnLays (taken : α → List Token → Prop) (laid : β → List Token → Prop) (result : Turn α β)
    (tokens : List Token) : Prop :=
  match result with
  | .again next => taken next tokens
  | .done out => laid out tokens

/-- A loop whose turns keep an invariant. -/
theorem Lays.loop {turn : α → Parse (Turn α β)} (taken : α → List Token → Prop)
    (turns : ∀ found, (turn found).Lays waiting waiting (taken found) (fun _ => True)
      (TurnLays taken laid))
    (bound : Nat) (found : α) :
    (Parse.loop turn bound found).Lays waiting waiting (taken found) (fun _ => True) laid := by
  induction bound generalizing found with
  | zero =>
    intro before state out behind _ _ _ _ read
    exact absurd read failExpression_ne
  | succ bound ih =>
    refine (turns found).bind fun result => ?_
    cases result with
    | again next => exact ih next
    | done out => exact .pure fun _ fits => fits

/-- A loop whose turns keep an invariant, and a parser behind it. -/
theorem Lays.bind_loop {γ : Type} {turn : α → Parse (Turn α γ)} {next : γ → Parse β}
    (holds : α → List Token → Prop) (between : γ → List Token → Prop) {bound : Nat} {found : α}
    (start : ∀ tokens, taken tokens → holds found tokens)
    (turns : ∀ found, (turn found).Lays waiting waiting (holds found) (fun _ => True)
      (TurnLays holds between))
    (later : ∀ out, (next out).Lays waiting after (between out) (fun _ => True) laid) :
    (Parse.loop turn bound found >>= next).Lays waiting after taken (fun _ => True) laid := by
  have whole := (Lays.loop holds turns bound found).bind later
  exact whole.weaken start (fun _ known => known) fun _ _ fits => fits

end rules

end Parse

end Offside
