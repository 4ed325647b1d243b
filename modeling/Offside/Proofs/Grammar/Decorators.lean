import Offside.Proofs.Grammar.Filled
import Offside.Proofs.Grammar.Invariant
import Offside.Proofs.Grammar.Laying

/-!
# Decorators go to the definition below them

The expressions of decorators wait while a heading is read, and a definition takes them before its
body is entered. So each parser of a statement settles the decorators on its lines, if what reads
the statements inside does (`Scope.statementLine_read`), and by induction on the depth each
definition in what is made has just those directly above it (`decorators_attached`).
-/
namespace Offside

open Parse

/-- A token that starts a compound statement is the word of the rule. -/
theorem Token.StartsCompound.isWord {rule : StatementRule} {token : Token}
    (starts : token.StartsCompound rule) (word : String)
    (single : rule.words Grammar.standard.compound = [word]) : token.isWord word = true := by
  have written := starts.isText word single
  rw [Token.StartsCompound, Grammar.statementRule?] at starts
  split at starts
  · rename_i named
    simp only [Token.isText, Bool.and_eq_true] at written
    simp [Token.isWord, named, beq_iff_eq.1 written.2]
  · contradiction

/-- No definition is among the statements of the phrase. -/
def Symbol.HoldsNoDefinition : Symbol → Prop
  | .phrase (.small out) => out.definitions = []
  | .phrase (.moreSmall found out) => bodyDefinitions found = [] → bodyDefinitions out = []
  | .phrase (.line out) => bodyDefinitions out = []
  | _ => True

/-- No definition is on a line of simple statements. -/
theorem Production.holdsNoDefinition {phrase : Phrase} {body : List Symbol}
    (production : Production phrase body) (parts : ∀ symbol ∈ body, symbol.HoldsNoDefinition) :
    (Symbol.phrase phrase).HoldsNoDefinition := by
  have annotated {target annotation : Expr} {value : Option Expr} {grouped : Bool} {out : Stmt}
      (made : target.annotated? annotation value grouped = some out) : out.definitions = [] := by
    unfold Expr.annotated? at made
    split at made
    · contradiction
    · contradiction
    · obtain rfl := Option.some.inj made
      rfl
    · obtain rfl := Option.some.inj made
      rfl
  cases production with
  | expr production => cases production <;> trivial
  | stmt production =>
    cases production
    case annotate made => exact annotated made
    case annotateAssign made => exact annotated made
    case line first out =>
      obtain ⟨here, later⟩ := List.forall_mem_cons.1 parts
      exact (List.forall_mem_cons.1 later).1 (by rw [bodyDefinitions_singleton]; exact here)
    case smallEnd => exact id
    case smallSemicolon => exact id
    case moreSmall found out stmt =>
      intro none_
      have here : stmt.definitions = [] := parts (.phrase (.small stmt)) (by simp)
      have later : bodyDefinitions (found ++ [stmt]) = [] → bodyDefinitions out = [] :=
        parts (.phrase (.moreSmall (found ++ [stmt]) out)) (by simp)
      exact later (by rw [bodyDefinitions_append, bodyDefinitions_singleton, none_, here]; rfl)
    all_goals trivial

/-- A line of simple statements ends with a line end. -/
theorem Production.line_eq {out : List Stmt} {body : List Symbol}
    (production : Production (.line out) body) :
    ∃ first, body = [.phrase (.small first), .phrase (.moreSmall [first] out), .newline] := by
  cases production with
  | expr production => cases production
  | stmt production =>
    cases production
    exact ⟨_, rfl⟩

namespace Scope

/-- What reads statements settles the decorators on their lines. -/
structure Lays (scope : Scope) : Prop where
  /-- Phrases are made. -/
  sound : scope.Sound
  /-- Statement lines settle their decorators. -/
  statement : scope.statement.Lays [] [] (· = []) (fun _ => True) fun body =>
    Settles (bodyDefinitions body)

/-- A line of simple statements ends a line and holds no definition. -/
theorem line_lays {parser : Parse (List Stmt)} (makes : parser.Makes [] .line)
    (opening : List Token) :
    parser.Lays [] [] (Inside opening) (fun _ => True) fun body =>
      Headed opening (bodyDefinitions body) := by
  intro before state out behind standard waits inside _ read
  obtain ⟨moves, kept⟩ := makes state out behind standard waits read
  obtain ⟨dropped, derives⟩ := moves.covers
  have none_ : bodyDefinitions out = [] :=
    derives.invariant Symbol.HoldsNoDefinition (fun _ => trivial) (fun _ => trivial)
      (fun _ _ _ _ _ production _ _ parts => production.holdsNoDefinition parts)
      (List.suffix_refl _) _ List.mem_cons_self
  obtain ⟨_, _, production, within⟩ := derives.of_phrase
  obtain ⟨first, rfl⟩ := production.line_eq
  have parts : Derives ([.phrase (.small first), .phrase (.moreSmall [first] out)] ++ [.newline]) _
    state.ahead behind.ahead := within
  obtain ⟨_, _, between, rfl, front, back⟩ := parts.of_append
  obtain ⟨ending, later, rfl, ⟨mark, layout⟩, last⟩ := back.of_terminal
  obtain ⟨covered, same, plain⟩ := front.isInline (List.all_eq_true.1 rfl)
  have some_ : covered ≠ [] := by
    rintro rfl
    have fewer := front.filled.2 rfl
    rw [same] at fewer
    exact absurd fewer (Nat.lt_irrefl _)
  have ended := (inside.append plain).ends (List.append_ne_nil_of_right_ne_nil _ some_)
    (show ending.kind.isLayout = true by rwa [mark])
  cases last
  refine ⟨covered ++ [ending], by rw [same]; simp, ?_, moves.grammar.trans standard, kept⟩
  show Headed opening (bodyDefinitions out) (before ++ (covered ++ [ending]))
  rw [none_, ← List.append_assoc]
  exact ended

variable {scope : Scope} (lays : scope.Lays)
include lays

/-- The block behind a colon. -/
theorem suite_lays {opening : List Token} (some_ : opening ≠ []) :
    scope.suite.Lays [] [] (Inside opening) (fun _ => True) fun body =>
      Headed opening (bodyDefinitions body) := by
  have block : scope.indented.Lays [] [] (Headed opening []) (fun _ => True) fun body =>
      Headed opening (bodyDefinitions body) := by
    refine .expectKind (by decide) (fun _ => Headed opening []) ?_ fun _ _ => ?_
    · intro before token headed indents
      have mark : token.kind.isLayout = true := by rw [indents]; rfl
      exact headed.append (.mark mark (by simp [indents]))
    refine .loop (fun body => Headed opening (bodyDefinitions body)) (fun body => ?_) _ []
    refine .eatKind (by decide) (fun _ => Headed opening (bodyDefinitions body)) ?_
      (fun _ _ => .pure fun _ headed => headed) ?_
    · intro before token headed dedents
      have mark : token.kind.isLayout = true := by rw [dedents]; rfl
      have closed := headed.append (.mark mark (by simp [dedents]))
      rwa [List.append_nil] at closed
    · have further := lays.statement.frame fun before more tokens headed settles => by
        have whole : Headed opening (bodyDefinitions body ++ bodyDefinitions more)
          (before ++ tokens) := Headed.append headed settles
        exact whole
      exact further.bind fun more => .pure fun _ headed => by
        rwa [TurnLays, bodyDefinitions_append]
  refine .eatKind (by decide) (fun _ => Headed opening []) ?_ (fun _ _ => block)
    (line_lays lays.sound.line opening)
  intro before token inside ends
  exact inside.ends (inside.1.ne_nil some_) (by rw [ends]; rfl)

/-- A colon and the block behind it. -/
theorem colonSuite_lays {opening : List Token} (some_ : opening ≠ []) :
    scope.colonSuite.Lays [] [] (Inside opening) (fun _ => True) fun body =>
      Headed opening (bodyDefinitions body) :=
  .expect_inside fun _ => suite_lays lays some_

/-- A word that opens no definition, and the block behind it. -/
theorem optionalSuite_lays (word : String) (other : word ∉ ["@", "def", "class", "async"]) :
    (scope.optionalSuite word).Lays [] [] (· = []) (fun _ => True) fun body =>
      Settles (bodyDefinitions body) := by
  refine .eat (fun token => Inside [token]) ?_ (fun token written => ?_) (.pure ?_)
  · rintro _ token rfl written
    exact .start written
  · have laid := colonSuite_lays lays (List.cons_ne_nil token [])
    exact laid.weaken (fun _ inside => inside) (fun _ _ => trivial)
      fun _ _ headed => headed.settles (.of_isText written other)
  · rintro _ rfl
    exact .nil

/-- Behind whole statements, a word that opens no definition, and the block behind it. -/
theorem optionalSuite_below {opening : List Token} {definitions : List Stmt} {word : String}
    (other : word ∉ ["@", "def", "class", "async"]) :
    (scope.optionalSuite word).Lays [] [] (Headed opening definitions) (fun _ => True) fun body =>
      Headed opening (definitions ++ bodyDefinitions body) :=
  (optionalSuite_lays lays word other).frame fun _ _ _ headed settles => headed.append settles

/-- The definition of a function takes the decorators that wait. -/
theorem functionDef_lays (waiting : List Expr) {isAsync : Bool} {place : Nat} {before : List Token}
    {front : Token → Prop}
    (opens : ∀ token, front token → token.isText "def" = true →
      OpensFunction isAsync place (before ++ [token])) :
    (scope.functionDef isAsync place).Lays waiting [] (· = before) front
      fun out tokens => out.decorators = waiting ∧ Defines out tokens := by
  refine .expect (fun token tokens => tokens = before ++ [token]) ?_ fun word known written => ?_
  · rintro _ token rfl - -
    rfl
  obtain ⟨opening, first, words, plain⟩ := opens word known written
  refine .expectName (fun name => Inside (before ++ [word] ++ [name])) ?_ fun name named => ?_
  · rintro _ name rfl named
    refine ⟨List.prefix_refl _, List.forall_mem_append.2 ⟨plain, ?_⟩⟩
    simp [named, Kind.isLayout]
  refine .expect_inside fun _ => ?_
  have parameters := Inner.parameters_makes (lays.sound.inner waiting) .definition
  refine (parameters.inside (fun _ => rfl) _).bind fun parameters => .expect_inside fun _ => ?_
  have rest (returns : Option Expr) : (do
      let _ ← Parse.expect ":"
      let decorators ← Parse.takeDecorators
      let body ← scope.suite
      return Stmt.functionDef isAsync name.value parameters body decorators returns place
        : Parse Stmt).Lays waiting [] (Inside (before ++ [word] ++ [name])) (fun _ => True)
      fun out tokens => out.decorators = waiting ∧ Defines out tokens := by
    refine .expect_inside fun _ => .takeDecorators ?_
    refine (suite_lays lays (by simp)).bind fun body => .pure ?_
    rintro _ ⟨line, lines, rfl, ⟨more, rfl⟩, whole, settled⟩
    have split : before ++ [word] ++ [name] ++ more = (before ++ [word]) ++ name :: more := by simp
    obtain ⟨bare, opens⟩ := opening (name :: more)
    rw [← split] at bare opens
    exact ⟨rfl, _, lines, _, rfl, whole, bare, opens,
      ⟨before ++ [word], name, more, split, first, words, named, rfl⟩, rfl, settled⟩
  refine .eat (fun _ => Inside _) (fun _ _ inside written => inside.word written) (fun _ _ => ?_) ?_
  · have hint := Inner.expr_makes (lays.sound.inner waiting) Power.any
    exact (hint.inside (fun _ => rfl) _).bind fun annotation => rest (some annotation)
  · exact rest none

/-- The definition of a class takes the decorators that wait. -/
theorem classDef_lays (waiting : List Expr) :
    scope.classDef.Lays waiting [] (· = []) (Token.StartsCompound .classDef)
      fun out tokens => out.decorators = waiting ∧ Defines out tokens := by
  refine .advance (fun word tokens => tokens = [word]) ?_ ?_ fun word starts => ?_
  · exact fun token starts => kind_ne_of_isText (starts.isText "class" (by decide))
  · rintro _ word rfl -
    rfl
  refine .expectName (fun name => Inside [word, name]) ?_ fun name named => ?_
  · rintro _ name rfl named
    have written := starts.isText "class" (by decide)
    refine ⟨List.prefix_refl _, ?_⟩
    have plain : name.kind.isLayout = false := by rw [named]; rfl
    simp [Token.isLayout_of_isText written, plain]
  have rest (found : CallArguments) : (do
      let _ ← Parse.expect ":"
      let decorators ← Parse.takeDecorators
      let body ← scope.suite
      return Stmt.classDef name.value found.positional found.keywords body decorators word.line
        : Parse Stmt).Lays waiting [] (Inside [word, name]) (fun _ => True)
      fun out tokens => out.decorators = waiting ∧ Defines out tokens := by
    refine .expect_inside fun _ => .takeDecorators ?_
    refine (suite_lays lays (by simp)).bind fun body => .pure ?_
    rintro _ ⟨line, lines, rfl, ⟨more, rfl⟩, whole, settled⟩
    have type : word.isWord "class" = true := starts.isWord "class" (by decide)
    have value := Token.isWord_value type
    refine ⟨rfl, _, lines, _, rfl, whole, ?_, ?_,
      ⟨word, name, more, rfl, rfl, value, named, rfl⟩, rfl, settled⟩
    · simp [startsDecorator, Token.isText, value]
    · simp [opensDefinition, type]
  refine .eat (fun _ => Inside _) (fun _ _ inside written => inside.word written) (fun _ _ => ?_) ?_
  · refine (Follows.inside ?_ _).bind fun found => rest found
    refine (Inner.callArguments_follows (lays.sound.inner waiting)).weaken_fits ?_
    rintro found _ rfl
    exact List.all_eq_true.1 rfl
  · exact rest ⟨[], []⟩

/-- A loop over a sequence. -/
theorem forLoop_lays {opening : List Token} (isAsync : Bool)
    (plain : ∀ token, token.isText "for" = true → IsPlainOpening (opening ++ [token]))
    (inside : ∀ token ∈ opening, token.kind.isLayout = false) :
    (scope.forLoop isAsync).Lays [] [] (· = opening) (fun _ => True) fun out =>
      Settles out.definitions := by
  refine .expect (fun token => Inside (opening ++ [token])) ?_ fun token _ written => ?_
  · rintro _ token rfl _ written
    exact .first inside written
  refine ((Inner.forIn_makes (lays.sound.inner []) _).inside (fun _ => rfl) _).bind fun found => ?_
  refine (colonSuite_lays lays (by simp)).bind fun body => ?_
  refine (optionalSuite_below lays (by decide)).bind fun orelse => .pure fun _ headed => ?_
  exact headed.settles (plain token written)

/-- A context stands inside one line. -/
theorem withItems_lays {opening : List Token} (isAsync : Bool)
    (plain : ∀ token, token.isText "with" = true → IsPlainOpening (opening ++ [token]))
    (inside : ∀ token ∈ opening, token.kind.isLayout = false) :
    (scope.withItems isAsync).Lays [] [] (· = opening) (fun _ => True) fun out =>
      Settles out.definitions := by
  refine .expect (fun token => Inside (opening ++ [token])) ?_ fun token _ written => ?_
  · rintro _ token rfl _ written
    exact .first inside written
  refine .bind_loop (fun _ => Inside (opening ++ [token])) (fun _ => Inside (opening ++ [token]))
    (fun _ inside => inside) (fun items => ?_) fun items => ?_
  · refine ((withItem_makes lays.sound).inside (fun _ => rfl) _).bind fun item => ?_
    exact .eat (fun _ => Inside (opening ++ [token]))
      (fun _ _ inside written => inside.word written)
      (fun _ _ => .pure fun _ inside => inside) (.pure fun _ inside => inside)
  · refine (colonSuite_lays lays (by simp)).bind fun body => .pure fun _ headed => ?_
    exact headed.settles (plain token written)

/-- A condition behind a word and its block. -/
theorem condition_lays {front : Token → Prop} (word : String)
    (other : word ∉ ["@", "def", "class", "async"])
    (written : ∀ token, front token → token.isText word = true) :
    scope.condition.Lays [] [] (· = []) front fun out => Settles (bodyDefinitions out.2) := by
  refine .advance (fun token => Inside [token]) ?_ ?_ fun token known => ?_
  · exact fun token known => kind_ne_of_isText (written token known)
  · rintro _ token rfl known
    exact .start (written token known)
  refine ((Inner.expr_makes (lays.sound.inner []) _).inside (fun _ => rfl) _).bind fun test => ?_
  refine (colonSuite_lays lays (by simp)).bind fun body => .pure fun _ headed => ?_
  exact headed.settles (.of_isText (written token known) other)

/-- A choice. -/
theorem ifElse_lays :
    scope.ifElse.Lays [] [] (· = []) (Token.StartsCompound .ifElse) fun out =>
      Settles out.definitions := by
  refine (condition_lays lays "if" (by decide) fun token (starts : token.StartsCompound .ifElse) =>
    starts.isText "if" (by decide)).bind fun first => ?_
  obtain ⟨test, body⟩ := first
  refine .bind_loop
    (fun others : List (Expr × List Stmt) =>
      Settles (bodyDefinitions body ++ others.flatMap fun other => bodyDefinitions other.2))
    (fun others : List (Expr × List Stmt) =>
      Settles (bodyDefinitions body ++ others.flatMap fun other => bodyDefinitions other.2))
    (fun _ settles => by simpa using settles) (fun others => ?_) fun others => ?_
  · refine .check fun found => ?_
    cases found with
    | false => exact .pure fun _ settles => settles
    | true =>
      have further := condition_lays lays "elif" (by decide)
        fun token (known : True ∧ token.isText "elif" = true) => known.2
      refine further.below.bind fun other => .pure fun _ settles => ?_
      simpa [TurnLays] using settles
  · have orelse := optionalSuite_lays lays "else" (by decide)
    refine orelse.below.bind fun last => ?_
    refine .pure fun _ settles => ?_
    rw [Stmt.definitions, bodyDefinitions_choices, ← List.append_assoc]
    exact settles

/-- A loop under a condition. -/
theorem whileLoop_lays :
    scope.whileLoop.Lays [] [] (· = []) (Token.StartsCompound .whileLoop) fun out =>
      Settles out.definitions := by
  refine (condition_lays lays "while" (by decide)
    fun token (starts : token.StartsCompound .whileLoop) =>
      starts.isText "while" (by decide)).bind fun first => ?_
  have orelse := optionalSuite_lays lays "else" (by decide)
  refine orelse.below.bind fun last => ?_
  exact .pure fun _ settles => settles

/-- A handler, behind a word. -/
theorem handler_lays {opening : List Token} (some_ : opening ≠ []) :
    scope.handler.Lays [] [] (Inside opening) (fun _ => True) fun handler =>
      Headed opening (bodyDefinitions handler.body) := by
  have block := colonSuite_lays lays some_
  refine .check fun all => ?_
  cases all with
  | true => exact block.anywhere.bind fun body => .pure fun _ headed => headed
  | false =>
    have type := Inner.expr_makes (lays.sound.inner []) Power.any
    refine (type.inside (fun _ => rfl) _).bind fun type => ?_
    refine (Inner.asName_makes.inside (fun _ => rfl) _).bind fun name => ?_
    exact block.bind fun body => .pure fun _ headed => headed

/-- Handled exceptions. -/
theorem tryExcept_lays :
    scope.tryExcept.Lays [] [] (· = []) (Token.StartsCompound .tryExcept) fun out =>
      Settles out.definitions := by
  have block (token : Token) := colonSuite_lays lays (List.cons_ne_nil token [])
  refine .advance (fun token => Inside [token]) ?_ ?_ fun token starts => ?_
  · exact fun token starts => kind_ne_of_isText (starts.isText "try" (by decide))
  · rintro _ token rfl starts
    exact .start (starts.isText "try" (by decide))
  refine (block token).bind fun body => ?_
  have nextHandler (handlers : List ExceptHandler) : (do
      if ← Parse.eat "except" then return .again (handlers ++ [← scope.handler])
      else return .done handlers : Parse (Turn _ (List ExceptHandler))).Lays [] [] (· = [])
      (fun _ => True) (TurnLays (fun next tokens => ∃ handler : ExceptHandler,
          next = handlers ++ [handler] ∧ Settles (bodyDefinitions handler.body) tokens)
        fun out tokens => out = handlers ∧ tokens = []) := by
    refine .eat (fun token => Inside [token]) ?_ (fun token written => ?_) ?_
    · rintro _ token rfl written
      exact .start written
    · have laid := handler_lays lays (List.cons_ne_nil token [])
      refine laid.bind fun handler => .pure fun _ headed => ?_
      exact ⟨handler, rfl, headed.settles (.of_isText written (by decide))⟩
    · exact .pure fun _ none_ => ⟨rfl, none_⟩
  refine .bind_loop
    (fun handlers => Settles (bodyDefinitions body ++ handlerDefinitions handlers))
    (fun handlers => Settles (bodyDefinitions body ++ handlerDefinitions handlers))
    ?_ (fun handlers => (nextHandler handlers).frame ?_) fun handlers => ?_
  · intro tokens headed
    have settles := headed.settles (.of_isText (starts.isText "try" (by decide)) (by decide))
    rwa [handlerDefinitions, List.append_nil]
  · intro before result more settles told
    cases result with
    | again next =>
      obtain ⟨handler, rfl, below⟩ := told
      show Settles (bodyDefinitions body ++ handlerDefinitions (handlers ++ [handler])) _
      rw [handlerDefinitions_concat, ← List.append_assoc]
      exact settles.append below
    | done out =>
      obtain ⟨rfl, rfl⟩ := told
      rwa [List.append_nil]
  · have orelse := optionalSuite_lays lays "else" (by decide)
    refine orelse.below.bind fun orelse => ?_
    have final : (do
        if ← Parse.eat "finally" then
          return Stmt.tryExcept body handlers orelse (← scope.colonSuite)
        else if handlers.isEmpty then Parse.fail .missingExceptOrFinally
        else return .tryExcept body handlers orelse [] : Parse Stmt).Lays [] [] (· = [])
        (fun _ => True) fun out tokens => ∃ last, out = .tryExcept body handlers orelse last ∧
          Settles (bodyDefinitions last) tokens := by
      refine .eat (fun token => Inside [token]) ?_ (fun token written => ?_) ?_
      · rintro _ token rfl written
        exact .start written
      · refine (block token).bind fun last => .pure fun _ headed => ?_
        exact ⟨last, rfl, headed.settles (.of_isText written (by decide))⟩
      · rw [if_neg Bool.false_ne_true]
        split
        · exact .fail
        · refine .pure ?_
          rintro _ rfl
          exact ⟨[], rfl, .nil⟩
    refine final.frame ?_
    rintro before out more settles ⟨last, rfl, below⟩
    exact settles.append below

/-- The word async and what is behind it. Only a definition takes decorators. -/
theorem async_lays (waiting : List Expr) :
    scope.async.Lays waiting [] (· = []) (Token.StartsCompound .async) (TakesWaiting waiting) := by
  refine .advance (fun word tokens => tokens = [word]) ?_ ?_ fun word starts => ?_
  · exact fun word starts => kind_ne_of_isText (starts.isText "async" (by decide))
  · rintro _ word rfl -
    rfl
  have first : word.isWord "async" = true := starts.isWord "async" (by decide)
  have inside : ∀ token ∈ [word], token.kind.isLayout = false := by
    simpa using Token.isLayout_of_isText (starts.isText "async" (by decide))
  refine .check fun defines => ?_
  cases defines with
  | true =>
    have definition := functionDef_lays lays waiting (fun token (_ : True) written =>
      OpensFunction.of_async first written)
    exact definition.weaken (fun _ same => same) (fun _ _ => trivial) fun _ _ fits => .inl fits
  | false =>
    refine .hasDecorators ?_
    cases waiting with
    | cons decorator waiting => exact .fail
    | nil =>
      refine .check fun loops => ?_
      cases loops with
      | true =>
        have loop := forLoop_lays lays true (fun token written =>
          IsPlainOpening.of_async first written (by decide)) inside
        exact loop.weaken (fun _ same => same) (fun _ _ => trivial) fun _ _ fits => .inr ⟨rfl, fits⟩
      | false =>
        refine .check fun enters => ?_
        cases enters with
        | true =>
          have contexts := withItems_lays lays true (fun token written =>
            IsPlainOpening.of_async first written (by decide)) inside
          exact contexts.weaken (fun _ same => same) (fun _ _ => trivial)
            fun _ _ fits => .inr ⟨rfl, fits⟩
        | false => exact .fail

end Scope

/-- A compound statement that is read by the rule of its first word takes the decorators that wait,
if it is a definition, and none wait before it, if it is not. -/
theorem StatementRule.parse_lays {scope : Scope} (lays : scope.Lays) {rule : StatementRule}
    {waiting : List Expr}
    (takes : waiting = [] ∨ rule ∈ [StatementRule.functionDef, .classDef, .async]) :
    (rule.parse scope).Lays waiting [] (· = []) (Token.StartsCompound rule)
      (TakesWaiting waiting) := by
  have alone (other : rule ∉ [StatementRule.functionDef, .classDef, .async]) : waiting = [] :=
    takes.resolve_right other
  have settled {parser : Parse Stmt} {front : Token → Prop}
      (other : rule ∉ [StatementRule.functionDef, .classDef, .async])
      (parsed : parser.Lays [] [] (· = []) front fun out => Settles out.definitions) :
      parser.Lays waiting [] (· = []) front (TakesWaiting waiting) := by
    rw [alone other]
    exact parsed.weaken (fun _ same => same) (fun _ known => known) fun _ _ fits => .inr ⟨rfl, fits⟩
  cases rule with
  | functionDef =>
    refine .current fun token starts => ?_
    have definition := Scope.functionDef_lays lays waiting (fun found (same : found = token) _ =>
      OpensFunction.of_def (starts.isWord "def" (by decide)) same)
    exact definition.weaken (fun _ same => same) (fun _ known => known) fun _ _ fits => .inl fits
  | async => exact Scope.async_lays lays waiting
  | classDef =>
    exact (Scope.classDef_lays lays waiting).weaken (fun _ same => same) (fun _ known => known)
      fun _ _ fits => .inl fits
  | ifElse => exact settled (by decide) (Scope.ifElse_lays lays)
  | forLoop =>
    refine settled (by decide) (Scope.forLoop_lays lays false ?_ (by simp)).anywhere
    exact fun token written => .of_isText written (by decide)
  | whileLoop => exact settled (by decide) (Scope.whileLoop_lays lays)
  | withItems =>
    refine settled (by decide) (Scope.withItems_lays lays false ?_ (by simp)).anywhere
    exact fun token written => .of_isText written (by decide)
  | tryExcept => exact settled (by decide) (Scope.tryExcept_lays lays)
  | importModules | importFrom | breakLoop | continueLoop | pass | returnValue | raise | assert
    | delete | globals | nonlocals =>
    intro before state out behind _ _ _ starts
    exact absurd (Token.mem_words_of_statementRule starts).2 List.not_mem_nil

/-- A line of a decorator is one line. -/
theorem DecoratorLine.isLine {decorator : Expr} {line : List Token}
    (holds : DecoratorLine decorator line) : IsLine line := by
  obtain ⟨sign, inside, ending, rfl, written, ends, plain, -⟩ := holds
  refine ⟨sign :: inside, ending, rfl, ?_, by rw [ends]; rfl, fun _ => List.cons_ne_nil _ _⟩
  exact List.forall_mem_cons.2 ⟨Token.isLayout_of_isText written, plain⟩

/-- A line of a decorator starts with its sign. -/
theorem DecoratorLine.starts {decorator : Expr} {line : List Token}
    (holds : DecoratorLine decorator line) : startsDecorator line = true := by
  obtain ⟨sign, inside, ending, rfl, written, -⟩ := holds
  simpa [startsDecorator] using written

/-- Lines of decorators are whole and start with their signs. -/
theorem decoratorLines_start {decorators : List Expr} {lines : List (List Token)}
    (hold : List.Forall₂ DecoratorLine decorators lines) :
    (∀ line ∈ lines, IsLine line) ∧ ∀ line ∈ lines, startsDecorator line = true := by
  induction hold with
  | nil => simp
  | cons here _ ih =>
    exact ⟨List.forall_mem_cons.2 ⟨here.isLine, ih.1⟩, List.forall_mem_cons.2 ⟨here.starts, ih.2⟩⟩

/-- What is made of lines of decorators and of the tokens below them: a definition that has the
decorators, or statements without any decorators above them. -/
def Decorated (body : List Stmt) (lines : List (List Token)) (rest : List Token) : Prop :=
  ∃ decorators, List.Forall₂ DecoratorLine decorators lines ∧
    ((decorators = [] ∧ Settles (bodyDefinitions body) rest) ∨
      ∃ definition, body = [definition] ∧ definition.decorators = decorators ∧
        Defines definition rest)

/-- A definition below its decorators settles them. -/
theorem Decorated.settles {body : List Stmt} {lines : List (List Token)} {rest : List Token}
    (decorated : Decorated body lines rest) :
    Settles (bodyDefinitions body) (lines.flatten ++ rest) := by
  obtain ⟨decorators, hold, ⟨rfl, settles⟩ | ⟨definition, rfl, rfl, defines⟩⟩ := decorated
  · obtain rfl := List.forall₂_nil_left_iff.1 hold
    exact settles
  · obtain ⟨line, below, inside, rfl, whole, bare, opens, heads, same, settled⟩ := defines
    obtain ⟨wholes, starts⟩ := decoratorLines_start hold
    refine ⟨lines ++ line :: below, by simp, ?_⟩
    rw [bodyDefinitions_singleton, same]
    exact settled.definition wholes starts hold whole bare opens heads

namespace Scope

variable {scope : Scope} {bound : Nat}

/-- Decorators are read line by line, as far as their signs reach, and wait in order. -/
theorem decorators_read (sound : scope.Sound) (reads : scope.inner = .upTo bound) {turns : Nat}
    {state behind : State} (standard : state.grammar = .standard)
    (read : loop (fun _ => scope.nextDecorator) turns () state = .ok () behind) :
    ∃ decorators lines, state.ahead = lines.flatten ++ behind.ahead ∧
      behind.decorators = state.decorators ++ decorators ∧ behind.grammar = .standard ∧
      List.Forall₂ DecoratorLine decorators lines ∧ behind.current.isText "@" = false := by
  induction turns generalizing state with
  | zero => exact absurd read failExpression_ne
  | succ turns ih =>
    obtain ⟨result, last, turn, rest⟩ := bind_ok read
    obtain ⟨found, first, head, tail⟩ := bind_ok turn
    rcases eat_ok head with ⟨rfl, written, sign, kept⟩ | ⟨rfl, other, rfl⟩
    · obtain ⟨decorator, second, middle, tail⟩ := bind_ok tail
      have plain := sign.grammar.trans standard
      obtain ⟨expr, waits⟩ := Inner.expr_makes (sound.inner _) _ first decorator second plain rfl
        middle
      obtain ⟨token, third, head, tail⟩ := bind_ok tail
      obtain ⟨ended, stays⟩ := (expectKind_ok head).2 rfl
      obtain ⟨⟨⟩, fourth, pushed, tail⟩ := bind_ok tail
      obtain ⟨rfl, rfl⟩ := pure_ok tail
      obtain ⟨-, rfl⟩ := EStateM.Result.ok.inj pushed
      obtain ⟨at_, ahead, signed⟩ := sign.token
      obtain ⟨inside, between, bare⟩ := expr.within (List.all_eq_true.1 rfl)
      obtain ⟨ending, after, ends, -⟩ := ended.token
      have line : DecoratorLine decorator (at_ :: inside ++ [ending]) := by
        refine ⟨at_, inside, ending, rfl, signed, ends, bare, bound, first, second, plain, ?_,
          between, by rw [State.current, after]; rfl⟩
        rw [← reads]
        exact middle
      have onward : ({ third with decorators := third.decorators ++ [decorator] } : State).grammar =
          .standard := ended.grammar.trans (expr.grammar.trans plain)
      obtain ⟨decorators, lines, below, waiting, grammar, hold, other⟩ := ih onward rest
      refine ⟨decorator :: decorators, (at_ :: inside ++ [ending]) :: lines, ?_, ?_, grammar,
        .cons line hold, other⟩
      · rw [ahead, between, after, below]
        simp
      · rw [waiting, stays, waits, kept]
        simp
    · obtain ⟨rfl, rfl⟩ := pure_ok tail
      obtain ⟨-, rfl⟩ := pure_ok rest
      exact ⟨[], [], rfl, by simp, standard, .nil, other⟩

/-- A line opens no definition if its first token starts no compound statement. -/
theorem opensDefinition_of_rule {line : List Token} {token : Token}
    (front : line.head? = some token)
    (none_ : Grammar.statementRule? Grammar.standard.compound token = none) :
    opensDefinition line = false := by
  have word (text : String) (listed : (Grammar.standard.compound.lookup text).isSome = true) :
      token.isWord text = false := by
    by_contra written
    rw [Bool.not_eq_false, Token.isWord, Bool.and_eq_true, beq_iff_eq, beq_iff_eq] at written
    rw [Grammar.statementRule?, if_pos written.1, written.2] at none_
    rw [none_] at listed
    contradiction
  cases line with
  | nil => rfl
  | cons first rest =>
    obtain rfl := Option.some.inj front
    rw [opensDefinition, word "def" (by decide), word "class" (by decide), word "async" (by decide)]
    rfl

/-- The statement behind decorators takes them, if it is a definition, and there are none, if it is
not. -/
theorem decorated_lays (lays : scope.Lays) {decorators : List Expr} : (do
    let waiting ← hasDecorators
    match ← compoundRule? with
    | some rule =>
      let token ← current
      if waiting && !decorated.any token.isText then fail .unexpectedDecorator
      else return [← rule.parse scope]
    | none => if waiting then fail .unexpectedDecorator else scope.simpleLine
      : Parse (List Stmt)).Lays decorators [] (· = []) (fun token => token.isText "@" = false)
        fun body tokens =>
          (decorators = [] ∧ Settles (bodyDefinitions body) tokens) ∨
            ∃ definition, body = [definition] ∧ definition.decorators = decorators ∧
              Defines definition tokens := by
  refine .hasDecorators (.compoundRule? fun found => ?_)
  cases found with
  | some rule =>
    refine .current fun token ⟨_, starts⟩ => ?_
    split
    · exact .fail
    · rename_i allowed
      have compound := rule.parse_lays lays (takes_of_decorated starts allowed)
      have known := compound.weaken (fun _ same => same)
        (fun found (same : found = token) => same ▸ starts) fun _ _ placed => placed
      refine known.bind fun stmt => .pure ?_
      rintro tokens (⟨same, defines⟩ | ⟨none_, settles⟩)
      · exact .inr ⟨stmt, rfl, same, defines⟩
      · exact .inl ⟨none_, by rwa [bodyDefinitions_singleton]⟩
  | none =>
    cases decorators with
    | cons decorator decorators => exact .fail
    | nil =>
      rintro _ state out behind standard waits rfl ⟨other, none_⟩ read
      have line := line_lays (simpleLine_makes lays.sound) []
      obtain ⟨more, same, ⟨first, lines, rfl, -, whole, settled⟩, after, kept⟩ :=
        line [] state out behind standard waits ⟨List.nil_prefix, by simp⟩ trivial read
      refine ⟨_, same, .inl ⟨rfl, first :: lines, by simp, ?_⟩, after, kept⟩
      have front : first.head? = some state.current := by
        obtain ⟨inside, mark, rfl, -⟩ := whole
        rw [State.current, same]
        cases inside <;> rfl
      have bare : startsDecorator first = false := by
        rw [startsDecorator, front]
        exact other
      exact (Settled.plain whole bare (opensDefinition_of_rule front none_)).append settled

/-- A statement line is lines of decorators, as many as are in front, and the definition below them,
or a statement without any, and leaves no decorators. -/
theorem statementLine_read (lays : scope.Lays) (reads : scope.inner = .upTo bound)
    {state behind : State} {body : List Stmt} (standard : state.grammar = .standard)
    (waits : state.decorators = []) (read : scope.statementLine state = .ok body behind) :
    ∃ lines rest, state.ahead = lines.flatten ++ (rest ++ behind.ahead) ∧
      Decorated body lines rest ∧ behind.grammar = .standard ∧ behind.decorators = [] ∧
      (startsDecorator state.ahead = true → lines ≠ []) := by
  obtain ⟨⟨⟩, middle, head, tail⟩ := bind_ok read
  obtain ⟨decorators, lines, ahead, waiting, grammar, hold, other⟩ :=
    decorators_read lays.sound reads standard head
  rw [waits, List.nil_append] at waiting
  obtain ⟨rest, same, placed, after, kept⟩ :=
    decorated_lays lays [] middle body behind grammar waiting rfl other tail
  refine ⟨lines, rest, by rw [ahead, same], ⟨decorators, hold, placed⟩, after, kept, ?_⟩
  rintro starts rfl
  rw [List.flatten_nil, List.nil_append] at ahead
  rw [ahead, startsDecorator] at starts
  rw [State.current] at other
  cases front : middle.ahead with
  | nil =>
    rw [front] at starts
    contradiction
  | cons token rest =>
    rw [front] at starts other
    exact absurd (other.symm.trans starts) Bool.false_ne_true

/-- What reads statements of any depth settles the decorators on their lines. -/
theorem lays_at (depth : Nat) (bound : Nat) :
    Scope.Lays ⟨.upTo bound, statementAt depth, lineAt depth⟩ := by
  induction depth generalizing bound with
  | zero =>
    refine ⟨⟨fun _ => Inner.sound_upTo bound, (statementAt_makes 0).1, (statementAt_makes 0).2⟩, ?_⟩
    refine .current fun token _ => ?_
    split <;> exact .fail
  | succ depth ih =>
    refine ⟨⟨fun _ => Inner.sound_upTo bound, (statementAt_makes _).1, (statementAt_makes _).2⟩, ?_⟩
    rintro _ state body behind standard waits rfl - read
    obtain ⟨lines, rest, same, decorated, grammar, kept, -⟩ :=
      statementLine_read (ih (depth + 1)) rfl standard waits read
    rw [← List.append_assoc] at same
    exact ⟨lines.flatten ++ rest, same, decorated.settles, grammar, kept⟩

end Scope

/-- Decorators go to the definition right below them. Where no decorators wait and a statement line
is read, whatever the depth to which statements may be nested, none wait behind it, and the
definitions in what it makes, at every depth and in order, stand on the lines that open definitions
among the tokens that are taken, each with the expressions of the lines of decorators directly
above its line. It fails where lines of decorators are in front and the line below them, if there is
one, opens no definition. -/
theorem decorators_attached {bound depth : Nat} {state : State}
    (standard : state.grammar = .standard) (waits : state.decorators = []) :
    (∀ body behind,
      Scope.statementLine ⟨.upTo bound, statementAt depth, lineAt depth⟩ state = .ok body behind →
      behind.decorators = [] ∧ ∃ taken, state.ahead = taken ++ behind.ahead ∧
        List.Forall₂ Stmt.StandsOn (bodyDefinitions body) (definitionLines [] (tokenLines taken))) ∧
    (startsDecorator state.ahead = true →
      ((tokenLines state.ahead).dropWhile startsDecorator).head?.any opensDefinition = false →
      ∃ fault last,
        Scope.statementLine ⟨.upTo bound, statementAt depth, lineAt depth⟩ state =
          .error fault last) := by
  have lays := Scope.lays_at depth bound
  constructor
  · intro body behind read
    obtain ⟨above, rest, same, decorated, -, kept, -⟩ :=
      Scope.statementLine_read lays rfl standard waits read
    obtain ⟨lines, cut, settled⟩ := decorated.settles
    refine ⟨kept, lines.flatten, by rw [same, ← List.append_assoc, cut], ?_⟩
    have whole := tokenLines_flatten settled.whole []
    rw [tokenLines, List.append_nil, List.append_nil] at whole
    rw [whole]
    exact settled.stand
  · intro starts closed
    cases read : Scope.statementLine ⟨.upTo bound, statementAt depth, lineAt depth⟩ state with
    | error fault last => exact ⟨fault, last, rfl⟩
    | ok body behind =>
      exfalso
      obtain ⟨above, rest, same, decorated, -, -, some_⟩ :=
        Scope.statementLine_read lays rfl standard waits read
      obtain ⟨decorators, hold, ⟨rfl, -⟩ | ⟨definition, -, -, defines⟩⟩ := decorated
      · exact some_ starts (List.forall₂_nil_left_iff.1 hold)
      · obtain ⟨line, lines, inside, rfl, whole, bare, opens, -⟩ := defines
        obtain ⟨wholes, signs⟩ := decoratorLines_start hold
        rw [same, tokenLines_flatten wholes, List.append_assoc, whole.cut,
          List.dropWhile_append_of_pos signs, List.dropWhile_cons_of_neg (by simp [bare]),
          List.head?_cons, Option.any_some, opens] at closed
        contradiction

/-- A function with a decorator and in it a class with two. -/
def nestedDecorators : State where
  ahead :=
    [.mark "@", .word "a", ⟨.newline, "", 1, ""⟩, .word "def", .word "f", .mark "(", .mark ")",
      .mark ":", ⟨.newline, "", 2, ""⟩, ⟨.indent, "", 3, ""⟩, .mark "@", .word "b",
      ⟨.newline, "", 3, ""⟩, .mark "@", .word "c", .mark ".", .word "d", ⟨.newline, "", 4, ""⟩,
      .word "class", .word "C", .mark ":", .word "pass", ⟨.newline, "", 5, ""⟩,
      ⟨.dedent, "", 6, ""⟩, .endMarker 6]
  line := 1
  failure := none
  file := unknownFile
  grammar := .standard
  decorators := []

/-- Nested definitions with decorators, and a decorator before a statement that is no definition. -/
theorem decorators_attached_of_nested :
    (∃ body behind,
      Scope.statementLine ⟨.upTo 27, statementAt 27, lineAt 27⟩ nestedDecorators =
        .ok body behind ∧ behind.decorators = [] ∧
      ∃ taken, nestedDecorators.ahead = taken ++ behind.ahead ∧
        List.Forall₂ Stmt.StandsOn (bodyDefinitions body)
          (definitionLines [] (tokenLines taken))) ∧
    ∃ fault last, Scope.statementLine ⟨.upTo 7, statementAt 7, lineAt 7⟩
      ⟨[.mark "@", .word "a", ⟨.newline, "", 1, ""⟩, .word "pass", ⟨.newline, "", 2, ""⟩], 1, none,
        unknownFile, .standard, []⟩ = .error fault last := by
  have accepted : (EStateM.run' (Scope.statementLine ⟨.upTo 27, statementAt 27, lineAt 27⟩)
      nestedDecorators).isSome = true := by decide +kernel
  constructor
  · cases read : Scope.statementLine ⟨.upTo 27, statementAt 27, lineAt 27⟩ nestedDecorators with
    | error fault last =>
      delta EStateM.run' EStateM.run at accepted
      rw [read] at accepted
      contradiction
    | ok body behind =>
      exact ⟨body, behind, rfl, (decorators_attached rfl rfl).1 body behind read⟩
  · exact (decorators_attached rfl rfl).2 (by decide) (by decide)

end Offside
