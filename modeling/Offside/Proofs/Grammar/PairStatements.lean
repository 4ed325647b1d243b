import Offside.Proofs.Grammar.PairExpressions

/-!
# Statements in step

The rules of statements go in step, if what reads the statements inside does, with the same words
renamed and with the lines of definitions that correspond. Simple statements do so up to a seam,
compound ones where there is none. By induction on the depth statements of any depth go in step
(`Scope.pairs_upTo`), and so does a whole text in every mode (`parseTokens_pairs`).
-/
namespace Offside

open Parse

namespace Pairing

variable (pairing : Pairing)

/-- The statement on the other side has the same words renamed and lines that correspond. -/
def Copies (stmt found : Stmt) : Prop :=
  found.moveLines pairing.far = (stmt.relabel pairing.rename.word).moveLines pairing.near

/-- So do all statements in order. -/
def CopiesBody (body found : List Stmt) : Prop :=
  moveBody pairing.far found = moveBody pairing.near (relabelBody pairing.rename.word body)

/-- So does the block behind a condition. -/
def CopiesBranch (branch found : Expr × List Stmt) : Prop :=
  found.1 = branch.1.relabel pairing.rename.word ∧ pairing.CopiesBody branch.2 found.2

/-- So does the block of a handler. -/
def CopiesHandler (handler found : ExceptHandler) : Prop :=
  found.moveLines pairing.far = (handler.relabel pairing.rename.word).moveLines pairing.near

variable {pairing}

/-- A statement alone. -/
theorem Copies.alone {stmt found : Stmt} (copies : pairing.Copies stmt found) :
    pairing.CopiesBody [stmt] [found] := by
  rw [CopiesBody, relabelBody, moveBody, moveBody, relabelBody, moveBody, moveBody, copies]

/-- Statements in order. -/
theorem CopiesBody.append {first second found more : List Stmt}
    (front : pairing.CopiesBody first found) (back : pairing.CopiesBody second more) :
    pairing.CopiesBody (first ++ second) (found ++ more) := by
  have split : relabelBody pairing.rename.word (first ++ second) =
      relabelBody pairing.rename.word first ++ relabelBody pairing.rename.word second := by
    simp
  rw [CopiesBody, split, moveBody_append, moveBody_append, front, back]

/-- Handlers in order. -/
theorem handlers_of_copies {handlers found : List ExceptHandler}
    (copies : List.Forall₂ pairing.CopiesHandler handlers found) :
    moveHandlers pairing.far found =
      moveHandlers pairing.near (relabelHandlers pairing.rename.word handlers) := by
  induction copies with
  | nil => rfl
  | cons fits _ ih => rw [moveHandlers, relabelHandlers, moveHandlers, fits, ih]

/-- Further conditions, nested in each other. -/
theorem CopiesBody.branches {others found : List (Expr × List Stmt)} {last end_ : List Stmt}
    (branches : List.Forall₂ pairing.CopiesBranch others found)
    (copies : pairing.CopiesBody last end_) :
    pairing.CopiesBody
      (others.foldr (fun (test, body) orelse => [.ifElse test body orelse]) last)
      (found.foldr (fun (test, body) orelse => [.ifElse test body orelse]) end_) := by
  induction branches with
  | nil => exact copies
  | @cons branch other rest more fits _ ih =>
    obtain ⟨test, body⟩ := fits
    rw [CopiesBody] at body ih
    rw [List.foldr_cons, List.foldr_cons]
    refine Copies.alone ?_
    simp only [Copies, Stmt.moveLines, Stmt.relabel, test, body, ih]

end Pairing

variable {pairing : Pairing} {room : Nat}

namespace Parse

/-- The operator that the token in front applies in place is the same on both sides. -/
theorem augmented_same {state start : State} (beside : pairing.Beside room state start) :
    (if start.current.kind = .operator then BinaryOperator.ofAugmented? start.current.value
      else none) =
    (if state.current.kind = .operator then BinaryOperator.ofAugmented? state.current.value
      else none) := by
  refine beside.look (fun token =>
    if token.kind = .operator then BinaryOperator.ofAugmented? token.value else none) ?_ ?_
  · intro token found tokens
    rw [tokens.kind]
    by_cases operator : token.kind = .operator
    · rw [tokens.value (.inr (.inr operator))]
    · rw [if_neg operator, if_neg operator]
  · intro token found seam ends kind value
    rw [kind, value, ends]
    rcases pairing.known with known | known
    · rw [known]
      rfl
    · rw [known]
      rfl

/-- A look for a token that starts no statement. -/
theorem Pairs.atNoStatement {α β : Type} {result : α → β → Prop} {next : Bool → Parse α}
    {otherNext : Bool → Parse β}
    (later : ∀ found, (next found).Pairs pairing room result (otherNext found)) :
    (Inner.atNoStatement >>= next).Pairs pairing room result
      (Inner.atNoStatement >>= otherNext) := by
  refine .look (fun state => state.current.kind = .indent || state.current.kind = .dedent ||
    (state.current.isKeyword &&
      !((state.grammar.behavior? state.current).bind Behavior.prefixRule).isSome)) rfl
    (fun left state start beside => ?_) later
  rw [beside.otherGrammar, beside.grammar]
  refine beside.look (fun token => token.kind = .indent || token.kind = .dedent ||
    (token.isKeyword &&
      !((Grammar.standard.behavior? token).bind Behavior.prefixRule).isSome)) ?_ ?_
  · intro token found tokens
    rw [tokens.kind, tokens.isKeyword, tokens.behavior?]
  · intro token found seam ends kind value
    rw [Token.isKeyword, Token.isKeyword, kind, ends]
    rfl

end Parse

namespace Inner

variable {inner other : Inner} (alike : inner.Pairs pairing room other)

/-- An annotated target. -/
theorem annotated_pairs (target annotation : Expr) (value : Option Expr) (grouped : Bool) :
    (annotated target annotation value grouped).Pairs pairing room pairing.Copies
      (annotated (target.relabel pairing.rename.word) (Expr.relabel pairing.rename.word annotation)
        (relabelOptional pairing.rename.word value) grouped) := by
  cases target with
  | tuple | list => exact .fail (.refl _)
  | _ => exact .pure rfl

/-- A statement of one word. -/
theorem wordStatement_leads {stmt : Stmt} (plain : pairing.Copies stmt stmt) :
    (wordStatement stmt).Leads pairing room pairing.Copies (wordStatement stmt) :=
  .advance fun _ _ _ _ => .pure plain

/-- The name behind the word as. -/
theorem asName_pairs :
    asName.Pairs pairing room (Carries (Option.map pairing.rename.word)) asName :=
  .eat (pairing.tells rfl) (.expectName fun _ => .pure rfl) (.pure rfl)

include alike

/-- The targets and the value of an assignment. -/
theorem assignment_pairs (first : Expr) :
    (inner.assignment first).Pairs pairing room
      (Carries (Prod.map (relabelExprs pairing.rename.word) (Expr.relabel pairing.rename.word)))
      (other.assignment (first.relabel pairing.rename.word)) := by
  refine .loop_carried
    (Prod.map (relabelExprs pairing.rename.word) (Expr.relabel pairing.rename.word))
    (fun found => ?_) alike.bound
  refine .eat (pairing.tells rfl) ?_ (.ended rfl)
  refine .lift (Expr.withContext_relabel _ _ _) fun target _ => ?_
  refine (expr_pairs alike _).bind_carried fun value => .pure (.again ?_)
  simp [Carries]

/-- The statement that starts with an expression and perhaps an annotation. -/
theorem statementFrom_pairs (value : Expr) (declared : Option Expr) (grouped : Bool) :
    (inner.statementFrom value declared grouped).Pairs pairing room pairing.Copies
      (other.statementFrom (value.relabel pairing.rename.word)
        (relabelOptional pairing.rename.word declared) grouped) := by
  refine .check (pairing.tells rfl) fun assigns => .ite (fun _ => ?_) fun _ => ?_
  · refine (assignment_pairs alike value).bind_carried fun found => ?_
    cases declared with
    | none => exact .pure rfl
    | some annotation =>
      obtain ⟨targets, value⟩ := found
      cases targets with
      | nil => exact .fail (.refl _)
      | cons target more =>
        cases more with
        | nil => exact annotated_pairs _ _ _ _
        | cons => exact .fail (.refl _)
  · intro left within state start beside
    refine .look (fun state => if state.current.kind = .operator then
      BinaryOperator.ofAugmented? state.current.value else none) rfl (augmented_same beside) ?_
    cases declared with
    | some annotation =>
      have target : (do annotated (← lift (value.withContext .store)) annotation none grouped).Pairs
          pairing room pairing.Copies (do
          annotated (← lift ((value.relabel pairing.rename.word).withContext .store))
            (Expr.relabel pairing.rename.word annotation) none grouped) :=
        .lift (Expr.withContext_relabel _ _ _) fun target _ => annotated_pairs _ _ _ _
      exact target left within state start beside
    | none =>
      cases means : if state.current.kind = .operator then
          BinaryOperator.ofAugmented? state.current.value else none with
      | none => exact .pure beside rfl
      | some operator =>
        have kind : state.current.kind = .operator := by
          by_contra other
          rw [if_neg other] at means
          contradiction
        have inside : pairing.Inside state := by
          refine beside.inside ?_ (.inr ?_)
          · rw [kind]
            decide
          · rw [kind]
            decide
        have assigned : (do
            let target ← lift (value.withContext .store)
            return .augAssign target operator (← inner.expr Power.any) : Parse Stmt).Pairs pairing
            room pairing.Copies (do
            let target ← lift ((value.relabel pairing.rename.word).withContext .store)
            return .augAssign target operator (← other.expr Power.any)) :=
          .lift (Expr.withContext_relabel _ _ _) fun target _ =>
            (expr_pairs alike _).bind_carried fun value => .pure rfl
        exact .advance beside inside fun less between onward fewer =>
          assigned less (Nat.le_trans (Nat.le_of_lt fewer) within) between onward

/-- A statement that starts with an expression. -/
theorem expressionStatement_pairs :
    inner.expressionStatement.Pairs pairing room pairing.Copies other.expressionStatement := by
  refine .atNoStatement fun ended => .ite (fun _ => failStatement_pairs) fun _ => ?_
  refine (optionalOperand_pairs alike _).bind_carried fun found => ?_
  cases found with
  | none => exact failStatement_pairs
  | some first =>
    refine .finish (.eat (pairing.tells rfl) ?_ ?_)
    · refine (expr_pairs alike _).bind_carried fun annotation => ?_
      exact statementFrom_pairs alike first.expr (some annotation) _
    · exact statementFrom_pairs alike first.expr none _

/-- The word return. -/
theorem returnStatement_leads :
    inner.returnStatement.Leads pairing room pairing.Copies other.returnStatement :=
  .advance fun _ _ _ _ => (optionalExpr_pairs alike _).bind_carried fun _ => .pure rfl

/-- The word raise. -/
theorem raiseStatement_leads :
    inner.raiseStatement.Leads pairing room pairing.Copies other.raiseStatement := by
  refine .advance fun _ _ _ _ => (optionalExpr_pairs alike _).bind_carried fun found => ?_
  cases found with
  | none => exact .pure rfl
  | some exception =>
    refine .eat (pairing.tells rfl) ?_ (.pure rfl)
    exact (expr_pairs alike _).bind_carried fun cause => .pure rfl

/-- The word assert. -/
theorem assertStatement_leads :
    inner.assertStatement.Leads pairing room pairing.Copies other.assertStatement := by
  refine .advance fun _ _ _ _ => (expr_pairs alike _).bind_carried fun test => ?_
  refine .eat (pairing.tells rfl) ?_ (.pure rfl)
  exact (expr_pairs alike _).bind_carried fun message => .pure rfl

/-- The targets of a deletion. -/
theorem deleteTargets_pairs :
    inner.deleteTargets.Pairs pairing room (Carries (relabelExprs pairing.rename.word))
      other.deleteTargets := by
  refine .loop_carried (relabelExprs pairing.rename.word) (fun targets => ?_) alike.bound
  refine .bind_carried (optionalTarget_pairs alike _ _) fun found => ?_
  cases found with
  | none => exact .ended rfl
  | some target =>
    exact .eat (pairing.tells rfl) (.pure (.again (by simp [Carries]))) (.ended (by simp [Carries]))

/-- The word del. -/
theorem deleteStatement_leads :
    inner.deleteStatement.Leads pairing room pairing.Copies other.deleteStatement := by
  refine .advance fun _ _ _ _ => (deleteTargets_pairs alike).bind_carried fun targets => ?_
  cases targets with
  | nil =>
    exact .refuse (fun _ => .fail) (fun _ => .fail) fun _ _ tokens =>
      .fail (.describe .expectedExpression (fun _ _ => rfl) tokens)
  | cons => exact .pure rfl

/-- Names between commas. -/
theorem nameList_leads :
    inner.nameList.Leads pairing room (Carries (List.map pairing.rename.word)) other.nameList := by
  refine .advance fun _ _ _ _ => .expectName fun first => ?_
  refine .loop_carried (List.map pairing.rename.word) (fun names => ?_) alike.bound
  refine .eat (pairing.tells rfl) (.expectName fun name => .pure (.again ?_)) (.ended rfl)
  simp [Carries]

/-- The name of a module. -/
theorem dottedName_pairs :
    inner.dottedName.Pairs pairing room (Carries (mapDotted pairing.rename.word))
      other.dottedName := by
  refine expectName_pairs.bind ?_
  rintro first _ ⟨plain, rfl⟩
  rw [← plain]
  refine .loop_carried (mapDotted pairing.rename.word) (fun name => ?_) alike.bound
  refine .eat (pairing.tells rfl) (expectName_pairs.bind ?_) (.ended rfl)
  rintro part _ ⟨plain, rfl⟩
  refine .pure (.again ?_)
  rw [Carries, mapDotted_append, plain]

/-- The import of modules. -/
theorem importStatement_leads :
    inner.importStatement.Leads pairing room pairing.Copies other.importStatement := by
  refine .advance fun _ _ _ _ => Pairs.bind_carried (.loop_carried
    (List.map (Alias.relabel pairing.rename.word)) (fun names => ?_) alike.bound)
    fun names => .pure rfl
  refine .bind_carried (dottedName_pairs alike) fun name => ?_
  refine .bind_carried asName_pairs fun bound => ?_
  refine .eat (pairing.tells rfl) (.pure (.again ?_)) (.ended ?_)
  · simp [Carries, Alias.relabel]
  · simp [Carries, Alias.relabel]

/-- The points before the name of a module. -/
theorem leadingPoints_pairs :
    inner.leadingPoints.Pairs pairing room (Carries id) other.leadingPoints := by
  refine .loop_carried id (fun level => ?_) alike.bound
  refine .eat (pairing.tells rfl) (.pure (.again rfl)) ?_
  exact .eat (pairing.tells rfl) (.pure (.again rfl)) (.ended rfl)

/-- The names of an import. -/
theorem importedNames_pairs (round : pairing.Tells ")") (parenthesized : Bool) :
    (inner.importedNames parenthesized).Pairs pairing room
      (Carries (List.map (Alias.relabel pairing.rename.word)))
      (other.importedNames parenthesized) := by
  refine .loop_carried (List.map (Alias.relabel pairing.rename.word)) (fun names => ?_) alike.bound
  refine .bind expectName_pairs ?_
  rintro name _ ⟨plain, rfl⟩
  rw [← plain]
  refine .bind_carried asName_pairs fun bound => .eat (pairing.tells rfl) ?_ (.ended ?_)
  · refine .check round fun ended => .ite (fun _ => .pure (.done ?_)) fun _ => .pure (.again ?_)
    · simp [Carries, Alias.relabel]
    · simp [Carries, Alias.relabel]
  · simp [Carries, Alias.relabel]

/-- What is imported from a module. -/
theorem importedList_pairs (round : pairing.Tells ")") :
    inner.importedList.Pairs pairing room
      (Carries (List.map (Alias.relabel pairing.rename.word))) other.importedList := by
  have star : Alias.relabel pairing.rename.word ⟨"*", none⟩ = ⟨"*", none⟩ := by
    rw [Alias.relabel, mapDotted_of_plain _ (by decide), pairing.rename.fixes "*" rfl]
    rfl
  refine .eat (pairing.tells rfl) (.pure ?_) (.eat (pairing.tells rfl) ?_
    (importedNames_pairs alike round _))
  · rw [Carries, List.map_singleton, star]
  · exact (importedNames_pairs alike round _).bind_carried fun names => .expect rfl fun _ _ => .pure rfl

/-- The import of names from a module. -/
theorem importFromStatement_leads (round : pairing.Tells ")") :
    inner.importFromStatement.Leads pairing room pairing.Copies other.importFromStatement := by
  have rest (module : Option String) (level : Nat) : (do
      let _ ← expect "import"
      return .importFrom module (← inner.importedList) level : Parse Stmt).Pairs pairing room
        pairing.Copies (do
      let _ ← expect "import"
      return .importFrom (module.map (mapDotted pairing.rename.word)) (← other.importedList) level) :=
    .expect rfl fun _ _ => (importedList_pairs alike round).bind_carried fun names => .pure rfl
  refine .advance fun _ _ _ _ => (leadingPoints_pairs alike).bind_carried fun level => ?_
  refine .check (pairing.tells rfl) fun package => .ite (fun _ => rest none _) fun _ => ?_
  exact (dottedName_pairs alike).bind_carried fun name => rest (some name) _

end Inner

/-- What reads expressions and statements goes in step, where there is no seam. -/
structure Scope.Pairs (pairing : Pairing) (room : Nat) (scope other : Scope) : Prop where
  /-- What reads expressions goes in step. -/
  inner : scope.inner.Pairs pairing room other.inner
  /-- The bounds are the same. -/
  bound : scope.inner.bound = other.inner.bound
  /-- Statement lines go in step. -/
  statement : scope.statement.Pairs pairing room pairing.CopiesBody other.statement
  /-- Lines of simple statements go in step. -/
  line : scope.line.Pairs pairing room pairing.CopiesBody other.line

namespace Scope

variable {scope other : Scope} (bare : pairing.tail = []) (alike : scope.Pairs pairing room other)
include bare alike

/-- An indented block. -/
theorem indented_pairs : scope.indented.Pairs pairing room pairing.CopiesBody other.indented := by
  refine .expectKind bare fun _ _ => ?_
  refine .loop_same pairing.CopiesBody (fun body found copies => ?_) alike.bound rfl
  refine .eatKind bare (by decide) (.pure (.done copies)) ?_
  exact alike.statement.bind fun more otherMore fits => .pure (.again (copies.append fits))

/-- The block behind a colon. -/
theorem suite_pairs : scope.suite.Pairs pairing room pairing.CopiesBody other.suite :=
  .eatKind bare (by decide) (indented_pairs bare alike) alike.line

/-- A colon and the block behind it. -/
theorem colonSuite_pairs :
    scope.colonSuite.Pairs pairing room pairing.CopiesBody other.colonSuite :=
  .expect rfl fun _ _ => suite_pairs bare alike

/-- The block behind a word. -/
theorem optionalSuite_pairs {word : String} (telling : isTelling word = true) :
    (scope.optionalSuite word).Pairs pairing room pairing.CopiesBody (other.optionalSuite word) :=
  .eat (pairing.tells telling) (colonSuite_pairs bare alike) (.pure rfl)

/-- The end of a definition: a colon, and the block behind it. -/
theorem definition_pairs {make otherMake : List Expr → List Stmt → Stmt}
    (copies : ∀ decorators body found, pairing.CopiesBody body found →
      pairing.Copies (make decorators body)
        (otherMake (relabelExprs pairing.rename.word decorators) found)) : (do
      let _ ← expect ":"
      let decorators ← takeDecorators
      let body ← scope.suite
      return make decorators body : Parse Stmt).Pairs pairing room pairing.Copies (do
      let _ ← expect ":"
      let decorators ← takeDecorators
      let body ← other.suite
      return otherMake decorators body) := by
  refine .expect rfl fun _ _ => takeDecorators_pairs.bind_carried fun decorators => ?_
  exact (suite_pairs bare alike).bind fun body found fits => .pure (copies decorators body found fits)

/-- The definition of a function, on lines that correspond. -/
theorem functionDef_pairs (isAsync : Bool) {line found : Nat}
    (lines : pairing.far found = pairing.near line) :
    (scope.functionDef isAsync line).Pairs pairing room pairing.Copies
      (other.functionDef isAsync found) := by
  have round : pairing.Tells Signature.definition.closing := ⟨rfl, .inl bare⟩
  refine .expect rfl fun _ _ => .expectName fun name => .expect rfl fun _ _ => ?_
  refine (Inner.parameters_pairs alike.inner round).bind_carried fun parameters => ?_
  have define (returns : Option Expr) : (do
      let _ ← expect ":"
      let decorators ← takeDecorators
      let body ← scope.suite
      return .functionDef isAsync name parameters body decorators returns line : Parse Stmt).Pairs
      pairing room pairing.Copies (do
      let _ ← expect ":"
      let decorators ← takeDecorators
      let body ← other.suite
      return .functionDef isAsync (pairing.rename.word name)
        (parameters.relabel pairing.rename.word) body decorators
        (relabelOptional pairing.rename.word returns) found) := by
    refine definition_pairs bare alike fun decorators body copied fits => ?_
    simp only [Pairing.CopiesBody] at fits
    simp only [Pairing.Copies, Stmt.moveLines, Stmt.relabel, fits, lines]
  refine .expect rfl fun _ _ => .eat (pairing.tells rfl) ?_ (define none)
  exact (Inner.expr_pairs alike.inner _).bind_carried fun returns => define (some returns)

/-- The definition of a class. -/
theorem classDef_pairs : scope.classDef.Pairs pairing room pairing.Copies other.classDef := by
  refine .advance bare fun word otherWord tokens => .expectName fun name => ?_
  have define (found : CallArguments) : (do
      let _ ← expect ":"
      let decorators ← takeDecorators
      let body ← scope.suite
      return .classDef name found.positional found.keywords body decorators word.line :
        Parse Stmt).Pairs pairing room pairing.Copies (do
      let _ ← expect ":"
      let decorators ← takeDecorators
      let body ← other.suite
      return .classDef (pairing.rename.word name) (found.relabel pairing.rename.word).positional
        (found.relabel pairing.rename.word).keywords body decorators otherWord.line) := by
    refine definition_pairs bare alike fun decorators body copied fits => ?_
    simp only [Pairing.CopiesBody] at fits
    simp only [Pairing.Copies, Stmt.moveLines, Stmt.relabel, fits, tokens.line,
      CallArguments.relabel]
  refine .eat (pairing.tells rfl) ?_ (define ⟨[], []⟩)
  exact (Inner.callArguments_pairs alike.inner).bind_carried fun found => define found

/-- A loop over a sequence. -/
theorem forLoop_pairs (isAsync : Bool) :
    (scope.forLoop isAsync).Pairs pairing room pairing.Copies (other.forLoop isAsync) := by
  refine .expect rfl fun _ _ => (Inner.forIn_pairs alike.inner _).bind_carried fun found => ?_
  refine (colonSuite_pairs bare alike).bind fun body copied fits => ?_
  refine (optionalSuite_pairs bare alike rfl).bind fun orelse other fitted => .pure ?_
  simp only [Pairing.CopiesBody] at fits fitted
  simp only [Pairing.Copies, Stmt.moveLines, Stmt.relabel, fits, fitted]

omit bare in
/-- A context. -/
theorem withItem_pairs :
    scope.withItem.Pairs pairing room (Carries (WithItem.relabel pairing.rename.word))
      other.withItem := by
  refine (Inner.expr_pairs alike.inner _).bind_carried fun context => ?_
  refine .eat (pairing.tells rfl) ?_ (.pure rfl)
  refine (Inner.optionalTarget_pairs alike.inner _ _).bind_carried fun found => ?_
  cases found with
  | some target => exact .pure rfl
  | none =>
    exact .refuse (fun _ => .fail) (fun _ => .fail) fun _ _ tokens =>
      .fail (.describe .expectedExpression (fun _ _ => rfl) tokens)

/-- Contexts and the block inside them. -/
theorem withItems_pairs (isAsync : Bool) :
    (scope.withItems isAsync).Pairs pairing room pairing.Copies (other.withItems isAsync) := by
  refine .expect rfl fun _ _ => .loop_bind (Carries (List.map (WithItem.relabel pairing.rename.word)))
    ?_ alike.bound rfl ?_
  · rintro items _ rfl
    refine (withItem_pairs alike).bind_carried fun item => .eat (pairing.tells rfl) ?_ ?_
    · exact .pure (.again (by simp [Carries]))
    · exact .pure (.done (by simp [Carries]))
  · rintro items _ rfl
    refine (colonSuite_pairs bare alike).bind fun body copied fits => .pure ?_
    simp only [Pairing.CopiesBody] at fits
    simp only [Pairing.Copies, Stmt.moveLines, Stmt.relabel, fits]

/-- What is behind the word async. -/
theorem async_pairs : scope.async.Pairs pairing room pairing.Copies other.async := by
  refine .advance bare fun word otherWord tokens => .check (pairing.tells rfl) fun defines => ?_
  refine .ite (fun _ => functionDef_pairs bare alike true tokens.line) fun _ => ?_
  refine .hasDecorators fun waiting => .ite (fun _ => .fail (.refl _)) fun _ => ?_
  refine .check (pairing.tells rfl) fun loops => .ite (fun _ => forLoop_pairs bare alike true) fun _ => ?_
  refine .check (pairing.tells rfl) fun enters => ?_
  exact .ite (fun _ => withItems_pairs bare alike true) fun _ => .fail (.refl _)

/-- A condition behind a word, and its block. -/
theorem condition_pairs :
    scope.condition.Pairs pairing room pairing.CopiesBranch other.condition := by
  refine .advance bare fun _ _ _ => (Inner.expr_pairs alike.inner _).bind_carried fun test => ?_
  exact (colonSuite_pairs bare alike).bind fun body copied fits => .pure ⟨rfl, fits⟩

/-- A choice. -/
theorem ifElse_pairs : scope.ifElse.Pairs pairing room pairing.Copies other.ifElse := by
  refine (condition_pairs bare alike).bind ?_
  rintro ⟨test, body⟩ ⟨_, copied⟩ ⟨rfl, fits⟩
  refine .loop_bind (List.Forall₂ pairing.CopiesBranch) (fun others found branches => ?_) alike.bound
    .nil fun others found branches => ?_
  · refine .check (pairing.tells rfl) fun further => ?_
    cases further with
    | false => exact .pure (.done branches)
    | true =>
      refine (condition_pairs bare alike).bind fun branch otherBranch fits => .pure (.again ?_)
      exact List.rel_append branches (.cons fits .nil)
  · refine (optionalSuite_pairs bare alike rfl).bind fun last end_ fitted => .pure ?_
    have nested := fitted.branches branches
    simp only [Pairing.CopiesBody] at fits nested
    simp only [Pairing.Copies, Stmt.moveLines, Stmt.relabel, fits, nested]

/-- A loop under a condition. -/
theorem whileLoop_pairs : scope.whileLoop.Pairs pairing room pairing.Copies other.whileLoop := by
  refine (condition_pairs bare alike).bind ?_
  rintro ⟨test, body⟩ ⟨_, copied⟩ ⟨rfl, fits⟩
  refine (optionalSuite_pairs bare alike rfl).bind fun orelse other fitted => .pure ?_
  simp only [Pairing.CopiesBody] at fits fitted
  simp only [Pairing.Copies, Stmt.moveLines, Stmt.relabel, fits, fitted]

/-- A handler. -/
theorem handler_pairs :
    scope.handler.Pairs pairing room pairing.CopiesHandler other.handler := by
  have block (type : Option Expr) (name : Option String) : (do
      return ⟨type, name, ← scope.colonSuite⟩ : Parse ExceptHandler).Pairs pairing room
      pairing.CopiesHandler (do
      return ⟨relabelOptional pairing.rename.word type, name.map pairing.rename.word,
        ← other.colonSuite⟩) := by
    refine (colonSuite_pairs bare alike).bind fun body copied fits => .pure ?_
    simp only [Pairing.CopiesBody] at fits
    simp only [Pairing.CopiesHandler, ExceptHandler.moveLines, ExceptHandler.relabel, fits]
  refine .check (pairing.tells rfl) fun all => .ite (fun _ => block none none) fun _ => ?_
  refine (Inner.expr_pairs alike.inner _).bind_carried fun type => ?_
  exact Inner.asName_pairs.bind_carried fun name => block (some type) name

/-- Handled exceptions. -/
theorem tryExcept_pairs : scope.tryExcept.Pairs pairing room pairing.Copies other.tryExcept := by
  refine .advance bare fun _ _ _ => (colonSuite_pairs bare alike).bind fun body copied fits => ?_
  refine .loop_bind (List.Forall₂ pairing.CopiesHandler) (fun handlers found copies => ?_) alike.bound
    .nil fun handlers found copies => ?_
  · refine .eat (pairing.tells rfl) ?_ (.pure (.done copies))
    refine (handler_pairs bare alike).bind fun handler otherHandler copied => .pure (.again ?_)
    exact List.rel_append copies (.cons copied .nil)
  · have handled := Pairing.handlers_of_copies copies
    refine (optionalSuite_pairs bare alike rfl).bind fun orelse otherwise fitted => ?_
    simp only [Pairing.CopiesBody] at fits fitted
    refine .eat (pairing.tells rfl) ?_ ?_
    · refine (colonSuite_pairs bare alike).bind fun final finally_ ends => .pure ?_
      simp only [Pairing.CopiesBody] at ends
      simp only [Pairing.Copies, Stmt.moveLines, Stmt.relabel, fits, fitted, ends, handled]
    · cases copies with
      | nil => exact .fail (.refl _)
      | cons =>
        refine .pure ?_
        simp only [Pairing.Copies, Stmt.moveLines, Stmt.relabel, fits, fitted, handled]
        rfl

end Scope

/-- A compound statement goes in step. -/
theorem StatementRule.parse_pairs {scope other : Scope} (bare : pairing.tail = [])
    (alike : scope.Pairs pairing room other) {rule : StatementRule}
    (compound : rule.words Grammar.standard.compound ≠ []) :
    (rule.parse scope).Pairs pairing room pairing.Copies (rule.parse other) := by
  cases rule with
  | functionDef =>
    exact .current bare fun token found tokens =>
      Scope.functionDef_pairs bare alike false tokens.line
  | async => exact Scope.async_pairs bare alike
  | classDef => exact Scope.classDef_pairs bare alike
  | ifElse => exact Scope.ifElse_pairs bare alike
  | forLoop => exact Scope.forLoop_pairs bare alike false
  | whileLoop => exact Scope.whileLoop_pairs bare alike
  | withItems => exact Scope.withItems_pairs bare alike false
  | tryExcept => exact Scope.tryExcept_pairs bare alike
  | importModules | importFrom | breakLoop | continueLoop | pass | returnValue | raise | assert
    | delete | globals | nonlocals => exact absurd (by decide) compound

/-- A simple statement goes in step from the word on that starts it. -/
theorem StatementRule.parse_leads {scope other : Scope} (round : pairing.Tells ")")
    (alike : scope.inner.Pairs pairing room other.inner) {rule : StatementRule}
    (simple : rule.words Grammar.standard.simple ≠ []) :
    (rule.parse scope).Leads pairing room pairing.Copies (rule.parse other) := by
  cases rule with
  | functionDef | async | classDef | ifElse | forLoop | whileLoop | withItems | tryExcept =>
    exact absurd (by decide) simple
  | importModules => exact Inner.importStatement_leads alike
  | importFrom => exact Inner.importFromStatement_leads alike round
  | breakLoop | continueLoop | pass => exact Inner.wordStatement_leads rfl
  | returnValue => exact Inner.returnStatement_leads alike
  | raise => exact Inner.raiseStatement_leads alike
  | assert => exact Inner.assertStatement_leads alike
  | delete => exact Inner.deleteStatement_leads alike
  | globals | nonlocals =>
    refine .bind_carried (Inner.nameList_leads alike) fun names => .pure ?_
    simp [Pairing.Copies, Stmt.moveLines, Stmt.relabel]

namespace Scope

variable {scope other : Scope}

/-- A simple statement goes in step. -/
theorem small_pairs (round : pairing.Tells ")")
    (alike : scope.inner.Pairs pairing room other.inner) :
    scope.small.Pairs pairing room pairing.Copies other.small := by
  intro count within state start beside
  have texts : ∀ entry ∈ Grammar.standard.simple, isIdentifier entry.1 = false := by decide
  have same : Grammar.statementRule? start.grammar.simple start.current =
      Grammar.statementRule? state.grammar.simple state.current := by
    rw [beside.otherGrammar, beside.grammar]
    exact beside.statementRule? texts
  refine .look (fun state => Grammar.statementRule? state.grammar.simple state.current) rfl same ?_
  rw [beside.grammar]
  cases known : Grammar.statementRule? Grammar.standard.simple state.current with
  | none => exact Inner.expressionStatement_pairs alike count within state start beside
  | some rule =>
    obtain ⟨front, text⟩ := beside.leads_of_statementRule texts known
    obtain ⟨count, rfl⟩ := beside.exists_room front
    have simple := List.ne_nil_of_mem (Token.mem_words_of_statementRule known).2
    have leads := rule.parse_leads round (alike.less (Nat.le_of_succ_le within)) simple
    refine (leads count (Nat.le_refl count) state start beside front text).weaken ?_
    exact fun _ _ _ _ fits => fits.2

variable (bare : pairing.tail = []) (alike : scope.Pairs pairing room other)
include bare alike

/-- A line of simple statements. -/
theorem simpleLine_pairs :
    scope.simpleLine.Pairs pairing room pairing.CopiesBody other.simpleLine := by
  have small : scope.small.Pairs pairing room pairing.Copies other.small :=
    small_pairs ⟨rfl, .inl bare⟩ alike.inner
  refine small.bind fun first otherFirst copies => ?_
  refine .loop_bind pairing.CopiesBody (fun body found copied => ?_) alike.bound copies.alone
    fun body found copied => ?_
  · refine .eat ⟨rfl, .inl bare⟩ ?_ (.pure (.done copied))
    refine .checkKind bare fun breaks => .checkKind bare fun ends => ?_
    refine .ite (fun _ => .pure (.done copied)) fun _ => ?_
    exact small.bind fun stmt found fits => .pure (.again (copied.append fits.alone))
  · exact .expectKind bare fun _ _ => .pure copied

/-- Decorators. -/
theorem decorators_pairs : scope.decorators.Pairs pairing room (fun _ _ => True) other.decorators := by
  refine .loop_same (fun _ _ => True) (fun _ _ _ => ?_) alike.bound trivial
  refine .eat (pairing.tells rfl) ?_ (.pure (.done trivial))
  refine (Inner.expr_pairs alike.inner _).bind_carried fun decorator => ?_
  refine .expectKind bare fun _ _ => (pushDecorator_pairs decorator).bind fun _ _ _ => ?_
  exact .pure (.again trivial)

/-- A statement line, with the decorators before it. -/
theorem statementLine_pairs :
    scope.statementLine.Pairs pairing room pairing.CopiesBody other.statementLine := by
  refine (decorators_pairs bare alike).bind fun _ _ _ => .hasDecorators fun waiting => ?_
  intro count within state start beside
  have texts : ∀ entry ∈ Grammar.standard.compound, isIdentifier entry.1 = false := by decide
  have same : Grammar.statementRule? start.grammar.compound start.current =
      Grammar.statementRule? state.grammar.compound state.current := by
    rw [beside.otherGrammar, beside.grammar]
    exact beside.statementRule? texts
  refine .look (fun state => Grammar.statementRule? state.grammar.compound state.current) rfl same ?_
  rw [beside.grammar]
  cases known : Grammar.statementRule? Grammar.standard.compound state.current with
  | none =>
    have simple : (if waiting then fail .unexpectedDecorator else scope.simpleLine).Pairs pairing
        room pairing.CopiesBody (if waiting then fail .unexpectedDecorator else other.simpleLine) :=
      .ite (fun _ => .fail (.refl _)) fun _ => simpleLine_pairs bare alike
    exact simple count within state start beside
  | some rule =>
    have compound := List.ne_nil_of_mem (Token.mem_words_of_statementRule known).2
    have ruled : (do
        let token ← current
        if waiting && !decorated.any token.isText then fail .unexpectedDecorator
        else return [← rule.parse scope] : Parse (List Stmt)).Pairs pairing room
        pairing.CopiesBody (do
        let token ← current
        if waiting && !decorated.any token.isText then fail .unexpectedDecorator
        else return [← rule.parse other]) := by
      refine .current bare fun token found tokens => ?_
      have texts : ∀ text ∈ decorated, isIdentifier text = false := by decide
      have words : decorated.any found.isText = decorated.any token.isText := by
        rw [Bool.eq_iff_iff, List.any_eq_true, List.any_eq_true]
        exact exists_congr fun text => and_congr_right fun word => by
          rw [tokens.isText (texts text word)]
      rw [words]
      refine .ite (fun _ => .fail (.refl _)) fun _ => ?_
      exact (rule.parse_pairs bare alike compound).bind fun stmt found copies => .pure copies.alone
    exact ruled count within state start beside

end Scope

/-- Statements of any depth go in step. -/
theorem statementAt_pairs (bare : pairing.tail = []) (depth : Nat) :
    (statementAt depth).Pairs pairing room pairing.CopiesBody (statementAt depth) ∧
      (lineAt depth).Pairs pairing room pairing.CopiesBody (lineAt depth) := by
  induction depth with
  | zero => exact ⟨failStatement_pairs, failStatement_pairs⟩
  | succ depth ih =>
    have alike : Scope.Pairs pairing room ⟨.upTo (depth + 1), statementAt depth, lineAt depth⟩
        ⟨.upTo (depth + 1), statementAt depth, lineAt depth⟩ :=
      ⟨Inner.pairs_upTo (.inl rfl), rfl, ih.1, ih.2⟩
    exact ⟨Scope.statementLine_pairs bare alike, Scope.simpleLine_pairs bare alike⟩

/-- What reads statements up to a bound goes in step. -/
theorem Scope.pairs_upTo (bare : pairing.tail = []) (bound : Nat) :
    (Scope.upTo bound).Pairs pairing room (Scope.upTo bound) :=
  ⟨Inner.pairs_upTo (.inl rfl), rfl, (statementAt_pairs bare bound).1, (statementAt_pairs bare bound).2⟩

section texts

variable (bare : pairing.tail = [])
include bare

/-- The statements of a module go in step. -/
theorem moduleBody_pairs (bound : Nat) :
    (moduleBody (.upTo bound)).Pairs pairing room pairing.CopiesBody (moduleBody (.upTo bound)) := by
  have alike : (Scope.upTo bound).Pairs pairing room (.upTo bound) := Scope.pairs_upTo bare bound
  refine .loop_same pairing.CopiesBody (fun body found copies => ?_) rfl rfl
  refine .checkKind bare fun ended => ?_
  cases ended with
  | true => exact .pure (.done copies)
  | false =>
    refine (Scope.statementLine_pairs bare alike).bind fun line other fits => ?_
    exact .pure (.again (copies.append fits))

/-- One expression goes in step. -/
theorem wholeExpression_pairs (bound : Nat) :
    (wholeExpression (.upTo bound)).Pairs pairing room
      (Carries (Expr.relabel pairing.rename.word)) (wholeExpression (.upTo bound)) := by
  refine (Inner.expr_pairs (Inner.pairs_upTo (.inl rfl)) _).bind_carried fun body => ?_
  refine Pairs.loop_bind (fun _ _ => True) (fun _ _ _ => ?_) rfl trivial fun _ _ _ => ?_
  · exact .eatKind bare (by decide) (.pure (.again trivial)) (.pure (.done trivial))
  · exact .expectKind bare fun _ _ => .pure rfl

/-- Without a seam the same bound is chosen on both sides. -/
theorem Beside.bound {state start : State} (beside : pairing.Beside room state start) :
    start.bound = state.bound := by
  obtain ⟨front, back, ahead, otherAhead, tokens, -⟩ := beside.front
  rw [State.bound, State.bound, ahead, otherAhead, bare, Pairing.after_eq_nil.2 bare,
    List.append_nil, List.append_nil, tokens.length_eq]

/-- Statements that are read up to the bound of the text go in step. -/
theorem Scope.run_pairsAt {parser : Scope → Parse (List Stmt)}
    (pairs : ∀ bound, (parser (.upTo bound)).Pairs pairing room pairing.CopiesBody
      (parser (.upTo bound)))
    {state start : State} (beside : pairing.Beside room state start) :
    PairsAt pairing room (fun _ => pairing.CopiesBody) state start (Scope.run parser)
      (Scope.run parser) := by
  have read := pairs state.bound room (Nat.le_refl room) state start beside
  have there : Scope.run parser start = parser (.upTo state.bound) start := by
    rw [← Beside.bound bare beside]
    rfl
  exact ⟨fun done => there ▸ read.follows done, fun _ failed => there ▸ read.fails bare failed⟩

/-- An expression that is read up to the bound of the text goes in step. -/
theorem Inner.run_pairsAt {state start : State} (beside : pairing.Beside room state start) :
    PairsAt pairing room (fun _ => Carries (Expr.relabel pairing.rename.word)) state start
      (Inner.run wholeExpression) (Inner.run wholeExpression) := by
  have read := wholeExpression_pairs bare state.bound room (Nat.le_refl room) state start beside
  have there : Inner.run wholeExpression start = wholeExpression (.upTo state.bound) start := by
    rw [← Beside.bound bare beside]
    rfl
  exact ⟨fun done => there ▸ read.follows done, fun _ failed => there ▸ read.fails bare failed⟩

/-- A whole text goes in step in every mode. -/
theorem parseRoot_pairs (mode : Mode) {state start : State} (beside : pairing.Beside room state start) :
    PairsAt pairing room (fun _ root found => found.moveLines pairing.far =
      (root.relabel pairing.rename.word).moveLines pairing.near) state start (parseRoot mode)
      (parseRoot mode) := by
  cases mode with
  | exec =>
    refine (Scope.run_pairsAt bare (moduleBody_pairs bare) beside).bind ?_
    intro body found less between onward copies _ behind
    exact .pure behind (congrArg Root.module copies)
  | single =>
    have line (bound : Nat) : (Scope.statementLine (.upTo bound)).Pairs pairing room
        pairing.CopiesBody (Scope.statementLine (.upTo bound)) :=
      Scope.statementLine_pairs bare (Scope.pairs_upTo bare bound)
    refine (Scope.run_pairsAt bare line beside).bind ?_
    intro body found less between onward copies _ behind
    exact .pure behind (congrArg Root.interactive copies)
  | eval =>
    refine (Inner.run_pairsAt bare beside).bind ?_
    rintro body _ less between onward rfl _ behind
    exact .pure behind rfl

end texts

/-- Streams of paired tokens with faults that correspond are started alike: both before their first
tokens, or both with a fault. -/
theorem State.start_pairs {rename : Renaming} {near far : Nat → Nat} (first : far 1 = near 1)
    {stream other : Stream}
    (paired : List.Forall₂ (Pairing.whole rename near far).Tokens
      (stream.tokens.filter Token.isSignificant) (other.tokens.filter Token.isSignificant))
    (waits : Option.Rel (Pairing.whole rename near far).Faults stream.failure other.failure)
    (file : String) :
    (∃ room state start, State.start stream file = .ok state ∧ State.start other file = .ok start ∧
      (Pairing.whole rename near far).Beside room state start) ∨
    ∃ fault found, State.start stream file = .error fault ∧ State.start other file = .error found ∧
      (Pairing.whole rename near far).Faults fault found := by
  unfold State.start
  generalize stream.tokens.filter Token.isSignificant = ahead at paired ⊢
  generalize other.tokens.filter Token.isSignificant = otherAhead at paired ⊢
  generalize stream.failure = failure at waits ⊢
  generalize other.failure = otherFailure at waits ⊢
  cases paired with
  | nil =>
    cases waits with
    | some faults => exact .inr ⟨_, _, rfl, rfl, faults⟩
    | none => exact .inl ⟨0, _, _, rfl, rfl, ⟨[], [], rfl, rfl, .nil, Nat.le_refl _⟩, rfl, rfl, rfl,
        rfl, .none, first⟩
  | cons here later =>
    exact .inl ⟨_, _, _, rfl, rfl, ⟨_, _, (List.append_nil _).symm, (List.append_nil _).symm,
      .cons here later, Nat.le_refl _⟩, rfl, rfl, rfl, rfl, waits, first⟩

/-- Streams of paired tokens with faults that correspond are parsed alike in every mode: to trees
with the same words renamed and lines that correspond, or to faults of the same kind on lines that
correspond. -/
theorem parseStream_pairs {rename : Renaming} {near far : Nat → Nat} (first : far 1 = near 1)
    {stream other : Stream}
    (paired : List.Forall₂ (Pairing.whole rename near far).Tokens
      (stream.tokens.filter Token.isSignificant) (other.tokens.filter Token.isSignificant))
    (waits : Option.Rel (Pairing.whole rename near far).Faults stream.failure other.failure)
    (file : Option String) (mode : Mode) :
    (∀ root, parseStream stream file mode = .ok root → ∃ found,
      parseStream other file mode = .ok found ∧
        found.moveLines far = (root.relabel rename.word).moveLines near) ∧
    ∀ fault, parseStream stream file mode = .error fault → ∃ found,
      parseStream other file mode = .error found ∧
        (Pairing.whole rename near far).Faults fault found := by
  rw [parseStream, parseStream]
  rcases State.start_pairs first paired waits (file.getD unknownFile) with
    ⟨room, state, start, started, otherStarted, beside⟩ | ⟨fault, found, failed, otherFailed, faults⟩
  · have pairs := parseRoot_pairs rfl mode beside
    rw [started, otherStarted]
    simp only [bind, Except.bind, EStateM.run]
    cases read : parseRoot mode state with
    | ok root behind =>
      obtain ⟨found, last, -, otherRead, copies, -⟩ := pairs.follows read
      rw [otherRead]
      refine ⟨fun out same => ⟨found, rfl, ?_⟩, fun fault same => by contradiction⟩
      obtain rfl := Except.ok.inj same
      exact copies
    | error fault behind =>
      obtain ⟨found, last, otherFailed, faults⟩ := pairs.fails rfl read
      rw [otherFailed]
      refine ⟨fun out same => by contradiction, fun other same => ⟨found, rfl, ?_⟩⟩
      obtain rfl := Except.error.inj same
      exact faults
  · rw [failed, otherFailed]
    refine ⟨fun out same => by contradiction, fun other same => ⟨found, rfl, ?_⟩⟩
    obtain rfl := Except.error.inj same
    exact faults

/-- Tokens that are paired are parsed alike in every mode: to trees with the same words renamed and
lines that correspond, or to faults of the same kind on lines that correspond. -/
theorem parseTokens_pairs {rename : Renaming} {near far : Nat → Nat} (first : far 1 = near 1)
    {tokens others : List Token}
    (paired : List.Forall₂ (Pairing.whole rename near far).Tokens
      (tokens.filter Token.isSignificant) (others.filter Token.isSignificant))
    (file : Option String) (mode : Mode) :
    (∀ root, parseTokens tokens file mode = .ok root → ∃ found,
      parseTokens others file mode = .ok found ∧
        found.moveLines far = (root.relabel rename.word).moveLines near) ∧
    ∀ fault, parseTokens tokens file mode = .error fault → ∃ found,
      parseTokens others file mode = .error found ∧
        (Pairing.whole rename near far).Faults fault found :=
  parseStream_pairs first paired .none file mode

end Offside
