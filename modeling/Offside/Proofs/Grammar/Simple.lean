import Offside.Proofs.Grammar.Operands

/-!
# Simple statements follow the grammar

The rules of simple statements follow their productions, if what reads the operands inside makes
operands.
-/
namespace Offside

open Parse Literal

/-- The words of a table whose statements a rule reads. -/
def StatementRule.words (table : List (String × StatementRule)) (rule : StatementRule) :
    List String :=
  (table.filter fun entry => entry.2 = rule).map Prod.fst

/-- A token whose statement a rule reads is a name and one of the words of the rule. -/
theorem Token.mem_words_of_statementRule {table : List (String × StatementRule)}
    {rule : StatementRule} {token : Token}
    (means : Grammar.statementRule? table token = some rule) :
    token.isText token.value = true ∧ token.value ∈ rule.words table := by
  rw [Grammar.statementRule?] at means
  split at means
  · rename_i name
    obtain ⟨front, back, same, -⟩ := List.lookup_eq_some_iff.1 means
    refine ⟨by simp [isText, name], ?_⟩
    refine List.mem_map.2 ⟨(token.value, rule), List.mem_filter.2 ⟨?_, decide_eq_true rfl⟩, rfl⟩
    rw [same]
    simp
  · contradiction

/-- A token whose statement a rule with one word reads has that word. -/
theorem Token.isText_of_statementRule (text : String) {table : List (String × StatementRule)}
    {rule : StatementRule} (single : rule.words table = [text]) {token : Token}
    (means : Grammar.statementRule? table token = some rule) : token.isText text = true := by
  obtain ⟨written, listed⟩ := mem_words_of_statementRule means
  rw [single, List.mem_singleton] at listed
  rwa [listed] at written

variable {waiting : List Expr}

/-- The token in front starts a simple statement of a rule. -/
def Token.StartsSimple (rule : StatementRule) (token : Token) : Prop :=
  Grammar.statementRule? Grammar.standard.simple token = some rule

/-- A token that starts a simple statement has the word of the rule. -/
theorem Token.StartsSimple.isText {rule : StatementRule} {token : Token}
    (starts : token.StartsSimple rule) (text : String)
    (single : rule.words Grammar.standard.simple = [text]) : token.isText text = true :=
  isText_of_statementRule text single starts

/-- An annotated target is made where there may be one. -/
theorem annotated_follows {target annotation : Expr} {value : Option Expr} {grouped : Bool}
    {front : Token → Prop} {before : List Symbol} :
    (Inner.annotated target annotation value grouped).Follows waiting waiting front before
      fun out symbols =>
        target.annotated? annotation value grouped = some out ∧ symbols = before := by
  cases target with
  | tuple | list => exact .fail
  | _ => exact .pure ⟨rfl, rfl⟩

/-- A look whether no statement can start with the token in front. -/
theorem Parse.Follows.atNoStatement {β : Type} {after : List Expr} {front : Token → Prop}
    {before : List Symbol} {fits : β → List Symbol → Prop} {next : Bool → Parse β}
    (later : ∀ ended, (next ended).Follows waiting after front before fits) :
    (Inner.atNoStatement >>= next).Follows waiting after front before fits := by
  intro start state out behind standard waits moves known read
  exact later _ start state out behind standard waits moves known read

/-- A look for an operator that applies another one in place. -/
theorem Parse.Follows.augmentedOperator? {β : Type} {after : List Expr} {front : Token → Prop}
    {before : List Symbol} {fits : β → List Symbol → Prop}
    {next : Option BinaryOperator → Parse β}
    (later : ∀ found, (next found).Follows waiting after
      (fun token => ∀ operator, found = some operator →
        (Terminal.augmented operator).Admits token) before fits) :
    (Inner.augmentedOperator? >>= next).Follows waiting after front before fits := by
  have looked : Inner.augmentedOperator? >>= next = Parse.current >>= fun token =>
      next (if token.kind = .operator then BinaryOperator.ofAugmented? token.value else none) := by
    rw [Inner.augmentedOperator?, bind_assoc]
    rfl
  rw [looked]
  refine .current fun token _ => (later _).weaken ?_
  rintro _ rfl operator found
  split at found
  · rename_i kind
    exact ⟨kind, found⟩
  · contradiction

namespace Inner

/-- One turn of an assignment: behind an equals sign the value so far is a target. -/
def nextTarget (inner : Inner) (found : List Expr × Expr) :
    Parse (Turn (List Expr × Expr) (List Expr × Expr)) := do
  let (targets, value) := found
  if ← eat "=" then
    let target ← lift (value.withContext .store)
    return .again (targets ++ [target], ← inner.expr Power.any)
  else return .done (targets, value)

variable {inner : Inner} (sound : inner.Sound waiting)

section expressions

include sound

/-- Targets behind the first one and the value. -/
theorem nextTarget_makes (bound : Nat) (found : List Expr × Expr) :
    (loop inner.nextTarget bound found).Makes waiting fun out =>
      .assignment found.1 found.2 out.1 out.2 := by
  refine Makes.loop (fun (found out : List Expr × Expr) =>
    .assignment found.1 found.2 out.1 out.2) (fun found => ?_) bound found
  refine .eat ?_ (.pure (.stmt .assignmentEnd))
  refine .lift fun target fits => (expr_makes sound _).bind fun next => ?_
  exact .pure ⟨trivial, fun _ => .stmt (.assignment fits)⟩

/-- The targets and the value of an assignment. -/
theorem assignment_follows {first : Expr} {before : List Symbol} :
    (inner.assignment first).Follows waiting waiting (fun token => token.isText "=" = true)
      before fun out symbols => ∃ target next, first.withContext .store = .ok target ∧
        symbols = before ++ [.text "="] ++ [.expr Power.any next] ++
          [.phrase (.assignment [target] next out.1 out.2)] := by
  rw [show inner.assignment first = loop inner.nextTarget inner.bound ([], first) from rfl]
  cases inner.bound with
  | zero => exact .failExpression
  | succ bound =>
    have turn : (inner.nextTarget ([], first)).Follows waiting waiting
        (fun token => token.isText "=" = true) before fun result symbols =>
          ∃ target next, first.withContext .store = .ok target ∧
            result = .again ([target], next) ∧
            symbols = before ++ [.text "="] ++ [.expr Power.any next] := by
      refine .eat ?_ (.known fun token known => ?_)
      · refine .lift fun target fits => (expr_makes sound _).bind fun next => .pure ?_
        exact ⟨target, next, fits, rfl, rfl⟩
      · rw [known.1] at known
        simp at known
    refine turn.bind fun result symbols ⟨target, next, fits, again, same⟩ => ?_
    rw [again, same]
    exact (nextTarget_makes sound bound ([target], next)).last fun out => ⟨target, next, fits, rfl⟩

/-- A statement that starts with an expression and perhaps an annotation. -/
theorem statementFrom_follows {parsed : Parsed} (bare : parsed.Bare) (declared : Option Expr) :
    (inner.statementFrom parsed.expr declared (parsed.form = .grouped)).Follows waiting waiting
      (fun _ => True)
      (.phrase (.optionalOperand Power.any (some parsed)) :: match declared with
        | some annotation => [.text ":", .expr Power.any annotation]
        | none => [])
      fun out => Production (.small out) := by
  refine .check fun assigns => ?_
  cases assigns with
  | true =>
    refine ((assignment_follows sound).weaken fun _ known => known.2).bind ?_
    rintro ⟨targets, value⟩ symbols ⟨first, next, fits, rfl⟩
    cases declared with
    | none => exact .pure (.stmt (.assign bare fits))
    | some annotation =>
      match targets with
      | [target] =>
        apply annotated_follows.weaken_fits
        rintro out symbols ⟨made, rfl⟩
        exact .stmt (.annotateAssign bare fits made)
      | [] => exact .fail
      | _ :: _ :: _ => exact .fail
  | false =>
    refine .augmentedOperator? fun applied => ?_
    cases declared with
    | some annotation =>
      refine .lift fun target fits => annotated_follows.weaken_fits ?_
      rintro out symbols ⟨made, rfl⟩
      exact .stmt (.annotate bare fits made)
    | none =>
      cases applied with
      | none => exact .pure (.stmt (.evaluate bare))
      | some operator =>
        refine .advance (fun _ => .augmented operator) (fun _ known => known operator rfl) ?_
        intro _ _
        refine .lift fun target fits => (expr_makes sound _).bind fun value => ?_
        exact .pure (.stmt (.augment bare fits))

/-- A statement that starts with an expression. -/
theorem expressionStatement_follows {front : Token → Prop} :
    inner.expressionStatement.Follows waiting waiting front [] fun out =>
      Production (.small out) := by
  refine .atNoStatement fun ended => ?_
  cases ended with
  | true => exact .failStatement
  | false =>
    refine (optionalOperand_makes sound _).bind fun found => ?_
    cases found with
    | none => exact .failStatement
    | some parsed =>
      refine .finish fun bare => .eat ?_ ?_
      · refine (expr_makes sound _).bind fun annotation => ?_
        exact statementFrom_follows sound bare (some annotation)
      · exact (statementFrom_follows sound bare none).weaken fun _ _ => trivial

/-- The word return. -/
theorem returnStatement_follows :
    inner.returnStatement.Follows waiting waiting (Token.StartsSimple .returnValue) []
      fun out => Production (.small out) := by
  refine .advance_text (fun _ starts => starts.isText "return" (by decide)) fun _ _ => ?_
  exact (optionalExpr_makes sound _).bind fun value => .pure (.stmt .returnValue)

/-- The word raise. -/
theorem raiseStatement_follows :
    inner.raiseStatement.Follows waiting waiting (Token.StartsSimple .raise) []
      fun out => Production (.small out) := by
  refine .advance_text (fun _ starts => starts.isText "raise" (by decide)) fun _ _ => ?_
  refine (optionalExpr_makes sound _).bind fun exception => ?_
  cases exception with
  | none => exact .pure (.stmt .raise)
  | some exception =>
    refine .eat ?_ (.pure (.stmt .raise))
    exact (expr_makes sound _).bind fun cause => .pure (.stmt .raiseFrom)

/-- The word assert. -/
theorem assertStatement_follows :
    inner.assertStatement.Follows waiting waiting (Token.StartsSimple .assert) []
      fun out => Production (.small out) := by
  have part := expr_makes sound Power.untilComma
  refine .advance_text (fun _ starts => starts.isText "assert" (by decide)) fun _ _ => ?_
  refine part.bind fun test => .eat ?_ (.pure (.stmt .assert))
  exact part.bind fun message => .pure (.stmt .assertMessage)

/-- The targets of a deletion. -/
theorem deleteTargets_makes : inner.deleteTargets.Makes waiting (.deleteTargets []) := by
  refine Makes.loop .deleteTargets (fun targets => ?_) _ _
  refine (optionalTarget_makes sound _ _).bind fun found => ?_
  cases found with
  | none => exact .pure (.stmt .deleteEnd)
  | some target =>
    refine .eat ?_ (.pure (.stmt .deleteLast))
    exact .pure ⟨trivial, fun _ => .stmt .deleteTargets⟩

/-- The word del. -/
theorem deleteStatement_follows :
    inner.deleteStatement.Follows waiting waiting (Token.StartsSimple .delete) []
      fun out => Production (.small out) := by
  refine .advance_text (fun _ starts => starts.isText "del" (by decide)) fun _ _ => ?_
  refine (deleteTargets_makes sound).bind fun targets => ?_
  split
  · exact .current fun _ _ => .fail
  · rename_i some_
    rw [List.isEmpty_iff] at some_
    exact .pure (.stmt (.delete some_))

end expressions

/-- Names between commas, behind a word. -/
theorem nameList_follows {word : String} {front : Token → Prop}
    (written : ∀ token, front token → token.isText word = true) :
    inner.nameList.Follows waiting waiting front [] fun out symbols =>
      ∃ first, symbols = [.text word, .identifier first, .phrase (.names [first] out)] := by
  refine .advance_text written fun _ _ => .expectName fun first => ?_
  refine Makes.last (Makes.loop .names (fun names => ?_) _ _) fun out => ⟨first, rfl⟩
  refine .eat ?_ (.pure (.stmt .namesEnd))
  exact .expectName fun name => .pure ⟨trivial, fun _ => .stmt .names⟩

/-- The name of a module. -/
theorem dottedName_makes : inner.dottedName.Makes waiting .dottedName := by
  refine Follows.makes (.expectName fun first => ?_)
  refine Makes.last (Makes.loop .dotted (fun name => ?_) _ _) fun out => .stmt .dottedName
  refine .eat ?_ (.pure (.stmt .dottedEnd))
  exact .expectName fun more => .pure ⟨trivial, fun _ => .stmt .dotted⟩

/-- The name behind the word as. -/
theorem asName_makes : asName.Makes waiting .asName := by
  refine Follows.makes (.eat ?_ (.pure (.stmt .noName)))
  exact .expectName fun name => .pure (.stmt .asName)

/-- The import of modules. -/
theorem importStatement_follows :
    inner.importStatement.Follows waiting waiting (Token.StartsSimple .importModules) []
      fun out => Production (.small out) := by
  refine .advance_text (fun _ starts => starts.isText "import" (by decide)) fun _ _ => ?_
  refine (Makes.loop .modules (fun names => ?_) _ _).bind fun names => ?_
  · refine dottedName_makes.bind fun name => asName_makes.bind fun asname => .eat ?_ ?_
    · exact .pure ⟨trivial, fun _ => .stmt .modules⟩
    · exact .pure (.stmt .lastModule)
  · exact .pure (.stmt .importModules)

/-- Points before the name of a module. -/
theorem leadingPoints_makes : inner.leadingPoints.Makes waiting (.points 0) := by
  refine Makes.loop .points (fun level => ?_) _ _
  refine .eat ?_ (.eat ?_ ?_)
  · exact .pure ⟨trivial, fun _ => .stmt .point⟩
  · exact .pure ⟨trivial, fun _ => .stmt .threePoints⟩
  · exact .pure (.stmt .pointsEnd)

/-- The names of an import. -/
theorem importedNames_makes (parenthesized : Bool) :
    (inner.importedNames parenthesized).Makes waiting (.importedNames parenthesized []) := by
  refine Makes.loop (.importedNames parenthesized) (fun names => ?_) _ _
  refine .expectName fun name => asName_makes.bind fun asname => .eat (.check fun closed => ?_) ?_
  · split
    · rename_i last
      rw [Bool.and_eq_true] at last
      obtain ⟨rfl, -⟩ := last
      exact .pure (.stmt .commaImport)
    · exact .pure ⟨trivial, fun _ => .stmt .importedNames⟩
  · exact .pure (.stmt .lastImport)

/-- What is imported from a module. -/
theorem importedList_makes : inner.importedList.Makes waiting .importedList := by
  refine Follows.makes (.eat (.pure (.stmt .importStar)) (.eat ?_ ?_))
  · refine (importedNames_makes true).bind fun names => .expect fun _ => ?_
    exact .pure (.stmt .importGrouped)
  · exact (importedNames_makes false).last fun names => .stmt .importBare

/-- The import of names from a module. -/
theorem importFromStatement_follows :
    inner.importFromStatement.Follows waiting waiting (Token.StartsSimple .importFrom) []
      fun out => Production (.small out) := by
  refine .advance_text (fun _ starts => starts.isText "from" (by decide)) fun _ _ => ?_
  refine leadingPoints_makes.bind fun level => .check fun alone => ?_
  split
  · rename_i package
    rw [Bool.and_eq_true, decide_eq_true_eq] at package
    refine .expect fun _ => importedList_makes.bind fun names => ?_
    exact .pure (.stmt (.importPackage package.1))
  · refine dottedName_makes.bind fun name => .expect fun _ => ?_
    exact importedList_makes.bind fun names => .pure (.stmt .importFrom)

/-- A statement of one word. -/
theorem wordStatement_follows {word : String} {stmt : Stmt} {front : Token → Prop}
    (written : ∀ token, front token → token.isText word = true)
    (production : StmtProduction (.small stmt) [.text word]) :
    (wordStatement stmt).Follows waiting waiting front [] fun out => Production (.small out) :=
  .advance_text written fun _ _ => .pure (.stmt production)

end Inner

end Offside
