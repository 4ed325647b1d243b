import Mathlib.Data.List.DropRight
import Mathlib.Data.List.Forall2
import Offside.Proofs.Grammar.Statements
import Offside.Proofs.Tree.Definitions

/-!
# Headings

Tokens are cut into lines behind each mark of the layout. A line may hold a decorator or open a
definition, and the decorators of a definition are on the lines directly above it, as far up as
they reach (`definitionLines`). Definitions of a tree stand on such lines if each of them has the
words, the name and the place of its line, and the expressions of the lines above
(`Stmt.Heads`). Lines that are whole statements are put together in order (`Settled`).
-/
namespace Offside

open Parse

/-- The tokens cut into lines, each with the mark of the layout behind it. -/
def tokenLines : List Token → List (List Token)
  | [] => []
  | token :: rest =>
    if token.kind.isLayout then [token] :: tokenLines rest
    else match tokenLines rest with
      | [] => [[token]]
      | line :: lines => (token :: line) :: lines

/-- The token is a word that is written as a name. -/
def Token.isWord (token : Token) (word : String) : Bool :=
  token.kind == .name && token.value == word

/-- The line starts with the sign of a decorator. -/
def startsDecorator (line : List Token) : Bool :=
  line.head?.any fun token => token.isText "@"

/-- The line starts with the words of a definition. -/
def opensDefinition : List Token → Bool
  | [] => false
  | first :: rest =>
    first.isWord "def" || first.isWord "class" ||
      (first.isWord "async" && rest.head?.any fun token => token.isText "def")

/-- The lines that open definitions, each with the lines of decorators directly above it. The
first lines are those above the others. -/
def definitionLines (above : List (List Token)) :
    List (List Token) → List (List Token × List (List Token))
  | [] => []
  | line :: below =>
    if opensDefinition line then
      (line, above.rtakeWhile startsDecorator) :: definitionLines (above ++ [line]) below
    else definitionLines (above ++ [line]) below

/-- The line holds a decorator: its sign, what is read as the expression behind it, and a line
end. -/
def DecoratorLine (decorator : Expr) (line : List Token) : Prop :=
  ∃ sign inside ending, line = sign :: inside ++ [ending] ∧ sign.isText "@" = true ∧
    ending.kind = .newline ∧ (∀ token ∈ inside, token.kind.isLayout = false) ∧
    ∃ bound state behind, state.grammar = .standard ∧
      (Inner.upTo bound).expr Power.target state = .ok decorator behind ∧
      state.ahead = inside ++ behind.ahead ∧ behind.current = ending

/-- The line starts with the words of the definition, on its line, and with its name. -/
def Stmt.Heads (line : List Token) : Stmt → Prop
  | .functionDef isAsync name _ _ _ _ place =>
    ∃ words id rest, line = words ++ id :: rest ∧ words.head?.map Token.line = some place ∧
      words.map Token.value = (if isAsync then ["async", "def"] else ["def"]) ∧
      id.kind = .name ∧ id.value = name
  | .classDef name _ _ _ _ place =>
    ∃ word id rest, line = word :: id :: rest ∧ word.line = place ∧ word.value = "class" ∧
      id.kind = .name ∧ id.value = name
  | _ => False

/-- The definition stands on a line below those of its decorators. -/
def Stmt.StandsOn (definition : Stmt) (found : List Token × List (List Token)) : Prop :=
  definition.Heads found.1 ∧ List.Forall₂ DecoratorLine definition.decorators found.2

/-- The tokens are one line. Something stands before the end of a line. -/
def IsLine (line : List Token) : Prop :=
  ∃ inside mark, line = inside ++ [mark] ∧ (∀ token ∈ inside, token.kind.isLayout = false) ∧
    mark.kind.isLayout = true ∧ (mark.kind = .newline → inside ≠ [])

/-- A line is cut off. -/
theorem IsLine.cut {line : List Token} (whole : IsLine line) (rest : List Token) :
    tokenLines (line ++ rest) = line :: tokenLines rest := by
  obtain ⟨inside, mark, rfl, plain, layout, -⟩ := whole
  induction inside with
  | nil =>
    show tokenLines (mark :: rest) = [mark] :: tokenLines rest
    rw [tokenLines, if_pos layout]
  | cons token inside ih =>
    obtain ⟨here, later⟩ := List.forall_mem_cons.1 plain
    rw [List.cons_append, List.cons_append, tokenLines, if_neg (by rw [here]; decide), ih later]

/-- Lines in order are cut into themselves. -/
theorem tokenLines_flatten {lines : List (List Token)} (whole : ∀ line ∈ lines, IsLine line)
    (rest : List Token) : tokenLines (lines.flatten ++ rest) = lines ++ tokenLines rest := by
  induction lines with
  | nil => rfl
  | cons line lines ih =>
    obtain ⟨here, later⟩ := List.forall_mem_cons.1 whole
    rw [List.flatten_cons, List.append_assoc, here.cut, ih later, List.cons_append]

/-- Of the lines above only the decorators directly above matter. -/
theorem definitionLines_congr {above other : List (List Token)}
    (same : above.rtakeWhile startsDecorator = other.rtakeWhile startsDecorator)
    (lines : List (List Token)) : definitionLines above lines = definitionLines other lines := by
  induction lines generalizing above other with
  | nil => rfl
  | cons line lines ih =>
    have further : (above ++ [line]).rtakeWhile startsDecorator =
        (other ++ [line]).rtakeWhile startsDecorator := by
      rw [List.rtakeWhile_concat, List.rtakeWhile_concat, same]
    rw [definitionLines, definitionLines, same, ih further]

/-- Lines in order open their definitions in order. -/
theorem definitionLines_append (above front back : List (List Token)) :
    definitionLines above (front ++ back) =
      definitionLines above front ++ definitionLines (above ++ front) back := by
  induction front generalizing above with
  | nil => simp [definitionLines]
  | cons line front ih =>
    have order : above ++ line :: front = above ++ [line] ++ front := by simp
    rw [List.cons_append, definitionLines, definitionLines, ih, order]
    split <;> rfl

/-- A line of a decorator opens no definition. -/
theorem opensDefinition_of_startsDecorator {line : List Token}
    (decorator : startsDecorator line = true) : opensDefinition line = false := by
  cases line with
  | nil => rfl
  | cons first rest =>
    have sign : first.value = "@" := by
      simp only [startsDecorator, List.head?_cons, Option.any_some, Token.isText,
        Bool.and_eq_true, beq_iff_eq] at decorator
      exact decorator.2
    simp [opensDefinition, Token.isWord, sign]

/-- Lines of decorators open no definition. -/
theorem definitionLines_decorators (above : List (List Token)) {lines : List (List Token)}
    (decorators : ∀ line ∈ lines, startsDecorator line = true) :
    definitionLines above lines = [] := by
  induction lines generalizing above with
  | nil => rfl
  | cons line lines ih =>
    obtain ⟨here, later⟩ := List.forall_mem_cons.1 decorators
    rw [definitionLines, opensDefinition_of_startsDecorator here, if_neg Bool.false_ne_true,
      ih _ later]

/-- The lines are whole and open the given definitions, and no decorator is left at their end. -/
structure Settled (definitions : List Stmt) (lines : List (List Token)) : Prop where
  /-- Each line is whole. -/
  whole : ∀ line ∈ lines, IsLine line
  /-- Each definition stands on its line, and no line is without one. -/
  stand : List.Forall₂ Stmt.StandsOn definitions (definitionLines [] lines)
  /-- The last line is no decorator. -/
  done : lines.rtakeWhile startsDecorator = []

namespace Settled

/-- No lines open no definition. -/
theorem nil : Settled [] [] := ⟨fun _ member => absurd member List.not_mem_nil, .nil, rfl⟩

/-- Behind lines with no decorator left, the lines above do not matter. -/
theorem definitionLines_eq {above : List (List Token)}
    (done : above.rtakeWhile startsDecorator = []) (lines : List (List Token)) :
    definitionLines above lines = definitionLines [] lines :=
  definitionLines_congr (done.trans (List.rtakeWhile_nil _).symm) lines

/-- Lines in order open their definitions in order. -/
theorem append {first second : List Stmt} {upper lower : List (List Token)}
    (front : Settled first upper) (back : Settled second lower) :
    Settled (first ++ second) (upper ++ lower) where
  whole := List.forall_mem_append.2 ⟨front.whole, back.whole⟩
  stand := by
    rw [definitionLines_append, List.nil_append, definitionLines_eq front.done]
    exact List.rel_append front.stand back.stand
  done := by
    rcases List.eq_nil_or_concat lower with rfl | ⟨lines, line, rfl⟩
    · rw [List.append_nil]
      exact front.done
    · have bare := back.done
      rw [List.concat_eq_append] at bare ⊢
      rw [← List.append_assoc]
      rw [List.rtakeWhile_concat] at bare ⊢
      split at bare
      · exact absurd bare (by simp)
      · rename_i other
        rw [if_neg other]

/-- A line that opens no definition and holds no decorator. -/
theorem plain {line : List Token} (whole : IsLine line) (bare : startsDecorator line = false)
    (closed : opensDefinition line = false) : Settled [] [line] where
  whole := by simpa using whole
  stand := by
    rw [definitionLines, closed, if_neg Bool.false_ne_true]
    exact .nil
  done := List.rtakeWhile_concat_neg _ [] line (by simp [bare])

/-- A definition below its decorators and above the definitions in its body. -/
theorem definition {definition : Stmt} {inside : List Stmt} {decorators : List (List Token)}
    {line : List Token} {lines : List (List Token)} (body : Settled inside lines)
    (wholes : ∀ line ∈ decorators, IsLine line)
    (starts : ∀ line ∈ decorators, startsDecorator line = true)
    (decorated : List.Forall₂ DecoratorLine definition.decorators decorators)
    (whole : IsLine line) (bare : startsDecorator line = false)
    (opens : opensDefinition line = true) (heads : definition.Heads line) :
    Settled (definition :: inside) (decorators ++ line :: lines) := by
  have above : decorators.rtakeWhile startsDecorator = decorators :=
    List.rtakeWhile_eq_self_iff.2 starts
  have below : (decorators ++ [line]).rtakeWhile startsDecorator = [] :=
    List.rtakeWhile_concat_neg _ decorators line (by simp [bare])
  have found : Settled [definition] (decorators ++ [line]) := by
    refine ⟨List.forall_mem_append.2 ⟨wholes, by simpa using whole⟩, ?_, below⟩
    rw [definitionLines_append, definitionLines_decorators [] starts, List.nil_append,
      definitionLines, if_pos opens, List.nil_append, above]
    exact .cons ⟨heads, decorated⟩ .nil
  have whole := found.append body
  rwa [List.append_assoc, List.singleton_append, List.singleton_append] at whole

end Settled

end Offside
