import Offside.Proofs.Grammar.PairStatements

/-!
# Names do not matter

The parser never looks at how an identifier is spelled. A map of identifiers renames tokens and
trees (`Renaming.ofMap`). The renamed tokens are parsed to the renamed tree, or to a fault of the
same name at the same position (`parseTokens_rename`). The map may give two identifiers one name.
-/
namespace Offside

open Text

/-- A word that is a name and not reserved. -/
abbrev Identifier : Type := { word : String // isIdentifier word = true }

/-- The renaming of a map of identifiers. -/
def Renaming.ofMap (map : Identifier → Identifier) : Renaming where
  word text := if named : isIdentifier text = true then (map ⟨text, named⟩).1 else text
  keeps text named := by
    rw [dif_pos named]
    exact (map ⟨text, named⟩).2
  fixes text other := by rw [dif_neg (Bool.eq_false_iff.1 other)]

namespace Token

/-- A name that is renamed, unless it is reserved; any other token. -/
def rename (rename : Renaming) (token : Token) : Token :=
  if token.kind = .name then { token with value := rename.word token.value } else token

/-- A token that the scan of some source text hands out. -/
def IsScanned (token : Token) : Prop :=
  ∃ source file, token ∈ (Stream.ofSource source file).tokens

/-- Steps find names that are words. -/
theorem holdsOfSteps_holdsWord : HoldsOfSteps HoldsWord where
  found := by
    intro cursor next depth deeper token _ _ step
    have finds := cursor.step_finds depth
    rw [step] at finds
    cases finds with
    | name starts =>
      intro _
      obtain ⟨c, tail, front⟩ : ∃ c tail, cursor.rest = c :: tail := by
        cases front : cursor.rest with
        | nil =>
          rw [front] at starts
          contradiction
        | cons c tail => exact ⟨c, tail, rfl⟩
      have first : isNameStart c = true := by simpa [front] using starts
      have taken : (Lexeme.name cursor.rest).1 = c :: tail.takeWhile isNamePart := by
        simp [front, Lexeme.name, Munch.many, isNamePart, first]
      simp only [Cursor.token, String.toList_ofList, taken]
      refine ⟨first, List.all_eq_true.2 fun other member => ?_⟩
      rcases List.mem_cons.1 member with rfl | later
      · simp [isNamePart, first]
      · exact List.mem_takeWhile_imp later
    | number | literal | comment | operator =>
      intro named
      contradiction
  layout := by
    intro token layout named
    rw [named] at layout
    contradiction

/-- Tokens that are scanned hold words as names. -/
theorem IsScanned.holdsWord {token : Token} (scanned : token.IsScanned) : token.HoldsWord := by
  obtain ⟨source, file, member⟩ := scanned
  exact holdsOfSteps_holdsWord.ofSource source file token member

/-- A token and the renamed token are paired. -/
theorem pairs_rename (rename : Renaming) {token : Token} (word : token.HoldsWord) :
    (Pairing.whole rename id id).Tokens token (token.rename rename) := by
  by_cases named : token.kind = .name
  · rw [Token.rename, if_pos named]
    refine ⟨rfl, fun _ => rfl, fun other => ?_, .inr word, rfl⟩
    rw [named] at other
    rcases other with other | other | other <;> contradiction
  · rw [Token.rename, if_neg named]
    exact ⟨rfl, fun other => absurd other named, fun _ => rfl, .inr word, rfl⟩

/-- The grammar looks at a renamed token just if it looks at the token. -/
theorem isSignificant_rename (rename : Renaming) (token : Token) :
    (token.rename rename).isSignificant = token.isSignificant := by
  rw [Token.rename]
  split <;> rfl

end Token

/-- Names do not matter: renaming the identifiers in tokens that are scanned renames them in the
tree, and a fault keeps its name and its position. -/
theorem parseTokens_rename (map : Identifier → Identifier) {tokens : List Token}
    (scanned : ∀ token ∈ tokens, token.IsScanned) (file : Option String) (mode : Mode) :
    (∀ root, parseTokens tokens file mode = .ok root →
      parseTokens (tokens.map (Token.rename (.ofMap map))) file mode =
        .ok (root.relabel (Renaming.ofMap map).word)) ∧
    ∀ fault, parseTokens tokens file mode = .error fault → ∃ found,
      parseTokens (tokens.map (Token.rename (.ofMap map))) file mode = .error found ∧
        found.cause.name = fault.cause.name ∧ found.position = fault.position := by
  have significant : (tokens.map (Token.rename (.ofMap map))).filter Token.isSignificant =
      (tokens.filter Token.isSignificant).map (Token.rename (.ofMap map)) := by
    rw [List.filter_map]
    congr 1
    exact List.filter_congr fun token _ => Token.isSignificant_rename (.ofMap map) token
  have paired : List.Forall₂ (Pairing.whole (.ofMap map) id id).Tokens
      (tokens.filter Token.isSignificant)
      ((tokens.map (Token.rename (.ofMap map))).filter Token.isSignificant) := by
    rw [significant, List.forall₂_map_right_iff, List.forall₂_same]
    intro token member
    exact Token.pairs_rename _ (scanned token (List.mem_filter.1 member).1).holdsWord
  obtain ⟨follows, fails⟩ := parseTokens_pairs rfl paired file mode
  constructor
  · intro root parsed
    obtain ⟨found, otherParsed, copies⟩ := follows root parsed
    rw [Root.moveLines_id, Root.moveLines_id] at copies
    rw [otherParsed, copies]
  · intro fault failed
    obtain ⟨found, otherFailed, faults⟩ := fails fault failed
    refine ⟨found, otherFailed, faults.cause.name, ?_⟩
    have line : found.position.line = fault.position.line := faults.line
    calc found.position
      _ = ⟨found.position.line, found.position.file⟩ := rfl
      _ = ⟨fault.position.line, fault.position.file⟩ := by rw [line, faults.file]
      _ = fault.position := rfl

/-- All names become one in a text with a dotted name and a reserved word, and in a text that is no
statement. -/
theorem parseTokens_rename_all :
    (∀ token ∈ (Stream.ofSource "import a.b\nc = None\n" none).tokens, token.IsScanned) ∧
    (∀ token ∈ (Stream.ofSource "a b\n" none).tokens, token.IsScanned) ∧
    (∃ root, parseTokens (Stream.ofSource "import a.b\nc = None\n" none).tokens none .exec =
        .ok root ∧
      parseTokens ((Stream.ofSource "import a.b\nc = None\n" none).tokens.map
        (Token.rename (.ofMap fun _ => ⟨"x", by decide⟩))) none .exec =
          .ok (root.relabel (Renaming.ofMap fun _ => ⟨"x", by decide⟩).word)) ∧
    ∃ fault, parseTokens (Stream.ofSource "a b\n" none).tokens none .exec = .error fault ∧
      ∃ found, parseTokens ((Stream.ofSource "a b\n" none).tokens.map
          (Token.rename (.ofMap fun _ => ⟨"x", by decide⟩))) none .exec = .error found ∧
        found.cause.name = fault.cause.name ∧ found.position = fault.position := by
  have accepted : (parseTokens (Stream.ofSource "import a.b\nc = None\n" none).tokens none
      .exec).toBool = true := by decide +kernel
  have refused : (parseTokens (Stream.ofSource "a b\n" none).tokens none .exec).toBool = false := by
    decide +kernel
  have scanned (source : String) : ∀ token ∈ (Stream.ofSource source none).tokens,
      token.IsScanned := fun token member => ⟨source, none, member⟩
  refine ⟨scanned _, scanned _, ?_, ?_⟩
  · cases parsed : parseTokens (Stream.ofSource "import a.b\nc = None\n" none).tokens none .exec with
    | error fault =>
      rw [parsed] at accepted
      contradiction
    | ok root => exact ⟨root, rfl, (parseTokens_rename _ (scanned _) none .exec).1 root parsed⟩
  · cases failed : parseTokens (Stream.ofSource "a b\n" none).tokens none .exec with
    | ok root =>
      rw [failed] at refused
      contradiction
    | error fault => exact ⟨fault, rfl, (parseTokens_rename _ (scanned _) none .exec).2 fault failed⟩

end Offside
