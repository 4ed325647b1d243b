import Offside.Proofs.Grammar.Renamed
import Offside.Proofs.Grammar.Whole
import Offside.Proofs.Layout.Gaps

/-!
# White space does not matter

Texts with the same significant tokens are parsed alike, up to the lines of definitions
(`parse_of_same`). So another gap between two tokens of a logical line leaves the tree as it was
(`respaced_agrees`), unless the token in front of it is a backslash and an end of a line comes
behind that.
-/
namespace Offside

open Text

/-- A tree without the lines of definitions. -/
def Root.unplaced (root : Root) : Root :=
  root.moveLines fun _ => 0

/-- Two texts are parsed alike: to the same tree, up to the lines of definitions, or to faults with
the same cause. -/
structure ParsedAlike (source other : String) (file : Option String) (mode : Mode) : Prop where
  /-- The trees are the same. -/
  tree : ∀ root, parse source file mode = .ok root → ∃ found,
    parse other file mode = .ok found ∧ found.unplaced = root.unplaced
  /-- The causes are the same. -/
  fault : ∀ fault, parse source file mode = .error fault → ∃ found,
    parse other file mode = .error found ∧ found.cause = fault.cause

/-- Texts with the same significant tokens are parsed alike. -/
theorem parse_of_same {source other : String} {file : Option String} {tokens others : List Token}
    (scanned : tokenize source file = .ok tokens) (otherScanned : tokenize other file = .ok others)
    (same : List.Forall₂ Token.Same (tokens.filter Token.isSignificant)
      (others.filter Token.isSignificant)) (mode : Mode) : ParsedAlike source other file mode := by
  have paired : List.Forall₂ (Pairing.whole .none (fun _ => 0) fun _ => 0).Tokens
      (tokens.filter Token.isSignificant) (others.filter Token.isSignificant) := by
    refine same.imp fun token found here => ?_
    exact ⟨here.kind, fun _ => here.value, fun _ => here.value, .inl rfl, rfl⟩
  obtain ⟨follows, fails⟩ := parseTokens_pairs rfl paired file mode
  rw [← parse_of_tokenize scanned, ← parse_of_tokenize otherScanned] at follows fails
  constructor
  · intro root parsed
    obtain ⟨found, otherParsed, copies⟩ := follows root parsed
    have id : (Renaming.none).word = id := rfl
    rw [id, Root.relabel_id] at copies
    exact ⟨found, otherParsed, copies⟩
  · intro fault failed
    obtain ⟨found, otherFailed, faults⟩ := fails fault failed
    exact ⟨found, otherFailed, faults.cause.same rfl⟩

/-- What the grammar sees of tokens: the kinds and the texts of all but comments and soft breaks. -/
def significantWords (tokens : List Token) : List (Kind × String) :=
  (tokens.filter Token.isSignificant).map fun token => (token.kind, token.value)

/-- White space does not matter: with another gap between two tokens of a logical line a text has the
same significant tokens, and it is parsed alike. The gap holds blanks, continued lines and, inside
brackets, comments and ends of lines. Behind a backslash of its own it may not start with the end
of a line. -/
theorem respaced_agrees {front gap back other : String} (parts : Gap front gap back)
    {file : Option String} {tokens : List Token}
    (scanned : tokenize (front ++ gap ++ back) file = .ok tokens) (some_ : gap ≠ "")
    (otherSome : other ≠ "") (filler : Filler parts.depth other.toList)
    (apart : parts.first.value = "\\" → (unifyBreaks other.toList).head? ≠ some '\n') :
    (∃ others, tokenize (front ++ other ++ back) file = .ok others ∧
      significantWords others = significantWords tokens) ∧
    ∀ mode, ParsedAlike (front ++ gap ++ back) (front ++ other ++ back) file mode := by
  obtain ⟨others, otherScanned, same⟩ :=
    parts.tokenize_other scanned some_ otherSome filler apart
  refine ⟨⟨others, otherScanned, ?_⟩, fun mode => parse_of_same scanned otherScanned same mode⟩
  rw [significantWords, significantWords, ← List.forall₂_eq_eq_eq, List.forall₂_map_left_iff,
    List.forall₂_map_right_iff]
  exact same.flip.imp fun found token here => by rw [here.kind, here.value]

/-- A blank between a parenthesis and a name. -/
def Gap.behindParenthesis : Gap "(" " " "b)\n" where
  first := ⟨.operator, "(", 1, "( b)\n"⟩
  second := ⟨.name, "b", 1, "( b)\n"⟩
  upper := []
  between := []
  start := ⟨⟨1, "( b)\n", false⟩, "( b)\n".toList, []⟩
  left := ⟨⟨1, "( b)\n", false⟩, " b)\n".toList, []⟩
  right := ⟨⟨1, "( b)\n", false⟩, "b)\n".toList, []⟩
  next := ⟨⟨1, "( b)\n", false⟩, ")\n".toList, []⟩
  indents := []
  otherIndents := []
  outer := 0
  depth := 1
  otherDepth := 1
  inner := 1
  reaches := by
    have lines : Line.read (physicalLines ("(" ++ " " ++ "b)\n")) = [⟨1, "( b)\n", false⟩] := by
      decide +kernel
    have enter : Spot.Step (.line [⟨1, "( b)\n", false⟩] 0 [] 0) []
        (.inside ⟨⟨1, "( b)\n", false⟩, "( b)\n".toList, []⟩ [] 0) := .enter rfl rfl
    rw [Spot.start, lines]
    exact enter.comes
  opens := by rfl
  passes := .step (.skip (Cursor.step_blank (by decide))) .stop
  closes := rfl
  significant := rfl
  otherSignificant := rfl
  quiet := fun _ member => absurd member List.not_mem_nil
  leaves := by decide +kernel
  ends := by decide +kernel
  whole := by decide

/-- A comment and a continued line in place of the blank. -/
theorem respaced_agrees_of_comment :
    ∃ tokens, tokenize ("(" ++ " " ++ "b)\n") none = .ok tokens ∧
      (" " : String) ≠ "" ∧ "# c\n\\\n" ≠ "" ∧
      Filler Gap.behindParenthesis.depth "# c\n\\\n".toList ∧
      (Gap.behindParenthesis.first.value = "\\" →
        (unifyBreaks "# c\n\\\n".toList).head? ≠ some '\n') ∧
      (∃ others, tokenize ("(" ++ "# c\n\\\n" ++ "b)\n") none = .ok others ∧
        significantWords others = significantWords tokens) ∧
      ∀ mode, ParsedAlike ("(" ++ " " ++ "b)\n") ("(" ++ "# c\n\\\n" ++ "b)\n") none mode := by
  have accepted : (tokenize ("(" ++ " " ++ "b)\n") none).toBool = true := by decide +kernel
  have filler : Filler Gap.behindParenthesis.depth "# c\n\\\n".toList := by
    show Filler 1 ('#' :: [' ', 'c'] ++ '\n' :: ['\\', '\n'])
    exact .comment (by decide) (by decide) (.continued .nil)
  have plain : Gap.behindParenthesis.first.value ≠ "\\" := by decide
  cases scanned : tokenize ("(" ++ " " ++ "b)\n") none with
  | error fault =>
    rw [scanned] at accepted
    contradiction
  | ok tokens =>
    exact ⟨tokens, rfl, by decide, by decide, filler, fun same => absurd same plain,
      respaced_agrees Gap.behindParenthesis scanned (by decide) (by decide) filler
        fun same => absurd same plain⟩

/-- A blank behind a backslash of its own. -/
def Gap.behindBackslash : Gap "(\\" " " "b)\n" where
  first := ⟨.operator, "\\", 1, "(\\ b)\n"⟩
  second := ⟨.name, "b", 1, "(\\ b)\n"⟩
  upper := [⟨.operator, "(", 1, "(\\ b)\n"⟩]
  between := []
  start := ⟨⟨1, "(\\ b)\n", false⟩, "\\ b)\n".toList, []⟩
  left := ⟨⟨1, "(\\ b)\n", false⟩, " b)\n".toList, []⟩
  right := ⟨⟨1, "(\\ b)\n", false⟩, "b)\n".toList, []⟩
  next := ⟨⟨1, "(\\ b)\n", false⟩, ")\n".toList, []⟩
  indents := []
  otherIndents := []
  outer := 1
  depth := 1
  otherDepth := 1
  inner := 1
  reaches := by
    have lines : Line.read (physicalLines ("(\\" ++ " " ++ "b)\n")) = [⟨1, "(\\ b)\n", false⟩] := by
      decide +kernel
    have enter : Spot.Step (.line [⟨1, "(\\ b)\n", false⟩] 0 [] 0) []
        (.inside ⟨⟨1, "(\\ b)\n", false⟩, "(\\ b)\n".toList, []⟩ [] 0) := .enter rfl rfl
    have opens : Spot.Step (.inside ⟨⟨1, "(\\ b)\n", false⟩, "(\\ b)\n".toList, []⟩ [] 0)
        [⟨.operator, "(", 1, "(\\ b)\n"⟩]
        (.inside ⟨⟨1, "(\\ b)\n", false⟩, "\\ b)\n".toList, []⟩ [] 1) := .token (by rfl)
    rw [Spot.start, lines]
    exact enter.comes.trans opens.comes
  opens := by rfl
  passes := .step (.skip (Cursor.step_blank (by decide))) .stop
  closes := rfl
  significant := rfl
  otherSignificant := rfl
  quiet := fun _ member => absurd member List.not_mem_nil
  leaves := by decide +kernel
  ends := by decide +kernel
  whole := by decide

/-- Behind a backslash of its own the end of a line does matter: the two become a continued line. -/
theorem lone_backslash_joined :
    ∃ tokens others, tokenize ("(\\" ++ " " ++ "b)\n") none = .ok tokens ∧
      Filler Gap.behindBackslash.depth "\n".toList ∧
      tokenize ("(\\" ++ "\n" ++ "b)\n") none = .ok others ∧
      significantWords others ≠ significantWords tokens := by
  have filler : Filler Gap.behindBackslash.depth "\n".toList :=
    .feed (by decide) .nil
  have accepted : (tokenize ("(\\" ++ " " ++ "b)\n") none).map significantWords =
      .ok [(.operator, "("), (.operator, "\\"), (.name, "b"), (.operator, ")"), (.newline, "\n"),
        (.endMarker, "")] := by
    decide +kernel
  have otherAccepted : (tokenize ("(\\" ++ "\n" ++ "b)\n") none).map significantWords =
      .ok [(.operator, "("), (.name, "b"), (.operator, ")"), (.newline, "\n"),
        (.endMarker, "")] := by
    decide +kernel
  cases scanned : tokenize ("(\\" ++ " " ++ "b)\n") none with
  | error fault =>
    rw [scanned] at accepted
    contradiction
  | ok tokens =>
    cases otherScanned : tokenize ("(\\" ++ "\n" ++ "b)\n") none with
    | error fault =>
      rw [otherScanned] at otherAccepted
      contradiction
    | ok others =>
      rw [scanned] at accepted
      rw [otherScanned] at otherAccepted
      refine ⟨tokens, others, rfl, filler, rfl, ?_⟩
      rw [Except.ok.inj accepted, Except.ok.inj otherAccepted]
      decide

end Offside
