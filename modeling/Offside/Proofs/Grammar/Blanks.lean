import Offside.Proofs.Grammar.Decorators
import Offside.Proofs.Grammar.Modules
import Offside.Proofs.Layout.Blanks

/-!
# Blank lines do not matter

A module with one more blank line has the same statements, and those below the line are one line
further down (`ReadsModule.alike`). This holds as long as the blank line makes a soft break. A blank
line with something behind its form feed makes a line end instead, and no line of a module holds
nothing but its end (`ReadsModule.no_bare_end`), so the text is refused
(`blank_line`).
-/
namespace Offside

open Parse Text

/-- In lines in order, something stands before each end of a line. -/
theorem exists_before_newline {lines : List (List Token)} (whole : ∀ line ∈ lines, IsLine line)
    {front rest : List Token} {ending : Token} (same : lines.flatten = front ++ ending :: rest)
    (ends : ending.kind = .newline) :
    ∃ before last, front = before ++ [last] ∧ last.kind.isLayout = false := by
  induction lines generalizing front with
  | nil => simp at same
  | cons line lines ih =>
    obtain ⟨⟨inside, mark, rfl, plain, layout, some_⟩, later⟩ := List.forall_mem_cons.1 whole
    rw [List.flatten_cons, List.append_assoc, List.singleton_append] at same
    rcases List.append_eq_append_iff.1 same with ⟨more, rfl, tail⟩ | ⟨more, rfl, tail⟩
    · cases more with
      | nil =>
        -- The end of the line that comes first.
        obtain ⟨rfl, -⟩ := List.cons.inj tail
        have filled := some_ ends
        refine ⟨inside.dropLast, inside.getLast filled, ?_, plain _ (List.getLast_mem filled)⟩
        rw [List.append_nil, List.dropLast_append_getLast]
      | cons first more =>
        obtain ⟨rfl, below⟩ := List.cons.inj tail
        obtain ⟨before, last, rfl, kind⟩ := ih later below
        exact ⟨inside ++ mark :: before, last, by simp, kind⟩
    · cases more with
      | nil =>
        obtain ⟨rfl, -⟩ := List.cons.inj tail
        rw [List.append_nil] at some_ plain
        have filled := some_ ends
        exact ⟨front.dropLast, front.getLast filled, (List.dropLast_append_getLast filled).symm,
          plain _ (List.getLast_mem filled)⟩
      | cons first more =>
        obtain ⟨rfl, -⟩ := List.cons.inj tail
        have inner := plain ending (List.mem_append_right _ List.mem_cons_self)
        rw [ends] at inner
        contradiction

/-- Statement lines settle the decorators on their lines, and none wait behind them. -/
theorem Scope.Reads.settles {bound : Nat} {state behind : State} {body : List Stmt}
    (reads : (Scope.upTo bound).Reads state body behind) (standard : state.grammar = .standard)
    (waits : state.decorators = []) :
    ∃ lines, state.ahead = lines.flatten ++ behind.ahead ∧
      Settled (bodyDefinitions body) lines := by
  induction reads with
  | stop => exact ⟨[], rfl, .nil⟩
  | line going read later ih =>
    obtain ⟨above, rest, same, decorated, onward, kept, -⟩ :=
      Scope.statementLine_read (Scope.lays_at bound bound) rfl standard waits read
    obtain ⟨upper, cut, settled⟩ := decorated.settles
    obtain ⟨lower, below, after⟩ := ih onward kept
    refine ⟨upper ++ lower, ?_, ?_⟩
    · rw [same, ← List.append_assoc, cut, below, List.flatten_append, List.append_assoc]
    · rw [bodyDefinitions_append]
      exact settled.append after

section modules

variable {tokens : List Token} {file : Option String} {body : List Stmt} {behind : State}
  (whole : ReadsModule tokens file body behind) (laidOut : WellLaidOut tokens)
include whole laidOut

/-- In a module something stands before each end of a line. -/
theorem ReadsModule.before_newline {front rest : List Token} {ending : Token}
    (same : tokens.filter Token.isSignificant = front ++ ending :: rest)
    (ends : ending.kind = .newline) :
    ∃ before last, front = before ++ [last] ∧ last.kind.isLayout = false := by
  obtain ⟨lines, ahead, settled⟩ := whole.reads.settles rfl rfl
  obtain ⟨last, left, mark⟩ := whole.left laidOut
  have cut : lines.flatten ++ [last] = front ++ ending :: rest := by
    rw [← same, ← left]
    exact ahead.symm
  obtain ⟨lower, inner⟩ : ∃ lower, lines.flatten = front ++ ending :: lower := by
    rcases List.eq_nil_or_concat rest with rfl | ⟨lower, final, rfl⟩
    · obtain ⟨-, single⟩ := List.append_inj' cut rfl
      obtain rfl := List.singleton_inj.1 single
      rw [mark] at ends
      contradiction
    · rw [List.concat_eq_append, ← List.cons_append, ← List.append_assoc] at cut
      exact ⟨lower, (List.append_inj' cut rfl).1⟩
  exact exists_before_newline settled.whole inner ends

/-- Tokens that are those of a module, with their lines moved, are read as its statements with their
lines moved. -/
theorem ReadsModule.alike {others : List Token} {move : Nat → Nat}
    (alike : List.Forall₂ (Token.Alike move) (tokens.filter Token.isSignificant)
      (others.filter Token.isSignificant)) :
    ∃ last, ReadsModule others file (moveBody move body) last := by
  obtain ⟨ending, left, -⟩ := whole.left laidOut
  have beside : Frame.Beside ⟨move, [], []⟩ (.ofTokens tokens file) (.ofTokens others file) :=
    ⟨⟨_, _, (List.append_nil _).symm, (List.append_nil _).symm, alike⟩, rfl, rfl, rfl, rfl⟩
  have within : (State.ofTokens tokens file).bound ≤ (State.ofTokens others file).bound :=
    Nat.add_le_add_right (Nat.le_of_eq alike.length_eq) 2
  obtain ⟨last, reads, kind⟩ := whole.reads.alike rfl within beside left
  exact ⟨last, reads, kind.trans whole.mark⟩

end modules

/-- In a module no line holds nothing but its end. -/
theorem ReadsModule.no_bare_end {made marks later : List Token} {ending : Token}
    {file : Option String} {body : List Stmt} {behind : State}
    (whole : ReadsModule (made ++ (marks ++ ending :: later)) file body behind)
    (laidOut : WellLaidOut (made ++ (marks ++ ending :: later))) (ended : EndsWithNewline made)
    (kinds : ∀ token ∈ marks, token.kind = .indent ∨ token.kind = .dedent)
    (ends : ending.kind = .newline) : False := by
  have looks : marks.filter Token.isSignificant = marks := by
    refine List.filter_eq_self.2 fun token member => ?_
    rcases kinds token member with kind | kind <;> simp [Token.isSignificant, kind]
  have significant : ending.isSignificant = true := by simp [Token.isSignificant, ends]
  have cut : (made ++ (marks ++ ending :: later)).filter Token.isSignificant =
      (made.filter Token.isSignificant ++ marks) ++
        ending :: later.filter Token.isSignificant := by
    rw [List.filter_append, List.filter_append, looks, List.filter_cons, if_pos significant,
      List.append_assoc]
  obtain ⟨before, last, front, kind⟩ := whole.before_newline laidOut cut ends
  -- What stands before the end of the line is a mark of a block, or the end of a line above.
  rcases List.eq_nil_or_concat marks with rfl | ⟨upper, mark, rfl⟩
  · rw [List.append_nil] at front
    have above := ended last (by rw [front, List.getLast?_concat]; rfl)
    rw [above] at kind
    contradiction
  · rw [List.concat_eq_append, ← List.append_assoc] at front
    obtain rfl := List.singleton_inj.1 (List.append_inj' front rfl).2
    rcases kinds mark (by simp) with other | other <;> rw [other] at kind <;> contradiction

/-- Where a line is if one more line stands below the given number of lines. -/
def lowerBelow (count line : Nat) : Nat :=
  if line ≤ count then line else line + 1

/-- A token that is not significant, put between tokens above a line and those below it, leaves the
significant tokens alike with those below it one line further down. -/
theorem significant_alike {made later : List Token} {soft : Token} {count : Nat}
    (above : ∀ token ∈ made, token.line ≤ count)
    (below : ∀ token ∈ later, count < token.line ∨ token.value = "")
    (drops : soft.isSignificant = false) :
    List.Forall₂ (Token.Alike (lowerBelow count)) ((made ++ later).filter Token.isSignificant)
      ((made ++ soft :: later.map (Token.lower 1)).filter Token.isSignificant) := by
  rw [List.filter_append, List.filter_append, List.filter_cons_of_neg (by simp [drops]),
    filter_lower]
  refine List.rel_append (List.forall₂_same.2 fun token member => ?_)
    (List.forall₂_map_right_iff.2 (List.forall₂_same.2 fun token member => ?_))
  · have high := above token (List.mem_filter.1 member).1
    exact .mk fun _ => (if_pos high).symm
  · refine .mk fun word => ?_
    rcases below token (List.mem_filter.1 member).1 with low | empty
    · exact (if_neg (Nat.not_le.2 low)).symm
    · rw [empty] at word
      exact absurd word (by decide)

/-- Blank lines do not matter, as far as their form feed is the last of their characters. Given two
texts one behind the other that are a module, of which the first one ends where a logical line may
start, and a blank line, which holds nothing but spaces, tabs and at most one form feed. If nothing
stands behind the form feed, or there is none, then the texts with the blank line between them are
the same module, but the lines of definitions below the blank line are one line further down: to
the tokens of the texts a soft break is added, those below it are one line further down, and all
else is the same. If something stands behind the form feed, the texts with the blank line between
them are refused. -/
theorem blank_line {upper blank lower : String} {gap : List Char} {file : Option String}
    {first : List Token} {root : Root} (boundary : EndsLogicalLine upper file first)
    (line : BlankLine blank gap lower) (parsed : parse (upper ++ lower) file .exec = .ok root) :
    ('\x0c' ∉ gap.dropLast →
      parse (upper ++ blank ++ lower) file .exec =
        .ok (root.moveLines (lowerBelow (physicalLines upper).length)) ∧
      ∃ made indents later, first = made ++ Spot.closing indents (physicalLines upper).length ∧
        tokenize (upper ++ lower) file = .ok (made ++ later) ∧
        tokenize (upper ++ blank ++ lower) file = .ok
          (made ++ ⟨.softBreak, "\n", (physicalLines upper).length + 1, .ofList (gap ++ ['\n'])⟩ ::
            later.map (Token.lower 1))) ∧
    ('\x0c' ∈ gap.dropLast →
      ∃ fault, parse (upper ++ blank ++ lower) file .exec = .error fault) := by
  obtain ⟨body, rfl⟩ := parse_exec_module parsed
  rw [String.append_assoc]
  constructor
  · intro late
    obtain ⟨tokens, behind, scanned, whole⟩ := parse_exec_iff.1 parsed
    obtain ⟨made, indents, later, same, rfl, otherScanned, above, below⟩ :=
      tokenize_blank boundary line late scanned
    refine ⟨?_, made, indents, later, same, scanned, otherScanned⟩
    have alike := @significant_alike made later
      ⟨.softBreak, "\n", (physicalLines upper).length + 1, .ofList (gap ++ ['\n'])⟩ _ above below rfl
    obtain ⟨last, moved⟩ := whole.alike (Scanner.wellLaidOut_of_tokenize scanned) alike
    exact parse_exec_iff.2 ⟨_, last, otherScanned, moved⟩
  · intro early
    cases read : parse (upper ++ (blank ++ lower)) file .exec with
    | error fault => exact ⟨fault, rfl⟩
    | ok found =>
      exfalso
      obtain ⟨body, rfl⟩ := parse_exec_module read
      obtain ⟨tokens, behind, scanned, whole⟩ := parse_exec_iff.1 read
      obtain ⟨made, marks, ending, later, rfl, ended, kinds, ends⟩ :=
        tokenize_blank_early boundary line early scanned
      exact whole.no_bare_end (Scanner.wellLaidOut_of_tokenize scanned) ended kinds ends

/-- A text whose tokens are known to leave no bracket open ends where a logical line may start. -/
theorem EndsLogicalLine.of_flat {upper : String} {file : Option String}
    (ends : EndsLine upper.toList)
    (flat : (tokenize upper file).toOption.map bracketsBehind = some 0) :
    ∃ first, EndsLogicalLine upper file first := by
  cases scanned : tokenize upper file with
  | error fault =>
    rw [scanned] at flat
    contradiction
  | ok first =>
    rw [scanned] at flat
    exact ⟨first, ends, scanned, Option.some.inj flat⟩

/-- A result that is found to be a success has a value. -/
private theorem exists_of_toBool {Fault Value : Type} {result : Except Fault Value}
    (succeeds : result.toBool = true) : ∃ value, result = .ok value := by
  cases result with
  | error fault => contradiction
  | ok value => exact ⟨value, rfl⟩

/-- A blank line inside a block, and a line with a blank behind its form feed between statements. -/
theorem blank_line_of_block :
    (∃ first root, EndsLogicalLine "if a:\n    b\n" none first ∧
      BlankLine " \t\x0c\r\n" [' ', '\t', '\x0c'] "    def f():\n        c\n" ∧
      parse ("if a:\n    b\n" ++ "    def f():\n        c\n") none .exec = .ok root ∧
      parse ("if a:\n    b\n" ++ " \t\x0c\r\n" ++ "    def f():\n        c\n") none .exec =
        .ok (root.moveLines (lowerBelow 2))) ∧
    ∃ first root fault, EndsLogicalLine "x\n" none first ∧
      BlankLine "\x0c \n" ['\x0c', ' '] "y\n" ∧ parse ("x\n" ++ "y\n") none .exec = .ok root ∧
      parse ("x\n" ++ "\x0c \n" ++ "y\n") none .exec = .error fault := by
  have lines : (physicalLines "if a:\n    b\n").length = 2 := by decide
  obtain ⟨root, parsed⟩ := exists_of_toBool
    (show (parse ("if a:\n    b\n" ++ "    def f():\n        c\n") none .exec).toBool = true by
      decide +kernel)
  obtain ⟨plain, accepted⟩ := exists_of_toBool
    (show (parse ("x\n" ++ "y\n") none .exec).toBool = true by decide +kernel)
  obtain ⟨first, boundary⟩ := @EndsLogicalLine.of_flat "if a:\n    b\n" none
    (.inr (by decide)) (by decide +kernel)
  obtain ⟨other, edge⟩ := @EndsLogicalLine.of_flat "x\n" none (.inr (by decide)) (by decide +kernel)
  have blank : BlankLine " \t\x0c\r\n" [' ', '\t', '\x0c'] "    def f():\n        c\n" :=
    ⟨by simp, by decide, .inr (.inl rfl)⟩
  have early : BlankLine "\x0c \n" ['\x0c', ' '] "y\n" := ⟨by simp, by decide, .inl rfl⟩
  constructor
  · have moved := ((blank_line boundary blank parsed).1 (by decide)).1
    rw [lines] at moved
    exact ⟨first, root, boundary, blank, parsed, moved⟩
  · obtain ⟨fault, refused⟩ := (blank_line edge early accepted).2 (by decide)
    exact ⟨other, plain, fault, edge, early, accepted, refused⟩

end Offside
