import Offside.Proofs.Layout.Splices

/-!
# A text in parentheses

A text is scanned inside parentheses as it is scanned alone, one bracket deeper, if its brackets
match and it has one logical line (`Span.enclosed`). What is in front of its first token and behind
its last one becomes a filler. The closing parenthesis may not stand in a comment, so the last line
has none unless it ends in a line feed.
-/
namespace Offside

open Text Lexeme

namespace Spot

variable {bare : Bool} {before between behind : Spot} {found tokens : List Token} {depth : Nat}

/-- The number of the last line. -/
def lastNumber : Spot → Nat
  | .line below number .. => below.getLast?.elim number Line.number
  | .inside cursor .. => (cursor.below.getLast?.getD cursor.line).number

/-- A step stays in the same lines. -/
theorem Step.lastNumber (step : Step before found behind) (sound : before.Sound bare) :
    behind.lastNumber = before.lastNumber := by
  have first (line : Line) (below : List Line) (number : Nat) :
      (line :: below).getLast?.elim number Line.number = (below.getLast?.getD line).number := by
    rw [List.getLast?_cons]
    rfl
  have last (line : Line) (below : List Line) :
      below.getLast?.elim line.number Line.number = (below.getLast?.getD line).number := by
    cases below.getLast? <;> rfl
  cases step with
  | idle | enter => simp only [Spot.lastNumber, Scanner.behindIndent, first, last]
  | last => exact last _ _
  | @token cursor next _ _ _ _ step | @skip cursor next _ _ step =>
    obtain ⟨-, upper, within⟩ := Cursor.step_inside
      (fun line member => (sound.2.whole line member).1) sound.1 (by rw [step]; rfl)
    have same := congrArg List.getLast? within
    rw [Cursor.lines, Cursor.lines, List.getLast?_append, List.getLast?_cons, List.getLast?_cons,
      Option.some_or] at same
    exact congrArg Line.number (Option.some.inj same)

/-- So does a way. -/
theorem Comes.lastNumber (way : Comes before tokens behind) (sound : before.Sound bare) :
    behind.lastNumber = before.lastNumber := by
  induction way with
  | stop => rfl
  | step step _ ih => rw [ih (step.sound sound), step.lastNumber sound]

/-- The last line of a text has the number of its lines. -/
theorem start_lastNumber (source : String) :
    (start source).lastNumber = (physicalLines source).length := by
  have counted (count : Nat) (bare : Bool) (raws : List String) (some_ : ∀ raw ∈ raws, raw ≠ "") :
      (Line.follow count bare raws).getLast?.elim count Line.number = count + raws.length := by
    induction raws generalizing count bare with
    | nil => rfl
    | cons raw later ih =>
      obtain ⟨here, below⟩ := List.forall_mem_cons.1 some_
      have rest := ih (count + 1) (bare || !(normalizeLine raw.toList).2) below
      rw [Line.follow, if_neg here, List.getLast?_cons]
      rw [List.length_cons, Nat.add_comm later.length, ← Nat.add_assoc, ← rest]
      cases (Line.follow (count + 1) _ later).getLast? <;> rfl
  have whole := counted 0 false (physicalLines source) (physicalLines_filled source)
  rwa [Nat.zero_add] at whole

/-- A line without statements and without a comment is a filler and a line feed. -/
theorem idle_filler {line : Line} {below : List Line} {found : List Token}
    (idles : Scanner.idleTokens? (Scanner.behindIndent line below) = some found)
    (uncommented : ∀ token ∈ found, token.kind = .comment → token.line ≠ line.number) :
    ∃ gap, Filler depth gap ∧ line.text.toList = gap ++ ['\n'] := by
  obtain ⟨indent, blank, whole⟩ := Scanner.line_indent line below
  cases Scanner.idles_of_idleTokens? idles with
  | blank front =>
    rcases front with front | front
    · refine ⟨indent, ?_, by rw [whole, front]⟩
      have filler : Filler depth (indent ++ []) := .behind_blanks blank .nil
      rwa [List.append_nil] at filler
    · refine ⟨indent ++ ['\x0c'], .behind_blanks blank (.blank (by decide) .nil), ?_⟩
      rw [whole, front, List.append_assoc]
      rfl
  | comment => exact absurd rfl (uncommented _ List.mem_cons_self rfl)

/-- Up to the last line feed of a text a scan goes over a filler, if it finds no tokens but comments
and ends of lines and no comment in the last line. -/
theorem Comes.filler_bare {number open_ : Nat} {indents : List Nat}
    (way : Comes before tokens (.line [] number indents open_)) (sound : before.Sound bare)
    (quiet : ∀ token ∈ tokens, Quiet depth token) (stays : before.Stays depth)
    (uncommented : ∀ token ∈ tokens, token.kind = .comment → token.line ≠ number) :
    before.text = [] ∨ ∃ gap, Filler depth gap ∧ before.text = gap ++ ['\n'] := by
  generalize ends : Spot.line [] number indents open_ = bottom at way
  induction way with
  | stop =>
    subst ends
    exact .inl rfl
  | @step before between behind found tokens step later ih =>
    subst ends
    obtain ⟨here, below⟩ := List.forall_mem_append.1 quiet
    obtain ⟨first, others⟩ := List.forall_mem_append.1 uncommented
    have further := step.sound sound
    have last := later.lastNumber further
    rcases ih further below (step.stays sound here stays) others rfl with ended | ⟨gap, filler, rest⟩
    · refine .inr ?_
      cases step with
      | @idle line below above open_ indents found idles =>
        obtain rfl := SoundLines.eq_nil further ended
        have text : (Spot.line [line] above indents open_).text = line.text.toList := by
          show linesText [line] = _
          rw [linesText_cons]
          exact List.append_nil _
        obtain rfl : number = line.number := last
        rw [text]
        exact idle_filler idles first
      | @last cursor _ _ _ step =>
        obtain ⟨after, front, -⟩ := Cursor.step_last step sound.1.nonempty
        have whole : cursor.text = '\n' :: (after ++ linesText cursor.below) := by
          rw [Cursor.text, front]
          rfl
        obtain ⟨only, -⟩ := Sound.rest_of_feed sound whole
        have ended : linesText cursor.below = [] := ended
        refine ⟨[], .nil, ?_⟩
        show cursor.text = _
        rw [Cursor.text, only, ended]
        rfl
      | enter | token | skip =>
        obtain ⟨body, rest, -⟩ := Sound.body further
        rw [Spot.text, Cursor.text, rest] at ended
        simp at ended
    · right
      refine step.filler sound here stays filler rest ?_
      rintro cursor indents open_ rfl rfl - token member kind
      obtain ⟨-, bottom⟩ := Sound.rest_of_feed further rest
      have none_ := further.2.2.eq_nil bottom
      have number : number = cursor.line.number := by
        simpa [Spot.lastNumber, none_] using last
      refine first token member kind ?_
      cases step with
      | enter _ tracked =>
        rcases track_isMark tracked token member with mark | mark <;> simp [mark] at kind
      | skip => exact absurd member List.not_mem_nil
      | token step =>
        obtain rfl := List.mem_singleton.1 member
        obtain ⟨-, line, tail, -, rfl⟩ := Cursor.step_of_comment step kind
        exact line.trans number.symm

/-- The brackets that an operator counts where more of them are open. -/
theorem bracketDepth_of_fits {text : String} {depth after : Nat}
    (fits : bracketsBehind? text depth = some after) (more : Nat) :
    bracketDepth (depth + more) text.toList = after + more := by
  rw [bracketsBehind?] at fits
  split at fits
  · rename_i opens
    obtain rfl := Option.some.inj fits
    have listed : text = "(" ∨ text = "[" ∨ text = "\x7b" := by simpa using opens
    rcases listed with rfl | rfl | rfl <;> exact Nat.add_right_comm depth more 1
  · rename_i opens
    split at fits
    · rename_i closes
      split at fits
      · contradiction
      · rename_i positive
        obtain rfl := Option.some.inj fits
        have less : depth + more - 1 = depth - 1 + more := by omega
        have listed : text = ")" ∨ text = "]" ∨ text = "\x7d" := by simpa using closes
        rcases listed with rfl | rfl | rfl <;> exact less
    · rename_i closes
      obtain rfl := Option.some.inj fits
      have other (bracket : String) (member : bracket ∈ ["(", "[", "\x7b"] ++ [")", "]", "\x7d"]) :
          text.toList ≠ bracket.toList := by
        intro same
        obtain rfl := String.toList_inj.1 same
        rcases List.mem_append.1 member with open_ | close
        · exact opens (List.contains_iff_mem.2 open_)
        · exact closes (List.contains_iff_mem.2 close)
      rw [bracketDepth]
      exacts [other "(" (by decide), other "[" (by decide), other "\x7b" (by decide),
        other ")" (by decide), other "]" (by decide), other "\x7d" (by decide)]

/-- Tokens with brackets that match count them in the same way where more brackets are open. -/
theorem Level.of_brackets {depth after : Nat} {tokens : List Token} (more : Nat)
    (fits : (tokens.filter Token.isSignificant).foldlM Token.bracketsBehind? depth = some after)
    (unended : ∀ token ∈ tokens, token.kind ≠ .newline) :
    Level more depth tokens ∧ tokens.foldl Token.depthBehind depth = after := by
  induction tokens generalizing depth with
  | nil => exact ⟨trivial, Option.some.inj fits⟩
  | cons token later ih =>
    obtain ⟨here, below⟩ := List.forall_mem_cons.1 unended
    have counts {next : Nat} (step : token.bracketsBehind? depth = some next) :
        token.depthBehind depth = next ∧ token.depthBehind (depth + more) = next + more := by
      rw [Token.bracketsBehind?] at step
      rw [Token.depthBehind, Token.depthBehind]
      split at step
      · rename_i operator
        rw [if_pos operator, if_pos operator]
        exact ⟨bracketDepth_of_fits step 0, bracketDepth_of_fits step more⟩
      · rename_i operator
        obtain rfl := Option.some.inj step
        rw [if_neg operator, if_neg operator]
        exact ⟨rfl, rfl⟩
    have step : ∃ next, token.bracketsBehind? depth = some next ∧
        (later.filter Token.isSignificant).foldlM Token.bracketsBehind? next = some after := by
      rw [List.filter_cons] at fits
      split at fits
      · rw [List.foldlM_cons] at fits
        exact Option.bind_eq_some_iff.1 fits
      · rename_i plain
        refine ⟨depth, ?_, fits⟩
        rw [Token.bracketsBehind?, if_neg]
        intro operator
        rw [Token.isSignificant, operator] at plain
        exact plain rfl
    obtain ⟨next, step, rest⟩ := step
    obtain ⟨behind, deeper⟩ := counts step
    obtain ⟨level, counted⟩ := ih rest below
    rw [Level, List.foldl_cons, behind]
    exact ⟨⟨⟨deeper, .inr here⟩, level⟩, counted⟩

end Spot

/-- The places of a text with one logical line that is not indented, in front of and behind the
lexemes that the line holds. -/
structure Span (source : String) (words : List Token) where
  /-- The tokens in front of the line. -/
  upper : List Token
  /-- The tokens of the line in front of its last lexeme. -/
  front : List Token
  /-- The last lexeme. -/
  word : Token
  /-- The tokens behind it. -/
  lower : List Token
  /-- The place in front of the first lexeme. -/
  first : Cursor
  /-- The place in front of the last one. -/
  last : Cursor
  /-- The place behind it. -/
  next : Cursor
  /-- The number of open brackets in front of the last lexeme. -/
  depth : Nat
  /-- The number of the last line. -/
  number : Nat
  /-- The scan comes to the first lexeme. -/
  reaches : (Spot.start source).Comes upper (.inside first [] 0)
  /-- It comes to the last one. -/
  holds : Spot.Comes (.inside first [] 0) front (.inside last [] depth)
  /-- It finds this. -/
  ends : last.step depth = .token word next 0
  /-- It comes to the end of the text. -/
  passes : Spot.Comes (.inside next [] 0) lower (.line [] number [] 0)
  /-- The first lexeme starts as a logical line does. -/
  starts : first.rest.head?.any startsLogical = true
  /-- Comments and ends of lines are all that is in front of the line. -/
  quiet : ∀ token ∈ upper, Spot.Quiet 1 token
  /-- So it is behind the line. -/
  lowerQuiet : ∀ token ∈ lower, Spot.Quiet 1 token
  /-- The brackets of the line match in front of the last lexeme. -/
  level : Spot.Level 1 0 front
  /-- They do so behind it. -/
  wordLevel : word.depthBehind (depth + 1) = 1
  /-- The lexemes of the line are its significant tokens. -/
  words : (front ++ [word]).filter Token.isSignificant = words
  /-- The last lexeme is no comment. -/
  wordKind : word.kind ≠ .comment

/-- A token that the grammar does not look at is quiet. -/
theorem Spot.quiet_of_not_significant {token : Token} (depth : Nat)
    (plain : token.isSignificant = false) : Spot.Quiet depth token :=
  (Token.not_isSignificant_iff.1 plain).imp_right .inl

/-- What holds of the tokens of a list that the grammar looks at and of all tokens that it does not
look at holds of the whole list. -/
theorem forall_of_significant {tokens found : List Token} {holds : Token → Prop}
    (filtered : tokens.filter Token.isSignificant = found)
    (plain : ∀ token, token.isSignificant = false → holds token)
    (looked : ∀ token ∈ found, holds token) : ∀ token ∈ tokens, holds token := by
  intro token member
  cases significant : token.isSignificant with
  | false => exact plain token significant
  | true => exact looked token (filtered ▸ List.mem_filter.2 ⟨member, significant⟩)

/-- Quiet tokens open and close no block, and they count no bracket. -/
theorem Spot.Quiet.unmarked {depth : Nat} {token : Token} (quiet : Spot.Quiet depth token) :
    (token.kind ≠ .indent ∧ token.kind ≠ .dedent) ∧ token.kind ≠ .operator := by
  rcases quiet with kind | kind | ⟨kind, -⟩ <;> simp [kind]

/-- The tokens of a text up to its end, and the marks at its end, if lexemes of statements and
ends of lines are all that is significant. -/
theorem exists_made {source : String} {file : Option String} {tokens words tail : List Token}
    (scanned : tokenize source file = .ok tokens)
    (split : tokens.filter Token.isSignificant = words ++ tail)
    (lexemes : ∀ token ∈ words, token.kind.isAside = false)
    (ended : ∀ token ∈ tail, token.kind = .newline ∨ token.kind = .endMarker) :
    ∃ made ends number depth, (Spot.start source).Comes made (.line [] number [] depth) ∧
      tokens = made ++ [.endMarker number] ∧ made.filter Token.isSignificant = words ++ ends ∧
      tail = ends ++ [.endMarker number] ∧ ∀ token ∈ ends, token.kind = .newline := by
  have wellLaidOut := Scanner.wellLaidOut_of_tokenize scanned
  obtain ⟨made, number, indents, depth, way, rfl⟩ := tokenize_iff_comes.1 scanned
  have unmarked : ∀ token ∈ made ++ Spot.closing indents number,
      token.kind ≠ .indent ∧ token.kind ≠ .dedent := by
    refine forall_of_significant split
      (fun token plain => (Spot.quiet_of_not_significant 0 plain).unmarked.1) fun token looked => ?_
    rcases List.mem_append.1 looked with word | last
    · exact (Kind.of_isAside (lexemes token word)).1
    · rcases ended token last with kind | kind <;> simp [kind]
  obtain rfl : indents = [] := way.indents fun token member =>
    unmarked token (List.mem_append_left _ member)
  have whole : made.filter Token.isSignificant ++ [.endMarker number] = words ++ tail := by
    rw [← split, List.filter_append]
    rfl
  rcases List.eq_nil_or_concat' tail with rfl | ⟨ends, last, rfl⟩
  · rw [List.append_nil] at whole
    have lexeme := lexemes (.endMarker number) (by rw [← whole]; simp)
    contradiction
  · rw [← List.append_assoc] at whole
    obtain ⟨significant, same⟩ := List.append_inj' whole rfl
    refine ⟨made, ends, number, depth, way, rfl, significant, by rw [same],
      fun token member => ?_⟩
    refine (ended token (List.mem_append_left _ member)).resolve_right fun kind => ?_
    obtain ⟨front, mark, parts, -, other⟩ := wellLaidOut.ended
    obtain ⟨rfl, -⟩ := List.append_inj' (show made ++ [.endMarker number] = front ++ [mark] from parts)
      rfl
    have within : token ∈ made.filter Token.isSignificant := by
      rw [significant]
      exact List.mem_append_right _ member
    exact other token (List.mem_filter.1 within).1 kind

/-- A list is divided in front of an element that is looked at. -/
theorem exists_of_filter_eq {α : Type} {looked : α → Bool} {all front back : List α} {x : α}
    (filtered : all.filter looked = front ++ x :: back) :
    ∃ upper lower, all = upper ++ x :: lower ∧ upper.filter looked = front ∧
      lower.filter looked = back := by
  obtain ⟨before, rest, rfl, upper, behind⟩ := List.filter_eq_append_iff.1 filtered
  obtain ⟨gap, lower, rfl, plain, -, later⟩ := List.filter_eq_cons_iff.1 behind
  refine ⟨before ++ gap, lower, (List.append_assoc _ _ _).symm, ?_, later⟩
  rw [List.filter_append, upper, List.filter_eq_nil_iff.2 plain, List.append_nil]

/-- Tokens that the grammar does not look at are quiet. -/
theorem Spot.quiet_of_filter {tokens : List Token} (depth : Nat)
    (plain : tokens.filter Token.isSignificant = []) : ∀ token ∈ tokens, Spot.Quiet depth token :=
  forall_of_significant plain (fun _ => quiet_of_not_significant depth) (by simp)

namespace Spot

variable {tokens : List Token} {source : String} {before behind : Spot}

/-- Where nothing but comments and ends of lines is found nothing is opened and closed. -/
theorem Comes.unopened {depth : Nat} (way : Comes before tokens behind)
    (quiet : ∀ token ∈ tokens, Quiet depth token) :
    behind.indents = before.indents ∧ behind.depth = before.depth := by
  refine ⟨way.indents fun token member => (quiet token member).unmarked.1, ?_⟩
  rw [← way.depth, depthBehind_of_plain _ fun token member => (quiet token member).unmarked.2]

/-- The first significant token of a text is found outside brackets and blocks, if it is a lexeme of
a statement. -/
theorem Comes.at_first {word : Token} {later : List Token}
    (way : Comes (start source) tokens behind)
    (significant : tokens.filter Token.isSignificant = word :: later)
    (lexeme : word.kind.isAside = false) :
    ∃ upper rest first, tokens = upper ++ word :: rest ∧
      Comes (start source) upper (.inside first [] 0) ∧
      (∀ token ∈ upper, Quiet 1 token) ∧ first.rest.head?.any startsLogical = true ∧
      Comes (.inside first [] 0) (word :: rest) behind ∧
      rest.filter Token.isSignificant = later := by
  have cut : tokens.filter Token.isSignificant = [] ++ word :: later := significant
  obtain ⟨upper, rest, rfl, plain, others⟩ := exists_of_filter_eq cut
  obtain ⟨first, next, indents, depth, deeper, reaches, opens, onward⟩ := way.at_token lexeme
  obtain ⟨rfl, rfl⟩ : indents = [] ∧ depth = 0 := reaches.unopened (quiet_of_filter 1 plain)
  exact ⟨upper, rest, first, rfl, reaches, quiet_of_filter 1 plain,
    Cursor.step_starts opens (Kind.of_isAside lexeme).2.2, .step (.token opens) onward, others⟩

/-- A scan leaves a logical line outside brackets over a significant token only. -/
theorem Comes.leaves {cursor : Cursor} {below : List Line} {indents : List Nat} {number : Nat}
    {bare : Bool} (way : Comes (.inside cursor [] 0) tokens (.line below number indents 0))
    (sound : (Spot.inside cursor [] 0).Sound bare) : tokens.filter Token.isSignificant ≠ [] := by
  intro plain
  have within : 0 < 0 := way.within sound (fun token member kind => by
    rcases quiet_of_filter 0 plain token member with other | other | ⟨-, deep⟩
    · rw [other] at kind
      contradiction
    · rw [other] at kind
      contradiction
    · exact Nat.lt_irrefl 0 deep) trivial
  exact Nat.lt_irrefl 0 within

end Spot

/-- A text whose significant tokens are lexemes of statements with brackets that match, and ends of
lines behind them, has one logical line that is not indented. -/
theorem exists_span {source : String} {file : Option String} {tokens words tail : List Token}
    (scanned : tokenize source file = .ok tokens)
    (split : tokens.filter Token.isSignificant = words ++ tail) (some_ : words ≠ [])
    (lexemes : ∀ token ∈ words, token.kind.isAside = false)
    (ended : ∀ token ∈ tail, token.kind = .newline ∨ token.kind = .endMarker)
    (fits : words.foldlM Token.bracketsBehind? 0 = some 0) :
    ∃ span : Span source words, (∀ token ∈ span.lower, token ∈ tokens) ∧
      ∃ lineEnd ends mark, tail = lineEnd :: ends ++ [mark] ∧ lineEnd.kind = .newline ∧
        (∀ token ∈ ends, token.kind = .newline) ∧ mark.kind = .endMarker := by
  obtain ⟨made, ends, number, bottom, way, rfl, significant, rfl, newlines⟩ :=
    exists_made scanned split lexemes ended
  obtain ⟨word, others, rfl⟩ := List.exists_cons_of_ne_nil some_
  obtain ⟨upper, rest, first, rfl, reaches, quiet, starts, whole, later⟩ :=
    way.at_first significant (lexemes word List.mem_cons_self)
  obtain ⟨init, last, parts⟩ := (List.eq_nil_or_concat' (word :: others)).resolve_left some_
  have filtered : (word :: rest).filter Token.isSignificant = init ++ (last :: ends) := by
    have later : rest.filter Token.isSignificant = others ++ ends := later
    rw [List.filter_cons_of_pos (Token.isSignificant_of_lexeme (lexemes word List.mem_cons_self)),
      later, ← List.cons_append, parts, List.append_assoc]
    rfl
  rw [parts] at lexemes fits ⊢
  obtain ⟨front, lower, cut, frontWords, lowerWords⟩ := exists_of_filter_eq filtered
  rw [cut] at whole
  have lexeme := lexemes last (by simp)
  obtain ⟨place, behind, indents, depth, deeper, holds, found, passes⟩ := whole.at_token lexeme
  -- Up to the last lexeme the brackets are those that the lexemes open and close.
  have aside : ∀ token ∈ init, token.kind.isAside = false := fun token member =>
    lexemes token (List.mem_append_left _ member)
  have unended : ∀ token ∈ front, token.kind ≠ .newline :=
    forall_of_significant frontWords
      (fun token plain kind => by simp [Token.isSignificant, kind] at plain)
      fun token member => (Kind.of_isAside (aside token member)).2.1
  rw [List.foldlM_append] at fits
  obtain ⟨open_, frontFits, lastFits⟩ := Option.bind_eq_some_iff.1 fits
  obtain ⟨level, counted⟩ := Spot.Level.of_brackets 1 (frontWords ▸ frontFits) unended
  obtain rfl : open_ = depth := counted.symm.trans holds.depth
  have lastWord : [last].filter Token.isSignificant = [last] :=
    List.filter_cons_of_pos (Token.isSignificant_of_lexeme lexeme)
  obtain ⟨⟨⟨lastLevel, -⟩, -⟩, lastCounted⟩ := Spot.Level.of_brackets 1 (lastWord.symm ▸ lastFits)
    fun token member => List.mem_singleton.1 member ▸ (Kind.of_isAside lexeme).2.1
  have lastCounted : last.depthBehind open_ = 0 := lastCounted
  obtain rfl : 0 = deeper := lastCounted.symm.trans (Cursor.step_token found).2.2
  obtain rfl : indents = [] := holds.indents <| forall_of_significant frontWords
    (fun token plain => (Spot.quiet_of_not_significant 1 plain).unmarked.1)
    fun token member => (Kind.of_isAside (aside token member)).1
  have lowerQuiet : ∀ token ∈ lower, Spot.Quiet 1 token :=
    forall_of_significant lowerWords (fun _ => Spot.quiet_of_not_significant 1)
      fun token member => .inr (.inr ⟨newlines token member, Nat.one_pos⟩)
  obtain ⟨-, rfl⟩ : _ ∧ bottom = 0 := passes.unopened lowerQuiet
  let span : Span source (init ++ [last]) :=
    { upper, front, word := last, lower, first, last := place, next := behind, depth := open_, number
      reaches, holds, ends := found, passes, starts, quiet, lowerQuiet, level
      wordLevel := by rw [lastLevel, lastCounted]
      words := by rw [List.filter_append, frontWords, lastWord]
      wordKind := (Kind.of_isAside lexeme).2.2 }
  refine ⟨span, fun token member => ?_, ?_⟩
  · have within : token ∈ word :: rest := by
      rw [cut]
      exact List.mem_append_right _ (List.mem_cons_of_mem _ member)
    exact List.mem_append_left _ (List.mem_append_right _ within)
  · cases ends with
    | cons lineEnd ends =>
      obtain ⟨here, others⟩ := List.forall_mem_cons.1 newlines
      exact ⟨lineEnd, ends, .endMarker number, rfl, here, others, rfl⟩
    | nil =>
      have sound := (holds.trans (Spot.Step.token found).comes).sound
        (reaches.sound (Spot.start_sound source))
      exact absurd lowerWords (passes.leaves sound)

/-- A backslash that is a token of its own does not stand in front of the end of a line. -/
theorem Cursor.step_apart {cursor next : Cursor} {indents : List Nat} {depth deeper : Nat}
    {found : Token} {bare : Bool} (step : cursor.step depth = .token found next deeper)
    (sound : (Spot.inside cursor indents depth).Sound bare) (slash : found.value = "\\") :
    next.text.head? ≠ some '\n' := by
  intro feed
  obtain ⟨rest, text⟩ := List.head?_eq_some_iff.1 feed
  have takes := cursor.step_takes depth (fun line member => (sound.2.whole line member).1)
    (fun line member => (sound.2.whole line member).2) sound.1
  rw [step] at takes
  have takes : cursor.text = found.written ++ next.text := takes
  rw [Cursor.step_written step, slash, text] at takes
  have whole : cursor.text = ['\\'] ++ '\n' :: rest := takes
  obtain ⟨left, -⟩ := sound.rest_of_line whole (by decide)
  obtain ⟨line, own, below⟩ := cursor
  subst left
  cases below with
  | nil => contradiction
  | cons => contradiction

section parentheses

open Spot

variable {source : String} {rest : List Char} {bare : Bool}

/-- The scan of a text that starts with a parenthesis finds it and goes on behind it. -/
theorem Spot.opens_parenthesis (text : (start source).text = '(' :: rest) :
    ∃ opening cursor, Comes (start source) [opening] (.inside cursor [] 1) ∧ cursor.text = rest ∧
      opening.kind = .operator ∧ opening.value = "(" := by
  have sound : SoundLines (endsBare source.toList) (Line.read (physicalLines source)) :=
    start_sound source
  rw [start] at text ⊢
  cases lines : Line.read (physicalLines source) with
  | nil =>
    rw [lines] at text
    contradiction
  | cons line below =>
    rw [lines] at text sound
    obtain ⟨body, own, unbroken⟩ := sound.body
    have text : linesText (line :: below) = '(' :: rest := text
    rw [linesText_cons, own] at text
    cases body with
    | nil => exact absurd (List.cons.inj text).1 (by decide)
    | cons c body =>
      obtain ⟨rfl, rfl⟩ : c = '(' ∧ body ++ ['\n'] ++ linesText below = rest := List.cons.inj text
      have own : line.text.toList = [] ++ ('(' :: (body ++ ['\n'])) := own
      obtain ⟨place, width⟩ := Scanner.behindIndent_eq below own
        (fun _ member => absurd member List.not_mem_nil) fun c first => by
          obtain rfl := Option.some.inj first
          rfl
      have logical : Scanner.idleTokens? (Scanner.behindIndent line below) = none := by
        rw [place]
        exact Scanner.idleTokens?_eq_none below line rfl
      have tracked : track [] 0 line below = .ok ([], []) := by
        rw [track, if_pos rfl, width]
        rfl
      have enter : Spot.Step (.line (line :: below) 0 [] 0) []
          (.inside (Scanner.behindIndent line below) [] 0) := .enter logical tracked
      rw [place] at enter
      have opens : Spot.Step (.inside ⟨line, '(' :: (body ++ ['\n']), below⟩ [] 0) _
          (.inside ⟨line, body ++ ['\n'], below⟩ [] 1) := .token (by rfl)
      exact ⟨_, _, .step enter opens.comes, rfl, rfl, rfl⟩

/-- The scan of a last line that ends in a parenthesis finds it, and the end of the line. -/
theorem Spot.closes_parenthesis {cursor : Cursor}
    (sound : (Spot.inside cursor [] 1).Sound bare) (text : cursor.text = [')', '\n']) :
    ∃ closing lineEnd number, Comes (.inside cursor [] 1) [closing, lineEnd]
      (.line [] number [] 0) ∧ closing.kind = .operator ∧ closing.value = ")" ∧
      lineEnd.kind = .newline := by
  have split : cursor.text = [')'] ++ '\n' :: [] := text
  obtain ⟨left, bottom⟩ := sound.rest_of_line split (by decide)
  have none_ := sound.2.2.eq_nil bottom
  obtain ⟨line, own, below⟩ := cursor
  subst left none_
  have closes : Spot.Step (.inside ⟨line, [')', '\n'], []⟩ [] 1) _
      (.inside ⟨line, ['\n'], []⟩ [] 0) := .token (by rfl)
  have ends : Spot.Step (.inside ⟨line, ['\n'], []⟩ [] 0) _ (.line [] line.number [] 0) :=
    .last Cursor.step_feed
  exact ⟨_, _, _, .step closes ends.comes, rfl, rfl, rfl⟩

end parentheses

namespace Span

variable {source : String} {words : List Token} (span : Span source words)

include span

/-- The places are in lines as they are read. -/
theorem sound : (Spot.inside span.first [] 0).Sound (Spot.endsBare source.toList) ∧
    (Spot.inside span.last [] span.depth).Sound (Spot.endsBare source.toList) ∧
    (Spot.inside span.next [] 0).Sound (Spot.endsBare source.toList) := by
  have first := span.reaches.sound (Spot.start_sound source)
  have last := span.holds.sound first
  exact ⟨first, last, (Spot.Step.token span.ends).sound last⟩

/-- What is in front of the line is a filler. -/
theorem lead : ∃ lead, Filler 1 lead ∧ normalizeText source.toList = lead ++ span.first.text := by
  have ends : span.first.text.head? ≠ some '\n' := by
    have starts := span.starts
    rw [Cursor.text]
    cases front : span.first.rest with
    | nil => simp [front] at starts
    | cons c rest =>
      intro feed
      obtain rfl := Option.some.inj feed
      rw [front] at starts
      contradiction
  have way := span.reaches.filler (Spot.start_sound source) span.quiet (.inl Nat.one_pos) ends
  have whole : (Spot.start source).text = normalizeText source.toList := linesText_physicalLines _
  rwa [whole] at way

/-- The line up to its last lexeme ends in a character that is neither blank nor a line feed. -/
theorem core : ∃ core, span.first.text = core ++ span.next.text ∧
    ∃ c ∈ core.getLast?, c ∉ blanks ∧ c ≠ '\n' := by
  obtain ⟨first, last, -⟩ := span.sound
  obtain ⟨taken, whole⟩ := span.holds.text first
  have takes := span.last.step_takes span.depth (fun line member => (last.2.whole line member).1)
    (fun line member => (last.2.whole line member).2) last.1
  rw [span.ends] at takes
  have takes : span.last.text = span.word.written ++ span.next.text := takes
  obtain ⟨c, ends, apart⟩ := Cursor.step_ends span.ends span.wordKind
  refine ⟨taken ++ span.word.written, ?_, c, ?_, apart⟩
  · rw [List.append_assoc, ← takes]
    exact whole
  · rw [Cursor.step_written span.ends, Option.mem_def, List.getLast?_append, Option.mem_def.1 ends,
      Option.some_or]

/-- What is behind the line is a filler, but for the line feed that the last line may have come
without. -/
theorem trail (uncommented : source.toList.getLast? = some '\n' ∨
      ∀ token ∈ span.lower, token.kind = .comment → token.line ≠ (physicalLines source).length) :
    ∃ trail, Filler 1 trail ∧ ((normalizeText source.toList = unifyBreaks source.toList ∧
      span.next.text = trail) ∨ (normalizeText source.toList = unifyBreaks source.toList ++ ['\n'] ∧
      span.next.text = trail ++ ['\n'])) := by
  obtain ⟨first, last, next⟩ := span.sound
  by_cases ended : source.toList.getLast? = some '\n'
  · obtain ⟨trail, filler, text⟩ := span.passes.filler next span.lowerQuiet (.inl Nat.one_pos)
      (by simp [Spot.text, linesText])
    refine ⟨trail, filler, .inl ⟨?_, ?_⟩⟩
    · rw [normalizeText, if_pos (.inr ended)]
    · have text : span.next.text = trail ++ [] := text
      rwa [List.append_nil] at text
  · have uncommented := uncommented.resolve_left ended
    have number : span.number = (physicalLines source).length := by
      have way := ((span.reaches.trans span.holds).trans (Spot.Step.token span.ends).comes).trans
        span.passes
      rw [← Spot.start_lastNumber]
      exact way.lastNumber (Spot.start_sound source)
    rcases span.passes.filler_bare next span.lowerQuiet (.inl Nat.one_pos) (number ▸ uncommented) with
      none_ | ⟨trail, filler, text⟩
    · obtain ⟨body, rest, -⟩ := Spot.Sound.body next
      rw [Spot.text, Cursor.text, rest] at none_
      simp at none_
    · refine ⟨trail, filler, .inr ⟨?_, text⟩⟩
      rw [normalizeText, if_neg]
      rintro (empty | last)
      · obtain ⟨lead, -, whole⟩ := span.lead
        obtain ⟨core, rest, -⟩ := span.core
        have text : span.next.text = trail ++ ['\n'] := text
        rw [rest, text, empty] at whole
        simp [normalizeText, unifyBreaks] at whole
      · exact ended last

/-- Something is left behind the last lexeme. -/
theorem next_ne : span.next.text ≠ [] := by
  obtain ⟨body, rest, -⟩ := span.sound.2.2.body
  rw [Cursor.text, rest]
  simp

/-- A breaker follows the last lexeme. -/
theorem stops : Stops span.next.text := by
  obtain ⟨trail, filler, text⟩ := span.passes.filler span.sound.2.2 span.lowerQuiet (.inl Nat.one_pos)
    (by simp [Spot.text, linesText])
  have text : span.next.text = trail ++ [] := text
  rw [text]
  refine filler.stops fun none_ => absurd ?_ span.next_ne
  rw [text, none_]
  rfl

/-- The text in parentheses is the line between two fillers, up to the ends of its lines. -/
theorem text (uncommented : source.toList.getLast? = some '\n' ∨
      ∀ token ∈ span.lower, token.kind = .comment → token.line ≠ (physicalLines source).length) :
    ∃ lead core trail, Filler 1 lead ∧ Filler 1 trail ∧ span.first.text = core ++ span.next.text ∧
      (∃ c ∈ core.getLast?, c ∉ blanks ∧ c ≠ '\n') ∧
      (span.next.text = trail ∨ span.next.text = trail ++ ['\n']) ∧
      (Spot.start ("(" ++ source ++ ")")).text =
        '(' :: (lead ++ (core ++ (trail ++ [')', '\n']))) := by
  obtain ⟨lead, leadFiller, leadText⟩ := span.lead
  obtain ⟨core, coreText, solid⟩ := span.core
  obtain ⟨trail, trailFiller, trailText⟩ := span.trail uncommented
  have unified : unifyBreaks source.toList = lead ++ (core ++ trail) := by
    rw [coreText] at leadText
    rcases trailText with ⟨whole, next⟩ | ⟨whole, next⟩
    · rw [← whole, leadText, next]
    · rw [whole, next, ← List.append_assoc, ← List.append_assoc] at leadText
      rw [List.append_cancel_right leadText, List.append_assoc]
  have next : span.next.text = trail ∨ span.next.text = trail ++ ['\n'] :=
    trailText.imp (·.2) (·.2)
  refine ⟨lead, core, trail, leadFiller, trailFiller, coreText, solid, next, ?_⟩
  have whole : (Spot.start ("(" ++ source ++ ")")).text =
      normalizeText (('(' :: source.toList) ++ [')']) := by
    rw [← show ("(" ++ source ++ ")").toList = ('(' :: source.toList) ++ [')'] by simp]
    exact linesText_physicalLines _
  rw [whole, normalizeText_append (by simp) (by simp), unifyBreaks_cons, if_neg (by simp), unified]
  simp [normalizeText, unifyBreaks]

/-- A text that starts with the line starts as a logical line does. -/
theorem begins {core : List Char} (text : span.first.text = core ++ span.next.text)
    (some_ : core ≠ []) (rest : List Char) : (core ++ rest).head?.any startsLogical = true := by
  obtain ⟨c, core, rfl⟩ := List.exists_cons_of_ne_nil some_
  have starts := span.starts
  rw [Cursor.text] at text
  cases front : span.first.rest with
  | nil => simp [front] at starts
  | cons d tail =>
    rw [front] at text starts
    obtain ⟨rfl, -⟩ : d = c ∧ _ := List.cons.inj text
    exact starts

/-- In parentheses the line is scanned up to its last lexeme as it is alone. -/
theorem beside {core trail : List Char} {first : Cursor} {bare : Bool}
    (text : span.first.text = core ++ span.next.text)
    (solid : ∃ c ∈ core.getLast?, c ∉ blanks ∧ c ≠ '\n') (filler : Filler 1 trail)
    (behind : span.next.text = trail ∨ span.next.text = trail ++ ['\n'])
    (sound : (Spot.inside first [] 1).Sound bare)
    (otherText : first.text = core ++ (trail ++ [')', '\n'])) :
    ∃ others found next, Spot.Comes (.inside first [] 1) (others ++ [found]) (.inside next [] 1) ∧
      List.Forall₂ Token.Same (span.front ++ [span.word]) (others ++ [found]) ∧
      next.text = trail ++ [')', '\n'] := by
  obtain ⟨firstSound, lastSound, -⟩ := span.sound
  have otherStops : Stops (trail ++ [')', '\n']) := filler.stops fun _ c first => by
    obtain rfl := Option.some.inj first
    decide
  obtain ⟨seam, divides, beside⟩ := Cursor.Beside.exists_seam firstSound sound text otherText
    span.next_ne (by simp) solid span.stops otherStops
  have size := divides.size
  have shorter : span.next.size < span.last.size := Cursor.step_size (by rw [span.ends]; rfl)
  obtain ⟨others, onward, way, same, place⟩ := span.holds.beside firstSound (.inside beside)
    span.level fun _ => size ▸ shorter
  cases place with
  | @inside _ cursor _ _ before =>
    have passes : (span.last.step span.depth).Passes seam 1 span.depth span.last.below := by
      rw [span.ends]
      refine ⟨?_, fun _ => ⟨Nat.le_of_eq size, fun joined => ?_⟩⟩
      · rw [span.wordLevel, (Cursor.step_token span.ends).2.2]
      · rcases joined with comment | ⟨slash, feed⟩
        · exact absurd comment span.wordKind
        · -- The backslash would stand in front of the end of a line in the text alone as well.
          refine absurd ?_ (Cursor.step_apart span.ends lastSound slash)
          have front := divides.otherText
          rw [feed] at front
          cases trail with
          | nil => exact absurd (List.cons.inj front).1 (by decide)
          | cons c trail =>
            obtain ⟨rfl, -⟩ : '\n' = c ∧ _ := List.cons.inj front
            rcases behind with text | text <;> rw [text] <;> rfl
    have taken := before.step passes
    rw [span.ends] at taken
    generalize step : cursor.step (span.depth + 1) = otherStep at taken
    cases taken with
    | token last behind =>
      have text := behind.at_seam divides.some_ size.symm
      rw [divides.otherText] at text
      exact ⟨others, _, _, way.trans (Spot.Step.token step).comes,
        List.rel_append same (.cons last .nil), text⟩

/-- A text with one logical line has the lexemes of this line in parentheses as well. -/
theorem enclosed (uncommented : source.toList.getLast? = some '\n' ∨
      ∀ token ∈ span.lower, token.kind = .comment → token.line ≠ (physicalLines source).length)
    (file : Option String) :
    ∃ tokens opening found closing lineEnd mark,
      tokenize ("(" ++ source ++ ")") file = .ok tokens ∧
      tokens.filter Token.isSignificant = opening :: (found ++ [closing, lineEnd, mark]) ∧
      List.Forall₂ Token.Same words found ∧ (opening.kind = .operator ∧ opening.value = "(") ∧
      (closing.kind = .operator ∧ closing.value = ")") ∧ lineEnd.kind = .newline ∧
      mark.kind = .endMarker := by
  obtain ⟨lead, core, trail, leadFiller, trailFiller, coreText, solid, nextText, text⟩ :=
    span.text uncommented
  have coreSome : core ≠ [] := by
    rintro rfl
    obtain ⟨c, last, -⟩ := solid
    contradiction
  obtain ⟨opening, start, opens, startText, openingKind, openingValue⟩ :=
    Spot.opens_parenthesis text
  have sound := Spot.start_sound ("(" ++ source ++ ")")
  obtain ⟨upper, first, passed, firstText, upperPlain⟩ :=
    leadFiller.passes (span.begins coreText coreSome _) (opens.sound sound) startText
  have toFirst := opens.trans passed
  obtain ⟨others, found, next, within, same, otherText⟩ :=
    span.beside coreText solid trailFiller nextText (toFirst.sound sound) firstText
  have toNext := toFirst.trans within
  obtain ⟨lower, last, left, lastText, lowerPlain⟩ :=
    trailFiller.passes (show [')', '\n'].head?.any startsLogical = true from rfl)
      (toNext.sound sound) otherText
  have toLast := toNext.trans left
  obtain ⟨closing, lineEnd, number, ends, closingKind, closingValue, lineEndKind⟩ :=
    Spot.closes_parenthesis (toLast.sound sound) lastText
  refine ⟨_, opening, (others ++ [found]).filter Token.isSignificant, closing, lineEnd,
    .endMarker number, tokenize_iff_comes.2 ⟨_, number, [], 0, toLast.trans ends, rfl⟩, ?_, ?_,
    ⟨openingKind, openingValue⟩, ⟨closingKind, closingValue⟩, lineEndKind, rfl⟩
  · have none_ {tokens : List Token} (plain : ∀ token ∈ tokens, token.isSignificant = false) :
        tokens.filter Token.isSignificant = [] :=
      List.filter_eq_nil_iff.2 fun token member => by simp [plain token member]
    have looked {token : Token} (kind : token.kind = .operator ∨ token.kind = .newline) :
        token.isSignificant = true := by
      rw [Token.isSignificant]
      rcases kind with kind | kind <;> rw [kind] <;> rfl
    simp only [List.filter_append, List.filter_cons, none_ upperPlain, none_ lowerPlain,
      looked (.inl openingKind), looked (.inl closingKind), looked (.inr lineEndKind)]
    simp [Spot.closing, Scanner.dedents, Token.isSignificant, Token.endMarker]
  · rw [← span.words]
    exact Token.Same.filter same

end Span

end Offside
