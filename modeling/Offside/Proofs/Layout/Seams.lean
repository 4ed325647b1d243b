import Offside.Proofs.Layout.Breakers
import Offside.Proofs.Layout.Spots

/-!
# Texts that differ behind a seam

Two texts are the same up to a seam, and a breaker follows it in both of them. In front of the seam
the scans of both texts take the same steps (`Cursor.Beside.step`, `Spot.Step.beside`), so what is
found on the way to a place before the seam is found in the other text as well
(`Spot.Comes.beside`). The second text may stand in more brackets than the first one. Without a seam
the texts are the same to their ends, and only the numbers of their lines differ.
-/
namespace Offside

open Text Lexeme

/-- A token with the same text. -/
structure Token.Same (token found : Token) : Prop where
  /-- The kinds agree. -/
  kind : found.kind = token.kind
  /-- The texts agree. -/
  value : found.value = token.value

/-- Tokens with the same texts are looked at in the same places. -/
theorem Token.Same.filter {tokens others : List Token} (same : List.Forall₂ Token.Same tokens others) :
    List.Forall₂ Token.Same (tokens.filter Token.isSignificant)
      (others.filter Token.isSignificant) := by
  induction same with
  | nil => exact .nil
  | @cons token other tokens others here later ih =>
    have looked : other.isSignificant = token.isSignificant := by
      rw [Token.isSignificant, Token.isSignificant, here.kind]
    rw [List.filter_cons, List.filter_cons, looked]
    split
    · exact .cons here ih
    · exact ih

/-- Where two texts go on differently: what is left of the line and which lines are below, in the
first text and in the second one. -/
structure Seam where
  /-- What is left of the line in the first text. -/
  near : List Char
  /-- The lines below in the first text. -/
  nearBelow : List Line
  /-- What is left of the line in the second text. -/
  far : List Char
  /-- The lines below in the second text. -/
  farBelow : List Line
  /-- A breaker follows in the first text. -/
  stops : Stops near
  /-- So it does in the second text. -/
  otherStops : Stops far
  /-- Something is left in both texts or in none. -/
  paired : near = [] ↔ far = []

namespace Seam

/-- No seam: the texts are the same to their ends. -/
def none : Seam :=
  ⟨[], [], [], [], fun _ member => by contradiction, fun _ member => by contradiction, Iff.rfl⟩

/-- The number of characters behind the seam in the first text. -/
def size (seam : Seam) : Nat :=
  seam.near.length + linesSize seam.nearBelow

end Seam

/-- Lines that are the same up to a seam. The part of a line before the seam holds more than
blanks. -/
inductive LinesBeside (seam : Seam) : List Line → List Line → Prop where
  /-- Both texts have ended. -/
  | nil (none_ : seam.near = []) : LinesBeside seam [] []
  /-- The line in which the seam is. -/
  | seam {line other : Line} {front : List Char} (some_ : seam.near ≠ [])
      (text : line.text.toList = front ++ seam.near)
      (otherText : other.text.toList = front ++ seam.far) (solid : ∃ c ∈ front, c ∉ blanks) :
      LinesBeside seam (line :: seam.nearBelow) (other :: seam.farBelow)
  /-- A line before the seam. -/
  | cons {line other : Line} {below otherBelow : List Line} (text : other.text = line.text)
      (bare : other.bare = line.bare) (later : LinesBeside seam below otherBelow) :
      LinesBeside seam (line :: below) (other :: otherBelow)

/-- Places before which two texts may differ in the numbers and the starts of their lines, and behind
which they are the same up to a seam. -/
inductive Cursor.Beside (seam : Seam) : Cursor → Cursor → Prop where
  /-- In the line in which the seam is. -/
  | here {line other : Line} {front : List Char} (some_ : seam.near ≠ []) :
      Beside seam ⟨line, front ++ seam.near, seam.nearBelow⟩ ⟨other, front ++ seam.far, seam.farBelow⟩
  /-- In a line before the seam. -/
  | same {line other : Line} {rest : List Char} {below otherBelow : List Line}
      (bare : other.bare = line.bare) (lines : LinesBeside seam below otherBelow) :
      Beside seam ⟨line, rest, below⟩ ⟨other, rest, otherBelow⟩

variable {seam : Seam}

/-- The starts of lines that are the same up to a seam. -/
theorem LinesBeside.start {line other : Line} {below otherBelow : List Line}
    (lines : LinesBeside seam (line :: below) (other :: otherBelow)) :
    (Cursor.start line below).Beside seam (.start other otherBelow) := by
  rw [Cursor.start, Cursor.start]
  cases lines with
  | seam some_ text otherText =>
    rw [text, otherText]
    exact .here some_
  | cons text bare later =>
    rw [text]
    exact .same bare later

/-- A text that is taken of another one, behind which at least a given end is left, is taken before
that end. -/
theorem exists_left {taken rest front behind : List Char} (whole : taken ++ rest = front ++ behind)
    (enough : behind.length ≤ rest.length) :
    ∃ left, front = taken ++ left ∧ rest = left ++ behind := by
  rcases List.append_eq_append_iff.1 whole with ⟨left, same, more⟩ | ⟨left, same, more⟩
  · exact ⟨left, same, more⟩
  · have short := congrArg List.length more
    rw [List.length_append] at short
    obtain rfl := List.eq_nil_of_length_eq_zero (show left.length = 0 by omega)
    exact ⟨[], by simpa using same.symm, more.symm⟩

section literals

/-- A string literal that ends before the seam ends there in the other text as well. -/
theorem ClosesString.beside {part : List Char → StringPart}
    (splits : ∀ text taken rest, part text = .closed taken rest → taken ++ rest = text)
    (behind : ∀ text taken rest, part text = .closed taken rest → ∀ other,
      part (taken ++ other) = .closed taken other)
    {below otherBelow : List Line} {line otherLine : Line} {text otherText taken : List Char}
    {place : Cursor} (closes : ClosesString part below line text taken place)
    (beside : Cursor.Beside seam ⟨line, text, below⟩ ⟨otherLine, otherText, otherBelow⟩)
    (ahead : seam.near ≠ [] → seam.size ≤ place.size) :
    ∃ onward, ClosesString part otherBelow otherLine otherText taken onward ∧
      place.Beside seam onward := by
  induction closes generalizing otherLine otherText otherBelow with
  | @here below line text taken rest found =>
    cases beside with
    | @here _ _ front some_ =>
      have enough : seam.near.length ≤ rest.length := Nat.le_of_add_le_add_right (ahead some_)
      obtain ⟨left, rfl, rfl⟩ := exists_left (splits _ _ _ found) enough
      rw [List.append_assoc]
      exact ⟨_, .here (behind _ _ _ found _), .here some_⟩
    | same bare lines => exact ⟨_, .here found, .same bare lines⟩
  | @later below line next text taken more place found closes ih =>
    generalize lower : next :: below = under at beside
    cases beside with
    | here some_ =>
      have bound := closes.size fun text taken rest closed => by simp [← splits _ _ _ closed]
      have enough := ahead some_
      rw [Seam.size, ← lower, linesSize] at enough
      have positive := List.length_pos_iff.2 some_
      omega
    | same bare lines =>
      subst lower
      cases lines with
      | seam some_ text otherText solid =>
        obtain ⟨onward, closes, beside⟩ :=
          ih (LinesBeside.seam some_ text otherText solid).start ahead
        exact ⟨onward, .later found closes, beside⟩
      | cons text bare later =>
        obtain ⟨onward, closes, beside⟩ := ih (LinesBeside.cons text bare later).start ahead
        exact ⟨onward, .later found closes, beside⟩

/-- A quotation mark is no breaker. -/
theorem not_breaks_of_isQuote {c : Char} (quotes : isQuote c = true) :
    breakers.contains c = false := by
  rw [isQuote, Bool.or_eq_true, beq_iff_eq, beq_iff_eq] at quotes
  rcases quotes with rfl | rfl <;> rfl

/-- A string literal before the seam is found in the other text as well. -/
theorem ScansString.beside {cursor other next : Cursor} {literal : List Char}
    (scans : ScansString cursor literal next) (opens : cursor.rest.head?.any isQuote = true)
    (beside : cursor.Beside seam other) (ahead : seam.near ≠ [] → seam.size ≤ next.size) :
    ∃ onward, ScansString other literal onward ∧ next.Beside seam onward := by
  have short {quote : Char} := fun text taken rest =>
    @shortPart_closed quote text taken rest
  have long {quote : Char} := fun text taken rest =>
    @longPart_closed quote false text taken rest
  cases scans with
  | @triple quote rest taken next front closes =>
    have bound := closes.size fun text taken rest part => by simp [← longPart_closed part]
    cases beside with
    | @here line otherLine before some_ =>
      have enough : seam.near.length ≤ rest.length :=
        Nat.le_of_add_le_add_right (Nat.le_trans (ahead some_) bound)
      obtain ⟨left, rfl, rfl⟩ := exists_left front.symm enough
      obtain ⟨onward, found, place⟩ := closes.beside long
        (fun _ _ _ closed => longPart_behind closed) (.here some_) ahead
      exact ⟨onward, .triple (List.append_assoc _ _ _) found, place⟩
    | same bare lines =>
      obtain ⟨onward, found, place⟩ := closes.beside long
        (fun _ _ _ closed => longPart_behind closed) (.same bare lines) ahead
      exact ⟨onward, .triple front found, place⟩
  | @single quote rest taken next front apart closes =>
    have bound := closes.size fun text taken rest part => by simp [← shortPart_closed part]
    cases beside with
    | @here line otherLine before some_ =>
      have enough : seam.near.length ≤ rest.length :=
        Nat.le_of_add_le_add_right (Nat.le_trans (ahead some_) bound)
      have whole : [quote] ++ rest = before ++ seam.near := front.symm
      obtain ⟨left, rfl, rfl⟩ := exists_left whole enough
      obtain ⟨onward, found, place⟩ := closes.beside short
        (fun _ _ _ closed => shortPart_behind closed) (.here some_) ahead
      have mark : breakers.contains quote = false := not_breaks_of_isQuote (by simpa using opens)
      have plain : ([quote, quote].all fun c => !breakers.contains c) = true := by
        simp only [List.all_cons, mark]
        rfl
      have otherApart : [quote, quote].isPrefixOf (left ++ seam.far) = false := by
        rw [isPrefixOf_append plain seam.otherStops, ← isPrefixOf_append plain seam.stops]
        exact apart
      exact ⟨onward, .single rfl otherApart found, place⟩
    | same bare lines =>
      obtain ⟨onward, found, place⟩ := closes.beside short
        (fun _ _ _ closed => shortPart_behind closed) (.same bare lines) ahead
      exact ⟨onward, .single front apart found, place⟩

end literals

section steps

variable {more : Nat}

/-- A step and the step in the other text, where more brackets are open. -/
inductive Step.Beside (seam : Seam) (more : Nat) : Step → Step → Prop where
  /-- Tokens with the same text. -/
  | token {found other : Token} {next onward : Cursor} {depth : Nat} (same : found.Same other)
      (beside : next.Beside seam onward) :
      Beside seam more (.token found next depth) (.token other onward (depth + more))
  /-- No token. -/
  | skip {next onward : Cursor} (beside : next.Beside seam onward) :
      Beside seam more (.skip next) (.skip onward)
  /-- The ends of lines. -/
  | last {found other : Option Token}
      (same : List.Forall₂ Token.Same found.toList other.toList) :
      Beside seam more (.last found) (.last other)

/-- A step that does not go over the seam. The brackets that it counts are the same in the other
text, where more of them are open, and it ends a line there in the same way. -/
def Step.Passes (seam : Seam) (more depth : Nat) (below : List Line) : Step → Prop
  | .token found next _ =>
    found.depthBehind (depth + more) = found.depthBehind depth + more ∧
      (seam.near ≠ [] → seam.size ≤ next.size ∧
        (found.kind = .comment ∨ found.value = "\\" ∧ seam.far = ['\n'] → seam.size < next.size))
  | .skip next => seam.near ≠ [] → seam.size ≤ next.size
  | .last _ => (more = 0 ∨ 0 < depth) ∧ (seam.near ≠ [] → seam.size ≤ linesSize below)
  | .fault _ _ => False

/-- The step for a string literal before the seam. -/
theorem stringStep_beside {start otherStart opening otherOpening : Cursor} {marks : List Char}
    {depth : Nat} {below : List Line} (beside : opening.Beside seam otherOpening)
    (opens : opening.rest.head?.any isQuote = true)
    (passes : (stringStep start marks opening depth).Passes seam more depth below) :
    (stringStep start marks opening depth).Beside seam more
      (stringStep otherStart marks otherOpening (depth + more)) := by
  cases found : scanString opening with
  | error place =>
    rw [stringStep, found] at passes
    exact passes.elim
  | ok literal =>
    obtain ⟨text, next⟩ := literal
    rw [stringStep, found] at passes
    obtain ⟨onward, scans, place⟩ := (scanString_eq_ok_iff.1 found).beside opens beside
      fun some_ => (passes.2 some_).1
    rw [stringStep, stringStep, found, scanString_eq_ok_iff.2 scans]
    exact .token ⟨rfl, rfl⟩ place

/-- The first character of a text in front of a breaker is in a class without breakers just if that
of the text alone is. -/
theorem head_any_append {admits : Char → Bool} (none_ : (breakers.all fun c => !admits c) = true)
    (text : List Char) {rest : List Char} (stops : Stops rest) :
    (text ++ rest).head?.any admits = text.head?.any admits := by
  cases text with
  | cons c text => rfl
  | nil =>
    cases rest with
    | nil => rfl
    | cons c rest => simp [stops.refused none_]

/-- The same step is taken in lines that have the same rest. -/
theorem Cursor.step_same {line other : Line} {rest : List Char} {below otherBelow : List Line}
    {depth : Nat} (bare : other.bare = line.bare) (lines : LinesBeside seam below otherBelow)
    (passes : (Cursor.step ⟨line, rest, below⟩ depth).Passes seam more depth below) :
    (Cursor.step ⟨line, rest, below⟩ depth).Beside seam more
      (Cursor.step ⟨other, rest, otherBelow⟩ (depth + more)) := by
  have same (rest : List Char) : Cursor.Beside seam ⟨line, rest, below⟩ ⟨other, rest, otherBelow⟩ :=
    .same bare lines
  cases rest with
  | nil => exact .last .nil
  | cons c tail =>
    cases Lead.of c tail with
    | number starts =>
      rw [step_number starts rfl, step_number starts rfl]
      exact .token ⟨rfl, rfl⟩ (same _)
    | marked starts opens known =>
      rw [step_letters starts rfl opens known] at passes ⊢
      rw [step_letters starts rfl opens known]
      exact stringStep_beside (same _) opens passes
    | name starts unmarked =>
      rw [step_word starts rfl unmarked, step_word starts rfl unmarked]
      exact .token ⟨rfl, rfl⟩ (same _)
    | continued =>
      cases lines with
      | nil => exact passes.elim
      | seam some_ text otherText solid =>
        exact .skip (LinesBeside.seam some_ text otherText solid).start
      | cons text bare later => exact .skip (LinesBeside.cons text bare later).start
    | feed =>
      have flat : (depth + more = 0) = (depth = 0) := by
        rcases passes.1 with none_ | deep
        · rw [none_, Nat.add_zero]
        · exact propext (by omega)
      rw [step_feed, step_feed]
      refine .last (.cons ⟨?_, ?_⟩ .nil)
      · simp only [Cursor.token, flat]
      · simp only [Cursor.token, bare]
    | blank member =>
      rw [step_blank member, step_blank member]
      exact .skip (same _)
    | quote mark =>
      rw [step_quote mark] at passes ⊢
      rw [step_quote mark]
      exact stringStep_beside (same _) mark passes
    | comment => exact .token ⟨rfl, rfl⟩ (same _)
    | operator starts =>
      rw [step_operator starts rfl] at passes ⊢
      have depths := passes.1
      simp only [Token.depthBehind, Cursor.token, if_true, String.toList_ofList] at depths
      rw [step_operator starts rfl, depths]
      exact .token ⟨rfl, rfl⟩ (same _)

/-- The same step is taken in the line in which the seam is. -/
theorem Cursor.step_here {line other : Line} {c : Char} {tail : List Char} {depth : Nat}
    (some_ : seam.near ≠ [])
    (passes : (Cursor.step ⟨line, c :: tail ++ seam.near, seam.nearBelow⟩ depth).Passes seam more
      depth seam.nearBelow) :
    (Cursor.step ⟨line, c :: tail ++ seam.near, seam.nearBelow⟩ depth).Beside seam more
      (Cursor.step ⟨other, c :: tail ++ seam.far, seam.farBelow⟩ (depth + more)) := by
  have here (front : List Char) : Cursor.Beside seam ⟨line, front ++ seam.near, seam.nearBelow⟩
      ⟨other, front ++ seam.far, seam.farBelow⟩ := .here some_
  have positive := List.length_pos_iff.2 some_
  have numbers {rest : List Char} (stops : Stops rest) :
      startsNumber (c :: (tail ++ rest)) = startsNumber (c :: tail) :=
    startsNumber_append (c :: tail) stops
  have names {rest : List Char} (stops : Stops rest) : Lexeme.name (c :: (tail ++ rest)) =
      ((Lexeme.name (c :: tail)).1, (Lexeme.name (c :: tail)).2 ++ rest) :=
    name_local (c :: tail) rest stops
  have quotes {front rest : List Char} (stops : Stops rest) :
      (front ++ rest).head?.any isQuote = front.head?.any isQuote :=
    head_any_append rfl front stops
  rw [List.cons_append] at passes
  rw [List.cons_append, List.cons_append]
  generalize whole : tail ++ seam.near = text at passes ⊢
  cases Lead.of c text with
  | number starts =>
    subst whole
    have otherStarts := (numbers seam.otherStops).trans ((numbers seam.stops).symm.trans starts)
    rw [step_number starts (number_local (c :: tail) _ seam.stops),
      step_number otherStarts (number_local (c :: tail) _ seam.otherStops)]
    exact .token ⟨rfl, rfl⟩ (here _)
  | marked starts opens known =>
    subst whole
    rw [names seam.stops] at opens known
    have otherOpens := (quotes seam.otherStops).trans ((quotes seam.stops).symm.trans opens)
    rw [step_letters starts (names seam.stops) opens known] at passes ⊢
    rw [step_letters starts (names seam.otherStops) otherOpens known]
    exact stringStep_beside (here _) opens passes
  | name starts unmarked =>
    subst whole
    rw [names seam.stops, quotes seam.stops] at unmarked
    rw [step_word starts (names seam.stops) (by rw [quotes seam.stops, unmarked]),
      step_word starts (names seam.otherStops) (by rw [quotes seam.otherStops, unmarked])]
    exact .token ⟨rfl, rfl⟩ (here _)
  | continued =>
    -- The step would go over what is left of the line behind the seam.
    cases lower : seam.nearBelow with
    | nil =>
      rw [lower] at passes
      exact passes.elim
    | cons next below =>
      rw [lower] at passes
      have enough : seam.size ≤ linesSize (next :: below) := by
        simpa [linesSize, Cursor.size, Cursor.start] using passes some_
      rw [Seam.size, lower] at enough
      omega
  | feed =>
    have enough := passes.2 some_
    rw [Seam.size] at enough
    omega
  | blank member =>
    subst whole
    rw [step_blank member, step_blank member]
    exact .skip (here _)
  | quote mark =>
    subst whole
    rw [step_quote mark] at passes ⊢
    rw [step_quote mark]
    exact stringStep_beside (here (c :: tail)) mark passes
  | comment =>
    -- A comment goes on to the end of its line.
    have beyond := (passes.2 some_).2 (.inl rfl)
    simp only [← whole, Seam.size, Cursor.size, List.length_drop, List.length_append] at beyond
    omega
  | operator starts =>
    subst whole
    rw [step_operator starts (operator_append tail seam.stops)] at passes ⊢
    have otherStarts : StartsOperator c (tail ++ seam.far) := by
      refine ⟨?_, starts.name, ?_, starts.feed, starts.white, starts.quote, starts.comment⟩
      · exact (numbers seam.otherStops).trans ((numbers seam.stops).symm.trans starts.number)
      · -- A backslash of its own would be joined with the line feed in the other text.
        intro same
        have left := List.length_pos_iff.2 (mt seam.paired.2 some_)
        have short := congrArg List.length same
        simp only [List.length_cons, List.length_append, List.length_nil] at short
        obtain rfl := List.eq_nil_of_length_eq_zero (show tail.length = 0 by omega)
        obtain ⟨rfl, far⟩ := List.cons.inj same
        exact Nat.lt_irrefl _ ((passes.2 some_).2 (.inr ⟨rfl, far⟩))
    have depths := passes.1
    simp only [Token.depthBehind, Cursor.token, if_true, String.toList_ofList] at depths
    rw [step_operator otherStarts (operator_append tail seam.otherStops), depths]
    exact .token ⟨rfl, rfl⟩ (here _)

/-- A step before the seam is taken in the other text as well. -/
theorem Cursor.Beside.step {cursor other : Cursor} {depth : Nat}
    (beside : cursor.Beside seam other)
    (passes : (cursor.step depth).Passes seam more depth cursor.below) :
    (cursor.step depth).Beside seam more (other.step (depth + more)) := by
  cases beside with
  | same bare lines => exact Cursor.step_same bare lines passes
  | @here line other front some_ =>
    cases front with
    | cons c tail => exact Cursor.step_here some_ passes
    | nil =>
      -- Each step from the seam goes over it.
      cases found : Cursor.step ⟨line, [] ++ seam.near, seam.nearBelow⟩ depth with
      | token token next deeper =>
        rw [found] at passes
        have enough := (passes.2 some_).1
        have less : next.size < _ := Cursor.step_size (by rw [found]; rfl)
        exact absurd enough (Nat.not_le.2 less)
      | skip next =>
        rw [found] at passes
        have enough : seam.size ≤ next.size := passes some_
        have less : next.size < _ := Cursor.step_size (by rw [found]; rfl)
        exact absurd enough (Nat.not_le.2 less)
      | last token =>
        rw [found] at passes
        have enough : seam.size ≤ linesSize seam.nearBelow := passes.2 some_
        have positive := List.length_pos_iff.2 some_
        rw [Seam.size] at enough
        omega
      | fault cause place =>
        rw [found] at passes
        exact passes.elim

end steps

namespace Spot

variable {more : Nat} {before between behind other : Spot} {found tokens : List Token} {bare : Bool}

/-- The number of characters behind a place. -/
def size : Spot → Nat
  | .line below .. => linesSize below
  | .inside cursor .. => cursor.size

/-- A step leaves no more characters than there were. -/
theorem Step.size (step : Step before found behind) : behind.size ≤ before.size := by
  cases step with
  | idle => exact Nat.le_add_left _ _
  | @enter line below =>
    refine Nat.add_le_add_right ?_ _
    exact (List.dropWhile_suffix _).length_le
  | token step | skip step => exact Nat.le_of_lt (Cursor.step_size (by rw [step]; rfl))
  | last => exact Nat.le_add_left _ _

/-- So does a way. -/
theorem Comes.size (way : Comes before tokens behind) : behind.size ≤ before.size := by
  induction way with
  | stop => exact Nat.le_refl _
  | step step _ ih => exact Nat.le_trans ih step.size

/-- Tokens that open and close brackets in the same way where more are open, and that end no
statement if more are open. -/
def Level (more : Nat) : Nat → List Token → Prop
  | _, [] => True
  | depth, token :: later =>
    (token.depthBehind (depth + more) = token.depthBehind depth + more ∧
      (more = 0 ∨ token.kind ≠ .newline)) ∧ Level more (token.depthBehind depth) later

/-- Two runs of tokens. -/
theorem Level.append {more depth : Nat} {first second : List Token} :
    Level more depth (first ++ second) ↔
      Level more depth first ∧ Level more (first.foldl Token.depthBehind depth) second := by
  induction first generalizing depth with
  | nil => exact ⟨fun rest => ⟨trivial, rest⟩, fun both => both.2⟩
  | cons token first ih =>
    rw [List.cons_append, Level, Level, ih, List.foldl_cons]
    exact and_assoc.symm

/-- Where no more brackets are open nothing changes. -/
theorem Level.zero (depth : Nat) (tokens : List Token) : Level 0 depth tokens := by
  induction tokens generalizing depth with
  | nil => trivial
  | cons token later ih => exact ⟨⟨rfl, .inl rfl⟩, ih _⟩

/-- Places before which two texts may differ, and behind which they are the same up to a seam. More
brackets may be open in the second text, if no statement ends in front of the first place. -/
inductive Beside (seam : Seam) (more : Nat) : Spot → Spot → Prop where
  /-- Before lines. -/
  | line {below otherBelow : List Line} {number otherNumber depth : Nat} {indents : List Nat}
      (lines : LinesBeside seam below otherBelow) (deep : more = 0 ∨ 0 < depth) :
      Beside seam more (.line below number indents depth)
        (.line otherBelow otherNumber indents (depth + more))
  /-- Inside a line. -/
  | inside {cursor other : Cursor} {indents : List Nat} {depth : Nat}
      (beside : cursor.Beside seam other) :
      Beside seam more (.inside cursor indents depth) (.inside other indents (depth + more))

/-- Lines that are indented in the same way get the same marks. -/
theorem track_beside {indents kept : List Nat} {depth otherDepth : Nat} {line other : Line}
    {below : List Line} {marks : List Token} (otherBelow : List Line)
    (same : other.text.toList.takeWhile isIndent = line.text.toList.takeWhile isIndent)
    (flat : otherDepth = 0 ↔ depth = 0)
    (tracked : track indents depth line below = .ok (marks, kept)) :
    ∃ others, track indents otherDepth other otherBelow = .ok (others, kept) ∧
      List.Forall₂ Token.Same marks others := by
  have width : Scanner.indentWidth other = Scanner.indentWidth line := by
    rw [Scanner.indentWidth, Scanner.indentWidth, same]
  have taken (text : List Char) :
      text.take (text.takeWhile isIndent).length = text.takeWhile isIndent :=
    (List.prefix_iff_eq_take.1 (List.takeWhile_prefix isIndent)).symm
  rcases track_ok_iff.1 tracked with ⟨level, tracks⟩ | ⟨level, rfl, rfl⟩
  · rw [← width] at tracks
    cases tracks with
    | opens wider =>
      refine ⟨_, track_ok_iff.2 (.inl ⟨flat.2 level, .opens wider⟩), .cons ⟨rfl, ?_⟩ .nil⟩
      show String.ofList (other.text.toList.take (Scanner.indentWidth other)) =
        String.ofList (line.text.toList.take (Scanner.indentWidth other))
      rw [width, Scanner.indentWidth, taken, ← same, taken]
    | closes narrow fits =>
      refine ⟨_, track_ok_iff.2 (.inl ⟨flat.2 level, .closes narrow fits⟩), ?_⟩
      rw [List.forall₂_map_left_iff, List.forall₂_map_right_iff, List.forall₂_same]
      exact fun _ _ => ⟨rfl, rfl⟩
  · exact ⟨[], track_ok_iff.2 (.inr ⟨mt flat.1 level, rfl, rfl⟩), .nil⟩

/-- The line in which the seam is has its first character behind the indentation before the seam. -/
theorem behindIndent_seam {front : List Char} (solid : ∃ c ∈ front, c ∉ blanks) :
    ∃ indent c tail, (c = '\x0c' → tail ≠ []) ∧ ∀ (line : Line) (behind : List Char),
      line.text.toList = front ++ behind →
        line.text.toList.takeWhile isIndent = indent ∧ ∀ below,
          Scanner.behindIndent line below = ⟨line, c :: tail ++ behind, below⟩ := by
  have parts := List.takeWhile_append_dropWhile (p := isIndent) (l := front)
  have indented : ∀ c ∈ front.takeWhile isIndent, isIndent c = true :=
    fun c member => List.mem_takeWhile_imp member
  have blank : ∀ c ∈ front.takeWhile isIndent, c ∈ blanks :=
    fun c member => mem_blanks_of_isIndent (indented c member)
  cases later : front.dropWhile isIndent with
  | nil =>
    obtain ⟨c, member, apart⟩ := solid
    rw [later, List.append_nil] at parts
    rw [← parts] at member
    exact absurd (blank c member) apart
  | cons c tail =>
    rw [later] at parts
    have stops : isIndent c = false := by
      have refused := List.head?_dropWhile_not isIndent front
      rw [later] at refused
      simpa using refused
    refine ⟨front.takeWhile isIndent, c, tail, ?_, fun line behind text => ?_⟩
    · rintro rfl rfl
      obtain ⟨d, member, apart⟩ := solid
      rw [← parts] at member
      rcases List.mem_append.1 member with upper | last
      · exact apart (blank d upper)
      · rw [List.mem_singleton.1 last] at apart
        exact apart (by decide)
    · rw [← parts, List.append_assoc] at text
      have ends : ∀ d ∈ (c :: tail ++ behind).head?, isIndent d = false := by
        intro d first
        obtain rfl := Option.some.inj first
        exact stops
      have split := Munch.many_append indented ends
      rw [Munch.many, Prod.mk.injEq] at split
      exact ⟨by rw [text, split.1], fun below => (Scanner.behindIndent_eq below text indented ends).1⟩

/-- A line of which the first character behind the indentation is before the seam holds statements
in the other text as well. -/
theorem idleTokens?_seam {line : Line} {c : Char} {tail : List Char} {below : List Line}
    (other : Line) (otherBelow : List Line) (some_ : seam.near ≠ []) (solid : c = '\x0c' → tail ≠ [])
    (logical : Scanner.idleTokens? ⟨line, c :: tail ++ seam.near, below⟩ = none) :
    Scanner.idleTokens? ⟨other, c :: tail ++ seam.far, otherBelow⟩ = none := by
  have left := mt seam.paired.2 some_
  have first : c ≠ '#' := by
    rintro rfl
    simp [Scanner.idleTokens?] at logical
  have single : c :: tail ++ seam.far ≠ ['\n'] := by
    intro same
    exact left (List.append_eq_nil_iff.1 (List.cons.inj same).2).2
  have double : c :: tail ++ seam.far ≠ ['\x0c', '\n'] := by
    intro same
    obtain ⟨rfl, rest⟩ := List.cons.inj same
    rcases List.append_eq_singleton_iff.1 rest with ⟨empty, -⟩ | ⟨-, empty⟩
    · exact solid rfl empty
    · exact left empty
  rw [Scanner.idleTokens?]
  dsimp only
  rw [decide_eq_false single, decide_eq_false double, if_neg (by simp), if_neg (by simpa using first)]

/-- Idle lines with the same text have the same tokens. -/
theorem idleTokens?_beside {line : Line} {rest : List Char} {below : List Line} {made : List Token}
    (other : Line) (otherBelow : List Line)
    (idles : Scanner.idleTokens? ⟨line, rest, below⟩ = some made) :
    ∃ others, Scanner.idleTokens? ⟨other, rest, otherBelow⟩ = some others ∧
      List.Forall₂ Token.Same made others := by
  rw [Scanner.idleTokens?] at idles ⊢
  dsimp only at idles ⊢
  split at idles
  · rename_i blank
    obtain rfl := Option.some.inj idles
    rw [if_pos blank]
    exact ⟨_, rfl, .cons ⟨rfl, rfl⟩ .nil⟩
  · rename_i blank
    rw [if_neg blank]
    split at idles
    · rename_i hash
      obtain rfl := Option.some.inj idles
      rw [if_pos hash]
      exact ⟨_, rfl, .cons ⟨rfl, rfl⟩ (.cons ⟨rfl, rfl⟩ .nil)⟩
    · contradiction

/-- A line with statements in one text has statements in another one with the same line. -/
theorem idleTokens?_none {line : Line} {rest : List Char} {below : List Line} (other : Line)
    (otherBelow : List Line)
    (logical : Scanner.idleTokens? ⟨line, rest, below⟩ = none) :
    Scanner.idleTokens? ⟨other, rest, otherBelow⟩ = none := by
  cases idles : Scanner.idleTokens? ⟨other, rest, otherBelow⟩ with
  | none => rfl
  | some made =>
    obtain ⟨others, found, -⟩ := idleTokens?_beside line below idles
    rw [logical] at found
    contradiction

/-- A step before the seam is taken in the other text as well. -/
theorem Step.beside (step : Step before found behind) (sound : before.Sound bare)
    (beside : before.Beside seam more other) (level : Level more before.depth found)
    (ahead : seam.near ≠ [] → seam.size < behind.size) :
    ∃ others onward, Step other others onward ∧ List.Forall₂ Token.Same found others ∧
      behind.Beside seam more onward := by
  cases step with
  | @idle line below number depth indents found idles =>
    cases beside with
    | @line _ otherBelow _ otherNumber _ _ lines deep =>
      cases lines with
      | seam some_ =>
        have enough : seam.size < linesSize seam.nearBelow := ahead some_
        rw [Seam.size] at enough
        omega
      | @cons _ otherLine _ otherBelow text bare later =>
        rw [Scanner.behindIndent] at idles
        obtain ⟨others, otherIdles, same⟩ :=
          idleTokens?_beside otherLine otherBelow idles
        rw [← text] at otherIdles
        exact ⟨others, _, .idle otherIdles, same, .line later deep⟩
  | @enter line below number depth indents kept found logical tracked =>
    cases beside with
    | @line _ otherBelow _ otherNumber _ _ lines deep =>
      have flat : depth + more = 0 ↔ depth = 0 := by omega
      cases lines with
      | @seam _ otherLine front some_ text otherText solid =>
        obtain ⟨indent, c, tail, formed, split⟩ := behindIndent_seam solid
        obtain ⟨width, place⟩ := split line _ text
        obtain ⟨otherWidth, otherPlace⟩ := split otherLine _ otherText
        rw [place] at logical
        have otherLogical := idleTokens?_seam otherLine seam.farBelow some_ formed logical
        rw [← otherPlace] at otherLogical
        obtain ⟨others, otherTracked, same⟩ := track_beside seam.farBelow
          (otherWidth.trans width.symm) flat tracked
        refine ⟨others, _, .enter otherLogical otherTracked, same, ?_⟩
        rw [place, otherPlace]
        exact .inside (.here some_)
      | @cons _ otherLine _ otherBelow text bare later =>
        rw [Scanner.behindIndent] at logical
        have otherLogical := idleTokens?_none otherLine otherBelow logical
        rw [← text] at otherLogical
        obtain ⟨others, otherTracked, same⟩ := track_beside otherBelow
          (congrArg (fun text : String => text.toList.takeWhile isIndent) text) flat tracked
        refine ⟨others, _, .enter otherLogical otherTracked, same, ?_⟩
        rw [Scanner.behindIndent, Scanner.behindIndent, text]
        exact .inside (.same bare later)
  | @token cursor next depth deeper indents found step =>
    cases beside with
    | @inside _ other _ _ beside =>
      have passes : (cursor.step depth).Passes seam more depth cursor.below := by
        rw [step]
        exact ⟨level.1.1, fun some_ => ⟨Nat.le_of_lt (ahead some_), fun _ => ahead some_⟩⟩
      have taken := beside.step passes
      rw [step] at taken
      generalize onward : other.step (depth + more) = otherStep at taken
      cases taken with
      | token same later => exact ⟨_, _, .token onward, .cons same .nil, .inside later⟩
  | @skip cursor next depth indents step =>
    cases beside with
    | @inside _ other _ _ beside =>
      have passes : (cursor.step depth).Passes seam more depth cursor.below := by
        rw [step]
        exact fun some_ => Nat.le_of_lt (ahead some_)
      have taken := beside.step passes
      rw [step] at taken
      generalize onward : other.step (depth + more) = otherStep at taken
      cases taken with
      | skip later => exact ⟨_, _, .skip onward, .nil, .inside later⟩
  | @last cursor depth indents found step =>
    obtain ⟨tail, -, rfl⟩ := Cursor.step_last step sound.1.nonempty
    cases beside with
    | @inside _ other _ _ beside =>
      have deep : more = 0 ∨ 0 < depth := by
        rcases level.1.2 with none_ | other
        · exact .inl none_
        · refine .inr (Nat.pos_of_ne_zero fun flat => ?_)
          rw [flat] at other
          exact other rfl
      have passes : (cursor.step depth).Passes seam more depth cursor.below := by
        rw [step]
        exact ⟨deep, fun some_ => Nat.le_of_lt (ahead some_)⟩
      have taken := beside.step passes
      rw [step] at taken
      generalize onward : other.step (depth + more) = otherStep at taken
      cases taken with
      | last same =>
        refine ⟨_, _, .last onward, same, ?_⟩
        cases beside with
        | here some_ =>
          have enough : seam.size < linesSize seam.nearBelow := ahead some_
          rw [Seam.size] at enough
          omega
        | same bare lines => exact .line lines deep

/-- What is found on the way to a place before the seam is found in the other text as well. -/
theorem Comes.beside (way : Comes before tokens behind) (sound : before.Sound bare)
    (beside : before.Beside seam more other) (level : Level more before.depth tokens)
    (ahead : seam.near ≠ [] → seam.size < behind.size) :
    ∃ others onward, Comes other others onward ∧ List.Forall₂ Token.Same tokens others ∧
      behind.Beside seam more onward := by
  induction way generalizing other with
  | stop => exact ⟨[], other, .stop, .nil, beside⟩
  | step step later ih =>
    obtain ⟨here, below⟩ := Level.append.1 level
    rw [step.depth] at below
    obtain ⟨found, between, otherStep, same, place⟩ := step.beside sound beside here
      fun some_ => Nat.lt_of_lt_of_le (ahead some_) later.size
    obtain ⟨others, onward, way, more, place⟩ := ih (step.sound sound) place below ahead
    exact ⟨found ++ others, onward, .step otherStep way, List.rel_append same more, place⟩

end Spot

end Offside
