import Offside.Proofs.Layout.Breakers
import Offside.Proofs.Layout.Spots

/-!
# What stands between tokens

Between two tokens of a logical line stand blanks and continued lines, and inside brackets also
comments and the ends of lines (`Filler`). A scan goes over such a text and finds no significant
token in it (`Filler.passes`), and wherever a scan finds none it goes over such a text
(`Spot.Comes.filler`).
-/
namespace Offside

open Text Lexeme

/-- A text between two tokens where the given number of brackets is open. -/
inductive Filler (depth : Nat) : List Char → Prop where
  /-- Nothing. -/
  | nil : Filler depth []
  /-- A blank. -/
  | blank {c : Char} {rest : List Char} (member : c ∈ blanks) (later : Filler depth rest) :
      Filler depth (c :: rest)
  /-- A line that is continued by a backslash. -/
  | continued {rest : List Char} (later : Filler depth rest) : Filler depth ('\\' :: '\n' :: rest)
  /-- The end of a line, inside brackets. -/
  | feed {rest : List Char} (deep : 0 < depth) (later : Filler depth rest) :
      Filler depth ('\n' :: rest)
  /-- A comment with the end of its line, inside brackets. -/
  | comment {body rest : List Char} (deep : 0 < depth) (unbroken : '\n' ∉ body)
      (later : Filler depth rest) : Filler depth ('#' :: body ++ '\n' :: rest)

namespace Filler

variable {depth : Nat} {text rest : List Char}

/-- A filler starts with a breaker. -/
theorem stops (filler : Filler depth text) (behind : text = [] → Stops rest) :
    Stops (text ++ rest) := by
  cases filler with
  | nil => exact behind rfl
  | blank member =>
    intro c first
    obtain rfl := Option.some.inj first
    exact List.mem_append_right [')', '\\', '\n', '#'] member
  | continued | feed | comment =>
    intro c first
    obtain rfl := Option.some.inj first
    decide

/-- What is behind a blank is a filler. -/
theorem of_blank {c : Char} (member : c ∈ blanks) (filler : Filler depth (c :: text)) :
    Filler depth text := by
  generalize whole : c :: text = front at filler
  cases filler with
  | nil => contradiction
  | blank _ later =>
    obtain ⟨-, rfl⟩ := List.cons.inj whole
    exact later
  | continued | feed | comment =>
    obtain ⟨rfl, -⟩ := List.cons.inj whole
    exact absurd member (by decide)

/-- What is behind the end of a line is a filler, inside brackets. -/
theorem of_feed (filler : Filler depth ('\n' :: text)) : 0 < depth ∧ Filler depth text := by
  generalize whole : '\n' :: text = front at filler
  cases filler with
  | nil => contradiction
  | blank member =>
    obtain ⟨rfl, -⟩ := List.cons.inj whole
    exact absurd member (by decide)
  | continued | comment =>
    obtain ⟨same, -⟩ := List.cons.inj whole
    exact absurd same (by decide)
  | feed deep later =>
    obtain ⟨-, rfl⟩ := List.cons.inj whole
    exact ⟨deep, later⟩

/-- What is behind the mark of a comment is the rest of its line and a filler. -/
theorem of_hash (filler : Filler depth ('#' :: text)) :
    ∃ body rest, text = body ++ '\n' :: rest ∧ '\n' ∉ body ∧ Filler depth rest := by
  generalize whole : '#' :: text = front at filler
  cases filler with
  | nil => contradiction
  | blank member =>
    obtain ⟨rfl, -⟩ := List.cons.inj whole
    exact absurd member (by decide)
  | continued | feed =>
    obtain ⟨same, -⟩ := List.cons.inj whole
    exact absurd same (by decide)
  | @comment body rest deep unbroken later =>
    obtain ⟨-, rfl⟩ := List.cons.inj whole
    exact ⟨body, rest, rfl, unbroken, later⟩

/-- A filler behind blanks. -/
theorem behind_blanks {front : List Char} (blank : ∀ c ∈ front, c ∈ blanks)
    (filler : Filler depth text) : Filler depth (front ++ text) := by
  induction front with
  | nil => exact filler
  | cons c front ih =>
    obtain ⟨here, later⟩ := List.forall_mem_cons.1 blank
    exact .blank here (ih later)

/-- What is behind blanks is a filler. -/
theorem of_blanks {front : List Char} (blank : ∀ c ∈ front, c ∈ blanks)
    (filler : Filler depth (front ++ text)) : Filler depth text := by
  induction front with
  | nil => exact filler
  | cons c front ih =>
    obtain ⟨here, later⟩ := List.forall_mem_cons.1 blank
    exact ih later (filler.of_blank here)

/-- A line is unified up to its end. -/
theorem unifyBreaks_line {body : List Char} (unbroken : '\n' ∉ body) (rest : List Char) :
    ∃ kept, '\n' ∉ kept ∧
      Offside.unifyBreaks (body ++ '\n' :: rest) = kept ++ '\n' :: Offside.unifyBreaks rest := by
  induction body with
  | nil => exact ⟨[], List.not_mem_nil, by rw [List.nil_append, unifyBreaks_cons]; simp⟩
  | cons c body ih =>
    obtain ⟨differs, later⟩ : '\n' ≠ c ∧ '\n' ∉ body := by simpa using unbroken
    obtain ⟨kept, clean, same⟩ := ih later
    rw [List.cons_append, unifyBreaks_cons, same]
    split
    · exact ⟨kept, clean, rfl⟩
    · exact ⟨c :: kept, by simp [differs, clean], rfl⟩

/-- A filler with unified line ends is a filler. -/
theorem unifyBreaks (filler : Filler depth text) : Filler depth (Offside.unifyBreaks text) := by
  induction filler with
  | nil => exact .nil
  | @blank c rest member later ih =>
    rw [unifyBreaks_cons]
    split
    · exact ih
    · exact .blank member ih
  | @continued rest later ih =>
    have same : Offside.unifyBreaks ('\\' :: '\n' :: rest) =
        '\\' :: '\n' :: Offside.unifyBreaks rest := by
      rw [unifyBreaks_cons, unifyBreaks_cons]
      simp
    rw [same]
    exact .continued ih
  | @feed rest deep later ih =>
    rw [unifyBreaks_cons, if_neg (by simp)]
    exact .feed deep ih
  | @comment body rest deep unbroken later ih =>
    obtain ⟨kept, clean, same⟩ := unifyBreaks_line unbroken rest
    rw [List.cons_append, unifyBreaks_cons, if_neg (by simp), same]
    exact .comment deep clean ih

end Filler

section steps

variable {line : Line} {rest : List Char} {below : List Line} {depth : Nat}

/-- A comment goes on to the end of its line. -/
theorem Cursor.step_comment {body : List Char} :
    Cursor.step ⟨line, '#' :: (body ++ ['\n']), below⟩ depth =
      .token (Cursor.token ⟨line, '#' :: (body ++ ['\n']), below⟩ .comment
        (trimEnd (· == '\n') ('#' :: (body ++ ['\n'])))) ⟨line, ['\n'], below⟩ depth := by
  have rest : (body ++ ['\n']).drop ((body ++ ['\n']).length - 1) = ['\n'] := by simp
  rw [step_hash, rest]

/-- Only blanks and continued lines are passed over. -/
theorem Cursor.step_skip {cursor next : Cursor} (step : cursor.step depth = .skip next) :
    (∃ c tail, c ∈ blanks ∧ cursor.rest = c :: tail ∧ next = { cursor with rest := tail }) ∨
      ∃ line below, cursor.rest = ['\\', '\n'] ∧ cursor.below = line :: below ∧
        next = .start line below := by
  have finds := cursor.step_finds depth
  rw [step] at finds
  cases finds with
  | continuation front lines => exact .inr ⟨_, _, front, lines, rfl⟩
  | @white c tail front differs white =>
    refine .inl ⟨c, tail, mem_blanks_iff.2 ⟨white, ?_, differs⟩, front, rfl⟩
    -- White space that may start a name does start one.
    by_contra letter
    have starts : isNameStart c = true := by simpa using letter
    rw [Cursor.step, front] at step
    dsimp only at step
    rw [startsNumber_of_isNameStart starts, if_neg Bool.false_ne_true, if_pos starts] at step
    split at step
    · rw [stringStep] at step
      split at step <;> contradiction
    · contradiction

/-- A comment stands at the end of its line, without the line feed. -/
theorem Cursor.step_of_comment {cursor next : Cursor} {found : Token} {deeper : Nat}
    (step : cursor.step depth = .token found next deeper) (kind : found.kind = .comment) :
    deeper = depth ∧ found.line = cursor.line.number ∧ ∃ tail, cursor.rest = '#' :: tail ∧
      next = { cursor with rest := tail.drop (tail.length - 1) } := by
  have finds := cursor.step_finds depth
  rw [step] at finds
  cases finds with
  | comment front => exact ⟨rfl, rfl, _, front, rfl⟩
  | number | name | literal | operator =>
    rw [Cursor.token] at kind
    contradiction

end steps

namespace Spot

variable {bare : Bool} {before between : Spot} {found : List Token} {depth : Nat}
  {indents : List Nat} {text behind : List Char}

/-- From a place a scan comes to a given text inside a line and finds no significant token. -/
def Reaches (behind : List Char) (indents : List Nat) (depth : Nat) (before : Spot) : Prop :=
  ∃ made place, before.Comes made (.inside place indents depth) ∧ place.text = behind ∧
    ∀ token ∈ made, token.isSignificant = false

/-- A step without significant tokens is the start of such a way. -/
theorem Reaches.step (step : Step before found between)
    (plain : ∀ token ∈ found, token.isSignificant = false)
    (later : between.Reaches behind indents depth) : before.Reaches behind indents depth := by
  obtain ⟨made, place, way, front, quiet⟩ := later
  refine ⟨found ++ made, place, .step step way, front, fun token member => ?_⟩
  rcases List.mem_append.1 member with here | after
  · exact plain token here
  · exact quiet token after

/-- What is left of a line ends in its only line feed. -/
theorem Sound.body {cursor : Cursor} (sound : (inside cursor indents depth).Sound bare) :
    ∃ body, cursor.rest = body ++ ['\n'] ∧ '\n' ∉ body :=
  sound.1.body sound.2.1.1 sound.2.1.2.1

/-- A comment is all that is left of its line but the line feed. -/
theorem Sound.comment {cursor next : Cursor} {found : Token} {deeper : Nat}
    (sound : (inside cursor indents depth).Sound bare)
    (step : cursor.step depth = .token found next deeper) (kind : found.kind = .comment) :
    ∃ body, '\n' ∉ body ∧ cursor.rest = '#' :: (body ++ ['\n']) ∧
      next = { cursor with rest := ['\n'] } := by
  obtain ⟨-, -, after, front, rfl⟩ := Cursor.step_of_comment step kind
  obtain ⟨body, left, unbroken⟩ := Sound.body sound
  rw [front] at left
  cases body with
  | nil => exact absurd (List.cons.inj left).1 (by decide)
  | cons c body =>
    obtain ⟨rfl, rfl⟩ : '#' = c ∧ after = body ++ ['\n'] := List.cons.inj left
    exact ⟨body, fun member => unbroken (List.mem_cons_of_mem _ member), front, by simp⟩

/-- What is left of a line that starts with its line feed. -/
theorem Sound.rest_of_feed {cursor : Cursor} (sound : (inside cursor indents depth).Sound bare)
    (front : cursor.text = '\n' :: text) :
    cursor.rest = ['\n'] ∧ linesText cursor.below = text := by
  obtain ⟨body, rest, unbroken⟩ := sound.body
  rw [Cursor.text, rest] at front
  cases body with
  | nil => exact ⟨rest, (List.cons.inj front).2⟩
  | cons c body =>
    obtain ⟨rfl, -⟩ := List.cons.inj front
    exact absurd List.mem_cons_self unbroken

/-- What is left of a line that starts with another character. -/
theorem Sound.rest_of_other {cursor : Cursor} {c : Char}
    (sound : (inside cursor indents depth).Sound bare) (front : cursor.text = c :: text)
    (other : c ≠ '\n') :
    ∃ rest, cursor.rest = c :: rest ∧ rest ++ linesText cursor.below = text := by
  obtain ⟨body, rest, unbroken⟩ := sound.body
  rw [Cursor.text, rest] at front
  cases body with
  | nil => exact absurd (List.cons.inj front).1.symm other
  | cons d body =>
    obtain ⟨rfl, tail⟩ := List.cons.inj front
    exact ⟨body ++ ['\n'], rest, tail⟩

/-- What is left of a line that starts with a text and a line feed. -/
theorem Sound.rest_of_line {cursor : Cursor} {body : List Char}
    (sound : (inside cursor indents depth).Sound bare)
    (front : cursor.text = body ++ '\n' :: text) (unbroken : '\n' ∉ body) :
    cursor.rest = body ++ ['\n'] ∧ linesText cursor.below = text := by
  obtain ⟨own, rest, clean⟩ := sound.body
  rw [Cursor.text, rest, List.append_assoc] at front
  obtain ⟨rfl, rfl⟩ := first_line_inj clean unbroken front
  exact ⟨rest, rfl⟩

end Spot

namespace Filler

open Spot

variable {bare : Bool} {depth : Nat} {text behind : List Char}

/-- A filler inside a line is passed over, if shorter ones before lines are. -/
theorem passes_inside (filler : Filler depth text) (begins : behind.head?.any startsLogical = true)
    (lines : ∀ rest, rest.length < text.length → Filler depth rest → 0 < depth →
      ∀ below number indents, (Spot.line below number indents depth).Sound bare →
        linesText below = rest ++ behind →
          (Spot.line below number indents depth).Reaches behind indents depth)
    {cursor : Cursor} {indents : List Nat} (sound : (Spot.inside cursor indents depth).Sound bare)
    (front : cursor.text = text ++ behind) :
    (Spot.inside cursor indents depth).Reaches behind indents depth := by
  induction filler generalizing cursor with
  | nil => exact ⟨[], cursor, .stop, front, fun _ member => absurd member List.not_mem_nil⟩
  | @blank c rest member later ih =>
    have other := (mem_blanks_iff.1 member).2.2
    obtain ⟨tail, left, more⟩ := sound.rest_of_other front other
    obtain ⟨line, own, below⟩ := cursor
    subst left
    have step : Spot.Step (.inside ⟨line, c :: tail, below⟩ indents depth) []
        (.inside ⟨line, tail, below⟩ indents depth) := .skip (Cursor.step_blank member)
    exact .step step (fun _ member => absurd member List.not_mem_nil)
      (ih (fun rest shorter => lines rest (Nat.lt_succ_of_lt shorter)) (step.sound sound) more)
  | @continued rest later ih =>
    have whole : cursor.text = ['\\'] ++ '\n' :: (rest ++ behind) := front
    obtain ⟨left, more⟩ := sound.rest_of_line whole (by decide)
    obtain ⟨line, own, below⟩ := cursor
    subst left
    dsimp only at more
    cases below with
    | nil =>
      have none_ := (List.append_eq_nil_iff.1 more.symm).2
      rw [none_] at begins
      contradiction
    | cons next below =>
      have step : Spot.Step (.inside ⟨line, ['\\', '\n'], next :: below⟩ indents depth) []
          (.inside (.start next below) indents depth) := .skip Cursor.step_continued
      rw [linesText_cons] at more
      exact .step step (fun _ member => absurd member List.not_mem_nil)
        (ih (fun rest shorter => lines rest (by simp; omega)) (step.sound sound) more)
  | @feed rest deep later ih =>
    obtain ⟨left, more⟩ := sound.rest_of_feed front
    obtain ⟨line, own, below⟩ := cursor
    subst left
    have step : Spot.Step (.inside ⟨line, ['\n'], below⟩ indents depth) _
        (.line below line.number indents depth) := .last Cursor.step_feed
    refine .step step (fun token member => ?_)
      (lines rest (Nat.lt_succ_self _) later deep _ _ _ (step.sound sound) more)
    obtain rfl := List.mem_singleton.1 member
    rw [if_neg (Nat.pos_iff_ne_zero.1 deep)]
    rfl
  | @comment body rest deep unbroken later ih =>
    rw [List.append_assoc] at front
    have whole : cursor.text = '#' :: body ++ '\n' :: (rest ++ behind) := front
    obtain ⟨left, more⟩ := sound.rest_of_line whole (by simpa using unbroken)
    obtain ⟨line, own, below⟩ := cursor
    subst left
    have step : Spot.Step (.inside ⟨line, '#' :: (body ++ ['\n']), below⟩ indents depth) _
        (.inside ⟨line, ['\n'], below⟩ indents depth) := .token Cursor.step_comment
    have last : Spot.Step (.inside ⟨line, ['\n'], below⟩ indents depth) _
        (.line below line.number indents depth) := .last Cursor.step_feed
    have shorter : rest.length < ('#' :: body ++ '\n' :: rest).length := by simp; omega
    refine .step step (fun token member => ?_) (.step last (fun token member => ?_)
      (lines rest shorter later deep _ _ _ (last.sound (step.sound sound)) more))
    · obtain rfl := List.mem_singleton.1 member
      rfl
    · obtain rfl := List.mem_singleton.1 member
      rw [if_neg (Nat.pos_iff_ne_zero.1 deep)]
      rfl

/-- A filler that goes on in a blank line has the whole of it. -/
theorem of_blank_line (filler : Filler depth text)
    (begins : behind.head?.any startsLogical = true) {front below : List Char}
    (blank : ∀ c ∈ front, c = '\x0c') (same : text ++ behind = front ++ '\n' :: below) :
    ∃ rest, Filler depth rest ∧ rest.length < text.length ∧ below = rest ++ behind := by
  induction front generalizing text with
  | nil =>
    cases text with
    | nil =>
      rw [List.nil_append, List.nil_append] at same
      rw [same] at begins
      contradiction
    | cons c text =>
      obtain ⟨rfl, rfl⟩ := List.cons.inj same
      exact ⟨text, filler.of_feed.2, Nat.lt_succ_self _, rfl⟩
  | cons d front ih =>
    obtain ⟨rfl, later⟩ := List.forall_mem_cons.1 blank
    cases text with
    | nil =>
      rw [List.nil_append] at same
      rw [same] at begins
      contradiction
    | cons c text =>
      obtain ⟨rfl, more⟩ := List.cons.inj same
      obtain ⟨rest, filler, shorter, front⟩ := ih (filler.of_blank (by decide)) later more
      exact ⟨rest, filler, Nat.lt_succ_of_lt shorter, front⟩

/-- A filler that goes on in a line without statements has the whole of it. -/
theorem of_idle (filler : Filler depth text) (begins : behind.head?.any startsLogical = true)
    {line : Line} {rest : List Char} {below : List Line} {made : List Token}
    (idles : Scanner.idleTokens? ⟨line, rest, below⟩ = some made)
    (ends : ∃ body, rest = body ++ ['\n'] ∧ '\n' ∉ body)
    (same : text ++ behind = rest ++ linesText below) :
    ∃ left, Filler depth left ∧ left.length < text.length ∧ linesText below = left ++ behind := by
  cases Scanner.idles_of_idleTokens? idles with
  | blank empty =>
    rcases empty with rfl | rfl
    · have whole : text ++ behind = [] ++ '\n' :: linesText below := same
      exact filler.of_blank_line begins (fun _ member => absurd member List.not_mem_nil) whole
    · have whole : text ++ behind = ['\x0c'] ++ '\n' :: linesText below := same
      exact filler.of_blank_line begins (fun _ member => List.mem_singleton.1 member) whole
  | comment hash =>
    obtain ⟨more, rfl⟩ := List.head?_eq_some_iff.1 hash
    obtain ⟨body, rest, unbroken⟩ := ends
    cases text with
    | nil =>
      rw [List.nil_append] at same
      rw [same] at begins
      contradiction
    | cons c text =>
      obtain ⟨rfl, -⟩ := List.cons.inj same
      obtain ⟨own, left, rfl, clean, later⟩ := filler.of_hash
      rw [rest, List.append_assoc] at same
      have whole : '#' :: own ++ '\n' :: (left ++ behind) = body ++ '\n' :: linesText below := by
        simpa using same
      obtain ⟨-, front⟩ := first_line_inj (by simpa using clean) unbroken whole
      exact ⟨left, later, by simp; omega, front.symm⟩

/-- A text in front of which a line starts, up to the first character behind the indentation. -/
theorem indent_split (begins : behind.head?.any startsLogical = true) {line : Line}
    {below : List Line} {lineBody : List Char} (own : line.text.toList = lineBody ++ ['\n'])
    (front : linesText (line :: below) = text ++ behind) :
    ∃ indent left body, text = indent ++ left ∧ (∀ c ∈ indent, c ∈ blanks) ∧
      lineBody = indent ++ body ∧
      Scanner.behindIndent line below = ⟨line, body ++ ['\n'], below⟩ ∧
      body ++ '\n' :: linesText below = left ++ behind := by
  have parts := List.takeWhile_append_dropWhile (p := isIndent) (l := text)
  have indents : ∀ c ∈ text.takeWhile isIndent, isIndent c = true :=
    fun c member => List.mem_takeWhile_imp member
  have blank : ∀ c ∈ text.takeWhile isIndent, c ∈ blanks :=
    fun c member => mem_blanks_of_isIndent (indents c member)
  have stops : ∀ c ∈ (text.dropWhile isIndent ++ behind).head?, isIndent c = false := by
    intro c first
    cases left : text.dropWhile isIndent with
    | nil =>
      rw [left, List.nil_append, Option.mem_def] at first
      rw [first] at begins
      have starts : startsLogical c = true := by simpa using begins
      simp only [startsLogical, Bool.and_eq_true, Bool.not_eq_true'] at starts
      exact starts.1.1.1
    | cons d rest =>
      have refused := List.head?_dropWhile_not isIndent text
      rw [left] at refused first
      obtain rfl := Option.some.inj first
      simpa using refused
  rw [linesText_cons, own, ← parts, List.append_assoc, List.append_assoc] at front
  have split : ∃ body, lineBody = text.takeWhile isIndent ++ body ∧
      body ++ '\n' :: linesText below = text.dropWhile isIndent ++ behind := by
    rcases List.append_eq_append_iff.1 front with ⟨more, within, rest⟩ | ⟨more, within, rest⟩
    · cases more with
      | nil => exact ⟨[], by simpa using within.symm, rest⟩
      | cons c more =>
        obtain ⟨rfl, -⟩ := List.cons.inj rest
        have member : '\n' ∈ text.takeWhile isIndent := by
          rw [within]
          exact List.mem_append_right _ List.mem_cons_self
        exact absurd (blank _ member) (by decide)
    · exact ⟨more, within, rest.symm⟩
  obtain ⟨body, whole, rest⟩ := split
  have head : (body ++ ['\n']).head? = (text.dropWhile isIndent ++ behind).head? := by
    rw [← rest]
    cases body <;> rfl
  rw [whole, List.append_assoc] at own
  exact ⟨_, _, body, parts.symm, blank, whole,
    (Scanner.behindIndent_eq below own indents (head ▸ stops)).1, rest⟩

/-- A filler before lines inside brackets is passed over. -/
theorem passes_line (filler : Filler depth text) (begins : behind.head?.any startsLogical = true)
    (deep : 0 < depth) {below : List Line} {number : Nat} {indents : List Nat}
    (sound : (Spot.line below number indents depth).Sound bare)
    (front : linesText below = text ++ behind) :
    (Spot.line below number indents depth).Reaches behind indents depth := by
  induction size : text.length using Nat.strong_induction_on generalizing text below number indents
    with
  | h n ih =>
    cases below with
    | nil =>
      have none_ := (List.append_eq_nil_iff.1 front.symm).2
      rw [none_] at begins
      contradiction
    | cons line below =>
      obtain ⟨own, lineText, unbroken⟩ := SoundLines.body sound
      obtain ⟨indent, left, body, rfl, blank, rfl, place, rest⟩ :=
        indent_split begins lineText front
      have later := filler.of_blanks blank
      have clean : '\n' ∉ body := fun member => unbroken (List.mem_append_right _ member)
      have enough : left.length ≤ n := by
        rw [← size, List.length_append]
        exact Nat.le_add_left _ _
      cases idles : Scanner.idleTokens? (Scanner.behindIndent line below) with
      | some made =>
        have step : Spot.Step (.line (line :: below) number indents depth) made
            (.line below line.number indents depth) := .idle idles
        rw [place] at idles
        obtain ⟨further, passed, shorter, more⟩ := later.of_idle begins idles ⟨body, rfl, clean⟩
          (by rw [← rest]; simp)
        refine .step step (fun token member => ?_)
          (ih _ (Nat.lt_of_lt_of_le shorter enough) passed (step.sound sound) more rfl)
        rcases Scanner.idleTokens_kind idles token member with kind | kind <;>
          rw [Token.isSignificant, kind] <;> rfl
      | none =>
        have tracked : track indents depth line below = .ok ([], indents) := by
          rw [track, if_neg (Nat.pos_iff_ne_zero.1 deep)]
        have step : Spot.Step (.line (line :: below) number indents depth) []
            (.inside (Scanner.behindIndent line below) indents depth) := .enter idles tracked
        have inside := step.sound sound
        rw [place] at step inside
        refine .step step (fun _ member => absurd member List.not_mem_nil)
          (later.passes_inside begins (fun further shorter passed _ _ _ _ sound more => ?_) inside
            (by rw [Cursor.text, List.append_assoc]; exact rest))
        exact ih _ (Nat.lt_of_lt_of_le shorter enough) passed sound more rfl

/-- A filler in front of a text that starts a logical line is passed over. -/
theorem passes (filler : Filler depth text) (begins : behind.head?.any startsLogical = true)
    {cursor : Cursor} {indents : List Nat} (sound : (Spot.inside cursor indents depth).Sound bare)
    (front : cursor.text = text ++ behind) :
    (Spot.inside cursor indents depth).Reaches behind indents depth :=
  filler.passes_inside begins
    (fun _ _ shorter deep _ _ _ sound front => shorter.passes_line begins deep sound front)
    sound front

end Filler

/-- A line is its indentation, which is blank, and what is behind it. -/
theorem Scanner.line_indent (line : Line) (below : List Line) :
    ∃ indent, (∀ c ∈ indent, c ∈ blanks) ∧
      line.text.toList = indent ++ (behindIndent line below).rest :=
  ⟨line.text.toList.takeWhile isIndent,
    fun _ member => mem_blanks_of_isIndent (List.mem_takeWhile_imp member),
    List.takeWhile_append_dropWhile.symm⟩

/-- A line without statements is a filler inside brackets. -/
theorem Filler.idle_line {depth : Nat} {line : Line} {below : List Line} {made : List Token}
    {bare : Bool} {rest : List Char}
    (idles : Scanner.idleTokens? (Scanner.behindIndent line below) = some made)
    (sound : SoundLines bare (line :: below)) (deep : 0 < depth) (later : Filler depth rest) :
    Filler depth (line.text.toList ++ rest) := by
  have inside : (Scanner.behindIndent line below).Inside := Scanner.behindIndent_inside sound.1.1
  obtain ⟨body, left, unbroken⟩ := inside.body sound.1.1 sound.1.2.1
  obtain ⟨indent, blank, whole⟩ := Scanner.line_indent line below
  rw [whole, List.append_assoc]
  refine .behind_blanks blank ?_
  cases Scanner.idles_of_idleTokens? idles with
  | blank empty =>
    rcases empty with front | front
    · rw [front]
      exact .feed deep later
    · rw [front]
      exact .blank (by decide) (.feed deep later)
  | comment hash =>
    rw [left] at hash ⊢
    cases body with
    | nil => exact absurd (Option.some.inj hash) (by decide)
    | cons c body =>
      obtain rfl := Option.some.inj hash
      rw [List.append_assoc]
      exact .comment deep (by simpa using unbroken) later

namespace Spot

variable {bare : Bool} {before between behind : Spot} {found tokens : List Token} {depth : Nat}

/-- The place is in brackets, or inside a line outside of them. -/
def Stays (depth : Nat) (spot : Spot) : Prop :=
  0 < depth ∨ ∃ cursor indents, spot = .inside cursor indents 0

/-- A token that ends no statement but in brackets, and that is no lexeme. -/
def Quiet (depth : Nat) (token : Token) : Prop :=
  token.kind = .comment ∨ token.kind = .softBreak ∨ token.kind = .newline ∧ 0 < depth

/-- A step that finds no tokens but comments and ends of lines stays outside brackets in its line. -/
theorem Step.stays (step : Step before found between) (sound : before.Sound bare)
    (quiet : ∀ token ∈ found, Quiet depth token) (stays : before.Stays depth) :
    between.Stays depth := by
  rcases stays with deep | ⟨cursor, indents, rfl⟩
  · exact .inl deep
  · cases step with
    | @token _ next _ deeper _ found step =>
      have behind := (Cursor.step_token step).2.2
      have plain : found.kind ≠ .operator := by
        rcases quiet found List.mem_cons_self with kind | kind | ⟨kind, -⟩ <;> simp [kind]
      rw [Token.depthBehind, if_neg plain] at behind
      exact .inr ⟨_, _, by rw [behind]⟩
    | skip => exact .inr ⟨_, _, rfl⟩
    | last step =>
      obtain ⟨tail, -, rfl⟩ := Cursor.step_last step sound.1.nonempty
      refine .inl ?_
      simpa [Quiet, Cursor.token] using quiet _ List.mem_cons_self

/-- In front of a filler such a step goes over a filler. A comment behind tokens is one together with
the end of its line. -/
theorem Step.filler (step : Step before found between) (sound : before.Sound bare)
    (quiet : ∀ token ∈ found, Quiet depth token) (stays : before.Stays depth)
    {gap tail : List Char} (filler : Filler depth gap) (rest : between.text = gap ++ tail)
    (ends : ∀ cursor indents open_, between = .inside cursor indents open_ → gap = [] →
      tail.head? = some '\n' → ∀ token ∈ found, token.kind ≠ .comment) :
    ∃ whole, Filler depth whole ∧ before.text = whole ++ tail := by
  cases step with
  | @idle line below number open_ indents found idles =>
    have deep := stays.resolve_right fun ⟨_, _, same⟩ => by contradiction
    refine ⟨_, .idle_line idles sound deep filler, ?_⟩
    rw [List.append_assoc, ← rest]
    rfl
  | @enter line below number open_ indents kept found logical tracked =>
    obtain ⟨indent, blank, whole⟩ := Scanner.line_indent line below
    refine ⟨_, filler.behind_blanks blank, ?_⟩
    rw [List.append_assoc, ← rest]
    show linesText (line :: below) = _
    rw [linesText_cons, whole, List.append_assoc]
    rfl
  | @token cursor next open_ deeper indents found step =>
    have kind : found.kind = .comment := by
      have finds := cursor.step_finds open_
      rw [step] at finds
      have quiet := quiet found List.mem_cons_self
      cases finds <;> simp_all [Quiet, Cursor.token]
    obtain ⟨body, unbroken, front, rfl⟩ := Sound.comment sound step kind
    have some_ : gap ≠ [] := by
      rintro rfl
      refine ends _ _ _ rfl rfl ?_ found List.mem_cons_self kind
      rw [List.nil_append] at rest
      rw [← rest]
      rfl
    -- What is left behind the comment is the end of its line.
    obtain ⟨c, gap, rfl⟩ := List.exists_cons_of_ne_nil some_
    obtain ⟨rfl, more⟩ : '\n' = c ∧ linesText cursor.below = gap ++ tail := List.cons.inj rest
    obtain ⟨deep, filler⟩ := filler.of_feed
    refine ⟨_, .comment deep unbroken filler, ?_⟩
    show cursor.text = _
    rw [Cursor.text, front, more]
    simp
  | @skip cursor next open_ indents step =>
    rcases Cursor.step_skip step with ⟨c, after, member, front, rfl⟩ | ⟨line, below, front, lines, rfl⟩
    · refine ⟨c :: gap, .blank member filler, ?_⟩
      rw [List.cons_append, ← rest]
      show cursor.text = _
      rw [Cursor.text, front]
      rfl
    · refine ⟨'\\' :: '\n' :: gap, .continued filler, ?_⟩
      rw [List.cons_append, List.cons_append, ← rest]
      show cursor.text = _
      rw [Cursor.text, front, lines]
      rfl
  | @last cursor open_ indents found step =>
    have deep : 0 < depth := by
      rcases Step.stays (.last step) sound quiet stays with deep | ⟨_, _, same⟩
      · exact deep
      · contradiction
    obtain ⟨after, front, rfl⟩ := Cursor.step_last step sound.1.nonempty
    have whole : cursor.text = '\n' :: (after ++ linesText cursor.below) := by
      rw [Cursor.text, front]
      rfl
    obtain ⟨only, -⟩ := Sound.rest_of_feed sound whole
    refine ⟨'\n' :: gap, .feed deep filler, ?_⟩
    rw [List.cons_append, ← rest]
    show cursor.text = _
    rw [Cursor.text, only]
    rfl

/-- Where a scan finds no tokens but comments and ends of lines it goes over a filler. Outside
brackets it stays in its line. -/
theorem Comes.filler (way : Comes before tokens behind) (sound : before.Sound bare)
    (quiet : ∀ token ∈ tokens, Quiet depth token) (stays : before.Stays depth)
    (ends : behind.text.head? ≠ some '\n') :
    ∃ gap, Filler depth gap ∧ before.text = gap ++ behind.text := by
  induction way with
  | stop => exact ⟨[], .nil, rfl⟩
  | @step before between behind found tokens step later ih =>
    obtain ⟨here, below⟩ := List.forall_mem_append.1 quiet
    obtain ⟨gap, filler, rest⟩ :=
      ih (step.sound sound) below (step.stays sound here stays) ends
    refine step.filler sound here stays filler rest fun _ _ _ _ _ feed => ?_
    exact absurd feed ends

end Spot

end Offside
