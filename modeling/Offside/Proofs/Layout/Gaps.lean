import Offside.Proofs.Layout.Splices

/-!
# Gaps between tokens

A gap is what stands between two tokens of a logical line, and there is one between any two lexemes
that are neighbours (`exists_gap`). Any other text of this kind leaves the tokens around it the
tokens that they were (`Gap.tokenize_other`), but for one case: a backslash that is a token of its
own is no token in front of the end of a line.
-/
namespace Offside

open Text Lexeme

/-- Two tokens of the text `front ++ gap ++ back` and the gap between them. The first token ends
where the front ends, the second one starts where the back starts, and comments and ends of lines in
brackets are all that is between them. -/
structure Gap (front gap back : String) where
  /-- The first token. -/
  first : Token
  /-- The second token. -/
  second : Token
  /-- The tokens in front of the first one. -/
  upper : List Token
  /-- The tokens in the gap. -/
  between : List Token
  /-- The place in front of the first token. -/
  start : Cursor
  /-- The place behind it. -/
  left : Cursor
  /-- The place in front of the second token. -/
  right : Cursor
  /-- The place behind it. -/
  next : Cursor
  /-- The widths of the open blocks. -/
  indents : List Nat
  /-- The same behind the gap. -/
  otherIndents : List Nat
  /-- The number of open brackets in front of the first token. -/
  outer : Nat
  /-- The number of open brackets in front of the gap. -/
  depth : Nat
  /-- The same behind the gap. -/
  otherDepth : Nat
  /-- The number of open brackets behind the second token. -/
  inner : Nat
  /-- The scan comes to the first token. -/
  reaches : (Spot.start (front ++ gap ++ back)).Comes upper (.inside start indents outer)
  /-- It finds this token. -/
  opens : start.step outer = .token first left depth
  /-- Nothing significant is found in the gap. -/
  passes : Spot.Comes (.inside left indents depth) between (.inside right otherIndents otherDepth)
  /-- The second token is found. -/
  closes : right.step otherDepth = .token second next inner
  /-- The first token is significant. -/
  significant : first.isSignificant = true
  /-- So is the second one. -/
  otherSignificant : second.isSignificant = true
  /-- The tokens in the gap are not. -/
  quiet : ∀ token ∈ between, token.isSignificant = false
  /-- The gap and the back are behind the first token. -/
  leaves : left.text = normalizeText (gap ++ back).toList
  /-- The back is behind the gap. -/
  ends : right.text = normalizeText back.toList
  /-- No line end is parted in front of the gap. This does not follow from the rest: in `(\r\nx`
  the front `(\r` leaves what the front `(` leaves, as line ends are unified. -/
  whole : front.toList.getLast? ≠ some '\r'

/-- The tokens at the end of a text differ in their lines only. -/
theorem Spot.closing_same (indents : List Nat) (number last : Nat) :
    List.Forall₂ Token.Same (Spot.closing indents number) (Spot.closing indents last) := by
  refine List.rel_append ?_ (.cons ⟨rfl, rfl⟩ .nil)
  rw [Scanner.dedents, Scanner.dedents, List.forall₂_map_left_iff, List.forall₂_map_right_iff,
    List.forall₂_same]
  exact fun _ _ => ⟨rfl, rfl⟩

/-- The tokens at the end of a text are no lexemes. -/
theorem Spot.closing_isAside {indents : List Nat} {number : Nat} :
    ∀ token ∈ closing indents number, token.kind.isAside = true := by
  intro token member
  rcases List.mem_append.1 member with member | member
  · obtain ⟨-, -, rfl⟩ := List.mem_map.1 member
    rfl
  · obtain rfl := List.mem_singleton.1 member
    rfl

/-- A text is divided behind a token that is no comment: what is in front of it ends in a character
that is neither blank nor a line feed. -/
theorem Spot.Comes.behind_token {source : String} {upper : List Token} {cursor next : Cursor}
    {indents : List Nat} {depth deeper : Nat} {found : Token}
    (way : Comes (start source) upper (.inside cursor indents depth))
    (step : cursor.step depth = .token found next deeper) (other : found.kind ≠ .comment) :
    ∃ taken, normalizeText source.toList = taken ++ next.text ∧
      ∃ c ∈ taken.getLast?, c ∉ blanks ∧ c ≠ '\n' := by
  have sound := way.sound (start_sound source)
  obtain ⟨passed, whole⟩ := way.text (start_sound source)
  have takes := cursor.step_takes depth (fun line member => (sound.2.whole line member).1)
    (fun line member => (sound.2.whole line member).2) sound.1
  rw [step] at takes
  have takes : (Spot.inside cursor indents depth).text = found.written ++ next.text := takes
  have text : (start source).text = normalizeText source.toList := linesText_physicalLines _
  rw [takes, ← List.append_assoc, text] at whole
  obtain ⟨c, ends, apart⟩ := Cursor.step_ends step other
  rw [← Cursor.step_written step] at ends
  refine ⟨passed ++ found.written, whole, c, ?_, apart⟩
  rw [Option.mem_def, List.getLast?_append, Option.mem_def.1 ends, Option.some_or]

/-- A lexeme stands in front of the tokens at the end of a text. -/
theorem Spot.exists_of_closing {front lower made : List Token} {lexeme : Token}
    {indents : List Nat} {number : Nat} (plain : lexeme.kind.isAside = false)
    (whole : front ++ lexeme :: lower = made ++ closing indents number) :
    ∃ rest, made = front ++ lexeme :: rest := by
  have outside : lexeme ∉ closing indents number := by
    intro member
    rw [closing_isAside lexeme member] at plain
    contradiction
  rcases List.append_eq_append_iff.1 whole with ⟨more, rfl, ends⟩ | ⟨more, -, ends⟩
  · cases more with
    | nil => exact absurd (List.mem_of_mem_head? (congrArg List.head? ends.symm)) outside
    | cons token rest =>
      obtain ⟨rfl, -⟩ := List.cons.inj ends
      exact ⟨rest, rfl⟩
  · exact absurd (ends ▸ List.mem_append_right _ List.mem_cons_self) outside

/-- In front of a token that is no comment, a text starts as a logical line does. -/
theorem Cursor.text_starts {cursor next : Cursor} {depth deeper : Nat} {found : Token}
    (step : cursor.step depth = .token found next deeper) (other : found.kind ≠ .comment) :
    cursor.text.head?.any startsLogical = true := by
  have starts := Cursor.step_starts step other
  rw [Cursor.text]
  cases front : cursor.rest with
  | nil => simp [front] at starts
  | cons c rest => simpa [front] using starts

/-- A text that starts as a logical line does has more than line feeds. -/
theorem exists_of_starts {text : List Char} (starts : text.head?.any startsLogical = true) :
    ∃ c ∈ text, c ≠ '\n' := by
  obtain ⟨c, first, logical⟩ := (Option.any_eq_true _ _).1 starts
  refine ⟨c, List.mem_of_mem_head? first, ?_⟩
  rintro rfl
  contradiction

/-- Two lexemes of a text that scans have a gap between them if nothing significant is there. -/
theorem exists_gap {source : String} {file : Option String} {upper between lower : List Token}
    {first second : Token}
    (scanned : tokenize source file = .ok (upper ++ first :: (between ++ second :: lower)))
    (lexeme : first.kind.isAside = false) (otherLexeme : second.kind.isAside = false)
    (quiet : ∀ token ∈ between, token.isSignificant = false) :
    ∃ front gap back, source = front ++ gap ++ back ∧ ∃ parts : Gap front gap back,
      parts.first = first ∧ parts.second = second ∧ parts.upper = upper ∧
        parts.between = between := by
  obtain ⟨made, number, indents, depth, way, tokens⟩ := tokenize_iff_comes.1 scanned
  rw [← List.cons_append, ← List.append_assoc] at tokens
  obtain ⟨rest, rfl⟩ := Spot.exists_of_closing otherLexeme tokens
  rw [List.append_assoc, List.cons_append] at way
  -- The scan comes to the first lexeme, and then to the second one.
  obtain ⟨start, left, indents, outer, depth, reaches, opens, later⟩ := way.at_token lexeme
  obtain ⟨right, next, otherIndents, otherDepth, inner, passes, closes, -⟩ :=
    later.at_token otherLexeme
  obtain ⟨taken, whole, last, ends, solid, -⟩ :=
    reaches.behind_token opens (Kind.of_isAside lexeme).2.2
  have sound := (reaches.trans (Spot.Step.token opens).comes).sound (Spot.start_sound source)
  obtain ⟨passed, parts⟩ := passes.text sound
  have parts : left.text = passed ++ right.text := parts
  obtain ⟨c, member, differs⟩ :=
    exists_of_starts (Cursor.text_starts closes (Kind.of_isAside otherLexeme).2.2)
  -- The text is divided as it is read, behind the first lexeme and in front of the second one.
  obtain ⟨front, lowerText, split, upperText, leaves⟩ :=
    exists_split_normalizeText whole (parts ▸ List.mem_append_right _ member) differs
  obtain ⟨gap, back, rfl, -, backText⟩ :=
    exists_split_normalizeText (leaves.trans parts) member differs
  have text : source = .ofList front ++ .ofList gap ++ .ofList back := by
    rw [← String.ofList_append, ← String.ofList_append, List.append_assoc, ← split,
      String.ofList_toList]
  refine ⟨.ofList front, .ofList gap, .ofList back, text, ⟨first, second, upper, between, start,
    left, right, next, indents, otherIndents, outer, depth, otherDepth, inner, text ▸ reaches, opens,
    passes, closes, Token.isSignificant_of_lexeme lexeme,
    Token.isSignificant_of_lexeme otherLexeme, quiet, ?leaves, ?ends, ?whole⟩, rfl, rfl, rfl, rfl⟩
  case leaves => rw [← String.ofList_append, String.toList_ofList, leaves]
  case ends => rw [String.toList_ofList, backText]
  case whole =>
    rw [String.toList_ofList, ← unifyBreaks_getLast?, upperText, Option.mem_def.1 ends]
    rintro ⟨rfl⟩
    exact solid (by decide)

/-- A text that starts with a line feed starts with it when its line ends are unified. -/
theorem normalizeText_feed (rest : List Char) : (normalizeText ('\n' :: rest)).head? = some '\n' := by
  have unified : unifyBreaks ('\n' :: rest) = '\n' :: unifyBreaks rest := by
    rw [unifyBreaks_cons, if_neg (by simp)]
  rw [normalizeText, unified]
  split <;> rfl

namespace Gap

variable {front gap back other : String} (parts : Gap front gap back)

include parts

/-- The places at which the tokens are found are in lines as they are read. -/
theorem sound : (Spot.inside parts.start parts.indents parts.outer).Sound
      (Spot.endsBare (front ++ gap ++ back).toList) ∧
    (Spot.inside parts.left parts.indents parts.depth).Sound
      (Spot.endsBare (front ++ gap ++ back).toList) ∧
    (Spot.inside parts.right parts.otherIndents parts.otherDepth).Sound
      (Spot.endsBare (front ++ gap ++ back).toList) := by
  have start := parts.reaches.sound (Spot.start_sound _)
  have left := (Spot.Step.token parts.opens).sound start
  exact ⟨start, left, parts.passes.sound left⟩

/-- The back starts as a logical line does. -/
theorem begins : (normalizeText back.toList).head?.any startsLogical = true := by
  rw [← parts.ends]
  exact Cursor.text_starts parts.closes (Token.kind_ne_comment parts.otherSignificant)

/-- The back is not empty. -/
theorem back_ne : back.toList ≠ [] := by
  intro empty
  have starts := parts.begins
  rw [empty] at starts
  contradiction

/-- No line end is parted in front of the back. -/
theorem back_head : back.toList.head? ≠ some '\n' := by
  intro feed
  obtain ⟨rest, text⟩ := List.head?_eq_some_iff.1 feed
  have starts := parts.begins
  rw [text, normalizeText_feed] at starts
  contradiction

/-- The text behind the front is what the front leaves. -/
theorem text : normalizeText (front ++ gap ++ back).toList =
    unifyBreaks front.toList ++ parts.left.text := by
  have some_ : (gap ++ back).toList ≠ [] := by
    rw [String.toList_append]
    exact List.append_ne_nil_of_right_ne_nil _ parts.back_ne
  rw [parts.leaves, String.append_assoc, String.toList_append,
    normalizeText_append some_ fun last => absurd last parts.whole]

/-- So it is with another gap. -/
theorem other_text : normalizeText (front ++ other ++ back).toList =
    unifyBreaks front.toList ++ (unifyBreaks other.toList ++ parts.right.text) := by
  have some_ : (other ++ back).toList ≠ [] := by
    rw [String.toList_append]
    exact List.append_ne_nil_of_right_ne_nil _ parts.back_ne
  rw [parts.ends, String.append_assoc, String.toList_append,
    normalizeText_append some_ fun last => absurd last parts.whole, String.toList_append,
    normalizeText_append parts.back_ne fun _ => parts.back_head]

/-- The front ends in a character that is neither blank nor a line feed. -/
theorem solid : ∃ c ∈ (unifyBreaks front.toList).getLast?, c ∉ blanks ∧ c ≠ '\n' := by
  obtain ⟨taken, whole, solid⟩ := parts.reaches.behind_token parts.opens
    (Token.kind_ne_comment parts.significant)
  rw [parts.text] at whole
  rwa [List.append_cancel_right whole]

/-- The scan goes on behind the gap with the blocks and brackets in front of it. -/
theorem keeps : parts.otherIndents = parts.indents ∧ parts.otherDepth = parts.depth := by
  have plain : ∀ token ∈ parts.between, token.kind = .comment ∨ token.kind = .softBreak :=
    fun token member => Token.not_isSignificant_iff.1 (parts.quiet token member)
  constructor
  · refine parts.passes.indents fun token member => ?_
    rcases plain token member with kind | kind <;> simp [kind]
  · have depths := parts.passes.depth
    rw [depthBehind_of_plain] at depths
    · exact depths.symm
    · intro token member
      rcases plain token member with kind | kind <;> simp [kind]

/-- The gap is a filler. -/
theorem filler : ∃ text, Filler parts.depth text ∧ parts.left.text = text ++ parts.right.text := by
  have quiet : ∀ token ∈ parts.between, token.kind = .comment ∨ token.kind = .softBreak ∨
      token.kind = .newline ∧ 0 < parts.depth := fun token member =>
    (Token.not_isSignificant_iff.1 (parts.quiet token member)).imp_right .inl
  have level : 0 < parts.depth ∨ ∃ cursor indents,
      Spot.inside parts.left parts.indents parts.depth = .inside cursor indents 0 := by
    rcases Nat.eq_zero_or_pos parts.depth with flat | deep
    · exact .inr ⟨_, _, by rw [flat]⟩
    · exact .inl deep
  have ends : parts.right.text.head? ≠ some '\n' := by
    have starts := parts.begins
    intro feed
    rw [← parts.ends, feed] at starts
    contradiction
  exact parts.passes.filler parts.sound.2.1 quiet level ends

/-- The seam behind the front, where the text with another gap goes on in another way. -/
theorem exists_seam (some_ : gap ≠ "") (otherSome : other ≠ "")
    (filler : Filler parts.depth other.toList) :
    ∃ seam : Seam,
      seam.Divides parts.left.text (unifyBreaks other.toList ++ parts.right.text) ∧
      (Spot.start (front ++ gap ++ back)).Beside seam 0 (Spot.start (front ++ other ++ back)) := by
  obtain ⟨passed, own, split⟩ := parts.filler
  have rightSome : parts.right.text ≠ [] := by
    intro empty
    have starts := parts.begins
    rw [← parts.ends, empty] at starts
    contradiction
  have passedSome : passed ≠ [] := by
    rintro rfl
    have whole := parts.leaves
    rw [split, parts.ends, String.toList_append, normalizeText_append parts.back_ne
      fun _ => parts.back_head] at whole
    have empty := List.append_cancel_right whole
    exact unifyBreaks_ne_nil (mt String.toList_eq_nil_iff.1 some_) empty.symm
  have unifiedSome := unifyBreaks_ne_nil (mt String.toList_eq_nil_iff.1 otherSome)
  have stops : Stops parts.left.text := by
    rw [split]
    exact own.stops fun none_ => absurd none_ passedSome
  have otherStops : Stops (unifyBreaks other.toList ++ parts.right.text) :=
    filler.unifyBreaks.stops fun none_ => absurd none_ unifiedSome
  obtain ⟨seam, divides, beside⟩ := LinesBeside.exists_seam (Spot.start_sound (front ++ gap ++ back))
    (Spot.start_sound (front ++ other ++ back))
    ((linesText_physicalLines _).trans parts.text)
    ((linesText_physicalLines _).trans parts.other_text)
    (by rw [split]; exact List.append_ne_nil_of_left_ne_nil passedSome _)
    (List.append_ne_nil_of_left_ne_nil unifiedSome _) parts.solid stops otherStops
  exact ⟨seam, divides, .line beside (.inl rfl)⟩

/-- With another gap the scan comes to the second token with the same tokens. -/
theorem reaches_second (some_ : gap ≠ "") (otherSome : other ≠ "")
    (filler : Filler parts.depth other.toList)
    (apart : parts.first.value = "\\" → (unifyBreaks other.toList).head? ≠ some '\n') :
    ∃ upper found made place,
      (Spot.start (front ++ other ++ back)).Comes (upper ++ found :: made)
        (.inside place parts.indents parts.depth) ∧
      place.text = parts.right.text ∧ List.Forall₂ Token.Same parts.upper upper ∧
      parts.first.Same found ∧ ∀ token ∈ made, token.isSignificant = false := by
  obtain ⟨seam, divides, beside⟩ := parts.exists_seam some_ otherSome filler
  obtain ⟨-, leftSound, -⟩ := parts.sound
  have size := divides.size
  have shorter : parts.left.size < parts.start.size := Cursor.step_size (by rw [parts.opens]; rfl)
  -- The tokens up to the first one stand before the seam.
  obtain ⟨upper, onward, way, same, place⟩ := parts.reaches.beside (Spot.start_sound _) beside
    (.zero _ _) fun _ => size ▸ shorter
  cases place with
  | @inside _ cursor _ _ before =>
    have passes : (parts.start.step parts.outer).Passes seam 0 parts.outer parts.start.below := by
      rw [parts.opens]
      refine ⟨rfl, fun _ => ⟨Nat.le_of_eq size, fun joined => ?_⟩⟩
      rcases joined with comment | ⟨slash, feed⟩
      · exact absurd comment (Token.kind_ne_comment parts.significant)
      · refine absurd ?_ (apart slash)
        have front := divides.otherText
        rw [feed] at front
        obtain ⟨c, rest, unified⟩ := List.exists_cons_of_ne_nil
          (unifyBreaks_ne_nil (mt String.toList_eq_nil_iff.1 otherSome))
        rw [unified] at front ⊢
        obtain ⟨rfl, -⟩ := List.cons.inj front
        rfl
    have taken := before.step passes
    rw [parts.opens] at taken
    cases step : cursor.step (parts.outer + 0) with
    | token found next deeper =>
      rw [step] at taken
      cases taken with
      | token first behind =>
        have text := behind.at_seam divides.some_ size.symm
        rw [divides.otherText] at text
        have whole := way.trans (Spot.Step.token step).comes
        have sound := whole.sound (Spot.start_sound _)
        have begins := parts.begins
        rw [← parts.ends] at begins
        obtain ⟨made, place, passed, left, quiet⟩ :=
          filler.unifyBreaks.passes begins sound text
        refine ⟨upper, found, made, place, ?_, left, same, first, quiet⟩
        have all := whole.trans passed
        rw [List.append_assoc] at all
        exact all
    | skip | last | fault =>
      rw [step] at taken
      cases taken

/-- The last line ends in the same way with another gap. -/
theorem endsBare_other : Spot.endsBare (front ++ other ++ back).toList =
    Spot.endsBare (front ++ gap ++ back).toList := by
  have last (text : String) : Spot.endsBare (text ++ back).toList = Spot.endsBare back.toList := by
    rw [Spot.endsBare, Spot.endsBare, String.toList_append,
      List.getLast?_append_of_ne_nil _ parts.back_ne]
  rw [last, last]

/-- With another gap the same significant tokens are found. -/
theorem tokenize_other {file : Option String} {tokens : List Token}
    (scanned : tokenize (front ++ gap ++ back) file = .ok tokens) (some_ : gap ≠ "")
    (otherSome : other ≠ "") (filler : Filler parts.depth other.toList)
    (apart : parts.first.value = "\\" → (unifyBreaks other.toList).head? ≠ some '\n') :
    ∃ others, tokenize (front ++ other ++ back) file = .ok others ∧
      List.Forall₂ Token.Same (tokens.filter Token.isSignificant)
        (others.filter Token.isSignificant) := by
  obtain ⟨all, number, indents, depth, whole, rfl⟩ := tokenize_iff_comes.1 scanned
  obtain ⟨-, -, rightSound⟩ := parts.sound
  have first := parts.reaches.trans (Spot.Step.token parts.opens).comes
  obtain ⟨rest, rfl, lower⟩ := (first.trans parts.passes).split whole
  obtain ⟨upper, found, made, place, way, text, same, here, quiet⟩ :=
    parts.reaches_second some_ otherSome filler apart
  have sound := way.sound (Spot.start_sound _)
  rw [parts.endsBare_other] at sound
  obtain ⟨widths, depths⟩ := parts.keeps
  have beside : (Spot.inside parts.right parts.otherIndents parts.otherDepth).Beside .none 0
      (.inside place parts.indents parts.depth) := by
    rw [widths, depths]
    exact .inside (.of_text rightSound sound text)
  obtain ⟨others, last, onward, later⟩ := lower.same_text rightSound beside
  refine ⟨_, tokenize_iff_comes.2 ⟨_, last, indents, depth, way.trans onward, rfl⟩, ?_⟩
  have none_ {tokens : List Token} (quiet : ∀ token ∈ tokens, token.isSignificant = false) :
      tokens.filter Token.isSignificant = [] :=
    List.filter_eq_nil_iff.2 fun token member => by simp [quiet token member]
  have lookedAt : found.isSignificant = parts.first.isSignificant := by
    rw [Token.isSignificant, Token.isSignificant, here.kind]
  have closing := Token.Same.filter (Spot.closing_same indents number last)
  simp only [List.filter_append, List.filter_cons, none_ parts.quiet, none_ quiet, lookedAt,
    parts.significant, if_true, List.filter_nil, List.append_nil]
  exact List.rel_append (List.rel_append (List.rel_append (Token.Same.filter same)
    (.cons here .nil)) (Token.Same.filter later)) closing

end Gap

end Offside
