import Offside.Proofs.Layout.Fillers
import Offside.Proofs.Layout.Seams

/-!
# Texts with a part replaced

A text is divided where a token ends (`Cursor.step_ends`) and where the next one starts
(`Cursor.step_starts`), as it is read and so as it is written (`exists_split_normalizeText`). Two
texts that start in the same way are the same up to a seam (`LinesBeside.exists_seam`,
`Cursor.Beside.exists_seam`), and from places with the same text behind them the same tokens are
found (`Spot.Comes.same_text`).
-/
namespace Offside

open Text Lexeme

section breaks

/-- The last character of a text stays when the line ends are unified. -/
theorem unifyBreaks_getLast? (text : List Char) :
    (unifyBreaks text).getLast? = text.getLast? := by
  induction text with
  | nil => rfl
  | cons c rest ih =>
    rw [unifyBreaks_cons, List.getLast?_cons]
    split
    · rename_i returns
      rw [ih]
      cases rest with
      | nil => exact absurd returns.2 (by simp)
      | cons d rest => simp [List.getLast?_cons]
    · rw [List.getLast?_cons, ih]

/-- A text does not become empty when the line ends are unified. -/
theorem unifyBreaks_ne_nil {text : List Char} (some_ : text ≠ []) : unifyBreaks text ≠ [] := by
  intro empty
  have last := unifyBreaks_getLast? text
  rw [empty] at last
  exact some_ (List.getLast?_eq_none_iff.1 last.symm)

/-- The line ends of two texts are unified one by one, if no line end is parted. -/
theorem unifyBreaks_append {front back : List Char}
    (whole : front.getLast? = some '\r' → back.head? ≠ some '\n') :
    unifyBreaks (front ++ back) = unifyBreaks front ++ unifyBreaks back := by
  induction front with
  | nil => rfl
  | cons c front ih =>
    cases front with
    | nil =>
      rw [List.singleton_append, unifyBreaks_cons, unifyBreaks_cons c, if_neg, if_neg]
      · rfl
      · exact fun returns => absurd returns.2 (by simp)
      · rintro ⟨rfl, feed⟩
        exact whole rfl feed
    | cons d front =>
      have later := ih fun last => whole (by rw [List.getLast?_cons, last]; rfl)
      have head : (d :: front ++ back).head? = (d :: front).head? := rfl
      rw [List.cons_append, unifyBreaks_cons, unifyBreaks_cons c, later, head]
      split <;> rfl

/-- The text of two parts, if no line end is parted. -/
theorem normalizeText_append {front back : List Char} (some_ : back ≠ [])
    (whole : front.getLast? = some '\r' → back.head? ≠ some '\n') :
    normalizeText (front ++ back) = unifyBreaks front ++ normalizeText back := by
  have last : (front ++ back).getLast? = back.getLast? := List.getLast?_append_of_ne_nil _ some_
  rw [normalizeText, normalizeText, last, unifyBreaks_append whole]
  simp only [List.append_eq_nil_iff, some_, and_false, false_or]
  split
  · rfl
  · exact List.append_assoc _ _ _

/-- Where the text with unified line ends is divided, the text can be divided. -/
theorem exists_split_unifyBreaks {text front back : List Char}
    (split : unifyBreaks text = front ++ back) :
    ∃ upper lower, text = upper ++ lower ∧ unifyBreaks upper = front ∧
      unifyBreaks lower = back := by
  induction text generalizing front with
  | nil =>
    obtain ⟨rfl, rfl⟩ := List.append_eq_nil_iff.1 split.symm
    exact ⟨[], [], rfl, rfl, rfl⟩
  | cons c rest ih =>
    cases front with
    | nil => exact ⟨[], c :: rest, rfl, rfl, split⟩
    | cons d front =>
      rw [unifyBreaks_cons] at split
      by_cases returns : c = '\r' ∧ rest.head? = some '\n'
      · rw [if_pos returns] at split
        obtain ⟨upper, lower, rfl, same, behind⟩ := ih split
        have some_ : upper ≠ [] := by
          rintro rfl
          contradiction
        rw [List.head?_append_of_ne_nil _ some_] at returns
        refine ⟨c :: upper, lower, rfl, ?_, behind⟩
        rw [unifyBreaks_cons, if_pos returns, same]
      · rw [if_neg returns, List.cons_append] at split
        obtain ⟨rfl, later⟩ := List.cons.inj split
        obtain ⟨upper, lower, rfl, rfl, behind⟩ := ih later
        refine ⟨c :: upper, lower, rfl, ?_, behind⟩
        rw [unifyBreaks_cons, if_neg]
        rintro ⟨rfl, feed⟩
        exact returns ⟨rfl, by rw [List.head?_append, feed, Option.some_or]⟩

/-- Where the text is divided as it is read, it can be divided, unless only the end of its last line
is left. -/
theorem exists_split_normalizeText {text front back : List Char}
    (split : normalizeText text = front ++ back) {c : Char} (member : c ∈ back)
    (solid : c ≠ '\n') :
    ∃ upper lower, text = upper ++ lower ∧ unifyBreaks upper = front ∧
      normalizeText lower = back := by
  rw [normalizeText] at split
  have ends {upper lower : List Char} (some_ : lower ≠ []) :
      (upper ++ lower).getLast? = lower.getLast? := List.getLast?_append_of_ne_nil _ some_
  split at split
  · rename_i ended
    obtain ⟨upper, lower, rfl, same, behind⟩ := exists_split_unifyBreaks split
    have some_ : lower ≠ [] := by
      rintro rfl
      rw [← behind] at member
      contradiction
    have ended : lower.getLast? = some '\n' := by
      rw [← ends some_]
      exact ended.resolve_left (List.append_ne_nil_of_right_ne_nil _ some_)
    refine ⟨upper, lower, rfl, same, ?_⟩
    rw [normalizeText, if_pos (.inr ended), behind]
  · rename_i open_
    obtain ⟨init, last, rfl⟩ := (List.eq_nil_or_concat' back).resolve_left
      (List.ne_nil_of_mem member)
    obtain ⟨whole, same⟩ := List.append_inj' (split.trans (List.append_assoc _ _ _).symm) rfl
    obtain rfl : '\n' = last := (List.cons.inj same).1
    have inside : c ∈ init := by
      rcases List.mem_append.1 member with inside | feed
      · exact inside
      · exact absurd (List.mem_singleton.1 feed) solid
    obtain ⟨upper, lower, rfl, same, behind⟩ := exists_split_unifyBreaks whole
    have some_ : lower ≠ [] := by
      rintro rfl
      rw [← behind] at inside
      contradiction
    refine ⟨upper, lower, rfl, same, ?_⟩
    rw [normalizeText, if_neg, behind]
    rintro (empty | feed)
    · exact some_ empty
    · exact open_ (.inr ((ends some_).trans feed))

end breaks

section tokens

variable {cursor next : Cursor} {depth deeper : Nat} {found : Token}

/-- The last of some characters without breakers is neither blank nor a line feed. -/
theorem solid_of_avoids {taken : List Char} (some_ : taken ≠ []) (avoids : ∀ c ∈ taken, c ∉ breakers) :
    ∃ c ∈ taken.getLast?, c ∉ blanks ∧ c ≠ '\n' := by
  have apart := avoids _ (List.getLast_mem some_)
  refine ⟨_, List.getLast?_eq_some_getLast some_, fun member => apart ?_, fun same => apart ?_⟩
  · exact List.mem_append_right [')', '\\', '\n', '#'] member
  · rw [same]
    decide

/-- A literal ends in its mark. -/
theorem ScansString.getLast? {literal : List Char} (scans : ScansString cursor literal next)
    (opens : cursor.rest.head?.any isQuote = true) :
    ∃ quote, isQuote quote = true ∧ literal.getLast? = some quote := by
  have closes {part : List Char → StringPart} {quote : Char}
      (ends : ∀ text taken rest, part text = .closed taken rest → taken.getLast? = some quote)
      {below : List Line} {line : Line} {text taken : List Char} {place : Cursor}
      (closes : ClosesString part below line text taken place) : taken.getLast? = some quote := by
    induction closes with
    | here found => exact ends _ _ _ found
    | later _ _ ih => rw [List.getLast?_append, ih, Option.some_or]
  cases scans with
  | @triple quote rest taken next front found =>
    have last := closes (fun _ _ _ => longPart_getLast) found
    exact ⟨quote, by simpa [front] using opens, by rw [List.getLast?_append, last, Option.some_or]⟩
  | @single quote rest taken next front apart found =>
    have last := closes (fun _ _ _ => shortPart_getLast) found
    exact ⟨quote, by simpa [front] using opens, by rw [List.getLast?_cons, last]; rfl⟩

/-- The last character of a token that is no comment is neither blank nor a line feed. -/
theorem Cursor.step_ends (step : cursor.step depth = .token found next deeper)
    (other : found.kind ≠ .comment) :
    ∃ c ∈ found.value.toList.getLast?, c ∉ blanks ∧ c ≠ '\n' := by
  have finds := cursor.step_finds depth
  rw [step] at finds
  cases finds with
  | comment => exact absurd rfl other
  | number starts =>
    rw [Cursor.token, String.toList_ofList]
    exact solid_of_avoids (number_ne_nil starts) (number_local.avoids number_lossless _)
  | name starts =>
    obtain ⟨c, tail, front⟩ : ∃ c tail, cursor.rest = c :: tail := by
      cases left : cursor.rest with
      | nil => simp [left] at starts
      | cons c tail => exact ⟨c, tail, rfl⟩
    rw [front] at starts ⊢
    rw [Cursor.token, String.toList_ofList]
    exact solid_of_avoids (name_ne_nil (by simpa using starts))
      (name_local.avoids (Munch.many_lossless _) _)
  | literal front marked opens scanned =>
    obtain ⟨quote, marks, last⟩ := (scanString_eq_ok_iff.1 scanned).getLast? opens
    rw [Cursor.token, String.toList_ofList, List.getLast?_append, last, Option.some_or]
    rw [isQuote, Bool.or_eq_true, beq_iff_eq, beq_iff_eq] at marks
    rcases marks with rfl | rfl
    · exact ⟨_, rfl, by decide, by decide⟩
    · exact ⟨_, rfl, by decide, by decide⟩
  | @operator c tail front differs =>
    rw [Cursor.token, String.toList_ofList, front, Lexeme.operator]
    split
    · rename_i text search
      have member := List.mem_of_find?_eq_some search
      have all : (longOperators.all fun text => text.all fun c => !breakers.contains c) = true := rfl
      refine solid_of_avoids (longOperators_ne_nil _ member) fun c within breaks => ?_
      have here := List.all_eq_true.1 (List.all_eq_true.1 all text member) c within
      simp [breaks] at here
    · refine ⟨c, rfl, fun member => ?_, differs⟩
      obtain ⟨line, rest, below⟩ := cursor
      obtain rfl := front
      rw [Cursor.step_blank member] at step
      contradiction

/-- A token that is found by a step is written as its text. -/
theorem Cursor.step_written (step : cursor.step depth = .token found next deeper) :
    found.written = found.value.toList := by
  have finds := cursor.step_finds depth
  rw [step] at finds
  cases finds <;> exact Token.written_of_isLexeme rfl

/-- A token that is no comment starts as a logical line does. -/
theorem Cursor.step_starts (step : cursor.step depth = .token found next deeper)
    (other : found.kind ≠ .comment) : cursor.rest.head?.any startsLogical = true := by
  obtain ⟨line, rest, below⟩ := cursor
  cases rest with
  | nil =>
    rw [Cursor.step] at step
    contradiction
  | cons c tail =>
    show startsLogical c = true
    by_contra plain
    simp only [startsLogical, Bool.and_eq_true, Bool.not_eq_true', bne_iff_ne, ne_eq, not_and,
      Decidable.not_not] at plain
    by_cases blank : c ∈ blanks
    · rw [Cursor.step_blank blank] at step
      contradiction
    by_cases breaks : c = '\n'
    · subst breaks
      rw [Cursor.step_feed] at step
      contradiction
    have unindented : isIndent c = false := by
      by_contra indents
      exact blank (mem_blanks_of_isIndent (by simpa using indents))
    have form : c ≠ '\x0c' := by
      rintro rfl
      exact blank (by decide)
    obtain rfl := plain ⟨⟨unindented, breaks⟩, form⟩
    obtain ⟨rfl, -⟩ := Step.token.inj step
    exact other rfl

end tokens

section seams

variable {bare otherBare : Bool} {front back otherBack : List Char}

/-- A text that starts with a line is divided in that line or behind it. -/
theorem line_split {body below : List Char} (same : body ++ '\n' :: below = front ++ back) :
    (∃ left, body = front ++ left ∧ back = left ++ '\n' :: below) ∨
      ∃ more, front = body ++ '\n' :: more ∧ below = more ++ back := by
  rcases List.append_eq_append_iff.1 same with ⟨more, taken, rest⟩ | ⟨left, taken, rest⟩
  · cases more with
    | nil =>
      rw [List.append_nil] at taken
      exact .inl ⟨[], by rw [taken, List.append_nil], by simpa using rest.symm⟩
    | cons c more =>
      obtain ⟨rfl, later⟩ := List.cons.inj rest
      exact .inr ⟨more, taken, later⟩
  · exact .inl ⟨left, taken, rest⟩

/-- Two texts that start with lines and in the same way are divided in these lines, or behind them
if the lines are the same. -/
theorem lines_split {body below otherBody otherBelow : List Char} (unbroken : '\n' ∉ body)
    (otherUnbroken : '\n' ∉ otherBody) (text : body ++ '\n' :: below = front ++ back)
    (otherText : otherBody ++ '\n' :: otherBelow = front ++ otherBack) :
    (∃ left otherLeft, body = front ++ left ∧ back = left ++ '\n' :: below ∧
        otherBody = front ++ otherLeft ∧ otherBack = otherLeft ++ '\n' :: otherBelow) ∨
      ∃ more, otherBody = body ∧ front = body ++ '\n' :: more ∧ below = more ++ back ∧
        otherBelow = more ++ otherBack := by
  rcases line_split text with ⟨left, own, rest⟩ | ⟨more, own, rest⟩
  · rcases line_split otherText with ⟨otherLeft, other, otherRest⟩ | ⟨more, other, otherRest⟩
    · exact .inl ⟨left, otherLeft, own, rest, other, otherRest⟩
    · refine absurd ?_ unbroken
      rw [own, other]
      simp
  · rcases line_split otherText with ⟨left, other, otherRest⟩ | ⟨otherMore, other, otherRest⟩
    · refine absurd ?_ otherUnbroken
      rw [other, own]
      simp
    · obtain ⟨rfl, rfl⟩ := first_line_inj unbroken otherUnbroken (own.symm.trans other)
      exact .inr ⟨more, rfl, own, rest, otherRest⟩

/-- The seam in a line of which the given parts are left. -/
def Seam.ofLine {left otherLeft : List Char} (nearBelow farBelow : List Line)
    (stops : Stops (left ++ ['\n'])) (otherStops : Stops (otherLeft ++ ['\n'])) : Seam :=
  ⟨left ++ ['\n'], nearBelow, otherLeft ++ ['\n'], farBelow, stops, otherStops, by simp⟩

/-- A breaker that is in front of a part of a line and the lines below is in front of the line. -/
theorem Stops.of_line {left below : List Char} (stops : Stops (left ++ '\n' :: below)) :
    Stops (left ++ ['\n']) := by
  cases left with
  | nil => exact stops
  | cons c left => exact stops

/-- A text that is divided by a seam. -/
structure Seam.Divides (seam : Seam) (back otherBack : List Char) : Prop where
  /-- Something is left of the line. -/
  some_ : seam.near ≠ []
  /-- What is behind the seam in the first text. -/
  text : seam.near ++ linesText seam.nearBelow = back
  /-- What is behind it in the second text. -/
  otherText : seam.far ++ linesText seam.farBelow = otherBack

/-- The last character of a text that holds more than lines stands behind these. -/
theorem solid_behind {body more : List Char}
    (solid : ∃ c ∈ (body ++ '\n' :: more).getLast?, c ∉ blanks ∧ c ≠ '\n') :
    ∃ c ∈ more.getLast?, c ∉ blanks ∧ c ≠ '\n' := by
  obtain ⟨c, last, apart, differs⟩ := solid
  cases more with
  | nil =>
    rw [List.getLast?_concat] at last
    exact absurd (Option.some.inj last).symm differs
  | cons d more =>
    rw [List.getLast?_append_of_ne_nil _ (List.cons_ne_nil _ _)] at last
    exact ⟨c, by simpa [List.getLast?_cons] using last, apart, differs⟩

/-- A line above other lines came with its line feed. -/
theorem SoundLines.bare_eq_false {line : Line} {below : List Line}
    (sound : SoundLines bare (line :: below)) (some_ : linesText below ≠ []) : line.bare = false := by
  have lower : below ≠ [] := by
    rintro rfl
    exact some_ rfl
  rw [sound.1.2.2, List.isEmpty_eq_false_iff.2 lower, Bool.false_and]

/-- Lines with texts that start in the same way are the same up to a seam. -/
theorem LinesBeside.exists_seam {lines others : List Line} (sound : SoundLines bare lines)
    (otherSound : SoundLines otherBare others) (text : linesText lines = front ++ back)
    (otherText : linesText others = front ++ otherBack) (some_ : back ≠ [])
    (otherSome : otherBack ≠ []) (solid : ∃ c ∈ front.getLast?, c ∉ blanks ∧ c ≠ '\n')
    (stops : Stops back) (otherStops : Stops otherBack) :
    ∃ seam : Seam, seam.Divides back otherBack ∧ LinesBeside seam lines others := by
  induction lines generalizing others front with
  | nil => exact absurd (List.append_eq_nil_iff.1 text.symm).2 some_
  | cons line below ih =>
    cases others with
    | nil => exact absurd (List.append_eq_nil_iff.1 otherText.symm).2 otherSome
    | cons other otherBelow =>
      obtain ⟨body, own, unbroken⟩ := sound.body
      obtain ⟨otherBody, otherOwn, otherUnbroken⟩ := otherSound.body
      rw [linesText_cons, own, List.append_assoc] at text
      rw [linesText_cons, otherOwn, List.append_assoc] at otherText
      rcases lines_split unbroken otherUnbroken text otherText with
        ⟨left, otherLeft, rfl, rest, rfl, otherRest⟩ | ⟨more, rfl, rfl, rest, otherRest⟩
      · rw [rest] at stops
        rw [otherRest] at otherStops
        obtain ⟨c, last, apart, -⟩ := solid
        refine ⟨.ofLine below otherBelow stops.of_line otherStops.of_line,
          ⟨by simp [Seam.ofLine], ?_, ?_⟩, .seam (by simp [Seam.ofLine]) ?_ ?_
            ⟨c, List.mem_of_getLast? last, apart⟩⟩
        · rw [rest]
          simp [Seam.ofLine]
        · rw [otherRest]
          simp [Seam.ofLine]
        · rw [own, List.append_assoc]
          rfl
        · rw [otherOwn, List.append_assoc]
          rfl
      · obtain ⟨seam, divides, beside⟩ :=
          ih sound.2 otherSound.2 rest otherRest (solid_behind solid)
        refine ⟨seam, divides, .cons ?_ ?_ beside⟩
        · exact String.toList_inj.1 (otherOwn.trans own.symm)
        · rw [sound.bare_eq_false fun none_ => some_ (List.append_eq_nil_iff.1 (rest.symm.trans none_)).2,
            otherSound.bare_eq_false fun none_ =>
              otherSome (List.append_eq_nil_iff.1 (otherRest.symm.trans none_)).2]

/-- Places with texts that start in the same way are the same up to a seam. -/
theorem Cursor.Beside.exists_seam {cursor other : Cursor} {indents otherIndents : List Nat}
    {depth otherDepth : Nat} (sound : (Spot.inside cursor indents depth).Sound bare)
    (otherSound : (Spot.inside other otherIndents otherDepth).Sound otherBare)
    (text : cursor.text = front ++ back) (otherText : other.text = front ++ otherBack)
    (some_ : back ≠ []) (otherSome : otherBack ≠ [])
    (solid : ∃ c ∈ front.getLast?, c ∉ blanks ∧ c ≠ '\n') (stops : Stops back)
    (otherStops : Stops otherBack) :
    ∃ seam : Seam, seam.Divides back otherBack ∧ cursor.Beside seam other := by
  obtain ⟨body, own, unbroken⟩ := sound.body
  obtain ⟨otherBody, otherOwn, otherUnbroken⟩ := otherSound.body
  obtain ⟨line, rest, below⟩ := cursor
  obtain ⟨otherLine, otherRest, otherBelow⟩ := other
  subst own otherOwn
  rw [Cursor.text, List.append_assoc] at text otherText
  dsimp only at text otherText
  rcases lines_split unbroken otherUnbroken text otherText with
    ⟨left, otherLeft, rfl, rest, rfl, otherRest⟩ | ⟨more, rfl, rfl, rest, otherRest⟩
  · rw [rest] at stops
    rw [otherRest] at otherStops
    refine ⟨.ofLine below otherBelow stops.of_line otherStops.of_line,
      ⟨by simp [Seam.ofLine], ?_, ?_⟩, ?_⟩
    · rw [rest]
      simp [Seam.ofLine]
    · rw [otherRest]
      simp [Seam.ofLine]
    · rw [List.append_assoc, List.append_assoc]
      exact .here (by simp [Seam.ofLine])
  · obtain ⟨seam, divides, beside⟩ := LinesBeside.exists_seam sound.2.2 otherSound.2.2 rest otherRest
      some_ otherSome (solid_behind solid) stops otherStops
    refine ⟨seam, divides, .same ?_ beside⟩
    rw [sound.2.bare_eq_false fun none_ => some_ (List.append_eq_nil_iff.1 (rest.symm.trans none_)).2,
      otherSound.2.bare_eq_false fun none_ =>
        otherSome (List.append_eq_nil_iff.1 (otherRest.symm.trans none_)).2]

/-- Lines with the same text differ in their numbers only. -/
theorem LinesBeside.of_text {lines others : List Line} (sound : SoundLines bare lines)
    (otherSound : SoundLines bare others) (same : linesText others = linesText lines) :
    LinesBeside .none lines others := by
  induction lines generalizing others with
  | nil =>
    obtain rfl := otherSound.eq_nil same
    exact .nil rfl
  | cons line below ih =>
    cases others with
    | nil => exact absurd (sound.eq_nil same.symm) (List.cons_ne_nil _ _)
    | cons other otherBelow =>
      obtain ⟨body, own, unbroken⟩ := sound.body
      obtain ⟨otherBody, otherOwn, otherUnbroken⟩ := otherSound.body
      rw [linesText_cons, linesText_cons, own, otherOwn, List.append_assoc, List.append_assoc] at same
      obtain ⟨rfl, rest⟩ := first_line_inj otherUnbroken unbroken same
      have later := ih sound.2 otherSound.2 rest
      have ends : otherBelow.isEmpty = below.isEmpty := by
        cases later <;> rfl
      refine .cons (String.toList_inj.1 (otherOwn.trans own.symm)) ?_ later
      rw [sound.1.2.2, otherSound.1.2.2, ends]

/-- Places with the same text differ in the numbers of lines and in what is before them only. -/
theorem Cursor.Beside.of_text {cursor other : Cursor} {indents otherIndents : List Nat}
    {depth otherDepth : Nat} (sound : (Spot.inside cursor indents depth).Sound bare)
    (otherSound : (Spot.inside other otherIndents otherDepth).Sound bare)
    (same : other.text = cursor.text) : cursor.Beside .none other := by
  obtain ⟨body, own, unbroken⟩ := sound.body
  obtain ⟨otherBody, otherOwn, otherUnbroken⟩ := otherSound.body
  obtain ⟨line, rest, below⟩ := cursor
  obtain ⟨otherLine, otherRest, otherBelow⟩ := other
  subst own otherOwn
  rw [Cursor.text, Cursor.text, List.append_assoc, List.append_assoc] at same
  obtain ⟨rfl, rest⟩ := first_line_inj otherUnbroken unbroken same
  have later := LinesBeside.of_text sound.2.2 otherSound.2.2 rest
  have ends : otherBelow.isEmpty = below.isEmpty := by
    cases later <;> rfl
  refine .same ?_ later
  rw [sound.2.1.2.2, otherSound.2.1.2.2, ends]

end seams

namespace Spot

variable {bare : Bool} {before between behind other : Spot} {found tokens : List Token}

/-- From places with the same text behind them the same is found up to the end of the text. -/
theorem Comes.same_text {number depth : Nat} {indents : List Nat}
    (way : Comes before tokens (.line [] number indents depth)) (sound : before.Sound bare)
    (beside : before.Beside .none 0 other) :
    ∃ others last, Comes other others (.line [] last indents depth) ∧
      List.Forall₂ Token.Same tokens others := by
  obtain ⟨others, onward, way, same, place⟩ :=
    way.beside sound beside (.zero _ _) fun some_ => absurd rfl some_
  cases place with
  | line lines =>
    cases lines
    exact ⟨others, _, way, same⟩

/-- The number of characters behind a place. -/
theorem size_eq (spot : Spot) : spot.size = spot.text.length := by
  have lines (below : List Line) : linesSize below = (linesText below).length := by
    induction below with
    | nil => rfl
    | cons line below ih => rw [linesSize, linesText_cons, List.length_append, ih]
  cases spot with
  | line below => exact lines below
  | inside cursor =>
    rw [text, size, Cursor.text, Cursor.size, List.length_append, lines]

/-- A step takes a part of the text. -/
theorem Step.text (step : Step before found behind) (sound : before.Sound bare) :
    ∃ taken, before.text = taken ++ behind.text := by
  cases step with
  | @idle line below => exact ⟨line.text.toList, rfl⟩
  | @enter line below =>
    obtain ⟨indent, -, whole⟩ := Scanner.line_indent line below
    refine ⟨indent, ?_⟩
    show linesText (line :: below) = _
    rw [linesText_cons, whole, List.append_assoc]
    rfl
  | @token cursor next depth _ _ found step =>
    have takes := cursor.step_takes depth (fun line member => (sound.2.whole line member).1)
      (fun line member => (sound.2.whole line member).2) sound.1
    rw [step] at takes
    exact ⟨_, takes⟩
  | @skip cursor next depth _ step =>
    have takes := cursor.step_takes depth (fun line member => (sound.2.whole line member).1)
      (fun line member => (sound.2.whole line member).2) sound.1
    rw [step] at takes
    obtain ⟨gap, -, whole⟩ := takes
    exact ⟨gap, whole⟩
  | @last cursor depth _ found step =>
    have takes := cursor.step_takes depth (fun line member => (sound.2.whole line member).1)
      (fun line member => (sound.2.whole line member).2) sound.1
    rw [step] at takes
    obtain ⟨token, -, whole⟩ := takes
    exact ⟨_, whole⟩

/-- So does a way. -/
theorem Comes.text (way : Comes before tokens behind) (sound : before.Sound bare) :
    ∃ taken, before.text = taken ++ behind.text := by
  induction way with
  | stop => exact ⟨[], rfl⟩
  | step step later ih =>
    obtain ⟨first, here⟩ := step.text sound
    obtain ⟨rest, there⟩ := ih (step.sound sound)
    exact ⟨first ++ rest, by rw [here, there, List.append_assoc]⟩

end Spot

/-- As many characters are behind the seam as behind the place at which it divides the text. -/
theorem Seam.Divides.size {seam : Seam} {cursor : Cursor} {otherBack : List Char}
    (divides : seam.Divides cursor.text otherBack) : seam.size = cursor.size := by
  have place : cursor.size = cursor.text.length := Spot.size_eq (.inside cursor [] 0)
  have below : linesSize seam.nearBelow = (linesText seam.nearBelow).length :=
    Spot.size_eq (.line seam.nearBelow 0 [] 0)
  rw [place, ← divides.text, List.length_append, ← below]
  rfl

/-- A place with as many characters behind it as there are behind the seam is at the seam. -/
theorem Cursor.Beside.at_seam {seam : Seam} {cursor other : Cursor}
    (beside : cursor.Beside seam other) (some_ : seam.near ≠ []) (size : cursor.size = seam.size) :
    other.text = seam.far ++ linesText seam.farBelow := by
  cases beside with
  | @here line otherLine front =>
    simp only [Cursor.size, Seam.size, List.length_append] at size
    obtain rfl := List.eq_nil_of_length_eq_zero (show front.length = 0 by omega)
    rfl
  | @same line otherLine rest below otherBelow bare lines =>
    have longer : seam.size < linesSize below := by
      clear size
      induction lines with
      | nil none_ => exact absurd none_ some_
      | @seam line otherLine front _ text _ solid =>
        obtain ⟨c, member, -⟩ := solid
        have positive := List.length_pos_of_mem member
        rw [linesSize, text, List.length_append, Seam.size]
        omega
      | @cons line otherLine below otherBelow _ _ _ ih =>
        rw [linesSize]
        omega
    rw [Cursor.size] at size
    dsimp only at size
    omega

end Offside
