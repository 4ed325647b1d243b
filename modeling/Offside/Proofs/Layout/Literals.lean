import Offside.Proofs.Layout.Tokens

/-!
# Where a string literal ends

A string literal is a body between equal marks, behind the letters that mark it (`Quotation`). A
literal between single marks ends at the first mark that is not escaped, where each backslash pairs
with the character after it. A literal between triple marks ends at the first marks that do not
stand directly behind a backslash (`Quotation.Closed`). These are never escaped, but marks that are
not escaped may stand before them, behind an escaped backslash. The parts of a literal in single
lines are looked at first (`StringPart.Respects`); what they say is put together over the lines
(`ClosesString.encloses`) and holds of all tokens (`Stream.ofSource_closed`).
-/
namespace Offside

open Text Lexeme

/-- Behind the text, read from the left, a backslash still waits for the character that it pairs
with. -/
def leavesEscape : List Char → Bool
  | [] => false
  | [c] => c == '\\'
  | c :: d :: rest => if c = '\\' then leavesEscape rest else leavesEscape (d :: rest)

/-- What stands behind the text is not escaped. -/
def Unescaped (before : List Char) : Prop :=
  leavesEscape before = false

/-- What stands behind the text does not stand directly behind a backslash. -/
def Detached (before : List Char) : Prop :=
  before.getLast? ≠ some '\\'

/-- Marks that start in a text, with another text behind it, stand where they do not count. What
stands before them decides whether they do. -/
def Avoids (counts : List Char → Prop) (marks text behind : List Char) : Prop :=
  ∀ before after, before ++ after = text → after ≠ [] → marks <+: after ++ behind →
    ¬counts before

/-- The marks behind a body are the first ones that count. -/
structure Encloses (counts : List Char → Prop) (marks body : List Char) : Prop where
  /-- The marks behind the body count. -/
  closes : counts body
  /-- Marks that start in the body do not. -/
  first : Avoids counts marks body marks

/-- A string literal in parts. -/
structure Quotation where
  /-- The letters before the opening marks. -/
  letters : List Char
  /-- The quotation mark. -/
  quote : Char
  /-- The mark is written three times. -/
  triple : Bool
  /-- What stands between the marks. -/
  body : List Char

namespace Quotation

/-- The marks on each side of the body. -/
def marks (quotation : Quotation) : List Char :=
  if quotation.triple then List.replicate 3 quotation.quote else [quotation.quote]

/-- The text from the opening to the closing marks. -/
def quoted (quotation : Quotation) : List Char :=
  quotation.marks ++ (quotation.body ++ quotation.marks)

/-- The text of the literal. -/
def text (quotation : Quotation) : List Char :=
  quotation.letters ++ quotation.quoted

/-- A literal ends where its marks say. -/
structure Closed (quotation : Quotation) : Prop where
  /-- Letters before the opening marks are ones that mark a literal. -/
  lettered : quotation.letters = [] ∨ stringMarks.contains quotation.letters = true
  /-- The mark is a quotation mark. -/
  quotes : isQuote quotation.quote = true
  /-- The mark counts as written three times where it is. -/
  tripled : quotation.triple = true ↔ List.replicate 3 quotation.quote <+: quotation.quoted
  /-- The closing marks are not escaped. -/
  unescaped : Unescaped quotation.body
  /-- A single closing mark is the first that is not escaped. -/
  single : quotation.triple = false → Encloses Unescaped quotation.marks quotation.body
  /-- Triple closing marks are the first that do not stand directly behind a backslash. -/
  long : quotation.triple = true → Encloses Detached quotation.marks quotation.body

/-- The scanner delimits the quoted text in front of a place. -/
structure Delimited (quotation : Quotation) (place next : Cursor) : Prop where
  /-- Three marks in front are taken together. -/
  marked : quotation.triple = true ↔ List.replicate 3 quotation.quote <+: place.rest
  /-- The quoted text reaches to the place behind it. -/
  scanned : scanString place = .ok (quotation.quoted, next)

end Quotation

/-- A character that is no backslash waits for nothing. -/
theorem leavesEscape_cons {c : Char} (plain : c ≠ '\\') (rest : List Char) :
    leavesEscape (c :: rest) = leavesEscape rest := by
  cases rest with
  | nil => simp [leavesEscape, plain]
  | cons d rest => rw [leavesEscape, if_neg plain]

/-- A backslash and its character wait for nothing. -/
theorem leavesEscape_pair (c : Char) (rest : List Char) :
    leavesEscape ('\\' :: c :: rest) = leavesEscape rest := by
  rw [leavesEscape, if_pos rfl]

/-- Only a backslash at the end of a text waits for a character. -/
theorem Detached.unescaped {before : List Char} (detached : Detached before) :
    Unescaped before := by
  unfold Unescaped
  fun_induction leavesEscape before with
  | case1 => rfl
  | case2 c => simpa [Detached] using detached
  | case3 d rest ih =>
    cases rest with
    | nil => rfl
    | cons c rest => exact ih (by simpa [Detached] using detached)
  | case4 c d rest _ ih => exact ih (by simpa [Detached] using detached)

/-- Behind a text that leaves no backslash waiting, the pairs are read anew. -/
theorem Unescaped.append_iff {front : List Char} (unescaped : Unescaped front)
    (before : List Char) : Unescaped (front ++ before) ↔ Unescaped before := by
  unfold Unescaped at *
  fun_induction leavesEscape front with
  | case1 => rfl
  | case2 c =>
    have plain : c ≠ '\\' := by simpa using unescaped
    rw [List.singleton_append, leavesEscape_cons plain]
  | case3 d rest ih =>
    rw [List.cons_append, List.cons_append, leavesEscape_pair]
    exact ih unescaped
  | case4 c d rest plain ih =>
    rw [List.cons_append, leavesEscape_cons plain]
    exact ih unescaped

/-- Behind a line feed stands no backslash. -/
theorem Detached.append_iff {front : List Char} (ended : front.getLast? = some '\n')
    (before : List Char) : Detached (front ++ before) ↔ Detached before := by
  unfold Detached
  cases before with
  | nil => simp [ended]
  | cons c before => rw [List.getLast?_append_of_ne_nil _ (List.cons_ne_nil c before)]

/-- No marks start in an empty text. -/
theorem Avoids.nil {counts : List Char → Prop} {marks behind : List Char} :
    Avoids counts marks [] behind := by
  intro before after whole nonempty
  exact absurd (List.append_eq_nil_iff.1 whole).2 nonempty

/-- Marks do not count in a text if they do not at its first character and behind that. -/
theorem Avoids.cons {counts : List Char → Prop} {marks text behind : List Char} {c : Char}
    (here : marks <+: c :: (text ++ behind) → ¬counts [])
    (later : Avoids (fun before => counts (c :: before)) marks text behind) :
    Avoids counts marks (c :: text) behind := by
  intro before after whole nonempty opens
  cases before with
  | nil =>
    rw [List.nil_append] at whole
    rw [whole] at opens
    exact here opens
  | cons d before =>
    obtain ⟨rfl, rest⟩ := List.cons.inj whole
    exact later before after rest nonempty opens

/-- Marks that do not count in two parts of a text do not in the whole. The text in front may
change what counts behind it. -/
theorem Avoids.append {counts countsBehind : List Char → Prop}
    {marks front back behind : List Char}
    (shift : ∀ before, counts (front ++ before) ↔ countsBehind before)
    (head : Avoids counts marks front (back ++ behind))
    (tail : Avoids countsBehind marks back behind) :
    Avoids counts marks (front ++ back) behind := by
  intro before after whole nonempty opens
  rcases List.append_eq_append_iff.1 whole with ⟨middle, rfl, rfl⟩ | ⟨middle, rfl, rfl⟩
  · cases middle with
    | nil =>
      have absent := tail [] back rfl nonempty opens
      rw [← shift, List.append_nil, List.append_nil] at absent
      exact absent
    | cons c middle =>
      exact head before (c :: middle) rfl (List.cons_ne_nil c middle)
        (by rwa [List.append_assoc] at opens)
  · rw [shift]
    exact tail middle after rfl nonempty opens

/-- Marks that enclose the rest of a body enclose all of it, if none that start before the rest
count. -/
theorem Encloses.behind {counts countsBehind : List Char → Prop}
    {marks front body : List Char}
    (shift : ∀ before, counts (front ++ before) ↔ countsBehind before)
    (head : Avoids counts marks front (body ++ marks))
    (encloses : Encloses countsBehind marks body) : Encloses counts marks (front ++ body) :=
  ⟨(shift body).2 encloses.closes, head.append shift encloses.first⟩

/-- Marks enclose nothing where they count at once. -/
theorem Encloses.nil {counts : List Char → Prop} {marks : List Char} (counted : counts []) :
    Encloses counts marks [] := by
  refine ⟨counted, ?_⟩
  intro before after whole nonempty
  exact absurd (List.append_eq_nil_iff.1 whole).2 nonempty

namespace Lexeme

/-- Before a mark that is no backslash, a backslash and its character hold no mark that counts. -/
theorem avoids_pair {quote : Char} (plain : quote ≠ '\\') (c : Char) (behind : List Char) :
    Avoids Unescaped [quote] ['\\', c] behind := by
  apply Avoids.cons
  · intro opens
    exact absurd (List.cons_prefix_cons.1 opens).1 plain
  · apply Avoids.cons
    · intro _ unescaped
      contradiction
    · exact Avoids.nil

/-- Another character is no mark that counts. -/
theorem avoids_other {quote c : Char} (other : c ≠ quote) (behind : List Char) :
    Avoids Unescaped [quote] [c] behind := by
  apply Avoids.cons
  · intro opens
    exact absurd (List.cons_prefix_cons.1 opens).1.symm other
  · exact Avoids.nil

/-- A character that is no backslash is not the first of a pair. -/
theorem unescaped_singleton {c : Char} (plain : c ≠ '\\') : Unescaped [c] := by
  simpa [Unescaped, leavesEscape] using plain

/-- A part of a literal respects its marks: it is closed by the first marks that count, and where
it goes on none have counted, and what counts behind it does so alone. -/
def StringPart.Respects (counts : List Char → Prop) (marks : List Char) : StringPart → Prop
  | .closed taken _ => ∃ body, taken = body ++ marks ∧ Encloses counts marks body
  | .continued taken =>
    (∀ before, counts (taken ++ before) ↔ counts before) ∧
      ∀ behind, Avoids counts marks taken behind
  | .broken => True

/-- A part respects its marks behind a text in which none count. -/
theorem StringPart.Respects.after {counts : List Char → Prop} {marks front : List Char}
    {part : StringPart} (respects : part.Respects counts marks)
    (shift : ∀ before, counts (front ++ before) ↔ counts before)
    (avoids : ∀ behind, Avoids counts marks front behind) :
    (part.after front).Respects counts marks := by
  cases part with
  | closed taken rest =>
    obtain ⟨body, rfl, encloses⟩ := respects
    exact ⟨front ++ body, (List.append_assoc front body marks).symm,
      encloses.behind shift (avoids _)⟩
  | continued taken =>
    obtain ⟨again, later⟩ := respects
    refine ⟨fun before => ?_, fun behind => (avoids _).append shift (later behind)⟩
    rw [List.append_assoc, shift, again]
  | broken => trivial

/-- A part between single marks is closed by the first mark that is not escaped. -/
theorem shortPart_respects {quote : Char} (plain : quote ≠ '\\') (text : List Char) :
    (shortPart quote text).Respects Unescaped [quote] := by
  have pair (c : Char) : Unescaped ['\\', c] := leavesEscape_pair c []
  fun_induction shortPart quote text with
  | case1 | case2 | case6 => trivial
  | case3 rest => exact ⟨(pair '\n').append_iff, avoids_pair plain '\n'⟩
  | case4 c tail _ ih => exact ih.after (pair c).append_iff (avoids_pair plain c)
  | case5 => exact ⟨[], rfl, .nil rfl⟩
  | case7 c tail last _ pairs other _ ih =>
    -- A backslash would be the last character or pair with the next one.
    have single : c ≠ '\\' := by
      rintro rfl
      cases tail with
      | nil => exact last rfl rfl
      | cons d rest => exact pairs d rest rfl rfl
    exact ih.after (unescaped_singleton single).append_iff (avoids_other other)

/-- Triple marks that start in a text which ends in a line feed do not reach behind it. -/
theorem marks_prefix_of_break {quote : Char} (differs : quote ≠ '\n') {text behind : List Char}
    (ended : text.getLast? = some '\n')
    (opens : [quote, quote, quote] <+: text ++ behind) : [quote, quote, quote] <+: text := by
  rcases List.prefix_or_prefix_of_prefix opens (List.prefix_append text behind) with inside | beyond
  · exact inside
  · have member := beyond.subset (List.mem_of_getLast? ended)
    simp [differs.symm] at member

section Long

variable {quote : Char} {escaped : Bool} {front text taken rest : List Char}

/-- Where a part between triple marks takes a character, no marks that count start. -/
theorem avoids_taken {c : Char} (last : escaped = true ↔ ¬Detached front)
    (taken : ¬(!escaped && [quote, quote, quote].isPrefixOf (c :: text)) = true)
    {behind : List Char} (within : behind <+: text) :
    Avoids (fun before => Detached (front ++ before)) [quote, quote, quote] [c] behind := by
  apply Avoids.cons
  · intro opens
    have marks : [quote, quote, quote].isPrefixOf (c :: text) = true :=
      List.isPrefixOf_iff_prefix.2 (opens.trans (List.cons_prefix_cons.2 ⟨rfl, within⟩))
    rw [marks, Bool.and_true, Bool.not_eq_true', Bool.not_eq_false] at taken
    rw [List.append_nil]
    exact last.1 taken
  · exact Avoids.nil

/-- A backslash was taken last where the character is one. -/
theorem last_taken (front : List Char) (c : Char) :
    (c == '\\') = true ↔ ¬Detached (front ++ [c]) := by
  simp [Detached]

/-- A part between triple marks, behind a given text, is closed by the first marks that do not
stand directly behind a backslash. -/
theorem longPart_encloses (last : escaped = true ↔ ¬Detached front)
    (closed : longPart quote escaped text = .closed taken rest) :
    ∃ body, taken = body ++ [quote, quote, quote] ∧
      Encloses (fun before => Detached (front ++ before)) [quote, quote, quote] body := by
  induction text generalizing escaped front taken with
  | nil => simp [longPart] at closed
  | cons c tail ih =>
    rw [longPart] at closed
    split at closed
    · rename_i marks
      obtain ⟨rfl, rfl⟩ := StringPart.closed.inj closed
      rw [Bool.and_eq_true, Bool.not_eq_true'] at marks
      refine ⟨[], rfl, .nil ?_⟩
      rw [List.append_nil]
      by_contra attached
      rw [last.2 attached] at marks
      simp at marks
    · rename_i unmarked
      obtain ⟨later, found, rfl⟩ := StringPart.after_eq_closed closed
      obtain ⟨body, rfl, encloses⟩ := ih (last_taken front c) found
      have within : body ++ [quote, quote, quote] <+: tail := ⟨rest, longPart_closed found⟩
      refine ⟨[c] ++ body, rfl, encloses.behind ?_ (avoids_taken last unmarked within)⟩
      intro before
      rw [List.append_assoc]

/-- A part between triple marks, behind a given text, that goes on holds no marks but directly
behind a backslash. -/
theorem longPart_avoids (last : escaped = true ↔ ¬Detached front)
    (continued : longPart quote escaped text = .continued taken) :
    Avoids (fun before => Detached (front ++ before)) [quote, quote, quote] text [] := by
  induction text generalizing escaped front taken with
  | nil => exact Avoids.nil
  | cons c tail ih =>
    rw [longPart] at continued
    split at continued
    · contradiction
    · rename_i unmarked
      obtain ⟨later, found, rfl⟩ := StringPart.after_eq_continued continued
      have within : tail ++ [] <+: tail := by simp
      refine (avoids_taken last unmarked within).append ?_ (ih (last_taken front c) found)
      intro before
      rw [List.append_assoc]

/-- A part between triple marks in a line is closed by the first marks that do not stand directly
behind a backslash. -/
theorem longPart_respects (differs : quote ≠ '\n') (ended : text.getLast? = some '\n') :
    (longPart quote false text).Respects Detached [quote, quote, quote] := by
  have fresh : false = true ↔ ¬Detached [] := by simp [Detached]
  cases found : longPart quote false text with
  | closed taken rest => exact longPart_encloses fresh found
  | continued taken =>
    have avoids := longPart_avoids fresh found
    obtain rfl := longPart_continued found
    refine ⟨Detached.append_iff ended, ?_⟩
    intro behind before after whole nonempty opens
    apply avoids before after whole nonempty
    -- The line feed at the end keeps the marks inside the line.
    have last : after.getLast? = some '\n' := by
      rw [← whole, List.getLast?_append_of_ne_nil _ nonempty] at ended
      exact ended
    rw [List.append_nil]
    exact marks_prefix_of_break differs last opens
  | broken => trivial

end Long

end Lexeme

/-- A string literal that goes on from inside a line is closed by the first marks that count, if
its parts in lines respect the marks. -/
theorem ClosesString.encloses {part : List Char → StringPart} {counts : List Char → Prop}
    {marks : List Char}
    (parts : ∀ text, text.getLast? = some '\n' → (part text).Respects counts marks)
    {below : List Line} {line : Line} {rest taken : List Char} {next : Cursor}
    (closes : ClosesString part below line rest taken next) (ended : rest.getLast? = some '\n')
    (terminated : ∀ line ∈ below, line.Terminated) :
    ∃ body, taken = body ++ marks ∧ Encloses counts marks body := by
  induction closes with
  | @here below line text taken rest found =>
    have respects := parts text ended
    rw [found] at respects
    exact respects
  | @later below line first text front more place found closes ih =>
    have respects := parts text ended
    rw [found] at respects
    obtain ⟨again, avoids⟩ := respects
    obtain ⟨body, rfl, encloses⟩ := ih (terminated first List.mem_cons_self)
      fun line member => terminated line (List.mem_cons_of_mem _ member)
    exact ⟨front ++ body, (List.append_assoc front body marks).symm,
      encloses.behind again (avoids _)⟩

/-- No literal between single marks starts with three of them. -/
theorem Encloses.not_triple {quote : Char} {body : List Char}
    (encloses : Encloses Unescaped [quote] body) :
    ¬[quote, quote, quote] <+: [quote] ++ (body ++ [quote]) := by
  intro opens
  cases body with
  | nil => simpa using opens.length_le
  | cons c body =>
    have first : quote = c := (List.cons_prefix_cons.1 (List.cons_prefix_cons.1 opens).2).1
    have marked : [quote] <+: c :: body ++ [quote] := by
      rw [first]
      exact List.prefix_append [c] (body ++ [c])
    exact encloses.first [] (c :: body) rfl (List.cons_ne_nil c body) marked rfl

/-- A literal between single marks ends where its marks say, if they enclose its body. -/
theorem Quotation.Closed.of_single {letters body : List Char} {quote : Char}
    (lettered : letters = [] ∨ stringMarks.contains letters = true)
    (quotes : isQuote quote = true) (encloses : Encloses Unescaped [quote] body) :
    (⟨letters, quote, false, body⟩ : Quotation).Closed where
  lettered := lettered
  quotes := quotes
  tripled := by
    constructor
    · intro triple
      contradiction
    · intro marks
      exact absurd marks encloses.not_triple
  unescaped := encloses.closes
  single := fun _ => encloses
  long := by
    intro triple
    contradiction

/-- A literal between triple marks ends where its marks say, if they enclose its body. -/
theorem Quotation.Closed.of_triple {letters body : List Char} {quote : Char}
    (lettered : letters = [] ∨ stringMarks.contains letters = true)
    (quotes : isQuote quote = true) (encloses : Encloses Detached [quote, quote, quote] body) :
    (⟨letters, quote, true, body⟩ : Quotation).Closed where
  lettered := lettered
  quotes := quotes
  tripled := by
    constructor
    · intro _
      exact List.prefix_append _ _
    · intro _
      rfl
  unescaped := encloses.closes.unescaped
  single := by
    intro single
    contradiction
  long := fun _ => encloses

/-- A string literal that is found, behind its letters, is delimited, and it ends where its marks
say. -/
theorem ScansString.delimited {cursor next : Cursor} {letters literal : List Char}
    (scans : ScansString cursor literal next)
    (lettered : letters = [] ∨ stringMarks.contains letters = true)
    (terminated : ∀ line ∈ cursor.lines, line.Terminated) (inside : cursor.Inside)
    (opens : cursor.rest.head?.any isQuote = true) :
    ∃ quotation : Quotation, letters ++ literal = quotation.text ∧
      quotation.Delimited cursor next ∧ quotation.Closed := by
  have ends := terminated cursor.line List.mem_cons_self
  have lower : ∀ line ∈ cursor.below, line.Terminated := fun line member =>
    terminated line (List.mem_cons_of_mem _ member)
  have scanned := scanString_eq_ok_iff.2 scans
  cases scans with
  | @triple quote rest taken next front closes =>
    have quotes : isQuote quote = true := by simpa [front] using opens
    have differs := ne_break_of_isQuote quotes
    have within : ({ cursor with rest } : Cursor).Inside :=
      inside.behind ends [quote, quote, quote] front.symm (by simpa using differs)
    have marked : true = true ↔ List.replicate 3 quote <+: cursor.rest := by
      simp [front, List.replicate]
    obtain ⟨body, rfl, encloses⟩ := closes.encloses
      (fun _ ended => longPart_respects differs ended) (within.getLast ends) lower
    exact ⟨⟨letters, quote, true, body⟩, rfl, ⟨marked, scanned⟩,
      .of_triple lettered quotes encloses⟩
  | @single quote rest taken next front other closes =>
    have quotes : isQuote quote = true := by simpa [front] using opens
    have differs := ne_break_of_isQuote quotes
    have plain : quote ≠ '\\' := by
      rintro rfl
      simp [isQuote] at quotes
    have within : ({ cursor with rest } : Cursor).Inside :=
      inside.behind ends [quote] front.symm (by simpa using differs)
    have marked : false = true ↔ List.replicate 3 quote <+: cursor.rest := by
      have unmarked : ¬[quote, quote] <+: rest := by
        rw [← List.isPrefixOf_iff_prefix, other]
        exact Bool.false_ne_true
      simp [front, List.replicate, unmarked]
    obtain ⟨body, rfl, encloses⟩ := closes.encloses
      (fun text _ => shortPart_respects plain text) (within.getLast ends) lower
    exact ⟨⟨letters, quote, false, body⟩, rfl, ⟨marked, scanned⟩,
      .of_single lettered quotes encloses⟩

/-- A string token is a literal that the scanner delimits, and it ends where its marks say. -/
def Token.IsDelimited (token : Token) : Prop :=
  token.kind = .string →
    ∃ (quotation : Quotation) (place next : Cursor), token.value.toList = quotation.text ∧
      quotation.Delimited place next ∧ quotation.Closed

/-- A step finds literals that it delimits, and that end where their marks say. -/
theorem holdsOfSteps_isDelimited : HoldsOfSteps Token.IsDelimited where
  found := by
    intro cursor next depth deeper token terminated inside step
    have ends := terminated cursor.line List.mem_cons_self
    have finds := cursor.step_finds depth
    rw [step] at finds
    cases finds with
    | @literal letters rest text _ front lettered opens scanned =>
      intro _
      rw [Cursor.token, String.toList_ofList]
      have within := inside.behind_letters ends front lettered
      have delimited :=
        (scanString_eq_ok_iff.1 scanned).delimited lettered terminated within opens
      obtain ⟨quotation, whole, delimited, closed⟩ := delimited
      exact ⟨quotation, { cursor with rest }, next, whole, delimited, closed⟩
    | number | name | comment | operator =>
      intro string
      contradiction
  layout := by
    intro token layout string
    rw [string] at layout
    contradiction

/-- Each string token of a source text, also before a fault, is a literal that ends where its marks
say: at the first mark that is not escaped, or at the first triple marks that do not stand directly
behind a backslash. -/
theorem Stream.ofSource_closed (source : String) (file : Option String) :
    ∀ token ∈ (Stream.ofSource source file).tokens, token.kind = .string →
      ∃ quotation : Quotation, token.value.toList = quotation.text ∧ quotation.Closed := by
  intro token member string
  have delimited := holdsOfSteps_isDelimited.ofSource source file token member string
  obtain ⟨quotation, place, next, whole, -, closed⟩ := delimited
  exact ⟨quotation, whole, closed⟩

/-- Marks behind an escaped quotation mark close a literal, also where they overlap it. -/
theorem Stream.ofSource_closed_of_overlap :
    let token : Token := ⟨.string, "'''a\\''''", 1, "x = '''a\\''''\n"⟩
    token ∈ (Stream.ofSource "x = '''a\\''''" none).tokens ∧ token.kind = .string ∧
      ∃ quotation : Quotation, token.value.toList = quotation.text ∧ quotation.Closed := by
  intro token
  have scanned : token ∈ (Stream.ofSource "x = '''a\\''''" none).tokens := by decide +kernel
  exact ⟨scanned, rfl, Stream.ofSource_closed _ none token scanned rfl⟩

/-- Triple marks behind an escaped backslash do not close a literal, although they are not escaped
themselves. -/
theorem Stream.ofSource_passes_unescaped :
    let quotation : Quotation := ⟨[], '\'', true, "\\\\''' #".toList⟩
    ∃ token ∈ (Stream.ofSource "'''\\\\''' #'''\n" none).tokens, token.kind = .string ∧
      token.value.toList = quotation.text ∧
        ¬Encloses Unescaped quotation.marks quotation.body := by
  intro quotation
  have scanned : (⟨.string, "'''\\\\''' #'''", 1, "'''\\\\''' #'''\n"⟩ : Token) ∈
      (Stream.ofSource "'''\\\\''' #'''\n" none).tokens := by
    decide +kernel
  refine ⟨_, scanned, rfl, by decide, ?_⟩
  intro encloses
  have marked : quotation.marks <+: "''' #".toList ++ quotation.marks := by decide
  exact encloses.first ['\\', '\\'] "''' #".toList (by decide) (by decide) marked rfl

end Offside
