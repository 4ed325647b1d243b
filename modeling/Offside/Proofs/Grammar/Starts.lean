import Offside.Proofs.Grammar.Follows

/-!
# Starts of operands follow the grammar

The rules that read the start of an operand, and the forms in which rules ask for the expressions
and the parameters inside, follow their productions, if what reads the operands inside makes
operands (`Inner.Sound`).
-/
namespace Offside

open Parse Literal

/-- What a token means is listed with its kind, or with its text if it is a name or an
operator. -/
theorem Token.behavior?_cases {token : Token} {behavior : Behavior}
    (means : token.behavior? = some behavior) :
    (token.kind = .number ∧ behavior = .starting .number) ∨
    (token.kind = .string ∧ behavior = .both .string Power.adjacent .adjacent) ∨
    (token.isText token.value = true ∧ (token.value, behavior) ∈ Grammar.standard.byText) := by
  obtain ⟨kind, value, line, rawLine⟩ := token
  have listed (found : Grammar.standard.byText.lookup value = some behavior) :
      (value, behavior) ∈ Grammar.standard.byText := by
    obtain ⟨front, back, same, -⟩ := List.lookup_eq_some_iff.1 found
    rw [same]
    simp
  cases kind with
  | number =>
    obtain rfl := Option.some.inj means
    exact .inl ⟨rfl, rfl⟩
  | string =>
    obtain rfl := Option.some.inj means
    exact .inr (.inl ⟨rfl, rfl⟩)
  | name => exact .inr (.inr ⟨by simp [isText], listed means⟩)
  | operator => exact .inr (.inr ⟨by simp [isText], listed means⟩)
  | newline | softBreak | indent | dedent | comment | endMarker => contradiction

/-- A token whose operand a rule reads is a number or a string for the rules of these, and one of
the texts of the rule for each other rule but the one for names. -/
theorem Token.prefixRule_cases (token : Token) :
    (token.kind = .number ∧ token.prefixRule = .number) ∨
    (token.kind = .string ∧ token.prefixRule = .string) ∨ token.prefixRule = .name ∨
    (token.isText token.value = true ∧ token.value ∈ token.prefixRule.texts) := by
  rw [prefixRule]
  cases means : token.behavior? with
  | none => exact .inr (.inr (.inl rfl))
  | some behavior =>
    rcases behavior?_cases means with ⟨number, rfl⟩ | ⟨string, rfl⟩ | ⟨written, listed⟩
    · exact .inl ⟨number, rfl⟩
    · exact .inr (.inl ⟨string, rfl⟩)
    · cases found : behavior.prefixRule with
      | none => exact .inr (.inr (.inl (by simp [found])))
      | some rule =>
        refine .inr (.inr (.inr ⟨written, ?_⟩))
        rw [Option.bind_some, found, Option.getD_some, PrefixRule.texts]
        exact List.mem_map.2 ⟨_, List.mem_filter.2 ⟨listed, decide_eq_true found⟩, rfl⟩

/-- A token that is read as a number or as a string literal is one. -/
theorem Token.kind_of_prefixRule (token : Token) :
    (token.prefixRule = .number → token.kind = .number) ∧
      (token.prefixRule = .string → token.kind = .string) := by
  have unlisted : PrefixRule.number.texts = [] ∧ PrefixRule.string.texts = [] := by decide
  rcases token.prefixRule_cases with ⟨number, found⟩ | ⟨string, found⟩ | found | ⟨-, listed⟩
  · simp [found, number]
  · simp [found, string]
  · simp [found]
  · constructor
    · intro means
      rw [means, unlisted.1] at listed
      contradiction
    · intro means
      rw [means, unlisted.2] at listed
      contradiction

/-- A token of a rule that lists its texts is one of them. -/
theorem Token.text_of_prefixRule {token : Token} {rule : PrefixRule}
    (means : token.prefixRule = rule) (listed : rule.texts ≠ []) :
    token.isText token.value = true ∧ token.value ∈ rule.texts := by
  have unlisted : PrefixRule.number.texts = [] ∧ PrefixRule.string.texts = [] ∧
      PrefixRule.name.texts = [] := by decide
  obtain ⟨number, string, name⟩ := unlisted
  subst means
  rcases token.prefixRule_cases with ⟨-, found⟩ | ⟨-, found⟩ | found | found
  · exact absurd (found ▸ number) listed
  · exact absurd (found ▸ string) listed
  · exact absurd (found ▸ name) listed
  · exact found

/-- A token of a rule with one text has that text. -/
theorem Token.isText_of_prefixRule (text : String) {rule : PrefixRule}
    (single : rule.texts = [text]) (token : Token) (means : token.prefixRule = rule) :
    token.isText text = true := by
  obtain ⟨written, listed⟩ := text_of_prefixRule means (by simp [single])
  rw [single, List.mem_singleton] at listed
  rwa [listed] at written

variable {waiting : List Expr}

/-- A look for the rule of the operand that the token in front starts. -/
theorem Parse.Follows.prefixRule {β : Type} {after : List Expr} {front : Token → Prop}
    {before : List Symbol} {fits : β → List Symbol → Prop} {next : PrefixRule → Parse β}
    (later : ∀ rule, (next rule).Follows waiting after
      (fun token => token.prefixRule = rule) before fits) :
    (Offside.prefixRule >>= next).Follows waiting after front before fits := by
  have looked : Offside.prefixRule >>= next = Parse.behavior? >>= fun found =>
      next ((found.bind Behavior.prefixRule).getD .name) := by
    rw [Offside.prefixRule, bind_assoc]
    rfl
  rw [looked]
  refine .behavior? fun found => (later _).weaken fun token known => ?_
  rw [Token.prefixRule, known.2]

/-- What reads operands makes them. -/
def Inner.Sound (waiting : List Expr) (inner : Inner) : Prop :=
  ∀ power, (inner.operand power).Makes waiting (.operand power)

namespace Inner

variable {inner : Inner} (sound : inner.Sound waiting)
include sound

/-- An operand that may be missing. -/
theorem optionalOperand_makes (power : Nat) :
    (inner.optionalOperand power).Makes waiting (.optionalOperand power) := by
  refine Follows.makes (.atDelimiter fun ended => ?_)
  cases ended with
  | true => exact .pure (.expr .noOperand)
  | false =>
    refine .check fun comma => ?_
    split
    · exact .pure (.expr .noOperand)
    · exact (sound power).bind fun parsed => .pure (.expr .someOperand)

/-- An expression that may be missing. -/
theorem optionalExpr_makes (power : Nat) :
    (inner.optionalExpr power).Makes waiting (.optional power) := by
  refine Follows.makes ((optionalOperand_makes sound power).bind fun found => ?_)
  cases found with
  | none => exact .pure (.expr .noExpr)
  | some parsed => exact .finish fun bare => .pure (.expr (.someExpr bare))

/-- An expression. -/
theorem expr_makes (power : Nat) : (inner.expr power).Makes waiting (.expr power) := by
  refine Follows.makes ((optionalExpr_makes sound power).bind fun found => ?_)
  cases found with
  | none => exact .failExpression
  | some value => exact .pure (.expr .expr)

/-- A target that may be missing. -/
theorem optionalTarget_makes (context : Context) (power : Nat) :
    (inner.optionalTarget context power).Makes waiting (.optionalTarget context power) := by
  refine Follows.makes ((optionalExpr_makes sound power).bind fun found => ?_)
  cases found with
  | none => exact .pure (.expr .noTarget)
  | some value => exact .lift fun target fits => .pure (.expr (.someTarget fits))

/-- A target. -/
theorem loopTarget_makes :
    inner.loopTarget.Makes waiting (.target .store Power.target) := by
  refine Follows.makes ((optionalTarget_makes sound .store Power.target).bind fun found => ?_)
  cases found with
  | none => exact .failExpression
  | some target => exact .pure (.expr .target)

/-- Further targets. -/
theorem moreTargets_makes (first : Expr) :
    (inner.moreTargets first).Makes waiting (.moreTargets [first]) := by
  refine Makes.loop .moreTargets (fun targets => ?_) inner.bound [first]
  refine .eat ?_ (.pure (.expr .lastTarget))
  refine .check fun last => ?_
  cases last with
  | true => exact .pure (.expr .commaTarget)
  | false =>
    exact (loopTarget_makes sound).bind fun target => .pure ⟨trivial, fun _ => .expr .moreTargets⟩

/-- A target and what it runs over. -/
theorem forIn_makes (power : Nat) :
    (inner.forIn power).Makes waiting fun out => .forIn power out.1 out.2 := by
  have sequence := expr_makes sound power
  refine Follows.makes ((loopTarget_makes sound).bind fun first => .check fun comma => ?_)
  cases comma with
  | true =>
    refine (moreTargets_makes sound first).bind fun targets => .expect fun _ => ?_
    exact sequence.bind fun iter => .pure (.expr .forInTuple)
  | false =>
    refine .expect fun _ => ?_
    exact sequence.bind fun iter => .pure (.expr .forIn)

end Inner

/-- A name. -/
theorem nameRule_follows {front : Token → Prop} :
    nameRule.Follows waiting waiting front [] fun out => Production (.start out) := by
  refine .current fun token _ => ?_
  by_cases named : (token.kind = .name && !token.isKeyword) = true
  · rw [if_pos named]
    refine .advance (fun _ => .identifier token.value) ?_ ?_
    · rintro _ rfl
      exact Terminal.admits_identifier named
    · exact fun _ _ => .pure (.expr .name)
  · rw [if_neg named]
    exact .failExpression

/-- A number literal. -/
theorem numberRule_follows :
    numberRule.Follows waiting waiting (fun token => token.kind = .number) []
      fun out => Production (.start out) := by
  refine .current fun token number => .lift fun value decoded => ?_
  refine .advance (fun _ => .number value) ?_ fun _ _ => .pure (.expr .number)
  rintro _ rfl
  exact ⟨number, decoded⟩

/-- A string literal. -/
theorem stringRule_follows :
    stringRule.Follows waiting waiting (fun token => token.kind = .string) []
      fun out => Production (.start out) := by
  refine .current fun token string => .lift fun value decoded => ?_
  refine .advance (fun _ => .string value) ?_ fun _ _ => .pure (.expr .string)
  rintro _ rfl
  exact ⟨string, decoded⟩

/-- A constant. -/
theorem constantRule_follows :
    constantRule.Follows waiting waiting (fun token => token.prefixRule = .constant) []
      fun out => Production (.start out) := by
  refine .advance (fun token => .text token.value) ?_ ?_
  · exact fun token means => (Token.text_of_prefixRule means (by decide)).1
  · intro token means
    have listed := (Token.text_of_prefixRule means (by decide)).2
    exact .pure (.expr (.constant listed))

/-- Three points. -/
theorem ellipsisRule_follows :
    ellipsisRule.Follows waiting waiting (fun token => token.prefixRule = .ellipsis) []
      fun out => Production (.start out) :=
  .advance_text (Token.isText_of_prefixRule "..." (by decide)) fun _ _ => .pure (.expr .ellipsis)

/-- Before a star there is no parameter that collects arguments by position. -/
def Collected.Fits (found : Collected) : Prop :=
  found.starred = false → found.parameters.vararg = none

namespace Inner

/-- Entries have keys and values as far as it is known whether they are keyed. -/
def Entries.Fits (entries : Entries) : Prop :=
  match entries.keyed with
  | none => entries.keys = [] ∧ entries.values = []
  | some true => entries.keys ≠ []
  | some false => entries.keys = [] ∧ entries.values ≠ []

/-- The phrase that goes on behind entries. -/
def Entries.phrase (entries : Entries) (out : Parsed) : Phrase :=
  match entries.keyed with
  | none => .braces out
  | some true => .pairs entries.keys entries.values out
  | some false => .members entries.values out

/-- What has been read for an entry is all of a production if the entry ends the braces, and is
read on with a brace or with a comma and further entries otherwise. -/
def EntryFits (entries : Entries) (result : Turn Entries Expr) (symbols : List Symbol) : Prop :=
  match result with
  | .again next => next.Fits ∧
    Production (entries.phrase (.plain next.display)) (symbols ++ [.text "\x7d"]) ∧
    ∀ out, Production (entries.phrase out) (symbols ++ [.text ","] ++ [.phrase (next.phrase out)])
  | .done expr => Production (entries.phrase (.plain expr)) symbols

namespace Entries.Fits

variable {entries : Entries}

/-- Entries without keys that may have keys are none. -/
theorem of_isEmpty (fits : entries.Fits) (keyed : entries.keyed ≠ some false)
    (first : entries.keys.isEmpty = true) : entries.keyed = none := by
  obtain ⟨known, keys, values⟩ := entries
  rw [List.isEmpty_iff] at first
  match known with
  | none => rfl
  | some true => exact absurd first fits
  | some false => contradiction

/-- A brace ends the entries. -/
theorem display (fits : entries.Fits) :
    Production (entries.phrase (.plain entries.display)) [.text "\x7d"] := by
  obtain ⟨known, keys, values⟩ := entries
  match known with
  | none =>
    obtain ⟨rfl, rfl⟩ := fits
    exact .expr .emptyBraces
  | some true => exact .expr .dictEnd
  | some false => exact .expr (.setEnd fits.2)

/-- A key and a value fit. -/
theorem pair (fits : entries.Fits) (keyed : entries.keyed ≠ some false) (key : Option Expr)
    (value : Expr) :
    EntryFits entries (.again ⟨some true, entries.keys ++ [key], entries.values ++ [value]⟩)
      [.phrase (.pair key value)] := by
  obtain ⟨known, keys, values⟩ := entries
  match known with
  | none =>
    obtain ⟨rfl, rfl⟩ := fits
    exact ⟨by simp [Fits], .expr .onePair, fun out => .expr .firstPair⟩
  | some true => exact ⟨by simp [Fits], .expr .lastPair, fun out => .expr .pairs⟩
  | some false => contradiction

/-- An element fits. -/
theorem member (fits : entries.Fits) (keyed : entries.keyed ≠ some true) {parsed : Parsed}
    (bare : parsed.Bare) :
    EntryFits entries (.again ⟨some false, entries.keys, entries.values ++ [parsed.expr]⟩)
      [.operand Power.untilComma parsed] := by
  obtain ⟨known, keys, values⟩ := entries
  match known with
  | none =>
    obtain ⟨rfl, rfl⟩ := fits
    exact ⟨by simp [Fits], .expr (.oneMember bare), fun out => .expr (.firstMember bare)⟩
  | some true => contradiction
  | some false =>
    obtain ⟨rfl, -⟩ := fits
    exact ⟨by simp [Fits], .expr (.lastMember bare), fun out => .expr (.members bare)⟩

end Entries.Fits

section parameters

variable {inner : Inner} (sound : inner.Sound waiting) (signature : Signature)
include sound

/-- A parameter. -/
theorem parameter_makes : (inner.parameter signature).Makes waiting (.parameter signature) := by
  refine Follows.makes (.expectName fun name => ?_)
  cases signature with
  | lambda => exact .check fun _ => .pure (.expr .parameter)
  | definition =>
    refine .check fun annotated => ?_
    cases annotated with
    | true =>
      refine .advance_text (fun _ known => known.2) fun _ _ => ?_
      exact (expr_makes sound _).bind fun annotation => .pure (.expr .annotatedParameter)
    | false => exact .pure (.expr .parameter)

/-- A default that may be missing. -/
theorem parameterDefault_makes : inner.parameterDefault.Makes waiting .default := by
  refine Follows.makes (.eat ?_ (.pure (.expr .noDefault)))
  exact (expr_makes sound _).bind fun value => .pure (.expr .someDefault)

/-- The parameter behind a star. -/
theorem starParameter_follows {found : Collected} (fits : found.Fits) :
    (inner.starParameter signature found).Follows waiting waiting (fun _ => True) [.text "*"]
      fun out symbols => out.Fits ∧ Production (.nextParameter signature found out) symbols := by
  rw [starParameter]
  split
  · exact .fail
  · rename_i first
    rw [Bool.not_eq_true] at first
    refine .check fun bare => ?_
    cases bare with
    | true => exact .pure ⟨fun starred => by contradiction, .expr (.bareStar first)⟩
    | false =>
      refine (parameter_makes sound signature).bind fun arg => .pure ?_
      exact ⟨fun starred => by contradiction, .expr (.starParameter first (fits first))⟩

/-- The parameter behind two stars. -/
theorem doubleStarParameter_follows {found : Collected} (fits : found.Fits)
    (fresh : found.parameters.kwarg = none) :
    (inner.doubleStarParameter signature found).Follows waiting waiting (fun _ => True) [.text "**"]
      fun out symbols => out.Fits ∧ Production (.nextParameter signature found out) symbols := by
  refine (parameter_makes sound signature).bind fun arg => .pure ?_
  exact ⟨fits, .expr (.doubleStarParameter fresh)⟩

/-- A parameter without a star. -/
theorem plainParameter_follows {found : Collected} (fits : found.Fits) :
    (inner.plainParameter signature found).Follows waiting waiting (fun _ => True) []
      fun out symbols => out.Fits ∧ Production (.nextParameter signature found out) symbols := by
  refine (parameter_makes sound signature).bind fun arg => ?_
  refine (parameterDefault_makes sound).bind fun given => ?_
  split
  · rename_i behind
    exact .pure ⟨fun starred => by rw [behind] at starred; contradiction,
      .expr (.namedParameter behind)⟩
  · rename_i before
    rw [Bool.not_eq_true] at before
    cases given with
    | some value => exact .pure ⟨fits, .expr (.defaultParameter before)⟩
    | none =>
      dsimp only
      split
      · rename_i first
        exact .pure ⟨fits, .expr (.plainParameter before (List.isEmpty_iff.1 first))⟩
      · exact .fail

/-- The next parameter. -/
theorem nextParameter_follows {found : Collected} (fits : found.Fits) :
    (inner.nextParameter signature found).Follows waiting waiting (fun _ => True) []
      fun out symbols => out.Fits ∧ Production (.nextParameter signature found out) symbols := by
  rw [nextParameter]
  split
  · refine .check fun doubled => ?_
    split <;> exact .fail
  · rename_i fresh
    rw [Bool.not_eq_true, Option.isSome_eq_false_iff, Option.isNone_iff_eq_none] at fresh
    refine .eat (starParameter_follows sound signature fits) (.eat ?_ ?_)
    · exact doubleStarParameter_follows sound signature fits fresh
    · exact (plainParameter_follows sound signature fits).weaken fun _ _ => trivial

/-- Parameters. -/
theorem parameters_makes :
    (inner.parameters signature).Makes waiting (.parameters signature ⟨.none, false⟩) := by
  refine Makes.loop_of Collected.Fits (.parameters signature) (fun found fits => ?_) inner.bound
    (fun _ => rfl)
  refine .check fun closed => ?_
  cases closed with
  | true => exact .pure (.expr .parametersEnd)
  | false =>
    have next := nextParameter_follows sound signature fits
    refine (next.weaken fun _ _ => trivial).bind fun later symbols ⟨fits, production⟩ => ?_
    refine .reduce production (.eat ?_ ?_)
    · exact .pure ⟨fits, fun _ => .expr .parameters⟩
    · exact .pure (.expr .lastParameter)

end parameters

section displays

variable {inner : Inner} (sound : inner.Sound waiting)
include sound

/-- An operator before its operand. -/
theorem unaryRule_follows :
    inner.unaryRule.Follows waiting waiting (fun token => token.prefixRule = .unary) []
      fun out => Production (.start out) := by
  refine .advance (fun token => .text token.value) ?_ ?_
  · exact fun token means => (Token.text_of_prefixRule means (by decide)).1
  · intro token means
    have listed := (Token.text_of_prefixRule means (by decide)).2
    exact (expr_makes sound _).bind fun operand => .pure (.expr (.unary listed))

/-- A star before an expression. -/
theorem starredRule_follows :
    inner.starredRule.Follows waiting waiting (fun token => token.prefixRule = .starred) []
      fun out => Production (.start out) := by
  refine .advance_text (Token.isText_of_prefixRule "*" (by decide)) fun _ _ => ?_
  exact (expr_makes sound _).bind fun value => .pure (.expr .starred)

/-- The word await. -/
theorem awaitRule_follows :
    inner.awaitRule.Follows waiting waiting (fun token => token.prefixRule = .await) []
      fun out => Production (.start out) := by
  refine .advance_text (Token.isText_of_prefixRule "await" (by decide)) fun _ _ => ?_
  exact (expr_makes sound _).bind fun value => .pure (.expr .await)

/-- The word yield. -/
theorem yieldRule_follows :
    inner.yieldRule.Follows waiting waiting (fun token => token.prefixRule = .yield) []
      fun out => Production (.start out) := by
  refine .advance_text (Token.isText_of_prefixRule "yield" (by decide)) fun _ _ => .eat ?_ ?_
  · exact (expr_makes sound _).bind fun value => .pure (.expr .yieldFrom)
  · exact (optionalExpr_makes sound _).bind fun value => .pure (.expr .yield)

/-- A function without a name. -/
theorem lambdaRule_follows :
    inner.lambdaRule.Follows waiting waiting (fun token => token.prefixRule = .lambda) []
      fun out => Production (.start out) := by
  refine .advance_text (Token.isText_of_prefixRule "lambda" (by decide)) fun _ _ => ?_
  refine (parameters_makes sound .lambda).bind fun parameters => .expect fun _ => ?_
  exact (expr_makes sound _).bind fun body => .pure (.expr .lambda)

/-- Parentheses. -/
theorem groupingRule_follows :
    inner.groupingRule.Follows waiting waiting (fun token => token.prefixRule = .grouping) []
      fun out => Production (.start out) := by
  refine .advance_text (Token.isText_of_prefixRule "(" (by decide)) fun _ _ => .eat ?_ ?_
  · exact .pure (.expr .emptyTuple)
  · exact (sound _).bind fun parsed => .expect fun _ => .pure (.expr .grouped)

/-- Square brackets. -/
theorem listRule_follows :
    inner.listRule.Follows waiting waiting (fun token => token.prefixRule = .list) []
      fun out => Production (.start out) := by
  refine .advance_text (Token.isText_of_prefixRule "[" (by decide)) fun _ _ => ?_
  refine (Makes.loop .elements (fun found => ?_) _ _).last fun out => .expr .list
  refine .eat (.pure (.expr .listEnd)) ((sound _).bind fun parsed => ?_)
  split
  · rename_i element clauses open_
    exact .expect fun _ => .drop found (.pure (.expr (.listComprehension open_)))
  · refine .finish fun bare => .eat ?_ ?_
    · exact .pure ⟨trivial, fun _ => .expr (.elements bare)⟩
    · exact .expect fun _ => .pure (.expr (.lastElement bare))

/-- The value behind a key and a colon. -/
theorem keyedEntry_follows {entries : Entries} (fits : entries.Fits)
    (keyed : entries.keyed ≠ some false) {key : Parsed} (named : key.Bare) :
    (inner.keyedEntry entries key.expr).Follows waiting waiting (fun _ => True)
      [.operand Power.untilComma key] (EntryFits entries) := by
  refine .expect fun _ => (sound _).bind fun parsed => ?_
  split
  · rename_i value clauses open_
    split
    · rename_i first
      refine .expect fun _ => .pure ?_
      have start : entries.keyed = none := fits.of_isEmpty keyed first
      rw [EntryFits, Entries.phrase, start]
      exact .expr (.dictComprehension named open_)
    · exact .fail
  · exact .finish fun bare => .reduce (.expr (.pair named bare)) (.pure (fits.pair keyed _ _))

/-- An entry in braces. -/
theorem entry_follows {entries : Entries} (fits : entries.Fits) :
    (inner.entry entries).Follows waiting waiting (fun _ => True) [] (EntryFits entries) := by
  refine .check fun stars => ?_
  split
  · exact .fail
  · rename_i other
    refine .eat_known (fun token known stars => ?_) ((sound _).bind fun parsed => ?_)
    · have keyed : entries.keyed ≠ some false := by
        rintro same
        rw [same, known.2.symm.trans stars] at other
        simp at other
      refine (expr_makes sound _).bind fun value => .reduce (.expr .mapping) (.pure ?_)
      exact fits.pair keyed none value
    · split
      · rename_i element clauses open_ start
        refine .expect fun _ => .pure ?_
        rw [EntryFits, Entries.phrase, start]
        exact .expr (.setComprehension open_)
      · refine .finish fun bare => .check fun colon => ?_
        split
        · rename_i keyed
          have differs : entries.keyed ≠ some false := by
            intro same
            rw [same] at keyed
            contradiction
          exact (keyedEntry_follows sound fits differs bare).weaken fun _ _ => trivial
        · rename_i unkeyed
          refine .pure (fits.member ?_ bare)
          intro same
          rw [same] at unkeyed
          exact unkeyed rfl

/-- Braces. -/
theorem braceRule_follows :
    inner.braceRule.Follows waiting waiting (fun token => token.prefixRule = .brace) []
      fun out => Production (.start out) := by
  refine .advance_text (Token.isText_of_prefixRule "\x7b" (by decide)) fun _ _ => ?_
  refine (Makes.loop_of Entries.Fits Entries.phrase (fun entries fits => ?_) _ ?_).last
    fun out => .expr .brace
  · refine .eat (.pure fits.display) ?_
    refine ((entry_follows sound fits).weaken fun _ _ => trivial).bind fun result symbols fit => ?_
    cases result with
    | done expr => exact .pure fit
    | again next =>
      obtain ⟨fits, last, more⟩ := fit
      exact .eat (.pure ⟨fits, more⟩) (.expect fun _ => .pure last)
  · exact ⟨rfl, rfl⟩

end displays

end Inner

/-- The start of an operand is read by the rule of its token. -/
theorem PrefixRule.parse_follows {inner : Inner} (sound : inner.Sound waiting)
    (rule : PrefixRule) :
    (rule.parse inner).Follows waiting waiting (fun token => token.prefixRule = rule) []
      fun out => Production (.start out) := by
  cases rule with
  | name => exact nameRule_follows
  | number =>
    exact numberRule_follows.weaken fun token means => token.kind_of_prefixRule.1 means
  | string =>
    exact stringRule_follows.weaken fun token means => token.kind_of_prefixRule.2 means
  | constant => exact constantRule_follows
  | ellipsis => exact ellipsisRule_follows
  | unary => exact Inner.unaryRule_follows sound
  | starred => exact Inner.starredRule_follows sound
  | await => exact Inner.awaitRule_follows sound
  | yield => exact Inner.yieldRule_follows sound
  | lambda => exact Inner.lambdaRule_follows sound
  | grouping => exact Inner.groupingRule_follows sound
  | list => exact Inner.listRule_follows sound
  | brace => exact Inner.braceRule_follows sound

end Offside
