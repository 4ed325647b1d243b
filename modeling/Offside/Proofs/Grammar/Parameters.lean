import Offside.Proofs.Expression.RoundTrip
import Offside.Proofs.Grammar.Arguments
import Offside.Proofs.Grammar.Mirror

/-!
# Parameters read back

Parameters are written one by one, with commas between them (`Arguments.written`,
`writeParameters`). A parameter is read in one turn of a loop and added to those before it, if it
may follow them (`Collected.Accepts`). So parameters that are written in order read back, before the
closing text of their signature. Parameters out of order are refused whatever their annotations and
defaults are and whatever follows them (`parameters_refuses`).
-/
namespace Offside

open Parse

/-- A parameter, as it is written. -/
inductive Parameter where
  /-- A parameter without a star, and its default if it has one. -/
  | plain (arg : Arg) (given : Option Expr)
  /-- A parameter behind a star, or a star alone. -/
  | star (arg : Option Arg)
  /-- A parameter behind two stars. -/
  | doubleStar (arg : Arg)

/-- An expression behind a mark, if there is one. -/
def writeBehind (mark : String) : Option Expr → List Token
  | some expr => .mark mark :: wrapped Power.untilComma expr expr.write
  | none => []

/-- The tokens that write the name of a parameter and its annotation. -/
def Arg.write (arg : Arg) : List Token :=
  .word arg.name :: writeBehind ":" arg.annotation

/-- The tokens that write a parameter. -/
def Parameter.write : Parameter → List Token
  | .plain arg given => arg.write ++ writeBehind "=" given
  | .star (some arg) => .mark "*" :: arg.write
  | .star none => [.mark "*"]
  | .doubleStar arg => .mark "**" :: arg.write

/-- The tokens that write parameters, with commas between them. -/
def writeParameters : List Parameter → List Token
  | [] => []
  | [parameter] => parameter.write
  | parameter :: next :: later =>
    parameter.write ++ .mark "," :: writeParameters (next :: later)

/-- Parameters in the order in which they are written: those by position, of which the last ones
have the defaults; the one behind a star, or a star alone in front of parameters by name; those by
name with their defaults; and the one behind two stars. -/
def Arguments.written (parameters : Arguments) : List Parameter :=
  let plain := parameters.args.length - parameters.defaults.length
  List.zipWith .plain parameters.args
      (List.replicate plain Option.none ++ parameters.defaults.map some) ++
    (if parameters.vararg.isNone && parameters.kwonlyargs.isEmpty then []
      else [.star parameters.vararg]) ++
    List.zipWith .plain parameters.kwonlyargs parameters.kwDefaults ++
    parameters.kwarg.toList.map .doubleStar

/-- A parameter that can be written: its name is an identifier, and its annotation is an expression
that can be written. A parameter of a lambda has none. -/
structure Arg.IsWritable (signature : Signature) (arg : Arg) : Prop where
  /-- The name is an identifier. -/
  identifier : isIdentifier arg.name = true
  /-- The annotation can be written. -/
  hint : ∀ hint ∈ arg.annotation, hint.IsCore
  /-- In a lambda there is no annotation. -/
  bare : signature = .lambda → arg.annotation = none

/-- Parameters that can be written: defaults of the last parameters by position, and for each
parameter by name a default or none. -/
structure Arguments.IsWritable (signature : Signature) (parameters : Arguments) : Prop where
  /-- There are no more defaults than parameters by position. -/
  aligned : parameters.defaults.length ≤ parameters.args.length
  /-- Each parameter by name has a default or none. -/
  paired : parameters.kwDefaults.length = parameters.kwonlyargs.length
  /-- Each parameter can be written. -/
  args : ∀ arg ∈ parameters.args ++ parameters.vararg.toList ++ parameters.kwonlyargs ++
    parameters.kwarg.toList, arg.IsWritable signature
  /-- Each default can be written. -/
  given : ∀ value ∈ parameters.defaults ++ parameters.kwDefaults.filterMap id, value.IsCore

namespace Parameter

/-- The name and the annotation of a parameter. -/
def arg? : Parameter → Option Arg
  | .plain arg _ => some arg
  | .star arg => arg
  | .doubleStar arg => some arg

/-- The default of a parameter. -/
def given? : Parameter → Option Expr
  | .plain _ given => given
  | .star _ => none
  | .doubleStar _ => none

/-- A parameter whose parts can be written. -/
structure IsWritable (signature : Signature) (parameter : Parameter) : Prop where
  /-- Its name and its annotation can be written. -/
  arg : ∀ arg ∈ parameter.arg?, arg.IsWritable signature
  /-- Its default can be written. -/
  given : ∀ value ∈ parameter.given?, value.IsCore

end Parameter

namespace Collected

/-- Parameters with one more. -/
def add (collected : Collected) : Parameter → Collected
  | .star none => { collected with starred := true }
  | .star (some arg) => ⟨{ collected.parameters with vararg := some arg }, true⟩
  | .doubleStar arg =>
    { collected with parameters := { collected.parameters with kwarg := some arg } }
  | .plain arg given =>
    if collected.starred then
      { collected with
        parameters := { collected.parameters with
          kwonlyargs := collected.parameters.kwonlyargs ++ [arg]
          kwDefaults := collected.parameters.kwDefaults ++ [given] } }
    else
      { collected with
        parameters := { collected.parameters with
          args := collected.parameters.args ++ [arg]
          defaults := collected.parameters.defaults ++ given.toList } }

/-- A parameter may follow: none follows the one behind two stars, there is one star, and one
without a default by position does not follow one with a default. -/
def Accepts (collected : Collected) (parameter : Parameter) : Prop :=
  collected.parameters.kwarg = none ∧
    match parameter with
    | .star _ => collected.starred = false
    | .plain _ none => collected.starred = true ∨ collected.parameters.defaults = []
    | .plain _ (some _) => True
    | .doubleStar _ => True

/-- Each parameter may follow those before it. -/
def AcceptsAll (collected : Collected) : List Parameter → Prop
  | [] => True
  | parameter :: later => collected.Accepts parameter ∧ (collected.add parameter).AcceptsAll later

/-- Parameters in order may follow if the first ones may and the others may follow these. -/
theorem acceptsAll_append {collected : Collected} {first second : List Parameter} :
    collected.AcceptsAll (first ++ second) ↔
      collected.AcceptsAll first ∧ (first.foldl add collected).AcceptsAll second := by
  induction first generalizing collected with
  | nil => simp [AcceptsAll]
  | cons parameter first ih => simp [AcceptsAll, ih, and_assoc]

end Collected

section reading

variable {depth : Nat} {rest : List Token}

/-- A name that is an identifier is read. -/
theorem gives_expectName {id : String} (identifier : isIdentifier id = true) :
    expectName.Gives (.word id :: rest) id rest := by
  have unreserved : isReserved id = false := by
    rw [isIdentifier, Bool.and_eq_true, Bool.not_eq_true'] at identifier
    exact identifier.2
  refine .current_bind fun found same => ?_
  have kind : found.kind = .name := congrArg Token.kind same
  have value : found.value = id := congrArg Token.value same
  have free : (decide (found.kind = .name) && !found.isKeyword) = true := by
    simp [Token.isKeyword, kind, value, unreserved]
  rw [if_pos free]
  refine .advance_bind fun taken same => ?_
  have text : taken.value = id := congrArg Token.value same
  rw [text]
  exact .pure id rest

/-- An expression behind a mark is read where the token behind it ends it. -/
theorem gives_behind {expr : Expr} (core : expr.IsCore)
    (stops : (Token.front rest).binding ≤ Power.untilComma)
    (deep : (wrapped Power.untilComma expr expr.write ++ rest).length < depth) :
    ((Inner.upTo depth).expr Power.untilComma).Gives
      (wrapped Power.untilComma expr expr.write ++ rest) expr rest :=
  (core.reads.expr core.led (by decide) stops deep).2

/-- The token ends a parameter of a signature: it goes on with no expression, and starts no default
and no annotation. -/
structure Token.EndsParameter (signature : Signature) (token : Token) : Prop where
  /-- It goes on with no expression. -/
  stops : token.binding ≤ Power.untilComma
  /-- It starts no default. -/
  bare : token.isText "=" = false
  /-- It starts no annotation. -/
  unhinted : signature = .definition → token.isText ":" = false

/-- A comma ends a parameter. -/
theorem Token.endsParameter_comma (signature : Signature) :
    (Token.mark ",").EndsParameter signature :=
  ⟨by decide, rfl, fun _ => rfl⟩

/-- The closing text ends a parameter. -/
theorem Token.endsParameter_closing (signature : Signature) :
    (Token.mark signature.closing).EndsParameter signature := by
  refine ⟨?_, ?_, ?_⟩
  · cases signature <;> decide
  · cases signature <;> rfl
  · rintro rfl
    rfl

variable {signature : Signature} {collected : Collected} {arg : Arg} {given : Option Expr}

/-- A parameter is read with its annotation. -/
theorem gives_parameter (writable : arg.IsWritable signature)
    (stops : (Token.front rest).binding ≤ Power.untilComma)
    (unhinted : signature = .definition → (Token.front rest).isText ":" = false)
    (deep : (arg.write ++ rest).length < depth) :
    ((Inner.upTo depth).parameter signature).Gives (arg.write ++ rest) arg rest := by
  obtain ⟨name, annotation⟩ := arg
  obtain ⟨identifier, hint, bare⟩ := writable
  rw [Arg.write, List.cons_append] at deep ⊢
  refine .bind (gives_expectName identifier) fun _ => ?_
  cases signature with
  | lambda =>
    obtain rfl : annotation = none := bare rfl
    exact .pure _ rest
  | definition =>
    refine .bind (.check ":" _) fun _ => ?_
    rw [decide_eq_true rfl, Bool.true_and]
    cases annotation with
    | none =>
      rw [if_neg (Bool.not_eq_true _ ▸ unhinted rfl)]
      exact .pure _ rest
    | some expr =>
      have front : (Token.front (writeBehind ":" (some expr) ++ rest)).isText ":" = true := rfl
      rw [if_pos front]
      refine .advance_bind fun _ _ => .bind (gives_behind (hint expr rfl) stops ?_) fun _ =>
        .pure _ rest
      rw [writeBehind, List.cons_append, List.length_cons, List.length_cons] at deep
      omega

/-- A default is read, if it is followed by something else than an equals sign. -/
theorem gives_default (core : ∀ value ∈ given, value.IsCore)
    (stops : (Token.front rest).binding ≤ Power.untilComma)
    (bare : (Token.front rest).isText "=" = false)
    (deep : (writeBehind "=" given ++ rest).length < depth) :
    (Inner.upTo depth).parameterDefault.Gives (writeBehind "=" given ++ rest) given rest := by
  cases given with
  | none => exact .bind (.eat_other bare) fun _ => .pure _ rest
  | some expr =>
    rw [writeBehind, List.cons_append] at deep ⊢
    refine .bind (.eat rfl) fun _ => .bind (gives_behind (core expr rfl) stops ?_) fun _ =>
      .pure _ rest
    rw [List.length_cons] at deep
    omega

/-- The first star is read with its parameter. A star alone stands before a comma. -/
theorem gives_starParameter {found : Option Arg}
    (writable : ∀ arg ∈ found, arg.IsWritable signature) (first : collected.starred = false)
    (ends : (Token.front rest).EndsParameter signature)
    (alone : found = none → (Token.front rest).isText "," = true)
    (deep : ((found.map Arg.write).getD [] ++ rest).length < depth) :
    ((Inner.upTo depth).starParameter signature collected).Gives
      ((found.map Arg.write).getD [] ++ rest) (collected.add (.star found)) rest := by
  have single : ¬collected.starred = true := by simp [first]
  rw [Inner.starParameter, if_neg single]
  cases found with
  | none =>
    rw [Option.map_none, Option.getD_none, List.nil_append]
    refine .bind (.check "," rest) fun _ => ?_
    rw [if_pos (alone rfl)]
    exact .pure _ rest
  | some arg =>
    have written := writable arg rfl
    have leads := (Token.leads_word written.identifier).1
    refine .bind (.check "," _) fun _ => ?_
    rw [if_neg (Bool.not_eq_true _ ▸ leads.2 "," (by decide))]
    exact .bind (gives_parameter written ends.stops ends.unhinted deep) fun _ => .pure _ rest

/-- A parameter without a star is read with its default. -/
theorem gives_plainParameter (writable : (Parameter.plain arg given).IsWritable signature)
    (accepts : collected.Accepts (.plain arg given))
    (ends : (Token.front rest).EndsParameter signature)
    (deep : (arg.write ++ (writeBehind "=" given ++ rest)).length < depth) :
    ((Inner.upTo depth).plainParameter signature collected).Gives
      (arg.write ++ (writeBehind "=" given ++ rest)) (collected.add (.plain arg given)) rest := by
  have written := writable.arg arg rfl
  have parameter : ((Inner.upTo depth).parameter signature).Gives
      (arg.write ++ (writeBehind "=" given ++ rest)) arg (writeBehind "=" given ++ rest) := by
    cases given with
    | none => exact gives_parameter written ends.stops ends.unhinted deep
    | some value =>
      have equals : (Token.mark "=").binding ≤ Power.untilComma := by decide
      exact gives_parameter written equals (fun _ => rfl) deep
  refine .bind parameter fun shorter => ?_
  refine .bind (gives_default writable.given ends.stops ends.bare (by omega)) fun _ => ?_
  rw [Collected.add]
  by_cases starred : collected.starred = true
  · rw [if_pos starred, if_pos starred]
    exact .pure _ rest
  · rw [if_neg starred, if_neg starred]
    cases given with
    | some value => exact .pure _ rest
    | none =>
      have first : collected.parameters.defaults = [] := accepts.2.resolve_left starred
      have empty : collected.parameters.defaults.isEmpty = true := by rw [first]; rfl
      rw [if_pos empty, Option.toList_none, List.append_nil]
      exact .pure _ rest

/-- A parameter that may follow those before it is added to them. A star alone stands before a
comma. -/
theorem gives_nextParameter {parameter : Parameter} (writable : parameter.IsWritable signature)
    (accepts : collected.Accepts parameter) (ends : (Token.front rest).EndsParameter signature)
    (alone : parameter = .star none → (Token.front rest).isText "," = true)
    (deep : (parameter.write ++ rest).length < depth) :
    ((Inner.upTo depth).nextParameter signature collected).Gives (parameter.write ++ rest)
      (collected.add parameter) rest := by
  have last : ¬collected.parameters.kwarg.isSome = true := by simp [accepts.1]
  rw [Inner.nextParameter, if_neg last]
  cases parameter with
  | star arg =>
    have split : (Parameter.star arg).write ++ rest =
        .mark "*" :: ((arg.map Arg.write).getD [] ++ rest) := by
      cases arg <;> rfl
    rw [split] at deep ⊢
    rw [List.length_cons] at deep
    refine .bind (.eat rfl) fun _ => ?_
    rw [if_pos rfl]
    exact gives_starParameter writable.arg accepts.2 ends (fun same => alone (by rw [same]))
      (by omega)
  | doubleStar arg =>
    rw [Parameter.write, List.cons_append] at deep ⊢
    rw [List.length_cons] at deep
    refine .bind (.eat_other rfl) fun _ => ?_
    rw [if_neg Bool.false_ne_true]
    refine .bind (.eat rfl) fun _ => ?_
    rw [if_pos rfl]
    have written := writable.arg arg rfl
    exact .bind (gives_parameter written ends.stops ends.unhinted (by omega)) fun _ => .pure _ rest
  | plain arg given =>
    have leads := (Token.leads_word (writable.arg arg rfl).identifier).1
    rw [Parameter.write, List.append_assoc] at deep ⊢
    refine .bind (.eat_other (leads.2 "*" (by decide))) fun _ => ?_
    rw [if_neg Bool.false_ne_true]
    refine .bind (.eat_other (leads.2 "**" (by decide))) fun _ => ?_
    rw [if_neg Bool.false_ne_true]
    exact gives_plainParameter writable accepts ends deep

/-- One turn of reading parameters. -/
def parametersTurn (inner : Inner) (signature : Signature) (collected : Collected) :
    Parse (Turn Collected Arguments) := do
  if ← check signature.closing then return .done collected.parameters
  let collected ← inner.nextParameter signature collected
  if ← eat "," then return .again collected else return .done collected.parameters

/-- Parameters are read in turns. -/
theorem parameters_eq (inner : Inner) (signature : Signature) :
    inner.parameters signature =
      loop (parametersTurn inner signature) inner.bound ⟨.none, false⟩ :=
  rfl

/-- A parameter starts with a token that closes no signature. -/
theorem Parameter.IsWritable.opens {parameter : Parameter} (writable : parameter.IsWritable signature) :
    (Token.front (parameter.write ++ rest)).isText signature.closing = false := by
  cases parameter with
  | star arg => cases arg <;> cases signature <;> rfl
  | doubleStar arg => cases signature <;> rfl
  | plain arg given =>
    refine Token.word_isText (writable.arg arg rfl).identifier ?_
    cases signature <;> decide

/-- Parameters in order are read one by one up to the closing text. A star alone is not the last
one. -/
theorem gives_parameters {parameters : List Parameter}
    (writable : ∀ parameter ∈ parameters, parameter.IsWritable signature)
    (accepts : collected.AcceptsAll parameters)
    (more : parameters.getLast? ≠ some (.star none)) {bound : Nat}
    (deep : (writeParameters parameters ++ .mark signature.closing :: rest).length < depth)
    (enough : (writeParameters parameters ++ .mark signature.closing :: rest).length < bound) :
    (loop (parametersTurn (.upTo depth) signature) bound collected).Gives
      (writeParameters parameters ++ .mark signature.closing :: rest)
      (parameters.foldl Collected.add collected).parameters (.mark signature.closing :: rest) := by
  induction parameters generalizing collected bound with
  | nil =>
    obtain ⟨fewer, rfl⟩ := Nat.exists_eq_add_one_of_ne_zero (Nat.ne_zero_of_lt enough)
    have closes : (Token.front (writeParameters [] ++ .mark signature.closing :: rest)).isText
        signature.closing = true := by
      cases signature <;> rfl
    refine .done (.bind (.check _ _) fun _ => ?_)
    rw [if_pos closes]
    exact .pure _ _
  | cons parameter later ih =>
    obtain ⟨fewer, rfl⟩ := Nat.exists_eq_add_one_of_ne_zero (Nat.ne_zero_of_lt enough)
    obtain ⟨here, below⟩ := List.forall_mem_cons.1 writable
    obtain ⟨first, others⟩ := accepts
    cases later with
    | nil =>
      have ends := Token.endsParameter_closing signature
      have other : (Token.mark signature.closing).isText "," = false := by
        cases signature <;> rfl
      rw [writeParameters] at deep ⊢
      refine .done (.bind (.check _ _) fun _ => ?_)
      rw [if_neg (Bool.not_eq_true _ ▸ here.opens)]
      refine .bind (gives_nextParameter here first ends (fun same => ?_) deep) fun _ => ?_
      · rw [same] at more
        contradiction
      · exact .bind (.eat_other other) fun _ => .pure _ _
    | cons next later =>
      have ends := Token.endsParameter_comma signature
      rw [writeParameters, List.append_assoc, List.cons_append] at deep enough ⊢
      have turn : (parametersTurn (.upTo depth) signature collected).Gives
          (parameter.write ++ .mark "," ::
            (writeParameters (next :: later) ++ .mark signature.closing :: rest))
          (.again (collected.add parameter))
          (writeParameters (next :: later) ++ .mark signature.closing :: rest) := by
        refine .bind (.check _ _) fun _ => ?_
        rw [if_neg (Bool.not_eq_true _ ▸ here.opens)]
        refine .bind (gives_nextParameter here first ends (fun _ => rfl) deep) fun _ => ?_
        exact .bind (.eat rfl) fun _ => .pure _ _
      rw [List.length_append, List.length_cons] at deep enough
      exact .again turn fun _ => ih below others (by simpa using more) (by omega) (by omega)

end reading

section written

open Collected

variable {collected : Collected} {args : List Arg} {givens : List (Option Expr)}

/-- No parameter without a default stands behind one with a default. -/
def DefaultsLast (givens : List (Option Expr)) : Prop :=
  givens.Pairwise fun upper lower => upper.isSome = true → lower.isSome = true

/-- Parameters by position are added with their defaults. -/
theorem foldl_positional (paired : args.length = givens.length)
    (before : collected.starred = false) :
    (List.zipWith .plain args givens).foldl add collected =
      ⟨{ collected.parameters with
          args := collected.parameters.args ++ args
          defaults := collected.parameters.defaults ++ givens.filterMap id }, false⟩ := by
  induction args generalizing collected givens with
  | nil =>
    obtain rfl := List.eq_nil_of_length_eq_zero paired.symm
    obtain ⟨⟨_, _, _, _, _, _⟩, starred⟩ := collected
    obtain rfl : starred = false := before
    simp only [List.filterMap_nil, List.append_nil, List.zipWith_nil_left, List.foldl_nil]
  | cons arg args ih =>
    obtain ⟨given, givens, rfl⟩ := List.exists_cons_of_length_eq_add_one paired.symm
    have added : (collected.add (.plain arg given)).starred = false := by simp [add, before]
    rw [List.zipWith_cons_cons, List.foldl_cons, ih (by simpa using paired) added]
    cases given <;> simp [add, before]

/-- Parameters by position may follow, if those with defaults stand behind those without. -/
theorem acceptsAll_positional (last : collected.parameters.kwarg = none)
    (before : collected.starred = false)
    (ordered : DefaultsLast givens)
    (behind : collected.parameters.defaults ≠ [] → ∀ given ∈ givens, given.isSome = true) :
    collected.AcceptsAll (List.zipWith .plain args givens) := by
  induction args generalizing collected givens with
  | nil => trivial
  | cons arg args ih =>
    cases givens with
    | nil => trivial
    | cons given givens =>
      obtain ⟨first, later⟩ := List.pairwise_cons.1 ordered
      have kept : (collected.add (.plain arg given)).parameters.kwarg = none ∧
          (collected.add (.plain arg given)).starred = false := by
        simp [add, before, last]
      cases given with
      | none =>
        have fresh : collected.parameters.defaults = [] := Decidable.byContradiction fun some_ =>
          Bool.false_ne_true (behind some_ none List.mem_cons_self)
        have same : (collected.add (.plain arg none)).parameters.defaults = [] := by
          simp [add, before, fresh]
        exact ⟨⟨last, .inr fresh⟩, ih kept.1 kept.2 later fun some_ => absurd same some_⟩
      | some value =>
        exact ⟨⟨last, trivial⟩, ih kept.1 kept.2 later fun _ given member => first given member rfl⟩

/-- Parameters by name are added with their defaults. -/
theorem foldl_named (paired : args.length = givens.length) (behind : collected.starred = true) :
    (List.zipWith .plain args givens).foldl add collected =
      ⟨{ collected.parameters with
          kwonlyargs := collected.parameters.kwonlyargs ++ args
          kwDefaults := collected.parameters.kwDefaults ++ givens }, true⟩ := by
  induction args generalizing collected givens with
  | nil =>
    obtain rfl := List.eq_nil_of_length_eq_zero paired.symm
    obtain ⟨⟨_, _, _, _, _, _⟩, starred⟩ := collected
    obtain rfl : starred = true := behind
    simp only [List.append_nil, List.zipWith_nil_left, List.foldl_nil]
  | cons arg args ih =>
    obtain ⟨given, givens, rfl⟩ := List.exists_cons_of_length_eq_add_one paired.symm
    have added : (collected.add (.plain arg given)).starred = true := by simp [add, behind]
    rw [List.zipWith_cons_cons, List.foldl_cons, ih (by simpa using paired) added]
    simp [add, behind]

/-- Parameters by name may follow behind a star. -/
theorem acceptsAll_named (last : collected.parameters.kwarg = none)
    (behind : collected.starred = true) :
    collected.AcceptsAll (List.zipWith .plain args givens) := by
  induction args generalizing collected givens with
  | nil => trivial
  | cons arg args ih =>
    cases givens with
    | nil => trivial
    | cons given givens =>
      have kept : (collected.add (.plain arg given)).parameters.kwarg = none ∧
          (collected.add (.plain arg given)).starred = true := by
        simp [add, behind, last]
      refine ⟨⟨last, ?_⟩, ih kept.1 kept.2⟩
      cases given with
      | none => exact .inl behind
      | some value => trivial

/-- The parameter behind two stars is the last one. -/
theorem foldl_last (last : collected.parameters.kwarg = none) (kwarg : Option Arg) :
    collected.AcceptsAll (kwarg.toList.map .doubleStar) ∧
      ((kwarg.toList.map Parameter.doubleStar).foldl add collected).parameters =
        { collected.parameters with kwarg } := by
  cases kwarg with
  | none =>
    obtain ⟨⟨_, _, _, _, kwarg, _⟩, starred⟩ := collected
    obtain rfl : kwarg = none := last
    exact ⟨trivial, rfl⟩
  | some arg => exact ⟨⟨⟨last, trivial⟩, trivial⟩, rfl⟩

/-- Parameters as they are written may follow one another, and are added to the parameters. -/
theorem foldl_written {parameters : Arguments}
    (aligned : parameters.defaults.length ≤ parameters.args.length)
    (paired : parameters.kwDefaults.length = parameters.kwonlyargs.length) :
    AcceptsAll ⟨.none, false⟩ parameters.written ∧
      (parameters.written.foldl add ⟨.none, false⟩).parameters = parameters := by
  obtain ⟨args, vararg, kwonlyargs, kwDefaults, kwarg, defaults⟩ := parameters
  dsimp only at aligned paired
  let givens : List (Option Expr) :=
    List.replicate (args.length - defaults.length) Option.none ++ defaults.map some
  have positional : args.length = givens.length := by
    simp only [givens, List.length_append, List.length_replicate, List.length_map]
    omega
  have ordered : DefaultsLast givens := by
    refine List.pairwise_append.2 ⟨?_, ?_, ?_⟩
    · exact List.pairwise_replicate.2 (.inr fun wrong => wrong)
    · exact List.pairwise_map.2 (List.pairwise_of_forall_mem_list fun _ _ _ _ _ => rfl)
    · rintro - - lower member -
      obtain ⟨value, -, rfl⟩ := List.mem_map.1 member
      rfl
  have given : givens.filterMap id = defaults := by
    simp [givens, List.filterMap_append]
  have front : AcceptsAll ⟨.none, false⟩ (List.zipWith .plain args givens) :=
    acceptsAll_positional rfl rfl ordered fun some_ => absurd rfl some_
  rw [Arguments.written]
  have position : (List.zipWith .plain args givens).foldl add ⟨.none, false⟩ =
      ⟨{ Arguments.none with args, defaults }, false⟩ := by
    rw [foldl_positional positional rfl, given]
    rfl
  simp only [acceptsAll_append, List.foldl_append]
  rw [show List.replicate (args.length - defaults.length) Option.none ++ defaults.map some = givens
    from rfl, position]
  by_cases unstarred : (vararg.isNone && kwonlyargs.isEmpty) = true
  · obtain ⟨none_, empty⟩ := Bool.and_eq_true_iff.1 unstarred
    obtain rfl := Option.isNone_iff_eq_none.1 none_
    obtain rfl := List.isEmpty_iff.1 empty
    obtain rfl := List.eq_nil_of_length_eq_zero paired
    have rest := @foldl_last ⟨{ Arguments.none with args, defaults }, false⟩ rfl kwarg
    rw [if_pos unstarred]
    exact ⟨⟨⟨⟨front, trivial⟩, trivial⟩, rest.1⟩, rest.2⟩
  · have star : [Parameter.star vararg].foldl add ⟨{ Arguments.none with args, defaults }, false⟩ =
        ⟨{ Arguments.none with args, vararg, defaults }, true⟩ := by
      cases vararg <;> rfl
    have named : (List.zipWith .plain kwonlyargs kwDefaults).foldl add
        ⟨{ Arguments.none with args, vararg, defaults }, true⟩ =
          ⟨{ Arguments.none with args, vararg, kwonlyargs, kwDefaults, defaults }, true⟩ := by
      rw [foldl_named paired.symm rfl]
      rfl
    have rest := @foldl_last
      ⟨{ Arguments.none with args, vararg, kwonlyargs, kwDefaults, defaults }, true⟩ rfl kwarg
    rw [if_neg unstarred, star, named]
    exact ⟨⟨⟨⟨front, ⟨rfl, rfl⟩, trivial⟩, acceptsAll_named rfl rfl⟩, rest.1⟩, rest.2⟩

end written

section refused

variable (inner : Inner) (signature : Signature)

/-- A parameter is read by itself, whatever stands before it. -/
inductive Inner.ReadsParameter : State → Parameter → State → Prop where
  /-- A star alone, before a comma. -/
  | alone {state behind : State} (star : eat "*" state = .ok true behind)
      (comma : behind.current.isText "," = true) : ReadsParameter state (.star none) behind
  /-- A parameter behind a star. -/
  | star {state next behind : State} {arg : Arg} (star : eat "*" state = .ok true next)
      (other : next.current.isText "," = false)
      (read : inner.parameter signature next = .ok arg behind) :
      ReadsParameter state (.star (some arg)) behind
  /-- A parameter behind two stars. -/
  | doubleStar {state next behind : State} {arg : Arg}
      (other : state.current.isText "*" = false) (stars : eat "**" state = .ok true next)
      (read : inner.parameter signature next = .ok arg behind) :
      ReadsParameter state (.doubleStar arg) behind
  /-- A parameter without a star. -/
  | plain {state between behind : State} {arg : Arg} {given : Option Expr}
      (other : state.current.isText "*" = false) (bare : state.current.isText "**" = false)
      (read : inner.parameter signature state = .ok arg between)
      (default : inner.parameterDefault between = .ok given behind) :
      ReadsParameter state (.plain arg given) behind

/-- Parameters are read in order, each by itself with a comma behind it. -/
inductive Inner.ReadsParameters : State → List Parameter → State → Prop where
  /-- No parameter. -/
  | nil {state : State} : ReadsParameters state [] state
  /-- A parameter with a comma behind it, and further ones. -/
  | cons {state between next behind : State} {parameter : Parameter} {later : List Parameter}
      (opens : state.current.isText signature.closing = false)
      (read : inner.ReadsParameter signature state parameter between)
      (comma : eat "," between = .ok true next) (rest : ReadsParameters next later behind) :
      ReadsParameters state (parameter :: later) behind

/-- What is in front may not follow the parameters before it. -/
inductive Inner.Misplaced (before : List Parameter) (state : State) : Prop where
  /-- Another parameter follows the one behind two stars. -/
  | behindLast {arg : Arg} (last : .doubleStar arg ∈ before)
      (opens : state.current.isText signature.closing = false)
  /-- A second star. -/
  | secondStar {arg : Option Arg} (first : .star arg ∈ before)
      (star : state.current.isText "*" = true)
  /-- A parameter by position without a default follows one with a default. -/
  | withoutDefault {arg bare : Arg} {value : Expr} {behind : State}
      (given : .plain arg (some value) ∈ before) (position : ∀ arg, .star arg ∉ before)
      (opens : state.current.isText signature.closing = false)
      (read : inner.ReadsParameter signature state (.plain bare none) behind)

variable {inner signature} {state behind here : State} {collected : Collected}
  {parameter : Parameter} {before : List Parameter}

/-- A parser fails. -/
def Refuses {α : Type} (parser : Parse α) (state : State) : Prop :=
  ∃ fault behind, parser state = .error fault behind

/-- The first star is added, and a second one is refused. -/
theorem starParameter_of_ok {found : Option Arg} (last : collected.parameters.kwarg = none)
    (read : ∀ arg ∈ found, state.current.isText "," = false ∧
      inner.parameter signature state = .ok arg behind)
    (alone : found = none → state.current.isText "," = true ∧ behind = state) :
    inner.starParameter signature collected state = .ok (collected.add (.star found)) behind ∧
        collected.Accepts (.star found) ∨
      Refuses (inner.starParameter signature collected) state ∧
        ¬collected.Accepts (.star found) := by
  have looked : check "," state = .ok (state.current.isText ",") state := rfl
  rw [Refuses, Inner.starParameter]
  by_cases second : collected.starred = true
  · rw [if_pos second]
    refine .inr ⟨⟨_, _, rfl⟩, fun accepts => ?_⟩
    exact Bool.false_ne_true (accepts.2.symm.trans second)
  · rw [if_neg second, bind_of_ok looked]
    refine .inl ⟨?_, last, Bool.not_eq_true _ ▸ second⟩
    cases found with
    | none =>
      obtain ⟨comma, rfl⟩ := alone rfl
      rw [comma, if_pos rfl]
      rfl
    | some arg =>
      obtain ⟨other, read⟩ := read arg rfl
      rw [other, if_neg Bool.false_ne_true, bind_of_ok read]
      rfl

/-- A parameter without a star is added, if it may follow, and is refused otherwise. -/
theorem plainParameter_of_ok {between : State} {arg : Arg} {given : Option Expr}
    (last : collected.parameters.kwarg = none)
    (read : inner.parameter signature state = .ok arg between)
    (default : inner.parameterDefault between = .ok given behind) :
    inner.plainParameter signature collected state =
          .ok (collected.add (.plain arg given)) behind ∧ collected.Accepts (.plain arg given) ∨
      Refuses (inner.plainParameter signature collected) state ∧
        ¬collected.Accepts (.plain arg given) := by
  rw [Refuses, Inner.plainParameter, bind_of_ok read, bind_of_ok default, Collected.add]
  by_cases starred : collected.starred = true
  · rw [if_pos starred, if_pos starred]
    refine .inl ⟨rfl, last, ?_⟩
    cases given with
    | none => exact .inl starred
    | some value => trivial
  · rw [if_neg starred, if_neg starred]
    cases given with
    | some value => exact .inl ⟨rfl, last, trivial⟩
    | none =>
      by_cases first : collected.parameters.defaults = []
      · rw [if_pos (List.isEmpty_iff.2 first), Option.toList_none, List.append_nil]
        exact .inl ⟨rfl, last, .inr first⟩
      · rw [if_neg fun empty => first (List.isEmpty_iff.1 empty)]
        refine .inr ⟨⟨_, _, rfl⟩, fun accepts => ?_⟩
        exact accepts.2.elim starred first

/-- A parameter that may follow is added, and another one is refused. -/
theorem nextParameter_of_reads (reads : inner.ReadsParameter signature state parameter behind) :
    inner.nextParameter signature collected state = .ok (collected.add parameter) behind ∧
        collected.Accepts parameter ∨
      Refuses (inner.nextParameter signature collected) state ∧ ¬collected.Accepts parameter := by
  rw [Refuses, Inner.nextParameter]
  cases last : collected.parameters.kwarg with
  | some arg =>
    rw [Option.isSome_some, if_pos rfl]
    refine .inr ⟨?_, fun accepts => ?_⟩
    · have looked : check "**" state = .ok (state.current.isText "**") state := rfl
      rw [bind_of_ok looked]
      cases state.current.isText "**" <;> exact ⟨_, _, rfl⟩
    · have free := accepts.1
      rw [last] at free
      contradiction
  | none =>
    rw [Option.isSome_none, if_neg Bool.false_ne_true]
    cases reads with
    | alone star comma =>
      rw [bind_of_ok star, if_pos rfl]
      exact starParameter_of_ok last (fun arg none_ => by contradiction) fun _ => ⟨comma, rfl⟩
    | star star other read =>
      rw [bind_of_ok star, if_pos rfl]
      refine starParameter_of_ok last (fun arg same => ?_) fun none_ => by contradiction
      obtain rfl := Option.some.inj same
      exact ⟨other, read⟩
    | doubleStar other stars read =>
      rw [bind_of_ok (eat_false_iff.2 ⟨other, rfl⟩), if_neg Bool.false_ne_true, bind_of_ok stars,
        if_pos rfl, Inner.doubleStarParameter, bind_of_ok read]
      exact .inl ⟨rfl, last, trivial⟩
    | plain other bare read default =>
      rw [bind_of_ok (eat_false_iff.2 ⟨other, rfl⟩), if_neg Bool.false_ne_true,
        bind_of_ok (eat_false_iff.2 ⟨bare, rfl⟩), if_neg Bool.false_ne_true]
      exact plainParameter_of_ok last read default

/-- Parameters that are read are added in turn, unless one of them is refused. -/
theorem parametersTurns_of_reads (reads : inner.ReadsParameters signature state before here) :
    ∀ (collected : Collected) (bound : Nat),
      Refuses (loop (parametersTurn inner signature) bound collected) state ∨
        ∃ fewer, loop (parametersTurn inner signature) bound collected state =
          loop (parametersTurn inner signature) fewer (before.foldl Collected.add collected)
            here := by
  induction reads with
  | nil => exact fun collected bound => .inr ⟨bound, rfl⟩
  | @cons state between next behind parameter later opens read comma rest ih =>
    intro collected bound
    cases bound with
    | zero =>
      obtain ⟨cause, failed⟩ := failExpression_fails state
      exact .inl ⟨_, _, failed⟩
    | succ bound =>
      have looked : check signature.closing state = .ok false state := by
        show EStateM.Result.ok (state.current.isText signature.closing) state = _
        rw [opens]
      have result := @nextParameter_of_reads inner signature state between collected parameter read
      rcases result with ⟨added, -⟩ | ⟨refused, -⟩
      · have turn : parametersTurn inner signature collected state =
            .ok (.again (collected.add parameter)) next := by
          rw [parametersTurn, bind_of_ok looked, if_neg Bool.false_ne_true, bind_of_ok added,
            bind_of_ok comma]
          rfl
        rw [Refuses, loop, bind_of_ok turn]
        exact ih (collected.add parameter) bound
      · obtain ⟨fault, stop, failed⟩ := refused
        refine .inl ⟨fault, stop, ?_⟩
        have turn : parametersTurn inner signature collected state = .error fault stop := by
          rw [parametersTurn, bind_of_ok looked, if_neg Bool.false_ne_true, bind_of_error failed]
        rw [loop, bind_of_error turn]

/-- The parameter behind two stars is remembered. -/
theorem foldl_kwarg (before : List Parameter) (collected : Collected)
    (last : collected.parameters.kwarg ≠ none ∨ ∃ arg, .doubleStar arg ∈ before) :
    (before.foldl Collected.add collected).parameters.kwarg ≠ none := by
  induction before generalizing collected with
  | nil => exact last.resolve_right fun ⟨_, member⟩ => List.not_mem_nil member
  | cons parameter later ih =>
    apply ih
    rcases last with kept | ⟨arg, member⟩
    · refine .inl ?_
      cases parameter with
      | star found => cases found <;> exact kept
      | doubleStar arg => exact Option.some_ne_none arg
      | plain arg given =>
        rw [Collected.add]
        split <;> exact kept
    · rcases List.mem_cons.1 member with rfl | below
      · exact .inl (Option.some_ne_none arg)
      · exact .inr ⟨arg, below⟩

/-- A star is remembered. -/
theorem foldl_starred (before : List Parameter) (collected : Collected)
    (first : collected.starred = true ∨ ∃ arg, .star arg ∈ before) :
    (before.foldl Collected.add collected).starred = true := by
  induction before generalizing collected with
  | nil => exact first.resolve_right fun ⟨_, member⟩ => List.not_mem_nil member
  | cons parameter later ih =>
    apply ih
    rcases first with kept | ⟨arg, member⟩
    · refine .inl ?_
      cases parameter with
      | star found => cases found <;> rfl
      | doubleStar arg => exact kept
      | plain arg given =>
        rw [Collected.add]
        split <;> exact kept
    · rcases List.mem_cons.1 member with rfl | below
      · refine .inl ?_
        cases arg <;> rfl
      · exact .inr ⟨arg, below⟩

/-- Before a star the defaults are remembered. -/
theorem foldl_defaults (before : List Parameter) (collected : Collected)
    (position : ∀ arg, .star arg ∉ before) (unstarred : collected.starred = false)
    (given : collected.parameters.defaults ≠ [] ∨
      ∃ arg value, .plain arg (some value) ∈ before) :
    (before.foldl Collected.add collected).starred = false ∧
      (before.foldl Collected.add collected).parameters.defaults ≠ [] := by
  induction before generalizing collected with
  | nil => exact ⟨unstarred, given.resolve_right fun ⟨_, _, member⟩ => List.not_mem_nil member⟩
  | cons parameter later ih =>
    have below : ∀ arg, .star arg ∉ later := fun arg member =>
      position arg (List.mem_cons_of_mem _ member)
    cases parameter with
    | star found => exact absurd List.mem_cons_self (position found)
    | doubleStar arg =>
      refine ih _ below unstarred (given.imp_right fun ⟨arg, value, member⟩ => ?_)
      exact ⟨arg, value, (List.mem_cons.1 member).resolve_left (by simp)⟩
    | plain arg default =>
      have kept : (collected.add (.plain arg default)).starred = false := by
        simp [Collected.add, unstarred]
      refine ih _ below kept ?_
      rcases given with some_ | ⟨other, value, member⟩
      · exact .inl (by simp [Collected.add, unstarred, some_])
      · rcases List.mem_cons.1 member with same | later
        · obtain ⟨-, rfl⟩ := Parameter.plain.inj same
          exact .inl (by simp [Collected.add, unstarred])
        · exact .inr ⟨other, value, later⟩

/-- A second star is refused. -/
theorem secondStar_refuses (second : collected.starred = true)
    (star : state.current.isText "*" = true) :
    state.current.isText signature.closing = false ∧
      Refuses (inner.nextParameter signature collected) state := by
  constructor
  · have value : state.current.value = "*" := eq_of_beq (Bool.and_eq_true_iff.1 star).2
    rw [Token.isText, value]
    cases signature <;> simp [Signature.closing]
  · rw [Refuses, Inner.nextParameter]
    split
    · have looked : check "**" state = .ok (state.current.isText "**") state := rfl
      rw [bind_of_ok looked]
      cases state.current.isText "**" <;> exact ⟨_, _, rfl⟩
    · cases eaten : eat "*" state with
      | error fault stop => exact ⟨fault, stop, bind_of_error eaten⟩
      | ok taken next =>
        cases taken with
        | false =>
          rw [(eat_false_iff.1 eaten).1] at star
          contradiction
        | true =>
          rw [bind_of_ok eaten, if_pos rfl, Inner.starParameter, if_pos second]
          exact ⟨_, _, rfl⟩

/-- What may not follow the parameters before it is refused. -/
theorem nextParameter_refuses (misplaced : inner.Misplaced signature before here) :
    here.current.isText signature.closing = false ∧
      Refuses (inner.nextParameter signature (before.foldl Collected.add ⟨.none, false⟩)) here := by
  cases misplaced with
  | @behindLast arg last opens =>
    have some_ := foldl_kwarg before ⟨.none, false⟩ (.inr ⟨arg, last⟩)
    refine ⟨opens, ?_⟩
    have looked : check "**" here = .ok (here.current.isText "**") here := rfl
    rw [Refuses, Inner.nextParameter, if_pos (Option.isSome_iff_ne_none.2 some_), bind_of_ok looked]
    cases here.current.isText "**" <;> exact ⟨_, _, rfl⟩
  | @secondStar arg first star =>
    have second := foldl_starred before ⟨.none, false⟩ (.inr ⟨arg, first⟩)
    exact secondStar_refuses second star
  | @withoutDefault arg bare value behind given position opens read =>
    obtain ⟨unstarred, some_⟩ :=
      foldl_defaults before ⟨.none, false⟩ position rfl (.inr ⟨arg, value, given⟩)
    refine ⟨opens, ?_⟩
    rcases nextParameter_of_reads read with ⟨-, accepts⟩ | ⟨refused, -⟩
    · rcases accepts.2 with starred | empty
      · rw [unstarred] at starred
        contradiction
      · exact absurd empty some_
    · exact refused

/-- Parameters of which one may not follow those before it are refused. -/
theorem parameters_refuses (reads : inner.ReadsParameters signature state before here)
    (misplaced : inner.Misplaced signature before here) :
    Refuses (inner.parameters signature) state := by
  obtain ⟨opens, refused⟩ := nextParameter_refuses misplaced
  rcases parametersTurns_of_reads reads ⟨.none, false⟩ inner.bound with early | ⟨fewer, same⟩
  · exact early
  · rw [Refuses, parameters_eq, same]
    cases fewer with
    | zero =>
      obtain ⟨cause, failed⟩ := failExpression_fails here
      exact ⟨_, _, failed⟩
    | succ fewer =>
      obtain ⟨fault, stop, failed⟩ := refused
      have looked : check signature.closing here = .ok false here := by
        show EStateM.Result.ok (here.current.isText signature.closing) here = _
        rw [opens]
      have turn : parametersTurn inner signature (before.foldl Collected.add ⟨.none, false⟩) here =
          .error fault stop := by
        rw [parametersTurn, bind_of_ok looked, if_neg Bool.false_ne_true, bind_of_error failed]
      exact ⟨fault, stop, by rw [loop, bind_of_error turn]⟩

end refused

section roundTrip

/-- A parameter without a star is one of the parameters, with one of the defaults. -/
theorem mem_zipWith_plain {args : List Arg} {givens : List (Option Expr)} {parameter : Parameter}
    (member : parameter ∈ List.zipWith .plain args givens) :
    ∃ arg ∈ args, ∃ given ∈ givens, parameter = .plain arg given := by
  rw [← List.map_uncurry_zip_eq_zipWith] at member
  obtain ⟨⟨arg, given⟩, both, rfl⟩ := List.mem_map.1 member
  obtain ⟨first, second⟩ := List.of_mem_zip both
  exact ⟨arg, first, given, second, rfl⟩

/-- The parts of parameters that can be written can be written. -/
theorem Arguments.IsWritable.written {signature : Signature} {parameters : Arguments}
    (writable : parameters.IsWritable signature) :
    ∀ parameter ∈ parameters.written, parameter.IsWritable signature := by
  obtain ⟨-, -, args, given⟩ := writable
  simp only [List.forall_mem_append] at args given
  obtain ⟨⟨⟨positional, starred⟩, named⟩, last⟩ := args
  obtain ⟨defaults, named_⟩ := given
  intro parameter member
  simp only [Arguments.written, List.mem_append] at member
  rcases member with ((member | member) | member) | member
  · obtain ⟨arg, inside, given, default, rfl⟩ := mem_zipWith_plain member
    refine ⟨fun _ same => Option.some.inj same ▸ positional arg inside, fun value same => ?_⟩
    rcases List.mem_append.1 default with bare | behind
    · obtain rfl := (List.mem_replicate.1 bare).2
      contradiction
    · obtain ⟨expr, within, rfl⟩ := List.mem_map.1 behind
      exact Option.some.inj same ▸ defaults expr within
  · split at member
    · exact absurd member List.not_mem_nil
    · obtain rfl := List.mem_singleton.1 member
      exact ⟨fun arg same => starred arg (Option.mem_toList.2 same), fun _ none_ => by contradiction⟩
  · obtain ⟨arg, inside, given, default, rfl⟩ := mem_zipWith_plain member
    refine ⟨fun _ same => Option.some.inj same ▸ named arg inside, fun value same => ?_⟩
    exact named_ value (List.mem_filterMap.2 ⟨given, default, same⟩)
  · obtain ⟨arg, inside, rfl⟩ := List.mem_map.1 member
    exact ⟨fun _ same => Option.some.inj same ▸ last arg inside, fun _ none_ => by contradiction⟩

/-- A star alone is not the last parameter. -/
theorem written_getLast {parameters : Arguments}
    (paired : parameters.kwDefaults.length = parameters.kwonlyargs.length) :
    parameters.written.getLast? ≠ some (.star none) := by
  have plain (args : List Arg) (givens : List (Option Expr)) :
      (List.zipWith Parameter.plain args givens).getLast? ≠ some (.star none) := by
    intro last
    obtain ⟨arg, -, given, -, same⟩ := mem_zipWith_plain (List.mem_of_getLast? last)
    contradiction
  obtain ⟨args, vararg, kwonlyargs, kwDefaults, kwarg, defaults⟩ := parameters
  cases kwarg with
  | some arg => simp [Arguments.written]
  | none =>
    cases kwonlyargs with
    | nil =>
      obtain rfl := List.eq_nil_of_length_eq_zero paired
      cases vararg with
      | none => simpa [Arguments.written] using plain _ _
      | some arg => simp [Arguments.written]
    | cons arg kwonlyargs =>
      obtain ⟨given, kwDefaults, rfl⟩ := List.exists_cons_of_length_eq_add_one paired
      have some_ : List.zipWith Parameter.plain (arg :: kwonlyargs) (given :: kwDefaults) ≠ [] :=
        List.cons_ne_nil _ _
      rw [Arguments.written, Option.toList_none, List.map_nil, List.append_nil,
        List.getLast?_append_of_ne_nil _ some_]
      exact plain _ _

/-- Parameters that are written in order, before the closing text of their signature, are read as
they are, and the closing text is left in front. And whatever follows, no parameters are read where
another parameter follows the one behind two stars, where a second star follows, or where a
parameter by position without a default follows one with a default. -/
theorem parameters_read_back (signature : Signature) :
    (∀ (parameters : Arguments), parameters.IsWritable signature →
      ∀ (rest : List Token) (depth : Nat),
      (writeParameters parameters.written ++ .mark signature.closing :: rest).length < depth →
        ((Inner.upTo depth).parameters signature).Gives
          (writeParameters parameters.written ++ .mark signature.closing :: rest) parameters
          (.mark signature.closing :: rest)) ∧
    ∀ (inner : Inner) (state here : State) (before : List Parameter),
      inner.ReadsParameters signature state before here →
        inner.Misplaced signature before here →
          ∃ fault behind, inner.parameters signature state = .error fault behind := by
  refine ⟨fun parameters writable rest depth deep => ?_, ?_⟩
  · obtain ⟨accepts, whole⟩ := foldl_written writable.aligned writable.paired
    have last := written_getLast writable.paired
    have read := gives_parameters writable.written accepts last deep deep
    rwa [whole] at read
  · exact fun inner state here before reads misplaced => parameters_refuses reads misplaced

/-- Parameters of a definition with an annotation, defaults, a star alone and two stars, and
parameters of a lambda of which one stands behind the one with two stars. -/
theorem parameters_read_back_of_stars :
    ((Inner.upTo 20).parameters .definition).Gives
        [.word "a", .mark ",", .word "b", .mark ":", .word "T", .mark "=", .word "c", .mark ",",
          .mark "*", .mark ",", .word "d", .mark "=", .word "e", .mark ",", .mark "**", .word "k",
          .mark ")"]
        ⟨[⟨"a", none⟩, ⟨"b", some (.name "T" .load)⟩], none, [⟨"d", none⟩],
          [some (.name "e" .load)], some ⟨"k", none⟩, [.name "c" .load]⟩ [.mark ")"] ∧
      ∃ fault behind, (Inner.upTo 9).parameters .lambda
        ⟨[.mark "**", .word "k", .mark ",", .word "a", .mark ":"], 0, none, unknownFile, .standard,
          []⟩ = .error fault behind := by
  have name {id : String} (identifier : isIdentifier id = true) : (Expr.name id .load).IsCore :=
    .name identifier
  constructor
  · refine (parameters_read_back .definition).1
      ⟨[⟨"a", none⟩, ⟨"b", some (.name "T" .load)⟩], none, [⟨"d", none⟩],
        [some (.name "e" .load)], some ⟨"k", none⟩, [.name "c" .load]⟩ ?_ [] 20 (by decide)
    refine ⟨by decide, by decide, ?_, ?_⟩
    · intro arg member
      simp only [Option.toList_none, Option.toList_some, List.append_nil, List.cons_append,
        List.nil_append, List.mem_cons, List.not_mem_nil, or_false] at member
      rcases member with rfl | rfl | rfl | rfl
      · exact ⟨by decide, fun _ none_ => by contradiction, fun other => by contradiction⟩
      · refine ⟨by decide, fun hint same => ?_, fun other => by contradiction⟩
        exact Option.some.inj same ▸ name (by decide)
      · exact ⟨by decide, fun _ none_ => by contradiction, fun other => by contradiction⟩
      · exact ⟨by decide, fun _ none_ => by contradiction, fun other => by contradiction⟩
    · intro value member
      simp only [List.filterMap_cons, List.filterMap_nil, id_eq, List.cons_append, List.nil_append,
        List.mem_cons, List.not_mem_nil, or_false] at member
      rcases member with rfl | rfl <;> exact name (by decide)
  · refine (parameters_read_back .lambda).2 (.upTo 9) _
      ⟨[.word "a", .mark ":"], 0, none, unknownFile, .standard, []⟩
      [.doubleStar ⟨"k", none⟩] ?_ (.behindLast List.mem_cons_self rfl)
    exact .cons rfl (.doubleStar rfl rfl rfl) rfl .nil

end roundTrip

end Offside
