import Offside.Proofs.Expression.RoundTrip
import Offside.Proofs.Grammar.Provenance

/-!
# Stars and operators

The expression behind a star is read at the power of targets, and the star with it starts an
operand. So a binary operator behind it joins the starred expression: a star before a core
expression goes to the first operand of the operators that stand bare in it (`Expr.starFirst`,
`Expr.IsCore.readsStarred`). It stars the whole expression only where no binary operator joins it.
-/
namespace Offside

open Parse

namespace Expr

/-- The expression that is read where a star stands before an expression: the star goes to the first
operand of the binary operators that stand bare. -/
def starFirst : Expr → Expr
  | .binOp left operator right =>
    .binOp (if left.isWrapped operator.leftSlot then .starred left .load else left.starFirst)
      operator right
  | expr => .starred expr .load

/-- Whenever the tokens behind a bare expression let it end and are read on behind its star, an
operand is read from a star, the tokens of the expression and these. -/
def ReadsStarred (expr : Expr) : Prop :=
  ∀ power rest out left, expr.power?.all (power < ·) = true → expr.ClosedBy (Token.front rest) →
    (Token.front rest).binding ≤ Power.target → Climbs power (.plain expr.starFirst) rest out left →
    Yields power (.mark "*" :: (expr.write ++ rest)) out left

/-- A star is read with the expression behind it. -/
theorem yields_starred {expr : Expr} {power : Nat} {ahead rest left : List Token} {out : Parsed}
    (inside : ∀ depth, ahead.length < depth →
      ((Inner.upTo depth).expr Power.target).Gives ahead expr rest)
    (shorter : rest.length ≤ ahead.length)
    (later : Climbs power (.plain (.starred expr .load)) rest out left) :
    Yields power (.mark "*" :: ahead) out left := by
  have starts : (Token.mark "*").prefixRule = .starred := by decide
  refine .start starts (fun depth deep => .advance_bind fun _ _ => ?_) shorter later
  exact .bind (inside depth deep) fun _ => .pure _ rest

/-- A star before an operand in the place of a target stars that operand. -/
theorem Reads.yields_starred {expr : Expr} (reads : expr.Reads) (led : expr.Led) {power : Nat}
    {rest left : List Token} {out : Parsed} (stops : (Token.front rest).binding ≤ Power.target)
    (later : Climbs power (.plain (.starred expr .load)) rest out left) :
    Yields power (.mark "*" :: (wrapped Power.target expr expr.write ++ rest)) out left :=
  Expr.yields_starred (fun _ deep => (reads.expr led (by decide) stops deep).2) (by simp) later

/-- A star before an expression that stands bare in the place of a target stars all of it. -/
theorem IsCore.readsStarred_of_bare {expr : Expr} (core : expr.IsCore)
    (bare : expr.isWrapped Power.target = false)
    (single : expr.starFirst = .starred expr .load) : expr.ReadsStarred := by
  intro power rest out left _ _ stops later
  rw [single] at later
  have whole := core.reads.yields_starred core.led stops later
  rwa [wrapped, if_neg (ne_true_of_eq_false bare)] at whole

/-- A star before an expression that starts with an operator stars all of it. -/
theorem readsStarred_of_yields {expr : Expr} (led : expr.Led)
    (alone : ∀ rest, expr.ClosedBy (Token.front rest) →
      (Token.front rest).binding ≤ Power.target →
      Yields Power.target (expr.write ++ rest) (.plain expr) rest)
    (single : expr.starFirst = .starred expr .load) : expr.ReadsStarred := by
  intro power rest out left _ closed stops later
  rw [single] at later
  obtain ⟨token, more, front, leads, -⟩ := led
  have opens : (Token.front (expr.write ++ rest)).Opens := by
    rw [Token.front_append front]
    exact leads.opens
  exact yields_starred (fun _ deep => ((alone rest closed stops).expr (by decide) opens deep).2)
    (by simp) later

/-- A star before a binary operator goes to the left operand, or to the first one in it. -/
theorem readsStarred_binOp (operator : BinaryOperator) {first second : Expr}
    (left : first.Reads) (leftLed : first.Led)
    (starred : first.isWrapped 60 = false → first.ReadsStarred) (right : second.Reads)
    (rightLed : second.Led) : (binOp first operator second).ReadsStarred := by
  intro power rest out behind tight closed _ later
  have tight : power < operator.power := by simpa [power?] using tight
  have above : power ≤ operator.leftSlot := by
    have near : operator.power ≤ operator.leftSlot + 1 := by cases operator <;> decide
    omega
  have within : operator.leftSlot ≤ Power.target := by cases operator <;> decide
  have comparison : 60 ≤ operator.leftSlot := by cases operator <;> decide
  have least : 5 ≤ operator.leftSlot := by omega
  have follows : Follows operator.leftSlot (Token.mark operator.text).binding := by
    cases operator <;> decide
  have goesOn (start : Expr)
      (later : Climbs power (.plain (binOp start operator second)) rest out behind) :
      Climbs power (.plain start)
        (.mark operator.text :: (wrapped operator.rightSlot second second.write ++ rest)) out
        behind :=
    climbs_binOp operator tight rfl right rightLed closed later
  have loose : (Token.mark operator.text).binding ≤ Power.target := by cases operator <;> decide
  have stops : (Token.front (.mark operator.text ::
      (wrapped operator.rightSlot second second.write ++ rest))).binding ≤ Power.target := loose
  rw [write, List.append_assoc, List.cons_append]
  rw [starFirst] at later
  by_cases placed : first.isWrapped operator.leftSlot = true
  · rw [if_pos placed] at later
    have target : first.isWrapped Power.target = true := by
      by_contra bare
      rw [Bool.not_eq_true] at bare
      rw [bare_of_le bare within] at placed
      contradiction
    have whole := left.yields_starred leftLed stops (goesOn _ later)
    rw [wrapped, if_pos target] at whole
    rwa [wrapped, if_pos placed]
  · rw [if_neg placed] at later
    rw [wrapped, if_neg placed]
    rw [Bool.not_eq_true] at placed
    exact starred (bare_of_le placed comparison) power _ out behind (power?_of_bare placed above)
      (closedBy_of_follows placed least follows) stops (goesOn _ later)

/-- Every core expression that binds more tightly than the comparisons is read behind a star. -/
theorem IsCore.readsStarred {expr : Expr} (core : expr.IsCore) (tight : expr.isWrapped 60 = false) :
    expr.ReadsStarred := by
  induction core with
  | name identifier => exact (IsCore.name identifier).readsStarred_of_bare rfl rfl
  | num positive => exact (IsCore.num positive).readsStarred_of_bare rfl rfl
  | constant value => exact (IsCore.constant value).readsStarred_of_bare rfl rfl
  | member core identifier => exact (IsCore.member core identifier).readsStarred_of_bare rfl rfl
  | call callee core => exact (IsCore.call callee core).readsStarred_of_bare rfl rfl
  | subscript core place => exact (IsCore.subscript core place).readsStarred_of_bare rfl rfl
  | list core => exact (IsCore.list core).readsStarred_of_bare rfl rfl
  | @tuple elements core =>
    cases elements with
    | nil => exact (IsCore.tuple core).readsStarred_of_bare rfl rfl
    | cons => contradiction
  | unaryOp operator core =>
    have led := (IsCore.unaryOp operator core).led
    exact readsStarred_of_yields led (fun rest closed stops =>
      yields_unaryOp operator core.reads core.led closed (.stop stops)) rfl
  | await core =>
    have led := (IsCore.await core).led
    exact readsStarred_of_yields led (fun rest closed stops =>
      yields_await core.reads core.led closed (.stop stops)) rfl
  | binOp operator first second left =>
    exact readsStarred_binOp operator first.reads first.led left second.reads second.led
  | boolOp operator => cases operator <;> contradiction
  | compare | ifExp => contradiction

/-- A star before a core expression above the comparisons stars all of it just if no binary operator
joins it. -/
theorem starFirst_eq_iff {expr : Expr} (tight : expr.isWrapped 60 = false) :
    expr.starFirst = .starred expr .load ↔ expr.isJoined = false := by
  cases expr with
  | binOp => simp [starFirst, isJoined]
  | boolOp operator => cases operator <;> contradiction
  | ifExp | compare => contradiction
  | _ => exact iff_of_true rfl rfl

end Expr

/-- The tokens of a list whose one element is written with a star before it. -/
def writeStarredList (expr : Expr) : List Token :=
  .mark "[" :: .mark "*" :: (expr.write ++ [.mark "]"])

/-- A list whose one element starts with a star is read. -/
theorem yields_starredList {expr : Expr} (core : expr.IsCore) (tight : expr.isWrapped 60 = false)
    {power : Nat} {rest left : List Token} {out : Parsed}
    (later : Climbs power (.plain (.list [expr.starFirst] .load)) rest out left) :
    Yields power (writeStarredList expr ++ rest) out left := by
  have starts : (Token.mark "[").prefixRule = .list := by decide
  have goesOn : (Token.mark "*").isText "]" = false := by decide
  have noComma : (Token.mark "]").isText "," = false := by decide
  have delimiter : (Token.mark "]").isDelimiter = true := by decide
  have loose : (Token.mark "]").binding ≤ 6 := by decide
  have target : (Token.mark "]").binding ≤ Power.target := by decide
  have element : Yields 6 (.mark "*" :: (expr.write ++ .mark "]" :: rest)) (.plain expr.starFirst)
      (.mark "]" :: rest) :=
    core.readsStarred tight 6 _ _ _ (Expr.power?_of_bare tight (by decide))
      (expr.closedBy_of_isDelimiter delimiter) target (.stop loose)
  rw [writeStarredList]
  simp only [List.cons_append, List.append_assoc, List.nil_append]
  refine .start starts (fun depth deep => ?_) (by simp; omega) later
  rw [PrefixRule.parse, Expr.listRule_eq]
  refine .advance_bind fun _ _ => ?_
  obtain ⟨fewer, bound⟩ := Nat.exists_eq_add_one_of_ne_zero (Nat.ne_zero_of_lt deep)
  rw [show (Inner.upTo depth).bound = fewer + 1 from bound]
  refine .done (Expr.gives_listTurn_of_yields goesOn element rfl rfl deep ?_)
  refine .bind (.eat_other noComma) fun _ => ?_
  exact .expect_bind (by decide) fun _ => .pure _ rest

/-- A list whose one element starts with a star is written with tokens that the grammar looks at. -/
theorem significant_starredList {expr : Expr} (core : expr.IsCore) :
    ∀ token ∈ writeStarredList expr, token.isSignificant = true := by
  have element : ∀ token ∈ expr.write ++ [.mark "]"], token.isSignificant = true :=
    List.forall_mem_append.2 ⟨core.significant, by decide⟩
  rw [writeStarredList]
  exact List.forall_mem_cons.2 ⟨rfl, List.forall_mem_cons.2 ⟨rfl, element⟩⟩

/-- Where an operator, a condition, a call or a member works on a starred expression, the star is
written, and what it stars takes in operators between operands only in parentheses. The binary
operators behind it are left to the starred expression: in a list, a star before a core expression
above the comparisons goes to the first operand of the operators that stand bare in it. So it stars
the whole expression just if no binary operator joins that. -/
theorem parse_stars_operands {source : String} {file : Option String} {mode : Mode} {root : Root}
    (parsed : parse source file mode = .ok root) :
    (∀ part ∈ root.walk everyPart, ∀ value context, .starred value context ∈ part.operands →
      StarWritten ((Stream.ofSource source file).tokens.filter Token.isSignificant) value) ∧
    ∀ (expr : Expr) (tokens ending : List Token), expr.IsCore → expr.isWrapped 60 = false →
      tokens.map Token.bare = writeStarredList expr → IsEnding ending →
      parseTokens (tokens ++ ending) file .eval =
          .ok (.expression (.list [expr.starFirst] .load)) ∧
        (expr.starFirst = .starred expr .load ↔ expr.isJoined = false) := by
  constructor
  · intro part member value context operand
    have traced := (parse_traced parsed part member).operands _ operand
    exact traced.written value context rfl
  · intro expr tokens ending core tight written ends
    have significant := significant_starredList core
    have loose : (Token.front (ending.map Token.bare)).binding ≤ 0 :=
      Nat.le_of_eq (Token.of_isDelimiter ends.isDelimiter).2
    have list := yields_starredList core tight (.stop loose)
    have read := parseTokens_of_yields significant ⟨rfl, rfl⟩ list written ends file
    exact ⟨read, Expr.starFirst_eq_iff tight⟩

/-- A star before the left operand of a sum in a list. -/
theorem parse_stars_operands_of_sum :
    ∃ root, parse "[*a + b]" none .eval = .ok root ∧
      (∀ part ∈ root.walk everyPart, ∀ value context, .starred value context ∈ part.operands →
        StarWritten ((Stream.ofSource "[*a + b]" none).tokens.filter Token.isSignificant) value) ∧
      parseTokens ([.mark "[", .mark "*", .word "a", .mark "+", .word "b", .mark "]"] ++
          [.endMarker 1]) none .eval =
        .ok (.expression
          (.list [.binOp (.starred (.name "a" .load) .load) .add (.name "b" .load)] .load)) := by
  have accepted : (parse "[*a + b]" none .eval).toBool = true := by decide +kernel
  cases parsed : parse "[*a + b]" none .eval with
  | error fault =>
    rw [parsed] at accepted
    contradiction
  | ok root =>
    have core : (Expr.binOp (.name "a" .load) .add (.name "b" .load)).IsCore :=
      .binOp .add (.name (by decide)) (.name (by decide))
    have ends : IsEnding [.endMarker 1] := .last rfl
    obtain ⟨written, read⟩ := parse_stars_operands parsed
    exact ⟨root, rfl, written, (read _ _ _ core rfl rfl ends).1⟩

end Offside
