import Offside.Proofs.Expression.Climbing

/-!
# Expressions in places

An expression reads back if an operand is read from its tokens whenever they are read on behind
it (`Expr.Reads`). Then it is read from every place that a power guards, bare or in parentheses
(`Expr.Reads.slot`, `Expr.Reads.expr`). What comes behind a bare expression must not bind more
tightly than its last operand is read (`Expr.ClosedBy`).
-/
namespace Offside

open Parse Text

/-- A token and the same token without its place have the same text. -/
theorem Token.value_of_bare {found token : Token} (same : found.bare = token) :
    found.value = token.value := by
  rw [← same]
  rfl

/-- A name that is an identifier has no meaning of its own. -/
theorem Token.behavior?_word {id : String} (identifier : isIdentifier id = true) :
    (Token.word id).behavior? = none := by
  have unlisted : Grammar.standard.byText.lookup id = none := by
    rw [List.lookup_eq_none_iff]
    intro entry member
    rw [bne_iff_ne]
    rintro rfl
    have words : ∀ entry ∈ Grammar.standard.byText, isIdentifier entry.1 = false := by decide
    rw [words entry member] at identifier
    contradiction
  exact unlisted

/-- A token that ends expressions is no comma and binds nothing. -/
theorem Token.of_isDelimiter {token : Token} (delimiter : token.isDelimiter = true) :
    token.isText "," = false ∧ token.binding = 0 := by
  obtain ⟨kind, value, line, rawLine⟩ := token
  rw [isDelimiter, Bool.or_eq_true, Bool.or_eq_true, decide_eq_true_eq, decide_eq_true_eq,
    Bool.and_eq_true, decide_eq_true_eq, List.contains_iff_mem] at delimiter
  dsimp only at delimiter
  rcases delimiter with (rfl | rfl) | ⟨rfl, member⟩
  · exact ⟨rfl, rfl⟩
  · exact ⟨rfl, rfl⟩
  · have all : ∀ text ∈ delimiters, (Token.mark text).isText "," = false ∧
        (Token.mark text).binding = 0 := by decide
    exact all value member

/-- The first tokens of written expressions: none ends an expression or separates expressions,
and none is a star. -/
def Token.Leads (token : Token) : Prop :=
  token.isDelimiter = false ∧
    ∀ text ∈ [",", ")", "]", "*", "**"], token.isText text = false

instance (token : Token) : Decidable token.Leads :=
  inferInstanceAs (Decidable (_ ∧ _))

/-- A token that leads an expression may start one. -/
theorem Token.Leads.opens {token : Token} (leads : token.Leads) : token.Opens :=
  ⟨leads.1, leads.2 "," (by decide)⟩

/-- An identifier has no text that is none. -/
theorem Token.word_isText {id text : String} (identifier : isIdentifier id = true)
    (other : isIdentifier text = false) : (Token.word id).isText text = false := by
  have distinct : id ≠ text := by
    rintro rfl
    rw [identifier] at other
    contradiction
  simpa [Token.isText, Token.word] using distinct

/-- An identifier leads an expression, and is not the word not. -/
theorem Token.leads_word {id : String} (identifier : isIdentifier id = true) :
    (Token.word id).Leads ∧ (Token.word id).isText "not" = false := by
  have differs {text : String} (other : isIdentifier text = false) :
      (Token.word id).isText text = false := Token.word_isText identifier other
  refine ⟨⟨rfl, ?_⟩, differs (by decide)⟩
  simp only [List.forall_mem_cons]
  exact ⟨differs (by decide), differs (by decide), differs (by decide), differs (by decide),
    differs (by decide), by simp⟩

/-- An expression that is written starts with a token that leads it. It is the word not only if
the expression binds no more tightly than that operator. -/
def Expr.Led (expr : Expr) : Prop :=
  ∃ token more, expr.write = token :: more ∧ token.Leads ∧
    (expr.power?.all (50 < ·) = true → token.isText "not" = false)

/-- An expression in a place starts with a token that leads it, and not with the word not if the
place is for operands above that operator. -/
theorem Expr.Led.placed {expr : Expr} (led : expr.Led) (slot : Nat) :
    ∃ token more, wrapped slot expr expr.write = token :: more ∧ token.Leads ∧
      (50 ≤ slot → token.isText "not" = false) := by
  obtain ⟨token, more, front, leads, positive⟩ := led
  rw [wrapped]
  by_cases placed : expr.isWrapped slot = true
  · rw [if_pos placed]
    exact ⟨.mark "(", _, rfl, by decide, fun _ => by decide⟩
  · rw [if_neg placed]
    refine ⟨token, more, front, leads, fun tight => positive ?_⟩
    rw [Expr.isWrapped] at placed
    cases found : expr.power? with
    | none => rfl
    | some power =>
      rw [found] at placed
      have above : slot < power := by simpa using placed
      simpa using Nat.lt_of_le_of_lt tight above

/-- An expression whose first part is in a place starts as that part does. -/
theorem Expr.Led.of_wrapped {expr part : Expr} (led : part.Led) (slot : Nat) {more : List Token}
    (front : expr.write = wrapped slot part part.write ++ more) (tight : 50 ≤ slot ∨
      expr.power?.all (50 < ·) = false) : expr.Led := by
  obtain ⟨token, rest, start, leads, positive⟩ := led.placed slot
  refine ⟨token, rest ++ more, by rw [front, start, List.cons_append], leads, fun above => ?_⟩
  rcases tight with tight | loose
  · exact positive tight
  · rw [loose] at above
    contradiction

/-- Separated expressions are the first one and each other one behind a separator. -/
theorem writeSeparated_cons (separator : Token) (slot : Nat) (expr : Expr) (exprs : List Expr) :
    writeSeparated separator slot (expr :: exprs) = wrapped slot expr expr.write ++
      exprs.flatMap fun expr => separator :: wrapped slot expr expr.write := by
  induction exprs generalizing expr with
  | nil => simp [writeSeparated]
  | cons second exprs ih =>
    rw [writeSeparated, ih second, List.flatMap_cons, List.cons_append]
    rintro ⟨⟩

/-- The tokens of a tuple of two or more elements. -/
theorem Expr.write_tuple (first second : Expr) (rest : List Expr) (context : Context) :
    (Expr.tuple (first :: second :: rest) context).write =
      writeSeparated (.mark ",") 5 (first :: second :: rest) := by
  rw [Expr.write]
  · rintro ⟨⟩
  · rintro element ⟨⟩

/-- Every core expression starts with a token that leads it. -/
theorem Expr.IsCore.led {expr : Expr} (core : expr.IsCore) : expr.Led := by
  induction core with
  | name identifier =>
    have leads := Token.leads_word identifier
    exact ⟨_, [], rfl, leads.1, fun _ => leads.2⟩
  | num => exact ⟨_, [], rfl, ⟨rfl, by simp [Token.isText, Token.number]⟩, fun _ => rfl⟩
  | constant value =>
    refine ⟨_, [], rfl, ?_, fun _ => ?_⟩
    · cases value <;> decide
    · cases value <;> decide
  | unaryOp operator =>
    refine ⟨_, _, by rw [Expr.write], ?_, ?_⟩
    · cases operator <;> decide
    · intro above
      cases operator with
      | not => simp [Expr.power?, UnaryOperator.power] at above
      | invert | plus | minus => decide
  | binOp operator _ _ left _ =>
    refine left.of_wrapped operator.leftSlot (by rw [Expr.write]) (.inl ?_)
    cases operator <;> decide
  | @boolOp operator values several _ led =>
    cases values with
    | nil => simp at several
    | cons value values =>
      refine (led value List.mem_cons_self).of_wrapped operator.power
        (by rw [Expr.write, writeSeparated_cons]) (.inr ?_)
      cases operator <;> rfl
  | compare _ _ _ _ left => exact left.of_wrapped 60 (by rw [Expr.write]) (.inl (by decide))
  | ifExp _ _ _ _ body => exact body.of_wrapped 20 (by rw [Expr.write]) (.inr rfl)
  | await => exact ⟨_, _, by rw [Expr.write], by decide, fun _ => by decide⟩
  | member _ _ value => exact value.of_wrapped 159 (by rw [Expr.write]) (.inl (by decide))
  | call _ _ function =>
    exact function.of_wrapped 159 (by rw [Expr.write, List.append_assoc]) (.inl (by decide))
  | subscript _ _ value =>
    exact value.of_wrapped 159 (by rw [Expr.write, List.append_assoc]) (.inl (by decide))
  | list => exact ⟨_, _, by rw [Expr.write, List.cons_append], by decide, fun _ => by decide⟩
  | @tuple elements _ led =>
    match elements with
    | [] => exact ⟨_, _, by rw [Expr.write], by decide, fun _ => by decide⟩
    | [element] =>
      exact (led element List.mem_cons_self).of_wrapped 5 (by rw [Expr.write]) (.inr rfl)
    | first :: second :: rest =>
      exact (led first List.mem_cons_self).of_wrapped 5
        (by rw [write_tuple, writeSeparated_cons]) (.inr rfl)

/-- A token behind a bare expression lets it end: it binds no more tightly than the last operand
of the expression is read, and behind a tuple it ends expressions. -/
def Expr.ClosedBy (expr : Expr) (token : Token) : Prop :=
  match expr with
  | .tuple (_ :: _) _ => token.isDelimiter = true
  | .ifExp _ _ _ => token.binding ≤ 19
  | .boolOp operator _ => token.binding ≤ operator.power
  | .unaryOp operator _ => token.binding ≤ operator.power
  | .compare _ _ _ => token.binding ≤ 60
  | .binOp _ operator _ => token.binding ≤ operator.rightSlot
  | .await _ => token.binding ≤ 150
  | _ => True

/-- What may bind an expression in a place from behind: nothing that binds more tightly than the
place, or the operator whose left operand stands there, unless it groups to the right. -/
def Follows (slot power : Nat) : Prop :=
  power ≤ slot ∨ (power = slot + 1 ∧ power ≠ 20 ∧ power ≠ 140)

instance (slot power : Nat) : Decidable (Follows slot power) :=
  inferInstanceAs (Decidable (_ ∨ _))

/-- What follows a place closes the bare expressions in it. -/
theorem Expr.closedBy_of_follows {expr : Expr} {slot : Nat} {token : Token}
    (bare : expr.isWrapped slot = false) (least : 5 ≤ slot)
    (follows : Follows slot token.binding) : expr.ClosedBy token := by
  have above {power : Nat} (found : expr.power? = some power) : slot < power := by
    rw [isWrapped, found] at bare
    simpa using bare
  cases expr with
  | tuple elements context =>
    cases elements with
    | nil => trivial
    | cons first rest =>
      have impossible : slot < 5 := above rfl
      omega
  | ifExp test body orelse =>
    have tight : slot < 20 := above rfl
    show token.binding ≤ 19
    rcases follows with loose | ⟨same, other, -⟩ <;> omega
  | boolOp operator values =>
    have tight : slot < operator.power := above rfl
    show token.binding ≤ operator.power
    rcases follows with loose | ⟨same, -, -⟩ <;> omega
  | unaryOp operator operand =>
    have tight : slot < operator.power := above rfl
    show token.binding ≤ operator.power
    rcases follows with loose | ⟨same, -, -⟩ <;> omega
  | compare left operators comparators =>
    have tight : slot < 60 := above rfl
    show token.binding ≤ 60
    rcases follows with loose | ⟨same, -, -⟩ <;> omega
  | binOp left operator right =>
    have tight : slot < operator.power := above rfl
    have last : operator.rightSlot = operator.power ∨
        (operator.rightSlot = 139 ∧ operator.power = 140) := by
      cases operator <;> decide
    show token.binding ≤ operator.rightSlot
    rcases follows with loose | ⟨same, -, other⟩ <;> omega
  | await value =>
    have tight : slot < 150 := above rfl
    show token.binding ≤ 150
    rcases follows with loose | ⟨same, -, -⟩ <;> omega
  | _ => trivial

/-- An expression as it is read from a place. -/
def Expr.inSlot (slot : Nat) (expr : Expr) : Parsed :=
  ⟨expr, if expr.isWrapped slot then .grouped else .plain⟩

/-- An expression from a place is finished as it is. -/
theorem Expr.inSlot_finish (slot : Nat) (expr : Expr) :
    (expr.inSlot slot).finish = pure expr := by
  rw [inSlot, Parsed.finish]
  by_cases placed : expr.isWrapped slot = true <;> simp [placed]

/-- An expression from a place is no comprehension without brackets. -/
theorem Expr.inSlot_clauses? (slot : Nat) (expr : Expr) : (expr.inSlot slot).clauses? = none := by
  rw [inSlot, Parsed.clauses?]
  by_cases placed : expr.isWrapped slot = true <;> simp [placed]

/-- Whenever the tokens behind a bare expression let it end and are read on behind it, an operand
is read from its tokens and these. -/
def Expr.Reads (expr : Expr) : Prop :=
  ∀ power rest out left, expr.power?.all (power < ·) = true → expr.ClosedBy (Token.front rest) →
    Climbs power (.plain expr) rest out left → Yields power (expr.write ++ rest) out left

/-- The front of tokens that start with a token. -/
theorem Token.front_append {tokens rest : List Token} {token : Token} {more : List Token}
    (start : tokens = token :: more) : Token.front (tokens ++ rest) = token := by
  rw [start]
  rfl

/-- Every construct has a power above the least one. -/
theorem Expr.power?_pos (expr : Expr) : expr.power?.all (0 < ·) = true := by
  cases expr with
  | tuple elements context => cases elements <;> rfl
  | boolOp operator values => cases operator <;> rfl
  | unaryOp operator operand => cases operator <;> rfl
  | binOp left operator right => cases operator <;> rfl
  | _ => rfl

/-- A token that ends expressions lets every bare expression end. -/
theorem Expr.closedBy_of_isDelimiter (expr : Expr) {token : Token}
    (delimiter : token.isDelimiter = true) : expr.ClosedBy token := by
  have loose := (Token.of_isDelimiter delimiter).2
  unfold ClosedBy
  split
  · exact delimiter
  all_goals first | trivial | (rw [loose]; exact Nat.zero_le _)

/-- An expression in parentheses is read back as a group. -/
theorem Expr.Reads.grouped {expr : Expr} (reads : expr.Reads) (led : expr.Led) {power : Nat}
    {rest left : List Token} {out : Parsed} (later : Climbs power ⟨expr, .grouped⟩ rest out left) :
    Yields power (.mark "(" :: expr.write ++ [.mark ")"] ++ rest) out left := by
  have inside : Yields 0 (expr.write ++ .mark ")" :: rest) (.plain expr) (.mark ")" :: rest) := by
    have delimiter : (Token.mark ")").isDelimiter = true := by decide
    refine reads 0 _ _ _ expr.power?_pos ?_ (.stop ?_)
    · exact expr.closedBy_of_isDelimiter delimiter
    · exact Nat.le_of_eq (Token.of_isDelimiter delimiter).2
  obtain ⟨token, more, start, leads, -⟩ := led
  have read : ∀ depth, (expr.write ++ .mark ")" :: rest).length < depth →
      (PrefixRule.grouping.parse (.upTo depth)).Gives
        (.mark "(" :: (expr.write ++ .mark ")" :: rest)) ⟨expr, .grouped⟩ rest := by
    intro depth deep
    refine .advance_bind fun _ _ => ?_
    refine .bind (.eat_other ?_) fun _ => ?_
    · rw [Token.front_append start]
      exact leads.2 ")" (by decide)
    · refine .bind (inside depth deep) fun _ => ?_
      exact .expect_bind (by decide) fun _ => .pure _ rest
  have whole : Token.mark "(" :: expr.write ++ [.mark ")"] ++ rest =
      .mark "(" :: (expr.write ++ .mark ")" :: rest) := by simp
  rw [whole]
  exact .start (by decide) read (by simp; omega) later

/-- An expression that stands bare in a place binds more tightly than it. -/
theorem Expr.power?_of_bare {expr : Expr} {slot power : Nat} (bare : expr.isWrapped slot = false)
    (within : power ≤ slot) : expr.power?.all (power < ·) = true := by
  rw [isWrapped] at bare
  cases found : expr.power? with
  | none => rfl
  | some above =>
    rw [found] at bare
    have tight : slot < above := by simpa using bare
    simpa using Nat.lt_of_le_of_lt within tight

/-- An expression that stands bare in a place stands bare in each place for looser operands. -/
theorem Expr.bare_of_le {expr : Expr} {slot other : Nat} (bare : expr.isWrapped slot = false)
    (within : other ≤ slot) : expr.isWrapped other = false := by
  have above := power?_of_bare bare within
  rw [isWrapped]
  cases found : expr.power? with
  | none => rfl
  | some power =>
    rw [found] at above
    simpa using above

/-- An expression reads back from a place above a power, if the tokens behind the place are read
on behind it. -/
theorem Expr.Reads.slot {expr : Expr} (reads : expr.Reads) (led : expr.Led) {slot power : Nat}
    (within : power ≤ slot) (least : 5 ≤ slot) {rest left : List Token} {out : Parsed}
    (follows : Follows slot (Token.front rest).binding)
    (later : Climbs power (expr.inSlot slot) rest out left) :
    Yields power (wrapped slot expr expr.write ++ rest) out left := by
  rw [wrapped]
  rw [inSlot] at later
  by_cases placed : expr.isWrapped slot = true
  · rw [if_pos placed] at later ⊢
    exact reads.grouped led later
  · rw [if_neg placed] at later ⊢
    rw [Bool.not_eq_true] at placed
    exact reads power rest out left (power?_of_bare placed within)
      (closedBy_of_follows placed least follows) later

/-- An operand is read from a place, if the token behind the place binds no more tightly. -/
theorem Expr.Reads.operand {expr : Expr} (reads : expr.Reads) (led : expr.Led) {slot : Nat}
    (least : 5 ≤ slot) {rest : List Token} (stops : (Token.front rest).binding ≤ slot) :
    Yields slot (wrapped slot expr expr.write ++ rest) (expr.inSlot slot) rest :=
  reads.slot led (Nat.le_refl slot) least (.inl stops) (.stop stops)

/-- An expression is read from a place, if the token behind the place binds no more tightly. -/
theorem Expr.Reads.expr {expr : Expr} (reads : expr.Reads) (led : expr.Led) {slot : Nat}
    (least : 5 ≤ slot) {rest : List Token} (stops : (Token.front rest).binding ≤ slot)
    {depth : Nat} (deep : (wrapped slot expr expr.write ++ rest).length < depth) :
    ((Inner.upTo depth).optionalExpr slot).Gives (wrapped slot expr expr.write ++ rest)
        (some expr) rest ∧
      ((Inner.upTo depth).expr slot).Gives (wrapped slot expr expr.write ++ rest) expr rest := by
  obtain ⟨token, more, start, leads, -⟩ := led.placed slot
  refine (reads.operand led least stops).expr ?_ ?_ deep
  · by_cases placed : expr.isWrapped slot = true <;> simp [placed]
  · rw [Token.front_append start]
    exact leads.opens

end Offside
