import Offside.Proofs.Expression.Slots

/-!
# Reading back brackets

Members, subscripts, calls, lists and tuples read back if their parts do. The parts between commas
are read by a loop, one in each turn (`Expr.gives_separated`).
-/
namespace Offside

open Parse

namespace Expr

/-- A member reads back. -/
theorem reads_attribute {value : Expr} {field : String} (reads : value.Reads) (led : value.Led) :
    (Expr.attribute value field .load).Reads := by
  intro power rest out behind tight _ later
  have tight : power < 160 := by simpa [power?] using tight
  have means : (Token.mark ".").behavior? = some (.joining 160 .member) := by decide
  have follows : Follows 159 (Token.mark ".").binding := by decide
  rw [write, List.append_assoc, List.cons_append, List.cons_append, List.nil_append]
  apply reads.slot led (by omega) (by decide) follows
  refine .step means tight rfl (fun depth deep => ?_) (by simp) later
  refine .advance_bind fun _ _ => ?_
  rw [inSlot_finish]
  refine .bind (.pure _ _) fun _ => .bind (.checkKind .name _) fun _ => ?_
  refine .advance_bind fun found same => ?_
  have text : found.value = field := Token.value_of_bare same
  rw [text]
  exact .pure _ rest

/-- A subscript with one index reads back. -/
theorem reads_subscript {value index : Expr} (reads : value.Reads) (led : value.Led)
    (place : index.Reads) (placeLed : index.Led) :
    (subscript value (.index index) .load).Reads := by
  intro power rest out behind tight _ later
  have tight : power < 160 := by simpa [power?] using tight
  have means : (Token.mark "[").behavior? = some (.both .list 160 .subscript) := by decide
  have follows : Follows 159 (Token.mark "[").binding := by decide
  have stops : (Token.mark "]").binding ≤ 6 := by decide
  rw [write, Slice.write]
  simp only [List.append_assoc, List.cons_append, List.nil_append]
  apply reads.slot led (by omega) (by decide) follows
  refine .step means tight rfl (fun depth deep => ?_) (by simp; omega) later
  have dimension : (Inner.upTo depth).dimension.Gives
      (wrapped 6 index index.write ++ .mark "]" :: rest) (.index index) (.mark "]" :: rest) := by
    refine .bind (place.expr placeLed (by decide) stops deep).1 fun _ => ?_
    have noRange : (Token.mark "]").isText ":" = false := by decide
    exact .bind (.eat_other noRange) fun _ => .pure _ _
  have dimensions : (Inner.upTo depth).dimensions.Gives
      (wrapped 6 index index.write ++ .mark "]" :: rest) ([.index index], false)
      (.mark "]" :: rest) := by
    have noComma : (Token.mark "]").isText "," = false := by decide
    obtain ⟨fewer, rfl⟩ := Nat.exists_eq_add_one_of_ne_zero (Nat.ne_zero_of_lt deep)
    exact .done (.bind dimension fun _ => .bind (.eat_other noComma) fun _ => .pure _ _)
  refine .advance_bind fun _ _ => ?_
  rw [inSlot_finish]
  refine .bind (.pure _ _) fun _ => .bind dimensions fun _ => ?_
  exact .expect_bind (by decide) fun _ => .pure _ rest

/-- A loop over separated expressions reads them all, if each turn reads one of them and goes on
behind a comma. -/
theorem gives_separated {σ β : Type} (turn : σ → Parse (Turn σ β)) (add : σ → Expr → σ)
    (finish : σ → β) (close rest : List Token) {slot depth : Nat} {elements : List Expr}
    (again : ∀ state, ∀ element ∈ elements, ∀ more,
      (wrapped slot element element.write ++ .mark "," :: more).length < depth →
      (turn state).Gives (wrapped slot element element.write ++ .mark "," :: more)
        (.again (add state element)) more)
    (last : ∀ state, ∀ element ∈ elements,
      (wrapped slot element element.write ++ close).length < depth →
      (turn state).Gives (wrapped slot element element.write ++ close)
        (.done (finish (add state element))) rest)
    (nonempty : elements ≠ []) (state : σ) {bound : Nat}
    (deep : (writeSeparated (.mark ",") slot elements ++ close).length < depth)
    (enough : (writeSeparated (.mark ",") slot elements ++ close).length < bound) :
    (loop turn bound state).Gives (writeSeparated (.mark ",") slot elements ++ close)
      (finish (elements.foldl add state)) rest := by
  induction elements generalizing state bound with
  | nil => contradiction
  | cons element elements ih =>
    obtain ⟨fewer, rfl⟩ := Nat.exists_eq_add_one_of_ne_zero (Nat.ne_zero_of_lt enough)
    cases elements with
    | nil =>
      rw [writeSeparated] at deep ⊢
      exact .done (last state element List.mem_cons_self deep)
    | cons second elements =>
      have split : writeSeparated (.mark ",") slot (element :: second :: elements) ++ close =
          wrapped slot element element.write ++
            .mark "," :: (writeSeparated (.mark ",") slot (second :: elements) ++ close) := by
        rw [writeSeparated, List.append_assoc, List.cons_append]
        rintro ⟨⟩
      rw [split] at deep enough ⊢
      refine .again (again state element List.mem_cons_self _ deep) fun _ => ?_
      rw [List.length_append, List.length_cons] at deep enough
      refine ih ?_ ?_ (by simp) (add state element) (by omega) (by omega)
      · exact fun state found member => again state found (List.mem_cons_of_mem element member)
      · exact fun state found member => last state found (List.mem_cons_of_mem element member)

/-- Elements that are added one by one at the end. -/
theorem foldl_concat (elements found : List Expr) :
    elements.foldl (fun found element => found ++ [element]) found = found ++ elements := by
  induction elements generalizing found with
  | nil => simp
  | cons element elements ih => rw [List.foldl_cons, ih, List.append_assoc, List.singleton_append]

/-- The text of the token in front of an expression in a place is none that leads no expression. -/
theorem Led.isText {element : Expr} (led : element.Led) (slot : Nat) (behind : List Token)
    {text : String} (other : text ∈ [",", ")", "]", "*", "**"]) :
    (Token.front (wrapped slot element element.write ++ behind)).isText text = false := by
  obtain ⟨token, more, front, leads, -⟩ := led.placed slot
  rw [Token.front_append front]
  exact leads.2 text other

/-- One turn of reading a list. -/
def listTurn (inner : Inner) (elements : List Expr) : Parse (Turn (List Expr) Parsed) := do
  if ← eat "]" then return .done (.plain (.list elements .load))
  let parsed ← inner.operand Power.untilComma
  match parsed.clauses? with
  | some (element, clauses) =>
    let _ ← expect "]"
    return .done (.plain (.listComp element clauses))
  | none =>
    let elements := elements ++ [← parsed.finish]
    if ← eat "," then return .again elements
    let _ ← expect "]"
    return .done (.plain (.list elements .load))

/-- A list is read in turns. -/
theorem listRule_eq (inner : Inner) :
    inner.listRule = (do let _ ← advance; loop (listTurn inner) inner.bound []) :=
  rfl

/-- A turn of reading a list reads an operand that is no comprehension, up to what follows it. -/
theorem gives_listTurn_of_yields {element : Parsed} {depth : Nat} {found : List Expr}
    {ahead behind rest : List Token} {turn : Turn (List Expr) Parsed}
    (goesOn : (Token.front ahead).isText "]" = false) (operand : Yields 6 ahead element behind)
    (closed : element.clauses? = none) (finished : element.finish = pure element.expr)
    (deep : ahead.length < depth)
    (ends : (do
      if ← eat "," then return .again (found ++ [element.expr])
      let _ ← expect "]"
      return .done (.plain (.list (found ++ [element.expr]) .load)) :
        Parse (Turn (List Expr) Parsed)).Gives behind turn rest) :
    (listTurn (.upTo depth) found).Gives ahead turn rest := by
  refine .bind (.eat_other goesOn) fun _ => ?_
  refine .bind (operand depth deep) fun _ => ?_
  rw [closed, finished]
  exact .bind (.pure _ _) fun _ => ends

/-- A turn of reading a list reads an element, up to what follows it. -/
theorem gives_listTurn {element : Expr} (reads : element.Reads) (led : element.Led)
    {depth : Nat} (found : List Expr) {behind rest : List Token} {turn : Turn (List Expr) Parsed}
    (stops : (Token.front behind).binding ≤ 6)
    (deep : (wrapped 6 element element.write ++ behind).length < depth)
    (ends : (do
      if ← eat "," then return .again (found ++ [element])
      let _ ← expect "]"
      return .done (.plain (.list (found ++ [element]) .load)) :
        Parse (Turn (List Expr) Parsed)).Gives behind turn rest) :
    (listTurn (.upTo depth) found).Gives (wrapped 6 element element.write ++ behind) turn rest :=
  gives_listTurn_of_yields (led.isText 6 behind (by decide)) (reads.operand led (by decide) stops)
    (inSlot_clauses? 6 element) (inSlot_finish 6 element) deep ends

/-- A list reads back. -/
theorem reads_list {elements : List Expr} (reads : ∀ element ∈ elements, element.Reads)
    (led : ∀ element ∈ elements, element.Led) : (list elements .load).Reads := by
  intro power rest out behind _ _ later
  have starts : (Token.mark "[").prefixRule = .list := by decide
  have noComma : (Token.mark "]").isText "," = false := by decide
  have loose : (Token.mark "]").binding ≤ 6 := by decide
  have comma : (Token.mark ",").binding ≤ 6 := by decide
  rw [write]
  simp only [List.append_assoc, List.cons_append, List.nil_append]
  refine .start starts (fun depth deep => ?_) (by simp; omega) later
  rw [PrefixRule.parse, listRule_eq]
  refine .advance_bind fun _ _ => ?_
  by_cases nonempty : elements = []
  · subst nonempty
    obtain ⟨fewer, rfl⟩ := Nat.exists_eq_add_one_of_ne_zero (Nat.ne_zero_of_lt deep)
    exact .done (.bind (.eat (by decide)) fun _ => .pure _ _)
  · have whole := gives_separated (listTurn (.upTo depth)) (fun found element => found ++ [element])
      (fun found => .plain (.list found .load)) (.mark "]" :: rest) rest ?again ?last nonempty []
      deep deep
    case again =>
      intro found element member more less
      refine gives_listTurn (reads element member) (led element member) found comma less ?_
      exact .bind (.eat (by decide)) fun _ => .pure _ more
    case last =>
      intro found element member less
      refine gives_listTurn (reads element member) (led element member) found loose less ?_
      refine .bind (.eat_other noComma) fun _ => ?_
      exact .expect_bind (by decide) fun _ => .pure _ rest
    rw [foldl_concat, List.nil_append] at whole
    exact whole

/-- One turn of reading the arguments of a call. -/
def argumentTurn (inner : Inner) (found : CallArguments) :
    Parse (Turn CallArguments CallArguments) := do
  if ← check ")" then return .done found
  let found ← inner.argument found
  if ← eat "," then return .again found else return .done found

/-- The arguments of a call are read in turns. -/
theorem callArguments_eq (inner : Inner) :
    inner.callArguments = (do
      let found ← loop (argumentTurn inner) inner.bound ⟨[], []⟩
      let _ ← expect ")"
      return found) :=
  rfl

/-- A turn of reading arguments reads one by position, up to what follows it. -/
theorem gives_argumentTurn {argument : Expr} (reads : argument.Reads) (led : argument.Led)
    {depth : Nat} (found : CallArguments) {behind rest : List Token}
    {turn : Turn CallArguments CallArguments} (stops : (Token.front behind).binding ≤ 6)
    (bare : (Token.front behind).isText "=" = false)
    (deep : (wrapped 6 argument argument.write ++ behind).length < depth)
    (ends : (do
      if ← eat "," then return .again (found.addPositional argument)
      else return .done (found.addPositional argument) :
        Parse (Turn CallArguments CallArguments)).Gives behind turn rest) :
    (argumentTurn (.upTo depth) found).Gives (wrapped 6 argument argument.write ++ behind)
      turn rest := by
  have plain : ((Inner.upTo depth).plainArgument found).Gives
      (wrapped 6 argument argument.write ++ behind) (found.addPositional argument) behind := by
    refine .bind (reads.operand led (by decide) stops depth deep) fun _ => ?_
    refine .bind (.eat_other bare) fun _ => ?_
    rw [inSlot_clauses?, inSlot_finish]
    exact .bind (.pure _ _) fun _ => .pure _ _
  have read : ((Inner.upTo depth).argument found).Gives
      (wrapped 6 argument argument.write ++ behind) (found.addPositional argument) behind := by
    refine .bind (.eat_other (led.isText 6 behind (by decide))) fun _ => ?_
    exact .bind (.eat_other (led.isText 6 behind (by decide))) fun _ => plain
  refine .bind (.check ")" _) fun _ => ?_
  rw [led.isText 6 behind (by decide)]
  exact .bind read fun _ => ends

/-- Arguments by position that are added one by one. -/
theorem foldl_addPositional (arguments : List Expr) (found : CallArguments) :
    arguments.foldl CallArguments.addPositional found =
      ⟨found.positional ++ arguments, found.keywords⟩ := by
  induction arguments generalizing found with
  | nil => simp
  | cons argument arguments ih => simp [ih, CallArguments.addPositional]

/-- A call reads back. -/
theorem reads_call {function : Expr} {arguments : List Expr} (callee : function.Reads)
    (calleeLed : function.Led) (reads : ∀ argument ∈ arguments, argument.Reads)
    (led : ∀ argument ∈ arguments, argument.Led) : (call function arguments []).Reads := by
  intro power rest out behind tight _ later
  have tight : power < 160 := by simpa [power?] using tight
  have means : (Token.mark "(").behavior? = some (.both .grouping 160 .call) := by decide
  have follows : Follows 159 (Token.mark "(").binding := by decide
  have loose : (Token.mark ")").binding ≤ 6 := by decide
  have comma : (Token.mark ",").binding ≤ 6 := by decide
  have noComma : (Token.mark ")").isText "," = false := by decide
  have noName : (Token.mark ")").isText "=" = false := by decide
  rw [write]
  simp only [List.append_assoc, List.cons_append, List.nil_append]
  apply callee.slot calleeLed (by omega) (by decide) follows
  refine .step means tight rfl (fun depth deep => ?_) (by simp; omega) later
  refine .advance_bind fun _ _ => ?_
  rw [inSlot_finish]
  refine .bind (.pure _ _) fun _ => ?_
  have turns : (loop (argumentTurn (.upTo depth)) depth ⟨[], []⟩).Gives
      (writeSeparated (.mark ",") 6 arguments ++ .mark ")" :: rest) ⟨arguments, []⟩
      (.mark ")" :: rest) := by
    by_cases nonempty : arguments = []
    · subst nonempty
      obtain ⟨fewer, rfl⟩ := Nat.exists_eq_add_one_of_ne_zero (Nat.ne_zero_of_lt deep)
      exact .done (.bind (.check ")" _) fun _ => .pure _ _)
    · have whole := gives_separated (argumentTurn (.upTo depth)) CallArguments.addPositional id
        (.mark ")" :: rest) (.mark ")" :: rest) ?again ?last nonempty ⟨[], []⟩ deep deep
      case again =>
        intro found argument member more less
        have plain : (Token.mark ",").isText "=" = false := by decide
        refine gives_argumentTurn (reads argument member) (led argument member) found comma
          plain less ?_
        exact .bind (.eat (by decide)) fun _ => .pure _ more
      case last =>
        intro found argument member less
        refine gives_argumentTurn (reads argument member) (led argument member) found loose
          noName less ?_
        exact .bind (.eat_other noComma) fun _ => .pure _ _
      rw [foldl_addPositional] at whole
      exact whole
  have read : ((Inner.upTo depth).callArguments).Gives
      (writeSeparated (.mark ",") 6 arguments ++ .mark ")" :: rest) ⟨arguments, []⟩ rest := by
    rw [callArguments_eq]
    exact .bind turns fun _ => .expect_bind (by decide) fun _ => .pure _ rest
  exact .bind read fun _ => .pure _ rest

/-- One turn of reading a tuple. -/
def tupleTurn (inner : Inner) (power : Power) (elements : List Expr) :
    Parse (Turn (List Expr) (List Expr)) := do
  if ← atDelimiter then return .done elements
  let elements := elements ++ [← inner.expr power]
  if ← eat "," then return .again elements else return .done elements

/-- A tuple is read in turns. -/
theorem tupleRule_eq (inner : Inner) (left : Parsed) (power : Power) :
    inner.tupleRule left power = (do
      let _ ← advance
      let first ← left.finish
      let elements ← loop (tupleTurn inner power) inner.bound [first]
      return .plain (.tuple elements .load)) :=
  rfl

/-- A turn of reading a tuple reads an element, up to what follows it. -/
theorem gives_tupleTurn {element : Expr} (reads : element.Reads) (led : element.Led)
    {depth : Nat} (found : List Expr) {behind rest : List Token}
    {turn : Turn (List Expr) (List Expr)} (stops : (Token.front behind).binding ≤ 5)
    (deep : (wrapped 5 element element.write ++ behind).length < depth)
    (ends : (do
      if ← eat "," then return .again (found ++ [element]) else return .done (found ++ [element]) :
        Parse (Turn (List Expr) (List Expr))).Gives behind turn rest) :
    (tupleTurn (.upTo depth) 5 found).Gives (wrapped 5 element element.write ++ behind)
      turn rest := by
  obtain ⟨token, more, front, leads, -⟩ := led.placed 5
  refine .bind (.atDelimiter _) fun _ => ?_
  rw [Token.front_append front, leads.1]
  exact .bind (reads.expr led (by decide) stops deep).2 fun _ => ends

/-- A tuple reads back. -/
theorem reads_tuple {elements : List Expr} (reads : ∀ element ∈ elements, element.Reads)
    (led : ∀ element ∈ elements, element.Led) : (tuple elements .load).Reads := by
  intro power rest out behind tight closed later
  cases elements with
  | nil =>
    have starts : (Token.mark "(").prefixRule = .grouping := by decide
    rw [write]
    refine .start starts (fun depth deep => .advance_bind fun _ _ => ?_) (by simp) later
    exact .bind (.eat (by decide)) fun _ => .pure _ _
  | cons first others =>
    have tight : power < 5 := by simpa [power?] using tight
    have delimiter : (Token.front rest).isDelimiter = true := closed
    have means : (Token.mark ",").behavior? = some (.joining 5 .tuple) := by decide
    have follows : Follows 5 (Token.mark ",").binding := by decide
    have split : (tuple (first :: others) .load).write ++ rest = wrapped 5 first first.write ++
        .mark "," :: (writeSeparated (.mark ",") 5 others ++ rest) := by
      cases others with
      | nil => simp [write, writeSeparated]
      | cons second others =>
        rw [write_tuple, writeSeparated, List.append_assoc, List.cons_append]
        rintro ⟨⟩
    rw [split]
    refine (reads first List.mem_cons_self).slot (led first List.mem_cons_self)
      (Nat.le_of_lt tight) (by decide) follows ?_
    refine .step means tight rfl (fun depth deep => ?_) (by simp) later
    rw [InfixRule.parse, tupleRule_eq]
    refine .advance_bind fun _ _ => ?_
    rw [inSlot_finish]
    refine .bind (.pure _ _) fun _ => ?_
    have turns : (loop (tupleTurn (.upTo depth) 5) depth [first]).Gives
        (writeSeparated (.mark ",") 5 others ++ rest) (first :: others) rest := by
      by_cases single : others = []
      · subst single
        obtain ⟨fewer, rfl⟩ := Nat.exists_eq_add_one_of_ne_zero (Nat.ne_zero_of_lt deep)
        refine .done (.bind (.atDelimiter rest) fun _ => ?_)
        rw [delimiter]
        exact .pure _ rest
      have whole := gives_separated (tupleTurn (.upTo depth) 5)
        (fun found element => found ++ [element]) id rest rest ?again ?last single [first] deep deep
      case again =>
        intro found element member more less
        have within := List.mem_cons_of_mem first member
        have comma : (Token.mark ",").binding ≤ 5 := by decide
        refine gives_tupleTurn (reads element within) (led element within) found comma less ?_
        exact .bind (.eat (by decide)) fun _ => .pure _ more
      case last =>
        intro found element member less
        have within := List.mem_cons_of_mem first member
        obtain ⟨noComma, loose⟩ := Token.of_isDelimiter delimiter
        have stops : (Token.front rest).binding ≤ 5 := by omega
        refine gives_tupleTurn (reads element within) (led element within) found stops less ?_
        exact .bind (.eat_other noComma) fun _ => .pure _ rest
      rw [foldl_concat] at whole
      exact whole
    exact .bind turns fun _ => .pure _ rest

end Expr

end Offside
