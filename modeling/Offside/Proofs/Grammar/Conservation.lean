import Mathlib.Data.List.Perm.Basic
import Offside.Proofs.Grammar.Balance
import Offside.Proofs.Grammar.Derivation

/-!
# Conservation

The tokens of a text hold the atoms of its tree and those of the elements that are dropped, and no
others (`Root.DerivesFrom.count`). So the tree has all names and numbers of the text, each as often
as it is written, just if no name and no number stands in what is dropped (`parse_conserves`).
-/
namespace Offside

open Literal

/-- The atoms of a token. -/
def Token.atoms (token : Token) : List Atom :=
  match token.kind, decodeNumber token.value with
  | .name, _ => [.word token.value]
  | .number, .ok value => [.number value]
  | _, _ => []

/-- A token that is neither a name nor a number has no atoms. -/
theorem Token.atoms_of_kind {token : Token} (unnamed : token.kind ≠ .name)
    (uncounted : token.kind ≠ .number) : token.atoms = [] := by
  unfold atoms
  split
  · contradiction
  · contradiction
  · rfl

/-- A token with a text that is no identifier has no atom that is kept. -/
theorem Token.count_of_isText {token : Token} {text : String} {atom : Atom}
    (kept : atom.isKept = true) (written : token.isText text = true)
    (fixed : isIdentifier text = false) : token.atoms.count atom = 0 := by
  rw [isText, Bool.and_eq_true, Bool.or_eq_true, beq_iff_eq, beq_iff_eq, beq_iff_eq] at written
  obtain ⟨kind, rfl⟩ := written
  rcases kind with named | sign
  · rw [atoms, named]
    refine List.count_eq_zero.2 fun member => ?_
    obtain rfl := List.mem_singleton.1 member
    rw [Atom.isKept, fixed] at kept
    contradiction
  · rw [atoms_of_kind (by simp [sign]) (by simp [sign]), List.count_nil]

/-- A token has the atoms of a terminal that asks for it. -/
theorem Terminal.Admits.count {terminal : Terminal} {token : Token} {atom : Atom}
    (admits : terminal.Admits token) (kept : atom.isKept = true)
    (fixed : (Symbol.terminal terminal).Fixed) :
    token.atoms.count atom = terminal.atoms.count atom := by
  cases terminal with
  | text written => exact Token.count_of_isText kept admits fixed
  | word written line => exact Token.count_of_isText kept admits.1 fixed
  | identifier id =>
    obtain ⟨named, rfl, -⟩ := admits
    rw [Token.atoms, named, Terminal.atoms]
  | name id =>
    obtain ⟨named, rfl⟩ := admits
    rw [Token.atoms, named, Terminal.atoms]
  | number value =>
    obtain ⟨kind, decoded⟩ := admits
    rw [Token.atoms, kind, decoded, Terminal.atoms]
  | layout kind =>
    obtain ⟨rfl, marks⟩ := admits
    have other (kind : Kind) (plain : kind.isLayout = false) : token.kind ≠ kind := by
      rintro rfl
      rw [marks] at plain
      contradiction
    rw [Token.atoms_of_kind (other .name rfl) (other .number rfl)]
    rfl
  | string | augmented =>
    rw [Token.atoms_of_kind (by simp [admits.1]) (by simp [admits.1])]
    rfl

/-- Identifiers that cover plain tokens have no points. -/
theorem Derives.plain {symbols : List Symbol} {dropped : List Expr} {ahead behind : List Token}
    (derives : Derives symbols dropped ahead behind) (plain : ∀ token ∈ ahead, token.IsPlain) :
    ∀ symbol ∈ symbols, symbol.IsPlain := by
  induction derives with
  | nil => exact fun _ member => absurd member List.not_mem_nil
  | @terminal terminal symbols dropped token ahead behind admits rest ih =>
    obtain ⟨first, others⟩ := List.forall_mem_cons.1 plain
    refine List.forall_mem_cons.2 ⟨?_, ih others⟩
    cases terminal with
    | identifier id =>
      obtain ⟨named, rfl, -⟩ := admits
      intro point
      exact absurd (first named _ point) (by decide)
    | text | word | name | number | string | layout | augmented => trivial
  | phrase production inside rest _ ih =>
    exact List.forall_mem_cons.2
      ⟨trivial, ih fun token member => plain token (inside.suffix.subset member)⟩
  | dropped rest ih => exact List.forall_mem_cons.2 ⟨trivial, ih plain⟩

/-- Symbols make what they are given and what the tokens hold that they cover, but for what is
dropped. -/
theorem Derives.count {symbols : List Symbol} {dropped : List Expr} {ahead behind : List Token}
    {atom : Atom} (derives : Derives symbols dropped ahead behind) (kept : atom.isKept = true)
    (fixed : ∀ symbol ∈ symbols, symbol.Fixed) (plain : ∀ token ∈ ahead, token.IsPlain) :
    (ahead.flatMap Token.atoms).count atom + (symbols.flatMap Symbol.given).count atom =
      (symbols.flatMap Symbol.made).count atom + (behind.flatMap Token.atoms).count atom +
        (exprAtoms dropped).count atom := by
  induction derives with
  | nil => simp
  | terminal admits rest ih =>
    obtain ⟨first, others⟩ := List.forall_mem_cons.1 fixed
    have here := admits.count kept first
    have later := ih others (List.forall_mem_cons.1 plain).2
    simp only [List.flatMap_cons, List.count_append, Symbol.given, Symbol.made,
      List.nil_append] at later ⊢
    omega
  | phrase production inside rest ihInside ihRest =>
    obtain ⟨first, others⟩ := List.forall_mem_cons.1 fixed
    have balance := production.balanced kept (inside.plain plain)
    have here := ihInside (production.fixed first) plain
    have later := ihRest others fun token member => plain token (inside.suffix.subset member)
    simp only [Balanced, List.flatMap_cons, List.count_append, Symbol.given, Symbol.made,
      exprAtoms_eq, List.flatMap_append] at balance here later ⊢
    omega
  | dropped rest ih =>
    have later := ih (List.forall_mem_cons.1 fixed).2 plain
    simp only [List.flatMap_cons, List.count_append, Symbol.given, Symbol.made, exprAtoms_eq,
      List.flatMap_append, List.nil_append] at later ⊢
    omega

/-- Each token that symbols cover is one that a terminal asks for. -/
theorem Derives.admitted {symbols : List Symbol} {dropped : List Expr} {ahead behind : List Token}
    (derives : Derives symbols dropped ahead behind) :
    ∀ token ∈ ahead, token ∈ behind ∨ ∃ terminal : Terminal, terminal.Admits token := by
  induction derives with
  | nil => exact fun _ member => .inl member
  | terminal admits _ ih => exact List.forall_mem_cons.2 ⟨.inr ⟨_, admits⟩, ih⟩
  | phrase _ _ _ ihInside ihRest =>
    intro token member
    rcases ihInside token member with later | admitted
    · exact ihRest token later
    · exact .inr admitted
  | dropped _ ih => exact ih

/-- A number that a terminal asks for has a value. -/
theorem Terminal.Admits.decodes {terminal : Terminal} {token : Token}
    (admits : terminal.Admits token) (counted : token.kind = .number) :
    ∃ value, decodeNumber token.value = .ok value := by
  have unwritten {text : String} (written : token.isText text = true) : False := by
    rw [Token.isText, counted] at written
    contradiction
  cases terminal with
  | number value => exact ⟨value, admits.2⟩
  | text => exact absurd admits unwritten
  | word => exact absurd admits.1 unwritten
  | layout kind =>
    obtain ⟨rfl, marks⟩ := admits
    rw [counted] at marks
    contradiction
  | identifier | name | string | augmented =>
    have kind := admits.1
    rw [counted] at kind
    contradiction

namespace Root

variable {root : Root} {tokens : List Token} {dropped : List Expr}

/-- The tokens of a text hold the atoms of its tree and of what is dropped. -/
theorem DerivesFrom.count (derives : root.DerivesFrom tokens dropped) {atom : Atom}
    (kept : atom.isKept = true) (plain : ∀ token ∈ tokens, token.IsPlain) :
    (tokens.flatMap Token.atoms).count atom =
      root.atoms.count atom + (exprAtoms dropped).count atom := by
  obtain ⟨behind, covered, ends⟩ := derives
  have counted := covered.count kept (List.forall_mem_singleton.2 trivial) fun token member =>
    plain token (List.mem_filter.1 member).1
  have last : behind.flatMap Token.atoms = [] := List.flatMap_eq_nil_iff.2 fun token member =>
    Token.atoms_of_kind (by simp [ends token member]) (by simp [ends token member])
  have passed : (tokens.filter Token.isSignificant).flatMap Token.atoms =
      tokens.flatMap Token.atoms := by
    clear covered counted plain
    induction tokens with
    | nil => rfl
    | cons token rest ih =>
      by_cases significant : token.isSignificant = true
      · rw [List.filter_cons_of_pos significant, List.flatMap_cons, List.flatMap_cons, ih]
      · have bare : token.atoms = [] := Token.atoms_of_kind
          (fun kind => significant (by simp [Token.isSignificant, kind]))
          (fun kind => significant (by simp [Token.isSignificant, kind]))
        rw [List.filter_cons_of_neg significant, List.flatMap_cons, bare, ih, List.nil_append]
  rw [passed, last] at counted
  simpa using counted

/-- The numbers of a text that derives a tree have values. -/
theorem DerivesFrom.decodes (derives : root.DerivesFrom tokens dropped) :
    ∀ token ∈ tokens, token.kind = .number → ∃ value, decodeNumber token.value = .ok value := by
  obtain ⟨behind, covered, ends⟩ := derives
  intro token member counted
  have significant : token.isSignificant = true := by simp [Token.isSignificant, counted]
  rcases covered.admitted token (List.mem_filter.2 ⟨member, significant⟩) with later | admitted
  · rw [ends token later] at counted
    contradiction
  · obtain ⟨terminal, admits⟩ := admitted
    exact admits.decodes counted

end Root

/-- The number of an atom. -/
def Atom.number? : Atom → Option Number
  | .number value => some value
  | .word _ => none

/-- Tokens write the identifiers and the numbers among atoms, each as often as it stands there. -/
structure Conserved (tokens : List Token) (atoms : List Atom) : Prop where
  /-- Each identifier is written as often as it stands there. -/
  names : ∀ id, isIdentifier id = true →
    tokens.countP (fun token => token.kind = .name ∧ token.value = id) = atoms.count (.word id)
  /-- The values of the number literals are the numbers there, in some order. -/
  numbers : ((tokens.filter (·.kind = .number)).map fun token => decodeNumber token.value).Perm
    ((atoms.filterMap Atom.number?).map .ok)

/-- Names are counted as the atoms of tokens are. -/
theorem countP_name (tokens : List Token) (id : String) :
    tokens.countP (fun token => token.kind = .name ∧ token.value = id) =
      (tokens.flatMap Token.atoms).count (.word id) := by
  induction tokens with
  | nil => rfl
  | cons token rest ih =>
    rw [List.countP_cons, List.flatMap_cons, List.count_append, ih, Nat.add_comm]
    congr 1
    by_cases named : token.kind = .name
    · simp [Token.atoms, named, List.count_cons]
    · have absent : Atom.word id ∉ token.atoms := by
        unfold Token.atoms
        split <;> simp_all
      simp [named, List.count_eq_zero.2 absent]

/-- The values of numbers that have some are those among the atoms of the tokens. -/
theorem map_decodeNumber {tokens : List Token}
    (decodes : ∀ token ∈ tokens, token.kind = .number → ∃ value,
      decodeNumber token.value = .ok value) :
    ((tokens.filter (·.kind = .number)).map fun token => decodeNumber token.value) =
      ((tokens.flatMap Token.atoms).filterMap Atom.number?).map .ok := by
  induction tokens with
  | nil => rfl
  | cons token rest ih =>
    obtain ⟨first, others⟩ := List.forall_mem_cons.1 decodes
    rw [List.flatMap_cons, List.filterMap_append, List.map_append, ← ih others]
    by_cases counted : token.kind = .number
    · obtain ⟨value, decoded⟩ := first counted
      simp [Token.atoms, counted, decoded, Atom.number?]
    · by_cases named : token.kind = .name
      · simp [Token.atoms, named, Atom.number?]
      · simp [Token.atoms_of_kind named counted, counted]

/-- The number of times that a number stands among atoms. -/
theorem count_number (atoms : List Atom) (value : Number) :
    (atoms.filterMap Atom.number?).count value = atoms.count (.number value) := by
  rw [List.count_filterMap, List.count_eq_countP]
  congr 1
  funext atom
  cases atom <;> simp [Atom.number?]

/-- Atoms are conserved if each that is kept stands there as often as in the tokens. -/
theorem conserved_iff {tokens : List Token} {atoms : List Atom}
    (decodes : ∀ token ∈ tokens, token.kind = .number → ∃ value,
      decodeNumber token.value = .ok value) :
    Conserved tokens atoms ↔ ∀ atom : Atom, atom.isKept = true →
      (tokens.flatMap Token.atoms).count atom = atoms.count atom := by
  constructor
  · intro conserved atom kept
    cases atom with
    | word id => rw [← countP_name, conserved.names id kept]
    | number value =>
      have same := conserved.numbers
      rw [map_decodeNumber decodes] at same
      have values := (List.map_perm_map_iff fun _ _ same => Except.ok.inj same).1 same
      rw [← count_number, ← count_number, values.count_eq]
  · intro counts
    refine ⟨fun id identifier => ?_, ?_⟩
    · rw [countP_name, counts (.word id) identifier]
    · rw [map_decodeNumber decodes]
      refine List.Perm.map _ (List.perm_iff_count.2 fun value => ?_)
      rw [count_number, count_number, counts (.number value) rfl]

/-- A source text that is parsed, as something else than one statement line, is scanned to its
end, and its tokens derive the tree. They write the names and the numbers of the tree and of what
is dropped, so they write those of the tree alone just if none is dropped. -/
theorem parse_conserves {source : String} {file : Option String} {mode : Mode} {root : Root}
    (whole : mode ≠ .single) (parsed : parse source file mode = .ok root) :
    ∃ tokens, tokenize source file = .ok tokens ∧ (∃ dropped, root.DerivesFrom tokens dropped) ∧
      ∀ dropped, root.DerivesFrom tokens dropped →
        Conserved tokens (root.atoms ++ exprAtoms dropped) ∧
        (Conserved tokens root.atoms ↔ ∀ atom ∈ exprAtoms dropped, atom.isKept = false) := by
  obtain ⟨tokens, scanned, derived⟩ := parse_derives whole parsed
  refine ⟨tokens, scanned, derived, fun dropped derives => ?_⟩
  have counts (atom : Atom) (kept : atom.isKept = true) :=
    derives.count kept (Scanner.plain_of_tokenize scanned)
  rw [conserved_iff derives.decodes, conserved_iff derives.decodes]
  refine ⟨fun atom kept => ?_, ?_, ?_⟩
  · rw [List.count_append, counts atom kept]
  · intro conserved atom member
    by_contra other
    have kept : atom.isKept = true := by simpa using other
    have positive := List.count_pos_iff.2 member
    have same := conserved atom kept
    rw [counts atom kept] at same
    omega
  · intro none_ atom kept
    have absent : (exprAtoms dropped).count atom = 0 := List.count_eq_zero.2 fun member => by
      rw [none_ atom member] at kept
      contradiction
    rw [counts atom kept, absent, Nat.add_zero]

/-- The first element of a list before a comprehension is written and not in the tree. -/
theorem parse_conserves_of_lost :
    Mode.eval ≠ .single ∧ ∃ root tokens dropped, parse "[a, b for b in c]" none .eval = .ok root ∧
      tokenize "[a, b for b in c]" none = .ok tokens ∧
      root.DerivesFrom tokens dropped ∧
      root.atoms = [.word "b", .word "b", .word "c"] ∧ ¬Conserved tokens root.atoms := by
  have read : (parse "[a, b for b in c]" none .eval).toOption.map Root.atoms =
      some [.word "b", .word "b", .word "c"] := by
    decide +kernel
  have written : (tokenize "[a, b for b in c]" none).toOption.map
      (·.countP fun token => token.kind = .name ∧ token.value = "a") = some 1 := by
    decide +kernel
  refine ⟨by decide, ?_⟩
  cases parsed : parse "[a, b for b in c]" none .eval with
  | error fault =>
    rw [parsed] at read
    contradiction
  | ok root =>
    rw [parsed] at read
    have atoms : root.atoms = [.word "b", .word "b", .word "c"] := Option.some.inj read
    obtain ⟨tokens, scanned, ⟨dropped, derives⟩, -⟩ := parse_conserves (by decide) parsed
    rw [scanned] at written
    refine ⟨root, tokens, dropped, rfl, scanned, derives, atoms, fun conserved => ?_⟩
    have once := (conserved.names "a" (by decide)).symm.trans (Option.some.inj written)
    rw [atoms] at once
    contradiction

end Offside
