import Offside.Proofs.Grammar.PairStatements
import Offside.Proofs.Layout.Terminators
import Offside.Report

/-!
# Terminators of lines do not matter

The grammar does not look at the text of the end of a line (`parseStream_ended`), and a report shows
a line without its terminator (`lineText_eq`). So neither a carriage return before each line feed nor
a line feed behind the last line changes what a text is parsed to or how a fault in it is shown
(`line_terminators_agree`).
-/
namespace Offside

open Text

/-- A token and the token of a line that came with a terminator are paired. -/
theorem Token.pairs_ended (token : Token) :
    (Pairing.whole .none id id).Tokens token token.ended := by
  by_cases breaks : token.kind = .newline ∨ token.kind = .softBreak
  · have ended : token.ended = { token with value := "\n" } := if_pos breaks
    rw [ended]
    refine ⟨rfl, fun named => ?_, fun other => ?_, .inl rfl, rfl⟩
    · rw [named] at breaks
      simp at breaks
    · rcases breaks with breaks | breaks <;> simp [breaks] at other
  · have same : token.ended = token := if_neg breaks
    rw [same]
    exact ⟨rfl, fun _ => rfl, fun _ => rfl, .inl rfl, rfl⟩

/-- A fault corresponds to itself. -/
theorem Pairing.Faults.refl (fault : Fault) : (whole .none id id).Faults fault fault :=
  ⟨.refl _, rfl, rfl⟩

/-- Without a renaming and with the lines as they are, a fault corresponds to itself only. -/
theorem Pairing.Faults.eq {fault found : Fault} (faults : (whole .none id id).Faults fault found) :
    found = fault := by
  have cause : found.cause = fault.cause := faults.cause.same rfl
  have line : found.position.line = fault.position.line := faults.line
  have file : found.position.file = fault.position.file := faults.file
  obtain ⟨foundCause, foundLine, foundFile⟩ := found
  obtain ⟨ownCause, ownLine, ownFile⟩ := fault
  subst cause line file
  rfl

/-- The grammar does not look at the texts of the ends of lines. -/
theorem parseStream_ended (stream : Stream) (file : Option String) (mode : Mode) :
    parseStream stream.ended file mode = parseStream stream file mode := by
  have significant : stream.ended.tokens.filter Token.isSignificant =
      (stream.tokens.filter Token.isSignificant).map Token.ended := by
    rw [Stream.ended, List.filter_map]
    congr 1
    refine List.filter_congr fun token _ => ?_
    rw [Function.comp_apply, Token.isSignificant, Token.isSignificant, token.ended_kind]
  have paired : List.Forall₂ (Pairing.whole .none id id).Tokens
      (stream.tokens.filter Token.isSignificant)
      (stream.ended.tokens.filter Token.isSignificant) := by
    rw [significant, List.forall₂_map_right_iff, List.forall₂_same]
    exact fun token _ => token.pairs_ended
  have waits : Option.Rel (Pairing.whole .none id id).Faults stream.failure stream.ended.failure := by
    show Option.Rel _ stream.failure stream.failure
    cases stream.failure with
    | none => exact .none
    | some fault => exact .some (.refl fault)
  obtain ⟨follows, fails⟩ := parseStream_pairs rfl paired waits file mode
  cases parsed : parseStream stream file mode with
  | ok root =>
    obtain ⟨found, otherParsed, copies⟩ := follows root parsed
    have word : (Renaming.none).word = id := rfl
    rw [word, Root.relabel_id, Root.moveLines_id, Root.moveLines_id] at copies
    rw [otherParsed, copies]
  | error fault =>
    obtain ⟨found, otherFailed, faults⟩ := fails fault parsed
    rw [otherFailed, faults.eq]

/-- The texts of lines are the lines, terminated one by one. -/
theorem Line.follow_texts {raws : List String} (filled : ∀ raw ∈ raws, raw ≠ "") (count : Nat)
    (bare : Bool) :
    (follow count bare raws).map Line.text =
      raws.map fun raw => .ofList (normalizeLine raw.toList).1 := by
  induction raws generalizing count bare with
  | nil => rfl
  | cons raw later ih =>
    obtain ⟨here, below⟩ := List.forall_mem_cons.1 filled
    rw [follow, if_neg here]
    exact congrArg _ (ih below _ _)

/-- A report shows a line that is read without its terminator. -/
theorem lineText_eq (source : String) {number : Nat} (counted : number ≠ 0) :
    lineText source number =
      ((Line.read (physicalLines source)).map Line.text)[number - 1]?.map fun text =>
        .ofList (trimEnd (fun c => c == '\n' || c == '\r') text.toList) := by
  rw [Line.read, Line.follow_texts (physicalLines_filled source), lineText, if_neg counted,
    physicalLines, List.map_map, List.getElem?_map, Option.map_map]
  refine congrArg (Option.map · _) (funext fun raw => ?_)
  rw [Function.comp_apply, Function.comp_apply, String.toList_ofList, String.toList_ofList,
    trimEnd_normalizeLine]

/-- The same lines are shown of texts whose lines are the same. -/
theorem lineText_of_read {source other : String}
    (same : Line.read (physicalLines other) = Line.read (physicalLines source)) (number : Nat) :
    lineText other number = lineText source number := by
  by_cases counted : number = 0
  · rw [lineText, lineText, if_pos counted, if_pos counted]
  · rw [lineText_eq other counted, lineText_eq source counted, same]

/-- Terminators of lines do not matter. A carriage return before each line feed of a text without
carriage returns changes neither its tokens nor its trees, nor how a fault in it is shown. A line
feed behind a last line that has no terminator changes neither the trees nor the faults. -/
theorem line_terminators_agree (source : String) (file : Option String) :
    ('\r' ∉ source.toList →
      tokenize (.ofList (returnBreaks source.toList)) file = tokenize source file ∧
      (∀ mode, parse (.ofList (returnBreaks source.toList)) file mode = parse source file mode) ∧
      ∀ fault : Fault, fault.report (.ofList (returnBreaks source.toList)) = fault.report source) ∧
    ∀ last, source.toList.getLast? = some last → last ≠ '\n' → last ≠ '\r' →
      ∀ mode, parse (source ++ "\n") file mode = parse source file mode := by
  refine ⟨fun plain => ⟨?_, fun mode => ?_, fun fault => ?_⟩, fun last ends unbroken plain mode => ?_⟩
  · rw [tokenize, tokenize, Stream.ofSource_returnBreaks plain]
  · rw [parse, parse, Stream.ofSource_returnBreaks plain]
  · rw [Fault.report, Fault.report, lineText_of_read (read_returnBreaks plain)]
  · rw [parse, parse, Stream.ofSource_feed ends unbroken plain, parseStream_ended]

/-- A text with a literal over two lines, and with a fault in its last line, which has no
terminator. -/
theorem line_terminators_agree_of_literal :
    ('\r' ∉ "x = '''a\nb'''\nx y".toList ∧
      (∀ mode, parse "x = '''a\r\nb'''\r\nx y" none mode = parse "x = '''a\nb'''\nx y" none mode) ∧
      ∀ fault : Fault, fault.report "x = '''a\r\nb'''\r\nx y" = fault.report "x = '''a\nb'''\nx y") ∧
    "x = '''a\nb'''\nx y".toList.getLast? = some 'y' ∧
    ∀ mode, parse "x = '''a\nb'''\nx y\n" none mode = parse "x = '''a\nb'''\nx y" none mode := by
  obtain ⟨returns, feed⟩ := line_terminators_agree "x = '''a\nb'''\nx y" none
  have plain : '\r' ∉ "x = '''a\nb'''\nx y".toList := by decide
  have whole : String.ofList (returnBreaks "x = '''a\nb'''\nx y".toList) =
      "x = '''a\r\nb'''\r\nx y" := by rfl
  obtain ⟨-, parsed, shown⟩ := returns plain
  rw [whole] at parsed shown
  exact ⟨⟨plain, parsed, shown⟩, rfl, feed 'y' rfl (by decide) (by decide)⟩

end Offside
