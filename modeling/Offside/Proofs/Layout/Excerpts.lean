import Mathlib.Data.List.DropRight
import Offside.Proofs.Layout.Positions

/-!
# What a report shows of a line

The last lines of a report show a line of a source text between two gutters, by its number and its
text without the white space around it, with a row of carets under it (`Excerpt`). So a report of a
fault on a line of a text ends (`Fault.report_of_line`).
-/
namespace Offside

open Text

/-- A text without the white space around it: blanks in front of it and white space of all kinds
behind it. -/
structure Trimmed (text shown : List Char) : Prop where
  /-- All that is not shown is white space. -/
  rest : ∃ front back, text = front ++ (shown ++ back) ∧ (∀ c ∈ front, isIndent c = true) ∧
    ∀ c ∈ back, isWhiteSpace c = true
  /-- No blank is shown in front. -/
  starts : ∀ c ∈ shown.head?, isIndent c = false
  /-- No white space is shown at the end. -/
  ends : ∀ c ∈ shown.getLast?, isWhiteSpace c = false

/-- Only characters of a class are dropped at the end of a text. -/
theorem exists_trimEnd (drop : Char → Bool) (text : List Char) :
    ∃ back, text = trimEnd drop text ++ back ∧ ∀ c ∈ back, drop c = true :=
  ⟨text.rtakeWhile drop, List.rdropWhile_append_rtakeWhile.symm,
    fun _ member => List.mem_rtakeWhile_imp member⟩

/-- What is left does not end in such a character. -/
theorem trimEnd_getLast (drop : Char → Bool) (text : List Char) :
    ∀ c ∈ (trimEnd drop text).getLast?, drop c = false := by
  intro c last
  obtain ⟨some_, same⟩ := List.mem_getLast?_eq_getLast last
  have kept := List.rdropWhile_last_not drop text some_
  rw [same]
  exact Bool.eq_false_iff.2 kept

/-- A line without its end, the blanks in front and the white space behind is trimmed. -/
theorem trimmed_line (text : List Char) :
    Trimmed text (trimEnd isWhiteSpace
      ((trimEnd (fun c => c == '\n' || c == '\r') text).dropWhile isIndent)) := by
  obtain ⟨ending, whole, breaks⟩ := exists_trimEnd (fun c => c == '\n' || c == '\r') text
  generalize trimEnd (fun c => c == '\n' || c == '\r') text = line at whole ⊢
  obtain ⟨back, split, blank⟩ := exists_trimEnd isWhiteSpace (line.dropWhile isIndent)
  have white : ∀ c ∈ back ++ ending, isWhiteSpace c = true := by
    intro c member
    rcases List.mem_append.1 member with member | member
    · exact blank c member
    · have feed := breaks c member
      rw [Bool.or_eq_true, beq_iff_eq, beq_iff_eq] at feed
      rcases feed with rfl | rfl <;> rfl
  refine ⟨⟨line.takeWhile isIndent, back ++ ending, ?_, ?_, white⟩, ?_, trimEnd_getLast _ _⟩
  · rw [← List.append_assoc (trimEnd _ _), ← split, ← List.append_assoc,
      List.takeWhile_append_dropWhile]
    exact whole
  · exact fun c member => List.mem_takeWhile_imp member
  · intro c first
    have front : c ∈ (line.dropWhile isIndent).head? := by
      rw [split, List.head?_append, Option.mem_def.1 first, Option.some_or]
      rfl
    have outside := List.head?_dropWhile_not isIndent line
    rwa [Option.mem_def.1 front] at outside

/-- The end of a report that shows a line: the number of the line and its text without the white
space around it stand between two gutters, which are blank up to the bar, and behind the lower one
there is a caret under each character that is shown, one at least. -/
inductive Excerpt (line : Nat) (text : String) : String → Prop where
  /-- A line between two gutters. -/
  | framed {gutter shown carets : String}
      (blank : gutter.toList = List.replicate ((toString line).length + 1) ' ' ++ ['|'])
      (trimmed : Trimmed text.toList shown.toList)
      (row : carets.toList = List.replicate (max shown.length 1) '^') :
      Excerpt line text (gutter ++ "\n" ++ toString line ++ " | " ++ shown ++ "\n" ++ gutter
        ++ " " ++ carets ++ "\n")

/-- A line of a text without its end is shown as the whole line is. -/
theorem Fault.excerpt_framed (line : Nat) (text : String) :
    Excerpt line text (Fault.excerpt line
      (.ofList (trimEnd (fun c => c == '\n' || c == '\r') text.toList))) := by
  have trimmed := trimmed_line text.toList
  rw [Fault.excerpt, String.toList_ofList]
  generalize trimEnd isWhiteSpace _ = shown at trimmed ⊢
  refine .framed ?_ ?_ ?_
  · rw [String.toList_append, String.toList_ofList]
    rfl
  · rwa [String.toList_ofList]
  · rw [String.toList_ofList, String.length_ofList]

/-- A text has each line up to the last one. -/
theorem LineOf.exists_text {source : String} {line : Nat} (first : 1 ≤ line)
    (last : line ≤ (physicalLines source).length) : ∃ text, LineOf source line text := by
  have inside : line - 1 < (splitLines source.toList).length := by
    rw [physicalLines, List.length_map] at last
    omega
  have found := List.getElem?_eq_getElem inside
  generalize (splitLines source.toList)[line - 1] = raw at found
  refine ⟨.ofList (normalizeLine raw).1, first, last, ?_, ?_⟩
  · rw [physicalLines, List.getElem?_map, found, Option.map_some, Option.map_some,
      String.toList_ofList]
  · rw [lineText, if_neg (Nat.ne_of_gt first), found, Option.map_some, String.toList_ofList,
      trimEnd_normalizeLine]

/-- The report of a fault on a line of a text ends with what it shows of the line. -/
theorem Fault.report_of_line {source text : String} {fault : Fault}
    (stands : LineOf source fault.position.line text) :
    ∃ excerpt, fault.report source = fault.headline ++ excerpt ∧
      Excerpt fault.position.line text excerpt := by
  refine ⟨_, ?_, Fault.excerpt_framed fault.position.line text⟩
  rw [Fault.report, stands.shown]

end Offside
