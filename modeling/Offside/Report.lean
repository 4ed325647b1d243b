import Offside.Fault
import Offside.Text.Lines

/-!
# Reports

A report shows a fault to the writer of a source text: what went wrong, in which file, and the
line where it was met, with a row of carets under the text of that line.
-/
namespace Offside

open Text

/-- A line of a source text, counted from one, without its terminator. -/
def lineText (source : String) (line : Nat) : Option String :=
  if line = 0 then none
  else (splitLines source.toList)[line - 1]?.map fun text =>
    String.ofList (trimEnd (fun c => c == '\n' || c == '\r') text)

namespace Fault

/-- The first lines of a report: the cause with its tip, and the file. -/
def headline (fault : Fault) : String :=
  let tip := match fault.cause.tip with
    | some tip => " (" ++ tip ++ ")"
    | none => ""
  "Error: " ++ fault.cause.name ++ ": " ++ fault.cause.message ++ tip ++ "\n"
    ++ "-> " ++ fault.position.file ++ "\n"

/-- The last lines of a report: the text of the line without the white space around it, and a
caret for each of its characters, at least one. -/
def excerpt (line : Nat) (text : String) : String :=
  let shown := trimEnd isWhiteSpace (text.toList.dropWhile isIndent)
  let number := toString line
  let gutter := String.ofList (List.replicate (number.length + 1) ' ') ++ "|"
  let carets := String.ofList (List.replicate (max shown.length 1) '^')
  gutter ++ "\n" ++ number ++ " | " ++ String.ofList shown ++ "\n" ++ gutter ++ " " ++ carets
    ++ "\n"

/-- The report of a fault against a source text. A line that the text does not have is not
shown. -/
def report (fault : Fault) (source : String) : String :=
  fault.headline ++
    match lineText source fault.position.line with
    | some text => excerpt fault.position.line text
    | none => ""

end Fault

end Offside
