import Offside.Parse
import Offside.Report

/-!
# The command line

The program reads one file, or standard input for `-`, and prints its tree or its tokens. This
module holds all of it that is not input and output: reading the arguments, naming the file, and
the answer to its contents. What the system says about a file that it does not read is given, as
its contents are.
-/
namespace Offside

/-- The parts of a path between slashes. -/
def pathParts (path : String) : List String :=
  path.splitOn "/"

/-- A part of a path that stays where it is. -/
def staysHere (part : String) : Bool :=
  part = "" || part = "."

/-- The names in a path: its parts without those that stay where they are. -/
def pathNames (path : String) : List String :=
  (pathParts path).filter (!staysHere ·)

/-- What the program is asked for. -/
structure Request where
  /-- The file to read. -/
  file : String
  /-- What the text is parsed as. -/
  mode : Mode
  /-- Print tokens instead of a tree. -/
  tokens : Bool
  /-- Print a tree with one field on each line. -/
  pretty : Bool
  deriving DecidableEq, Inhabited

/-- Why arguments make no request. -/
inductive Refusal where
  /-- Help or the version is asked for. -/
  | information
  /-- The arguments do not fit. -/
  | usage
  deriving DecidableEq, Inhabited, Repr

/-- Arguments that have been read. -/
structure Given where
  /-- The file. -/
  file : Option String := none
  /-- The mode. -/
  mode : Option Mode := none
  /-- Tokens are asked for. -/
  tokens : Bool := false
  /-- One field on each line is asked for. -/
  pretty : Bool := false
  deriving DecidableEq, Inhabited

namespace Given

/-- Add a file. There is one at most, and its name is not empty. -/
def addFile (given : Given) (name : String) : Except Refusal Given :=
  if given.file.isSome || name = "" then .error .usage
  else .ok { given with file := some name }

/-- Add a mode. There is one at most. -/
def addMode (given : Given) (word : String) : Except Refusal Given :=
  match given.mode, Mode.ofText word with
  | none, .ok mode => .ok { given with mode := some mode }
  | _, _ => .error .usage

/-- Add the wish for tokens, which is not repeated. -/
def addTokens (given : Given) : Except Refusal Given :=
  if given.tokens then .error .usage else .ok { given with tokens := true }

/-- Add the wish for one field on each line, which is not repeated. -/
def addPretty (given : Given) : Except Refusal Given :=
  if given.pretty then .error .usage else .ok { given with pretty := true }

/-- Add arguments that are all files. -/
def addFiles (given : Given) : List String → Except Refusal Given
  | [] => .ok given
  | name :: rest => do
    let given ← given.addFile name
    given.addFiles rest

/-- Add arguments. What starts with a minus sign is an option, unless it is nothing else, and
behind two minus signs all arguments are files. The value of an option follows it or stands
behind an equals sign in it. -/
def add (given : Given) : List String → Except Refusal Given
  | [] => .ok given
  | "--" :: rest => given.addFiles rest
  | "-h" :: _ | "--help" :: _ | "-V" :: _ | "--version" :: _ => .error .information
  | "--tokens" :: rest => do
    let given ← given.addTokens
    given.add rest
  | "--pretty" :: rest => do
    let given ← given.addPretty
    given.add rest
  | ["--mode"] => .error .usage
  | "--mode" :: word :: rest => do
    let given ← given.addMode word
    given.add rest
  | argument :: rest => do
    let chars := argument.toList
    let mark := "--mode=".toList
    let given ←
      if mark.isPrefixOf chars then given.addMode (String.ofList (chars.drop mark.length))
      else if argument ≠ "-" && chars.head? = some '-' then .error .usage
      else given.addFile argument
    given.add rest

/-- The request of the arguments, which must name a file. -/
def request (given : Given) : Except Refusal Request :=
  match given.file with
  | some file => .ok ⟨file, given.mode.getD .exec, given.tokens, given.pretty⟩
  | none => .error .usage

end Given

/-- The request that arguments make. -/
def Request.ofArguments (arguments : List String) : Except Refusal Request := do
  let given ← Given.add {} arguments
  given.request

namespace Request

/-- The request reads standard input. -/
def readsInput (request : Request) : Bool :=
  request.file = "-"

/-- The name under which the file appears in messages: the last name in its path. A path that
does not end in a name appears as it is. -/
def fileName (request : Request) : String :=
  if request.readsInput then "<stdin>"
  else match (pathNames request.file).getLast? with
    | some name => if name = ".." then request.file else name
    | none => request.file

end Request

/-- What the program leaves behind. -/
structure Outcome where
  /-- The exit code. -/
  code : Nat
  /-- The text on standard output. -/
  output : String
  /-- The text on standard error. -/
  errors : String
  deriving DecidableEq, Inhabited

namespace Outcome

/-- The outcome of success. -/
def success (output : String) : Outcome := ⟨0, output, ""⟩

/-- The outcome of failure. -/
def failure (errors : String) : Outcome := ⟨1, "", errors⟩

/-- The outcome where arguments make no request. What help and usage say is not decided here. -/
def ofRefusal : Refusal → Outcome
  | .information => ⟨0, "", ""⟩
  | .usage => ⟨2, "", ""⟩

/-- The outcome of a file that cannot be read, with the reason in words. -/
def unreadable (request : Request) (reason : String) : Outcome :=
  .failure ("Failed to read " ++ request.file ++ ": " ++ reason ++ "\n")

/-- The outcome of a computation on a source text: its output, or the report of its fault. -/
def ofResult {α : Type} (source : String) (result : Except Fault α) (write : α → String) :
    Outcome :=
  match result with
  | .ok value => .success (write value)
  | .error fault => .failure (fault.report source)

/-- Tokens, one on each line. -/
def tokenLines (tokens : List Token) : String :=
  String.join (tokens.map fun token => token.display ++ "\n")

/-- The outcome of a request for a source text. -/
def ofSource (request : Request) (source : String) : Outcome :=
  if request.tokens then
    ofResult source (tokenize source (some request.fileName)) tokenLines
  else
    ofResult source (parse source (some request.fileName) request.mode) fun root =>
      (if request.pretty then pretty root.dump else root.dump) ++ "\n"

/-- The outcome of a request for the bytes of a file, or for the reason of the system why there are
none. -/
def ofContents (request : Request) (contents : Except String ByteArray) : Outcome :=
  match contents with
  | .error reason => .unreadable request reason
  | .ok bytes =>
    match String.fromUTF8? bytes with
    | some source => .ofSource request source
    | none => .unreadable request "stream did not contain valid UTF-8"

end Outcome

end Offside
