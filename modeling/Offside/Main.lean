import Offside.CommandLine

/-!
# The program

Input and output of the command line: the file or standard input is read, and the outcome is
written.
-/
namespace Offside

/-- The reason why a file cannot be read: the words of the system and their number. -/
def readReason : IO.Error → String
  | .noFileOrDirectory _ code words | .interrupted _ code words | .permissionDenied _ code words
  | .inappropriateType _ code words | .invalidArgument _ code words
  | .resourceExhausted _ code words | .noSuchThing _ code words | .resourceBusy code words
  | .resourceVanished code words | .hardwareFault code words | .otherError code words =>
    words ++ " (os error " ++ toString code ++ ")"
  | error => toString error

/-- The bytes of standard input. -/
partial def readInput (stream : IO.FS.Stream) (read : ByteArray) : IO ByteArray := do
  let chunk ← stream.read 65536
  if chunk.isEmpty then return read else readInput stream (read ++ chunk)

/-- The bytes that a request asks for. -/
def contents (request : Request) : IO (Except String ByteArray) :=
  try
    let bytes ←
      if request.readsInput then readInput (← IO.getStdin) ByteArray.empty
      else IO.FS.readBinFile request.file
    return .ok bytes
  catch error => return .error (readReason error)

/-- The outcome of the arguments. -/
def outcome (arguments : List String) : IO Outcome := do
  match Request.ofArguments arguments with
  | .ok request => return .ofContents request (← contents request)
  | .error refusal => return .ofRefusal refusal

end Offside

/-- Run the program. -/
def main (arguments : List String) : IO UInt32 := do
  let outcome ← Offside.outcome arguments
  IO.print outcome.output
  IO.eprint outcome.errors
  return UInt32.ofNat outcome.code
