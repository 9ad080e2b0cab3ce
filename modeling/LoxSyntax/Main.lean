import LoxSyntax.CommandLine.Run

/-! # The program

The thin layer between `LoxSyntax.CommandLine` and the machine: it reads the script or the standard
input, and writes what the library answers.
-/

namespace LoxSyntax.CommandLine

/-- The bytes of a script file. -/
def readScript (path : String) : IO (Except ScriptFault ByteArray) := do
  try
    return .ok (← IO.FS.readBinFile path)
  catch
    | .noFileOrDirectory .. => return .error .notFound
    | .permissionDenied .. => return .error .denied
    | .inappropriateType _ code _ =>
      return .error (if code = 20 then .notDirectory else .isDirectory)
    | fault => return .error (.other (toString fault))

def writeTranscript (transcript : Transcript) : IO UInt32 := do
  let stderr ← IO.getStderr
  stderr.putStr transcript.stderr
  let stdout ← IO.getStdout
  stdout.putStr transcript.stdout
  stdout.flush
  return transcript.status.toUInt32

/-- Answers the lines of the standard input as they come. -/
partial def prompt (session : Session) : IO UInt32 := do
  let line ← (← IO.getStdin).getLine
  match promptSource? line.toList with
  | none => return 0
  | some source =>
    let (shown, session) := runSource session source
    let _ ← writeTranscript shown
    prompt session.reset

def answer (request : Request) : IO UInt32 := do
  match request with
  | .run settings none => prompt (.new settings)
  | .run settings (some path) =>
    let content ← readScript path
    writeTranscript (runBytes settings path content)
  | request => writeTranscript (request.answer (fun _ => .error .notFound) "")

end LoxSyntax.CommandLine

open LoxSyntax.CommandLine in
def main (arguments : List String) : IO UInt32 := do
  match Request.ofArguments arguments with
  | .ok request => answer request
  | .error fault => writeTranscript (refuseUsage fault)
