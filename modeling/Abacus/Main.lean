import Abacus.Console

/-!
The command itself: what the console answers, written as it comes. Lines are answered one by one, so
that a person can type them.
-/
namespace Abacus.Console

/-- The number of a failure, which the system may have given as a negative one. -/
def systemCode (code : UInt32) : Nat :=
  code.toInt32.toInt.natAbs

/-- The bytes of a file, or why they cannot be read. -/
def readBytes (path : String) : IO (Except ReadFailure ByteArray) := do
  try
    return .ok (← IO.FS.readBinFile path)
  catch e =>
    match e with
    | .noFileOrDirectory _ code details | .inappropriateType _ code details
    | .permissionDenied _ code details | .resourceExhausted _ code details
    | .invalidArgument _ code details | .otherError code details =>
      return .error (.ofCode (systemCode code) details)
    | e => return .error (.ofCode 0 (toString e))

/-- The bytes of the standard input up to a line feed or the end, after the given ones. -/
partial def readLine (stdin : IO.FS.Stream) (bytes : ByteArray) : IO ByteArray := do
  let next ← stdin.read 1
  if next.isEmpty || next.toList == [10] then return bytes ++ next
  else readLine stdin (bytes ++ next)

def write (stdout : String) (stderr : List String) : IO Unit := do
  IO.print stdout
  (← IO.getStdout).flush
  stderr.forM IO.eprintln

/-- Writes a report and ends with its status. -/
def finish (r : Report) : IO UInt32 := do
  write r.stdout r.stderr
  return UInt32.ofNat r.status

/-- Answers lines until one says `exit` or the input ends. -/
partial def converseAloud (f : Log.Filter) (s : Session) : IO UInt32 := do
  write prompt []
  match lines (← readLine (← IO.getStdin) .empty) with
  | [] => finish ended
  | line :: _ =>
    match answer f s line with
    | .last r => finish r
    | .more stdout stderr s =>
      write stdout stderr
      converseAloud f s

def misuseText : String :=
  "error: the arguments make no sense\n\nUsage: tally [OPTIONS] [SCRIPT]\n\n" ++
  "For more information, try '--help'."

end Abacus.Console

open Abacus Console in
def main (arguments : List String) : IO UInt32 := do
  let setting ← IO.getEnv "RUST_LOG"
  match Request.ofArguments arguments with
  | .help => finish ⟨0, helpText, []⟩
  | .version => finish ⟨0, versionText, []⟩
  | .misuse => finish ⟨2, "", [misuseText]⟩
  | .run source verbose =>
    let f := filter setting verbose
    match source with
    | .script text => finish (runOnce f text)
    | .file path => finish (runFile f path (← readBytes path))
    | .lines => converseAloud f .new
