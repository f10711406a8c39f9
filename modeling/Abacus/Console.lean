import Abacus.Console.Arguments
import Abacus.Console.ReadFailure
import Abacus.Log
import Abacus.Session
import Abacus.Text.WhiteSpace

/-!
The command: what it writes and with which status it ends, given its arguments, the files it can read
and the lines of its standard input. Read line by line, a program goes on after errors until a line
says `exit` or the input ends.
-/
namespace Abacus.Console

/-- What the command has written to its two outputs and the status it ends with. -/
structure Report where
  status : Nat
  stdout : String
  stderr : List String

/-- A report of what has been written, and of what comes behind it. -/
def Report.behind (r : Report) (stdout : String) (stderr : List String) : Report :=
  ⟨r.status, stdout ++ r.stdout, stderr ++ r.stderr⟩

/-- The text in the bytes of a line, given from the last to the first, if they are UTF-8. -/
def lineText (reversed : List UInt8) : Option String :=
  String.fromUTF8? ⟨reversed.reverse.toArray⟩

/-- Lines as texts where they are UTF-8. A line feed ends a line, with a carriage return in front of
it or not. The bytes of the first line that are already read are given from the last to the first. -/
def linesFrom (reversed : List UInt8) : List UInt8 → List (Option String)
  | [] => if reversed.isEmpty then [] else [lineText reversed]
  | b :: rest =>
    if b = 10 then
      match reversed with
      | 13 :: reversed' => lineText reversed' :: linesFrom [] rest
      | _ => lineText reversed :: linesFrom [] rest
    else linesFrom (b :: reversed) rest

/-- The lines of some bytes, as texts where they are UTF-8. -/
def lines (bytes : ByteArray) : List (Option String) :=
  linesFrom [] bytes.toList

/-- What a run writes: what it has printed and its value; its log and its error. -/
def written (f : Log.Filter) (r : Run (Option Value)) : String × List String :=
  let log := f.lines r.events
  match r.result with
  | .ok (some value) => (r.world.output ++ value.text ++ "\n", log)
  | .ok none => (r.world.output, log)
  | .error e => (r.world.output, log ++ [e.message])

/-- Runs one program. -/
def runOnce (f : Log.Filter) (source : String) : Report :=
  let r := runSource source
  let (stdout, stderr) := written f r
  match r.result with
  | .ok _ => ⟨0, stdout, stderr⟩
  | .error _ => ⟨1, stdout, stderr⟩

def prompt : String := ">> "

def isExit (line : String) : Bool :=
  WhiteSpace.trim line.toList == ['e', 'x', 'i', 't']

/-- What comes of a line. -/
inductive Answer where
  /-- The conversation ends with a report. -/
  | last (r : Report)
  /-- Something is written, and the conversation goes on in a session. -/
  | more (stdout : String) (stderr : List String) (s : Session)

/-- Answers a line. -/
def answer (f : Log.Filter) (s : Session) : Option String → Answer
  | none => .last ⟨1, "", ReadFailure.notUtf8.report "standard input"⟩
  | some line =>
    if isExit line then .last ⟨0, "", []⟩
    else
      let r := s.run line
      let (stdout, stderr) := written f r
      .more stdout stderr (.after r)

/-- What is left to report when the input ends. -/
def ended : Report :=
  ⟨0, "\n", []⟩

/-- Answers lines one after the other, with a prompt before each. -/
def converse (f : Log.Filter) (s : Session) : List (Option String) → Report
  | [] => ended.behind prompt []
  | line :: rest =>
    match answer f s line with
    | .last r => r.behind prompt []
    | .more stdout stderr s => (converse f s rest).behind (prompt ++ stdout) stderr

def versionText : String := "tally 0.1.0\n"

def helpText : String :=
  "A small expression-and-statement language with lexically scoped blocks\n" ++
  "\n" ++
  "Usage: tally [OPTIONS] [SCRIPT]\n" ++
  "\n" ++
  "Arguments:\n" ++
  "  [SCRIPT]  An inline program, e.g. `tally \"var a = 2 a * 3\"`\n" ++
  "\n" ++
  "Options:\n" ++
  "  -f, --file <FILE>  Reads the program from this file instead of the command line\n" ++
  "  -v, --verbose...   Raises the log level; repeat for more detail\n" ++
  "  -h, --help         Print help\n" ++
  "  -V, --version      Print version\n"

/-- What the log shows: what a setting says, or else, if there is none that can be read, what the
number of times says that a more verbose log was asked for. -/
def filter (setting : Option String) (count : Nat) : Log.Filter :=
  (setting.bind Log.Filter.ofText?).getD (.overall (.ofCount count))

/-- The text in some bytes, if they could be read and are UTF-8. -/
def decode (content : Except ReadFailure ByteArray) : Except ReadFailure String :=
  match content with
  | .error failure => .error failure
  | .ok bytes =>
    match String.fromUTF8? bytes with
    | some text => .ok text
    | none => .error .notUtf8

/-- Runs the program in a file with the given content. -/
def runFile (f : Log.Filter) (path : String) (content : Except ReadFailure ByteArray) : Report :=
  match decode content with
  | .ok text => runOnce f text
  | .error failure => ⟨1, "", failure.report path⟩

/-- The whole command. The line that explains a misuse is not part of the report. -/
def respond (arguments : List String) (setting : Option String)
    (files : String → Except ReadFailure ByteArray) (stdin : ByteArray) : Report :=
  match Request.ofArguments arguments with
  | .help => ⟨0, helpText, []⟩
  | .version => ⟨0, versionText, []⟩
  | .misuse => ⟨2, "", []⟩
  | .run source verbose =>
    let f := filter setting verbose
    match source with
    | .script text => runOnce f text
    | .file path => runFile f path (files path)
    | .lines => converse f .new (lines stdin)

end Abacus.Console
