/-!
The arguments of the command. They are read from left to right: asking for help or for the version
ends the reading at once, and so does the first argument that makes no sense; only a script and a file
at a time are found out in the end.
-/
namespace Abacus.Console

/-- Where the program comes from. -/
inductive Source where
  | script (text : String)
  | file (path : String)
  /-- Line by line from the standard input. -/
  | lines
deriving DecidableEq, Repr

/-- What the command is asked to do. -/
inductive Request where
  | help
  | version
  | misuse
  /-- Run a program, with the option for a more verbose log given that often. -/
  | run (source : Source) (verbose : Nat)
deriving DecidableEq, Repr

/-- What the arguments so far have set. -/
structure Options where
  file : Option String
  script : Option String
  verbose : Nat

namespace Options

def none : Options :=
  ⟨.none, .none, 0⟩

/-- The request when no argument is left. -/
def toRequest (o : Options) : Request :=
  match o.file, o.script with
  | .some _, .some _ => .misuse
  | .some path, .none => .run (.file path) o.verbose
  | .none, .some text => .run (.script text) o.verbose
  | .none, .none => .run .lines o.verbose

end Options

/-- What reading one argument leads to. -/
inductive Step where
  | next (options : Options)
  /-- The next argument is the path of the file. -/
  | path (options : Options)
  | stop (request : Request)

/-- A file may be named once, and not by an empty path. -/
def setFile (o : Options) (path : String) : Step :=
  if o.file.isSome || path.isEmpty then .stop .misuse else .next { o with file := some path }

def setScript (o : Options) (text : String) : Step :=
  if o.script.isSome then .stop .misuse else .next { o with script := some text }

/-- Reads the letters behind a single dash. A path may follow its letter, with or without `=`. -/
def readLetters (o : Options) : List Char → Step
  | [] => .next o
  | 'v' :: rest => readLetters { o with verbose := o.verbose + 1 } rest
  | 'h' :: _ => .stop .help
  | 'V' :: _ => .stop .version
  | ['f'] => .path o
  | 'f' :: '=' :: path => setFile o (String.ofList path)
  | 'f' :: path => setFile o (String.ofList path)
  | _ => .stop .misuse

/-- Reads the word behind two dashes. -/
def readWord (o : Options) (word : List Char) : Step :=
  match word.takeWhile (· != '='), word.dropWhile (· != '=') with
  | ['f', 'i', 'l', 'e'], [] => .path o
  | ['f', 'i', 'l', 'e'], _ :: path => setFile o (String.ofList path)
  | ['v', 'e', 'r', 'b', 'o', 's', 'e'], [] => .next { o with verbose := o.verbose + 1 }
  | ['h', 'e', 'l', 'p'], [] => .stop .help
  | ['v', 'e', 'r', 's', 'i', 'o', 'n'], [] => .stop .version
  | _, _ => .stop .misuse

/-- Whether an argument is an option, or looks like one. A single dash does not. -/
def isOption (argument : String) : Bool :=
  match argument.toList with
  | '-' :: _ :: _ => true
  | _ => false

/-- Reads an argument other than the two dashes that end the options. -/
def readArgument (o : Options) (argument : String) : Step :=
  match argument.toList with
  | '-' :: '-' :: word => readWord o word
  | '-' :: c :: letters => readLetters o (c :: letters)
  | _ => setScript o argument

/-- Reads the arguments after the two dashes that end the options. -/
def readScripts (o : Options) : List String → Request
  | [] => o.toRequest
  | argument :: rest =>
    match setScript o argument with
    | .next o' => readScripts o' rest
    | _ => .misuse

/-- Reads arguments on top of what is set already. -/
def readArguments (o : Options) : List String → Request
  | [] => o.toRequest
  | argument :: rest =>
    if argument = "--" then readScripts o rest
    else
      match readArgument o argument, rest with
      | .stop request, _ => request
      | .next o', rest => readArguments o' rest
      | .path _, [] => .misuse
      | .path o', path :: rest' =>
        if isOption path then .misuse
        else
          match setFile o' path with
          | .next o'' => readArguments o'' rest'
          | _ => .misuse

/-- What the given arguments ask for. -/
def Request.ofArguments (arguments : List String) : Request :=
  readArguments .none arguments

end Abacus.Console
