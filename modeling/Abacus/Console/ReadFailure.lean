import Abacus.Text.Wrap

/-!
Why a file or the standard input cannot be read, and the report of it. The lines of a report are
filled up to a fixed width, so a long name takes several.
-/
namespace Abacus.Console

/-- Why a text cannot be read. -/
inductive ReadFailure where
  /-- The system refuses, for the reason with the given text and number. -/
  | system (reason : String) (code : Nat)
  | notUtf8
deriving DecidableEq, Repr

namespace ReadFailure

/-- The number that the system gives for a failure. -/
def code? : ReadFailure → Option Nat
  | system _ code => some code
  | notUtf8 => none

def notFound : ReadFailure :=
  system "No such file or directory" 2

def notADirectory : ReadFailure :=
  system "Not a directory" 20

def isADirectory : ReadFailure :=
  system "Is a directory" 21

def nameTooLong : ReadFailure :=
  system "File name too long" 36

def permissionDenied : ReadFailure :=
  system "Permission denied" 13

/-- The failure with a number of the system. The given text is for those that have no name here. -/
def ofCode (code : Nat) (reason : String) : ReadFailure :=
  let named := [notFound, permissionDenied, notADirectory, isADirectory, nameTooLong]
  match named.find? (·.code? == some code) with
  | some failure => failure
  | none => system reason code

def text : ReadFailure → String
  | system reason code => reason ++ s!" (os error {code})"
  | notUtf8 => "stream did not contain valid UTF-8"

end ReadFailure

/-- The columns of a report. -/
def reportWidth : Nat := 78

/-- Fills lines with a text, with one indent before the first line and another, of the same width,
before the others. -/
def indented (first rest text : String) : List String :=
  match Wrap.wrap (reportWidth - Width.ofText first.toList) text with
  | [] => []
  | line :: lines => (first ++ line) :: lines.map (rest ++ ·)

/-- The lines that report that something could not be read. -/
def ReadFailure.report (failure : ReadFailure) (what : String) : List String :=
  match indented "  × " "  │ " ("reading " ++ what ++ " failed") with
  | [] => []
  | line :: lines =>
    ("Error: " ++ line) :: lines ++ indented "  ╰─▶ " "      " failure.text ++ [""]

end Abacus.Console
