import Abacus.Token

/-!
Why a token list is no program. An error names the token it blames, or `eof` when the list has run
out, and the line that its message reports.
-/
namespace Abacus

inductive ParseError where
  /-- A token that starts no expression. -/
  | unexpectedToken (found : Token.Kind) (line : Nat)
  /-- The input ends inside a construct. -/
  | unexpectedEnd (line : Nat)
  /-- No name follows `var`. -/
  | expectedIdentifier (found : Token.Kind) (line : Nat)
  /-- No `=` follows the name of a declaration. -/
  | expectedAssign (name : String) (found : Token.Kind) (line : Nat)
  | unclosedParen (found : Token.Kind) (line : Nat)
  | unclosedBrace (found : Token.Kind) (line : Nat)
  /-- A token after the end of the program. -/
  | trailingToken (found : Token.Kind) (line : Nat)
  /-- A keyword that has no meaning yet. -/
  | reservedKeyword (word : Keyword) (line : Nat)
  | nestingTooDeep (limit line : Nat)
deriving DecidableEq

namespace ParseError

def line : ParseError → Nat
  | unexpectedToken _ line | unexpectedEnd line | expectedIdentifier _ line
  | expectedAssign _ _ line | unclosedParen _ line | unclosedBrace _ line | trailingToken _ line
  | reservedKeyword _ line | nestingTooDeep _ line => line

/-- What is wrong, without the place. -/
def reason : ParseError → String
  | unexpectedToken found _ => "Unexpected token " ++ found.describe ++ ", expected an expression."
  | unexpectedEnd _ => "Unexpected end of input."
  | expectedIdentifier found _ => "Expected identifier after 'var', found " ++ found.describe ++ "."
  | expectedAssign name found _ =>
    "Expected '=' after 'var " ++ name ++ "', found " ++ found.describe ++ "."
  | unclosedParen found _ =>
    "Expected closing parenthesis ')' but found " ++ found.describe ++ "."
  | unclosedBrace found _ =>
    "Expected closing brace '\x7d' but found " ++ found.describe ++ "."
  | trailingToken found _ => "Extra tokens after program: " ++ found.describe ++ "."
  | reservedKeyword word _ => "Keyword '" ++ word.text ++ "' is reserved."
  | nestingTooDeep limit _ => s!"Nesting exceeds the limit of {limit} levels."

def message (e : ParseError) : String :=
  s!"Error on line {e.line}: " ++ e.reason

end ParseError

end Abacus
