import Abacus.Number.Text

/-!
Tokens: what a source text is cut into, how each is written, and how messages name it. A token list
may come from elsewhere than a source text, so the blanks that a lexer skips are tokens too.
-/
namespace Abacus

/-- The reserved words. -/
inductive Keyword where
  | var
  | cond
deriving DecidableEq, Repr

namespace Keyword

def text : Keyword → String
  | var => "var"
  | cond => "if"

end Keyword

/-- The kinds of token. Whole and fractional number literals are told apart, though both carry a
binary64 number. -/
inductive Token.Kind where
  | float (value : Float)
  | integer (value : Float)
  | keyword (word : Keyword)
  | identifier (name : String)
  | plus
  | minus
  | star
  | slash
  | leftParen
  | rightParen
  | leftBrace
  | rightBrace
  | comma
  | assign
  | equal
  | notEqual
  | bang
  | and
  | or
  | less
  | greater
  | newline
  | blank
  | eof
deriving DecidableEq

/-- A token and the line it starts on. -/
structure Token where
  kind : Token.Kind
  line : Nat
deriving DecidableEq

namespace Token.Kind

/-- A fractional literal keeps a point in its text, so that it reads back as one. -/
def floatText (value : Float) : String :=
  let text := Number.text value
  if text.toList.contains '.' then text else text ++ ".0"

/-- The source text of a token. The end of the input has none. -/
def text : Kind → String
  | float value => floatText value
  | integer value => Number.text value
  | keyword word => word.text
  | identifier name => name
  | plus => "+"
  | minus => "-"
  | star => "*"
  | slash => "/"
  | leftParen => "("
  | rightParen => ")"
  | leftBrace => "\x7b"
  | rightBrace => "\x7d"
  | comma => ","
  | assign => "="
  | equal => "=="
  | notEqual => "!="
  | bang => "!"
  | and => "&&"
  | or => "||"
  | less => "<"
  | greater => ">"
  | newline => "\n"
  | blank => " "
  | eof => ""

/-- The name of a token in messages. -/
def describe : Kind → String
  | eof => "end of input"
  | float value => "number '" ++ floatText value ++ "'"
  | integer value => "number '" ++ Number.text value ++ "'"
  | identifier name => "identifier '" ++ name ++ "'"
  | keyword word => "keyword '" ++ word.text ++ "'"
  | kind => "'" ++ kind.text ++ "'"

end Token.Kind

end Abacus
