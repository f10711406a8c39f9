import Abacus.Token

/-!
From source text to tokens. A lexeme starts at the first character that is neither blank nor a line
feed and goes on as long as one of the rules for names, numbers and symbols allows; its text alone
decides which token it is, or which fault.
-/
namespace Abacus

/-- Why a source text cannot be cut into tokens. Positions count bytes of UTF-8 from zero. -/
inductive LexError where
  /-- The character starts no token. -/
  | invalidCharacter (character : Char) (position line : Nat)
  /-- A single `&` or `|`; only the doubled forms are operators. -/
  | loneOperator (operator : Char) (position line : Nat)
  /-- A number with more than one point. -/
  | malformedNumber (literal : String) (line : Nat)
deriving DecidableEq, Repr

namespace LexError

def line : LexError → Nat
  | invalidCharacter _ _ line | loneOperator _ _ line | malformedNumber _ line => line

def message : LexError → String
  | invalidCharacter character position line =>
    s!"Error on line {line}: Invalid character '{character}' at position {position}."
  | loneOperator operator _ line =>
    s!"Error on line {line}: Operator '{operator}' is not supported, did you mean '{operator}{operator}'?"
  | malformedNumber literal line =>
    s!"Error on line {line}: Malformed number '{literal}', more than one '.' found."

end LexError

namespace Token

/-- The characters between lexemes, line feeds apart. -/
def isBlank (c : Char) : Bool :=
  c == ' ' || c == '\t' || c == '\x0c' || c == '\r'

def isNameStart (c : Char) : Bool :=
  c.isAlpha || c == '_'

def isNamePart (c : Char) : Bool :=
  c.isAlphanum || c == '_'

/-- The second part of a number is a run of digits and points; one that holds a point is a fault. -/
def isFractionPart (c : Char) : Bool :=
  c.isDigit || c == '.'

/-- The characters of `rest` that belong to the lexeme that starts with `first`. -/
def lexemeTail (first : Char) (rest : List Char) : List Char :=
  if first.isDigit then
    match rest.dropWhile Char.isDigit with
    | '.' :: after => rest.takeWhile Char.isDigit ++ '.' :: after.takeWhile isFractionPart
    | _ => rest.takeWhile Char.isDigit
  else if isNameStart first then
    rest.takeWhile isNamePart
  else
    match first, rest with
    | '=', '=' :: _ => ['=']
    | '!', '=' :: _ => ['=']
    | '&', '&' :: _ => ['&']
    | '|', '|' :: _ => ['|']
    | _, _ => []

/-- What is wrong with a lexeme that is no token. -/
inductive Fault where
  | unknown
  | lone
  | twoPoints
deriving DecidableEq, Repr

/-- The token of a lexeme that starts with a digit. -/
def ofNumber (lexeme : List Char) : Except Fault Kind :=
  let whole := lexeme.takeWhile Char.isDigit
  match lexeme.dropWhile Char.isDigit with
  | [] => .ok (.integer (Decimal.ofDigits whole []).toFloat)
  | _ :: fraction =>
    if fraction.contains '.' then .error .twoPoints
    else .ok (.float (Decimal.ofDigits whole fraction).toFloat)

/-- The token of a lexeme that starts with a letter or an underscore. -/
def ofName (lexeme : List Char) : Kind :=
  if lexeme = ['v', 'a', 'r'] then .keyword .var
  else if lexeme = ['i', 'f'] then .keyword .cond
  else .identifier (String.ofList lexeme)

/-- The token of any other lexeme. -/
def ofSymbol : List Char → Except Fault Kind
  | ['+'] => .ok .plus
  | ['-'] => .ok .minus
  | ['*'] => .ok .star
  | ['/'] => .ok .slash
  | ['('] => .ok .leftParen
  | [')'] => .ok .rightParen
  | ['\x7b'] => .ok .leftBrace
  | ['\x7d'] => .ok .rightBrace
  | [','] => .ok .comma
  | ['='] => .ok .assign
  | ['=', '='] => .ok .equal
  | ['!', '='] => .ok .notEqual
  | ['!'] => .ok .bang
  | ['&', '&'] => .ok .and
  | ['|', '|'] => .ok .or
  | ['<'] => .ok .less
  | ['>'] => .ok .greater
  | ['&'] => .error .lone
  | ['|'] => .error .lone
  | _ => .error .unknown

/-- The token of the lexeme `first :: tail`. -/
def ofLexeme (first : Char) (tail : List Char) : Except Fault Kind :=
  if first.isDigit then ofNumber (first :: tail)
  else if isNameStart first then .ok (ofName (first :: tail))
  else ofSymbol (first :: tail)

/-- The error for a faulty lexeme at a place of the source. -/
def Fault.toError (first : Char) (tail : List Char) (position line : Nat) : Fault → LexError
  | unknown => .invalidCharacter first position line
  | lone => .loneOperator first position line
  | twoPoints => .malformedNumber (String.ofList (first :: tail)) line

/-- The tokens of a text that starts at the given place. Every character of a lexeme and every blank
is one byte long, so positions advance by counting characters. -/
def lex (position line : Nat) : List Char → Except LexError (List Token)
  | [] => .ok [⟨.eof, line⟩]
  | c :: cs =>
    if c = '\n' then lex (position + 1) (line + 1) cs
    else if isBlank c then lex (position + 1) line cs
    else
      let tail := lexemeTail c cs
      match ofLexeme c tail with
      | .error fault => .error (fault.toError c tail position line)
      | .ok kind =>
        match lex (position + tail.length + 1) line (cs.drop tail.length) with
        | .error e => .error e
        | .ok tokens => .ok (⟨kind, line⟩ :: tokens)
termination_by cs => cs.length
decreasing_by all_goals simp only [List.length_cons, List.length_drop]; omega

/-- The tokens of a source text, closed by one `eof`. Lines count from one. -/
def tokenize (source : String) : Except LexError (List Token) :=
  lex 0 1 source.toList

end Token

end Abacus
