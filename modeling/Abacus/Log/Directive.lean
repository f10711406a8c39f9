import Abacus.Log.Pattern
import Abacus.Log.Verbosity
import Abacus.Text.Alphanumeric
import Abacus.Text.WhiteSpace

/-!
Directives: the words of a setting that say how much a log shows of which part of the program.

    setting   := directive ("," directive)*
    directive := level | target | target "=" level?
               | target? "[" span? "]" ("=" level?)?
               | target? "[" span? "{" field ("=" value)? "}" "]" ("=" level?)?

Without a level a directive asks for everything. Where the parts of a directive end is found in its
text without white space at the ends, but the parts are taken from the text with it, at the same
distance from the start. So white space does not make a directive wrong in itself; it becomes a part
of a name, or spoils a level.
-/
namespace Abacus.Log

/-- A field that a directive asks for, perhaps with a value. -/
structure Field where
  name : List Char
  value : Option (List Char)
deriving DecidableEq, Repr

namespace Field

/-- Reads a field. Its name goes up to the first `=` and its value, a pattern, up to the second. -/
def ofText? (text : List Char) : Option Field :=
  let name := text.takeWhile (· != '=')
  match text.dropWhile (· != '=') with
  | [] => some ⟨name, none⟩
  | _ :: rest =>
    let value := rest.takeWhile (· != '=')
    if Pattern.isValue value then some ⟨name, some value⟩ else none

end Field

/-- How much to show of what. An empty target stands for the whole program. -/
structure Directive where
  target : List Char
  span : Option (List Char)
  field : Option Field
  level : Verbosity
deriving DecidableEq, Repr

namespace Directive

/-- A directive for the whole program. -/
def overall (level : Verbosity) : Directive :=
  ⟨[], none, none, level⟩

/-- The level behind a `=`. -/
def level? (text : List Char) : Option Verbosity :=
  if text = [] then some .trace else Verbosity.ofText? text

/-- The characters that a target may start with. -/
def isTargetStart (c : Char) : Bool :=
  c == '-' || c == ':' || c == '_' || Alphanumeric.isAlphanumeric c

/-- A directive of one word: a level, or else a target. -/
def ofWord (text : List Char) : Directive :=
  match Verbosity.ofText? text with
  | some level => overall level
  | none => ⟨text, none, none, .trace⟩

/-- Reads what follows the closing bracket; the first text is the one that the parts are taken from,
and the second the one that they are found in. -/
def readEnd (d : Directive) (text : List Char) : List Char → Option Directive
  | [] => some d
  | '=' :: _ => (level? (text.drop 1)).map ({ d with level := · })
  | _ => none

/-- Reads a field after the opening brace, and the rest. -/
def readField (d : Directive) (text shape : List Char) : Option Directive :=
  let size := (shape.takeWhile (· != '\x7d')).length
  match shape.drop size with
  | '\x7d' :: ']' :: rest =>
    if size = 0 then none
    else
      (Field.ofText? (text.take size)).bind fun field =>
        readEnd { d with field := some field } (text.drop (size + 2)) rest
  | _ => none

/-- Reads a span after the opening bracket, and the rest. -/
def readSpan (d : Directive) (text shape : List Char) : Option Directive :=
  let size := (shape.takeWhile fun c => c != ']' && c != '\x7b').length
  match shape.drop size with
  | ']' :: rest => readEnd { d with span := some (text.take size) } (text.drop (size + 1)) rest
  | '\x7b' :: rest =>
    readField (if size = 0 then d else { d with span := some (text.take size) })
      (text.drop (size + 1)) rest
  | _ => none

/-- Reads a directive. -/
def ofText? (text : List Char) : Option Directive :=
  let shape := WhiteSpace.trim text
  let size := (shape.takeWhile fun c => c != '=' && c != '[').length
  if shape.head?.all fun c => c != '[' && !isTargetStart c then none
  else
    match shape.drop size with
    | [] => some (ofWord text)
    | '=' :: _ =>
      (level? (text.drop (size + 1))).map fun level => ⟨text.take size, none, none, level⟩
    | _ :: rest => readSpan ⟨text.take size, none, none, .trace⟩ (text.drop (size + 1)) rest

/-- Whether the first directive is the more specific one: by the length of its target, then by
whether it asks for a field, then by the name of the field. -/
def outranks (a b : Directive) : Bool :=
  if a.target.length = b.target.length then
    match a.field, b.field with
    | some f, some g => g.name < f.name
    | some _, none => true
    | none, _ => false
  else b.target.length < a.target.length

end Directive

/-- What a log shows, as directives. -/
structure Filter where
  directives : List Directive

namespace Filter

/-- A filter that is the same for the whole program. -/
def overall (level : Verbosity) : Filter :=
  ⟨[.overall level]⟩

/-- The parts of a text between commas, given what is already read of the first one, the last
character first. -/
def splitFrom (reversed : List Char) : List Char → List (List Char)
  | [] => [reversed.reverse]
  | c :: rest =>
    if c = ',' then reversed.reverse :: splitFrom [] rest else splitFrom (c :: reversed) rest

/-- Reads a setting. Empty directives say nothing. -/
def ofText? (text : String) : Option Filter :=
  (((splitFrom [] text.toList).filter (· ≠ [])).mapM Directive.ofText?).map (⟨·⟩)

end Filter

end Abacus.Log
