import Abacus.Text.Glyph
import Abacus.Text.LineBreak.Class

/-!
Where a line of text may be broken, by the rules of the Unicode line breaking algorithm. The rules look
at the class of the next character and at what stands before it: the last character that is not a
space, marks on it left out, and whether spaces follow it.
-/
namespace Abacus.LineBreak

namespace Class

/-- The classes that end a line. -/
def isHard (c : Class) : Bool :=
  c == mandatory || c == carriageReturn || c == lineFeed

/-- The classes that belong to the character before them. -/
def isMark (c : Class) : Bool :=
  c == combining || c == joiner

/-- Whether a character of this class can carry marks. -/
def isBase (c : Class) : Bool :=
  !(c.isHard || c == space || c == zeroSpace)

def isOpen (c : Class) : Bool :=
  c == openPunctuation || c == openWide

def isClose (c : Class) : Bool :=
  c == closePunctuation || c == closeParenthesis

def isLetter (c : Class) : Bool :=
  c == alphabetic || c == hebrew

def isPicture (c : Class) : Bool :=
  c == ideographic || c == emojiBase || c == emojiModifier

def isHangul (c : Class) : Bool :=
  c == jamoLeading || c == jamoVowel || c == jamoTrailing || c == hangulOpen || c == hangulClosed

/-- Signs that belong to a number next to them. -/
def isNumericSign (c : Class) : Bool :=
  c == prefixNumeric || c == postfixNumeric

/-- The classes that stay with what is before them even if spaces stand between. -/
def clings (c : Class) : Bool :=
  c == wordJoiner || c.isClose || c == exclamation || c == infixSeparator || c == slash

/-- The pairs that stay together even if spaces stand between. -/
def holdsAcross (left right : Class) : Bool :=
  left.isOpen || (left.isClose && right == nonStarter) || (left == breakBoth && right == breakBoth)

/-- The neighbours that stay together whatever the other one is, and may not be parted even next to a
contingent break. -/
def glues (left right : Class) : Bool :=
  left == wordJoiner || left == glue || left == quotation || right == quotation ||
    (right == glue && left != breakAfter && left != hyphen)

/-- Numbers with their signs and separators, and letters next to them. -/
def holdsNumber (left right : Class) : Bool :=
  (left.isLetter && right == numeric) || (left == numeric && right.isLetter) ||
    (left.isNumericSign && (right.isLetter || right == numeric || right.isOpen)) ||
    ((left.isLetter || left.isClose || left == numeric) && right.isNumericSign) ||
    (right == numeric && (left == hyphen || left == infixSeparator || left == slash ||
      left == numeric))

/-- The parts of a Hangul syllable. -/
def holdsSyllable (left right : Class) : Bool :=
  (left == jamoLeading && (right == jamoLeading || right == jamoVowel || right == hangulOpen ||
    right == hangulClosed)) ||
  ((left == jamoVowel || left == hangulOpen) && (right == jamoVowel || right == jamoTrailing)) ||
  ((left == jamoTrailing || left == hangulClosed) && right == jamoTrailing)

/-- Signs of numbers next to what may stand for one in East Asian text. -/
def holdsSign (left right : Class) : Bool :=
  (left == prefixNumeric && (right.isPicture || right.isHangul)) ||
    ((left.isPicture || left.isHangul) && right == postfixNumeric)

/-- Words, and brackets inside them. -/
def holdsWord (left right : Class) : Bool :=
  ((left.isLetter || left == infixSeparator) && right.isLetter) ||
    ((left.isLetter || left == numeric) && right == openPunctuation) ||
    (left == closeParenthesis && (right.isLetter || right == numeric)) ||
    (left == slash && right == hebrew)

/-- The neighbours that stay together by the remaining rules. -/
def holds (left right : Class) : Bool :=
  right == breakAfter || right == hyphen || right == nonStarter || right == inseparable ||
    left == breakBefore || holdsNumber left right || holdsSyllable left right ||
    holdsSign left right || holdsWord left right || (left == emojiBase && right == emojiModifier)

end Class

/-- What stands before a place in a line. -/
structure Before where
  /-- The last character that is neither a space nor a mark on another one, if there is any. -/
  left : Option Class
  /-- Whether spaces follow it. -/
  spaces : Bool
  /-- Whether the last character is a zero width joiner. -/
  joined : Bool
  /-- Whether a Hebrew letter stands in front of `left`, which allows a break after itself. -/
  afterHebrew : Bool
  /-- Whether `left` is a regional indicator that waits for its second half. -/
  halfFlag : Bool

namespace Before

/-- The start of a line. -/
def start : Before :=
  ⟨none, false, false, false, false⟩

/-- Whether a character of class `next` is a mark on the character before it. -/
def carries (b : Before) (next : Class) : Bool :=
  next.isMark && !b.spaces && b.left.any Class.isBase

/-- A mark that belongs to no character stands like a letter. -/
def resolve (next : Class) : Class :=
  if next.isMark then .alphabetic else next

/-- Whether the two sides stay together when no space stands between them. -/
def holds (b : Before) (left next : Class) : Bool :=
  left.glues next ||
    (left != .contingent && next != .contingent &&
      (left.holds next || b.afterHebrew || (b.halfFlag && next == .regional)))

/-- Whether the line may be broken before a character of class `next` that is no mark. -/
def parts (b : Before) (next : Class) : Bool :=
  match b.left with
  | none => b.spaces && !next.clings
  | some left =>
    !next.clings && !left.holdsAcross next && (b.spaces || !b.holds left next)

/-- Whether the line may be broken before a character of class `next`. -/
def mayBreak (b : Before) (next : Class) : Bool :=
  if b.left.any (fun left => left.isHard && !(left == .carriageReturn && next == .lineFeed)) then true
  else if next.isHard || next == .space || next == .zeroSpace then false
  else if b.left == some .zeroSpace then true
  else !b.joined && !b.carries next && b.parts (resolve next)

/-- What stands before the place behind a character of class `next`. -/
def push (b : Before) (next : Class) : Before :=
  if next = .space then
    { b with left := b.left.filter (!·.isHard), spaces := true, joined := false }
  else if b.carries next then { b with joined := next == .joiner }
  else
    let class_ := resolve next
    { left := some class_
      spaces := false
      joined := next == .joiner
      afterHebrew := (class_ == .hyphen || class_ == .breakAfter) && !b.spaces &&
        b.left == some .hebrew
      halfFlag := class_ == .regional && !(b.halfFlag && !b.spaces) }

end Before

/-- A line is not broken behind a hyphen, visible or not. -/
def isHyphen (c : Char) : Bool :=
  c == '-' || c == '\u00ad'

/-- The parts of a text between the places where it may be broken, with what stands in front of the
text, the last visible character there, and the characters of the first part that are already read,
the last one first. Escape sequences in front of a character go with it. -/
def segmentsFrom (b : Before) (last : Option Char) (reversed : List Char) :
    List Glyph → List (List Char)
  | [] => if reversed.isEmpty then [] else [reversed.reverse]
  | g :: rest =>
    match g.shown with
    | none => segmentsFrom b last (g.text.reverse ++ reversed) rest
    | some c =>
      let next := Class.ofChar c
      if b.mayBreak next && !last.any isHyphen then
        reversed.reverse :: segmentsFrom (b.push next) (some c) g.text.reverse rest
      else segmentsFrom (b.push next) (some c) (g.text.reverse ++ reversed) rest

/-- Makes the last two parts one. -/
def joinLast : List (List Char) → List (List Char)
  | [] => []
  | [part] => [part]
  | [part, last] => [part ++ last]
  | part :: next :: last :: rest => part :: joinLast (next :: last :: rest)

/-- The parts of a text between the places where it may be broken. The last of these places stands
for the end of the text, so a text that ends with a hyphen, behind which there is none, has one part
less. -/
def segments (text : List Char) : List (List Char) :=
  let glyphs := Glyph.ofText text
  let parts := segmentsFrom .start none [] glyphs
  if (glyphs.filterMap (·.shown)).getLast?.any isHyphen then joinLast parts else parts

end Abacus.LineBreak
