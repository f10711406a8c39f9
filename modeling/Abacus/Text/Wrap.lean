import Abacus.Text.Alphanumeric
import Abacus.Text.LineBreak
import Abacus.Text.Width

/-!
Filling lines of limited width with text. A line takes as many pieces as fit; a piece is what must not
be broken, unless it is too long for any line, in which case it is cut where the line is full. The
spaces at the end of a line are dropped.
-/
namespace Abacus.Wrap

/-- Characters that stay together, and the number of spaces behind them. -/
structure Piece where
  letters : List Char
  spaces : Nat
deriving DecidableEq, Repr

namespace Piece

/-- The columns of a piece, without the spaces behind it. -/
def columns (p : Piece) : Nat :=
  Width.ofText p.letters

/-- A part of a text as a piece. -/
def ofSegment (segment : List Char) : Piece :=
  let backwards := segment.reverse
  ⟨(backwards.dropWhile (· == ' ')).reverse, (backwards.takeWhile (· == ' ')).length⟩

def text (p : Piece) : List Char :=
  p.letters ++ List.replicate p.spaces ' '

/-- Parts a piece behind each hyphen between letters or digits. The characters of the first part that
are already read are given from the last to the first. -/
def atHyphensFrom (spaces : Nat) (reversed : List Char) : List Char → List Piece
  | [] => [⟨reversed.reverse, spaces⟩]
  | c :: rest =>
    if c = '-' && reversed.head?.any Alphanumeric.isAlphanumeric &&
        rest.head?.any Alphanumeric.isAlphanumeric then
      ⟨(c :: reversed).reverse, 0⟩ :: atHyphensFrom spaces [] rest
    else atHyphensFrom spaces (c :: reversed) rest

def atHyphens (p : Piece) : List Piece :=
  atHyphensFrom p.spaces [] p.letters

/-- Cuts glyphs so that no part is wider than a line. The characters of the first part that are
already read are given from the last to the first, with the columns they take. Escape sequences at a
cut stay in front of it. -/
def cutFrom (limit spaces : Nat) (reversed : List Char) (used : Nat) : List Glyph → List Piece
  | [] => [⟨reversed.reverse, spaces⟩]
  | g :: rest =>
    let columns := Width.ofGlyph g
    if 0 < used ∧ limit < used + columns then
      ⟨reversed.reverse ++ g.hidden, 0⟩ :: cutFrom limit spaces g.shown.toList columns rest
    else cutFrom limit spaces (g.text.reverse ++ reversed) (used + columns) rest

/-- Cuts a piece so that no part is wider than a line. -/
def cut (limit : Nat) (p : Piece) : List Piece :=
  if p.columns ≤ limit then [p] else cutFrom limit p.spaces [] 0 (Glyph.ofText p.letters)

end Piece

/-- The pieces of a text without line feeds. -/
def pieces (limit : Nat) (text : List Char) : List Piece :=
  (LineBreak.segments text).flatMap fun segment =>
    (Piece.ofSegment segment).atHyphens.flatMap (Piece.cut limit)

/-- The pieces of each line, given those that are already in the first one, the last one first, and
the columns they take. -/
def fillFrom (limit : Nat) (reversed : List Piece) (used : Nat) : List Piece → List (List Piece)
  | [] => [reversed.reverse]
  | p :: rest =>
    if limit < used + p.columns ∧ reversed ≠ [] then
      reversed.reverse :: fillFrom limit [p] (p.columns + p.spaces) rest
    else fillFrom limit (p :: reversed) (used + p.columns + p.spaces) rest

/-- The text of some pieces, without the spaces behind the last one. -/
def lineText : List Piece → List Char
  | [] => []
  | [p] => p.letters
  | p :: rest => p.text ++ lineText rest

/-- The lines of a text without line feeds. -/
def wrapLine (limit : Nat) (text : List Char) : List String :=
  (fillFrom limit [] 0 (pieces limit text)).map fun line => String.ofList (lineText line)

/-- The lines of a text at their line feeds, given what is already read of the first one, the last
character first. -/
def linesFrom (reversed : List Char) : List Char → List (List Char)
  | [] => [reversed.reverse]
  | c :: rest =>
    if c = '\n' then reversed.reverse :: linesFrom [] rest else linesFrom (c :: reversed) rest

/-- The lines that a text fills. -/
def wrap (limit : Nat) (text : String) : List String :=
  (linesFrom [] text.toList).flatMap (wrapLine limit)

end Abacus.Wrap
