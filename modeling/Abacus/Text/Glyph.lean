/-!
Texts with escape sequences, which tell a terminal something and show nothing. A text is cut into its
visible characters, each with the sequences in front of it.
-/
namespace Abacus

/-- Where in an escape sequence a place is. -/
inductive Escape where
  | outside
  /-- Behind the escape character. -/
  | started
  /-- In a control sequence, which ends with a letter or one of some signs. -/
  | control
  /-- In a command to the system, behind the given character. It ends with a bell, or with a backslash
  behind an escape character. -/
  | command (last : Char)

namespace Escape

/-- The place behind a character. -/
def step : Escape → Char → Escape
  | outside, c => if c = '\x1b' then started else outside
  | started, c => if c = '[' then control else if c = ']' then command c else outside
  | control, c => if '\x40' ≤ c ∧ c ≤ '\x7e' then outside else control
  | command last, c => if c = '\x07' ∨ (c = '\\' ∧ last = '\x1b') then outside else command c

/-- Whether a character at a place is visible, that is, no part of a sequence. -/
def shows : Escape → Char → Bool
  | outside, c => c != '\x1b'
  | _, _ => false

end Escape

/-- A visible character with the escape sequences in front of it. At the end of a text there may be
sequences alone. -/
structure Glyph where
  hidden : List Char
  shown : Option Char

namespace Glyph

def text (g : Glyph) : List Char :=
  g.hidden ++ g.shown.toList

/-- The glyphs of a text that starts at a place of a sequence, given the characters of the sequences
that are already read, the last one first. -/
def ofTextFrom (e : Escape) (reversed : List Char) : List Char → List Glyph
  | [] => if reversed.isEmpty then [] else [⟨reversed.reverse, none⟩]
  | c :: rest =>
    if e.shows c then ⟨reversed.reverse, some c⟩ :: ofTextFrom (e.step c) [] rest
    else ofTextFrom (e.step c) (c :: reversed) rest

/-- The glyphs of a text. -/
def ofText (text : List Char) : List Glyph :=
  ofTextFrom .outside [] text

end Glyph

end Abacus
