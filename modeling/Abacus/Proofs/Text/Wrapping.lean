import Abacus.Text.Wrap
import Mathlib.Data.List.TakeWhile

/-!
What becomes of a text when it is filled into lines. It is cut into parts, pieces and glyphs, and put
together again, and all that is lost on the way are spaces and line feeds.
-/
namespace Abacus

namespace Glyph

theorem flatMap_text_ofTextFrom (e : Escape) (reversed rest : List Char) :
    (ofTextFrom e reversed rest).flatMap text = reversed.reverse ++ rest := by
  induction rest generalizing e reversed with
  | nil => cases reversed <;> simp [ofTextFrom, text]
  | cons c rest ih =>
    rw [ofTextFrom]
    split <;> simp [ih, text]

/-- The glyphs make up the text. -/
theorem flatMap_text_ofText (t : List Char) : (ofText t).flatMap text = t := by
  simp [ofText, flatMap_text_ofTextFrom]

end Glyph

namespace LineBreak

theorem flatten_segmentsFrom (b : Before) (last : Option Char) (reversed : List Char)
    (glyphs : List Glyph) :
    (segmentsFrom b last reversed glyphs).flatten =
      reversed.reverse ++ glyphs.flatMap Glyph.text := by
  induction glyphs generalizing b last reversed with
  | nil => cases reversed <;> simp [segmentsFrom]
  | cons g rest ih =>
    rw [segmentsFrom]
    split
    · simp [ih]
    · dsimp only
      split <;> simp [ih]

theorem flatten_joinLast (parts : List (List Char)) :
    (joinLast parts).flatten = parts.flatten := by
  fun_induction joinLast parts with
  | case1 | case2 | case3 => simp
  | case4 part next last rest ih => rw [List.flatten_cons, ih]; rfl

/-- The parts make up the text. -/
theorem flatten_segments (text : List Char) : (segments text).flatten = text := by
  rw [segments]
  split <;> simp [flatten_joinLast, flatten_segmentsFrom, Glyph.flatMap_text_ofText]

end LineBreak

namespace Wrap

/-- The characters of a text but its spaces and line feeds. -/
def ink (text : List Char) : List Char :=
  text.filter fun c => c != ' ' && c != '\n'

theorem ink_append (a b : List Char) : ink (a ++ b) = ink a ++ ink b :=
  List.filter_append a b

theorem ink_flatMap {α : Type} (f : α → List Char) (as : List α) :
    ink (as.flatMap f) = as.flatMap fun a => ink (f a) :=
  List.filter_flatMap

namespace Piece

variable (limit spaces : Nat) (reversed : List Char)

theorem ink_text (p : Piece) : ink p.text = ink p.letters := by
  have hspaces : ink (List.replicate p.spaces ' ') = [] := by simp [ink]
  rw [text, ink_append, hspaces, List.append_nil]

theorem text_ofSegment (segment : List Char) : (ofSegment segment).text = segment := by
  have hspaces : (segment.reverse.takeWhile (· == ' ')).reverse =
      List.replicate (segment.reverse.takeWhile (· == ' ')).length ' ' := by
    refine List.eq_replicate_iff.2 ⟨List.length_reverse, fun c hc => ?_⟩
    have hspace := List.mem_takeWhile_imp (List.mem_reverse.1 hc)
    exact eq_of_beq hspace
  rw [text, ofSegment, ← hspaces, ← List.reverse_append, List.takeWhile_append_dropWhile,
    List.reverse_reverse]

theorem letters_atHyphensFrom (cs : List Char) :
    (atHyphensFrom spaces reversed cs).flatMap letters = reversed.reverse ++ cs := by
  induction cs generalizing reversed with
  | nil => simp [atHyphensFrom]
  | cons c rest ih =>
    rw [atHyphensFrom]
    split <;> simp [ih]

theorem letters_cutFrom (used : Nat) (glyphs : List Glyph) :
    (cutFrom limit spaces reversed used glyphs).flatMap letters =
      reversed.reverse ++ glyphs.flatMap Glyph.text := by
  induction glyphs generalizing reversed used with
  | nil => simp [cutFrom]
  | cons g rest ih =>
    rw [cutFrom]
    split
    · cases hshown : g.shown <;> simp [ih, Glyph.text, hshown]
    · simp [ih]

theorem letters_cut (p : Piece) : (p.cut limit).flatMap letters = p.letters := by
  rw [cut]
  split
  · exact List.flatMap_singleton letters p
  · rw [letters_cutFrom, Glyph.flatMap_text_ofText]
    rfl

end Piece

theorem ink_pieces (limit : Nat) (text : List Char) :
    ink ((pieces limit text).flatMap (·.letters)) = ink text :=
  calc ink ((pieces limit text).flatMap (·.letters))
    _ = ink ((LineBreak.segments text).flatMap fun segment => (Piece.ofSegment segment).letters) := by
      simp only [pieces, List.flatMap_assoc, Piece.letters_cut, Piece.atHyphens,
        Piece.letters_atHyphensFrom, List.reverse_nil, List.nil_append]
    _ = ink ((LineBreak.segments text).flatMap id) := by
      simp only [ink_flatMap, ← Piece.ink_text, Piece.text_ofSegment, id_eq]
    _ = ink text := by rw [List.flatMap_id, LineBreak.flatten_segments]

/-- The lines hold the pieces, each once and in their order. -/
theorem flatten_fillFrom (limit : Nat) (reversed : List Piece) (used : Nat) (ps : List Piece) :
    (fillFrom limit reversed used ps).flatten = reversed.reverse ++ ps := by
  induction ps generalizing reversed used with
  | nil => simp [fillFrom]
  | cons p rest ih =>
    rw [fillFrom]
    split <;> simp [ih]

theorem ink_lineText (ps : List Piece) : ink (lineText ps) = ink (ps.flatMap (·.letters)) := by
  fun_induction lineText ps with
  | case1 => rfl
  | case2 p => rw [List.flatMap_singleton]
  | case3 p rest _ ih => rw [ink_append, ih, Piece.ink_text, List.flatMap_cons, ink_append]

theorem ink_wrapLine (limit : Nat) (text : List Char) :
    (wrapLine limit text).flatMap (fun line => ink line.toList) = ink text := by
  have hpieces : ((fillFrom limit [] 0 (pieces limit text)).flatMap fun line =>
      ink (line.flatMap (·.letters))) = ink text := by
    rw [← ink_flatMap, ← List.flatMap_assoc, List.flatMap_id', flatten_fillFrom]
    exact ink_pieces limit text
  simpa only [wrapLine, List.flatMap_map, String.toList_ofList, ink_lineText] using hpieces

theorem ink_linesFrom (reversed cs : List Char) :
    (linesFrom reversed cs).flatMap ink = ink (reversed.reverse ++ cs) := by
  induction cs generalizing reversed with
  | nil => simp [linesFrom]
  | cons c rest ih =>
    rw [linesFrom]
    split
    · next hc =>
      subst hc
      simp [ih, ink]
    · simp [ih]

/-- Lines hold the text that they are filled with, but for spaces and line feeds. -/
theorem ink_wrap (limit : Nat) (text : String) :
    (wrap limit text).flatMap (fun line => ink line.toList) = ink text.toList := by
  simp only [wrap, List.flatMap_assoc, ink_wrapLine]
  exact ink_linesFrom [] text.toList

end Wrap

end Abacus
