import PagedReport.Coordinate

/-! # Fonts and their measures

A layout never measures text by itself. The surface that the pages are painted on supplies the
height of a line and the width of a text as `Metrics`. Both are coordinates; in a fixed pitch the width
of a long text wraps around like any product that is none.
-/

namespace PagedReport

/-- The font of a cell. -/
structure Font where
  family : String
  size : Nat
  bold : Bool
  italic : Bool
deriving DecidableEq, Repr

namespace Font

/-- A plain font. -/
def plain (family : String) (size : Nat) : Font := ⟨family, size, false, false⟩

/-- The font that reports use unless they name another. -/
def standard : Font := plain "SansSerif" 10

instance : Inhabited Font := ⟨standard⟩

/-- The same font in bold. -/
def bolded (font : Font) : Font := { font with bold := true }

/-- The same font with italic switched over. -/
def italicToggled (font : Font) : Font := { font with italic := !font.italic }

end Font

/-- The measures of text on a painting surface. -/
structure Metrics where
  /-- The height of a line, leading included. -/
  lineHeight : Font → Int
  /-- The width that a text takes up. -/
  textWidth : Font → String → Int

/-- A fixed pitch: each character has the same width, each line the same height. -/
structure FixedPitch where
  charWidth : Int
  lineHeight : Int
deriving DecidableEq, Repr

namespace FixedPitch

/-- Seven units by twelve. -/
def standard : FixedPitch := ⟨7, 12⟩

/-- The measures of text in a fixed pitch. -/
def metrics (pitch : FixedPitch) : Metrics where
  lineHeight _ := pitch.lineHeight
  textWidth _ text := Coordinate.wrap (pitch.charWidth * text.length)

end FixedPitch

end PagedReport
