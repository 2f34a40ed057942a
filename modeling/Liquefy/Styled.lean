/-!
# Styled text

A text for a terminal is a list of spans, some of them styled. It is rendered with escape
sequences or, where there are no colours, as its bare text.
-/

namespace Liquefy

/-- The colours in use. -/
inductive Color where
  | red
  | green
  | yellow
  | blue
  | cyan
  deriving DecidableEq, Repr

/-- The code that selects a colour. -/
def Color.code : Color → String
  | .red => "31"
  | .green => "32"
  | .yellow => "33"
  | .blue => "34"
  | .cyan => "36"

/-- The look of a span. -/
structure Style where
  bold : Bool
  color : Color
  deriving DecidableEq, Repr

/-- The codes that select a style. -/
def Style.codes (style : Style) : String :=
  (if style.bold then "1;" else "") ++ style.color.code

/-- A piece of text in one look. -/
structure Span where
  style : Option Style
  text : String
  deriving DecidableEq, Repr

/-- The piece with or without its escape sequences. -/
def Span.render (colours : Bool) (span : Span) : String :=
  match span.style with
  | some style =>
      if colours then "\x1b[" ++ style.codes ++ "m" ++ span.text ++ "\x1b[0m" else span.text
  | none => span.text

/-- A text some pieces of which are styled. -/
abbrev Styled := List Span

namespace Styled

/-- Text without a style. -/
def plain (text : String) : Styled := [⟨none, text⟩]

/-- Text in a colour. -/
def colored (color : Color) (text : String) : Styled := [⟨some ⟨false, color⟩, text⟩]

/-- Bold text in a colour. -/
def bold (color : Color) (text : String) : Styled := [⟨some ⟨true, color⟩, text⟩]

/-- A styled text as one string. -/
def render (colours : Bool) (styled : Styled) : String :=
  String.join (styled.map (Span.render colours))

@[simp] theorem render_append (colours : Bool) (a b : Styled) :
    (a ++ b).render colours = a.render colours ++ b.render colours := by
  simp [render]

end Styled

end Liquefy
