/-!
# Styled text

Output is a row of spans, each plain or in a colour. Where colour is off the spans are written as they
are. Where it is on, a styled span stands between the code that starts its style and the code that
resets it; a reset already in the span's text would end the style early, so the start code is written
again behind it.
-/

namespace DiskArray.Text

/-- The colours in use. -/
inductive Color where
  | red | green | yellow | blue | cyan
  | brightBlack | brightYellow | brightBlue | brightMagenta | brightCyan
deriving DecidableEq, Repr

/-- The number that selects a colour for the text. -/
def Color.code : Color → String
  | .red => "31"
  | .green => "32"
  | .yellow => "33"
  | .blue => "34"
  | .cyan => "36"
  | .brightBlack => "90"
  | .brightYellow => "93"
  | .brightBlue => "94"
  | .brightMagenta => "95"
  | .brightCyan => "96"

/-- A colour, bold or not. -/
structure Style where
  color : Color
  bold : Bool := false
deriving DecidableEq, Repr

/-- The character that opens a terminal code. -/
def escape : Char := '\x1b'

/-- The code that ends every style. -/
def resetCode : List Char := [escape, '[', '0', 'm']

/-- The code that starts a style; bold comes before the colour. -/
def Style.startCode (s : Style) : List Char :=
  escape :: '[' :: ((if s.bold then "1;" else "") ++ s.color.code ++ "m").toList

/-- Writes `start` again behind every reset code. -/
def restartAfterReset (start : List Char) : List Char → List Char
  | [] => []
  | '\x1b' :: '[' :: '0' :: 'm' :: rest => resetCode ++ start ++ restartAfterReset start rest
  | c :: rest => c :: restartAfterReset start rest

/-- A text in a style, as a terminal wants it. -/
def Style.apply (s : Style) (text : String) : String :=
  String.ofList (s.startCode ++ restartAfterReset s.startCode text.toList ++ resetCode)

/-- A piece of output in one style, or in none. -/
structure Span where
  text : String
  style : Option Style := none
deriving DecidableEq, Repr

/-- Output before it is known whether the terminal shows colour. -/
abbrev Styled := List Span

/-- A span without a style. -/
def plain (text : String) : Span := ⟨text, none⟩

/-- A span in a colour. -/
def colored (color : Color) (text : String) : Span := ⟨text, some ⟨color, false⟩⟩

/-- A span in a colour and bold. -/
def bold (color : Color) (text : String) : Span := ⟨text, some ⟨color, true⟩⟩

/-- What is written for a span. -/
def Span.render (color : Bool) (s : Span) : String :=
  match s.style with
  | some style => if color then style.apply s.text else s.text
  | none => s.text

/-- What is written for a row of spans. -/
def Styled.render (color : Bool) (t : Styled) : String := String.join (t.map (Span.render color))

end DiskArray.Text
