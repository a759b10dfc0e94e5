import TileDeck.Terminal.Painting

set_option autoImplicit false

namespace TileDeck.Terminal.Ansi

def escape (codes : String) : String := s!"\x1b[{codes}m"

def channels (colour : Rgb) : String := s!"{colour.red};{colour.green};{colour.blue}"

def foreground : Tint → String
  | .reset => "39"
  | .black => "30"
  | .rgb colour => s!"38;2;{channels colour}"

def background : Tint → String
  | .reset => "49"
  | .black => "40"
  | .rgb colour => s!"48;2;{channels colour}"

def style (s : Style) : String :=
  escape (if s.bold then "0;1" else "0") ++ escape (foreground s.fg) ++ escape (background s.bg)

def span (s : Span) : String := style s.style ++ String.ofList s.text

def row (cells : List Cell) : String :=
  String.join ((Span.ofCells cells).map span) ++ escape "0"

/-- Clear the terminal and write the buffer from its top left corner. -/
def screen (buffer : Buffer) : String :=
  "\x1b[2J\x1b[H" ++ String.intercalate "\r\n" (buffer.map row) ++ "\r\n"

end TileDeck.Terminal.Ansi
