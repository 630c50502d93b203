/-!
Colours on a terminal.

A control sequence is an escape character and all that follows up to the next `m`. A terminal obeys
it and shows nothing for it. -/

namespace ThreadAffinity.Text

/-- The character that opens a control sequence. -/
def escape : Char := '\x1b'

/-- The characters that are shown; `inside` holds within a control sequence. -/
def shown : (inside : Bool) → List Char → List Char
  | _, [] => []
  | true, c :: cs => shown (c ≠ 'm') cs
  | false, c :: cs => if c = escape then shown true cs else c :: shown false cs

/-- The text without its control sequences. -/
def dropControls (s : String) : String := String.ofList (shown false s.toList)

/-- Whether the text has a control sequence. -/
def hasControls (s : String) : Bool := s.toList.contains escape

/-- The text between the sequence that sets a colour and the one that ends it. -/
def paint (colour : String) (s : String) : String := "\x1b[" ++ colour ++ "m" ++ s ++ "\x1b[0m"

end ThreadAffinity.Text
