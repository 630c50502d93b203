import ThreadAffinity.Event
import ThreadAffinity.Text.Blank
import ThreadAffinity.Text.Terminal
import ThreadAffinity.Text.Width

/-!
Diagnostics drawn into an excerpt of the source.

A drawing names the problem, shows the line where its span starts, and the line where it ends if
that is another one, marks the span and repeats the message at its mark. Spans count bytes, columns
count characters. Every character of a source counts as narrow: it takes one column of the drawing,
or none. A span that does not lie in the source leaves only the headline. -/

namespace ThreadAffinity

/-! ### Lines -/

/-- Whether the character ends a line; a line feed behind a carriage return belongs to it. -/
def endsLine (c : Char) : Bool :=
  let n := c.toNat
  (0x0A ≤ n && n ≤ 0x0D) || n == 0x85 || n == 0x2028 || n == 0x2029

/-- The lines of a text, each with its terminator; `line` is the front of the current one, last
character first. -/
def splitLines (line : List Char) : List Char → List (List Char)
  | [] => if line.isEmpty then [] else [line.reverse]
  | '\r' :: '\n' :: cs => ('\n' :: '\r' :: line).reverse :: splitLines [] cs
  | c :: cs =>
    if endsLine c then (c :: line).reverse :: splitLines [] cs else splitLines (c :: line) cs

/-- The lines of a source; an empty one has an empty line. -/
def sourceLines (source : String) : List (List Char) :=
  match splitLines [] source.toList with
  | [] => [[]]
  | ls => ls

/-- A byte offset, found in a source. -/
structure Position where
  /-- The number of the line, counted from zero. -/
  line : Nat
  /-- The line with its terminator. -/
  content : List Char
  /-- The number of characters in front of the offset in its line. -/
  column : Nat
deriving DecidableEq, Repr

/-- The number of bytes of some characters. -/
def bytesOf (cs : List Char) : Nat := cs.foldl (fun n c => n + c.utf8Size) 0

/-- The number of characters that end within so many bytes. -/
def columnAt : (bytes : Nat) → List Char → Nat
  | _, [] => 0
  | bytes, c :: cs =>
    if c.utf8Size ≤ bytes then columnAt (bytes - c.utf8Size) cs + 1 else 0

/-- The place of a byte offset: on the last line that starts at or before it. -/
def locate (offset : Nat) : (line : Nat) → List (List Char) → Option Position
  | _, [] => none
  | line, [l] => some ⟨line, l, columnAt offset l⟩
  | line, l :: ls =>
    if offset < bytesOf l then some ⟨line, l, columnAt offset l⟩
    else locate (offset - bytesOf l) (line + 1) ls

/-! ### Colours -/

/-- What a part of a drawing is for, which decides its colour. -/
inductive Ink where
  | headline (severity : Severity)
  | mark (severity : Severity)
  /-- Source outside the span. -/
  | unmarked
  /-- The margin of a line with a number, and the frame. -/
  | margin
  /-- The margin of any other line. -/
  | blankMargin
deriving DecidableEq, Repr

/-- The colour of an ink, as a terminal numbers it. -/
def Ink.colour : Ink → String
  | headline .error | mark .error => "31"
  | headline .advisory => "38;5;147"
  | mark .advisory => "36"
  | unmarked => "38;5;249"
  | margin => "38;5;246"
  | blankMargin => "38;5;240"

/-- Draws with an ink, or without any. -/
abbrev Pen := Ink → String → String

/-- A pen that draws in colours or does not. -/
def Pen.ofColour (colour : Bool) : Pen := fun ink s => if colour then Text.paint ink.colour s else s

/-! ### Drawing -/

/-- So many copies of a character. -/
def run (n : Nat) (c : Char) : String := String.ofList (List.replicate n c)

/-- What is shown of a line: all but the blanks at its end. -/
def shownPart (l : List Char) : List Char := Text.dropTrailingBlanks l

/-- A line as it is shown, every blank as a plain one. Its span reaches from column `first` up to,
but not including, column `last`. -/
def shownLine (pen : Pen) (severity : Severity) (first last : Nat) (l : List Char) : String :=
  String.join <| (shownPart l).zipIdx.map fun (c, i) =>
    pen (if first ≤ i && i < last then .mark severity else .unmarked)
      (String.singleton (if Text.isBlank c then ' ' else c))

/-- The marks under a line, one for each of its characters and beyond its end: those of characters
that take no column fall out. -/
def fitMarks : (line marks : List Char) → List Char
  | _, [] => []
  | [], ms => ms
  | c :: cs, m :: ms => if Text.isZeroWidth c then fitMarks cs ms else m :: fitMarks cs ms

/-- The margin of a line with a number, which is flush right among numbers of `width` digits. -/
def numbered (pen : Pen) (width line : Nat) : String :=
  let digits := toString (line + 1)
  " " ++ pen .margin (run (width - digits.length) ' ' ++ digits ++ " │") ++ " "

/-- The margin of a line without a number. -/
def unnumbered (pen : Pen) (width : Nat) (bar : String) : String :=
  " " ++ pen .blankMargin (run (width + 1) ' ' ++ bar) ++ " "

/-- The mark under a span on one line, as one character per column. -/
def underline (first last middle columns : Nat) : List Char :=
  (List.range columns).map fun i =>
    if i = middle then if first = last then '│' else '┬'
    else if first ≤ i && i < last then '─'
    else ' '

/-- The arm that leads from the mark to the message. -/
def arm (middle columns : Nat) : List Char :=
  (List.range columns).map fun i => if i < middle then ' ' else if i = middle then '╰' else '─'

/-- The drawing of a span on one line: the lines below the margin's head. -/
def drawLine (pen : Pen) (d : Diagnostic) (width : Nat) (p : Position) (last : Nat) :
    List String :=
  let middle := (p.column + last) / 2
  let columns := last + 2
  let margin := unnumbered pen width "│"
  let marks (ms : List Char) : String :=
    pen (.mark d.severity) (String.ofList (fitMarks (shownPart p.content) ms))
  [numbered pen width p.line ++ shownLine pen d.severity p.column last p.content,
    margin ++ marks (underline p.column last middle columns),
    margin ++ marks (arm middle columns) ++ " " ++ d.message]

/-- The drawing of a span over several lines: the lines below the margin's head. -/
def drawLines (pen : Pen) (d : Diagnostic) (width : Nat) (p q : Position) : List String :=
  let columns := q.content.length + 2
  let mark := pen (.mark d.severity)
  let marks (c : Char) : String :=
    String.ofList (fitMarks (shownPart q.content) (List.replicate columns c))
  let gap :=
    if p.line + 1 < q.line then [unnumbered pen width "┆" ++ mark "┆ " ++ "  "] else []
  [numbered pen width p.line ++ mark "╭─▶ " ++
      shownLine pen d.severity p.column p.content.length p.content] ++ gap ++
    [numbered pen width q.line ++ mark "├─▶ " ++
        shownLine pen d.severity 0 (q.column + 1) q.content,
      unnumbered pen width "│" ++ mark "│" ++ run 3 ' ' ++ marks ' ',
      unnumbered pen width "│" ++ mark ("╰" ++ run 3 '─' ++ marks '─') ++ " " ++ d.message]

/-- The word for a severity in a headline. -/
def Severity.headline : Severity → String
  | advisory => "Advice"
  | error => "Error"

/-- The first byte and the last byte of a span in a source, or nothing if they do not lie in it. The
last byte of an empty span is its first. -/
def Span.bytesIn (s : Span) (source : String) : Option (Nat × Nat) :=
  let start := s.start.toNat
  let stop := s.stop.toNat
  let size := source.utf8ByteSize
  if size < start then none
  else if start < stop then if size < stop - 1 then none else some (start, stop - 1)
  else some (start, start)

/-- The first position and the last position of a span in a source. -/
def Span.positionsIn (s : Span) (source : String) : Option (Position × Position) := do
  let (first, last) ← s.bytesIn source
  let lines := sourceLines source
  return (← locate first 0 lines, ← locate last 0 lines)

/-- The lines of a diagnostic, drawn into its source. -/
def Diagnostic.drawing (d : Diagnostic) (pen : Pen) (source : String) : List String :=
  let headline :=
    pen (.headline d.severity) ("[" ++ d.code ++ "] " ++ d.severity.headline ++ ":") ++ " " ++
      d.message
  match d.span.positionsIn source with
  | none => [headline]
  | some (p, q) =>
    let width := (toString (q.line + 1)).length
    let indent := run (width + 2) ' '
    let place := d.file ++ ":" ++ toString (p.line + 1) ++ ":" ++ toString (p.column + 1)
    let last := if d.span.start < d.span.stop then q.column + 1 else p.column
    [headline, indent ++ pen .margin "╭─[" ++ " " ++ place ++ " " ++ pen .margin "]",
        indent ++ pen .margin "│"] ++
      (if p.line = q.line then drawLine pen d width p last else drawLines pen d width p q) ++
      [pen .margin (run (width + 2) '─' ++ "╯")]

/-- Several diagnostics drawn into one source. -/
structure Drawing where
  /-- What is written to the terminal, with the control sequences of its colours. -/
  written : String
  /-- How many diagnostics it shows. -/
  count : Nat
deriving DecidableEq, Repr

namespace Drawing

/-- Draws diagnostics one after another. -/
def ofDiagnostics (colour : Bool) (source : String) (ds : List Diagnostic) : Drawing where
  written :=
    String.join (ds.map fun d =>
      String.join ((d.drawing (.ofColour colour) source).map (· ++ "\n")))
  count := ds.length

/-- What a reader sees of the drawing. -/
def text (d : Drawing) : String := Text.dropControls d.written

/-- Whether the drawing has control sequences: those of its colours, or some of the source. -/
def hasControls (d : Drawing) : Bool := Text.hasControls d.written

end Drawing

/-- What it leaves in the log if a drawing cannot be written out. -/
def Diagnostic.notWritten (d : Diagnostic) (reason : String) : Event := .notRendered reason d.file

end ThreadAffinity
