/-!
Source ranges.

A span is a pair of byte offsets into the text of one source file. Nothing makes the end come after
the start: a front end may hand over any two 64-bit offsets. -/

namespace ThreadAffinity

/-- A range of bytes. -/
structure Span where
  start : UInt64 := 0
  stop : UInt64 := 0
deriving DecidableEq, Repr, Inhabited

namespace Span

/-- The span as a reader sees it. -/
def text (s : Span) : String := toString s.start.toNat ++ ".." ++ toString s.stop.toNat

/-- Whether one span does not come after another, by start and then by end. -/
def notAfter (a b : Span) : Bool :=
  a.start < b.start || (a.start == b.start && a.stop ≤ b.stop)

end Span

end ThreadAffinity
