import ThreadAffinity.Finding

/-!
Findings made ready for display, and what receives them.

A diagnostic stands on its own: it names the file and carries the finished message. Whether an error
blocks the build is for the receiver to decide. -/

namespace ThreadAffinity

/-- A finding ready for display. -/
structure Diagnostic where
  file : String
  span : Span
  severity : Severity
  code : String
  message : String
deriving DecidableEq, Repr

namespace Diagnostic

/-- The diagnostic of a finding in a file. -/
def ofFinding (file : String) (f : Finding) : Diagnostic :=
  { file, span := f.span, severity := f.severity, code := f.problem.code,
    message := f.problem.message }

/-- The diagnostic on one line. -/
def text (d : Diagnostic) : String :=
  d.file ++ ":" ++ d.span.text ++ ": " ++ d.severity.name ++ "[" ++ d.code ++ "]: " ++ d.message

end Diagnostic

/-- The diagnostics of a file's findings, in their order. -/
def diagnostics (file : String) (fs : List Finding) : List Diagnostic :=
  fs.map (Diagnostic.ofFinding file)

/-- How many of the diagnostics have the severity. -/
def countSeverity (s : Severity) (ds : List Diagnostic) : Nat := ds.countP (·.severity == s)

end ThreadAffinity
