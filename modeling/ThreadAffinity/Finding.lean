import ThreadAffinity.Source.Syntax

/-!
What the analysis can find wrong, and the words for it.

Analysis itself never fails: everything it has to say is a finding with a place in the source. -/

namespace ThreadAffinity

/-- How much a finding matters. -/
inductive Severity where
  /-- Prompts the author, blocks nothing. -/
  | advisory
  | error
deriving DecidableEq, Repr

/-- Every severity, mildest first. -/
def Severity.all : List Severity := [.advisory, .error]

/-- The word under which a severity is written. -/
def Severity.name : Severity → String
  | advisory => "advisory"
  | error => "error"

/-- Who makes a call: a member, or a lambda somewhere inside it. -/
structure Caller where
  member : Symbol
  inLambda : Bool
deriving DecidableEq, Repr

/-- A name between backticks. -/
def quoted (s : Symbol) : String := "`" ++ s.text ++ "`"

/-- The caller as a reader sees it. -/
def Caller.text (c : Caller) : String :=
  if c.inLambda then "lambda in " ++ quoted c.member else quoted c.member

/-- What is wrong. -/
inductive Problem where
  /-- The caller's thread may not touch the callee. -/
  | illegalCall (caller : Caller) (callee : Symbol) (callerTag calleeTag : Tag) (access : Access)
  /-- A member breaks the obligation of a member that it overrides. -/
  | conflictingOverride (member overridden : Symbol) (declared inherited : Tag)
  /-- A top-level member is universal only because nothing says otherwise. -/
  | unannotated (member : Symbol)
deriving DecidableEq, Repr

namespace Problem

/-- How much the problem matters. -/
def severity : Problem → Severity
  | illegalCall .. | conflictingOverride .. => .error
  | unannotated _ => .advisory

/-- The stable code of the problem. -/
def code : Problem → String
  | illegalCall .. => "IllegalCrossThreadCall"
  | conflictingOverride .. => "ConflictingOverride"
  | unannotated _ => "UnannotatedDefault"

/-- The problem in one line. -/
def message : Problem → String
  | illegalCall caller callee callerTag calleeTag access =>
    caller.text ++ " on thread " ++ callerTag.name ++ " cannot " ++ access.verb ++ " " ++
      quoted callee ++ " which requires thread " ++ calleeTag.name
  | conflictingOverride member overridden declared inherited =>
    quoted member ++ " is tagged " ++ declared.name ++ " but overrides " ++ quoted overridden ++
      " which is tagged " ++ inherited.name
  | unannotated member =>
    quoted member ++ " has no thread tag; assuming " ++ Tag.any.name

end Problem

/-- A problem and its place. -/
structure Finding where
  problem : Problem
  span : Span
deriving DecidableEq, Repr

namespace Finding

/-- How much the finding matters. -/
def severity (f : Finding) : Severity := f.problem.severity

/-- Whether `a` may stand before `b` in a report: by place, and errors before advisories. -/
def notAfter (a b : Finding) : Bool :=
  if a.span = b.span then a.severity == .error || b.severity == .advisory
  else a.span.notAfter b.span

/-- Puts a finding in front of the first one that it may stand before. -/
def insert (f : Finding) : List Finding → List Finding
  | [] => [f]
  | g :: gs => if f.notAfter g then f :: g :: gs else g :: insert f gs

/-- The findings in report order; those of equal rank keep their order. -/
def sort (fs : List Finding) : List Finding := fs.foldr insert []

end Finding

end ThreadAffinity
