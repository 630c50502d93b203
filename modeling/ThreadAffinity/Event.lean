import ThreadAffinity.Diagnostic

/-!
The log: what each stage of the analysis notes down while it works.

An event is a fact, not a text. Its level, its message and its named fields are read off it. -/

namespace ThreadAffinity

/-- How loud an event is, loudest first. -/
inductive Level where
  | error
  | warn
  | info
  | debug
  | trace
deriving DecidableEq, Repr

namespace Level

/-- The name under which a level is written. -/
def name : Level → String
  | error => "ERROR"
  | warn => "WARN"
  | info => "INFO"
  | debug => "DEBUG"
  | trace => "TRACE"

/-- The rank of a level, louder ones first. -/
def rank : Level → Nat
  | error => 0
  | warn => 1
  | info => 2
  | debug => 3
  | trace => 4

end Level

/-- Something worth a line in the log. -/
inductive Event where
  /-- A member of the file overrides itself through other members. -/
  | overrideLoop (symbol : Symbol)
  /-- A declaration outside the file overrides itself through others. -/
  | outsideLoop (symbol : Symbol)
  /-- Nobody knows a tag for the target of a call. -/
  | unknownTarget (target : Symbol)
  /-- A tag was published after the build had ended. -/
  | storeSealed (symbol : Symbol)
  /-- The tag listing could not be emptied. -/
  | listingNotReset
  /-- The tag listing could not be written. -/
  | listingNotWritten
  /-- A diagnostic could not be shown. -/
  | notRendered (reason file : String)
  /-- A member symbol occurs again; its first occurrence counts. -/
  | repeatedMember (symbol : Symbol)
  /-- A type is left out. -/
  | typeExcluded (name : String)
  /-- The declared tags of a file are known. -/
  | declaredResolved (path : String) (members declared : Nat)
  /-- The effective tags of a file are known. -/
  | effectiveInferred (path : String) (members lambdas sites : Nat)
  /-- A call site was held against the call policy. -/
  | siteChecked (caller : Caller) (target : Symbol) (callerTag calleeTag : Tag)
  /-- A call site without a target was passed over. -/
  | siteUnresolved (span : Span)
  /-- A file is done. -/
  | unitChecked (members sites findings : Nat)
  /-- A build is done. -/
  | buildFinished (symbols : Nat)
  /-- A finding was reported into the log. -/
  | reported (diagnostic : Diagnostic)
deriving DecidableEq, Repr

namespace Event

/-- How loud the event is. -/
def level : Event → Level
  | overrideLoop _ | outsideLoop _ | unknownTarget _ | storeSealed _ | listingNotReset
  | listingNotWritten | notRendered .. => .warn
  | repeatedMember _ | declaredResolved .. | effectiveInferred .. | unitChecked ..
  | buildFinished _ => .debug
  | typeExcluded _ | siteChecked .. | siteUnresolved _ => .trace
  | reported d => if d.severity = .error then .error else .info

/-- The event in words. -/
def message : Event → String
  | overrideLoop _ => "override chain loops back on itself"
  | outsideLoop _ => "external override chain loops back on itself"
  | unknownTarget _ => "no tag known for resolved call target; assuming " ++ Tag.any.name
  | storeSealed _ => "tag cache is sealed; dropping write"
  | listingNotReset => "cannot reset tag dump"
  | listingNotWritten => "cannot write tag dump"
  | notRendered .. => "failed to render diagnostic"
  | repeatedMember _ => "duplicate member symbol; keeping the first"
  | typeExcluded _ => "skipping ignored type"
  | declaredResolved .. => "resolved declared tags"
  | effectiveInferred .. => "inferred effective tags"
  | siteChecked .. => "checking call site"
  | siteUnresolved _ => "skipping unresolved target"
  | unitChecked .. => "unit checked"
  | buildFinished _ => "build finished"
  | reported d => d.message

/-- The named details of the event. -/
def fields : Event → List (String × String)
  | overrideLoop s | outsideLoop s | storeSealed s | repeatedMember s => [("symbol", s.text)]
  | unknownTarget t => [("target", t.text)]
  | listingNotReset | listingNotWritten => []
  | notRendered reason file => [("err", reason), ("file", file)]
  | typeExcluded name => [("ty", name)]
  | declaredResolved path members declared =>
    [("unit", path), ("members", toString members), ("declared", toString declared)]
  | effectiveInferred path members lambdas sites =>
    [("unit", path), ("members", toString members), ("lambdas", toString lambdas),
      ("sites", toString sites)]
  | siteChecked caller target callerTag calleeTag =>
    [("caller", caller.text), ("target", target.text), ("caller_tag", callerTag.name),
      ("callee_tag", calleeTag.name)]
  | siteUnresolved span => [("span", span.text)]
  | unitChecked members sites findings =>
    [("members", toString members), ("sites", toString sites), ("violations", toString findings)]
  | buildFinished symbols => [("symbols", toString symbols)]
  | reported d => [("file", d.file), ("span", d.span.text), ("code", d.code)]

end Event

end ThreadAffinity
