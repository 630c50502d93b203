import ThreadAffinity.CallPolicy
import ThreadAffinity.Exclusions

/-!
The settings of a checker, and the option list that they can be written as.

Plain arguments name packages to leave out. The options are `--dump` and `--dump=<path>` for the tag
listing, `--bridge=<From>:<To>` for a bridge, and `--no-unannotated` against advisories. -/

namespace ThreadAffinity

/-- How a checker is set up. -/
structure Settings where
  /-- The packages to leave out. -/
  ignored : List String := []
  /-- The bridges to lay on top of the strict policy. -/
  bridges : List (Tag × Tag) := CallPolicy.standardBridges
  /-- Where the tag listing goes, if it is wanted. -/
  listing : Option String := none
  /-- Whether members that nobody annotated are pointed out. -/
  adviseUnannotated : Bool := true
deriving DecidableEq, Repr, Inhabited

namespace Settings

/-- Leaves out one more package. -/
def ignoring (s : Settings) (package : String) : Settings :=
  { s with ignored := s.ignored ++ [package] }

/-- Lays one more bridge. -/
def bridging (s : Settings) (source target : Tag) : Settings :=
  { s with bridges := s.bridges ++ [(source, target)] }

/-- Sends the tag listing to a file. -/
def listingTo (s : Settings) (path : String) : Settings := { s with listing := some path }

/-- Turns the advisories about members that nobody annotated on or off. -/
def advising (s : Settings) (on : Bool) : Settings := { s with adviseUnannotated := on }

/-- The file that takes the tag listing when none is named. -/
def defaultListing : String := "found-tags.txt"

/-- What stands behind an option's equals sign. -/
def optionValue? (option argument : String) : Option String :=
  (option.toList.isPrefixOf? argument.toList).map String.ofList

/-- The two sides of the first colon. -/
def splitColon? (text : String) : Option (String × String) :=
  let cs := text.toList
  match cs.dropWhile (· != ':') with
  | [] => none
  | _ :: behind => some (String.ofList (cs.takeWhile (· != ':')), String.ofList behind)

/-- The bridge that an option describes. -/
def parseBridge (text : String) : Except SetupError (Tag × Tag) := do
  match splitColon? text with
  | none => .error (.malformedBridge text)
  | some (source, target) => return (← Tag.parse source, ← Tag.parse target)

/-- The settings after one more argument. -/
def addArgument (s : Settings) (argument : String) : Except SetupError Settings := do
  let a := Text.trim argument
  if a = "" then return s
  else if a = "--dump" then return s.listingTo defaultListing
  else if let some path := optionValue? "--dump=" a then
    if path = "" then .error .missingPath else return s.listingTo path
  else if let some bridge := optionValue? "--bridge=" a then
    let (source, target) ← parseBridge bridge
    return s.bridging source target
  else if a = "--no-unannotated" then return s.advising false
  else if (optionValue? "--" a).isSome then .error (.unknownOption a)
  else return s.ignoring a

/-- The settings that an argument list asks for. -/
def ofArguments (arguments : List String) : Except SetupError Settings :=
  arguments.foldlM addArgument {}

/-- The call policy of the settings. -/
def policy (s : Settings) : Except SetupError CallPolicy := CallPolicy.ofBridges s.bridges

/-- The exclusions of the settings. -/
def exclusions (s : Settings) : Exclusions := .ofTexts s.ignored

end Settings

end ThreadAffinity
