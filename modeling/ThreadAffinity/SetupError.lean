import ThreadAffinity.Json.Failure
import ThreadAffinity.Tag
import ThreadAffinity.Text.Blank
import ThreadAffinity.Text.EditDistance

/-!
What can go wrong before the analysis starts. -/

namespace ThreadAffinity

/-- Why a tag name, a policy or the settings were refused. -/
inductive SetupError where
  /-- No tag has this name. -/
  | unknownTag (text : String)
  /-- A bridge would lead from universal code to a thread. -/
  | refusedBridge (source target : Tag)
  /-- The option for the tag listing has an empty path. -/
  | missingPath
  /-- A bridge option lacks the colon between its two tags. -/
  | malformedBridge (text : String)
  /-- No option is written like this. -/
  | unknownOption (text : String)
  /-- The settings document is not what it should be. -/
  | document (failure : Json.Failure)
deriving DecidableEq, Repr

namespace SetupError

/-- The cause in words. A misspelt tag name brings the nearest name along. -/
def reason : SetupError → String
  | unknownTag text =>
    "unknown thread tag `" ++ text ++ "`" ++
      Text.suggestion (Text.nearest? text (Tag.all.map Tag.name) 2)
  | refusedBridge source target =>
    "bridge " ++ source.name ++ " -> " ++ target.name ++ " is not allowed: `" ++ source.name ++
      "` code cannot satisfy a thread-specific callee"
  | missingPath => "`--dump=` needs a path"
  | malformedBridge text => "bridge `" ++ text ++ "` must be written From:To"
  | unknownOption text => "unknown option `" ++ text ++ "`"
  | document failure => failure.message

/-- The whole error message. -/
def message (e : SetupError) : String :=
  match e with
  | document _ => "JSON error: " ++ e.reason
  | _ => "configuration error: " ++ e.reason

end SetupError

/-- The tag of a written name. Blanks around the name and the case of its ASCII letters do not
matter. -/
def Tag.parse (text : String) : Except SetupError Tag :=
  let name := Text.trim text
  match Tag.all.find? fun t => Text.sameAsciiFold t.name name with
  | some t => .ok t
  | none => .error (.unknownTag name)

end ThreadAffinity
