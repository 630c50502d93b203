import ThreadAffinity.Settings.Basic
import ThreadAffinity.Source.Document

/-!
Settings as JSON documents.

Every field may be left out, and then has the value that it has in settings nobody touched. An empty
list of bridges is a list of bridges: it takes the standard bridge away. -/

namespace ThreadAffinity

open Json

namespace Settings

/-- A bridge as a JSON value. -/
def bridgeValue (b : Tag × Tag) : Value := .list [b.1.toValue, b.2.toValue]

/-- The settings as a JSON value. -/
def toValue (s : Settings) : Value :=
  .object [("ignore_packages", .list (s.ignored.map .string)),
    ("bridges", .list (s.bridges.map bridgeValue)), ("dump_path", orNull .string s.listing),
    ("report_unannotated", .boolean s.adviseUnannotated)]

/-- The document of the settings. -/
def toText (s : Settings) : String := s.toValue.text

/-- What messages call the settings. -/
def title : Title := ⟨"struct CheckerConfig", 4⟩

/-- Reads a bridge. -/
def readBridge (room : Nat) : Reading (Tag × Tag) :=
  pair (if 0 < room then some (Tag.read (room - 1)) else none)

/-- Reads a list of bridges. -/
def readBridges (room : Nat) : Reading (List (Tag × Tag)) :=
  Json.list (if 0 < room then some (readBridge (room - 1)) else none)

/-- The fields of the settings. -/
def fields (room : Nat) : List (RecordField Settings) :=
  [⟨"ignore_packages", fun s => return { s with ignored := ← readTexts room }⟩,
    ⟨"bridges", fun s => return { s with bridges := ← readBridges room }⟩,
    ⟨"dump_path", fun s => return { s with listing := ← optional (text "path string") }⟩,
    ⟨"report_unannotated", fun s => return { s with adviseUnannotated := ← flag }⟩]

/-- Reads settings. -/
def read : (room : Nat) → Reading Settings
  | 0 => record title none {} fun _ s => .ok s
  | room + 1 => record title (some (fields room)) {} fun _ s => .ok s

/-- The settings of a document. -/
def ofText (s : String) : Except SetupError Settings :=
  (document (read nestingLimit) s).mapError .document

end Settings

end ThreadAffinity
