import ThreadAffinity.Event
import ThreadAffinity.Provenance

/-!
The file that takes the tag listing.

It is emptied when a checker is set up and when a build starts, and every checked file appends its
lines. Nothing reads it back. On a path that cannot be written all of this only leaves warnings. -/

namespace ThreadAffinity

/-- The state of the listing file. -/
inductive ListingFile where
  /-- The path cannot be written. -/
  | unwritable
  /-- The path can be written, but there is no file. -/
  | missing
  | present (text : String)
deriving DecidableEq, Repr, Inhabited

namespace ListingFile

/-- The text of the file, if there is one. -/
def text? : ListingFile → Option String
  | present text => some text
  | _ => none

/-- Empties the file, or creates it. -/
def reset : ListingFile → ListingFile
  | unwritable => unwritable
  | _ => present ""

/-- What emptying the file leaves in the log. -/
def resetEvents : ListingFile → List Event
  | unwritable => [.listingNotReset]
  | _ => []

/-- Appends the lines of a table, creating the file if need be. -/
def append (f : ListingFile) (tags : TagMap) : ListingFile :=
  match f with
  | unwritable => unwritable
  | missing => present tags.listing
  | present text => present (text ++ tags.listing)

/-- What appending to the file leaves in the log. -/
def appendEvents : ListingFile → List Event
  | unwritable => [.listingNotWritten]
  | _ => []

end ListingFile

end ThreadAffinity
