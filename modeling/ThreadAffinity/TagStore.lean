import ThreadAffinity.Event
import ThreadAffinity.Provenance

/-!
The tags that outlive their file: one store for a whole build.

Files are checked one at a time, but may call members of files checked before. While the store is
open, published tags replace one another; once it is sealed, it keeps what it has and only counts
what it turns away. A new build empties and reopens it. -/

namespace ThreadAffinity

/-- The published tags of a build. -/
structure TagStore where
  tags : TagMap := {}
  isSealed : Bool := false
  /-- How many publications were taken in. -/
  writes : Nat := 0
  /-- How many publications were turned away. -/
  rejected : Nat := 0
deriving DecidableEq, Inhabited

namespace TagStore

/-- An open store without tags. -/
def empty : TagStore := {}

/-- Starts a new build. -/
def restart (_ : TagStore) : TagStore := empty

/-- Ends the build. -/
def close (s : TagStore) : TagStore := { s with isSealed := true }

/-- The published tag of a symbol. -/
def get? (s : TagStore) (symbol : Symbol) : Option SourcedTag := s.tags.get? symbol

/-- Whether the store takes publications in. -/
def accepts (s : TagStore) : Bool := !s.isSealed

/-- Publishes a tag. -/
def publish (s : TagStore) (symbol : Symbol) (tag : SourcedTag) : TagStore :=
  if s.isSealed then { s with rejected := s.rejected + 1 }
  else { s with tags := s.tags.put symbol tag, writes := s.writes + 1 }

/-- What publishing a tag leaves in the log. -/
def publishEvents (s : TagStore) (symbol : Symbol) : List Event :=
  if s.isSealed then [.storeSealed symbol] else []

/-- Publishes several tags, and says what that leaves in the log. -/
def publishAll (s : TagStore) (tags : List (Symbol × SourcedTag)) : TagStore × List Event :=
  (tags.foldl (fun s t => s.publish t.1 t.2) s, tags.flatMap fun t => s.publishEvents t.1)

end TagStore

end ThreadAffinity
