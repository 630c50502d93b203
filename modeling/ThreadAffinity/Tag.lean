/-!
Thread tags: the closed set of logical threads that a declaration can be bound to.

The order of the constructors is the order in which tags are listed. It says nothing about which
calls are legal; that is the business of a call policy. -/

namespace ThreadAffinity

/-- A logical thread. -/
inductive Tag where
  /-- No thread at all: callable from anywhere. -/
  | any
  /-- The toolkit thread, whether or not its event loop runs. -/
  | fx
  /-- The toolkit's event-loop thread. -/
  | fxPlatform
  /-- The dispatch thread of the older toolkit. -/
  | swing
  /-- A background thread. -/
  | worker
  /-- The thread of a running user program. -/
  | simulation
deriving DecidableEq, Repr, Inhabited

namespace Tag

/-- Every tag, in listing order. -/
def all : List Tag := [any, fx, fxPlatform, swing, worker, simulation]

/-- The name under which a tag is written. -/
def name : Tag → String
  | any => "Any"
  | fx => "Fx"
  | fxPlatform => "FxPlatform"
  | swing => "Swing"
  | worker => "Worker"
  | simulation => "Simulation"

/-- The place of a tag in listing order. -/
def index : Tag → Nat
  | any => 0
  | fx => 1
  | fxPlatform => 2
  | swing => 3
  | worker => 4
  | simulation => 5

/-- Whether the tag makes no thread assumption. -/
def isUniversal (t : Tag) : Bool := t == any

/-- The tag of exactly this name. -/
def ofName? (s : String) : Option Tag := all.find? (·.name == s)

theorem mem_all (t : Tag) : t ∈ all := by cases t <;> decide

theorem isUniversal_iff {t : Tag} : t.isUniversal = true ↔ t = any := by
  cases t <;> decide

end Tag

end ThreadAffinity
