import SiteHost.Failure
import SiteHost.Source
import SiteHost.Text.Shortest

/-!
# Entries and builds

* `EntryState` — what a cache holds for a unit: nothing yet, a build on its way, an artifact, or
  the note that what it held is no longer valid;
* `Ending` — how a build ends, and `Ending.result` — what its callers are told;
* `Flight` — a build that was started, for which entry, and how it ended.

A build is told from every other by its generation, the number of builds started before it.
-/

namespace SiteHost

/-- The number of a build in the order in which builds were started. -/
abbrev Generation := Nat

/-- What a cache holds for a unit. -/
inductive EntryState (α : Type) where
  | empty
  | building (generation : Generation)
  | built (artifact : α)
  | invalidated
  deriving Repr, DecidableEq, Inhabited

/-- The state of an entry without what it holds. -/
inductive EntryStatus where
  | empty
  | building
  | built
  | invalidated
  deriving Repr, DecidableEq, Inhabited

/-- The word for a status. -/
def EntryStatus.word : EntryStatus → String
  | .empty => "empty"
  | .building => "building"
  | .built => "built"
  | .invalidated => "invalidated"

namespace EntryState

variable {α : Type}

/-- The state without what it holds. -/
def status : EntryState α → EntryStatus
  | .empty => .empty
  | .building _ => .building
  | .built _ => .built
  | .invalidated => .invalidated

/-- Whether there is an artifact, or a build that may bring one. -/
def isHeld : EntryState α → Bool
  | .building _ | .built _ => true
  | .empty | .invalidated => false

end EntryState

/-- What a cache knows of a unit. Identity and tier are those of the caller who came first. -/
structure Entry (α : Type) where
  identity : Identity
  tier : Tier
  state : EntryState α := .empty
  deriving Repr, Inhabited

/-- How a build ends. -/
inductive Ending (α : Type) where
  | returned (result : Except Failure α)
  | timedOut
  | panicked
  deriving Inhabited

namespace Ending

variable {α : Type}

/-- A number of milliseconds in seconds. -/
def seconds (milliseconds : Nat) : String :=
  Text.shortest (Float.ofNat (milliseconds / 1000) +
    Float.ofNat (milliseconds % 1000 * 1000000) / 1000000000.0)

/-- What the callers of a build are told, for a unit and the time it had in milliseconds. -/
def result (unit : String) (timeLimit : Nat) : Ending α → Except Failure α
  | .returned result => result
  | .timedOut =>
    .error (.compileSingle unit s!"compilation timed out after {seconds timeLimit}s")
  | .panicked => .error (.compileSingle unit "compilation panicked")

end Ending

/-- A build that was started. -/
structure Flight (α : Type) where
  /-- The number of the entry it was started for. -/
  entry : Nat
  ending : Option (Ending α) := none
  deriving Inhabited

end SiteHost
