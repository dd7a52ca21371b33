import SiteHost.Cache.Entry
import SiteHost.Cache.Metrics
import SiteHost.NameMap

/-!
# The cache

One artifact for each unit, built when it is first asked for. Every function here is one atomic
step; whatever happens to a cache is a sequence of such steps.

* `Cache.enter` — the entry of a unit, made if there is none;
* `Cache.look` — what a caller finds there: an artifact, a build to wait for, or nothing, in which
  case a build is started;
* `Cache.finish` — the end of a build. Its result is stored if the entry still waits for it;
* `Cache.settle` — a waiting caller learns the result of a build that has ended;
* `Cache.dropEntry` — an entry gives up what it holds.

Entries are numbered in the order they were made and never forgotten: an entry that has left the
index still takes the steps of the callers and the build that know it. A build that panics stores
nothing; its entry goes back to empty when the first caller learns of it.
-/

namespace SiteHost

/-- What is known of every unit that was asked for. -/
structure Cache (α : Type) where
  /-- How long a build may take, in milliseconds. -/
  timeLimit : Nat
  entries : List (Entry α) := []
  /-- The number of the entry of each key. -/
  index : NameMap Nat := .empty
  /-- Every build, at the place of its generation. -/
  flights : List (Flight α) := []
  metrics : Metrics := []
  deriving Inhabited

/-- What a caller finds at an entry. -/
inductive Lookup (α : Type) where
  | hit (artifact : α)
  /-- A build that another caller started. -/
  | joined (generation : Generation)
  /-- A build that this caller has to run. -/
  | started (generation : Generation)
  deriving Repr, DecidableEq, Inhabited

namespace Cache

variable {α : Type}

/-- Counts a series. -/
def count (c : Cache α) (s : Series) (n : Nat) : Cache α :=
  { c with metrics := c.metrics.add s n }

/-- The entry of a key. -/
def find? (c : Cache α) (key : String) : Option (Entry α) :=
  (c.index.get? key).bind fun id => c.entries[id]?

/-- The status of the entry of a key. -/
def status? (c : Cache α) (key : String) : Option EntryStatus :=
  (c.find? key).map fun e => e.state.status

/-- How many units have an entry. -/
def size (c : Cache α) : Nat := c.index.size

/-- Whether no unit has an entry. -/
def isEmpty (c : Cache α) : Bool := c.index.toList.isEmpty

/-- Gives an entry another state. -/
def setState (c : Cache α) (id : Nat) (state : EntryState α) : Cache α :=
  { c with entries := c.entries.modify id fun e => { e with state } }

/-- The number of a unit's entry, which is made if there is none. -/
def enter (c : Cache α) (unit : Identity) (tier : Tier) : Nat × Cache α :=
  match c.index.get? unit.key with
  | some id => (id, c)
  | none =>
    let id := c.entries.length
    (id, { c with
      entries := c.entries ++ [{ identity := unit, tier }]
      index := c.index.insert unit.key id })

/-- What a caller finds at an entry. Nothing found starts a build, which is then the caller's to
run. Hits and misses are counted under the caller's tier. -/
def look (c : Cache α) (id : Nat) (tier : Tier) : Lookup α × Cache α :=
  match (c.entries[id]?).map Entry.state with
  | some (.built artifact) => (.hit artifact, c.count (.hit tier) 1)
  | some (.building generation) => (.joined generation, c)
  | _ =>
    let generation := c.flights.length
    let flight : Flight α := { entry := id }
    let c := { c with flights := c.flights ++ [flight] }
    (.started generation, (c.setState id (.building generation)).count (.miss tier) 1)

/-- Enters a unit and looks there. -/
def get (c : Cache α) (unit : Identity) (tier : Tier) : Lookup α × Cache α :=
  let (id, c) := c.enter unit tier
  c.look id tier

/-- The entry that a build was started for. -/
def entryOf? (c : Cache α) (generation : Generation) : Option (Entry α) :=
  (c.flights[generation]?).bind fun f => c.entries[f.entry]?

/-- What the callers of an ended build are told. -/
def result? (c : Cache α) (generation : Generation) : Option (Except Failure α) := do
  let flight ← c.flights[generation]?
  let entry ← c.entries[flight.entry]?
  let ending ← flight.ending
  return ending.result entry.identity.typeName c.timeLimit

/-- Whether a build was started and has not ended. -/
def isRunning (c : Cache α) (generation : Generation) : Bool :=
  match c.flights[generation]? with
  | some f => f.ending.isNone
  | none => false

/-- The builds that have not ended. -/
def running (c : Cache α) : List Generation :=
  (List.range c.flights.length).filter c.isRunning

/-- Stores the result of a build if its entry still waits for it. A failure is not stored. -/
def publish (c : Cache α) (generation : Generation) : Cache α :=
  match c.flights[generation]?, c.entryOf? generation, c.result? generation with
  | some flight, some entry, some result =>
    match entry.state with
    | .building current =>
      if current = generation then
        c.setState flight.entry (match result with
          | .ok artifact => .built artifact
          | .error _ => .empty)
      else c
    | _ => c
  | _, _, _ => c

/-- Counts a build that came to an end under the tier of its entry. -/
def countBuild (c : Cache α) (tier : Tier) (result : Except Failure α) : Cache α :=
  let c := (c.count (.compiled tier) 1).count (.compileTime tier) 1
  match result with
  | .ok _ => c
  | .error failure => c.count (.failed failure.kind tier) 1

/-- Ends a running build. One that panics neither counts nor stores anything. -/
def finish (c : Cache α) (generation : Generation) (ending : Ending α) : Cache α :=
  if c.isRunning generation then
    let c := { c with
      flights := c.flights.modify generation fun f => { f with ending := some ending } }
    match ending, c.entryOf? generation, c.result? generation with
    | .panicked, _, _ => c
    | _, some entry, some result => (c.countBuild entry.tier result).publish generation
    | _, _, _ => c
  else c

/-- The result of a build that has ended, for a caller who waits for it. It is stored once more,
so that a build that panicked leaves its entry empty. -/
def settle (c : Cache α) (generation : Generation) : Option (Except Failure α × Cache α) :=
  (c.result? generation).map fun result => (result, c.publish generation)

/-- Makes an entry give up what it holds; whether it held anything. -/
def dropEntry (c : Cache α) (id : Nat) : Bool × Cache α :=
  match c.entries[id]? with
  | some e => if e.state.isHeld then (true, c.setState id .invalidated) else (false, c)
  | none => (false, c)

end Cache

end SiteHost
