import SiteHost.Cache.Eviction

/-!
# Callers of a cache

Named callers who wait for builds, under a clock that only moves when nobody can go on:

* `Callers.get` — a caller who waits for the answer at once;
* `Callers.begin` — a caller who is left waiting, with a build that waits for a word;
* `Callers.release` — the word: how that build ends;
* `Callers.join` — the answer of a caller, waiting for it if need be;
* `Callers.abandon` — a caller stops waiting. The build goes on.

The clock stands still between two expiries, so all running builds were started at one time and
expire together: `Callers.passTime`. A caller who waits for a build that has ended learns of it
before the next step.
-/

namespace SiteHost

/-- How far a caller has come. -/
inductive Progress (α : Type) where
  | waiting (generation : Generation)
  | answered (result : Except Failure α)
  | abandoned
  deriving Inhabited

/-- Someone who asked for an artifact. -/
structure Caller (α : Type) where
  ranBuild : Bool
  progress : Progress α
  deriving Inhabited

/-- A cache and its callers. -/
structure Callers (α : Type) where
  cache : Cache α
  callers : List (String × Caller α) := []
  /-- The builds that wait for a word, by the name of the caller who started them. -/
  gates : List (String × Generation) := []
  deriving Inhabited

/-- What is known at the end of a caller's wait. -/
inductive Joined (α : Type) where
  | unknown
  | abandoned
  | answered (ranBuild : Bool) (result : Except Failure α)
  deriving Inhabited

namespace Callers

variable {α : Type}

/-- Tells the result of ended builds to those who wait for them. -/
def settleAll (c : Cache α) : List (String × Caller α) → List (String × Caller α) × Cache α
  | [] => ([], c)
  | (name, caller) :: rest =>
    let (caller, c) := match caller.progress with
      | .waiting generation =>
        match c.settle generation with
        | some (result, c) => ({ caller with progress := .answered result }, c)
        | none => (caller, c)
      | _ => (caller, c)
    let (rest, c) := settleAll c rest
    ((name, caller) :: rest, c)

/-- Lets everyone who waits for an ended build go on. -/
def settle (s : Callers α) : Callers α :=
  let (callers, cache) := settleAll s.cache s.callers
  { s with callers, cache }

/-- Ends a build and lets those who wait for it go on. -/
def finish (s : Callers α) (generation : Generation) (ending : Ending α) : Callers α :=
  settle { s with cache := s.cache.finish generation ending }

/-- Every running build runs out of time. -/
def passTime (s : Callers α) : Callers α :=
  settle { s with cache := s.cache.running.foldl (fun c g => c.finish g .timedOut) s.cache }

/-- Waits for a build. If it does not end by itself, time passes. -/
def await (s : Callers α) (generation : Generation) : Option (Except Failure α) × Callers α :=
  match s.cache.settle generation with
  | some (result, cache) => (some result, { s with cache })
  | none =>
    let s := s.passTime
    match s.cache.settle generation with
    | some (result, cache) => (some result, { s with cache })
    | none => (none, s)

/-- A caller whose build ends as `ending` says, or never. -/
def get (s : Callers α) (unit : Identity) (tier : Tier)
    (ending : Generation → Option (Ending α)) : Joined α × Callers α :=
  let (found, cache) := s.cache.get unit tier
  let s := { s with cache }
  let wait (ranBuild : Bool) (generation : Generation) (s : Callers α) :=
    let (result, s) := s.await generation
    ((result.map (Joined.answered ranBuild)).getD .unknown, s)
  match found with
  | .hit artifact => (.answered false (.ok artifact), s)
  | .joined generation => wait false generation s
  | .started generation =>
    wait true generation (match ending generation with
      | some ending => s.finish generation ending
      | none => s)

/-- A caller who is left waiting; whether the build is theirs. Without any time a build expires
before it can wait for a word. -/
def begin (s : Callers α) (name : String) (unit : Identity) (tier : Tier) : Bool × Callers α :=
  let (found, cache) := s.cache.get unit tier
  let (caller, gates) : Caller α × List (String × Generation) := match found with
    | .hit artifact => (⟨false, .answered (.ok artifact)⟩, s.gates)
    | .joined generation => (⟨false, .waiting generation⟩, s.gates)
    | .started generation => (⟨true, .waiting generation⟩, (name, generation) :: s.gates)
  let s := settle { cache, callers := (name, caller) :: s.callers, gates }
  (caller.ranBuild, if cache.timeLimit = 0 then s.passTime else s)

/-- Gives the build of a caller its ending, if it still waits for one; whether it did. Without an
ending the build goes on for ever. -/
def release (s : Callers α) (name : String) (ending : Generation → Option (Ending α)) :
    Bool × Callers α :=
  match s.gates.lookup name with
  | none => (false, s)
  | some generation =>
    if s.cache.isRunning generation then
      let s := { s with gates := s.gates.filter fun g => g.1 != name }
      (true, match ending generation with
        | some ending => s.finish generation ending
        | none => s)
    else (false, s)

/-- The answer of a caller, who is then forgotten. -/
def join (s : Callers α) (name : String) : Joined α × Callers α :=
  match s.callers.lookup name with
  | none => (.unknown, s)
  | some caller =>
    let (result, s) : Joined α × Callers α := match caller.progress with
      | .answered result => (.answered caller.ranBuild result, s)
      | .abandoned => (.abandoned, s)
      | .waiting generation =>
        let (result, s) := s.await generation
        ((result.map (Joined.answered caller.ranBuild)).getD .unknown, s)
    (result, { s with callers := s.callers.filter fun c => c.1 != name })

/-- Makes a caller stop waiting. One who has an answer keeps it. -/
def abandon (s : Callers α) (name : String) : Callers α :=
  { s with callers := s.callers.map fun (other, caller) =>
      if other = name then
        match caller.progress with
        | .waiting _ => (other, { caller with progress := .abandoned })
        | _ => (other, caller)
      else (other, caller) }

/-- Does something to the cache alone. -/
def onCache {β : Type} (s : Callers α) (f : Cache α → β × Cache α) : β × Callers α :=
  let (b, cache) := f s.cache
  (b, { s with cache })

end Callers

end SiteHost
