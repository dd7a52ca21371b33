import SiteHost.Cache.Store

/-!
# Eviction

* `Cache.invalidate` — the next caller builds anew;
* `Cache.invalidateTier` — the same for every unit of a tier;
* `Cache.remove`, `Cache.removeUnder` — a unit, or all units below a directory, are forgotten;
* `Cache.reset` — every unit is forgotten.

Leaves are linked against the global unit, so they are invalidated with it.
-/

namespace SiteHost.Cache

variable {α : Type}

/-- The entries that are indexed and of a tier. -/
def entriesOf (c : Cache α) (tier : Tier) : List Nat :=
  c.index.values.filter fun id => (c.entries[id]?).any fun e => e.tier == tier

/-- Makes entries give up what they hold; how many held anything. -/
def dropAll (c : Cache α) : List Nat → Nat × Cache α
  | [] => (0, c)
  | id :: rest =>
    let (held, c) := c.dropEntry id
    let (n, c) := c.dropAll rest
    (n + held.toNat, c)

/-- Invalidates every unit of a tier; how many held an artifact or a build. -/
def invalidateTier (c : Cache α) (tier : Tier) : Nat × Cache α :=
  let (n, c) := c.dropAll (c.entriesOf tier)
  (n, if 0 < n then c.count (.evicted .tier) n else c)

/-- Invalidates the leaves if an entry is that of the global unit. -/
def cascade (c : Cache α) (id : Nat) : Cache α :=
  if (c.entries[id]?).any fun e => e.tier == .siteGlobal then (c.invalidateTier .leaf).2 else c

/-- Invalidates the unit of a key; whether it held an artifact or a build. -/
def invalidate (c : Cache α) (key : String) : Bool × Cache α :=
  match c.index.get? key with
  | none => (false, c)
  | some id =>
    let (held, c) := c.dropEntry id
    let c := if held then c.count (.evicted .invalidate) 1 else c
    (held, c.cascade id)

/-- Forgets the unit of a key; whether there was one. -/
def remove (c : Cache α) (key : String) : Bool × Cache α :=
  match c.index.get? key with
  | none => (false, c)
  | some id =>
    let c := { c with index := c.index.erase key }
    let c := (c.dropEntry id).2.count (.evicted .remove) 1
    (true, c.cascade id)

/-- The keys of the units below a directory. -/
def keysUnder (c : Cache α) (directory : String) : List String :=
  let above := keyOf directory
  let above := if above.endsWith "/" then above else above ++ "/"
  c.index.keys.filter fun key => key.startsWith above

/-- Forgets every unit of a list; how many there were. -/
def removeAll (c : Cache α) : List String → Nat × Cache α
  | [] => (0, c)
  | key :: rest =>
    let (there, c) := c.remove key
    let (n, c) := c.removeAll rest
    (n + there.toNat, c)

/-- Forgets every unit whose source lies below a directory; how many there were. -/
def removeUnder (c : Cache α) (directory : String) : Nat × Cache α :=
  c.removeAll (c.keysUnder directory)

/-- Forgets every unit. -/
def reset (c : Cache α) : Cache α :=
  let ids := c.index.values
  let c := { c with index := .empty }
  (c.dropAll ids).2.count (.evicted .reset) ids.length

end SiteHost.Cache
