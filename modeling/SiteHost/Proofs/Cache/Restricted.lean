import SiteHost.Proofs.Cache.System

/-!
# A cache without some of its keys

Two caches, one of which knows only the keys that `keep` keeps. All keys draw their entries and builds from
one list each, so what the two have in common bears other numbers:

* `rank` — the number of an item among those of its kind;
* `Cache.stays` — whether an entry is that of a key that is kept;
* `Cache.entryNo`, `Cache.flightNo` — the number that an entry, or a build, has in the smaller cache;
* `Cache.Shadows` — the smaller cache is the larger one without the other keys, but for the counters.

Principal results:

* `Shadows.enter`, `Shadows.look`, `Shadows.finish`, `Shadows.publish`, `Shadows.dropEntry` — a step at a
  key that is kept is a step of both caches, with the same outcome;
* `Shadows.enter_gone`, `Shadows.look_gone`, … — of a step at another key the smaller cache knows nothing;
* `Shadows.status?`, `Shadows.result?` — what a key holds, and what a build tells, is the same in both.
-/

namespace SiteHost

/-! ## Numbers among the items of one kind -/

section Rank

variable {β γ : Type} {p : β → Bool} {xs : List β} {n : Nat} {x y : β}

/-- The number that an item has among those that satisfy `p`. -/
def rank (p : β → Bool) (xs : List β) (n : Nat) : Nat := (xs.take n).countP p

theorem rank_cons_succ (p : β → Bool) (x : β) (xs : List β) (n : Nat) :
    rank p (x :: xs) (n + 1) = rank p xs n + if p x then 1 else 0 := by
  rw [rank, List.take_succ_cons, List.countP_cons]
  rfl

theorem rank_length (p : β → Bool) (xs : List β) : rank p xs xs.length = (xs.filter p).length := by
  rw [rank, List.take_length, List.countP_eq_length_filter]

/-- A number depends on the items before it. -/
theorem rank_congr {q : γ → Bool} {ys : List γ} (h : ∀ i, i < n → (xs[i]?).any p = (ys[i]?).any q) :
    rank p xs n = rank q ys n := by
  unfold rank
  induction n with
  | zero => rfl
  | succ n ih =>
    have hlast := h n (Nat.lt_succ_self n)
    rw [List.take_add_one, List.take_add_one, List.countP_append, List.countP_append,
      ih fun i hi => h i (Nat.lt_succ_of_lt hi)]
    cases hx : xs[n]? with
    | none =>
      cases hy : ys[n]? with
      | none => rfl
      | some y =>
        rw [hx, hy] at hlast
        have hfalse : q y = false := hlast.symm
        simp [hfalse]
    | some x =>
      cases hy : ys[n]? with
      | none =>
        rw [hx, hy] at hlast
        have hfalse : p x = false := hlast
        simp [hfalse]
      | some y =>
        rw [hx, hy] at hlast
        have hsame : p x = q y := hlast
        simp [List.countP_cons, hsame]

theorem getElem?_filter_rank (h : xs[n]? = some x) (hx : p x = true) :
    (xs.filter p)[rank p xs n]? = some x := by
  induction xs generalizing n with
  | nil => cases h
  | cons z rest ih =>
    cases n with
    | zero =>
      cases h
      rw [List.filter_cons_of_pos hx]
      rfl
    | succ n =>
      have hrest := ih h
      rw [rank_cons_succ]
      by_cases hz : p z = true
      · rw [List.filter_cons_of_pos hz, if_pos hz, List.getElem?_cons_succ, hrest]
      · rw [List.filter_cons_of_neg hz, if_neg hz, Nat.add_zero, hrest]

theorem filter_set (h : xs[n]? = some x) (hx : p x = true) (hy : p y = true) :
    (xs.set n y).filter p = (xs.filter p).set (rank p xs n) y := by
  induction xs generalizing n with
  | nil => cases h
  | cons z rest ih =>
    cases n with
    | zero =>
      cases h
      rw [List.set_cons_zero, List.filter_cons_of_pos hx, List.filter_cons_of_pos hy]
      rfl
    | succ n =>
      have hrest := ih h
      rw [rank_cons_succ, List.set_cons_succ]
      by_cases hz : p z = true
      · rw [List.filter_cons_of_pos hz, List.filter_cons_of_pos hz, if_pos hz, List.set_cons_succ, hrest]
      · rw [List.filter_cons_of_neg hz, List.filter_cons_of_neg hz, if_neg hz, Nat.add_zero, hrest]

theorem filter_set_of_neg (h : xs[n]? = some x) (hx : p x = false) (hy : p y = false) :
    (xs.set n y).filter p = xs.filter p := by
  induction xs generalizing n with
  | nil => cases h
  | cons z rest ih =>
    cases n with
    | zero =>
      cases h
      rw [List.set_cons_zero, List.filter_cons_of_neg (by simp [hy]), List.filter_cons_of_neg (by simp [hx])]
    | succ n => rw [List.set_cons_succ, List.filter_cons, List.filter_cons, ih h]

theorem filter_concat_of_pos (xs : List β) (hx : p x = true) :
    (xs ++ [x]).filter p = xs.filter p ++ [x] := by
  rw [List.filter_append, List.filter_cons_of_pos hx, List.filter_nil]

theorem filter_concat_of_neg (xs : List β) (hx : p x = false) :
    (xs ++ [x]).filter p = xs.filter p := by
  rw [List.filter_append, List.filter_cons_of_neg (by simp [hx]), List.filter_nil, List.append_nil]

/-- Two items that satisfy `p` have different numbers. -/
theorem rank_lt {m : Nat} (h : xs[n]? = some x) (hx : p x = true) (hlt : n < m) :
    rank p xs n < rank p xs m := by
  induction xs generalizing n m with
  | nil => cases h
  | cons z rest ih =>
    obtain ⟨m, rfl⟩ : ∃ k, m = k + 1 := ⟨m - 1, by omega⟩
    rw [rank_cons_succ]
    cases n with
    | zero =>
      cases h
      rw [if_pos hx]
      exact Nat.succ_pos _
    | succ n =>
      rw [rank_cons_succ]
      exact Nat.add_lt_add_right (ih h (Nat.lt_of_succ_lt_succ hlt)) _

theorem rank_inj {m : Nat} (h : xs[n]? = some x) (hx : p x = true) (h' : xs[m]? = some y)
    (hy : p y = true) : rank p xs n = rank p xs m ↔ n = m := by
  constructor
  · intro heq
    rcases Nat.lt_trichotomy n m with hlt | rfl | hlt
    · exact absurd heq (Nat.ne_of_lt (rank_lt h hx hlt))
    · rfl
    · exact absurd heq.symm (Nat.ne_of_lt (rank_lt h' hy hlt))
  · rintro rfl
    rfl

end Rank

/-! ## The same state in other numbers -/

section Renumber

variable {α : Type}

/-- The state with its build called by another number. -/
def EntryState.renumber (f : Generation → Generation) : EntryState α → EntryState α
  | .building g => .building (f g)
  | .empty => .empty
  | .built a => .built a
  | .invalidated => .invalidated

/-- The entry with its build called by another number. -/
def Entry.renumber (f : Generation → Generation) (e : Entry α) : Entry α :=
  { e with state := e.state.renumber f }

/-- The build with its entry called by another number. -/
def Flight.renumber (f : Nat → Nat) (flight : Flight α) : Flight α :=
  { flight with entry := f flight.entry }

/-- What a caller found, with the build called by another number. -/
def Lookup.renumber (f : Generation → Generation) : Lookup α → Lookup α
  | .hit a => .hit a
  | .joined g => .joined (f g)
  | .started g => .started (f g)

@[simp] theorem EntryState.isHeld_renumber (f : Generation → Generation) (s : EntryState α) :
    (s.renumber f).isHeld = s.isHeld := by
  cases s <;> rfl

@[simp] theorem EntryState.status_renumber (f : Generation → Generation) (s : EntryState α) :
    (s.renumber f).status = s.status := by
  cases s <;> rfl

@[simp] theorem EntryState.renumber_ofResult (f : Generation → Generation) (r : Except Failure α) :
    (EntryState.ofResult r).renumber f = .ofResult r := by
  cases r <;> rfl

theorem EntryState.renumber_congr {f f' : Generation → Generation} {s : EntryState α}
    (h : ∀ g, s = .building g → f g = f' g) : s.renumber f = s.renumber f' := by
  cases s with
  | building g => exact congrArg EntryState.building (h g rfl)
  | _ => rfl

@[simp] theorem Lookup.generation?_renumber (f : Generation → Generation) (found : Lookup α) :
    (found.renumber f).generation? = found.generation?.map f := by
  cases found <;> rfl

theorem Lookup.renumber_congr {f f' : Generation → Generation} {found : Lookup α}
    (h : ∀ g, found.generation? = some g → f g = f' g) : found.renumber f = found.renumber f' := by
  cases found with
  | hit a => rfl
  | joined g => exact congrArg Lookup.joined (h g rfl)
  | started g => exact congrArg Lookup.started (h g rfl)

end Renumber

namespace Cache

variable {α : Type} {keep : String → Bool} {c c' d : Cache α} {id : Nat} {e : Entry α} {g : Generation}
  {f : Flight α}

/-! ## What stays, and under which number -/

/-- Whether an entry is that of a key that is kept. -/
def stays (keep : String → Bool) (c : Cache α) (id : Nat) : Bool :=
  (c.entries[id]?).any fun e => keep e.identity.key

/-- The number of an entry among those of the keys that are kept. -/
def entryNo (keep : String → Bool) (c : Cache α) (id : Nat) : Nat :=
  rank (fun e => keep e.identity.key) c.entries id

/-- The number of a build among those of the keys that are kept. -/
def flightNo (keep : String → Bool) (c : Cache α) (g : Generation) : Generation :=
  rank (fun f => c.stays keep f.entry) c.flights g

theorem stays_eq (keep : String → Bool) (he : c.entries[id]? = some e) :
    c.stays keep id = keep e.identity.key := by
  rw [stays, he, Option.any_some]

theorem stays_of_extends (keep : String → Bool) (he : Extends c d) (hid : id < c.entries.length) :
    d.stays keep id = c.stays keep id := by
  obtain ⟨e', he', hi, -⟩ := he.entries id _ (List.getElem?_eq_getElem hid)
  rw [stays_eq keep he', stays_eq keep (List.getElem?_eq_getElem hid), hi]

/-- Entries keep their numbers. -/
theorem entryNo_of_extends (keep : String → Bool) (he : Extends c d) (hid : id ≤ c.entries.length) :
    d.entryNo keep id = c.entryNo keep id :=
  rank_congr fun _ hi => stays_of_extends keep he (Nat.lt_of_lt_of_le hi hid)

/-- Builds keep their numbers. -/
theorem flightNo_of_extends (keep : String → Bool) (hc : c.Sound) (he : Extends c d)
    (hg : g ≤ c.flights.length) : d.flightNo keep g = c.flightNo keep g := by
  refine rank_congr fun i hi => ?_
  have hlt : i < c.flights.length := Nat.lt_of_lt_of_le hi hg
  obtain ⟨f', hf', hentry, -⟩ := he.flights i _ (List.getElem?_eq_getElem hlt)
  rw [hf', List.getElem?_eq_getElem hlt, Option.any_some, Option.any_some, hentry]
  exact stays_of_extends keep he (hc.flights i _ (List.getElem?_eq_getElem hlt))

theorem Sound.building_lt (hc : c.Sound) (he : c.entries[id]? = some e) (hs : e.state = .building g) :
    g < c.flights.length := by
  obtain ⟨-, f, hf, -⟩ := (hc.fresh id).building g (by rw [Cache.state?_of_entry he, hs])
  exact (List.getElem?_eq_some_iff.1 hf).1

/-- The entries of a cache wait for builds that have numbers. -/
theorem map_entries_of_extends (keep : String → Bool) (hc : c.Sound) (he : Extends c d) :
    (c.entries.filter fun e => keep e.identity.key).map (Entry.renumber (d.flightNo keep)) =
      (c.entries.filter fun e => keep e.identity.key).map (Entry.renumber (c.flightNo keep)) := by
  refine List.map_congr_left fun e hmem => ?_
  obtain ⟨id, hid⟩ := List.mem_iff_getElem?.1 (List.mem_filter.1 hmem).1
  refine congrArg (fun s => ({ e with state := s } : Entry α)) (EntryState.renumber_congr fun g hg => ?_)
  exact flightNo_of_extends keep hc he (Nat.le_of_lt (hc.building_lt hid hg))

/-- The builds of a cache were started for entries that have numbers. -/
theorem map_flights_of_extends (keep : String → Bool) (hc : c.Sound) (he : Extends c d) :
    (c.flights.filter fun f => d.stays keep f.entry).map (Flight.renumber (d.entryNo keep)) =
      (c.flights.filter fun f => c.stays keep f.entry).map (Flight.renumber (c.entryNo keep)) := by
  have hlt : ∀ f ∈ c.flights, f.entry < c.entries.length := fun f hf => by
    obtain ⟨g, hg⟩ := List.mem_iff_getElem?.1 hf
    exact hc.flights g f hg
  rw [List.filter_congr fun f hf => stays_of_extends keep he (hlt f hf)]
  refine List.map_congr_left fun f hf => congrArg (fun id => ({ f with entry := id } : Flight α)) ?_
  exact entryNo_of_extends keep he (Nat.le_of_lt (hlt f (List.mem_filter.1 hf).1))

/-- The map of a cache leads to entries that have numbers. -/
theorem map_get?_of_extends (keep : String → Bool) (hc : c.Sound) (he : Extends c d) {key : String} :
    (c.index.get? key).map (d.entryNo keep) = (c.index.get? key).map (c.entryNo keep) := by
  cases hid : c.index.get? key with
  | none => rfl
  | some id =>
    exact congrArg some (entryNo_of_extends keep he (Nat.le_of_lt (hc.index_lt ⟨key, hid⟩)))

theorem extends_flight (c : Cache α) (flight : Flight α) :
    Extends c { c with flights := c.flights ++ [flight] } := by
  refine ⟨rfl, fun _ e h => ⟨e, h, rfl, rfl⟩, fun g f hf => ?_, fun _ _ h => h⟩
  have hg : g < c.flights.length := (List.getElem?_eq_some_iff.1 hf).1
  exact ⟨f, by rw [List.getElem?_append_left hg, hf], rfl, fun _ _ => rfl⟩

/-- The cache in which an entry was made. -/
def added (c : Cache α) (unit : Identity) (tier : Tier) : Cache α :=
  { c with
    entries := c.entries ++ [{ identity := unit, tier }]
    index := c.index.insert unit.key c.entries.length }

theorem enter_of_some {unit : Identity} (tier : Tier) (h : c.index.get? unit.key = some id) :
    c.enter unit tier = (id, c) := by
  rw [enter, h]

theorem enter_of_none {unit : Identity} (tier : Tier) (h : c.index.get? unit.key = none) :
    c.enter unit tier = (c.entries.length, c.added unit tier) := by
  rw [enter, h]
  rfl

theorem get?_added_self (c : Cache α) (unit : Identity) (tier : Tier) :
    (c.added unit tier).index.get? unit.key = some c.entries.length :=
  NameMap.get?_insert_self _ _ _

theorem get?_added_of_ne {unit : Identity} (tier : Tier) {key : String} (h : key ≠ unit.key) :
    (c.added unit tier).index.get? key = c.index.get? key :=
  NameMap.get?_insert_of_ne _ h _

section Changes

variable (keep : String → Bool) (c : Cache α) (id : Nat) (st : EntryState α) (g : Generation)

theorem any_entries_setState (j : Nat) : ((c.setState id st).entries[j]?).any
    (fun e => keep e.identity.key) = (c.entries[j]?).any fun e => keep e.identity.key := by
  rw [getElem?_entries_setState]
  split
  · cases c.entries[j]? <;> rfl
  · rfl

@[simp] theorem stays_setState : (c.setState id st).stays keep = c.stays keep :=
  funext fun j => any_entries_setState keep c id st j

@[simp] theorem entryNo_setState : (c.setState id st).entryNo keep = c.entryNo keep :=
  funext fun _ => rank_congr fun j _ => any_entries_setState keep c id st j

@[simp] theorem flightNo_setState : (c.setState id st).flightNo keep = c.flightNo keep := by
  funext k
  unfold flightNo
  rw [stays_setState, flights_setState]

@[simp] theorem flightNo_ended (x : Ending α) : (c.ended g x).flightNo keep = c.flightNo keep := by
  funext k
  refine rank_congr fun i _ => ?_
  rw [getElem?_flights_ended]
  split
  · cases c.flights[i]? <;> rfl
  · rfl

end Changes

theorem entries_setState (he : c.entries[id]? = some e) (st : EntryState α) :
    (c.setState id st).entries = c.entries.set id { e with state := st } := by
  refine List.ext_getElem? fun j => ?_
  rw [getElem?_entries_setState, List.getElem?_set]
  have hlt := (List.getElem?_eq_some_iff.1 he).1
  by_cases hj : id = j
  · rw [if_pos hj, if_pos hj, if_pos hlt, ← hj, he, Option.map_some]
  · rw [if_neg hj, if_neg hj]

theorem flights_ended (hf : c.flights[g]? = some f) (x : Ending α) :
    (c.ended g x).flights = c.flights.set g { f with ending := some x } := by
  refine List.ext_getElem? fun k => ?_
  rw [getElem?_flights_ended, List.getElem?_set]
  have hlt := (List.getElem?_eq_some_iff.1 hf).1
  by_cases hk : g = k
  · rw [if_pos hk, if_pos hk, if_pos hlt, ← hk, hf, Option.map_some]
  · rw [if_neg hk, if_neg hk]

/-! ## The smaller cache -/

/-- Whether a cache is another one without the keys that are not kept. What was counted may differ. -/
structure Shadows (keep : String → Bool) (c c' : Cache α) : Prop where
  timeLimit : c'.timeLimit = c.timeLimit
  index : ∀ key, c'.index.get? key = if keep key then (c.index.get? key).map (c.entryNo keep) else none
  entries : c'.entries =
    (c.entries.filter fun e => keep e.identity.key).map (Entry.renumber (c.flightNo keep))
  flights : c'.flights =
    (c.flights.filter fun f => c.stays keep f.entry).map (Flight.renumber (c.entryNo keep))

/-- A cache that was never used knows no keys. -/
theorem shadows_empty (keep : String → Bool) (timeLimit : Nat) :
    Shadows keep ({ timeLimit } : Cache α) { timeLimit } :=
  ⟨rfl, fun _ => by simp, rfl, rfl⟩

namespace Shadows

theorem entry (h : Shadows keep c c') (he : c.entries[id]? = some e) (hk : keep e.identity.key = true) :
    c'.entries[c.entryNo keep id]? = some (e.renumber (c.flightNo keep)) := by
  rw [h.entries, List.getElem?_map, entryNo,
    getElem?_filter_rank (p := fun e => keep e.identity.key) he hk, Option.map_some]

theorem flight (h : Shadows keep c c') (hf : c.flights[g]? = some f) (hk : c.stays keep f.entry = true) :
    c'.flights[c.flightNo keep g]? = some (f.renumber (c.entryNo keep)) := by
  rw [h.flights, List.getElem?_map, flightNo,
    getElem?_filter_rank (p := fun f => c.stays keep f.entry) hf hk, Option.map_some]

theorem length_entries (h : Shadows keep c c') : c'.entries.length = c.entryNo keep c.entries.length := by
  rw [h.entries, List.length_map, entryNo, rank_length]

theorem length_flights (h : Shadows keep c c') : c'.flights.length = c.flightNo keep c.flights.length := by
  rw [h.flights, List.length_map, flightNo, rank_length]

/-- A key that is kept has the same entry in both caches. -/
theorem get? (h : Shadows keep c c') {key : String} (hk : keep key = true) :
    c'.index.get? key = (c.index.get? key).map (c.entryNo keep) := by
  rw [h.index, if_pos hk]

/-- The other keys have no entry in the smaller cache. -/
theorem get?_gone (h : Shadows keep c c') {key : String} (hk : keep key = false) :
    c'.index.get? key = none := by
  rw [h.index, if_neg (by simp [hk])]

theorem state? (h : Shadows keep c c') (he : c.entries[id]? = some e) (hk : keep e.identity.key = true) :
    c'.state? (c.entryNo keep id) = some (e.state.renumber (c.flightNo keep)) := by
  rw [Cache.state?, h.entry he hk]
  rfl

/-- **A key that is kept has the same status in both caches.** -/
theorem status? (h : Shadows keep c c') (hc : c.Sound) {key : String} (hk : keep key = true) :
    c'.status? key = c.status? key := by
  unfold Cache.status? find?
  rw [h.get? hk]
  cases hid : c.index.get? key with
  | none => rfl
  | some id =>
    obtain ⟨e, he, rfl⟩ := hc.index key id hid
    rw [Option.map_some, Option.bind_some, Option.bind_some, h.entry he hk, he, Option.map_some,
      Option.map_some]
    exact congrArg some (EntryState.status_renumber _ _)

/-- **The build of a key that is kept tells the same in both caches.** -/
theorem result? (h : Shadows keep c c') (hf : c.flights[g]? = some f) (hk : c.stays keep f.entry = true) :
    c'.result? (c.flightNo keep g) = c.result? g := by
  cases he : c.entries[f.entry]? with
  | none =>
    rw [stays, he] at hk
    cases hk
  | some e =>
    have he' := h.entry he (stays_eq keep he ▸ hk)
    have hf' := h.flight hf hk
    unfold Cache.result?
    rw [hf, hf', Option.bind_eq_bind, Option.bind_eq_bind, Option.bind_some, Option.bind_some]
    rw [show (f.renumber (c.entryNo keep)).entry = c.entryNo keep f.entry from rfl, he, he',
      Option.bind_some, Option.bind_some, h.timeLimit]
    rfl

theorem isRunning (h : Shadows keep c c') (hf : c.flights[g]? = some f)
    (hk : c.stays keep f.entry = true) : c'.isRunning (c.flightNo keep g) = c.isRunning g := by
  unfold Cache.isRunning
  rw [hf, h.flight hf hk]
  rfl

/-! ## Counters do not matter -/

theorem count (h : Shadows keep c c') (s : Series) (n : Nat) : Shadows keep (c.count s n) c' :=
  ⟨h.timeLimit, h.index, h.entries, h.flights⟩

theorem count' (h : Shadows keep c c') (s : Series) (n : Nat) : Shadows keep c (c'.count s n) :=
  ⟨h.timeLimit, h.index, h.entries, h.flights⟩

/-- Whether either cache counts makes no difference. -/
theorem counts (h : Shadows keep c c') (p p' : Prop) [Decidable p] [Decidable p'] (s s' : Series) (n n' : Nat) :
    Shadows keep (if p then c.count s n else c) (if p' then c'.count s' n' else c') := by
  split <;> split
  · exact (h.count s n).count' s' n'
  · exact h.count s n
  · exact h.count' s' n'
  · exact h

theorem countBuild (h : Shadows keep c c') (tier : Tier) (r : Except Failure α) :
    Shadows keep (c.countBuild tier r) c' := by
  cases r with
  | ok a => exact (h.count _ _).count _ _
  | error failure => exact ((h.count _ _).count _ _).count _ _

theorem countBuild' (h : Shadows keep c c') (tier : Tier) (r : Except Failure α) :
    Shadows keep c (c'.countBuild tier r) := by
  cases r with
  | ok a => exact (h.count' _ _).count' _ _
  | error failure => exact ((h.count' _ _).count' _ _).count' _ _

/-! ## An entry takes another state -/

theorem setState (h : Shadows keep c c') (he : c.entries[id]? = some e)
    (hk : keep e.identity.key = true) (st : EntryState α) :
    Shadows keep (c.setState id st)
      (c'.setState (c.entryNo keep id) (st.renumber (c.flightNo keep))) := by
  refine ⟨h.timeLimit, fun key => ?_, ?_, ?_⟩
  · rw [index_setState, index_setState, entryNo_setState, h.index]
  · rw [entries_setState he, entries_setState (h.entry he hk), flightNo_setState, h.entries]
    have hset := filter_set (p := fun e : Entry α => keep e.identity.key)
      (y := { e with state := st }) he hk hk
    rw [hset, List.map_set]
    rfl
  · rw [flights_setState, flights_setState, entryNo_setState, stays_setState, h.flights]

theorem setState_gone (h : Shadows keep c c') (he : c.entries[id]? = some e)
    (hk : keep e.identity.key = false) (st : EntryState α) : Shadows keep (c.setState id st) c' := by
  refine ⟨h.timeLimit, fun key => ?_, ?_, ?_⟩
  · rw [index_setState, entryNo_setState, h.index]
  · rw [entries_setState he, flightNo_setState, h.entries]
    have hset := filter_set_of_neg (p := fun e : Entry α => keep e.identity.key)
      (y := { e with state := st }) he hk hk
    rw [hset]
  · rw [flights_setState, entryNo_setState, stays_setState, h.flights]

theorem dropEntry (h : Shadows keep c c') (he : c.entries[id]? = some e)
    (hk : keep e.identity.key = true) :
    Shadows keep (c.dropEntry id).2 (c'.dropEntry (c.entryNo keep id)).2 := by
  unfold Cache.dropEntry
  rw [he, h.entry he hk]
  dsimp only [Entry.renumber]
  rw [EntryState.isHeld_renumber]
  cases e.state.isHeld with
  | false => exact h
  | true => exact h.setState he hk .invalidated

theorem dropEntry_gone (h : Shadows keep c c') (he : c.entries[id]? = some e)
    (hk : keep e.identity.key = false) : Shadows keep (c.dropEntry id).2 c' := by
  unfold Cache.dropEntry
  rw [he]
  dsimp only
  split
  · exact h.setState_gone he hk .invalidated
  · exact h

/-! ## A build starts, ends and is heard of -/

theorem launched (h : Shadows keep c c') (hc : c.Sound) (he : c.entries[id]? = some e)
    (hk : keep e.identity.key = true) :
    Shadows keep (c.launched id) (c'.launched (c.entryNo keep id)) := by
  have hstays : c.stays keep id = true := by rw [stays_eq keep he, hk]
  have hflight : Shadows keep { c with flights := c.flights ++ [{ entry := id }] }
      { c' with flights := c'.flights ++ [{ entry := c.entryNo keep id }] } := by
    refine ⟨h.timeLimit, h.index, ?_, ?_⟩
    · exact h.entries.trans (map_entries_of_extends keep hc (extends_flight c _)).symm
    · have hlist := filter_concat_of_pos (p := fun f : Flight α => c.stays keep f.entry)
        c.flights (x := { entry := id }) hstays
      refine Eq.trans ?_ (congrArg (List.map (Flight.renumber (c.entryNo keep))) hlist).symm
      rw [List.map_append, ← h.flights]
      rfl
  have hnew := hflight.setState he hk (.building c.flights.length)
  have hlast : ({ c with flights := c.flights ++ [{ entry := id }] } : Cache α).flightNo keep
      c.flights.length = c'.flights.length := by
    rw [h.length_flights, flightNo_of_extends keep hc (extends_flight c _) (Nat.le_refl _)]
  rw [EntryState.renumber, hlast] at hnew
  exact hnew

theorem launched_gone (h : Shadows keep c c') (hc : c.Sound) (he : c.entries[id]? = some e)
    (hk : keep e.identity.key = false) : Shadows keep (c.launched id) c' := by
  have hstays : c.stays keep id = false := by rw [stays_eq keep he, hk]
  have hflight : Shadows keep { c with flights := c.flights ++ [{ entry := id }] } c' := by
    refine ⟨h.timeLimit, h.index, ?_, ?_⟩
    · exact h.entries.trans (map_entries_of_extends keep hc (extends_flight c _)).symm
    · have hlist := filter_concat_of_neg (p := fun f : Flight α => c.stays keep f.entry)
        c.flights (x := { entry := id }) hstays
      exact h.flights.trans (congrArg (List.map (Flight.renumber (c.entryNo keep))) hlist).symm
  exact hflight.setState_gone he hk _

theorem ended (h : Shadows keep c c') (hf : c.flights[g]? = some f) (hk : c.stays keep f.entry = true)
    (x : Ending α) : Shadows keep (c.ended g x) (c'.ended (c.flightNo keep g) x) := by
  refine ⟨h.timeLimit, h.index, ?_, ?_⟩
  · rw [flightNo_ended]
    exact h.entries
  · rw [flights_ended hf, flights_ended (h.flight hf hk), h.flights]
    have hset := filter_set (p := fun f => c.stays keep f.entry)
      (y := { f with ending := some x }) hf hk hk
    refine Eq.trans ?_ (congrArg (List.map (Flight.renumber (c.entryNo keep))) hset).symm
    rw [List.map_set]
    rfl

theorem ended_gone (h : Shadows keep c c') (hf : c.flights[g]? = some f)
    (hk : c.stays keep f.entry = false) (x : Ending α) : Shadows keep (c.ended g x) c' := by
  refine ⟨h.timeLimit, h.index, ?_, ?_⟩
  · rw [flightNo_ended]
    exact h.entries
  · rw [flights_ended hf, h.flights]
    have hset := filter_set_of_neg (p := fun f => c.stays keep f.entry)
      (y := { f with ending := some x }) hf hk hk
    exact (congrArg (List.map (Flight.renumber (c.entryNo keep))) hset).symm

/-- A build that no entry waits for, or that has no result, stores nothing. -/
theorem publish_eq_self (hno : ∀ f r, c.flights[g]? = some f → c.state? f.entry = some (.building g) →
    c.result? g ≠ some r) : c.publish g = c := by
  rcases publish_cases c g with hsame | ⟨f, r, hf, hs, hr, -⟩
  · exact hsame
  · exact absurd hr (hno f r hf hs)

/-- An entry waits for a build in both caches or in neither. -/
theorem waits_iff (h : Shadows keep c c') (hc : c.Sound) (hf : c.flights[g]? = some f)
    (he : c.entries[f.entry]? = some e) (hk : keep e.identity.key = true) :
    c'.state? (c.entryNo keep f.entry) = some (.building (c.flightNo keep g)) ↔
      c.state? f.entry = some (.building g) := by
  have hstays : c.stays keep f.entry = true := by rw [stays_eq keep he, hk]
  have hstate : c.state? f.entry = some e.state := Cache.state?_of_entry he
  rw [h.state? he hk, hstate]
  cases hs : e.state with
  | building k =>
    obtain ⟨f', hf', hentry⟩ := ((hc.fresh f.entry).building k (by rw [hstate, hs])).2
    have hiff : c.flightNo keep k = c.flightNo keep g ↔ k = g := by
      have hstays' : c.stays keep f'.entry = true := by rw [hentry, hstays]
      exact rank_inj (p := fun f : Flight α => c.stays keep f.entry) hf' hstays' hf hstays
    simp [EntryState.renumber, hiff]
  | _ => simp [EntryState.renumber]

theorem publish (h : Shadows keep c c') (hc : c.Sound) (hf : c.flights[g]? = some f)
    (hk : c.stays keep f.entry = true) : Shadows keep (c.publish g) (c'.publish (c.flightNo keep g)) := by
  obtain ⟨e, he⟩ : ∃ e, c.entries[f.entry]? = some e :=
    ⟨_, List.getElem?_eq_getElem (hc.flights g f hf)⟩
  have hkey : keep e.identity.key = true := stays_eq keep he ▸ hk
  have hwaits := h.waits_iff hc hf he hkey
  have hflight := h.flight hf hk
  have hresult := h.result? hf hk
  by_cases hs : c.state? f.entry = some (.building g)
  · cases hr : c.result? g with
    | some r =>
      rw [publish_of_building hf hs hr,
        publish_of_building hflight (hwaits.2 hs) (hresult.trans hr)]
      have hset := h.setState he hkey (.ofResult r)
      rw [EntryState.renumber_ofResult] at hset
      exact hset
    | none =>
      have hsame : c.publish g = c := publish_eq_self fun _ _ _ _ hr' => by
        rw [hr] at hr'
        cases hr'
      have hsame' : c'.publish (c.flightNo keep g) = c' := publish_eq_self fun _ _ _ _ hr' => by
        rw [hresult, hr] at hr'
        cases hr'
      rw [hsame, hsame']
      exact h
  · have hsame : c.publish g = c := publish_eq_self fun f' r hf' hs' _ => by
      rw [hf] at hf'
      cases hf'
      exact hs hs'
    have hsame' : c'.publish (c.flightNo keep g) = c' := publish_eq_self fun f' r hf' hs' _ => by
      rw [hflight] at hf'
      cases hf'
      exact hs (hwaits.1 hs')
    rw [hsame, hsame']
    exact h

theorem publish_gone (h : Shadows keep c c') (hf : c.flights[g]? = some f)
    (hk : c.stays keep f.entry = false) : Shadows keep (c.publish g) c' := by
  rcases publish_cases c g with hsame | ⟨f', r, hf', hs, -, hset⟩
  · rw [hsame]
    exact h
  · rw [hf] at hf'
    cases hf'
    obtain ⟨e, he, -⟩ := Option.map_eq_some_iff.1 hs
    rw [hset]
    exact h.setState_gone he (stays_eq keep he ▸ hk) _

/-- **The build of a key that is kept ends in both caches.** -/
theorem finish (h : Shadows keep c c') (hc : c.Sound) (hrun : c.isRunning g = true)
    (hf : c.flights[g]? = some f) (hk : c.stays keep f.entry = true) (x : Ending α) :
    Shadows keep (c.finish g x) (c'.finish (c.flightNo keep g) x) := by
  have hrun' : c'.isRunning (c.flightNo keep g) = true := (h.isRunning hf hk).trans hrun
  have hended := h.ended hf hk x
  by_cases hx : x = .panicked
  · subst hx
    rw [finish_panicked hrun, finish_panicked hrun']
    exact hended
  · have hf' : (c.ended g x).flights[g]? = some { f with ending := some x } := by
      rw [getElem?_flights_ended, if_pos rfl, hf, Option.map_some]
    have hsound : (c.ended g x).Sound := by
      refine ⟨hc.index, fun k f₁ hf₁ => ?_, fun id => (hc.fresh id).congr rfl (extends_ended hrun x)⟩
      rw [getElem?_flights_ended] at hf₁
      split at hf₁
      · obtain ⟨f₀, hf₀, rfl⟩ := Option.map_eq_some_iff.1 hf₁
        exact hc.flights k f₀ hf₀
      · exact hc.flights k f₁ hf₁
    have hpublish := hended.publish hsound hf' hk
    rw [flightNo_ended] at hpublish
    rcases finish_of_ne_panicked hrun hx with hfin | ⟨tier, r, hfin⟩ <;>
      rcases finish_of_ne_panicked hrun' hx with hfin' | ⟨tier', r', hfin'⟩ <;> rw [hfin, hfin']
    · exact hpublish
    · exact hpublish.countBuild' tier' r'
    · exact hpublish.countBuild tier r
    · exact (hpublish.countBuild tier r).countBuild' tier' r'

theorem finish_gone (h : Shadows keep c c') (hrun : c.isRunning g = true)
    (hf : c.flights[g]? = some f) (hk : c.stays keep f.entry = false) (x : Ending α) :
    Shadows keep (c.finish g x) c' := by
  have hended := h.ended_gone hf hk x
  by_cases hx : x = .panicked
  · subst hx
    rw [finish_panicked hrun]
    exact hended
  · have hf' : (c.ended g x).flights[g]? = some { f with ending := some x } := by
      rw [getElem?_flights_ended, if_pos rfl, hf, Option.map_some]
    have hpublish := hended.publish_gone hf' hk
    rcases finish_of_ne_panicked hrun hx with hfin | ⟨tier, r, hfin⟩
    · rw [hfin]
      exact hpublish
    · rw [hfin]
      exact hpublish.countBuild tier r

/-! ## A caller comes and looks -/

/-- **A caller of a key that is kept comes to both caches**, and is given the same entry. -/
theorem enter (h : Shadows keep c c') (hc : c.Sound) {unit : Identity} (hk : keep unit.key = true)
    (tier : Tier) : Shadows keep (c.enter unit tier).2 (c'.enter unit tier).2 ∧
      (c'.enter unit tier).1 = (c.enter unit tier).2.entryNo keep (c.enter unit tier).1 := by
  cases hid : c.index.get? unit.key with
  | some id =>
    have hid' : c'.index.get? unit.key = some (c.entryNo keep id) := by rw [h.get? hk, hid, Option.map_some]
    rw [enter_of_some tier hid, enter_of_some tier hid']
    exact ⟨h, rfl⟩
  | none =>
    have hid' : c'.index.get? unit.key = none := by rw [h.get? hk, hid, Option.map_none]
    rw [enter_of_none tier hid, enter_of_none tier hid']
    have hext : Extends c (c.added unit tier) := Move.extends (.add c unit tier hid)
    have hlast : (c.added unit tier).entryNo keep c.entries.length = c'.entries.length := by
      rw [entryNo_of_extends keep hext (Nat.le_refl _), h.length_entries]
    refine ⟨⟨h.timeLimit, fun key => ?_, ?_, ?_⟩, hlast.symm⟩
    · by_cases hkey : key = unit.key
      · subst hkey
        rw [get?_added_self, get?_added_self, if_pos hk, Option.map_some, hlast]
      · rw [get?_added_of_ne tier hkey, get?_added_of_ne tier hkey, h.index,
          map_get?_of_extends keep hc hext]
    · have hlist := filter_concat_of_pos (p := fun e : Entry α => keep e.identity.key)
        c.entries (x := { identity := unit, tier }) hk
      refine Eq.trans ?_ (congrArg (List.map (Entry.renumber _)) hlist).symm
      rw [List.map_append, map_entries_of_extends keep hc hext, ← h.entries]
      rfl
    · exact h.flights.trans (map_flights_of_extends keep hc hext).symm

theorem enter_gone (h : Shadows keep c c') (hc : c.Sound) {unit : Identity} (hk : keep unit.key = false)
    (tier : Tier) : Shadows keep (c.enter unit tier).2 c' := by
  cases hid : c.index.get? unit.key with
  | some id =>
    rw [enter_of_some tier hid]
    exact h
  | none =>
    rw [enter_of_none tier hid]
    have hext : Extends c (c.added unit tier) := Move.extends (.add c unit tier hid)
    refine ⟨h.timeLimit, fun key => ?_, ?_, ?_⟩
    · by_cases hkey : key = unit.key
      · subst hkey
        rw [h.get?_gone hk, if_neg (by simp [hk])]
      · rw [get?_added_of_ne tier hkey, h.index, map_get?_of_extends keep hc hext]
    · have hlist := filter_concat_of_neg (p := fun e : Entry α => keep e.identity.key)
        c.entries (x := { identity := unit, tier }) hk
      refine Eq.trans ?_ (congrArg (List.map (Entry.renumber _)) hlist).symm
      rw [map_entries_of_extends keep hc hext, ← h.entries]
    · exact h.flights.trans (map_flights_of_extends keep hc hext).symm

/-- **A caller of a key that is kept finds the same in both caches.** -/
theorem look (h : Shadows keep c c') (hc : c.Sound) (he : c.entries[id]? = some e)
    (hk : keep e.identity.key = true) (tier : Tier) :
    Shadows keep (c.look id tier).2 (c'.look (c.entryNo keep id) tier).2 ∧
      (c'.look (c.entryNo keep id) tier).1 =
        (c.look id tier).1.renumber ((c.look id tier).2.flightNo keep) := by
  have hs : c.state? id = some e.state := Cache.state?_of_entry he
  have hs' := h.state? he hk
  have hheld := EntryState.isHeld_renumber (c.flightNo keep) e.state
  rcases look_cases hs tier with ⟨a, ha, hl⟩ | ⟨k, hb, hl⟩ | ⟨hnot, hl⟩ <;>
    rcases look_cases hs' tier with ⟨a', ha', hl'⟩ | ⟨k', hb', hl'⟩ | ⟨hnot', hl'⟩ <;>
    rw [hl, hl']
  · rw [ha] at ha'
    cases ha'
    exact ⟨(h.count _ _).count' _ _, rfl⟩
  · rw [ha] at hb'
    cases hb'
  · rw [hheld, ha] at hnot'
    cases hnot'
  · rw [hb] at ha'
    cases ha'
  · rw [hb] at hb'
    cases hb'
    exact ⟨h, rfl⟩
  · rw [hheld, hb] at hnot'
    cases hnot'
  · rw [← hheld, ha'] at hnot
    cases hnot
  · rw [← hheld, hb'] at hnot
    cases hnot
  · have hext : Extends c (c.launched id) := Move.extends (.start c id _ hs hnot)
    refine ⟨((h.launched hc he hk).count _ _).count' _ _, congrArg Lookup.started ?_⟩
    rw [h.length_flights]
    exact (flightNo_of_extends keep hc hext (Nat.le_refl _)).symm

theorem look_gone (h : Shadows keep c c') (hc : c.Sound) (he : c.entries[id]? = some e)
    (hk : keep e.identity.key = false) (tier : Tier) : Shadows keep (c.look id tier).2 c' := by
  have hs : c.state? id = some e.state := Cache.state?_of_entry he
  rcases look_cases hs tier with ⟨a, -, hl⟩ | ⟨k, -, hl⟩ | ⟨-, hl⟩
  · rw [hl]
    exact h.count _ _
  · rw [hl]
    exact h
  · rw [hl]
    exact (h.launched_gone hc he hk).count _ _

/-! ## Keys are forgotten -/

/-- Both caches forget a key. -/
theorem erase (h : Shadows keep c c') (key : String) :
    Shadows keep { c with index := c.index.erase key } { c' with index := c'.index.erase key } := by
  refine ⟨h.timeLimit, fun k => ?_, h.entries, h.flights⟩
  by_cases hkey : k = key
  · subst hkey
    rw [NameMap.get?_erase_self, NameMap.get?_erase_self, Option.map_none, ite_self]
  · rw [NameMap.get?_erase_of_ne _ hkey, NameMap.get?_erase_of_ne _ hkey]
    exact h.index k

/-- The smaller cache has no other key to forget. -/
theorem erase_gone (h : Shadows keep c c') {key : String} (hk : keep key = false) :
    Shadows keep { c with index := c.index.erase key } c' := by
  refine ⟨h.timeLimit, fun k => ?_, h.entries, h.flights⟩
  by_cases hkey : k = key
  · subst hkey
    rw [h.get?_gone hk, if_neg (by simp [hk])]
  · rw [NameMap.get?_erase_of_ne _ hkey]
    exact h.index k

theorem clear (h : Shadows keep c c') :
    Shadows keep { c with index := .empty } { c' with index := .empty } :=
  ⟨h.timeLimit, fun _ => by simp, h.entries, h.flights⟩

/-! ## What evictions ask a cache -/

theorem index_eq (h : Shadows keep c c') :
    c'.index = (c.index.filter fun key _ => keep key).map (c.entryNo keep) := by
  refine NameMap.ext_get? fun key => ?_
  rw [h.index, NameMap.get?_map, NameMap.get?_filter_name]
  split <;> rfl

/-- The maps lead to the same entries, but for those of the keys that are not kept. -/
theorem values (h : Shadows keep c c') (hc : c.Sound) :
    c'.index.values = (c.index.values.filter (c.stays keep)).map (c.entryNo keep) := by
  have hkept : c.index.toList.filter (fun p => keep p.1) =
      c.index.toList.filter fun p => c.stays keep p.2 := by
    refine List.filter_congr fun p hp => ?_
    obtain ⟨e, he, hkey⟩ := hc.index p.1 p.2 (NameMap.get?_eq_some_iff.2 hp)
    rw [stays_eq keep he, hkey]
  rw [h.index_eq]
  unfold NameMap.values NameMap.map NameMap.filter
  dsimp only
  rw [hkept, List.filter_map, List.map_map, List.map_map]
  rfl

theorem entriesOf (h : Shadows keep c c') (hc : c.Sound) (tier : Tier) :
    c'.entriesOf tier = ((c.entriesOf tier).filter (c.stays keep)).map (c.entryNo keep) := by
  unfold Cache.entriesOf
  rw [h.values hc, List.filter_map, List.filter_filter, List.filter_filter]
  refine congrArg (List.map _) (List.filter_congr fun id _ => ?_)
  cases he : c.entries[id]? with
  | none => simp [stays, he]
  | some e =>
    rw [stays_eq keep he]
    cases hk : keep e.identity.key with
    | false => simp
    | true => simp [h.entry he hk, Entry.renumber]

theorem keysUnder (h : Shadows keep c c') (directory : String) :
    c'.keysUnder directory = (c.keysUnder directory).filter keep := by
  have hkeys : c'.index.keys = c.index.keys.filter keep := by
    rw [h.index_eq]
    unfold NameMap.keys NameMap.map NameMap.filter
    dsimp only
    rw [List.filter_map, List.map_map]
    rfl
  unfold Cache.keysUnder
  dsimp only
  rw [hkeys, List.filter_filter, List.filter_filter]
  exact List.filter_congr fun key _ => Bool.and_comm _ _

theorem cascadeChores (h : Shadows keep c c') (he : c.entries[id]? = some e)
    (hk : keep e.identity.key = true) :
    c'.cascadeChores (c.entryNo keep id) = c.cascadeChores id := by
  unfold Cache.cascadeChores
  rw [he, h.entry he hk]
  rfl

end Shadows

end Cache

end SiteHost
