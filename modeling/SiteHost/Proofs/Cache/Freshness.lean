import SiteHost.Proofs.Cache.System

/-!
# No stale artifacts

An eviction takes many steps, and builds, calls and other evictions go on between them. Once it has
returned, nobody who calls for one of its units is given anything older than it:

* `Eviction.Covers`, `Sweep.Covers` — which entries an eviction is meant for. One that comes upon the
  site-global unit is meant for every leaf as well;
* `Cache.Renewed` — an entry that gives nothing old to who calls from now on: all that it holds is
  new, or no key leads to it any more;
* `Chore.Covers` — which entries a chore renews, by itself or by what it leaves to do:
  `Cache.covers_perform`.

Principal results:

* `System.Sweeping` — at every moment of an eviction each of its entries is renewed or is the matter
  of a chore still to be done. `sweeping_step`: kept by every action of anybody;
* `System.no_stale_artifact` — who calls after an eviction gets no artifact of an older build, and no
  older build stores anything where they look.
-/

namespace SiteHost

/-! ## What an eviction is meant for -/

/-- How the keys of the units below a directory begin. -/
def Eviction.above (directory : String) : String :=
  let above := keyOf directory
  if above.endsWith "/" then above else above ++ "/"

/-- Whether an eviction is meant for an entry. -/
def Eviction.Covers {α : Type} (e : Eviction) (entry : Entry α) : Prop :=
  match e with
  | .invalidate key => entry.identity.key = key
  | .tier t => entry.tier = t
  | .remove key => entry.identity.key = key
  | .under directory => entry.identity.key.startsWith (above directory) = true
  | .reset => True

/-- Whether an eviction has come upon an entry of the site-global tier. -/
def Sweep.MetGlobal {α : Type} (sweep : Sweep) (c : Cache α) : Prop :=
  ∃ chore ∈ sweep.did, ∃ id entry, chore.Drops id ∧
    c.entries[id]? = some entry ∧ entry.tier = .siteGlobal

/-- Whether an eviction is meant for an entry, by itself or because the leaves follow the
site-global unit. -/
def Sweep.Covers {α : Type} (sweep : Sweep) (c : Cache α) (entry : Entry α) : Prop :=
  sweep.eviction.Covers entry ∨ (entry.tier = .leaf ∧ sweep.MetGlobal c)

/-- Whether a chore will renew an entry, by itself or by what it leaves to do. -/
def Chore.Covers {α : Type} (c : Cache α) (id : Nat) : Chore → Prop
  | .evict e => ∃ entry, c.entries[id]? = some entry ∧ e.Covers entry
  | .invalidate j => j = id
  | .remove j => j = id
  | .drop ids _ => id ∈ ids
  | .clear _ => True
  | .reset ids _ => id ∈ ids

theorem Eviction.Covers.congr {α : Type} {e : Eviction} {entry entry' : Entry α}
    (h : e.Covers entry) (hi : entry'.identity = entry.identity) (ht : entry'.tier = entry.tier) :
    e.Covers entry' := by
  cases e <;> simp_all [Eviction.Covers]

namespace Cache

variable {α : Type} {c c' : Cache α} {base : Generation} {id : Nat}

theorem covers_mono {chore : Chore} (h : chore.Covers c id)
    (he : Extends c c') : chore.Covers c' id := by
  cases chore with
  | evict e =>
    obtain ⟨entry, hentry, hcov⟩ := h
    obtain ⟨entry', hentry', hi, ht⟩ := he.entries id entry hentry
    exact ⟨entry', hentry', hcov.congr hi ht⟩
  | _ => exact h

/-- An entry that gives nothing old to who calls from now on. -/
def Renewed (c : Cache α) (base : Generation) (id : Nat) : Prop := Fresh c base id ∨ ¬ c.Indexed id

/-- What was never made is fresh. -/
theorem fresh_of_getElem?_eq_none (h : c.entries[id]? = none) : Fresh c base id :=
  .of_not_held (fun s hs => by simp [state?, h] at hs) base

/-- **What is renewed stays renewed.** -/
theorem Renewed.moves (h : Renewed c base id) (hm : Moves c c') (hbase : base ≤ c.flights.length) :
    Renewed c' base id := by
  rcases h with hfresh | hgone
  · exact .inl (hm.fresh hbase hfresh)
  · by_cases hid : id < c.entries.length
    · exact .inr fun hind => hgone (hm.extends.unindexed id hid hind)
    · have hnone : c.entries[id]? = none := List.getElem?_eq_none (Nat.le_of_not_lt hid)
      exact .inl (hm.fresh hbase (fresh_of_getElem?_eq_none hnone))

theorem fresh_dropEntry (c : Cache α) (id : Nat) (base : Generation) :
    Fresh (c.dropEntry id).2 base id := by
  refine .of_not_held (fun s hs => ?_) base
  unfold dropEntry at hs
  cases he : c.entries[id]? with
  | none => simp [he, state?] at hs
  | some e =>
    have hstate : c.state? id = some e.state := by rw [state?, he, Option.map_some]
    rw [he] at hs
    dsimp only at hs
    split at hs
    · rw [state?_setState_self c id _ hstate] at hs
      cases hs
      rfl
    · rename_i hheld
      rw [hstate] at hs
      cases hs
      simpa using hheld

theorem Fresh.count (h : Fresh c base id) (s : Series) (n : Nat) : Fresh (c.count s n) base id :=
  h.congr rfl (Move.count c s n).extends

theorem mem_entriesOf {tier : Tier} : id ∈ c.entriesOf tier ↔
    c.Indexed id ∧ ∃ entry : Entry α, c.entries[id]? = some entry ∧ entry.tier = tier := by
  unfold entriesOf Indexed
  rw [List.mem_filter, NameMap.mem_values]
  cases c.entries[id]? <;> simp

theorem mem_keysUnder {directory key : String} : key ∈ c.keysUnder directory ↔
    (∃ id, c.index.get? key = some id) ∧ key.startsWith (Eviction.above directory) = true := by
  unfold keysUnder Eviction.above
  rw [List.mem_filter, NameMap.mem_keys]

/-- An entry of a chore is renewed by it or is the matter of a chore that it leaves. -/
theorem covers_perform (hc : c.Sound) {chore : Chore} (h : chore.Covers c id)
    (hbase : base ≤ c.flights.length) : Renewed (c.perform chore).2 base id ∨
      ∃ next ∈ (c.perform chore).1, next.Covers (c.perform chore).2 id := by
  have hdrop := fresh_dropEntry c id base
  by_cases hind : c.Indexed id
  · cases chore with
    | evict e =>
      obtain ⟨entry, hentry, hcov⟩ := h
      have hkey := hc.get?_key hind hentry
      cases e with
      | invalidate key =>
        have hk : entry.identity.key = key := hcov
        subst hk
        exact .inr ⟨.invalidate id, mem_perform.2 (.invalidate hkey), rfl⟩
      | tier t =>
        exact .inr ⟨.drop (c.entriesOf t) 0, mem_perform.2 (.tier t),
          mem_entriesOf.2 ⟨hind, entry, hentry, hcov⟩⟩
      | remove key =>
        have hk : entry.identity.key = key := hcov
        subst hk
        exact .inr ⟨.remove id, mem_perform.2 (.remove hkey), rfl⟩
      | under directory =>
        have hmem := mem_keysUnder.2 ⟨⟨id, hkey⟩, hcov⟩
        exact .inr ⟨.evict (.remove entry.identity.key), mem_perform.2 (.under hmem),
          entry, hentry, rfl⟩
      | reset => exact .inr ⟨.clear c.index.values, mem_perform.2 .reset, trivial⟩
    | invalidate j =>
      have hj : j = id := h
      subst hj
      left
      simp only [perform]
      split
      · exact .inl (hdrop.count _ _)
      · exact .inl hdrop
    | remove j =>
      have hj : j = id := h
      subst hj
      exact .inl (.inl (hdrop.count _ _))
    | drop ids n =>
      cases ids with
      | nil => cases h
      | cons j rest =>
        rcases List.mem_cons.1 h with rfl | hrest
        · exact .inl (.inl hdrop)
        · exact .inr ⟨_, List.mem_singleton_self _, hrest⟩
    | clear ids =>
      refine .inl (.inr ?_)
      rintro ⟨key, hkey⟩
      simp [perform] at hkey
    | reset ids n =>
      cases ids with
      | nil => cases h
      | cons j rest =>
        rcases List.mem_cons.1 h with rfl | hrest
        · exact .inl (.inl hdrop)
        · exact .inr ⟨_, List.mem_singleton_self _, hrest⟩
  · exact .inl (Renewed.moves (.inr hind) (moves_perform c chore) hbase)

/-- The entries that a chore leaves to drop were found in the map. -/
theorem known_perform (hc : c.Sound) {chore next : Chore} (hnext : next ∈ (c.perform chore).1)
    (hid : next.Drops id) : id < c.entries.length := by
  cases mem_perform.1 hnext with
  | invalidate hkey | remove hkey =>
    rcases hid with hid | hid <;> cases hid
    exact hc.index_lt ⟨_, hkey⟩
  | _ => rcases hid with hid | hid <;> cases hid

/-- Who drops the site-global unit has the leaves to invalidate. -/
theorem cascade_perform {chore : Chore} (hchore : chore.Drops id)
    {entry : Entry α} (hentry : (c.perform chore).2.entries[id]? = some entry)
    (hglobal : entry.tier = .siteGlobal) : .evict (.tier .leaf) ∈ (c.perform chore).1 :=
  mem_perform.2 (.cascade hchore hentry hglobal)

end Cache

/-! ## An eviction among others -/

namespace System

variable {α : Type}

/-- The state of an eviction, begun when `base` builds had been started, among whatever else is
going on: each of its entries is renewed or is the matter of a chore still to be done. -/
structure Sweeping (s : System α) (m : Nat) (base : Generation) (sweep : Sweep) : Prop where
  sound : s.Sound
  started : base ≤ s.cache.flights.length
  there : s.sweeps[m]? = some sweep
  /-- The entries it drops exist. -/
  known : ∀ chore ∈ sweep.todo ++ sweep.did, ∀ id, chore.Drops id → id < s.cache.entries.length
  renews : ∀ (id : Nat) (entry : Entry α), s.cache.entries[id]? = some entry →
    sweep.Covers s.cache entry →
    s.cache.Renewed base id ∨ ∃ chore ∈ sweep.todo, chore.Covers s.cache id

theorem sweeping_begin {s : System α} (hs : s.Sound) (e : Eviction) :
    (s.act (.evict e)).Sweeping s.sweeps.length s.cache.flights.length
      { eviction := e, todo := [.evict e] } := by
  have hstep : s.step (.evict e) = some (s.act (.evict e)) := rfl
  have hsound := step_sound hs hstep
  refine ⟨hsound, Nat.le_refl _, by simp [act, step], ?_, ?_⟩
  · intro chore hchore id hid
    rcases hid with rfl | rfl <;> simp at hchore
  · intro id entry hentry hcov
    rcases hcov with hcov | ⟨-, chore, hdid, -⟩
    · exact .inr ⟨.evict e, List.mem_singleton_self _, entry, hentry, hcov⟩
    · cases hdid

/-- Only its own steps change an eviction. -/
theorem getElem?_sweeps_step {s s' : System α} {a : Action α} (h : s.step a = some s') {m : Nat}
    {sweep : Sweep} (hsweep : s.sweeps[m]? = some sweep) :
    s'.sweeps[m]? = some sweep ∨ a = .sweep m := by
  rcases sweeps_step_cases h with hsame | ⟨e, -, hnew⟩ | ⟨k, before, chore, rest, rfl, -, -, -, hset⟩
  · exact .inl (hsame ▸ hsweep)
  · have hm : m < s.sweeps.length := (List.getElem?_eq_some_iff.1 hsweep).1
    exact .inl (by rw [hnew, List.getElem?_append_left hm, hsweep])
  · by_cases hk : k = m
    · exact .inr (by rw [hk])
    · exact .inl (by rw [hset, List.getElem?_set_ne hk, hsweep])

theorem metGlobal_of_extends {c c' : Cache α} (he : Cache.Extends c c') {sweep : Sweep}
    (hknown : ∀ chore ∈ sweep.did, ∀ id, chore.Drops id → id < c.entries.length)
    (h : sweep.MetGlobal c') : sweep.MetGlobal c := by
  obtain ⟨chore, hdid, id, entry', hdrops, hentry', hglobal⟩ := h
  have hentry := List.getElem?_eq_getElem (hknown chore hdid id hdrops)
  obtain ⟨entry'', hsame, -, ht⟩ := he.entries id _ hentry
  rw [hentry'] at hsame
  cases hsame
  exact ⟨chore, hdid, id, _, hdrops, hentry, by rw [← ht, hglobal]⟩

/-- An entry that was renewed or the matter of a chore is so after any moves. -/
theorem renewed_or_covered {c c' : Cache α} (hm : Cache.Moves c c') {base : Generation}
    (hbase : base ≤ c.flights.length) {todo : List Chore} {id : Nat}
    (h : c.Renewed base id ∨ ∃ chore ∈ todo, chore.Covers c id) :
    c'.Renewed base id ∨ ∃ chore ∈ todo, chore.Covers c' id := by
  rcases h with hren | ⟨chore, hmem, hcov⟩
  · exact .inl (hren.moves hm hbase)
  · exact .inr ⟨chore, hmem, Cache.covers_mono hcov hm.extends⟩

/-- What anybody else does keeps the state of an eviction. -/
theorem Sweeping.others {s s' : System α} {m : Nat} {base : Generation} {sweep : Sweep}
    (h : s.Sweeping m base sweep) {a : Action α} (hstep : s.step a = some s')
    (hthere : s'.sweeps[m]? = some sweep) : s'.Sweeping m base sweep := by
  have hmoves := step_moves h.sound hstep
  have hext := hmoves.extends
  refine ⟨step_sound h.sound hstep, Nat.le_trans h.started hext.length_flights, hthere,
    fun chore hmem id hid => Nat.lt_of_lt_of_le (h.known chore hmem id hid) hext.length_entries, ?_⟩
  intro id entry hentry hcov
  cases hold : s.cache.entries[id]? with
  | none => exact .inl (.inl (hmoves.fresh h.started (Cache.fresh_of_getElem?_eq_none hold)))
  | some entry₀ =>
    obtain ⟨entry', hsame, hi, ht⟩ := hext.entries id entry₀ hold
    rw [hentry] at hsame
    cases hsame
    have hcov₀ : sweep.Covers s.cache entry₀ := by
      rcases hcov with hcov | ⟨hleaf, hmet⟩
      · exact .inl (hcov.congr hi.symm ht.symm)
      · exact .inr ⟨ht ▸ hleaf, metGlobal_of_extends hext
          (fun chore hmem => h.known chore (List.mem_append_right _ hmem)) hmet⟩
    exact renewed_or_covered hmoves h.started (h.renews id entry₀ hold hcov₀)

/-- What an eviction has met of the site-global tier after a chore: it had met it before, or the
leaves are left to invalidate. -/
theorem metGlobal_perform {c : Cache α} {sweep : Sweep}
    (hknown : ∀ chore ∈ sweep.did, ∀ id, chore.Drops id → id < c.entries.length)
    {chore : Chore} {todo : List Chore}
    (h : Sweep.MetGlobal { sweep with todo, did := chore :: sweep.did } (c.perform chore).2) :
    sweep.MetGlobal c ∨ .evict (.tier .leaf) ∈ (c.perform chore).1 := by
  obtain ⟨other, hdid, id, entry, hdrops, hentry, hglobal⟩ := h
  rcases List.mem_cons.1 hdid with rfl | hbefore
  · exact .inr (Cache.cascade_perform hdrops hentry hglobal)
  · exact .inl (metGlobal_of_extends (Cache.moves_perform c chore).extends hknown
      ⟨other, hbefore, id, entry, hdrops, hentry, hglobal⟩)

/-- A chore of an eviction keeps the state of the eviction. -/
theorem Sweeping.own {s s' : System α} {m : Nat} {base : Generation} {sweep : Sweep}
    (h : s.Sweeping m base sweep) (hstep : s.step (.sweep m) = some s') :
    ∃ sweep', s'.Sweeping m base sweep' := by
  have hmoves := step_moves h.sound hstep
  have hext := hmoves.extends
  have hsound := step_sound h.sound hstep
  obtain ⟨sweep₀, chore, rest, hthere, htodo, rfl⟩ := step_sweep hstep
  rw [h.there] at hthere
  cases hthere
  have hm : m < s.sweeps.length := (List.getElem?_eq_some_iff.1 h.there).1
  refine ⟨_, hsound, Nat.le_trans h.started hext.length_flights, List.getElem?_set_self hm, ?_, ?_⟩
  · intro next hnext id hid
    refine Nat.lt_of_lt_of_le ?_ hext.length_entries
    simp only [List.mem_append, List.mem_cons] at hnext
    rcases hnext with (hmore | hrest) | rfl | hdid
    · exact Cache.known_perform h.sound.cache hmore hid
    · exact h.known next (by simp [htodo, hrest]) id hid
    · exact h.known next (by simp [htodo]) id hid
    · exact h.known next (by simp [hdid]) id hid
  · intro id entry hentry hcov
    cases hold : s.cache.entries[id]? with
    | none => exact .inl (.inl (hmoves.fresh h.started (Cache.fresh_of_getElem?_eq_none hold)))
    | some entry₀ =>
      obtain ⟨entry', hsame, hi, ht⟩ := hext.entries id entry₀ hold
      rw [hentry] at hsame
      cases hsame
      -- the entry was one of the eviction's before, or it is a leaf and the leaves come next
      have hcov₀ : sweep.Covers s.cache entry₀ ∨
          (entry.tier = .leaf ∧ .evict (.tier .leaf) ∈ (s.cache.perform chore).1) := by
        rcases hcov with hcov | ⟨hleaf, hmet⟩
        · exact .inl (.inl (hcov.congr hi.symm ht.symm))
        · rcases metGlobal_perform
            (fun chore hmem => h.known chore (List.mem_append_right _ hmem)) hmet with hmet | hleaves
          · exact .inl (.inr ⟨ht ▸ hleaf, hmet⟩)
          · exact .inr ⟨hleaf, hleaves⟩
      rcases hcov₀ with hcov₀ | ⟨hleaf, hleaves⟩
      · rcases h.renews id entry₀ hold hcov₀ with hren | ⟨other, hmem, hother⟩
        · exact .inl (hren.moves hmoves h.started)
        · rw [htodo] at hmem
          rcases List.mem_cons.1 hmem with rfl | hrest
          · rcases Cache.covers_perform h.sound.cache hother h.started with hren | ⟨next, hn, hc⟩
            · exact .inl hren
            · exact .inr ⟨next, List.mem_append_left _ hn, hc⟩
          · exact .inr ⟨other, List.mem_append_right _ hrest, Cache.covers_mono hother hext⟩
      · exact .inr ⟨_, List.mem_append_left _ hleaves, entry, hentry, hleaf⟩

/-- **Every action of anybody keeps the state of an eviction.** -/
theorem sweeping_step {s s' : System α} {m : Nat} {base : Generation} {sweep : Sweep}
    (h : s.Sweeping m base sweep) {a : Action α} (hstep : s.step a = some s') :
    ∃ sweep', s'.Sweeping m base sweep' := by
  rcases getElem?_sweeps_step hstep h.there with hsame | rfl
  · exact ⟨sweep, h.others hstep hsame⟩
  · exact h.own hstep

theorem sweeping_run {s : System α} {m : Nat} {base : Generation}
    (h : ∃ sweep, s.Sweeping m base sweep) (actions : List (Action α)) :
    ∃ sweep, (s.run actions).Sweeping m base sweep := by
  refine run_induction (P := fun s => ∃ sweep, s.Sweeping m base sweep) ?_ h actions
  intro s s' a hs hstep
  obtain ⟨sweep, hsweep⟩ := hs
  exact sweeping_step hsweep hstep

/-! ## Who calls after an eviction -/

end System

/-- A caller who was given nothing older than `base`, and never will be: neither their entry nor the
build they wait for nor the artifact they found is older. -/
structure Call.Late {α : Type} (c : Cache α) (base : Generation) (call : Call α) : Prop where
  entry : c.Fresh base call.entry
  awaited : ∀ found g, call.found = some found → found.generation? = some g → base ≤ g
  hit : ∀ a, call.found = some (.hit a) →
    ∃ g, base ≤ g ∧ c.flights[g]? = some ⟨call.entry, some (.returned (.ok a))⟩

namespace System

variable {α : Type}

theorem late_mono {c c' : Cache α} {base : Generation} {call : Call α} (h : call.Late c base)
    (hm : Cache.Moves c c') (hbase : base ≤ c.flights.length) : call.Late c' base := by
  refine ⟨hm.fresh hbase h.entry, h.awaited, fun a ha => ?_⟩
  obtain ⟨g, hg, hf⟩ := h.hit a ha
  exact ⟨g, hg, hm.extends.ended hf rfl⟩

/-- Who looks at a fresh entry finds nothing old there. -/
theorem late_looked {c : Cache α} {base : Generation} {call : Call α}
    (hlt : call.entry < c.entries.length) (h : call.Late c base)
    (hbase : base ≤ c.flights.length) :
    (call.looked (c.state? call.entry) (c.look call.entry call.tier).1).Late
      (c.look call.entry call.tier).2 base := by
  have hstate : c.state? call.entry = some c.entries[call.entry].state := by
    simp [Cache.state?, hlt]
  have hmoves := Cache.moves_look hlt call.tier
  refine ⟨hmoves.fresh hbase h.entry, ?_, ?_⟩
  · intro found g hfound hg
    cases hfound
    rcases Cache.look_cases hstate call.tier with ⟨a, -, hl⟩ | ⟨k, hs, hl⟩ | ⟨-, hl⟩
    · rw [hl] at hg
      cases hg
    · rw [hl] at hg
      cases hg
      exact (h.entry.building g (by rw [hstate, hs])).1
    · rw [hl] at hg
      cases hg
      exact hbase
  · intro a ha
    rcases Cache.look_cases hstate call.tier with ⟨b, hs, hl⟩ | ⟨k, -, hl⟩ | ⟨-, hl⟩
    · rw [hl] at ha
      cases ha
      obtain ⟨g, hg, hf⟩ := h.entry.built a (by rw [hstate, hs])
      exact ⟨g, hg, hmoves.extends.ended hf rfl⟩
    · rw [hl] at ha
      cases ha
    · rw [hl] at ha
      cases ha

/-- The state of a cache after an eviction that renewed the entries `renewed`, for those who call
then, the calls from number `first` on. -/
structure Renewal (s : System α) (first : Nat) (base : Generation) (renewed : Nat → Prop) :
    Prop where
  sound : s.Sound
  started : base ≤ s.cache.flights.length
  behind : first ≤ s.calls.length
  entries : ∀ id, renewed id → s.cache.Renewed base id
  calls : ∀ (n : Nat) (call : Call α), first ≤ n → s.calls[n]? = some call → renewed call.entry →
    call.Late s.cache base

theorem renewal_step {s s' : System α} {first : Nat} {base : Generation} {renewed : Nat → Prop}
    (h : s.Renewal first base renewed) {a : Action α} (hstep : s.step a = some s') :
    s'.Renewal first base renewed := by
  have hmoves := step_moves h.sound hstep
  have hentries : ∀ id, renewed id → s'.cache.Renewed base id := fun id hid =>
    (h.entries id hid).moves hmoves h.started
  refine ⟨step_sound h.sound hstep, Nat.le_trans h.started hmoves.extends.length_flights,
    Nat.le_trans h.behind (length_calls_step hstep), hentries, ?_⟩
  intro k call hk hcall hren
  rcases call_step hstep hcall with ⟨before, hbefore, hkept, -⟩ |
    ⟨unit, tier, -, -, hcache, rfl⟩ | ⟨before, -, hbefore, -, hcache, rfl⟩
  · rw [hkept.entry] at hren
    have hlate := late_mono (h.calls k before hk hbefore hren) hmoves h.started
    refine ⟨?_, ?_, ?_⟩
    · rw [hkept.entry]
      exact hlate.entry
    · rw [hkept.found]
      exact hlate.awaited
    · rw [hkept.found, hkept.entry]
      exact hlate.hit
  · -- the entry comes from the map, so it is not one that left the map
    rcases hentries _ hren with hfresh | hgone
    · refine ⟨hfresh, ?_, ?_⟩
      · intro found g hfound
        cases hfound
      · intro a hfound
        cases hfound
    · rw [hcache] at hgone
      exact absurd ⟨unit.key, get?_enter s.cache unit tier⟩ hgone
  · rw [hcache]
    exact late_looked (h.sound.entry_lt hbefore) (h.calls k before hk hbefore hren) h.started

/-- An eviction that has nothing left to do has renewed its entries. -/
theorem Sweeping.renewal {s : System α} {m : Nat} {base : Generation} {sweep : Sweep}
    (h : s.Sweeping m base sweep) (hdone : sweep.todo = []) :
    s.Renewal s.calls.length base fun id => ∀ entry, s.cache.entries[id]? = some entry →
      sweep.Covers s.cache entry := by
  refine ⟨h.sound, h.started, Nat.le_refl _, ?_, ?_⟩
  · intro id hcov
    cases hentry : s.cache.entries[id]? with
    | none => exact .inl (Cache.fresh_of_getElem?_eq_none hentry)
    | some entry =>
      rcases h.renews id entry hentry (hcov entry hentry) with hren | ⟨chore, hmem, -⟩
      · exact hren
      · rw [hdone] at hmem
        cases hmem
  · intro n call hn hcall
    rw [List.getElem?_eq_none hn] at hcall
    cases hcall

/-- The answer of a late caller is no older than what they found. -/
theorem Sound.answer {s : System α} (hs : s.Sound) {n : Nat} {call : Call α}
    (hcall : s.calls[n]? = some call) {base : Generation} (hlate : call.Late s.cache base) {a : α}
    (ha : call.result = some (.ok a)) : ∃ g, base ≤ g ∧
      s.cache.flights[g]? = some ⟨call.entry, some (.returned (.ok a))⟩ := by
  have hlinked := hs.calls n call hcall
  rcases hlinked.told _ ha with ⟨b, hfound, hb⟩ | ⟨found, g, hfound, hg, hres⟩
  · cases hb
    exact hlate.hit a hfound
  · obtain ⟨f, hf, hentry⟩ := hlinked.awaited found g hfound hg
    obtain ⟨f', e, ending, hf', -, hend, hok⟩ := Cache.result?_eq_some_iff.1 hres
    rw [hf] at hf'
    cases hf'
    have hret := Ending.result_eq_ok hok.symm
    subst hret
    exact ⟨g, hlate.awaited found g hfound hg, by rw [hf, ← hentry, ← hend]⟩

/-- **No stale artifact after an eviction.** Whatever happens while an eviction is on its way and
afterwards: who calls for one of its units once it has returned is never answered with an artifact of
a build that was started before the eviction began. Nor does such a build, when it ends or when its
end is heard of, change the entry where they look: all that is there is new. -/
theorem no_stale_artifact {s₀ s₂ s₃ : System α} (h₀ : s₀.Reachable) (e : Eviction)
    (during after : List (Action α)) (h₂ : s₂ = (s₀.act (.evict e)).run during)
    (h₃ : s₃ = s₂.run after) {sweep : Sweep} (hsweep : s₂.sweeps[s₀.sweeps.length]? = some sweep)
    (hreturned : sweep.todo = []) {n : Nat} (hn : s₂.calls.length ≤ n) {call : Call α}
    (hcall : s₃.calls[n]? = some call) {entry : Entry α}
    (hentry : s₃.cache.entries[call.entry]? = some entry)
    (hcovers : sweep.Covers s₂.cache entry) :
    (∀ a, call.result = some (.ok a) → ∃ g, s₀.cache.flights.length ≤ g ∧
      s₃.cache.flights[g]? = some ⟨call.entry, some (.returned (.ok a))⟩) ∧
    s₃.cache.Fresh s₀.cache.flights.length call.entry ∧
    ∀ g < s₀.cache.flights.length,
      (s₃.cache.publish g).state? call.entry = s₃.cache.state? call.entry ∧
      ∀ ending, (s₃.cache.finish g ending).state? call.entry = s₃.cache.state? call.entry := by
  subst h₂ h₃
  obtain ⟨sweep', hsweeping⟩ := sweeping_run ⟨_, sweeping_begin h₀.sound e⟩ during
  have hthere := hsweeping.there
  rw [hsweep] at hthere
  cases hthere
  have hrenewal := run_induction (fun _ _ _ hs hstep => renewal_step hs hstep)
    (hsweeping.renewal hreturned) after
  have hext := (run_moves hsweeping.sound after).extends
  have hlate := hrenewal.calls n call hn hcall fun entry₂ hentry₂ => by
    obtain ⟨entry', hsame, hi, ht⟩ := hext.entries _ entry₂ hentry₂
    rw [hentry] at hsame
    cases hsame
    rcases hcovers with hcov | ⟨hleaf, hmet⟩
    · exact .inl (hcov.congr hi.symm ht.symm)
    · exact .inr ⟨ht ▸ hleaf, hmet⟩
  refine ⟨fun a ha => hrenewal.sound.answer hcall hlate ha, hlate.entry, fun g hg => ?_⟩
  have hother : ((((s₀.act (.evict e)).run during).run after).cache.state? call.entry) ≠
      some (.building g) := fun hs => Nat.not_le_of_lt hg (hlate.entry.building g hs).1
  exact ⟨Cache.state?_publish_of_ne hother, fun ending => Cache.state?_finish_of_ne hother ending⟩

/-- A unit is evicted while its build is in flight. The caller who waits for that build gets its
artifact; who calls once the eviction has returned gets that of a new build. -/
theorem no_stale_artifact_in_flight : ∃ s₀ s₂ s₃ : System Nat,
    s₀ = (start 1000).run [.enter ⟨"/site/a.ks", "Site.a"⟩ .leaf, .look 0] ∧
    s₂ = (s₀.act (.evict (.invalidate "/site/a.ks"))).run [.sweep 0, .sweep 0] ∧
    s₃ = s₂.run [.enter ⟨"/site/A.ks", "Site.A"⟩ .leaf, .look 1, .finish 0 (.returned (.ok 7)),
      .answer 0, .finish 1 (.returned (.ok 8)), .answer 1] ∧
    s₃.calls.map Call.result = [some (.ok 7), some (.ok 8)] ∧
    ∃ g, s₀.cache.flights.length ≤ g ∧
      s₃.cache.flights[g]? = some ⟨0, some (.returned (.ok 8))⟩ := by
  refine ⟨_, _, _, rfl, rfl, rfl, rfl, ?_⟩
  have h₀ : ((start 1000).run [.enter ⟨"/site/a.ks", "Site.a"⟩ .leaf, .look 0] :
    System Nat).Reachable := ⟨1000, _, rfl⟩
  exact (no_stale_artifact h₀ (.invalidate "/site/a.ks") [.sweep 0, .sweep 0]
    [.enter ⟨"/site/A.ks", "Site.A"⟩ .leaf, .look 1, .finish 0 (.returned (.ok 7)), .answer 0,
      .finish 1 (.returned (.ok 8)), .answer 1]
    rfl rfl rfl rfl (Nat.le_refl 1) rfl rfl (.inl rfl)).1 8 rfl

end System

end SiteHost
