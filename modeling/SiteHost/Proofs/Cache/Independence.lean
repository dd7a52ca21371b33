import SiteHost.Proofs.Cache.Freshness
import SiteHost.Proofs.Cache.Restricted
import SiteHost.Proofs.Cache.SingleFlight

/-!
# Keys are independent

A run from which everything is left out that belongs to some keys goes on as before for the others:

* `System.stays` — whether an action belongs to a key that is kept. An eviction of many keys belongs to all
  of them, but the steps in which it comes upon an entry, or a key, that is not kept do not;
* `System.renumbered` — the action as it is called in the smaller run, in which calls, builds and evictions
  are counted anew;
* `System.without` — the run without the actions that do not stay;
* `Call.fate` — what became of a call.

Principal results:

* `Shadows.perform`, `Shadows.perform_gone` — a step of an eviction, in the smaller cache or left out of it;
* `Shadows.step`, `Shadows.step_gone` — one action, in the smaller system or left out of it;
* `keys_independent` — the whole run.
-/

namespace SiteHost

variable {α : Type} {keep : String → Bool}

/-! ## Evictions without the other keys -/

/-- Whether an eviction is not about one of the other keys. -/
def Eviction.stays (keep : String → Bool) : Eviction → Bool
  | .invalidate key | .remove key => keep key
  | .tier _ | .under _ | .reset => true

namespace Chore

/-- Whether a chore is not about one of the other keys. -/
def stays (keep : String → Bool) (c : Cache α) : Chore → Bool
  | .evict e => e.stays keep
  | .invalidate id | .remove id => c.stays keep id
  | .drop _ _ | .clear _ | .reset _ _ => true

/-- Whether what a chore does next is about a key that is kept, or about no key. -/
def acts (keep : String → Bool) (c : Cache α) : Chore → Bool
  | .drop (id :: _) _ | .reset (id :: _) _ => c.stays keep id
  | chore => chore.stays keep c

/-- The chore for the entries of the keys that are kept, which has dropped nothing so far. -/
def within (keep : String → Bool) (c : Cache α) : Chore → Chore
  | .evict e => .evict e
  | .invalidate id => .invalidate (c.entryNo keep id)
  | .remove id => .remove (c.entryNo keep id)
  | .drop ids _ => .drop ((ids.filter (c.stays keep)).map (c.entryNo keep)) 0
  | .clear ids => .clear ((ids.filter (c.stays keep)).map (c.entryNo keep))
  | .reset ids _ => .reset ((ids.filter (c.stays keep)).map (c.entryNo keep)) 0

/-- The chore without the number of entries that it has dropped so far. -/
def uncounted : Chore → Chore
  | .evict e => .evict e
  | .invalidate id => .invalidate id
  | .remove id => .remove id
  | .drop ids _ => .drop ids 0
  | .clear ids => .clear ids
  | .reset ids _ => .reset ids 0

/-- The entries that a chore knows of. -/
def ids : Chore → List Nat
  | .evict _ => []
  | .invalidate id | .remove id => [id]
  | .drop ids _ | .clear ids | .reset ids _ => ids

theorem Takes.mem_ids {chore : Chore} {id : Nat} (h : chore.Takes id) : id ∈ chore.ids := by
  cases chore with
  | invalidate j | remove j => exact List.mem_singleton.2 h.symm
  | drop ids n | reset ids n => exact List.mem_of_head? h
  | _ => exact h.elim

/-- A chore that drops an entry at once is about that entry's key. -/
theorem Takes.acts_eq {c : Cache α} {chore : Chore} {id : Nat} (h : chore.Takes id) :
    chore.acts keep c = c.stays keep id := by
  cases chore with
  | invalidate j | remove j => exact congrArg (c.stays keep) h
  | drop ids n | reset ids n =>
    obtain ⟨rest, rfl⟩ := List.head?_eq_some_iff.1 h
    rfl
  | _ => exact h.elim

/-- What there is to do for the keys that are kept. -/
def todoWithin (keep : String → Bool) (c : Cache α) (todo : List Chore) : List Chore :=
  (todo.filter (stays keep c)).map (within keep c)

theorem todoWithin_append (keep : String → Bool) (c : Cache α) (xs ys : List Chore) :
    todoWithin keep c (xs ++ ys) = todoWithin keep c xs ++ todoWithin keep c ys := by
  rw [todoWithin, List.filter_append, List.map_append]
  rfl

theorem todoWithin_cons (keep : String → Bool) (c : Cache α) (chore : Chore) (rest : List Chore) :
    todoWithin keep c (chore :: rest) = todoWithin keep c [chore] ++ todoWithin keep c rest :=
  todoWithin_append keep c [chore] rest

theorem todoWithin_of_stays {c : Cache α} (chore : Chore) (h : chore.stays keep c = true) :
    todoWithin keep c [chore] = [chore.within keep c] := by
  rw [todoWithin, List.filter_cons_of_pos h]
  rfl

theorem todoWithin_of_not_stays {c : Cache α} (chore : Chore) (h : chore.stays keep c = false) :
    todoWithin keep c [chore] = [] := by
  rw [todoWithin, List.filter_cons_of_neg (by simp [h])]
  rfl

/-- What acts stays. -/
theorem stays_of_acts {c : Cache α} {chore : Chore} (h : chore.acts keep c = true) :
    chore.stays keep c = true := by
  cases chore with
  | drop ids n => rfl
  | reset ids n => rfl
  | _ => exact h

/-- What there is to do is called alike as long as entries are only added. -/
theorem todoWithin_of_extends {c d : Cache α} (he : Cache.Extends c d) {todo : List Chore}
    (hids : ∀ chore ∈ todo, ∀ id ∈ chore.ids, id < c.entries.length) :
    todoWithin keep d todo = todoWithin keep c todo := by
  have hstays : ∀ id, id < c.entries.length → d.stays keep id = c.stays keep id :=
    fun id hid => Cache.stays_of_extends keep he hid
  have hno : ∀ id, id < c.entries.length → d.entryNo keep id = c.entryNo keep id :=
    fun id hid => Cache.entryNo_of_extends keep he (Nat.le_of_lt hid)
  have hall : ∀ ids : List Nat, (∀ id ∈ ids, id < c.entries.length) →
      (ids.filter (d.stays keep)).map (d.entryNo keep) =
        (ids.filter (c.stays keep)).map (c.entryNo keep) := fun ids hlt => by
    rw [List.filter_congr fun id hid => hstays id (hlt id hid)]
    exact List.map_congr_left fun id hid => hno id (hlt id (List.mem_filter.1 hid).1)
  unfold todoWithin
  rw [List.filter_congr fun chore hmem => show chore.stays keep d = chore.stays keep c from ?_]
  · refine List.map_congr_left fun chore hmem => ?_
    have hlt := hids chore (List.mem_filter.1 hmem).1
    cases chore with
    | evict e => rfl
    | invalidate id => exact congrArg Chore.invalidate (hno id (hlt id List.mem_cons_self))
    | remove id => exact congrArg Chore.remove (hno id (hlt id List.mem_cons_self))
    | drop ids n => exact congrArg (Chore.drop · 0) (hall ids hlt)
    | clear ids => exact congrArg Chore.clear (hall ids hlt)
    | reset ids n => exact congrArg (Chore.reset · 0) (hall ids hlt)
  · have hlt := hids chore hmem
    cases chore with
    | invalidate id => exact hstays id (hlt id List.mem_cons_self)
    | remove id => exact hstays id (hlt id List.mem_cons_self)
    | _ => rfl

end Chore

namespace Cache

open Chore

variable {c c' : Cache α} {chore chore' : Chore} {id : Nat} {e : Entry α}

/-- What a chore leaves to do is about entries that there are. -/
theorem ids_perform (hc : c.Sound) (hids : ∀ id ∈ chore.ids, id < c.entries.length) {next : Chore}
    (hnext : next ∈ (c.perform chore).1) : ∀ id ∈ next.ids, id < c.entries.length := by
  intro id hid
  cases mem_perform.1 hnext with
  | invalidate hkey | remove hkey =>
    cases List.mem_singleton.1 hid
    exact hc.index_lt ⟨_, hkey⟩
  | tier t => exact hc.index_lt (mem_entriesOf.1 hid).1
  | under | cascade => cases hid
  | reset => exact hc.index_lt (NameMap.mem_values.1 hid)
  | drop j | dropReset j => exact hids id (List.mem_cons_of_mem j hid)
  | clear => exact hids id hid

/-- The leaves that follow an entry are those of all keys. -/
theorem todoWithin_cascadeChores (keep : String → Bool) (c d : Cache α) (id : Nat) :
    todoWithin keep c (d.cascadeChores id) = d.cascadeChores id ∧
      (d.cascadeChores id).map uncounted = d.cascadeChores id := by
  unfold cascadeChores
  split <;> exact ⟨rfl, rfl⟩

theorem chores_invalidate (c : Cache α) (id : Nat) :
    (c.perform (.invalidate id)).1 = (c.dropEntry id).2.cascadeChores id := by
  simp only [perform]
  split <;> rfl

theorem chores_remove (c : Cache α) (id : Nat) :
    (c.perform (.remove id)).1 = (c.dropEntry id).2.cascadeChores id := rfl

theorem entry_of_stays (hstays : c.stays keep id = true) (hid : id < c.entries.length) :
    ∃ e, c.entries[id]? = some e ∧ keep e.identity.key = true :=
  ⟨_, List.getElem?_eq_getElem hid, stays_eq keep (List.getElem?_eq_getElem hid) ▸ hstays⟩

theorem entry_of_not_stays (hstays : c.stays keep id = false) (hid : id < c.entries.length) :
    ∃ e, c.entries[id]? = some e ∧ keep e.identity.key = false :=
  ⟨_, List.getElem?_eq_getElem hid, stays_eq keep (List.getElem?_eq_getElem hid) ▸ hstays⟩

theorem Sound.stays_index (hc : c.Sound) (keep : String → Bool) {key : String}
    (hid : c.index.get? key = some id) : c.stays keep id = keep key := by
  obtain ⟨e, he, rfl⟩ := hc.index key id hid
  exact stays_eq keep he

/-- Of a chore at the entry of a key there is left what is done for the keys that are kept. -/
theorem todoWithin_found (hc : c.Sound) {key : String} {mk : Nat → Chore}
    (hstays : ∀ id, (mk id).stays keep c = c.stays keep id)
    (hwithin : ∀ id, (mk id).within keep c = mk (c.entryNo keep id)) :
    todoWithin keep c ((c.index.get? key).map mk).toList =
      if keep key = true then (((c.index.get? key).map (c.entryNo keep)).map mk).toList else [] := by
  cases hid : c.index.get? key with
  | none => exact (ite_self _).symm
  | some id =>
    have hkey : (mk id).stays keep c = keep key := (hstays id).trans (hc.stays_index keep hid)
    split
    · next hk => exact (todoWithin_of_stays (mk id) (hkey.trans hk)).trans (congrArg ([·]) (hwithin id))
    · next hk => exact todoWithin_of_not_stays (mk id) (hkey.trans (Bool.not_eq_true _ ▸ hk))

/-- No leaves follow an entry that is not the global unit's. -/
theorem cascadeChores_dropEntry (he : c.entries[id]? = some e) (htier : e.tier ≠ .siteGlobal) :
    (c.dropEntry id).2.cascadeChores id = [] := by
  obtain ⟨e', he', -, ht⟩ := (moves_dropEntry c id).extends.entries id e he
  have hnot : (e'.tier == Tier.siteGlobal) = false := by
    rw [ht]
    exact beq_eq_false_iff_ne.2 htier
  unfold cascadeChores
  rw [he', Option.any_some, hnot]
  rfl

/-- What is not done for the keys that are kept leaves nothing more to do for them. -/
theorem todoWithin_perform (hc : c.Sound) (hids : ∀ id ∈ chore.ids, id < c.entries.length)
    (htiers : ∀ (id : Nat) (e : Entry α), c.entries[id]? = some e → keep e.identity.key = false →
      e.tier ≠ .siteGlobal)
    (hacts : chore.acts keep c = false) :
    todoWithin keep c (c.perform chore).1 = todoWithin keep c [chore] := by
  cases chore with
  | evict e =>
    rw [todoWithin_of_not_stays (.evict e) hacts]
    cases e with
    | invalidate key =>
      exact (todoWithin_found hc (fun _ => rfl) fun _ => rfl).trans (if_neg (Bool.eq_false_iff.1 hacts))
    | remove key =>
      exact (todoWithin_found hc (fun _ => rfl) fun _ => rfl).trans (if_neg (Bool.eq_false_iff.1 hacts))
    | _ => cases hacts
  | invalidate id =>
    obtain ⟨e, he, hk⟩ := entry_of_not_stays hacts (hids id List.mem_cons_self)
    rw [todoWithin_of_not_stays (.invalidate id) hacts, chores_invalidate,
      cascadeChores_dropEntry he (htiers id e he hk)]
    rfl
  | remove id =>
    obtain ⟨e, he, hk⟩ := entry_of_not_stays hacts (hids id List.mem_cons_self)
    rw [todoWithin_of_not_stays (.remove id) hacts, chores_remove,
      cascadeChores_dropEntry he (htiers id e he hk)]
    rfl
  | drop ids n =>
    cases ids with
    | nil => cases hacts
    | cons id rest =>
      have hstays : c.stays keep id = false := hacts
      rw [todoWithin_of_stays _ rfl, within, List.filter_cons_of_neg (by simp [hstays])]
      rfl
  | clear ids => cases hacts
  | reset ids n =>
    cases ids with
    | nil => cases hacts
    | cons id rest =>
      have hstays : c.stays keep id = false := hacts
      rw [todoWithin_of_stays _ rfl, within, List.filter_cons_of_neg (by simp [hstays])]
      rfl

namespace Shadows

/-- Both caches drop the same entry, and the same leaves follow. -/
theorem drop (h : Shadows keep c c') (he : c.entries[id]? = some e) (hk : keep e.identity.key = true) :
    Shadows keep (c.dropEntry id).2 (c'.dropEntry (c.entryNo keep id)).2 ∧
      (c'.dropEntry (c.entryNo keep id)).2.cascadeChores (c.entryNo keep id) =
        (c.dropEntry id).2.cascadeChores id := by
  have hext := (moves_dropEntry c id).extends
  have hid : id < c.entries.length := (List.getElem?_eq_some_iff.1 he).1
  obtain ⟨e', he', hi, -⟩ := hext.entries id e he
  have hdrop := h.dropEntry he hk
  refine ⟨hdrop, ?_⟩
  have hsame := hdrop.cascadeChores he' (by rw [hi, hk])
  rw [entryNo_of_extends keep hext (Nat.le_of_lt hid)] at hsame
  exact hsame

/-- What a chore at the entry of a key that is kept is in the smaller cache. -/
theorem found (h : Shadows keep c c') (hc : c.Sound) {key : String} (hk : keep key = true)
    {mk : Nat → Chore} (hstays : ∀ id, (mk id).stays keep c = c.stays keep id)
    (hwithin : ∀ id, (mk id).within keep c = mk (c.entryNo keep id))
    (huncounted : ∀ id, (mk id).uncounted = mk id) :
    ((c'.index.get? key).map mk).toList.map uncounted =
      todoWithin keep c ((c.index.get? key).map mk).toList := by
  rw [todoWithin_found hc hstays hwithin, if_pos hk, h.get? hk]
  cases c.index.get? key with
  | none => rfl
  | some id => exact congrArg ([·]) (huncounted _)

/-- Both maps are asked the same, and tell of the same entries. -/
theorem perform_evict (h : Shadows keep c c') (hc : c.Sound) {e : Eviction} (hstays : e.stays keep = true) :
    Shadows keep (c.perform (.evict e)).2 (c'.perform (.evict e)).2 ∧
      (c'.perform (.evict e)).1.map uncounted = todoWithin keep c (c.perform (.evict e)).1 := by
  cases e with
  | invalidate key => exact ⟨h, h.found hc hstays (fun _ => rfl) (fun _ => rfl) fun _ => rfl⟩
  | remove key => exact ⟨h.erase key, h.found hc hstays (fun _ => rfl) (fun _ => rfl) fun _ => rfl⟩
  | tier t =>
    refine ⟨h, ?_⟩
    simp only [Cache.perform]
    rw [todoWithin_of_stays _ rfl, within, ← h.entriesOf hc]
    rfl
  | under directory =>
    refine ⟨h, ?_⟩
    simp only [Cache.perform]
    rw [h.keysUnder, todoWithin, List.filter_map, List.map_map, List.map_map]
    rfl
  | reset =>
    refine ⟨h, ?_⟩
    simp only [Cache.perform]
    rw [todoWithin_of_stays _ rfl, within, ← h.values hc]
    rfl

/-- **A step of an eviction at what is kept is a step in both caches.** It leaves the same to do. -/
theorem perform (h : Shadows keep c c') (hc : c.Sound) (hids : ∀ id ∈ chore.ids, id < c.entries.length)
    (hacts : chore.acts keep c = true) (hsame : chore'.uncounted = chore.within keep c) :
    Shadows keep (c.perform chore).2 (c'.perform chore').2 ∧
      (c'.perform chore').1.map uncounted = todoWithin keep c (c.perform chore).1 := by
  cases chore with
  | evict e =>
    obtain rfl : chore' = .evict e := by cases chore' <;> first | exact hsame | cases hsame
    exact h.perform_evict hc hacts
  | invalidate id =>
    obtain rfl : chore' = .invalidate (c.entryNo keep id) := by
      cases chore' <;> first | exact hsame | cases hsame
    obtain ⟨e, he, hk⟩ := entry_of_stays hacts (hids id List.mem_cons_self)
    obtain ⟨hdrop, hcascade⟩ := h.drop he hk
    obtain ⟨hwithin, hcount⟩ := todoWithin_cascadeChores keep c (c.dropEntry id).2 id
    rw [chores_invalidate, chores_invalidate, hcascade, hwithin, hcount]
    exact ⟨hdrop.counts _ _ _ _ _ _, rfl⟩
  | remove id =>
    obtain rfl : chore' = .remove (c.entryNo keep id) := by
      cases chore' <;> first | exact hsame | cases hsame
    obtain ⟨e, he, hk⟩ := entry_of_stays hacts (hids id List.mem_cons_self)
    obtain ⟨hdrop, hcascade⟩ := h.drop he hk
    obtain ⟨hwithin, hcount⟩ := todoWithin_cascadeChores keep c (c.dropEntry id).2 id
    rw [chores_remove, chores_remove, hcascade, hwithin, hcount]
    exact ⟨(hdrop.count _ _).count' _ _, rfl⟩
  | drop ids n =>
    obtain ⟨n', rfl⟩ : ∃ n', chore' = .drop ((ids.filter (c.stays keep)).map (c.entryNo keep)) n' := by
      cases chore' <;> cases hsame
      exact ⟨_, rfl⟩
    cases ids with
    | nil => exact ⟨h.counts _ _ _ _ _ _, rfl⟩
    | cons id rest =>
      have hstays : c.stays keep id = true := hacts
      obtain ⟨e, he, hk⟩ := entry_of_stays hacts (hids id List.mem_cons_self)
      rw [List.filter_cons_of_pos hstays, List.map_cons]
      exact ⟨h.dropEntry he hk, rfl⟩
  | clear ids =>
    obtain rfl : chore' = .clear ((ids.filter (c.stays keep)).map (c.entryNo keep)) := by
      cases chore' <;> first | exact hsame | cases hsame
    exact ⟨h.clear, rfl⟩
  | reset ids n =>
    obtain ⟨n', rfl⟩ : ∃ n', chore' = .reset ((ids.filter (c.stays keep)).map (c.entryNo keep)) n' := by
      cases chore' <;> cases hsame
      exact ⟨_, rfl⟩
    cases ids with
    | nil => exact ⟨(h.count _ _).count' _ _, rfl⟩
    | cons id rest =>
      have hstays : c.stays keep id = true := hacts
      obtain ⟨e, he, hk⟩ := entry_of_stays hacts (hids id List.mem_cons_self)
      rw [List.filter_cons_of_pos hstays, List.map_cons]
      exact ⟨h.dropEntry he hk, rfl⟩

/-- **Of any other step of an eviction the smaller cache knows nothing.** -/
theorem perform_gone (h : Shadows keep c c') (hids : ∀ id ∈ chore.ids, id < c.entries.length)
    (hacts : chore.acts keep c = false) : Shadows keep (c.perform chore).2 c' := by
  have hworked := worked_perform c chore
  generalize (c.perform chore).2 = d at hworked ⊢
  induction hworked with
  | asked => exact h
  | forgot key hchore =>
    subst hchore
    exact h.erase_gone hacts
  | cleared ids hchore =>
    subst hchore
    cases hacts
  | dropped id htakes =>
    obtain ⟨e, he, hk⟩ := entry_of_not_stays (htakes.acts_eq ▸ hacts) (hids id htakes.mem_ids)
    exact h.dropEntry_gone he hk
  | counted _ _ _ ih => exact ih.count _ _

end Shadows

end Cache

/-! ## A system without the other keys -/

namespace Call

/-- The call with its entry and its build under their numbers in the smaller cache. -/
def within (keep : String → Bool) (c : Cache α) (call : Call α) : Call α :=
  { call with
    entry := c.entryNo keep call.entry
    found := call.found.map (Lookup.renumber (c.flightNo keep)) }

theorem awaits_within (keep : String → Bool) (c : Cache α) (call : Call α) :
    (call.within keep c).awaits = call.awaits.map (c.flightNo keep) := by
  unfold awaits within
  dsimp only
  split
  · cases call.found with
    | none => rfl
    | some found => exact Lookup.generation?_renumber _ _
  · rfl

theorem within_looked {c d : Cache α} {call : Call α}
    (hentry : d.entryNo keep call.entry = c.entryNo keep call.entry) (state : EntryState α)
    (found : Lookup α) (f : Generation → Generation) :
    (call.looked (some state) found).within keep d =
      (call.within keep c).looked (some (state.renumber f)) (found.renumber (d.flightNo keep)) := by
  unfold looked within
  simp only [hentry, Option.map_some, EntryState.status_renumber]
  cases found <;> rfl

/-- Calls keep the numbers of their entries and builds. -/
theorem within_of_extends {c d : Cache α} {call : Call α} (hlinked : call.Linked c) (hc : c.Sound)
    (he : Cache.Extends c d) : call.within keep d = call.within keep c := by
  obtain ⟨e, hentry, -⟩ := hlinked.entry
  have hid : call.entry < c.entries.length := (List.getElem?_eq_some_iff.1 hentry).1
  have hfound : call.found.map (Lookup.renumber (d.flightNo keep)) =
      call.found.map (Lookup.renumber (c.flightNo keep)) := by
    cases hf : call.found with
    | none => rfl
    | some found =>
      refine congrArg some (Lookup.renumber_congr fun g hg => ?_)
      obtain ⟨f, hflight, -⟩ := hlinked.awaited found g hf hg
      exact Cache.flightNo_of_extends keep hc he
        (Nat.le_of_lt (List.getElem?_eq_some_iff.1 hflight).1)
  unfold within
  rw [hfound, Cache.entryNo_of_extends keep he (Nat.le_of_lt hid)]

end Call

namespace Sweep

/-- The eviction with what it has to do, and without what it has done. -/
def bare (sweep : Sweep) : Eviction × List Chore := (sweep.eviction, sweep.todo.map Chore.uncounted)

/-- The eviction with what it has to do for the keys that are kept. -/
def within (keep : String → Bool) (c : Cache α) (sweep : Sweep) : Eviction × List Chore :=
  (sweep.eviction, Chore.todoWithin keep c sweep.todo)

end Sweep

namespace System

variable {s s' t : System α} {a : Action α}

/-- Whether an action belongs to a key that is kept, or to no key. A step of an eviction of many keys belongs
to the key that it comes upon. -/
def stays (keep : String → Bool) (s : System α) : Action α → Bool
  | .enter unit _ => keep unit.key
  | .look n | .answer n | .leave n => (s.calls[n]?).any fun call => keep call.unit.key
  | .finish g _ => (s.cache.flights[g]?).any fun f => s.cache.stays keep f.entry
  | .evict e => e.stays keep
  | .sweep m => (s.sweeps[m]?).any fun sweep =>
      sweep.eviction.stays keep && (sweep.todo.head?).any (Chore.acts keep s.cache)

/-- The number of a call among those for the keys that are kept. -/
def callNo (keep : String → Bool) (s : System α) (n : Nat) : Nat :=
  rank (fun call => keep call.unit.key) s.calls n

/-- The number of an eviction among those that are not about other keys. -/
def sweepNo (keep : String → Bool) (s : System α) (m : Nat) : Nat :=
  rank (fun sweep => sweep.eviction.stays keep) s.sweeps m

/-- The action, with calls, builds and evictions under their numbers in the smaller system. -/
def renumbered (keep : String → Bool) (s : System α) : Action α → Action α
  | .enter unit tier => .enter unit tier
  | .look n => .look (s.callNo keep n)
  | .finish g ending => .finish (s.cache.flightNo keep g) ending
  | .answer n => .answer (s.callNo keep n)
  | .leave n => .leave (s.callNo keep n)
  | .evict e => .evict e
  | .sweep m => .sweep (s.sweepNo keep m)

/-- Whether a system is another one without the keys that are not kept. -/
structure Shadows (keep : String → Bool) (s s' : System α) : Prop where
  cache : Cache.Shadows keep s.cache s'.cache
  calls : s'.calls = (s.calls.filter fun call => keep call.unit.key).map (Call.within keep s.cache)
  sweeps : s'.sweeps.map Sweep.bare =
    (s.sweeps.filter fun sweep => sweep.eviction.stays keep).map (Sweep.within keep s.cache)

/-- Whether nothing but the other keys themselves depends on them: no leaves follow their entries, and
evictions that are about them come upon no others. -/
structure Apart (keep : String → Bool) (s : System α) : Prop where
  sound : s.Sound
  tiers : ∀ (id : Nat) (e : Entry α), s.cache.entries[id]? = some e → keep e.identity.key = false →
    e.tier ≠ .siteGlobal
  known : ∀ (m : Nat) (sweep : Sweep), s.sweeps[m]? = some sweep →
    ∀ chore ∈ sweep.todo, ∀ id ∈ chore.ids, id < s.cache.entries.length
  gone : ∀ (m : Nat) (sweep : Sweep), s.sweeps[m]? = some sweep → sweep.eviction.stays keep = false →
    Chore.todoWithin keep s.cache sweep.todo = []

theorem apart_start (keep : String → Bool) (timeLimit : Nat) :
    (start timeLimit : System α).Apart keep :=
  ⟨sound_start timeLimit, fun _ _ h => by simp [start] at h, fun _ _ h => by simp [start] at h,
    fun _ _ h => by simp [start] at h⟩

theorem shadows_start (keep : String → Bool) (timeLimit : Nat) :
    Shadows keep (start timeLimit : System α) (start timeLimit) :=
  ⟨Cache.shadows_empty keep timeLimit, rfl, rfl⟩

/-- An eviction that is about another key does nothing for the keys that are kept. -/
theorem Apart.not_acts (h : s.Apart keep) {m : Nat} {sweep : Sweep} (hsweep : s.sweeps[m]? = some sweep)
    {chore : Chore} {rest : List Chore} (htodo : sweep.todo = chore :: rest)
    (hgone : sweep.eviction.stays keep = false) : chore.acts keep s.cache = false := by
  have hnone := h.gone m sweep hsweep hgone
  rw [htodo, Chore.todoWithin_cons, List.append_eq_nil_iff] at hnone
  refine Bool.eq_false_iff.2 fun hacts => ?_
  have hone := Chore.todoWithin_of_stays chore (Chore.stays_of_acts hacts)
  rw [hnone.1] at hone
  cases hone

/-- What an eviction has to do first is about entries that there are. -/
theorem Apart.known_first (h : s.Apart keep) {m : Nat} {sweep : Sweep} (hsweep : s.sweeps[m]? = some sweep)
    {chore : Chore} {rest : List Chore} (htodo : sweep.todo = chore :: rest) :
    ∀ id ∈ chore.ids, id < s.cache.entries.length :=
  h.known m sweep hsweep chore (htodo ▸ List.mem_cons_self)

/-- So is what it leaves to do when it has done that. -/
theorem Apart.known_left (h : s.Apart keep) {m : Nat} {sweep : Sweep} (hsweep : s.sweeps[m]? = some sweep)
    {chore : Chore} {rest : List Chore} (htodo : sweep.todo = chore :: rest) :
    ∀ next ∈ (s.cache.perform chore).1 ++ rest, ∀ id ∈ next.ids, id < s.cache.entries.length := by
  intro next hnext
  rcases List.mem_append.1 hnext with hnew | hold
  · exact Cache.ids_perform h.sound.cache (h.known_first hsweep htodo) hnew
  · exact h.known m sweep hsweep next (htodo ▸ List.mem_cons_of_mem _ hold)

/-- The other keys stay apart, whatever happens. -/
theorem Apart.step (h : s.Apart keep) (hstep : s.step a = some t)
    (htier : ∀ unit tier, a = .enter unit tier → keep unit.key = false → tier ≠ .siteGlobal) :
    t.Apart keep := by
  have hext := (step_moves h.sound hstep).extends
  refine ⟨step_sound h.sound hstep, fun id e he hk => ?_, fun m sweep hsweep => ?_,
    fun m sweep hsweep hgone => ?_⟩
  · rcases entry_step_cases h.sound hstep he with ⟨before, hbefore, hi, ht⟩ | rfl
    · rw [ht]
      exact h.tiers id before hbefore (hi ▸ hk)
    · exact htier _ _ rfl hk
  · rcases sweep_step_cases hstep hsweep with hold | ⟨-, htodo⟩ |
      ⟨before, chore, rest, hbefore, -, htodo, -, htodo'⟩
    · intro chore hchore id hid
      exact Nat.lt_of_lt_of_le (h.known m sweep hold chore hchore id hid) hext.length_entries
    · intro chore hchore id hid
      rw [htodo] at hchore
      cases List.mem_singleton.1 hchore
      cases hid
    · intro next hnext id hid
      rw [htodo'] at hnext
      exact Nat.lt_of_lt_of_le (h.known_left hbefore htodo next hnext id hid) hext.length_entries
  · rcases sweep_step_cases hstep hsweep with hold | ⟨-, htodo⟩ |
      ⟨before, chore, rest, hbefore, heviction, htodo, -, htodo'⟩
    · rw [Chore.todoWithin_of_extends hext (h.known m sweep hold)]
      exact h.gone m sweep hold hgone
    · rw [htodo]
      exact Chore.todoWithin_of_not_stays (.evict _) hgone
    · have hnone := h.gone m before hbefore (heviction ▸ hgone)
      rw [htodo, Chore.todoWithin_cons, List.append_eq_nil_iff] at hnone
      have hacts := h.not_acts hbefore htodo (heviction ▸ hgone)
      have hmore := Cache.todoWithin_perform h.sound.cache (h.known_first hbefore htodo) h.tiers hacts
      have hall : Chore.todoWithin keep s.cache ((s.cache.perform chore).1 ++ rest) = [] := by
        rw [Chore.todoWithin_append, hmore, hnone.1, hnone.2, List.append_nil]
      rw [htodo', Chore.todoWithin_of_extends hext (h.known_left hbefore htodo), hall]

/-! ## One action -/

section Actions

variable {n m : Nat} {call : Call α} {sweep : Sweep}

/-- The calls of a system keep the numbers of their entries and builds. -/
theorem Apart.map_calls (ha : s.Apart keep) {c : Cache α} (he : Cache.Extends s.cache c) :
    (s.calls.filter fun call => keep call.unit.key).map (Call.within keep c) =
      (s.calls.filter fun call => keep call.unit.key).map (Call.within keep s.cache) := by
  refine List.map_congr_left fun call hmem => ?_
  obtain ⟨n, hn⟩ := List.mem_iff_getElem?.1 (List.mem_filter.1 hmem).1
  exact Call.within_of_extends (ha.sound.calls n call hn) ha.sound.cache he

/-- The evictions of a system keep the numbers of their entries. -/
theorem Apart.map_sweeps (ha : s.Apart keep) {c : Cache α} (he : Cache.Extends s.cache c) :
    (s.sweeps.filter fun sweep => sweep.eviction.stays keep).map (Sweep.within keep c) =
      (s.sweeps.filter fun sweep => sweep.eviction.stays keep).map (Sweep.within keep s.cache) := by
  refine List.map_congr_left fun sweep hmem => ?_
  obtain ⟨m, hm⟩ := List.mem_iff_getElem?.1 (List.mem_filter.1 hmem).1
  exact congrArg (Prod.mk sweep.eviction) (Chore.todoWithin_of_extends he (ha.known m sweep hm))

/-- What a call does belongs to its key. -/
theorem stays_of_call (hcall : s.calls[n]? = some call) (hkey : a = .look n ∨ a = .answer n ∨ a = .leave n) :
    s.stays keep a = keep call.unit.key := by
  rcases hkey with rfl | rfl | rfl <;> simp only [stays, hcall, Option.any_some]

/-- A call has the entry of its key. -/
theorem Sound.entry_of_call (hs : s.Sound) (keep : String → Bool) (hcall : s.calls[n]? = some call) :
    ∃ e, s.cache.entries[call.entry]? = some e ∧ keep e.identity.key = keep call.unit.key := by
  obtain ⟨e, he, hkey⟩ := (hs.calls n call hcall).entry
  exact ⟨e, he, by rw [hkey]⟩

/-- The build that a caller waits for is that of the caller's key. -/
theorem Sound.flight_of_awaits (hs : s.Sound) (keep : String → Bool) (hcall : s.calls[n]? = some call)
    {g : Generation} (hg : call.awaits = some g) :
    ∃ f, s.cache.flights[g]? = some f ∧ s.cache.stays keep f.entry = keep call.unit.key := by
  obtain ⟨-, -, found, hfound, hgen⟩ := Call.awaits_eq_some hg
  obtain ⟨f, hf, hentry⟩ := (hs.calls n call hcall).awaited found g hfound hgen
  obtain ⟨e, he, hkey⟩ := hs.entry_of_call keep hcall
  exact ⟨f, hf, by rw [hentry, Cache.stays_eq keep he, hkey]⟩

namespace Shadows

/-- A call for a key that is kept has a number in the smaller system. -/
theorem getElem?_calls (h : Shadows keep s s') (hcall : s.calls[n]? = some call)
    (hk : keep call.unit.key = true) :
    s'.calls[s.callNo keep n]? = some (call.within keep s.cache) := by
  rw [h.calls, List.getElem?_map, callNo,
    getElem?_filter_rank (p := fun call : Call α => keep call.unit.key) hcall hk, Option.map_some]

/-- An eviction that is not about another key has a number in the smaller system. -/
theorem getElem?_sweeps (h : Shadows keep s s') (hsweep : s.sweeps[m]? = some sweep)
    (hk : sweep.eviction.stays keep = true) :
    ∃ sweep', s'.sweeps[s.sweepNo keep m]? = some sweep' ∧ sweep'.bare = sweep.within keep s.cache := by
  refine Option.map_eq_some_iff.1 ?_
  rw [← List.getElem?_map, h.sweeps, List.getElem?_map, sweepNo,
    getElem?_filter_rank (p := fun sweep : Sweep => sweep.eviction.stays keep) hsweep hk,
    Option.map_some]

/-- Both systems change a call. -/
theorem set_call (h : Shadows keep s s') (ha : s.Apart keep) (hcall : s.calls[n]? = some call)
    (hk : keep call.unit.key = true) {c c' : Cache α} (hcache : Cache.Shadows keep c c')
    (he : Cache.Extends s.cache c) (call₁ : Call α) (hunit : call₁.unit = call.unit) :
    Shadows keep { s with cache := c, calls := s.calls.set n call₁ }
      { s' with cache := c', calls := s'.calls.set (s.callNo keep n) (call₁.within keep c) } := by
  refine ⟨hcache, ?_, h.sweeps.trans (ha.map_sweeps he).symm⟩
  have hset := filter_set (p := fun call : Call α => keep call.unit.key) (y := call₁) hcall hk
    (by rw [hunit, hk])
  refine Eq.trans ?_ (congrArg (List.map (Call.within keep c)) hset).symm
  rw [List.map_set, ha.map_calls he, ← h.calls]
  rfl

/-- The smaller system does not know a call for another key. -/
theorem set_call_gone (h : Shadows keep s s') (ha : s.Apart keep) (hcall : s.calls[n]? = some call)
    (hk : keep call.unit.key = false) {c : Cache α} (hcache : Cache.Shadows keep c s'.cache)
    (he : Cache.Extends s.cache c) (call₁ : Call α) (hunit : call₁.unit = call.unit) :
    Shadows keep { s with cache := c, calls := s.calls.set n call₁ } s' := by
  refine ⟨hcache, ?_, h.sweeps.trans (ha.map_sweeps he).symm⟩
  have hset := filter_set_of_neg (p := fun call : Call α => keep call.unit.key) (y := call₁) hcall hk
    (by rw [hunit, hk])
  refine Eq.trans ?_ (congrArg (List.map (Call.within keep c)) hset).symm
  rw [ha.map_calls he, ← h.calls]

/-- Both systems have a call look at its entry. -/
theorem step_look (h : Shadows keep s s') (ha : s.Apart keep) (hcall : s.calls[n]? = some call)
    (hfound : call.found = none) (hk : keep call.unit.key = true) :
    ∃ t', s'.step (.look (s.callNo keep n)) = some t' ∧ Shadows keep { s with
      cache := (s.cache.look call.entry call.tier).2
      calls := s.calls.set n (call.looked (s.cache.state? call.entry)
        (s.cache.look call.entry call.tier).1) } t' := by
  have hext := (step_moves ha.sound (step_of_look hcall hfound)).extends
  obtain ⟨e, he, hkey⟩ := ha.sound.entry_of_call keep hcall
  obtain ⟨hcache, hlook⟩ := h.cache.look ha.sound.cache he (hkey.trans hk) call.tier
  have hfound' : (call.within keep s.cache).found = none := by
    rw [Call.within, hfound, Option.map_none]
  have hs : s.cache.state? call.entry = some e.state := Cache.state?_of_entry he
  have hentry := Cache.entryNo_of_extends keep hext (Nat.le_of_lt (ha.sound.entry_lt hcall))
  have hlooked := Call.within_looked hentry e.state (s.cache.look call.entry call.tier).1
    (s.cache.flightNo keep)
  rw [← hlook, ← hs, ← h.cache.state? he (hkey.trans hk)] at hlooked
  refine ⟨_, step_of_look (h.getElem?_calls hcall hk) hfound', ?_⟩
  have hboth := h.set_call ha hcall hk hcache hext
    (call.looked (s.cache.state? call.entry) (s.cache.look call.entry call.tier).1) rfl
  rw [hlooked] at hboth
  exact hboth

/-- Both systems answer a call. -/
theorem step_answer (h : Shadows keep s s') (ha : s.Apart keep) (hcall : s.calls[n]? = some call)
    {g : Generation} {r : Except Failure α} (hg : call.awaits = some g) (hr : s.cache.result? g = some r)
    (hk : keep call.unit.key = true) :
    ∃ t', s'.step (.answer (s.callNo keep n)) = some t' ∧ Shadows keep { s with
      cache := s.cache.publish g
      calls := s.calls.set n { call with result := some r } } t' := by
  have hext := (step_moves ha.sound (step_of_answer hcall hg hr)).extends
  obtain ⟨f, hf, hflight⟩ := ha.sound.flight_of_awaits keep hcall hg
  have hg' : (call.within keep s.cache).awaits = some (s.cache.flightNo keep g) := by
    rw [Call.awaits_within, hg, Option.map_some]
  have hr' : s'.cache.result? (s.cache.flightNo keep g) = some r :=
    (h.cache.result? hf (hflight.trans hk)).trans hr
  refine ⟨_, step_of_answer (h.getElem?_calls hcall hk) hg' hr', ?_⟩
  have hboth := h.set_call ha hcall hk (h.cache.publish ha.sound.cache hf (hflight.trans hk)) hext
    { call with result := some r } rfl
  have hwithin : call.within keep (s.cache.publish g) = call.within keep s.cache :=
    Call.within_of_extends (ha.sound.calls n call hcall) ha.sound.cache hext
  rw [show ({ call with result := some r } : Call α).within keep (s.cache.publish g) =
    { call.within keep (s.cache.publish g) with result := some r } from rfl] at hboth
  rw [hwithin] at hboth
  exact hboth

/-- Both systems go on with an eviction. -/
theorem step_sweep (h : Shadows keep s s') (ha : s.Apart keep) (hsweep : s.sweeps[m]? = some sweep)
    {chore : Chore} {rest : List Chore} (htodo : sweep.todo = chore :: rest)
    (hstays : sweep.eviction.stays keep = true) (hacts : chore.acts keep s.cache = true) :
    ∃ t', s'.step (.sweep (s.sweepNo keep m)) = some t' ∧ Shadows keep { s with
      cache := (s.cache.perform chore).2
      sweeps := s.sweeps.set m { sweep with
        todo := (s.cache.perform chore).1 ++ rest
        did := chore :: sweep.did } } t' := by
  have hext := (step_moves ha.sound (step_of_sweep hsweep htodo)).extends
  -- the smaller system has the same eviction, with the same chore to do first
  obtain ⟨sweep', hsweep', hbare⟩ := h.getElem?_sweeps hsweep hstays
  have htodo' : sweep'.todo.map Chore.uncounted =
      chore.within keep s.cache :: Chore.todoWithin keep s.cache rest := by
    rw [show sweep'.todo.map Chore.uncounted = _ from congrArg Prod.snd hbare]
    rw [Sweep.within, htodo, Chore.todoWithin_cons,
      Chore.todoWithin_of_stays chore (Chore.stays_of_acts hacts)]
    rfl
  obtain ⟨chore', rest', hcons, hchore, hrest⟩ := List.map_eq_cons_iff.1 htodo'
  obtain ⟨hcache, hmore⟩ := h.cache.perform ha.sound.cache (ha.known_first hsweep htodo) hacts hchore
  refine ⟨_, step_of_sweep hsweep' hcons, hcache, h.calls.trans (ha.map_calls hext).symm, ?_⟩
  have hset := filter_set (p := fun sweep : Sweep => sweep.eviction.stays keep)
    (y := { sweep with
      todo := (s.cache.perform chore).1 ++ rest
      did := chore :: sweep.did }) hsweep hstays hstays
  refine Eq.trans ?_ (congrArg (List.map (Sweep.within keep (s.cache.perform chore).2)) hset).symm
  rw [List.map_set, List.map_set, ha.map_sweeps hext, ← h.sweeps]
  have heviction : sweep'.eviction = sweep.eviction := congrArg Prod.fst hbare
  refine congrArg (List.set _ _) (Prod.ext heviction ?_)
  rw [Sweep.bare, Sweep.within, Chore.todoWithin_of_extends hext (ha.known_left hsweep htodo),
    Chore.todoWithin_append, List.map_append, hmore, hrest]

/-- **An action at what is kept is possible in the smaller system**, and the systems stay together. -/
theorem step (h : Shadows keep s s') (ha : s.Apart keep) (hstep : s.step a = some t)
    (hstays : s.stays keep a = true) :
    ∃ t', s'.step (s.renumbered keep a) = some t' ∧ Shadows keep t t' := by
  have hext := (step_moves ha.sound hstep).extends
  cases a with
  | enter unit tier =>
    obtain rfl := step_enter hstep
    obtain ⟨hcache, hentry⟩ := h.cache.enter ha.sound.cache hstays tier
    refine ⟨_, step_of_enter s' unit tier, hcache, ?_, h.sweeps.trans (ha.map_sweeps hext).symm⟩
    have hlist := filter_concat_of_pos (p := fun call : Call α => keep call.unit.key) s.calls
      (x := { unit, tier, entry := (s.cache.enter unit tier).1 }) hstays
    refine Eq.trans ?_ (congrArg (List.map (Call.within keep _)) hlist).symm
    rw [List.map_append, ha.map_calls hext, ← h.calls, hentry]
    rfl
  | look n =>
    obtain ⟨call, hcall, hfound, rfl⟩ := System.step_look hstep
    exact h.step_look ha hcall hfound ((stays_of_call hcall (.inl rfl)).symm.trans hstays)
  | finish g ending =>
    obtain ⟨hrun, rfl⟩ := step_finish hstep
    obtain ⟨f, hf, -⟩ := (Cache.isRunning_iff _ _).1 hrun
    have hk : s.cache.stays keep f.entry = true := by
      rw [stays, hf] at hstays
      exact hstays
    refine ⟨_, step_of_finish ((h.cache.isRunning hf hk).trans hrun) ending, ?_⟩
    exact ⟨h.cache.finish ha.sound.cache hrun hf hk ending, h.calls.trans (ha.map_calls hext).symm,
      h.sweeps.trans (ha.map_sweeps hext).symm⟩
  | answer n =>
    obtain ⟨call, g, r, hcall, hg, hr, rfl⟩ := System.step_answer hstep
    exact h.step_answer ha hcall hg hr ((stays_of_call hcall (.inr (.inl rfl))).symm.trans hstays)
  | leave n =>
    obtain ⟨call, g, hcall, hg, rfl⟩ := step_leave hstep
    have hk := (stays_of_call hcall (.inr (.inr rfl))).symm.trans hstays
    have hg' : (call.within keep s.cache).awaits = some (s.cache.flightNo keep g) := by
      rw [Call.awaits_within, hg, Option.map_some]
    refine ⟨_, step_of_leave (h.getElem?_calls hcall hk) hg', ?_⟩
    exact h.set_call ha hcall hk h.cache hext { call with left := true } rfl
  | evict e =>
    cases hstep
    refine ⟨_, rfl, h.cache, h.calls, ?_⟩
    have hlist := filter_concat_of_pos (p := fun sweep : Sweep => sweep.eviction.stays keep) s.sweeps
      (x := { eviction := e, todo := [.evict e] }) hstays
    refine Eq.trans ?_ (congrArg (List.map (Sweep.within keep s.cache)) hlist).symm
    have hnew : Sweep.within keep s.cache { eviction := e, todo := [.evict e] } = (e, [.evict e]) :=
      congrArg (Prod.mk e) (Chore.todoWithin_of_stays (.evict e) hstays)
    rw [List.map_append, List.map_append, h.sweeps, List.map_cons, List.map_cons, hnew]
    rfl
  | sweep m =>
    obtain ⟨sweep, chore, rest, hsweep, htodo, rfl⟩ := System.step_sweep hstep
    have hboth : sweep.eviction.stays keep = true ∧ chore.acts keep s.cache = true := by
      rw [stays, hsweep, Option.any_some, htodo, Bool.and_eq_true] at hstays
      exact hstays
    exact h.step_sweep ha hsweep htodo hboth.1 hboth.2

/-- The smaller system does not know a step of an eviction at another key. -/
theorem step_sweep_gone (h : Shadows keep s s') (ha : s.Apart keep) (hsweep : s.sweeps[m]? = some sweep)
    {chore : Chore} {rest : List Chore} (htodo : sweep.todo = chore :: rest)
    (hacts : chore.acts keep s.cache = false) : Shadows keep { s with
      cache := (s.cache.perform chore).2
      sweeps := s.sweeps.set m { sweep with
        todo := (s.cache.perform chore).1 ++ rest
        did := chore :: sweep.did } } s' := by
  have hext := (step_moves ha.sound (step_of_sweep hsweep htodo)).extends
  refine ⟨h.cache.perform_gone (ha.known_first hsweep htodo) hacts,
    h.calls.trans (ha.map_calls hext).symm, ?_⟩
  cases hk : sweep.eviction.stays keep with
  | false =>
    have hset := filter_set_of_neg (p := fun sweep : Sweep => sweep.eviction.stays keep)
      (y := { sweep with
        todo := (s.cache.perform chore).1 ++ rest
        did := chore :: sweep.did }) hsweep hk hk
    refine Eq.trans ?_ (congrArg (List.map (Sweep.within keep (s.cache.perform chore).2)) hset).symm
    exact h.sweeps.trans (ha.map_sweeps hext).symm
  | true =>
    have hset := filter_set (p := fun sweep : Sweep => sweep.eviction.stays keep)
      (y := { sweep with
        todo := (s.cache.perform chore).1 ++ rest
        did := chore :: sweep.did }) hsweep hk hk
    refine Eq.trans ?_ (congrArg (List.map (Sweep.within keep (s.cache.perform chore).2)) hset).symm
    rw [List.map_set, ha.map_sweeps hext, ← h.sweeps]
    -- the eviction has the same left to do for the keys that are kept
    have hsame : Sweep.within keep (s.cache.perform chore).2 { sweep with
        todo := (s.cache.perform chore).1 ++ rest
        did := chore :: sweep.did } = sweep.within keep s.cache := by
      rw [Sweep.within, Sweep.within, htodo, Chore.todoWithin_cons,
        ← Cache.todoWithin_perform ha.sound.cache (ha.known_first hsweep htodo) ha.tiers hacts,
        ← Chore.todoWithin_append, Chore.todoWithin_of_extends hext (ha.known_left hsweep htodo)]
    obtain ⟨sweep', hsweep', hbare⟩ := h.getElem?_sweeps hsweep hk
    have hat : (s'.sweeps.map Sweep.bare)[s.sweepNo keep m]? = some (sweep.within keep s.cache) := by
      rw [List.getElem?_map, hsweep', Option.map_some, hbare]
    obtain ⟨hlt, hself⟩ := List.getElem?_eq_some_iff.1 hat
    rw [hsame, ← hself]
    exact (List.set_getElem_self hlt).symm

/-- **Of any other action the smaller system knows nothing.** -/
theorem step_gone (h : Shadows keep s s') (ha : s.Apart keep) (hstep : s.step a = some t)
    (hstays : s.stays keep a = false) : Shadows keep t s' := by
  have hext := (step_moves ha.sound hstep).extends
  cases a with
  | enter unit tier =>
    obtain rfl := step_enter hstep
    refine ⟨h.cache.enter_gone ha.sound.cache hstays tier, ?_, h.sweeps.trans (ha.map_sweeps hext).symm⟩
    have hlist := filter_concat_of_neg (p := fun call : Call α => keep call.unit.key) s.calls
      (x := { unit, tier, entry := (s.cache.enter unit tier).1 }) hstays
    refine Eq.trans ?_ (congrArg (List.map (Call.within keep _)) hlist).symm
    exact h.calls.trans (ha.map_calls hext).symm
  | look n =>
    obtain ⟨call, hcall, -, rfl⟩ := System.step_look hstep
    have hk := (stays_of_call hcall (.inl rfl)).symm.trans hstays
    obtain ⟨e, he, hkey⟩ := ha.sound.entry_of_call keep hcall
    exact h.set_call_gone ha hcall hk
      (h.cache.look_gone ha.sound.cache he (hkey.trans hk) call.tier) hext _ rfl
  | finish g ending =>
    obtain ⟨hrun, rfl⟩ := step_finish hstep
    obtain ⟨f, hf, -⟩ := (Cache.isRunning_iff _ _).1 hrun
    have hk : s.cache.stays keep f.entry = false := by
      rw [stays, hf] at hstays
      exact hstays
    exact ⟨h.cache.finish_gone hrun hf hk ending, h.calls.trans (ha.map_calls hext).symm,
      h.sweeps.trans (ha.map_sweeps hext).symm⟩
  | answer n =>
    obtain ⟨call, g, r, hcall, hg, -, rfl⟩ := System.step_answer hstep
    have hk := (stays_of_call hcall (.inr (.inl rfl))).symm.trans hstays
    obtain ⟨f, hf, hflight⟩ := ha.sound.flight_of_awaits keep hcall hg
    exact h.set_call_gone ha hcall hk (h.cache.publish_gone hf (hflight.trans hk)) hext _ rfl
  | leave n =>
    obtain ⟨call, g, hcall, -, rfl⟩ := step_leave hstep
    have hk := (stays_of_call hcall (.inr (.inr rfl))).symm.trans hstays
    exact h.set_call_gone ha hcall hk h.cache hext _ rfl
  | evict e =>
    cases hstep
    refine ⟨h.cache, h.calls, ?_⟩
    have hlist := filter_concat_of_neg (p := fun sweep : Sweep => sweep.eviction.stays keep) s.sweeps
      (x := { eviction := e, todo := [.evict e] }) hstays
    exact h.sweeps.trans (congrArg (List.map (Sweep.within keep s.cache)) hlist).symm
  | sweep m =>
    obtain ⟨sweep, chore, rest, hsweep, htodo, rfl⟩ := System.step_sweep hstep
    refine h.step_sweep_gone ha hsweep htodo ?_
    cases hk : sweep.eviction.stays keep with
    | false => exact ha.not_acts hsweep htodo hk
    | true =>
      rw [stays, hsweep, Option.any_some, htodo, hk, Bool.true_and] at hstays
      exact hstays

end Shadows

end Actions

/-! ## Whole runs -/

/-- The run without the actions that do not belong to the keys that are kept. What is not possible is no
part of a run. -/
def without (keep : String → Bool) (s : System α) : List (Action α) → List (Action α)
  | [] => []
  | a :: rest =>
    (if (s.step a).isSome && s.stays keep a then [s.renumbered keep a] else []) ++
      without keep (s.act a) rest

/-- The smaller run of a longer run begins with the smaller run. -/
theorem without_append (keep : String → Bool) (s : System α) (xs ys : List (Action α)) :
    s.without keep (xs ++ ys) = s.without keep xs ++ (s.run xs).without keep ys := by
  induction xs generalizing s with
  | nil => rfl
  | cons a rest ih =>
    rw [List.cons_append, without, without, ih, List.append_assoc]
    rfl

/-- **A run and the smaller run stay together.** -/
theorem Shadows.run {actions : List (Action α)} (h : Shadows keep s s') (ha : s.Apart keep)
    (htier : ∀ unit tier, .enter unit tier ∈ actions → keep unit.key = false → tier ≠ .siteGlobal) :
    Shadows keep (s.run actions) (s'.run (s.without keep actions)) ∧ (s.run actions).Apart keep := by
  induction actions generalizing s s' with
  | nil => exact ⟨h, ha⟩
  | cons a rest ih =>
    have hrest := fun unit tier hmem => htier unit tier (List.mem_cons_of_mem a hmem)
    rw [without, System.run_append]
    cases hstep : s.step a with
    | none =>
      have hact : s.act a = s := act_of_none hstep
      have hnext := ih h ha hrest
      rw [← hact] at hnext
      exact hnext
    | some t =>
      have hact : s.act a = t := act_of_step hstep
      have hapart : t.Apart keep := ha.step hstep fun unit tier heq =>
        htier unit tier (heq ▸ List.mem_cons_self)
      rw [Option.isSome_some, Bool.true_and]
      cases hstays : s.stays keep a with
      | false =>
        have hnext := ih (h.step_gone ha hstep hstays) hapart hrest
        rw [← hact] at hnext
        exact hnext
      | true =>
        obtain ⟨t', hstep', hshadows⟩ := h.step ha hstep hstays
        have hact' : s'.act (s.renumbered keep a) = t' := act_of_step hstep'
        have hnext := ih hshadows hapart hrest
        rw [← hact, ← hact'] at hnext
        exact hnext

end System

/-- What became of a call: what it saw, whether it ran a build of its own, what it was told and whether
its caller stopped waiting. -/
structure Fate (α : Type) where
  unit : Identity
  tier : Tier
  saw : Option EntryStatus
  ran : Bool
  result : Option (Except Failure α)
  left : Bool

/-- What became of a call. -/
def Call.fate (call : Call α) : Fate α where
  unit := call.unit
  tier := call.tier
  saw := call.saw
  ran := call.ran.isSome
  result := call.result
  left := call.left

@[simp] theorem Call.fate_within (keep : String → Bool) (c : Cache α) (call : Call α) :
    (call.within keep c).fate = call.fate := by
  have hran : (call.within keep c).ran.isSome = call.ran.isSome := by
    unfold Call.ran Call.within
    cases call.found with
    | none => rfl
    | some found => cases found <;> rfl
  unfold Call.fate
  rw [hran]
  rfl

namespace System

/-- The calls of the smaller system are those for the keys that are kept, and the same became of them. -/
theorem Shadows.fates {s s' : System α} (h : Shadows keep s s') :
    s'.calls.map Call.fate = (s.calls.filter fun call => keep call.unit.key).map Call.fate := by
  rw [h.calls, List.map_map]
  exact List.map_congr_left fun call _ => Call.fate_within keep s.cache call

/-- **Keys are independent.** Let everything be left out of a run that belongs to some keys alone, none of
which is ever called for as the global unit's. Then at every point of the run:

* the smaller run has come to a point of its own, from which it goes on with what is left of the rest;
* an action that is not left out is possible there as well;
* every key that is kept has the same status;
* the calls for these keys are the same, each of them ran a build of its own or did not, and was told the
  same. -/
theorem keys_independent (timeLimit : Nat) (actions : List (Action α)) (keep : String → Bool)
    (htier : ∀ unit tier, .enter unit tier ∈ actions → keep unit.key = false → tier ≠ .siteGlobal) :
    ∀ (before after : List (Action α)) (s s' : System α), actions = before ++ after →
      s = (start timeLimit).run before →
      s' = (start timeLimit).run ((start timeLimit).without keep before) →
      (start timeLimit).without keep actions =
        (start timeLimit).without keep before ++ s.without keep after ∧
      (∀ a rest, after = a :: rest → (s.step a).isSome = true → s.stays keep a = true →
        (s'.step (s.renumbered keep a)).isSome = true) ∧
      (∀ key, keep key = true → s'.cache.status? key = s.cache.status? key) ∧
      s'.calls.map Call.fate = (s.calls.filter fun call => keep call.unit.key).map Call.fate := by
  rintro before after s s' rfl rfl rfl
  obtain ⟨hshadows, hapart⟩ := (shadows_start (α := α) keep timeLimit).run (apart_start keep timeLimit)
    fun unit tier hmem => htier unit tier (List.mem_append_left after hmem)
  refine ⟨without_append keep _ before after, ?_, ?_, hshadows.fates⟩
  · intro a rest _ hpossible hstays
    obtain ⟨t, hstep⟩ := Option.isSome_iff_exists.1 hpossible
    obtain ⟨t', hstep', -⟩ := hshadows.step hapart hstep hstays
    rw [hstep']
    rfl
  · intro key hk
    exact hshadows.cache.status? hapart.sound.cache hk

/-- One page is called for before another, and all leaves are invalidated while both are built. -/
def twoPages : List (Action Nat) :=
  [.enter ⟨"/site/a.ks", "Site.a"⟩ .leaf, .look 0, .enter ⟨"/site/b.ks", "Site.b"⟩ .leaf, .look 1,
    .evict (.tier .leaf), .sweep 0, .sweep 0, .finish 0 (.returned (.ok 7)), .sweep 0,
    .finish 1 (.returned (.ok 8)), .answer 1]

/-- Without the first page its call, its build and the step that drops its entry are left out. The second
page is invalidated as before, and its caller is told the same. -/
theorem keys_independent_two_pages :
    (start 1000).without (· == "/site/b.ks") twoPages =
      [.enter ⟨"/site/b.ks", "Site.b"⟩ .leaf, .look 0, .evict (.tier .leaf), .sweep 0, .sweep 0,
        .finish 0 (.returned (.ok 8)), .answer 0] ∧
    ((start 1000).run ((start 1000).without (· == "/site/b.ks") twoPages)).cache.status? "/site/b.ks" =
      some .invalidated ∧
    ((start 1000).run ((start 1000).without (· == "/site/b.ks") twoPages)).calls.map Call.fate =
      [⟨⟨"/site/b.ks", "Site.b"⟩, .leaf, some .empty, true, some (.ok 8), false⟩] := by
  have hleaf : ∀ unit tier, .enter unit tier ∈ twoPages → (unit.key == "/site/b.ks") = false →
      tier ≠ .siteGlobal := by
    intro unit tier hmem _
    simp only [twoPages, List.mem_cons, Action.enter.injEq, reduceCtorEq, false_or, or_false,
      List.not_mem_nil] at hmem
    rcases hmem with ⟨-, rfl⟩ | ⟨-, rfl⟩ <;> decide
  obtain ⟨-, -, hstatus, hfates⟩ := keys_independent 1000 twoPages (· == "/site/b.ks") hleaf twoPages []
    _ _ (List.append_nil _).symm rfl rfl
  refine ⟨rfl, ?_, ?_⟩
  · rw [hstatus "/site/b.ks" rfl]
    rfl
  · rw [hfates]
    rfl

end System

end SiteHost
