import SiteHost.Proofs.Cache.Evicted

/-!
# A cache in the course of a request

A request builds units one inside the other. Between its steps the cache is in order: every build that an
entry waits for is one of the request, and everything held is good, whatever that means:

* `Cache.Orderly` — such a cache. `busy` are the keys whose builds are on their way;
* `Cache.Keeps` — a cache holds every artifact that another holds.

Principal results:

* `Orderly.get` — a call finds an artifact, or has to run a build, which is then on its way;
* `Orderly.finish` — the build of a key ends: its result is told, and the key holds it;
* `Orderly.thinned` — evictions leave a cache in order.
-/

namespace SiteHost.Cache

variable {α : Type}

/-- A cache in the course of a request. Everything it holds is good for its key, and it waits for the
builds that are on their way and for no others. -/
structure Orderly (tier : String → Tier) (good : String → α → Prop)
    (busy : List (String × Generation)) (c : Cache α) : Prop where
  sound : c.Sound
  tiers : ∀ key id, c.index.get? key = some id → ∀ e : Entry α,
    c.entries[id]? = some e → e.tier = tier key
  running : ∀ key g, (key, g) ∈ busy → c.at? key = some (.building g) ∧ c.isRunning g = true
  building : ∀ key g, c.at? key = some (.building g) → (key, g) ∈ busy
  built : ∀ key a, c.at? key = some (.built a) → good key a

/-- Whether a cache holds every artifact that another holds. -/
def Keeps (c c' : Cache α) : Prop := ∀ key a, c.at? key = some (.built a) → c'.at? key = some (.built a)

theorem Keeps.refl (c : Cache α) : c.Keeps c := fun _ _ h => h

theorem Keeps.trans {c c' c'' : Cache α} (h : c.Keeps c') (h' : c'.Keeps c'') : c.Keeps c'' :=
  fun key a hat => h' key a (h key a hat)

/-- What changes at a key that holds no artifact is no loss. -/
theorem keeps_of_ne {c c' : Cache α} {key : String} (hother : ∀ k, k ≠ key → c'.at? k = c.at? k)
    (hself : ∀ a, c.at? key = some (.built a) → c'.at? key = some (.built a)) : c.Keeps c' := by
  intro k a hat
  by_cases hk : k = key
  · subst hk
    exact hself a hat
  · rw [hother k hk, hat]

/-- Who calls for a key finds the artifact that it holds. -/
theorem get_of_built {c : Cache α} {unit : Identity} {a : α} (tier : Tier)
    (h : c.at? unit.key = some (.built a)) : (c.get unit tier).1 = .hit a := by
  obtain ⟨id, hid, hst⟩ := at?_eq_some_iff.1 h
  have henter : c.enter unit tier = (id, c) := by
    unfold enter
    rw [hid]
  rw [get, henter]
  dsimp only [look]
  rw [show (c.entries[id]?).map Entry.state = some (.built a) from hst]

namespace Orderly

variable {tier : String → Tier} {good good' : String → α → Prop} {busy : List (String × Generation)}
  {c c' : Cache α} {key : String} {g : Generation}

/-- A cache is in order again when it has changed at one key only. -/
theorem of_ne (h : c.Orderly tier good busy) {busy' : List (String × Generation)}
    (hmoves : Moves c c')
    (htiers : ∀ k id, c'.index.get? k = some id → ∀ e : Entry α,
      c'.entries[id]? = some e → e.tier = tier k)
    (hother : ∀ k, k ≠ key → c'.at? k = c.at? k)
    (hbusy : ∀ k g, (k, g) ∈ busy' → c'.at? k = some (.building g) ∧ c'.isRunning g = true)
    (hkept : ∀ k g, k ≠ key → (k, g) ∈ busy → (k, g) ∈ busy')
    (hbuilding : ∀ g, c'.at? key = some (.building g) → (key, g) ∈ busy')
    (hbuilt : ∀ a, c'.at? key = some (.built a) → good key a) : c'.Orderly tier good busy' := by
  refine ⟨hmoves.sound h.sound, htiers, hbusy, fun k g hk => ?_, fun k a hk => ?_⟩
  · by_cases heq : k = key
    · subst heq
      exact hbuilding g hk
    · have hold : c.at? k = some (.building g) := hother k heq ▸ hk
      exact hkept k g heq (h.building k g hold)
  · by_cases heq : k = key
    · subst heq
      exact hbuilt a hk
    · have hold : c.at? k = some (.built a) := hother k heq ▸ hk
      exact h.built k a hold

/-- A cache that was never used is in order. -/
theorem empty (tier : String → Tier) (good : String → α → Prop) (timeLimit : Nat) (metrics : Metrics) :
    Orderly tier good [] ({ timeLimit, metrics } : Cache α) := by
  have hnone : ∀ key, at? ({ timeLimit, metrics } : Cache α) key = none := by simp [at?]
  refine ⟨sound_empty timeLimit metrics, fun key id hid => ?_, fun key g hmem => absurd hmem List.not_mem_nil,
    fun key g hat => ?_, fun key a hat => ?_⟩
  · simp at hid
  · rw [hnone] at hat
    cases hat
  · rw [hnone] at hat
    cases hat

/-- What is held may be called good in another sense, if it is. -/
theorem mono (h : c.Orderly tier good busy)
    (hgood : ∀ key a, c.at? key = some (.built a) → good key a → good' key a) :
    c.Orderly tier good' busy :=
  ⟨h.sound, h.tiers, h.running, h.building, fun key a hat => hgood key a hat (h.built key a hat)⟩

/-- **A call for a key that is not on its way** finds an artifact, or has to run a build. -/
theorem get (h : c.Orderly tier good busy) (unit : Identity) (hfree : ∀ g, (unit.key, g) ∉ busy) :
    c.Keeps (c.get unit (tier unit.key)).2 ∧
      ((∃ a, (c.get unit (tier unit.key)).1 = .hit a ∧
          (c.get unit (tier unit.key)).2.at? unit.key = some (.built a) ∧
          (c.get unit (tier unit.key)).2.Orderly tier good busy) ∨
        ∃ g, (c.get unit (tier unit.key)).1 = .started g ∧
          (c.get unit (tier unit.key)).2.Orderly tier good ((unit.key, g) :: busy)) := by
  obtain ⟨hother, htier, hrunning, hfound⟩ := get_cases h.sound unit (tier unit.key)
  have hmoves := moves_get h.sound unit (tier unit.key)
  have hheld := fun a => @get_of_built _ c unit a (tier unit.key)
  generalize c.get unit (tier unit.key) = found at *
  obtain ⟨found, c'⟩ := found
  have htiers : ∀ k id, c'.index.get? k = some id → ∀ e : Entry α,
      c'.entries[id]? = some e → e.tier = tier k := by
    intro k id hid e he
    rcases htier k id hid e he with ⟨e₀, hid₀, he₀, hsame⟩ | ⟨rfl, htier⟩
    · exact hsame.trans (h.tiers k id hid₀ e₀ he₀)
    · exact htier
  have hne : ∀ k g, (k, g) ∈ busy → k ≠ unit.key := fun k g hk heq => hfree g (heq ▸ hk)
  have hbusy : ∀ k g, (k, g) ∈ busy → c'.at? k = some (.building g) ∧ c'.isRunning g = true := by
    intro k g hk
    obtain ⟨hat, hrun⟩ := h.running k g hk
    exact ⟨hother k (hne k g hk) ▸ hat, hrunning g hrun⟩
  rcases hfound with ⟨a, hold, hhit, hat⟩ | ⟨g, hold, -⟩ | ⟨hstart, hat, hrun⟩
  · refine ⟨keeps_of_ne hother fun b hb => ?_, .inl ⟨a, hhit, hat, h.of_ne hmoves htiers hother hbusy
      (fun k g _ hk => hk) (fun g hg => ?_) fun b hb => ?_⟩⟩
    · rw [hat, ← hold, hb]
    · rw [hat] at hg
      cases hg
    · rw [hat] at hb
      cases hb
      exact h.built _ a hold
  · exact absurd (h.building _ g hold) (hfree g)
  · refine ⟨keeps_of_ne hother fun b hb => ?_, .inr ⟨_, hstart, h.of_ne hmoves htiers hother
      (fun k g hk => ?_) (fun k g _ hk => List.mem_cons_of_mem _ hk) (fun g hg => ?_) fun b hb => ?_⟩⟩
    · rw [hheld b hb] at hstart
      cases hstart
    · rcases List.mem_cons.1 hk with heq | hk
      · cases heq
        exact ⟨hat, hrun⟩
      · exact hbusy k g hk
    · rw [hat] at hg
      cases hg
      exact List.mem_cons_self
    · rw [hat] at hb
      cases hb

/-- **The build of a key ends.** The key holds its result, and the other keys what they held. -/
theorem finish (h : c.Orderly tier good ((key, g) :: busy)) (hfree : ∀ g, (key, g) ∉ busy)
    {r : Except Failure α} (hr : ∀ a, r = .ok a → good key a) :
    ∃ c', (c.finish g (.returned r)).settle g = some (r, c') ∧ c'.Orderly tier good busy ∧
      c.Keeps c' ∧ c'.at? key = some (.ofResult r) := by
  obtain ⟨hat, hrun⟩ := h.running key g List.mem_cons_self
  obtain ⟨c', hsettle, hmoves, hindex, hself, hother, hrunning⟩ := settle_finish h.sound hat hrun r
  refine ⟨c', hsettle, h.of_ne hmoves ?_ hother ?_ ?_ ?_ ?_, keeps_of_ne hother ?_, hself⟩
  · intro k id hid e he
    rw [hindex] at hid
    obtain ⟨e₀, he₀, -⟩ := h.sound.index k id hid
    obtain ⟨e', he', -, htier⟩ := hmoves.extends.entries id e₀ he₀
    rw [he] at he'
    cases he'
    rw [htier, h.tiers k id hid e₀ he₀]
  · intro k g' hk
    obtain ⟨hat', hrun'⟩ := h.running k g' (List.mem_cons_of_mem _ hk)
    have hne : k ≠ key := fun heq => hfree g' (heq ▸ hk)
    refine ⟨hother k hne ▸ hat', hrunning g' (fun heq => hne ?_) hrun'⟩
    subst heq
    -- one build is waited for under one key
    obtain ⟨id, hid, hst⟩ := at?_eq_some_iff.1 hat
    obtain ⟨id', hid', hst'⟩ := at?_eq_some_iff.1 hat'
    obtain ⟨-, f, hf, rfl⟩ := (h.sound.fresh id).building _ hst
    obtain ⟨-, f', hf', rfl⟩ := (h.sound.fresh id').building _ hst'
    rw [hf] at hf'
    cases hf'
    exact h.sound.key_eq hid hid'
  · intro k g' hne hk
    rcases List.mem_cons.1 hk with heq | hk
    · cases heq
      exact absurd rfl hne
    · exact hk
  · intro g' hg'
    rw [hself] at hg'
    cases r <;> cases hg'
  · intro a ha
    rw [hself] at ha
    cases r with
    | error e => cases ha
    | ok b =>
      cases ha
      exact hr _ rfl
  · intro a ha
    rw [hat] at ha
    cases ha

/-- **Evictions leave a cache in order** if no build is on its way. -/
theorem thinned (h : c.Orderly tier good []) (hthin : Thinned c c') : c'.Orderly tier good [] := by
  refine ⟨hthin.moves.sound h.sound, fun key id hid e he => ?_, fun key g hmem => ?_,
    fun key g hat => h.building key g (hthin.at? rfl hat),
    fun key a hat => h.built key a (hthin.at? rfl hat)⟩
  · obtain ⟨e₀, hid₀, he₀, -, htier⟩ := hthin.entry h.sound hid he
    exact htier.trans (h.tiers key id hid₀ e₀ he₀)
  · cases hmem

end Orderly

end SiteHost.Cache
