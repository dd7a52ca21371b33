import SiteHost.Source

/-!
# What a cache counts

* `Series` — a counter with its labels; `Series.render` writes it with the labels in order;
* `Metrics` — how often each series was counted. A series that was touched is there, even at zero.
-/

namespace SiteHost

/-- Why entries were evicted. -/
inductive EvictionReason where
  | invalidate
  | tier
  | remove
  | reset
  deriving Repr, DecidableEq, Inhabited

/-- The label of a reason. -/
def EvictionReason.label : EvictionReason → String
  | .invalidate => "invalidate"
  | .tier => "tier"
  | .remove => "remove"
  | .reset => "reset"

/-- A counter with its labels. -/
inductive Series where
  /-- A caller found an artifact. -/
  | hit (tier : Tier)
  /-- A caller started a build. -/
  | miss (tier : Tier)
  /-- A build came to an end by itself or by the clock. -/
  | compiled (tier : Tier)
  /-- The time of such a build was taken. -/
  | compileTime (tier : Tier)
  /-- Such a build failed. -/
  | failed (kind : String) (tier : Tier)
  /-- Entries were evicted. -/
  | evicted (reason : EvictionReason)
  deriving Repr, DecidableEq, Inhabited

namespace Series

/-- The name of a counter. -/
def name : Series → String
  | .hit _ => "kiln_cache_hit_total"
  | .miss _ => "kiln_cache_miss_total"
  | .compiled _ => "kiln_compile_total"
  | .compileTime _ => "kiln_compile_ms"
  | .failed .. => "kiln_compile_failure_total"
  | .evicted _ => "kiln_cache_invalidation_total"

/-- The labels of a counter in the order of their names. -/
def labels : Series → List (String × String)
  | .hit tier | .miss tier | .compiled tier | .compileTime tier => [("tier", tier.label)]
  | .failed kind tier => [("kind", kind), ("tier", tier.label)]
  | .evicted reason => [("reason", reason.label)]

/-- The name with the labels. -/
def render (s : Series) : String :=
  let pairs := s.labels.map fun (label, value) => label ++ "=" ++ value
  s.name ++ "\x7b" ++ String.intercalate "," pairs ++ "\x7d"

end Series

/-- How often each series was counted. -/
abbrev Metrics := List (Series × Nat)

namespace Metrics

/-- Counts a series `n` times more. -/
def add (m : Metrics) (s : Series) (n : Nat) : Metrics :=
  match m with
  | [] => [(s, n)]
  | (t, k) :: rest => if t = s then (s, k + n) :: rest else (t, k) :: add rest s n

/-- How often a series was counted. -/
def count (m : Metrics) (s : Series) : Nat := (m.lookup s).getD 0

/-- How often the series that satisfy `p` were counted. -/
def total (m : Metrics) (p : Series → Bool) : Nat :=
  ((m.filter fun e => p e.1).map Prod.snd).foldr (· + ·) 0

theorem total_add (m : Metrics) (s : Series) (n : Nat) (p : Series → Bool) :
    (m.add s n).total p = m.total p + if p s then n else 0 := by
  induction m with
  | nil => by_cases h : p s <;> simp [add, total, h]
  | cons e rest ih =>
    obtain ⟨t, k⟩ := e
    simp only [add]
    split
    · next h =>
      subst h
      by_cases hp : p t <;> simp [total, hp]
      omega
    · by_cases hp : p t <;> simp_all [total]
      omega

end Metrics

end SiteHost
