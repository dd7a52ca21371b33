import SiteHost.Text.Numeral

/-!
# Numbers as digits

The digits that a number is written with in base ten stand for it:

* `digitsValue_toDigits` — the value of the digits is the number;
* `isDigit_of_mem_toDigits` — they are digits;
* `head?_toDigits` — a zero stands in front only of nothing;
* `takeWhile_append_of_head?`, `dropWhile_append_of_head?` — where digits end that something else follows.
-/

namespace SiteHost.Text

variable {n : Nat} {c : Char} {cs rest : List Char}

/-- The digits of a number stand for it. -/
theorem digitsValue_toDigits (n : Nat) : digitsValue (Nat.toDigits 10 n) = n := by
  have hfold : Nat.ofDigitChars 10 (Nat.toDigits 10 n) 0 = _ := Nat.ofDigitChars_eq_foldl
  rw [Nat.ofDigitChars_ten_toDigits] at hfold
  simp only [digitsValue, digitValue, Nat.mul_comm _ 10]
  exact hfold.symm

theorem isDigit_of_mem_toDigits (h : c ∈ Nat.toDigits 10 n) : c.isDigit = true :=
  Nat.isDigit_of_mem_toDigits (by decide) (by decide) h

/-- The first digit of a number is zero only if the number is. -/
theorem head?_toDigits (h : n ≠ 0) : (Nat.toDigits 10 n).head? ≠ some '0' := by
  induction n using Nat.strongRecOn with
  | ind n ih =>
    rw [Nat.toDigits_eq_if (by decide)]
    split
    · rename_i hsmall
      have hdigit : ∀ d < 10, d ≠ 0 → some (Nat.digitChar d) ≠ some '0' := by decide
      exact hdigit n hsmall h
    · rw [List.head?_append, Option.or_of_isSome (by simp)]
      exact ih (n / 10) (by omega) (by omega)

/-- A zero in front is the only digit. -/
theorem length_toDigits_of_head? (h : (Nat.toDigits 10 n).head? = some '0') :
    (Nat.toDigits 10 n).length = 1 := by
  by_cases hzero : n = 0
  · rw [hzero, Nat.toDigits_zero, List.length_singleton]
  · exact absurd h (head?_toDigits hzero)

/-- Characters of a kind end where one of another kind follows. -/
theorem takeWhile_append_of_head? {q : Char → Bool} (hcs : ∀ c ∈ cs, q c = true)
    (hrest : ∀ c, rest.head? = some c → q c = false) : (cs ++ rest).takeWhile q = cs := by
  rw [List.takeWhile_append_of_pos hcs]
  cases rest with
  | nil => exact List.append_nil cs
  | cons c rest => rw [List.takeWhile_cons, hrest c rfl, if_neg Bool.false_ne_true, List.append_nil]

theorem dropWhile_append_of_head? {q : Char → Bool} (hcs : ∀ c ∈ cs, q c = true)
    (hrest : ∀ c, rest.head? = some c → q c = false) : (cs ++ rest).dropWhile q = rest := by
  rw [List.dropWhile_append_of_pos hcs]
  cases rest with
  | nil => rfl
  | cons c rest => rw [List.dropWhile_cons, hrest c rfl, if_neg Bool.false_ne_true]

end SiteHost.Text
