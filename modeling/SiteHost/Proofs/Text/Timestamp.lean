import Mathlib.Algebra.Group.Nat.Defs
import SiteHost.Proofs.Text.Digits
import SiteHost.Timestamp

/-!
# Points in time are read back

* `Timestamp.isWritable` — whether the text of a timestamp has room for its year and its offset.

Principal results:

* `takeNumber?_padded`, `takeFraction?_fraction`, `readOffset?_offsetText` — the parts of a text;
* `parse?_render` — a timestamp is read back from its text.
-/

namespace SiteHost.Timestamp

open SiteHost.Text

/-- Whether every part is in its range, with a year of four digits and an offset that can be written. -/
def isWritable (t : Timestamp) : Bool :=
  t.isValid && decide (t.year < 10 ^ 4) && decide (t.offset.natAbs / 60 ≤ offsetLimit)

section Numbers

variable {width n : Nat} {cs rest : List Char}

theorem digitsValue_append (cs rest : List Char) :
    digitsValue (cs ++ rest) = Nat.ofDigitChars 10 rest (digitsValue cs) := by
  simp only [digitsValue, digitValue, Nat.ofDigitChars_eq_foldl, List.foldl_append, Nat.mul_comm _ 10]

theorem digitsValue_zeros (k : Nat) (cs : List Char) :
    digitsValue (List.replicate k '0' ++ cs) = digitsValue cs := by
  have hzeros : digitsValue (List.replicate k '0') = 0 := by
    have happend := digitsValue_append [] (List.replicate k '0')
    rwa [List.nil_append, Nat.ofDigitChars_replicate_zero] at happend
  rw [digitsValue_append, hzeros]
  exact (digitsValue_append [] cs).symm

theorem toList_padded (width n : Nat) : (padded width n).toList =
    List.replicate (width - (Nat.toDigits 10 n).length) '0' ++ Nat.toDigits 10 n := by
  simp [padded, show toString n = n.repr from rfl, Nat.repr_eq_ofList_toDigits]

theorem isDigit_of_mem_padded {c : Char} (h : c ∈ (padded width n).toList) : c.isDigit = true := by
  rw [toList_padded, List.mem_append] at h
  rcases h with h | h
  · rw [(List.mem_replicate.1 h).2]
    rfl
  · exact isDigit_of_mem_toDigits h

theorem digitsValue_padded (width n : Nat) : digitsValue (padded width n).toList = n := by
  rw [toList_padded, digitsValue_zeros, digitsValue_toDigits]

/-- A number that fits has the digits of its width. -/
theorem length_padded (hwidth : 0 < width) (h : n < 10 ^ width) :
    (padded width n).toList.length = width := by
  have hlength := (Nat.length_toDigits_le_iff (b := 10) (by decide) hwidth).2 h
  rw [toList_padded, List.length_append, List.length_replicate]
  omega

/-- **A number of a width is read back**, with anything behind it. -/
theorem takeNumber?_padded (hwidth : 0 < width) (h : n < 10 ^ width) :
    takeNumber? width ((padded width n).toList ++ rest) = some (n, rest) := by
  have hlength := length_padded hwidth h
  have htake : ((padded width n).toList ++ rest).take width = (padded width n).toList :=
    List.take_left' hlength
  have hdrop : ((padded width n).toList ++ rest).drop width = rest := List.drop_left' hlength
  have hall : (padded width n).toList.all Char.isDigit = true :=
    List.all_eq_true.2 fun _ => isDigit_of_mem_padded
  rw [takeNumber?]
  simp only [htake, hdrop, hlength, hall, decide_true, Bool.and_self, if_true, digitsValue_padded]

theorem takePair?_padded {first second : Nat} (rest : List Char) (hfirst : first < 10 ^ 2)
    (hsecond : second < 10 ^ 2) :
    takePair? ((padded 2 first).toList ++ ':' :: ((padded 2 second).toList ++ rest)) =
      some (first, second, rest) := by
  rw [takePair?, takeNumber?_padded (by decide) hfirst]
  simp only [Option.bind_eq_bind, Option.bind_some, after?, if_true]
  rw [takeNumber?_padded (by decide) hsecond]
  rfl

end Numbers

section Fractions

variable {nanosecond : Nat} {rest : List Char}

/-- Digits are those that stay when the zeros behind them are dropped, and the zeros. -/
theorem eq_append_zeros (cs : List Char) : ∃ k,
    cs = (cs.reverse.dropWhile (· == '0')).reverse ++ List.replicate k '0' := by
  have hzeros : cs.reverse.takeWhile (· == '0') =
      List.replicate (cs.reverse.takeWhile (· == '0')).length '0' :=
    List.eq_replicate_of_mem fun c hc => by simpa using List.all_eq_true.1 List.all_takeWhile c hc
  refine ⟨(cs.reverse.takeWhile (· == '0')).length, ?_⟩
  rw [← List.reverse_replicate, ← hzeros, ← List.reverse_append, List.takeWhile_append_dropWhile,
    List.reverse_reverse]

/-- **A part of a second is read back**, with something behind it that is no digit and no point. -/
theorem takeFraction?_fraction (h : nanosecond < 10 ^ 9)
    (hrest : ∀ c, rest.head? = some c → c.isDigit = false ∧ c ≠ '.') :
    takeFraction? ((fraction nanosecond).toList ++ rest) = some (nanosecond, rest) := by
  by_cases hzero : nanosecond = 0
  · rw [fraction, if_pos hzero, String.toList_empty, List.nil_append, hzero]
    unfold takeFraction?
    split
    · exact absurd rfl (hrest '.' rfl).2
    · rfl
  obtain ⟨k, hk⟩ := eq_append_zeros (padded 9 nanosecond).toList
  rw [fraction, if_neg hzero, String.toList_ofList, List.cons_append]
  generalize (((padded 9 nanosecond).toList.reverse.dropWhile (· == '0')).reverse) = digits at hk ⊢
  have hdigits : ∀ c ∈ digits, c.isDigit = true := fun c hc =>
    isDigit_of_mem_padded (hk ▸ List.mem_append_left _ hc)
  have hends : ∀ c, rest.head? = some c → c.isDigit = false := fun c hc => (hrest c hc).1
  have hlength : digits.length + k = 9 := by
    rw [← length_padded (by decide) h, hk, List.length_append, List.length_replicate]
  have hvalue : digitsValue digits * 10 ^ k = nanosecond := by
    rw [← digitsValue_padded 9 nanosecond, hk, digitsValue_append, Nat.ofDigitChars_replicate_zero,
      Nat.mul_comm]
  have hne : digits.isEmpty = false := by
    cases digits with
    | nil => exact absurd (hvalue.symm.trans (Nat.zero_mul _)) hzero
    | cons c digits => rfl
  rw [takeFraction?, takeWhile_append_of_head? hdigits hends, dropWhile_append_of_head? hdigits hends]
  simp only [hne, Bool.false_eq_true, if_false, List.take_of_length_le (show digits.length ≤ 9 by omega),
    show 9 - digits.length = k by omega]
  exact congrArg (fun value => some (value, rest)) hvalue

end Fractions

section Offsets

variable {hours minutes : Nat} {cs : List Char}

/-- An offset with a sign. -/
theorem readOffset?_signed {sign : Char} (hsign : sign = '+' ∨ sign = '-')
    (hpair : takePair? cs = some (hours, minutes, [])) (hhours : hours ≤ offsetLimit)
    (hminutes : minutes ≤ 59) :
    readOffset? (sign :: cs) = some (if sign = '+' then ((hours * 60 + minutes : Nat) : Int)
      else -((hours * 60 + minutes : Nat) : Int)) := by
  unfold readOffset?
  rcases hsign with rfl | rfl <;> simp [hpair] <;> omega

/-- **An offset is read back.** -/
theorem readOffset?_offsetText {offset : Int} (h : offset.natAbs / 60 ≤ offsetLimit) :
    readOffset? (offsetText offset).toList = some offset := by
  by_cases hzero : offset = 0
  · rw [offsetText, if_pos hzero, hzero]
    rfl
  have hlimit : offsetLimit = 25 := rfl
  have hpair := takePair?_padded [] (by omega : offset.natAbs / 60 < 10 ^ 2)
    (by omega : offset.natAbs % 60 < 10 ^ 2)
  have htext : (offsetText offset).toList = (if offset < 0 then '-' else '+') ::
      ((padded 2 (offset.natAbs / 60)).toList ++
        ':' :: ((padded 2 (offset.natAbs % 60)).toList ++ [])) := by
    by_cases hneg : offset < 0 <;> simp [offsetText, hzero, hneg, toString]
  rw [htext]
  by_cases hneg : offset < 0
  · rw [if_pos hneg, readOffset?_signed (.inr rfl) hpair h (by omega), if_neg (by decide)]
    exact congrArg some (by omega)
  · rw [if_neg hneg, readOffset?_signed (.inl rfl) hpair h (by omega), if_pos rfl]
    exact congrArg some (by omega)

theorem head?_offsetText {offset : Int} {c : Char} (h : (offsetText offset).toList.head? = some c) :
    c.isDigit = false ∧ c ≠ '.' := by
  have hc : c = 'Z' ∨ c = '-' ∨ c = '+' := by
    by_cases hzero : offset = 0
    · exact .inl (by simpa [offsetText, hzero, eq_comm] using h)
    · by_cases hneg : offset < 0 <;> simp [offsetText, hzero, hneg, toString] at h <;> simp [← h]
  rcases hc with rfl | rfl | rfl <;> decide

end Offsets

section Whole

variable {t : Timestamp}

theorem toList_render (t : Timestamp) : t.render.toList = (padded 4 t.year).toList ++
    '-' :: ((padded 2 t.month).toList ++ '-' :: ((padded 2 t.day).toList ++
      'T' :: ((padded 2 t.hour).toList ++ ':' :: ((padded 2 t.minute).toList ++
        ':' :: ((padded 2 t.second).toList ++ ((fraction t.nanosecond).toList ++
          (offsetText t.offset).toList)))))) := by
  simp [render]

/-- **A timestamp is read back from its text.** -/
theorem parse?_render (h : t.isWritable = true) : parse? t.render = some t := by
  simp only [isWritable, Bool.and_eq_true, decide_eq_true_eq] at h
  obtain ⟨⟨hvalid, hyear⟩, hoffset⟩ := h
  have hparts := hvalid
  simp only [isValid, Bool.and_eq_true, decide_eq_true_eq] at hparts
  obtain ⟨⟨⟨⟨⟨⟨⟨-, hmonth⟩, -⟩, hday⟩, hhour⟩, hminute⟩, hsecond⟩, hnanosecond⟩ := hparts
  have hdays : daysIn t.year t.month ≤ 31 := by
    unfold daysIn
    split
    · split <;> decide
    · split <;> decide
  have hpair := fun rest => takePair?_padded rest (by omega : t.hour < 10 ^ 2)
    (by omega : t.minute < 10 ^ 2)
  have hleap : (t.second == 60) = false := by
    rw [beq_eq_false_iff_ne]
    omega
  rw [parse?, toList_render, takeNumber?_padded (by decide) hyear]
  simp only [Option.bind_eq_bind, Option.bind_some, after?, if_true]
  rw [takeNumber?_padded (by decide) (by omega)]
  simp only [Option.bind_some, if_true]
  rw [takeNumber?_padded (by decide) (by omega)]
  simp only [Option.bind_some, show 'T'.toNat < 128 by decide, if_true, hpair]
  rw [takeNumber?_padded (by decide) (by omega)]
  simp only [Option.bind_some]
  rw [takeFraction?_fraction (by omega) fun _ => head?_offsetText]
  simp only [Option.bind_some, readOffset?_offsetText hoffset, hleap, Bool.false_eq_true, if_false,
    Bool.not_false, Bool.true_or, Bool.and_true, hvalid, if_true]

end Whole

end SiteHost.Timestamp
