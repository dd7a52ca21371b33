import Mathlib.Data.Bool.AllAny
import Mathlib.Data.String.Basic
import SiteHost.Text.Blank
import SiteHost.Text.LowerCase

/-!
# The case of ASCII text

Names that differ in the case of ASCII letters only stand for one unit:

* `IsAscii`, `IsLowerAscii` — text of ASCII characters, and such text without capital letters;
* `asciiLower` — what it keeps: the size of a text and every character that is not a letter.

Principal results:

* `eqIgnoringAsciiCase_iff` — equality without regard to case is equality in lower case;
* `lower_congr` — text that differs in the case of ASCII letters only has one full lower case;
* `lower_append_slash` — full lower-casing goes from slash to slash: what becomes of a capital sigma on one
  side of a slash does not depend on the other side;
* `mem_lower_iff`, `lower_eq_self` — it leaves slashes and dots where they are, and makes none.
-/

namespace SiteHost.Text

/-- Text of ASCII characters. -/
def IsAscii (s : String) : Prop := ∀ c ∈ s.toList, c.toNat < 128

instance (s : String) : Decidable (IsAscii s) :=
  List.decidableBAll (fun c : Char => c.toNat < 128) s.toList

/-- Text of ASCII characters without capital letters. -/
def IsLowerAscii (s : String) : Prop := IsAscii s ∧ asciiLower s = s

instance (s : String) : Decidable (IsLowerAscii s) := instDecidableAnd

/-! ## One character -/

/-- Capital letters move up by 32. -/
theorem toNat_toLower (c : Char) : c.toLower.toNat =
    if 65 ≤ c.toNat ∧ c.toNat ≤ 90 then c.toNat + 32 else c.toNat := by
  have hiff : (c.val ≥ 65 ∧ c.val ≤ 90) ↔ (65 ≤ c.toNat ∧ c.toNat ≤ 90) := by
    simp only [ge_iff_le, UInt32.le_iff_toNat_le]
    exact Iff.rfl
  unfold Char.toLower
  split
  · rename_i h
    rw [if_pos (hiff.1 h)]
    have hle : c.toNat ≤ 90 := (hiff.1 h).2
    change (c.val + 32).toNat = c.val.toNat + 32
    rw [UInt32.toNat_add]
    have hsmall : c.val.toNat ≤ 90 := hle
    exact Nat.mod_eq_of_lt (by simp; omega)
  · rename_i h
    rw [if_neg fun hc => h (hiff.2 hc)]

/-- Only a letter becomes another character. -/
theorem toLower_eq_iff {c d : Char} (hd : d.toNat < 65 ∨ 122 < d.toNat) :
    c.toLower = d ↔ c = d := by
  rw [← Char.toNat_inj, ← Char.toNat_inj, toNat_toLower]
  split <;> omega

@[simp] theorem toLower_toLower (c : Char) : c.toLower.toLower = c.toLower := by
  rw [← Char.toNat_inj, toNat_toLower, if_neg]
  rw [toNat_toLower]
  split <;> omega

theorem toNat_toLower_lt {c : Char} (h : c.toNat < 128) : c.toLower.toNat < 128 := by
  rw [toNat_toLower]
  split <;> omega

theorem utf8Size_of_lt {c : Char} (h : c.toNat < 128) : c.utf8Size = 1 := by
  have hle : c.val ≤ 0x7f := UInt32.le_iff_toNat_le.2 (Nat.le_of_lt_succ h)
  simp [Char.utf8Size, hle]

theorem utf8Size_toLower (c : Char) : c.toLower.utf8Size = c.utf8Size := by
  by_cases h : 65 ≤ c.toNat ∧ c.toNat ≤ 90
  · have hlt : c.toNat < 128 := by omega
    rw [utf8Size_of_lt hlt, utf8Size_of_lt (toNat_toLower_lt hlt)]
  · have hsame : c.toLower = c := by
      rw [← Char.toNat_inj, toNat_toLower, if_neg h]
    rw [hsame]

/-! ## Text in the lower case of its ASCII letters -/

@[simp] theorem toList_asciiLower (s : String) :
    (asciiLower s).toList = s.toList.map Char.toLower := String.toList_ofList

@[simp] theorem asciiLower_asciiLower (s : String) : asciiLower (asciiLower s) = asciiLower s := by
  rw [← String.toList_inj]
  simp

/-- Equality without regard to the case of ASCII letters is equality in lower case. -/
theorem eqIgnoringAsciiCase_iff {a b : String} :
    eqIgnoringAsciiCase a b = true ↔ asciiLower a = asciiLower b := by
  rw [← String.toList_inj, toList_asciiLower, toList_asciiLower]
  simp [eqIgnoringAsciiCase]

@[simp] theorem asciiLower_append (a b : String) :
    asciiLower (a ++ b) = asciiLower a ++ asciiLower b := by
  rw [← String.toList_inj]
  simp

@[simp] theorem length_asciiLower (s : String) : (asciiLower s).length = s.length := by
  rw [← String.length_toList, ← String.length_toList, toList_asciiLower, List.length_map]

/-- Texts with a separator between each two, in lower case. -/
theorem asciiLower_intercalate (sep : String) (parts : List String) :
    asciiLower (sep.intercalate parts) = (asciiLower sep).intercalate (parts.map asciiLower) := by
  induction parts with
  | nil => simp [← String.toList_inj]
  | cons part rest ih =>
    by_cases hne : rest = []
    · subst hne
      simp
    · rw [String.intercalate_cons_of_ne_nil hne, asciiLower_append, asciiLower_append, ih, List.map_cons,
        String.intercalate_cons_of_ne_nil (by simpa using hne)]

/-- Text whose lower case is cut in two can be cut there itself. -/
theorem asciiLower_eq_append {s a b : String} (h : asciiLower s = a ++ b) :
    ∃ s₁ s₂, s = s₁ ++ s₂ ∧ asciiLower s₁ = a ∧ asciiLower s₂ = b := by
  rw [← String.toList_inj, toList_asciiLower, String.toList_append] at h
  obtain ⟨cs₁, cs₂, hs, h₁, h₂⟩ := List.map_eq_append_iff.1 h
  refine ⟨.ofList cs₁, .ofList cs₂, ?_, ?_, ?_⟩
  · rw [← String.toList_inj]
    simp [hs]
  · rw [← String.toList_inj]
    simp [h₁]
  · rw [← String.toList_inj]
    simp [h₂]

/-- Text without letters is no other text in lower case. -/
theorem asciiLower_eq_iff {s t : String} (ht : ∀ c ∈ t.toList, c.toNat < 65 ∨ 122 < c.toNat) :
    asciiLower s = t ↔ s = t := by
  rw [← String.toList_inj, ← String.toList_inj, toList_asciiLower]
  generalize s.toList = cs, t.toList = ds at ht
  induction ds generalizing cs with
  | nil => exact List.map_eq_nil_iff
  | cons d rest ih =>
    cases cs with
    | nil => simp
    | cons c more =>
      rw [List.map_cons, List.cons.injEq, List.cons.injEq, toLower_eq_iff (ht d List.mem_cons_self),
        ih more fun e he => ht e (List.mem_cons_of_mem _ he)]

theorem asciiLower_eq_empty {s : String} : asciiLower s = "" ↔ s = "" :=
  asciiLower_eq_iff (by simp)

theorem asciiLower_eq_dot {s : String} : asciiLower s = "." ↔ s = "." :=
  asciiLower_eq_iff (by simp)

theorem asciiLower_eq_dots {s : String} : asciiLower s = ".." ↔ s = ".." :=
  asciiLower_eq_iff (by simp)

theorem mem_toList_asciiLower {s : String} {c : Char} (hc : c.toNat < 65 ∨ 122 < c.toNat) :
    c ∈ (asciiLower s).toList ↔ c ∈ s.toList := by
  simp [toLower_eq_iff hc]

theorem IsAscii.asciiLower {s : String} (h : IsAscii s) : IsAscii (asciiLower s) := by
  intro c hc
  obtain ⟨d, hd, rfl⟩ := List.mem_map.1 (toList_asciiLower s ▸ hc)
  exact toNat_toLower_lt (h d hd)

theorem utf8Len_map_toLower (cs : List Char) :
    String.utf8Len (cs.map Char.toLower) = String.utf8Len cs := by
  induction cs with
  | nil => rfl
  | cons c rest ih => simp [ih, utf8Size_toLower]

/-- Lower-casing keeps the size of a text. -/
@[simp] theorem utf8ByteSize_asciiLower (s : String) :
    (asciiLower s).utf8ByteSize = s.utf8ByteSize := by
  conv_rhs => rw [← String.ofList_toList (s := s)]
  rw [Text.asciiLower, String.utf8ByteSize_ofList, String.utf8ByteSize_ofList, utf8Len_map_toLower]

/-! ## Full lower-casing -/

/-- What is so for the 26 capital letters, and for all characters that stay as they are in lower case. -/
theorem capital_cases {motive : Char → Prop} (hcapital : ∀ n < 91, 65 ≤ n → motive (Char.ofNat n))
    (hsame : ∀ c, c.toLower = c → motive c) (c : Char) : motive c := by
  by_cases h : 65 ≤ c.toNat ∧ c.toNat ≤ 90
  · have hc := hcapital c.toNat (by omega) h.1
    rwa [Char.ofNat_toNat] at hc
  · exact hsame c (by rw [← Char.toNat_inj, toNat_toLower, if_neg h])

theorem isBlank_toLower (c : Char) : isBlank c.toLower = isBlank c :=
  capital_cases (motive := fun c => isBlank c.toLower = isBlank c) (by decide) (fun c h => by rw [h]) c

/-- The case of a letter does not matter to what stands around it. -/
theorem isCased_toLower (c : Char) :
    isCased c.toLower = isCased c ∧ isCaseIgnorable c.toLower = isCaseIgnorable c :=
  capital_cases
    (motive := fun c => isCased c.toLower = isCased c ∧ isCaseIgnorable c.toLower = isCaseIgnorable c)
    (by decide) (fun c h => by rw [h]; exact ⟨rfl, rfl⟩) c

theorem lowerChar_toLower (c : Char) : lowerChar c.toLower = lowerChar c :=
  capital_cases (motive := fun c => lowerChar c.toLower = lowerChar c) (by decide) (fun c h => by rw [h]) c

theorem meetsCased_map_toLower (cs : List Char) :
    meetsCased (cs.map Char.toLower) = meetsCased cs := by
  induction cs with
  | nil => rfl
  | cons c rest ih =>
    obtain ⟨hcased, hignorable⟩ := isCased_toLower c
    simp only [meetsCased, List.map_cons] at ih ⊢
    cases hc : isCaseIgnorable c with
    | true => rw [List.dropWhile_cons_of_pos (hignorable.trans hc), List.dropWhile_cons_of_pos hc, ih]
    | false => simp [hignorable, hc, hcased]

theorem lowerAfter_map_toLower (before cs : List Char) :
    lowerAfter (before.map Char.toLower) (cs.map Char.toLower) = lowerAfter before cs := by
  induction cs generalizing before with
  | nil => rfl
  | cons c rest ih =>
    have hrest := ih (c :: before)
    rw [List.map_cons] at hrest
    rw [List.map_cons, lowerAfter, lowerAfter, hrest, lowerChar_toLower, isFinalSigma, isFinalSigma,
      meetsCased_map_toLower, meetsCased_map_toLower]
    simp only [toLower_eq_iff (by decide : ('Σ' : Char).toNat < 65 ∨ 122 < 'Σ'.toNat)]

/-- **The case of ASCII letters does not matter to full lower-casing**, not even next to a capital sigma. -/
theorem lower_asciiLower (s : String) : lower (asciiLower s) = lower s := by
  rw [lower, lower, toList_asciiLower]
  exact congrArg String.ofList (lowerAfter_map_toLower [] s.toList)

theorem lower_congr {s t : String} (h : asciiLower s = asciiLower t) : lower s = lower t := by
  rw [← lower_asciiLower s, h, lower_asciiLower]

/-! ## Full lower-casing behind a slash -/

/-- A slash ends every word. -/
theorem meetsCased_append_slash (xs ys : List Char) :
    meetsCased (xs ++ '/' :: ys) = meetsCased (xs ++ ['/']) := by
  have hslash : isCaseIgnorable '/' = false := by decide
  induction xs with
  | nil => simp [meetsCased, hslash]
  | cons c rest ih =>
    simp only [meetsCased, List.cons_append] at ih ⊢
    cases hc : isCaseIgnorable c with
    | true => rw [List.dropWhile_cons_of_pos hc, List.dropWhile_cons_of_pos hc, ih]
    | false => simp [hc]

/-- A slash at the end of text is no part of a word. -/
theorem meetsCased_concat_slash (xs : List Char) : meetsCased (xs ++ ['/']) = meetsCased xs := by
  have hslash : isCaseIgnorable '/' = false := by decide
  induction xs with
  | nil =>
    have hcased : isCased '/' = false := by decide
    simp [meetsCased, hslash, hcased]
  | cons c rest ih =>
    simp only [meetsCased, List.cons_append] at ih ⊢
    cases hc : isCaseIgnorable c with
    | true => rw [List.dropWhile_cons_of_pos hc, List.dropWhile_cons_of_pos hc, ih]
    | false => simp [hc]

/-- A capital sigma does not see across a slash what stands before it. -/
theorem lowerAfter_behind_slash (xs before ys : List Char) :
    lowerAfter (xs ++ '/' :: before) ys = lowerAfter xs ys := by
  induction ys generalizing xs with
  | nil => rfl
  | cons c rest ih =>
    have hrest := ih (c :: xs)
    rw [List.cons_append] at hrest
    rw [lowerAfter, lowerAfter, hrest, isFinalSigma, isFinalSigma, meetsCased_append_slash,
      meetsCased_concat_slash]

theorem lowerAfter_append_slash (before xs ys : List Char) :
    lowerAfter before (xs ++ '/' :: ys) = lowerAfter before xs ++ '/' :: lowerAfter [] ys := by
  have hslash : lowerChar '/' = ['/'] := by decide
  induction xs generalizing before with
  | nil =>
    have hbehind : lowerAfter ('/' :: before) ys = lowerAfter [] ys := lowerAfter_behind_slash [] before ys
    simp [lowerAfter, hslash, hbehind]
  | cons c rest ih =>
    have hsigma : isFinalSigma before (rest ++ '/' :: ys) = isFinalSigma before rest := by
      simp only [isFinalSigma, meetsCased_append_slash rest, meetsCased_concat_slash]
    simp only [List.cons_append, lowerAfter, ih, hsigma, List.append_assoc]

theorem lowerAfter_ascii (before : List Char) {cs : List Char} (h : ∀ c ∈ cs, c.toNat < 128) :
    lowerAfter before cs = cs.map Char.toLower := by
  induction cs generalizing before with
  | nil => rfl
  | cons c rest ih =>
    have hc : c.toNat < 128 := h c List.mem_cons_self
    have hne : c ≠ 'Σ' := by
      rintro rfl
      revert hc
      decide
    simp [lowerAfter, lowerChar, hc, hne, ih _ fun d hd => h d (List.mem_cons_of_mem _ hd)]

/-- **Full lower-casing goes from slash to slash.** -/
theorem lower_append_slash (before after : String) :
    lower (before ++ "/" ++ after) = lower before ++ "/" ++ lower after := by
  rw [← String.toList_inj]
  simpa [lower] using lowerAfter_append_slash [] before.toList after.toList

@[simp] theorem lower_concat_slash (s : String) : lower (s ++ "/") = lower s ++ "/" := by
  have hempty : lower "" = "" := rfl
  simpa [hempty] using lower_append_slash s ""

theorem lower_of_isAscii {s : String} (h : IsAscii s) : lower s = asciiLower s := by
  rw [lower, lowerAfter_ascii [] h, asciiLower]

/-- The lower case of a character from beyond ASCII stands behind the slash. -/
theorem lt_offset_of_covers {run : CaseRun} (hrun : run ∈ caseRuns) {n : Nat} (hcovers : run.covers n = true) :
    47 < Int.toNat (n + run.offset) := by
  have hfirst : ∀ run ∈ caseRuns, 47 < (run.first : Int) + run.offset := by decide +kernel
  have hlt := hfirst run hrun
  simp only [CaseRun.covers, Bool.and_eq_true, decide_eq_true_eq] at hcovers
  omega

theorem toNat_ofNat_of_lt {n : Nat} (h : 47 < n) :
    (Char.ofNat n).toNat = 0 ∨ 47 < (Char.ofNat n).toNat := by
  by_cases hvalid : n.isValidChar
  · rw [Char.ofNat, dif_pos hvalid]
    exact .inr h
  · rw [Char.ofNat, dif_neg hvalid]
    exact .inl rfl

/-- The characters up to the slash, which have no letter case. -/
def IsLow (c : Char) : Prop := 0 < c.toNat ∧ c.toNat ≤ 47

instance (c : Char) : Decidable (IsLow c) := instDecidableAnd

/-- Lower-casing makes no slashes and no dots, and takes none away. -/
theorem mem_lowerChar_iff {c d : Char} (hd : IsLow d) : d ∈ lowerChar c ↔ c = d := by
  obtain ⟨hpos, hle⟩ := hd
  constructor
  · intro h
    unfold lowerChar at h
    split at h
    · rw [List.mem_singleton, eq_comm, toLower_eq_iff (by omega)] at h
      exact h
    · split at h
      · have hfar : ∀ e ∈ ['i', '\u0307'], 47 < e.toNat := List.all_iff_forall_prop.1 (by decide)
        exact absurd (hfar d h) (by omega)
      · split at h
        · rename_i run hrun
          have hcovers := List.find?_some (p := fun run : CaseRun => run.covers c.toNat) hrun
          have hlt := lt_offset_of_covers (List.mem_of_find?_eq_some hrun) hcovers
          have hcode := toNat_ofNat_of_lt hlt
          rw [List.mem_singleton.1 h] at hpos hle
          omega
        · exact (List.mem_singleton.1 h).symm
  · rintro rfl
    rw [lowerChar, if_pos (by omega), List.mem_singleton, eq_comm, toLower_eq_iff (by omega)]

theorem slash_mem_lowerChar {c : Char} : '/' ∈ lowerChar c ↔ c = '/' := mem_lowerChar_iff (by decide)

theorem lowerChar_ne_nil (c : Char) : lowerChar c ≠ [] := by
  unfold lowerChar
  split
  · simp
  · split
    · simp
    · split <;> simp

theorem mem_lowerAfter_iff {before cs : List Char} {d : Char} (hd : IsLow d) :
    d ∈ lowerAfter before cs ↔ d ∈ cs := by
  induction cs generalizing before with
  | nil => exact Iff.rfl
  | cons c rest ih =>
    have hpiece : d ∈ (if c = 'Σ' then [if isFinalSigma before rest then 'ς' else 'σ'] else lowerChar c) ↔
        d = c := by
      split
      · rename_i hc
        subst hc
        have hsigma : ∀ e ∈ ['Σ', 'σ', 'ς'], ¬ IsLow e := List.all_iff_forall_prop.1 (by decide)
        refine iff_of_false (fun hmem => ?_) fun heq => hsigma d (heq ▸ List.mem_cons_self) hd
        rw [List.mem_singleton] at hmem
        split at hmem <;> exact hsigma d (by simp [hmem]) hd
      · exact (mem_lowerChar_iff hd).trans eq_comm
    rw [lowerAfter, List.mem_append, List.mem_cons, hpiece, ih]

/-- A slash or a dot stands in text if it stands in its lower case. -/
theorem mem_lower_iff {s : String} {d : Char} (hd : IsLow d) : d ∈ (lower s).toList ↔ d ∈ s.toList := by
  rw [lower, String.toList_ofList]
  exact mem_lowerAfter_iff hd

/-- Text of slashes and dots is the lower case of itself only. -/
theorem lowerAfter_eq_self {before cs : List Char} (h : ∀ d ∈ lowerAfter before cs, IsLow d) :
    lowerAfter before cs = cs := by
  induction cs generalizing before with
  | nil => rfl
  | cons c rest ih =>
    rw [lowerAfter, List.forall_mem_append] at h
    have hne : c ≠ 'Σ' := by
      rintro rfl
      rw [if_pos rfl, List.forall_mem_singleton] at h
      exact absurd h.1 (by split <;> decide)
    rw [if_neg hne] at h
    obtain ⟨d, more, hd⟩ := List.exists_cons_of_ne_nil (lowerChar_ne_nil c)
    have hmem : d ∈ lowerChar c := hd ▸ List.mem_cons_self
    obtain rfl := (mem_lowerChar_iff (h.1 d hmem)).1 hmem
    have hsame : lowerChar c = [c] := by
      have hlow := h.1 c hmem
      unfold IsLow at hlow
      rw [lowerChar, if_pos (by omega), (toLower_eq_iff (by omega)).2 rfl]
    rw [lowerAfter, if_neg hne, hsame, ih h.2, List.singleton_append]

theorem lower_eq_self {s : String} (h : ∀ d ∈ (lower s).toList, IsLow d) : lower s = s := by
  rw [lower, String.toList_ofList] at h
  rw [lower, lowerAfter_eq_self h, String.ofList_toList]

/-- Text ends in a slash if its lower case does. -/
theorem getLast?_of_lowerAfter {before cs : List Char}
    (h : (lowerAfter before cs).getLast? = some '/') : cs.getLast? = some '/' := by
  induction cs generalizing before with
  | nil => cases h
  | cons c rest ih =>
    rw [lowerAfter] at h
    by_cases hrest : rest = []
    · subst hrest
      rw [lowerAfter, List.append_nil] at h
      have hmem := List.mem_of_getLast? h
      split at hmem
      · split at hmem <;> exact absurd hmem (by decide)
      · rw [slash_mem_lowerChar.1 hmem, List.getLast?_singleton]
    · obtain ⟨next, more, rfl⟩ := List.exists_cons_of_ne_nil hrest
      have hne : lowerAfter (c :: before) (next :: more) ≠ [] := by
        rw [lowerAfter]
        intro hnil
        have hpiece := (List.append_eq_nil_iff.1 hnil).1
        split at hpiece
        · cases hpiece
        · exact lowerChar_ne_nil next hpiece
      rw [List.getLast?_append_of_ne_nil _ hne] at h
      rw [List.getLast?_cons_cons]
      exact ih h

/-- The lower case of text is as long as those of its parts together, whatever they do to each other. -/
theorem length_lowerAfter_append (before before' xs ys : List Char) :
    (lowerAfter before (xs ++ ys)).length =
      (lowerAfter before' xs).length + (lowerAfter before' ys).length := by
  have hpiece : ∀ (c : Char) (b b' : Bool),
      (if c = 'Σ' then [if b then 'ς' else 'σ'] else lowerChar c).length =
        (if c = 'Σ' then [if b' then 'ς' else 'σ'] else lowerChar c).length := by
    intro c b b'
    split <;> rfl
  have hcontext : ∀ (zs b b' : List Char), (lowerAfter b zs).length = (lowerAfter b' zs).length := by
    intro zs
    induction zs with
    | nil => exact fun _ _ => rfl
    | cons z rest ih =>
      intro b b'
      rw [lowerAfter, lowerAfter, List.length_append, List.length_append, ih (z :: b) (z :: b'), hpiece z _ _]
  induction xs generalizing before before' with
  | nil => simp [lowerAfter, hcontext ys before before']
  | cons x rest ih =>
    rw [List.cons_append, lowerAfter, lowerAfter, List.length_append, List.length_append,
      ih (x :: before) (x :: before'), hpiece x _ _, hcontext ys (x :: before') before', Nat.add_assoc]

theorem getLast?_of_lower {s : String} (h : (lower s).toList.getLast? = some '/') :
    s.toList.getLast? = some '/' := by
  rw [lower, String.toList_ofList] at h
  exact getLast?_of_lowerAfter h

theorem length_lower_append (s t : String) : (lower (s ++ t)).length = (lower s).length + (lower t).length := by
  have hlength := length_lowerAfter_append [] [] s.toList t.toList
  simpa [lower, String.length_ofList] using hlength

end SiteHost.Text
