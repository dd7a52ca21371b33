import SiteHost.Json.Read
import SiteHost.Json.Write
import SiteHost.Proofs.Text.Digits

/-!
# What is written as JSON is read back

A value that is laid out over lines is read back as it was, if its numbers are whole ones of 64 bits and no
more containers stand around its innermost part than the reader allows. If more do, it is not read at all:

* `Json.nesting` — how many containers stand around the innermost part of a value;
* `Json.isWhole` — whether every number in a value is a whole one of 64 bits;
* `Json.closesNumber` — whether a number ends where a text goes on so;
* `Json.effort` — how many steps reading a value takes.

Principal results:

* `readText?_quote`, `readNumber?_digits` — texts and numbers;
* `reads_all` — values, items and members, with anything behind them;
* `parse?_pretty` — the whole of a text.
-/

namespace SiteHost.Json

open SiteHost.Text

/-! ## What can be read back -/

mutual

/-- How many containers stand around the innermost part of a value, the value itself among them. -/
def nesting : Json → Nat
  | .array items => 1 + nestingItems items
  | .object members => 1 + nestingMembers members
  | .null | .bool _ | .int _ | .float _ | .text _ => 0

/-- How many containers stand around the innermost part of any of several values. -/
def nestingItems : List Json → Nat
  | [] => 0
  | j :: rest => max j.nesting (nestingItems rest)

/-- How many containers stand around the innermost part of any of several members. -/
def nestingMembers : List (String × Json) → Nat
  | [] => 0
  | (_, j) :: rest => max j.nesting (nestingMembers rest)

end

mutual

/-- Whether every number in a value is a whole one of 64 bits. -/
def isWhole : Json → Bool
  | .int n => decide (-(int64Max + 1 : Int) ≤ n) && decide (n ≤ uint64Max)
  | .float _ => false
  | .array items => areWholeItems items
  | .object members => areWholeMembers members
  | .null | .bool _ | .text _ => true

/-- Whether every number in several values is a whole one of 64 bits. -/
def areWholeItems : List Json → Bool
  | [] => true
  | j :: rest => j.isWhole && areWholeItems rest

/-- Whether every number in several members is a whole one of 64 bits. -/
def areWholeMembers : List (String × Json) → Bool
  | [] => true
  | (_, j) :: rest => j.isWhole && areWholeMembers rest

end

mutual

/-- How many steps reading a value takes. -/
def effort : Json → Nat
  | .array items => 1 + effortItems items
  | .object members => 1 + effortMembers members
  | .null | .bool _ | .int _ | .float _ | .text _ => 1

/-- How many steps reading several values takes. -/
def effortItems : List Json → Nat
  | [] => 0
  | j :: rest => 1 + j.effort + effortItems rest

/-- How many steps reading several members takes. -/
def effortMembers : List (String × Json) → Nat
  | [] => 0
  | (_, j) :: rest => 1 + j.effort + effortMembers rest

end

section Several

variable {α : Type} {write : α → Json} {items : List α} {depth : Nat}

/-- The containers around several values that are written alike. -/
theorem nestingItems_map_le_iff :
    nestingItems (items.map write) ≤ depth ↔ ∀ a ∈ items, (write a).nesting ≤ depth := by
  induction items with
  | nil => simp [nestingItems]
  | cons a items ih => rw [List.map_cons, nestingItems, Nat.max_le, ih, List.forall_mem_cons]

/-- The numbers in several values that are written alike. -/
theorem areWholeItems_map_iff :
    areWholeItems (items.map write) = true ↔ ∀ a ∈ items, (write a).isWhole = true := by
  induction items with
  | nil => simp [areWholeItems]
  | cons a items ih => rw [List.map_cons, areWholeItems, Bool.and_eq_true, ih, List.forall_mem_cons]

theorem areWholeMembers_iff {members : List (String × Json)} :
    areWholeMembers members = true ↔ ∀ m ∈ members, m.2.isWhole = true := by
  induction members with
  | nil => simp [areWholeMembers]
  | cons m members ih => rw [areWholeMembers, Bool.and_eq_true, ih, List.forall_mem_cons]

end Several

/-- Whether a number ends where a text goes on so. -/
def closesNumber (rest : List Char) : Prop :=
  ∀ c, rest.head? = some c → c.isDigit = false ∧ c ≠ '.' ∧ c ≠ 'e' ∧ c ≠ 'E'

theorem closesNumber_nil : closesNumber [] := by simp [closesNumber]

theorem closesNumber_cons {c : Char} {rest : List Char}
    (h : c = ',' ∨ c = ']' ∨ c = '\x7d' ∨ c = '\n') : closesNumber (c :: rest) := by
  rintro d hd
  cases hd
  rcases h with rfl | rfl | rfl | rfl <;> decide

/-! ## Blanks -/

section Blanks

variable {c : Char} {cs rest : List Char}

theorem skipSpaces_cons (h : isSpace c = false) : skipSpaces (c :: rest) = c :: rest := by
  simp [skipSpaces, h]

theorem skipSpaces_append (h : ∀ c ∈ cs, isSpace c = true) :
    skipSpaces (cs ++ rest) = skipSpaces rest :=
  List.dropWhile_append_of_pos h

theorem isSpace_of_mem_indentation {level : Nat} (h : c ∈ (indentation level).toList) :
    isSpace c = true := by
  simp only [indentation, String.toList_append, String.toList_ofList, List.mem_append,
    List.mem_replicate] at h
  rcases h with h | ⟨-, rfl⟩
  · have hline : c = '\n' := by simpa using h
    rw [hline]
    rfl
  · rfl

theorem skipSpaces_indentation (level : Nat) (rest : List Char) :
    skipSpaces ((indentation level).toList ++ rest) = skipSpaces rest :=
  skipSpaces_append fun _ h => isSpace_of_mem_indentation h

end Blanks

/-! ## Texts -/

section Texts

variable {c : Char} {done rest : List Char}

theorem hexValue?_hexDigit : ∀ n < 16, hexValue? (hexDigit n) = some n := by decide

/-- The escape of a control character is read back. -/
theorem readText?_control (h : c.toNat < 0x20) :
    readText? done (['\\', 'u', '0', '0', hexDigit (c.toNat / 16), hexDigit (c.toNat % 16)] ++ rest) =
      readText? (c :: done) rest := by
  have hquad : hexQuad? '0' '0' (hexDigit (c.toNat / 16)) (hexDigit (c.toNat % 16)) = some c.toNat := by
    have hzero : hexValue? '0' = some 0 := by decide
    simp only [hexQuad?, hzero, hexValue?_hexDigit (c.toNat / 16) (by omega),
      hexValue?_hexDigit (c.toNat % 16) (by omega), Option.bind_eq_bind, Option.bind_some,
      Option.pure_def, Option.some.injEq]
    omega
  simp only [List.cons_append, List.nil_append]
  rw [readText?, hquad]
  simp only
  rw [if_neg (by omega), if_neg (by omega), Char.ofNat_toNat]

/-- A character is read back from what is written for it. -/
theorem readText?_escapeChar (done : List Char) (c : Char) (rest : List Char) :
    readText? done (escapeChar c ++ rest) = readText? (c :: done) rest := by
  unfold escapeChar
  by_cases hquote : c = '"'
  · subst hquote; simp [readText?, shortEscape?]
  by_cases hslash : c = '\\'
  · subst hslash; simp [readText?, shortEscape?]
  by_cases hline : c = '\n'
  · subst hline; simp [readText?, shortEscape?]
  by_cases hreturn : c = '\r'
  · subst hreturn; simp [readText?, shortEscape?]
  by_cases htab : c = '\t'
  · subst htab; simp [readText?, shortEscape?]
  by_cases hback : c = '\x08'
  · subst hback; simp [readText?, shortEscape?]
  by_cases hfeed : c = '\x0c'
  · subst hfeed; simp [readText?, shortEscape?]
  simp only [hquote, hslash, hline, hreturn, htab, hback, hfeed, if_false]
  split
  · rename_i hcontrol
    exact readText?_control hcontrol
  · rename_i hplain
    rw [List.singleton_append, readText?]
    · exact if_neg hplain
    · exact hquote
    · intros; simp_all
    · intros; simp_all

theorem readText?_escaped (cs done rest : List Char) :
    readText? done (cs.flatMap escapeChar ++ '"' :: rest) =
      some (String.ofList (done.reverse ++ cs), rest) := by
  induction cs generalizing done with
  | nil => simp [readText?]
  | cons c cs ih =>
    rw [List.flatMap_cons, List.append_assoc, readText?_escapeChar, ih]
    simp

theorem toList_quote (s : String) : (quote s).toList = '"' :: (s.toList.flatMap escapeChar ++ ['"']) := by
  simp [quote]

/-- **A text is read back from its quoted form.** -/
theorem readText?_quote (s : String) (rest : List Char) :
    readText? [] (s.toList.flatMap escapeChar ++ '"' :: rest) = some (s, rest) := by
  simp [readText?_escaped]

end Texts

/-! ## Numbers -/

section Numbers

variable {rest : List Char}

theorem readExponent?_of_closesNumber (h : closesNumber rest) : readExponent? rest = some (0, rest) := by
  cases rest with
  | nil => rfl
  | cons c rest =>
    obtain ⟨-, -, hlower, hupper⟩ := h c rfl
    simp [readExponent?, hlower, hupper]

/-- **A whole number is read back from its digits**, if it has 64 bits with its sign and is not a negative
zero. -/
theorem readNumber?_digits {negative : Bool} {n : Nat} (hrest : closesNumber rest)
    (hsize : if negative then n ≤ int64Max + 1 else n ≤ uint64Max) (hzero : negative = true → n ≠ 0) :
    readNumber? negative (Nat.toDigits 10 n ++ rest) =
      some (.int (if negative then -(n : Int) else n), rest) := by
  have hdigits : ∀ c ∈ Nat.toDigits 10 n, c.isDigit = true := fun c h => isDigit_of_mem_toDigits h
  have hends : ∀ c, rest.head? = some c → c.isDigit = false := fun c h => (hrest c h).1
  have hspan : spanDigits (Nat.toDigits 10 n ++ rest) = (Nat.toDigits 10 n, rest) := by
    rw [spanDigits, takeWhile_append_of_head? hdigits hends, dropWhile_append_of_head? hdigits hends]
  have hform : ((Nat.toDigits 10 n).isEmpty || (decide (1 < (Nat.toDigits 10 n).length) &&
      (Nat.toDigits 10 n).head? == some '0')) = false := by
    rw [Bool.or_eq_false_iff]
    refine ⟨by simp, ?_⟩
    by_cases hhead : (Nat.toDigits 10 n).head? = some '0'
    · simp [length_toDigits_of_head? hhead]
    · simp [hhead]
  have hsign : (!(negative && n == 0)) = true := by
    cases negative with
    | false => rfl
    | true => simpa using hzero rfl
  unfold readNumber?
  rw [hspan]
  simp only [gt_iff_lt, hform, Bool.false_eq_true, if_false]
  -- no fraction follows, since the text does not go on with a point
  split
  · rename_i heq
    cases rest with
    | nil => cases heq
    | cons c more =>
      split at heq
      · rename_i hcons
        exact absurd (List.cons.inj hcons).1 (hrest c rfl).2.1
      · cases heq
  · rename_i fraction after heq
    have hnone : fraction = [] ∧ after = rest := by
      cases rest with
      | nil =>
        cases heq
        exact ⟨rfl, rfl⟩
      | cons c more =>
        split at heq
        · rename_i hcons
          exact absurd (List.cons.inj hcons).1 (hrest c rfl).2.1
        · cases heq
          exact ⟨rfl, rfl⟩
    obtain ⟨rfl, rfl⟩ := hnone
    rw [readExponent?_of_closesNumber hrest, digitsValue_toDigits]
    simp only [beq_self_eq_true, hsign, Bool.true_and]
    rw [if_pos]
    cases negative <;> simpa using hsize

end Numbers

/-! ## Values -/

/-- What stands behind the first of several items. -/
def itemsTail (level : Nat) (items : List Json) : List Char :=
  items.flatMap fun j => ',' :: ((indentation level).toList ++ (prettyAt level j).toList)

/-- What stands behind the first of several members. -/
def membersTail (level : Nat) (members : List (String × Json)) : List Char :=
  members.flatMap fun m => ',' :: ((indentation level).toList ++
    ((quote m.1).toList ++ (": ".toList ++ (prettyAt level m.2).toList)))

section Values

variable {fuel depth level : Nat} {c : Char} {cs rest : List Char} {j : Json}

theorem toList_prettyItems (level : Nat) (j : Json) (items : List Json) :
    (",".intercalate (prettyItems level (j :: items))).toList =
      (indentation level).toList ++ ((prettyAt level j).toList ++ itemsTail level items) := by
  induction items generalizing j with
  | nil => simp [prettyItems, itemsTail]
  | cons k items ih =>
    have hne : prettyItems level (k :: items) ≠ [] := by simp [prettyItems]
    rw [prettyItems, String.intercalate_cons_of_ne_nil hne, String.toList_append, String.toList_append, ih]
    simp [itemsTail]

theorem toList_prettyMembers (level : Nat) (m : String × Json) (members : List (String × Json)) :
    (",".intercalate (prettyMembers level (m :: members))).toList =
      (indentation level).toList ++ ((quote m.1).toList ++
        (": ".toList ++ ((prettyAt level m.2).toList ++ membersTail level members))) := by
  induction members generalizing m with
  | nil => simp [prettyMembers, membersTail]
  | cons n members ih =>
    have hne : prettyMembers level (n :: members) ≠ [] := by simp [prettyMembers]
    rw [prettyMembers, String.intercalate_cons_of_ne_nil hne, String.toList_append, String.toList_append, ih]
    simp [membersTail]

theorem toList_array (level : Nat) (j : Json) (items : List Json) :
    (prettyAt level (.array (j :: items))).toList = '[' :: ((indentation (level + 1)).toList ++
      ((prettyAt (level + 1) j).toList ++ (itemsTail (level + 1) items ++
        ((indentation level).toList ++ [']'])))) := by
  rw [prettyAt, String.toList_append, String.toList_append, String.toList_append, toList_prettyItems]
  simp

theorem toList_object (level : Nat) (m : String × Json) (members : List (String × Json)) :
    (prettyAt level (.object (m :: members))).toList = '\x7b' :: ((indentation (level + 1)).toList ++
      ((quote m.1).toList ++ (": ".toList ++ ((prettyAt (level + 1) m.2).toList ++
        (membersTail (level + 1) members ++ ((indentation level).toList ++ ['\x7d'])))))) := by
  rw [prettyAt, String.toList_append, String.toList_append, String.toList_append, toList_prettyMembers]
  simp

/-- A whole number as it is written. -/
theorem toList_int (n : Int) : (compact (.int n)).toList =
    if n < 0 then '-' :: Nat.toDigits 10 n.natAbs else Nat.toDigits 10 n.natAbs := by
  rw [compact, show toString n = n.repr from rfl, Int.repr_eq_if, Nat.repr_eq_ofList_toDigits,
    Nat.repr_eq_ofList_toDigits]
  by_cases h : n < 0
  · rw [if_pos h, if_neg (by omega), show (-n).toNat = n.natAbs by omega]
    simp
  · rw [if_neg h, if_pos (by omega), show n.toNat = n.natAbs by omega]
    simp

/-- How a value starts. -/
theorem head_pretty (h : j.isWhole = true) (level : Nat) :
    ∃ c cs, (prettyAt level j).toList = c :: cs ∧ isSpace c = false ∧ c ≠ ']' := by
  have hdigit : ∀ c : Char, c.isDigit = true → isSpace c = false ∧ c ≠ ']' := by
    intro c hc
    constructor
    · cases hspace : isSpace c with
      | false => rfl
      | true =>
        simp only [isSpace, Bool.or_eq_true, beq_iff_eq] at hspace
        rcases hspace with ((rfl | rfl) | rfl) | rfl <;> exact absurd hc (by decide)
    · rintro rfl
      exact absurd hc (by decide)
  match j, h with
  | .null, _ => exact ⟨'n', "ull".toList, by simp [prettyAt, compact], rfl, by decide⟩
  | .bool true, _ => exact ⟨'t', "rue".toList, by simp [prettyAt, compact], rfl, by decide⟩
  | .bool false, _ => exact ⟨'f', "alse".toList, by simp [prettyAt, compact], rfl, by decide⟩
  | .text s, _ => exact ⟨'"', _, toList_quote s, rfl, by decide⟩
  | .array [], _ => exact ⟨'[', [']'], by simp [prettyAt], rfl, by decide⟩
  | .array (j :: items), _ => exact ⟨'[', _, toList_array level j items, rfl, by decide⟩
  | .object [], _ => exact ⟨'\x7b', ['\x7d'], by simp [prettyAt], rfl, by decide⟩
  | .object (m :: members), _ => exact ⟨'\x7b', _, toList_object level m members, rfl, by decide⟩
  | .int n, _ =>
    have hint := toList_int n
    by_cases hn : n < 0
    · rw [if_pos hn] at hint
      exact ⟨'-', _, hint, rfl, by decide⟩
    · rw [if_neg hn] at hint
      obtain ⟨c, cs, hcs⟩ := List.exists_cons_of_ne_nil (Nat.toDigits_ne_nil (n := n.natAbs) (b := 10))
      rw [hcs] at hint
      exact ⟨c, cs, hint, hdigit c (isDigit_of_mem_toDigits (hcs ▸ List.mem_cons_self))⟩

theorem prettyAt_text (level : Nat) (s : String) : prettyAt level (.text s) = quote s := by
  rw [prettyAt, compact] <;> simp

theorem prettyAt_int (level : Nat) (n : Int) : prettyAt level (.int n) = compact (.int n) := by
  rw [prettyAt] <;> simp

theorem skipSpaces_pretty (h : j.isWhole = true) (level : Nat) (rest : List Char) :
    skipSpaces ((prettyAt level j).toList ++ rest) = (prettyAt level j).toList ++ rest := by
  obtain ⟨c, cs, hcs, hspace, -⟩ := head_pretty h level
  rw [hcs]
  exact skipSpaces_cons hspace

theorem itemsTail_cons (level : Nat) (j : Json) (items : List Json) (more : List Char) :
    itemsTail level (j :: items) ++ more = ',' :: ((indentation level).toList ++
      ((prettyAt level j).toList ++ (itemsTail level items ++ more))) := by
  simp [itemsTail]

theorem membersTail_cons (level : Nat) (m : String × Json) (members : List (String × Json))
    (more : List Char) : membersTail level (m :: members) ++ more = ',' :: ((indentation level).toList ++
      ((quote m.1).toList ++ (": ".toList ++ ((prettyAt level m.2).toList ++
        (membersTail level members ++ more))))) := by
  simp [membersTail]

/-! ### How long the text is -/

theorem length_indentation_pos (level : Nat) : 0 < (indentation level).toList.length := by
  simp [indentation]

mutual

/-- Reading a value takes no more steps than its text has characters. -/
theorem effort_le_length : ∀ (j : Json) (level : Nat), j.isWhole = true →
    j.effort ≤ (prettyAt level j).toList.length
  | .array [], level, _ => by simp [effort, effortItems, prettyAt]
  | .object [], level, _ => by simp [effort, effortMembers, prettyAt]
  | .array (j :: items), level, h => by
    obtain ⟨hj, hitems⟩ := Bool.and_eq_true_iff.1 h
    have hfirst := effort_le_length j (level + 1) hj
    have hrest := effortItems_le_length items (level + 1) hitems
    have hindent := length_indentation_pos (level + 1)
    rw [toList_array, effort, effortItems]
    simp only [List.length_cons, List.length_append]
    omega
  | .object ((name, j) :: members), level, h => by
    obtain ⟨hj, hmembers⟩ := Bool.and_eq_true_iff.1 h
    have hfirst := effort_le_length j (level + 1) hj
    have hrest := effortMembers_le_length members (level + 1) hmembers
    have hindent := length_indentation_pos (level + 1)
    rw [toList_object, effort, effortMembers]
    simp only [List.length_cons, List.length_append]
    omega
  | .null, level, h | .bool _, level, h | .int _, level, h | .float _, level, h | .text _, level, h => by
    obtain ⟨c, cs, hcs, -⟩ := head_pretty h level
    rw [hcs]
    simp [effort]

theorem effortItems_le_length : ∀ (items : List Json) (level : Nat), areWholeItems items = true →
    effortItems items ≤ (itemsTail level items).length
  | [], _, _ => Nat.le_refl 0
  | j :: items, level, h => by
    obtain ⟨hj, hitems⟩ := Bool.and_eq_true_iff.1 h
    have hfirst := effort_le_length j level hj
    have hrest := effortItems_le_length items level hitems
    rw [← List.append_nil (itemsTail level (j :: items)), itemsTail_cons, effortItems]
    simp only [List.length_cons, List.length_append, List.append_nil]
    omega

theorem effortMembers_le_length : ∀ (members : List (String × Json)) (level : Nat),
    areWholeMembers members = true → effortMembers members ≤ (membersTail level members).length
  | [], _, _ => Nat.le_refl 0
  | (name, j) :: members, level, h => by
    obtain ⟨hj, hmembers⟩ := Bool.and_eq_true_iff.1 h
    have hfirst := effort_le_length j level hj
    have hrest := effortMembers_le_length members level hmembers
    rw [← List.append_nil (membersTail level ((name, j) :: members)), membersTail_cons, effortMembers]
    simp only [List.length_cons, List.length_append, List.append_nil]
    omega

end

/-! ### One step of the reader -/

theorem readValue?_quoted (h : skipSpaces cs = '"' :: rest) :
    readValue? (fuel + 1) depth cs = (readText? [] rest).map fun (s, rest) => (.text s, rest) := by
  rw [readValue?, h]
  rfl

theorem readValue?_negative (h : skipSpaces cs = '-' :: rest) :
    readValue? (fuel + 1) depth cs = readNumber? true rest := by
  rw [readValue?, h]
  rfl

theorem readValue?_digit (h : skipSpaces cs = c :: rest) (hc : c.isDigit = true) :
    readValue? (fuel + 1) depth cs = readNumber? false (c :: rest) := by
  have hne : c ≠ '"' ∧ c ≠ '[' ∧ c ≠ '\x7b' ∧ c ≠ 'n' ∧ c ≠ 't' ∧ c ≠ 'f' ∧ c ≠ '-' := by
    refine ⟨?_, ?_, ?_, ?_, ?_, ?_, ?_⟩ <;> (rintro rfl; exact absurd hc (by decide))
  rw [readValue?, h]
  split <;> simp_all

/-- An array that is not empty is read item by item, one container deeper. -/
theorem readValue?_array {tail : List Char} (h : skipSpaces cs = '[' :: rest)
    (hrest : skipSpaces rest = c :: tail) (hc : c ≠ ']') :
    readValue? (fuel + 1) depth cs = if depth = 0 then none
      else (readItems? fuel (depth - 1) (c :: tail)).map fun (items, rest) => (.array items, rest) := by
  rw [readValue?, h]
  simp only [hrest]
  split
  · rfl
  · split
    · rename_i heq
      exact absurd (List.cons.inj heq).1 hc
    · rfl

/-- An object that is not empty is read member by member, one container deeper. -/
theorem readValue?_object {tail : List Char} (h : skipSpaces cs = '\x7b' :: rest)
    (hrest : skipSpaces rest = c :: tail) (hc : c ≠ '\x7d') :
    readValue? (fuel + 1) depth cs = if depth = 0 then none
      else (readMembers? fuel (depth - 1) (c :: tail)).map fun (ms, rest) => (.object ms, rest) := by
  rw [readValue?, h]
  simp only [hrest]
  split
  · rfl
  · split
    · rename_i heq
      exact absurd (List.cons.inj heq).1 hc
    · rfl

/-- An array is not read if an item is not. -/
theorem readItems?_none (h : readValue? fuel depth cs = none) : readItems? (fuel + 1) depth cs = none := by
  rw [readItems?, h]

/-- The last item of an array. -/
theorem readItems?_last {after : List Char} (h : readValue? fuel depth cs = some (j, after))
    (hafter : skipSpaces after = ']' :: rest) :
    readItems? (fuel + 1) depth cs = some ([j], rest) := by
  rw [readItems?, h]
  simp only [hafter]

/-- An item of an array with others behind it. -/
theorem readItems?_next {after : List Char} (h : readValue? fuel depth cs = some (j, after))
    (hafter : skipSpaces after = ',' :: rest) : readItems? (fuel + 1) depth cs =
      (readItems? fuel depth rest).map fun (items, rest) => (j :: items, rest) := by
  rw [readItems?, h]
  simp only [hafter]

section Members

variable {name : String} {valued after : List Char}

/-- An object is not read if the value of a member is not. -/
theorem readMembers?_none (hname : skipSpaces cs = (quote name).toList ++ ':' :: valued)
    (h : readValue? fuel depth valued = none) : readMembers? (fuel + 1) depth cs = none := by
  rw [toList_quote, List.cons_append, List.append_assoc, List.singleton_append] at hname
  rw [readMembers?, hname]
  simp only [readText?_quote, skipSpaces_cons (c := ':') rfl, h]

/-- The last member of an object. -/
theorem readMembers?_last (hname : skipSpaces cs = (quote name).toList ++ ':' :: valued)
    (h : readValue? fuel depth valued = some (j, after)) (hafter : skipSpaces after = '\x7d' :: rest) :
    readMembers? (fuel + 1) depth cs = some ([(name, j)], rest) := by
  rw [toList_quote, List.cons_append, List.append_assoc, List.singleton_append] at hname
  rw [readMembers?, hname]
  simp only [readText?_quote, skipSpaces_cons (c := ':') rfl, h, hafter]

/-- A member of an object with others behind it. -/
theorem readMembers?_next (hname : skipSpaces cs = (quote name).toList ++ ':' :: valued)
    (h : readValue? fuel depth valued = some (j, after)) (hafter : skipSpaces after = ',' :: rest) :
    readMembers? (fuel + 1) depth cs =
      (readMembers? fuel depth rest).map fun (ms, rest) => ((name, j) :: ms, rest) := by
  rw [toList_quote, List.cons_append, List.append_assoc, List.singleton_append] at hname
  rw [readMembers?, hname]
  simp only [readText?_quote, skipSpaces_cons (c := ':') rfl, h, hafter]

end Members

/-! ### Whole values -/

theorem closesNumber_indentation (level : Nat) (rest : List Char) :
    closesNumber ((indentation level).toList ++ rest) := by
  have hline : (indentation level).toList = '\n' :: List.replicate (2 * level) ' ' := by
    simp [indentation]
  rw [hline]
  exact closesNumber_cons (by simp)

theorem closesNumber_itemsTail (items : List Json) (close : Nat) :
    closesNumber (itemsTail level items ++ ((indentation close).toList ++ rest)) := by
  cases items with
  | nil => exact closesNumber_indentation close rest
  | cons j items =>
    rw [itemsTail_cons]
    exact closesNumber_cons (by simp)

theorem closesNumber_membersTail (members : List (String × Json)) (close : Nat) :
    closesNumber (membersTail level members ++ ((indentation close).toList ++ rest)) := by
  cases members with
  | nil => exact closesNumber_indentation close rest
  | cons m members =>
    rw [membersTail_cons]
    exact closesNumber_cons (by simp)

theorem skipSpaces_quote (name : String) (more : List Char) :
    skipSpaces ((quote name).toList ++ more) = (quote name).toList ++ more := by
  rw [toList_quote]
  exact skipSpaces_cons rfl

/-- Whether so many steps read values back, with anything behind them that a number may end before, and
refuse them if too many containers stand around their innermost parts. -/
def ReadsValues (fuel : Nat) : Prop :=
  ∀ (j : Json) (depth : Nat) {level : Nat} {cs rest : List Char}, j.isWhole = true → j.effort ≤ fuel →
    closesNumber rest → skipSpaces cs = (prettyAt level j).toList ++ rest →
    readValue? fuel depth cs = if j.nesting ≤ depth then some (j, rest) else none

/-- The same of the items of an array. -/
def ReadsItems (fuel : Nat) : Prop :=
  ∀ (j : Json) (items : List Json) (level close depth : Nat) {cs : List Char} (rest : List Char),
    areWholeItems (j :: items) = true → effortItems (j :: items) ≤ fuel →
    skipSpaces cs = (prettyAt level j).toList ++ (itemsTail level items ++
      ((indentation close).toList ++ ']' :: rest)) →
    readItems? fuel depth cs =
      if nestingItems (j :: items) ≤ depth then some (j :: items, rest) else none

/-- The same of the members of an object. -/
def ReadsMembers (fuel : Nat) : Prop :=
  ∀ (m : String × Json) (members : List (String × Json)) (level close depth : Nat)
    {cs : List Char} (rest : List Char), areWholeMembers (m :: members) = true →
    effortMembers (m :: members) ≤ fuel →
    skipSpaces cs = (quote m.1).toList ++ (": ".toList ++ ((prettyAt level m.2).toList ++
      (membersTail level members ++ ((indentation close).toList ++ '\x7d' :: rest)))) →
    readMembers? fuel depth cs =
      if nestingMembers (m :: members) ≤ depth then some (m :: members, rest) else none

/-- A whole number is read back. -/
theorem readValue?_int {n : Int} (hwhole : (Json.int n).isWhole = true) (hrest : closesNumber rest)
    (h : skipSpaces cs = (prettyAt level (.int n)).toList ++ rest) :
    readValue? (fuel + 1) depth cs = some (.int n, rest) := by
  simp only [isWhole, Bool.and_eq_true, decide_eq_true_eq] at hwhole
  rw [prettyAt_int, toList_int] at h
  by_cases hn : n < 0
  · rw [if_pos hn, List.cons_append] at h
    have hread : readNumber? true (Nat.toDigits 10 n.natAbs ++ rest) =
        some (.int (-(n.natAbs : Int)), rest) :=
      readNumber?_digits hrest (by rw [if_pos rfl]; omega) (fun _ => by omega)
    rw [readValue?_negative h, hread, show -(n.natAbs : Int) = n by omega]
  · rw [if_neg hn] at h
    obtain ⟨c, more, hdigits⟩ :=
      List.exists_cons_of_ne_nil (Nat.toDigits_ne_nil (n := n.natAbs) (b := 10))
    have hread : readNumber? false (Nat.toDigits 10 n.natAbs ++ rest) =
        some (.int (n.natAbs : Int), rest) :=
      readNumber?_digits hrest (by rw [if_neg Bool.false_ne_true]; omega) (fun h => by cases h)
    rw [hdigits, List.cons_append] at h hread
    have hc : c.isDigit = true := isDigit_of_mem_toDigits (hdigits ▸ List.mem_cons_self)
    rw [readValue?_digit h hc, hread, show (n.natAbs : Int) = n by omega]

/-- An array that is not empty is read back if its items are. -/
theorem ReadsItems.array (hread : ReadsItems fuel) (j : Json) (items : List Json)
    (hwhole : areWholeItems (j :: items) = true) (heffort : effortItems (j :: items) ≤ fuel)
    (h : skipSpaces cs = (prettyAt level (.array (j :: items))).toList ++ rest) :
    readValue? (fuel + 1) depth cs =
      if 1 + nestingItems (j :: items) ≤ depth then some (.array (j :: items), rest) else none := by
  have hj : j.isWhole = true := (Bool.and_eq_true_iff.1 hwhole).1
  obtain ⟨c, text, hhead, -, hc⟩ := head_pretty hj (level + 1)
  have hstart := skipSpaces_pretty hj (level + 1) (itemsTail (level + 1) items ++
    ((indentation level).toList ++ ']' :: rest))
  have hfirst := (skipSpaces_indentation (level + 1) _).trans hstart
  have hitems := hread j items (level + 1) level (depth - 1) rest hwhole heffort hstart
  rw [toList_array] at h
  simp only [List.cons_append, List.append_assoc, List.nil_append] at h
  rw [hhead, List.cons_append] at hfirst hitems
  rw [hhead, List.cons_append] at h
  rw [readValue?_array h hfirst hc, hitems]
  split
  · rw [if_neg (by omega)]
  · split
    · rw [if_pos (by omega), Option.map_some]
    · rw [if_neg (by omega), Option.map_none]

/-- An object that is not empty is read back if its members are. -/
theorem ReadsMembers.object (hread : ReadsMembers fuel) (m : String × Json)
    (members : List (String × Json)) (hwhole : areWholeMembers (m :: members) = true)
    (heffort : effortMembers (m :: members) ≤ fuel)
    (h : skipSpaces cs = (prettyAt level (.object (m :: members))).toList ++ rest) :
    readValue? (fuel + 1) depth cs =
      if 1 + nestingMembers (m :: members) ≤ depth then some (.object (m :: members), rest)
      else none := by
  have hstart := skipSpaces_quote m.1 (": ".toList ++ ((prettyAt (level + 1) m.2).toList ++
    (membersTail (level + 1) members ++ ((indentation level).toList ++ '\x7d' :: rest))))
  have hfirst := (skipSpaces_indentation (level + 1) _).trans hstart
  have hmembers := hread m members (level + 1) level (depth - 1) rest hwhole heffort hstart
  rw [toList_object] at h
  simp only [List.cons_append, List.append_assoc, List.nil_append] at h
  rw [toList_quote, List.cons_append] at hfirst hmembers
  rw [toList_quote, List.cons_append] at h
  rw [readValue?_object h hfirst (by decide), hmembers]
  split
  · rw [if_neg (by omega)]
  · split
    · rw [if_pos (by omega), Option.map_some]
    · rw [if_neg (by omega), Option.map_none]

/-- One step more reads values back. -/
theorem ReadsItems.values (hitems : ReadsItems fuel) (hmembers : ReadsMembers fuel) :
    ReadsValues (fuel + 1) := by
  intro j depth level cs rest hwhole heffort hrest h
  cases j with
  | null =>
    rw [readValue?, h]
    simp [prettyAt, compact, nesting]
  | bool b =>
    rw [readValue?, h]
    cases b <;> simp [prettyAt, compact, nesting]
  | int n => rw [readValue?_int hwhole hrest h, nesting, if_pos (Nat.zero_le _)]
  | float f => simp [isWhole] at hwhole
  | text s =>
    rw [prettyAt_text, toList_quote, List.cons_append, List.append_assoc, List.singleton_append] at h
    rw [readValue?_quoted h, readText?_quote]
    simp [nesting]
  | array items =>
    rw [effort] at heffort
    cases items with
    | nil =>
      have hempty : (prettyAt level (.array [])).toList = ['[', ']'] := by simp [prettyAt]
      rw [hempty, List.cons_append, List.singleton_append] at h
      rw [readValue?, h]
      cases depth <;> simp [nesting, nestingItems, skipSpaces_cons (c := ']') rfl]
    | cons j items => exact hitems.array j items hwhole (by omega) h
  | object members =>
    rw [effort] at heffort
    cases members with
    | nil =>
      have hempty : (prettyAt level (.object [])).toList = ['\x7b', '\x7d'] := by simp [prettyAt]
      rw [hempty, List.cons_append, List.singleton_append] at h
      rw [readValue?, h]
      cases depth <;> simp [nesting, nestingMembers, skipSpaces_cons (c := '\x7d') rfl]
    | cons m members => exact hmembers.object m members hwhole (by omega) h

/-- One step more reads items back. -/
theorem ReadsValues.items (hvalues : ReadsValues fuel) (hitems : ReadsItems fuel) :
    ReadsItems (fuel + 1) := by
  intro j items level close depth cs rest hwhole heffort h
  obtain ⟨hj, hmore⟩ := Bool.and_eq_true_iff.1 hwhole
  rw [effortItems] at heffort
  have hvalue := hvalues j depth hj (by omega) (closesNumber_itemsTail items close) h
  rw [nestingItems]
  split at hvalue
  · cases items with
    | nil =>
      have hafter : skipSpaces ((indentation close).toList ++ ']' :: rest) = ']' :: rest :=
        (skipSpaces_indentation close _).trans (skipSpaces_cons rfl)
      rw [readItems?_last hvalue hafter, nestingItems, Nat.max_zero, if_pos ‹_›]
    | cons k items =>
      rw [itemsTail_cons] at hvalue
      have hnext := hitems k items level close depth rest hmore (by omega)
        ((skipSpaces_indentation level _).trans
          (skipSpaces_pretty (Bool.and_eq_true_iff.1 hmore).1 level _))
      rw [readItems?_next hvalue (skipSpaces_cons rfl), hnext]
      split
      · rw [if_pos (by omega), Option.map_some]
      · rw [if_neg (by omega), Option.map_none]
  · rw [readItems?_none hvalue, if_neg (by omega)]

/-- One step more reads members back. -/
theorem ReadsValues.members (hvalues : ReadsValues fuel) (hmembers : ReadsMembers fuel) :
    ReadsMembers (fuel + 1) := by
  intro m members level close depth cs rest hwhole heffort h
  obtain ⟨name, j⟩ := m
  obtain ⟨hj, hmore⟩ := Bool.and_eq_true_iff.1 hwhole
  rw [effortMembers] at heffort
  have hstart : skipSpaces (' ' :: ((prettyAt level j).toList ++ (membersTail level members ++
      ((indentation close).toList ++ '\x7d' :: rest)))) = _ :=
    (skipSpaces_append (List.forall_mem_singleton.2 rfl)).trans (skipSpaces_pretty hj level _)
  have hvalue := hvalues j depth hj (by omega)
    (closesNumber_membersTail members close) hstart
  rw [show ": ".toList = [':', ' '] from rfl, List.cons_append, List.singleton_append] at h
  rw [nestingMembers]
  split at hvalue
  · cases members with
    | nil =>
      have hafter : skipSpaces ((indentation close).toList ++ '\x7d' :: rest) = '\x7d' :: rest :=
        (skipSpaces_indentation close _).trans (skipSpaces_cons rfl)
      rw [readMembers?_last h hvalue hafter, nestingMembers, Nat.max_zero, if_pos ‹_›]
    | cons n members =>
      rw [membersTail_cons] at h hvalue
      have hnext := hmembers n members level close depth rest hmore (by omega)
        ((skipSpaces_indentation level _).trans (skipSpaces_quote n.1 _))
      rw [readMembers?_next h hvalue (skipSpaces_cons rfl), hnext]
      split
      · rw [if_pos (by omega), Option.map_some]
      · rw [if_neg (by omega), Option.map_none]
  · rw [readMembers?_none h hvalue, if_neg (by omega)]

/-- **What is written is read back**, however many steps it takes. -/
theorem reads_all (fuel : Nat) : ReadsValues fuel ∧ ReadsItems fuel ∧ ReadsMembers fuel := by
  induction fuel with
  | zero =>
    refine ⟨fun j _ _ _ _ _ heffort => ?_, fun j items _ _ _ _ _ _ heffort => ?_,
      fun m members _ _ _ _ _ _ heffort => ?_⟩
    · cases j <;> simp [effort] at heffort
    · simp [effortItems] at heffort
    · simp [effortMembers] at heffort
  | succ fuel ih =>
    obtain ⟨hvalues, hitems, hmembers⟩ := ih
    exact ⟨hitems.values hmembers, hvalues.items hitems, hvalues.members hmembers⟩

end Values

/-! ### Whole texts -/

/-- **A text that was laid out over lines is read back as the value that it was laid out from**, if no
more containers stand around its innermost part than the reader allows, and not at all otherwise. -/
theorem parse?_pretty {j : Json} (h : j.isWhole = true) (depth : Nat) :
    parse? depth (pretty j).toList = if j.nesting ≤ depth then some j else none := by
  have heffort : j.effort ≤ 2 * (pretty j).toList.length + 2 :=
    Nat.le_trans (effort_le_length j 0 h) (by rw [pretty]; omega)
  have hstart : skipSpaces (pretty j).toList = (prettyAt 0 j).toList ++ [] := by
    have hskip := skipSpaces_pretty h 0 []
    rwa [List.append_nil] at hskip ⊢
  have hread := (reads_all _).1 j depth h heffort closesNumber_nil hstart
  rw [parse?, hread]
  by_cases hdepth : j.nesting ≤ depth <;> simp [hdepth, skipSpaces]

end SiteHost.Json
