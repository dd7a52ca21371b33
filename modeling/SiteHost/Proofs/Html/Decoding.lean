import SiteHost.Html.Encode
import Mathlib.Data.Bool.AllAny
import Mathlib.Data.List.Infix

/-!
# Markup read back

* `special` — the characters that an entity is written for;
* `ReadsOnce` — what it is to read entities from left to right in a single pass;
* `decodeChars` — such a pass, and `ReadsOnce.eq_decodeChars`: it is the only one.

Every entity begins with the only ampersand in it (`entity_of_mem`), so no entity begins within
another one, and what the encoder writes falls into entities in one way. That is why text that
already looks encoded comes back as it was.

Principal results:

* `not_mem_of_mem_encode` — no other special character is left in encoded text;
* `exists_prefix_of_encode` — an ampersand in encoded text begins an entity;
* `decodeChars_encode` — encoded text is read back as it was.
-/

namespace SiteHost.Html

variable {c d : Char} {cs rest : List Char}

/-- The characters that mean something in markup. -/
def special : List Char := ['&', '<', '>', '"', '\'']

/-- An entity is an ampersand followed by text without one. -/
theorem entity_of_mem (h : c ∈ special) : ∃ body, entity c = '&' :: body ∧ '&' ∉ body := by
  simp only [special, List.mem_cons, List.not_mem_nil, or_false] at h
  obtain rfl | rfl | rfl | rfl | rfl := h
  · exact ⟨"amp;".toList, rfl, by decide⟩
  · exact ⟨"lt;".toList, rfl, by decide⟩
  · exact ⟨"gt;".toList, rfl, by decide⟩
  · exact ⟨"quot;".toList, rfl, by decide⟩
  · exact ⟨"#39;".toList, rfl, by decide⟩

theorem entity_of_not_mem (h : c ∉ special) : entity c = [c] := by
  simp only [special, List.mem_cons, List.not_mem_nil, or_false, not_or] at h
  unfold entity
  split <;> simp_all

theorem entity_ne_nil (c : Char) : entity c ≠ [] := by
  by_cases h : c ∈ special
  · obtain ⟨body, hbody, -⟩ := entity_of_mem h
    simp [hbody]
  · simp [entity_of_not_mem h]

/-- No entity is the beginning of the entity of another character, whatever follows. -/
theorem eq_of_entity_begins (hc : c ∈ special) (hd : d ∈ special)
    (h : entity d <+: entity c ++ rest) : d = c := by
  have hfree : ∀ c ∈ special, ∀ d ∈ special, entity d <+: entity c → d = c := by
    simp only [← List.all_iff_forall_prop]
    decide
  rcases List.prefix_or_prefix_of_prefix h (List.prefix_append (entity c) rest) with hdc | hcd
  · exact hfree c hc d hd hdc
  · exact (hfree d hd c hc hcd).symm

/-! ## Reading -/

/-- Reads the entities of a text from left to right in a single pass: an entity as its character, and
a character that begins no entity as itself. -/
structure ReadsOnce (read : List Char → List Char) : Prop where
  nil : read [] = []
  entity : ∀ c ∈ special, ∀ rest, read (Html.entity c ++ rest) = c :: read rest
  other : ∀ c rest, (∀ d ∈ special, ¬Html.entity d <+: c :: rest) →
    read (c :: rest) = c :: read rest

/-- The character whose entity a text begins with. -/
def entityAt? (cs : List Char) : Option Char :=
  special.find? fun c => (entity c).isPrefixOf cs

/-- The text that markup stands for. -/
def decodeChars : List Char → List Char
  | [] => []
  | c :: cs =>
    match entityAt? (c :: cs) with
    | some d => d :: decodeChars (cs.drop ((entity d).length - 1))
    | none => c :: decodeChars cs
termination_by cs => cs.length
decreasing_by all_goals simp only [List.length_drop, List.length_cons]; omega

theorem entityAt?_entity (h : c ∈ special) : entityAt? (entity c ++ rest) = some c := by
  rw [entityAt?]
  cases hfound : special.find? fun d => (entity d).isPrefixOf (entity c ++ rest) with
  | none =>
    have hmiss := List.find?_eq_none.mp hfound c h
    exact absurd (List.isPrefixOf_iff_prefix.mpr (List.prefix_append _ _)) hmiss
  | some d =>
    have hd := List.mem_of_find?_eq_some hfound
    have hbegins := List.find?_some (p := fun d => (entity d).isPrefixOf (entity c ++ rest)) hfound
    rw [eq_of_entity_begins h hd (List.isPrefixOf_iff_prefix.mp hbegins)]

theorem readsOnce_decodeChars : ReadsOnce decodeChars where
  nil := by rw [decodeChars]
  entity c hc rest := by
    have hfound : entityAt? (Html.entity c ++ rest) = some c := entityAt?_entity hc
    obtain ⟨body, hbody, -⟩ := entity_of_mem hc
    rw [hbody, List.cons_append] at hfound ⊢
    rw [decodeChars, hfound]
    simp [hbody]
  other c rest h := by
    have hnone : entityAt? (c :: rest) = none :=
      List.find?_eq_none.mpr fun d hd hbegins => h d hd (List.isPrefixOf_iff_prefix.mp hbegins)
    rw [decodeChars, hnone]

/-- There is one way to read a text once from left to right. -/
theorem ReadsOnce.eq_decodeChars {read : List Char → List Char} (h : ReadsOnce read) :
    read = decodeChars := by
  have hdecode := readsOnce_decodeChars
  funext cs
  -- An entity is not empty, so what is left after it is shorter.
  induction hn : cs.length using Nat.strongRecOn generalizing cs with
  | ind n ih =>
    subst hn
    cases cs with
    | nil => rw [h.nil, hdecode.nil]
    | cons c cs =>
      by_cases hentity : ∃ d ∈ special, Html.entity d <+: c :: cs
      · obtain ⟨d, hd, rest, hrest⟩ := hentity
        have hpos := List.length_pos_iff.mpr (entity_ne_nil d)
        have hshort : rest.length < (c :: cs).length := by rw [← hrest, List.length_append]; omega
        rw [← hrest, h.entity d hd, hdecode.entity d hd, ih _ hshort rest rfl]
      · have hother : ∀ d ∈ special, ¬Html.entity d <+: c :: cs :=
          fun d hd hbegins => hentity ⟨d, hd, hbegins⟩
        rw [h.other c cs hother, hdecode.other c cs hother, ih _ (by simp) cs rfl]

/-! ## What the encoder writes -/

theorem not_mem_of_mem_entity (h : d ∈ entity c) : d ∉ ['<', '>', '"', '\''] := by
  have hsafe : ∀ c ∈ special, ∀ d ∈ entity c, d ∉ ['<', '>', '"', '\''] := by
    simp only [← List.all_iff_forall_prop]
    decide
  by_cases hc : c ∈ special
  · exact hsafe c hc d h
  · rw [entity_of_not_mem hc, List.mem_singleton] at h
    subst h
    exact fun hd => hc (List.mem_cons_of_mem _ hd)

theorem not_mem_of_mem_encode {s : String} (h : d ∈ (encode s).toList) :
    d ∉ ['<', '>', '"', '\''] := by
  rw [encode, String.toList_ofList, List.mem_flatMap] at h
  obtain ⟨c, -, hd⟩ := h
  exact not_mem_of_mem_entity hd

/-- An ampersand within what a character is written as is the first character of its entity. -/
theorem mem_special_of_entity_eq {before after : List Char} (h : entity c = before ++ '&' :: after) :
    c ∈ special ∧ before = [] := by
  have hc : c ∈ special := by
    by_contra hc
    have hmem : '&' ∈ entity c := h ▸ List.mem_append_right _ List.mem_cons_self
    rw [entity_of_not_mem hc, List.mem_singleton] at hmem
    exact hc (hmem ▸ List.mem_cons_self)
  refine ⟨hc, ?_⟩
  obtain ⟨body, hbody, hnot⟩ := entity_of_mem hc
  rw [hbody] at h
  cases before with
  | nil => rfl
  | cons b before =>
    obtain ⟨-, h⟩ := List.cons.inj h
    exact absurd (h ▸ List.mem_append_right _ List.mem_cons_self) hnot

theorem exists_prefix_of_flatMap {before after : List Char}
    (h : cs.flatMap entity = before ++ '&' :: after) :
    ∃ c ∈ special, entity c <+: '&' :: after := by
  induction cs generalizing before with
  | nil => simp at h
  | cons c cs ih =>
    rw [List.flatMap_cons, List.append_eq_append_iff] at h
    obtain ⟨skipped, -, hafter⟩ | ⟨found, hentity, hafter⟩ := h
    · exact ih hafter
    · cases found with
      | nil =>
        have hrest : cs.flatMap entity = [] ++ '&' :: after := hafter.symm
        exact ih hrest
      | cons amp found =>
        obtain ⟨rfl, rfl⟩ := List.cons.inj hafter
        obtain ⟨hc, rfl⟩ := mem_special_of_entity_eq hentity
        exact ⟨c, hc, hentity ▸ List.prefix_append _ _⟩

/-- An ampersand in encoded text begins an entity. -/
theorem exists_prefix_of_encode {s : String} {before after : List Char}
    (h : (encode s).toList = before ++ '&' :: after) :
    ∃ c ∈ special, entity c <+: '&' :: after := by
  rw [encode, String.toList_ofList] at h
  exact exists_prefix_of_flatMap h

/-- What a character is written as is read back as the character. -/
theorem decodeChars_entity (c : Char) (rest : List Char) :
    decodeChars (entity c ++ rest) = c :: decodeChars rest := by
  by_cases hc : c ∈ special
  · exact readsOnce_decodeChars.entity c hc rest
  · rw [entity_of_not_mem hc, List.singleton_append]
    refine readsOnce_decodeChars.other c rest fun d hd hbegins => ?_
    obtain ⟨body, hbody, -⟩ := entity_of_mem hd
    rw [hbody, List.cons_prefix_cons] at hbegins
    exact hc (hbegins.1 ▸ List.mem_cons_self)

/-- Encoded text is read back as it was. -/
theorem decodeChars_encode (s : String) : decodeChars (encode s).toList = s.toList := by
  rw [encode, String.toList_ofList]
  induction s.toList with
  | nil => exact readsOnce_decodeChars.nil
  | cons c cs ih => rw [List.flatMap_cons, decodeChars_entity, ih]

/-- **Encoded text is harmless and loses nothing.** No special character but the ampersand is left in
it, and every ampersand begins an entity; the one reading of entities from left to right in a single
pass gives back every text; and text can be encoded piece by piece. -/
theorem encode_harmless_and_faithful :
    (∀ s : String, (∀ c ∈ (encode s).toList, c ∉ ['<', '>', '"', '\'']) ∧
      ∀ before after, (encode s).toList = before ++ '&' :: after →
        ∃ c ∈ special, entity c <+: '&' :: after) ∧
    (∃! read : List Char → List Char, ReadsOnce read ∧
      ∀ s : String, read (encode s).toList = s.toList) ∧
    ∀ s t : String, encode (s ++ t) = encode s ++ encode t := by
  refine ⟨fun s => ⟨fun _ => not_mem_of_mem_encode, fun _ _ => exists_prefix_of_encode⟩, ?_,
    encode_append⟩
  refine ⟨decodeChars, ⟨readsOnce_decodeChars, decodeChars_encode⟩, fun read hread => ?_⟩
  exact hread.1.eq_decodeChars

/-- Markup written as text, and text that looks like what that is written as. -/
theorem encode_harmless_and_faithful_markup :
    (∃ c ∈ special, entity c <+: '&' :: "lt;b&gt; &amp;lt;".toList) ∧
      ∃ read : List Char → List Char,
        read (encode "<b> &lt;").toList = "<b> &lt;".toList ∧
        read (encode "&amp;").toList = "&amp;".toList := by
  obtain ⟨hsafe, ⟨read, ⟨-, hread⟩, -⟩, -⟩ := encode_harmless_and_faithful
  refine ⟨?_, read, hread _, hread _⟩
  have hwritten : (encode "<b> &lt;").toList = [] ++ '&' :: "lt;b&gt; &amp;lt;".toList := by decide
  exact (hsafe "<b> &lt;").2 [] _ hwritten

end SiteHost.Html
