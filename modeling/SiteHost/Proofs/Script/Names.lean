import SiteHost.Config.Check
import SiteHost.Proofs.Disk.Place
import SiteHost.Proofs.Script.Grammar
import SiteHost.Proofs.Script.Scanning

/-!
# Dotted names

A dotted name is written without blanks, so that its text is that of its words with dots between them.

* `Text.joined_pieces` — a text is its pieces, put together again;
* `Text.cutLast?_eq_some` — what stands before and after the last separator;
* `isDottedName_joined`, `isDottedName_qualify`, `shortName_qualify` — what names give that are put together,
  and what a name inside a namespace is;
* `spells_name`, `lexes_dotted` — a name and a dotted name are read as what they are.
-/

namespace SiteHost

namespace Text

variable {sep : Char} {cs before after : List Char}

theorem cutFirst?_cons (sep c : Char) (rest : List Char) : cutFirst? sep (c :: rest) =
    if c = sep then some ([], rest) else (cutFirst? sep rest).map fun found => (c :: found.1, found.2) := by
  by_cases hc : c = sep
  · simp [cutFirst?, hc]
  · rw [if_neg hc]
    simp only [cutFirst?, List.dropWhile_cons, List.takeWhile_cons, decide_not, hc, decide_false,
      Bool.not_false, if_true]
    split <;> rfl

theorem cutFirst?_eq_some (h : cutFirst? sep cs = some (before, after)) :
    cs = before ++ sep :: after ∧ sep ∉ before := by
  induction cs generalizing before with
  | nil => cases h
  | cons c rest ih =>
    rw [cutFirst?_cons] at h
    split at h
    · rename_i hc
      cases h
      exact ⟨by rw [hc, List.nil_append], List.not_mem_nil⟩
    · rename_i hc
      obtain ⟨⟨before', after'⟩, hcut, heq⟩ := Option.map_eq_some_iff.1 h
      cases heq
      obtain ⟨hrest, hnot⟩ := ih hcut
      refine ⟨by rw [hrest, List.cons_append], fun hmem => ?_⟩
      exact (List.mem_cons.1 hmem).elim (fun heq => hc heq.symm) hnot

theorem cutFirst?_eq_none (h : cutFirst? sep cs = none) : sep ∉ cs := by
  induction cs with
  | nil => exact List.not_mem_nil
  | cons c rest ih =>
    rw [cutFirst?_cons] at h
    split at h
    · cases h
    · rename_i hc
      intro hmem
      exact (List.mem_cons.1 hmem).elim (fun heq => hc heq.symm) (ih (Option.map_eq_none_iff.1 h))

/-- What stands before and after the last separator. -/
theorem cutLast?_eq_some (h : cutLast? sep cs = some (before, after)) :
    cs = before ++ sep :: after ∧ sep ∉ after := by
  obtain ⟨⟨a, b⟩, hcut, heq⟩ := Option.map_eq_some_iff.1 h
  cases heq
  obtain ⟨hcs, hnot⟩ := cutFirst?_eq_some hcut
  refine ⟨?_, by simpa using hnot⟩
  have hreverse := congrArg List.reverse hcs
  rw [List.reverse_reverse] at hreverse
  rw [hreverse]
  simp

theorem cutLast?_eq_none (h : cutLast? sep cs = none) : sep ∉ cs := by
  have hnot := cutFirst?_eq_none (Option.map_eq_none_iff.1 h)
  simpa using hnot

/-- A text is cut at its first separator, if it has one. -/
theorem cut_cases (sep : Char) (cs : List Char) : cut sep cs = [cs] ∨
    ∃ before after, cs = before ++ sep :: after ∧ cut sep cs = before :: cut sep after := by
  cases h : cutFirst? sep cs with
  | none => exact .inl (cut_of_notMem (cutFirst?_eq_none h))
  | some found =>
    obtain ⟨hcs, hnot⟩ := cutFirst?_eq_some h
    refine .inr ⟨found.1, found.2, hcs, ?_⟩
    rw [hcs, cut_append, cut_of_notMem hnot, List.singleton_append]

/-- **A text is its pieces, put together again.** -/
theorem joined_pieces (sep : Char) (s : String) : joined (String.singleton sep) (pieces sep s) = s := by
  have hjoined : ∀ n, ∀ cs : List Char, cs.length ≤ n →
      joined (String.singleton sep) ((cut sep cs).map String.ofList) = String.ofList cs := by
    intro n
    induction n with
    | zero =>
      intro cs hn
      obtain rfl := List.length_eq_zero_iff.1 (Nat.le_zero.1 hn)
      rfl
    | succ n ih =>
      intro cs hn
      rcases cut_cases sep cs with hcut | ⟨before, after, rfl, hcut⟩
      · rw [hcut, List.map_singleton, joined, String.intercalate_singleton]
      · rw [List.length_append, List.length_cons] at hn
        rw [hcut, List.map_cons, joined, String.intercalate_cons_of_ne_nil, ← joined, ih after (by omega)]
        · refine String.toList_injective ?_
          simp
        · simpa using cut_ne_nil sep after
  rw [pieces, hjoined _ s.toList (Nat.le_refl _), String.ofList_toList]

end Text

namespace Script

open SiteHost.Config (isName isDottedName)

variable {next : List Char}

/-! ## Names with dots between them -/

theorem dot_notMem_of_isName {cs : List Char} (h : isName cs = true) : '.' ∉ cs := by
  cases cs with
  | nil => exact List.not_mem_nil
  | cons c rest =>
    rw [isName, Bool.and_eq_true, List.all_eq_true] at h
    intro hmem
    rcases List.mem_cons.1 hmem with rfl | hmem
    · exact absurd h.1 (by decide)
    · exact absurd (h.2 _ hmem) (by decide)

theorem isDottedName_iff {v : String} :
    isDottedName v = true ↔ ∀ w ∈ Text.pieces '.' v, isName w.toList = true := by
  rw [isDottedName, List.all_eq_true, Text.pieces, List.forall_mem_map]
  simp only [String.toList_ofList]

theorem isDottedName_of_isName {w : String} (h : isName w.toList = true) : isDottedName w = true := by
  rw [isDottedName_iff, Text.pieces_of_notMem (dot_notMem_of_isName h)]
  exact List.forall_mem_singleton.2 h

/-- Names with dots between them are the pieces of a dotted name. -/
theorem pieces_joined_dot {names : List String} (hne : names ≠ [])
    (h : ∀ w ∈ names, isName w.toList = true) : Text.pieces '.' (Text.joined "." names) = names :=
  Text.pieces_joined '.' hne fun w hw => dot_notMem_of_isName (h w hw)

theorem isDottedName_joined {names : List String} (hne : names ≠ [])
    (h : ∀ w ∈ names, isName w.toList = true) : isDottedName (Text.joined "." names) = true := by
  rwa [isDottedName_iff, pieces_joined_dot hne h]

theorem exists_pieces (v : String) :
    ∃ first rest, Text.pieces '.' v = first :: rest ∧ Text.joined "." (first :: rest) = v := by
  cases h : Text.pieces '.' v with
  | nil =>
    rw [Text.pieces, List.map_eq_nil_iff] at h
    exact absurd h (Text.cut_ne_nil '.' v.toList)
  | cons first rest => exact ⟨first, rest, rfl, h ▸ Text.joined_pieces '.' v⟩

theorem pieces_qualify {scope : String} (h : scope ≠ "") (name : String) :
    Text.pieces '.' (qualify scope name) = Text.pieces '.' scope ++ Text.pieces '.' name := by
  rw [qualify, if_neg h]
  exact Text.pieces_append '.' scope name

/-- A dotted name inside a namespace is a dotted name. -/
theorem isDottedName_qualify {scope name : String} (hscope : scope = "" ∨ isDottedName scope = true)
    (hname : isDottedName name = true) : isDottedName (qualify scope name) = true := by
  by_cases hempty : scope = ""
  · rwa [qualify, if_pos hempty]
  · rw [isDottedName_iff] at hname ⊢
    rw [pieces_qualify hempty, List.forall_mem_append]
    exact ⟨isDottedName_iff.1 (hscope.resolve_left hempty), hname⟩

/-- A name is the last segment of itself inside a namespace. -/
theorem shortName_qualify (scope : String) {name : String} (h : isName name.toList = true) :
    shortName (qualify scope name) = name := by
  have hname : Text.pieces '.' name = [name] := Text.pieces_of_notMem (dot_notMem_of_isName h)
  by_cases hempty : scope = ""
  · rw [shortName, qualify, if_pos hempty, hname]
    rfl
  · rw [shortName, pieces_qualify hempty, hname, List.getLast?_concat]
    rfl

/-! ## Names as tokens -/

/-- **A name is read as what it is**, if nothing follows that goes on with it. -/
theorem spells_name {w : String} (h : Config.isName w.toList = true)
    (hnext : ∀ c, next.head? = some c → isNamePart c = false) : Spells w.toList (.name w) next := by
  cases hw : w.toList with
  | nil =>
    rw [hw] at h
    cases h
  | cons c cs =>
    rw [hw, Config.isName, Bool.and_eq_true] at h
    have hname : Spells (c :: cs) (.name (String.ofList (c :: cs))) next :=
      spells_word h.1 (List.all_eq_true.1 h.2) hnext
    rwa [← hw, String.ofList_toList, hw] at hname

theorem lexes_name {w : String} (h : Config.isName w.toList = true)
    (hnext : ∀ c, next.head? = some c → isNamePart c = false) : Lexes w.toList [.name w] next :=
  (spells_name h hnext).lexes

theorem nameTokens_cons (first : String) {rest : List String} (h : rest ≠ []) :
    nameTokens (first :: rest) = .name first :: .dot :: nameTokens rest := by
  cases rest with
  | nil => exact absurd rfl h
  | cons second more => rfl

/-- **A dotted name is read as its words with dots between them.** -/
theorem lexes_dotted {v : String} (h : Config.isDottedName v = true)
    (hnext : ∀ c, next.head? = some c → isNamePart c = false) :
    Lexes v.toList (nameTokens (Text.pieces '.' v)) next := by
  have hlexes : ∀ n, ∀ cs : List Char, cs.length ≤ n → (Text.cut '.' cs).all Config.isName = true →
      Lexes cs (nameTokens ((Text.cut '.' cs).map String.ofList)) next := by
    intro n
    induction n with
    | zero =>
      intro cs hn hall
      obtain rfl := List.length_eq_zero_iff.1 (Nat.le_zero.1 hn)
      cases hall
    | succ n ih =>
      intro cs hn hall
      rcases Text.cut_cases '.' cs with hcut | ⟨before, after, rfl, hcut⟩
      · rw [hcut] at hall ⊢
        have hname : Config.isName (String.ofList cs).toList = true := by
          rw [String.toList_ofList]
          simpa using hall
        have := lexes_name hname hnext
        rwa [String.toList_ofList] at this
      · rw [List.length_append, List.length_cons] at hn
        rw [hcut, List.all_cons, Bool.and_eq_true] at hall
        have hname : Config.isName (String.ofList before).toList = true := by
          rw [String.toList_ofList]
          exact hall.1
        have hbefore : Lexes before [.name (String.ofList before)] ('.' :: (after ++ next)) := by
          have hword : Lexes (String.ofList before).toList _ ('.' :: (after ++ next)) :=
            lexes_name hname fun c hc => by
              cases hc
              decide
          rwa [String.toList_ofList] at hword
        rw [hcut, List.map_cons, nameTokens_cons _ (by simpa using Text.cut_ne_nil '.' after)]
        have hafter : Lexes ('.' :: after) (.dot :: nameTokens ((Text.cut '.' after).map String.ofList))
            next :=
          (lexes_mark rfl).append (ih after (by omega) hall.2)
        exact hbefore.append hafter
  exact hlexes _ v.toList (Nat.le_refl _) h

end Script

end SiteHost
