import Mathlib.Algebra.GroupWithZero.Nat
import Mathlib.Algebra.Order.BigOperators.Group.List
import Mathlib.Algebra.Order.Group.Nat
import SiteHost.Proofs.Script.Names
import SiteHost.Source

/-!
# What a digest of sources tells apart

The digest of a list of sources is taken of one stream of bytes, in which a zero closes every path and every
text. A text may hold zeros of its own, and nothing in the stream says which zeros close a field:

* `sourceChars` — the stream as characters;
* `zeroPieces` — what stands between the zeros of the stream, the last of them apart;
* `SourceText.ZeroFree` — a source without zeros of its own;
* `Digest.Collide` — two streams that show that SHA-256 has collisions.

Principal results:

* `sourceBytes_eq_iff` — two lists have one stream if and only if they have the same pieces;
* `length_zeroPieces` — there are two pieces for each source, and one more for each zero of its own;
* `eq_of_zeroPieces` — a list without zeros shares its pieces with no other list that is as long;
* `sourceHash_eq_iff` — all this of digests: lists are told apart by their pieces, unless their streams
  collide.
-/

namespace SiteHost

/-! ## Bytes of texts -/

theorem toList_loop_bytes (bs : ByteArray) (i : Nat) (read : List UInt8) :
    ByteArray.toList.loop bs i read = read.reverse ++ bs.data.toList.drop i := by
  fun_induction ByteArray.toList.loop bs i read with
  | case1 i read hlt ih =>
    have hi : i < bs.data.toList.length := hlt
    have hget : bs.get! i = bs.data.toList[i] := getElem!_pos bs.data i hlt
    rw [ih, List.drop_eq_getElem_cons hi, hget, List.reverse_cons, List.append_assoc, List.singleton_append]
  | case2 i read hge =>
    have hle : bs.data.toList.length ≤ i := Nat.le_of_not_lt hge
    rw [List.drop_eq_nil_of_le hle, List.append_nil]

theorem toList_bytes (bs : ByteArray) : bs.toList = bs.data.toList := by
  rw [ByteArray.toList, toList_loop_bytes]
  rfl

theorem toList_toUTF8_append (a b : String) :
    (a ++ b).toUTF8.toList = a.toUTF8.toList ++ b.toUTF8.toList := by
  simp [toList_bytes]

/-- Texts are told apart by their bytes. -/
theorem toList_toUTF8_inj {a b : String} : a.toUTF8.toList = b.toUTF8.toList ↔ a = b := by
  rw [toList_bytes, toList_bytes, Array.toList_inj, ← String.toByteArray_inj, ByteArray.ext_iff]
  rfl

/-! ## The stream of a list of sources -/

/-- The stream of a list of sources as characters. -/
def sourceChars (sources : List SourceText) : List Char :=
  sources.flatMap fun s => s.path.toList ++ '\x00' :: (s.text.toList ++ ['\x00'])

/-- What is digested is the stream in UTF-8. -/
theorem sourceBytes_eq (sources : List SourceText) :
    sourceBytes sources = (String.ofList (sourceChars sources)).toUTF8.toList := by
  induction sources with
  | nil => rw [toList_bytes]; rfl
  | cons s rest ih =>
    have hzero : (String.singleton '\x00').toUTF8.toList = [0] := by rw [toList_bytes]; rfl
    have hchars : String.ofList (sourceChars (s :: rest)) = s.path ++ (String.singleton '\x00' ++
        (s.text ++ (String.singleton '\x00' ++ String.ofList (sourceChars rest)))) := by
      rw [← String.toList_inj]
      simp [sourceChars]
    rw [hchars, toList_toUTF8_append, toList_toUTF8_append, toList_toUTF8_append, toList_toUTF8_append, hzero,
      ← ih, sourceBytes, sourceBytes, List.flatMap_cons]
    simp

/-- What stands between the zeros of the stream, the last of them apart: the pieces of every path and of the
text behind it. -/
def zeroPieces (sources : List SourceText) : List String :=
  sources.flatMap fun s => Text.pieces '\x00' s.path ++ Text.pieces '\x00' s.text

theorem zeroPieces_cons (s : SourceText) (rest : List SourceText) : zeroPieces (s :: rest) =
    Text.pieces '\x00' s.path ++ (Text.pieces '\x00' s.text ++ zeroPieces rest) := by
  rw [zeroPieces, List.flatMap_cons, List.append_assoc, zeroPieces]

/-- Cut at its zeros, the stream gives the pieces and nothing behind the last zero. -/
theorem pieces_sourceChars (sources : List SourceText) :
    Text.pieces '\x00' (String.ofList (sourceChars sources)) = zeroPieces sources ++ [""] := by
  induction sources with
  | nil => rfl
  | cons s rest ih =>
    have hchars : String.ofList (sourceChars (s :: rest)) = s.path ++ String.singleton '\x00' ++
        (s.text ++ String.singleton '\x00' ++ String.ofList (sourceChars rest)) := by
      rw [← String.toList_inj]
      simp [sourceChars]
    rw [hchars, Text.pieces_append, Text.pieces_append, ih, zeroPieces_cons, List.append_assoc,
      List.append_assoc]

/-- **Two lists of sources have one stream if and only if they have the same pieces.** -/
theorem sourceBytes_eq_iff {l₁ l₂ : List SourceText} :
    sourceBytes l₁ = sourceBytes l₂ ↔ zeroPieces l₁ = zeroPieces l₂ := by
  rw [sourceBytes_eq, sourceBytes_eq, toList_toUTF8_inj]
  constructor
  · intro h
    have hpieces := congrArg (Text.pieces '\x00') h
    rw [pieces_sourceChars, pieces_sourceChars] at hpieces
    exact List.append_cancel_right hpieces
  · intro h
    rw [← Text.joined_pieces '\x00' (String.ofList (sourceChars l₁)), pieces_sourceChars, h,
      ← pieces_sourceChars, Text.joined_pieces]

/-! ## Sources without zeros of their own -/

/-- How many zeros a source holds. -/
def SourceText.zeros (s : SourceText) : Nat := s.path.toList.count '\x00' + s.text.toList.count '\x00'

/-- Whether a source holds no zeros. -/
def SourceText.ZeroFree (s : SourceText) : Prop := '\x00' ∉ s.path.toList ∧ '\x00' ∉ s.text.toList

instance (s : SourceText) : Decidable s.ZeroFree := instDecidableAnd

theorem SourceText.zeros_eq_zero_iff (s : SourceText) : s.zeros = 0 ↔ s.ZeroFree := by
  rw [SourceText.zeros, Nat.add_eq_zero_iff, List.count_eq_zero, List.count_eq_zero, SourceText.ZeroFree]

theorem Text.length_pieces (sep : Char) (s : String) :
    (Text.pieces sep s).length = s.toList.count sep + 1 := by
  rw [Text.pieces, List.length_map]
  induction s.toList with
  | nil => rfl
  | cons c rest ih =>
    rw [Text.cut, List.count_cons]
    by_cases hc : c = sep
    · rw [if_pos hc, List.length_cons, ih, hc, beq_self_eq_true, if_pos rfl]
    · rw [if_neg hc, if_neg (by simpa using hc), Nat.add_zero, ← ih]
      cases hcut : Text.cut sep rest with
      | nil => exact absurd hcut (Text.cut_ne_nil sep rest)
      | cons piece more => rfl

/-- There are two pieces for each source, and one more for each zero of its own. -/
theorem length_zeroPieces (sources : List SourceText) :
    (zeroPieces sources).length = 2 * sources.length + (sources.map SourceText.zeros).sum := by
  induction sources with
  | nil => rfl
  | cons s rest ih =>
    rw [zeroPieces_cons, List.length_append, List.length_append, Text.length_pieces, Text.length_pieces, ih,
      List.map_cons, List.sum_cons, List.length_cons, SourceText.zeros]
    omega

theorem zeroPieces_cons_of_zeroFree {s : SourceText} (h : s.ZeroFree) (rest : List SourceText) :
    zeroPieces (s :: rest) = s.path :: s.text :: zeroPieces rest := by
  rw [zeroPieces_cons, Text.pieces_of_notMem h.1, Text.pieces_of_notMem h.2]
  rfl

/-- Lists without zeros are their pieces. -/
theorem zeroPieces_inj {l₁ l₂ : List SourceText} (h₁ : ∀ s ∈ l₁, s.ZeroFree) (h₂ : ∀ s ∈ l₂, s.ZeroFree) :
    zeroPieces l₁ = zeroPieces l₂ ↔ l₁ = l₂ := by
  refine ⟨fun h => ?_, congrArg zeroPieces⟩
  induction l₁ generalizing l₂ with
  | nil =>
    have hlength := congrArg List.length h
    rw [length_zeroPieces, length_zeroPieces, List.length_nil, List.map_nil, List.sum_nil] at hlength
    exact (List.length_eq_zero_iff.1 (by omega)).symm
  | cons s rest ih =>
    obtain ⟨hs, hrest⟩ := List.forall_mem_cons.1 h₁
    cases l₂ with
    | nil =>
      rw [zeroPieces_cons_of_zeroFree hs] at h
      cases h
    | cons t rest₂ =>
      obtain ⟨ht, hrest₂⟩ := List.forall_mem_cons.1 h₂
      rw [zeroPieces_cons_of_zeroFree hs, zeroPieces_cons_of_zeroFree ht, List.cons.injEq, List.cons.injEq] at h
      obtain ⟨hpath, htext, hmore⟩ := h
      have hst : s = t := by
        cases s
        cases t
        cases hpath
        cases htext
        rfl
      rw [ih hrest hrest₂ hmore, hst]

/-- **A list without zeros shares its pieces with no other list that is as long, or longer.** -/
theorem eq_of_zeroPieces {l₁ l₂ : List SourceText} (h₁ : ∀ s ∈ l₁, s.ZeroFree)
    (hlength : l₁.length ≤ l₂.length) (h : zeroPieces l₁ = zeroPieces l₂) : l₁ = l₂ := by
  have hcount := congrArg List.length h
  rw [length_zeroPieces, length_zeroPieces] at hcount
  have hnone : (l₁.map SourceText.zeros).sum = 0 := by
    refine List.sum_eq_zero_iff.2 fun n hn => ?_
    obtain ⟨s, hs, rfl⟩ := List.mem_map.1 hn
    exact s.zeros_eq_zero_iff.2 (h₁ s hs)
  have h₂ : ∀ s ∈ l₂, s.ZeroFree := by
    intro s hs
    have hzero : (l₂.map SourceText.zeros).sum = 0 := by omega
    exact s.zeros_eq_zero_iff.1 (List.sum_eq_zero_iff.1 hzero _ (List.mem_map_of_mem hs))
  exact (zeroPieces_inj h₁ h₂).1 h

/-! ## Digests -/

/-- Two streams of bytes that show that SHA-256 has collisions. -/
def Digest.Collide (a b : List UInt8) : Prop := a ≠ b ∧ Digest.sha256Hex a = Digest.sha256Hex b

theorem sourceHash_eq_iff_pieces (l₁ l₂ : List SourceText) : sourceHash l₁ = sourceHash l₂ ↔
    zeroPieces l₁ = zeroPieces l₂ ∨ Digest.Collide (sourceBytes l₁) (sourceBytes l₂) := by
  rw [← sourceBytes_eq_iff]
  constructor
  · intro h
    by_cases hsame : sourceBytes l₁ = sourceBytes l₂
    · exact .inl hsame
    · exact .inr ⟨hsame, h⟩
  · rintro (hsame | hcollide)
    · exact congrArg Digest.sha256Hex hsame
    · exact hcollide.2

/-- **Digests tell lists of sources apart by their pieces**, unless the streams are a collision of SHA-256. So
they tell a list without zeros from every other that has no zeros or is as long; but a zero in a text may stand
for the end of the text, and what follows it for another source. -/
theorem sourceHash_eq_iff (l₁ l₂ : List SourceText) :
    (sourceHash l₁ = sourceHash l₂ ↔
      zeroPieces l₁ = zeroPieces l₂ ∨ Digest.Collide (sourceBytes l₁) (sourceBytes l₂)) ∧
    ((∀ s ∈ l₁, s.ZeroFree) → (∀ s ∈ l₂, s.ZeroFree) ∨ l₁.length ≤ l₂.length →
      (sourceHash l₁ = sourceHash l₂ ↔ l₁ = l₂ ∨ Digest.Collide (sourceBytes l₁) (sourceBytes l₂))) := by
  refine ⟨sourceHash_eq_iff_pieces l₁ l₂, fun h₁ hother => ?_⟩
  rw [sourceHash_eq_iff_pieces]
  refine or_congr_left ⟨fun h => ?_, congrArg zeroPieces⟩
  rcases hother with h₂ | hlength
  · exact (zeroPieces_inj h₁ h₂).1 h
  · exact eq_of_zeroPieces h₁ hlength h

/-- A comment that ends in a zero, a path and another zero hides what may as well be a second source; a text
without zeros is told from both. -/
theorem sourceHash_hidden_source :
    let hidden : List SourceText := [⟨"a.ks", "class A { } //\x00b.ks\x00class B { }"⟩]
    let plain : List SourceText := [⟨"a.ks", "class A { } //"⟩, ⟨"b.ks", "class B { }"⟩]
    let other : List SourceText := [⟨"a.ks", "class A { }"⟩]
    hidden ≠ plain ∧ sourceHash hidden = sourceHash plain ∧
      (sourceHash other = sourceHash plain ↔ Digest.Collide (sourceBytes other) (sourceBytes plain)) := by
  intro hidden plain other
  have hother : ∀ s ∈ other, s.ZeroFree := by decide +kernel
  have hplain : ∀ s ∈ plain, s.ZeroFree := by decide +kernel
  refine ⟨by decide, (sourceHash_eq_iff hidden plain).1.2 (.inl (by decide +kernel)), ?_⟩
  exact ((sourceHash_eq_iff other plain).2 hother (.inl hplain)).trans (or_iff_right (by decide))

end SiteHost
