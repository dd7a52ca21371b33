import SiteHost.Proofs.Site.Naming

/-!
# Names cut at bytes

A running site keeps its texts as UTF-8 and cuts them at byte positions. A cut behind the end of a text or
inside a character would stop it. The functions that cut are given here once more, with every cut a partial
one:

* `Text.cutEnd?` — a text cut a number of bytes before its end;
* `endsWithExtensionByBytes?`, `Convention.scriptNameByBytes?`, `Convention.typeSegmentsByBytes?` — the cuts
  of file names;
* `Locator.resolveByBytes?`, `Locator.unitOfFileByBytes?` — the units of request paths and of files, by these.

Principal results:

* `Text.cutEnd?_eq_some_iff` — where a text can be cut;
* `endsWithExtensionByBytes?_eq`, `Convention.scriptNameByBytes?_eq`, `Convention.typeSegmentsByBytes?_eq` —
  no cut fails;
* `Locator.resolveByBytes?_eq`, `Locator.unitOfFileByBytes?_eq` — nor does one in all of a path.
-/

namespace SiteHost

/-! ## Cuts -/

namespace Text

variable {s a b : String} {n : Nat}

/-- The text in front of a byte position and the text behind it. There is none inside a character or behind
the end. -/
def splitAt? (s : String) (n : Nat) : Option (String × String) :=
  if h : String.Pos.Raw.IsValid s ⟨n⟩ then
    let p := s.pos ⟨n⟩ h
    some ((s.sliceTo p).copy, (s.sliceFrom p).copy)
  else none

theorem splitAt?_eq_some_iff : splitAt? s n = some (a, b) ↔ s = a ++ b ∧ n = a.utf8ByteSize := by
  constructor
  · intro h
    unfold splitAt? at h
    split at h
    · rename_i hvalid
      have hsplits := (s.pos ⟨n⟩ hvalid).splits
      obtain ⟨rfl, rfl⟩ := Prod.mk.inj (Option.some.inj h)
      exact ⟨hsplits.eq_append, congrArg String.Pos.Raw.byteIdx hsplits.offset_eq_rawEndPos⟩
    · cases h
  · rintro ⟨rfl, rfl⟩
    have hvalid : String.Pos.Raw.IsValid (a ++ b) ⟨a.utf8ByteSize⟩ :=
      String.Pos.Raw.isValid_iff_exists_append.2 ⟨a, b, rfl, rfl⟩
    have hsplits : ((a ++ b).pos ⟨a.utf8ByteSize⟩ hvalid).Splits a b := ⟨rfl, rfl⟩
    obtain ⟨ha, hb⟩ := hsplits.eq (String.Pos.splits _)
    rw [splitAt?, dif_pos hvalid]
    simp only [← ha, ← hb]

/-- A text cut a number of bytes before its end. -/
def cutEnd? (s : String) (n : Nat) : Option (String × String) :=
  if n ≤ s.utf8ByteSize then splitAt? s (s.utf8ByteSize - n) else none

/-- **A text can be cut where a part of it ends.** -/
theorem cutEnd?_eq_some_iff : cutEnd? s n = some (a, b) ↔ s = a ++ b ∧ n = b.utf8ByteSize := by
  unfold cutEnd?
  split
  · rw [splitAt?_eq_some_iff]
    refine and_congr_right ?_
    rintro rfl
    rw [String.utf8ByteSize_append] at *
    omega
  · rename_i hshort
    refine ⟨nofun, ?_⟩
    rintro ⟨rfl, rfl⟩
    rw [String.utf8ByteSize_append] at hshort
    omega

/-- Texts that differ in letter case have the same number of bytes. -/
theorem utf8ByteSize_congr (h : asciiLower a = asciiLower b) : a.utf8ByteSize = b.utf8ByteSize := by
  rw [← utf8ByteSize_asciiLower, h, utf8ByteSize_asciiLower]

end Text

/-! ## File names -/

/-- Whether a file name is a stem, a dot and the extension, by a cut where a character starts. -/
def endsWithExtensionByBytes? (extension fileName : String) : Option Bool :=
  let n := extension.utf8ByteSize + 1
  if n < fileName.utf8ByteSize ∧ String.Pos.Raw.IsValid fileName ⟨fileName.utf8ByteSize - n⟩ then do
    let (_, tail) ← Text.cutEnd? fileName n
    match tail.toList with
    | '.' :: rest => some (Text.eqIgnoringAsciiCase (String.ofList rest) extension)
    | _ => some false
  else some false

/-- **No cut before an extension fails.** -/
theorem endsWithExtensionByBytes?_eq (extension name : String) :
    endsWithExtensionByBytes? extension name = some (endsWithExtension extension name) := by
  unfold endsWithExtensionByBytes?
  dsimp only
  cases hends : endsWithExtension extension name with
  | true =>
    obtain ⟨stem, tail, hne, rfl, htail⟩ := endsWithExtension_iff.1 hends
    have hsize : extension.utf8ByteSize + 1 = ("." ++ tail).utf8ByteSize := by
      rw [String.utf8ByteSize_append, Text.utf8ByteSize_congr htail, Nat.add_comm]
      rfl
    have hstem : 0 < stem.utf8ByteSize := Nat.pos_of_ne_zero (mt String.utf8ByteSize_eq_zero_iff.1 hne)
    have hname : (stem ++ ("." ++ tail)).utf8ByteSize = stem.utf8ByteSize + ("." ++ tail).utf8ByteSize :=
      String.utf8ByteSize_append
    rw [String.append_assoc, hsize, Text.cutEnd?_eq_some_iff.2 ⟨rfl, rfl⟩, hname, Nat.add_sub_cancel,
      if_pos ⟨by omega, String.Pos.Raw.isValid_iff_exists_append.2 ⟨stem, _, rfl, rfl⟩⟩]
    simp [Text.eqIgnoringAsciiCase_iff.2 htail]
  | false =>
    split
    · rename_i hguard
      obtain ⟨hlong, hvalid⟩ := hguard
      obtain ⟨stem, tail, rfl, hpos⟩ := String.Pos.Raw.isValid_iff_exists_append.1 hvalid
      have hstem : (stem ++ tail).utf8ByteSize - (extension.utf8ByteSize + 1) = stem.utf8ByteSize :=
        congrArg String.Pos.Raw.byteIdx hpos
      rw [String.utf8ByteSize_append] at hlong hstem
      rw [Text.cutEnd?_eq_some_iff.2 ⟨rfl, by omega⟩]
      dsimp only [Option.bind_eq_bind, Option.bind_some]
      split
      · rename_i rest hrest
        -- otherwise the stem and the tail would show that the name has the extension
        rw [← hends, Option.some.injEq, Bool.eq_iff_iff, Text.eqIgnoringAsciiCase_iff, hends]
        refine ⟨fun hsame => ?_, nofun⟩
        rw [← hends]
        refine endsWithExtension_iff.2 ⟨stem, String.ofList rest, ?_, ?_, hsame⟩
        · rintro rfl
          have hempty : "".utf8ByteSize = 0 := rfl
          omega
        · rw [String.append_assoc, ← String.toList_inj]
          simp [hrest]
      · rfl
    · rfl

namespace Convention

variable {c : Convention} {name : String}

/-- The script that a file name stands for, by a cut before the suffix of markup. -/
def scriptNameByBytes? (c : Convention) (fileName : String) : Option String := do
  if ← endsWithExtensionByBytes? (c.leafExtension ++ "." ++ c.markupSuffix) fileName then
    (Text.cutEnd? fileName (c.markupSuffix.utf8ByteSize + 1)).map Prod.fst
  else if ← endsWithExtensionByBytes? c.leafExtension fileName then some fileName
  else some (fileName ++ "." ++ c.leafExtension)

/-- **No cut before the suffix of markup fails.** -/
theorem scriptNameByBytes?_eq (c : Convention) (name : String) :
    c.scriptNameByBytes? name = some (c.scriptName name) := by
  unfold scriptNameByBytes?
  simp only [endsWithExtensionByBytes?_eq, Option.bind_eq_bind, Option.bind_some]
  cases hmarkup : c.isMarkupName name with
  | true =>
    obtain ⟨script, suffix, hscript, rfl, hsuffix⟩ := isMarkupName_iff.1 hmarkup
    have hsize : c.markupSuffix.utf8ByteSize + 1 = ("." ++ suffix).utf8ByteSize := by
      rw [String.utf8ByteSize_append, Text.utf8ByteSize_congr hsuffix, Nat.add_comm]
      rfl
    rw [scriptName_of_markup hscript hsuffix]
    rw [isMarkupName] at hmarkup
    rw [if_pos hmarkup, Text.cutEnd?_eq_some_iff.2 ⟨String.append_assoc .., hsize⟩, Option.map_some]
  | false =>
    have hname : c.scriptName name = if c.isLeafName name then name else name ++ "." ++ c.leafExtension := by
      rw [scriptName, hmarkup]
      rfl
    rw [isMarkupName] at hmarkup
    rw [hmarkup, if_neg Bool.false_ne_true, hname, isLeafName]
    split <;> rfl

/-- Whether a file name belongs to a unit, by a cut before either extension. -/
def isSourceNameByBytes? (c : Convention) (fileName : String) : Option Bool := do
  if ← endsWithExtensionByBytes? c.leafExtension fileName then some true
  else endsWithExtensionByBytes? (c.leafExtension ++ "." ++ c.markupSuffix) fileName

theorem isSourceNameByBytes?_eq (c : Convention) (name : String) :
    c.isSourceNameByBytes? name = some (c.isSourceName name) := by
  simp only [isSourceNameByBytes?, endsWithExtensionByBytes?_eq, Option.bind_eq_bind, Option.bind_some]
  unfold isSourceName isLeafName
  cases endsWithExtension c.leafExtension name <;> rfl

/-- The type segments of directories and a script, by a cut before the extension. -/
def typeSegmentsByBytes? (c : Convention) : List String → Option (List String)
  | [] => some []
  | [fileName] => do
    let n := c.leafExtension.utf8ByteSize + 1
    let stem ← if n < fileName.utf8ByteSize then (Text.cutEnd? fileName n).map Prod.fst else some fileName
    some [typeSegment stem]
  | dir :: rest => (c.typeSegmentsByBytes? rest).map (typeSegment dir :: ·)

/-- A script without its extension. -/
theorem stem_append {stem tail : String} (hne : stem ≠ "")
    (htail : Text.asciiLower tail = Text.asciiLower c.leafExtension) :
    c.stem (stem ++ "." ++ tail) = stem := by
  have hlen : c.leafExtension.length = tail.length := by
    rw [← Text.length_asciiLower, ← htail, Text.length_asciiLower]
  have hname : (stem ++ "." ++ tail).length = stem.length + (tail.length + 1) := by
    rw [String.length_append, String.length_append, Nat.add_assoc, Nat.add_comm tail.length]
    rfl
  have hstem : stem.length ≠ 0 := mt String.length_eq_zero_iff.1 hne
  unfold Convention.stem
  dsimp only
  rw [hlen, hname, if_pos (by omega), Nat.add_sub_cancel, ← String.toList_inj, String.toList_ofList,
    ← String.length_toList, String.append_assoc, String.toList_append, List.take_left]

/-- **No cut before the extension of a script fails.** -/
theorem typeSegmentsByBytes?_eq {dirs : List String} {file : String} (h : c.isLeafName file = true) :
    c.typeSegmentsByBytes? (dirs ++ [file]) = some (c.typeSegments (dirs ++ [file])) := by
  induction dirs with
  | nil =>
    obtain ⟨stem, tail, hne, rfl, htail⟩ := isLeafName_iff.1 h
    have hsize : c.leafExtension.utf8ByteSize + 1 = ("." ++ tail).utf8ByteSize := by
      rw [String.utf8ByteSize_append, Text.utf8ByteSize_congr htail, Nat.add_comm]
      rfl
    have hstem : 0 < stem.utf8ByteSize := Nat.pos_of_ne_zero (mt String.utf8ByteSize_eq_zero_iff.1 hne)
    have hname : (stem ++ ("." ++ tail)).utf8ByteSize = stem.utf8ByteSize + ("." ++ tail).utf8ByteSize :=
      String.utf8ByteSize_append
    rw [List.nil_append, typeSegments, stem_append hne htail, typeSegmentsByBytes?, hsize,
      Text.cutEnd?_eq_some_iff.2 ⟨String.append_assoc .., rfl⟩, String.append_assoc, hname, if_pos (by omega)]
    rfl
  | cons dir rest ih =>
    obtain ⟨next, more, hmore⟩ := List.exists_cons_of_ne_nil (show rest ++ [file] ≠ [] by simp)
    rw [List.cons_append, hmore, typeSegmentsByBytes?, typeSegments, ← hmore, ih, Option.map_some]
    · simp
    · simp

end Convention

/-! ## Paths -/

namespace Locator

variable {l : Locator}

/-- The unit of the script that names stand for, with partial cuts. -/
def unitByBytes? (l : Locator) (names : List String) : Option Identity := do
  let names ← match names.getLast? with
    | some last => (l.convention.scriptNameByBytes? last).map fun script => names.dropLast ++ [script]
    | none => some []
  let segments ← l.convention.typeSegmentsByBytes? names
  let scope := if l.convention.rootNamespace = "" then [] else [l.convention.rootNamespace]
  some ⟨names.foldl Path.join l.root, Text.joined "." (scope ++ segments)⟩

/-- No cut fails in names. -/
theorem unitByBytes?_eq {names : List String} (hne : names ≠ []) (hnames : Place.Named names) :
    l.unitByBytes? names = some (l.unitAt (l.toScript names)) := by
  obtain ⟨dirs, last, rfl⟩ := (List.eq_nil_or_concat names).resolve_left hne
  rw [List.concat_eq_append] at hnames ⊢
  have hleaf := Convention.isLeafName_scriptName (c := l.convention) (hnames last (by simp)).ne_empty
  rw [toScript_append, unitByBytes?]
  simp only [List.getLast?_concat, List.dropLast_concat, Convention.scriptNameByBytes?_eq, Option.map_some,
    Option.bind_eq_bind, Option.bind_some, Convention.typeSegmentsByBytes?_eq hleaf]
  rfl

/-- The unit of a request path, with partial cuts. -/
def resolveByBytes? (l : Locator) (raw : String) : Option (Except Failure Identity) :=
  if Text.trim raw = "" then some (.error (.invalidPath raw "path must not be empty"))
  else match l.stepsBelow? (cleaned raw) with
    | none => some (.error (.invalidPath raw "path is outside the site root"))
    | some steps => match namesOf? steps with
      | none => some (.error (.invalidPath raw "parent directory segments are not allowed"))
      | some names => (l.unitByBytes? (document (cleaned raw) names)).map .ok

/-- Names that are asked for are names, and there are some. -/
theorem named_document (path : String) {names : List String} (h : Place.Named names) :
    document path names ≠ [] ∧ Place.Named (document path names) := by
  unfold document
  split
  · exact ⟨by simp, h.append (Place.named_singleton (by decide))⟩
  · rename_i hdir
    refine ⟨?_, h⟩
    rintro rfl
    simp at hdir

/-- **No cut fails in a request path.** -/
theorem resolveByBytes?_eq (l : Locator) (raw : String) : l.resolveByBytes? raw = some (l.resolve raw) := by
  rw [resolveByBytes?, resolve_eq]
  split
  · rfl
  · cases hsteps : l.stepsBelow? (cleaned raw) with
    | none => rfl
    | some steps =>
      dsimp only
      cases hnames : namesOf? steps with
      | none => rfl
      | some names =>
        have hnamed : Place.Named names :=
          named_of_namesOf? (fun _ hstep => mem_components_of_mem_stepsBelow? hsteps hstep) hnames
        obtain ⟨hne, hdocument⟩ := named_document (cleaned raw) hnamed
        dsimp only
        rw [unitByBytes?_eq hne hdocument]
        rfl

/-- The unit that a file on disk belongs to, with partial cuts. -/
def unitOfFileByBytes? (l : Locator) (path : String) : Option (Option Identity) :=
  match Path.under? l.root path with
  | none => some none
  | some steps => match steps.getLast? with
    | some (.name fileName) => do
      if ← l.convention.isSourceNameByBytes? fileName then
        match namesOf? steps with
        | none => some none
        | some names => (l.unitByBytes? names).map some
      else some none
    | _ => some none

/-- **No cut fails in the path of a file.** -/
theorem unitOfFileByBytes?_eq (l : Locator) (path : String) :
    l.unitOfFileByBytes? path = some (l.unitOfFile? path) := by
  unfold unitOfFileByBytes? unitOfFile?
  cases hsteps : Path.under? l.root path with
  | none => rfl
  | some steps =>
    dsimp only [Option.bind_eq_bind, Option.bind_some]
    cases hlast : steps.getLast? with
    | none => rfl
    | some step =>
      cases step with
      | name fileName =>
        dsimp only
        rw [Convention.isSourceNameByBytes?_eq, Option.bind_some]
        split
        · cases hnames : namesOf? steps with
          | none => rfl
          | some names =>
            have hfile : fileName ∈ names := mem_namesOf? hnames (List.mem_of_getLast? hlast)
            have hnamed : Place.Named names :=
              named_of_namesOf? (fun _ hstep => mem_of_mem_under? hsteps hstep) hnames
            dsimp only
            rw [unitByBytes?_eq (List.ne_nil_of_mem hfile) hnamed]
            rfl
        · rfl
      | root => rfl
      | here => rfl
      | parent => rfl

end Locator

end SiteHost
