import SiteHost.Proofs.Script.Nesting
import SiteHost.Proofs.Site.Bundled
import SiteHost.Proofs.Text.Timestamp

/-!
# Bundles that are read back from a file

A bundle is written with its syntax trees as deep as they are, while a reader of files allows no more than
`Json.fileDepth` containers around any part. So what was written without an error may not be read back:

* `SiteBuild.Shallow` — whether no expression in a build goes deeper than a bundle can hold.

Principal results:

* `read_of_write` — a file that was written is read as it was written;
* `ofJson?_toJson` — a bundle is read back from its stored form;
* `readBundle_save` — **a bundle that was saved is read back if and only if** no expression in its build
  goes too deep.
-/

namespace SiteHost

open Script

/-! ## Files -/

namespace Disk

variable {d d' : Disk} {path : String} {content : ByteArray} {p q : Place} {xs : List String}

/-- A way stays open if every directory stays. -/
theorem walk_of_directories_stay
    (h : ∀ r, d.node? r = some .directory → d'.node? r = some .directory)
    (hwalk : d.walk p xs = .ok q) : d'.walk p xs = .ok q := by
  induction xs generalizing p with
  | nil => exact hwalk
  | cons step rest ih =>
    unfold walk at hwalk ⊢
    split at hwalk
    · cases hwalk
    · cases hwalk
    · rename_i hdirectory
      rw [h p hdirectory]
      split at hwalk
      · rw [if_pos ‹_›]
        exact ih hwalk
      rw [if_neg ‹_›]
      split at hwalk
      · rw [if_pos ‹_›]
        exact ih hwalk
      rw [if_neg ‹_›]
      split at hwalk
      · cases hwalk
      rw [if_neg ‹_›]
      exact ih hwalk

/-- A file is written where its path leads, if no directory stands there. -/
theorem write_eq_put (h : d.write path content = .ok d') : ∃ place, d.locate path = .ok place ∧
    d.node? place ≠ some .directory ∧ d' = d.put place (.file content) := by
  unfold write at h
  cases hloc : d.locate path with
  | error e =>
    rw [hloc] at h
    cases h
  | ok place =>
    rw [hloc] at h
    simp only [bind, Except.bind] at h
    refine ⟨place, rfl, ?_⟩
    split at h
    · cases h
    · rename_i hnode
      cases h
      exact ⟨by simp [hnode], rfl⟩
    · rename_i hnode
      split at h
      · cases h
        exact ⟨by simp [hnode], rfl⟩
      · cases h
      · cases h

/-- **A file that was written is read as it was written**, by the same path. -/
theorem read_of_write (h : d.write path content = .ok d') : d'.read path = .ok content := by
  obtain ⟨place, hloc, hnode, rfl⟩ := write_eq_put h
  have hplace : place.isEmpty = false := by
    cases place with
    | nil => exact absurd rfl hnode
    | cons name rest => rfl
  have hput : (d.put place (.file content)).node? place = some (.file content) := by
    rw [node?, hplace, if_neg Bool.false_ne_true, put, NameMap.get?_insert_self]
  have hstay : ∀ r, d.node? r = some .directory →
      (d.put place (.file content)).node? r = some .directory := by
    intro r hr
    rw [node?] at hr ⊢
    split
    · rfl
    · rename_i hroot
      rw [if_neg hroot] at hr
      by_cases hsame : r.path = place.path
      · rw [node?, hplace, if_neg Bool.false_ne_true, ← hsame] at hnode
        exact absurd hr hnode
      · rw [put, NameMap.get?_insert_of_ne _ hsame, hr]
  have hloc' : (d.put place (.file content)).locate path = .ok place := by
    unfold locate at hloc ⊢
    split at hloc
    · cases hloc
    · exact walk_of_directories_stay hstay hloc
  rw [read, resolve, hloc']
  simp only [bind, Except.bind]
  rw [hput]
  rfl

end Disk

/-! ## Stored forms -/

namespace Bundle

/-- A set is made up again of its names. -/
theorem setOf_keys (m : NameMap Unit) : setOf m.keys = m := by
  refine NameMap.ext_get? fun name => ?_
  rw [get?_setOf]
  by_cases h : name ∈ m.keys
  · obtain ⟨value, hvalue⟩ := NameMap.mem_keys.1 h
    rw [if_pos h, hvalue]
  · rw [if_neg h]
    cases hget : m.get? name with
    | none => rfl
    | some value => exact absurd (NameMap.mem_keys.2 ⟨value, hget⟩) h

variable {b : Bundle}

theorem membersOf?_toJson (b : Bundle) : membersOf? b.toJson = some [.int b.format, .text b.compiler,
    .text b.site, .text b.createdAt.render, textsJson b.templateTypes.keys, .array b.parts] := by
  simp [membersOf?, toJson, memberNames, Json.repeatsName, List.lookup_cons, textsJson]

/-- **A bundle is read back from its stored form**, if its time can be written. -/
theorem ofJson?_toJson (hformat : b.format ≤ Text.uint32Max) (hcreated : b.createdAt.isWritable = true) :
    ofJson? b.toJson = some b := by
  have hnat : (Json.int b.format).nat? Text.uint32Max = some b.format := by
    simp [Json.nat?, hformat]
  rw [ofJson?, membersOf?_toJson]
  simp only [Option.bind_eq_bind, Option.bind_some, hnat, Json.text?, Json.items?,
    Timestamp.parse?_render hcreated, texts?_textsJson, setOf_keys]
  rfl

end Bundle

section Bundles

variable {build : SiteBuild} {site path : String} {createdAt : Timestamp} {bundle : Bundle} {d d' : Disk}

/-- How deep the expressions of methods may go in a bundle, where ten containers stand around each. -/
def SiteBuild.expressionLimit : Nat := Json.fileDepth - 10

/-- Whether no expression in a build goes deeper than a bundle can hold. -/
def SiteBuild.Shallow (b : SiteBuild) : Prop :=
  ∀ m ∈ b.modules, ∀ u ∈ m.units, u.isShallow SiteBuild.expressionLimit = true

instance (b : SiteBuild) : Decidable b.Shallow :=
  inferInstanceAs (Decidable (∀ m ∈ b.modules, ∀ u ∈ m.units, _))

theorem head_of_ofBuild (h : Bundle.ofBuild site createdAt build = .ok bundle) :
    bundle.format = bundleFormat ∧ bundle.createdAt = createdAt := by
  unfold Bundle.ofBuild at h
  split at h
  · cases h
  · cases h
    exact ⟨rfl, rfl⟩

/-- The stored form of a bundle goes two containers deeper than its modules. -/
theorem nesting_bundle_le_iff (h : Bundle.ofBuild site createdAt build = .ok bundle) :
    bundle.toJson.nesting ≤ Json.fileDepth ↔ build.Shallow := by
  obtain ⟨-, -, hparts⟩ := parts_of_ofBuild h
  have hlimit : Json.fileDepth = 2 + (8 + SiteBuild.expressionLimit) := rfl
  have hmodules : Json.nestingItems bundle.parts ≤ 8 + SiteBuild.expressionLimit ↔ build.Shallow := by
    rw [hparts, Json.nestingItems_map_le_iff]
    exact forall₂_congr fun m _ => nesting_exportUnits_le_iff m
  have htypes : (Json.array (bundle.templateTypes.keys.map .text)).nesting = 1 := nesting_textsJson _
  rw [← hmodules, hlimit]
  simp only [Bundle.toJson, Json.nesting, Json.nestingMembers] at htypes ⊢
  omega

/-- The numbers in the stored form of a bundle are whole ones of 64 bits, if its places can be stored. -/
theorem isWhole_bundle (h : Bundle.ofBuild site createdAt build = .ok bundle) (hfits : build.Storable) :
    bundle.toJson.isWhole = true := by
  obtain ⟨-, -, hparts⟩ := parts_of_ofBuild h
  have hmodules : (Json.array bundle.parts).isWhole = true := by
    rw [hparts]
    exact Json.areWholeItems_map_iff.2 fun m hm => isWhole_exportUnits (hfits m hm)
  have hformat : (Json.int bundle.format).isWhole = true :=
    isWhole_nat (by rw [(head_of_ofBuild h).1]; decide)
  rw [Bundle.toJson, Json.isWhole, Json.areWholeMembers_iff]
  simp only [List.forall_mem_cons]
  exact ⟨hformat, rfl, rfl, rfl, isWhole_textsJson _, hmodules, nofun⟩

/-- The text of a bundle is read back if it does not go too deep. -/
theorem decode_encode (h : Bundle.ofBuild site createdAt build = .ok bundle) (hfits : build.Storable)
    (hcreated : createdAt.isWritable = true) (path : String) :
    Bundle.decode path bundle.encode.toUTF8 =
      if build.Shallow then .ok bundle else .error (.undecodable path) := by
  obtain ⟨hformat, rfl⟩ := head_of_ofBuild h
  have hread := Bundle.ofJson?_toJson (by rw [hformat]; decide) hcreated
  rw [Bundle.decode, fromUTF8?_toUTF8]
  simp only [Option.bind_some]
  rw [Bundle.encode, Json.parse?_pretty (isWhole_bundle h hfits)]
  by_cases hshallow : build.Shallow
  · rw [if_pos ((nesting_bundle_le_iff h).2 hshallow), if_pos hshallow, Option.bind_some, hread]
    simp only
    rw [if_pos hformat]
  · rw [if_neg (mt (nesting_bundle_le_iff h).1 hshallow), if_neg hshallow, Option.bind_none]

/-- **A bundle that was saved is read back if and only if no expression in its build goes too deep.** If
one does, the file is not that of a bundle at all, although it was saved without an error. -/
theorem readBundle_save (h : Bundle.ofBuild site createdAt build = .ok bundle) (hfits : build.Storable)
    (hcreated : createdAt.isWritable = true) (hsaved : bundle.save d path = (.ok (), d')) :
    Site.readBundle d' path =
      if build.Shallow then .ok bundle else .error (.bundle (.undecodable path)) := by
  have hwritten : ∃ d₀ : Disk, d₀.write path bundle.encode.toUTF8 = .ok d' := by
    unfold Bundle.save at hsaved
    split at hsaved
    · cases hsaved
    · rename_i d₀ _
      split at hsaved
      · rename_i hwrite
        cases hsaved
        exact ⟨d₀, hwrite⟩
      · cases hsaved
  obtain ⟨d₀, hwrite⟩ := hwritten
  rw [Site.readBundle, Disk.read_of_write hwrite]
  simp only
  rw [decode_encode h hfits hcreated]
  by_cases hshallow : build.Shallow
  · simp only [if_pos hshallow]
    rfl
  · simp only [if_neg hshallow]
    rfl

/-- A script whose method writes out a sum of ones. -/
def sumScript (additions : Nat) : List Char :=
  "class A \x7b void M() \x7b Response.Write(1".toList ++
    (List.replicate additions ['+', '1']).flatten ++ "); \x7d \x7d".toList

/-- The sum of ones that its method writes out. -/
def sumOfOnes : Nat → Expr
  | 0 => .int 1
  | n + 1 => .concat (sumOfOnes n) (.int 1)

/-- What such a script is parsed to. -/
def sumUnit (additions : Nat) : SourceUnit :=
  ⟨"/site/a.ks", [], [⟨"A", "", none, none,
    [⟨"M", .hidden, [], [.expr (.call ["Response", "Write"] [sumOfOnes additions] ⟨1, 22⟩)], ⟨1, 16⟩⟩],
    ⟨1, 7⟩⟩]⟩

/-- On an empty disk a bundle is saved below the root. -/
theorem save_default (bundle : Bundle) : bundle.save default "/site.json" =
    (.ok (), (default : Disk).put ["site.json"] (.file bundle.encode.toUTF8)) := by
  have hmade : (default : Disk).makeDirectories ((Path.parent? "/site.json").getD "") =
      (.ok (), default) := rfl
  have hloc : (default : Disk).locate "/site.json" = .ok ["site.json"] := rfl
  have hwrite (c : ByteArray) : (default : Disk).write "/site.json" c =
      .ok ((default : Disk).put ["site.json"] (.file c)) := by
    rw [Disk.write, hloc]
    rfl
  rw [Bundle.save, hmade]
  simp only [hwrite]

/-- A script adds up 116 ones. Its site is built, and its bundle is saved but not read back. -/
theorem readBundle_save_sum : ∃ build s' bundle d',
    siteOfTwo.run (twoScripts (String.ofList (sumScript 115)) "class B \x7b \x7d")
      LiveSite.buildAll = (.ok build, s') ∧
    Bundle.ofBuild "demo" (Timestamp.ofSeconds 0 0) build = .ok bundle ∧
    bundle.save default "/site.json" = (.ok (), d') ∧
    Site.readBundle d' "/site.json" = .error (.bundle (.undecodable "/site.json")) := by
  have hparseA : parse "/site/a.ks" (String.ofList (sumScript 115)) = .ok (sumUnit 115) := by
    rw [parse, scan, String.toList_ofList]
    decide +kernel
  have hparseB : parse "/site/b.ks" "class B \x7b \x7d" =
      .ok ⟨"/site/b.ks", [], [⟨"B", "", none, none, [], ⟨1, 7⟩⟩]⟩ := by decide +kernel
  obtain ⟨build, s', hrun, hfailures, hmodules⟩ := buildAll_twoScripts hparseA hparseB
    (link_eq_ok_iff.2 ⟨by decide +kernel, by decide +kernel, by decide +kernel, by decide +kernel, rfl⟩)
    (link_eq_ok_iff.2 ⟨by decide +kernel, by decide +kernel, by decide +kernel, by decide +kernel, rfl⟩)
  obtain ⟨bundle, hbundle⟩ := exists_ofBuild "demo" (Timestamp.ofSeconds 0 0) hfailures
  have hstorable : build.Storable := by
    rw [SiteBuild.Storable, hmodules]
    decide +kernel
  have hdeep : ¬ build.Shallow := by
    rw [SiteBuild.Shallow, hmodules]
    decide +kernel
  have hread := readBundle_save hbundle hstorable (by decide) (save_default bundle)
  rw [if_neg hdeep] at hread
  exact ⟨build, s', bundle, _, hrun, hbundle, save_default bundle, hread⟩

end Bundles

end SiteHost
