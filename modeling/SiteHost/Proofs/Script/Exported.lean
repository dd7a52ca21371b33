import SiteHost.Proofs.Script.Linked
import SiteHost.Proofs.Script.Stored

/-!
# Loading undoes exporting

A stored module is the list of its units and nothing that linking made of them, so loading links again.

Principal result: `loadPrebuilt_exportUnits` — units are read back as they were, several modules are loaded
as the batch of all their units is linked, and one module alone as it was.
-/

namespace SiteHost

open Script

/-- A module keeps the units that it was linked from. -/
theorem units_of_link {units : List SourceUnit} {references : List Module} {m : Module}
    (h : link units references = .ok m) : m.units = units := by
  obtain ⟨-, -, -, -, rfl⟩ := link_eq_ok_iff.1 h
  rfl

/-- The modules of several batches are loaded as the batch of all their units is linked. -/
theorem loadPrebuilt_eq_link (batches : List (List SourceUnit × Module))
    (hlinked : ∀ b ∈ batches, link b.1 [] = .ok b.2) (hfits : ∀ b ∈ batches, ∀ u ∈ b.1, u.fits = true) :
    loadPrebuilt (batches.map fun b => exportUnits b.2) = link (batches.flatMap Prod.fst) [] := by
  have hunits : ∀ b ∈ batches, b.2.units = b.1 := fun b hb => units_of_link (hlinked b hb)
  have hparts : (batches.map fun b => exportUnits b.2) = (batches.map Prod.snd).map exportUnits := by
    rw [List.map_map]
    rfl
  have hall : (batches.map Prod.snd).flatMap Module.units = batches.flatMap Prod.fst := by
    rw [List.flatMap_map]
    exact List.flatMap_congr hunits
  have hstored := storedUnits_eq (fun _ => "") (batches.map Prod.snd) 0 fun m hm => by
    obtain ⟨b, hb, rfl⟩ := List.mem_map.1 hm
    exact hunits b hb ▸ hfits b hb
  rw [loadPrebuilt, hparts, hstored, hall]
  rfl

/-- **Loading undoes exporting**, if the places in the units have 32 bits. -/
theorem loadPrebuilt_exportUnits :
    (∀ units : List SourceUnit, (∀ u ∈ units, u.fits = true) →
      unitsOf? (.array (units.map SourceUnit.toJson)) = some units) ∧
    (∀ batches : List (List SourceUnit × Module), (∀ b ∈ batches, link b.1 [] = .ok b.2) →
      (∀ b ∈ batches, ∀ u ∈ b.1, u.fits = true) →
      loadPrebuilt (batches.map fun b => exportUnits b.2) = link (batches.flatMap Prod.fst) []) ∧
    ∀ (units : List SourceUnit) (m : Module), link units [] = .ok m → (∀ u ∈ units, u.fits = true) →
      loadPrebuilt [exportUnits m] = .ok m := by
  refine ⟨fun units hfits => ?_, loadPrebuilt_eq_link, fun units m hlink hfits => ?_⟩
  · rw [unitsOf?, each?_guard ofJson?_toJson, Option.guard, if_pos (List.all_eq_true.2 hfits)]
  · have hload := loadPrebuilt_eq_link [(units, m)] (by simpa using hlink)
      (by simpa using hfits)
    simpa [hlink] using hload

/-- A class whose constructor keeps a name that its method writes out. -/
def welcomeUnit : SourceUnit :=
  ⟨"site/welcome.ks", [], [⟨"Welcome", "", none,
    some ⟨"Welcome", .hidden, ["name"],
      [.expr (.call ["Fields", "Set"] [.text "name", .path ["name"] ⟨1, 52⟩] ⟨1, 33⟩)], ⟨1, 17⟩⟩,
    [⟨"Show", .exposed, [],
      [.expr (.call ["Response", "Write"] [.concat (.concat (.text "hello ")
        (.call ["Fields", "Get"] [.text "name"] ⟨2, 49⟩)) (.int 7)] ⟨2, 23⟩), .leave], ⟨2, 14⟩⟩],
    ⟨1, 7⟩⟩]⟩

/-- A class of a namespace and one with it as its base. -/
def layoutUnit : SourceUnit :=
  ⟨"site/layout.ks", ["Kiln"], [
    ⟨"Site.Layout", "Site", none, none, [⟨"Render", .exposed, [], [], ⟨1, 57⟩⟩], ⟨1, 36⟩⟩,
    ⟨"Site.Page", "Site", some "Layout", none,
      [⟨"Go", .exposed, [], [.expr (.call ["Layout", "Render"] [] ⟨2, 43⟩),
        .expr (.call ["base", "Render"] [] ⟨2, 60⟩)], ⟨2, 36⟩⟩], ⟨2, 8⟩⟩]⟩

/-- Two modules that were linked apart are stored, and loaded as one. -/
theorem loadPrebuilt_exportUnits_two : ∃ welcome layout both,
    link [welcomeUnit] [] = .ok welcome ∧ link [layoutUnit] [] = .ok layout ∧
    link [welcomeUnit, layoutUnit] [] = .ok both ∧
    unitsOf? (.array [welcomeUnit.toJson, layoutUnit.toJson]) = some [welcomeUnit, layoutUnit] ∧
    loadPrebuilt [exportUnits welcome, exportUnits layout] = .ok both ∧
    loadPrebuilt [exportUnits layout] = .ok layout := by
  have hwelcome : ∃ m, link [welcomeUnit] [] = .ok m := ⟨_, link_eq_ok_iff.2
    ⟨by decide +kernel, by decide +kernel, by decide +kernel, by decide +kernel, rfl⟩⟩
  have hlayout : ∃ m, link [layoutUnit] [] = .ok m := ⟨_, link_eq_ok_iff.2
    ⟨by decide +kernel, by decide +kernel, by decide +kernel, by decide +kernel, rfl⟩⟩
  have hboth : ∃ m, link [welcomeUnit, layoutUnit] [] = .ok m := ⟨_, link_eq_ok_iff.2
    ⟨by decide +kernel, by decide +kernel, by decide +kernel, by decide +kernel, rfl⟩⟩
  obtain ⟨welcome, hwelcome⟩ := hwelcome
  obtain ⟨layout, hlayout⟩ := hlayout
  obtain ⟨both, hboth⟩ := hboth
  have hfits : ∀ u ∈ [welcomeUnit, layoutUnit], u.fits = true := by decide +kernel
  obtain ⟨hread, hload, halone⟩ := loadPrebuilt_exportUnits
  have hpair := hload [([welcomeUnit], welcome), ([layoutUnit], layout)]
    (by simpa using ⟨hwelcome, hlayout⟩) (by simpa using hfits)
  exact ⟨welcome, layout, both, hwelcome, hlayout, hboth, hread _ hfits, hpair.trans hboth,
    halone _ _ hlayout (by simpa using hfits _ (by simp))⟩

end SiteHost
