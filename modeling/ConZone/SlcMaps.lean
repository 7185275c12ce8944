import ConZone.Maps

set_option autoImplicit false

namespace ConZone

structure SlcNamespace (p : Params) : Prop where
  medium : Medium p
  slc : p.zpp.nsType = .slc
  location : ∀ page, OwnedPage p page → getPageLocation p page = .pslc
  lpnsFit : p.zpp.ttLpns ≤ invalidLpn

theorem dual_lpns_fit (config : DualConfig) (loc : Loc) : (dualParams config loc).zpp.ttLpns ≤ invalidLpn := by
  have space := (dualParams config loc).zpp.spaceFits
  have pages : (dualParams config loc).zpp.zoneSize = (dualParams config loc).zpp.pgsPerZone * 4096 := by
    rw [dual_pgs_per_zone]
    rfl
  rw [pages, ← Nat.mul_assoc, ← dual_tt_lpns] at space
  change _ ≤ 2 ^ 64 - 1
  omega

theorem dual_slc_namespace (config : DualConfig) : SlcNamespace (dualParams config .pslc) := by
  refine ⟨dual_medium config .pslc, rfl, ?_, dual_lpns_fit config .pslc⟩
  intro page owned
  rw [dual_page_location config .pslc page owned]
  split <;> rfl

section Slc

variable (p : Params) (ns : SlcNamespace p)

theorem slc_unit_start (lpn : Nat) : unitStart p lpn .pslc = lpn := page_granularity_start p lpn

theorem slc_unit_pgs : unitPgs p .pslc = 1 := rfl

-- A page mapping is never reserved ahead, so every page is taken anew.
theorem slc_update_none (ftl : ZmsFtl) (lpn : Nat) (ioType : IoType) : updateMappingIfReserved p ftl lpn .pslc ioType = none := by
  have entry : getPrevPpa p ftl lpn (getMappingGranularity .pslc) = getMaptblEnt p ftl lpn := by
    unfold getPrevPpa
    change getMaptblEnt p ftl (if lpn = getGranularityStartLpn p lpn .pageMap then lpn else lpn - 1) = _
    rw [page_granularity_start, if_pos rfl]
  unfold updateMappingIfReserved
  rw [entry]
  cases held : getMaptblEnt p ftl lpn with
  | unmapped => rfl
  | rsv => rfl
  | mapped page map =>
      have table : ftl.maptbl lpn = .mapped page map := by
        unfold getMaptblEnt at held
        split at held
        · exact held
        · cases held
      dsimp only
      rw [table]
      rfl

theorem slc_update_or_reserve (ftl : ZmsFtl) (lpn : Nat) (ioType : IoType) :
    updateOrReserveMapping p ftl lpn .pslc ioType = if locFull ftl .pslc then .ok ftl else reserveMapping p ftl lpn .pslc ioType := by
  unfold updateOrReserveMapping
  rw [slc_update_none]

include ns in
theorem slc_dual : zmsIsDualNs p.zpp.nsType = true := by
  rw [ns.slc]
  rfl

include ns in
theorem slc_reserve_runs (ftl next : ZmsFtl) (lpn : Nat) (ioType : IoType) (ran : reserveMapping p ftl lpn .pslc ioType = .ok next) :
    lpn < p.zpp.ttLpns ∧ ∃ page opened advanced last,
      getNewPage p (reserveEntries ftl lpn 1) ioType .pslc = .ok (page, opened) ∧
      advanceWritePointer p (takeFirstPage p opened lpn page) ioType .pslc = .ok advanced ∧
      getNewPage p advanced ioType .pslc = .ok (last, next) := by
  obtain ⟨reserved, page, opened, looped, advanced, last, entries, taken, reserving, advancing, checked⟩ :=
    reserve_mapping_runs p ftl next lpn .pslc ioType ran
  rw [slc_unit_start, slc_unit_pgs] at entries
  unfold reserveUnit at entries
  split at entries
  · rename_i inside
    rw [← Except.ok.inj entries] at taken
    unfold firstPageTaken at reserving
    rw [slc_unit_start, slc_unit_pgs, note_filled_line_dual p _ _ _ _ (slc_dual p ns)] at reserving
    have same : takeFirstPage p opened lpn page = looped := Except.ok.inj reserving
    rw [← same] at advancing
    exact ⟨inside, page, opened, advanced, last, taken, advancing, checked⟩
  · cases entries

theorem bare_update (table : Nat → Ppa) (lpn : Nat) (ppa : Ppa) (other : Nat) :
    barePpa (Function.update table lpn ppa other) = if other = lpn then barePpa ppa else barePpa (table other) := by
  by_cases same : other = lpn
  · rw [same, Function.update_self, if_pos rfl]
  · rw [Function.update_of_ne same, if_neg same]

theorem take_first_page_table (ftl : ZmsFtl) (lpn : Nat) (page : Page) (inside : lpn < p.zpp.ttLpns) (other : Nat) :
    barePpa ((takeFirstPage p ftl lpn page).maptbl other) =
      if other = lpn then .mapped page .pageMap else barePpa (ftl.maptbl other) := by
  have gran := (quiet_maps _ _ (set_map_gran_quiet p
    (setRmapEnt p (markPageValid p (setMaptblEnt p ftl lpn (.mapped page .pageMap)) page) (some lpn) page) .pageMap lpn)).table other
  have marked := (mark_page_valid_maps p (setMaptblEnt p ftl lpn (.mapped page .pageMap)) page).table other
  have rmap : (setRmapEnt p (markPageValid p (setMaptblEnt p ftl lpn (.mapped page .pageMap)) page) (some lpn) page).maptbl =
      (markPageValid p (setMaptblEnt p ftl lpn (.mapped page .pageMap)) page).maptbl := by
    unfold setRmapEnt
    split <;> rfl
  have entry := bare_update ftl.maptbl lpn (.mapped page .pageMap) other
  unfold takeFirstPage
  dsimp only
  rw [gran, rmap, marked, set_maptbl_entry p ftl lpn _ inside]
  exact entry

end Slc

end ConZone
