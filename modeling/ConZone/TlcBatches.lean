import ConZone.CallBatches
import ConZone.TlcReserve
import ConZone.MediaConfigs

set_option autoImplicit false

namespace ConZone

-- The page that the write pointer stands at, or will when it is opened.
def pageAhead (p : Params) (ftl : ZmsFtl) (ioType : IoType) (loc : Loc) : Option Page :=
  if (ftl.wps (zmsGetWp ioType loc)).curline = none then
    match IntrusiveList.listFirstEntryOrNull ftl.lm.links (.free loc) with
    | some (.line ref) => some (getFirstPage p ref)
    | _ => none
  else some (wpPage (ftl.wps (zmsGetWp ioType loc)))

section Entries

variable (p : Params) (dual : zmsIsDualNs p.zpp.nsType = true) (ftl written : ZmsFtl) (lpn : Nat) (ioType : IoType)

include dual in
theorem continue_table (prev page : Page) (map : MapType) (entry : getMaptblEnt p ftl (lpn - 1) = .mapped prev map)
    (reserved : getMaptblEnt p ftl lpn = .rsv) (inner : unitStart p lpn .normal ≠ lpn) (location : getPageLocation p prev = .normal)
    (stepped : lineStep p prev prev = some page) (ran : updateOrReserveMapping p ftl lpn .normal ioType = .ok written) (other : Nat) :
    barePpa (written.maptbl other) = if other = lpn then .mapped page .pageMap else barePpa (ftl.maptbl other) := by
  have inside : lpn < p.zpp.ttLpns := by
    by_contra outside
    unfold getMaptblEnt at reserved
    rw [if_neg outside] at reserved
    cases reserved
  have waits : isRsvPpa (ftl.maptbl lpn) = true := by
    unfold getMaptblEnt at reserved
    rw [if_pos inside] at reserved
    rw [reserved]
    rfl
  have updated : updateMappingIfReserved p ftl lpn .normal ioType = some (refineMapGran p lpn .normal mapType (fillPage p ftl lpn page map)) := by
    unfold updateMappingIfReserved getPrevPpa
    dsimp only
    change getGranularityStartLpn p lpn (getMappingGranularity .normal) ≠ lpn at inner
    rw [if_neg (fun same => inner same.symm), entry]
    dsimp only
    rw [waits, location, nextpage_step p ftl.lm.lines prev page map true stepped]
    dsimp only
    rw [note_filled_line_dual p _ _ _ _ dual]
    rfl
  unfold updateOrReserveMapping at ran
  rw [updated] at ran
  have marked := (mark_page_valid_maps p (setMaptblEnt p ftl lpn (.mapped page map)) page).table other
  have rmap : (fillPage p ftl lpn page map).maptbl = (markPageValid p (setMaptblEnt p ftl lpn (.mapped page map)) page).maptbl := by
    unfold fillPage assignPage setRmapEnt
    split <;> rfl
  rw [← Except.ok.inj ran, (quiet_maps _ _ (refine_map_gran_quiet p lpn .normal mapType (fillPage p ftl lpn page map))).table other, rmap, marked,
    set_maptbl_entry p ftl lpn _ inside]
  exact bare_update ftl.maptbl lpn (.mapped page map) other

theorem start_not_continued (first : unitStart p lpn .normal = lpn) : updateMappingIfReserved p ftl lpn .normal ioType = none := by
  unfold updateMappingIfReserved getPrevPpa
  dsimp only
  rw [show getGranularityStartLpn p lpn (getMappingGranularity .normal) = lpn from first, if_pos rfl]
  cases entry : getMaptblEnt p ftl lpn with
  | unmapped => rfl
  | rsv => rfl
  | mapped page map =>
      have held : isRsvPpa (ftl.maptbl lpn) = false := by
        unfold getMaptblEnt at entry
        split at entry
        · rw [entry]
          rfl
        · cases entry
      rw [held]
      rfl

theorem page_ahead_taken (loc : Loc) (page found : Page) (next : ZmsFtl) (ahead : pageAhead p ftl ioType loc = some page)
    (ran : getNewPage p ftl ioType loc = .ok (found, next)) : found = page := by
  obtain ⟨opened, opening, rest⟩ := bind_ok _ _ _ ran
  have spot : found = wpPage (opened.wps (zmsGetWp ioType loc)) := by
    have current := pure_ok _ _ rest
    unfold getCurrentPage at current
    dsimp only at current
    split at current <;> exact (Prod.mk.inj current).1.symm
  rw [spot]
  unfold pageAhead at ahead
  unfold openWritePointer at opening
  split at opening
  · rename_i closed
    rw [if_pos closed] at ahead
    unfold initWritePointer getNextFreeLine at opening
    split at ahead
    · rename_i ref head
      rw [head] at opening
      rw [← pure_ok _ _ opening, put_wp_pointer, if_pos rfl, ← Option.some.inj ahead]
      rfl
    · cases ahead
  · rename_i pointed
    rw [if_neg pointed] at ahead
    rw [← Except.ok.inj opening]
    exact Option.some.inj ahead

theorem page_ahead_owned (medium : Medium p) (loc : Loc) (page : Page) (bounded : Bounded p ftl) (ahead : pageAhead p ftl ioType loc = some page) :
    OwnedPage p page := by
  unfold pageAhead at ahead
  split at ahead
  · split at ahead
    · rename_i ref head
      rw [← Option.some.inj ahead]
      exact first_page_owned p medium ref (first_free_known p ftl loc ref bounded head)
    · cases ahead
  · rename_i opened
    rw [← Option.some.inj ahead]
    exact bounded.page _ opened

include dual in
theorem begin_table (positive : 0 < p.zpp.pgsPerZone) (first : unitStart p lpn .normal = lpn) (page : Page)
    (ahead : pageAhead p ftl ioType .normal = some page) (clear : locFull ftl .normal = false)
    (ran : updateOrReserveMapping p ftl lpn .normal ioType = .ok written) :
    lpn + unitPgs p .normal ≤ p.zpp.ttLpns ∧ ∀ other, barePpa (written.maptbl other) =
      if other = lpn then .mapped page .pageMap
      else if lpn ≤ other ∧ other < lpn + unitPgs p .normal then .rsv else barePpa (ftl.maptbl other) := by
  unfold updateOrReserveMapping at ran
  rw [start_not_continued p ftl lpn ioType first] at ran
  dsimp only at ran
  rw [clear, if_neg Bool.false_ne_true] at ran
  obtain ⟨reserved, found, middle, looped, advanced, last, entries, taken, reserving, advancing, checked⟩ :=
    reserve_mapping_runs p ftl written lpn .normal ioType ran
  rw [first] at entries
  unfold reserveUnit at entries
  split at entries
  · rename_i fits
    refine ⟨fits, fun other => ?_⟩
    rw [← Except.ok.inj entries] at taken
    have spot := page_ahead_taken p (reserveEntries ftl lpn (unitPgs p .normal)) ioType .normal page found middle ahead taken
    obtain ⟨_, _, _, _, _, opening⟩ := get_new_page_lines p _ middle ioType .normal found taken
    unfold firstPageTaken at reserving
    rw [first, note_filled_line_dual p _ _ _ _ dual] at reserving
    have table : written.maptbl = (takeFirstPage p middle lpn found).maptbl := by
      obtain ⟨_, _, _, _, _, walked⟩ := reserve_loop_lines p ioType .normal _ _ looped reserving
      obtain ⟨_, _, _, _, _, moved⟩ := advance_write_pointer_lines p looped advanced ioType .normal advancing
      obtain ⟨_, _, _, _, _, opened⟩ := get_new_page_lines p advanced written ioType .normal last checked
      rw [opened, moved, walked]
    rw [table, take_first_page_table p middle lpn found (by rw [tlc_unit_pgs] at fits; omega), spot, opening]
    split
    · rfl
    · unfold reserveEntries
      dsimp only
      split <;> rfl
  · cases entries

end Entries

-- Pages of a unit go to consecutive places of a line: on from the page of the
-- LPN before them, or from the write pointer's with the unit's first LPN.
inductive StaysInLine (p : Params) (ftl : ZmsFtl) (ioType : IoType) (lpn count place : Nat) : Prop where
  | continues (prev : Page) (map : MapType) (entry : getMaptblEnt p ftl (lpn - 1) = .mapped prev map) (behind : placeIn p prev + 1 = place)
      (room : place + count ≤ lineSize p prev) (reserved : ∀ i, i < count → getMaptblEnt p ftl (lpn + i) = .rsv)
      (inner : ∀ i, i < count → unitStart p (lpn + i) .normal ≠ lpn + i)
  | begins (page : Page) (first : unitStart p lpn .normal = lpn) (ahead : pageAhead p ftl ioType .normal = some page)
      (fresh : Mapped p ftl lpn → (ftl.wps (zmsGetWp ioType .normal)).curline ≠ none) (here : placeIn p page = place)
      (room : place + count ≤ lineSize p page) (unit : count ≤ unitPgs p .normal)
      (inner : ∀ i, 0 < i → i < count → unitStart p (lpn + i) .normal ≠ lpn + i)

section Calls

variable (config : DualConfig) (cells : config.cellMode ≠ 1)

theorem rsv_entry (p : Params) (ftl : ZmsFtl) (lpn : Nat) : getMaptblEnt p ftl lpn = .rsv ↔ lpn < p.zpp.ttLpns ∧ barePpa (ftl.maptbl lpn) = .rsv := by
  unfold getMaptblEnt
  split
  · rename_i inside
    cases ftl.maptbl lpn with
    | rsv => exact iff_of_true rfl ⟨inside, rfl⟩
    | unmapped => exact iff_of_false nofun fun both => nomatch both.2
    | mapped page map => exact iff_of_false nofun fun both => nomatch both.2
  · rename_i outside
    exact iff_of_false nofun fun both => outside both.1

theorem stays_in_line_kept (p : Params) (before after : ZmsFtl) (media : mediaSide after = mediaSide before) (ioType : IoType) (lpn count place : Nat)
    (line : StaysInLine p before ioType lpn count place) : StaysInLine p after ioType lpn count place := by
  have table := (media_maps before after media).table
  have reserved : ∀ lpn, getMaptblEnt p before lpn = .rsv → getMaptblEnt p after lpn = .rsv := by
    intro lpn before
    rw [rsv_entry] at before ⊢
    rw [table]
    exact before
  cases line with
  | continues prev map entry behind room waits inner =>
      have there := mapped_on_page p before _ prev map entry
      obtain ⟨map, entry⟩ := on_page_entry p after _ prev ((on_page_congr p before after table _ prev).mpr there)
      exact .continues prev map entry behind room (fun i inside => reserved _ (waits i inside)) inner
  | begins page first ahead fresh here room unit inner =>
      have wps : after.wps = before.wps := congrArg MediaSide.wps media
      have lm : after.lm = before.lm := congrArg MediaSide.lm media
      refine .begins page first ?_ (fun held => ?_) here room unit inner
      · rw [← ahead]
        unfold pageAhead
        rw [wps, lm]
      · rw [wps]
        exact fresh ((same_maps_mapped p before after (media_maps before after media) lpn).mp held)

include cells in
theorem stays_in_line_step (ftl written : ZmsFtl) (ioType : IoType) (lpn count place : Nat) (bounded : Bounded (dualParams config .normal) ftl)
    (clear : anyFull ftl = false) (line : StaysInLine (dualParams config .normal) ftl ioType lpn (count + 1) place)
    (ran : updateOrReserveMapping (dualParams config .normal) ftl lpn .normal ioType = .ok written) :
    StaysInLine (dualParams config .normal) written ioType (lpn + 1) count (place + 1) ∧ ∃ page, OnPage (dualParams config .normal) written lpn page ∧
      OwnedPage (dualParams config .normal) page ∧ placeIn (dualParams config .normal) page = place := by
  have rows : RowGeometry (dualParams config .normal).spp := config_row_geometry config
  have medium := dual_medium config .normal
  have sizes := dual_unit_sizes config .normal
  have space := dual_zoned_space config .normal
  have onward : ∀ page, OnPage (dualParams config .normal) written lpn page → placeIn (dualParams config .normal) page = place →
      place + (count + 1) ≤ lineSize (dualParams config .normal) page →
      (∀ i, i < count → getMaptblEnt (dualParams config .normal) written (lpn + 1 + i) = .rsv) →
      (∀ i, i < count → unitStart (dualParams config .normal) (lpn + 1 + i) .normal ≠ lpn + 1 + i) →
      StaysInLine (dualParams config .normal) written ioType (lpn + 1) count (place + 1) := by
    intro page there spot room reserved inner
    obtain ⟨map, entry⟩ := on_page_entry _ written lpn page there
    exact .continues page map entry (by omega) (by omega) reserved inner
  cases line with
  | continues prev map entry behind room reserved inner =>
      have prevOwned := get_maptbl_owned _ ftl _ prev map bounded entry
      obtain ⟨page, walked, spot⟩ := walk_in_line _ rows prev prevOwned 1 (by omega)
      have stepped : lineStep (dualParams config .normal) prev prev = some page := by
        simpa [Walk.advance] using walked
      have owned := step_owned _ medium prev page prevOwned stepped
      have same := step_line _ rows prev page prevOwned stepped
      have place' := step_place _ rows prev page prevOwned stepped
      have size : lineSize (dualParams config .normal) page = lineSize (dualParams config .normal) prev := by
        rw [← sizes.size page owned, ← sizes.size prev prevOwned, same]
      have location : getPageLocation (dualParams config .normal) prev = .normal := by
        rw [dual_page_location config .normal prev prevOwned, if_neg cells]
      have first := reserved 0 (Nat.succ_pos count)
      have table := continue_table _ rfl ftl written lpn ioType prev page map entry first (inner 0 (Nat.succ_pos count)) location stepped ran
      have there : OnPage (dualParams config .normal) written lpn page := by
        refine ⟨((rsv_entry _ ftl lpn).mp first).1, ?_⟩
        rw [table, if_pos rfl]
      refine ⟨onward page there (by omega) (by omega) (fun i inside => ?_) (fun i inside => ?_), page, there, owned, by omega⟩
      · have before := (rsv_entry _ ftl _).mp (reserved (i + 1) (by omega))
        rw [rsv_entry, table, if_neg (by omega), show lpn + 1 + i = lpn + (i + 1) by omega]
        exact before
      · rw [show lpn + 1 + i = lpn + (i + 1) by omega]
        exact inner (i + 1) (by omega)
  | begins page first ahead fresh here room unit inner =>
      obtain ⟨fits, table⟩ := begin_table _ rfl ftl written lpn ioType space.some first page ahead (any_full_loc ftl .normal clear) ran
      have some : 0 < unitPgs (dualParams config .normal) .normal := space.some
      have there : OnPage (dualParams config .normal) written lpn page := by
        refine ⟨by omega, ?_⟩
        rw [table, if_pos rfl]
      have owned := page_ahead_owned _ ftl ioType medium .normal page bounded ahead
      refine ⟨onward page there here room (fun i inside => ?_) (fun i inside => ?_), page, there, owned, here⟩
      · rw [rsv_entry, table, if_neg (by omega), if_pos (by omega)]
        exact ⟨by omega, rfl⟩
      · rw [show lpn + 1 + i = lpn + (i + 1) by omega]
        exact inner (i + 1) (by omega) (by omega)

structure TlcCalm (ioType : IoType) (place : Nat) (rest : List Nat) (ftl : ZmsFtl) : Prop where
  calm : Calm (dualParams config .normal) .normal ioType rest ftl
  aggs : ∀ zid, ftl.zoneAggLpns zid = []
  line : rest = [] ∨ ∃ lpn, rest = List.range' lpn rest.length ∧
    StaysInLine (dualParams config .normal) ftl ioType lpn rest.length place

theorem tlc_calm_kept (ioType : IoType) (place : Nat) (rest : List Nat) (before after : ZmsFtl) (media : mediaSide after = mediaSide before)
    (same : gathered after = gathered before) (ready : TlcCalm config ioType place rest before) : TlcCalm config ioType place rest after := by
  refine ⟨calm_kept _ .normal ioType rest before after (media_bounded _ before after media ready.calm.bounded) same ready.calm, ?_, ?_⟩
  · rw [gathered_aggs _ _ same]
    exact ready.aggs
  · rcases ready.line with none | ⟨lpn, range, line⟩
    · exact .inl none
    · exact .inr ⟨lpn, range, stays_in_line_kept _ before after media ioType lpn _ place line⟩

theorem prepared_in_line (p : Params) (prepare : ZmsFtl → Nat → ZmsFtl) (prepares : Prepares p prepare) (ftl : ZmsFtl) (ioType : IoType)
    (lpn count place : Nat) (line : StaysInLine p ftl ioType lpn (count + 1) place) :
    StaysInLine p (prepare ftl lpn) ioType lpn (count + 1) place := by
  cases line with
  | continues prev map entry behind room reserved inner =>
      refine stays_in_line_kept p ftl _ (prepares.fresh ftl lpn fun held => ?_) ioType lpn _ place
        (.continues prev map entry behind room reserved inner)
      obtain ⟨page, other, mapped⟩ := (mapped_entry p ftl lpn).mp held
      cases (reserved 0 (Nat.succ_pos count)).symm.trans mapped
  | begins page first ahead fresh here room unit inner =>
      by_cases held : Mapped p ftl lpn
      · have opened := fresh held
        have wps := prepares.wps ftl lpn
        refine .begins page first ?_ (fun _ => ?_) here room unit inner
        · rw [← ahead]
          unfold pageAhead
          rw [wps, if_neg opened, if_neg opened]
        · rw [wps]
          exact opened
      · exact stays_in_line_kept p ftl _ (prepares.fresh ftl lpn held) ioType lpn _ place
          (.begins page first ahead fresh here room unit inner)

include cells in
theorem tlc_calm_follow (collect : ZmsFtl → Loc → Exec ZmsFtl) (collected : ZmsFtl → Loc → List (List PageWrite))
    (prepare : ZmsFtl → Nat → ZmsFtl) (prepares : Prepares (dualParams config .normal) prepare) (ioType : IoType)
    (start elpn : Nat) (fine : List PageWrite → Prop) :
    PagesFollow (dualParams config .normal) collect collected prepare ioType .normal start elpn (TlcCalm config ioType)
      (ShownAt config .normal) fine := by
  intro place lpn rest ftl next toWritePgs time ready ran clear
  have medium := dual_medium config .normal
  have calm := calm_kept _ .normal ioType (lpn :: rest) ftl _ (prepares.bounded ftl lpn ready.calm.bounded) (prepares.gathered ftl lpn) ready.calm
  obtain ⟨written, mapping, wrote⟩ := nand_write_calm _ medium collect collected .normal ioType rest _ next start lpn toWritePgs elpn time calm
    clear ran
  have step := update_or_reserve_mapping_step _ _ written lpn .normal ioType mapping
  rcases ready.line with none | ⟨first, range, line⟩
  · cases none
  · rw [List.length_cons, List.range'_succ] at range
    obtain ⟨same, later⟩ := List.cons.inj range
    rw [← same] at line later
    rw [List.length_cons] at line
    obtain ⟨onward, page, there, owned, spot⟩ := stays_in_line_step config cells _ written ioType lpn rest.length place calm.bounded
      (media_step_clear _ _ step wrote.clear) (prepared_in_line _ prepare prepares ftl ioType lpn rest.length place line) mapping
    refine ⟨⟨wrote.calm, ?_, .inr ⟨lpn + 1, later, ?_⟩⟩, ?_, ?_⟩
    · rw [wrote.aggs, gathered_aggs _ _ (prepares.gathered ftl lpn)]
      exact ready.aggs
    · exact stays_in_line_kept _ written next wrote.media ioType (lpn + 1) rest.length (place + 1) onward
    · intro write member
      rw [wrote.own, List.mem_singleton] at member
      rw [member, ← spot]
      exact place_shown config .normal _ page (on_page_place _ written lpn page .normal wrote.clear there) owned
    · intro writes member
      rw [wrote.inner] at member
      exact absurd member List.not_mem_nil

end Calls

section Zones

variable (config : DualConfig) (ns : TlcNamespace (dualParams config .normal)) (regular : Regular (dualParams config .normal) .normal)
variable (zid : Nat) (inside : zid < (dualParams config .normal).zpp.nrZones)

structure TlcReady (zid place : Nat) (rest : List Nat) (ftl : ZmsFtl) : Prop where
  resting : TlcResting (dualParams config .normal) ftl
  filled : ZoneFilled (dualParams config .normal) ftl zid place
  lpns : rest = (List.range' place rest.length).map fun i => zoneToSlpn (dualParams config .normal) zid + i
  fits : place + rest.length ≤ (dualParams config .normal).zpp.pgsPerZone
  aggs : ∀ zid, ftl.zoneAggLpns zid = []

include regular in
theorem tlc_collects_nothing (ftl : ZmsFtl) (resting : TlcResting (dualParams config .normal) ftl) :
    foregroundCalls (dualParams config .normal) ftl .normal = [] := by
  unfold foregroundCalls
  split
  · dsimp only
    split
    · rfl
    · unfold doGcCalls
      rw [tlc_no_victim _ (setCreditsToRefill ftl .normal 0) (tlc_resting_kept _ regular ftl _ rfl resting)]
  · rfl

include ns regular inside in
theorem tlc_flush_follow (start elpn : Nat) (fine : List PageWrite → Prop) :
    PagesFollow (dualParams config .normal) (foregroundGc (dualParams config .normal)) (foregroundCalls (dualParams config .normal))
      (countInplace (dualParams config .normal)) .userIo .normal start elpn (TlcReady config zid) (ShownAt config .normal) fine := by
  intro place lpn rest ftl next toWritePgs time ready ran clear
  have quiet := count_inplace_step (dualParams config .normal) ftl lpn
  have countedAggs := gathered_aggs _ _ (count_inplace_gathered (dualParams config .normal) ftl lpn)
  have countedRests := tlc_resting_kept _ regular ftl _ quiet.media ready.resting
  have countedFilled : ZoneFilled (dualParams config .normal) (countInplace (dualParams config .normal) ftl lpn) zid place := fun i within => by
    rw [same_maps_mapped _ ftl _ (quiet_maps _ _ quiet)]
    exact ready.filled i within
  generalize countInplace (dualParams config .normal) ftl lpn = before at ran countedAggs countedRests countedFilled ⊢
  have range := ready.lpns
  have fits := ready.fits
  rw [List.length_cons, List.range'_succ, List.map_cons] at range
  rw [List.length_cons] at fits
  obtain ⟨here, later⟩ := List.cons.inj range
  have bound : place < (dualParams config .normal).zpp.pgsPerZone := by omega
  rw [here] at ran ⊢
  obtain ⟨done, mapped, aggs⟩ := tlc_user_write_sound _ ns regular before next start toWritePgs elpn time zid place inside bound countedFilled
    countedRests ran
  obtain ⟨written, mapping, traced⟩ := nand_write_traced _ _ (foregroundCalls (dualParams config .normal)) before next start _ .normal .userIo
    toWritePgs elpn time ran
  obtain ⟨again, mappedAgain, own⟩ := nand_write_own _ _ (foregroundCalls (dualParams config .normal)) .userIo .normal start elpn before next _
    toWritePgs time ran
  cases Except.ok.inj (mapping.symm.trans mappedAgain)
  obtain ⟨home, prog, sound⟩ := countedRests
  obtain ⟨home', prog', writtenSound, writtenMapped⟩ := tlc_mapping_sound _ ns regular before home prog sound zid inside place bound countedFilled
    written mapping
  have grown : ∀ after, (∀ other, Mapped (dualParams config .normal) after other ↔
      Mapped (dualParams config .normal) before other ∨ other = zoneToSlpn (dualParams config .normal) zid + place) →
      ZoneFilled (dualParams config .normal) after zid (place + 1) := by
    intro after known i within
    rw [known, countedFilled i within]
    omega
  obtain ⟨ref, unit, filledProg⟩ := unit_of_filled _ ns written home' prog' writtenSound zid (place + 1) inside (grown written writtenMapped)
    (Nat.succ_pos place) bound
  obtain ⟨page, there, line, spot⟩ := unit.filled place (by omega)
  refine ⟨⟨done, grown next mapped, later, by omega, fun zid => ?_⟩, ?_, ?_⟩
  · rw [aggs, countedAggs]
    exact ready.aggs zid
  · intro write member
    rw [own, List.mem_singleton] at member
    have shown := place_shown config .normal (pageWrite (dualParams config .normal) before written start
      (zoneToSlpn (dualParams config .normal) zid + place) .normal .userIo toWritePgs elpn) page
      (on_page_place _ written _ page .normal writtenSound.roomy.clear there) (writtenSound.media.pages.named _ page there).1
    rw [spot] at shown
    rw [member]
    exact shown
  · intro writes member
    rcases traced.settled with ⟨_, inner, _⟩ | ⟨_, paid, _, paidBelow, _, _, inner⟩
    · rw [inner] at member
      exact absurd member List.not_mem_nil
    · rw [inner, tlc_collects_nothing config regular paid (tlc_resting_kept _ regular written paid (congrArg Prod.fst paidBelow)
        ⟨home', prog', writtenSound⟩)] at member
      exact absurd member List.not_mem_nil

end Zones

end ConZone
