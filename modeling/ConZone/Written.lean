import ConZone.Frame

set_option autoImplicit false

namespace ConZone

-- device_w_pgs.
def deviceWritten (ftl : ZmsFtl) : Nat := ftl.stats.deviceWPgs

def gathered (ftl : ZmsFtl) : Nat × (Nat → List Nat) × (Loc → WriteFlowControl) := (deviceWritten ftl, ftl.zoneAggLpns, ftl.wfc)

theorem gathered_aggs (before after : ZmsFtl) (same : gathered after = gathered before) : after.zoneAggLpns = before.zoneAggLpns :=
  congrArg (fun side => side.2.1) same

theorem gathered_credits (before after : ZmsFtl) (same : gathered after = gathered before) : after.wfc = before.wfc :=
  congrArg (fun side => side.2.2) same

section Allocator

variable (p : Params)

theorem set_full_gathered (ftl : ZmsFtl) (loc : Loc) : gathered (setFull ftl loc) = gathered ftl := by
  cases loc with
  | normal => rfl
  | pslc => rfl

theorem get_next_free_line_gathered (ftl next : ZmsFtl) (loc : Loc) (line : Option LineRef)
    (ran : getNextFreeLine ftl loc = .ok (line, next)) : gathered next = gathered ftl := by
  unfold getNextFreeLine at ran
  split at ran
  · cases ran
    exact set_full_gathered ftl loc
  · cases ran
    rfl
  · cases ran

theorem get_current_page_gathered (ftl : ZmsFtl) (name : WpName) :
    gathered (getCurrentPage p ftl name).2 = gathered ftl := by
  by_cases past : p.zpp.ttPpns ≤ ppa2Pgidx p (wpPage (ftl.wps name))
  · simpa [getCurrentPage, past] using set_full_gathered ftl _
  · simp [getCurrentPage, past]

theorem bump_zone_writes_gathered (ftl : ZmsFtl) (name : WpName) : gathered (bumpZoneWrites ftl name) = gathered ftl := by
  by_cases user : name = .wp
  · rw [bumpZoneWrites, if_pos user]
    rfl
  · rw [bumpZoneWrites, if_neg user]

theorem get_new_wp_gathered (ftl next : ZmsFtl) (name : WpName) (ran : getNewWp p ftl name = .ok next) :
    gathered next = gathered ftl := by
  unfold getNewWp at ran
  cases current : (ftl.wps name).curline with
  | none => simp [current] at ran
  | some cur =>
      rw [current] at ran
      obtain ⟨⟨line, middle⟩, taken, rest⟩ := bind_ok _ _ _ ran
      have popped := get_next_free_line_gathered _ middle _ line taken
      cases line with
      | none =>
          cases pure_ok _ _ rest
          exact popped
      | some line =>
          cases pure_ok _ _ rest
          rw [bump_zone_writes_gathered]
          exact popped

theorem open_write_pointer_gathered (ftl next : ZmsFtl) (ioType : IoType) (loc : Loc)
    (ran : openWritePointer p ftl ioType loc = .ok next) : gathered next = gathered ftl := by
  by_cases absent : (ftl.wps (zmsGetWp ioType loc)).curline = none
  · rw [openWritePointer, if_pos absent] at ran
    obtain ⟨⟨line, middle⟩, taken, rest⟩ := bind_ok _ _ _ ran
    have popped := get_next_free_line_gathered ftl middle loc line taken
    cases line with
    | none => cases rest
    | some line =>
        cases pure_ok _ _ rest
        exact popped
  · rw [openWritePointer, if_neg absent] at ran
    cases ran
    rfl

theorem get_new_page_gathered (ftl next : ZmsFtl) (ioType : IoType) (loc : Loc) (page : Page)
    (ran : getNewPage p ftl ioType loc = .ok (page, next)) : gathered next = gathered ftl := by
  obtain ⟨middle, ready, rest⟩ := bind_ok _ _ _ ran
  have current := get_current_page_gathered p middle (zmsGetWp ioType loc)
  rw [pure_ok _ _ rest] at current
  exact current.trans (open_write_pointer_gathered p ftl middle ioType loc ready)

theorem advance_write_pointer_gathered (ftl next : ZmsFtl) (ioType : IoType) (loc : Loc)
    (ran : advanceWritePointer p ftl ioType loc = .ok next) : gathered next = gathered ftl := by
  unfold advanceWritePointer at ran
  dsimp only at ran
  cases current : (ftl.wps (zmsGetWp ioType loc)).curline with
  | none =>
      rw [current] at ran
      cases ran
      rfl
  | some cur =>
      rw [current] at ran
      have looked := get_current_page_gathered p ftl (zmsGetWp ioType loc)
      generalize getCurrentPage p ftl (zmsGetWp ioType loc) = taken at ran looked
      obtain ⟨page, middle⟩ := taken
      dsimp only at ran looked
      cases following : if isSuperblock cur then nextpageInterleave p page else nextpageNormal p page with
      | none =>
          rw [following] at ran
          exact (get_new_wp_gathered p middle next _ ran).trans looked
      | some page =>
          rw [following] at ran
          cases ran
          exact looked

theorem cross_line_gathered (ioType : IoType) (loc : Loc) (r next : Reservation) (found : Bool)
    (ran : crossLine p ioType loc r = .ok (next, found)) : gathered next.ftl = gathered r.ftl := by
  obtain ⟨middle, moved, rest⟩ := bind_ok _ _ _ ran
  have first := get_new_wp_gathered p _ _ _ moved
  cases current : (middle.wps (zmsGetWp ioType loc)).curline with
  | none =>
      rw [current] at rest
      cases pure_ok _ _ rest
      exact first
  | some line =>
      rw [current] at rest
      obtain ⟨⟨page, last⟩, taken, rest⟩ := bind_ok _ _ _ rest
      cases pure_ok _ _ rest
      exact (get_new_page_gathered p _ _ ioType loc page taken).trans first

theorem reserve_in_line_gathered (ioType : IoType) (loc : Loc) (r next : Reservation) (free : Nat) (found : Bool)
    (ran : reserveInLine p ioType loc r free = .ok (next, found)) : gathered next.ftl = gathered r.ftl := by
  unfold reserveInLine at ran
  dsimp only at ran
  cases advanced : getAdvancedPpaFast p r.page (min r.remaining free) with
  | none =>
      rw [advanced] at ran
      have crossed := cross_line_gathered p ioType loc _ next found ran
      exact crossed
  | some page =>
      rw [advanced] at ran
      cases pure_ok _ _ ran
      rfl

theorem reserve_step_gathered (ioType : IoType) (loc : Loc) (r next : Reservation) (found : Bool)
    (ran : reserveStep p ioType loc r = .ok (next, found)) : gathered next.ftl = gathered r.ftl := by
  unfold reserveStep at ran
  dsimp only at ran
  by_cases spent : freeInLine p r.ftl r.current ≤ 0
  · rw [if_pos spent] at ran
    obtain ⟨⟨middle, reached⟩, crossed, rest⟩ := bind_ok _ _ _ ran
    have first := cross_line_gathered p ioType loc r middle reached crossed
    cases reached with
    | true => exact (reserve_in_line_gathered p ioType loc middle next _ found rest).trans first
    | false =>
        cases pure_ok _ _ rest
        exact first
  · rw [if_neg spent] at ran
    exact reserve_in_line_gathered p ioType loc r next _ found ran

theorem reserve_loop_gathered (ioType : IoType) (loc : Loc) (fuel : Nat) (r : Reservation) (next : ZmsFtl)
    (ran : reserveLoop p ioType loc fuel r = .ok next) : gathered next = gathered r.ftl := by
  induction fuel generalizing r with
  | zero =>
      by_cases finished : r.remaining = 0
      · simp only [reserveLoop, finished, if_true] at ran
        cases ran
        rfl
      · simp [reserveLoop, finished] at ran
  | succ fuel ih =>
      by_cases finished : r.remaining = 0
      · simp only [reserveLoop, finished, if_true] at ran
        cases ran
        rfl
      · rw [reserveLoop, if_neg finished] at ran
        obtain ⟨⟨middle, found⟩, stepped, rest⟩ := bind_ok _ _ _ ran
        have first := reserve_step_gathered p ioType loc r middle found stepped
        cases found with
        | true => exact (ih middle rest).trans first
        | false =>
            cases pure_ok _ _ rest
            exact first

end Allocator

section Entries

variable (p : Params)

theorem set_maptbl_gathered (ftl : ZmsFtl) (lpn : Nat) (ppa : Ppa) : gathered (setMaptblEnt p ftl lpn ppa) = gathered ftl := by
  unfold setMaptblEnt
  split <;> rfl

theorem set_rmap_gathered (ftl : ZmsFtl) (lpn : Option Nat) (page : Page) :
    gathered (setRmapEnt p ftl lpn page) = gathered ftl := by
  unfold setRmapEnt
  split <;> rfl

theorem mark_page_valid_gathered (ftl : ZmsFtl) (page : Page) : gathered (markPageValid p ftl page) = gathered ftl := by
  unfold markPageValid
  dsimp only
  split
  · rfl
  · split
    · rfl
    · split <;> rfl

theorem set_map_gran_gathered (ftl : ZmsFtl) (gran : MapType) (mapSlpn : Nat) :
    gathered (setMapGran p ftl gran mapSlpn) = gathered ftl := by
  unfold setMapGran
  dsimp only
  rw [set_maptbl_gathered]
  rfl

theorem refine_map_gran_gathered (lpn : Nat) (loc : Loc) (grans : List MapType) (ftl : ZmsFtl) :
    gathered (refineMapGran p lpn loc grans ftl) = gathered ftl := by
  induction grans with
  | nil => rfl
  | cons gran rest ih =>
      unfold refineMapGran
      dsimp only
      split
      · split
        · exact set_map_gran_gathered p ftl gran _
        · exact ih
      · exact ih

theorem note_filled_line_gathered (ftl : ZmsFtl) (ref : LineRef) (loc : Loc) (ioType : IoType) :
    gathered (noteFilledLine p ftl ref loc ioType) = gathered ftl := by
  unfold noteFilledLine
  dsimp only
  split <;> rfl

theorem placed_gathered (ftl : ZmsFtl) (lpn : Nat) (ppa : Ppa) (page : Page) :
    gathered (setRmapEnt p (markPageValid p (setMaptblEnt p ftl lpn ppa) page) (some lpn) page) = gathered ftl := by
  rw [set_rmap_gathered, mark_page_valid_gathered, set_maptbl_gathered]

theorem update_mapping_gathered (ftl next : ZmsFtl) (lpn : Nat) (loc : Loc) (ioType : IoType)
    (ran : updateMappingIfReserved p ftl lpn loc ioType = some next) : gathered next = gathered ftl := by
  unfold updateMappingIfReserved at ran
  split at ran
  · split at ran
    · cases ran
    · split at ran
      · rename_i page map _
        cases ran
        rw [refine_map_gran_gathered, note_filled_line_gathered]
        exact placed_gathered p ftl lpn (.mapped page map) page
      · cases ran
  · cases ran

theorem first_page_taken_gathered (ftl : ZmsFtl) (lpn : Nat) (loc : Loc) (ioType : IoType) (page : Page) :
    gathered (firstPageTaken p ftl lpn loc ioType page) = gathered ftl := by
  rw [firstPageTaken, note_filled_line_gathered]
  unfold takeFirstPage
  dsimp only
  rw [set_map_gran_gathered, placed_gathered]

theorem reserve_mapping_gathered (ftl next : ZmsFtl) (lpn : Nat) (loc : Loc) (ioType : IoType)
    (ran : reserveMapping p ftl lpn loc ioType = .ok next) : gathered next = gathered ftl := by
  obtain ⟨reserved, page, opened, looped, advanced, last, entries, taken, reserving, advancing, checked⟩ :=
    reserve_mapping_runs p ftl next lpn loc ioType ran
  have unit : gathered reserved = gathered ftl := by
    unfold reserveUnit at entries
    split at entries
    · cases entries
      rfl
    · cases entries
  calc gathered next
      = gathered advanced := get_new_page_gathered p advanced next ioType loc last checked
    _ = gathered looped := advance_write_pointer_gathered p looped advanced ioType loc advancing
    _ = gathered (firstPageTaken p opened lpn loc ioType page) := reserve_loop_gathered p ioType loc _ _ looped reserving
    _ = gathered opened := first_page_taken_gathered p opened lpn loc ioType page
    _ = gathered reserved := get_new_page_gathered p reserved opened ioType loc page taken
    _ = gathered ftl := unit

theorem update_or_reserve_gathered (ftl next : ZmsFtl) (lpn : Nat) (loc : Loc) (ioType : IoType)
    (ran : updateOrReserveMapping p ftl lpn loc ioType = .ok next) : gathered next = gathered ftl := by
  unfold updateOrReserveMapping at ran
  split at ran
  · rename_i updated
    cases ran
    exact update_mapping_gathered p ftl _ lpn loc ioType updated
  · split at ran
    · cases ran
      rfl
    · exact reserve_mapping_gathered p ftl next lpn loc ioType ran

end Entries

section Elsewhere

variable (p : Params)

theorem drop_if_mapped_gathered (ftl : ZmsFtl) (lpn : Nat) : gathered (dropIfMapped p ftl lpn) = gathered ftl := by
  unfold dropIfMapped
  split
  · rename_i page map _
    exact set_rmap_gathered p (markPageInvalid p ftl page) none page
  · rfl

theorem submit_read_gathered (ftl : ZmsFtl) (ioType : IoType) (start : Nat) (agg : Page × Nat) :
    gathered (submitRead p ftl ioType start agg).2 = gathered ftl := by
  unfold submitRead
  split <;> rfl

theorem nand_read_gathered (ftl : ZmsFtl) (lpns : List Nat) (ioType : IoType) (start : Nat) :
    gathered (nandRead p ftl lpns ioType start).2 = gathered ftl :=
  nand_read_keeps p (fun after => gathered after = gathered ftl) ioType start
    (fun middle agg before => (submit_read_gathered p middle ioType start agg).trans before) ftl lpns rfl

theorem select_victim_gathered (ftl next : ZmsFtl) (force : Bool) (loc : Loc) (victim : LineRef)
    (selected : selectVictimLine p ftl force loc = some (victim, next)) : gathered next = gathered ftl := by
  unfold selectVictimLine at selected
  split at selected
  · cases selected
  · split at selected
    · cases selected
    · cases selected
      rfl

theorem mark_line_free_gathered (ftl : ZmsFtl) (ref : LineRef) (ioType : IoType) :
    gathered (markLineFree p ftl ref ioType) = gathered ftl := by
  unfold markLineFree
  dsimp only
  generalize clearLine _ ref = cleared
  have placed : gathered (if !isActiveLine ftl ref then { ftl with lm := addFree cleared (getLineLocation p ref) ref }
      else resetWp { ftl with lm := cleared } ref) = gathered ftl := by
    split
    · rfl
    · unfold resetWp
      split <;> rfl
  generalize (if !isActiveLine ftl ref then _ else _ : ZmsFtl) = moved at placed ⊢
  rw [← placed]
  split <;> rfl

theorem erase_line_gathered (ftl : ZmsFtl) (ref : LineRef) (ioType : IoType) :
    gathered (eraseLine p ftl ref ioType) = gathered ftl := by
  have erased : ∀ (blocks : List Block) (ftl : ZmsFtl),
      gathered (blocks.foldl (eraseBlock p ioType) ftl) = gathered ftl := by
    intro blocks
    induction blocks with
    | nil => exact fun ftl => rfl
    | cons block rest ih =>
        intro ftl
        have one : gathered (eraseBlock p ioType ftl block) = gathered ftl := by
          unfold eraseBlock
          dsimp only
          split <;> rfl
        exact (ih _).trans one
  exact (mark_line_free_gathered p _ ref ioType).trans (erased _ ftl)

theorem park_gc_lpns_gathered (lpns : List Nat) (ftl : ZmsFtl) : gathered (lpns.foldl (parkGcLpn p) ftl) = gathered ftl := by
  induction lpns generalizing ftl with
  | nil => rfl
  | cons lpn rest ih =>
      have parked := drop_if_mapped_gathered p { ftl with gcAggLpns := ftl.gcAggLpns ++ [lpn] } lpn
      exact (ih _).trans parked

theorem count_inplace_gathered (ftl : ZmsFtl) (lpn : Nat) : gathered (countInplace p ftl lpn) = gathered ftl := by
  unfold countInplace
  split <;> rfl

end Elsewhere

-- device_w_pgs alone.
section Counted

variable (p : Params)

theorem update_or_reserve_written (ftl next : ZmsFtl) (lpn : Nat) (loc : Loc) (ioType : IoType)
    (ran : updateOrReserveMapping p ftl lpn loc ioType = .ok next) : deviceWritten next = deviceWritten ftl :=
  congrArg Prod.fst (update_or_reserve_gathered p ftl next lpn loc ioType ran)

theorem drop_if_mapped_written (ftl : ZmsFtl) (lpn : Nat) : deviceWritten (dropIfMapped p ftl lpn) = deviceWritten ftl :=
  congrArg Prod.fst (drop_if_mapped_gathered p ftl lpn)

theorem nand_read_written (ftl : ZmsFtl) (lpns : List Nat) (ioType : IoType) (start : Nat) :
    deviceWritten (nandRead p ftl lpns ioType start).2 = deviceWritten ftl :=
  congrArg Prod.fst (nand_read_gathered p ftl lpns ioType start)

theorem select_victim_written (ftl next : ZmsFtl) (force : Bool) (loc : Loc) (victim : LineRef)
    (selected : selectVictimLine p ftl force loc = some (victim, next)) : deviceWritten next = deviceWritten ftl :=
  congrArg Prod.fst (select_victim_gathered p ftl next force loc victim selected)

theorem erase_line_written (ftl : ZmsFtl) (ref : LineRef) (ioType : IoType) :
    deviceWritten (eraseLine p ftl ref ioType) = deviceWritten ftl :=
  congrArg Prod.fst (erase_line_gathered p ftl ref ioType)

theorem park_gc_lpns_written (lpns : List Nat) (ftl : ZmsFtl) : deviceWritten (lpns.foldl (parkGcLpn p) ftl) = deviceWritten ftl :=
  congrArg Prod.fst (park_gc_lpns_gathered p lpns ftl)

theorem count_inplace_written (ftl : ZmsFtl) (lpn : Nat) : deviceWritten (countInplace p ftl lpn) = deviceWritten ftl :=
  congrArg Prod.fst (count_inplace_gathered p ftl lpn)

end Counted

end ConZone
