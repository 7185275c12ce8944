import ConZone.Zone

set_option autoImplicit false

namespace ConZone

-- The part of a namespace that commands keep about the host: buffers, zone
-- descriptors, resource counters and the memory of earlier requests.
structure HostSide where
  writeBuffer : Nat → Buffer
  zoneDescs : Nat → ZoneDescriptor
  resInfos : ResType → ZoneResourceInfo
  nopgLastLpn : Nat
  pendingForMigrating : Bool
  lastSlba : Nat
  lastNlb : Nat
  lastStime : Nat
  currentTime : Nat
  scheduled : List (Nat × Nat)

def hostSide (ftl : ZmsFtl) : HostSide :=
  ⟨ftl.writeBuffer, ftl.zoneDescs, ftl.resInfos, ftl.nopgLastLpn, ftl.pendingForMigrating, ftl.lastSlba, ftl.lastNlb,
    ftl.lastStime, ftl.currentTime, ftl.scheduled⟩

def barePpa : Ppa → Ppa
  | .mapped page _ => .mapped page .pageMap
  | other => other

structure MediaSide where
  nand : Block → NandBlock
  maptbl : Nat → Ppa
  rmap : Nat → Option Nat
  lm : LineMgmt
  wps : WpName → WritePointer
  deviceFull : Bool
  pslcFull : Bool

def mediaSide (ftl : ZmsFtl) : MediaSide :=
  ⟨ftl.nand, fun lpn => barePpa (ftl.maptbl lpn), ftl.rmap, ftl.lm, ftl.wps, ftl.deviceFull, ftl.pslcFull⟩

-- What timing, statistics and cache bookkeeping leave alone.
structure Quiet (before after : ZmsFtl) : Prop where
  host : hostSide after = hostSide before
  media : mediaSide after = mediaSide before

structure MediaStep (before after : ZmsFtl) : Prop where
  host : hostSide after = hostSide before
  deviceSticky : before.deviceFull = true → after.deviceFull = true
  pslcSticky : before.pslcFull = true → after.pslcFull = true

theorem quiet_refl (ftl : ZmsFtl) : Quiet ftl ftl := ⟨rfl, rfl⟩

theorem quiet_trans (first second third : ZmsFtl) (left : Quiet first second) (right : Quiet second third) :
    Quiet first third :=
  ⟨right.host.trans left.host, right.media.trans left.media⟩

theorem media_step_refl (ftl : ZmsFtl) : MediaStep ftl ftl := ⟨rfl, id, id⟩

theorem media_step_trans (first second third : ZmsFtl) (left : MediaStep first second) (right : MediaStep second third) :
    MediaStep first third :=
  ⟨right.host.trans left.host, fun full => right.deviceSticky (left.deviceSticky full),
    fun full => right.pslcSticky (left.pslcSticky full)⟩

theorem quiet_full (before after : ZmsFtl) (quiet : Quiet before after) :
    after.deviceFull = before.deviceFull ∧ after.pslcFull = before.pslcFull :=
  ⟨congrArg MediaSide.deviceFull quiet.media, congrArg MediaSide.pslcFull quiet.media⟩

theorem quiet_media_step (before after : ZmsFtl) (quiet : Quiet before after) : MediaStep before after := by
  obtain ⟨device, pslc⟩ := quiet_full before after quiet
  exact ⟨quiet.host, fun full => device.trans full, fun full => pslc.trans full⟩

theorem media_step_clear (before after : ZmsFtl) (step : MediaStep before after) (clear : anyFull after = false) :
    anyFull before = false := by
  unfold anyFull at *
  rw [Bool.or_eq_false_iff] at *
  constructor
  · cases full : before.deviceFull with
    | false => rfl
    | true => exact absurd (step.deviceSticky full) (by simp [clear.1])
  · cases full : before.pslcFull with
    | false => rfl
    | true => exact absurd (step.pslcSticky full) (by simp [clear.2])

section Bookkeeping

theorem submit_nand_cmd_quiet (p : Params) (ftl : ZmsFtl) (type : IoType) (cmd : NandOp) (stime size : Nat) (page : Page) :
    Quiet ftl (submitNandCmd p ftl type cmd stime size page).2 :=
  ⟨rfl, rfl⟩

theorem submit_read_quiet (p : Params) (ftl : ZmsFtl) (ioType : IoType) (start : Nat) (agg : Page × Nat) :
    Quiet ftl (submitRead p ftl ioType start agg).2 := by
  unfold submitRead
  split
  · exact ⟨rfl, rfl⟩
  · exact quiet_refl ftl

theorem nand_read_quiet (p : Params) (ftl : ZmsFtl) (lpns : List Nat) (ioType : IoType) (start : Nat) :
    Quiet ftl (nandRead p ftl lpns ioType start).2 :=
  nand_read_keeps p (Quiet ftl) ioType start
    (fun middle agg before => quiet_trans ftl middle _ before (submit_read_quiet p middle ioType start agg))
    ftl lpns (quiet_refl ftl)

theorem program_page_quiet (p : Params) (ftl : ZmsFtl) (start lpn : Nat) (loc : Loc) (ioType : IoType)
    (toWritePgs elpn : Nat) (page : Page) :
    Quiet ftl (programPage p ftl start lpn loc ioType toWritePgs elpn page).2 := by
  unfold programPage
  split
  · dsimp only
    split
    · exact ⟨rfl, rfl⟩
    · exact ⟨rfl, rfl⟩
  · exact quiet_refl ftl

theorem bare_set_maptbl (p : Params) (ftl : ZmsFtl) (lpn : Nat) (ppa : Ppa) (same : barePpa ppa = barePpa (getMaptblEnt p ftl lpn)) :
    Quiet ftl (setMaptblEnt p ftl lpn ppa) := by
  unfold setMaptblEnt getMaptblEnt at *
  split
  · rename_i inside
    rw [if_pos inside] at same
    refine ⟨rfl, ?_⟩
    have table : (fun other => barePpa (Function.update ftl.maptbl lpn ppa other)) = fun other => barePpa (ftl.maptbl other) := by
      funext other
      by_cases here : other = lpn
      · rw [here, Function.update_self, same]
      · rw [Function.update_of_ne here]
    unfold mediaSide
    rw [table]
  · exact quiet_refl ftl

theorem set_map_gran_quiet (p : Params) (ftl : ZmsFtl) (gran : MapType) (mapSlpn : Nat) :
    Quiet ftl (setMapGran p ftl gran mapSlpn) := by
  unfold setMapGran
  dsimp only
  generalize (if getL2pcacheidx p ftl.l2p mapSlpn = -1 then _ else _ : L2pCache) = cache
  refine quiet_trans _ { ftl with l2p := cache } _ ⟨rfl, rfl⟩ (bare_set_maptbl p _ mapSlpn _ ?_)
  have same : getMaptblEnt p { ftl with l2p := cache } mapSlpn = getMaptblEnt p ftl mapSlpn := rfl
  rw [same]
  cases getMaptblEnt p ftl mapSlpn with
  | unmapped => rfl
  | rsv => rfl
  | mapped page map => rfl

theorem refine_map_gran_quiet (p : Params) (lpn : Nat) (loc : Loc) (grans : List MapType) (ftl : ZmsFtl) :
    Quiet ftl (refineMapGran p lpn loc grans ftl) := by
  induction grans with
  | nil => exact quiet_refl ftl
  | cons gran rest ih =>
      unfold refineMapGran
      dsimp only
      split
      · split
        · exact set_map_gran_quiet p ftl gran _
        · exact ih
      · exact ih

theorem note_filled_line_step (p : Params) (ftl : ZmsFtl) (ref : LineRef) (loc : Loc) (ioType : IoType) :
    MediaStep ftl (noteFilledLine p ftl ref loc ioType) := by
  unfold noteFilledLine
  dsimp only
  split
  · exact ⟨rfl, id, id⟩
  · exact media_step_refl ftl

theorem note_filled_line_dual (p : Params) (ftl : ZmsFtl) (ref : LineRef) (loc : Loc) (ioType : IoType)
    (dual : zmsIsDualNs p.zpp.nsType = true) : noteFilledLine p ftl ref loc ioType = ftl := by
  simp [noteFilledLine, dual]

end Bookkeeping

section Mapping

theorem set_full_step (ftl : ZmsFtl) (loc : Loc) : MediaStep ftl (setFull ftl loc) := by
  cases loc with
  | normal => exact ⟨rfl, fun _ => rfl, id⟩
  | pslc => exact ⟨rfl, id, fun _ => rfl⟩

theorem get_next_free_line_step (ftl next : ZmsFtl) (loc : Loc) (line : Option LineRef)
    (ran : getNextFreeLine ftl loc = .ok (line, next)) : MediaStep ftl next := by
  unfold getNextFreeLine at ran
  split at ran
  · cases ran
    exact set_full_step ftl loc
  · cases ran
    exact ⟨rfl, id, id⟩
  · cases ran

theorem get_current_page_step (p : Params) (ftl : ZmsFtl) (name : WpName) : MediaStep ftl (getCurrentPage p ftl name).2 := by
  unfold getCurrentPage
  dsimp only
  split
  · exact set_full_step ftl _
  · exact media_step_refl ftl

theorem get_new_wp_step (p : Params) (ftl next : ZmsFtl) (name : WpName) (ran : getNewWp p ftl name = .ok next) :
    MediaStep ftl next := by
  unfold getNewWp at ran
  split at ran
  · cases ran
  · obtain ⟨⟨line, middle⟩, taken, rest⟩ := bind_ok _ _ _ ran
    have first := get_next_free_line_step _ _ _ _ taken
    dsimp only at rest
    refine media_step_trans _ middle _ ⟨first.host, first.deviceSticky, first.pslcSticky⟩ ?_
    cases line with
    | none =>
        rw [← pure_ok _ _ rest]
        exact ⟨rfl, id, id⟩
    | some line =>
        rw [← pure_ok _ _ rest]
        unfold bumpZoneWrites
        split
        · exact ⟨rfl, id, id⟩
        · exact ⟨rfl, id, id⟩

theorem init_write_pointer_step (p : Params) (ftl next : ZmsFtl) (ioType : IoType) (loc : Loc)
    (ran : initWritePointer p ftl ioType loc = .ok next) : MediaStep ftl next := by
  unfold initWritePointer at ran
  obtain ⟨⟨line, middle⟩, taken, rest⟩ := bind_ok _ _ _ ran
  refine media_step_trans _ middle _ (get_next_free_line_step _ _ _ _ taken) ?_
  dsimp only at rest
  cases line with
  | none => cases rest
  | some line =>
      rw [← pure_ok _ _ rest]
      exact ⟨rfl, id, id⟩

theorem open_write_pointer_step (p : Params) (ftl next : ZmsFtl) (ioType : IoType) (loc : Loc)
    (ran : openWritePointer p ftl ioType loc = .ok next) : MediaStep ftl next := by
  unfold openWritePointer at ran
  split at ran
  · exact init_write_pointer_step p ftl next ioType loc ran
  · cases ran
    exact media_step_refl ftl

theorem get_new_page_step (p : Params) (ftl next : ZmsFtl) (ioType : IoType) (loc : Loc) (page : Page)
    (ran : getNewPage p ftl ioType loc = .ok (page, next)) : MediaStep ftl next := by
  unfold getNewPage at ran
  obtain ⟨middle, ready, rest⟩ := bind_ok _ _ _ ran
  have same := congrArg Prod.snd (pure_ok _ _ rest)
  dsimp only at same
  rw [← same]
  exact media_step_trans _ middle _ (open_write_pointer_step p ftl middle ioType loc ready) (get_current_page_step p middle _)

theorem advance_write_pointer_step (p : Params) (ftl next : ZmsFtl) (ioType : IoType) (loc : Loc)
    (ran : advanceWritePointer p ftl ioType loc = .ok next) : MediaStep ftl next := by
  unfold advanceWritePointer at ran
  dsimp only at ran
  split at ran
  · cases ran
    exact media_step_refl ftl
  · refine media_step_trans _ _ _ (get_current_page_step p ftl (zmsGetWp ioType loc)) ?_
    generalize getCurrentPage p ftl (zmsGetWp ioType loc) = current at ran ⊢
    obtain ⟨page, middle⟩ := current
    dsimp only at ran ⊢
    split at ran
    · cases ran
      exact ⟨rfl, id, id⟩
    · exact get_new_wp_step p middle next _ ran

theorem put_line_step (ftl : ZmsFtl) (ref : LineRef) (line : Line) : MediaStep ftl (putLine ftl ref line) := ⟨rfl, id, id⟩

theorem mark_page_valid_step (p : Params) (ftl : ZmsFtl) (page : Page) : MediaStep ftl (markPageValid p ftl page) := by
  unfold markPageValid
  dsimp only
  split
  · exact media_step_refl ftl
  · split
    · exact ⟨rfl, id, id⟩
    · split
      · exact ⟨rfl, id, id⟩
      · exact ⟨rfl, id, id⟩

theorem mark_page_invalid_step (p : Params) (ftl : ZmsFtl) (page : Page) : MediaStep ftl (markPageInvalid p ftl page) :=
  ⟨rfl, id, id⟩

theorem set_maptbl_ent_step (p : Params) (ftl : ZmsFtl) (lpn : Nat) (ppa : Ppa) : MediaStep ftl (setMaptblEnt p ftl lpn ppa) := by
  unfold setMaptblEnt
  split
  · exact ⟨rfl, id, id⟩
  · exact media_step_refl ftl

theorem set_rmap_ent_step (p : Params) (ftl : ZmsFtl) (lpn : Option Nat) (page : Page) :
    MediaStep ftl (setRmapEnt p ftl lpn page) := by
  unfold setRmapEnt
  split
  · exact ⟨rfl, id, id⟩
  · exact media_step_refl ftl

theorem update_mapping_if_reserved_step (p : Params) (ftl next : ZmsFtl) (lpn : Nat) (loc : Loc) (ioType : IoType)
    (ran : updateMappingIfReserved p ftl lpn loc ioType = some next) : MediaStep ftl next := by
  unfold updateMappingIfReserved at ran
  split at ran
  · split at ran
    · cases ran
    · split at ran
      · rename_i page map _
        cases ran
        refine media_step_trans _ _ _ (set_maptbl_ent_step p ftl lpn (.mapped page map)) ?_
        refine media_step_trans _ _ _ (mark_page_valid_step p _ page) ?_
        refine media_step_trans _ _ _ (set_rmap_ent_step p _ (some lpn) page) ?_
        refine media_step_trans _ (decLineRpc p _ page) _ (put_line_step _ _ _) ?_
        refine media_step_trans _ _ _ (note_filled_line_step p _ (getLine p page) loc ioType) ?_
        exact quiet_media_step _ _ (refine_map_gran_quiet p lpn loc mapType _)
      · cases ran
  · cases ran

theorem cross_line_step (p : Params) (ioType : IoType) (loc : Loc) (r next : Reservation) (found : Bool)
    (ran : crossLine p ioType loc r = .ok (next, found)) : MediaStep r.ftl next.ftl := by
  unfold crossLine at ran
  obtain ⟨middle, moved, rest⟩ := bind_ok _ _ _ ran
  refine media_step_trans _ middle _ (get_new_wp_step p _ _ _ moved) ?_
  dsimp only at rest
  split at rest
  · rw [← (Prod.mk.inj (pure_ok _ _ rest)).1]
    exact media_step_refl middle
  · obtain ⟨⟨page, last⟩, taken, rest⟩ := bind_ok _ _ _ rest
    rw [← (Prod.mk.inj (pure_ok _ _ rest)).1]
    exact media_step_trans _ (setRsvNextline middle r.prev r.current) _ (put_line_step _ _ _)
      (get_new_page_step p _ _ ioType loc page taken)

theorem reserve_in_line_step (p : Params) (ioType : IoType) (loc : Loc) (r next : Reservation) (free : Nat) (found : Bool)
    (ran : reserveInLine p ioType loc r free = .ok (next, found)) : MediaStep r.ftl next.ftl := by
  unfold reserveInLine at ran
  dsimp only at ran
  split at ran
  · rw [← (Prod.mk.inj (pure_ok _ _ ran)).1]
    exact ⟨rfl, id, id⟩
  · have crossed := cross_line_step p ioType loc _ _ found ran
    exact ⟨crossed.host, crossed.deviceSticky, crossed.pslcSticky⟩

theorem reserve_step_step (p : Params) (ioType : IoType) (loc : Loc) (r next : Reservation) (found : Bool)
    (ran : reserveStep p ioType loc r = .ok (next, found)) : MediaStep r.ftl next.ftl := by
  unfold reserveStep at ran
  dsimp only at ran
  split at ran
  · obtain ⟨⟨middle, reached⟩, crossed, rest⟩ := bind_ok _ _ _ ran
    refine media_step_trans _ middle.ftl _ (cross_line_step p ioType loc r middle reached crossed) ?_
    dsimp only at rest
    split at rest
    · exact reserve_in_line_step p ioType loc middle next _ found rest
    · rw [← (Prod.mk.inj (pure_ok _ _ rest)).1]
      exact media_step_refl middle.ftl
  · exact reserve_in_line_step p ioType loc r next _ found ran

theorem reserve_loop_step (p : Params) (ioType : IoType) (loc : Loc) (fuel : Nat) (r : Reservation) (next : ZmsFtl)
    (ran : reserveLoop p ioType loc fuel r = .ok next) : MediaStep r.ftl next := by
  induction fuel generalizing r with
  | zero =>
      unfold reserveLoop at ran
      split at ran
      · cases ran
        exact media_step_refl r.ftl
      · cases ran
  | succ fuel ih =>
      unfold reserveLoop at ran
      split at ran
      · cases ran
        exact media_step_refl r.ftl
      · obtain ⟨⟨middle, found⟩, stepped, rest⟩ := bind_ok _ _ _ ran
        refine media_step_trans _ middle.ftl _ (reserve_step_step p ioType loc r middle found stepped) ?_
        dsimp only at rest
        split at rest
        · exact ih middle rest
        · rw [← pure_ok _ _ rest]
          exact media_step_refl middle.ftl

theorem reserve_unit_step (p : Params) (ftl next : ZmsFtl) (slpn pgs : Nat) (ran : reserveUnit p ftl slpn pgs = .ok next) :
    MediaStep ftl next := by
  unfold reserveUnit at ran
  split at ran
  · cases ran
    exact ⟨rfl, id, id⟩
  · cases ran

theorem take_first_page_step (p : Params) (ftl : ZmsFtl) (slpn : Nat) (page : Page) :
    MediaStep ftl (takeFirstPage p ftl slpn page) := by
  refine media_step_trans _ _ _ (set_maptbl_ent_step p ftl slpn (.mapped page .pageMap)) ?_
  refine media_step_trans _ _ _ (mark_page_valid_step p _ page) ?_
  refine media_step_trans _ _ _ (set_rmap_ent_step p _ (some slpn) page) ?_
  exact quiet_media_step _ _ (set_map_gran_quiet p _ .pageMap slpn)

def unitPgs (p : Params) (loc : Loc) : Nat := getPagesPerGranularity p (getMappingGranularity loc)

def unitStart (p : Params) (lpn : Nat) (loc : Loc) : Nat := getGranularityStartLpn p lpn (getMappingGranularity loc)

def firstPageTaken (p : Params) (ftl : ZmsFtl) (lpn : Nat) (loc : Loc) (ioType : IoType) (page : Page) : ZmsFtl :=
  noteFilledLine p (takeFirstPage p ftl (unitStart p lpn loc) page) (getLine p page) loc ioType

theorem reserve_mapping_runs (p : Params) (ftl next : ZmsFtl) (lpn : Nat) (loc : Loc) (ioType : IoType)
    (ran : reserveMapping p ftl lpn loc ioType = .ok next) :
    ∃ reserved page opened looped advanced last,
      reserveUnit p ftl (unitStart p lpn loc) (unitPgs p loc) = .ok reserved ∧
      getNewPage p reserved ioType loc = .ok (page, opened) ∧
      reserveLoop p ioType loc (unitPgs p loc - 1)
        ⟨firstPageTaken p opened lpn loc ioType page, page, getLine p page, getLine p page, unitPgs p loc - 1⟩ = .ok looped ∧
      advanceWritePointer p looped ioType loc = .ok advanced ∧ getNewPage p advanced ioType loc = .ok (last, next) := by
  unfold reserveMapping at ran
  obtain ⟨reserved, entries, ran⟩ := bind_ok _ _ _ ran
  obtain ⟨⟨page, opened⟩, taken, ran⟩ := bind_ok _ _ _ ran
  obtain ⟨looped, reserving, ran⟩ := bind_ok _ _ _ ran
  obtain ⟨advanced, advancing, ran⟩ := bind_ok _ _ _ ran
  obtain ⟨⟨last, final⟩, checked, ran⟩ := bind_ok _ _ _ ran
  cases pure_ok _ _ ran
  exact ⟨reserved, page, opened, looped, advanced, last, entries, taken, reserving, advancing, checked⟩

theorem reserve_mapping_step (p : Params) (ftl next : ZmsFtl) (lpn : Nat) (loc : Loc) (ioType : IoType)
    (ran : reserveMapping p ftl lpn loc ioType = .ok next) : MediaStep ftl next := by
  obtain ⟨reserved, page, opened, looped, advanced, last, entries, taken, reserving, advancing, checked⟩ :=
    reserve_mapping_runs p ftl next lpn loc ioType ran
  refine media_step_trans _ _ _ (reserve_unit_step p ftl reserved _ _ entries) ?_
  refine media_step_trans _ _ _ (get_new_page_step p _ _ ioType loc page taken) ?_
  refine media_step_trans _ _ _ (take_first_page_step p opened (unitStart p lpn loc) page) ?_
  refine media_step_trans _ _ _ (note_filled_line_step p _ (getLine p page) loc ioType) ?_
  refine media_step_trans _ _ _ (reserve_loop_step p ioType loc _ _ looped reserving) ?_
  exact media_step_trans _ _ _ (advance_write_pointer_step p _ _ ioType loc advancing)
    (get_new_page_step p _ _ ioType loc last checked)

theorem update_or_reserve_mapping_step (p : Params) (ftl next : ZmsFtl) (lpn : Nat) (loc : Loc) (ioType : IoType)
    (ran : updateOrReserveMapping p ftl lpn loc ioType = .ok next) : MediaStep ftl next := by
  unfold updateOrReserveMapping at ran
  split at ran
  · rename_i updated
    cases ran
    exact update_mapping_if_reserved_step p ftl _ lpn loc ioType updated
  · split at ran
    · cases ran
      exact media_step_refl ftl
    · exact reserve_mapping_step p ftl next lpn loc ioType ran

end Mapping

section Collection

-- collect is the garbage collector a write may start.
variable (collect : ZmsFtl → Loc → Exec ZmsFtl)
variable (collects : ∀ ftl loc next, collect ftl loc = .ok next → MediaStep ftl next)

include collects in
theorem check_and_refill_step (ftl next : ZmsFtl) (loc : Loc) (ran : checkAndRefillWriteCredit collect ftl loc = .ok next) :
    MediaStep ftl next := by
  unfold checkAndRefillWriteCredit at ran
  split at ran
  · obtain ⟨middle, collected, rest⟩ := bind_ok _ _ _ ran
    rw [← pure_ok _ _ rest]
    have step := collects ftl loc middle collected
    exact ⟨step.host, step.deviceSticky, step.pslcSticky⟩
  · rw [← pure_ok _ _ ran]
    exact media_step_refl ftl

include collects in
theorem nand_write_step (p : Params) (ftl next : ZmsFtl) (start lpn : Nat) (loc : Loc) (ioType : IoType)
    (toWritePgs elpn time : Nat) (ran : nandWrite collect p ftl start lpn loc ioType toWritePgs elpn = .ok (time, next)) :
    MediaStep ftl next := by
  unfold nandWrite at ran
  obtain ⟨mapped, mapping, rest⟩ := bind_ok _ _ _ ran
  refine media_step_trans _ mapped _ (update_or_reserve_mapping_step p ftl mapped lpn loc ioType mapping) ?_
  split at rest
  · rename_i page map _
    split at rest
    · rw [← (Prod.mk.inj (pure_ok _ _ rest)).2]
      exact media_step_refl mapped
    · have programmed := quiet_media_step _ _ (program_page_quiet p mapped start lpn loc ioType toWritePgs elpn page)
      generalize programPage p mapped start lpn loc ioType toWritePgs elpn page = written at rest programmed
      obtain ⟨finish, done⟩ := written
      dsimp only at rest programmed
      refine media_step_trans _ done _ programmed ?_
      split at rest
      · obtain ⟨refilled, refilling, rest⟩ := bind_ok _ _ _ rest
        rw [← (Prod.mk.inj (pure_ok _ _ rest)).2]
        have step := check_and_refill_step collect collects _ _ loc refilling
        exact ⟨step.host, step.deviceSticky, step.pslcSticky⟩
      · rw [← (Prod.mk.inj (pure_ok _ _ rest)).2]
        exact media_step_refl done
  · rw [← (Prod.mk.inj (pure_ok _ _ rest)).2]
    exact media_step_refl mapped

theorem drop_mapping_step (p : Params) (ftl : ZmsFtl) (lpn : Nat) (page : Page) : MediaStep ftl (dropMapping p ftl lpn page) := by
  have step := set_rmap_ent_step p (markPageInvalid p ftl page) none page
  exact media_step_trans _ _ _ (mark_page_invalid_step p ftl page) ⟨step.host, step.deviceSticky, step.pslcSticky⟩

theorem drop_if_mapped_step (p : Params) (ftl : ZmsFtl) (lpn : Nat) : MediaStep ftl (dropIfMapped p ftl lpn) := by
  unfold dropIfMapped
  split
  · exact drop_mapping_step p ftl lpn _
  · exact media_step_refl ftl

include collects in
theorem internal_write_loop_step (p : Params) (ioType : IoType) (loc : Loc) (start elpn : Nat) (lpns : List Nat)
    (ftl next : ZmsFtl) (toWritePgs latest time : Nat)
    (ran : internalWriteLoop collect p ioType loc start elpn lpns ftl toWritePgs latest = .ok (time, next)) :
    MediaStep ftl next := by
  induction lpns generalizing ftl toWritePgs latest with
  | nil =>
      unfold internalWriteLoop at ran
      rw [← (Prod.mk.inj (Except.ok.inj ran)).2]
      exact media_step_refl ftl
  | cons lpn rest ih =>
      unfold internalWriteLoop at ran
      obtain ⟨⟨written, middle⟩, writing, ran⟩ := bind_ok _ _ _ ran
      refine media_step_trans _ _ _ (drop_if_mapped_step p ftl lpn) ?_
      refine media_step_trans _ middle _ (nand_write_step collect collects p _ middle start lpn loc ioType _ elpn written writing) ?_
      exact ih middle _ _ ran

include collects in
theorem internal_write_step (p : Params) (ftl next : ZmsFtl) (lpns : List Nat) (ioType : IoType) (loc : Loc)
    (start time : Nat) (ran : internalWrite collect p ftl lpns ioType loc start = .ok (time, next)) : MediaStep ftl next := by
  unfold internalWrite at ran
  have quiet := nand_read_quiet p ftl lpns ioType start
  generalize nandRead p ftl lpns ioType start = done at ran quiet
  obtain ⟨writeStart, middle⟩ := done
  exact media_step_trans _ _ _ (quiet_media_step _ _ quiet)
    (internal_write_loop_step collect collects p ioType loc writeStart _ lpns middle next _ _ time ran)

theorem no_collect_step (ftl : ZmsFtl) (loc : Loc) (next : ZmsFtl) (ran : noCollect ftl loc = .ok next) : MediaStep ftl next :=
  nomatch ran

theorem select_victim_line_step (p : Params) (ftl next : ZmsFtl) (force : Bool) (loc : Loc) (victim : LineRef)
    (selected : selectVictimLine p ftl force loc = some (victim, next)) : MediaStep ftl next := by
  unfold selectVictimLine at selected
  split at selected
  · cases selected
  · split at selected
    · cases selected
    · rw [← (Prod.mk.inj (Option.some.inj selected)).2]
      exact ⟨rfl, id, id⟩

theorem reset_wp_step (ftl : ZmsFtl) (ref : LineRef) : MediaStep ftl (resetWp ftl ref) := by
  unfold resetWp
  split
  · exact ⟨rfl, id, id⟩
  · exact media_step_refl ftl

theorem mark_line_free_step (p : Params) (ftl : ZmsFtl) (ref : LineRef) (ioType : IoType) :
    MediaStep ftl (markLineFree p ftl ref ioType) := by
  unfold markLineFree
  dsimp only
  generalize clearLine _ ref = cleared
  have placed : MediaStep ftl (if !isActiveLine ftl ref then { ftl with lm := addFree cleared (getLineLocation p ref) ref }
      else resetWp { ftl with lm := cleared } ref) := by
    split
    · exact ⟨rfl, id, id⟩
    · have step := reset_wp_step { ftl with lm := cleared } ref
      exact ⟨step.host, step.deviceSticky, step.pslcSticky⟩
  generalize (if !isActiveLine ftl ref then _ else _ : ZmsFtl) = moved at placed ⊢
  split
  · exact ⟨placed.host, placed.deviceSticky, placed.pslcSticky⟩
  · exact ⟨placed.host, placed.deviceSticky, placed.pslcSticky⟩

theorem erase_block_step (p : Params) (ioType : IoType) (ftl : ZmsFtl) (block : Block) :
    MediaStep ftl (eraseBlock p ioType ftl block) := by
  unfold eraseBlock
  dsimp only
  split
  · exact ⟨rfl, id, id⟩
  · exact ⟨rfl, id, id⟩

theorem erase_blocks_step (p : Params) (ioType : IoType) (blocks : List Block) (ftl : ZmsFtl) :
    MediaStep ftl (blocks.foldl (eraseBlock p ioType) ftl) := by
  induction blocks generalizing ftl with
  | nil => exact media_step_refl ftl
  | cons block rest ih => exact media_step_trans _ _ _ (erase_block_step p ioType ftl block) (ih _)

theorem erase_line_step (p : Params) (ftl : ZmsFtl) (ref : LineRef) (ioType : IoType) :
    MediaStep ftl (eraseLine p ftl ref ioType) :=
  media_step_trans _ _ _ (erase_blocks_step p ioType _ ftl) (mark_line_free_step p _ ref ioType)

theorem erase_linked_lines_step (p : Params) (fuel : Nat) (ftl next : ZmsFtl) (target : Option LineRef)
    (ran : eraseLinkedLines p fuel ftl target = .ok next) : MediaStep ftl next := by
  induction fuel generalizing ftl target with
  | zero =>
      cases target with
      | none =>
          rw [← Except.ok.inj ran]
          exact media_step_refl ftl
      | some target => exact nomatch ran
  | succ fuel ih =>
      cases target with
      | none =>
          rw [← Except.ok.inj ran]
          exact media_step_refl ftl
      | some target =>
          unfold eraseLinkedLines at ran
          refine media_step_trans _ _ _ ?_ (ih _ _ ran)
          split
          · exact erase_line_step p ftl target .userIo
          · exact media_step_refl ftl

theorem gc_flush_step (p : Params) (ftl : ZmsFtl) (agg : List Nat) (loc : Loc) (scan : GcScan)
    (ran : gcFlush p ftl agg loc = .ok scan) : MediaStep ftl scan.ftl := by
  unfold gcFlush at ran
  split at ran
  · obtain ⟨⟨time, middle⟩, writing, rest⟩ := bind_ok _ _ _ ran
    rw [← pure_ok _ _ rest]
    exact internal_write_step noCollect no_collect_step p ftl middle agg .gcIo loc 0 time writing
  · rw [← Except.ok.inj ran]
    exact media_step_refl ftl

theorem gc_visit_step (p : Params) (loc : Loc) (scan next : GcScan) (page : Page) (ran : gcVisit p loc scan page = .ok next) :
    MediaStep scan.ftl next.ftl := by
  unfold gcVisit at ran
  split at ran
  · obtain ⟨middle, flushed, rest⟩ := bind_ok _ _ _ ran
    rw [← pure_ok _ _ rest]
    have step := gc_flush_step p scan.ftl _ loc middle flushed
    exact ⟨step.host, step.deviceSticky, step.pslcSticky⟩
  · rw [← Except.ok.inj ran]
    exact media_step_refl scan.ftl

theorem gc_scan_step (p : Params) (loc : Loc) (fuel : Nat) (scan next : GcScan) (page : Option Page)
    (ran : gcScan p loc fuel scan page = .ok next) : MediaStep scan.ftl next.ftl := by
  induction fuel generalizing scan page with
  | zero =>
      cases page with
      | none =>
          rw [← Except.ok.inj ran]
          exact media_step_refl scan.ftl
      | some page => exact nomatch ran
  | succ fuel ih =>
      cases page with
      | none =>
          rw [← Except.ok.inj ran]
          exact media_step_refl scan.ftl
      | some page =>
          unfold gcScan at ran
          obtain ⟨middle, visited, rest⟩ := bind_ok _ _ _ ran
          exact media_step_trans _ _ _ (gc_visit_step p loc scan middle page visited) (ih middle _ rest)

theorem park_gc_lpns_step (p : Params) (lpns : List Nat) (ftl : ZmsFtl) : MediaStep ftl (lpns.foldl (parkGcLpn p) ftl) := by
  induction lpns generalizing ftl with
  | nil => exact media_step_refl ftl
  | cons lpn rest ih =>
      have parked := drop_if_mapped_step p { ftl with gcAggLpns := ftl.gcAggLpns ++ [lpn] } lpn
      exact media_step_trans _ _ _ ⟨parked.host, parked.deviceSticky, parked.pslcSticky⟩ (ih _)

theorem gc_rest_step (p : Params) (loc : Loc) (scan : GcScan) (next : ZmsFtl) (ran : gcRest p loc scan = .ok next) :
    MediaStep scan.ftl next := by
  unfold gcRest at ran
  split at ran
  · rw [← Except.ok.inj ran]
    exact media_step_refl scan.ftl
  · split at ran
    · rw [← Except.ok.inj ran]
      exact park_gc_lpns_step p scan.agg scan.ftl
    · obtain ⟨⟨time, middle⟩, writing, rest⟩ := bind_ok _ _ _ ran
      rw [← pure_ok _ _ rest]
      exact internal_write_step noCollect no_collect_step p scan.ftl middle scan.agg .gcIo .pslc 0 time writing

theorem submit_internal_write_step (p : Params) (ftl next : ZmsFtl) (ref : LineRef)
    (ran : submitInternalWrite p ftl ref = .ok next) : MediaStep ftl next := by
  unfold submitInternalWrite at ran
  obtain ⟨scan, scanned, rest⟩ := bind_ok _ _ _ ran
  have start : MediaStep ftl (gcStart ftl (getLineLocation p ref)).ftl := by
    unfold gcStart
    split
    · exact ⟨rfl, id, id⟩
    · exact media_step_refl ftl
  exact media_step_trans _ _ _ start (media_step_trans _ _ _ (gc_scan_step p _ _ _ scan _ scanned) (gc_rest_step p _ scan next rest))

theorem do_gc_step (p : Params) (ftl next : ZmsFtl) (force : Bool) (loc : Loc) (ran : doGc p ftl force loc = .ok next) :
    MediaStep ftl next := by
  unfold doGc at ran
  split at ran
  · rw [← Except.ok.inj ran]
    exact media_step_refl ftl
  · rename_i victim selected chosen
    obtain ⟨middle, moved, rest⟩ := bind_ok _ _ _ ran
    rw [← pure_ok _ _ rest]
    have first := select_victim_line_step p ftl selected force loc victim chosen
    have second := submit_internal_write_step p _ middle victim moved
    have third := erase_line_step p middle victim .gcIo
    exact media_step_trans _ _ _ first
      ⟨third.host.trans second.host, fun full => third.deviceSticky (second.deviceSticky full),
        fun full => third.pslcSticky (second.pslcSticky full)⟩

theorem foreground_gc_step (p : Params) (ftl : ZmsFtl) (loc : Loc) (next : ZmsFtl) (ran : foregroundGc p ftl loc = .ok next) :
    MediaStep ftl next := by
  unfold foregroundGc at ran
  split at ran
  · dsimp only at ran
    split at ran
    · rw [← Except.ok.inj ran]
      exact ⟨rfl, id, id⟩
    · have step := do_gc_step p _ next true loc ran
      exact ⟨step.host, step.deviceSticky, step.pslcSticky⟩
  · rw [← Except.ok.inj ran]
    exact ⟨rfl, id, id⟩

end Collection

section Flushing

theorem count_inplace_step (p : Params) (ftl : ZmsFtl) (lpn : Nat) : Quiet ftl (countInplace p ftl lpn) := by
  unfold countInplace
  split
  · exact ⟨rfl, rfl⟩
  · exact quiet_refl ftl

theorem flush_pages_step (p : Params) (loc : Loc) (start elpn zid : Nat) (lpns : List Nat) (state next : FlushState)
    (ran : flushPages p loc start elpn zid lpns state = .ok next) : MediaStep state.ftl next.ftl := by
  induction lpns generalizing state with
  | nil =>
      rw [← Except.ok.inj ran]
      exact media_step_refl state.ftl
  | cons lpn rest ih =>
      unfold flushPages at ran
      dsimp only at ran
      obtain ⟨⟨time, written⟩, writing, ran⟩ := bind_ok _ _ _ ran
      have counted := quiet_media_step _ _ (count_inplace_step p state.ftl lpn)
      have wrote := nand_write_step (foregroundGc p) (foreground_gc_step p) p _ written start lpn loc .userIo _ elpn time writing
      refine media_step_trans _ written _ (media_step_trans _ _ _ ?_ wrote) (ih _ ran)
      split
      · exact ⟨counted.host, counted.deviceSticky, counted.pslcSticky⟩
      · exact counted

theorem flush_round_step (p : Params) (start elpn zid : Nat) (lpns rest : List Nat) (state next : FlushState)
    (ran : flushRound p start elpn zid lpns state = .ok (rest, next)) : MediaStep state.ftl next.ftl := by
  unfold flushRound at ran
  dsimp only at ran
  split at ran
  · obtain ⟨⟨time, written⟩, writing, ran⟩ := bind_ok _ _ _ ran
    rw [← (Prod.mk.inj (pure_ok _ _ ran)).2]
    have step := internal_write_step (foregroundGc p) (foreground_gc_step p) p state.ftl written _ .userIo .normal start time writing
    exact ⟨step.host, step.deviceSticky, step.pslcSticky⟩
  · obtain ⟨flushed, flushing, ran⟩ := bind_ok _ _ _ ran
    rw [← (Prod.mk.inj (pure_ok _ _ ran)).2]
    have step := flush_pages_step p _ start elpn zid _ state flushed flushing
    exact ⟨step.host, step.deviceSticky, step.pslcSticky⟩

theorem flush_rounds_step (p : Params) (start elpn zid fuel : Nat) (lpns : List Nat) (state next : FlushState)
    (ran : flushRounds p start elpn zid fuel lpns state = .ok next) : MediaStep state.ftl next.ftl := by
  induction fuel generalizing lpns state with
  | zero =>
      cases lpns with
      | nil =>
          rw [← Except.ok.inj ran]
          exact media_step_refl state.ftl
      | cons lpn rest => exact nomatch ran
  | succ fuel ih =>
      cases lpns with
      | nil =>
          rw [← Except.ok.inj ran]
          exact media_step_refl state.ftl
      | cons lpn lpns =>
          unfold flushRounds at ran
          obtain ⟨⟨rest, middle⟩, rounded, ran⟩ := bind_ok _ _ _ ran
          refine media_step_trans _ middle.ftl _ (flush_round_step p start elpn zid _ rest state middle rounded) ?_
          dsimp only at ran
          split at ran
          · rw [← pure_ok _ _ ran]
            exact media_step_refl middle.ftl
          · exact ih rest middle ran

end Flushing

section Resetting

theorem reset_page_step (p : Params) (scan next : ResetScan) (lpn : Nat) (page : Page)
    (ran : resetPage p scan lpn page = .ok next) : MediaStep scan.ftl next.ftl := by
  unfold resetPage at ran
  dsimp only at ran
  refine media_step_trans _ _ _ (drop_mapping_step p scan.ftl lpn page) ?_
  split at ran
  · obtain ⟨erased, erasing, rest⟩ := bind_ok _ _ _ ran
    rw [← pure_ok _ _ rest]
    exact erase_linked_lines_step p _ _ erased _ erasing
  · rw [← Except.ok.inj ran]
    exact media_step_refl _

theorem reset_pages_step (p : Params) (lpns : List Nat) (scan next : ResetScan) (ran : resetPages p lpns scan = .ok next) :
    MediaStep scan.ftl next.ftl := by
  induction lpns generalizing scan with
  | nil =>
      rw [← Except.ok.inj ran]
      exact media_step_refl scan.ftl
  | cons lpn rest ih =>
      unfold resetPages at ran
      split at ran
      · rename_i page map _
        obtain ⟨middle, dropped, ran⟩ := bind_ok _ _ _ ran
        exact media_step_trans _ _ _ (reset_page_step p scan middle lpn page dropped) (ih middle ran)
      · rw [← Except.ok.inj ran]
        exact media_step_refl scan.ftl

theorem erase_rest_step (p : Params) (scan : ResetScan) (next : ZmsFtl) (ran : eraseRest p scan = .ok next) :
    MediaStep scan.ftl next := by
  unfold eraseRest at ran
  split at ran
  · split at ran
    · exact erase_linked_lines_step p _ _ next _ ran
    · rw [← Except.ok.inj ran]
      exact media_step_refl scan.ftl
  · rw [← Except.ok.inj ran]
    exact media_step_refl scan.ftl

end Resetting

end ConZone
