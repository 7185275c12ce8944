import ConZone.WriteRun
import ConZone.Device

set_option autoImplicit false

namespace ConZone

-- Zone descriptors and resource counters. Only the write check and the
-- management actions change them.
structure SameTable (before after : ZmsFtl) : Prop where
  descs : after.zoneDescs = before.zoneDescs
  infos : after.resInfos = before.resInfos

theorem same_table_refl (ftl : ZmsFtl) : SameTable ftl ftl := ⟨rfl, rfl⟩

theorem same_table_trans (first second third : ZmsFtl) (left : SameTable first second) (right : SameTable second third) :
    SameTable first third :=
  ⟨right.descs.trans left.descs, right.infos.trans left.infos⟩

structure SameLocks (before after : ZmsFtl) : Prop where
  locks : ∀ index, (after.writeBuffer index).busy = (before.writeBuffer index).busy
  scheduled : after.scheduled = before.scheduled

theorem same_locks_trans (first second third : ZmsFtl) (left : SameLocks first second) (right : SameLocks second third) :
    SameLocks first third :=
  ⟨fun index => (right.locks index).trans (left.locks index), right.scheduled.trans left.scheduled⟩

structure KeepsLocks (before after : ZmsFtl) : Prop extends SameTable before after, SameLocks before after

theorem keeps_locks_refl (ftl : ZmsFtl) : KeepsLocks ftl ftl := ⟨same_table_refl ftl, fun _ => rfl, rfl⟩

theorem keeps_locks_trans (first second third : ZmsFtl) (left : KeepsLocks first second) (right : KeepsLocks second third) :
    KeepsLocks first third :=
  ⟨same_table_trans _ _ _ left.toSameTable right.toSameTable, same_locks_trans _ _ _ left.toSameLocks right.toSameLocks⟩

theorem put_buffer_keeps_locks (ftl : ZmsFtl) (index : Nat) (buffer : Buffer) (lock : buffer.busy = (ftl.writeBuffer index).busy) :
    KeepsLocks ftl (putBuffer ftl index buffer) := by
  refine ⟨⟨rfl, rfl⟩, fun other => ?_, rfl⟩
  by_cases same : other = index
  · simp [putBuffer, same, lock]
  · simp [putBuffer, Function.update_of_ne same]

theorem media_step_table (before after : ZmsFtl) (step : MediaStep before after) : KeepsLocks before after :=
  ⟨⟨congrArg HostSide.zoneDescs step.host, congrArg HostSide.resInfos step.host⟩,
    fun index => congrArg (fun host => (host.writeBuffer index).busy) step.host, congrArg HostSide.scheduled step.host⟩

theorem quiet_table (before after : ZmsFtl) (quiet : Quiet before after) : KeepsLocks before after :=
  media_step_table before after (quiet_media_step before after quiet)

theorem zms_wb_get_table (p : Params) (ftl : ZmsFtl) (slpn : Nat) : KeepsLocks ftl (zmsWbGet p ftl slpn).2 := by
  unfold zmsWbGet
  dsimp only
  split
  · exact keeps_locks_refl ftl
  · split
    · exact put_buffer_keeps_locks ftl _ _ rfl
    · exact keeps_locks_refl ftl

theorem note_request_table (ftl : ZmsFtl) (slba nrLba start : Nat) : KeepsLocks ftl (noteRequest ftl slba nrLba start) := by
  unfold noteRequest
  split
  · exact ⟨⟨rfl, rfl⟩, fun _ => rfl, rfl⟩
  · exact keeps_locks_refl ftl

theorem note_partial_table (ftl : ZmsFtl) (cmd : RwCommand) : KeepsLocks ftl (notePartial ftl cmd) := by
  unfold notePartial
  split
  · exact ⟨⟨rfl, rfl⟩, fun _ => rfl, rfl⟩
  · exact keeps_locks_refl ftl

theorem started_table (p : Params) (ftl : ZmsFtl) (req : Request) (cmd : RwCommand) : KeepsLocks ftl (started p ftl req cmd) := by
  have noted := note_partial_table (arrived ftl req) (placeAppend p ftl cmd)
  have arrives : KeepsLocks ftl (arrived ftl req) := ⟨⟨rfl, rfl⟩, fun _ => rfl, rfl⟩
  exact keeps_locks_trans _ _ _ (keeps_locks_trans _ _ _ arrives noted) (note_request_table _ _ _ _)

theorem buffer_flush_table (p : Params) (ftl next : ZmsFtl) (index start latest : Nat)
    (ran : bufferFlush p ftl index start = .ok (latest, next)) : KeepsLocks ftl next := by
  unfold bufferFlush at ran
  obtain ⟨state, flushed, rest⟩ := bind_ok _ _ _ ran
  have table := media_step_table _ _ (flush_rounds_step p start _ _ _ _ _ state flushed)
  rw [← (Prod.mk.inj (pure_ok _ _ rest)).2]
  have counted : KeepsLocks state.ftl (countHostWrite p state.ftl (ftl.writeBuffer index)) := ⟨⟨rfl, rfl⟩, fun _ => rfl, rfl⟩
  exact keeps_locks_trans _ _ _ table (keeps_locks_trans _ _ _ counted (put_buffer_keeps_locks _ index _ rfl))

theorem write_step_table (p : Params) (index zid lpn pgs : Nat) (progress next : WriteProgress)
    (ran : writeStep p index zid lpn pgs progress = .ok next) : KeepsLocks progress.ftl next.ftl := by
  unfold writeStep at ran
  have filled : ∀ timing time, KeepsLocks progress.ftl (fillBuffer { progress.ftl with timing := timing } index zid lpn pgs time) :=
    fun timing time => keeps_locks_trans _ { progress.ftl with timing := timing } _ ⟨⟨rfl, rfl⟩, fun _ => rfl, rfl⟩
      (put_buffer_keeps_locks _ index _ rfl)
  dsimp only at ran
  split at ran
  · obtain ⟨⟨completed, flushed⟩, flushing, rest⟩ := bind_ok _ _ _ ran
    rw [← pure_ok _ _ rest]
    exact keeps_locks_trans _ _ _ (filled _ _) (buffer_flush_table p _ flushed index _ completed flushing)
  · rw [← pure_ok _ _ ran]
    exact filled _ _

theorem write_loop_table (p : Params) (index zid elpn fuel lpn : Nat) (progress next : WriteProgress)
    (ran : writeLoop p index zid elpn fuel lpn progress = .ok next) : KeepsLocks progress.ftl next.ftl := by
  induction fuel generalizing lpn progress with
  | zero =>
      unfold writeLoop at ran
      split at ran
      · rw [← Except.ok.inj ran]
        exact keeps_locks_refl progress.ftl
      · cases ran
  | succ fuel ih =>
      unfold writeLoop at ran
      dsimp only at ran
      split at ran
      · rw [← Except.ok.inj ran]
        exact keeps_locks_refl progress.ftl
      · split at ran
        · cases ran
        · obtain ⟨middle, stepped, rest⟩ := bind_ok _ _ _ ran
          refine keeps_locks_trans _ middle.ftl _ (write_step_table p index zid lpn _ progress middle stepped) ?_
          split at rest
          · rw [← pure_ok _ _ rest]
            exact keeps_locks_refl middle.ftl
          · exact ih _ middle rest

theorem finish_write_table (cmd : RwCommand) (progress : WriteProgress) (buffer : Option Nat) (status : NvmeStatus) :
    SameTable progress.ftl (finishWrite cmd progress buffer status).ftl := by
  unfold finishWrite
  cases buffer with
  | none => exact ⟨rfl, rfl⟩
  | some index => exact ⟨rfl, rfl⟩

theorem write_run_table (p : Params) (ftl : ZmsFtl) (req : Request) (cmd : RwCommand) (outcome : WriteOutcome)
    (run : WriteRun p ftl req cmd outcome) :
    SameTable ftl outcome.ftl ∨
      ∃ before checked status, SameTable ftl before ∧ lbaToZone p (placeAppend p ftl cmd).slba < p.zpp.nrZones ∧
        znsWriteCheck p before (placeAppend p ftl cmd).slba (nrLbasFromRwCmd cmd) = (status, checked) ∧
        SameTable checked outcome.ftl := by
  have arrives := fun got result (found : zmsWbGet p (started p ftl req cmd) (firstLpn (placeAppend p ftl cmd)) = (result, got)) =>
    have table := zms_wb_get_table p (started p ftl req cmd) (firstLpn (placeAppend p ftl cmd))
    same_table_trans ftl _ got (started_table p ftl req cmd).toSameTable (by rw [found] at table; exact table.toSameTable)
  cases run with
  | refusedFull full => exact .inl ⟨rfl, rfl⟩
  | dropped clear drop => exact .inl ⟨rfl, rfl⟩
  | waits clear kept got found => exact .inl (arrives got none found)
  | busy clear kept got index found locked after same =>
      have table := arrives got (some index) found
      rcases same with same | same
      · rw [same]
        exact .inl table
      · rw [same]
        exact .inl ⟨table.descs, table.infos⟩
  | switches clear kept got index found other unlocked latest flushed flushing =>
      have table := arrives got (some index) found
      have flush := buffer_flush_table p _ flushed index _ latest flushing
      exact .inl ⟨flush.descs.trans table.descs, flush.infos.trans table.infos⟩
  | rejected clear kept got index found own unlocked inside status checked refused check =>
      have table := arrives got (some index) found
      exact .inr ⟨lockBuffer got req index, checked, status, ⟨table.descs, table.infos⟩, inside, check,
        finish_write_table _ ⟨checked, _, _⟩ _ status⟩
  | written clear kept got index found own unlocked inside checked check progress filled =>
      have table := arrives got (some index) found
      refine .inr ⟨lockBuffer got req index, checked, .success, ⟨table.descs, table.infos⟩, inside, check, ?_⟩
      have loop := write_loop_table p index _ _ _ _ _ progress filled
      have finish := finish_write_table (placeAppend p ftl cmd) progress (some index)
        (if anyFull progress.ftl then .capExceeded else .success)
      exact same_table_trans _ _ _ loop.toSameTable finish

theorem map_read_quiet (p : Params) (lpn : Nat) (grans : List MapType) (state : Nat × ZmsFtl) :
    Quiet state.2 (mapRead p lpn grans state).2 := by
  induction grans generalizing state with
  | nil => exact quiet_refl state.2
  | cons gran rest ih =>
      obtain ⟨latest, ftl⟩ := state
      unfold mapRead
      dsimp only
      have fetched := nand_read_quiet p ftl [getGranularityStartLpn p lpn gran] .mapReadIo latest
      split
      · split
        · exact ⟨fetched.host, fetched.media⟩
        · exact quiet_trans _ _ _ fetched (ih _)
      · exact quiet_trans _ _ _ fetched (ih _)

theorem lookup_l2p_quiet (p : Params) (state : ReadState) (lpn : Nat) : Quiet state.ftl (lookupL2p p state lpn).ftl := by
  unfold lookupL2p
  split
  · exact ⟨rfl, rfl⟩
  · have fetched := nand_read_quiet p state.ftl state.toRead .userIo state.readBegin
    exact quiet_trans _ _ _ fetched (map_read_quiet p lpn mapType (state.readBegin, _))

def countHostRead (ftl : ZmsFtl) : ZmsFtl := { ftl with stats := { ftl.stats with hostRPgs := ftl.stats.hostRPgs + 1 } }

theorem read_page_looked (p : Params) (slpn : Nat) (state : ReadState) (lpn : Nat) :
    Quiet (zmsWbGet p (countHostRead state.ftl) slpn).2 (readPage p slpn state lpn).ftl := by
  unfold readPage countHostRead
  dsimp only
  generalize zmsWbGet p _ slpn = got
  obtain ⟨buffer, middle⟩ := got
  dsimp only
  split
  · exact ⟨rfl, rfl⟩
  · have looked := lookup_l2p_quiet p
      { state with ftl := middle, wbReadPgs := state.wbReadPgs + middle.gcAggLpns.count lpn } lpn
    split
    · exact looked
    · exact ⟨looked.host, looked.media⟩

theorem read_page_effect (p : Params) (slpn : Nat) (state : ReadState) (lpn : Nat) :
    ∃ counted, Quiet state.ftl counted ∧ Quiet (zmsWbGet p counted slpn).2 (readPage p slpn state lpn).ftl :=
  ⟨countHostRead state.ftl, ⟨rfl, rfl⟩, read_page_looked p slpn state lpn⟩

theorem read_page_table (p : Params) (slpn : Nat) (state : ReadState) (lpn : Nat) :
    KeepsLocks state.ftl (readPage p slpn state lpn).ftl := by
  obtain ⟨counted, before, after⟩ := read_page_effect p slpn state lpn
  exact keeps_locks_trans _ _ _ (quiet_table _ _ before)
    (keeps_locks_trans _ _ _ (zms_wb_get_table p counted slpn) (quiet_table _ _ after))

theorem read_pages_table (p : Params) (slpn : Nat) (lpns : List Nat) (state : ReadState) :
    KeepsLocks state.ftl (lpns.foldl (readPage p slpn) state).ftl := by
  induction lpns generalizing state with
  | nil => exact keeps_locks_refl state.ftl
  | cons lpn rest ih => exact keeps_locks_trans _ _ _ (read_page_table p slpn state lpn) (ih (readPage p slpn state lpn))

theorem read_end_quiet (p : Params) (ftl : ZmsFtl) (req : Request) (cmd : RwCommand) :
    Quiet ((lpnRange (lbaToLpn cmd.slba) (lbaToLpn (u64 (cmd.slba + nrLbasFromRwCmd cmd - 1)))).foldl
        (readPage p (lbaToLpn cmd.slba))
        ⟨{ ftl with currentTime := req.nsecsStart }, [],
          req.nsecsStart + (if nrLbasFromRwCmd cmd * secsz ≤ 4096 then fw4kbRdLat else fwRdLat),
          req.nsecsStart + (if nrLbasFromRwCmd cmd * secsz ≤ 4096 then fw4kbRdLat else fwRdLat), 0⟩).ftl
      (handleReadRequest p ftl req cmd).2 := by
  unfold handleReadRequest
  dsimp only
  generalize List.foldl (readPage p (lbaToLpn cmd.slba)) _ _ = state
  have fetched := nand_read_quiet p state.ftl state.toRead .userIo state.readBegin
  exact ⟨fetched.host, fetched.media⟩

theorem handle_read_request_table (p : Params) (ftl : ZmsFtl) (req : Request) (cmd : RwCommand) :
    KeepsLocks ftl (handleReadRequest p ftl req cmd).2 := by
  have pages := read_pages_table p (lbaToLpn cmd.slba)
    (lpnRange (lbaToLpn cmd.slba) (lbaToLpn (u64 (cmd.slba + nrLbasFromRwCmd cmd - 1))))
    ⟨{ ftl with currentTime := req.nsecsStart }, [],
      req.nsecsStart + (if nrLbasFromRwCmd cmd * secsz ≤ 4096 then fw4kbRdLat else fwRdLat),
      req.nsecsStart + (if nrLbasFromRwCmd cmd * secsz ≤ 4096 then fw4kbRdLat else fwRdLat), 0⟩
  have arrives : KeepsLocks ftl { ftl with currentTime := req.nsecsStart } := ⟨⟨rfl, rfl⟩, fun _ => rfl, rfl⟩
  exact keeps_locks_trans _ _ _ (keeps_locks_trans _ _ _ arrives pages) (quiet_table _ _ (read_end_quiet p ftl req cmd))

theorem zoned_read_table (p : Params) (ftl next : ZmsFtl) (req : Request) (cmd : RwCommand) (done : Completion)
    (ran : zonedRead p ftl req cmd = .ok (done, next)) : KeepsLocks ftl next := by
  unfold zonedRead at ran
  dsimp only at ran
  have unchanged : ∀ result, (Except.ok (result, ftl) : Exec (Completion × ZmsFtl)) = .ok (done, next) → KeepsLocks ftl next := by
    intro result same
    rw [← (Prod.mk.inj (Except.ok.inj same)).2]
    exact keeps_locks_refl ftl
  split at ran
  · cases ran
  · split at ran
    · exact unchanged _ ran
    · split at ran
      · exact unchanged _ ran
      · split at ran
        · exact unchanged _ ran
        · have table := handle_read_request_table p ftl req cmd
          rwa [Except.ok.inj ran] at table

theorem flush_buffer_table (p : Params) (ftl next : ZmsFtl) (index : Nat) (ran : flushBuffer p ftl index = .ok next) :
    KeepsLocks ftl next := by
  unfold flushBuffer at ran
  split at ran
  · obtain ⟨⟨latest, flushed⟩, flushing, rest⟩ := bind_ok _ _ _ ran
    rw [← pure_ok _ _ rest]
    exact buffer_flush_table p ftl flushed index 0 latest flushing
  · rw [← Except.ok.inj ran]
    exact keeps_locks_refl ftl

theorem flush_buffers_table (p : Params) (req : Request) (indices : List Nat) (ftl next : ZmsFtl)
    (ran : flushBuffers p req indices ftl = .ok next) : KeepsLocks ftl next := by
  induction indices generalizing ftl with
  | nil =>
      rw [← Except.ok.inj ran]
      exact keeps_locks_refl ftl
  | cons index rest ih =>
      unfold flushBuffers at ran
      obtain ⟨middle, flushed, ran⟩ := bind_ok _ _ _ ran
      have owned := put_buffer_keeps_locks ftl index { ftl.writeBuffer index with sqid := req.sqId } rfl
      have table := flush_buffer_table p _ middle index flushed
      exact keeps_locks_trans _ middle _ (keeps_locks_trans _ _ _ owned table) (ih middle ran)

theorem zns_flush_table (p : Params) (ftl next : ZmsFtl) (req : Request) (done : Completion)
    (ran : znsFlush p ftl req = .ok (done, next)) : KeepsLocks ftl next := by
  unfold znsFlush at ran
  obtain ⟨middle, flushed, rest⟩ := bind_ok _ _ _ ran
  rw [← (Prod.mk.inj (pure_ok _ _ rest)).2]
  have table := flush_buffers_table p req _ ftl middle flushed
  exact keeps_locks_trans _ _ _ table ⟨⟨rfl, rfl⟩, fun _ => rfl, rfl⟩

theorem run_release_table (ftl next : ZmsFtl) (entry : Nat) (ran : runRelease ftl entry = some next) : SameTable ftl next := by
  unfold runRelease at ran
  split at ran
  · rw [← Option.some.inj ran]
    exact ⟨rfl, rfl⟩
  · cases ran

theorem drop_buffered_table (p : Params) (scan : ResetScan) (slpn : Nat) (writeBuffer : Option Nat) (ftl : ZmsFtl) :
    KeepsLocks ftl (dropBuffered p scan slpn writeBuffer ftl) := by
  unfold dropBuffered
  cases writeBuffer with
  | none => exact keeps_locks_refl ftl
  | some index =>
      dsimp only
      split
      · exact put_buffer_keeps_locks ftl index _ rfl
      · exact keeps_locks_refl ftl

theorem zone_reset_table (p : Params) (ftl next : ZmsFtl) (zid : Nat) (ran : zoneReset p ftl zid = .ok next) :
    KeepsLocks ftl next := by
  unfold zoneReset at ran
  dsimp only at ran
  have got := zms_wb_get_table p ftl (zoneToSlpn p zid)
  generalize zmsWbGet p ftl (zoneToSlpn p zid) = found at ran got
  obtain ⟨writeBuffer, middle⟩ := found
  obtain ⟨scan, scanned, rest⟩ := bind_ok _ _ _ ran
  obtain ⟨erased, erasing, rest⟩ := bind_ok _ _ _ rest
  have walked := media_step_table _ _ (reset_pages_step p _ _ scan scanned)
  have cleared := media_step_table _ _ (erase_rest_step p scan erased erasing)
  have dropped := drop_buffered_table p scan (zoneToSlpn p zid) writeBuffer erased
  rw [← pure_ok _ _ rest]
  have counted : KeepsLocks (dropBuffered p scan (zoneToSlpn p zid) writeBuffer erased)
      (countReset (putAgg (dropBuffered p scan (zoneToSlpn p zid) writeBuffer erased) zid [])) :=
    ⟨⟨rfl, rfl⟩, fun _ => rfl, rfl⟩
  exact keeps_locks_trans _ _ _ (keeps_locks_trans _ _ _ got walked)
    (keeps_locks_trans _ _ _ cleared (keeps_locks_trans _ _ _ dropped counted))

section Management

def OnlyTable (before after : ZmsFtl) : Prop :=
  ∃ descs infos, after = { before with zoneDescs := descs, resInfos := infos }

theorem only_table_refl (ftl : ZmsFtl) : OnlyTable ftl ftl := ⟨ftl.zoneDescs, ftl.resInfos, rfl⟩

theorem only_table_trans (first second third : ZmsFtl) (left : OnlyTable first second) (right : OnlyTable second third) :
    OnlyTable first third := by
  obtain ⟨_, _, left⟩ := left
  obtain ⟨descs, infos, right⟩ := right
  refine ⟨descs, infos, ?_⟩
  rw [right, left]

theorem only_table_locks (before after : ZmsFtl) (only : OnlyTable before after) : SameLocks before after := by
  obtain ⟨_, _, same⟩ := only
  rw [same]
  exact ⟨fun _ => rfl, rfl⟩

theorem change_zone_state_only (ftl : ZmsFtl) (zid : Nat) (state : ZoneState) : OnlyTable ftl (changeZoneState ftl zid state) :=
  ⟨_, _, rfl⟩

theorem release_only (ftl : ZmsFtl) (type : ResType) : OnlyTable ftl (releaseZoneResource ftl type) := ⟨_, _, rfl⟩

theorem acquire_only (ftl : ZmsFtl) (type : ResType) : OnlyTable ftl (acquireZoneResource ftl type).2 := by
  unfold acquireZoneResource
  split
  · exact ⟨_, _, rfl⟩
  · exact only_table_refl ftl

theorem release_active_only (ftl : ZmsFtl) (zid : Nat) : OnlyTable ftl (releaseActive ftl zid) := by
  unfold releaseActive
  dsimp only
  split
  · exact only_table_trans _ _ _ (release_only ftl .activeZone) (release_only _ .zrwaZone)
  · exact release_only ftl .activeZone

theorem close_only (ftl : ZmsFtl) (zid : Nat) : OnlyTable ftl (zmgmtSendCloseZone ftl zid).2 := by
  unfold zmgmtSendCloseZone
  split
  · exact ⟨_, _, rfl⟩
  · exact ⟨_, _, rfl⟩
  · exact only_table_refl ftl
  · exact only_table_refl ftl

theorem finish_only (ftl : ZmsFtl) (zid : Nat) : OnlyTable ftl (zmgmtSendFinishZone ftl zid).2 := by
  have opened : OnlyTable ftl (changeZoneState (releaseActive (releaseZoneResource ftl .openZone) zid) zid .full) :=
    only_table_trans _ _ _ (only_table_trans _ _ _ (release_only ftl .openZone) (release_active_only _ zid))
      (change_zone_state_only _ zid .full)
  unfold zmgmtSendFinishZone
  split
  · exact opened
  · exact opened
  · exact only_table_trans _ _ _ (release_active_only ftl zid) (change_zone_state_only _ zid .full)
  · exact change_zone_state_only ftl zid .full
  · exact only_table_refl ftl
  · exact only_table_refl ftl

theorem open_explicitly_only (ftl : ZmsFtl) (zid : Nat) : OnlyTable ftl (openExplicitly ftl zid).2 := by
  unfold openExplicitly
  have acquired := acquire_only ftl .openZone
  generalize acquireZoneResource ftl .openZone = result at acquired
  obtain ⟨granted, after⟩ := result
  cases granted with
  | false => exact acquired
  | true => exact only_table_trans _ _ _ acquired (change_zone_state_only after zid .openedExpl)

theorem open_zone_only (ftl : ZmsFtl) (zid : Nat) (zrwa : Bool) : OnlyTable ftl (zmgmtSendOpenZone ftl zid zrwa).2 := by
  unfold zmgmtSendOpenZone
  split
  · split
    · exact only_table_refl ftl
    · split
      · exact only_table_refl ftl
      · split
        · exact only_table_refl ftl
        · dsimp only
          refine only_table_trans _ _ _ (only_table_trans _ _ _ ?_ (acquire_only _ .activeZone)) (open_explicitly_only _ zid)
          split
          · exact only_table_trans _ _ _ (acquire_only ftl .zrwaZone) ⟨_, _, rfl⟩
          · exact only_table_refl ftl
  · exact open_explicitly_only ftl zid
  · exact change_zone_state_only ftl zid .openedExpl
  · exact only_table_refl ftl
  · exact only_table_refl ftl

theorem offline_only (ftl : ZmsFtl) (zid : Nat) : OnlyTable ftl (zmgmtSendOfflineZone ftl zid).2 := by
  unfold zmgmtSendOfflineZone
  split
  · exact change_zone_state_only ftl zid .offline
  · exact only_table_refl ftl
  · exact only_table_refl ftl

theorem open_for_write_only (ftl : ZmsFtl) (zid : Nat) : OnlyTable ftl (openForWrite ftl zid).2 := by
  unfold openForWrite
  have acquired := acquire_only ftl .openZone
  generalize acquireZoneResource ftl .openZone = result at acquired
  obtain ⟨granted, after⟩ := result
  cases granted with
  | false => exact acquired
  | true => exact only_table_trans _ _ _ acquired (change_zone_state_only after zid .openedImpl)

theorem admit_write_only (ftl : ZmsFtl) (zid slba : Nat) : OnlyTable ftl (admitWrite ftl zid slba).2 := by
  unfold admitWrite
  split
  · split
    · exact only_table_refl ftl
    · split
      · exact only_table_refl ftl
      · split
        · exact only_table_refl ftl
        · exact only_table_trans _ _ _ (acquire_only ftl .activeZone) (open_for_write_only _ zid)
  · exact open_for_write_only ftl zid
  · exact only_table_refl ftl
  · exact only_table_refl ftl
  · exact only_table_refl ftl
  · exact only_table_refl ftl
  · exact only_table_refl ftl

theorem increase_write_ptr_only (p : Params) (ftl : ZmsFtl) (zid nrLba : Nat) : OnlyTable ftl (increaseWritePtr p ftl zid nrLba) := by
  unfold increaseWritePtr
  have moved : OnlyTable ftl (putDesc ftl zid { ftl.zoneDescs zid with wp := (ftl.zoneDescs zid).wp + nrLba }) := ⟨_, _, rfl⟩
  dsimp only
  generalize putDesc ftl zid _ = advanced at moved ⊢
  split
  · have released := only_table_trans _ _ _ (release_only advanced .openZone) (release_only _ .activeZone)
    exact only_table_trans _ _ _ moved (only_table_trans _ _ _ released (change_zone_state_only _ zid .full))
  · exact moved

theorem zns_write_check_only (p : Params) (ftl : ZmsFtl) (slba nrLba : Nat) : OnlyTable ftl (znsWriteCheck p ftl slba nrLba).2 := by
  unfold znsWriteCheck
  dsimp only
  split
  · exact only_table_refl ftl
  · split
    · exact only_table_refl ftl
    · split
      · exact only_table_refl ftl
      · have admitted := admit_write_only ftl (lbaToZone p slba) slba
        generalize admitWrite ftl (lbaToZone p slba) slba = result at admitted
        obtain ⟨status, after⟩ := result
        cases status with
        | success => exact only_table_trans _ _ _ admitted (increase_write_ptr_only p after _ nrLba)
        | _ => exact admitted

structure ZoneBooked (ftl booked : ZmsFtl) (zid : Nat) : Prop where
  only : OnlyTable ftl booked
  wp : (booked.zoneDescs zid).wp = (ftl.zoneDescs zid).zslba
  others : ∀ other, other ≠ zid → booked.zoneDescs other = ftl.zoneDescs other

theorem reset_zone_books (p : Params) (ftl next : ZmsFtl) (zid : Nat) (status : NvmeStatus)
    (ran : zmgmtSendResetZone p ftl zid = .ok (status, next)) :
    (status ≠ .success ∧ next = ftl) ∨ status = .success ∧ ∃ booked, ZoneBooked ftl booked zid ∧ zoneReset p booked zid = .ok next := by
  have cleared : ∀ released : ZmsFtl, OnlyTable ftl released → released.zoneDescs = ftl.zoneDescs →
      (do let after ← resetZone p (changeZoneState released zid .empty) zid
          pure (NvmeStatus.success, after) : Exec (NvmeStatus × ZmsFtl)) = .ok (status, next) →
      (status ≠ .success ∧ next = ftl) ∨ status = .success ∧ ∃ booked, ZoneBooked ftl booked zid ∧ zoneReset p booked zid = .ok next := by
    intro released only descs run
    obtain ⟨after, resetting, rest⟩ := bind_ok _ _ _ run
    obtain ⟨done, same⟩ := Prod.mk.inj (pure_ok _ _ rest)
    rw [same] at resetting
    refine .inr ⟨done.symm, _, ⟨?_, ?_, ?_⟩, resetting⟩
    · exact only_table_trans _ _ _ (only_table_trans _ _ _ only (change_zone_state_only released zid .empty)) ⟨_, _, rfl⟩
    · simp [putDesc, changeZoneState, descs]
    · intro other apart
      simp [putDesc, changeZoneState, descs, apart]
  unfold zmgmtSendResetZone at ran
  dsimp only at ran
  have releasedDescs : ∀ before : ZmsFtl, (releaseActive before zid).zoneDescs = before.zoneDescs := by
    intro before
    unfold releaseActive
    dsimp only
    split <;> rfl
  split at ran
  · exact cleared _ (only_table_trans _ _ _ (release_only ftl .openZone) (release_active_only _ zid)) (releasedDescs _) ran
  · exact cleared _ (only_table_trans _ _ _ (release_only ftl .openZone) (release_active_only _ zid)) (releasedDescs _) ran
  · exact cleared _ (release_active_only ftl zid) (releasedDescs _) ran
  · exact cleared ftl (only_table_refl ftl) rfl ran
  · exact cleared ftl (only_table_refl ftl) rfl ran
  · left
    obtain ⟨status', same⟩ := Prod.mk.inj (pure_ok _ _ ran)
    rw [← status', ← same]
    exact ⟨by decide, rfl⟩

theorem reset_zone_runs (p : Params) (ftl next : ZmsFtl) (zid : Nat) (status : NvmeStatus)
    (ran : zmgmtSendResetZone p ftl zid = .ok (status, next)) :
    (status ≠ .success ∧ next = ftl) ∨
      status = .success ∧ ∃ booked, OnlyTable ftl booked ∧ (booked.zoneDescs zid).wp = (ftl.zoneDescs zid).zslba ∧
        zoneReset p booked zid = .ok next := by
  rcases reset_zone_books p ftl next zid status ran with refused | ⟨success, booked, books, cleared⟩
  · exact .inl refused
  · exact .inr ⟨success, booked, books.only, books.wp, cleared⟩

theorem zmgmt_send_runs (p : Params) (ftl next : ZmsFtl) (slba : Nat) (action : ZoneSendAction) (option : Bool)
    (status : NvmeStatus) (ran : zmgmtSend p ftl slba action option = .ok (status, next)) :
    lbaToZone p slba < p.zpp.nrZones ∧
      ((action ≠ .resetZone ∧ OnlyTable ftl next) ∨
        action = .resetZone ∧ zmgmtSendResetZone p ftl (lbaToZone p slba) = .ok (status, next)) := by
  unfold zmgmtSend at ran
  dsimp only at ran
  split at ran
  · cases ran
  · rename_i bound
    refine ⟨Nat.lt_of_not_le bound, ?_⟩
    cases action with
    | closeZone =>
        rw [← (Prod.mk.inj (Except.ok.inj ran)).2]
        exact .inl ⟨by decide, close_only ftl _⟩
    | finishZone =>
        rw [← (Prod.mk.inj (Except.ok.inj ran)).2]
        exact .inl ⟨by decide, finish_only ftl _⟩
    | openZone =>
        rw [← (Prod.mk.inj (Except.ok.inj ran)).2]
        exact .inl ⟨by decide, open_zone_only ftl _ option⟩
    | resetZone => exact .inr ⟨rfl, ran⟩
    | offlineZone =>
        rw [← (Prod.mk.inj (Except.ok.inj ran)).2]
        exact .inl ⟨by decide, offline_only ftl _⟩
    | flushExplZrwa =>
        rw [← (Prod.mk.inj (Except.ok.inj ran)).2]
        exact .inl ⟨by decide, only_table_refl ftl⟩

end Management

end ConZone
