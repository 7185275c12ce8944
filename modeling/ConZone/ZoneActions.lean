import ConZone.ZoneReset
import ConZone.Management
import ConZone.ZoneStore

set_option autoImplicit false

open ZoneStore (without without_none without_one without_both)

namespace ConZone

-- No action but a reset moves a write pointer.
section Pointers

variable (p : Params) (ftl : ZmsFtl) (zid : Nat)

def pointersOf (ftl : ZmsFtl) (zid : Nat) : Nat := (ftl.zoneDescs zid).wp

theorem same_pointers (before after : ZmsFtl) (descs : after.zoneDescs = before.zoneDescs) : pointersOf after = pointersOf before := by
  funext other
  unfold pointersOf
  rw [descs]

theorem put_desc_pointers (desc : ZoneDescriptor) (same : desc.wp = (ftl.zoneDescs zid).wp) :
    pointersOf (putDesc ftl zid desc) = pointersOf ftl := by
  funext other
  unfold pointersOf putDesc
  by_cases here : other = zid
  · simp [here, same]
  · simp [here]

theorem change_zone_state_pointers (state : ZoneState) : pointersOf (changeZoneState ftl zid state) = pointersOf ftl :=
  put_desc_pointers ftl zid _ rfl

theorem close_zone_pointers : pointersOf (zmgmtSendCloseZone ftl zid).2 = pointersOf ftl := by
  unfold zmgmtSendCloseZone
  split
  · exact (same_pointers _ _ (release_descs _ .openZone)).trans (change_zone_state_pointers ftl zid .closed)
  · exact (same_pointers _ _ (release_descs _ .openZone)).trans (change_zone_state_pointers ftl zid .closed)
  · rfl
  · rfl

theorem finish_zone_pointers : pointersOf (zmgmtSendFinishZone ftl zid).2 = pointersOf ftl := by
  have finished : ∀ released : ZmsFtl, released.zoneDescs = ftl.zoneDescs →
      pointersOf (changeZoneState released zid .full) = pointersOf ftl := fun released descs =>
    (change_zone_state_pointers released zid .full).trans (same_pointers _ _ descs)
  unfold zmgmtSendFinishZone
  split
  · exact finished _ ((release_active_descs _ zid).trans (release_descs ftl .openZone))
  · exact finished _ ((release_active_descs _ zid).trans (release_descs ftl .openZone))
  · exact finished _ (release_active_descs ftl zid)
  · exact finished ftl rfl
  · rfl
  · rfl

theorem open_explicitly_pointers : pointersOf (openExplicitly ftl zid).2 = pointersOf ftl := by
  have acquired := same_pointers _ _ (acquire_descs ftl .openZone)
  unfold openExplicitly
  generalize acquireZoneResource ftl .openZone = result at acquired
  obtain ⟨granted, after⟩ := result
  cases granted with
  | false => exact acquired
  | true => exact (change_zone_state_pointers after zid .openedExpl).trans acquired

theorem open_zone_pointers (zrwa : Bool) : pointersOf (zmgmtSendOpenZone ftl zid zrwa).2 = pointersOf ftl := by
  unfold zmgmtSendOpenZone
  split
  · split
    · rfl
    · split
      · rfl
      · split
        · rfl
        · refine (open_explicitly_pointers _ zid).trans ((same_pointers _ _ (acquire_descs _ .activeZone)).trans ?_)
          split
          · refine (put_desc_pointers _ zid _ ?_).trans (same_pointers _ _ (acquire_descs ftl .zrwaZone))
            rfl
          · rfl
  · exact open_explicitly_pointers ftl zid
  · exact change_zone_state_pointers ftl zid .openedExpl
  · rfl
  · rfl

theorem offline_zone_pointers : pointersOf (zmgmtSendOfflineZone ftl zid).2 = pointersOf ftl := by
  unfold zmgmtSendOfflineZone
  split
  · exact change_zone_state_pointers ftl zid .offline
  · rfl
  · rfl

theorem zmgmt_send_pointers (next : ZmsFtl) (slba : Nat) (action : ZoneSendAction) (option : Bool) (status : NvmeStatus)
    (other : action ≠ .resetZone) (ran : zmgmtSend p ftl slba action option = .ok (status, next)) : pointersOf next = pointersOf ftl := by
  unfold zmgmtSend at ran
  dsimp only at ran
  split at ran
  · cases ran
  · cases action with
    | closeZone =>
        rw [← (Prod.mk.inj (Except.ok.inj ran)).2]
        exact close_zone_pointers ftl _
    | finishZone =>
        rw [← (Prod.mk.inj (Except.ok.inj ran)).2]
        exact finish_zone_pointers ftl _
    | openZone =>
        rw [← (Prod.mk.inj (Except.ok.inj ran)).2]
        exact open_zone_pointers ftl _ option
    | resetZone => exact absurd rfl other
    | offlineZone =>
        rw [← (Prod.mk.inj (Except.ok.inj ran)).2]
        exact offline_zone_pointers ftl _
    | flushExplZrwa =>
        rw [← (Prod.mk.inj (Except.ok.inj ran)).2]

end Pointers

section Commands

variable (p : Params) (loc : Loc) (resting : ZmsFtl → Prop) (contract : MediaContract p loc resting) (space : ZonedSpace p)
variable (buffers : 0 < p.zpp.nrWb) (mapped buffered : Nat → Nat)

theorem only_table_aggs (before after : ZmsFtl) (only : OnlyTable before after) : after.zoneAggLpns = before.zoneAggLpns := by
  obtain ⟨descs, infos, same⟩ := only
  rw [same]

theorem only_table_buffers (before after : ZmsFtl) (only : OnlyTable before after) : after.writeBuffer = before.writeBuffer := by
  obtain ⟨descs, infos, same⟩ := only
  rw [same]

include contract in
theorem table_settled (before after : ZmsFtl) (only : OnlyTable before after) (settled : Settled p resting before mapped buffered) :
    resting after ∧ Spread p after mapped buffered := by
  have media := only_table_media before after only
  refine ⟨contract.media before after media settled.rests, ?_⟩
  exact spread_kept p mapped buffered before after (media_maps before after media)
    (fun index => by rw [only_table_buffers before after only]) (only_table_aggs before after only) settled.spread

include contract space buffers in
theorem zmgmt_send_settled (ftl next : ZmsFtl) (slba : Nat) (action : ZoneSendAction) (option : Bool) (status : NvmeStatus)
    (accounted : Accounted p ftl) (online : Online p ftl)
    (clearable : action = .resetZone → lbaToZone p slba < p.zpp.nrZones → Clearable p ftl (lbaToZone p slba))
    (settled : Settled p resting ftl mapped buffered) (ran : zmgmtSend p ftl slba action option = .ok (status, next)) :
    Settled p resting next (without (fun zid => action == .resetZone && zid == lbaToZone p slba) mapped)
      (without (fun zid => action == .resetZone && zid == lbaToZone p slba) buffered) := by
  obtain ⟨inside, ⟨other, only⟩ | ⟨reset, resetting⟩⟩ := zmgmt_send_runs p ftl next slba action option status ran
  · rw [beq_eq_false_iff_ne.mpr other]
    simp only [Bool.false_and, without_none]
    obtain ⟨rests, spread⟩ := table_settled p loc resting contract mapped buffered ftl next only settled
    refine ⟨rests, spread, fun zid zoneInside => ?_⟩
    exact (congrFun (zmgmt_send_pointers p ftl next slba action option status other ran) zid).trans (settled.pointers zid zoneInside)
  · have clears := clearable reset inside
    rw [beq_iff_eq.mpr reset]
    generalize lbaToZone p slba = zid at *
    simp only [Bool.true_and, without_one]
    have accepted := (reset_zone_accepts p ftl zid option next status resetting).mpr (by
      have up := online zid inside
      cases state : (ftl.zoneDescs zid).state <;> simp [state, isOnline, accepts] at up ⊢)
    rcases reset_zone_books p ftl next zid status resetting with ⟨refused, _⟩ | ⟨_, booked, books, clearing⟩
    · exact absurd accepted refused
    · obtain ⟨rests, spread⟩ := table_settled p loc resting contract mapped buffered ftl booked books.only settled
      have same := (clearable_mapped p mapped buffered booked spread zid inside).mpr
        ((clearable_mapped p mapped buffered ftl settled.spread zid inside).mp clears)
      obtain ⟨after, done⟩ := zone_reset_spread p loc resting contract space buffers mapped buffered booked next zid inside same rests spread
        clearing
      refine ⟨after, done, fun other otherInside => ?_⟩
      rw [(zone_reset_table p booked next zid clearing).descs]
      by_cases here : other = zid
      · rw [here, books.wp, (accounted.sound zid inside).start, Function.update_self, Function.update_self]
        rfl
      · rw [books.others other here, Function.update_of_ne here, Function.update_of_ne here]
        exact settled.pointers other otherInside

def resetZones (p : Params) (cmd : ZoneMgmtSend) (zid : Nat) : Bool :=
  cmd.zsa == .resetZone && if cmd.selectAll then decide (zid < p.zpp.nrZones) else zid == lbaToZone p cmd.slba

include contract space buffers in
theorem zmgmt_send_all_settled (cmd : ZoneMgmtSend) (zids : List Nat) (inside : ∀ zid ∈ zids, zid < p.zpp.nrZones) (ftl next : ZmsFtl)
    (accounted : Accounted p ftl) (online : Online p ftl)
    (clearable : cmd.zsa = .resetZone → ∀ zid ∈ zids, Clearable p ftl zid) (settled : Settled p resting ftl mapped buffered)
    (ran : zmgmtSendAll p cmd zids ftl = .ok next) :
    Online p next ∧ Settled p resting next (without (fun zid => cmd.zsa == .resetZone && decide (zid ∈ zids)) mapped)
      (without (fun zid => cmd.zsa == .resetZone && decide (zid ∈ zids)) buffered) := by
  induction zids generalizing ftl mapped buffered with
  | nil =>
      rw [← Except.ok.inj ran]
      simp only [List.not_mem_nil, decide_false, Bool.and_false, without_none]
      exact ⟨online, settled⟩
  | cons zid rest ih =>
      unfold zmgmtSendAll at ran
      obtain ⟨⟨status, middle⟩, sent, ran⟩ := bind_ok _ _ _ ran
      dsimp only at ran
      have zoneInside := inside zid List.mem_cons_self
      have within : ∀ other ∈ rest, other < p.zpp.nrZones := fun other member => inside other (List.mem_cons_of_mem zid member)
      have zone : lbaToZone p (zoneToSlba p zid) = zid :=
        lba_to_zone_of p zid _ zoneInside (Nat.le_refl _) (Nat.lt_add_of_pos_right (zone_lbas_positive p))
      have first := zmgmt_send_settled p loc resting contract space buffers mapped buffered ftl middle _ _ _ status accounted online
        (fun reset _ => by rw [zone]; exact clearable reset zid List.mem_cons_self) settled sent
      rw [zone] at first
      have clears : cmd.zsa = .resetZone → ∀ other ∈ rest, Clearable p middle other := by
        intro reset other member
        rw [clearable_mapped p _ _ middle first.spread other (within other member)]
        have before := (clearable_mapped p mapped buffered ftl settled.spread other (within other member)).mp
          (clearable reset other (List.mem_cons_of_mem zid member))
        intro tlc
        unfold without
        split
        · exact .inr rfl
        · exact before tlc
      obtain ⟨up, later⟩ := ih _ _ within middle (zmgmt_send_accounted p ftl middle _ _ _ status accounted sent)
        (zmgmt_send_online p ftl online _ _ _ status middle sent) clears first ran
      rw [without_both, without_both] at later
      have same : (fun other => (cmd.zsa == ZoneSendAction.resetZone && other == zid) ||
          (cmd.zsa == ZoneSendAction.resetZone && decide (other ∈ rest))) =
          fun other => cmd.zsa == ZoneSendAction.resetZone && decide (other ∈ zid :: rest) := by
        funext other
        rw [Bool.eq_iff_iff]
        simp
        tauto
      rw [same] at later
      exact ⟨up, later⟩

include contract space buffers in
theorem zns_zmgmt_send_settled (cmd : ZoneMgmtSend) (ftl next : ZmsFtl) (status : NvmeStatus) (accounted : Accounted p ftl)
    (online : Online p ftl) (clearable : ∀ zid, zid < p.zpp.nrZones → resetZones p cmd zid = true → Clearable p ftl zid)
    (settled : Settled p resting ftl mapped buffered) (ran : znsZmgmtSend p ftl cmd = .ok (status, next)) :
    Online p next ∧ Settled p resting next (without (resetZones p cmd) mapped) (without (resetZones p cmd) buffered) := by
  unfold znsZmgmtSend at ran
  split at ran
  · rename_i every
    obtain ⟨last, sent, rest⟩ := bind_ok _ _ _ ran
    rw [← (Prod.mk.inj (pure_ok _ _ rest)).2]
    have chosen : resetZones p cmd = fun zid => cmd.zsa == .resetZone && decide (zid ∈ List.range p.zpp.nrZones) := by
      funext zid
      rw [resetZones, if_pos every]
      simp
    rw [chosen] at clearable ⊢
    refine zmgmt_send_all_settled p loc resting contract space buffers mapped buffered cmd _ (fun zid member => List.mem_range.mp member) ftl
      last accounted online ?_ settled sent
    intro reset zid member
    refine clearable zid (List.mem_range.mp member) ?_
    simpa [reset] using member
  · rename_i single
    have chosen : resetZones p cmd = fun zid => cmd.zsa == .resetZone && zid == lbaToZone p cmd.slba := by
      funext zid
      rw [resetZones, if_neg single]
    rw [chosen] at clearable ⊢
    refine ⟨zmgmt_send_online p ftl online _ _ _ status next ran, zmgmt_send_settled p loc resting contract space buffers mapped buffered
      ftl next _ _ _ status accounted online ?_ settled ran⟩
    intro reset inside
    exact clearable _ inside (by simp [reset])

include contract space in
theorem flush_buffer_settled (ftl next : ZmsFtl) (req : Request) (index : Nat) (bound : index < p.zpp.nrWb)
    (settled : Settled p resting ftl mapped buffered)
    (ran : flushBuffer p (putBuffer ftl index { ftl.writeBuffer index with sqid := req.sqId }) index = .ok next) :
    ∃ mapped' buffered', Settled p resting next mapped' buffered' ∧ (next.writeBuffer index).lpns = [] ∧
      (∀ other, (ftl.writeBuffer other).lpns = [] → (next.writeBuffer other).lpns = []) ∧
      ∀ zid, mapped' zid + buffered' zid = mapped zid + buffered zid := by
  have noted : Settled p resting (putBuffer ftl index { ftl.writeBuffer index with sqid := req.sqId }) mapped buffered :=
    settled_kept p loc resting contract mapped buffered ftl _ rfl rfl (held_put ftl index _ rfl) rfl settled
  have lpns : ∀ other, ((putBuffer ftl index { ftl.writeBuffer index with sqid := req.sqId }).writeBuffer other).lpns =
      (ftl.writeBuffer other).lpns := by
    intro other
    have same := held_put ftl index { ftl.writeBuffer index with sqid := req.sqId } rfl other
    exact congrArg (fun contents => contents.2.1) same
  generalize putBuffer ftl index { ftl.writeBuffer index with sqid := req.sqId } = asked at ran noted lpns
  unfold flushBuffer at ran
  split at ran
  · obtain ⟨⟨latest, flushed⟩, flushing, rest⟩ := bind_ok _ _ _ ran
    rw [← pure_ok _ _ rest]
    obtain ⟨mapped', buffered', done, gone, _, total⟩ := flush_settled p loc resting contract space mapped buffered asked flushed index 0 latest
      bound noted flushing
    have empty : (flushed.writeBuffer index).lpns = [] := congrArg (fun contents => contents.2.1) gone.empty
    refine ⟨mapped', buffered', done, empty, ?_, total⟩
    intro other blank
    by_cases here : other = index
    · rw [here]
      exact empty
    · rw [gone.others other here, lpns]
      exact blank
  · rename_i idle
    rw [← Except.ok.inj ran]
    refine ⟨mapped, buffered, noted, ?_, ?_, fun _ => rfl⟩
    · exact empty_buffer p mapped buffered asked noted.spread index bound (Decidable.not_not.mp idle)
    · intro other blank
      rw [lpns]
      exact blank

include contract space in
theorem flush_buffers_settled (req : Request) (indices : List Nat) (bounds : ∀ index ∈ indices, index < p.zpp.nrWb) (ftl next : ZmsFtl)
    (settled : Settled p resting ftl mapped buffered) (ran : flushBuffers p req indices ftl = .ok next) :
    ∃ mapped' buffered', Settled p resting next mapped' buffered' ∧ (∀ index ∈ indices, (next.writeBuffer index).lpns = []) ∧
      (∀ other, (ftl.writeBuffer other).lpns = [] → (next.writeBuffer other).lpns = []) ∧
      ∀ zid, mapped' zid + buffered' zid = mapped zid + buffered zid := by
  induction indices generalizing ftl mapped buffered with
  | nil =>
      rw [← Except.ok.inj ran]
      exact ⟨mapped, buffered, settled, fun index member => absurd member List.not_mem_nil, fun _ blank => blank, fun _ => rfl⟩
  | cons index rest ih =>
      unfold flushBuffers at ran
      obtain ⟨middle, flushed, ran⟩ := bind_ok _ _ _ ran
      obtain ⟨mapped', buffered', first, empty, kept, total⟩ := flush_buffer_settled p loc resting contract space mapped buffered ftl middle req
        index (bounds index List.mem_cons_self) settled flushed
      obtain ⟨mapped'', buffered'', last, emptied, stays, totals⟩ := ih mapped' buffered'
        (fun other member => bounds other (List.mem_cons_of_mem index member)) middle first ran
      refine ⟨mapped'', buffered'', last, ?_, fun other blank => stays other (kept other blank), fun zid => (totals zid).trans (total zid)⟩
      intro other member
      rcases List.mem_cons.mp member with here | later
      · rw [here]
        exact stays index empty
      · exact emptied other later

include contract space in
theorem zns_flush_settled (ftl next : ZmsFtl) (req : Request) (done : Completion) (settled : Settled p resting ftl mapped buffered)
    (ran : znsFlush p ftl req = .ok (done, next)) :
    Settled p resting next (fun zid => mapped zid + buffered zid) (fun _ => 0) ∧
      ∀ index, index < p.zpp.nrWb → (next.writeBuffer index).lpns = [] := by
  unfold znsFlush at ran
  obtain ⟨flushed, flushing, rest⟩ := bind_ok _ _ _ ran
  generalize readClock flushed.timing = read at rest
  obtain ⟨start, timing⟩ := read
  dsimp only at rest
  generalize ssdNextIdleTime p.spp timing = idle at rest
  obtain ⟨latest, after⟩ := idle
  rw [← (Prod.mk.inj (pure_ok _ _ rest)).2]
  obtain ⟨mapped', buffered', last, empty, _, total⟩ := flush_buffers_settled p loc resting contract space mapped buffered req _
    (fun index member => List.mem_range.mp member) ftl flushed settled flushing
  have blank : ∀ index, index < p.zpp.nrWb → (flushed.writeBuffer index).lpns = [] := fun index bound =>
    empty index (List.mem_range.mpr bound)
  have zero : ∀ zid, buffered' zid = 0 := by
    intro zid
    by_contra positive
    refine positive (last.spread.rest zid fun index bound own => positive ?_)
    rw [← buffered_pgs p mapped' buffered' flushed last.spread index zid bound own, Buffer.pgs, blank index bound]
    rfl
  have all : mapped' = fun zid => mapped zid + buffered zid := by
    funext zid
    rw [← total, zero, Nat.add_zero]
  rw [show buffered' = fun _ => 0 from funext zero, all] at last
  exact ⟨settled_kept p loc resting contract _ _ flushed _ rfl rfl (fun _ => rfl) rfl last, blank⟩

include contract in
theorem quiet_settled (before after : ZmsFtl) (quiet : Quiet before after) (aggs : gathered after = gathered before)
    (settled : Settled p resting before mapped buffered) : Settled p resting after mapped buffered :=
  settled_kept p loc resting contract mapped buffered before after quiet.media (gathered_aggs _ _ aggs)
    (fun index => by rw [show after.writeBuffer = before.writeBuffer from congrArg HostSide.writeBuffer quiet.host])
    (congrArg HostSide.zoneDescs quiet.host) settled

include contract in
theorem read_page_settled (slpn : Nat) (inside : lpnToZone p slpn < p.zpp.nrZones) (state : ReadState) (lpn : Nat)
    (settled : Settled p resting state.ftl mapped buffered) : Settled p resting (readPage p slpn state lpn).ftl mapped buffered := by
  have counted : Settled p resting (countHostRead state.ftl) mapped buffered :=
    quiet_settled p loc resting contract mapped buffered state.ftl _ ⟨rfl, rfl⟩ rfl settled
  have got := get_settled p loc resting contract mapped buffered _ slpn inside counted
  refine quiet_settled p loc resting contract mapped buffered _ _ (read_page_looked p slpn state lpn) ?_ got
  rw [read_page_gathered, zms_wb_get_gathered]
  rfl

include contract in
theorem read_pages_settled (slpn : Nat) (inside : lpnToZone p slpn < p.zpp.nrZones) (lpns : List Nat) (state : ReadState)
    (settled : Settled p resting state.ftl mapped buffered) :
    Settled p resting (lpns.foldl (readPage p slpn) state).ftl mapped buffered := by
  induction lpns generalizing state with
  | nil => exact settled
  | cons lpn rest ih => exact ih _ (read_page_settled p loc resting contract mapped buffered slpn inside state lpn settled)

include contract in
theorem handle_read_request_settled (ftl : ZmsFtl) (req : Request) (cmd : RwCommand) (inside : lbaToZone p cmd.slba < p.zpp.nrZones)
    (settled : Settled p resting ftl mapped buffered) : Settled p resting (handleReadRequest p ftl req cmd).2 mapped buffered := by
  have arrived : Settled p resting { ftl with currentTime := req.nsecsStart } mapped buffered :=
    settled_kept p loc resting contract mapped buffered ftl _ rfl rfl (fun _ => rfl) rfl settled
  rw [← lpn_zone_of_lba] at inside
  have pages := fun begin => read_pages_settled p loc resting contract mapped buffered (lbaToLpn cmd.slba) inside
    (lpnRange (lbaToLpn cmd.slba) (lbaToLpn (u64 (cmd.slba + nrLbasFromRwCmd cmd - 1))))
    ⟨{ ftl with currentTime := req.nsecsStart }, [], begin, begin, 0⟩ arrived
  unfold handleReadRequest
  dsimp only
  generalize req.nsecsStart + (if nrLbasFromRwCmd cmd * secsz ≤ 4096 then fw4kbRdLat else fwRdLat) = begin
  have looked := pages begin
  generalize List.foldl (readPage p (lbaToLpn cmd.slba)) _ _ = state at looked ⊢
  have fetched := nand_read_quiet p state.ftl state.toRead .userIo state.readBegin
  exact quiet_settled p loc resting contract mapped buffered state.ftl _ ⟨fetched.host, fetched.media⟩
    (nand_read_gathered p state.ftl state.toRead .userIo state.readBegin) looked

include contract in
theorem zoned_read_settled (ftl next : ZmsFtl) (req : Request) (cmd : RwCommand) (done : Completion)
    (settled : Settled p resting ftl mapped buffered) (ran : zonedRead p ftl req cmd = .ok (done, next)) :
    Settled p resting next mapped buffered := by
  unfold zonedRead at ran
  dsimp only at ran
  have unchanged : ∀ result, (Except.ok (result, ftl) : Exec (Completion × ZmsFtl)) = .ok (done, next) →
      Settled p resting next mapped buffered := by
    intro result same
    rw [← (Prod.mk.inj (Except.ok.inj same)).2]
    exact settled
  split at ran
  · cases ran
  · rename_i inside
    split at ran
    · exact unchanged _ ran
    · split at ran
      · exact unchanged _ ran
      · split at ran
        · exact unchanged _ ran
        · have read := handle_read_request_settled p loc resting contract mapped buffered ftl req cmd (Nat.lt_of_not_le inside) settled
          rwa [Except.ok.inj ran] at read

include contract in
theorem run_release_settled (ftl next : ZmsFtl) (entry : Nat) (settled : Settled p resting ftl mapped buffered)
    (ran : runRelease ftl entry = some next) : Settled p resting next mapped buffered := by
  unfold runRelease at ran
  split at ran
  · rename_i index time _
    rw [← Option.some.inj ran]
    exact settled_kept p loc resting contract mapped buffered ftl _ rfl rfl (held_put ftl index _ rfl) rfl settled
  · cases ran

end Commands

end ConZone
