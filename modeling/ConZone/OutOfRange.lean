import ConZone.Calls
import ConZone.Management
import ConZone.Payload

set_option autoImplicit false

namespace ConZone

-- The range a command names does not lie in the namespace. The one LBA of a
-- management command is the first of the zone it means.
def OutOfRange (p : Params) : HostCommand → Prop
  | .write rw _ | .read rw _ => p.zpp.nrZones * zoneLbas p < rw.slba + nrLbasFromRwCmd rw
  | .flush => False
  | .mgmtSend cmd => cmd.selectAll = false ∧ p.zpp.nrZones * zoneLbas p ≤ cmd.slba

-- Descriptors, counters, mapping tables and buffered data are as they were. An
-- empty buffer may have been given to another zone.
structure NoEffect (before after : ZmsFtl) : Prop where
  descs : after.zoneDescs = before.zoneDescs
  infos : after.resInfos = before.resInfos
  maptbl : after.maptbl = before.maptbl
  rmap : after.rmap = before.rmap
  lpns : ∀ index, (after.writeBuffer index).lpns = (before.writeBuffer index).lpns
  data : ∀ index, (after.writeBuffer index).flushData = (before.writeBuffer index).flushData
  owner : ∀ index, (before.writeBuffer index).flushData ≠ 0 → (after.writeBuffer index).zid = (before.writeBuffer index).zid

-- The attempt runs without a fault and without an effect. Either it waits for
-- a buffer in use and is made again, or the command completes with an error
-- and the worker, whatever the storage is by then, copies nothing.
def Refused (p : Params) (mapped : Nat) (ftl : ZmsFtl) (storage : Storage) (req : Request) (cmd : HostCommand) : Prop :=
  ∃ attempt, procIoCmd p mapped ftl storage req cmd = .ok attempt ∧ NoEffect ftl attempt.ftl ∧ attempt.storage = storage ∧
    (attempt.done = none → ∃ index, index < p.zpp.nrWb ∧ (ftl.writeBuffer index).busy = true) ∧
    ∀ done, attempt.done = some done → ∀ later, ∃ status delivered,
      copied p mapped later done.status attempt.cmd = .ok (later, status, delivered) ∧ status ≠ .success

section Effects

theorem no_effect_refl (ftl : ZmsFtl) : NoEffect ftl ftl :=
  ⟨rfl, rfl, rfl, rfl, fun _ => rfl, fun _ => rfl, fun _ _ => rfl⟩

theorem no_effect_trans (first second third : ZmsFtl) (left : NoEffect first second) (right : NoEffect second third) :
    NoEffect first third := by
  refine ⟨right.descs.trans left.descs, right.infos.trans left.infos, right.maptbl.trans left.maptbl, right.rmap.trans left.rmap,
    fun index => (right.lpns index).trans (left.lpns index), fun index => (right.data index).trans (left.data index), ?_⟩
  intro index kept
  have still : (second.writeBuffer index).flushData ≠ 0 := by
    rw [left.data index]
    exact kept
  exact (right.owner index still).trans (left.owner index kept)

theorem relabel_no_effect (ftl : ZmsFtl) (index : Nat) (buffer : Buffer) (lpns : buffer.lpns = (ftl.writeBuffer index).lpns)
    (data : buffer.flushData = (ftl.writeBuffer index).flushData)
    (owner : (ftl.writeBuffer index).flushData ≠ 0 → buffer.zid = (ftl.writeBuffer index).zid) :
    NoEffect ftl (putBuffer ftl index buffer) := by
  have here : (putBuffer ftl index buffer).writeBuffer index = buffer := Function.update_self ..
  have there : ∀ other, other ≠ index → (putBuffer ftl index buffer).writeBuffer other = ftl.writeBuffer other := by
    intro other apart
    exact Function.update_of_ne apart _ _
  refine ⟨rfl, rfl, rfl, rfl, ?_, ?_, ?_⟩
  · intro other
    by_cases same : other = index
    · rw [same, here, lpns]
    · rw [there other same]
  · intro other
    by_cases same : other = index
    · rw [same, here, data]
    · rw [there other same]
  · intro other kept
    by_cases same : other = index
    · subst same
      rw [here, owner kept]
    · rw [there other same]

variable (p : Params)

theorem zms_wb_get_no_effect (ftl : ZmsFtl) (slpn : Nat) : NoEffect ftl (zmsWbGet p ftl slpn).2 := by
  cases own : bufferOfZone p ftl (lpnToZone p slpn) with
  | some index =>
      simp only [zmsWbGet, own]
      exact no_effect_refl ftl
  | none =>
      cases idle : idleBuffer p ftl with
      | some index =>
          simp only [zmsWbGet, own, idle]
          refine relabel_no_effect ftl index _ rfl rfl fun kept => ?_
          exact absurd (idle_buffer_spec p ftl index idle).1 kept
      | none =>
          simp only [zmsWbGet, own, idle]
          exact no_effect_refl ftl

theorem no_effect_of (before after : ZmsFtl) (host : hostSide after = hostSide before) (maptbl : after.maptbl = before.maptbl)
    (rmap : after.rmap = before.rmap) : NoEffect before after := by
  have buffers : after.writeBuffer = before.writeBuffer := congrArg HostSide.writeBuffer host
  refine ⟨congrArg HostSide.zoneDescs host, congrArg HostSide.resInfos host, maptbl, rmap, ?_, ?_, ?_⟩
  · intro index
    rw [buffers]
  · intro index
    rw [buffers]
  · intro index _
    rw [buffers]

theorem started_no_effect (ftl : ZmsFtl) (req : Request) (cmd : RwCommand) : NoEffect ftl (started p ftl req cmd) := by
  have core : coreOf (started p ftl req cmd) = coreOf (arrived ftl req) := (started_aside p _ _ _ _ _).core
  have table := started_table p ftl req cmd
  have buffers := started_buffers p ftl req cmd
  refine ⟨table.descs, table.infos, congrArg Core.maptbl core, congrArg Core.rmap core, ?_, ?_, ?_⟩
  · intro index
    rw [buffers]
  · intro index
    rw [buffers]
  · intro index _
    rw [buffers]

end Effects

section Reading

variable (p : Params)

theorem nand_read_no_effect (ftl : ZmsFtl) (lpns : List Nat) (ioType : IoType) (start : Nat) :
    NoEffect ftl (nandRead p ftl lpns ioType start).2 := by
  have core := (nand_read_aside p ftl lpns ioType start).core
  exact no_effect_of _ _ (nand_read_quiet p ftl lpns ioType start).host (congrArg Core.maptbl core) (congrArg Core.rmap core)

theorem map_read_no_effect (lpn : Nat) (grans : List MapType) (latest : Nat) (ftl : ZmsFtl) :
    NoEffect ftl (mapRead p lpn grans (latest, ftl)).2 := by
  induction grans generalizing latest ftl with
  | nil => exact no_effect_refl ftl
  | cons gran rest ih =>
      have fetched := nand_read_no_effect p ftl [getGranularityStartLpn p lpn gran] .mapReadIo latest
      simp only [mapRead]
      split
      · split
        · exact no_effect_trans _ _ _ fetched (no_effect_of _ _ rfl rfl rfl)
        · exact no_effect_trans _ _ _ fetched (ih _ _)
      · exact no_effect_trans _ _ _ fetched (ih _ _)

theorem lookup_l2p_no_effect (state : ReadState) (lpn : Nat) : NoEffect state.ftl (lookupL2p p state lpn).ftl := by
  simp only [lookupL2p]
  split
  · exact no_effect_of _ _ rfl rfl rfl
  · have fetched := nand_read_no_effect p state.ftl state.toRead .userIo state.readBegin
    exact no_effect_trans _ _ _ fetched (map_read_no_effect p lpn mapType state.readBegin _)

theorem read_page_no_effect (slpn : Nat) (state : ReadState) (lpn : Nat) : NoEffect state.ftl (readPage p slpn state lpn).ftl := by
  have got := zms_wb_get_no_effect p { state.ftl with stats := { state.ftl.stats with hostRPgs := state.ftl.stats.hostRPgs + 1 } } slpn
  have counted : NoEffect state.ftl { state.ftl with stats := { state.ftl.stats with hostRPgs := state.ftl.stats.hostRPgs + 1 } } :=
    no_effect_of _ _ rfl rfl rfl
  have arrives := no_effect_trans _ _ _ counted got
  simp only [readPage]
  generalize zmsWbGet p _ slpn = found at arrives
  obtain ⟨buffer, middle⟩ := found
  dsimp only at arrives ⊢
  split
  · exact no_effect_trans _ _ _ arrives (no_effect_of _ _ rfl rfl rfl)
  · have looked := lookup_l2p_no_effect p
      { state with ftl := middle, wbReadPgs := state.wbReadPgs + middle.gcAggLpns.count lpn } lpn
    refine no_effect_trans _ _ _ arrives (no_effect_trans _ _ _ looked ?_)
    split
    · exact no_effect_refl _
    · exact no_effect_of _ _ rfl rfl rfl

theorem read_pages_no_effect (slpn : Nat) (lpns : List Nat) (state : ReadState) :
    NoEffect state.ftl (lpns.foldl (readPage p slpn) state).ftl := by
  induction lpns generalizing state with
  | nil => exact no_effect_refl state.ftl
  | cons lpn rest ih => exact no_effect_trans _ _ _ (read_page_no_effect p slpn state lpn) (ih _)

theorem handle_read_request_no_effect (ftl : ZmsFtl) (req : Request) (cmd : RwCommand) :
    NoEffect ftl (handleReadRequest p ftl req cmd).2 := by
  have pages := read_pages_no_effect p (lbaToLpn cmd.slba)
    (lpnRange (lbaToLpn cmd.slba) (lbaToLpn (u64 (cmd.slba + nrLbasFromRwCmd cmd - 1))))
    ⟨{ ftl with currentTime := req.nsecsStart }, [],
      req.nsecsStart + (if nrLbasFromRwCmd cmd * secsz ≤ 4096 then fw4kbRdLat else fwRdLat),
      req.nsecsStart + (if nrLbasFromRwCmd cmd * secsz ≤ 4096 then fw4kbRdLat else fwRdLat), 0⟩
  have stamped : ∀ after, NoEffect { ftl with currentTime := req.nsecsStart } after → NoEffect ftl after := by
    intro after kept
    exact ⟨kept.descs, kept.infos, kept.maptbl, kept.rmap, kept.lpns, kept.data, kept.owner⟩
  refine stamped _ (no_effect_trans _ _ _ pages ?_)
  simp only [handleReadRequest]
  generalize List.foldl (readPage p (lbaToLpn cmd.slba)) _ _ = state
  have fetched := nand_read_no_effect p state.ftl state.toRead .userIo state.readBegin
  exact no_effect_trans _ _ _ fetched (no_effect_of _ _ rfl rfl rfl)

theorem handle_read_request_succeeds (ftl : ZmsFtl) (req : Request) (cmd : RwCommand) :
    (handleReadRequest p ftl req cmd).1.status = .success := by
  simp only [handleReadRequest]

theorem zoned_read_attempt (ftl : ZmsFtl) (req : Request) (cmd : RwCommand) (inside : lbaToZone p cmd.slba < p.zpp.nrZones) :
    ∃ done next, zonedRead p ftl req cmd = .ok (done, next) ∧ NoEffect ftl next ∧
      (done.status = .success ↔ (ftl.zoneDescs (lbaToZone p cmd.slba)).state ≠ .offline ∧
        checkBoundaryError p cmd.slba (nrLbasFromRwCmd cmd) = true) := by
  have dispatched : ¬p.zpp.nrZones ≤ lbaToZone p cmd.slba := Nat.not_le_of_lt inside
  by_cases offline : (ftl.zoneDescs (lbaToZone p cmd.slba)).state = .offline
  · refine ⟨⟨.znsErrOffline, req.nsecsStart⟩, ftl, ?_, no_effect_refl ftl, by simp [offline]⟩
    simp only [zonedRead, dispatched, offline, if_false, if_true]
  · cases boundary : checkBoundaryError p cmd.slba (nrLbasFromRwCmd cmd) with
    | false =>
        refine ⟨⟨.znsErrBoundary, req.nsecsStart⟩, ftl, ?_, no_effect_refl ftl, by simp⟩
        simp [zonedRead, dispatched, offline, boundary]
    | true =>
        by_cases past : zoneToSlba p (lbaToZone p cmd.slba) + (ftl.zoneDescs (lbaToZone p cmd.slba)).zoneCapacity
            < u64 (cmd.slba + nrLbasFromRwCmd cmd)
        · refine ⟨⟨.success, req.nsecsStart⟩, ftl, ?_, no_effect_refl ftl, by simp [offline]⟩
          simp [zonedRead, dispatched, offline, boundary, past]
        · refine ⟨(handleReadRequest p ftl req cmd).1, (handleReadRequest p ftl req cmd).2, ?_,
            handle_read_request_no_effect p ftl req cmd, ?_⟩
          · simp [zonedRead, dispatched, offline, boundary, past]
          · simp [handle_read_request_succeeds, offline]

end Reading

section Writing

variable (p : Params) (ftl : ZmsFtl) (req : Request) (rw : RwCommand)

theorem full_runs (inside : lbaToZone p rw.slba < p.zpp.nrZones) (full : anyFull ftl = true) :
    zonedWrite p ftl req rw = .ok (finishWrite rw ⟨{ ftl with currentTime := req.nsecsStart }, req.nsecsStart, req.nsecsStart⟩ none
      .capExceeded) := by
  rw [dispatched_write p ftl req rw inside, handleWriteRequest]
  exact if_pos full

-- A write faults where the zone it was placed in does not exist, in the data
-- loop after its write check passed, or while it empties another zone's buffer.
theorem zoned_write_fault (inside : lbaToZone p rw.slba < p.zpp.nrZones) (fault : Fault) (ran : zonedWrite p ftl req rw = .error fault) :
    anyFull ftl = false ∧ ¬partialDropped p ftl rw ∧
      ∃ index got, zmsWbGet p (started p ftl req rw) (firstLpn (placeAppend p ftl rw)) = (some index, got) ∧
        (got.writeBuffer index).busy = false ∧
        (zmsWbCheck p (got.writeBuffer index) (firstLpn (placeAppend p ftl rw)) = false ∨
          p.zpp.nrZones ≤ lbaToZone p (placeAppend p ftl rw).slba ∨
          (znsWriteCheck p (lockBuffer got req index) (placeAppend p ftl rw).slba (nrLbasFromRwCmd rw)).1 = .success) := by
  by_cases full : anyFull ftl = true
  · rw [full_runs p ftl req rw inside full] at ran
    cases ran
  · rw [Bool.not_eq_true] at full
    by_cases drop : partialDropped p ftl rw
    · rw [dropped_runs p ftl req rw inside full drop] at ran
      cases ran
    · refine ⟨full, drop, ?_⟩
      rw [kept_runs p ftl req rw inside full drop, writeToBuffer, ← firstLpn] at ran
      generalize found : zmsWbGet p (started p ftl req rw) (firstLpn (placeAppend p ftl rw)) = result at ran
      obtain ⟨_ | index, got⟩ := result
      · cases ran
      · refine ⟨index, got, rfl, ?_⟩
        dsimp only at ran
        cases own : zmsWbCheck p (got.writeBuffer index) (firstLpn (placeAppend p ftl rw)) with
        | false =>
            rw [own, if_pos (by decide), switchZone] at ran
            cases locked : (got.writeBuffer index).busy with
            | false => exact ⟨rfl, .inl rfl⟩
            | true =>
                rw [buffer_allocate_locked got index locked] at ran
                cases ran
        | true =>
            rw [own, if_neg (by decide), if_neg (by simp [lbas_whole_units])] at ran
            have sameBusy : ((putBuffer got index { got.writeBuffer index with sqid := req.sqId }).writeBuffer index).busy
                = (got.writeBuffer index).busy := by
              simp [putBuffer]
            cases locked : (got.writeBuffer index).busy with
            | true =>
                rw [buffer_allocate_locked _ index (sameBusy.trans locked)] at ran
                cases ran
            | false =>
                refine ⟨rfl, .inr ?_⟩
                have lockedState : putBuffer (putBuffer got index { got.writeBuffer index with sqid := req.sqId }) index
                    { (putBuffer got index { got.writeBuffer index with sqid := req.sqId }).writeBuffer index with busy := true }
                    = lockBuffer got req index := by
                  simp [putBuffer, lockBuffer]
                rw [buffer_allocate_unlocked _ index (sameBusy.trans locked), lockedState] at ran
                dsimp only at ran
                simp only [writeBuffered, place_append_length] at ran
                split at ran
                · rename_i past
                  exact .inl past
                · right
                  generalize znsWriteCheck p (lockBuffer got req index) (placeAppend p ftl rw).slba (nrLbasFromRwCmd rw) = checked
                    at ran ⊢
                  obtain ⟨status, after⟩ := checked
                  by_contra failed
                  cases status with
                  | success => exact failed rfl
                  | _ => cases ran

-- When a write that names LBAs past the end of the namespace is refused. A
-- plain one is never let in; an append may be, since the LBA it names is
-- replaced by the write pointer of the zone.
def WriteRefused : Prop :=
  anyFull ftl = true ∨ (partialDropped p ftl rw ∧ cmdNsRange p (placeAppend p ftl rw) = false) ∨
    (¬partialDropped p ftl rw ∧ (Waits p ftl (firstLpn (placeAppend p ftl rw)) ∨
      ¬Switches p ftl (firstLpn (placeAppend p ftl rw)) ∧
        (rw.append = true → lbaToZone p (placeAppend p ftl rw).slba < p.zpp.nrZones ∧
          ¬Admits p ftl (placeAppend p ftl rw).slba (nrLbasFromRwCmd rw))))

theorem plain_not_admitted (outside : p.zpp.nrZones * zoneLbas p < rw.slba + nrLbasFromRwCmd rw)
    (inside : lbaToZone p rw.slba < p.zpp.nrZones) (accounted : Accounted p ftl) : ¬Admits p ftl rw.slba (nrLbasFromRwCmd rw) := by
  intro admits
  have room := admits.room
  have zone := zone_end_bound p _ inside
  have capacity : capacityLbas p ≤ zoneLbas p := Nat.div_le_div_right p.zpp.capacityFits
  rw [(accounted.sound _ inside).capacity] at room
  omega

variable (mapped : Nat) (storage : Storage) (data : DataPointer) (buffers : 0 < p.zpp.nrWb) (accounted : Accounted p ftl)

theorem completed_refused (attempt : Attempt) (done : Completion)
    (ran : procIoCmd p mapped ftl storage req (.write rw data) = .ok attempt) (kept : NoEffect ftl attempt.ftl)
    (stored : attempt.storage = storage) (finished : attempt.done = some done)
    (fails : ∀ later, ∃ status delivered, copied p mapped later done.status attempt.cmd = .ok (later, status, delivered) ∧
      status ≠ .success) : Refused p mapped ftl storage req (.write rw data) := by
  refine ⟨attempt, ran, kept, stored, ?_, ?_⟩
  · intro unfinished
    rw [finished] at unfinished
    cases unfinished
  · intro other same
    rw [finished] at same
    cases same
    exact fails

theorem finish_no_effect (cmd : RwCommand) (progress : WriteProgress) (buffer : Option Nat) (status : NvmeStatus) :
    NoEffect progress.ftl (finishWrite cmd progress buffer status).ftl := by
  cases buffer with
  | none => exact no_effect_of _ _ rfl rfl rfl
  | some index => exact ⟨rfl, rfl, rfl, rfl, fun _ => rfl, fun _ => rfl, fun _ _ => rfl⟩

theorem found_no_effect (index : Option Nat) (got : ZmsFtl)
    (found : zmsWbGet p (started p ftl req rw) (firstLpn (placeAppend p ftl rw)) = (index, got)) : NoEffect ftl got := by
  have searched := zms_wb_get_no_effect p (started p ftl req rw) (firstLpn (placeAppend p ftl rw))
  rw [found] at searched
  exact no_effect_trans _ _ _ (started_no_effect p ftl req rw) searched

include accounted in
theorem refused_goes_on (inside : lbaToZone p rw.slba < p.zpp.nrZones)
    (outside : rw.append = false → p.zpp.nrZones * zoneLbas p < rw.slba + nrLbasFromRwCmd rw) (condition : WriteRefused p ftl rw)
    (clear : anyFull ftl = false) (kept : ¬partialDropped p ftl rw) (goes : ¬Waits p ftl (firstLpn (placeAppend p ftl rw))) :
    ¬Switches p ftl (firstLpn (placeAppend p ftl rw)) ∧ lbaToZone p (placeAppend p ftl rw).slba < p.zpp.nrZones ∧
      ¬Admits p ftl (placeAppend p ftl rw).slba (nrLbasFromRwCmd rw) := by
  rcases condition with full | ⟨drop, _⟩ | ⟨_, waits | ⟨stays, placed⟩⟩
  · simp [full] at clear
  · exact absurd drop kept
  · exact absurd waits goes
  · refine ⟨stays, ?_⟩
    cases append : rw.append with
    | true => exact placed append
    | false =>
        have same : placeAppend p ftl rw = rw := by simp [placeAppend, append]
        rw [same]
        exact ⟨inside, plain_not_admitted p ftl rw (outside append) inside accounted⟩

include accounted in
theorem refused_write_runs (inside : lbaToZone p rw.slba < p.zpp.nrZones)
    (outside : rw.append = false → p.zpp.nrZones * zoneLbas p < rw.slba + nrLbasFromRwCmd rw) (condition : WriteRefused p ftl rw) :
    ∃ outcome, zonedWrite p ftl req rw = .ok outcome := by
  cases ran : zonedWrite p ftl req rw with
  | ok outcome => exact ⟨outcome, rfl⟩
  | error fault =>
      exfalso
      obtain ⟨clear, kept, index, got, found, free, reason⟩ := zoned_write_fault p ftl req rw inside fault ran
      obtain ⟨before, foundBefore, same⟩ := found_again p ftl req rw _ got found
      have goes : ¬Waits p ftl (firstLpn (placeAppend p ftl rw)) := by
        simp [Waits, foundBefore, same, free]
      obtain ⟨stays, placed, closed⟩ := refused_goes_on p ftl rw accounted inside outside condition clear kept goes
      rcases reason with other | past | passes
      · exact stays (by simp [Switches, foundBefore, same, free, other])
      · exact Nat.not_le_of_lt placed past
      · have effect := found_no_effect p ftl req rw _ got found
        exact closed ((locked_check_admits p ftl req rw accounted got index _ ⟨effect.descs, effect.infos⟩ placed).mp passes)

include buffers accounted in
theorem write_refused_of (inside : lbaToZone p rw.slba < p.zpp.nrZones)
    (outside : rw.append = false → p.zpp.nrZones * zoneLbas p < rw.slba + nrLbasFromRwCmd rw) (condition : WriteRefused p ftl rw) :
    Refused p mapped ftl storage req (.write rw data) := by
  obtain ⟨outcome, ran⟩ := refused_write_runs p ftl req rw accounted inside outside condition
  have attempted : procIoCmd p mapped ftl storage req (.write rw data) =
      .ok ⟨outcome.ftl, storage, .write outcome.cmd data, outcome.done⟩ := by
    simp [procIoCmd, ran, bind, Except.bind, pure, Except.pure]
  have unfinished : outcome.done = none → NoEffect ftl outcome.ftl → Waits p ftl (firstLpn (placeAppend p ftl rw)) →
      Refused p mapped ftl storage req (.write rw data) := by
    intro retried kept waits
    refine ⟨_, attempted, kept, rfl, fun _ => waits_for_busy p ftl buffers _ waits, ?_⟩
    intro done finished
    dsimp only at finished
    rw [retried] at finished
    cases finished
  cases zoned_write_run p ftl req rw outcome ran with
  | refusedFull full =>
      refine completed_refused p ftl req rw mapped storage data _ _ attempted ?_ rfl rfl fun later => ?_
      · exact ⟨rfl, rfl, rfl, rfl, fun _ => rfl, fun _ => rfl, fun _ _ => rfl⟩
      · exact ⟨_, _, failed_copies_nothing p mapped later .capExceeded _ (by decide), by decide⟩
  | dropped clear drop =>
      have past : cmdNsRange p (placeAppend p ftl rw) = false := by
        rcases condition with full | ⟨_, past⟩ | ⟨kept, _⟩
        · simp [full] at clear
        · exact past
        · exact absurd drop kept
      refine completed_refused p ftl req rw mapped storage data _ _ attempted ?_ rfl rfl fun later => ?_
      · exact ⟨rfl, rfl, rfl, rfl, fun _ => rfl, fun _ => rfl, fun _ _ => rfl⟩
      · exact ⟨_, _, past_range_copies_nothing p mapped later (placeAppend p ftl rw) data _ past (.inl rfl), by decide⟩
  | waits clear kept got found =>
      obtain ⟨before, foundBefore, same⟩ := found_again p ftl req rw _ got found
      exact unfinished rfl (found_no_effect p ftl req rw _ got found) (by simp [Waits, foundBefore])
  | busy clear kept got index found locked after same =>
      obtain ⟨before, foundBefore, buffersSame⟩ := found_again p ftl req rw _ got found
      refine unfinished rfl ?_ (by simpa [Waits, foundBefore, buffersSame] using locked)
      have effect := found_no_effect p ftl req rw _ got found
      rcases same with same | same
      · rw [same]
        exact effect
      · rw [same]
        exact no_effect_trans _ _ _ effect (relabel_no_effect got index _ rfl rfl fun _ => rfl)
  | switches clear kept got index found other unlocked latest flushed flushing =>
      obtain ⟨before, foundBefore, same⟩ := found_again p ftl req rw _ got found
      have goes : ¬Waits p ftl (firstLpn (placeAppend p ftl rw)) := by
        simp [Waits, foundBefore, same, unlocked]
      have stays := (refused_goes_on p ftl rw accounted inside outside condition clear kept goes).1
      exact absurd (by simp [Switches, foundBefore, same, unlocked, other]) stays
  | rejected clear kept got index found own unlocked placed status checked refused check =>
      have untouched := rejected_state p ftl req rw accounted got index found placed status checked refused check
      have effect := found_no_effect p ftl req rw _ got found
      have locked : NoEffect got (lockBuffer got req index) := relabel_no_effect got index _ rfl rfl fun _ => rfl
      refine completed_refused p ftl req rw mapped storage data _ _ attempted ?_ rfl rfl fun later => ?_
      · rw [untouched]
        have finished := finish_no_effect (placeAppend p ftl rw) ⟨lockBuffer got req index, req.nsecsStart, req.nsecsStart⟩ (some index) status
        exact no_effect_trans _ _ _ (no_effect_trans _ _ _ effect locked) finished
      · exact ⟨_, _, failed_copies_nothing p mapped later status _ refused, refused⟩
  | written clear kept got index found own unlocked placed checked check progress filled =>
      obtain ⟨before, foundBefore, same⟩ := found_again p ftl req rw _ got found
      have goes : ¬Waits p ftl (firstLpn (placeAppend p ftl rw)) := by
        simp [Waits, foundBefore, same, unlocked]
      have closed := (refused_goes_on p ftl rw accounted inside outside condition clear kept goes).2.2
      have effect := found_no_effect p ftl req rw _ got found
      have admits := (locked_check_admits p ftl req rw accounted got index _ ⟨effect.descs, effect.infos⟩ placed).mp (by rw [check])
      exact absurd admits closed

theorem advanced_has_effect (index : Nat) (checked : ZmsFtl) (progress : WriteProgress) (status : NvmeStatus)
    (accounted : Accounted p ftl) (accepted : Accepted p ftl req rw index checked)
    (filled : dataLoop p ftl req rw index checked = .ok progress) :
    ¬NoEffect ftl (finishWrite (placeAppend p ftl rw) progress (some index) status).ftl := by
  intro kept
  obtain ⟨_, _, state, _, descs⟩ := accepted_table p ftl req rw index checked accounted accepted
  have table := accepted_loop_table p ftl req rw index checked progress status filled
  have moved := congrArg (fun descs => (descs (lbaToZone p (placeAppend p ftl rw).slba)).wp) (kept.descs.symm.trans (table.descs.trans descs))
  simp [writtenDesc, nrLbasFromRwCmd] at moved

include buffers accounted in
theorem write_refused_only (refused : Refused p mapped ftl storage req (.write rw data)) :
    lbaToZone p rw.slba < p.zpp.nrZones ∧ WriteRefused p ftl rw := by
  obtain ⟨attempt, ran, kept, stored, _, fails⟩ := refused
  obtain ⟨outcome, written, same⟩ := attempt_write p mapped ftl storage req rw data attempt ran
  subst same
  dsimp only at kept fails
  refine ⟨zoned_write_dispatched p ftl req rw outcome written, ?_⟩
  cases zoned_write_run p ftl req rw outcome written with
  | refusedFull full => exact .inl full
  | dropped clear drop =>
      refine .inr (.inl ⟨drop, ?_⟩)
      by_contra fits
      rw [Bool.not_eq_false] at fits
      obtain ⟨status, delivered, copies, failed⟩ := fails _ rfl storage
      exact failed (in_range_copies p mapped storage (placeAppend p ftl rw) data _ fits (.inl rfl) _ _ _ copies)
  | waits clear notDropped got found =>
      obtain ⟨before, foundBefore, same⟩ := found_again p ftl req rw _ got found
      exact .inr (.inr ⟨notDropped, .inl (by simp [Waits, foundBefore])⟩)
  | busy clear notDropped got index found locked after same =>
      obtain ⟨before, foundBefore, buffersSame⟩ := found_again p ftl req rw _ got found
      exact .inr (.inr ⟨notDropped, .inl (by simpa [Waits, foundBefore, buffersSame] using locked)⟩)
  | switches clear notDropped got index found other unlocked latest flushed flushing =>
      obtain ⟨before, foundBefore, same⟩ := found_again p ftl req rw _ got found
      have full := switches_full p ftl buffers _ index before foundBefore (by rw [same]; exact other)
      have emptied := buffer_flush_clears p _ flushed index _ latest flushing
      have untouched := kept.data index
      dsimp only [scheduleInternalOperation] at untouched
      rw [emptied] at untouched
      exact absurd untouched.symm full
  | rejected clear notDropped got index found own unlocked placed status checked refused check =>
      obtain ⟨before, foundBefore, same⟩ := found_again p ftl req rw _ got found
      have effect := found_no_effect p ftl req rw _ got found
      refine .inr (.inr ⟨notDropped, .inr ⟨?_, fun _ => ⟨placed, fun admits => ?_⟩⟩⟩)
      · simp [Switches, foundBefore, same, own]
      · have passes := (locked_check_admits p ftl req rw accounted got index _ ⟨effect.descs, effect.infos⟩ placed).mpr admits
        rw [check] at passes
        exact refused passes
  | written clear notDropped got index found own unlocked placed checked check progress filled =>
      exact absurd kept (advanced_has_effect p ftl req rw index checked progress _ accounted
        ⟨clear, notDropped, ⟨got, found, own, unlocked, check⟩, placed⟩ filled)

end Writing

-- When a command that names LBAs past the end of the namespace is refused.
def RefusedWhen (p : Params) (ftl : ZmsFtl) : HostCommand → Prop
  | .write rw _ => lbaToZone p rw.slba < p.zpp.nrZones ∧ WriteRefused p ftl rw
  | .read rw _ => lbaToZone p rw.slba < p.zpp.nrZones ∧ ((ftl.zoneDescs (lbaToZone p rw.slba)).state = .offline ∨
      checkBoundaryError p rw.slba (nrLbasFromRwCmd rw) = false ∨ cmdNsRange p rw = false)
  | .flush => False
  | .mgmtSend cmd => lbaToZone p cmd.slba < p.zpp.nrZones ∧
      accepts cmd.zsa cmd.zsaso (ftl.zoneDescs (lbaToZone p cmd.slba)).state = false

section Refusals

variable (p : Params) (mapped : Nat) (ftl : ZmsFtl) (storage : Storage) (req : Request)

theorem read_refused_iff (rw : RwCommand) (data : DataPointer) :
    Refused p mapped ftl storage req (.read rw data) ↔ RefusedWhen p ftl (.read rw data) := by
  constructor
  · rintro ⟨attempt, ran, kept, stored, _, fails⟩
    obtain ⟨done, next, served, same⟩ := attempt_read p mapped ftl storage req rw data attempt ran
    subst same
    have inside : lbaToZone p rw.slba < p.zpp.nrZones := by
      by_contra past
      simp [zonedRead, Nat.not_lt.mp past] at served
    obtain ⟨_, _, again, _, succeeds⟩ := zoned_read_attempt p ftl req rw inside
    rw [served] at again
    cases again
    refine ⟨inside, ?_⟩
    by_contra opened
    simp only [not_or, Bool.not_eq_false] at opened
    obtain ⟨status, delivered, copies, failed⟩ := fails done rfl storage
    rw [succeeds.mpr ⟨opened.1, opened.2.1⟩] at copies
    exact failed (in_range_copies p mapped storage rw data _ opened.2.2 (.inr rfl) _ _ _ copies)
  · rintro ⟨inside, condition⟩
    obtain ⟨done, next, served, kept, succeeds⟩ := zoned_read_attempt p ftl req rw inside
    refine ⟨⟨next, storage, .read rw data, some done⟩, by simp [procIoCmd, served, bind, Except.bind, pure, Except.pure], kept, rfl, ?_, ?_⟩
    · intro unfinished
      cases unfinished
    · intro other same later
      cases same
      by_cases success : done.status = .success
      · obtain ⟨online, boundary⟩ := succeeds.mp success
        rcases condition with offline | crosses | past
        · exact absurd offline online
        · simp [boundary] at crosses
        · rw [success]
          exact ⟨_, _, past_range_copies_nothing p mapped later rw data _ past (.inr rfl), by decide⟩
      · exact ⟨_, _, failed_copies_nothing p mapped later _ _ success, success⟩

theorem single_send_stored (cmd : ZoneMgmtSend) (one : cmd.selectAll = false) (status : NvmeStatus) (next : ZmsFtl) (cleared : Storage)
    (ran : mgmtSendStored p mapped ftl storage cmd = .ok (status, next, cleared)) :
    zmgmtSend p ftl cmd.slba cmd.zsa cmd.zsaso = .ok (status, next) ∧ (status ≠ .success → cleared = storage) := by
  simp only [mgmtSendStored, one, Bool.false_eq_true, if_false, sendStored] at ran
  obtain ⟨⟨done, after⟩, sent, rest⟩ := bind_ok _ _ _ ran
  have same := pure_ok _ _ rest
  cases same
  refine ⟨sent, fun failed => ?_⟩
  rw [if_neg fun both => failed both.2]

theorem mgmt_refused_iff (cmd : ZoneMgmtSend) (one : cmd.selectAll = false) (accounted : Accounted p ftl) :
    Refused p mapped ftl storage req (.mgmtSend cmd) ↔ RefusedWhen p ftl (.mgmtSend cmd) := by
  constructor
  · rintro ⟨attempt, ran, kept, stored, _, fails⟩
    obtain ⟨status, next, cleared, served, same⟩ := attempt_mgmt p mapped ftl storage req cmd attempt ran
    subst same
    obtain ⟨sent, _⟩ := single_send_stored p mapped ftl storage cmd one status next cleared served
    obtain ⟨inside, _⟩ := zmgmt_send_runs p ftl next cmd.slba cmd.zsa cmd.zsaso status sent
    have answers := (zmgmt_send_accepts p ftl cmd.slba cmd.zsa cmd.zsaso accounted inside next status sent).1
    refine ⟨inside, ?_⟩
    by_contra accepted
    rw [Bool.not_eq_false] at accepted
    obtain ⟨final, delivered, copies, failed⟩ := fails _ rfl storage
    rw [answers.mpr accepted] at copies
    cases copies
    exact failed rfl
  · rintro ⟨inside, refused⟩
    obtain ⟨status, next, sent⟩ := refused_action_runs p ftl cmd.slba cmd.zsa cmd.zsaso inside refused
    obtain ⟨answers, unchanged⟩ := zmgmt_send_accepts p ftl cmd.slba cmd.zsa cmd.zsaso accounted inside next status sent
    have failed : status ≠ .success := by
      intro success
      simp [answers.mp success] at refused
    have untouched := unchanged failed
    refine ⟨⟨next, storage, .mgmtSend cmd, some ⟨status, req.nsecsStart⟩⟩, ?_, ?_, rfl, ?_, ?_⟩
    · simp [procIoCmd, mgmtSendStored, one, sendStored, sent, failed, bind, Except.bind, pure, Except.pure]
    · rw [untouched]
      exact no_effect_refl ftl
    · intro unfinished
      cases unfinished
    · intro done same later
      cases same
      exact ⟨_, _, failed_copies_nothing p mapped later status _ failed, failed⟩

end Refusals

-- A command that names LBAs past the end of the namespace fails and does
-- nothing exactly when its zone index, cut to 32 bits, names a zone and a test
-- made for another reason turns it away.
theorem out_of_range_refused_iff (p : Params) (mapped : Nat) (ftl : ZmsFtl) (storage : Storage) (req : Request) (host cmd : HostCommand)
    (buffers : 0 < p.zpp.nrWb) (reached : Reachable p anyEvent ftl) (outside : OutOfRange p host) (entry : Rewritten host cmd) :
    Refused p mapped ftl storage req cmd ↔ RefusedWhen p ftl cmd := by
  have accounted := reachable_accounted p _ ftl reached
  have written : ∀ rw data, (rw.append = false → p.zpp.nrZones * zoneLbas p < rw.slba + nrLbasFromRwCmd rw) →
      (Refused p mapped ftl storage req (.write rw data) ↔ RefusedWhen p ftl (.write rw data)) := by
    intro rw data past
    constructor
    · exact write_refused_only p ftl req rw mapped storage data buffers accounted
    · rintro ⟨inside, condition⟩
      exact write_refused_of p ftl req rw mapped storage data buffers accounted inside past condition
  cases entry with
  | placed rw data slba append =>
      refine written _ data fun plain => ?_
      simp [append] at plain
  | kept =>
      cases host with
      | write rw data => exact written rw data fun _ => outside
      | read rw data => exact read_refused_iff p mapped ftl storage req rw data
      | flush => exact absurd outside id
      | mgmtSend cmd => exact mgmt_refused_iff p mapped ftl storage req cmd outside.1 accounted

-- The zone index of LBA 2^32 zones on is 0 again; the write is turned away
-- because it does not start at the write pointer.
theorem wrapped_write_refused :
    Refused (dualParams sampleConfig .pslc) 0 (zmsRealizeFtl (dualParams sampleConfig .pslc) fun _ => 0) (fun _ => 0) ⟨0, 0⟩
      (.write ⟨false, 2 ^ 37, 0, false⟩ onePage) := by
  have past : (dualParams sampleConfig .pslc).zpp.nrZones * zoneLbas (dualParams sampleConfig .pslc) < 2 ^ 37 + 1 := by decide
  refine (out_of_range_refused_iff (dualParams sampleConfig .pslc) 0 _ (fun _ => 0) ⟨0, 0⟩ (.write ⟨false, 2 ^ 37, 0, false⟩ onePage) _
    (by decide) (.start _ ⟨fun _ => 0, rfl⟩) past (.kept _)).mpr ⟨by decide, .inr (.inr ⟨by decide, .inr ⟨?_, fun append => ?_⟩⟩)⟩
  · intro switches
    simp only [Switches] at switches
    split at switches
    · exact switches
    · rename_i index got found
      exact switches_full _ _ (by decide) _ index got found switches.2 rfl
  · cases append

-- LBA 128 is the first past the end; the read indexes zone_descs with 4.
theorem read_past_end_faults :
    ¬∀ config loc mapped ftl storage req cmd, Reachable (dualParams config loc) anyEvent ftl → OutOfRange (dualParams config loc) cmd →
        Refused (dualParams config loc) mapped ftl storage req cmd := by
  intro claim
  obtain ⟨attempt, ran, _⟩ := claim sampleConfig .pslc 0 (zmsRealizeFtl (dualParams sampleConfig .pslc) fun _ => 0) (fun _ => 0) ⟨0, 0⟩
    (.read ⟨false, 128, 0, false⟩ onePage) (.start _ ⟨fun _ => 0, rfl⟩) (Nat.lt_succ_self 128)
  have past : ¬lbaToZone (dualParams sampleConfig .pslc) 128 < (dualParams sampleConfig .pslc).zpp.nrZones := by decide
  obtain ⟨_, _, served, _⟩ := attempt_read _ _ _ _ _ _ _ _ ran
  simp [zonedRead, Nat.not_lt.mp past] at served

end ConZone
