import ConZone.FullFlags
import ConZone.WriteCheck

set_option autoImplicit false

namespace ConZone

-- A write let in by the write check: the buffer it goes through and the state
-- in which its data loop starts.
structure Accepted (p : Params) (ftl : ZmsFtl) (req : Request) (cmd : RwCommand) (index : Nat) (checked : ZmsFtl) : Prop where
  clear : anyFull ftl = false
  kept : ¬partialDropped p ftl cmd
  check : ∃ got, zmsWbGet p (started p ftl req cmd) (firstLpn (placeAppend p ftl cmd)) = (some index, got) ∧
    zmsWbCheck p (got.writeBuffer index) (firstLpn (placeAppend p ftl cmd)) = true ∧ (got.writeBuffer index).busy = false ∧
    znsWriteCheck p (lockBuffer got req index) (placeAppend p ftl cmd).slba (nrLbasFromRwCmd cmd) = (.success, checked)
  inside : lbaToZone p (placeAppend p ftl cmd).slba < p.zpp.nrZones

def dataLoop (p : Params) (ftl : ZmsFtl) (req : Request) (cmd : RwCommand) (index : Nat) (checked : ZmsFtl) : Exec WriteProgress :=
  writeLoop p index (lbaToZone p cmd.slba) (lastLpn (placeAppend p ftl cmd))
    (lastLpn (placeAppend p ftl cmd) + 1 - firstLpn (placeAppend p ftl cmd)) (firstLpn (placeAppend p ftl cmd))
    ⟨checked, req.nsecsStart, req.nsecsStart⟩

def dataPages (p : Params) (ftl : ZmsFtl) (cmd : RwCommand) : Nat :=
  lastLpn (placeAppend p ftl cmd) + 1 - firstLpn (placeAppend p ftl cmd)

-- The buffer that a write finds has room for its data and is not filled by it.
def FitsBuffer (p : Params) (ftl : ZmsFtl) (cmd : RwCommand) : Prop :=
  ∃ index, (zmsWbGet p ftl (firstLpn (placeAppend p ftl cmd))).1 = some index ∧
    (ftl.writeBuffer index).pgs + dataPages p ftl cmd ≤ wbLpns p ∧
    (ftl.writeBuffer index).flushData + pgsz * dataPages p ftl cmd < wbSize p

-- A write that handle_write_request turns away before any of its data is taken.
def TurnedAway (p : Params) (ftl : ZmsFtl) (cmd : RwCommand) : Prop :=
  anyFull ftl = true ∨ ¬Admits p ftl (placeAppend p ftl cmd).slba (nrLbasFromRwCmd cmd)

section Attempts

variable (p : Params) (ftl : ZmsFtl) (req : Request) (cmd : RwCommand)

theorem zoned_write_dispatched (outcome : WriteOutcome) (ran : zonedWrite p ftl req cmd = .ok outcome) :
    lbaToZone p cmd.slba < p.zpp.nrZones := by
  unfold zonedWrite at ran
  rw [lpn_zone_of_lba] at ran
  split at ran
  · cases ran
  · rename_i inside
    exact Nat.lt_of_not_le inside

theorem dispatched_write (inside : lbaToZone p cmd.slba < p.zpp.nrZones) : zonedWrite p ftl req cmd = handleWriteRequest p ftl req cmd := by
  unfold zonedWrite
  rw [lpn_zone_of_lba, if_neg (Nat.not_le_of_lt inside)]

theorem dropped_runs (inside : lbaToZone p cmd.slba < p.zpp.nrZones) (clear : anyFull ftl = false) (drop : partialDropped p ftl cmd) :
    zonedWrite p ftl req cmd =
      .ok (finishWrite (placeAppend p ftl cmd) ⟨arrived ftl req, req.nsecsStart, req.nsecsStart⟩ none .success) := by
  rw [dispatched_write p ftl req cmd inside]
  unfold handleWriteRequest
  dsimp only
  have noFull : ¬anyFull { ftl with currentTime := req.nsecsStart } = true := by
    change ¬anyFull ftl = true
    rw [clear]
    decide
  have dispatched : ¬(cmd.append = true ∧ p.zpp.nrZones ≤ lbaToZone p cmd.slba) := fun both => Nat.not_le_of_lt inside both.2
  rw [if_neg noFull, if_neg dispatched]
  have placed : placeAppend p { ftl with currentTime := req.nsecsStart, pendingForMigrating := false } cmd = placeAppend p ftl cmd := rfl
  rw [placed, place_append_length]
  exact if_pos drop

theorem kept_runs (inside : lbaToZone p cmd.slba < p.zpp.nrZones) (clear : anyFull ftl = false) (kept : ¬partialDropped p ftl cmd) :
    zonedWrite p ftl req cmd = writeToBuffer p req (placeAppend p ftl cmd) (lbaToZone p cmd.slba) (started p ftl req cmd) := by
  rw [dispatched_write p ftl req cmd inside]
  unfold handleWriteRequest
  dsimp only
  have noFull : ¬anyFull { ftl with currentTime := req.nsecsStart } = true := by
    change ¬anyFull ftl = true
    rw [clear]
    decide
  have dispatched : ¬(cmd.append = true ∧ p.zpp.nrZones ≤ lbaToZone p cmd.slba) := fun both => Nat.not_le_of_lt inside both.2
  rw [if_neg noFull, if_neg dispatched]
  have placed : placeAppend p { ftl with currentTime := req.nsecsStart, pendingForMigrating := false } cmd = placeAppend p ftl cmd := rfl
  unfold partialDropped at kept
  rw [placed, if_neg (by rw [place_append_length]; exact kept)]
  rfl

theorem accepted_goes_on (index : Nat) (checked : ZmsFtl) (inside : lbaToZone p cmd.slba < p.zpp.nrZones)
    (accepted : Accepted p ftl req cmd index checked) :
    zonedWrite p ftl req cmd = (do
      let progress ← dataLoop p ftl req cmd index checked
      pure (finishWrite (placeAppend p ftl cmd) progress (some index) (if anyFull progress.ftl then .capExceeded else .success))) := by
  obtain ⟨got, found, own, unlocked, check⟩ := accepted.check
  rw [kept_runs p ftl req cmd inside accepted.clear accepted.kept]
  unfold writeToBuffer
  dsimp only
  change zmsWbGet p (started p ftl req cmd) (lbaToLpn (placeAppend p ftl cmd).slba) = (some index, got) at found
  change zmsWbCheck p (got.writeBuffer index) (lbaToLpn (placeAppend p ftl cmd).slba) = true at own
  rw [found]
  dsimp only
  rw [own, if_neg (by decide), if_neg (by simp [lbas_whole_units])]
  have sameBusy : ((putBuffer got index { got.writeBuffer index with sqid := req.sqId }).writeBuffer index).busy = false := by
    simpa [putBuffer] using unlocked
  have lockedState : putBuffer (putBuffer got index { got.writeBuffer index with sqid := req.sqId }) index
      { (putBuffer got index { got.writeBuffer index with sqid := req.sqId }).writeBuffer index with busy := true }
      = lockBuffer got req index := by
    simp [putBuffer, lockBuffer]
  rw [buffer_allocate_unlocked _ index sameBusy, lockedState]
  dsimp only
  unfold writeBuffered
  dsimp only
  rw [if_neg (Nat.not_le_of_lt accepted.inside), place_append_length, check]
  dsimp only
  unfold dataLoop lastLpn firstLpn
  rw [place_append_length]

theorem accepted_runs (index : Nat) (checked : ZmsFtl) (progress : WriteProgress) (inside : lbaToZone p cmd.slba < p.zpp.nrZones)
    (accepted : Accepted p ftl req cmd index checked) (filled : dataLoop p ftl req cmd index checked = .ok progress) :
    zonedWrite p ftl req cmd =
      .ok (finishWrite (placeAppend p ftl cmd) progress (some index) (if anyFull progress.ftl then .capExceeded else .success)) := by
  rw [accepted_goes_on p ftl req cmd index checked inside accepted, filled]
  rfl

theorem write_run_accepted (outcome : WriteOutcome) (run : WriteRun p ftl req cmd outcome) :
    (∃ index checked progress, Accepted p ftl req cmd index checked ∧ dataLoop p ftl req cmd index checked = .ok progress ∧
      outcome = finishWrite (placeAppend p ftl cmd) progress (some index)
        (if anyFull progress.ftl then .capExceeded else .success)) ∨
    ∀ index checked, ¬Accepted p ftl req cmd index checked := by
  cases run with
  | refusedFull full =>
      right
      intro index checked accepted
      rw [accepted.clear] at full
      cases full
  | dropped clear drop => exact .inr fun index checked accepted => accepted.kept drop
  | waits clear kept got found =>
      right
      intro index checked accepted
      obtain ⟨other, foundOther, _⟩ := accepted.check
      rw [found] at foundOther
      cases foundOther
  | busy clear kept got index found locked after same =>
      right
      intro other checked accepted
      obtain ⟨state, foundOther, own, unlocked, _⟩ := accepted.check
      rw [found] at foundOther
      cases foundOther
      rw [locked] at unlocked
      cases unlocked
  | switches clear kept got index found other unlocked latest flushed flushing =>
      right
      intro another checked accepted
      obtain ⟨state, foundOther, own, _⟩ := accepted.check
      rw [found] at foundOther
      cases foundOther
      rw [other] at own
      cases own
  | rejected clear kept got index found own unlocked inside status checked refused check =>
      right
      intro another after accepted
      obtain ⟨state, foundOther, _, _, success⟩ := accepted.check
      rw [found] at foundOther
      cases foundOther
      rw [check] at success
      exact refused (Prod.mk.inj success).1
  | written clear kept got index found own unlocked inside checked check progress filled =>
      exact .inl ⟨index, checked, progress, ⟨clear, kept, ⟨got, found, own, unlocked, check⟩, inside⟩, filled, rfl⟩

end Attempts

section Checked

variable (p : Params) (ftl : ZmsFtl) (req : Request) (cmd : RwCommand)

theorem found_table (index : Option Nat) (got : ZmsFtl)
    (found : zmsWbGet p (started p ftl req cmd) (firstLpn (placeAppend p ftl cmd)) = (index, got)) : KeepsLocks ftl got := by
  have table := zms_wb_get_table p (started p ftl req cmd) (firstLpn (placeAppend p ftl cmd))
  rw [found] at table
  exact keeps_locks_trans _ _ _ (started_table p ftl req cmd) table

theorem locked_check_admits (accounted : Accounted p ftl) (got : ZmsFtl) (index slba : Nat) (table : SameTable ftl got)
    (inside : lbaToZone p slba < p.zpp.nrZones) :
    (znsWriteCheck p (lockBuffer got req index) slba (nrLbasFromRwCmd cmd)).1 = .success ↔ Admits p ftl slba (nrLbasFromRwCmd cmd) := by
  have booked := accounted_same p ftl (lockBuffer got req index) ⟨table.descs, table.infos⟩ accounted
  have descs : (lockBuffer got req index).zoneDescs = ftl.zoneDescs := table.descs
  rw [write_check_admits p _ slba (nrLbasFromRwCmd cmd) booked inside (Nat.succ_pos cmd.length)]
  constructor
  · intro admits
    exact ⟨descs ▸ admits.atWp, descs ▸ admits.room, descs ▸ admits.writable⟩
  · intro admits
    exact ⟨descs ▸ admits.atWp, descs ▸ admits.room, descs ▸ admits.writable⟩

theorem accepted_table (index : Nat) (checked : ZmsFtl) (accounted : Accounted p ftl) (accepted : Accepted p ftl req cmd index checked) :
    (placeAppend p ftl cmd).slba = (ftl.zoneDescs (lbaToZone p (placeAppend p ftl cmd).slba)).wp ∧
      (placeAppend p ftl cmd).slba + nrLbasFromRwCmd cmd ≤
        zoneToSlba p (lbaToZone p (placeAppend p ftl cmd).slba) + capacityLbas p ∧
      ∃ state, isOpened state = true ∧ checked.zoneDescs = Function.update ftl.zoneDescs (lbaToZone p (placeAppend p ftl cmd).slba)
        (writtenDesc (ftl.zoneDescs (lbaToZone p (placeAppend p ftl cmd).slba)) state (nrLbasFromRwCmd cmd)) := by
  obtain ⟨got, found, _, _, check⟩ := accepted.check
  have table := found_table p ftl req cmd (some index) got found
  have locked : SameTable ftl (lockBuffer got req index) := ⟨table.descs, table.infos⟩
  have booked := accounted_same p ftl _ locked accounted
  have inside := accepted.inside
  rcases zns_write_check_cases p _ _ _ _ checked booked inside check with ⟨failed, _⟩ | ⟨_, atWp, within, state, opened, descs, _⟩
  · exact absurd rfl failed
  · rw [locked.descs] at atWp descs
    exact ⟨atWp, within, state, opened, descs⟩

theorem accepted_admits (index : Nat) (checked : ZmsFtl) (accounted : Accounted p ftl) (accepted : Accepted p ftl req cmd index checked) :
    Admits p ftl (placeAppend p ftl cmd).slba (nrLbasFromRwCmd cmd) := by
  obtain ⟨got, found, _, _, check⟩ := accepted.check
  have table := found_table p ftl req cmd (some index) got found
  exact (locked_check_admits p ftl req cmd accounted got index _ table.toSameTable accepted.inside).mp (by rw [check])

theorem accepted_loop_table (index : Nat) (checked : ZmsFtl) (progress : WriteProgress) (status : NvmeStatus)
    (filled : dataLoop p ftl req cmd index checked = .ok progress) :
    SameTable checked (finishWrite (placeAppend p ftl cmd) progress (some index) status).ftl :=
  same_table_trans _ _ _ (write_loop_table p index _ _ _ _ _ progress filled).toSameTable
    (finish_write_table (placeAppend p ftl cmd) progress (some index) status)

theorem rejected_state (accounted : Accounted p ftl) (got : ZmsFtl) (index : Nat)
    (found : zmsWbGet p (started p ftl req cmd) (firstLpn (placeAppend p ftl cmd)) = (some index, got))
    (inside : lbaToZone p (placeAppend p ftl cmd).slba < p.zpp.nrZones) (status : NvmeStatus) (checked : ZmsFtl)
    (refused : status ≠ .success)
    (check : znsWriteCheck p (lockBuffer got req index) (placeAppend p ftl cmd).slba (nrLbasFromRwCmd cmd) = (status, checked)) :
    checked = lockBuffer got req index := by
  have table := found_table p ftl req cmd (some index) got found
  have booked := accounted_same p ftl (lockBuffer got req index) ⟨table.descs, table.infos⟩ accounted
  rcases zns_write_check_cases p _ _ _ status checked booked inside check with ⟨_, same⟩ | ⟨success, _⟩
  · exact same
  · exact absurd success refused

end Checked

section Held

-- A page is held when it is mapped or waits in a write buffer.
def Held (p : Params) (ftl : ZmsFtl) (lpn : Nat) : Prop :=
  mappedPpa (getMaptblEnt p ftl lpn) = true ∨ ∃ index, index < p.zpp.nrWb ∧ lpn ∈ (ftl.writeBuffer index).lpns

structure FailedWriteKeeps (p : Params) (before after : ZmsFtl) : Prop where
  descs : after.zoneDescs = before.zoneDescs
  infos : after.resInfos = before.resInfos
  held : ∀ lpn, Held p after lpn ↔ Held p before lpn

variable (p : Params)

theorem mapped_bare (ppa : Ppa) : mappedPpa (barePpa ppa) = mappedPpa ppa := by
  cases ppa <;> rfl

theorem media_mapped (before after : ZmsFtl) (media : mediaSide after = mediaSide before) (lpn : Nat) :
    mappedPpa (getMaptblEnt p after lpn) = mappedPpa (getMaptblEnt p before lpn) := by
  have entry := congrFun (congrArg MediaSide.maptbl media) lpn
  change barePpa (after.maptbl lpn) = barePpa (before.maptbl lpn) at entry
  unfold getMaptblEnt
  split
  · rw [← mapped_bare, entry, mapped_bare]
  · rfl

theorem held_same (before after : ZmsFtl) (media : mediaSide after = mediaSide before)
    (lpns : ∀ index, (after.writeBuffer index).lpns = (before.writeBuffer index).lpns) (lpn : Nat) :
    Held p after lpn ↔ Held p before lpn := by
  unfold Held
  rw [media_mapped p before after media]
  simp only [lpns]

-- What zms_wb_get leaves of a buffer: only the zone written on it may change.
def unlabelled (buffer : Buffer) : Buffer := { buffer with zid := none }

theorem put_buffer_lpns (ftl : ZmsFtl) (index : Nat) (buffer : Buffer) (same : buffer.lpns = (ftl.writeBuffer index).lpns) (other : Nat) :
    ((putBuffer ftl index buffer).writeBuffer other).lpns = (ftl.writeBuffer other).lpns := by
  unfold putBuffer
  dsimp only
  by_cases own : other = index
  · rw [own, Function.update_self]
    exact same
  · rw [Function.update_of_ne own]

theorem zms_wb_get_unlabelled (ftl : ZmsFtl) (slpn index : Nat) :
    unlabelled ((zmsWbGet p ftl slpn).2.writeBuffer index) = unlabelled (ftl.writeBuffer index) := by
  unfold zmsWbGet
  dsimp only
  split
  · rfl
  · split
    · rename_i idle _
      unfold putBuffer
      dsimp only
      by_cases own : index = idle
      · rw [own, Function.update_self]
        rfl
      · rw [Function.update_of_ne own]
    · rfl

theorem started_buffers (ftl : ZmsFtl) (req : Request) (cmd : RwCommand) : (started p ftl req cmd).writeBuffer = ftl.writeBuffer := by
  unfold started noteRequest notePartial
  dsimp only
  split <;> split <;> rfl

theorem found_again (ftl : ZmsFtl) (req : Request) (rw : RwCommand) (index : Option Nat) (got : ZmsFtl)
    (found : zmsWbGet p (started p ftl req rw) (firstLpn (placeAppend p ftl rw)) = (index, got)) :
    ∃ before, zmsWbGet p ftl (firstLpn (placeAppend p ftl rw)) = (index, before) ∧ before.writeBuffer = got.writeBuffer := by
  have same := zms_wb_get_same p ftl (started p ftl req rw) (firstLpn (placeAppend p ftl rw)) (started_buffers p ftl req rw)
  rw [found] at same
  refine ⟨(zmsWbGet p ftl (firstLpn (placeAppend p ftl rw))).2, ?_, same.2.symm⟩
  exact Prod.ext same.1.symm rfl

theorem found_unlabelled (ftl : ZmsFtl) (req : Request) (cmd : RwCommand) (index : Option Nat) (got : ZmsFtl)
    (found : zmsWbGet p (started p ftl req cmd) (firstLpn (placeAppend p ftl cmd)) = (index, got)) (other : Nat) :
    unlabelled (got.writeBuffer other) = unlabelled (ftl.writeBuffer other) := by
  have kept := zms_wb_get_unlabelled p (started p ftl req cmd) (firstLpn (placeAppend p ftl cmd)) other
  rw [found, started_buffers] at kept
  exact kept

theorem found_lpns (ftl : ZmsFtl) (req : Request) (cmd : RwCommand) (index : Option Nat) (got : ZmsFtl)
    (found : zmsWbGet p (started p ftl req cmd) (firstLpn (placeAppend p ftl cmd)) = (index, got)) (other : Nat) :
    (got.writeBuffer other).lpns = (ftl.writeBuffer other).lpns := by
  have kept := congrArg Buffer.lpns (found_unlabelled p ftl req cmd index got found other)
  exact kept

theorem found_media (ftl : ZmsFtl) (req : Request) (cmd : RwCommand) (index : Option Nat) (got : ZmsFtl)
    (found : zmsWbGet p (started p ftl req cmd) (firstLpn (placeAppend p ftl cmd)) = (index, got)) : mediaSide got = mediaSide ftl := by
  have media := zms_wb_get_media p (started p ftl req cmd) (firstLpn (placeAppend p ftl cmd))
  rw [found] at media
  exact media.trans (started_media p ftl req cmd)

end Held

section Failing

variable (p : Params) (ftl : ZmsFtl) (req : Request) (cmd : RwCommand) (accounted : Accounted p ftl)

include accounted in
theorem rejected_keeps (got : ZmsFtl) (index : Nat)
    (found : zmsWbGet p (started p ftl req cmd) (firstLpn (placeAppend p ftl cmd)) = (some index, got))
    (inside : lbaToZone p (placeAppend p ftl cmd).slba < p.zpp.nrZones) (status : NvmeStatus) (checked : ZmsFtl)
    (refused : status ≠ .success)
    (check : znsWriteCheck p (lockBuffer got req index) (placeAppend p ftl cmd).slba (nrLbasFromRwCmd cmd) = (status, checked)) :
    FailedWriteKeeps p ftl
      (finishWrite (placeAppend p ftl cmd) ⟨checked, req.nsecsStart, req.nsecsStart⟩ (some index) status).ftl := by
  have table := found_table p ftl req cmd (some index) got found
  rw [rejected_state p ftl req cmd accounted got index found inside status checked refused check]
  refine ⟨table.descs, table.infos, ?_⟩
  refine held_same p ftl _ (found_media p ftl req cmd (some index) got found) ?_
  intro other
  rw [← found_lpns p ftl req cmd (some index) got found other]
  exact put_buffer_lpns got index { got.writeBuffer index with sqid := req.sqId, busy := true } rfl other

include accounted in
-- The write check has moved the write pointer before any data is taken.
theorem accepted_moves (index : Nat) (checked : ZmsFtl) (progress : WriteProgress) (status : NvmeStatus)
    (accepted : Accepted p ftl req cmd index checked) (filled : dataLoop p ftl req cmd index checked = .ok progress) :
    ((finishWrite (placeAppend p ftl cmd) progress (some index) status).ftl.zoneDescs (lbaToZone p (placeAppend p ftl cmd).slba)).wp =
      (ftl.zoneDescs (lbaToZone p (placeAppend p ftl cmd).slba)).wp + nrLbasFromRwCmd cmd := by
  obtain ⟨_, _, state, _, descs⟩ := accepted_table p ftl req cmd index checked accounted accepted
  have table := accepted_loop_table p ftl req cmd index checked progress status filled
  rw [table.descs, descs, Function.update_self]
  rfl

include accounted in
theorem failed_write_cases (outcome : WriteOutcome) (done : Completion) (run : WriteRun p ftl req cmd outcome)
    (finished : outcome.done = some done) (failed : done.status ≠ .success) :
    (TurnedAway p ftl cmd ∧ FailedWriteKeeps p ftl outcome.ftl) ∨
      (∃ index checked progress, Accepted p ftl req cmd index checked ∧ dataLoop p ftl req cmd index checked = .ok progress ∧
        anyFull progress.ftl = true ∧ outcome = finishWrite (placeAppend p ftl cmd) progress (some index) .capExceeded) := by
  cases run with
  | refusedFull full => exact .inl ⟨.inl full, rfl, rfl, fun lpn => Iff.rfl⟩
  | dropped clear drop =>
      have success : done.status = .success := by
        rw [← Option.some.inj finished]
      exact absurd success failed
  | waits clear kept got found => cases finished
  | busy clear kept got index found locked after same => cases finished
  | switches clear kept got index found other unlocked latest flushed flushing => cases finished
  | rejected clear kept got index found own unlocked inside status checked refused check =>
      have table := found_table p ftl req cmd (some index) got found
      refine .inl ⟨.inr fun admits => ?_, rejected_keeps p ftl req cmd accounted got index found inside status checked refused check⟩
      have passes := (locked_check_admits p ftl req cmd accounted got index _ table.toSameTable inside).mpr admits
      rw [check] at passes
      exact refused passes
  | written clear kept got index found own unlocked inside checked check progress filled =>
      cases full : anyFull progress.ftl with
      | true => exact .inr ⟨index, checked, progress, ⟨clear, kept, ⟨got, found, own, unlocked, check⟩, inside⟩, filled, full, rfl⟩
      | false =>
          have success : done.status = .success := by
            rw [← Option.some.inj finished, full]
            rfl
          exact absurd success failed

theorem data_finds_pages (medium : Medium p) (inRange : PagesInRange p) (allowed : ZmsFtl → Event → Prop)
    (reached : Reachable p allowed ftl) (inside : lbaToZone p cmd.slba < p.zpp.nrZones) (index : Nat) (checked : ZmsFtl)
    (progress : WriteProgress) (accepted : Accepted p ftl req cmd index checked)
    (filled : dataLoop p ftl req cmd index checked = .ok progress) : anyFull progress.ftl = false := by
  have ran := accepted_runs p ftl req cmd index checked progress inside accepted filled
  have roomy := reachable_roomy p medium inRange allowed ftl reached
  have after := zoned_write_kept p (Roomy p) (roomy_rules p medium inRange) ftl req cmd _ roomy ran
  exact after.clear

end Failing

section Buffered

variable (p : Params)

theorem media_any_full (before after : ZmsFtl) (media : mediaSide after = mediaSide before) : anyFull after = anyFull before :=
  any_full_flags before after (Prod.ext (congrArg MediaSide.deviceFull media) (congrArg MediaSide.pslcFull media))

theorem write_step_buffered (index zid lpn pgs : Nat) (progress : WriteProgress)
    (unfilled : (progress.ftl.writeBuffer index).flushData + pgsz * pgs ≠ wbSize p) :
    ∃ next, writeStep p index zid lpn pgs progress = .ok next ∧ anyFull next.ftl = anyFull progress.ftl := by
  unfold writeStep
  dsimp only
  rw [if_neg (by simpa [fillBuffer, putBuffer] using unfilled)]
  exact ⟨_, rfl, rfl⟩

theorem write_loop_done (index zid elpn fuel lpn : Nat) (progress : WriteProgress) (past : elpn < lpn) :
    writeLoop p index zid elpn fuel lpn progress = .ok progress := by
  cases fuel with
  | zero => exact if_pos past
  | succ fuel => exact if_pos past

theorem write_loop_buffered (index zid elpn lpn : Nat) (progress : WriteProgress) (clear : anyFull progress.ftl = false)
    (room : (progress.ftl.writeBuffer index).pgs + (elpn + 1 - lpn) ≤ wbLpns p)
    (spare : (progress.ftl.writeBuffer index).flushData + pgsz * (elpn + 1 - lpn) < wbSize p) :
    ∃ next, writeLoop p index zid elpn (elpn + 1 - lpn) lpn progress = .ok next ∧ anyFull next.ftl = false := by
  by_cases past : elpn < lpn
  · exact ⟨progress, write_loop_done p index zid elpn _ lpn progress past, clear⟩
  · obtain ⟨pages, count⟩ : ∃ pages, elpn + 1 - lpn = pages + 1 := ⟨elpn - lpn, by omega⟩
    rw [count] at room spare ⊢
    have whole : min (elpn - lpn + 1) (wbLpns p - (progress.ftl.writeBuffer index).pgs) = pages + 1 := by omega
    obtain ⟨next, stepped, same⟩ := write_step_buffered p index zid lpn (pages + 1) progress (by omega)
    refine ⟨next, ?_, same.trans clear⟩
    rw [writeLoop, if_neg past]
    dsimp only
    rw [whole, if_neg (Nat.succ_ne_zero pages), stepped]
    change (if anyFull next.ftl then Except.ok next else writeLoop p index zid elpn pages (lpn + (pages + 1)) next) = _
    rw [same, clear]
    exact write_loop_done p index zid elpn pages _ next (by omega)

theorem accepted_buffered (ftl : ZmsFtl) (req : Request) (cmd : RwCommand) (index : Nat) (checked : ZmsFtl)
    (accepted : Accepted p ftl req cmd index checked) (fits : FitsBuffer p ftl cmd) :
    ∃ progress, dataLoop p ftl req cmd index checked = .ok progress ∧ anyFull progress.ftl = false := by
  obtain ⟨got, found, _, _, check⟩ := accepted.check
  obtain ⟨other, before, room, spare⟩ := fits
  have same := (zms_wb_get_same p ftl (started p ftl req cmd) (firstLpn (placeAppend p ftl cmd)) (started_buffers p ftl req cmd)).1
  rw [before, found] at same
  rw [← Option.some.inj same] at room spare
  have only := zns_write_check_only p (lockBuffer got req index) (placeAppend p ftl cmd).slba (nrLbasFromRwCmd cmd)
  rw [check] at only
  obtain ⟨descs, infos, same⟩ := only
  dsimp only at same
  have kept := found_unlabelled p ftl req cmd (some index) got found index
  have buffer : unlabelled (checked.writeBuffer index) = { unlabelled (ftl.writeBuffer index) with sqid := req.sqId, busy := true } := by
    rw [same, ← kept]
    simp [lockBuffer, putBuffer, unlabelled]
  have lpns : (checked.writeBuffer index).lpns = (ftl.writeBuffer index).lpns := by
    have parts := congrArg Buffer.lpns buffer
    exact parts
  have data : (checked.writeBuffer index).flushData = (ftl.writeBuffer index).flushData := by
    have parts := congrArg Buffer.flushData buffer
    exact parts
  have clear : anyFull checked = false := by
    rw [same]
    change anyFull got = false
    rw [media_any_full ftl got (found_media p ftl req cmd (some index) got found)]
    exact accepted.clear
  refine write_loop_buffered p index _ _ _ ⟨checked, req.nsecsStart, req.nsecsStart⟩ clear ?_ ?_
  · change (checked.writeBuffer index).pgs + dataPages p ftl cmd ≤ wbLpns p
    unfold Buffer.pgs
    rw [lpns]
    exact room
  · change (checked.writeBuffer index).flushData + pgsz * dataPages p ftl cmd < wbSize p
    rw [data]
    exact spare

end Buffered

-- A write that fails keeps descriptors, counters and held pages exactly when it
-- is turned away before its data. The others have filled their buffer, which
-- with one line group is never the end of them.
theorem failed_write_keeps_iff (p : Params) (ftl : ZmsFtl) (reached : Reachable p (fun _ _ => True) ftl) (req : Request) (cmd : RwCommand)
    (outcome : WriteOutcome) (done : Completion) (ran : zonedWrite p ftl req cmd = .ok outcome) (finished : outcome.done = some done)
    (failed : done.status ≠ .success) :
    (FailedWriteKeeps p ftl outcome.ftl ↔ TurnedAway p ftl cmd) ∧
      (FitsBuffer p ftl cmd → TurnedAway p ftl cmd) ∧
      ∀ config loc, p = dualParams config loc → (ssdInitParams config).lineGroups = 1 → TurnedAway p ftl cmd := by
  have accounted := reachable_accounted p _ ftl reached
  have inside := zoned_write_dispatched p ftl req cmd outcome ran
  rcases failed_write_cases p ftl req cmd accounted outcome done (zoned_write_run p ftl req cmd outcome ran) finished failed with
    ⟨away, keeps⟩ | ⟨index, checked, progress, accepted, filled, full, same⟩
  · exact ⟨⟨fun _ => away, fun _ => keeps⟩, fun _ => away, fun _ _ _ _ => away⟩
  · have admits := accepted_admits p ftl req cmd index checked accounted accepted
    refine ⟨⟨fun keeps => ?_, fun away => ?_⟩, fun fits => ?_, fun config loc dual single => ?_⟩
    · have moved := accepted_moves p ftl req cmd accounted index checked progress .capExceeded accepted filled
      rw [← same, keeps.descs] at moved
      have written : 0 < nrLbasFromRwCmd cmd := Nat.succ_pos _
      omega
    · rcases away with up | refused
      · rw [accepted.clear] at up
        cases up
      · exact absurd admits refused
    · obtain ⟨other, buffered, clear⟩ := accepted_buffered p ftl req cmd index checked accepted fits
      rw [filled] at buffered
      rw [Except.ok.inj buffered, clear] at full
      cases full
    · subst dual
      have clear := data_finds_pages _ ftl req cmd (dual_medium config loc) (single_group_in_range config loc single) _ reached inside
        index checked progress accepted filled
      rw [clear] at full
      cases full

def endsFailed (p : Params) (ftl : ZmsFtl) (req : Request) (cmd : RwCommand) : Bool :=
  match zonedWrite p ftl req cmd with
  | .ok outcome => outcome.done.any fun done => decide (done.status ≠ .success)
  | .error _ => false

theorem ends_failed_runs (p : Params) (ftl : ZmsFtl) (req : Request) (cmd : RwCommand) (ends : endsFailed p ftl req cmd = true) :
    ∃ outcome done, zonedWrite p ftl req cmd = .ok outcome ∧ outcome.done = some done ∧ done.status ≠ .success := by
  unfold endsFailed at ends
  split at ends
  · rename_i outcome ran
    rw [Option.any_eq_true] at ends
    obtain ⟨done, finished, failed⟩ := ends
    exact ⟨outcome, done, ran, finished, of_decide_eq_true failed⟩
  · cases ends

-- A write behind the write pointer of an empty zone is refused.
theorem failed_write_keeps_sample :
    ∃ outcome, zonedWrite (dualParams sampleConfig .pslc) (zmsRealizeFtl (dualParams sampleConfig .pslc) fun _ => 0) ⟨0, 0⟩
        ⟨false, 8, 7, false⟩ = .ok outcome ∧
      FailedWriteKeeps (dualParams sampleConfig .pslc) (zmsRealizeFtl (dualParams sampleConfig .pslc) fun _ => 0) outcome.ftl := by
  obtain ⟨outcome, done, ran, finished, failed⟩ := ends_failed_runs (dualParams sampleConfig .pslc)
    (zmsRealizeFtl (dualParams sampleConfig .pslc) fun _ => 0) ⟨0, 0⟩ ⟨false, 8, 7, false⟩ (by decide +kernel)
  obtain ⟨keeps, _, away⟩ := failed_write_keeps_iff _ _ (.start _ ⟨fun _ => 0, rfl⟩) _ _ outcome done ran finished failed
  exact ⟨outcome, ran, keeps.mpr (away sampleConfig .pslc rfl (by decide))⟩

def twoGroupConfig : DualConfig :=
  { sampleConfig with diesPerZone := 1, diesPositive := Nat.one_pos, diesWhole := by decide, groupsWhole := by decide,
                      zoneFits := by decide }

-- Seven of the eight SLC zones are full; the last write reaches the last line.
def sevenZones : List Event := (List.range 7).flatMap fun zid => [writeEvent (16 * zid) 16, .release 0]

theorem capacity_failure_moves_zone :
    ¬∀ config loc ftl req cmd outcome done, Reachable (dualParams config loc) (fun _ _ => True) ftl →
        zonedWrite (dualParams config loc) ftl req cmd = .ok outcome → outcome.done = some done → done.status ≠ .success →
        FailedWriteKeeps (dualParams config loc) ftl outcome.ftl := by
  intro claim
  obtain ⟨ftl, reached, checked⟩ := run_events_check (dualParams twoGroupConfig .pslc) (fun _ _ => True) sevenZones (fun _ => 0)
    (fun ftl => endsFailed (dualParams twoGroupConfig .pslc) ftl ⟨0, 0⟩ ⟨false, 112, 15, false⟩ &&
      match zonedWrite (dualParams twoGroupConfig .pslc) ftl ⟨0, 0⟩ ⟨false, 112, 15, false⟩ with
      | .ok outcome => decide ((outcome.ftl.zoneDescs 7).wp ≠ (ftl.zoneDescs 7).wp)
      | .error _ => false) (fun _ _ _ => trivial) (by decide +kernel)
  rw [Bool.and_eq_true] at checked
  obtain ⟨outcome, done, ran, finished, failed⟩ := ends_failed_runs _ ftl _ _ checked.1
  have keeps := claim twoGroupConfig .pslc ftl _ _ outcome done reached ran finished failed
  have moved := checked.2
  rw [ran] at moved
  exact of_decide_eq_true moved (by rw [keeps.descs])

end ConZone
