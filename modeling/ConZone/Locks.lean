import ConZone.Contents

set_option autoImplicit false

namespace ConZone

structure Takes (before after : ZmsFtl) (taken : Option (Nat × Nat)) : Prop where
  unlocked : ∀ index time, taken = some (index, time) → (before.writeBuffer index).busy = false
  locks : ∀ other, (after.writeBuffer other).busy = true ↔
    (before.writeBuffer other).busy = true ∨ taken.map Prod.fst = some other
  scheduled : after.scheduled = before.scheduled ++ taken.toList

-- The work entries that running a command takes: one for the release of the
-- buffer it locks and one for its completion, unless it is to be tried again.
def entriesNeeded (p : Params) (ftl : ZmsFtl) (req : Request) : HostCommand → Nat
  | .write rw _ =>
      if anyFull ftl ∨ partialDropped p ftl rw then 1
      else
        match zmsWbGet p (started p ftl req rw) (firstLpn (placeAppend p ftl rw)) with
        | (none, _) => 0
        | (some index, got) =>
            if (got.writeBuffer index).busy then 0
            else if zmsWbCheck p (got.writeBuffer index) (firstLpn (placeAppend p ftl rw)) then 2
            else 1
  | .read _ _ | .flush | .mgmtSend _ => 1

section Handlers

variable (p : Params) (ftl : ZmsFtl) (req : Request)

theorem same_locks_takes (before after : ZmsFtl) (same : SameLocks before after) : Takes before after none := by
  refine ⟨?_, fun other => ?_, ?_⟩
  · intro index time taken
    cases taken
  · rw [same.locks other]
    simp
  · simpa using same.scheduled

theorem locked_takes (got middle : ZmsFtl) (index time : Nat) (owned : Buffer) (busy : owned.busy = true)
    (found : SameLocks ftl got) (unlocked : (got.writeBuffer index).busy = false)
    (worked : SameLocks (putBuffer got index owned) middle) :
    Takes ftl (scheduleInternalOperation middle time index) (some (index, time)) := by
  refine ⟨?_, ?_, ?_⟩
  · intro other moment taken
    cases taken
    exact (found.locks index).symm.trans unlocked
  · intro other
    have after : ((scheduleInternalOperation middle time index).writeBuffer other).busy = ((putBuffer got index owned).writeBuffer other).busy :=
      worked.locks other
    rw [after]
    by_cases same : other = index
    · simp [putBuffer, same, busy]
    · have apart : index ≠ other := fun reverse => same reverse.symm
      simp [putBuffer, Function.update_of_ne same, found.locks other, apart]
  · have after : middle.scheduled = ftl.scheduled := worked.scheduled.trans found.scheduled
    simp [scheduleInternalOperation, after]

theorem counted_takes (before after : ZmsFtl) (taken : Option (Nat × Nat)) (stats : Stats) (takes : Takes before after taken) :
    Takes before { after with stats := stats } taken := ⟨takes.unlocked, takes.locks, takes.scheduled⟩

theorem write_takes (rw : RwCommand) (data : DataPointer) (outcome : WriteOutcome) (run : WriteRun p ftl req rw outcome) :
    ∃ taken, Takes ftl outcome.ftl taken ∧
      entriesNeeded p ftl req (.write rw data) = taken.toList.length + (if outcome.done.isSome then 1 else 0) := by
  have finds := fun index got (found : zmsWbGet p (started p ftl req rw) (firstLpn (placeAppend p ftl rw)) = (index, got)) =>
    (found_table p ftl req rw index got found).toSameLocks
  cases run with
  | refusedFull full => exact ⟨none, same_locks_takes _ _ ⟨fun _ => rfl, rfl⟩, by simp [entriesNeeded, full, finishWrite]⟩
  | dropped clear drop => exact ⟨none, same_locks_takes _ _ ⟨fun _ => rfl, rfl⟩, by simp [entriesNeeded, drop, finishWrite]⟩
  | waits clear kept got found => exact ⟨none, same_locks_takes _ _ (finds none got found), by simp [entriesNeeded, clear, kept, found]⟩
  | busy clear kept got index found locked after same =>
      have quiet : SameLocks got after := by
        rcases same with same | same
        · rw [same]
          exact ⟨fun _ => rfl, rfl⟩
        · rw [same]
          exact (put_buffer_keeps_locks got index { got.writeBuffer index with sqid := req.sqId } rfl).toSameLocks
      refine ⟨none, same_locks_takes _ _ (same_locks_trans _ _ _ (finds (some index) got found) quiet), ?_⟩
      simp [entriesNeeded, clear, kept, found, locked]
  | switches clear kept got index found other unlocked latest flushed flushing =>
      have flush := (buffer_flush_table p _ flushed index _ latest flushing).toSameLocks
      refine ⟨some (index, latest), locked_takes ftl got flushed index latest _ rfl (finds (some index) got found) unlocked flush, ?_⟩
      simp [entriesNeeded, clear, kept, found, unlocked, other]
  | rejected clear kept got index found own unlocked inside status checked refused check =>
      have only := zns_write_check_only p (lockBuffer got req index) (placeAppend p ftl rw).slba (nrLbasFromRwCmd rw)
      rw [check] at only
      have locked := locked_takes ftl got checked index req.nsecsStart _ rfl (finds (some index) got found) unlocked
        (only_table_locks _ _ only)
      exact ⟨some (index, req.nsecsStart), counted_takes _ _ _ _ locked, by simp [entriesNeeded, clear, kept, found, unlocked, own, finishWrite]⟩
  | written clear kept got index found own unlocked inside checked check progress filled =>
      have only := zns_write_check_only p (lockBuffer got req index) (placeAppend p ftl rw).slba (nrLbasFromRwCmd rw)
      rw [check] at only
      have loop := (write_loop_table p index _ _ _ _ _ progress filled).toSameLocks
      have locked := locked_takes ftl got progress.ftl index progress.latest _ rfl (finds (some index) got found) unlocked
        (same_locks_trans _ _ _ (only_table_locks _ _ only) loop)
      exact ⟨some (index, progress.latest), counted_takes _ _ _ _ locked, by simp [entriesNeeded, clear, kept, found, unlocked, own, finishWrite]⟩

theorem zmgmt_send_locks (next : ZmsFtl) (slba : Nat) (action : ZoneSendAction) (option : Bool) (status : NvmeStatus)
    (ran : zmgmtSend p ftl slba action option = .ok (status, next)) : SameLocks ftl next := by
  obtain ⟨_, ⟨_, only⟩ | ⟨_, reset⟩⟩ := zmgmt_send_runs p ftl next slba action option status ran
  · exact only_table_locks _ _ only
  · rcases reset_zone_runs p ftl next _ status reset with ⟨_, same⟩ | ⟨_, booked, only, _, clearing⟩
    · rw [same]
      exact ⟨fun _ => rfl, rfl⟩
    · exact same_locks_trans _ _ _ (only_table_locks _ _ only) (zone_reset_table p booked next _ clearing).toSameLocks

theorem attempt_takes (mapped : Nat) (storage : Storage) (cmd : HostCommand) (attempt : Attempt)
    (ran : procIoCmd p mapped ftl storage req cmd = .ok attempt) :
    ∃ taken, Takes ftl attempt.ftl taken ∧
      entriesNeeded p ftl req cmd = taken.toList.length + (if attempt.done.isSome then 1 else 0) := by
  cases cmd with
  | write rw data =>
      obtain ⟨outcome, written, same⟩ := attempt_write p mapped ftl storage req rw data attempt ran
      rw [same]
      exact write_takes p ftl req rw data outcome (zoned_write_run p ftl req rw outcome written)
  | read rw data =>
      obtain ⟨done, next, served, same⟩ := attempt_read p mapped ftl storage req rw data attempt ran
      rw [same]
      exact ⟨none, same_locks_takes _ _ (zoned_read_table p ftl next req rw done served).toSameLocks, rfl⟩
  | flush =>
      obtain ⟨done, next, served, same⟩ := attempt_flush p mapped ftl storage req attempt ran
      rw [same]
      exact ⟨none, same_locks_takes _ _ (zns_flush_table p ftl next req done served).toSameLocks, rfl⟩
  | mgmtSend cmd =>
      obtain ⟨status, next, cleared, served, same⟩ := attempt_mgmt p mapped ftl storage req cmd attempt ran
      rw [same]
      have locks := mgmt_stored_keeps p mapped cmd (SameLocks ftl)
        (fun first second slba status before acted => same_locks_trans _ _ _ before (zmgmt_send_locks p first second slba _ _ status acted))
        ftl next storage cleared status ⟨fun _ => rfl, rfl⟩ served
      exact ⟨none, same_locks_takes _ _ locks, rfl⟩

end Handlers

end ConZone
