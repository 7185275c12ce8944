import ConZone.Command
import ConZone.Frame

set_option autoImplicit false

namespace ConZone

def arrived (ftl : ZmsFtl) (req : Request) : ZmsFtl :=
  { ftl with currentTime := req.nsecsStart, pendingForMigrating := false }

def started (p : Params) (ftl : ZmsFtl) (req : Request) (cmd : RwCommand) : ZmsFtl :=
  let placed := placeAppend p ftl cmd
  noteRequest (notePartial (arrived ftl req) placed) placed.slba (nrLbasFromRwCmd placed) req.nsecsStart

-- The state of the write check: the buffer is this command's and is locked.
def lockBuffer (ftl : ZmsFtl) (req : Request) (index : Nat) : ZmsFtl :=
  putBuffer ftl index { ftl.writeBuffer index with sqid := req.sqId, busy := true }

def firstLpn (cmd : RwCommand) : Nat := lbaToLpn cmd.slba
def lastLpn (cmd : RwCommand) : Nat := lbaToLpn (u64 (cmd.slba + nrLbasFromRwCmd cmd - 1))

def partialDropped (p : Params) (ftl : ZmsFtl) (cmd : RwCommand) : Prop :=
  nrLbasFromRwCmd cmd < secsPerPg ∧ ftl.nopgLastLpn = firstLpn (placeAppend p ftl cmd)

instance (p : Params) (ftl : ZmsFtl) (cmd : RwCommand) : Decidable (partialDropped p ftl cmd) :=
  inferInstanceAs (Decidable (_ ∧ _))

inductive WriteRun (p : Params) (ftl : ZmsFtl) (req : Request) (cmd : RwCommand) : WriteOutcome → Prop where
  | refusedFull (full : anyFull ftl = true) :
      WriteRun p ftl req cmd
        (finishWrite cmd ⟨{ ftl with currentTime := req.nsecsStart }, req.nsecsStart, req.nsecsStart⟩ none .capExceeded)
  | dropped (clear : anyFull ftl = false) (drop : partialDropped p ftl cmd) :
      WriteRun p ftl req cmd
        (finishWrite (placeAppend p ftl cmd) ⟨arrived ftl req, req.nsecsStart, req.nsecsStart⟩ none .success)
  | waits (clear : anyFull ftl = false) (kept : ¬partialDropped p ftl cmd) (got : ZmsFtl)
      (found : zmsWbGet p (started p ftl req cmd) (firstLpn (placeAppend p ftl cmd)) = (none, got)) :
      WriteRun p ftl req cmd ⟨got, placeAppend p ftl cmd, none⟩
  | busy (clear : anyFull ftl = false) (kept : ¬partialDropped p ftl cmd) (got : ZmsFtl) (index : Nat)
      (found : zmsWbGet p (started p ftl req cmd) (firstLpn (placeAppend p ftl cmd)) = (some index, got))
      (locked : (got.writeBuffer index).busy = true) (after : ZmsFtl)
      (same : after = got ∨ after = putBuffer got index { got.writeBuffer index with sqid := req.sqId }) :
      WriteRun p ftl req cmd ⟨after, placeAppend p ftl cmd, none⟩
  | switches (clear : anyFull ftl = false) (kept : ¬partialDropped p ftl cmd) (got : ZmsFtl) (index : Nat)
      (found : zmsWbGet p (started p ftl req cmd) (firstLpn (placeAppend p ftl cmd)) = (some index, got))
      (other : zmsWbCheck p (got.writeBuffer index) (firstLpn (placeAppend p ftl cmd)) = false)
      (unlocked : (got.writeBuffer index).busy = false) (latest : Nat) (flushed : ZmsFtl)
      (flushing : bufferFlush p (putBuffer got index { got.writeBuffer index with busy := true }) index req.nsecsStart
        = .ok (latest, flushed)) :
      WriteRun p ftl req cmd ⟨scheduleInternalOperation flushed latest index, placeAppend p ftl cmd, none⟩
  | rejected (clear : anyFull ftl = false) (kept : ¬partialDropped p ftl cmd) (got : ZmsFtl) (index : Nat)
      (found : zmsWbGet p (started p ftl req cmd) (firstLpn (placeAppend p ftl cmd)) = (some index, got))
      (own : zmsWbCheck p (got.writeBuffer index) (firstLpn (placeAppend p ftl cmd)) = true)
      (unlocked : (got.writeBuffer index).busy = false)
      (inside : lbaToZone p (placeAppend p ftl cmd).slba < p.zpp.nrZones) (status : NvmeStatus) (checked : ZmsFtl)
      (refused : status ≠ .success)
      (check : znsWriteCheck p (lockBuffer got req index) (placeAppend p ftl cmd).slba (nrLbasFromRwCmd cmd) = (status, checked)) :
      WriteRun p ftl req cmd
        (finishWrite (placeAppend p ftl cmd) ⟨checked, req.nsecsStart, req.nsecsStart⟩ (some index) status)
  | written (clear : anyFull ftl = false) (kept : ¬partialDropped p ftl cmd) (got : ZmsFtl) (index : Nat)
      (found : zmsWbGet p (started p ftl req cmd) (firstLpn (placeAppend p ftl cmd)) = (some index, got))
      (own : zmsWbCheck p (got.writeBuffer index) (firstLpn (placeAppend p ftl cmd)) = true)
      (unlocked : (got.writeBuffer index).busy = false)
      (inside : lbaToZone p (placeAppend p ftl cmd).slba < p.zpp.nrZones) (checked : ZmsFtl)
      (check : znsWriteCheck p (lockBuffer got req index) (placeAppend p ftl cmd).slba (nrLbasFromRwCmd cmd) = (.success, checked))
      (progress : WriteProgress)
      (filled : writeLoop p index (lbaToZone p cmd.slba) (lastLpn (placeAppend p ftl cmd))
        (lastLpn (placeAppend p ftl cmd) + 1 - firstLpn (placeAppend p ftl cmd)) (firstLpn (placeAppend p ftl cmd))
        ⟨checked, req.nsecsStart, req.nsecsStart⟩ = .ok progress) :
      WriteRun p ftl req cmd
        (finishWrite (placeAppend p ftl cmd) progress (some index) (if anyFull progress.ftl then .capExceeded else .success))

theorem place_append_length (p : Params) (ftl : ZmsFtl) (cmd : RwCommand) :
    nrLbasFromRwCmd (placeAppend p ftl cmd) = nrLbasFromRwCmd cmd := by
  unfold placeAppend
  split
  · rfl
  · rfl

theorem lbas_whole_units (cmd : RwCommand) : nrLbasFromRwCmd cmd * secsz % writeUnitSize = 0 :=
  Nat.mul_mod_left _ _

theorem buffer_allocate_locked (ftl : ZmsFtl) (index : Nat) (locked : (ftl.writeBuffer index).busy = true) :
    bufferAllocate ftl index = none := by
  simp [bufferAllocate, locked]

theorem buffer_allocate_unlocked (ftl : ZmsFtl) (index : Nat) (unlocked : (ftl.writeBuffer index).busy = false) :
    bufferAllocate ftl index = some (putBuffer ftl index { ftl.writeBuffer index with busy := true }) := by
  simp [bufferAllocate, unlocked]

theorem write_buffered_run (p : Params) (ftl : ZmsFtl) (req : Request) (cmd : RwCommand) (outcome : WriteOutcome)
    (clear : anyFull ftl = false) (kept : ¬partialDropped p ftl cmd) (got : ZmsFtl) (index : Nat)
    (found : zmsWbGet p (started p ftl req cmd) (firstLpn (placeAppend p ftl cmd)) = (some index, got))
    (own : zmsWbCheck p (got.writeBuffer index) (firstLpn (placeAppend p ftl cmd)) = true)
    (unlocked : (got.writeBuffer index).busy = false)
    (ran : writeBuffered p req (placeAppend p ftl cmd) (lbaToZone p cmd.slba) index (lockBuffer got req index) = .ok outcome) :
    WriteRun p ftl req cmd outcome := by
  unfold writeBuffered at ran
  dsimp only at ran
  split at ran
  · cases ran
  · rename_i bound
    rw [place_append_length] at ran
    split at ran
    · rename_i checked check
      obtain ⟨progress, filled, rest⟩ := bind_ok _ _ _ ran
      rw [← pure_ok _ _ rest]
      refine .written clear kept got index found own unlocked (Nat.lt_of_not_le bound) checked check progress ?_
      unfold lastLpn firstLpn
      rw [place_append_length]
      exact filled
    · rename_i status checked refused check
      rw [← Except.ok.inj ran]
      exact .rejected clear kept got index found own unlocked (Nat.lt_of_not_le bound) status checked
        refused check

theorem handle_write_request_run (p : Params) (ftl : ZmsFtl) (req : Request) (cmd : RwCommand) (outcome : WriteOutcome)
    (ran : handleWriteRequest p ftl req cmd = .ok outcome) : WriteRun p ftl req cmd outcome := by
  unfold handleWriteRequest at ran
  dsimp only at ran
  split at ran
  · rename_i full
    rw [← Except.ok.inj ran]
    exact .refusedFull full
  · rename_i opened
    have clear : anyFull ftl = false := by
      cases up : anyFull ftl with
      | false => rfl
      | true => exact absurd up opened
    split at ran
    · cases ran
    · have placed : placeAppend p { ftl with currentTime := req.nsecsStart, pendingForMigrating := false } cmd = placeAppend p ftl cmd := rfl
      rw [placed] at ran
      split at ran
      · rename_i drop
        rw [← Except.ok.inj ran]
        rw [place_append_length] at drop
        exact .dropped clear drop
      · rename_i kept
        rw [place_append_length] at kept
        have state : noteRequest (notePartial (arrived ftl req) (placeAppend p ftl cmd)) (placeAppend p ftl cmd).slba
            (nrLbasFromRwCmd (placeAppend p ftl cmd)) req.nsecsStart = started p ftl req cmd := rfl
        change writeToBuffer p req (placeAppend p ftl cmd) (lbaToZone p cmd.slba) (started p ftl req cmd) = .ok outcome at ran
        unfold writeToBuffer at ran
        dsimp only at ran
        split at ran
        · rename_i got found
          rw [← Except.ok.inj ran]
          exact .waits clear kept got found
        · rename_i index got found
          split at ran
          · rename_i other
            rw [Bool.not_eq_true', ← firstLpn] at other
            unfold switchZone at ran
            cases locked : (got.writeBuffer index).busy with
            | true =>
                rw [buffer_allocate_locked got index locked] at ran
                rw [← Except.ok.inj ran]
                exact .busy clear kept got index found locked got (.inl rfl)
            | false =>
                rw [buffer_allocate_unlocked got index locked] at ran
                obtain ⟨⟨latest, flushed⟩, flushing, rest⟩ := bind_ok _ _ _ ran
                rw [← pure_ok _ _ rest]
                exact .switches clear kept got index found other locked latest flushed flushing
          · rename_i own
            rw [Bool.not_eq_true', Bool.not_eq_false, ← firstLpn] at own
            rw [if_neg (by simp [lbas_whole_units])] at ran
            have sameBusy : ((putBuffer got index { got.writeBuffer index with sqid := req.sqId }).writeBuffer index).busy
                = (got.writeBuffer index).busy := by
              simp [putBuffer]
            cases locked : (got.writeBuffer index).busy with
            | true =>
                rw [buffer_allocate_locked _ index (sameBusy.trans locked)] at ran
                rw [← Except.ok.inj ran]
                exact .busy clear kept got index found locked _ (.inr rfl)
            | false =>
                have lockedState : putBuffer (putBuffer got index { got.writeBuffer index with sqid := req.sqId }) index
                    { (putBuffer got index { got.writeBuffer index with sqid := req.sqId }).writeBuffer index with busy := true }
                    = lockBuffer got req index := by
                  simp [putBuffer, lockBuffer]
                rw [buffer_allocate_unlocked _ index (sameBusy.trans locked), lockedState] at ran
                exact write_buffered_run p ftl req cmd outcome clear kept got index found own locked ran

theorem zoned_write_run (p : Params) (ftl : ZmsFtl) (req : Request) (cmd : RwCommand) (outcome : WriteOutcome)
    (ran : zonedWrite p ftl req cmd = .ok outcome) : WriteRun p ftl req cmd outcome := by
  unfold zonedWrite at ran
  split at ran
  · cases ran
  · exact handle_write_request_run p ftl req cmd outcome ran

end ConZone
