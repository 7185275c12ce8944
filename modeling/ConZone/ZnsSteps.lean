import ConZone.Zns

set_option autoImplicit false

namespace ConZone.Zns

-- What the loops over the pages of a write leave alone: all but the releases
-- they schedule and the note of what has been programmed.
structure ZoneSide where
  zoneDescs : Nat → ZoneDescriptor
  resInfos : ResType → ZoneResourceInfo
  buffers : BufferRef → WriteBuffer
  asserted : Bool

def zoneSide (ftl : ZnsFtl) : ZoneSide := ⟨ftl.zoneDescs, ftl.resInfos, ftl.buffers, ftl.asserted⟩

section Programming

variable (c : ZnsParams)

theorem schedule_side (state : Programs) (ref : BufferRef) (bytes : Nat) :
    zoneSide (scheduleInternalOperation state ref bytes).ftl = zoneSide state.ftl := by
  unfold scheduleInternalOperation
  split <;> rfl

theorem program_pages_side (ref : BufferRef) (zid lpn pgs : Nat) (state : Programs) :
    zoneSide (programPages c ref zid lpn pgs state).ftl = zoneSide state.ftl := by
  unfold programPages
  split
  · exact schedule_side _ ref _
  · rfl

theorem program_loop_side (ref : BufferRef) (zid elpn fuel lpn : Nat) (state : Programs) :
    zoneSide (programLoop c ref zid elpn fuel lpn state).ftl = zoneSide state.ftl := by
  induction fuel generalizing lpn state with
  | zero => rfl
  | succ fuel ih =>
      unfold programLoop
      split
      · rfl
      · exact (ih _ _).trans (program_pages_side c ref zid lpn _ state)

theorem commit_loop_side (ref : BufferRef) (zid fuel lpn remaining : Nat) (state : Programs) :
    zoneSide (commitLoop c ref zid fuel lpn remaining state).ftl = zoneSide state.ftl := by
  induction fuel generalizing lpn remaining state with
  | zero => rfl
  | succ fuel ih =>
      unfold commitLoop
      split
      · rfl
      · refine (ih _ _ _).trans ?_
        split
        · exact schedule_side _ ref _
        · rfl

end Programming

section Taking

theorem put_buffer_idle (ftl : ZnsFtl) (ref : BufferRef) : putBuffer ftl ref (ftl.buffers ref) = ftl := by
  unfold putBuffer
  rw [Function.update_eq_self]

def takenFrom (ftl : ZnsFtl) (ref : BufferRef) (bytes : Nat) : ZnsFtl :=
  putBuffer ftl ref { ftl.buffers ref with remaining := (ftl.buffers ref).remaining - bytes }

theorem allocate_short (ftl : ZnsFtl) (ref : BufferRef) (size : Nat) (short : (ftl.buffers ref).remaining < size) :
    bufferAllocate ftl ref size = (0, ftl) := by
  unfold bufferAllocate
  dsimp only
  rw [if_pos short]
  exact Prod.ext rfl (put_buffer_idle ftl ref)

theorem allocate_room (ftl : ZnsFtl) (ref : BufferRef) (size : Nat) (room : size ≤ (ftl.buffers ref).remaining) :
    bufferAllocate ftl ref size = (u32 size, takenFrom ftl ref size) := by
  unfold bufferAllocate
  dsimp only
  rw [if_neg (by omega)]
  rfl

theorem command_bytes (cmd : RwCommand) :
    0 < nrLbasFromRwCmd cmd * secsz ∧ u32 (nrLbasFromRwCmd cmd * secsz) = nrLbasFromRwCmd cmd * secsz := by
  have short := cmd.lengthFits
  unfold nrLbasFromRwCmd secsz
  refine ⟨by omega, Nat.mod_eq_of_lt ?_⟩
  omega

variable (c : ZnsParams)

def writeZone (cmd : RwCommand) : Nat := lbaToZone c cmd.slba

def HasRoom (ftl : ZnsFtl) (cmd : RwCommand) : Prop :=
  nrLbasFromRwCmd cmd * secsz ≤ (ftl.buffers (writeBufferOf c (writeZone c cmd))).remaining

def afterTaking (ftl : ZnsFtl) (cmd : RwCommand) : ZnsFtl :=
  takenFrom ftl (writeBufferOf c (writeZone c cmd)) (nrLbasFromRwCmd cmd * secsz)

-- A write either finds its buffer too full and is left for later, or it has
-- taken its space before anything is checked.
theorem write_plain_cases (ftl : ZnsFtl) (req : Request) (cmd : RwCommand) (outcome : WriteOutcome)
    (ran : writePlain c ftl req cmd = .ok outcome) : writeZone c cmd < c.nrZones ∧
      ((¬HasRoom c ftl cmd ∧ outcome = ⟨ftl, placedSlba c ftl cmd, none⟩) ∨
        (HasRoom c ftl cmd ∧
          outcome = writeTaken c (afterTaking c ftl cmd) req (writeZone c cmd) (placedSlba c ftl cmd) (nrLbasFromRwCmd cmd))) := by
  obtain ⟨some, fits⟩ := command_bytes cmd
  unfold writePlain at ran
  dsimp only at ran
  rw [show lbaToZone c cmd.slba = writeZone c cmd from rfl] at ran
  split at ran
  · cases ran
  · rename_i inside
    refine ⟨Nat.lt_of_not_le inside, ?_⟩
    by_cases room : HasRoom c ftl cmd
    · rw [allocate_room ftl _ _ room] at ran
      dsimp only at ran
      rw [fits, if_neg (Nat.lt_irrefl _)] at ran
      cases ran
      exact .inr ⟨room, rfl⟩
    · rw [allocate_short ftl _ _ (Nat.lt_of_not_le room)] at ran
      dsimp only at ran
      rw [if_pos some] at ran
      cases ran
      exact .inl ⟨room, rfl⟩

end Taking

section Checking

variable (c : ZnsParams)

inductive Admission (ftl : ZnsFtl) (zid : Nat) : ZnsFtl → Prop where
  | opened (state : ConZone.ZoneState) (before : (ftl.zoneDescs zid).state = state)
      (open' : state = .openedImpl ∨ state = .openedExpl) : Admission ftl zid ftl
  | closed (before : (ftl.zoneDescs zid).state = .closed) (acquired : ZnsFtl)
      (taken : acquireZoneResource ftl .openZone = (true, acquired)) : Admission ftl zid (changeZoneState acquired zid .openedImpl)
  | empty (before : (ftl.zoneDescs zid).state = .empty) (acquired : ZnsFtl)
      (activeRoom : isZoneResourceFull ftl .activeZone = false) (openRoom : isZoneResourceFull ftl .openZone = false)
      (taken : acquireZoneResource (acquireZoneResource ftl .activeZone).2 .openZone = (true, acquired)) :
      Admission ftl zid (changeZoneState acquired zid .openedImpl)

theorem open_for_write_cases (ftl : ZnsFtl) (zid : Nat) :
    (∃ acquired, acquireZoneResource ftl .openZone = (true, acquired) ∧
      openForWrite ftl zid = (.success, changeZoneState acquired zid .openedImpl)) ∨
      (isZoneResourceAvail ftl .openZone = false ∧ openForWrite ftl zid = (.znsNoOpenZone, ftl)) := by
  by_cases room : isZoneResourceAvail ftl .openZone = true
  · refine .inl ⟨_, if_pos room, ?_⟩
    unfold openForWrite
    rw [show acquireZoneResource ftl .openZone = _ from if_pos room]
  · refine .inr ⟨by simpa using room, ?_⟩
    unfold openForWrite
    rw [show acquireZoneResource ftl .openZone = _ from if_neg room]

theorem check_write_admitted (ftl after : ZnsFtl) (zid slba nrLba : Nat) (checked : checkWrite c ftl zid slba nrLba = (.success, after)) :
    nrLba * secsz % c.writeUnitSize = 0 ∧ checkBoundaryError c slba nrLba = true ∧ slba = (ftl.zoneDescs zid).wp ∧ Admission ftl zid after := by
  unfold checkWrite at checked
  split at checked
  · cases checked
  · rename_i aligned
    split at checked
    · cases checked
    · rename_i boundary
      split at checked
      · cases checked
      · rename_i placed
        refine ⟨by simpa using aligned, by simpa using boundary, by simpa using placed, ?_⟩
        unfold admitWrite at checked
        cases before : (ftl.zoneDescs zid).state with
        | empty =>
            simp only [before] at checked
            split at checked
            · cases checked
            · split at checked
              · cases checked
              · rename_i activeRoom
                split at checked
                · cases checked
                · rename_i openRoom
                  rcases open_for_write_cases (acquireZoneResource ftl .activeZone).2 zid with ⟨acquired, taken, opened⟩ | ⟨_, refused⟩
                  · rw [opened] at checked
                    cases checked
                    exact .empty before acquired (by simpa using activeRoom) (by simpa using openRoom) taken
                  · rw [refused] at checked
                    cases checked
        | closed =>
            simp only [before] at checked
            rcases open_for_write_cases ftl zid with ⟨acquired, taken, opened⟩ | ⟨_, refused⟩
            · rw [opened] at checked
              cases checked
              exact .closed before acquired taken
            · rw [refused] at checked
              cases checked
        | openedImpl =>
            simp only [before] at checked
            cases checked
            exact .opened .openedImpl before (.inl rfl)
        | openedExpl =>
            simp only [before] at checked
            cases checked
            exact .opened .openedExpl before (.inr rfl)
        | full => simp [before] at checked
        | readOnly => simp [before] at checked
        | offline => simp [before] at checked

structure CountersOnly (before after : ZnsFtl) : Prop where
  zoneDescs : after.zoneDescs = before.zoneDescs
  buffers : after.buffers = before.buffers
  asserted : after.asserted = before.asserted
  scheduled : after.scheduled = before.scheduled
  covered : after.covered = before.covered

theorem counters_only_refl (ftl : ZnsFtl) : CountersOnly ftl ftl := ⟨rfl, rfl, rfl, rfl, rfl⟩

theorem counters_only_trans (first second third : ZnsFtl) (left : CountersOnly first second) (right : CountersOnly second third) :
    CountersOnly first third :=
  ⟨right.zoneDescs.trans left.zoneDescs, right.buffers.trans left.buffers, right.asserted.trans left.asserted,
    right.scheduled.trans left.scheduled, right.covered.trans left.covered⟩

theorem acquire_counters (ftl : ZnsFtl) (type : ResType) : CountersOnly ftl (acquireZoneResource ftl type).2 := by
  unfold acquireZoneResource
  split
  · exact ⟨rfl, rfl, rfl, rfl, rfl⟩
  · exact counters_only_refl ftl

theorem check_write_refused_cases (ftl after : ZnsFtl) (zid slba nrLba : Nat) (status : NvmeStatus) (refused : status ≠ .success)
    (checked : checkWrite c ftl zid slba nrLba = (status, after)) :
    after = ftl ∨ ((ftl.zoneDescs zid).state = .empty ∧ after = (acquireZoneResource ftl .activeZone).2 ∧
      isZoneResourceFull ftl .openZone = false ∧ isZoneResourceAvail after .openZone = false) := by
  have opening : ∀ middle, openForWrite middle zid = (status, after) → after = middle ∧ isZoneResourceAvail after .openZone = false := by
    intro middle opened
    rcases open_for_write_cases middle zid with ⟨_, _, granted⟩ | ⟨full, denied⟩
    · rw [granted] at opened
      exact absurd (congrArg Prod.fst opened).symm refused
    · rw [denied] at opened
      cases opened
      exact ⟨rfl, full⟩
  have refusal : ∀ other, (other, ftl) = (status, after) → after = ftl := fun other equal => (congrArg Prod.snd equal).symm
  unfold checkWrite at checked
  split at checked
  · exact .inl (refusal _ checked)
  · split at checked
    · exact .inl (refusal _ checked)
    · split at checked
      · exact .inl (refusal _ checked)
      · unfold admitWrite at checked
        cases state : (ftl.zoneDescs zid).state with
        | empty =>
            simp only [state] at checked
            split at checked
            · exact .inl (refusal _ checked)
            · split at checked
              · exact .inl (refusal _ checked)
              · split at checked
                · exact .inl (refusal _ checked)
                · rename_i openRoom
                  obtain ⟨same, full⟩ := opening _ checked
                  exact .inr ⟨rfl, same, by simpa using openRoom, full⟩
        | closed =>
            simp only [state] at checked
            exact .inl (opening _ checked).1
        | _ =>
            simp only [state] at checked
            exact .inl (refusal _ checked)

theorem check_write_refused (ftl after : ZnsFtl) (zid slba nrLba : Nat) (status : NvmeStatus) (refused : status ≠ .success)
    (checked : checkWrite c ftl zid slba nrLba = (status, after)) : CountersOnly ftl after := by
  rcases check_write_refused_cases c ftl after zid slba nrLba status refused checked with rfl | ⟨_, rfl, _, _⟩
  · exact counters_only_refl after
  · exact acquire_counters ftl .activeZone

def programWrite (ftl : ZnsFtl) (req : Request) (zid slba nrLba : Nat) : Programs :=
  programLoop c (writeBufferOf c zid) zid (lbaToLpn (u64 (slba + nrLba - 1)))
    (lbaToLpn (u64 (slba + nrLba - 1)) + 1 - lbaToLpn slba) (lbaToLpn slba) ⟨ftl, req.freeEntries⟩

theorem write_taken_cases (ftl : ZnsFtl) (req : Request) (zid slba nrLba : Nat) :
    (∃ after, checkWrite c ftl zid slba nrLba = (.success, after) ∧
      writeTaken c ftl req zid slba nrLba =
        ⟨(programWrite c (increaseWritePtr c after zid nrLba) req zid slba nrLba).ftl, slba, some .success⟩) ∨
      ∃ status after, status ≠ .success ∧ checkWrite c ftl zid slba nrLba = (status, after) ∧
        writeTaken c ftl req zid slba nrLba = ⟨after, slba, some status⟩ := by
  unfold writeTaken
  cases checked : checkWrite c ftl zid slba nrLba with
  | mk status after =>
      by_cases accepted : status = .success
      · subst accepted
        exact .inl ⟨after, rfl, rfl⟩
      · refine .inr ⟨status, after, accepted, rfl, ?_⟩
        cases status with
        | success => exact absurd rfl accepted
        | _ => rfl

end Checking

section Managing

variable (c : ZnsParams)

def sentAction (ftl : ZnsFtl) (slba : Nat) (action : ZoneSendAction) (option : Bool) : ZnsFtl :=
  match action with
  | .closeZone => (zmgmtSendCloseZone ftl (lbaToZone c slba)).2
  | .finishZone => (zmgmtSendFinishZone ftl (lbaToZone c slba)).2
  | .openZone => (zmgmtSendOpenZone ftl (lbaToZone c slba) option).2
  | .resetZone => (zmgmtSendResetZone c ftl (lbaToZone c slba)).2
  | .offlineZone => (zmgmtSendOfflineZone ftl (lbaToZone c slba)).2
  | .flushExplZrwa => (zmgmtSendFlushExplicitZrwa c ftl slba).2

theorem zmgmt_send_ran (ftl next : ZnsFtl) (slba : Nat) (action : ZoneSendAction) (option : Bool) (status : NvmeStatus)
    (ran : zmgmtSend c ftl slba action option = .ok (status, next)) :
    lbaToZone c slba < c.nrZones ∧ next = sentAction c ftl slba action option := by
  unfold zmgmtSend at ran
  dsimp only at ran
  split at ran
  · cases ran
  · rename_i inside
    refine ⟨Nat.lt_of_not_le inside, ?_⟩
    cases action with
    | _ => exact (congrArg Prod.snd (Except.ok.inj ran)).symm

variable (holds : ZnsFtl → Prop)

theorem zmgmt_send_all_keeps (cmd : ZoneMgmtSend) (zids : List Nat)
    (each : ∀ ftl slba status next, holds ftl → zmgmtSend c ftl slba cmd.zsa cmd.zsaso = .ok (status, next) → holds next)
    (ftl next : ZnsFtl) (held : holds ftl) (ran : zmgmtSendAll c cmd zids ftl = .ok next) : holds next := by
  induction zids generalizing ftl with
  | nil =>
      cases ran
      exact held
  | cons zid rest ih =>
      obtain ⟨⟨status, middle⟩, sent, onward⟩ := bind_ok _ _ _ ran
      exact ih middle (each ftl _ status middle held sent) onward

theorem zns_zmgmt_send_keeps (cmd : ZoneMgmtSend)
    (each : ∀ ftl slba status next, holds ftl → zmgmtSend c ftl slba cmd.zsa cmd.zsaso = .ok (status, next) → holds next)
    (ftl next : ZnsFtl) (status : NvmeStatus) (held : holds ftl) (ran : znsZmgmtSend c ftl cmd = .ok (status, next)) : holds next := by
  unfold znsZmgmtSend at ran
  split at ran
  · obtain ⟨last, sent, done⟩ := bind_ok _ _ _ ran
    cases done
    exact zmgmt_send_all_keeps c holds cmd _ each ftl _ held sent
  · exact each ftl cmd.slba status next held ran

end Managing

section Running

variable (c : ZnsParams)

def stepEvent (ftl : ZnsFtl) : Event → Option ZnsFtl
  | .write req cmd => match znsWrite c ftl req cmd with
      | .ok outcome => some outcome.ftl
      | .error _ => none
  | .mgmtSend cmd => match znsZmgmtSend c ftl cmd with
      | .ok (_, next) => some next
      | .error _ => none
  | .release place => match ftl.scheduled[place]? with
      | some (ref, bytes) => some (bufferRelease { ftl with scheduled := ftl.scheduled.eraseIdx place } ref bytes)
      | none => none

def runEvents (permits : ZnsFtl → Event → Bool) : List Event → ZnsFtl → Option ZnsFtl
  | [], ftl => some ftl
  | event :: rest, ftl => if permits ftl event then (stepEvent c ftl event).bind (runEvents permits rest) else none

theorem step_event_step (ftl next : ZnsFtl) (event : Event) (stepped : stepEvent c ftl event = some next) : Step c ftl event next := by
  unfold stepEvent at stepped
  split at stepped
  · split at stepped
    · rename_i outcome ran
      rw [← Option.some.inj stepped]
      exact .write _ _ outcome ran
    · cases stepped
  · split at stepped
    · rename_i status after ran
      rw [← Option.some.inj stepped]
      exact .mgmtSend _ status after ran
    · cases stepped
  · split at stepped
    · rename_i ref bytes due
      rw [← Option.some.inj stepped]
      exact .release _ ref bytes due
    · cases stepped

theorem run_events_reach (allowed : ZnsFtl → Event → Prop) (permits : ZnsFtl → Event → Bool)
    (sound : ∀ ftl event, permits ftl event = true → allowed ftl event) (events : List Event) (ftl last : ZnsFtl)
    (reached : Reachable c allowed ftl) (ran : runEvents c permits events ftl = some last) : Reachable c allowed last := by
  induction events generalizing ftl with
  | nil =>
      rw [← Option.some.inj ran]
      exact reached
  | cons event rest ih =>
      unfold runEvents at ran
      split at ran
      · rename_i permitted
        obtain ⟨next, stepped, onward⟩ := Option.bind_eq_some_iff.mp ran
        exact ih next (.next ftl next event reached (sound ftl event permitted) (step_event_step c ftl next event stepped)) onward
      · cases ran

theorem run_events_check (allowed : ZnsFtl → Event → Prop) (permits : ZnsFtl → Event → Bool)
    (sound : ∀ ftl event, permits ftl event = true → allowed ftl event) (events : List Event) (check : ZnsFtl → Bool)
    (ran : (runEvents c permits events (znsInitFtl c)).any check = true) : ∃ ftl, Reachable c allowed ftl ∧ check ftl = true := by
  rw [Option.any_eq_true] at ran
  obtain ⟨last, ran, checked⟩ := ran
  exact ⟨last, run_events_reach c allowed permits sound events _ last (.start _ rfl) ran, checked⟩

end Running

-- Two zones of four pages, a page to a one-shot page, and room for three pages.
def sampleParams : ZnsParams where
  nrZones := 2
  zoneSize := 4 * pgsz
  zoneCapacity := 3 * pgsz
  zoneWbSize := 3 * pgsz
  globalWbSize := 0
  nrZrwaZones := 0
  zrwafgSize := 0
  zrwaSize := 0
  zrwaBufferSize := 0
  pgsPerOneshotpg := 1
  writeUnitSize := 512
  zonePositive := by decide
  zonePages := by decide
  oneshotPositive := Nat.one_pos
  addressable := by decide
  zonesFit := by decide
  capacityFits := by decide
  zrwaZonesFit := by decide
  zrwafgPositive := by decide

def writeEvent (slba length : Nat) (slbaFits : slba < 2 ^ 64) (lengthFits : length < 2 ^ 16) : Event :=
  .write ⟨8⟩ ⟨false, slba, length, slbaFits, lengthFits⟩

end ConZone.Zns
