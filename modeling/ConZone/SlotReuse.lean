import ConZone.Handover
import ConZone.WrapAround

set_option autoImplicit false

namespace ConZone

structure SqSlot where
  loc : Loc
  cmd : HostCommand
  commandId : Nat

structure SqShape where
  queueSize : Nat
  positive : 0 < queueSize
  cqid : Nat

-- Of each submission queue: what its slots hold, how many commands the host has
-- put into slots, has announced, the dispatcher has taken, and how many the head
-- of some completion has passed. origin is what was dispatched into each work
-- entry, with its number in its queue; performed lists, of each transfer, the
-- command dispatched and the one the worker went by.
structure HostedDevice where
  device : IoDevice
  slots : Nat → Nat → SqSlot
  written : Nat → Nat
  announced : Nat → Nat
  dispatched : Nat → Nat
  freed : Nat → Nat
  origin : Nat → Nat → Nat × SqSlot
  performed : List (SqSlot × SqSlot)

section Steps

variable (config : DualConfig) (threads : IoThreads) (shapes : Nat → SqShape)

def sqSlotOf (sqid number : Nat) : Nat := number % (shapes sqid).queueSize

def putSlot (slots : Nat → Nat → SqSlot) (sqid slot : Nat) (content : SqSlot) : Nat → Nat → SqSlot :=
  Function.update slots sqid (Function.update (slots sqid) slot content)

def nextSlot (state : HostedDevice) (sqid : Nat) : SqSlot := state.slots sqid (sqSlotOf shapes sqid (state.dispatched sqid))

def nextCall (state : HostedDevice) (sqid nsecsStart nsecsEnqueue : Nat) : IoCall :=
  ⟨sqid, (shapes sqid).cqid, sqSlotOf shapes sqid (state.dispatched sqid), (nextSlot shapes state sqid).commandId, (nextSlot shapes state sqid).loc,
    (nextSlot shapes state sqid).cmd, nsecsStart, nsecsEnqueue⟩

-- A handler may rewrite the command where it stands, for an append.
def dispatchSlot (state : HostedDevice) (call : IoCall) (attempt : Attempt) (accepted : Bool) (next : IoDevice) : HostedDevice :=
  let slot : SqSlot := ⟨call.loc, attempt.cmd, call.commandId⟩
  let state' := { state with device := next, slots := putSlot state.slots call.sqid call.sqEntry slot }
  if accepted then
    { state' with dispatched := Function.update state.dispatched call.sqid (state.dispatched call.sqid + 1),
                  origin := recordEntry state.origin (getIoWorker threads call.sqid) (commandEntry threads state.device call attempt)
                    (state.dispatched call.sqid, slot) }
  else state'

def transfers (work : NvmevIoWork) : Bool := !work.isCopied && !work.isInternal && work.status == .success

-- __do_perform_io reads the slot of the queue.
def performedBy (state : HostedDevice) (turn : Nat) (event : WorkerEvent) : List (SqSlot × SqSlot) :=
  match (state.device.workers turn).pc, event with
  | .copy curr, .copy _ =>
      let work := (state.device.workers turn).worker.workQueue curr
      if transfers work then [((state.origin turn curr).2, state.slots work.sqid work.sqEntry)] else []
  | _, _ => []

def posts (worker : NvmevIoWorker) (curr : Nat) : Bool :=
  decide (targets worker curr ≤ worker.latestNsecs) && !(worker.workQueue curr).isInternal

-- The sq_head of the completion is the slot of the command: those before it
-- have been passed.
def completeSlot (state : HostedDevice) (turn curr : Nat) : HostedDevice :=
  let worker := (state.device.workers turn).worker
  let sqid := (worker.workQueue curr).sqid
  { state with device := completeOn state.device turn curr,
               freed := if posts worker curr then Function.update state.freed sqid (max (state.freed sqid) (state.origin turn curr).1)
                        else state.freed }

inductive HostedEvent where
  | fill (sqid : Nat) (slot : SqSlot)
  | ring (sqid count : Nat)
  | dispatch (sqid nsecsStart nsecsEnqueue : Nat)
  | pass (turn : Nat) (event : WorkerEvent) (storage : Storage)
  | complete (turn : Nat)

-- The host may fill a slot as soon as its last command has been passed.
inductive HostedStep : HostedDevice → HostedEvent → HostedDevice → Prop where
  | fill (state : HostedDevice) (sqid : Nat) (slot : SqSlot) (room : state.written sqid < state.freed sqid + (shapes sqid).queueSize) :
      HostedStep state (.fill sqid slot)
        { state with slots := putSlot state.slots sqid (sqSlotOf shapes sqid (state.written sqid)) slot,
                     written := Function.update state.written sqid (state.written sqid + 1) }
  | ring (state : HostedDevice) (sqid count : Nat) (more : state.announced sqid ≤ count) (filled : count ≤ state.written sqid)
      (room : count < state.dispatched sqid + (shapes sqid).queueSize) :
      HostedStep state (.ring sqid count) { state with announced := Function.update state.announced sqid count }
  | dispatch (state : HostedDevice) (sqid nsecsStart nsecsEnqueue : Nat) (waiting : state.dispatched sqid < state.announced sqid)
      (attempt : Attempt)
      (handled : procIoCmd (dualParams config (nextSlot shapes state sqid).loc) (nsMapped config (nextSlot shapes state sqid).loc)
        (state.device.ftls (nextSlot shapes state sqid).loc) state.device.storage ⟨sqid, nsecsStart⟩ (nextSlot shapes state sqid).cmd = .ok attempt)
      (accepted : Bool) (next : IoDevice)
      (ran : nvmevProcIo config threads state.device (nextCall shapes state sqid nsecsStart nsecsEnqueue) = .ok (accepted, next)) :
      HostedStep state (.dispatch sqid nsecsStart nsecsEnqueue)
        (dispatchSlot threads state (nextCall shapes state sqid nsecsStart nsecsEnqueue) attempt accepted next)
  | pass (state : HostedDevice) (turn : Nat) (event : WorkerEvent) (next : WorkerState) (storage : Storage)
      (inside : turn < threads.nrIoWorkers) (own : ownStep event = true) (other : event ≠ .complete)
      (taken : WorkerStep (state.device.workers turn) event next) :
      HostedStep state (.pass turn event storage)
        { state with device := { state.device with workers := Function.update state.device.workers turn next, storage := storage },
                     performed := state.performed ++ performedBy state turn event }
  | complete (state : HostedDevice) (turn curr : Nat) (inside : turn < threads.nrIoWorkers)
      (here : (state.device.workers turn).pc = .due curr) : HostedStep state (.complete turn) (completeSlot state turn curr)

end Steps

-- __nvmev_admin_create_sq: no slot has been filled and both doorbells are zero.
structure HostedInit (config : DualConfig) (state : HostedDevice) : Prop where
  device : ∃ clock, state.device = deviceInit config clock
  written : ∀ sqid, state.written sqid = 0
  announced : ∀ sqid, state.announced sqid = 0
  dispatched : ∀ sqid, state.dispatched sqid = 0
  freed : ∀ sqid, state.freed sqid = 0
  performed : state.performed = []

def hostedSystem (config : DualConfig) (threads : IoThreads) (shapes : Nat → SqShape) : TransitionSystem.System HostedDevice HostedEvent :=
  ⟨HostedInit config, HostedStep config threads shapes⟩

-- A completion waits for the transfers of its queue's earlier commands.
def TransfersFirst (state : HostedDevice) : HostedEvent → Prop
  | .complete turn =>
      ∀ curr, (state.device.workers turn).pc = .due curr → posts (state.device.workers turn).worker curr = true →
        ∀ entry ∈ activeEntries (state.device.workers turn).worker,
          transfers ((state.device.workers turn).worker.workQueue entry) = true →
            ((state.device.workers turn).worker.workQueue entry).sqid = ((state.device.workers turn).worker.workQueue curr).sqid →
              (state.origin turn curr).1 ≤ (state.origin turn entry).1
  | .fill _ _ | .ring _ _ | .dispatch _ _ _ | .pass _ _ _ => True

-- What an entry in use says of its command, while it waits for its transfer
-- also of the slot.
structure EntryKept (threads : IoThreads) (shapes : Nat → SqShape) (state : HostedDevice) (turn entry : Nat) (work : NvmevIoWork) : Prop where
  worker : turn = getIoWorker threads work.sqid
  taken : (state.origin turn entry).1 < state.dispatched work.sqid
  unfreed : transfers work = true → state.freed work.sqid ≤ (state.origin turn entry).1
  place : transfers work = true → work.sqEntry = sqSlotOf shapes work.sqid (state.origin turn entry).1
  slot : transfers work = true → state.slots work.sqid work.sqEntry = (state.origin turn entry).2

structure SlotsKept (threads : IoThreads) (shapes : Nat → SqShape) (state : HostedDevice) : Prop where
  sound : DeviceSound state.device
  freed : ∀ sqid, state.freed sqid ≤ state.dispatched sqid
  dispatched : ∀ sqid, state.dispatched sqid ≤ state.announced sqid
  announced : ∀ sqid, state.announced sqid ≤ state.written sqid
  written : ∀ sqid, state.written sqid ≤ state.freed sqid + (shapes sqid).queueSize
  entries : ∀ turn, ∀ entry ∈ activeEntries (state.device.workers turn).worker,
    ((state.device.workers turn).worker.workQueue entry).isInternal = false →
      EntryKept threads shapes state turn entry ((state.device.workers turn).worker.workQueue entry)
  performed : ∀ pair ∈ state.performed, pair.2 = pair.1

section Slots

theorem put_slot_same (slots : Nat → Nat → SqSlot) (sqid slot : Nat) (content : SqSlot) : putSlot slots sqid slot content sqid slot = content := by
  simp [putSlot]

theorem put_slot_other (slots : Nat → Nat → SqSlot) (sqid slot other place : Nat) (content : SqSlot) (apart : other = sqid → place ≠ slot) :
    putSlot slots sqid slot content other place = slots other place := by
  by_cases same : other = sqid
  · simp [putSlot, same, apart same]
  · simp [putSlot, same]

end Slots

section Preservation

variable (config : DualConfig) (threads : IoThreads) (shapes : Nat → SqShape) (state : HostedDevice)

theorem entry_kept_moved (next : HostedDevice) (turn entry : Nat) (work moved : NvmevIoWork)
    (kept : EntryKept threads shapes state turn entry work) (sqid : moved.sqid = work.sqid) (sqEntry : moved.sqEntry = work.sqEntry)
    (waits : transfers moved = true → transfers work = true) (origin : next.origin turn entry = state.origin turn entry)
    (dispatched : state.dispatched work.sqid ≤ next.dispatched work.sqid)
    (freed : transfers work = true → next.freed work.sqid ≤ (state.origin turn entry).1)
    (slot : transfers work = true → next.slots work.sqid work.sqEntry = state.slots work.sqid work.sqEntry) :
    EntryKept threads shapes next turn entry moved := by
  refine ⟨?_, ?_, ?_, ?_, ?_⟩
  · rw [sqid]
    exact kept.worker
  · rw [origin, sqid]
    exact Nat.lt_of_lt_of_le kept.taken dispatched
  · intro waiting
    rw [origin, sqid]
    exact freed (waits waiting)
  · intro waiting
    rw [origin, sqid, sqEntry]
    exact kept.place (waits waiting)
  · intro waiting
    rw [origin, sqid, sqEntry, slot (waits waiting)]
    exact kept.slot (waits waiting)

theorem same_content_place (first second : NvmevIoWork) (same : contentOf first = contentOf second) :
    first.sqid = second.sqid ∧ first.sqEntry = second.sqEntry ∧ transfers first = transfers second := by
  have waits : transfers (contentOf first) = transfers (contentOf second) := congrArg transfers same
  exact ⟨congrArg (fun work => work.sqid) same, congrArg (fun work => work.sqEntry) same, waits⟩

-- The slot of a command that waits is not among those still to be used before
-- the slots come round again.
theorem waiting_slot_apart (turn entry : Nat) (work : NvmevIoWork)
    (entryKept : EntryKept threads shapes state turn entry work) (waits : transfers work = true) (number : Nat)
    (after : state.dispatched work.sqid ≤ number) (near : number < state.freed work.sqid + (shapes work.sqid).queueSize) :
    work.sqEntry ≠ sqSlotOf shapes work.sqid number := by
  have unfreed := entryKept.unfreed waits
  have taken := entryKept.taken
  rw [entryKept.place waits]
  exact WrapAround.positions_apart _ _ number (by omega) (by omega)

theorem fill_kept (kept : SlotsKept threads shapes state) (sqid : Nat) (slot : SqSlot)
    (room : state.written sqid < state.freed sqid + (shapes sqid).queueSize) :
    SlotsKept threads shapes { state with slots := putSlot state.slots sqid (sqSlotOf shapes sqid (state.written sqid)) slot,
                                          written := Function.update state.written sqid (state.written sqid + 1) } := by
  refine ⟨kept.sound, kept.freed, kept.dispatched, ?_, ?_, ?_, kept.performed⟩
  · intro other
    have before := kept.announced other
    by_cases same : other = sqid
    · rw [same] at before
      simp only [same, Function.update_self]
      omega
    · simpa [same] using before
  · intro other
    have before := kept.written other
    by_cases same : other = sqid
    · simp only [same, Function.update_self]
      omega
    · simpa [same] using before
  · intro turn entry member external
    have old := kept.entries turn entry member external
    refine entry_kept_moved threads shapes state _ turn entry _ _ old rfl rfl (fun waits => waits) rfl (Nat.le_refl _) old.unfreed ?_
    intro waits
    apply put_slot_other
    intro same
    have dispatched := kept.dispatched sqid
    have announced := kept.announced sqid
    have apart := waiting_slot_apart threads shapes state turn entry _ old waits (state.written sqid) (by rw [same]; omega)
      (by rw [same]; exact room)
    rwa [same] at apart

theorem dispatch_kept (kept : SlotsKept threads shapes state) (sqid nsecsStart nsecsEnqueue : Nat)
    (waiting : state.dispatched sqid < state.announced sqid) (attempt : Attempt)
    (handled : procIoCmd (dualParams config (nextSlot shapes state sqid).loc) (nsMapped config (nextSlot shapes state sqid).loc)
      (state.device.ftls (nextSlot shapes state sqid).loc) state.device.storage ⟨sqid, nsecsStart⟩ (nextSlot shapes state sqid).cmd = .ok attempt)
    (accepted : Bool) (next : IoDevice)
    (ran : nvmevProcIo config threads state.device (nextCall shapes state sqid nsecsStart nsecsEnqueue) = .ok (accepted, next)) :
    SlotsKept threads shapes (dispatchSlot threads state (nextCall shapes state sqid nsecsStart nsecsEnqueue) attempt accepted next) := by
  have sound := device_step_sound config threads state.device next _ kept.sound (.procIo state.device next _ accepted ran)
  obtain ⟨result, again, answered, called⟩ := proc_io_runs config threads state.device next _ accepted ran
  have sameAttempt : result = attempt := Except.ok.inj (again.symm.trans handled)
  rw [sameAttempt] at answered called
  have entries := called_entries threads state.device (nextCall shapes state sqid nsecsStart nsecsEnqueue) accepted kept.sound attempt answered
  have keeps := called_keeps threads state.device (nextCall shapes state sqid nsecsStart nsecsEnqueue) accepted kept.sound attempt
  rw [← called] at entries keeps
  have callSqid : (nextCall shapes state sqid nsecsStart nsecsEnqueue).sqid = sqid := rfl
  have callEntry : (nextCall shapes state sqid nsecsStart nsecsEnqueue).sqEntry = sqSlotOf shapes sqid (state.dispatched sqid) := rfl
  generalize nextCall shapes state sqid nsecsStart nsecsEnqueue = call at entries keeps callSqid callEntry
  have counts : ∀ other, state.dispatched other ≤ (dispatchSlot threads state call attempt accepted next).dispatched other ∧
      (dispatchSlot threads state call attempt accepted next).dispatched other ≤ state.announced other := by
    intro other
    have before := kept.dispatched other
    cases accepted with
    | false => exact ⟨Nat.le_refl _, before⟩
    | true =>
        by_cases same : other = sqid
        · simp only [dispatchSlot, callSqid, same, if_true, Function.update_self]
          omega
        · simpa [dispatchSlot, callSqid, same] using before
  have fields : (dispatchSlot threads state call attempt accepted next).device = next ∧
      (dispatchSlot threads state call attempt accepted next).freed = state.freed ∧
      (dispatchSlot threads state call attempt accepted next).announced = state.announced ∧
      (dispatchSlot threads state call attempt accepted next).written = state.written ∧
      (dispatchSlot threads state call attempt accepted next).performed = state.performed ∧
      (dispatchSlot threads state call attempt accepted next).slots =
        putSlot state.slots call.sqid call.sqEntry ⟨call.loc, attempt.cmd, call.commandId⟩ := by
    cases accepted with
    | false => exact ⟨rfl, rfl, rfl, rfl, rfl, rfl⟩
    | true => exact ⟨rfl, rfl, rfl, rfl, rfl, rfl⟩
  obtain ⟨device, freed, announced, written, performed, slots⟩ := fields
  refine ⟨?_, ?_, ?_, ?_, ?_, ?_, ?_⟩
  · rw [device]
    exact sound
  · intro other
    rw [freed]
    exact (kept.freed other).trans (counts other).1
  · intro other
    rw [announced]
    exact (counts other).2
  · rw [announced, written]
    exact kept.announced
  · rw [written, freed]
    exact kept.written
  · intro turn entry member external
    rw [device] at member external ⊢
    rcases entries turn entry member external with old | ⟨some, here, given, done, before, finished, same⟩
    · obtain ⟨same, apart⟩ := keeps turn entry old
      obtain ⟨sameSqid, sameEntry, sameWaits⟩ := same_content_place _ _ same
      rw [same_content_internal _ _ same] at external
      have entryKept := kept.entries turn entry old external
      have origin : (dispatchSlot threads state call attempt accepted next).origin turn entry = state.origin turn entry := by
        cases accepted with
        | false => rfl
        | true => exact record_other _ _ _ _ _ _ apart
      refine entry_kept_moved threads shapes state _ turn entry _ _ entryKept sameSqid sameEntry (fun waits => sameWaits ▸ waits) origin
        (counts _).1 ?_ ?_
      · intro waits
        rw [freed]
        exact entryKept.unfreed waits
      · intro waits
        rw [slots, callSqid, callEntry]
        apply put_slot_other
        intro same
        have bound := kept.written sqid
        have behind := kept.announced sqid
        have apart := waiting_slot_apart threads shapes state turn entry _ entryKept waits (state.dispatched sqid)
          (by rw [same]) (by rw [same]; omega)
        rwa [same] at apart
    · obtain ⟨sameSqid, sameEntry, _⟩ := same_content_place _ _ same
      have newSqid : ((next.workers turn).worker.workQueue entry).sqid = sqid := sameSqid.trans callSqid
      have newEntry : ((next.workers turn).worker.workQueue entry).sqEntry = sqSlotOf shapes sqid (state.dispatched sqid) :=
        sameEntry.trans callEntry
      have origin : (dispatchSlot threads state call attempt accepted next).origin turn entry =
          (state.dispatched sqid, ⟨call.loc, attempt.cmd, call.commandId⟩) := by
        rw [some]
        simp only [dispatchSlot, if_true, given, here, callSqid]
        exact record_given _ _ _ _
      refine ⟨?_, ?_, ?_, ?_, ?_⟩
      · rw [newSqid, ← callSqid]
        exact here
      · rw [origin, newSqid, some]
        simp [dispatchSlot, callSqid]
      · intro _
        rw [origin, newSqid, freed]
        exact kept.freed sqid
      · intro _
        rw [origin, newSqid]
        exact newEntry
      · intro _
        rw [origin, newSqid, newEntry, slots, callSqid, callEntry]
        exact put_slot_same _ _ _ _
  · rw [performed]
    exact kept.performed

theorem entry_at_hand (kept : SlotsKept threads shapes state) (turn curr : Nat)
    (here : (state.device.workers turn).pc = .copy curr ∨ (state.device.workers turn).pc = .due curr)
    (external : ((state.device.workers turn).worker.workQueue curr).isInternal = false) :
    EntryKept threads shapes state turn curr ((state.device.workers turn).worker.workQueue curr) := by
  obtain ⟨active, fresh, used, listed⟩ := reached_sound _ (kept.sound.workers turn)
  have pc := listed.pc
  apply kept.entries turn curr _ external
  rw [active_entries_are _ active _ listed.threaded]
  rcases here with copies | due
  · rw [copies] at pc
    exact pc.1
  · rw [due] at pc
    exact pc.1

theorem performed_kept (kept : SlotsKept threads shapes state) (turn : Nat) (event : WorkerEvent) :
    ∀ pair ∈ performedBy state turn event, pair.2 = pair.1 := by
  intro pair member
  unfold performedBy at member
  split at member
  · rename_i curr performed here
    dsimp only at member
    split at member
    · rename_i waits
      have external : ((state.device.workers turn).worker.workQueue curr).isInternal = false := by
        simp only [transfers, Bool.and_eq_true, Bool.not_eq_true'] at waits
        exact waits.1.2
      have entry := entry_at_hand threads shapes state kept turn curr (.inl here) external
      rw [List.mem_singleton.mp member]
      exact entry.slot waits
    · exact absurd member List.not_mem_nil
  · exact absurd member List.not_mem_nil

theorem copy_work_place (work : NvmevIoWork) (performed : Bool) :
    (copyWork work performed).sqid = work.sqid ∧ (copyWork work performed).sqEntry = work.sqEntry ∧
      (copyWork work performed).isInternal = work.isInternal ∧ transfers (copyWork work performed) = false := by
  simp only [copyWork]
  split
  · rename_i copied
    exact ⟨rfl, rfl, rfl, by simp [transfers, copied]⟩
  · exact ⟨rfl, rfl, rfl, rfl⟩

theorem pass_kept (kept : SlotsKept threads shapes state) (turn : Nat) (event : WorkerEvent) (next : WorkerState) (storage : Storage)
    (own : ownStep event = true) (other : event ≠ .complete) (taken : WorkerStep (state.device.workers turn) event next) :
    SlotsKept threads shapes
      { state with device := { state.device with workers := Function.update state.device.workers turn next, storage := storage },
                   performed := state.performed ++ performedBy state turn event } := by
  obtain ⟨entries, works⟩ := pass_entries _ next event own other taken
  refine ⟨⟨update_reach state.device kept.sound turn next event taken, kept.sound.clean⟩, kept.freed, kept.dispatched, kept.announced,
    kept.written, ?_, ?_⟩
  · intro third entry member external
    by_cases same : third = turn
    · subst same
      simp only [Function.update_self] at member external ⊢
      rw [entries] at member
      rcases works entry with unchanged | ⟨performed, _, _, copied⟩
      · rw [unchanged] at external ⊢
        have old := kept.entries third entry member external
        exact entry_kept_moved threads shapes state _ third entry _ _ old rfl rfl (fun waits => waits) rfl (Nat.le_refl _) old.unfreed
          fun _ => rfl
      · obtain ⟨sqid, sqEntry, internal, done⟩ := copy_work_place ((state.device.workers third).worker.workQueue entry) performed
        rw [copied] at external ⊢
        rw [internal] at external
        have old := kept.entries third entry member external
        refine entry_kept_moved threads shapes state _ third entry _ _ old sqid sqEntry (fun waits => ?_) rfl (Nat.le_refl _) old.unfreed
          fun _ => rfl
        rw [done] at waits
        cases waits
    · simp only [Function.update_of_ne same] at member external ⊢
      have old := kept.entries third entry member external
      exact entry_kept_moved threads shapes state _ third entry _ _ old rfl rfl (fun waits => waits) rfl (Nat.le_refl _) old.unfreed
        fun _ => rfl
  · intro pair member
    rcases List.mem_append.mp member with before | now
    · exact kept.performed pair before
    · exact performed_kept threads shapes state kept turn event pair now

theorem freed_after (turn curr sqid : Nat) :
    (completeSlot state turn curr).freed sqid =
      if posts (state.device.workers turn).worker curr = true ∧ ((state.device.workers turn).worker.workQueue curr).sqid = sqid then
        max (state.freed sqid) (state.origin turn curr).1 else state.freed sqid := by
  by_cases post : posts (state.device.workers turn).worker curr = true
  · by_cases same : ((state.device.workers turn).worker.workQueue curr).sqid = sqid
    · simp [completeSlot, post, same]
    · have apart : sqid ≠ ((state.device.workers turn).worker.workQueue curr).sqid := fun wrong => same wrong.symm
      simp [completeSlot, post, same, apart]
  · simp [completeSlot, post]

theorem posts_external (worker : NvmevIoWorker) (curr : Nat) (post : posts worker curr = true) : (worker.workQueue curr).isInternal = false := by
  simp only [posts, Bool.and_eq_true, Bool.not_eq_true'] at post
  exact post.2

theorem complete_kept (kept : SlotsKept threads shapes state) (turn curr : Nat) (inside : turn < threads.nrIoWorkers)
    (here : (state.device.workers turn).pc = .due curr) (first : TransfersFirst state (.complete turn)) :
    SlotsKept threads shapes (completeSlot state turn curr) := by
  obtain ⟨entries, works⟩ := complete_entries (state.device.workers turn) curr
  have workers : (completeSlot state turn curr).device.workers = _ := (complete_workers state.device turn curr).1
  have grows : ∀ sqid, state.freed sqid ≤ (completeSlot state turn curr).freed sqid := by
    intro sqid
    rw [freed_after]
    split
    · exact Nat.le_max_left _ _
    · exact Nat.le_refl _
  refine ⟨completion_sound state.device kept.sound turn curr here, ?_, kept.dispatched, kept.announced, ?_, ?_, kept.performed⟩
  · intro sqid
    have before := kept.freed sqid
    have same : (completeSlot state turn curr).dispatched = state.dispatched := rfl
    rw [freed_after, same]
    split
    · rename_i posted
      have entry := entry_at_hand threads shapes state kept turn curr (.inr here) (posts_external _ curr posted.1)
      have taken := entry.taken
      rw [posted.2] at taken
      exact Nat.max_le.mpr ⟨before, Nat.le_of_lt taken⟩
    · exact before
  · intro sqid
    have before := kept.written sqid
    have more := grows sqid
    have same : (completeSlot state turn curr).written = state.written := rfl
    rw [same]
    omega
  · intro third entry member external
    rw [workers] at member external ⊢
    have moved : ∀ work, EntryKept threads shapes state third entry work → entry ∈ activeEntries (state.device.workers third).worker →
        work = (state.device.workers third).worker.workQueue entry → transfers work = true →
          (completeSlot state turn curr).freed work.sqid ≤ (state.origin third entry).1 := by
      intro work old active same waits
      rw [freed_after]
      split
      · rename_i posted
        have curried := entry_at_hand threads shapes state kept turn curr (.inr here) (posts_external _ curr posted.1)
        have sameTurn : third = turn := by
          rw [old.worker, curried.worker, posted.2]
        subst sameTurn
        rw [same] at waits posted
        exact Nat.max_le.mpr ⟨old.unfreed (same ▸ waits), first curr here posted.1 entry active waits posted.2.symm⟩
      · exact old.unfreed waits
    by_cases same : third = turn
    · subst same
      simp only [Function.update_self] at member external ⊢
      rw [entries] at member
      rcases works entry with unchanged | marked
      · rw [unchanged] at external ⊢
        have old := kept.entries third entry member external
        exact entry_kept_moved threads shapes state _ third entry _ _ old rfl rfl (fun waiting => waiting) rfl (Nat.le_refl _)
          (moved _ old member rfl) fun _ => rfl
      · rw [marked] at external ⊢
        have old := kept.entries third entry member external
        exact entry_kept_moved threads shapes state _ third entry _ _ old rfl rfl (fun waiting => waiting) rfl (Nat.le_refl _)
          (moved _ old member rfl) fun _ => rfl
    · simp only [Function.update_of_ne same] at member external ⊢
      have old := kept.entries third entry member external
      exact entry_kept_moved threads shapes state _ third entry _ _ old rfl rfl (fun waiting => waiting) rfl (Nat.le_refl _)
        (moved _ old member rfl) fun _ => rfl

theorem slots_invariant : TransitionSystem.Invariant (hostedSystem config threads shapes) TransfersFirst (SlotsKept threads shapes) := by
  refine ⟨?_, ?_⟩
  · intro state init
    obtain ⟨clock, device⟩ := init.device
    have sound := (device_sound_invariant config threads fun _ _ => True).starts (deviceInit config clock) ⟨clock, rfl⟩
    refine ⟨by rw [device]; exact sound, ?_, ?_, ?_, ?_, ?_, ?_⟩
    · intro sqid
      rw [init.freed]
      exact Nat.zero_le _
    · intro sqid
      rw [init.dispatched]
      exact Nat.zero_le _
    · intro sqid
      rw [init.announced]
      exact Nat.zero_le _
    · intro sqid
      rw [init.written]
      exact Nat.zero_le _
    · intro turn entry member
      have none : activeEntries nvmevIoWorkerInit = [] :=
        active_entries_are _ [] _ (init_sound (List.range nrMaxParallelIo) rfl).threaded
      rw [device] at member
      have start : entry ∈ activeEntries nvmevIoWorkerInit := member
      rw [none] at start
      exact absurd start List.not_mem_nil
    · intro pair member
      rw [init.performed] at member
      exact absurd member List.not_mem_nil
  · intro state next event kept first taken
    cases taken with
    | fill sqid slot room => exact fill_kept threads shapes state kept sqid slot room
    | ring sqid count more filled room =>
        refine ⟨kept.sound, kept.freed, ?_, ?_, kept.written, ?_, kept.performed⟩
        · intro other
          have before := kept.dispatched other
          by_cases same : other = sqid
          · rw [same] at before
            simp only [same, Function.update_self]
            omega
          · simpa [same] using before
        · intro other
          by_cases same : other = sqid
          · simpa [same] using filled
          · simpa [same] using kept.announced other
        · intro turn entry member external
          have old := kept.entries turn entry member external
          exact entry_kept_moved threads shapes state _ turn entry _ _ old rfl rfl (fun waits => waits) rfl (Nat.le_refl _) old.unfreed
            fun _ => rfl
    | dispatch sqid nsecsStart nsecsEnqueue waiting attempt handled accepted next ran =>
        exact dispatch_kept config threads shapes state kept sqid nsecsStart nsecsEnqueue waiting attempt handled accepted next ran
    | pass turn event next storage inside own other taken => exact pass_kept threads shapes state kept turn event next storage own other taken
    | complete turn curr inside here => exact complete_kept threads shapes state kept turn curr inside here first

-- Where every completion waits for the transfers before it, the worker goes by
-- the command that was dispatched.
theorem transfers_as_dispatched (state : HostedDevice)
    (reached : TransitionSystem.Reach (hostedSystem config threads shapes) TransfersFirst state) :
    ∀ pair ∈ state.performed, pair.2 = pair.1 :=
  (TransitionSystem.reach_invariant _ _ _ (slots_invariant config threads shapes) state reached).performed

end Preservation

section Execution

variable (config : DualConfig) (threads : IoThreads) (shapes : Nat → SqShape)

def stepWorker (state : WorkerState) (event : WorkerEvent) : Option WorkerState :=
  match event, state.pc with
  | .enqueue item, _ => some (enqueueStep state item)
  | .reclaim, _ => some (reclaimStep state)
  | .start, .idle => some { state with pc := enterPc state.worker.ioSeq }
  | .advance now, .fetch curr =>
      if state.worker.latestNsecs ≤ now then some { state with worker := { state.worker with latestNsecs := now }, pc := .check curr }
      else none
  | .check, .check curr => some { state with pc := if (state.worker.workQueue curr).isCompleted then .next curr else .copy curr }
  | .copy performed, .copy curr => some (copyStep state curr performed)
  | .complete, .due curr => some (completeStep state curr)
  | .move, .next curr => some { state with pc := enterPc (nexts state.worker curr) }
  | _, _ => none

theorem step_worker (state next : WorkerState) (event : WorkerEvent) (stepped : stepWorker state event = some next) :
    WorkerStep state event next := by
  unfold stepWorker at stepped
  split at stepped
  · cases stepped
    exact .enqueue state _
  · cases stepped
    exact .reclaim state
  · rename_i here
    cases stepped
    exact .start state here
  · rename_i now curr here
    split at stepped
    · rename_i later
      cases stepped
      exact .advance state curr now here later
    · cases stepped
  · rename_i curr here
    cases stepped
    exact .check state curr here
  · rename_i performed curr here
    cases stepped
    exact .copy state curr performed here
  · rename_i curr here
    cases stepped
    exact .complete state curr here
  · rename_i curr here
    cases stepped
    exact .move state curr here
  · cases stepped

def isComplete : WorkerEvent → Bool
  | .complete => true
  | _ => false

def stepHosted (state : HostedDevice) : HostedEvent → Option HostedDevice
  | .fill sqid slot =>
      if state.written sqid < state.freed sqid + (shapes sqid).queueSize then
        some { state with slots := putSlot state.slots sqid (sqSlotOf shapes sqid (state.written sqid)) slot,
                          written := Function.update state.written sqid (state.written sqid + 1) }
      else none
  | .ring sqid count =>
      if state.announced sqid ≤ count ∧ count ≤ state.written sqid ∧ count < state.dispatched sqid + (shapes sqid).queueSize then
        some { state with announced := Function.update state.announced sqid count }
      else none
  | .dispatch sqid nsecsStart nsecsEnqueue =>
      if state.dispatched sqid < state.announced sqid then
        match procIoCmd (dualParams config (nextSlot shapes state sqid).loc) (nsMapped config (nextSlot shapes state sqid).loc)
            (state.device.ftls (nextSlot shapes state sqid).loc) state.device.storage ⟨sqid, nsecsStart⟩ (nextSlot shapes state sqid).cmd,
          nvmevProcIo config threads state.device (nextCall shapes state sqid nsecsStart nsecsEnqueue) with
        | .ok attempt, .ok (accepted, next) => some (dispatchSlot threads state (nextCall shapes state sqid nsecsStart nsecsEnqueue) attempt accepted next)
        | _, _ => none
      else none
  | .pass turn event storage =>
      if turn < threads.nrIoWorkers ∧ ownStep event = true ∧ isComplete event = false then
        (stepWorker (state.device.workers turn) event).map fun next =>
          { state with device := { state.device with workers := Function.update state.device.workers turn next, storage := storage },
                       performed := state.performed ++ performedBy state turn event }
      else none
  | .complete turn =>
      match (state.device.workers turn).pc with
      | .due curr => if turn < threads.nrIoWorkers then some (completeSlot state turn curr) else none
      | _ => none

theorem step_hosted (state next : HostedDevice) (event : HostedEvent) (stepped : stepHosted config threads shapes state event = some next) :
    HostedStep config threads shapes state event next := by
  cases event with
  | fill sqid slot =>
      simp only [stepHosted, Option.ite_none_right_eq_some, Option.some.injEq] at stepped
      rw [← stepped.2]
      exact .fill state sqid slot stepped.1
  | ring sqid count =>
      simp only [stepHosted, Option.ite_none_right_eq_some, Option.some.injEq] at stepped
      obtain ⟨⟨more, filled, room⟩, same⟩ := stepped
      rw [← same]
      exact .ring state sqid count more filled room
  | dispatch sqid nsecsStart nsecsEnqueue =>
      simp only [stepHosted, Option.ite_none_right_eq_some] at stepped
      obtain ⟨waiting, ran⟩ := stepped
      split at ran
      · rename_i attempt accepted after handled called
        cases ran
        exact .dispatch state sqid nsecsStart nsecsEnqueue waiting attempt handled accepted after called
      · cases ran
  | pass turn event storage =>
      simp only [stepHosted, Option.ite_none_right_eq_some, Option.map_eq_some_iff] at stepped
      obtain ⟨⟨inside, own, other⟩, after, taken, same⟩ := stepped
      rw [← same]
      refine .pass state turn event after storage inside own ?_ (step_worker _ after event taken)
      intro wrong
      rw [wrong] at other
      cases other
  | complete turn =>
      simp only [stepHosted] at stepped
      split at stepped
      · rename_i curr here
        split at stepped
        · rename_i inside
          cases stepped
          exact .complete state turn curr inside here
        · cases stepped
      · cases stepped

def runHosted (permits : HostedDevice → HostedEvent → Bool) : List HostedEvent → HostedDevice → Option HostedDevice
  | [], state => some state
  | event :: rest, state => if permits state event then (stepHosted config threads shapes state event).bind (runHosted permits rest) else none

theorem run_hosted_reach (allowed : HostedDevice → HostedEvent → Prop) (permits : HostedDevice → HostedEvent → Bool)
    (sound : ∀ state event, permits state event = true → allowed state event) (events : List HostedEvent) (state last : HostedDevice)
    (reached : TransitionSystem.Reach (hostedSystem config threads shapes) allowed state)
    (ran : runHosted config threads shapes permits events state = some last) :
    TransitionSystem.Reach (hostedSystem config threads shapes) allowed last := by
  induction events generalizing state with
  | nil =>
      cases ran
      exact reached
  | cons event rest ih =>
      simp only [runHosted, Option.ite_none_right_eq_some] at ran
      obtain ⟨permitted, ran⟩ := ran
      obtain ⟨next, stepped, ran⟩ := Option.bind_eq_some_iff.mp ran
      refine ih next ?_ ran
      exact .next state next event reached (sound state event permitted) (step_hosted config threads shapes state next event stepped)

end Execution

section Overtaken

def queuesOfFour : Nat → SqShape := fun sqid => ⟨4, by decide, sqid⟩

def readSlot (length commandId : Nat) : SqSlot := ⟨.normal, .read ⟨false, 0, length, false⟩ onePage, commandId⟩
def writeSlot (commandId : Nat) : SqSlot := ⟨.normal, .write ⟨false, 0, 7, false⟩ onePage, commandId⟩

def emptyQueues : HostedDevice :=
  { device := deviceInit sampleConfig fun _ => 0, slots := fun _ _ => readSlot 0 0, written := fun _ => 0, announced := fun _ => 0,
    dispatched := fun _ => 0, freed := fun _ => 0, origin := fun _ _ => (0, readSlot 0 0), performed := [] }

theorem empty_queues_reached (allowed : HostedDevice → HostedEvent → Prop) :
    TransitionSystem.Reach (hostedSystem sampleConfig oneWorker queuesOfFour) allowed emptyQueues :=
  .start _ ⟨⟨_, rfl⟩, fun _ => rfl, fun _ => rfl, fun _ => rfl, fun _ => rfl, rfl⟩

def visit (now : Nat) : List HostedEvent :=
  [.pass 0 (.advance now) (fun _ => 0), .pass 0 .check (fun _ => 0), .pass 0 (.copy true) (fun _ => 0)]

def serve (now : Nat) : List HostedEvent := visit now ++ [.complete 0, .pass 0 .move (fun _ => 0)]

def dueEntry : WorkerPc → Option Nat
  | .due curr => some curr
  | _ => none

def transfersFirst (state : HostedDevice) : HostedEvent → Bool
  | .complete turn =>
      (dueEntry (state.device.workers turn).pc).all fun curr =>
        (activeEntries (state.device.workers turn).worker).all fun entry =>
          !transfers ((state.device.workers turn).worker.workQueue entry) || decide ((state.origin turn curr).1 ≤ (state.origin turn entry).1)
  | _ => true

theorem transfers_first_checked (state : HostedDevice) (event : HostedEvent) (checked : transfersFirst state event = true) :
    TransfersFirst state event := by
  cases event with
  | complete turn =>
      intro curr here _ entry member waits _
      simp only [transfersFirst, here, dueEntry, Option.all_some, List.all_eq_true, Bool.or_eq_true, Bool.not_eq_true', decide_eq_true_eq] at checked
      rcases checked entry member with moved | first
      · rw [moved] at waits
        cases waits
      · exact first
  | fill sqid slot => exact trivial
  | ring sqid count => exact trivial
  | dispatch sqid nsecsStart nsecsEnqueue => exact trivial
  | pass turn event storage => exact trivial

-- Two reads are served. Their completions have passed slot 0, which the host
-- fills again, with a write; the last entry served is that write's.
def refilled : List HostedEvent :=
  [.fill 1 (readSlot 0 0), .fill 1 (readSlot 0 1), .ring 1 2, .dispatch 1 0 0, .dispatch 1 0 0, .pass 0 .start (fun _ => 0)] ++
  serve 10000000 ++ serve 10000000 ++ [.fill 1 (readSlot 0 2), .fill 1 (readSlot 0 3), .fill 1 (writeSlot 4), .ring 1 5,
   .dispatch 1 0 0, .dispatch 1 0 0, .dispatch 1 0 0, .pass 0 .start (fun _ => 0)] ++
  serve 100000000 ++ serve 100000000 ++ serve 100000000 ++ visit 100000000

theorem slot_refilled_in_order :
    ∃ state, TransitionSystem.Reach (hostedSystem sampleConfig oneWorker queuesOfFour) TransfersFirst state ∧ state.written 1 = 5 ∧
      (state.performed.any fun pair => isWrite pair.2.cmd) = true ∧ ∀ pair ∈ state.performed, pair.2 = pair.1 := by
  have ran : (runHosted sampleConfig oneWorker queuesOfFour transfersFirst refilled emptyQueues).any (fun state =>
      decide (state.written 1 = 5) && state.performed.any fun pair => isWrite pair.2.cmd) = true := by decide +kernel
  obtain ⟨last, ran, checked⟩ := (Option.any_eq_true _ _).mp ran
  rw [Bool.and_eq_true] at checked
  have reached := run_hosted_reach _ _ _ TransfersFirst transfersFirst transfers_first_checked _ _ _ (empty_queues_reached _) ran
  exact ⟨last, reached, of_decide_eq_true checked.1, checked.2,
    transfers_as_dispatched sampleConfig oneWorker queuesOfFour last reached⟩

-- A read, and two behind it that are refused for crossing the end of the zone
-- and are therefore due at once. When they have been completed the host fills
-- two more slots, the second of them that of the read.
def overtaken : List HostedEvent :=
  [.fill 1 (readSlot 0 0), .fill 1 (readSlot 65535 1), .fill 1 (readSlot 65535 2), .ring 1 3,
   .dispatch 1 0 0, .dispatch 1 0 0, .dispatch 1 0 0, .pass 0 .start (fun _ => 0)] ++
  visit 0 ++ [.complete 0, .pass 0 .move (fun _ => 0)] ++ visit 0 ++ [.complete 0, .pass 0 .move (fun _ => 0),
   .fill 1 (readSlot 0 3), .fill 1 (writeSlot 4)] ++ visit 0

theorem read_overtaken :
    ∃ state, TransitionSystem.Reach (hostedSystem sampleConfig oneWorker queuesOfFour) (fun _ _ => True) state ∧
      ¬∀ pair ∈ state.performed, pair.2 = pair.1 := by
  have ran : (runHosted sampleConfig oneWorker queuesOfFour (fun _ _ => true) overtaken emptyQueues).any (fun state =>
      state.performed.any fun pair => isWrite pair.2.cmd && !isWrite pair.1.cmd) = true := by decide +kernel
  obtain ⟨last, ran, found⟩ := (Option.any_eq_true _ _).mp ran
  refine ⟨last, run_hosted_reach _ _ _ _ _ (fun _ _ _ => trivial) _ _ _ (empty_queues_reached _) ran, fun kept => ?_⟩
  obtain ⟨pair, member, differ⟩ := List.any_eq_true.mp found
  rw [kept pair member] at differ
  cases here : isWrite pair.1.cmd <;> simp [here] at differ

end Overtaken

end ConZone
