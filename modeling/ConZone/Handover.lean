import ConZone.Duties
import ConZone.Locks
import Mathlib.Algebra.BigOperators.Group.Finset.Piecewise

set_option autoImplicit false

namespace ConZone

structure IoThreads where
  nrIoWorkers : Nat
  positive : 0 < nrIoWorkers

-- CONFIG_NVMEV_IO_WORKER_BY_SQ.
def getIoWorker (threads : IoThreads) (sqid : Nat) : Nat := (sqid - 1) % threads.nrIoWorkers

-- An entry of a submission queue that the dispatcher comes to, and what the two
-- clocks read then.
structure IoCall where
  sqid : Nat
  cqid : Nat
  sqEntry : Nat
  commandId : Nat
  loc : Loc
  cmd : HostCommand
  nsecsStart : Nat
  nsecsEnqueue : Nat

-- accepted and posted are the commands the dispatcher has moved past and those
-- whose completion the host has got.
structure IoDevice where
  ftls : DualFtl
  storage : Storage
  workers : Nat → WorkerState
  accepted : List Duty
  posted : List Duty

def callDuty (call : IoCall) : Duty := .command call.sqid call.cqid call.commandId

def callRequest (call : IoCall) : Request := ⟨call.sqid, call.nsecsStart⟩

def internalItem (call : IoCall) (scheduled : Nat × Nat) : WorkItem :=
  .internal call.sqid call.nsecsEnqueue scheduled.2 (call.loc, scheduled.1) 0

def ioReqItem (call : IoCall) (done : Completion) : WorkItem :=
  .ioReq call.sqid call.cqid call.sqEntry call.commandId call.nsecsStart call.nsecsEnqueue done.nsecsTarget done.status

-- The handler schedules its releases while it runs, before the command itself
-- goes to the worker.
def callItems (call : IoCall) (attempt : Attempt) : List WorkItem :=
  attempt.ftl.scheduled.map (internalItem call) ++ attempt.done.toList.map (ioReqItem call)

def reclaimAll (threads : IoThreads) (workers : Nat → WorkerState) : Nat → WorkerState := fun turn =>
  if turn < threads.nrIoWorkers then reclaimStep (workers turn) else workers turn

-- __nvmev_proc_io and what it returns.
def nvmevProcIo (config : DualConfig) (threads : IoThreads) (state : IoDevice) (call : IoCall) : Exec (Bool × IoDevice) := do
  let attempt ← procIoCmd (dualParams config call.loc) (nsMapped config call.loc) (state.ftls call.loc) state.storage (callRequest call) call.cmd
  let turn := getIoWorker threads call.sqid
  let workers := Function.update state.workers turn ((callItems call attempt).foldl enqueueStep (state.workers turn))
  let ftls := ranOn state.ftls call.loc { attempt.ftl with scheduled := [] }
  if attempt.done.isSome then
    pure (true, { state with ftls := ftls, storage := attempt.storage, workers := reclaimAll threads workers,
                             accepted := state.accepted ++ [callDuty call] })
  else pure (false, { state with ftls := ftls, storage := attempt.storage, workers := workers })

-- What completing an entry does: buffer_release or __fill_cq_result.
def discharge (state : IoDevice) (duty : Duty) : IoDevice :=
  match duty with
  | .release (some (loc, index)) => { state with ftls := ranOn state.ftls loc (bufferRelease (state.ftls loc) index) }
  | .release none => state
  | .command _ _ _ => { state with posted := state.posted ++ [duty] }

def completeOn (state : IoDevice) (turn curr : Nat) : IoDevice :=
  let worker := (state.workers turn).worker
  let after := { state with workers := Function.update state.workers turn (completeStep (state.workers turn) curr) }
  if targets worker curr ≤ worker.latestNsecs then discharge after (dutyOf (worker.workQueue curr)) else after

inductive DeviceEvent where
  | procIo (call : IoCall)
  | pass (turn : Nat) (event : WorkerEvent) (storage : Storage)
  | complete (turn : Nat)

inductive DeviceStep (config : DualConfig) (threads : IoThreads) : IoDevice → DeviceEvent → IoDevice → Prop where
  | procIo (state next : IoDevice) (call : IoCall) (accepted : Bool)
      (ran : nvmevProcIo config threads state call = .ok (accepted, next)) : DeviceStep config threads state (.procIo call) next
  | pass (state : IoDevice) (turn : Nat) (event : WorkerEvent) (next : WorkerState) (storage : Storage)
      (inside : turn < threads.nrIoWorkers) (own : ownStep event = true) (other : event ≠ .complete)
      (taken : WorkerStep (state.workers turn) event next) :
      DeviceStep config threads state (.pass turn event storage)
        { state with workers := Function.update state.workers turn next, storage := storage }
  | complete (state : IoDevice) (turn curr : Nat) (inside : turn < threads.nrIoWorkers) (here : (state.workers turn).pc = .due curr) :
      DeviceStep config threads state (.complete turn) (completeOn state turn curr)

def deviceInit (config : DualConfig) (clock : Nat → Nat) : IoDevice :=
  { ftls := dualRealize config clock, storage := fun _ => 0, workers := fun _ => workerInit, accepted := [], posted := [] }

def deviceSystem (config : DualConfig) (threads : IoThreads) : TransitionSystem.System IoDevice DeviceEvent :=
  ⟨fun state => ∃ clock, state = deviceInit config clock, DeviceStep config threads⟩

def insertedDuties (before after : NvmevIoWorker) : List Duty :=
  ((activeEntries after).filter fun entry => entry ∉ activeEntries before).map fun entry => dutyOf (after.workQueue entry)

def insertedCount (threads : IoThreads) (before after : IoDevice) (duty : Duty) : Nat :=
  ∑ turn ∈ Finset.range threads.nrIoWorkers,
    (insertedDuties (before.workers turn).worker (after.workers turn).worker).count duty

def bufferBusy (state : IoDevice) (buffer : BufferRef) : Bool := ((state.ftls buffer.1).writeBuffer buffer.2).busy

structure NothingLost (threads : IoThreads) (before after : IoDevice) (call : IoCall) : Prop where
  command : insertedCount threads before after (callDuty call) = 1
  releases : ∀ buffer, bufferBusy before buffer = false → bufferBusy after buffer = true →
    insertedCount threads before after (.release (some buffer)) = 1

-- The last free entry of a worker is never given out.
def RoomFor (config : DualConfig) (threads : IoThreads) (state : IoDevice) (call : IoCall) : Prop :=
  entriesNeeded (dualParams config call.loc) (state.ftls call.loc) (callRequest call) call.cmd <
    (freeEntries (state.workers (getIoWorker threads call.sqid)).worker).length

def CallsHaveRoom (config : DualConfig) (threads : IoThreads) (state : IoDevice) : DeviceEvent → Prop
  | .procIo call => RoomFor config threads state call
  | .pass _ _ _ | .complete _ => True

def outstanding (threads : IoThreads) (state : IoDevice) (duty : Duty) : Nat :=
  ∑ turn ∈ Finset.range threads.nrIoWorkers, (duties (state.workers turn).worker).count duty

-- Every accepted command has been completed or is outstanding, and a buffer is
-- locked just as long as its release is.
structure Balanced (threads : IoThreads) (state : IoDevice) : Prop where
  commands : ∀ sqid cqid commandId, state.accepted.count (.command sqid cqid commandId) =
    state.posted.count (.command sqid cqid commandId) + outstanding threads state (.command sqid cqid commandId)
  buffers : ∀ buffer, outstanding threads state (.release (some buffer)) = if bufferBusy state buffer then 1 else 0

section Duties

variable (threads : IoThreads)

theorem get_io_worker_inside (sqid : Nat) : getIoWorker threads sqid < threads.nrIoWorkers := Nat.mod_lt _ threads.positive

theorem enqueue_step_worker (state : WorkerState) (item : WorkItem) : (enqueueStep state item).worker = enqueueItem state.worker item := by
  simp only [enqueueStep]
  split
  · rfl
  · rfl

theorem enqueue_steps_worker (items : List WorkItem) (state : WorkerState) :
    (items.foldl enqueueStep state).worker = items.foldl enqueueItem state.worker := by
  induction items generalizing state with
  | nil => rfl
  | cons item items ih => rw [List.foldl_cons, List.foldl_cons, ih, enqueue_step_worker]

theorem enqueue_steps_reach (items : List WorkItem) (state : WorkerState)
    (reached : TransitionSystem.Reach workerSystem (fun _ _ => True) state) :
    TransitionSystem.Reach workerSystem (fun _ _ => True) (items.foldl enqueueStep state) := by
  induction items generalizing state with
  | nil => exact reached
  | cons item items ih =>
      apply ih
      exact .next state _ (.enqueue item) reached trivial (.enqueue state item)

theorem reached_sound (state : WorkerState) (reached : TransitionSystem.Reach workerSystem (fun _ _ => True) state) :
    ∃ active fresh used, WorkerSound state active fresh used :=
  TransitionSystem.reach_invariant _ _ _ (worker_sound_invariant _) state reached

theorem sum_update (count : WorkerState → Nat) (workers : Nat → WorkerState) (turn : Nat) (next : WorkerState)
    (inside : turn < threads.nrIoWorkers) :
    (∑ other ∈ Finset.range threads.nrIoWorkers, count (Function.update workers turn next other)) + count (workers turn) =
      (∑ other ∈ Finset.range threads.nrIoWorkers, count (workers other)) + count next := by
  have member : turn ∈ Finset.range threads.nrIoWorkers := Finset.mem_range.mpr inside
  rw [← Finset.add_sum_erase _ _ member, ← Finset.add_sum_erase _ (fun other => count (workers other)) member, Function.update_self]
  have rest : ∑ other ∈ (Finset.range threads.nrIoWorkers).erase turn, count (Function.update workers turn next other) =
      ∑ other ∈ (Finset.range threads.nrIoWorkers).erase turn, count (workers other) := by
    apply Finset.sum_congr rfl
    intro other found
    rw [Function.update_of_ne (Finset.ne_of_mem_erase found)]
  omega

theorem pass_duties (state next : WorkerState) (event : WorkerEvent) (own : ownStep event = true) (other : event ≠ .complete)
    (taken : WorkerStep state event next) : duties next.worker = duties state.worker := by
  obtain ⟨entries, works⟩ := pass_entries state next event own other taken
  rw [duties, entries]
  apply duties_kept
  · intro entry _
    rcases works entry with same | ⟨performed, _, _, copied⟩
    · rw [isPending, same, isPending]
    · rw [isPending, copied, copy_work_completed, isPending]
  · intro entry _
    rcases works entry with same | ⟨performed, _, _, copied⟩
    · rw [same]
    · rw [copied, copy_work_duty]

theorem handed_inserted (worker after : NvmevIoWorker) (active free taken active' rest : List Nat) (items : List WorkItem)
    (threaded : Threaded worker active free) (handed : Handed worker active free items after taken active' rest) :
    (insertedDuties worker after).Perm ((items.take taken.length).map itemDuty) := by
  have apart := handed_apart worker active free items after taken active' rest threaded handed
  rw [insertedDuties, active_entries_are worker active free threaded, active_entries_are after active' rest handed.threaded, ← handed.filled]
  apply List.Perm.map
  have joined := handed.joined.filter fun entry => entry ∉ active
  have new : taken.filter (fun entry => entry ∉ active) = taken := by
    apply List.filter_eq_self.mpr
    intro entry found
    exact decide_eq_true fun old => apart entry old found
  have old : active.filter (fun entry => entry ∉ active) = [] := by
    apply List.filter_eq_nil_iff.mpr
    intro entry found
    simpa using found
  rwa [List.filter_append, new, old, List.append_nil] at joined

theorem reclaim_inserted (worker after : NvmevIoWorker) (active free : List Nat) (threaded : Threaded after active free)
    (pending : ∀ entry ∈ active, entry ∉ activeEntries worker → isPending after entry = true) :
    insertedDuties worker (reclaimCompletedReqs after) = insertedDuties worker after := by
  obtain ⟨gone, left, split, passed, linked⟩ := reclaim_threaded after active free threaded
  have same := fun entry => relinked_content _ _ (reclaim_relinked after) entry
  have old : gone.filter (fun entry => entry ∉ activeEntries worker) = [] := by
    apply List.filter_eq_nil_iff.mpr
    intro entry found
    have inActive : entry ∈ active := by
      rw [split]
      exact List.mem_append_left left found
    rw [passed] at found
    have all := List.mem_takeWhile_imp found
    simp only [isReclaimable, Bool.and_eq_true] at all
    by_cases known : entry ∈ activeEntries worker
    · simpa using known
    · have waits := pending entry inActive known
      simp [isPending, all.1.1] at waits
  rw [insertedDuties, insertedDuties, active_entries_are _ left _ linked, active_entries_are after active free threaded, split,
    List.filter_append, old, List.nil_append]
  apply List.map_congr_left
  intro entry _
  exact same_content_duty _ _ (same entry)

theorem nothing_inserted (worker : NvmevIoWorker) : insertedDuties worker worker = [] := by
  have none : (activeEntries worker).filter (fun entry => entry ∉ activeEntries worker) = [] := by
    apply List.filter_eq_nil_iff.mpr
    intro entry found
    simpa using found
  rw [insertedDuties, none, List.map_nil]

end Duties

structure DeviceSound (state : IoDevice) : Prop where
  workers : ∀ turn, TransitionSystem.Reach workerSystem (fun _ _ => True) (state.workers turn)
  clean : ∀ loc, (state.ftls loc).scheduled = []

section Dispatcher

variable (config : DualConfig) (threads : IoThreads) (state next : IoDevice) (call : IoCall) (accepted : Bool)

def handedDuties (attempt : Attempt) : List Duty :=
  ((callItems call attempt).take ((freeEntries (state.workers (getIoWorker threads call.sqid)).worker).length - 1)).map itemDuty

structure CallRun (attempt : Attempt) (taken : Option (Nat × Nat)) : Prop where
  takes : Takes (state.ftls call.loc) attempt.ftl taken
  scheduled : attempt.ftl.scheduled = taken.toList
  needed : entriesNeeded (dualParams config call.loc) (state.ftls call.loc) (callRequest call) call.cmd = (callItems call attempt).length
  answered : accepted = attempt.done.isSome
  ftls : next.ftls = ranOn state.ftls call.loc { attempt.ftl with scheduled := [] }
  inserted : ∀ duty, insertedCount threads state next duty = (handedDuties threads state call attempt).count duty
  outstanding : ∀ duty, outstanding threads next duty = outstanding threads state duty + (handedDuties threads state call attempt).count duty
  workers : ∀ turn, TransitionSystem.Reach workerSystem (fun _ _ => True) (next.workers turn)
  log : next.accepted = if accepted then state.accepted ++ [callDuty call] else state.accepted
  posted : next.posted = state.posted

theorem reclaim_all_worker (workers : Nat → WorkerState) (turn : Nat) (reached : ∀ turn, TransitionSystem.Reach workerSystem (fun _ _ => True) (workers turn)) :
    TransitionSystem.Reach workerSystem (fun _ _ => True) (reclaimAll threads workers turn) ∧
      duties (reclaimAll threads workers turn).worker = duties (workers turn).worker := by
  unfold reclaimAll
  split
  · obtain ⟨active, fresh, used, sound⟩ := reached_sound (workers turn) (reached turn)
    exact ⟨.next _ _ .reclaim (reached turn) trivial (.reclaim _), reclaim_duties _ active (fresh ++ used) sound.threaded⟩
  · exact ⟨reached turn, rfl⟩

theorem items_given (sound : DeviceSound state) (attempt : Attempt) (workers : Nat → WorkerState)
    (given : workers = Function.update state.workers (getIoWorker threads call.sqid)
      ((callItems call attempt).foldl enqueueStep (state.workers (getIoWorker threads call.sqid)))) (turn : Nat) (duty : Duty) :
    TransitionSystem.Reach workerSystem (fun _ _ => True) (workers turn) ∧
      (insertedDuties (state.workers turn).worker (workers turn).worker).count duty =
        (if turn = getIoWorker threads call.sqid then (handedDuties threads state call attempt).count duty else 0) ∧
      insertedDuties (state.workers turn).worker (reclaimAll threads workers turn).worker =
        insertedDuties (state.workers turn).worker (workers turn).worker ∧
      (duties (workers turn).worker).count duty = (duties (state.workers turn).worker).count duty +
        (if turn = getIoWorker threads call.sqid then (handedDuties threads state call attempt).count duty else 0) := by
  obtain ⟨active, fresh, used, listed⟩ := reached_sound _ (sound.workers turn)
  have reclaims : ∀ active' free', Threaded (workers turn).worker active' free' →
      (∀ entry ∈ active', entry ∉ activeEntries (state.workers turn).worker → isPending (workers turn).worker entry = true) →
      insertedDuties (state.workers turn).worker (reclaimAll threads workers turn).worker =
        insertedDuties (state.workers turn).worker (workers turn).worker := by
    intro active' free' linked pending
    unfold reclaimAll
    split
    · exact reclaim_inserted _ _ active' free' linked pending
    · rfl
  by_cases same : turn = getIoWorker threads call.sqid
  · obtain ⟨taken, active', rest, handed⟩ := items_handed _ active (fresh ++ used) (callItems call attempt) listed.threaded
    have here : workers turn = (callItems call attempt).foldl enqueueStep (state.workers turn) := by
      rw [given, same, Function.update_self]
    have worker : (workers turn).worker = (callItems call attempt).foldl enqueueItem (state.workers turn).worker := by
      rw [here, enqueue_steps_worker]
    rw [← worker] at handed
    have taking : ((callItems call attempt).take taken.length).map itemDuty = handedDuties threads state call attempt := by
      have free := free_entries_are _ active (fresh ++ used) listed.threaded
      rw [handedDuties, ← same, free]
      congr 1
      apply List.take_eq_take_iff.mpr
      have count := handed.count
      omega
    have inserted := (handed_inserted _ _ _ _ _ _ _ _ listed.threaded handed).count_eq duty
    have added := (handed_duties _ _ _ _ _ _ _ _ listed.threaded handed).count_eq duty
    rw [taking] at inserted added
    rw [List.count_append] at added
    simp only [if_pos same]
    refine ⟨?_, inserted, reclaims active' rest handed.threaded ?_, by omega⟩
    · rw [here]
      exact enqueue_steps_reach _ _ (sound.workers turn)
    · intro entry found new
      rw [active_entries_are _ active _ listed.threaded] at new
      rcases List.mem_append.mp (handed.joined.mem_iff.mp found) with inTaken | old
      · exact handed.pending entry inTaken
      · exact absurd old new
  · have here : workers turn = state.workers turn := by
      rw [given, Function.update_of_ne same]
    rw [here] at reclaims ⊢
    simp only [if_neg same, nothing_inserted]
    refine ⟨sound.workers turn, rfl, ?_, rfl⟩
    have kept := reclaims active _ listed.threaded fun entry found new => ?_
    · rwa [nothing_inserted] at kept
    · rw [active_entries_are _ active _ listed.threaded] at new
      exact absurd found new

theorem call_items_length (attempt : Attempt) (taken : Option (Nat × Nat)) (scheduled : attempt.ftl.scheduled = taken.toList) :
    (callItems call attempt).length = taken.toList.length + (if attempt.done.isSome then 1 else 0) := by
  rw [callItems, List.length_append, List.length_map, List.length_map, scheduled]
  cases attempt.done <;> rfl

def calledDevice (attempt : Attempt) (given : Nat → WorkerState) : IoDevice :=
  { ftls := ranOn state.ftls call.loc { attempt.ftl with scheduled := [] }, storage := attempt.storage,
    workers := if accepted then reclaimAll threads given else given,
    accepted := if accepted then state.accepted ++ [callDuty call] else state.accepted, posted := state.posted }

def givenWorkers (attempt : Attempt) : Nat → WorkerState :=
  Function.update state.workers (getIoWorker threads call.sqid)
    ((callItems call attempt).foldl enqueueStep (state.workers (getIoWorker threads call.sqid)))

theorem proc_io_runs (ran : nvmevProcIo config threads state call = .ok (accepted, next)) :
    ∃ attempt, procIoCmd (dualParams config call.loc) (nsMapped config call.loc) (state.ftls call.loc) state.storage (callRequest call) call.cmd =
        .ok attempt ∧ accepted = attempt.done.isSome ∧
      next = calledDevice threads state call accepted attempt (givenWorkers threads state call attempt) := by
  obtain ⟨attempt, handled, rest⟩ := bind_ok _ _ _ ran
  dsimp only at rest
  cases done : attempt.done.isSome with
  | true =>
      rw [done, if_pos rfl] at rest
      obtain ⟨same, rfl⟩ := Prod.mk.inj (pure_ok _ _ rest)
      refine ⟨attempt, handled, same.symm.trans done.symm, ?_⟩
      rw [← same]
      rfl
  | false =>
      rw [done, if_neg Bool.false_ne_true] at rest
      obtain ⟨same, rfl⟩ := Prod.mk.inj (pure_ok _ _ rest)
      refine ⟨attempt, handled, same.symm.trans done.symm, ?_⟩
      rw [← same]
      rfl

theorem call_run (sound : DeviceSound state) (ran : nvmevProcIo config threads state call = .ok (accepted, next)) :
    ∃ attempt taken, CallRun config threads state next call accepted attempt taken := by
  obtain ⟨attempt, handled, answered, same⟩ := proc_io_runs config threads state next call accepted ran
  obtain ⟨taken, takes, needed⟩ := attempt_takes _ _ _ _ _ _ attempt handled
  have scheduled := takes.scheduled
  rw [sound.clean, List.nil_append] at scheduled
  have length := call_items_length call attempt taken scheduled
  have gives := items_given threads state call sound attempt (givenWorkers threads state call attempt) rfl
  generalize givenWorkers threads state call attempt = workers at gives same
  have member : getIoWorker threads call.sqid ∈ Finset.range threads.nrIoWorkers := Finset.mem_range.mpr (get_io_worker_inside threads call.sqid)
  have inserts : ∀ duty, (∑ turn ∈ Finset.range threads.nrIoWorkers,
      (insertedDuties (state.workers turn).worker (workers turn).worker).count duty) = (handedDuties threads state call attempt).count duty := by
    intro duty
    rw [Finset.sum_congr rfl fun turn _ => (gives turn duty).2.1, Finset.sum_ite_eq', if_pos member]
  have adds : ∀ duty, (∑ turn ∈ Finset.range threads.nrIoWorkers, (duties (workers turn).worker).count duty) =
      outstanding threads state duty + (handedDuties threads state call attempt).count duty := by
    intro duty
    rw [Finset.sum_congr rfl fun turn _ => (gives turn duty).2.2.2, Finset.sum_add_distrib, Finset.sum_ite_eq', if_pos member]
    rfl
  have reached := fun turn => (gives turn (callDuty call)).1
  rw [same]
  cases accepted with
  | true =>
      have reclaims := fun turn => reclaim_all_worker threads workers turn reached
      refine ⟨attempt, taken, takes, scheduled, needed.trans length.symm, answered, rfl, ?_, ?_, ?_, rfl, rfl⟩
      · intro duty
        rw [← inserts duty]
        apply Finset.sum_congr rfl
        intro turn _
        exact congrArg (List.count duty) (gives turn duty).2.2.1
      · intro duty
        rw [← adds duty]
        apply Finset.sum_congr rfl
        intro turn _
        exact congrArg (List.count duty) (reclaims turn).2
      · exact fun turn => (reclaims turn).1
  | false => exact ⟨attempt, taken, takes, scheduled, needed.trans length.symm, answered, rfl, inserts, adds, reached, rfl, rfl⟩

def commandEntry (attempt : Attempt) : Option Nat :=
  (allocateWorkQueueEntry ((attempt.ftl.scheduled.map (internalItem call)).foldl enqueueStep
    (state.workers (getIoWorker threads call.sqid))).worker).map Prod.fst

theorem same_content_internal (first second : NvmevIoWork) (same : contentOf first = contentOf second) :
    first.isInternal = second.isInternal := congrArg (fun work => work.isInternal) same

theorem releases_entries (releases : List (Nat × Nat)) (worker : WorkerState)
    (reached : TransitionSystem.Reach workerSystem (fun _ _ => True) worker) (entry : Nat) :
    (entry ∈ activeEntries worker.worker → entry ∈ activeEntries ((releases.map (internalItem call)).foldl enqueueStep worker).worker ∧
      contentOf (((releases.map (internalItem call)).foldl enqueueStep worker).worker.workQueue entry) =
        contentOf (worker.worker.workQueue entry)) ∧
    (entry ∈ activeEntries ((releases.map (internalItem call)).foldl enqueueStep worker).worker →
      (((releases.map (internalItem call)).foldl enqueueStep worker).worker.workQueue entry).isInternal = false →
        entry ∈ activeEntries worker.worker) := by
  induction releases generalizing worker with
  | nil => exact ⟨fun member => ⟨member, rfl⟩, fun member _ => member⟩
  | cons scheduled rest ih =>
      obtain ⟨active, fresh, used, listed⟩ := reached_sound worker reached
      obtain ⟨keeps, brings⟩ := ih (enqueueStep worker (internalItem call scheduled)) (.next worker _ (.enqueue _) reached trivial (.enqueue worker _))
      rw [List.map_cons, List.foldl_cons]
      rw [enqueue_step_worker] at keeps brings
      refine ⟨?_, ?_⟩
      · intro member
        obtain ⟨still, same, _⟩ := enqueue_keeps worker.worker active (fresh ++ used) (internalItem call scheduled) listed.threaded entry member
        exact ⟨(keeps still).1, (keeps still).2.trans same⟩
      · intro member external
        have inside := brings member external
        rcases enqueue_entries worker.worker active (fresh ++ used) (internalItem call scheduled) listed.threaded entry inside with
          ⟨old, _⟩ | ⟨_, same⟩
        · exact old
        · rw [same_content_internal _ _ ((keeps inside).2.trans same)] at external
          cases external

theorem given_reached (sound : DeviceSound state) (attempt : Attempt) (turn : Nat) :
    TransitionSystem.Reach workerSystem (fun _ _ => True) (givenWorkers threads state call attempt turn) :=
  (items_given threads state call sound attempt _ rfl turn (callDuty call)).1

theorem enqueue_steps_pc (items : List WorkItem) (worker : WorkerState) : (items.foldl enqueueStep worker).pc = worker.pc := by
  induction items generalizing worker with
  | nil => rfl
  | cons item items ih =>
      rw [List.foldl_cons, ih]
      simp only [enqueueStep]
      split
      · rfl
      · rfl

theorem given_pc (attempt : Attempt) (turn : Nat) : (givenWorkers threads state call attempt turn).pc = (state.workers turn).pc := by
  by_cases same : turn = getIoWorker threads call.sqid
  · rw [givenWorkers, same, Function.update_self]
    exact enqueue_steps_pc _ _
  · rw [givenWorkers, Function.update_of_ne same]

theorem given_keeps (sound : DeviceSound state) (attempt : Attempt) (turn entry : Nat) (member : entry ∈ activeEntries (state.workers turn).worker) :
    contentOf ((givenWorkers threads state call attempt turn).worker.workQueue entry) = contentOf ((state.workers turn).worker.workQueue entry) ∧
      (turn = getIoWorker threads call.sqid → commandEntry threads state call attempt ≠ some entry) := by
  by_cases same : turn = getIoWorker threads call.sqid
  · have here : givenWorkers threads state call attempt turn = (callItems call attempt).foldl enqueueStep (state.workers turn) := by
      rw [givenWorkers, same, Function.update_self]
    obtain ⟨still, kept⟩ := (releases_entries call attempt.ftl.scheduled _ (sound.workers turn) entry).1 member
    have reached := enqueue_steps_reach (attempt.ftl.scheduled.map (internalItem call)) _ (sound.workers turn)
    obtain ⟨active, fresh, used, listed⟩ := reached_sound _ reached
    rw [here]
    refine ⟨?_, fun _ => ?_⟩
    · rw [callItems, List.foldl_append]
      cases attempt.done with
      | none => exact kept
      | some done =>
          rw [Option.toList_some, List.map_cons, List.map_nil, List.foldl_cons, List.foldl_nil, enqueue_step_worker]
          exact (enqueue_keeps _ active (fresh ++ used) (ioReqItem call done) listed.threaded entry still).2.1.trans kept
    · rw [commandEntry, ← same]
      exact (enqueue_keeps _ active (fresh ++ used) (internalItem call (0, 0)) listed.threaded entry still).2.2
  · have here : givenWorkers threads state call attempt turn = state.workers turn := by
      rw [givenWorkers, Function.update_of_ne same]
    rw [here]
    exact ⟨rfl, fun wrong => absurd wrong same⟩

theorem given_entries (sound : DeviceSound state) (attempt : Attempt) (turn entry : Nat)
    (member : entry ∈ activeEntries (givenWorkers threads state call attempt turn).worker)
    (external : ((givenWorkers threads state call attempt turn).worker.workQueue entry).isInternal = false) :
    entry ∈ activeEntries (state.workers turn).worker ∨
      turn = getIoWorker threads call.sqid ∧ commandEntry threads state call attempt = some entry ∧
        ∃ done before, attempt.done = some done ∧
          contentOf ((givenWorkers threads state call attempt turn).worker.workQueue entry) = contentOf (fillWork before (ioReqItem call done)) := by
  by_cases same : turn = getIoWorker threads call.sqid
  · have here : givenWorkers threads state call attempt turn = (callItems call attempt).foldl enqueueStep (state.workers turn) := by
      rw [givenWorkers, same, Function.update_self]
    rw [here, callItems, List.foldl_append] at member external ⊢
    have reached := enqueue_steps_reach (attempt.ftl.scheduled.map (internalItem call)) _ (sound.workers turn)
    have brings := (releases_entries call attempt.ftl.scheduled _ (sound.workers turn) entry).2
    cases done : attempt.done with
    | none =>
        rw [done] at member external
        exact .inl (brings member external)
    | some result =>
        rw [done] at member external
        simp only [Option.toList_some, List.map_cons, List.map_nil, List.foldl_cons, List.foldl_nil, enqueue_step_worker] at member external ⊢
        obtain ⟨active, fresh, used, listed⟩ := reached_sound _ reached
        rcases enqueue_entries _ active (fresh ++ used) (ioReqItem call result) listed.threaded entry member with ⟨old, kept⟩ | ⟨given, kept⟩
        · left
          rw [same_content_internal _ _ kept] at external
          exact brings old external
        · right
          refine ⟨same, ?_, result, _, rfl, kept⟩
          rw [commandEntry, ← same]
          exact given
  · have here : givenWorkers threads state call attempt turn = state.workers turn := by
      rw [givenWorkers, Function.update_of_ne same]
    rw [here] at member
    exact .inl member

theorem called_back (sound : DeviceSound state) (attempt : Attempt) (turn entry : Nat) :
    contentOf (((calledDevice threads state call accepted attempt (givenWorkers threads state call attempt)).workers turn).worker.workQueue entry) =
        contentOf ((givenWorkers threads state call attempt turn).worker.workQueue entry) ∧
      ((calledDevice threads state call accepted attempt (givenWorkers threads state call attempt)).workers turn).pc =
        (givenWorkers threads state call attempt turn).pc ∧
      (entry ∈ activeEntries ((calledDevice threads state call accepted attempt (givenWorkers threads state call attempt)).workers turn).worker →
        entry ∈ activeEntries (givenWorkers threads state call attempt turn).worker) := by
  obtain ⟨active, fresh, used, listed⟩ := reached_sound _ (given_reached threads state call sound attempt turn)
  have reclaims := fun member => (reclaim_entries _ active (fresh ++ used) listed.threaded entry member).1
  have kept := relinked_content _ _ (reclaim_relinked (givenWorkers threads state call attempt turn).worker) entry
  cases accepted with
  | false => exact ⟨rfl, rfl, fun member => member⟩
  | true =>
      by_cases inside : turn < threads.nrIoWorkers
      · have workers : (calledDevice threads state call true attempt (givenWorkers threads state call attempt)).workers turn =
            reclaimStep (givenWorkers threads state call attempt turn) := if_pos inside
        rw [workers]
        exact ⟨kept, rfl, reclaims⟩
      · have workers : (calledDevice threads state call true attempt (givenWorkers threads state call attempt)).workers turn =
            givenWorkers threads state call attempt turn := if_neg inside
        rw [workers]
        exact ⟨rfl, rfl, fun member => member⟩

theorem called_entries (sound : DeviceSound state) (attempt : Attempt) (answered : accepted = attempt.done.isSome) (turn entry : Nat)
    (member : entry ∈ activeEntries ((calledDevice threads state call accepted attempt (givenWorkers threads state call attempt)).workers turn).worker)
    (external : (((calledDevice threads state call accepted attempt (givenWorkers threads state call attempt)).workers turn).worker.workQueue
      entry).isInternal = false) :
    entry ∈ activeEntries (state.workers turn).worker ∨
      accepted = true ∧ turn = getIoWorker threads call.sqid ∧ commandEntry threads state call attempt = some entry ∧
        ∃ done before, attempt.done = some done ∧
          contentOf (((calledDevice threads state call accepted attempt (givenWorkers threads state call attempt)).workers turn).worker.workQueue
            entry) = contentOf (fillWork before (ioReqItem call done)) := by
  obtain ⟨same, _, back⟩ := called_back threads state call accepted sound attempt turn entry
  rw [same_content_internal _ _ same] at external
  rw [same]
  rcases given_entries threads state call sound attempt turn entry (back member) external with old | ⟨here, given, done, before, finished, kept⟩
  · exact .inl old
  · refine .inr ⟨?_, here, given, done, before, finished, kept⟩
    rw [answered, finished]
    rfl

theorem called_keeps (sound : DeviceSound state) (attempt : Attempt) (turn entry : Nat) (member : entry ∈ activeEntries (state.workers turn).worker) :
    contentOf (((calledDevice threads state call accepted attempt (givenWorkers threads state call attempt)).workers turn).worker.workQueue entry) =
        contentOf ((state.workers turn).worker.workQueue entry) ∧
      (turn = getIoWorker threads call.sqid → commandEntry threads state call attempt ≠ some entry) := by
  obtain ⟨same, _, _⟩ := called_back threads state call accepted sound attempt turn entry
  obtain ⟨kept, apart⟩ := given_keeps threads state call sound attempt turn entry member
  exact ⟨same.trans kept, apart⟩

def recordEntry {α : Type} (table : Nat → Nat → α) (turn : Nat) (entry : Option Nat) (value : α) : Nat → Nat → α :=
  match entry with
  | none => table
  | some entry => Function.update table turn (Function.update (table turn) entry value)

theorem record_other {α : Type} (table : Nat → Nat → α) (turn other entry : Nat) (given : Option Nat) (value : α)
    (apart : other = turn → given ≠ some entry) : recordEntry table turn given value other entry = table other entry := by
  cases given with
  | none => rfl
  | some first =>
      by_cases same : other = turn
      · have different : entry ≠ first := fun wrong => apart same (by rw [wrong])
        simp [recordEntry, same, different]
      · simp [recordEntry, same]

theorem record_given {α : Type} (table : Nat → Nat → α) (turn entry : Nat) (value : α) :
    recordEntry table turn (some entry) value turn entry = value := by
  simp [recordEntry]

def takenBuffer (taken : Option (Nat × Nat)) : Option BufferRef := taken.map fun buffer => (call.loc, buffer.1)

theorem call_busy (attempt : Attempt) (taken : Option (Nat × Nat)) (run : CallRun config threads state next call accepted attempt taken)
    (buffer : BufferRef) : bufferBusy next buffer = true ↔ bufferBusy state buffer = true ∨ takenBuffer call taken = some buffer := by
  obtain ⟨loc, index⟩ := buffer
  rw [bufferBusy, run.ftls]
  by_cases same : loc = call.loc
  · have ran : ranOn state.ftls call.loc { attempt.ftl with scheduled := [] } loc = { attempt.ftl with scheduled := [] } := if_pos same
    rw [ran, bufferBusy, same]
    have locks := run.takes.locks index
    cases taken with
    | none => simpa [takenBuffer] using locks
    | some first => simpa [takenBuffer] using locks
  · have ran : ranOn state.ftls call.loc { attempt.ftl with scheduled := [] } loc =
        shareSsd { attempt.ftl with scheduled := [] } (state.ftls loc) := if_neg same
    have apart : takenBuffer call taken ≠ some (loc, index) := by
      intro wrong
      obtain ⟨first, _, here⟩ := Option.map_eq_some_iff.mp wrong
      exact same (congrArg Prod.fst here).symm
    rw [ran]
    exact ⟨Or.inl, fun either => either.resolve_right apart⟩

theorem taken_unlocked (attempt : Attempt) (taken : Option (Nat × Nat)) (run : CallRun config threads state next call accepted attempt taken)
    (buffer : BufferRef) (same : takenBuffer call taken = some buffer) : bufferBusy state buffer = false := by
  obtain ⟨first, found, here⟩ := Option.map_eq_some_iff.mp same
  rw [← here]
  exact run.takes.unlocked first.1 first.2 found

theorem handed_all (attempt : Attempt) (taken : Option (Nat × Nat)) (run : CallRun config threads state next call accepted attempt taken)
    (room : RoomFor config threads state call) :
    handedDuties threads state call attempt =
      (takenBuffer call taken).toList.map (fun buffer => .release (some buffer)) ++ attempt.done.toList.map fun _ => callDuty call := by
  rw [RoomFor, run.needed] at room
  rw [handedDuties, List.take_of_length_le (by omega), callItems, run.scheduled, List.map_append, List.map_map, List.map_map]
  congr 1
  cases taken <;> rfl

theorem handed_release (attempt : Attempt) (taken : Option (Nat × Nat)) (run : CallRun config threads state next call accepted attempt taken)
    (room : RoomFor config threads state call) (buffer : BufferRef) :
    (handedDuties threads state call attempt).count (.release (some buffer)) = if takenBuffer call taken = some buffer then 1 else 0 := by
  have commands : (attempt.done.toList.map fun _ => callDuty call).count (.release (some buffer)) = 0 := by
    cases attempt.done with
    | none => rfl
    | some done => simp [callDuty]
  rw [handed_all config threads state next call accepted attempt taken run room, List.count_append, commands]
  cases takenBuffer call taken with
  | none => rfl
  | some other => simp [List.count_singleton]

theorem handed_command (attempt : Attempt) (taken : Option (Nat × Nat)) (run : CallRun config threads state next call accepted attempt taken)
    (room : RoomFor config threads state call) (sqid cqid commandId : Nat) :
    (handedDuties threads state call attempt).count (.command sqid cqid commandId) =
      if accepted = true ∧ callDuty call = .command sqid cqid commandId then 1 else 0 := by
  have releases : ((takenBuffer call taken).toList.map fun buffer => Duty.release (some buffer)).count (.command sqid cqid commandId) = 0 := by
    cases takenBuffer call taken with
    | none => rfl
    | some other => simp
  rw [handed_all config threads state next call accepted attempt taken run room, List.count_append, releases, run.answered]
  cases attempt.done with
  | none => simp
  | some done => simp [List.count_singleton]

-- Without it the command is what is dropped, for it comes last.
theorem handed_short (attempt : Attempt) (taken : Option (Nat × Nat)) (run : CallRun config threads state next call true attempt taken)
    (full : ¬RoomFor config threads state call) : (handedDuties threads state call attempt).count (callDuty call) = 0 := by
  have some : attempt.done.isSome = true := run.answered.symm
  have length := call_items_length call attempt taken run.scheduled
  rw [RoomFor, run.needed] at full
  rw [if_pos some] at length
  have cut : (freeEntries (state.workers (getIoWorker threads call.sqid)).worker).length - 1 ≤
      (attempt.ftl.scheduled.map (internalItem call)).length := by
    rw [List.length_map, run.scheduled]
    omega
  rw [handedDuties, callItems, List.take_append_of_le_length cut]
  apply List.count_eq_zero.mpr
  intro found
  obtain ⟨item, inTaken, same⟩ := List.mem_map.mp found
  obtain ⟨scheduled, _, made⟩ := List.mem_map.mp (List.mem_of_mem_take inTaken)
  rw [← made] at same
  cases same

theorem call_keeps_iff (sound : DeviceSound state) (ran : nvmevProcIo config threads state call = .ok (true, next)) :
    NothingLost threads state next call ↔ RoomFor config threads state call := by
  obtain ⟨attempt, taken, run⟩ := call_run config threads state next call true sound ran
  constructor
  · intro kept
    by_cases room : RoomFor config threads state call
    · exact room
    · have command := kept.command
      rw [run.inserted, handed_short config threads state next call attempt taken run room] at command
      exact absurd command (by decide)
  · intro room
    refine ⟨?_, ?_⟩
    · rw [run.inserted, callDuty, handed_command config threads state next call true attempt taken run room]
      exact if_pos ⟨rfl, rfl⟩
    · intro buffer before after
      rw [run.inserted, handed_release config threads state next call true attempt taken run room]
      rcases (call_busy config threads state next call true attempt taken run buffer).mp after with locked | same
      · rw [before] at locked
        cases locked
      · exact if_pos same

theorem call_balanced (sound : DeviceSound state) (balanced : Balanced threads state) (room : RoomFor config threads state call)
    (ran : nvmevProcIo config threads state call = .ok (accepted, next)) : Balanced threads next := by
  obtain ⟨attempt, taken, run⟩ := call_run config threads state next call accepted sound ran
  refine ⟨?_, ?_⟩
  · intro sqid cqid commandId
    have before := balanced.commands sqid cqid commandId
    rw [run.outstanding, handed_command config threads state next call accepted attempt taken run room, run.log, run.posted]
    cases accepted with
    | false => simpa using before
    | true =>
        simp only [if_true, List.count_append, List.count_singleton, true_and, beq_iff_eq]
        omega
  · intro buffer
    have before := balanced.buffers buffer
    have busy := call_busy config threads state next call accepted attempt taken run buffer
    rw [run.outstanding, handed_release config threads state next call accepted attempt taken run room, before]
    by_cases same : takenBuffer call taken = some buffer
    · have unlocked := taken_unlocked config threads state next call accepted attempt taken run buffer same
      rw [unlocked, if_pos same, if_pos (busy.mpr (.inr same))]
      rfl
    · rw [if_neg same]
      by_cases locked : bufferBusy state buffer = true
      · rw [if_pos locked, if_pos (busy.mpr (.inl locked))]
      · have still : ¬bufferBusy next buffer = true := fun now => (busy.mp now).elim locked same
        rw [if_neg locked, if_neg still]

end Dispatcher

section Device

variable (config : DualConfig) (threads : IoThreads) (state : IoDevice)

theorem worker_outstanding (workers : Nat → WorkerState) (turn : Nat) (next : WorkerState) (inside : turn < threads.nrIoWorkers)
    (ftls : DualFtl) (storage : Storage) (accepted posted : List Duty) (duty : Duty) :
    outstanding threads ⟨ftls, storage, Function.update workers turn next, accepted, posted⟩ duty + (duties (workers turn).worker).count duty =
      outstanding threads ⟨ftls, storage, workers, accepted, posted⟩ duty + (duties next.worker).count duty :=
  sum_update threads (fun worker => (duties worker.worker).count duty) workers turn next inside

theorem update_reach (sound : DeviceSound state) (turn : Nat) (next : WorkerState) (event : WorkerEvent)
    (taken : WorkerStep (state.workers turn) event next) :
    ∀ other, TransitionSystem.Reach workerSystem (fun _ _ => True) (Function.update state.workers turn next other) := by
  intro other
  by_cases same : other = turn
  · rw [same, Function.update_self]
    exact .next _ next event (sound.workers turn) trivial taken
  · rw [Function.update_of_ne same]
    exact sound.workers other

theorem pass_balanced (balanced : Balanced threads state) (turn : Nat) (next : WorkerState) (storage : Storage)
    (inside : turn < threads.nrIoWorkers) (same : duties next.worker = duties (state.workers turn).worker) :
    Balanced threads { state with workers := Function.update state.workers turn next, storage := storage } := by
  have moved : ∀ duty, outstanding threads { state with workers := Function.update state.workers turn next, storage := storage } duty =
      outstanding threads state duty := by
    intro duty
    have sum := worker_outstanding threads state.workers turn next inside state.ftls storage state.accepted state.posted duty
    rw [same] at sum
    exact Nat.add_right_cancel sum
  refine ⟨?_, ?_⟩
  · intro sqid cqid commandId
    rw [moved]
    exact balanced.commands sqid cqid commandId
  · intro buffer
    rw [moved]
    exact balanced.buffers buffer

theorem ran_on_clean (dual : DualFtl) (loc : Loc) (next : ZmsFtl) (clean : ∀ other, (dual other).scheduled = [])
    (here : next.scheduled = []) (other : Loc) : (ranOn dual loc next other).scheduled = [] := by
  unfold ranOn
  split
  · exact here
  · exact clean other

theorem release_busy (loc : Loc) (index : Nat) (buffer : BufferRef) :
    bufferBusy { state with ftls := ranOn state.ftls loc (bufferRelease (state.ftls loc) index) } buffer =
      if buffer = (loc, index) then false else bufferBusy state buffer := by
  obtain ⟨other, slot⟩ := buffer
  by_cases same : other = loc
  · have ran : ranOn state.ftls loc (bufferRelease (state.ftls loc) index) loc = bufferRelease (state.ftls loc) index := if_pos rfl
    simp only [bufferBusy, same, ran]
    by_cases here : slot = index
    · simp [bufferRelease, putBuffer, here]
    · simp [bufferRelease, putBuffer, here]
  · have ran : ranOn state.ftls loc (bufferRelease (state.ftls loc) index) other =
        shareSsd (bufferRelease (state.ftls loc) index) (state.ftls other) := if_neg same
    have apart : (other, slot) ≠ (loc, index) := fun wrong => same (congrArg Prod.fst wrong)
    simp only [bufferBusy, ran, if_neg apart]
    rfl

theorem discharge_workers (duty : Duty) : (discharge state duty).workers = state.workers ∧ (discharge state duty).accepted = state.accepted := by
  unfold discharge
  split <;> exact ⟨rfl, rfl⟩

theorem discharge_clean (duty : Duty) (clean : ∀ loc, (state.ftls loc).scheduled = []) (loc : Loc) :
    ((discharge state duty).ftls loc).scheduled = [] := by
  unfold discharge
  split
  · rename_i place index
    exact ran_on_clean state.ftls place (bufferRelease (state.ftls place) index) clean (clean place) loc
  · exact clean loc
  · exact clean loc

theorem discharge_balanced (duty : Duty)
    (commands : ∀ sqid cqid commandId, state.accepted.count (.command sqid cqid commandId) =
      state.posted.count (.command sqid cqid commandId) + (outstanding threads state (.command sqid cqid commandId) +
        if duty = .command sqid cqid commandId then 1 else 0))
    (buffers : ∀ buffer, outstanding threads state (.release (some buffer)) + (if duty = .release (some buffer) then 1 else 0) =
      if bufferBusy state buffer then 1 else 0) : Balanced threads (discharge state duty) := by
  have same : ∀ other, outstanding threads (discharge state duty) other = outstanding threads state other := by
    intro other
    rw [outstanding, (discharge_workers state duty).1]
    rfl
  refine ⟨?_, ?_⟩
  · intro sqid cqid commandId
    have before := commands sqid cqid commandId
    rw [same, (discharge_workers state duty).2]
    cases duty with
    | release buffer =>
        rw [if_neg (by simp)] at before
        cases buffer <;> exact before
    | command sq cq id =>
        simp only [discharge, List.count_append, List.count_singleton, beq_iff_eq]
        omega
  · intro buffer
    have before := buffers buffer
    rw [same]
    cases duty with
    | command sq cq id =>
        rw [if_neg (by simp)] at before
        exact before
    | release released =>
        cases released with
        | none =>
            rw [if_neg (by simp)] at before
            exact before
        | some here =>
            obtain ⟨loc, index⟩ := here
            simp only [discharge, release_busy]
            by_cases mine : buffer = (loc, index)
            · rw [if_pos (by rw [mine])] at before
              rw [if_pos mine, if_neg Bool.false_ne_true]
              split at before
              · omega
              · omega
            · have other : Duty.release (some (loc, index)) ≠ .release (some buffer) := by
                intro wrong
                cases wrong
                exact mine rfl
              rw [if_neg other] at before
              rw [if_neg mine]
              exact before

theorem complete_step_taken (turn curr : Nat) (here : (state.workers turn).pc = .due curr) :
    WorkerStep (state.workers turn) .complete (completeStep (state.workers turn) curr) := .complete _ curr here

theorem complete_workers (turn curr : Nat) :
    (completeOn state turn curr).workers = Function.update state.workers turn (completeStep (state.workers turn) curr) ∧
      (completeOn state turn curr).accepted = state.accepted := by
  simp only [completeOn]
  split
  · exact discharge_workers _ _
  · exact ⟨rfl, rfl⟩

theorem completion_sound (sound : DeviceSound state) (turn curr : Nat) (here : (state.workers turn).pc = .due curr) :
    DeviceSound (completeOn state turn curr) := by
  refine ⟨?_, ?_⟩
  · rw [(complete_workers state turn curr).1]
    exact update_reach state sound turn _ _ (complete_step_taken state turn curr here)
  · intro loc
    simp only [completeOn]
    split
    · apply discharge_clean
      exact sound.clean
    · exact sound.clean loc

theorem complete_balanced (sound : DeviceSound state) (balanced : Balanced threads state) (turn curr : Nat) (inside : turn < threads.nrIoWorkers)
    (here : (state.workers turn).pc = .due curr) : Balanced threads (completeOn state turn curr) := by
  obtain ⟨active, fresh, used, listed⟩ := reached_sound _ (sound.workers turn)
  have pc := listed.pc
  rw [here] at pc
  have pending : isPending (state.workers turn).worker curr = true := by simp [isPending, pc.2]
  have taken := complete_duties _ active (fresh ++ used) curr listed.threaded pc.1 pending
  simp only [completeOn]
  split
  · rename_i due
    have step : (completeStep (state.workers turn) curr).worker =
        putWork (state.workers turn).worker curr { (state.workers turn).worker.workQueue curr with isCompleted := true } := by
      simp only [completeStep]
      rw [if_pos due]
    rw [← step] at taken
    have moved : ∀ duty, outstanding threads state duty =
        outstanding threads { state with workers := Function.update state.workers turn (completeStep (state.workers turn) curr) } duty +
          if dutyOf ((state.workers turn).worker.workQueue curr) = duty then 1 else 0 := by
      intro duty
      have sum := worker_outstanding threads state.workers turn (completeStep (state.workers turn) curr) inside state.ftls state.storage
        state.accepted state.posted duty
      have count := taken.count_eq duty
      rw [List.count_cons] at count
      simp only [beq_iff_eq] at count
      rw [count] at sum
      have whole : outstanding threads state duty =
        outstanding threads ⟨state.ftls, state.storage, state.workers, state.accepted, state.posted⟩ duty := rfl
      omega
    apply discharge_balanced threads
    · intro sqid cqid commandId
      rw [← moved]
      exact balanced.commands sqid cqid commandId
    · intro buffer
      rw [← moved]
      exact balanced.buffers buffer
  · rename_i later
    have step : duties (completeStep (state.workers turn) curr).worker = duties (state.workers turn).worker := by
      simp only [completeStep]
      rw [if_neg later]
    exact pass_balanced threads state balanced turn _ state.storage inside step

theorem device_step_sound (next : IoDevice) (event : DeviceEvent) (sound : DeviceSound state)
    (taken : DeviceStep config threads state event next) : DeviceSound next := by
  cases taken with
  | procIo _ call accepted ran =>
      obtain ⟨attempt, taken, run⟩ := call_run config threads state next call accepted sound ran
      refine ⟨run.workers, ?_⟩
      rw [run.ftls]
      exact ran_on_clean state.ftls call.loc { attempt.ftl with scheduled := [] } sound.clean rfl
  | pass turn event next storage inside own other taken => exact ⟨update_reach state sound turn next event taken, sound.clean⟩
  | complete turn curr inside here => exact completion_sound state sound turn curr here

theorem device_sound_invariant (allowed : IoDevice → DeviceEvent → Prop) :
    TransitionSystem.Invariant (deviceSystem config threads) allowed DeviceSound := by
  refine ⟨?_, fun state next event sound _ taken => device_step_sound config threads state next event sound taken⟩
  rintro state ⟨clock, same⟩
  rw [same]
  exact ⟨fun _ => .start _ rfl, fun _ => rfl⟩

theorem device_step_balanced (next : IoDevice) (event : DeviceEvent) (sound : DeviceSound state) (balanced : Balanced threads state)
    (room : CallsHaveRoom config threads state event) (taken : DeviceStep config threads state event next) : Balanced threads next := by
  cases taken with
  | procIo _ call accepted ran => exact call_balanced config threads state next call accepted sound balanced room ran
  | pass turn event next storage inside own other taken =>
      exact pass_balanced threads state balanced turn next storage inside (pass_duties _ next event own other taken)
  | complete turn curr inside here => exact complete_balanced threads state sound balanced turn curr inside here

theorem no_duties_at_start : duties nvmevIoWorkerInit = [] := by
  have none : activeEntries nvmevIoWorkerInit = [] :=
    active_entries_are _ [] _ (init_sound (List.range nrMaxParallelIo) rfl).threaded
  rw [duties, none]
  rfl

theorem balanced_invariant :
    TransitionSystem.Invariant (deviceSystem config threads) (CallsHaveRoom config threads) fun state =>
      DeviceSound state ∧ Balanced threads state := by
  refine ⟨?_, ?_⟩
  · rintro state ⟨clock, same⟩
    have empty : ∀ duty, outstanding threads state duty = 0 := by
      intro duty
      apply Finset.sum_eq_zero
      intro turn _
      rw [same]
      simp [deviceInit, workerInit, no_duties_at_start]
    refine ⟨(device_sound_invariant config threads fun _ _ => True).starts state ⟨clock, same⟩, ?_, ?_⟩
    · intro sqid cqid commandId
      rw [empty, same]
      rfl
    · intro buffer
      rw [empty, same]
      rfl
  · intro state next event kept room taken
    exact ⟨device_step_sound config threads state next event kept.1 taken,
      device_step_balanced config threads state next event kept.1 kept.2 room taken⟩

def isCall : DeviceEvent → Bool
  | .procIo _ => true
  | .pass _ _ _ | .complete _ => false

def Onward : IoDevice → Prop :=
  TransitionSystem.Reach ⟨fun first => first = state, DeviceStep config threads⟩ fun _ event => isCall event = false

theorem onward_kept (sound : DeviceSound state) (balanced : Balanced threads state) (later : IoDevice)
    (onward : Onward config threads state later) : DeviceSound later ∧ Balanced threads later := by
  refine TransitionSystem.reach_invariant _ _ (fun state => DeviceSound state ∧ Balanced threads state) ⟨?_, ?_⟩ later onward
  · intro first same
    rw [show first = state from same]
    exact ⟨sound, balanced⟩
  · intro first next event kept call taken
    refine ⟨device_step_sound config threads first next event kept.1 taken, device_step_balanced config threads first next event kept.1 kept.2 ?_ taken⟩
    cases event with
    | procIo call' => cases call
    | pass turn event storage => trivial
    | complete turn => trivial

theorem worker_run_lifts (turn : Nat) (inside : turn < threads.nrIoWorkers) (after : WorkerState)
    (runs : WorkerRuns (state.workers turn) after) :
    ∃ later, Onward config threads state later ∧ later.workers = Function.update state.workers turn after ∧
      later.accepted = state.accepted := by
  induction runs with
  | start first init =>
      have same : first = state.workers turn := init
      refine ⟨state, .start state rfl, ?_, rfl⟩
      rw [same, Function.update_eq_self]
  | next middle next event _ own taken ih =>
      obtain ⟨later, onward, workers, accepted⟩ := ih
      have here : later.workers turn = middle := by rw [workers, Function.update_self]
      rw [← here] at taken
      have passes : event ≠ .complete → ∃ last, Onward config threads state last ∧ last.workers = Function.update state.workers turn next ∧
          last.accepted = state.accepted := by
        intro other
        refine ⟨_, .next later _ (.pass turn event later.storage) onward rfl (.pass later turn event next later.storage inside own other taken), ?_,
          accepted⟩
        rw [workers, Function.update_idem]
      cases taken with
      | enqueue item => cases own
      | reclaim => cases own
      | start idle => exact passes (fun wrong => nomatch wrong)
      | advance curr now located bound => exact passes (fun wrong => nomatch wrong)
      | check curr located => exact passes (fun wrong => nomatch wrong)
      | copy curr performed located => exact passes (fun wrong => nomatch wrong)
      | move curr located => exact passes (fun wrong => nomatch wrong)
      | complete curr located =>
          obtain ⟨moved, kept⟩ := complete_workers later turn curr
          refine ⟨completeOn later turn curr, .next later _ (.complete turn) onward rfl (.complete later turn curr inside located), ?_,
            kept.trans accepted⟩
          rw [moved, workers, Function.update_idem]

theorem workers_drain (sound : DeviceSound state) (count : Nat) (within : count ≤ threads.nrIoWorkers) :
    ∃ later, Onward config threads state later ∧ later.accepted = state.accepted ∧
      (∀ turn, TransitionSystem.Reach workerSystem (fun _ _ => True) (later.workers turn)) ∧
        ∀ turn, turn < count → duties (later.workers turn).worker = [] := by
  induction count with
  | zero => exact ⟨state, .start state rfl, rfl, sound.workers, fun turn below => absurd below (Nat.not_lt_zero turn)⟩
  | succ count ih =>
      obtain ⟨middle, onward, accepted, reached, done⟩ := ih (by omega)
      obtain ⟨active, fresh, used, listed⟩ := reached_sound _ (reached count)
      obtain ⟨after, runs, empty⟩ := worker_drains (middle.workers count) active fresh used listed
      obtain ⟨later, further, workers, same⟩ := worker_run_lifts config threads middle count (by omega) after runs
      have reaches : TransitionSystem.Reach workerSystem (fun _ _ => True) after :=
        TransitionSystem.reach_onward _ _ _ _ (reached count)
          (TransitionSystem.reach_mono _ _ (fun _ _ => True) (fun _ _ _ => trivial) after runs)
      have onwards := TransitionSystem.reach_onward ⟨fun first => first = state, DeviceStep config threads⟩ _ middle later onward further
      refine ⟨later, onwards, same.trans accepted, ?_, ?_⟩
      · intro turn
        rw [workers]
        by_cases here : turn = count
        · rw [here, Function.update_self]
          exact reaches
        · rw [Function.update_of_ne here]
          exact reached turn
      · intro turn below
        rw [workers]
        by_cases here : turn = count
        · rw [here, Function.update_self]
          exact empty
        · rw [Function.update_of_ne here]
          exact done turn (by omega)

-- With every duty done each accepted command has one completion more for each
-- time it was accepted, and no buffer is locked.
theorem drained (sound : DeviceSound state) (balanced : Balanced threads state) :
    ∃ later, Onward config threads state later ∧
      (∀ sqid cqid commandId, later.posted.count (.command sqid cqid commandId) = state.accepted.count (.command sqid cqid commandId)) ∧
        ∀ buffer, bufferBusy later buffer = false := by
  obtain ⟨later, onward, accepted, _, done⟩ := workers_drain config threads state sound threads.nrIoWorkers (Nat.le_refl _)
  have kept := (onward_kept config threads state sound balanced later onward).2
  have none : ∀ duty, outstanding threads later duty = 0 := by
    intro duty
    apply Finset.sum_eq_zero
    intro turn found
    rw [done turn (Finset.mem_range.mp found)]
    rfl
  refine ⟨later, onward, ?_, ?_⟩
  · intro sqid cqid commandId
    have commands := kept.commands sqid cqid commandId
    rw [none, accepted, Nat.add_zero] at commands
    exact commands.symm
  · intro buffer
    have buffers := kept.buffers buffer
    rw [none] at buffers
    cases locked : bufferBusy later buffer with
    | false => rfl
    | true =>
        rw [locked] at buffers
        cases buffers

-- An accepted command and the buffers locked for it get their work entries just
-- when the queue's worker has enough free ones. Where every call finds them, no
-- command is lost or completed twice, and no buffer stays locked.
theorem accepted_commands_kept_iff :
    (∀ state, TransitionSystem.Reach (deviceSystem config threads) (fun _ _ => True) state → ∀ call next,
      nvmevProcIo config threads state call = .ok (true, next) →
        (NothingLost threads state next call ↔ RoomFor config threads state call)) ∧
      ∀ state, TransitionSystem.Reach (deviceSystem config threads) (CallsHaveRoom config threads) state →
        Balanced threads state ∧ ∃ later, Onward config threads state later ∧
          (∀ sqid cqid commandId, later.posted.count (.command sqid cqid commandId) = state.accepted.count (.command sqid cqid commandId)) ∧
            ∀ buffer, bufferBusy later buffer = false := by
  refine ⟨?_, ?_⟩
  · intro state reached call next ran
    have sound := TransitionSystem.reach_invariant _ _ _ (device_sound_invariant config threads _) state reached
    exact call_keeps_iff config threads state next call sound ran
  · intro state reached
    obtain ⟨sound, balanced⟩ := TransitionSystem.reach_invariant _ _ _ (balanced_invariant config threads) state reached
    exact ⟨balanced, drained config threads state sound balanced⟩

end Device

section Exhausted

def oneWorker : IoThreads := ⟨1, Nat.one_pos⟩

-- The n-th of the reads of LBA 0 that seventeen queues hold, 1000 each.
def queuedRead (n : Nat) : IoCall :=
  ⟨n / 1000 + 1, n / 1000 + 1, n % 1000, n % 1000, .normal, .read ⟨false, 0, 0, false⟩ onePage, n, n⟩

theorem read_served (p : Params) (ftl : ZmsFtl) (req : Request) (cmd : RwCommand) (inside : lbaToZone p cmd.slba < p.zpp.nrZones) :
    ∃ done next, zonedRead p ftl req cmd = .ok (done, next) := by
  simp only [zonedRead]
  rw [if_neg (Nat.not_le_of_lt inside)]
  split
  · exact ⟨_, _, rfl⟩
  · split
    · exact ⟨_, _, rfl⟩
    · split
      · exact ⟨_, _, rfl⟩
      · exact ⟨_, _, rfl⟩

theorem queued_read_runs (n : Nat) (state : IoDevice) (sound : DeviceSound state) :
    ∃ next item, nvmevProcIo sampleConfig oneWorker state (queuedRead n) = .ok (true, next) ∧
      next.workers 0 = reclaimStep (enqueueStep (state.workers 0) item) := by
  obtain ⟨done, ftl, served⟩ := read_served (dualParams sampleConfig .normal) (state.ftls .normal) (callRequest (queuedRead n))
    ⟨false, 0, 0, false⟩ (by decide)
  have clean : ftl.scheduled = [] :=
    (zoned_read_table _ _ ftl _ _ done served).scheduled.trans (sound.clean .normal)
  have turn : getIoWorker oneWorker (queuedRead n).sqid = 0 := Nat.mod_one _
  have attempt : procIoCmd (dualParams sampleConfig (queuedRead n).loc) (nsMapped sampleConfig (queuedRead n).loc)
      (state.ftls (queuedRead n).loc) state.storage (callRequest (queuedRead n)) (queuedRead n).cmd =
        .ok ⟨ftl, state.storage, (queuedRead n).cmd, some done⟩ := by
    simp only [queuedRead, procIoCmd] at served ⊢
    rw [served]
    rfl
  have items : callItems (queuedRead n) ⟨ftl, state.storage, (queuedRead n).cmd, some done⟩ = [ioReqItem (queuedRead n) done] := by
    simp [callItems, clean]
  have ran : nvmevProcIo sampleConfig oneWorker state (queuedRead n) = .ok (true,
      { state with ftls := ranOn state.ftls (queuedRead n).loc { ftl with scheduled := [] },
                   workers := reclaimAll oneWorker (Function.update state.workers 0
                     ((callItems (queuedRead n) ⟨ftl, state.storage, (queuedRead n).cmd, some done⟩).foldl enqueueStep (state.workers 0))),
                   accepted := state.accepted ++ [callDuty (queuedRead n)] }) := by
    simp only [nvmevProcIo, attempt, turn]
    rfl
  refine ⟨_, ioReqItem (queuedRead n) done, ran, ?_⟩
  simp only [reclaimAll, items, Function.update_self]
  exact if_pos oneWorker.positive

theorem none_reclaimed (state : WorkerState) (active fresh used : List Nat) (sound : WorkerSound state active fresh used)
    (none : state.completed = []) : freeEntries (reclaimStep state).worker = freeEntries state.worker := by
  obtain ⟨taken, rest, split, passed, linked⟩ := reclaim_threaded state.worker active (fresh ++ used) sound.threaded
  have empty : taken = [] := by
    apply List.eq_nil_iff_forall_not_mem.mpr
    intro entry found
    have member : entry ∈ active := by
      rw [split]
      exact List.mem_append_left rest found
    rw [passed] at found
    have all := List.mem_takeWhile_imp found
    simp only [isReclaimable, Bool.and_eq_true] at all
    have known := (sound.booked.marks entry member).mp all.1.1
    rw [none] at known
    exact absurd known List.not_mem_nil
  rw [empty, List.append_nil] at linked
  have after : freeEntries (reclaimStep state).worker = fresh ++ used := free_entries_are _ rest _ linked
  rw [after, free_entries_are state.worker active (fresh ++ used) sound.threaded]

theorem enqueue_takes_one (state : WorkerState) (item : WorkItem) (active fresh used : List Nat) (sound : WorkerSound state active fresh used)
    (room : 1 < (freeEntries state.worker).length) :
    (freeEntries (enqueueStep state item).worker).length + 1 = (freeEntries state.worker).length := by
  obtain ⟨taken, active', rest, handed⟩ := items_handed state.worker active (fresh ++ used) [item] sound.threaded
  have before := free_entries_are state.worker active (fresh ++ used) sound.threaded
  have after := free_entries_are _ active' rest handed.threaded
  have count := handed.count
  have split := congrArg List.length handed.split
  rw [before] at room ⊢
  rw [enqueue_step_worker]
  simp only [List.foldl_cons, List.foldl_nil] at after
  rw [after]
  simp only [List.length_append, List.length_cons, List.length_nil] at count split room ⊢
  omega

theorem enqueue_completes_none (state : WorkerState) (item : WorkItem) : (enqueueStep state item).completed = state.completed := by
  simp only [enqueueStep]
  split
  · rfl
  · rfl

theorem reads_fill (n : Nat) (bound : n < nrMaxParallelIo) :
    ∃ state, TransitionSystem.Reach (deviceSystem sampleConfig oneWorker) (fun _ _ => True) state ∧ (state.workers 0).completed = [] ∧
      (freeEntries (state.workers 0).worker).length = nrMaxParallelIo - n := by
  induction n with
  | zero =>
      refine ⟨deviceInit sampleConfig (fun _ => 0), .start _ ⟨_, rfl⟩, rfl, ?_⟩
      have free := free_entries_are _ [] _ (init_sound (List.range nrMaxParallelIo) rfl).threaded
      have start : ((deviceInit sampleConfig (fun _ => 0)).workers 0).worker = workerInit.worker := rfl
      rw [start, free, List.append_nil, List.length_range]
      rfl
  | succ n ih =>
      obtain ⟨state, reached, none, free⟩ := ih (by omega)
      have sound := TransitionSystem.reach_invariant _ _ _ (device_sound_invariant sampleConfig oneWorker _) state reached
      obtain ⟨next, item, ran, here⟩ := queued_read_runs n state sound
      obtain ⟨active, fresh, used, listed⟩ := reached_sound _ (sound.workers 0)
      obtain ⟨active', fresh', used', filled⟩ := enqueue_sound _ active fresh used item listed
      have quiet := (enqueue_completes_none (state.workers 0) item).trans none
      refine ⟨next, .next state next (.procIo (queuedRead n)) reached trivial (.procIo state next _ true ran), ?_, ?_⟩
      · rw [here]
        exact quiet
      · have taken := enqueue_takes_one _ item active fresh used listed (by omega)
        rw [here, none_reclaimed _ active' fresh' used' filled quiet]
        omega

-- While an entry is left besides the last, a read gets it.
theorem two_reads_kept :
    ∃ state, TransitionSystem.Reach (deviceSystem sampleConfig oneWorker) (fun _ _ => True) state ∧
      ∃ next, nvmevProcIo sampleConfig oneWorker state (queuedRead 1) = .ok (true, next) ∧ NothingLost oneWorker state next (queuedRead 1) := by
  obtain ⟨state, reached, _, free⟩ := reads_fill 1 (by decide)
  have sound := TransitionSystem.reach_invariant _ _ _ (device_sound_invariant sampleConfig oneWorker _) state reached
  obtain ⟨next, _, ran, _⟩ := queued_read_runs 1 state sound
  have turn : getIoWorker oneWorker (queuedRead 1).sqid = 0 := Nat.mod_one _
  refine ⟨state, reached, next, ran, ((accepted_commands_kept_iff sampleConfig oneWorker).1 state reached _ next ran).mpr ?_⟩
  rw [RoomFor, turn, free]
  exact (by decide : 1 < nrMaxParallelIo - 1)

-- After 16383 reads the next one is accepted and has no work entry.
theorem last_read_lost :
    ∃ state, TransitionSystem.Reach (deviceSystem sampleConfig oneWorker) (fun _ _ => True) state ∧
      ∃ next, nvmevProcIo sampleConfig oneWorker state (queuedRead 16383) = .ok (true, next) ∧
        ¬NothingLost oneWorker state next (queuedRead 16383) := by
  obtain ⟨state, reached, _, free⟩ := reads_fill 16383 (by decide)
  have sound := TransitionSystem.reach_invariant _ _ _ (device_sound_invariant sampleConfig oneWorker _) state reached
  obtain ⟨next, _, ran, _⟩ := queued_read_runs 16383 state sound
  refine ⟨state, reached, next, ran, fun kept => ?_⟩
  have room := (call_keeps_iff sampleConfig oneWorker state next _ sound ran).mp kept
  have turn : getIoWorker oneWorker (queuedRead 16383).sqid = 0 := Nat.mod_one _
  have needed : entriesNeeded (dualParams sampleConfig (queuedRead 16383).loc) (state.ftls (queuedRead 16383).loc) (callRequest (queuedRead 16383))
      (queuedRead 16383).cmd = 1 := rfl
  have last : nrMaxParallelIo - 16383 = 1 := by decide
  rw [RoomFor, turn, needed, free, last] at room
  exact absurd room (Nat.lt_irrefl 1)

end Exhausted

end ConZone
