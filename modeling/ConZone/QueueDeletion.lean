import ConZone.SlotReuse

set_option autoImplicit false

namespace ConZone

-- nvmev_vdev->sqes or cqes: which allocation is under each id. freed lists the
-- allocations that kfree has got.
structure QueueTable where
  entries : Nat → Option Nat
  freed : List Nat
  created : Nat

-- An allocation under the id before is neither freed nor kept.
def createQueue (table : QueueTable) (qid : Nat) : QueueTable :=
  { table with entries := Function.update table.entries qid (some table.created), created := table.created + 1 }

def deleteQueue (table : QueueTable) (qid : Nat) : QueueTable :=
  { table with entries := Function.update table.entries qid none, freed := (table.entries qid).toList ++ table.freed }

structure TableSound (table : QueueTable) : Prop where
  known : ∀ qid pointer, table.entries qid = some pointer → pointer < table.created
  live : ∀ qid pointer, table.entries qid = some pointer → pointer ∉ table.freed
  single : ∀ qid other pointer, table.entries qid = some pointer → table.entries other = some pointer → qid = other
  past : ∀ pointer ∈ table.freed, pointer < table.created

structure TakenFrom (table : QueueTable) (qid pointer : Nat) : Prop where
  live : pointer ∉ table.freed
  known : pointer < table.created
  place : ∀ other, table.entries other = some pointer → other = qid

section Tables

variable (table : QueueTable) (qid : Nat)

theorem create_other (other : Nat) (apart : other ≠ qid) : (createQueue table qid).entries other = table.entries other :=
  Function.update_of_ne apart _ _

theorem create_same : (createQueue table qid).entries qid = some table.created := Function.update_self _ _ _

theorem delete_other (other : Nat) (apart : other ≠ qid) : (deleteQueue table qid).entries other = table.entries other :=
  Function.update_of_ne apart _ _

theorem delete_same : (deleteQueue table qid).entries qid = none := Function.update_self _ _ _

theorem deleted_keeps (other pointer : Nat) (found : (deleteQueue table qid).entries other = some pointer) :
    other ≠ qid ∧ table.entries other = some pointer := by
  by_cases same : other = qid
  · rw [same, delete_same] at found
    cases found
  · rw [delete_other table qid other same] at found
    exact ⟨same, found⟩

theorem create_sound (sound : TableSound table) : TableSound (createQueue table qid) := by
  have entry : ∀ other pointer, (createQueue table qid).entries other = some pointer →
      (other = qid ∧ pointer = table.created) ∨ table.entries other = some pointer := by
    intro other pointer found
    by_cases same : other = qid
    · rw [same, create_same] at found
      exact .inl ⟨same, (Option.some.inj found).symm⟩
    · rw [create_other table qid other same] at found
      exact .inr found
  refine ⟨?_, ?_, ?_, fun pointer freed => Nat.lt_succ_of_lt (sound.past pointer freed)⟩
  · intro other pointer found
    rcases entry other pointer found with ⟨_, new⟩ | old
    · rw [new]
      exact Nat.lt_succ_self _
    · exact Nat.lt_succ_of_lt (sound.known other pointer old)
  · intro other pointer found freed
    rcases entry other pointer found with ⟨_, new⟩ | old
    · rw [new] at freed
      exact absurd (sound.past _ freed) (Nat.lt_irrefl _)
    · exact sound.live other pointer old freed
  · intro first second pointer inFirst inSecond
    rcases entry first pointer inFirst with ⟨atFirst, newFirst⟩ | oldFirst
    · rcases entry second pointer inSecond with ⟨atSecond, _⟩ | oldSecond
      · rw [atFirst, atSecond]
      · rw [newFirst] at oldSecond
        exact absurd (sound.known second _ oldSecond) (Nat.lt_irrefl _)
    · rcases entry second pointer inSecond with ⟨_, newSecond⟩ | oldSecond
      · rw [newSecond] at oldFirst
        exact absurd (sound.known first _ oldFirst) (Nat.lt_irrefl _)
      · exact sound.single first second pointer oldFirst oldSecond

theorem delete_sound (sound : TableSound table) : TableSound (deleteQueue table qid) := by
  refine ⟨?_, ?_, ?_, ?_⟩
  · intro other pointer found
    exact sound.known other pointer (deleted_keeps table qid other pointer found).2
  · intro other pointer found freed
    obtain ⟨apart, old⟩ := deleted_keeps table qid other pointer found
    rcases List.mem_append.mp freed with gone | before
    · have here : table.entries qid = some pointer := Option.mem_toList.mp gone
      exact apart (sound.single other qid pointer old here)
    · exact sound.live other pointer old before
  · intro first second pointer inFirst inSecond
    exact sound.single first second pointer (deleted_keeps table qid first pointer inFirst).2 (deleted_keeps table qid second pointer inSecond).2
  · intro pointer freed
    rcases List.mem_append.mp freed with gone | before
    · exact sound.known qid pointer (Option.mem_toList.mp gone)
    · exact sound.past pointer before

theorem table_takes (sound : TableSound table) (pointer : Nat) (found : table.entries qid = some pointer) : TakenFrom table qid pointer :=
  ⟨sound.live qid pointer found, sound.known qid pointer found, fun other there => sound.single other qid pointer there found⟩

theorem create_taken (created pointer : Nat) (taken : TakenFrom table qid pointer) : TakenFrom (createQueue table created) qid pointer := by
  refine ⟨taken.live, Nat.lt_succ_of_lt taken.known, fun other found => ?_⟩
  by_cases same : other = created
  · rw [same, create_same] at found
    have new := Option.some.inj found
    exact absurd taken.known (by omega)
  · rw [create_other table created other same] at found
    exact taken.place other found

theorem delete_taken (deleted pointer : Nat) (taken : TakenFrom table qid pointer) (apart : table.entries deleted = some pointer → deleted ≠ qid) :
    TakenFrom (deleteQueue table deleted) qid pointer := by
  refine ⟨?_, taken.known, fun other found => taken.place other (deleted_keeps table deleted other pointer found).2⟩
  intro freed
  rcases List.mem_append.mp freed with gone | before
  · have here : table.entries deleted = some pointer := Option.mem_toList.mp gone
    exact apart here (taken.place deleted here)
  · exact taken.live before

end Tables

inductive QueueFault where
  | nullDeref
  | useAfterFree
  | wrongQueue
  deriving DecidableEq

def useQueue (table : QueueTable) : Option Nat → List QueueFault
  | none => [.nullDeref]
  | some pointer => if pointer ∈ table.freed then [.useAfterFree] else []

-- home is the queue that was under the id when the command was dispatched.
def postFaults (table : QueueTable) (home pointer : Option Nat) : List QueueFault :=
  useQueue table pointer ++
    (if home.any (fun first => first ∈ table.freed) ∧ pointer.isSome ∧ pointer ≠ home then [.wrongQueue] else [])

-- held is the queue pointer that a worker has read and not used yet.
structure QueueDevice where
  device : IoDevice
  sqes : QueueTable
  cqids : Nat → Nat
  cqes : QueueTable
  held : Nat → Option (Option Nat)
  home : Nat → Nat → Option Nat
  faults : List QueueFault

def workAt (state : QueueDevice) (turn entry : Nat) : NvmevIoWork := (state.device.workers turn).worker.workQueue entry

inductive QueueEvent where
  | createSq (qid cqid : Nat)
  | deleteSq (qid : Nat)
  | createCq (qid : Nat)
  | deleteCq (qid : Nat)
  | procSq (call : IoCall)
  | procCq (qid : Nat) (sqids : List Nat)
  | pass (turn : Nat) (event : WorkerEvent) (storage : Storage)
  | loadSq (turn : Nat)
  | transfer (turn : Nat) (performed : Bool) (storage : Storage)
  | loadCq (turn : Nat)
  | post (turn : Nat)
  | finish (turn : Nat)
  | loadIrq (turn qid : Nat)
  | irq (turn : Nat)

section Steps

variable (config : DualConfig) (threads : IoThreads)

def transferStep (state : QueueDevice) (turn curr : Nat) (performed : Bool) (storage : Storage) (pointer : Option Nat) : QueueDevice :=
  { state with
    device := { state.device with
      workers := Function.update state.device.workers turn (copyStep (state.device.workers turn) curr performed), storage := storage },
    held := Function.update state.held turn none, faults := state.faults ++ useQueue state.sqes pointer }

def postStep (state : QueueDevice) (turn curr : Nat) (pointer : Option Nat) : QueueDevice :=
  { state with device := completeOn state.device turn curr, held := Function.update state.held turn none,
               faults := state.faults ++ postFaults state.cqes (state.home turn curr) pointer }

-- A read of a SQ for the entries that a host has taken off its CQ checks for
-- NULL.
def countFaults (state : QueueDevice) (sqids : List Nat) : List QueueFault :=
  sqids.flatMap fun sqid => (state.sqes.entries sqid).toList.flatMap fun pointer => useQueue state.sqes (some pointer)

-- The dispatcher and the admin commands are one thread. The workers read a
-- queue pointer first and use it later: for a transfer, for a completion and,
-- between two passes, for an interrupt.
inductive QueueStep : QueueDevice → QueueEvent → QueueDevice → Prop where
  | createSq (state : QueueDevice) (qid cqid : Nat) :
      QueueStep state (.createSq qid cqid)
        { state with sqes := createQueue state.sqes qid, cqids := Function.update state.cqids qid cqid }
  | deleteSq (state : QueueDevice) (qid : Nat) : QueueStep state (.deleteSq qid) { state with sqes := deleteQueue state.sqes qid }
  | createCq (state : QueueDevice) (qid : Nat) : QueueStep state (.createCq qid) { state with cqes := createQueue state.cqes qid }
  | deleteCq (state : QueueDevice) (qid : Nat) : QueueStep state (.deleteCq qid) { state with cqes := deleteQueue state.cqes qid }
  | procSq (state : QueueDevice) (call : IoCall) (pointer : Nat) (created : state.sqes.entries call.sqid = some pointer)
      (own : call.cqid = state.cqids call.sqid) (attempt : Attempt)
      (handled : procIoCmd (dualParams config call.loc) (nsMapped config call.loc) (state.device.ftls call.loc) state.device.storage
        (callRequest call) call.cmd = .ok attempt)
      (accepted : Bool) (next : IoDevice) (ran : nvmevProcIo config threads state.device call = .ok (accepted, next)) :
      QueueStep state (.procSq call)
        { state with device := next, faults := state.faults ++ useQueue state.sqes (some pointer),
                     home := if accepted then recordEntry state.home (getIoWorker threads call.sqid)
                       (commandEntry threads state.device call attempt) (state.cqes.entries call.cqid) else state.home }
  | procCq (state : QueueDevice) (qid pointer : Nat) (sqids : List Nat) (created : state.cqes.entries qid = some pointer) :
      QueueStep state (.procCq qid sqids)
        { state with faults := state.faults ++ useQueue state.cqes (some pointer) ++ countFaults state sqids }
  | pass (state : QueueDevice) (turn : Nat) (event : WorkerEvent) (next : WorkerState) (storage : Storage)
      (inside : turn < threads.nrIoWorkers) (own : ownStep event = true) (other : event ≠ .complete)
      (quiet : ∀ curr performed, event = .copy performed → (state.device.workers turn).pc = .copy curr → transfers (workAt state turn curr) = false)
      (idle : state.held turn = none) (taken : WorkerStep (state.device.workers turn) event next) :
      QueueStep state (.pass turn event storage)
        { state with device := { state.device with workers := Function.update state.device.workers turn next, storage := storage } }
  | loadSq (state : QueueDevice) (turn curr : Nat) (here : (state.device.workers turn).pc = .copy curr)
      (waits : transfers (workAt state turn curr) = true) (idle : state.held turn = none) :
      QueueStep state (.loadSq turn)
        { state with held := Function.update state.held turn (some (state.sqes.entries (workAt state turn curr).sqid)) }
  | transfer (state : QueueDevice) (turn curr : Nat) (performed : Bool) (storage : Storage) (pointer : Option Nat)
      (here : (state.device.workers turn).pc = .copy curr) (inside : turn < threads.nrIoWorkers) (loaded : state.held turn = some pointer) :
      QueueStep state (.transfer turn performed storage) (transferStep state turn curr performed storage pointer)
  | loadCq (state : QueueDevice) (turn curr : Nat) (here : (state.device.workers turn).pc = .due curr)
      (posted : posts (state.device.workers turn).worker curr = true) (idle : state.held turn = none) :
      QueueStep state (.loadCq turn)
        { state with held := Function.update state.held turn (some (state.cqes.entries (workAt state turn curr).cqid)) }
  | post (state : QueueDevice) (turn curr : Nat) (pointer : Option Nat) (here : (state.device.workers turn).pc = .due curr)
      (inside : turn < threads.nrIoWorkers) (loaded : state.held turn = some pointer) :
      QueueStep state (.post turn) (postStep state turn curr pointer)
  | finish (state : QueueDevice) (turn curr : Nat) (here : (state.device.workers turn).pc = .due curr) (inside : turn < threads.nrIoWorkers)
      (silent : posts (state.device.workers turn).worker curr = false) (idle : state.held turn = none) :
      QueueStep state (.finish turn) { state with device := completeOn state.device turn curr }
  | loadIrq (state : QueueDevice) (turn qid : Nat) (here : (state.device.workers turn).pc = .idle) (idle : state.held turn = none) :
      QueueStep state (.loadIrq turn qid) { state with held := Function.update state.held turn (some (state.cqes.entries qid)) }
  | irq (state : QueueDevice) (turn : Nat) (pointer : Option Nat) (here : (state.device.workers turn).pc = .idle)
      (loaded : state.held turn = some pointer) :
      QueueStep state (.irq turn)
        { state with held := Function.update state.held turn none,
                     faults := state.faults ++ pointer.toList.flatMap fun queue => useQueue state.cqes (some queue) }

end Steps

structure QueueInit (config : DualConfig) (state : QueueDevice) : Prop where
  device : ∃ clock, state.device = deviceInit config clock
  sqes : state.sqes = ⟨fun _ => none, [], 0⟩
  cqes : state.cqes = ⟨fun _ => none, [], 0⟩
  held : ∀ turn, state.held turn = none
  faults : state.faults = []

def queueSystem (config : DualConfig) (threads : IoThreads) : TransitionSystem.System QueueDevice QueueEvent :=
  ⟨QueueInit config, QueueStep config threads⟩

def Outstanding (state : QueueDevice) (turn entry : Nat) : Prop :=
  entry ∈ activeEntries (state.device.workers turn).worker ∧ (workAt state turn entry).isInternal = false ∧
    (workAt state turn entry).isCompleted = false

-- A SQ goes once all its transfers are done, a CQ once all its completions are
-- posted and no worker looks at it for an interrupt. A command whose CQ did not
-- exist when it was dispatched is not completed before one does.
def DeletesLate (state : QueueDevice) : QueueEvent → Prop
  | .deleteSq qid => ∀ turn entry, Outstanding state turn entry → transfers (workAt state turn entry) = true →
      (workAt state turn entry).sqid ≠ qid
  | .deleteCq qid => (∀ turn entry, Outstanding state turn entry → (workAt state turn entry).cqid ≠ qid) ∧
      ∀ turn pointer, (state.device.workers turn).pc = .idle → state.held turn = some (some pointer) → state.cqes.entries qid ≠ some pointer
  | .loadCq turn => ∀ curr, (state.device.workers turn).pc = .due curr → state.home turn curr = none →
      state.cqes.entries (workAt state turn curr).cqid ≠ none
  | _ => True

structure QueuesKept (state : QueueDevice) : Prop where
  sound : DeviceSound state.device
  sqes : TableSound state.sqes
  cqes : TableSound state.cqes
  transfers : ∀ turn entry, Outstanding state turn entry → transfers (workAt state turn entry) = true →
    state.sqes.entries (workAt state turn entry).sqid ≠ none
  homes : ∀ turn entry, Outstanding state turn entry → ∀ queue, state.home turn entry = some queue →
    TakenFrom state.cqes (workAt state turn entry).cqid queue ∧ state.cqes.entries (workAt state turn entry).cqid ≠ none
  heldSq : ∀ turn curr pointer, (state.device.workers turn).pc = .copy curr → state.held turn = some pointer →
    ConZone.transfers (workAt state turn curr) = true ∧ ∃ queue, pointer = some queue ∧ TakenFrom state.sqes (workAt state turn curr).sqid queue
  heldCq : ∀ turn curr pointer, (state.device.workers turn).pc = .due curr → state.held turn = some pointer →
    (workAt state turn curr).isInternal = false ∧ ∃ queue, pointer = some queue ∧ TakenFrom state.cqes (workAt state turn curr).cqid queue
  heldIrq : ∀ turn queue, (state.device.workers turn).pc = .idle → state.held turn = some (some queue) →
    ∃ qid, TakenFrom state.cqes qid queue
  faults : state.faults = []

section Uses

variable (table : QueueTable) (qid : Nat)

theorem use_taken (pointer : Nat) (taken : TakenFrom table qid pointer) : useQueue table (some pointer) = [] := if_neg taken.live

theorem post_taken (home : Option Nat) (pointer : Nat) (taken : TakenFrom table qid pointer)
    (live : ∀ queue, home = some queue → queue ∉ table.freed) : postFaults table home (some pointer) = [] := by
  rw [postFaults, use_taken table qid pointer taken, List.nil_append]
  apply if_neg
  rintro ⟨freed, _, _⟩
  cases home with
  | none => cases freed
  | some queue => exact live queue rfl (by simpa using freed)

end Uses

section Kept

variable (config : DualConfig) (threads : IoThreads) (state : QueueDevice)

theorem outstanding_at_hand (kept : QueuesKept state) (turn curr : Nat)
    (here : (state.device.workers turn).pc = .copy curr ∨ (state.device.workers turn).pc = .due curr)
    (external : (workAt state turn curr).isInternal = false) : Outstanding state turn curr := by
  obtain ⟨active, fresh, used, listed⟩ := reached_sound _ (kept.sound.workers turn)
  have pc := listed.pc
  rw [Outstanding, active_entries_are _ active _ listed.threaded]
  rcases here with copies | due
  · rw [copies] at pc
    exact ⟨pc.1, external, pc.2⟩
  · rw [due] at pc
    exact ⟨pc.1, external, pc.2⟩

theorem transfers_external (work : NvmevIoWork) (waits : transfers work = true) : work.isInternal = false := by
  simp only [transfers, Bool.and_eq_true, Bool.not_eq_true'] at waits
  exact waits.1.2

structure Carried (next : QueueDevice) : Prop where
  entries : ∀ turn entry, Outstanding next turn entry → Outstanding state turn entry ∧ next.home turn entry = state.home turn entry
  sqid : ∀ turn entry, Outstanding next turn entry → (workAt next turn entry).sqid = (workAt state turn entry).sqid
  cqid : ∀ turn entry, Outstanding next turn entry → (workAt next turn entry).cqid = (workAt state turn entry).cqid
  waits : ∀ turn entry, Outstanding next turn entry → transfers (workAt next turn entry) = true → transfers (workAt state turn entry) = true

theorem carried_entries (next : QueueDevice) (kept : QueuesKept state) (carried : Carried state next) (sqes : next.sqes = state.sqes)
    (cqes : next.cqes = state.cqes) :
    (∀ turn entry, Outstanding next turn entry → transfers (workAt next turn entry) = true →
      next.sqes.entries (workAt next turn entry).sqid ≠ none) ∧
    ∀ turn entry, Outstanding next turn entry → ∀ queue, next.home turn entry = some queue →
      TakenFrom next.cqes (workAt next turn entry).cqid queue ∧ next.cqes.entries (workAt next turn entry).cqid ≠ none := by
  refine ⟨?_, ?_⟩
  · intro turn entry outstanding waits
    rw [carried.sqid turn entry outstanding, sqes]
    exact kept.transfers turn entry (carried.entries turn entry outstanding).1 (carried.waits turn entry outstanding waits)
  · intro turn entry outstanding queue home
    obtain ⟨old, same⟩ := carried.entries turn entry outstanding
    rw [same] at home
    rw [carried.cqid turn entry outstanding, cqes]
    exact kept.homes turn entry old queue home

theorem worker_carried (next : QueueDevice) (turn : Nat) (worker : WorkerState)
    (workers : next.device.workers = Function.update state.device.workers turn worker) (home : next.home = state.home)
    (entries : activeEntries worker.worker = activeEntries (state.device.workers turn).worker)
    (works : ∀ entry, worker.worker.workQueue entry = (state.device.workers turn).worker.workQueue entry ∨
      (∃ performed, worker.worker.workQueue entry = copyWork ((state.device.workers turn).worker.workQueue entry) performed) ∨
        worker.worker.workQueue entry = { (state.device.workers turn).worker.workQueue entry with isCompleted := true }) :
    Carried state next := by
  have copied : ∀ (work : NvmevIoWork) (performed : Bool), (copyWork work performed).cqid = work.cqid := by
    intro work performed
    simp only [copyWork]
    split <;> rfl
  have back : ∀ third entry, Outstanding next third entry → Outstanding state third entry ∧
      (workAt next third entry).sqid = (workAt state third entry).sqid ∧ (workAt next third entry).cqid = (workAt state third entry).cqid ∧
        (transfers (workAt next third entry) = true → transfers (workAt state third entry) = true) := by
    intro third entry outstanding
    by_cases same : third = turn
    · subst same
      have here : next.device.workers third = worker := by rw [workers, Function.update_self]
      simp only [Outstanding, workAt, here, entries] at outstanding ⊢
      obtain ⟨active, external, pending⟩ := outstanding
      rcases works entry with unchanged | ⟨performed, copies⟩ | marked
      · rw [unchanged] at external pending ⊢
        exact ⟨⟨active, external, pending⟩, rfl, rfl, fun waits => waits⟩
      · obtain ⟨sqid, _, internal, done⟩ := copy_work_place ((state.device.workers third).worker.workQueue entry) performed
        rw [copies, internal] at external
        rw [copies, copy_work_completed] at pending
        rw [copies, copied, done]
        exact ⟨⟨active, external, pending⟩, sqid, rfl, fun wrong => absurd wrong Bool.false_ne_true⟩
      · rw [marked] at pending
        cases pending
    · have there : next.device.workers third = state.device.workers third := by rw [workers, Function.update_of_ne same]
      rw [Outstanding, workAt, there] at outstanding
      rw [workAt, there]
      exact ⟨outstanding, rfl, rfl, fun waits => waits⟩
  refine ⟨?_, ?_, ?_, ?_⟩
  · intro third entry outstanding
    exact ⟨(back third entry outstanding).1, by rw [home]⟩
  · exact fun third entry outstanding => (back third entry outstanding).2.1
  · exact fun third entry outstanding => (back third entry outstanding).2.2.1
  · exact fun third entry outstanding => (back third entry outstanding).2.2.2

theorem worker_kept (next : QueueDevice) (turn : Nat) (worker : WorkerState) (kept : QueuesKept state) (sound : DeviceSound next.device)
    (workers : next.device.workers = Function.update state.device.workers turn worker) (carried : Carried state next)
    (sqes : next.sqes = state.sqes) (cqes : next.cqes = state.cqes) (held : ∀ other, other ≠ turn → next.held other = state.held other)
    (empty : next.held turn = none) (faults : next.faults = []) : QueuesKept next := by
  obtain ⟨waits, homes⟩ := carried_entries state next kept carried sqes cqes
  have others : ∀ other, other ≠ turn → next.device.workers other = state.device.workers other := by
    intro other apart
    rw [workers, Function.update_of_ne apart]
  have works : ∀ other entry, other ≠ turn → workAt next other entry = workAt state other entry := by
    intro other entry apart
    simp only [workAt, others other apart]
  have elsewhere : ∀ other pointer, next.held other = some pointer → other ≠ turn ∧ state.held other = some pointer := by
    intro other pointer here
    by_cases same : other = turn
    · rw [same, empty] at here
      cases here
    · exact ⟨same, (held other same).symm.trans here⟩
  refine ⟨sound, by rw [sqes]; exact kept.sqes, by rw [cqes]; exact kept.cqes, waits, homes, ?_, ?_, ?_, faults⟩
  · intro other curr pointer pc here
    obtain ⟨apart, before⟩ := elsewhere other pointer here
    rw [others other apart] at pc
    rw [works other curr apart, sqes]
    exact kept.heldSq other curr pointer pc before
  · intro other curr pointer pc here
    obtain ⟨apart, before⟩ := elsewhere other pointer here
    rw [others other apart] at pc
    rw [works other curr apart, cqes]
    exact kept.heldCq other curr pointer pc before
  · intro other queue pc here
    obtain ⟨apart, before⟩ := elsewhere other (some queue) here
    rw [others other apart] at pc
    rw [cqes]
    exact kept.heldIrq other queue pc before

theorem create_some (table : QueueTable) (created other : Nat) (there : table.entries other ≠ none) :
    (createQueue table created).entries other ≠ none := by
  by_cases same : other = created
  · rw [same, create_same]
    exact Option.some_ne_none _
  · rw [create_other table created other same]
    exact there

theorem delete_some (table : QueueTable) (deleted other : Nat) (there : table.entries other ≠ none) (apart : other ≠ deleted) :
    (deleteQueue table deleted).entries other ≠ none := by
  rw [delete_other table deleted other apart]
  exact there

theorem create_sq_kept (kept : QueuesKept state) (qid cqid : Nat) :
    QueuesKept { state with sqes := createQueue state.sqes qid, cqids := Function.update state.cqids qid cqid } := by
  refine { kept with sqes := create_sound state.sqes qid kept.sqes, transfers := ?_, heldSq := ?_ }
  · intro turn entry outstanding waits
    exact create_some state.sqes qid _ (kept.transfers turn entry outstanding waits)
  · intro turn curr pointer here loaded
    obtain ⟨waits, queue, same, taken⟩ := kept.heldSq turn curr pointer here loaded
    exact ⟨waits, queue, same, create_taken state.sqes _ qid queue taken⟩

theorem delete_sq_kept (kept : QueuesKept state) (qid : Nat) (late : DeletesLate state (.deleteSq qid)) :
    QueuesKept { state with sqes := deleteQueue state.sqes qid } := by
  refine { kept with sqes := delete_sound state.sqes qid kept.sqes, transfers := ?_, heldSq := ?_ }
  · intro turn entry outstanding waits
    exact delete_some state.sqes qid _ (kept.transfers turn entry outstanding waits) (late turn entry outstanding waits)
  · intro turn curr pointer here loaded
    obtain ⟨waits, queue, same, taken⟩ := kept.heldSq turn curr pointer here loaded
    have outstanding := outstanding_at_hand state kept turn curr (.inl here) (transfers_external _ waits)
    exact ⟨waits, queue, same, delete_taken state.sqes _ qid queue taken fun _ => (late turn curr outstanding waits).symm⟩

theorem create_cq_kept (kept : QueuesKept state) (qid : Nat) : QueuesKept { state with cqes := createQueue state.cqes qid } := by
  refine { kept with cqes := create_sound state.cqes qid kept.cqes, homes := ?_, heldCq := ?_, heldIrq := ?_ }
  · intro turn entry outstanding queue home
    obtain ⟨taken, there⟩ := kept.homes turn entry outstanding queue home
    exact ⟨create_taken state.cqes _ qid queue taken, create_some state.cqes qid _ there⟩
  · intro turn curr pointer here loaded
    obtain ⟨external, queue, same, taken⟩ := kept.heldCq turn curr pointer here loaded
    exact ⟨external, queue, same, create_taken state.cqes _ qid queue taken⟩
  · intro turn queue here loaded
    obtain ⟨place, taken⟩ := kept.heldIrq turn queue here loaded
    exact ⟨place, create_taken state.cqes place qid queue taken⟩

theorem delete_cq_kept (kept : QueuesKept state) (qid : Nat) (late : DeletesLate state (.deleteCq qid)) :
    QueuesKept { state with cqes := deleteQueue state.cqes qid } := by
  obtain ⟨posted, quiet⟩ := late
  refine { kept with cqes := delete_sound state.cqes qid kept.cqes, homes := ?_, heldCq := ?_, heldIrq := ?_ }
  · intro turn entry outstanding queue home
    obtain ⟨taken, there⟩ := kept.homes turn entry outstanding queue home
    have apart := posted turn entry outstanding
    exact ⟨delete_taken state.cqes _ qid queue taken fun _ => apart.symm, delete_some state.cqes qid _ there apart⟩
  · intro turn curr pointer here loaded
    obtain ⟨external, queue, same, taken⟩ := kept.heldCq turn curr pointer here loaded
    have outstanding := outstanding_at_hand state kept turn curr (.inr here) external
    exact ⟨external, queue, same, delete_taken state.cqes _ qid queue taken fun _ => (posted turn curr outstanding).symm⟩
  · intro turn queue here loaded
    obtain ⟨place, taken⟩ := kept.heldIrq turn queue here loaded
    exact ⟨place, delete_taken state.cqes place qid queue taken fun found => absurd found (quiet turn queue here loaded)⟩

theorem load_kept (kept : QueuesKept state) (turn : Nat) (value : Option Nat)
    (heldSq : ∀ curr, (state.device.workers turn).pc = .copy curr → ConZone.transfers (workAt state turn curr) = true ∧
      ∃ queue, value = some queue ∧ TakenFrom state.sqes (workAt state turn curr).sqid queue)
    (heldCq : ∀ curr, (state.device.workers turn).pc = .due curr → (workAt state turn curr).isInternal = false ∧
      ∃ queue, value = some queue ∧ TakenFrom state.cqes (workAt state turn curr).cqid queue)
    (heldIrq : ∀ queue, (state.device.workers turn).pc = .idle → value = some queue → ∃ qid, TakenFrom state.cqes qid queue) :
    QueuesKept { state with held := Function.update state.held turn (some value) } := by
  have holds : ∀ other pointer, Function.update state.held turn (some value) other = some pointer →
      (other = turn ∧ pointer = value) ∨ state.held other = some pointer := by
    intro other pointer loaded
    by_cases same : other = turn
    · rw [same, Function.update_self] at loaded
      exact .inl ⟨same, (Option.some.inj loaded).symm⟩
    · rw [Function.update_of_ne same] at loaded
      exact .inr loaded
  refine { kept with heldSq := ?_, heldCq := ?_, heldIrq := ?_ }
  · intro other curr pointer here loaded
    rcases holds other pointer loaded with ⟨rfl, rfl⟩ | before
    · exact heldSq curr here
    · exact kept.heldSq other curr pointer here before
  · intro other curr pointer here loaded
    rcases holds other pointer loaded with ⟨rfl, rfl⟩ | before
    · exact heldCq curr here
    · exact kept.heldCq other curr pointer here before
  · intro other queue here loaded
    rcases holds other (some queue) loaded with ⟨rfl, same⟩ | before
    · exact heldIrq queue here same.symm
    · exact kept.heldIrq other queue here before

theorem load_sq_kept (kept : QueuesKept state) (turn curr : Nat) (here : (state.device.workers turn).pc = .copy curr)
    (waits : transfers (workAt state turn curr) = true) :
    QueuesKept { state with held := Function.update state.held turn (some (state.sqes.entries (workAt state turn curr).sqid)) } := by
  have outstanding := outstanding_at_hand state kept turn curr (.inl here) (transfers_external _ waits)
  obtain ⟨queue, found⟩ := Option.ne_none_iff_exists'.mp (kept.transfers turn curr outstanding waits)
  apply load_kept state kept turn
  · intro other copies
    rw [here] at copies
    cases copies
    exact ⟨waits, queue, found, table_takes state.sqes _ kept.sqes queue found⟩
  · intro other due
    rw [here] at due
    cases due
  · intro other idle
    rw [here] at idle
    cases idle

theorem load_cq_kept (kept : QueuesKept state) (turn curr : Nat) (here : (state.device.workers turn).pc = .due curr)
    (posted : posts (state.device.workers turn).worker curr = true) (late : DeletesLate state (.loadCq turn)) :
    QueuesKept { state with held := Function.update state.held turn (some (state.cqes.entries (workAt state turn curr).cqid)) } := by
  have external := posts_external _ curr posted
  have outstanding := outstanding_at_hand state kept turn curr (.inr here) external
  have there : state.cqes.entries (workAt state turn curr).cqid ≠ none := by
    cases home : state.home turn curr with
    | none => exact late curr here home
    | some queue => exact (kept.homes turn curr outstanding queue home).2
  obtain ⟨queue, found⟩ := Option.ne_none_iff_exists'.mp there
  apply load_kept state kept turn
  · intro other copies
    rw [here] at copies
    cases copies
  · intro other due
    rw [here] at due
    cases due
    exact ⟨external, queue, found, table_takes state.cqes _ kept.cqes queue found⟩
  · intro other idle
    rw [here] at idle
    cases idle

theorem load_irq_kept (kept : QueuesKept state) (turn qid : Nat) (here : (state.device.workers turn).pc = .idle) :
    QueuesKept { state with held := Function.update state.held turn (some (state.cqes.entries qid)) } := by
  apply load_kept state kept turn
  · intro other copies
    rw [here] at copies
    cases copies
  · intro other due
    rw [here] at due
    cases due
  · intro queue _ found
    exact ⟨qid, table_takes state.cqes qid kept.cqes queue found⟩

theorem irq_kept (kept : QueuesKept state) (turn : Nat) (pointer : Option Nat) (here : (state.device.workers turn).pc = .idle)
    (loaded : state.held turn = some pointer) :
    QueuesKept { state with held := Function.update state.held turn none,
                            faults := state.faults ++ pointer.toList.flatMap fun queue => useQueue state.cqes (some queue) } := by
  have workers : state.device.workers = Function.update state.device.workers turn (state.device.workers turn) :=
    (Function.update_eq_self turn state.device.workers).symm
  refine worker_kept state _ turn (state.device.workers turn) kept kept.sound workers ?_ ?_ ?_ ?_ ?_ ?_
  · exact worker_carried state _ turn _ workers rfl rfl fun _ => .inl rfl
  · rfl
  · rfl
  · exact fun other apart => Function.update_of_ne apart _ _
  · exact Function.update_self _ _ _
  · cases pointer with
    | none => simp [kept.faults]
    | some queue =>
        obtain ⟨qid, taken⟩ := kept.heldIrq turn queue here loaded
        simp [kept.faults, use_taken state.cqes qid queue taken]

theorem pass_queues_kept (kept : QueuesKept state) (turn : Nat) (event : WorkerEvent) (next : WorkerState) (storage : Storage)
    (own : ownStep event = true) (other : event ≠ .complete) (idle : state.held turn = none)
    (taken : WorkerStep (state.device.workers turn) event next) :
    QueuesKept { state with device := { state.device with workers := Function.update state.device.workers turn next, storage := storage } } := by
  obtain ⟨entries, works⟩ := pass_entries _ next event own other taken
  refine worker_kept state _ turn next kept ⟨update_reach state.device kept.sound turn next event taken, kept.sound.clean⟩ rfl
    ?_ ?_ ?_ ?_ ?_ ?_
  · refine worker_carried state _ turn next rfl rfl entries fun entry => ?_
    rcases works entry with unchanged | ⟨performed, _, _, copied⟩
    · exact .inl unchanged
    · exact .inr (.inl ⟨performed, copied⟩)
  · rfl
  · rfl
  · exact fun _ _ => rfl
  · exact idle
  · exact kept.faults

theorem transfer_kept (kept : QueuesKept state) (turn curr : Nat) (performed : Bool) (storage : Storage) (pointer : Option Nat)
    (here : (state.device.workers turn).pc = .copy curr) (loaded : state.held turn = some pointer) :
    QueuesKept (transferStep state turn curr performed storage pointer) := by
  have taken : WorkerStep (state.device.workers turn) (.copy performed) (copyStep (state.device.workers turn) curr performed) :=
    .copy _ curr performed here
  obtain ⟨entries, works⟩ := pass_entries _ _ (.copy performed) rfl (by simp) taken
  obtain ⟨_, queue, same, live⟩ := kept.heldSq turn curr pointer here loaded
  refine worker_kept state _ turn _ kept ⟨update_reach state.device kept.sound turn _ _ taken, kept.sound.clean⟩ rfl ?_ ?_ ?_ ?_ ?_ ?_
  · refine worker_carried state _ turn _ rfl rfl entries fun entry => ?_
    rcases works entry with unchanged | ⟨performed, _, _, copied⟩
    · exact .inl unchanged
    · exact .inr (.inl ⟨performed, copied⟩)
  · rfl
  · rfl
  · exact fun other apart => Function.update_of_ne apart _ _
  · exact Function.update_self _ _ _
  · simp [transferStep, kept.faults, same, use_taken state.sqes _ queue live]

theorem completed_carried (next : QueueDevice) (turn curr : Nat) (device : next.device = completeOn state.device turn curr)
    (home : next.home = state.home) : Carried state next := by
  obtain ⟨entries, works⟩ := complete_entries (state.device.workers turn) curr
  have workers : next.device.workers = Function.update state.device.workers turn (completeStep (state.device.workers turn) curr) := by
    rw [device]
    exact (complete_workers state.device turn curr).1
  apply worker_carried state next turn _ workers home entries
  intro entry
  rcases works entry with unchanged | marked
  · exact .inl unchanged
  · exact .inr (.inr marked)

theorem post_kept (kept : QueuesKept state) (turn curr : Nat) (pointer : Option Nat) (here : (state.device.workers turn).pc = .due curr)
    (loaded : state.held turn = some pointer) : QueuesKept (postStep state turn curr pointer) := by
  obtain ⟨external, queue, same, taken⟩ := kept.heldCq turn curr pointer here loaded
  have outstanding := outstanding_at_hand state kept turn curr (.inr here) external
  have none : postFaults state.cqes (state.home turn curr) (some queue) = [] := by
    apply post_taken state.cqes _ _ queue taken
    intro first home
    exact (kept.homes turn curr outstanding first home).1.live
  refine worker_kept state _ turn _ kept (completion_sound state.device kept.sound turn curr here) (complete_workers state.device turn curr).1
    ?_ ?_ ?_ ?_ ?_ ?_
  · exact completed_carried state _ turn curr rfl rfl
  · rfl
  · rfl
  · exact fun other apart => Function.update_of_ne apart _ _
  · exact Function.update_self _ _ _
  · simp [postStep, kept.faults, same, none]

theorem finish_kept (kept : QueuesKept state) (turn curr : Nat) (here : (state.device.workers turn).pc = .due curr)
    (idle : state.held turn = none) : QueuesKept { state with device := completeOn state.device turn curr } := by
  refine worker_kept state _ turn _ kept (completion_sound state.device kept.sound turn curr here) (complete_workers state.device turn curr).1
    ?_ ?_ ?_ ?_ ?_ ?_
  · exact completed_carried state _ turn curr rfl rfl
  · rfl
  · rfl
  · exact fun _ _ => rfl
  · exact idle
  · exact kept.faults

theorem proc_cq_kept (kept : QueuesKept state) (qid pointer : Nat) (sqids : List Nat) (created : state.cqes.entries qid = some pointer) :
    QueuesKept { state with faults := state.faults ++ useQueue state.cqes (some pointer) ++ countFaults state sqids } := by
  have used := use_taken state.cqes qid pointer (table_takes state.cqes qid kept.cqes pointer created)
  have counted : countFaults state sqids = [] := by
    rw [countFaults, List.flatMap_eq_nil_iff]
    intro sqid _
    rw [List.flatMap_eq_nil_iff]
    intro queue found
    exact use_taken state.sqes sqid queue (table_takes state.sqes sqid kept.sqes queue (Option.mem_toList.mp found))
  refine { kept with faults := ?_ }
  rw [kept.faults, used, counted]
  rfl

theorem same_content_queues (first second : NvmevIoWork) (same : contentOf first = contentOf second) :
    first.sqid = second.sqid ∧ first.cqid = second.cqid ∧ first.isInternal = second.isInternal ∧
      first.isCompleted = second.isCompleted ∧ transfers first = transfers second := by
  have waits : transfers (contentOf first) = transfers (contentOf second) := congrArg transfers same
  exact ⟨congrArg (fun work => work.sqid) same, congrArg (fun work => work.cqid) same, same_content_internal first second same,
    same_content_completed first second same, waits⟩

theorem proc_sq_kept (kept : QueuesKept state) (call : IoCall) (pointer : Nat) (created : state.sqes.entries call.sqid = some pointer)
    (attempt : Attempt)
    (handled : procIoCmd (dualParams config call.loc) (nsMapped config call.loc) (state.device.ftls call.loc) state.device.storage
      (callRequest call) call.cmd = .ok attempt)
    (accepted : Bool) (next : IoDevice) (ran : nvmevProcIo config threads state.device call = .ok (accepted, next)) :
    QueuesKept { state with device := next, faults := state.faults ++ useQueue state.sqes (some pointer),
                            home := if accepted then recordEntry state.home (getIoWorker threads call.sqid)
                              (commandEntry threads state.device call attempt) (state.cqes.entries call.cqid) else state.home } := by
  have sound := device_step_sound config threads state.device next _ kept.sound (.procIo state.device next call accepted ran)
  have used := use_taken state.sqes call.sqid pointer (table_takes state.sqes call.sqid kept.sqes pointer created)
  obtain ⟨result, again, answered, called⟩ := proc_io_runs config threads state.device next call accepted ran
  have sameAttempt : result = attempt := Except.ok.inj (again.symm.trans handled)
  rw [sameAttempt] at answered called
  have entries := called_entries threads state.device call accepted kept.sound attempt answered
  have keeps := called_keeps threads state.device call accepted kept.sound attempt
  have pcs : ∀ turn, (next.workers turn).pc = (state.device.workers turn).pc := by
    intro turn
    rw [called]
    exact (called_back threads state.device call accepted kept.sound attempt turn 0).2.1.trans
      (given_pc threads state.device call attempt turn)
  rw [← called] at entries keeps
  generalize same : ({ state with device := next, faults := state.faults ++ useQueue state.sqes (some pointer),
                                  home := if accepted then recordEntry state.home (getIoWorker threads call.sqid)
                                    (commandEntry threads state.device call attempt) (state.cqes.entries call.cqid) else state.home } :
    QueueDevice) = after
  have device : after.device = next := by rw [← same]
  have sqes : after.sqes = state.sqes := by rw [← same]
  have cqes : after.cqes = state.cqes := by rw [← same]
  have held : after.held = state.held := by rw [← same]
  have back : ∀ turn entry, Outstanding after turn entry →
      (Outstanding state turn entry ∧ contentOf (workAt after turn entry) = contentOf (workAt state turn entry) ∧
        after.home turn entry = state.home turn entry) ∨
      (workAt after turn entry).sqid = call.sqid ∧ (workAt after turn entry).cqid = call.cqid ∧
        after.home turn entry = state.cqes.entries call.cqid := by
    intro turn entry outstanding
    rw [Outstanding, workAt, device] at outstanding
    rw [workAt, device]
    obtain ⟨active, external, pending⟩ := outstanding
    rcases entries turn entry active external with old | ⟨some, here, given, done, before, _, content⟩
    · obtain ⟨content, apart⟩ := keeps turn entry old
      obtain ⟨_, _, internal, completed, _⟩ := same_content_queues _ _ content
      refine .inl ⟨⟨old, internal.symm.trans external, completed.symm.trans pending⟩, content, ?_⟩
      rw [← same]
      cases accepted with
      | false => rfl
      | true => exact record_other _ _ _ _ _ _ apart
    · obtain ⟨sqid, cqid, _⟩ := same_content_queues _ _ content
      refine .inr ⟨sqid, cqid, ?_⟩
      rw [← same, some]
      simp only [if_true, given, here]
      exact record_given _ _ _ _
  have hands : ∀ turn curr, ((state.device.workers turn).pc = .copy curr ∨ (state.device.workers turn).pc = .due curr) →
      contentOf (workAt after turn curr) = contentOf (workAt state turn curr) := by
    intro turn curr here
    obtain ⟨active, fresh, used, listed⟩ := reached_sound _ (kept.sound.workers turn)
    have pc := listed.pc
    have member : curr ∈ activeEntries (state.device.workers turn).worker := by
      rw [active_entries_are _ active _ listed.threaded]
      rcases here with copies | due
      · rw [copies] at pc
        exact pc.1
      · rw [due] at pc
        exact pc.1
    rw [workAt, device]
    exact (keeps turn curr member).1
  refine ⟨by rw [device]; exact sound, by rw [sqes]; exact kept.sqes, by rw [cqes]; exact kept.cqes, ?_, ?_, ?_, ?_, ?_, ?_⟩
  · intro turn entry outstanding waits
    rw [sqes]
    rcases back turn entry outstanding with ⟨old, content, _⟩ | ⟨sqid, _, _⟩
    · obtain ⟨sqid, _, _, _, waiting⟩ := same_content_queues _ _ content
      rw [sqid]
      exact kept.transfers turn entry old (waiting.symm.trans waits)
    · rw [sqid, created]
      exact Option.some_ne_none _
  · intro turn entry outstanding queue home
    rw [cqes]
    rcases back turn entry outstanding with ⟨old, content, before⟩ | ⟨_, cqid, new⟩
    · obtain ⟨_, cqid, _⟩ := same_content_queues _ _ content
      rw [cqid]
      exact kept.homes turn entry old queue (before.symm.trans home)
    · have found := new.symm.trans home
      rw [cqid, found]
      exact ⟨table_takes state.cqes call.cqid kept.cqes queue found, Option.some_ne_none _⟩
  · intro turn curr value here loaded
    rw [device, pcs] at here
    rw [held] at loaded
    obtain ⟨sqid, _, _, _, waiting⟩ := same_content_queues _ _ (hands turn curr (.inl here))
    rw [waiting, sqid, sqes]
    exact kept.heldSq turn curr value here loaded
  · intro turn curr value here loaded
    rw [device, pcs] at here
    rw [held] at loaded
    obtain ⟨_, cqid, internal, _⟩ := same_content_queues _ _ (hands turn curr (.inr here))
    rw [internal, cqid, cqes]
    exact kept.heldCq turn curr value here loaded
  · intro turn queue here loaded
    rw [device, pcs] at here
    rw [held] at loaded
    rw [cqes]
    exact kept.heldIrq turn queue here loaded
  · rw [← same]
    exact (congrArg (· ++ _) kept.faults).trans used

theorem fresh_not_outstanding (clock : Nat → Nat) (device : state.device = deviceInit config clock) (turn entry : Nat) :
    ¬Outstanding state turn entry := by
  intro outstanding
  have none : activeEntries nvmevIoWorkerInit = [] :=
    active_entries_are _ [] _ (init_sound (List.range nrMaxParallelIo) rfl).threaded
  have start := outstanding.1
  rw [device] at start
  have member : entry ∈ activeEntries nvmevIoWorkerInit := start
  rw [none] at member
  exact List.not_mem_nil member

theorem queues_invariant : TransitionSystem.Invariant (queueSystem config threads) DeletesLate QueuesKept := by
  refine ⟨?_, ?_⟩
  · intro state init
    obtain ⟨clock, device⟩ := init.device
    have sound := (device_sound_invariant config threads fun _ _ => True).starts (deviceInit config clock) ⟨clock, rfl⟩
    have empty : TableSound ⟨fun _ => none, [], 0⟩ :=
      ⟨by simp, by simp, by simp, by simp⟩
    have unused := fresh_not_outstanding config state clock device
    have free : ∀ turn pointer, state.held turn ≠ some pointer := by
      intro turn pointer loaded
      rw [init.held turn] at loaded
      cases loaded
    refine ⟨by rw [device]; exact sound, by rw [init.sqes]; exact empty, by rw [init.cqes]; exact empty, ?_, ?_, ?_, ?_, ?_, init.faults⟩
    · exact fun turn entry outstanding => absurd outstanding (unused turn entry)
    · exact fun turn entry outstanding => absurd outstanding (unused turn entry)
    · exact fun turn curr pointer _ loaded => absurd loaded (free turn pointer)
    · exact fun turn curr pointer _ loaded => absurd loaded (free turn pointer)
    · exact fun turn queue _ loaded => absurd loaded (free turn (some queue))
  · intro state next event kept late taken
    cases taken with
    | createSq qid cqid => exact create_sq_kept state kept qid cqid
    | deleteSq qid => exact delete_sq_kept state kept qid late
    | createCq qid => exact create_cq_kept state kept qid
    | deleteCq qid => exact delete_cq_kept state kept qid late
    | procSq call pointer created own attempt handled accepted next ran =>
        exact proc_sq_kept config threads state kept call pointer created attempt handled accepted next ran
    | procCq qid pointer sqids created => exact proc_cq_kept state kept qid pointer sqids created
    | pass turn event next storage inside own other quiet idle taken =>
        exact pass_queues_kept state kept turn event next storage own other idle taken
    | loadSq turn curr here waits idle => exact load_sq_kept state kept turn curr here waits
    | transfer turn curr performed storage pointer here inside loaded =>
        exact transfer_kept state kept turn curr performed storage pointer here loaded
    | loadCq turn curr here posted idle => exact load_cq_kept state kept turn curr here posted late
    | post turn curr pointer here inside loaded => exact post_kept state kept turn curr pointer here loaded
    | finish turn curr here inside silent idle => exact finish_kept state kept turn curr here idle
    | loadIrq turn qid here idle => exact load_irq_kept state kept turn qid here
    | irq turn pointer here loaded => exact irq_kept state kept turn pointer here loaded

-- Where queues are deleted once nothing refers to them, none is missed.
theorem queues_deleted_late (state : QueueDevice) (reached : TransitionSystem.Reach (queueSystem config threads) DeletesLate state) :
    state.faults = [] :=
  (TransitionSystem.reach_invariant _ _ _ (queues_invariant config threads) state reached).faults

end Kept

section Execution

variable (config : DualConfig) (threads : IoThreads)

def noTransfer (state : QueueDevice) (turn : Nat) : WorkerEvent → Bool
  | .copy _ =>
      match (state.device.workers turn).pc with
      | .copy curr => !transfers (workAt state turn curr)
      | _ => true
  | _ => true

def stepQueue (state : QueueDevice) : QueueEvent → Option QueueDevice
  | .createSq qid cqid => some { state with sqes := createQueue state.sqes qid, cqids := Function.update state.cqids qid cqid }
  | .deleteSq qid => some { state with sqes := deleteQueue state.sqes qid }
  | .createCq qid => some { state with cqes := createQueue state.cqes qid }
  | .deleteCq qid => some { state with cqes := deleteQueue state.cqes qid }
  | .procSq call =>
      match state.sqes.entries call.sqid,
        procIoCmd (dualParams config call.loc) (nsMapped config call.loc) (state.device.ftls call.loc) state.device.storage (callRequest call) call.cmd,
        nvmevProcIo config threads state.device call with
      | some pointer, .ok attempt, .ok (accepted, next) =>
          if call.cqid = state.cqids call.sqid then
            some { state with device := next, faults := state.faults ++ useQueue state.sqes (some pointer),
                              home := if accepted then recordEntry state.home (getIoWorker threads call.sqid)
                                (commandEntry threads state.device call attempt) (state.cqes.entries call.cqid) else state.home }
          else none
      | _, _, _ => none
  | .procCq qid sqids =>
      (state.cqes.entries qid).map fun pointer =>
        { state with faults := state.faults ++ useQueue state.cqes (some pointer) ++ countFaults state sqids }
  | .pass turn event storage =>
      if turn < threads.nrIoWorkers ∧ ownStep event = true ∧ isComplete event = false ∧ noTransfer state turn event = true ∧
          state.held turn = none then
        (stepWorker (state.device.workers turn) event).map fun next =>
          { state with device := { state.device with workers := Function.update state.device.workers turn next, storage := storage } }
      else none
  | .loadSq turn =>
      match (state.device.workers turn).pc with
      | .copy curr =>
          if transfers (workAt state turn curr) = true ∧ state.held turn = none then
            some { state with held := Function.update state.held turn (some (state.sqes.entries (workAt state turn curr).sqid)) }
          else none
      | _ => none
  | .transfer turn performed storage =>
      match (state.device.workers turn).pc, state.held turn with
      | .copy curr, some pointer => if turn < threads.nrIoWorkers then some (transferStep state turn curr performed storage pointer) else none
      | _, _ => none
  | .loadCq turn =>
      match (state.device.workers turn).pc with
      | .due curr =>
          if posts (state.device.workers turn).worker curr = true ∧ state.held turn = none then
            some { state with held := Function.update state.held turn (some (state.cqes.entries (workAt state turn curr).cqid)) }
          else none
      | _ => none
  | .post turn =>
      match (state.device.workers turn).pc, state.held turn with
      | .due curr, some pointer => if turn < threads.nrIoWorkers then some (postStep state turn curr pointer) else none
      | _, _ => none
  | .finish turn =>
      match (state.device.workers turn).pc with
      | .due curr =>
          if turn < threads.nrIoWorkers ∧ posts (state.device.workers turn).worker curr = false ∧ state.held turn = none then
            some { state with device := completeOn state.device turn curr }
          else none
      | _ => none
  | .loadIrq turn qid =>
      match (state.device.workers turn).pc with
      | .idle =>
          if state.held turn = none then some { state with held := Function.update state.held turn (some (state.cqes.entries qid)) } else none
      | _ => none
  | .irq turn =>
      match (state.device.workers turn).pc, state.held turn with
      | .idle, some pointer =>
          some { state with held := Function.update state.held turn none,
                            faults := state.faults ++ pointer.toList.flatMap fun queue => useQueue state.cqes (some queue) }
      | _, _ => none

theorem step_queue (state next : QueueDevice) (event : QueueEvent) (stepped : stepQueue config threads state event = some next) :
    QueueStep config threads state event next := by
  cases event with
  | createSq qid cqid =>
      cases stepped
      exact .createSq state qid cqid
  | deleteSq qid =>
      cases stepped
      exact .deleteSq state qid
  | createCq qid =>
      cases stepped
      exact .createCq state qid
  | deleteCq qid =>
      cases stepped
      exact .deleteCq state qid
  | procSq call =>
      simp only [stepQueue] at stepped
      split at stepped
      · rename_i pointer attempt accepted after created handled ran
        obtain ⟨own, same⟩ := Option.ite_none_right_eq_some.mp stepped
        cases same
        exact .procSq state call pointer created own attempt handled accepted after ran
      · cases stepped
  | procCq qid sqids =>
      obtain ⟨pointer, created, same⟩ := Option.map_eq_some_iff.mp stepped
      rw [← same]
      exact .procCq state qid pointer sqids created
  | pass turn event storage =>
      obtain ⟨⟨inside, own, other, quiet, idle⟩, passed⟩ := Option.ite_none_right_eq_some.mp stepped
      obtain ⟨after, taken, same⟩ := Option.map_eq_some_iff.mp passed
      rw [← same]
      refine .pass state turn event after storage inside own ?_ ?_ idle (step_worker _ after event taken)
      · intro wrong
        rw [wrong] at other
        cases other
      · intro curr performed copies here
        rw [copies, noTransfer, here] at quiet
        simpa using quiet
  | loadSq turn =>
      simp only [stepQueue] at stepped
      split at stepped
      · rename_i curr here
        obtain ⟨⟨waits, idle⟩, same⟩ := Option.ite_none_right_eq_some.mp stepped
        cases same
        exact .loadSq state turn curr here waits idle
      · cases stepped
  | transfer turn performed storage =>
      simp only [stepQueue] at stepped
      split at stepped
      · rename_i curr pointer here loaded
        obtain ⟨inside, same⟩ := Option.ite_none_right_eq_some.mp stepped
        cases same
        exact .transfer state turn curr performed storage pointer here inside loaded
      · cases stepped
  | loadCq turn =>
      simp only [stepQueue] at stepped
      split at stepped
      · rename_i curr here
        obtain ⟨⟨posted, idle⟩, same⟩ := Option.ite_none_right_eq_some.mp stepped
        cases same
        exact .loadCq state turn curr here posted idle
      · cases stepped
  | post turn =>
      simp only [stepQueue] at stepped
      split at stepped
      · rename_i curr pointer here loaded
        obtain ⟨inside, same⟩ := Option.ite_none_right_eq_some.mp stepped
        cases same
        exact .post state turn curr pointer here inside loaded
      · cases stepped
  | finish turn =>
      simp only [stepQueue] at stepped
      split at stepped
      · rename_i curr here
        obtain ⟨⟨inside, silent, idle⟩, same⟩ := Option.ite_none_right_eq_some.mp stepped
        cases same
        exact .finish state turn curr here inside silent idle
      · cases stepped
  | loadIrq turn qid =>
      simp only [stepQueue] at stepped
      split at stepped
      · rename_i here
        obtain ⟨idle, same⟩ := Option.ite_none_right_eq_some.mp stepped
        cases same
        exact .loadIrq state turn qid here idle
      · cases stepped
  | irq turn =>
      simp only [stepQueue] at stepped
      split at stepped
      · rename_i pointer here loaded
        cases stepped
        exact .irq state turn pointer here loaded
      · cases stepped

def runQueues (check : QueueDevice → QueueEvent → Bool) : List QueueEvent → QueueDevice → Option QueueDevice
  | [], state => some state
  | event :: rest, state => if check state event then (stepQueue config threads state event).bind (runQueues check rest) else none

theorem run_queues_reach (check : QueueDevice → QueueEvent → Bool) (allowed : QueueDevice → QueueEvent → Prop)
    (checked : ∀ state event, check state event = true → allowed state event) (events : List QueueEvent) (state last : QueueDevice)
    (reached : TransitionSystem.Reach (queueSystem config threads) allowed state)
    (ran : runQueues config threads check events state = some last) : TransitionSystem.Reach (queueSystem config threads) allowed last := by
  induction events generalizing state with
  | nil =>
      cases ran
      exact reached
  | cons event rest ih =>
      obtain ⟨permitted, onward⟩ := Option.ite_none_right_eq_some.mp ran
      obtain ⟨next, stepped, later⟩ := Option.bind_eq_some_iff.mp onward
      apply ih next _ later
      exact .next state next event reached (checked state event permitted) (step_queue config threads state next event stepped)

def lateCheck (state : QueueDevice) : QueueEvent → Bool
  | .deleteSq _ | .deleteCq _ => false
  | .loadCq turn =>
      match (state.device.workers turn).pc with
      | .due curr => (state.cqes.entries (workAt state turn curr).cqid).isSome
      | _ => true
  | _ => true

theorem late_check (state : QueueDevice) (event : QueueEvent) (checked : lateCheck state event = true) : DeletesLate state event := by
  cases event with
  | deleteSq qid => cases checked
  | deleteCq qid => cases checked
  | loadCq turn =>
      intro curr here _ none
      simp only [lateCheck, here, none] at checked
      cases checked
  | createSq _ _ | createCq _ | procSq _ | procCq _ _ | pass _ _ _ | loadSq _ | transfer _ _ _ | post _ | finish _ | loadIrq _ _ | irq _ =>
      trivial

end Execution

section Deleted

def noQueues : QueueDevice :=
  { device := deviceInit sampleConfig fun _ => 0, sqes := ⟨fun _ => none, [], 0⟩, cqids := fun _ => 0, cqes := ⟨fun _ => none, [], 0⟩,
    held := fun _ => none, home := fun _ _ => none, faults := [] }

theorem no_queues_reached (allowed : QueueDevice → QueueEvent → Prop) :
    TransitionSystem.Reach (queueSystem sampleConfig oneWorker) allowed noQueues := .start _ ⟨⟨_, rfl⟩, rfl, rfl, fun _ => rfl, rfl⟩

def readCall : IoCall := ⟨1, 1, 0, 0, .normal, .read ⟨false, 0, 0, false⟩ onePage, 0, 0⟩

def createBoth : List QueueEvent := [.createCq 1, .createSq 1 1]

def visitEntry : List QueueEvent :=
  [.pass 0 .start (fun _ => 0), .pass 0 (.advance 1000000000) (fun _ => 0), .pass 0 .check (fun _ => 0), .loadSq 0,
   .transfer 0 true (fun _ => 0)]

-- The queue that is used here is the second under its id.
theorem one_read_posted :
    ∃ state, TransitionSystem.Reach (queueSystem sampleConfig oneWorker) DeletesLate state ∧ state.device.posted ≠ [] ∧ state.faults = [] := by
  let created : QueueDevice := { noQueues with sqes := createQueue noQueues.sqes 1, cqids := Function.update noQueues.cqids 1 1 }
  have creates : TransitionSystem.Reach (queueSystem sampleConfig oneWorker) DeletesLate created :=
    .next noQueues created (.createSq 1 1) (no_queues_reached _) trivial (.createSq noQueues 1 1)
  have unused : DeletesLate created (.deleteSq 1) := fun turn entry outstanding =>
    absurd outstanding (fresh_not_outstanding sampleConfig created (fun _ => 0) rfl turn entry)
  have deletes := TransitionSystem.Reach.next created _ _ creates unused (.deleteSq created 1)
  have ran : (runQueues sampleConfig oneWorker lateCheck (createBoth ++ [.procSq readCall] ++ visitEntry ++ [.loadCq 0, .post 0])
      { created with sqes := deleteQueue created.sqes 1 }).any (fun state => !state.device.posted.isEmpty) = true := by decide +kernel
  obtain ⟨last, ran, some⟩ := (Option.any_eq_true _ _).mp ran
  have reached := run_queues_reach _ _ _ _ late_check _ _ _ deletes ran
  refine ⟨last, reached, ?_, queues_deleted_late sampleConfig oneWorker last reached⟩
  intro none
  rw [none] at some
  cases some

-- A SQ deleted before the transfer, and a CQ created anew before the
-- completion.
theorem deleted_queues_used :
    (∃ state, TransitionSystem.Reach (queueSystem sampleConfig oneWorker) (fun _ _ => True) state ∧ .nullDeref ∈ state.faults) ∧
      ∃ state, TransitionSystem.Reach (queueSystem sampleConfig oneWorker) (fun _ _ => True) state ∧ .wrongQueue ∈ state.faults := by
  have null : (runQueues sampleConfig oneWorker (fun _ _ => true) (createBoth ++ [.procSq readCall, .deleteSq 1] ++ visitEntry) noQueues).any
      (fun state => state.faults.any (· == .nullDeref)) = true := by decide +kernel
  have wrong : (runQueues sampleConfig oneWorker (fun _ _ => true) (createBoth ++ [.procSq readCall] ++ visitEntry ++
      [.deleteCq 1, .createCq 1, .loadCq 0, .post 0]) noQueues).any (fun state => state.faults.any (· == .wrongQueue)) = true := by
    decide +kernel
  obtain ⟨first, ranFirst, nullFound⟩ := (Option.any_eq_true _ _).mp null
  obtain ⟨second, ranSecond, wrongFound⟩ := (Option.any_eq_true _ _).mp wrong
  obtain ⟨_, inFirst, same⟩ := List.any_eq_true.mp nullFound
  obtain ⟨_, inSecond, alike⟩ := List.any_eq_true.mp wrongFound
  rw [eq_of_beq same] at inFirst
  rw [eq_of_beq alike] at inSecond
  exact ⟨⟨first, run_queues_reach _ _ _ _ (fun _ _ _ => trivial) _ _ _ (no_queues_reached _) ranFirst, inFirst⟩,
    second, run_queues_reach _ _ _ _ (fun _ _ _ => trivial) _ _ _ (no_queues_reached _) ranSecond, inSecond⟩

end Deleted

end ConZone
