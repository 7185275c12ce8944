import ConZone.Run
import ConZone.WorkQueue
import Mathlib.Data.List.TakeWhile

set_option autoImplicit false

namespace ConZone

-- Where a pass of nvmev_io_worker over its list is.
inductive WorkerPc where
  | idle
  | fetch (curr : Nat)
  | check (curr : Nat)
  | copy (curr : Nat)
  | due (curr : Nat)
  | next (curr : Nat)

-- allocation numbers the times an entry has been given out, completed and
-- reclaimed list those allocations.
structure WorkerState where
  worker : NvmevIoWorker
  pc : WorkerPc
  allocations : Nat
  allocation : Nat → Nat
  completed : List Nat
  reclaimed : List Nat

def enterPc (curr : Nat) : WorkerPc := if curr = noEntry then .idle else .fetch curr

-- performed is what __do_perform_io answers.
def copyWork (work : NvmevIoWork) (performed : Bool) : NvmevIoWork :=
  if work.isCopied then work
  else
    { work with isCopied := true,
                status := if !work.isInternal && work.status == .success && !performed then .lbaRange else work.status }

def enqueueStep (state : WorkerState) (item : WorkItem) : WorkerState :=
  match allocateWorkQueueEntry state.worker with
  | none => { state with worker := enqueueItem state.worker item }
  | some (entry, _) =>
      { state with worker := enqueueItem state.worker item, allocations := state.allocations + 1,
                   allocation := Function.update state.allocation entry state.allocations }

def reclaimStep (state : WorkerState) : WorkerState :=
  { state with worker := reclaimCompletedReqs state.worker,
               reclaimed := state.reclaimed ++ (reclaimable state.worker nrMaxParallelIo state.worker.ioSeq).map state.allocation }

def copyStep (state : WorkerState) (curr : Nat) (performed : Bool) : WorkerState :=
  { state with worker := putWork state.worker curr (copyWork (state.worker.workQueue curr) performed), pc := .due curr }

def completeStep (state : WorkerState) (curr : Nat) : WorkerState :=
  if targets state.worker curr ≤ state.worker.latestNsecs then
    { state with worker := putWork state.worker curr { state.worker.workQueue curr with isCompleted := true }, pc := .next curr,
                 completed := state.completed ++ [state.allocation curr] }
  else { state with pc := .next curr }

inductive WorkerEvent where
  | enqueue (item : WorkItem)
  | reclaim
  | start
  | advance (now : Nat)
  | check
  | copy (performed : Bool)
  | complete
  | move

inductive WorkerStep : WorkerState → WorkerEvent → WorkerState → Prop where
  | enqueue (state : WorkerState) (item : WorkItem) : WorkerStep state (.enqueue item) (enqueueStep state item)
  | reclaim (state : WorkerState) : WorkerStep state .reclaim (reclaimStep state)
  | start (state : WorkerState) (idle : state.pc = .idle) :
      WorkerStep state .start { state with pc := enterPc state.worker.ioSeq }
  | advance (state : WorkerState) (curr now : Nat) (here : state.pc = .fetch curr) (later : state.worker.latestNsecs ≤ now) :
      WorkerStep state (.advance now) { state with worker := { state.worker with latestNsecs := now }, pc := .check curr }
  | check (state : WorkerState) (curr : Nat) (here : state.pc = .check curr) :
      WorkerStep state .check
        { state with pc := if (state.worker.workQueue curr).isCompleted then .next curr else .copy curr }
  | copy (state : WorkerState) (curr : Nat) (performed : Bool) (here : state.pc = .copy curr) :
      WorkerStep state (.copy performed) (copyStep state curr performed)
  | complete (state : WorkerState) (curr : Nat) (here : state.pc = .due curr) :
      WorkerStep state .complete (completeStep state curr)
  | move (state : WorkerState) (curr : Nat) (here : state.pc = .next curr) :
      WorkerStep state .move { state with pc := enterPc (nexts state.worker curr) }

def workerInit : WorkerState :=
  { worker := nvmevIoWorkerInit, pc := .idle, allocations := 0, allocation := fun _ => 0, completed := [], reclaimed := [] }

def workerSystem : TransitionSystem.System WorkerState WorkerEvent := ⟨fun state => state = workerInit, WorkerStep⟩

-- A worker that has seen an entry not completed is still at an active one; one
-- that only follows the links may have been left behind in the entries used.
def PcSound (worker : NvmevIoWorker) (active used : List Nat) : WorkerPc → Prop
  | .idle => True
  | .fetch curr | .check curr | .next curr => curr ∈ active ++ used
  | .copy curr | .due curr => curr ∈ active ∧ (worker.workQueue curr).isCompleted = false

structure Booked (state : WorkerState) (active : List Nat) : Prop where
  held : ∀ entry ∈ active, state.allocation entry < state.allocations
  apart : ∀ entry ∈ active, ∀ other ∈ active, state.allocation entry = state.allocation other → entry = other
  marks : ∀ entry ∈ active, (state.worker.workQueue entry).isCompleted = true ↔ state.allocation entry ∈ state.completed
  past : ∀ allocation ∈ state.completed, allocation < state.allocations
  once : state.completed.Nodup
  reclaimed : ∀ allocation ∈ state.reclaimed, allocation ∈ state.completed

structure WorkerSound (state : WorkerState) (active fresh used : List Nat) : Prop where
  threaded : Threaded state.worker active (fresh ++ used)
  every : (active ++ (fresh ++ used)).Perm (List.range nrMaxParallelIo)
  ordered : TargetsOrdered state.worker active
  done : ∀ entry ∈ used, (state.worker.workQueue entry).isCompleted = true
  pc : PcSound state.worker active used state.pc
  booked : Booked state active

section Steps

variable (state : WorkerState) (active fresh used : List Nat)

theorem same_content_completed (first second : NvmevIoWork) (same : contentOf first = contentOf second) :
    first.isCompleted = second.isCompleted := congrArg (fun work => work.isCompleted) same

theorem next_in_list (next : Nat → Nat) (first curr : Nat) (members : List Nat) (path : Segment.Path next noEntry first members)
    (member : curr ∈ members) : next curr = noEntry ∨ next curr ∈ members := by
  obtain ⟨left, right, split⟩ := List.append_of_mem member
  rw [split] at path
  have follows := Segment.path_next next noEntry first curr left right path
  cases right with
  | nil => exact .inl follows
  | cons second rest =>
      right
      have same : next curr = second := follows
      rw [same, split]
      simp

theorem enter_sound (worker : NvmevIoWorker) (curr : Nat) (goes : curr = noEntry ∨ curr ∈ active ++ used) :
    PcSound worker active used (enterPc curr) := by
  unfold enterPc
  split
  · trivial
  · rename_i some
    exact goes.resolve_left some

theorem pc_sound_mono (before after : NvmevIoWorker) (later stillUsed : List Nat) (pc : WorkerPc) (sound : PcSound before active used pc)
    (known : ∀ entry ∈ active ++ used, entry ∈ later ++ stillUsed)
    (kept : ∀ entry ∈ active, (before.workQueue entry).isCompleted = false →
      entry ∈ later ∧ (after.workQueue entry).isCompleted = false) : PcSound after later stillUsed pc := by
  cases pc with
  | idle => trivial
  | fetch curr => exact known curr sound
  | check curr => exact known curr sound
  | next curr => exact known curr sound
  | copy curr => exact kept curr sound.1 sound.2
  | due curr => exact kept curr sound.1 sound.2

theorem free_split (entry : Nat) (rest : List Nat) (taken : fresh ++ used = entry :: rest) :
    ∃ fresh' used', rest = fresh' ++ used' ∧ (∀ other ∈ used', other ∈ used) ∧ ∀ other ∈ used, other = entry ∨ other ∈ used' := by
  cases fresh with
  | nil =>
      have all : used = entry :: rest := taken
      refine ⟨[], rest, rfl, ?_, ?_⟩
      · intro other found
        rw [all]
        exact List.mem_cons_of_mem entry found
      · intro other found
        rw [all] at found
        exact List.mem_cons.mp found
  | cons first more =>
      have tail : rest = more ++ used := by
        have same := List.tail_eq_of_cons_eq taken
        exact same.symm
      exact ⟨more, used, tail, fun _ found => found, fun _ found => .inr found⟩

theorem enqueue_booked (worker : NvmevIoWorker) (later : List Nat) (entry : Nat) (booked : Booked state active)
    (member : ∀ other, other ∈ later ↔ other = entry ∨ other ∈ active) (apart : ∀ other ∈ active, other ≠ entry)
    (empty : (worker.workQueue entry).isCompleted = false)
    (mark : ∀ other, other ≠ entry → (worker.workQueue other).isCompleted = (state.worker.workQueue other).isCompleted) :
    Booked { state with worker := worker, allocations := state.allocations + 1,
                        allocation := Function.update state.allocation entry state.allocations } later := by
  have mine : Function.update state.allocation entry state.allocations entry = state.allocations := Function.update_self _ _ _
  have theirs : ∀ other ∈ active, Function.update state.allocation entry state.allocations other = state.allocation other :=
    fun other found => Function.update_of_ne (apart other found) _ _
  refine ⟨?_, ?_, ?_, fun allocation found => Nat.lt_succ_of_lt (booked.past allocation found), booked.once, booked.reclaimed⟩
  · intro other found
    dsimp only
    rcases (member other).mp found with same | inActive
    · rw [same, mine]
      exact Nat.lt_succ_self _
    · rw [theirs other inActive]
      exact Nat.lt_succ_of_lt (booked.held other inActive)
  · intro first inFirst second inSecond same
    dsimp only at same
    rcases (member first).mp inFirst with isFirst | first'
    · rcases (member second).mp inSecond with isSecond | second'
      · rw [isFirst, isSecond]
      · rw [isFirst, mine, theirs second second'] at same
        exact absurd same (Nat.ne_of_gt (booked.held second second'))
    · rcases (member second).mp inSecond with isSecond | second'
      · rw [isSecond, mine, theirs first first'] at same
        exact absurd same (Nat.ne_of_lt (booked.held first first'))
      · rw [theirs first first', theirs second second'] at same
        exact booked.apart first first' second second' same
  · intro other found
    dsimp only
    rcases (member other).mp found with same | inActive
    · rw [same, mine, empty]
      refine ⟨fun wrong => absurd wrong Bool.false_ne_true, fun known => ?_⟩
      exact absurd (booked.past _ known) (Nat.lt_irrefl _)
    · rw [theirs other inActive, mark other (apart other inActive)]
      exact booked.marks other inActive

theorem enqueue_sound (item : WorkItem) (sound : WorkerSound state active fresh used) :
    ∃ active' fresh' used', WorkerSound (enqueueStep state item) active' fresh' used' := by
  rcases enqueue_threaded state.worker active (fresh ++ used) item sound.threaded with
    ⟨entry, _, refused, same⟩ | ⟨entry, rest, left, right, taken, _, split, granted, threaded, ordered, here, others, _⟩
  · refine ⟨active, fresh, used, ?_⟩
    simp only [enqueueStep, refused, same]
    exact sound
  · obtain ⟨fresh', used', parts, fewer, old⟩ := free_split fresh used entry rest taken
    have free : entry ∉ active := by
      intro found
      have apart := apart_of_nodup active rest entry (taken ▸ sound.threaded.distinct)
      exact apart entry (List.mem_append_left _ found) rfl
    have member : ∀ other, other ∈ left ++ entry :: right ↔ other = entry ∨ other ∈ active := by
      intro other
      rw [split]
      simp only [List.mem_append, List.mem_cons]
      tauto
    have empty : ((enqueueItem state.worker item).workQueue entry).isCompleted = false := by
      rw [same_content_completed _ _ here]
      cases item <;> rfl
    have mark : ∀ other, other ≠ entry →
        ((enqueueItem state.worker item).workQueue other).isCompleted = (state.worker.workQueue other).isCompleted :=
      fun other apart => same_content_completed _ _ (others other apart)
    have apart : ∀ other ∈ active, other ≠ entry := fun other found same => free (same ▸ found)
    refine ⟨left ++ entry :: right, fresh', used', ?_⟩
    simp only [enqueueStep, granted]
    rw [parts] at threaded
    refine ⟨threaded, ?_, ordered sound.ordered, ?_, ?_, ?_⟩
    · have every := sound.every
      rw [taken, split] at every
      rw [← parts]
      refine List.Perm.trans ?_ every
      have front := (@List.perm_middle _ entry left right).append_right rest
      exact front.trans (@List.perm_middle _ entry (left ++ right) rest).symm
    · intro other found
      have distinct := threaded.distinct
      have other' : other ≠ entry := by
        intro same
        have inBoth := (List.nodup_append.mp distinct).2.2 entry (by simp) other (List.mem_append_right _ found)
        exact inBoth same.symm
      rw [mark other other']
      exact sound.done other (fewer other found)
    · refine pc_sound_mono active used state.worker _ _ _ _ sound.pc ?_ ?_
      · intro other found
        rcases List.mem_append.mp found with inActive | inUsed
        · exact List.mem_append_left _ ((member other).mpr (.inr inActive))
        · rcases old other inUsed with same | still
          · exact List.mem_append_left _ ((member other).mpr (.inl same))
          · exact List.mem_append_right _ still
      · intro other found uncompleted
        rw [mark other (apart other found)]
        exact ⟨(member other).mpr (.inr found), uncompleted⟩
    · exact enqueue_booked state active _ _ entry sound.booked member apart empty mark

theorem reclaim_sound (sound : WorkerSound state active fresh used) :
    ∃ active' used', WorkerSound (reclaimStep state) active' fresh used' := by
  obtain ⟨taken, rest, split, passed, threaded⟩ := reclaim_threaded state.worker active (fresh ++ used) sound.threaded
  have relinked := reclaim_relinked state.worker
  have mark : ∀ entry, ((reclaimCompletedReqs state.worker).workQueue entry).isCompleted = (state.worker.workQueue entry).isCompleted :=
    fun entry => same_content_completed _ _ (relinked_content _ _ relinked entry)
  have done : ∀ entry ∈ taken, (state.worker.workQueue entry).isCompleted = true := by
    intro entry found
    rw [passed] at found
    have all := List.mem_takeWhile_imp found
    simp only [isReclaimable, Bool.and_eq_true] at all
    exact all.1.1
  have listed : reclaimable state.worker nrMaxParallelIo state.worker.ioSeq = taken := by
    rw [passed]
    exact reclaimable_prefix state.worker active nrMaxParallelIo _ sound.threaded.forward
      (fun member found => sound.threaded.proper member (List.mem_append_left _ found)) (active_bound _ _ _ sound.threaded)
  have member : ∀ entry, entry ∈ active ↔ entry ∈ taken ∨ entry ∈ rest := by
    intro entry
    rw [split]
    exact List.mem_append
  refine ⟨rest, used ++ taken, ?_⟩
  rw [List.append_assoc] at threaded
  refine ⟨threaded, ?_, ?_, ?_, ?_, ?_⟩
  · refine List.Perm.trans ?_ sound.every
    rw [split, ← List.append_assoc fresh used taken, ← List.append_assoc rest]
    exact (@List.perm_append_comm _ (rest ++ (fresh ++ used)) _).trans (by rw [List.append_assoc taken])
  · have ordered := sound.ordered
    rw [split] at ordered
    have kept : TargetsOrdered state.worker rest := (List.pairwise_append.mp ordered).2.1
    exact ordered_congr state.worker _ rest (fun entry _ => relinked_targets _ _ relinked entry) relinked.latest kept
  · intro entry found
    dsimp only [reclaimStep]
    rw [mark]
    rcases List.mem_append.mp found with old | new
    · exact sound.done entry old
    · exact done entry new
  · refine pc_sound_mono active used state.worker _ _ _ _ sound.pc ?_ ?_
    · intro entry found
      rcases List.mem_append.mp found with inActive | inUsed
      · rcases (member entry).mp inActive with inTaken | inRest
        · simp [inTaken]
        · simp [inRest]
      · simp [inUsed]
    · intro entry found uncompleted
      dsimp only [reclaimStep]
      rw [mark]
      refine ⟨?_, uncompleted⟩
      rcases (member entry).mp found with inTaken | inRest
      · rw [done entry inTaken] at uncompleted
        cases uncompleted
      · exact inRest
  · have booked := sound.booked
    have part : ∀ entry ∈ rest, entry ∈ active := fun entry found => (member entry).mpr (.inr found)
    refine ⟨fun entry found => booked.held entry (part entry found),
      fun first inFirst second inSecond same => booked.apart first (part first inFirst) second (part second inSecond) same,
      ?_, booked.past, booked.once, ?_⟩
    · intro entry found
      dsimp only [reclaimStep]
      rw [mark]
      exact booked.marks entry (part entry found)
    · intro allocation found
      dsimp only [reclaimStep] at found
      rw [listed] at found
      rcases List.mem_append.mp found with old | new
      · exact booked.reclaimed allocation old
      · obtain ⟨entry, inTaken, same⟩ := List.mem_map.mp new
        rw [← same]
        exact (booked.marks entry ((member entry).mpr (.inl inTaken))).mp (done entry inTaken)

theorem worker_step_sound (after : NvmevIoWorker) (pc : WorkerPc) (completed : List Nat) (sound : WorkerSound state active fresh used)
    (links : ∀ entry, nexts after entry = nexts state.worker entry ∧ prevs after entry = prevs state.worker entry ∧
      targets after entry = targets state.worker entry)
    (ends : after.ioSeq = state.worker.ioSeq ∧ after.ioSeqEnd = state.worker.ioSeqEnd ∧ after.freeSeq = state.worker.freeSeq ∧
      after.freeSeqEnd = state.worker.freeSeqEnd)
    (later : state.worker.latestNsecs ≤ after.latestNsecs)
    (grows : ∀ entry, (state.worker.workQueue entry).isCompleted = true → (after.workQueue entry).isCompleted = true)
    (pcSound : PcSound after active used pc)
    (booked : Booked { state with worker := after, pc := pc, completed := completed } active) :
    WorkerSound { state with worker := after, pc := pc, completed := completed } active fresh used := by
  have nexts' : nexts after = nexts state.worker := funext fun entry => (links entry).1
  have prevs' : prevs after = prevs state.worker := funext fun entry => (links entry).2.1
  obtain ⟨first, last, freeFirst, freeLast⟩ := ends
  refine ⟨⟨?_, ?_, ?_, ?_, sound.threaded.distinct, sound.threaded.proper⟩, sound.every, ?_, ?_, pcSound, booked⟩
  · rw [nexts', first]
    exact sound.threaded.forward
  · rw [prevs', last]
    exact sound.threaded.backward
  · rw [nexts', freeFirst]
    exact sound.threaded.freeForward
  · rw [freeLast]
    exact sound.threaded.freeEnd
  · refine sound.ordered.imp ?_
    intro early late order waits
    dsimp only at waits ⊢
    rw [(links early).2.2] at waits ⊢
    rw [(links late).2.2]
    exact order (Nat.lt_of_le_of_lt later waits)
  · exact fun entry found => grows entry (sound.done entry found)

theorem same_links (curr : Nat) (work : NvmevIoWork) (next : work.next = nexts state.worker curr) (prev : work.prev = prevs state.worker curr)
    (target : work.nsecsTarget = targets state.worker curr) (entry : Nat) :
    nexts (putWork state.worker curr work) entry = nexts state.worker entry ∧
      prevs (putWork state.worker curr work) entry = prevs state.worker entry ∧
      targets (putWork state.worker curr work) entry = targets state.worker entry := by
  by_cases here : entry = curr
  · subst here
    simp [nexts, prevs, targets, putWork] at *
    exact ⟨next, prev, target⟩
  · simp [nexts, prevs, targets, putWork, Function.update_of_ne here]

theorem copy_work_links (work : NvmevIoWork) (performed : Bool) :
    (copyWork work performed).next = work.next ∧ (copyWork work performed).prev = work.prev ∧
      (copyWork work performed).nsecsTarget = work.nsecsTarget ∧ (copyWork work performed).isCompleted = work.isCompleted := by
  unfold copyWork
  split
  · exact ⟨rfl, rfl, rfl, rfl⟩
  · exact ⟨rfl, rfl, rfl, rfl⟩

theorem copy_sound (curr : Nat) (performed : Bool) (here : state.pc = .copy curr) (sound : WorkerSound state active fresh used) :
    WorkerSound (copyStep state curr performed) active fresh used := by
  obtain ⟨next, prev, target, mark⟩ := copy_work_links (state.worker.workQueue curr) performed
  have marks : ∀ entry, ((putWork state.worker curr (copyWork (state.worker.workQueue curr) performed)).workQueue entry).isCompleted =
      (state.worker.workQueue entry).isCompleted := by
    intro entry
    by_cases same : entry = curr
    · simp [putWork, same, mark]
    · simp [putWork, Function.update_of_ne same]
  have located := sound.pc
  rw [here] at located
  refine worker_step_sound state active fresh used _ (.due curr) state.completed sound (same_links state curr _ next prev target)
    ⟨rfl, rfl, rfl, rfl⟩ (Nat.le_refl _) ?_ ?_ ?_
  · intro entry done
    rw [marks]
    exact done
  · refine ⟨located.1, ?_⟩
    rw [marks]
    exact located.2
  · have booked := sound.booked
    refine ⟨booked.held, booked.apart, ?_, booked.past, booked.once, booked.reclaimed⟩
    intro entry found
    dsimp only
    rw [marks]
    exact booked.marks entry found

theorem complete_sound (curr : Nat) (here : state.pc = .due curr) (sound : WorkerSound state active fresh used) :
    WorkerSound (completeStep state curr) active fresh used := by
  have located := sound.pc
  rw [here] at located
  obtain ⟨inActive, uncompleted⟩ := located
  have booked := sound.booked
  unfold completeStep
  split
  · have mine : ((putWork state.worker curr { state.worker.workQueue curr with isCompleted := true }).workQueue curr).isCompleted = true := by
      simp [putWork]
    have theirs : ∀ entry, entry ≠ curr →
        ((putWork state.worker curr { state.worker.workQueue curr with isCompleted := true }).workQueue entry).isCompleted =
          (state.worker.workQueue entry).isCompleted := by
      intro entry apart
      simp [putWork, Function.update_of_ne apart]
    have unseen : state.allocation curr ∉ state.completed := by
      intro known
      rw [(booked.marks curr inActive).mpr known] at uncompleted
      cases uncompleted
    refine worker_step_sound state active fresh used _ (.next curr) _ sound (same_links state curr _ rfl rfl rfl) ⟨rfl, rfl, rfl, rfl⟩
      (Nat.le_refl _) ?_ (List.mem_append_left _ inActive) ?_
    · intro entry done
      by_cases same : entry = curr
      · rw [same]
        exact mine
      · rw [theirs entry same]
        exact done
    · refine ⟨booked.held, booked.apart, ?_, ?_, ?_, ?_⟩
      · intro entry found
        dsimp only
        by_cases same : entry = curr
        · rw [same, mine]
          simp
        · rw [theirs entry same, booked.marks entry found, List.mem_append, List.mem_singleton]
          have apart : state.allocation entry ≠ state.allocation curr :=
            fun equal => same (booked.apart entry found curr inActive equal)
          exact ⟨.inl, fun either => either.resolve_right apart⟩
      · intro allocation found
        rcases List.mem_append.mp found with old | new
        · exact booked.past allocation old
        · rw [List.mem_singleton.mp new]
          exact booked.held curr inActive
      · refine List.nodup_append.mpr ⟨booked.once, List.nodup_singleton _, ?_⟩
        intro old inOld new inNew same
        rw [List.mem_singleton.mp inNew] at same
        exact unseen (same ▸ inOld)
      · exact fun allocation found => List.mem_append_left _ (booked.reclaimed allocation found)
  · exact ⟨sound.threaded, sound.every, sound.ordered, sound.done, List.mem_append_left _ inActive,
      booked.held, booked.apart, booked.marks, booked.past, booked.once, booked.reclaimed⟩

theorem pc_step_sound (pc : WorkerPc) (sound : WorkerSound state active fresh used) (pcSound : PcSound state.worker active used pc) :
    WorkerSound { state with pc := pc } active fresh used :=
  ⟨sound.threaded, sound.every, sound.ordered, sound.done, pcSound, sound.booked.held, sound.booked.apart, sound.booked.marks,
    sound.booked.past, sound.booked.once, sound.booked.reclaimed⟩

theorem move_goes (curr : Nat) (sound : WorkerSound state active fresh used) (known : curr ∈ active ++ used) :
    nexts state.worker curr = noEntry ∨ nexts state.worker curr ∈ active ++ used := by
  rcases List.mem_append.mp known with inActive | inUsed
  · rcases next_in_list _ _ curr active sound.threaded.forward inActive with ended | further
    · exact .inl ended
    · exact .inr (List.mem_append_left _ further)
  · obtain ⟨middle, _, tail⟩ := (Segment.path_append _ _ _ fresh used).mp sound.threaded.freeForward
    rcases next_in_list _ _ curr used tail inUsed with ended | further
    · exact .inl ended
    · exact .inr (List.mem_append_right _ further)

theorem worker_step_keeps (next : WorkerState) (event : WorkerEvent) (sound : WorkerSound state active fresh used)
    (taken : WorkerStep state event next) : ∃ active' fresh' used', WorkerSound next active' fresh' used' := by
  have booked := sound.booked
  cases taken with
  | enqueue item => exact enqueue_sound state active fresh used item sound
  | reclaim =>
      obtain ⟨active', used', kept⟩ := reclaim_sound state active fresh used sound
      exact ⟨active', fresh, used', kept⟩
  | start idle =>
      refine ⟨active, fresh, used, pc_step_sound state active fresh used _ sound (enter_sound active used _ _ ?_)⟩
      have first := Segment.path_head _ _ _ _ sound.threaded.forward
      rw [first]
      cases active with
      | nil => exact .inl rfl
      | cons entry rest => exact .inr (by simp)
  | advance curr now here later =>
      have located := sound.pc
      rw [here] at located
      exact ⟨active, fresh, used, worker_step_sound state active fresh used { state.worker with latestNsecs := now } (.check curr)
        state.completed sound (fun _ => ⟨rfl, rfl, rfl⟩) ⟨rfl, rfl, rfl, rfl⟩ later (fun _ done => done) located
        ⟨booked.held, booked.apart, booked.marks, booked.past, booked.once, booked.reclaimed⟩⟩
  | check curr here =>
      have located := sound.pc
      rw [here] at located
      refine ⟨active, fresh, used, pc_step_sound state active fresh used _ sound ?_⟩
      split
      · exact located
      · rename_i uncompleted
        have opened : (state.worker.workQueue curr).isCompleted = false := by simpa using uncompleted
        refine ⟨?_, opened⟩
        rcases List.mem_append.mp located with inActive | inUsed
        · exact inActive
        · rw [sound.done curr inUsed] at opened
          cases opened
  | copy curr performed here => exact ⟨active, fresh, used, copy_sound state active fresh used curr performed here sound⟩
  | complete curr here => exact ⟨active, fresh, used, complete_sound state active fresh used curr here sound⟩
  | move curr here =>
      have located := sound.pc
      rw [here] at located
      exact ⟨active, fresh, used, pc_step_sound state active fresh used _ sound
        (enter_sound active used _ _ (move_goes state active fresh used curr sound located))⟩

end Steps

section Runs

theorem init_path (length first : Nat) (reaches : first + (length + 1) = nrMaxParallelIo) :
    Segment.Path (nexts nvmevIoWorkerInit) noEntry first (List.range' first (length + 1)) := by
  induction length generalizing first with
  | zero =>
      refine ⟨rfl, ?_⟩
      show (if first + 1 = nrMaxParallelIo then noEntry else first + 1) = noEntry
      rw [if_pos reaches]
  | succ length ih =>
      refine ⟨rfl, ?_⟩
      have next : nexts nvmevIoWorkerInit first = first + 1 := by
        show (if first + 1 = nrMaxParallelIo then noEntry else first + 1) = first + 1
        rw [if_neg (by omega)]
      rw [next]
      exact ih (first + 1) (by omega)

theorem init_threaded (entries : List Nat) (all : entries = List.range nrMaxParallelIo) : Threaded nvmevIoWorkerInit [] entries := by
  have whole : List.range nrMaxParallelIo = List.range' 0 (nrMaxParallelIo - 1 + 1) := List.range_eq_range'
  refine ⟨rfl, fun some => absurd rfl some, ?_, ?_, ?_, ?_⟩
  · rw [all, whole]
    exact init_path (nrMaxParallelIo - 1) 0 (by decide)
  · rw [all, List.getLast?_range, if_neg (by decide)]
    rfl
  · rw [List.nil_append, all]
    exact List.nodup_range
  · intro entry found
    rw [List.nil_append, all] at found
    exact List.mem_range.mp found

theorem init_sound (entries : List Nat) (all : entries = List.range nrMaxParallelIo) : WorkerSound workerInit [] entries [] := by
  have none : ∀ {property : Nat → Prop}, ∀ entry ∈ ([] : List Nat), property entry := fun _ found => absurd found List.not_mem_nil
  refine ⟨?_, ?_, .nil, none, trivial, none, none, none, none, List.nodup_nil, none⟩
  · rw [List.append_nil]
    exact init_threaded entries all
  · rw [List.append_nil, List.nil_append, all]

theorem worker_sound_invariant (allowed : WorkerState → WorkerEvent → Prop) :
    TransitionSystem.Invariant workerSystem allowed fun state => ∃ active fresh used, WorkerSound state active fresh used := by
  refine ⟨?_, ?_⟩
  · intro state init
    have same : state = workerInit := init
    rw [same]
    exact ⟨_, _, _, init_sound _ rfl⟩
  · intro state next event sound _ taken
    obtain ⟨active, fresh, used, sound⟩ := sound
    exact worker_step_keeps state active fresh used next event sound taken

theorem ordered_split (worker : NvmevIoWorker) (active : List Nat) (ordered : TargetsOrdered worker active) :
    ∃ due later, active = due ++ later ∧ (∀ entry ∈ due, targets worker entry ≤ worker.latestNsecs) ∧
      (∀ entry ∈ later, worker.latestNsecs < targets worker entry) ∧
        later.Pairwise fun first second => targets worker first ≤ targets worker second := by
  induction active with
  | nil =>
      exact ⟨[], [], rfl, fun _ found => absurd found List.not_mem_nil, fun _ found => absurd found List.not_mem_nil, .nil⟩
  | cons first rest ih =>
      obtain ⟨before, behind⟩ := List.pairwise_cons.mp ordered
      by_cases due : targets worker first ≤ worker.latestNsecs
      · obtain ⟨early, later, split, dueEarly, waits, sorted⟩ := ih behind
        refine ⟨first :: early, later, by rw [split]; rfl, ?_, waits, sorted⟩
        intro entry found
        rcases List.mem_cons.mp found with same | inEarly
        · rw [same]
          exact due
        · exact dueEarly entry inEarly
      · have waits := Nat.lt_of_not_le due
        refine ⟨[], first :: rest, rfl, fun _ found => absurd found List.not_mem_nil, ?_, ?_⟩
        · intro entry found
          rcases List.mem_cons.mp found with same | inRest
          · rw [same]
            exact waits
          · exact Nat.lt_of_lt_of_le waits (before entry inRest waits)
        · apply List.pairwise_cons.mpr
          refine ⟨fun entry found => before entry found waits, ?_⟩
          refine List.Pairwise.imp_of_mem ?_ behind
          intro early late inRest _ order
          exact order (Nat.lt_of_lt_of_le waits (before early inRest waits))

end Runs

-- The active list from io_seq and the free list from free_seq hold each entry
-- once between them, prev inverts next along the active one, and what is not
-- due yet is its end and sorted.
structure WorkQueueIntact (worker : NvmevIoWorker) (active free : List Nat) : Prop where
  fromIoSeq : Segment.Path (nexts worker) noEntry worker.ioSeq active
  fromFreeSeq : Segment.Path (nexts worker) noEntry worker.freeSeq free
  every : (active ++ free).Perm (List.range nrMaxParallelIo)
  inverse : ∀ left first second right, active = left ++ first :: second :: right →
    nexts worker first = second ∧ prevs worker second = first
  sorted : ∃ due later, active = due ++ later ∧ (∀ entry ∈ due, targets worker entry ≤ worker.latestNsecs) ∧
    (∀ entry ∈ later, worker.latestNsecs < targets worker entry) ∧
      later.Pairwise fun first second => targets worker first ≤ targets worker second

theorem worker_sound_intact (state : WorkerState) (active fresh used : List Nat) (sound : WorkerSound state active fresh used) :
    WorkQueueIntact state.worker active (fresh ++ used) := by
  refine ⟨sound.threaded.forward, sound.threaded.freeForward, sound.every, ?_, ordered_split _ _ sound.ordered⟩
  intro left first second right split
  have forward := sound.threaded.forward
  have backward := sound.threaded.backward (by rw [split]; simp)
  rw [split] at forward backward
  have reversed : (left ++ first :: second :: right).reverse = right.reverse ++ second :: (first :: left.reverse) := by simp
  rw [reversed] at backward
  exact ⟨Segment.path_next _ _ _ first left (second :: right) forward, Segment.path_next _ _ _ second right.reverse _ backward⟩

-- The lists stay intact, no entry is reclaimed before its completion and no
-- allocation is completed twice.
theorem work_queue_integrity (state : WorkerState) (reached : TransitionSystem.Reach workerSystem (fun _ _ => True) state) :
    (∃ active free, WorkQueueIntact state.worker active free) ∧
      (∀ allocation ∈ state.reclaimed, allocation ∈ state.completed) ∧ state.completed.Nodup := by
  obtain ⟨active, fresh, used, sound⟩ := TransitionSystem.reach_invariant _ _ _ (worker_sound_invariant _) state reached
  exact ⟨⟨active, fresh ++ used, worker_sound_intact state active fresh used sound⟩, sound.booked.reclaimed, sound.booked.once⟩

def releaseItem (target : Nat) : WorkItem := .internal 1 0 target (.pslc, 0) 4096

-- The second release is due before the first and goes in front of it.
theorem two_releases_queued :
    ∃ state : WorkerState, (∃ active free, WorkQueueIntact state.worker active free) ∧ state.worker.ioSeq = 1 ∧ nexts state.worker 1 = 0 ∧
      state.allocations = 2 := by
  have start : TransitionSystem.Reach workerSystem (fun _ _ => True) workerInit := .start _ rfl
  have first := TransitionSystem.Reach.next _ _ (WorkerEvent.enqueue (releaseItem 20)) start trivial
    (WorkerStep.enqueue workerInit (releaseItem 20))
  have second := TransitionSystem.Reach.next _ _ (WorkerEvent.enqueue (releaseItem 10)) first trivial (WorkerStep.enqueue _ (releaseItem 10))
  exact ⟨_, (work_queue_integrity _ second).1, by decide, by decide, by decide⟩

end ConZone
