import ConZone.WorkerRuns
import Mathlib.Data.Finset.Order

set_option autoImplicit false

namespace ConZone

-- What a work entry is for: the completion of a command or the release of a
-- write buffer.
inductive Duty where
  | command (sqid cqid commandId : Nat)
  | release (writeBuffer : Option BufferRef)
  deriving DecidableEq

def dutyOf (work : NvmevIoWork) : Duty :=
  if work.isInternal then .release work.writeBuffer else .command work.sqid work.cqid work.commandId

def itemDuty : WorkItem → Duty
  | .ioReq sqid cqid _ commandId _ _ _ _ => .command sqid cqid commandId
  | .internal _ _ _ writeBuffer _ => .release (some writeBuffer)

def entriesFrom (worker : NvmevIoWorker) : Nat → Nat → List Nat
  | 0, _ => []
  | fuel + 1, curr => if curr = noEntry then [] else curr :: entriesFrom worker fuel (worker.workQueue curr).next

def activeEntries (worker : NvmevIoWorker) : List Nat := entriesFrom worker nrMaxParallelIo worker.ioSeq
def freeEntries (worker : NvmevIoWorker) : List Nat := entriesFrom worker nrMaxParallelIo worker.freeSeq

def isPending (worker : NvmevIoWorker) (entry : Nat) : Bool := !(worker.workQueue entry).isCompleted

def duties (worker : NvmevIoWorker) : List Duty :=
  ((activeEntries worker).filter (isPending worker)).map fun entry => dutyOf (worker.workQueue entry)

section Lists

variable (worker : NvmevIoWorker) (active free : List Nat)

theorem entries_from_path (members : List Nat) (fuel curr : Nat) (path : Segment.Path (nexts worker) noEntry curr members)
    (proper : ∀ member ∈ members, member < nrMaxParallelIo) (enough : members.length ≤ fuel) :
    entriesFrom worker fuel curr = members := by
  induction members generalizing fuel curr with
  | nil =>
      have ended : curr = noEntry := path
      cases fuel with
      | zero => rfl
      | succ fuel => simp [entriesFrom, ended]
  | cons node rest ih =>
      obtain ⟨here, further⟩ := path
      subst here
      have inside := no_entry_outside curr (proper curr List.mem_cons_self)
      cases fuel with
      | zero => simp at enough
      | succ fuel =>
          have later := ih fuel (nexts worker curr) further (fun member found => proper member (List.mem_cons_of_mem _ found))
            (by simpa using enough)
          simp only [entriesFrom, if_neg inside]
          exact congrArg (curr :: ·) later

theorem active_entries_are (threaded : Threaded worker active free) : activeEntries worker = active :=
  entries_from_path worker active nrMaxParallelIo worker.ioSeq threaded.forward
    (fun member found => threaded.proper member (List.mem_append_left _ found)) (active_bound worker active free threaded)

theorem free_entries_are (threaded : Threaded worker active free) : freeEntries worker = free := by
  have distinct := (List.nodup_append.mp threaded.distinct).2.1
  have inside : free ⊆ List.range nrMaxParallelIo := fun member found =>
    List.mem_range.mpr (threaded.proper member (List.mem_append_right _ found))
  have bound : free.length ≤ nrMaxParallelIo := by simpa using (distinct.subperm inside).length_le
  exact entries_from_path worker free nrMaxParallelIo worker.freeSeq threaded.freeForward
    (fun member found => threaded.proper member (List.mem_append_right _ found)) bound

theorem same_content_duty (first second : NvmevIoWork) (same : contentOf first = contentOf second) : dutyOf first = dutyOf second := by
  have duty : dutyOf (contentOf first) = dutyOf (contentOf second) := congrArg dutyOf same
  exact duty

theorem duties_are (threaded : Threaded worker active free) :
    duties worker = (active.filter (isPending worker)).map fun entry => dutyOf (worker.workQueue entry) := by
  rw [duties, active_entries_are worker active free threaded]

theorem duties_kept (after : NvmevIoWorker) (members : List Nat)
    (pending : ∀ entry ∈ members, isPending after entry = isPending worker entry)
    (kept : ∀ entry ∈ members, dutyOf (after.workQueue entry) = dutyOf (worker.workQueue entry)) :
    (members.filter (isPending after)).map (fun entry => dutyOf (after.workQueue entry)) =
      (members.filter (isPending worker)).map fun entry => dutyOf (worker.workQueue entry) := by
  rw [List.filter_congr pending]
  apply List.map_congr_left
  intro entry found
  exact kept entry (List.mem_of_mem_filter found)

end Lists

section Bag

variable (worker : NvmevIoWorker) (active free : List Nat)

-- What a run of items leaves of the free list: each takes the first entry until
-- one is left.
structure Handed (items : List WorkItem) (after : NvmevIoWorker) (taken active' rest : List Nat) : Prop where
  split : free = taken ++ rest
  count : taken.length = min items.length (free.length - 1)
  threaded : Threaded after active' rest
  joined : active'.Perm (taken ++ active)
  pending : ∀ entry ∈ taken, isPending after entry = true
  filled : taken.map (fun entry => dutyOf (after.workQueue entry)) = (items.take taken.length).map itemDuty
  others : ∀ entry, entry ∉ taken → contentOf (after.workQueue entry) = contentOf (worker.workQueue entry)

theorem fill_work_pending (work : NvmevIoWork) (item : WorkItem) : (fillWork work item).isCompleted = false := by
  cases item <;> rfl

theorem fill_work_duty (work : NvmevIoWork) (item : WorkItem) : dutyOf (fillWork work item) = itemDuty item := by
  cases item <;> rfl

theorem items_handed (items : List WorkItem) (threaded : Threaded worker active free) :
    ∃ taken active' rest, Handed worker active free items (items.foldl enqueueItem worker) taken active' rest := by
  induction items generalizing worker active free with
  | nil =>
      refine ⟨[], active, free, rfl, ?_, threaded, List.Perm.refl _, ?_, rfl, fun _ _ => rfl⟩
      · simp
      · exact fun entry found => absurd found List.not_mem_nil
  | cons item items ih =>
      rw [List.foldl_cons]
      rcases enqueue_threaded worker active free item threaded with
        ⟨entry, last, _, same⟩ | ⟨entry, rest, left, right, start, more, split, _, linked, _, here, others, _⟩
      · obtain ⟨taken, active', rest, handed⟩ := ih worker active free threaded
        have none : taken = [] := by
          have count := handed.count
          rw [last] at count
          exact List.length_eq_zero_iff.mp (by simpa using count)
        subst none
        rw [same]
        refine ⟨[], active', rest, handed.split, ?_, handed.threaded, handed.joined, handed.pending, rfl, handed.others⟩
        rw [last]
        simp
      · obtain ⟨taken, active', rest', handed⟩ := ih _ _ _ linked
        have fresh : entry ∉ taken := by
          intro found
          have distinct := threaded.distinct
          rw [start, handed.split] at distinct
          have apart := apart_of_nodup active (taken ++ rest') entry distinct
          exact apart entry (by simp [found]) rfl
        have kept := handed.others entry fresh
        refine ⟨entry :: taken, active', rest', ?_, ?_, handed.threaded, ?_, ?_, ?_, ?_⟩
        · rw [start, handed.split]
          rfl
        · have count := handed.count
          have positive : 0 < rest.length := List.length_pos_iff.mpr more
          rw [start]
          simp only [List.length_cons]
          omega
        · have front : (left ++ entry :: right).Perm (entry :: active) := by
            rw [split]
            exact List.perm_middle
          exact handed.joined.trans ((front.append_left taken).trans List.perm_middle)
        · intro other found
          rcases List.mem_cons.mp found with same | inTaken
          · rw [same, isPending, same_content_completed _ _ (kept.trans here), fill_work_pending]
            rfl
          · exact handed.pending other inTaken
        · rw [List.map_cons, handed.filled, same_content_duty _ _ (kept.trans here), fill_work_duty]
          rfl
        · intro other outside
          have apart : other ≠ entry := fun same => outside (by simp [same])
          have later : other ∉ taken := fun found => outside (List.mem_cons_of_mem entry found)
          exact (handed.others other later).trans (others other apart)

theorem handed_apart (items : List WorkItem) (after : NvmevIoWorker) (taken active' rest : List Nat)
    (threaded : Threaded worker active free) (handed : Handed worker active free items after taken active' rest) :
    ∀ entry ∈ active, entry ∉ taken := by
  intro entry found inTaken
  have distinct := threaded.distinct
  rw [handed.split] at distinct
  exact (List.nodup_append.mp distinct).2.2 entry found entry (List.mem_append_left rest inTaken) rfl

theorem handed_duties (items : List WorkItem) (after : NvmevIoWorker) (taken active' rest : List Nat)
    (threaded : Threaded worker active free) (handed : Handed worker active free items after taken active' rest) :
    (duties after).Perm ((items.take taken.length).map itemDuty ++ duties worker) := by
  have apart := handed_apart worker active free items after taken active' rest threaded handed
  have old := duties_kept worker after active
    (fun entry found => congrArg (!·) (same_content_completed _ _ (handed.others entry (apart entry found))))
    (fun entry found => same_content_duty _ _ (handed.others entry (apart entry found)))
  have new : taken.filter (isPending after) = taken := List.filter_eq_self.mpr handed.pending
  rw [duties_are after active' rest handed.threaded, duties_are worker active free threaded, ← old, ← handed.filled]
  have joined := (handed.joined.filter (isPending after)).map fun entry => dutyOf (after.workQueue entry)
  rwa [List.filter_append, new, List.map_append] at joined

theorem reclaim_duties (threaded : Threaded worker active free) : duties (reclaimCompletedReqs worker) = duties worker := by
  obtain ⟨taken, rest, split, passed, linked⟩ := reclaim_threaded worker active free threaded
  have same := fun entry => relinked_content _ _ (reclaim_relinked worker) entry
  have done : taken.filter (isPending worker) = [] := by
    apply List.filter_eq_nil_iff.mpr
    intro entry found
    rw [passed] at found
    have all := List.mem_takeWhile_imp found
    simp only [isReclaimable, Bool.and_eq_true] at all
    simp [isPending, all.1.1]
  have kept := duties_kept worker (reclaimCompletedReqs worker) rest
    (fun entry _ => congrArg (!·) (same_content_completed _ _ (same entry))) (fun entry _ => same_content_duty _ _ (same entry))
  rw [duties_are _ rest _ linked, duties_are worker active free threaded, kept, split, List.filter_append, done]
  rfl

end Bag

section Entries

variable (worker : NvmevIoWorker) (active free : List Nat)

theorem enqueue_keeps (item : WorkItem) (threaded : Threaded worker active free) (entry : Nat) (member : entry ∈ activeEntries worker) :
    entry ∈ activeEntries (enqueueItem worker item) ∧
      contentOf ((enqueueItem worker item).workQueue entry) = contentOf (worker.workQueue entry) ∧
        (allocateWorkQueueEntry worker).map Prod.fst ≠ some entry := by
  have before := active_entries_are worker active free threaded
  rcases enqueue_threaded worker active free item threaded with
    ⟨_, _, refused, same⟩ | ⟨given, rest, left, right, start, _, split, granted, linked, _, here, others, _⟩
  · rw [same, refused]
    exact ⟨member, rfl, fun wrong => nomatch wrong⟩
  · rw [before] at member
    have apart : entry ≠ given := by
      intro same
      have distinct := threaded.distinct
      rw [start] at distinct
      exact apart_of_nodup active rest given distinct entry (List.mem_append_left _ member) same
    rw [active_entries_are _ _ _ linked, granted]
    refine ⟨?_, others entry apart, fun wrong => apart (Option.some.inj wrong).symm⟩
    rw [split] at member
    simp only [List.mem_append, List.mem_cons] at member ⊢
    tauto

theorem enqueue_entries (item : WorkItem) (threaded : Threaded worker active free) (entry : Nat)
    (member : entry ∈ activeEntries (enqueueItem worker item)) :
    (entry ∈ activeEntries worker ∧ contentOf ((enqueueItem worker item).workQueue entry) = contentOf (worker.workQueue entry)) ∨
      (allocateWorkQueueEntry worker).map Prod.fst = some entry ∧
        contentOf ((enqueueItem worker item).workQueue entry) = contentOf (fillWork (worker.workQueue entry) item) := by
  by_cases old : entry ∈ activeEntries worker
  · exact .inl ⟨old, (enqueue_keeps worker active free item threaded entry old).2.1⟩
  · right
    rcases enqueue_threaded worker active free item threaded with
      ⟨_, _, refused, same⟩ | ⟨given, rest, left, right, start, _, split, granted, linked, _, here, others, _⟩
    · rw [same] at member
      exact absurd member old
    · rw [active_entries_are worker active free threaded, split] at old
      rw [active_entries_are _ _ _ linked] at member
      simp only [List.mem_append, List.mem_cons] at member old
      have same : entry = given := by tauto
      rw [granted, same]
      exact ⟨rfl, here⟩

theorem reclaim_entries (threaded : Threaded worker active free) (entry : Nat) (member : entry ∈ activeEntries (reclaimCompletedReqs worker)) :
    entry ∈ activeEntries worker ∧
      contentOf ((reclaimCompletedReqs worker).workQueue entry) = contentOf (worker.workQueue entry) := by
  obtain ⟨taken, rest, split, _, linked⟩ := reclaim_threaded worker active free threaded
  rw [active_entries_are _ rest _ linked] at member
  rw [active_entries_are worker active free threaded, split]
  exact ⟨List.mem_append_right taken member, relinked_content _ _ (reclaim_relinked worker) entry⟩

end Entries

def ownStep : WorkerEvent → Bool
  | .enqueue _ | .reclaim => false
  | .start | .advance _ | .check | .copy _ | .complete | .move => true

def WorkerRuns (state : WorkerState) : WorkerState → Prop :=
  TransitionSystem.Reach ⟨fun first => first = state, WorkerStep⟩ fun _ event => ownStep event = true

structure Passed (before after : NvmevIoWorker) : Prop where
  first : after.ioSeq = before.ioSeq
  links : ∀ entry, nexts after entry = nexts before entry
  targets : ∀ entry, targets after entry = targets before entry
  marks : ∀ entry, isPending before entry = false → isPending after entry = false

section Passes

variable (state : WorkerState) (now : Nat)

theorem passed_refl (worker : NvmevIoWorker) : Passed worker worker := ⟨rfl, fun _ => rfl, fun _ => rfl, fun _ done => done⟩

theorem passed_trans (first second third : NvmevIoWorker) (left : Passed first second) (right : Passed second third) : Passed first third :=
  ⟨right.first.trans left.first, fun entry => (right.links entry).trans (left.links entry),
    fun entry => (right.targets entry).trans (left.targets entry), fun entry done => right.marks entry (left.marks entry done)⟩

theorem put_work_passed (worker : NvmevIoWorker) (curr : Nat) (work : NvmevIoWork) (link : work.next = nexts worker curr)
    (target : work.nsecsTarget = targets worker curr) (mark : (worker.workQueue curr).isCompleted = true → work.isCompleted = true) :
    Passed worker (putWork worker curr work) := by
  refine ⟨rfl, ?_, ?_, ?_⟩
  · intro entry
    by_cases same : entry = curr
    · simpa [nexts, putWork, same] using link
    · simp [nexts, putWork, same]
  · intro entry
    by_cases same : entry = curr
    · simpa [targets, putWork, same] using target
    · simp [targets, putWork, same]
  · intro entry done
    by_cases same : entry = curr
    · rw [same] at done ⊢
      simpa [isPending, putWork] using mark (by simpa [isPending] using done)
    · simpa [isPending, putWork, same] using done

theorem worker_runs_refl : WorkerRuns state state := .start state rfl

theorem worker_runs_trans (middle last : WorkerState) (left : WorkerRuns state middle) (right : WorkerRuns middle last) :
    WorkerRuns state last :=
  TransitionSystem.reach_onward ⟨fun first => first = state, WorkerStep⟩ _ middle last left right

theorem worker_runs_step (next : WorkerState) (event : WorkerEvent) (own : ownStep event = true) (taken : WorkerStep state event next) :
    WorkerRuns state next := .next state next event (worker_runs_refl state) own taken

theorem copy_work_completed (work : NvmevIoWork) (performed : Bool) : (copyWork work performed).isCompleted = work.isCompleted := by
  simp only [copyWork]
  split
  · rfl
  · rfl

theorem copy_work_duty (work : NvmevIoWork) (performed : Bool) : dutyOf (copyWork work performed) = dutyOf work := by
  simp only [copyWork]
  split
  · rfl
  · rfl

theorem copy_passed (curr : Nat) (performed : Bool) : Passed state.worker (copyStep state curr performed).worker := by
  apply put_work_passed
  · unfold copyWork
    split
    · rfl
    · rfl
  · unfold copyWork
    split
    · rfl
    · rfl
  · intro done
    rw [copy_work_completed]
    exact done

theorem due_to_link (curr : Nat) (here : state.pc = .due curr) :
    ∃ after, WorkerRuns state after ∧ after.pc = .next curr ∧ Passed state.worker after.worker ∧
      after.worker.latestNsecs = state.worker.latestNsecs ∧
      (targets state.worker curr ≤ state.worker.latestNsecs → isPending after.worker curr = false) := by
  refine ⟨completeStep state curr, worker_runs_step state _ .complete rfl (.complete state curr here), ?_⟩
  unfold completeStep
  split
  · have passed := put_work_passed state.worker curr { state.worker.workQueue curr with isCompleted := true } rfl rfl fun _ => rfl
    exact ⟨rfl, passed, rfl, fun _ => by simp [isPending, putWork]⟩
  · rename_i later
    exact ⟨rfl, passed_refl state.worker, rfl, fun due => absurd due later⟩

theorem copy_to_link (curr : Nat) (here : state.pc = .copy curr) :
    ∃ after, WorkerRuns state after ∧ after.pc = .next curr ∧ Passed state.worker after.worker ∧
      after.worker.latestNsecs = state.worker.latestNsecs ∧
      (targets state.worker curr ≤ state.worker.latestNsecs → isPending after.worker curr = false) := by
  have copied := copy_passed state curr true
  obtain ⟨after, runs, ends, passed, latest, marked⟩ := due_to_link (copyStep state curr true) curr rfl
  have copies := worker_runs_step state _ (.copy true) rfl (.copy state curr true here)
  refine ⟨after, worker_runs_trans state _ after copies runs, ends, passed_trans _ _ _ copied passed, latest, fun due => marked ?_⟩
  rw [copied.targets curr]
  exact due

theorem check_to_link (curr : Nat) (here : state.pc = .check curr) :
    ∃ after, WorkerRuns state after ∧ after.pc = .next curr ∧ Passed state.worker after.worker ∧
      after.worker.latestNsecs = state.worker.latestNsecs ∧
      (targets state.worker curr ≤ state.worker.latestNsecs → isPending after.worker curr = false) := by
  have checks := worker_runs_step state _ .check rfl (.check state curr here)
  cases done : (state.worker.workQueue curr).isCompleted with
  | true =>
      refine ⟨_, checks, ?_, passed_refl state.worker, rfl, fun _ => ?_⟩
      · simp [done]
      · simp [isPending, done]
  | false =>
      have copies : (WorkerState.mk state.worker (if (state.worker.workQueue curr).isCompleted then .next curr else .copy curr)
          state.allocations state.allocation state.completed state.reclaimed).pc = .copy curr := by simp [done]
      obtain ⟨after, runs, ends, passed, latest, marked⟩ := copy_to_link _ curr copies
      exact ⟨after, worker_runs_trans state _ after checks runs, ends, passed, latest, marked⟩

theorem fetch_to_link (curr : Nat) (here : state.pc = .fetch curr) (later : state.worker.latestNsecs ≤ now)
    (due : targets state.worker curr ≤ now) :
    ∃ after, WorkerRuns state after ∧ after.pc = .next curr ∧ Passed state.worker after.worker ∧
      after.worker.latestNsecs ≤ now ∧ isPending after.worker curr = false := by
  have advances := worker_runs_step state _ (.advance now) rfl (.advance state curr now here later)
  obtain ⟨after, runs, ends, passed, latest, marked⟩ :=
    check_to_link { state with worker := { state.worker with latestNsecs := now }, pc := .check curr } curr rfl
  refine ⟨after, worker_runs_trans state _ after advances runs, ends, ?_, Nat.le_of_eq latest, marked due⟩
  exact ⟨passed.first, passed.links, passed.targets, passed.marks⟩

theorem rest_of_pass (ahead : List Nat) (curr : Nat) (here : state.pc = enterPc curr)
    (path : Segment.Path (nexts state.worker) noEntry curr ahead) (proper : ∀ entry ∈ ahead, entry < nrMaxParallelIo)
    (due : ∀ entry ∈ ahead, targets state.worker entry ≤ now) (later : state.worker.latestNsecs ≤ now) :
    ∃ after, WorkerRuns state after ∧ after.pc = .idle ∧ Passed state.worker after.worker ∧ after.worker.latestNsecs ≤ now ∧
      ∀ entry ∈ ahead, isPending after.worker entry = false := by
  induction ahead generalizing state curr with
  | nil =>
      have ended : curr = noEntry := path
      refine ⟨state, worker_runs_refl state, ?_, passed_refl state.worker, later, fun _ found => absurd found List.not_mem_nil⟩
      rw [here, ended]
      rfl
  | cons node rest ih =>
      obtain ⟨same, further⟩ := path
      subst same
      have inside := no_entry_outside curr (proper curr List.mem_cons_self)
      have fetches : state.pc = .fetch curr := by
        rw [here, enterPc, if_neg inside]
      obtain ⟨visited, visits, ends, passed, latest, marked⟩ :=
        fetch_to_link state now curr fetches later (due curr List.mem_cons_self)
      have moves := worker_runs_step visited _ .move rfl (.move visited curr ends)
      have links : nexts visited.worker = nexts state.worker := funext passed.links
      obtain ⟨after, runs, idle, onward, bound, done⟩ :=
        ih { visited with pc := enterPc (nexts visited.worker curr) } (nexts visited.worker curr) rfl (by rw [links]; exact further)
          (fun entry found => proper entry (List.mem_cons_of_mem _ found))
          (fun entry found => (Nat.le_of_eq (passed.targets entry)).trans (due entry (List.mem_cons_of_mem _ found))) latest
      have before := worker_runs_trans state visited _ visits moves
      refine ⟨after, worker_runs_trans state _ after before runs, idle, passed_trans _ _ _ passed onward, bound, ?_⟩
      intro entry found
      rcases List.mem_cons.mp found with same | inRest
      · rw [same]
        exact onward.marks curr marked
      · exact done entry inRest

theorem link_to_idle (active fresh used : List Nat) (sound : WorkerSound state active fresh used) (curr : Nat) (member : curr ∈ active ++ used)
    (due : ∀ entry ∈ active ++ (fresh ++ used), targets state.worker entry ≤ now) (middle : WorkerState) (runs : WorkerRuns state middle)
    (ends : middle.pc = .next curr) (passed : Passed state.worker middle.worker) (later : middle.worker.latestNsecs ≤ now) :
    ∃ after, WorkerRuns state after ∧ after.pc = .idle ∧ Passed state.worker after.worker ∧ after.worker.latestNsecs ≤ now := by
  have onward : ∀ first members, Segment.Path (nexts state.worker) noEntry first members → (∀ entry ∈ members, entry ∈ active ++ (fresh ++ used)) →
      curr ∈ members → ∃ ahead, Segment.Path (nexts state.worker) noEntry (nexts state.worker curr) ahead ∧
        ∀ entry ∈ ahead, entry ∈ active ++ (fresh ++ used) := by
    intro first members path known found
    obtain ⟨left, right, split⟩ := List.append_of_mem found
    rw [split] at path
    obtain ⟨_, _, _, further⟩ := (Segment.path_append _ _ _ _ _).mp path
    refine ⟨right, further, fun entry inside => known entry ?_⟩
    rw [split]
    simp [inside]
  have ahead : ∃ ahead, Segment.Path (nexts state.worker) noEntry (nexts state.worker curr) ahead ∧
      ∀ entry ∈ ahead, entry ∈ active ++ (fresh ++ used) := by
    rcases List.mem_append.mp member with inActive | inUsed
    · exact onward _ active sound.threaded.forward (fun entry found => List.mem_append_left _ found) inActive
    · exact onward _ (fresh ++ used) sound.threaded.freeForward (fun entry found => List.mem_append_right _ found)
        (List.mem_append_right _ inUsed)
  obtain ⟨ahead, path, known⟩ := ahead
  have links : nexts middle.worker = nexts state.worker := funext passed.links
  rw [← links] at path
  have moves := worker_runs_step middle _ .move rfl (.move middle curr ends)
  obtain ⟨after, finishes, idle, further, latest, _⟩ := rest_of_pass { middle with pc := enterPc (nexts middle.worker curr) } now ahead
    (nexts middle.worker curr) rfl path (fun entry found => sound.threaded.proper entry (known entry found))
    (fun entry found => (Nat.le_of_eq (passed.targets entry)).trans (due entry (known entry found))) later
  have before := worker_runs_trans state middle _ runs moves
  exact ⟨after, worker_runs_trans state _ after before finishes, idle, passed_trans _ _ _ passed further, latest⟩

theorem pass_to_idle (active fresh used : List Nat) (sound : WorkerSound state active fresh used)
    (due : ∀ entry ∈ active ++ (fresh ++ used), targets state.worker entry ≤ now) (later : state.worker.latestNsecs ≤ now) :
    ∃ after, WorkerRuns state after ∧ after.pc = .idle ∧ Passed state.worker after.worker ∧ after.worker.latestNsecs ≤ now := by
  have goes := link_to_idle state now active fresh used sound
  have known : ∀ curr, curr ∈ active ++ used → targets state.worker curr ≤ now := by
    intro curr member
    apply due curr
    rcases List.mem_append.mp member with inActive | inUsed
    · exact List.mem_append_left _ inActive
    · exact List.mem_append_right _ (List.mem_append_right _ inUsed)
  have pc := sound.pc
  cases here : state.pc with
  | idle => exact ⟨state, worker_runs_refl state, here, passed_refl state.worker, later⟩
  | fetch curr =>
      rw [here] at pc
      obtain ⟨middle, runs, ends, passed, latest, _⟩ := fetch_to_link state now curr here later (known curr pc)
      exact goes curr pc due middle runs ends passed latest
  | check curr =>
      rw [here] at pc
      obtain ⟨middle, runs, ends, passed, latest, _⟩ := check_to_link state curr here
      exact goes curr pc due middle runs ends passed ((Nat.le_of_eq latest).trans later)
  | copy curr =>
      rw [here] at pc
      obtain ⟨middle, runs, ends, passed, latest, _⟩ := copy_to_link state curr here
      exact goes curr (List.mem_append_left _ pc.1) due middle runs ends passed ((Nat.le_of_eq latest).trans later)
  | due curr =>
      rw [here] at pc
      obtain ⟨middle, runs, ends, passed, latest, _⟩ := due_to_link state curr here
      exact goes curr (List.mem_append_left _ pc.1) due middle runs ends passed ((Nat.le_of_eq latest).trans later)
  | next curr =>
      rw [here] at pc
      exact goes curr pc due state (worker_runs_refl state) here (passed_refl state.worker) later

theorem entries_from_passed (before after : NvmevIoWorker) (passed : Passed before after) (fuel curr : Nat) :
    entriesFrom after fuel curr = entriesFrom before fuel curr := by
  induction fuel generalizing curr with
  | zero => rfl
  | succ fuel ih =>
      have link : (after.workQueue curr).next = (before.workQueue curr).next := passed.links curr
      simp only [entriesFrom, link, ih]

theorem passed_entries (before after : NvmevIoWorker) (passed : Passed before after) : activeEntries after = activeEntries before := by
  rw [activeEntries, passed.first, entries_from_passed before after passed]
  rfl

theorem complete_duties (worker : NvmevIoWorker) (active free : List Nat) (curr : Nat) (threaded : Threaded worker active free)
    (member : curr ∈ active) (pending : isPending worker curr = true) :
    (duties worker).Perm (dutyOf (worker.workQueue curr) ::
      duties (putWork worker curr { worker.workQueue curr with isCompleted := true })) := by
  have passed := put_work_passed worker curr { worker.workQueue curr with isCompleted := true } rfl rfl fun _ => rfl
  have entries : activeEntries (putWork worker curr { worker.workQueue curr with isCompleted := true }) = active := by
    rw [passed_entries worker _ passed]
    exact active_entries_are worker active free threaded
  have same : ∀ entry, entry ≠ curr →
      (putWork worker curr { worker.workQueue curr with isCompleted := true }).workQueue entry = worker.workQueue entry :=
    fun entry apart => Function.update_of_ne apart _ _
  have here : isPending (putWork worker curr { worker.workQueue curr with isCompleted := true }) curr = false := by
    simp [isPending, putWork]
  generalize putWork worker curr { worker.workQueue curr with isCompleted := true } = after at entries same here ⊢
  obtain ⟨left, right, split⟩ := List.append_of_mem member
  have distinct := (List.nodup_append.mp threaded.distinct).1
  rw [split] at distinct
  have apart := apart_of_nodup left right curr distinct
  have kept := duties_kept worker after (left ++ right)
    (fun entry found => by rw [isPending, same entry (apart entry found), isPending]) (fun entry found => by rw [same entry (apart entry found)])
  have without : (left ++ curr :: right).filter (isPending after) = (left ++ right).filter (isPending after) := by
    simp [List.filter_append, here]
  rw [duties_are worker active free threaded, duties, entries, split, without, kept]
  have moved := (@List.perm_middle _ curr left right).filter (isPending worker)
  rw [List.filter_cons_of_pos pending] at moved
  exact moved.map fun entry => dutyOf (worker.workQueue entry)

theorem pass_entries (next : WorkerState) (event : WorkerEvent) (own : ownStep event = true) (other : event ≠ .complete)
    (taken : WorkerStep state event next) :
    activeEntries next.worker = activeEntries state.worker ∧
      ∀ entry, next.worker.workQueue entry = state.worker.workQueue entry ∨
        ∃ performed, event = .copy performed ∧ state.pc = .copy entry ∧
          next.worker.workQueue entry = copyWork (state.worker.workQueue entry) performed := by
  cases taken with
  | enqueue item => cases own
  | reclaim => cases own
  | start idle => exact ⟨rfl, fun _ => .inl rfl⟩
  | advance curr now here later =>
      have passed : Passed state.worker { state.worker with latestNsecs := now } := ⟨rfl, fun _ => rfl, fun _ => rfl, fun _ done => done⟩
      exact ⟨passed_entries _ _ passed, fun _ => .inl rfl⟩
  | check curr here => exact ⟨rfl, fun _ => .inl rfl⟩
  | copy curr performed here =>
      refine ⟨passed_entries _ _ (copy_passed state curr performed), fun entry => ?_⟩
      by_cases same : entry = curr
      · right
        rw [same]
        exact ⟨performed, rfl, here, Function.update_self _ _ _⟩
      · exact .inl (Function.update_of_ne same _ _)
  | complete curr here => exact absurd rfl other
  | move curr here => exact ⟨rfl, fun _ => .inl rfl⟩

theorem complete_entries (curr : Nat) :
    activeEntries (completeStep state curr).worker = activeEntries state.worker ∧
      ∀ entry, (completeStep state curr).worker.workQueue entry = state.worker.workQueue entry ∨
        (completeStep state curr).worker.workQueue entry = { state.worker.workQueue entry with isCompleted := true } := by
  simp only [completeStep]
  split
  · have passed := put_work_passed state.worker curr { state.worker.workQueue curr with isCompleted := true } rfl rfl fun _ => rfl
    refine ⟨passed_entries _ _ passed, fun entry => ?_⟩
    by_cases same : entry = curr
    · rw [same]
      exact .inr (Function.update_self _ _ _)
    · exact .inl (Function.update_of_ne same _ _)
  · exact ⟨rfl, fun _ => .inl rfl⟩

theorem worker_drains (active fresh used : List Nat) (sound : WorkerSound state active fresh used) :
    ∃ after, WorkerRuns state after ∧ duties after.worker = [] := by
  obtain ⟨now, bound⟩ := Finset.exists_le (state.worker.latestNsecs :: (active ++ (fresh ++ used)).map (targets state.worker)).toFinset
  have due : ∀ entry ∈ active ++ (fresh ++ used), targets state.worker entry ≤ now := by
    intro entry found
    apply bound
    rw [List.mem_toFinset]
    exact List.mem_cons_of_mem _ (List.mem_map_of_mem found)
  have later : state.worker.latestNsecs ≤ now := by
    apply bound
    rw [List.mem_toFinset]
    exact List.mem_cons_self
  obtain ⟨middle, runs, idle, passed, latest⟩ := pass_to_idle state now active fresh used sound due later
  have starts := worker_runs_step middle _ .start rfl (.start middle idle)
  have links : nexts middle.worker = nexts state.worker := funext passed.links
  have path : Segment.Path (nexts middle.worker) noEntry middle.worker.ioSeq active := by
    rw [links, passed.first]
    exact sound.threaded.forward
  obtain ⟨after, finishes, _, further, _, done⟩ := rest_of_pass { middle with pc := enterPc middle.worker.ioSeq } now active
    middle.worker.ioSeq rfl path (fun entry found => sound.threaded.proper entry (List.mem_append_left _ found))
    (fun entry found => (Nat.le_of_eq (passed.targets entry)).trans (due entry (List.mem_append_left _ found))) latest
  have before := worker_runs_trans state middle _ runs starts
  refine ⟨after, worker_runs_trans state _ after before finishes, ?_⟩
  have whole := passed_trans state.worker middle.worker after.worker passed further
  have same : activeEntries after.worker = active := by
    rw [passed_entries state.worker after.worker whole]
    exact active_entries_are state.worker active (fresh ++ used) sound.threaded
  rw [duties, same, List.filter_eq_nil_iff.mpr, List.map_nil]
  intro entry found
  rw [done entry found]
  exact Bool.false_ne_true

end Passes

end ConZone
