import ConZone.Segment
import ConZone.Zone

set_option autoImplicit false

namespace ConZone

def nrMaxParallelIo : Nat := 16384

-- The -1 of the unsigned indices that chain the work entries.
def noEntry : Nat := 2 ^ 32 - 1

abbrev BufferRef := Loc × Nat

structure NvmevIoWork where
  sqid : Nat
  cqid : Nat
  sqEntry : Nat
  commandId : Nat
  nsecsStart : Nat
  nsecsTarget : Nat
  nsecsEnqueue : Nat
  isCopied : Bool
  isCompleted : Bool
  status : NvmeStatus
  result0 : Nat
  result1 : Nat
  isInternal : Bool
  writeBuffer : Option BufferRef
  buffsToRelease : Nat
  next : Nat
  prev : Nat

structure NvmevIoWorker where
  workQueue : Nat → NvmevIoWork
  freeSeq : Nat
  freeSeqEnd : Nat
  ioSeq : Nat
  ioSeqEnd : Nat
  latestNsecs : Nat

section Links

def putWork (worker : NvmevIoWorker) (entry : Nat) (work : NvmevIoWork) : NvmevIoWorker :=
  { worker with workQueue := Function.update worker.workQueue entry work }

def putNext (worker : NvmevIoWorker) (entry next : Nat) : NvmevIoWorker :=
  putWork worker entry { worker.workQueue entry with next := next }

def putPrev (worker : NvmevIoWorker) (entry prev : Nat) : NvmevIoWorker :=
  putWork worker entry { worker.workQueue entry with prev := prev }

def nexts (worker : NvmevIoWorker) (entry : Nat) : Nat := (worker.workQueue entry).next
def prevs (worker : NvmevIoWorker) (entry : Nat) : Nat := (worker.workQueue entry).prev
def targets (worker : NvmevIoWorker) (entry : Nat) : Nat := (worker.workQueue entry).nsecsTarget

variable (worker : NvmevIoWorker) (entry value : Nat)

@[simp] theorem nexts_put_next : nexts (putNext worker entry value) = Function.update (nexts worker) entry value := by
  funext other
  by_cases same : other = entry
  · simp [nexts, putNext, putWork, same]
  · simp [nexts, putNext, putWork, same]

@[simp] theorem prevs_put_prev : prevs (putPrev worker entry value) = Function.update (prevs worker) entry value := by
  funext other
  by_cases same : other = entry
  · simp [prevs, putPrev, putWork, same]
  · simp [prevs, putPrev, putWork, same]

@[simp] theorem nexts_put_prev : nexts (putPrev worker entry value) = nexts worker := by
  funext other
  by_cases same : other = entry
  · simp [nexts, putPrev, putWork, same]
  · simp [nexts, putPrev, putWork, same]

@[simp] theorem prevs_put_next : prevs (putNext worker entry value) = prevs worker := by
  funext other
  by_cases same : other = entry
  · simp [prevs, putNext, putWork, same]
  · simp [prevs, putNext, putWork, same]

end Links

-- NVMEV_IO_WORKER_INIT: zeroed entries, all of them free.
def nvmevIoWorkerInit : NvmevIoWorker :=
  { workQueue := fun entry =>
      { sqid := 0, cqid := 0, sqEntry := 0, commandId := 0, nsecsStart := 0, nsecsTarget := 0, nsecsEnqueue := 0,
        isCopied := false, isCompleted := false, status := .success, result0 := 0, result1 := 0, isInternal := false,
        writeBuffer := none, buffsToRelease := 0,
        next := if entry + 1 = nrMaxParallelIo then noEntry else entry + 1,
        prev := if entry = 0 then noEntry else entry - 1 },
    freeSeq := 0, freeSeqEnd := nrMaxParallelIo - 1, ioSeq := noEntry, ioSeqEnd := noEntry, latestNsecs := 0 }

-- The loop of __insert_req_sorted: the entry to insert behind, from the end on.
def insertPlace (worker : NvmevIoWorker) (nsecsTarget : Nat) : Nat → Nat → Nat
  | 0, curr => curr
  | fuel + 1, curr =>
      if curr = noEntry then curr
      else if (worker.workQueue curr).nsecsTarget ≤ worker.latestNsecs then curr
      else if (worker.workQueue curr).nsecsTarget ≤ nsecsTarget then curr
      else insertPlace worker nsecsTarget fuel (worker.workQueue curr).prev

def insertReqSorted (worker : NvmevIoWorker) (entry nsecsTarget : Nat) : NvmevIoWorker :=
  if worker.ioSeq = noEntry then { worker with ioSeq := entry, ioSeqEnd := entry }
  else
    let curr := insertPlace worker nsecsTarget nrMaxParallelIo worker.ioSeqEnd
    if curr = noEntry then
      { putNext (putPrev worker worker.ioSeq entry) entry worker.ioSeq with ioSeq := entry }
    else if (worker.workQueue curr).next = noEntry then
      putNext { putPrev worker entry curr with ioSeqEnd := entry } curr entry
    else
      let after := (worker.workQueue curr).next
      putNext (putPrev (putNext (putPrev worker entry curr) entry after) after entry) curr entry

-- The last free entry is never given out.
def allocateWorkQueueEntry (worker : NvmevIoWorker) : Option (Nat × NvmevIoWorker) :=
  let next := (worker.workQueue worker.freeSeq).next
  if nrMaxParallelIo ≤ next then none else some (worker.freeSeq, { worker with freeSeq := next })

-- What the dispatcher hands to a worker: a command it has run or the release of
-- a write buffer.
inductive WorkItem where
  | ioReq (sqid cqid sqEntry commandId nsecsStart nsecsEnqueue nsecsTarget : Nat) (status : NvmeStatus)
  | internal (sqid nsecsEnqueue nsecsTarget : Nat) (writeBuffer : BufferRef) (buffsToRelease : Nat)

def itemTarget : WorkItem → Nat
  | .ioReq _ _ _ _ _ _ nsecsTarget _ => nsecsTarget
  | .internal _ _ nsecsTarget _ _ => nsecsTarget

def fillWork (work : NvmevIoWork) : WorkItem → NvmevIoWork
  | .ioReq sqid cqid sqEntry commandId nsecsStart nsecsEnqueue nsecsTarget status =>
      { work with sqid := sqid, cqid := cqid, sqEntry := sqEntry, commandId := commandId, nsecsStart := nsecsStart,
                  nsecsEnqueue := nsecsEnqueue, nsecsTarget := nsecsTarget, status := status, isCompleted := false,
                  isCopied := false, prev := noEntry, next := noEntry, isInternal := false }
  | .internal sqid nsecsEnqueue nsecsTarget writeBuffer buffsToRelease =>
      { work with sqid := sqid, nsecsStart := nsecsEnqueue, nsecsEnqueue := nsecsEnqueue, nsecsTarget := nsecsTarget,
                  isCompleted := false, isCopied := true, prev := noEntry, next := noEntry, isInternal := true,
                  writeBuffer := some writeBuffer, buffsToRelease := buffsToRelease }

-- __enqueue_io_req and schedule_internal_operation, which drop the item when no
-- entry is left.
def enqueueItem (worker : NvmevIoWorker) (item : WorkItem) : NvmevIoWorker :=
  match allocateWorkQueueEntry worker with
  | none => worker
  | some (entry, worker) =>
      insertReqSorted (putWork worker entry (fillWork (worker.workQueue entry) item)) entry (itemTarget item)

def isReclaimable (worker : NvmevIoWorker) (entry : Nat) : Bool :=
  (worker.workQueue entry).isCompleted && (worker.workQueue entry).isCopied &&
    decide ((worker.workQueue entry).nsecsTarget ≤ worker.latestNsecs)

-- The entries that the loop of __reclaim_completed_reqs passes.
def reclaimable (worker : NvmevIoWorker) : Nat → Nat → List Nat
  | 0, _ => []
  | fuel + 1, curr =>
      if curr = noEntry then []
      else if isReclaimable worker curr then curr :: reclaimable worker fuel (worker.workQueue curr).next
      else []

def shortenActive (worker : NvmevIoWorker) (lastEntry : Nat) : NvmevIoWorker :=
  let after := (worker.workQueue lastEntry).next
  let worker := { worker with ioSeq := after }
  putNext (if after ≠ noEntry then putPrev worker after noEntry else worker) lastEntry noEntry

def extendFree (worker : NvmevIoWorker) (firstEntry lastEntry : Nat) : NvmevIoWorker :=
  { putNext (putPrev worker firstEntry worker.freeSeqEnd) worker.freeSeqEnd firstEntry with freeSeqEnd := lastEntry }

def reclaimCompletedReqs (worker : NvmevIoWorker) : NvmevIoWorker :=
  match (reclaimable worker nrMaxParallelIo worker.ioSeq).getLast? with
  | none => worker
  | some lastEntry => extendFree (shortenActive worker lastEntry) worker.ioSeq lastEntry

structure Threaded (worker : NvmevIoWorker) (active free : List Nat) : Prop where
  forward : Segment.Path (nexts worker) noEntry worker.ioSeq active
  backward : active ≠ [] → Segment.Path (prevs worker) noEntry worker.ioSeqEnd active.reverse
  freeForward : Segment.Path (nexts worker) noEntry worker.freeSeq free
  freeEnd : free.getLast? = some worker.freeSeqEnd
  distinct : (active ++ free).Nodup
  proper : ∀ entry ∈ active ++ free, entry < nrMaxParallelIo

-- Entries that are not due yet come last and are in the order of their targets.
def TargetsOrdered (worker : NvmevIoWorker) (active : List Nat) : Prop :=
  active.Pairwise fun first second => worker.latestNsecs < targets worker first → targets worker first ≤ targets worker second

structure Relinked (before after : NvmevIoWorker) : Prop where
  work : ∀ entry, after.workQueue entry = { before.workQueue entry with next := nexts after entry, prev := prevs after entry }
  latest : after.latestNsecs = before.latestNsecs

section Relinking

theorem relinked_refl (worker : NvmevIoWorker) : Relinked worker worker := ⟨fun _ => rfl, rfl⟩

theorem relinked_trans (first second third : NvmevIoWorker) (left : Relinked first second) (right : Relinked second third) :
    Relinked first third := by
  refine ⟨fun entry => ?_, right.latest.trans left.latest⟩
  rw [right.work entry, left.work entry]

theorem put_next_relinked (worker : NvmevIoWorker) (entry value : Nat) : Relinked worker (putNext worker entry value) := by
  refine ⟨fun other => ?_, rfl⟩
  by_cases same : other = entry
  · simp [putNext, putWork, nexts, prevs, same]
  · simp [putNext, putWork, nexts, prevs, same]

theorem put_prev_relinked (worker : NvmevIoWorker) (entry value : Nat) : Relinked worker (putPrev worker entry value) := by
  refine ⟨fun other => ?_, rfl⟩
  by_cases same : other = entry
  · simp [putPrev, putWork, nexts, prevs, same]
  · simp [putPrev, putWork, nexts, prevs, same]

theorem ends_relinked (worker other : NvmevIoWorker) (work : other.workQueue = worker.workQueue)
    (latest : other.latestNsecs = worker.latestNsecs) : Relinked worker other := by
  refine ⟨fun entry => ?_, latest⟩
  simp only [nexts, prevs, work]

theorem relinked_targets (before after : NvmevIoWorker) (relinked : Relinked before after) (entry : Nat) :
    targets after entry = targets before entry := by
  rw [targets, relinked.work entry]
  rfl

theorem insert_relinked (worker : NvmevIoWorker) (entry nsecsTarget : Nat) :
    Relinked worker (insertReqSorted worker entry nsecsTarget) := by
  have nextStep := fun first slot value (relinked : Relinked worker first) =>
    relinked_trans worker first _ relinked (put_next_relinked first slot value)
  have prevStep := fun first slot value (relinked : Relinked worker first) =>
    relinked_trans worker first _ relinked (put_prev_relinked first slot value)
  have start := relinked_refl worker
  simp only [insertReqSorted]
  split
  · exact ends_relinked _ _ rfl rfl
  · split
    · exact relinked_trans _ _ _ (nextStep _ _ _ (prevStep _ _ _ start)) (ends_relinked _ _ rfl rfl)
    · split
      · exact nextStep _ _ _ (relinked_trans _ _ _ (prevStep _ _ _ start) (ends_relinked _ _ rfl rfl))
      · exact nextStep _ _ _ (prevStep _ _ _ (nextStep _ _ _ (prevStep _ _ _ start)))

theorem shorten_relinked (worker : NvmevIoWorker) (lastEntry : Nat) : Relinked worker (shortenActive worker lastEntry) := by
  have moved : Relinked worker { worker with ioSeq := (worker.workQueue lastEntry).next } := ends_relinked _ _ rfl rfl
  simp only [shortenActive]
  split
  · exact relinked_trans _ _ _ (relinked_trans _ _ _ moved (put_prev_relinked _ _ _)) (put_next_relinked _ _ _)
  · exact relinked_trans _ _ _ moved (put_next_relinked _ _ _)

theorem extend_relinked (worker : NvmevIoWorker) (firstEntry lastEntry : Nat) :
    Relinked worker (extendFree worker firstEntry lastEntry) := by
  have linked := relinked_trans worker _ _ (put_prev_relinked worker firstEntry worker.freeSeqEnd)
    (put_next_relinked _ worker.freeSeqEnd firstEntry)
  exact relinked_trans _ _ _ linked (ends_relinked _ _ rfl rfl)

theorem reclaim_relinked (worker : NvmevIoWorker) : Relinked worker (reclaimCompletedReqs worker) := by
  simp only [reclaimCompletedReqs]
  split
  · exact relinked_refl worker
  · exact relinked_trans _ _ _ (shorten_relinked worker _) (extend_relinked _ _ _)

end Relinking

section Insertion

variable (worker : NvmevIoWorker) (active free : List Nat) (entry nsecsTarget : Nat)

theorem apart_of_nodup (left right : List Nat) (node : Nat) (distinct : (left ++ node :: right).Nodup) :
    ∀ member ∈ left ++ right, member ≠ node := by
  intro member found same
  rw [same] at found
  exact (List.nodup_cons.mp (List.nodup_middle.mp distinct)).1 found

theorem no_entry_outside (member : Nat) (proper : member < nrMaxParallelIo) : member ≠ noEntry := by
  unfold nrMaxParallelIo at proper
  unfold noEntry
  omega

-- The loop passes entries that are neither due nor wanted before the new one,
-- from the end of the list on, and stops at the first other entry.
theorem insert_place_stops (scan : List Nat) (fuel curr : Nat) (path : Segment.Path (prevs worker) noEntry curr scan)
    (proper : ∀ member ∈ scan, member < nrMaxParallelIo) (enough : scan.length ≤ fuel) :
    ∃ passed left, scan = passed ++ left ∧ insertPlace worker nsecsTarget fuel curr = left.head?.getD noEntry ∧
      (∀ member ∈ passed, worker.latestNsecs < targets worker member ∧ nsecsTarget < targets worker member) ∧
      ∀ member ∈ left.head?, targets worker member ≤ worker.latestNsecs ∨ targets worker member ≤ nsecsTarget := by
  induction scan generalizing fuel curr with
  | nil =>
      have ended : curr = noEntry := path
      refine ⟨[], [], rfl, ?_, fun _ member => absurd member List.not_mem_nil, fun _ member => nomatch member⟩
      cases fuel with
      | zero => exact ended
      | succ fuel => simp [insertPlace, ended]
  | cons node rest ih =>
      obtain ⟨here, further⟩ := path
      subst here
      have inside := no_entry_outside curr (proper curr List.mem_cons_self)
      cases fuel with
      | zero => simp at enough
      | succ fuel =>
          by_cases due : targets worker curr ≤ worker.latestNsecs
          · refine ⟨[], curr :: rest, rfl, ?_, fun _ member => absurd member List.not_mem_nil, ?_⟩
            · have due' : (worker.workQueue curr).nsecsTarget ≤ worker.latestNsecs := due
              simp [insertPlace, inside, due']
            · intro member found
              rw [← Option.some.inj found]
              exact .inl due
          · by_cases earlier : targets worker curr ≤ nsecsTarget
            · refine ⟨[], curr :: rest, rfl, ?_, fun _ member => absurd member List.not_mem_nil, ?_⟩
              · have earlier' : (worker.workQueue curr).nsecsTarget ≤ nsecsTarget := earlier
                simp [insertPlace, inside, earlier']
              · intro member found
                rw [← Option.some.inj found]
                exact .inr earlier
            · obtain ⟨passed, left, split, stops, skipped, stopped⟩ := ih fuel (prevs worker curr) further
                (fun member inRest => proper member (List.mem_cons_of_mem _ inRest)) (by simpa using enough)
              refine ⟨curr :: passed, left, by rw [split]; rfl, ?_, ?_, stopped⟩
              · rw [← stops]
                have due' : ¬(worker.workQueue curr).nsecsTarget ≤ worker.latestNsecs := due
                have earlier' : ¬(worker.workQueue curr).nsecsTarget ≤ nsecsTarget := earlier
                simp only [insertPlace, if_neg inside, if_neg due', if_neg earlier']
                rfl
              · intro member found
                rcases List.mem_cons.mp found with same | later
                · rw [same]
                  omega
                · exact skipped member later

theorem threaded_with (after : NvmevIoWorker) (left right : List Nat) (threaded : Threaded worker (left ++ right) free)
    (fresh : entry ∉ (left ++ right) ++ free) (inside : entry < nrMaxParallelIo)
    (forward : Segment.Path (nexts after) noEntry after.ioSeq (left ++ entry :: right))
    (backward : Segment.Path (prevs after) noEntry after.ioSeqEnd (left ++ entry :: right).reverse)
    (first : after.freeSeq = worker.freeSeq) (last : after.freeSeqEnd = worker.freeSeqEnd)
    (same : ∀ member ∈ free, nexts after member = nexts worker member) : Threaded after (left ++ entry :: right) free := by
  have moved : (left ++ entry :: right ++ free).Perm (entry :: (left ++ right ++ free)) := by
    have front := (@List.perm_middle _ entry left right).append_right free
    exact front
  refine ⟨forward, fun _ => backward, ?_, ?_, ?_, ?_⟩
  · rw [first]
    exact Segment.path_congr _ _ _ _ free same threaded.freeForward
  · rw [last]
    exact threaded.freeEnd
  · exact moved.nodup_iff.mpr (List.nodup_cons.mpr ⟨fresh, threaded.distinct⟩)
  · intro member found
    rcases List.mem_cons.mp (moved.mem_iff.mp found) with same | old
    · rw [same]
      exact inside
    · exact threaded.proper member old

theorem insert_head (first : Nat) (rest : List Nat) (threaded : Threaded worker (first :: rest) free)
    (fresh : entry ∉ (first :: rest) ++ free) (inside : entry < nrMaxParallelIo) (unlinked : prevs worker entry = noEntry) :
    Threaded { putNext (putPrev worker worker.ioSeq entry) entry worker.ioSeq with ioSeq := entry } (entry :: first :: rest) free := by
  have starts : worker.ioSeq = first := threaded.forward.1
  have apart : entry ≠ first := fun same => fresh (by simp [same])
  have outside : ∀ member ∈ (first :: rest) ++ free, member ≠ entry := fun member found same => fresh (same ▸ found)
  have forth : nexts { putNext (putPrev worker worker.ioSeq entry) entry worker.ioSeq with ioSeq := entry } =
      Function.update (nexts worker) entry first := by
    rw [starts]
    exact (nexts_put_next _ _ _).trans (by rw [nexts_put_prev])
  have back : prevs { putNext (putPrev worker worker.ioSeq entry) entry worker.ioSeq with ioSeq := entry } =
      Function.update (prevs worker) first entry := by
    rw [starts]
    exact (prevs_put_next _ _ _).trans (prevs_put_prev _ _ _)
  apply threaded_with worker free entry _ [] (first :: rest) threaded fresh inside
  · refine ⟨rfl, ?_⟩
    rw [forth, Function.update_self]
    refine Segment.path_congr (nexts worker) _ _ _ _ ?_ (starts ▸ threaded.forward)
    intro member found
    exact Function.update_of_ne (outside member (List.mem_append_left _ found)) _ _
  · have before := threaded.backward (by simp)
    rw [List.reverse_cons] at before
    have after := Segment.path_insert (prevs worker) (Function.update (prevs worker) first entry) noEntry _ first entry _ [] before
      (Function.update_self _ _ _) ?_ ?_ (fun _ found => absurd found List.not_mem_nil)
    · rw [back]
      show Segment.Path _ noEntry worker.ioSeqEnd _
      simpa using after
    · rw [Function.update_of_ne apart, unlinked]
      exact (Segment.path_next _ _ _ first _ [] before).symm
    · intro member found
      have inRest : member ∈ rest := by simpa using found
      exact Function.update_of_ne (apart_of_nodup [] (rest ++ free) first threaded.distinct member (by simp [inRest])) _ _
  · rfl
  · rfl
  · intro member found
    rw [forth]
    exact Function.update_of_ne (outside member (List.mem_append_right _ found)) _ _

theorem insert_last (front : List Nat) (last : Nat) (threaded : Threaded worker (front ++ [last]) free)
    (fresh : entry ∉ (front ++ [last]) ++ free) (inside : entry < nrMaxParallelIo) (unlinked : nexts worker entry = noEntry) :
    Threaded (putNext { putPrev worker entry last with ioSeqEnd := entry } last entry) (front ++ [last, entry]) free := by
  have outside : ∀ member ∈ (front ++ [last]) ++ free, member ≠ entry := fun member found same => fresh (same ▸ found)
  have forth : nexts (putNext { putPrev worker entry last with ioSeqEnd := entry } last entry) =
      Function.update (nexts worker) last entry := by
    rw [nexts_put_next]
    exact congrArg (Function.update · last entry) (nexts_put_prev worker entry last)
  have back : prevs (putNext { putPrev worker entry last with ioSeqEnd := entry } last entry) =
      Function.update (prevs worker) entry last := by
    rw [prevs_put_next]
    exact prevs_put_prev worker entry last
  have split : front ++ [last, entry] = (front ++ [last]) ++ entry :: [] := by simp
  have apartLast := apart_of_nodup front free last (by simpa using threaded.distinct)
  rw [split]
  apply threaded_with worker free entry _ (front ++ [last]) [] (by simpa using threaded) (by simpa using fresh) inside
  · have after := Segment.path_insert (nexts worker) (Function.update (nexts worker) last entry) noEntry _ last entry front [] threaded.forward
      (Function.update_self _ _ _) ?_ ?_ (fun _ found => absurd found List.not_mem_nil)
    · rw [forth]
      show Segment.Path _ noEntry worker.ioSeq _
      simpa using after
    · rw [Function.update_of_ne (outside last (by simp)).symm, unlinked]
      exact (Segment.path_next _ _ _ last front [] threaded.forward).symm
    · intro member found
      exact Function.update_of_ne (apartLast member (List.mem_append_left _ found)) _ _
  · have before := threaded.backward (by simp)
    rw [List.reverse_append, List.reverse_append]
    refine ⟨rfl, ?_⟩
    rw [back, Function.update_self]
    have ends : worker.ioSeqEnd = last := by
      have top := Segment.path_head _ _ _ _ before
      simpa using top
    rw [ends] at before
    rw [← List.reverse_append]
    refine Segment.path_congr (prevs worker) _ _ _ _ ?_ before
    intro member found
    exact Function.update_of_ne (outside member (List.mem_append_left _ (List.mem_reverse.mp found))) _ _
  · rfl
  · rfl
  · intro member found
    rw [forth]
    exact Function.update_of_ne (apartLast member (List.mem_append_right _ found)) _ _

theorem insert_between (front rest : List Nat) (node after : Nat) (threaded : Threaded worker (front ++ node :: after :: rest) free)
    (fresh : entry ∉ (front ++ node :: after :: rest) ++ free) (inside : entry < nrMaxParallelIo) :
    Threaded (putNext (putPrev (putNext (putPrev worker entry node) entry after) after entry) node entry)
      (front ++ node :: entry :: after :: rest) free := by
  have outside : ∀ member ∈ (front ++ node :: after :: rest) ++ free, member ≠ entry := fun member found same => fresh (same ▸ found)
  have forth : nexts (putNext (putPrev (putNext (putPrev worker entry node) entry after) after entry) node entry) =
      Function.update (Function.update (nexts worker) entry after) node entry := by simp
  have back : prevs (putNext (putPrev (putNext (putPrev worker entry node) entry after) after entry) node entry) =
      Function.update (Function.update (prevs worker) entry node) after entry := by simp
  have apartNode := apart_of_nodup front (after :: rest ++ free) node (by simpa using threaded.distinct)
  have apartAfter := apart_of_nodup (front ++ [node]) (rest ++ free) after (by simpa using threaded.distinct)
  have follows := Segment.path_next _ _ _ node front (after :: rest) threaded.forward
  have split : front ++ node :: entry :: after :: rest = (front ++ [node]) ++ entry :: after :: rest := by simp
  rw [split]
  apply threaded_with worker free entry _ (front ++ [node]) (after :: rest) (by simpa using threaded) (by simpa using fresh) inside
  · have linked := Segment.path_insert (nexts worker) (Function.update (Function.update (nexts worker) entry after) node entry) noEntry _
      node entry front (after :: rest) threaded.forward (Function.update_self _ _ _) ?_ ?_ ?_
    · rw [forth]
      show Segment.Path _ noEntry worker.ioSeq _
      simpa using linked
    · rw [Function.update_of_ne (outside node (by simp)).symm, Function.update_self, follows]
      rfl
    · intro member found
      rw [Function.update_of_ne (apartNode member (by simp [found])), Function.update_of_ne (outside member (by simp [found]))]
    · intro member found
      rw [Function.update_of_ne (apartNode member (List.mem_append_right _ (List.mem_append_left _ found))),
        Function.update_of_ne (outside member (List.mem_append_left _ (List.mem_append_right _ (List.mem_cons_of_mem _ found))))]
  · have before := threaded.backward (by simp)
    have reversed : (front ++ node :: after :: rest).reverse = rest.reverse ++ after :: (node :: front.reverse) := by simp
    rw [reversed] at before
    have precedes := Segment.path_next _ _ _ after rest.reverse (node :: front.reverse) before
    have linked := Segment.path_insert (prevs worker) (Function.update (Function.update (prevs worker) entry node) after entry) noEntry _
      after entry rest.reverse (node :: front.reverse) before (Function.update_self _ _ _) ?_ ?_ ?_
    · rw [back]
      show Segment.Path _ noEntry worker.ioSeqEnd _
      simpa using linked
    · rw [Function.update_of_ne (outside after (by simp)).symm, Function.update_self, precedes]
      rfl
    · intro member found
      have inRest := List.mem_reverse.mp found
      rw [Function.update_of_ne (apartAfter member (by simp [inRest])), Function.update_of_ne (outside member (by simp [inRest]))]
    · intro member found
      have inFront : member ∈ front ++ [node] := by
        rcases List.mem_cons.mp found with same | earlier
        · simp [same]
        · simp [List.mem_reverse.mp earlier]
      rw [Function.update_of_ne (apartAfter member (List.mem_append_left _ inFront)),
        Function.update_of_ne (outside member (List.mem_append_left _ (by
          rcases List.mem_append.mp inFront with early | last
          · exact List.mem_append_left _ early
          · exact List.mem_append_right _ (by rw [List.mem_singleton.mp last]; exact List.mem_cons_self))))]
  · rfl
  · rfl
  · intro member found
    rw [forth, Function.update_of_ne (apartNode member (by simp [found])), Function.update_of_ne (outside member (by simp [found]))]

structure InsertedAt (left right : List Nat) : Prop where
  after : ∀ member ∈ right, worker.latestNsecs < targets worker member ∧ nsecsTarget < targets worker member
  before : ∀ member ∈ left.getLast?, targets worker member ≤ worker.latestNsecs ∨ targets worker member ≤ nsecsTarget

theorem active_bound (threaded : Threaded worker active free) : active.length ≤ nrMaxParallelIo := by
  have distinct := (List.nodup_append.mp threaded.distinct).1
  have inside : active ⊆ List.range nrMaxParallelIo := fun member found =>
    List.mem_range.mpr (threaded.proper member (List.mem_append_left _ found))
  simpa using (distinct.subperm inside).length_le

theorem insert_threaded (threaded : Threaded worker active free) (fresh : entry ∉ active ++ free) (inside : entry < nrMaxParallelIo)
    (unlinked : nexts worker entry = noEntry ∧ prevs worker entry = noEntry) :
    ∃ left right, active = left ++ right ∧ Threaded (insertReqSorted worker entry nsecsTarget) (left ++ entry :: right) free ∧
      InsertedAt worker nsecsTarget left right := by
  cases active with
  | nil =>
      have empty : worker.ioSeq = noEntry := threaded.forward
      refine ⟨[], [], rfl, ?_, fun _ found => absurd found List.not_mem_nil, fun _ found => nomatch found⟩
      rw [insertReqSorted, if_pos empty]
      apply threaded_with worker free entry _ [] [] threaded fresh inside
      · exact ⟨rfl, unlinked.1⟩
      · exact ⟨rfl, unlinked.2⟩
      · rfl
      · rfl
      · exact fun _ _ => rfl
  | cons first rest =>
      have bound := active_bound worker (first :: rest) free threaded
      have proper : ∀ member ∈ (first :: rest).reverse, member < nrMaxParallelIo := fun member found =>
        threaded.proper member (List.mem_append_left _ (List.mem_reverse.mp found))
      obtain ⟨passed, back, split, stops, skipped, stopped⟩ := insert_place_stops worker nsecsTarget (first :: rest).reverse nrMaxParallelIo
        worker.ioSeqEnd (threaded.backward (by simp)) proper (by simpa using bound)
      have listed : first :: rest = back.reverse ++ passed.reverse := by
        rw [← List.reverse_append, ← split, List.reverse_reverse]
      have some : worker.ioSeq ≠ noEntry := by
        rw [threaded.forward.1]
        exact no_entry_outside first (threaded.proper first (by simp))
      refine ⟨back.reverse, passed.reverse, listed, ?_, ?_, ?_⟩
      · rw [insertReqSorted, if_neg some]
        dsimp only
        rw [stops]
        cases back with
        | nil =>
            have all : first :: rest = passed.reverse := by simpa using listed
            rw [List.head?_nil, Option.getD_none, if_pos rfl, List.reverse_nil, List.nil_append, ← all]
            exact insert_head worker free entry first rest threaded fresh inside unlinked.2
        | cons curr earlier =>
            have known : curr ≠ noEntry := no_entry_outside curr (proper curr (by rw [split]; simp))
            rw [List.head?_cons, Option.getD_some, if_neg known, List.reverse_cons]
            rw [List.reverse_cons] at listed
            rw [listed] at threaded fresh
            have follows := Segment.path_next _ _ _ curr earlier.reverse passed.reverse (by simpa using threaded.forward)
            cases later : passed.reverse with
            | nil =>
                rw [later] at follows threaded fresh
                have last : (worker.workQueue curr).next = noEntry := follows
                rw [if_pos last, List.append_assoc]
                exact insert_last worker free entry earlier.reverse curr (by simpa using threaded) (by simpa using fresh) inside unlinked.1
            | cons after further =>
                rw [later] at follows threaded fresh
                have next : (worker.workQueue curr).next = after := follows
                have more : after ≠ noEntry := no_entry_outside after (threaded.proper after (by simp))
                rw [next, if_neg more, List.append_assoc]
                exact insert_between worker free entry earlier.reverse further curr after (by simpa using threaded) (by simpa using fresh) inside
      · intro member found
        exact skipped member (List.mem_reverse.mp found)
      · intro member found
        rw [List.getLast?_reverse] at found
        exact stopped member found

theorem insert_ordered (left right : List Nat) (ordered : TargetsOrdered worker (left ++ right)) (target : targets worker entry = nsecsTarget)
    (place : InsertedAt worker nsecsTarget left right) : TargetsOrdered worker (left ++ entry :: right) := by
  obtain ⟨front, back, across⟩ := List.pairwise_append.mp ordered
  apply List.pairwise_append.mpr
  refine ⟨front, ?_, ?_⟩
  · apply List.pairwise_cons.mpr
    refine ⟨fun member found _ => ?_, back⟩
    rw [target]
    exact Nat.le_of_lt (place.after member found).2
  · intro early inLeft later found waits
    rcases List.mem_cons.mp found with same | inRight
    · rcases List.eq_nil_or_concat left with empty | ⟨init, last, ends⟩
      · rw [empty] at inLeft
        exact absurd inLeft List.not_mem_nil
      · have stop := place.before last (by simp [ends])
        have order : targets worker early ≤ targets worker last := by
          rw [ends, List.concat_eq_append] at front inLeft
          rcases List.mem_append.mp inLeft with inInit | isLast
          · exact (List.pairwise_append.mp front).2.2 early inInit last (by simp) waits
          · rw [List.mem_singleton.mp isLast]
        rw [same, target]
        omega
    · exact across early inLeft later inRight waits

end Insertion

theorem ordered_congr (worker other : NvmevIoWorker) (active : List Nat) (same : ∀ entry ∈ active, targets other entry = targets worker entry)
    (latest : other.latestNsecs = worker.latestNsecs) (ordered : TargetsOrdered worker active) : TargetsOrdered other active := by
  refine List.Pairwise.imp_of_mem ?_ ordered
  intro first second inFirst inSecond order waits
  rw [same first inFirst, same second inSecond]
  rw [same first inFirst, latest] at waits
  exact order waits

section Dispatching

variable (worker : NvmevIoWorker) (active free : List Nat)

theorem allocate_threaded (threaded : Threaded worker active free) :
    (∃ entry, free = [entry] ∧ allocateWorkQueueEntry worker = none) ∨
      ∃ entry rest, free = entry :: rest ∧ rest ≠ [] ∧
        allocateWorkQueueEntry worker = some (entry, { worker with freeSeq := nexts worker entry }) ∧
          Threaded { worker with freeSeq := nexts worker entry } active rest ∧ entry ∉ active ++ rest ∧ entry < nrMaxParallelIo := by
  have path := threaded.freeForward
  cases free with
  | nil =>
      have last := threaded.freeEnd
      simp at last
  | cons entry rest =>
      obtain ⟨first, further⟩ := path
      have apart := apart_of_nodup active rest entry threaded.distinct
      have inside := threaded.proper entry (by simp)
      cases rest with
      | nil =>
          left
          have ended : nexts worker entry = noEntry := further
          have next : (worker.workQueue worker.freeSeq).next = noEntry := by rw [first]; exact ended
          refine ⟨entry, rfl, ?_⟩
          simp only [allocateWorkQueueEntry, next]
          rw [if_pos (by decide)]
      | cons second rest =>
          right
          have next : (worker.workQueue worker.freeSeq).next = nexts worker entry := by rw [first]; rfl
          have follows : nexts worker entry = second := further.1
          have known : ¬nrMaxParallelIo ≤ nexts worker entry := by
            rw [follows]
            exact Nat.not_le_of_lt (threaded.proper second (by simp))
          have distinct : (active ++ second :: rest).Nodup :=
            (List.nodup_cons.mp (List.nodup_middle.mp threaded.distinct)).2
          refine ⟨entry, second :: rest, rfl, by simp, ?_, ?_, fun found => apart entry found rfl, inside⟩
          · simp only [allocateWorkQueueEntry]
            rw [next, if_neg known, first]
          · refine ⟨threaded.forward, threaded.backward, further, ?_, distinct, ?_⟩
            · have last := threaded.freeEnd
              rwa [List.getLast?_cons_cons] at last
            · intro member found
              apply threaded.proper member
              rcases List.mem_append.mp found with inActive | inFree
              · exact List.mem_append_left _ inActive
              · exact List.mem_append_right _ (List.mem_cons_of_mem _ inFree)

theorem put_work_threaded (entry : Nat) (work : NvmevIoWork) (threaded : Threaded worker active free) (fresh : entry ∉ active ++ free) :
    Threaded (putWork worker entry work) active free := by
  have same : ∀ member ∈ active ++ free, (putWork worker entry work).workQueue member = worker.workQueue member := by
    intro member found
    have other : member ≠ entry := fun same => fresh (same ▸ found)
    exact Function.update_of_ne other _ _
  refine ⟨?_, ?_, ?_, threaded.freeEnd, threaded.distinct, threaded.proper⟩
  · refine Segment.path_congr (nexts worker) _ _ _ active ?_ threaded.forward
    intro member found
    rw [nexts, same member (List.mem_append_left _ found)]
    rfl
  · intro some
    refine Segment.path_congr (prevs worker) _ _ _ active.reverse ?_ (threaded.backward some)
    intro member found
    rw [prevs, same member (List.mem_append_left _ (List.mem_reverse.mp found))]
    rfl
  · refine Segment.path_congr (nexts worker) _ _ _ free ?_ threaded.freeForward
    intro member found
    rw [nexts, same member (List.mem_append_right _ found)]
    rfl

def contentOf (work : NvmevIoWork) : NvmevIoWork := { work with next := 0, prev := 0 }

theorem relinked_content (before after : NvmevIoWorker) (relinked : Relinked before after) (entry : Nat) :
    contentOf (after.workQueue entry) = contentOf (before.workQueue entry) := by
  rw [relinked.work entry]
  rfl

theorem enqueue_threaded (item : WorkItem) (threaded : Threaded worker active free) :
    (∃ entry, free = [entry] ∧ allocateWorkQueueEntry worker = none ∧ enqueueItem worker item = worker) ∨
      ∃ entry rest left right, free = entry :: rest ∧ rest ≠ [] ∧ active = left ++ right ∧
        allocateWorkQueueEntry worker = some (entry, { worker with freeSeq := nexts worker entry }) ∧
        Threaded (enqueueItem worker item) (left ++ entry :: right) rest ∧
        (TargetsOrdered worker active → TargetsOrdered (enqueueItem worker item) (left ++ entry :: right)) ∧
        contentOf ((enqueueItem worker item).workQueue entry) = contentOf (fillWork (worker.workQueue entry) item) ∧
        (∀ other, other ≠ entry → contentOf ((enqueueItem worker item).workQueue other) = contentOf (worker.workQueue other)) ∧
        (enqueueItem worker item).latestNsecs = worker.latestNsecs := by
  rcases allocate_threaded worker active free threaded with ⟨entry, last, refused⟩ | ⟨entry, rest, taken, more, granted, popped, fresh, inside⟩
  · exact .inl ⟨entry, last, refused, by simp only [enqueueItem, refused]⟩
  · right
    have filled := put_work_threaded _ active rest entry (fillWork (worker.workQueue entry) item) popped fresh
    have unlinked : nexts (putWork { worker with freeSeq := nexts worker entry } entry (fillWork (worker.workQueue entry) item)) entry = noEntry ∧
        prevs (putWork { worker with freeSeq := nexts worker entry } entry (fillWork (worker.workQueue entry) item)) entry = noEntry := by
      cases item <;> simp [nexts, prevs, putWork, fillWork]
    have target : targets (putWork { worker with freeSeq := nexts worker entry } entry (fillWork (worker.workQueue entry) item)) entry =
        itemTarget item := by
      cases item <;> simp [targets, putWork, fillWork, itemTarget]
    have ran : enqueueItem worker item =
        insertReqSorted (putWork { worker with freeSeq := nexts worker entry } entry (fillWork (worker.workQueue entry) item)) entry
          (itemTarget item) := by
      simp only [enqueueItem, granted]
    have others : ∀ other, other ≠ entry →
        (putWork { worker with freeSeq := nexts worker entry } entry (fillWork (worker.workQueue entry) item)).workQueue other =
          worker.workQueue other := fun other apart => Function.update_of_ne apart _ _
    have latest : (putWork { worker with freeSeq := nexts worker entry } entry (fillWork (worker.workQueue entry) item)).latestNsecs =
        worker.latestNsecs := rfl
    have here : (putWork { worker with freeSeq := nexts worker entry } entry (fillWork (worker.workQueue entry) item)).workQueue entry =
        fillWork (worker.workQueue entry) item := Function.update_self _ _ _
    rw [ran]
    generalize putWork { worker with freeSeq := nexts worker entry } entry (fillWork (worker.workQueue entry) item) = middle at *
    have relinked := insert_relinked middle entry (itemTarget item)
    obtain ⟨left, right, split, inserted, place⟩ := insert_threaded middle active rest entry (itemTarget item) filled fresh inside unlinked
    refine ⟨entry, rest, left, right, taken, more, split, granted, inserted, ?_, ?_, ?_, relinked.latest.trans latest⟩
    · intro ordered
      have still : TargetsOrdered middle active := by
        refine ordered_congr worker middle active (fun member found => ?_) latest ordered
        have apart : member ≠ entry := fun same => fresh (List.mem_append_left _ (same ▸ found))
        rw [targets, others member apart]
        rfl
      rw [split] at still
      have placed := insert_ordered middle entry (itemTarget item) left right still target place
      exact ordered_congr middle _ _ (fun member _ => relinked_targets middle _ relinked member) relinked.latest placed
    · rw [relinked_content middle _ relinked, here]
    · intro other apart
      rw [relinked_content middle _ relinked, others other apart]

theorem reclaimable_prefix (members : List Nat) (fuel curr : Nat) (path : Segment.Path (nexts worker) noEntry curr members)
    (proper : ∀ member ∈ members, member < nrMaxParallelIo) (enough : members.length ≤ fuel) :
    reclaimable worker fuel curr = members.takeWhile (isReclaimable worker) := by
  induction members generalizing fuel curr with
  | nil =>
      have ended : curr = noEntry := path
      cases fuel with
      | zero => rfl
      | succ fuel => simp [reclaimable, ended]
  | cons node rest ih =>
      obtain ⟨here, further⟩ := path
      subst here
      have inside := no_entry_outside curr (proper curr List.mem_cons_self)
      cases fuel with
      | zero => simp at enough
      | succ fuel =>
          have later := ih fuel (nexts worker curr) further (fun member found => proper member (List.mem_cons_of_mem _ found))
            (by simpa using enough)
          by_cases done : isReclaimable worker curr = true
          · rw [reclaimable, if_neg inside, if_pos done, List.takeWhile_cons_of_pos done, ← later]
            rfl
          · rw [reclaimable, if_neg inside, if_neg done, List.takeWhile_cons_of_neg done]

theorem shorten_threaded (front rest : List Nat) (last : Nat) (threaded : Threaded worker (front ++ [last] ++ rest) free) :
    nexts (shortenActive worker last) = Function.update (nexts worker) last noEntry ∧
      (shortenActive worker last).ioSeq = nexts worker last ∧ (shortenActive worker last).freeSeq = worker.freeSeq ∧
      (shortenActive worker last).freeSeqEnd = worker.freeSeqEnd ∧ (shortenActive worker last).ioSeqEnd = worker.ioSeqEnd ∧
      (rest ≠ [] → Segment.Path (prevs (shortenActive worker last)) noEntry worker.ioSeqEnd rest.reverse) := by
  have follows := Segment.path_next _ _ _ last front rest (by simpa using threaded.forward)
  cases rest with
  | nil =>
      have ended : (worker.workQueue last).next = noEntry := follows
      simp only [shortenActive, ended, ne_eq, not_true, if_false, false_implies, and_true]
      exact ⟨nexts_put_next _ _ _, follows.symm, rfl, rfl, rfl⟩
  | cons after rest =>
      have next : (worker.workQueue last).next = after := follows
      have more : after ≠ noEntry := no_entry_outside after (threaded.proper after (by simp))
      have ran : shortenActive worker last = putNext (putPrev { worker with ioSeq := after } after noEntry) last noEntry := by
        simp only [shortenActive, next, if_pos more]
      rw [ran]
      refine ⟨?_, follows.symm, rfl, rfl, rfl, fun _ => ?_⟩
      · rw [nexts_put_next, nexts_put_prev]
        rfl
      · have back : prevs (putNext (putPrev { worker with ioSeq := after } after noEntry) last noEntry) =
            Function.update (prevs worker) after noEntry := by
          rw [prevs_put_next, prevs_put_prev]
          rfl
        have before := threaded.backward (by simp)
        have reversed : (front ++ [last] ++ after :: rest).reverse = (rest.reverse ++ [after]) ++ (last :: front.reverse) := by simp
        rw [reversed] at before
        have apart := apart_of_nodup (front ++ [last]) (rest ++ free) after (by simpa using threaded.distinct)
        have kept := (Segment.path_cut _ _ _ after rest.reverse _ before).1
        rw [back, List.reverse_cons]
        refine Segment.path_redirect (prevs worker) _ _ noEntry _ after rest.reverse kept (Function.update_self _ _ _) ?_
        intro member found
        exact Function.update_of_ne (apart member (by simp [List.mem_reverse.mp found])) _ _

theorem reclaim_threaded (threaded : Threaded worker active free) :
    ∃ taken rest, active = taken ++ rest ∧ taken = active.takeWhile (isReclaimable worker) ∧
      Threaded (reclaimCompletedReqs worker) rest (free ++ taken) := by
  have bound := active_bound worker active free threaded
  have passes := reclaimable_prefix worker active nrMaxParallelIo worker.ioSeq threaded.forward
    (fun member found => threaded.proper member (List.mem_append_left _ found)) bound
  refine ⟨active.takeWhile (isReclaimable worker), active.dropWhile (isReclaimable worker), List.takeWhile_append_dropWhile.symm, rfl, ?_⟩
  have parts : active.takeWhile (isReclaimable worker) ++ active.dropWhile (isReclaimable worker) = active := List.takeWhile_append_dropWhile
  generalize active.dropWhile (isReclaimable worker) = rest at parts ⊢
  rw [reclaimCompletedReqs, passes]
  generalize active.takeWhile (isReclaimable worker) = taken at parts ⊢
  rcases List.eq_nil_or_concat taken with empty | ⟨front, last, ends⟩
  · rw [empty] at parts ⊢
    rw [← parts] at threaded
    simpa using threaded
  · rw [List.concat_eq_append] at ends
    subst ends parts
    rw [List.getLast?_concat]
    dsimp only
    obtain ⟨forth, first, freeFirst, freeLast, lastEntry, back⟩ := shorten_threaded worker free front rest last threaded
    have nexts' : nexts (extendFree (shortenActive worker last) worker.ioSeq last) =
        Function.update (Function.update (nexts worker) last noEntry) worker.freeSeqEnd worker.ioSeq := by
      rw [← forth, ← freeLast]
      exact (nexts_put_next _ _ _).trans (by rw [nexts_put_prev])
    have prevs' : prevs (extendFree (shortenActive worker last) worker.ioSeq last) =
        Function.update (prevs (shortenActive worker last)) worker.ioSeq worker.freeSeqEnd := by
      rw [← freeLast]
      exact (prevs_put_next _ _ _).trans (prevs_put_prev _ _ _)
    obtain ⟨before, after⟩ := Segment.path_cut _ _ _ last front rest threaded.forward
    obtain ⟨freeFront, freeSplit⟩ : ∃ freeFront, free = freeFront ++ [worker.freeSeqEnd] := List.getLast?_eq_some_iff.mp threaded.freeEnd
    have starts : worker.ioSeq ∈ front ++ [last] := by
      rw [Segment.path_head _ _ _ _ before]
      cases front <;> simp
    have apartLast := apart_of_nodup front (rest ++ free) last (by simpa using threaded.distinct)
    have apartFree := apart_of_nodup (front ++ [last] ++ rest ++ freeFront) [] worker.freeSeqEnd (by
      rw [List.append_assoc _ freeFront, ← freeSplit]
      exact threaded.distinct)
    have apartFirst : ∀ member ∈ rest, member ≠ worker.ioSeq := by
      intro member found same
      have both := (List.nodup_append.mp (List.nodup_append.mp threaded.distinct).1).2.2
      exact both worker.ioSeq starts member found same.symm
    have moved : (rest ++ (free ++ (front ++ [last]))).Perm (front ++ [last] ++ rest ++ free) := by
      rw [← List.append_assoc]
      exact (@List.perm_append_comm _ (rest ++ free) _).trans (by rw [List.append_assoc (front ++ [last])])
    refine ⟨?_, ?_, ?_, ?_, moved.nodup_iff.mpr threaded.distinct, fun member found => threaded.proper member (moved.mem_iff.mp found)⟩
    · show Segment.Path _ noEntry (shortenActive worker last).ioSeq rest
      rw [nexts', first]
      refine Segment.path_congr (nexts worker) _ _ _ rest ?_ after
      intro member found
      rw [Function.update_of_ne (apartFree member (by simp [found])), Function.update_of_ne (apartLast member (by simp [found]))]
    · intro some
      show Segment.Path _ noEntry (shortenActive worker last).ioSeqEnd rest.reverse
      rw [prevs', lastEntry]
      refine Segment.path_congr _ _ _ _ rest.reverse ?_ (back some)
      intro member found
      exact Function.update_of_ne (apartFirst member (List.mem_reverse.mp found)) _ _
    · show Segment.Path _ noEntry (shortenActive worker last).freeSeq _
      rw [nexts', freeFirst]
      apply (Segment.path_append _ _ _ free (front ++ [last])).mpr
      refine ⟨worker.ioSeq, ?_, ?_⟩
      · have path := threaded.freeForward
        rw [freeSplit] at path ⊢
        refine Segment.path_redirect (nexts worker) _ _ worker.ioSeq _ worker.freeSeqEnd freeFront path (Function.update_self _ _ _) ?_
        intro member found
        rw [Function.update_of_ne (apartFree member (by simp [found])),
          Function.update_of_ne (apartLast member (by rw [freeSplit]; simp [found]))]
      · refine Segment.path_redirect (nexts worker) _ _ noEntry _ last front before ?_ ?_
        · rw [Function.update_of_ne (apartFree last (by simp)), Function.update_self]
        · intro member found
          rw [Function.update_of_ne (apartFree member (by simp [found])), Function.update_of_ne (apartLast member (by simp [found]))]
    · show (free ++ (front ++ [last])).getLast? = some last
      rw [← List.append_assoc, List.getLast?_concat]

end Dispatching

end ConZone
