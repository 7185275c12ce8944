import ConZone.Params
import ConZone.Run
import ConZone.WrapAround

set_option autoImplicit false

namespace ConZone

structure SqStat where
  nrDispatched : Nat
  nrDispatch : Nat
  nrInFlight : Nat
  maxNrInFlight : Nat
  totalIo : Nat

structure SubmissionQueue where
  queueSize : Nat
  stat : SqStat

-- One run of the loop of nvmev_proc_io_sq. dispatched lists the slots whose
-- __nvmev_proc_io returned true.
structure Batch where
  seq : Nat
  sqEntry : Int
  stat : SqStat
  dispatched : List Int

def countDispatched (stat : SqStat) (ioSize : Nat) : SqStat :=
  { stat with nrDispatched := u32 (stat.nrDispatched + 1), nrInFlight := u32 (stat.nrInFlight + 1),
              totalIo := u64 (stat.totalIo + ioSize) }

-- procIo is __nvmev_proc_io of the queue's slots: none is its false, otherwise
-- the size of the I/O.
def procIoSqLoop (queueSize : Int) (procIo : Int → Option Nat) : Nat → Batch → Batch
  | 0, batch => batch
  | left + 1, batch =>
      match procIo batch.sqEntry with
      | none => batch
      | some ioSize =>
          let sqEntry := if batch.sqEntry + 1 = queueSize then 0 else batch.sqEntry + 1
          procIoSqLoop queueSize procIo left
            ⟨batch.seq + 1, sqEntry, countDispatched batch.stat ioSize, batch.dispatched ++ [batch.sqEntry]⟩

def countDispatch (stat : SqStat) : SqStat :=
  { stat with nrDispatch := u32 (stat.nrDispatch + 1), maxNrInFlight := max stat.maxNrInFlight stat.nrInFlight }

-- The doorbell it returns, the queue and the slots it dispatched.
def nvmevProcIoSq (sq : SubmissionQueue) (procIo : Int → Option Nat) (newDb oldDb : Int) : Int × SubmissionQueue × List Int :=
  let numProc := if newDb - oldDb < 0 then newDb - oldDb + sq.queueSize else newDb - oldDb
  let batch := procIoSqLoop sq.queueSize procIo numProc.toNat ⟨0, oldDb, sq.stat, []⟩
  ((oldDb + batch.seq).tmod sq.queueSize, { sq with stat := countDispatch batch.stat }, batch.dispatched)

-- The submission side of the device and, of each queue, how many commands the
-- host has announced so far and the slots dispatched so far.
structure SqSide where
  sqes : Nat → Option SubmissionQueue
  nrSq : Nat
  dbs : Nat → Int
  oldDbs : Nat → Int
  announced : Nat → Nat
  log : Nat → List Int

def procSq (procIo : Nat → Int → Option Nat) (state : SqSide) (qid : Nat) : SqSide :=
  match state.sqes qid with
  | none => state
  | some sq =>
      if state.dbs (qid * 2) = state.oldDbs (qid * 2) then state
      else
        let (latestDb, after, slots) := nvmevProcIoSq sq (procIo qid) (state.dbs (qid * 2)) (state.oldDbs (qid * 2))
        { state with sqes := Function.update state.sqes qid (some after),
                     oldDbs := Function.update state.oldDbs (qid * 2) latestDb,
                     log := Function.update state.log qid (state.log qid ++ slots) }

-- The submission queues in nvmev_proc_dbs.
def procDbsSq (state : SqSide) (procIo : Nat → Int → Option Nat) : SqSide :=
  ((List.range state.nrSq).map (· + 1)).foldl (procSq procIo) state

def announcedBy (state : SqSide) (qid queueSize db : Nat) : Nat :=
  state.announced qid + (db + queueSize - state.announced qid % queueSize) % queueSize

inductive SqEvent where
  | ring (qid db : Nat)
  | poll (procIo : Nat → Int → Option Nat)

-- The host rings for a position in the queue and never runs over commands that
-- are still to be dispatched.
inductive SqStep : SqSide → SqEvent → SqSide → Prop where
  | ring (state : SqSide) (qid db : Nat) (sq : SubmissionQueue) (created : state.sqes qid = some sq) (inRange : db < sq.queueSize)
      (room : announcedBy state qid sq.queueSize db < (state.log qid).length + sq.queueSize) :
      SqStep state (.ring qid db)
        { state with dbs := Function.update state.dbs (qid * 2) db,
                     announced := Function.update state.announced qid (announcedBy state qid sq.queueSize db) }
  | poll (state : SqSide) (procIo : Nat → Int → Option Nat) : SqStep state (.poll procIo) (procDbsSq state procIo)

-- __nvmev_admin_create_sq leaves both doorbells at zero.
structure SqInit (state : SqSide) : Prop where
  sizes : ∀ qid sq, state.sqes qid = some sq → 0 < sq.queueSize
  dbs : ∀ qid, state.dbs (qid * 2) = 0
  oldDbs : ∀ qid, state.oldDbs (qid * 2) = 0
  announced : ∀ qid, state.announced qid = 0
  log : ∀ qid, state.log qid = []

def sqSystem : TransitionSystem.System SqSide SqEvent := ⟨SqInit, SqStep⟩

def slotsFrom (queueSize start count : Nat) : List Int :=
  (List.range count).map fun index => (((start + index) % queueSize : Nat) : Int)

structure QueueInOrder (state : SqSide) (qid : Nat) (sq : SubmissionQueue) : Prop where
  size : 0 < sq.queueSize
  log : state.log qid = slotsFrom sq.queueSize 0 (state.log qid).length
  behind : (state.log qid).length ≤ state.announced qid
  near : state.announced qid < (state.log qid).length + sq.queueSize
  db : state.dbs (qid * 2) = ((state.announced qid % sq.queueSize : Nat) : Int)
  oldDb : state.oldDbs (qid * 2) = (((state.log qid).length % sq.queueSize : Nat) : Int)

def InOrder (state : SqSide) : Prop := ∀ qid sq, state.sqes qid = some sq → QueueInOrder state qid sq

-- count slots from the given command on answered true, and the next one, if a
-- command waits there, did not.
structure Granted (procIo : Int → Option Nat) (queueSize start waiting count : Nat) : Prop where
  within : count ≤ waiting
  granted : ∀ slot ∈ slotsFrom queueSize start count, procIo slot ≠ none
  refused : count < waiting → procIo (((start + count) % queueSize : Nat) : Int) = none

section Dispatch

theorem slots_from_length (queueSize start count : Nat) : (slotsFrom queueSize start count).length = count := by
  simp [slotsFrom]

theorem slots_from_succ (queueSize start count : Nat) :
    slotsFrom queueSize start (count + 1) = slotsFrom queueSize start count ++ [(((start + count) % queueSize : Nat) : Int)] := by
  simp [slotsFrom, List.range_succ]

theorem slots_from_append (queueSize start count more : Nat) :
    slotsFrom queueSize start count ++ slotsFrom queueSize (start + count) more = slotsFrom queueSize start (count + more) := by
  simp [slotsFrom, List.range_add, Nat.add_assoc]

theorem proc_io_sq_loop_in_order (queueSize start : Nat) (some : 0 < queueSize) (procIo : Int → Option Nat) (left : Nat) (batch : Batch)
    (slot : batch.sqEntry = (((start + batch.seq) % queueSize : Nat) : Int)) (taken : batch.dispatched = slotsFrom queueSize start batch.seq)
    (granted : ∀ slot ∈ slotsFrom queueSize start batch.seq, procIo slot ≠ none) :
    let after := procIoSqLoop queueSize procIo left batch
    Granted procIo queueSize start (batch.seq + left) after.seq ∧ after.dispatched = slotsFrom queueSize start after.seq := by
  induction left generalizing batch with
  | zero => exact ⟨⟨Nat.le_refl _, granted, fun waits => absurd waits (Nat.lt_irrefl _)⟩, taken⟩
  | succ left ih =>
      unfold procIoSqLoop
      cases answer : procIo batch.sqEntry with
      | none =>
          rw [slot] at answer
          exact ⟨⟨Nat.le_add_right _ _, granted, fun _ => answer⟩, taken⟩
      | some ioSize =>
          dsimp only
          have next := WrapAround.next_position queueSize (start + batch.seq) some
          have after := ih ⟨batch.seq + 1, if batch.sqEntry + 1 = queueSize then 0 else batch.sqEntry + 1,
            countDispatched batch.stat ioSize, batch.dispatched ++ [batch.sqEntry]⟩ ?_ ?_ ?_
          · dsimp only at after
            rw [show batch.seq + (left + 1) = batch.seq + 1 + left by omega]
            exact after
          · dsimp only
            rw [slot, ← Nat.add_assoc, ← next]
            split_ifs <;> omega
          · dsimp only
            rw [slots_from_succ, taken, slot]
          · dsimp only
            intro other there
            rw [slots_from_succ, List.mem_append, List.mem_singleton, ← slot] at there
            rcases there with before | here
            · exact granted other before
            · rw [here, answer]
              exact Option.some_ne_none ioSize

theorem nvmev_proc_io_sq_in_order (sq : SubmissionQueue) (procIo : Int → Option Nat) (announced start : Nat) (some : 0 < sq.queueSize)
    (behind : start ≤ announced) (near : announced < start + sq.queueSize) :
    ∃ count, Granted procIo sq.queueSize start (announced - start) count ∧
      (nvmevProcIoSq sq procIo ((announced % sq.queueSize : Nat) : Int) ((start % sq.queueSize : Nat) : Int)).1 =
        (((start + count) % sq.queueSize : Nat) : Int) ∧
      (nvmevProcIoSq sq procIo ((announced % sq.queueSize : Nat) : Int) ((start % sq.queueSize : Nat) : Int)).2.1.queueSize =
        sq.queueSize ∧
      (nvmevProcIoSq sq procIo ((announced % sq.queueSize : Nat) : Int) ((start % sq.queueSize : Nat) : Int)).2.2 =
        slotsFrom sq.queueSize start count := by
  have length := WrapAround.distance sq.queueSize announced start behind near
  unfold nvmevProcIoSq
  dsimp only
  push_cast
  rw [length, Int.toNat_natCast]
  have loop := proc_io_sq_loop_in_order sq.queueSize start some procIo (announced - start)
    ⟨0, ((start % sq.queueSize : Nat) : Int), sq.stat, []⟩ rfl rfl (fun _ there => by cases there)
  push_cast at loop
  generalize procIoSqLoop sq.queueSize procIo (announced - start) _ = batch at loop
  obtain ⟨answers, slots⟩ := loop
  rw [Nat.zero_add] at answers
  refine ⟨batch.seq, answers, ?_, rfl, slots⟩
  have nonneg : (0 : Int) ≤ (start : Int) % sq.queueSize + batch.seq := by
    have := Int.emod_nonneg (start : Int) (show (sq.queueSize : Int) ≠ 0 by omega)
    omega
  rw [Int.tmod_eq_emod_of_nonneg nonneg, Int.emod_add_emod]

theorem proc_sq_rung (procIo : Nat → Int → Option Nat) (state : SqSide) (qid : Nat) :
    (procSq procIo state qid).dbs = state.dbs ∧ (procSq procIo state qid).announced = state.announced := by
  unfold procSq
  split
  · exact ⟨rfl, rfl⟩
  · split_ifs
    · exact ⟨rfl, rfl⟩
    · exact ⟨rfl, rfl⟩

theorem proc_sq_other (procIo : Nat → Int → Option Nat) (state : SqSide) (qid other : Nat) (apart : other ≠ qid) :
    (procSq procIo state qid).sqes other = state.sqes other ∧ (procSq procIo state qid).log other = state.log other ∧
      (procSq procIo state qid).oldDbs (other * 2) = state.oldDbs (other * 2) := by
  unfold procSq
  split
  · exact ⟨rfl, rfl, rfl⟩
  · split_ifs
    · exact ⟨rfl, rfl, rfl⟩
    · exact ⟨Function.update_of_ne apart _ _, Function.update_of_ne apart _ _, Function.update_of_ne (by omega) _ _⟩

-- Equal doorbells mean that no command waits, since fewer than a whole ring do.
theorem none_waiting (state : SqSide) (qid : Nat) (sq : SubmissionQueue) (own : QueueInOrder state qid sq)
    (idle : state.dbs (qid * 2) = state.oldDbs (qid * 2)) : state.announced qid = (state.log qid).length := by
  rw [own.db, own.oldDb, Nat.cast_inj] at idle
  by_contra ahead
  have behind := own.behind
  exact WrapAround.positions_apart sq.queueSize _ _ (by omega) own.near idle.symm

theorem proc_sq_dispatches (procIo : Nat → Int → Option Nat) (state : SqSide) (qid : Nat) (sq : SubmissionQueue)
    (created : state.sqes qid = some sq) (own : QueueInOrder state qid sq) :
    ∃ after count, (procSq procIo state qid).sqes qid = some after ∧ after.queueSize = sq.queueSize ∧
      Granted (procIo qid) sq.queueSize (state.log qid).length (state.announced qid - (state.log qid).length) count ∧
      (procSq procIo state qid).log qid = state.log qid ++ slotsFrom sq.queueSize (state.log qid).length count ∧
      (procSq procIo state qid).oldDbs (qid * 2) = ((((state.log qid).length + count) % sq.queueSize : Nat) : Int) := by
  unfold procSq
  simp only [created]
  by_cases idle : state.dbs (qid * 2) = state.oldDbs (qid * 2)
  · rw [if_pos idle]
    have nothing := none_waiting state qid sq own idle
    refine ⟨sq, 0, created, rfl, ⟨Nat.zero_le _, ?_, ?_⟩, (List.append_nil _).symm, own.oldDb⟩
    · intro slot there
      cases there
    · intro waits
      omega
  · rw [if_neg idle]
    obtain ⟨count, answers, latest, size, slots⟩ :=
      nvmev_proc_io_sq_in_order sq (procIo qid) (state.announced qid) (state.log qid).length own.size own.behind own.near
    rw [← own.db, ← own.oldDb] at latest size slots
    generalize nvmevProcIoSq sq (procIo qid) (state.dbs (qid * 2)) (state.oldDbs (qid * 2)) = polled at latest size slots
    obtain ⟨latestDb, after, taken⟩ := polled
    dsimp only at latest size slots ⊢
    refine ⟨after, count, Function.update_self .., size, answers, ?_, ?_⟩
    · rw [Function.update_self, slots]
    · rw [Function.update_self, latest]

theorem proc_sq_in_order (procIo : Nat → Int → Option Nat) (state : SqSide) (qid : Nat) (ordered : InOrder state) :
    InOrder (procSq procIo state qid) := by
  obtain ⟨rung, told⟩ := proc_sq_rung procIo state qid
  intro other queue created
  by_cases same : other = qid
  · subst same
    cases found : state.sqes other with
    | none =>
        have unchanged : procSq procIo state other = state := by
          unfold procSq
          rw [found]
        rw [unchanged, found] at created
        cases created
    | some sq =>
        have own := ordered other sq found
        obtain ⟨after, count, here, size, answers, log, oldDb⟩ := proc_sq_dispatches procIo state other sq found own
        have same : after = queue := by simpa [here] using created
        subst same
        have length : ((procSq procIo state other).log other).length = (state.log other).length + count := by
          rw [log, List.length_append, slots_from_length]
        have within := answers.within
        have behind := own.behind
        have near := own.near
        refine ⟨by rw [size]; exact own.size, ?_, by rw [length, told]; omega, by rw [length, told, size]; omega, ?_, ?_⟩
        · have all := slots_from_append sq.queueSize 0 (state.log other).length count
          rw [Nat.zero_add, ← own.log] at all
          rw [length, log, size, all]
        · rw [rung, told, size]
          exact own.db
        · rw [oldDb, length, size]
  · obtain ⟨there, log, oldDb⟩ := proc_sq_other procIo state qid other same
    have kept := ordered other queue (there ▸ created)
    refine ⟨kept.size, ?_, ?_, ?_, ?_, ?_⟩
    all_goals simp only [log, rung, told, oldDb]
    · exact kept.log
    · exact kept.behind
    · exact kept.near
    · exact kept.db
    · exact kept.oldDb

theorem proc_sqs_in_order (procIo : Nat → Int → Option Nat) (qids : List Nat) (state : SqSide) (ordered : InOrder state) :
    InOrder (qids.foldl (procSq procIo) state) := by
  induction qids generalizing state with
  | nil => exact ordered
  | cons qid rest ih => exact ih (procSq procIo state qid) (proc_sq_in_order procIo state qid ordered)

theorem proc_sqs_other (procIo : Nat → Int → Option Nat) (qids : List Nat) (state : SqSide) (other : Nat) (apart : other ∉ qids) :
    (qids.foldl (procSq procIo) state).log other = state.log other ∧
      (qids.foldl (procSq procIo) state).oldDbs (other * 2) = state.oldDbs (other * 2) := by
  induction qids generalizing state with
  | nil => exact ⟨rfl, rfl⟩
  | cons qid rest ih =>
      rw [List.mem_cons, not_or] at apart
      obtain ⟨_, log, oldDb⟩ := proc_sq_other procIo state qid other apart.1
      obtain ⟨restLog, restOldDb⟩ := ih (procSq procIo state qid) apart.2
      exact ⟨restLog.trans log, restOldDb.trans oldDb⟩

theorem proc_sqs_dispatch (procIo : Nat → Int → Option Nat) (qids : List Nat) (once : qids.Nodup) (state : SqSide)
    (ordered : InOrder state) (qid : Nat) (sq : SubmissionQueue) (created : state.sqes qid = some sq) (polled : qid ∈ qids) :
    ∃ count, Granted (procIo qid) sq.queueSize (state.log qid).length (state.announced qid - (state.log qid).length) count ∧
      (qids.foldl (procSq procIo) state).log qid = state.log qid ++ slotsFrom sq.queueSize (state.log qid).length count ∧
      (qids.foldl (procSq procIo) state).oldDbs (qid * 2) = ((((state.log qid).length + count) % sq.queueSize : Nat) : Int) := by
  induction qids generalizing state with
  | nil => cases polled
  | cons first rest ih =>
      rw [List.nodup_cons] at once
      rw [List.foldl_cons]
      by_cases here : qid = first
      · subst here
        obtain ⟨_, count, _, _, answers, log, oldDb⟩ := proc_sq_dispatches procIo state qid sq created (ordered qid sq created)
        obtain ⟨restLog, restOldDb⟩ := proc_sqs_other procIo rest (procSq procIo state qid) qid once.1
        exact ⟨count, answers, restLog.trans log, restOldDb.trans oldDb⟩
      · obtain ⟨there, log, _⟩ := proc_sq_other procIo state first qid here
        obtain ⟨count, answers, restLog, restOldDb⟩ := ih once.2 (procSq procIo state first)
          (proc_sq_in_order procIo state first ordered) (there.trans created) ((List.mem_cons.mp polled).resolve_left here)
        rw [(proc_sq_rung procIo state first).2, log] at answers
        rw [log] at restLog restOldDb
        exact ⟨count, answers, restLog, restOldDb⟩

theorem proc_dbs_sq_in_order (state : SqSide) (procIo : Nat → Int → Option Nat) (ordered : InOrder state) :
    InOrder (procDbsSq state procIo) := proc_sqs_in_order procIo _ state ordered

theorem proc_dbs_sq_dispatch (state : SqSide) (procIo : Nat → Int → Option Nat) (ordered : InOrder state) (qid : Nat)
    (sq : SubmissionQueue) (created : state.sqes qid = some sq) (first : 0 < qid) (last : qid ≤ state.nrSq) :
    ∃ count, Granted (procIo qid) sq.queueSize (state.log qid).length (state.announced qid - (state.log qid).length) count ∧
      (procDbsSq state procIo).log qid = state.log qid ++ slotsFrom sq.queueSize (state.log qid).length count ∧
      (procDbsSq state procIo).oldDbs (qid * 2) = ((((state.log qid).length + count) % sq.queueSize : Nat) : Int) := by
  refine proc_sqs_dispatch procIo _ (List.nodup_range.map fun _ _ same => Nat.succ.inj same) state ordered qid sq created ?_
  exact List.mem_map.mpr ⟨qid - 1, List.mem_range.mpr (by omega), by omega⟩

theorem ring_in_order (state : SqSide) (qid db : Nat) (sq : SubmissionQueue) (created : state.sqes qid = some sq)
    (inRange : db < sq.queueSize) (room : announcedBy state qid sq.queueSize db < (state.log qid).length + sq.queueSize)
    (ordered : InOrder state) :
    InOrder { state with dbs := Function.update state.dbs (qid * 2) db,
                         announced := Function.update state.announced qid (announcedBy state qid sq.queueSize db) } := by
  intro other queue exists'
  have kept := ordered other queue exists'
  by_cases same : other = qid
  · subst same
    have here : sq = queue := by simpa [created] using exists'
    subst here
    have behind := kept.behind
    refine ⟨kept.size, kept.log, ?_, ?_, ?_, kept.oldDb⟩
    all_goals simp only [Function.update_self]
    · unfold announcedBy
      omega
    · exact room
    · unfold announcedBy
      rw [WrapAround.ahead sq.queueSize (state.announced other) db inRange]
  · have apart : other * 2 ≠ qid * 2 := by omega
    refine ⟨kept.size, kept.log, ?_, ?_, ?_, kept.oldDb⟩
    all_goals simp only [Function.update_of_ne same, Function.update_of_ne apart]
    · exact kept.behind
    · exact kept.near
    · exact kept.db

theorem in_order_invariant (allowed : SqSide → SqEvent → Prop) : TransitionSystem.Invariant sqSystem allowed InOrder := by
  refine ⟨?_, ?_⟩
  · intro state init qid sq created
    refine ⟨init.sizes qid sq created, ?_, ?_, ?_, ?_, ?_⟩
    all_goals simp only [init.log, init.announced, init.dbs, init.oldDbs, List.length_nil, Nat.zero_mod]
    · rfl
    · exact Nat.le_refl 0
    · have size := init.sizes qid sq created
      omega
    · rfl
    · rfl
  · intro state next event ordered _ taken
    cases taken with
    | ring qid db sq created inRange room => exact ring_in_order state qid db sq created inRange room ordered
    | poll procIo => exact proc_dbs_sq_in_order state procIo ordered

end Dispatch

-- Of every queue the slots dispatched are 0, 1, 2, ... around the ring, none
-- beyond the last doorbell, and old_dbs names the next one. The next poll
-- dispatches exactly the waiting slots for which __nvmev_proc_io returns true,
-- up to the first for which it does not.
theorem dispatched_in_order (state : SqSide) (reached : TransitionSystem.Reach sqSystem (fun _ _ => True) state) (qid : Nat)
    (sq : SubmissionQueue) (created : state.sqes qid = some sq) :
    (state.log qid = slotsFrom sq.queueSize 0 (state.log qid).length ∧ (state.log qid).length ≤ state.announced qid ∧
        state.dbs (qid * 2) = ((state.announced qid % sq.queueSize : Nat) : Int) ∧
        state.oldDbs (qid * 2) = (((state.log qid).length % sq.queueSize : Nat) : Int)) ∧
      (0 < qid → qid ≤ state.nrSq → ∀ procIo : Nat → Int → Option Nat, ∃ count,
        Granted (procIo qid) sq.queueSize (state.log qid).length (state.announced qid - (state.log qid).length) count ∧
        (procDbsSq state procIo).log qid = state.log qid ++ slotsFrom sq.queueSize (state.log qid).length count ∧
        (procDbsSq state procIo).oldDbs (qid * 2) = ((((state.log qid).length + count) % sq.queueSize : Nat) : Int)) := by
  have ordered := TransitionSystem.reach_invariant _ _ InOrder (in_order_invariant _) state reached
  have own := ordered qid sq created
  exact ⟨⟨own.log, own.behind, own.db, own.oldDb⟩,
    fun first last procIo => proc_dbs_sq_dispatch state procIo ordered qid sq created first last⟩

-- One queue of four slots: three commands, of which two are taken, then two more.
def fourSlots : SqSide :=
  { sqes := fun qid => if qid = 1 then some ⟨4, ⟨0, 0, 0, 0, 0⟩⟩ else none, nrSq := 1, dbs := fun _ => 0, oldDbs := fun _ => 0,
    announced := fun _ => 0, log := fun _ => [] }

def takeTwo (_ : Nat) (slot : Int) : Option Nat := if slot < 2 then some 4096 else none
def takeAll (_ : Nat) (_ : Int) : Option Nat := some 4096

theorem four_slots_in_order :
    ∃ state, TransitionSystem.Reach sqSystem (fun _ _ => True) state ∧ state.log 1 = [0, 1] ∧
      (procDbsSq state takeAll).log 1 = [0, 1, 2, 3, 0] ∧
      (state.log 1 = slotsFrom 4 0 (state.log 1).length ∧ (state.log 1).length ≤ state.announced 1 ∧
        state.dbs (1 * 2) = ((state.announced 1 % 4 : Nat) : Int) ∧ state.oldDbs (1 * 2) = (((state.log 1).length % 4 : Nat) : Int)) ∧
      ∃ count, Granted (takeAll 1) 4 (state.log 1).length (state.announced 1 - (state.log 1).length) count ∧
        (procDbsSq state takeAll).log 1 = state.log 1 ++ slotsFrom 4 (state.log 1).length count ∧
        (procDbsSq state takeAll).oldDbs (1 * 2) = ((((state.log 1).length + count) % 4 : Nat) : Int) := by
  have start : TransitionSystem.Reach sqSystem (fun _ _ => True) fourSlots := by
    refine .start _ ⟨?_, fun _ => rfl, fun _ => rfl, fun _ => rfl, fun _ => rfl⟩
    intro qid sq created
    by_cases first : qid = 1
    · simp only [fourSlots, if_pos first] at created
      cases created
      decide
    · simp only [fourSlots, if_neg first] at created
      cases created
  have rung := TransitionSystem.Reach.next _ _ _ start trivial (.ring fourSlots 1 3 _ rfl (by decide) (by decide))
  have polled := TransitionSystem.Reach.next _ _ _ rung trivial (.poll _ takeTwo)
  have again := TransitionSystem.Reach.next _ _ _ polled trivial (.ring _ 1 1 _ rfl (by decide) (by decide))
  obtain ⟨ordered, next⟩ := dispatched_in_order _ again 1 _ rfl
  exact ⟨_, again, by decide, by decide, ordered, next (by decide) (by decide) takeAll⟩

end ConZone
