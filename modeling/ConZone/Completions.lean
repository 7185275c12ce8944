import ConZone.Doorbells
import Mathlib.Data.Nat.Bitwise

set_option autoImplicit false

namespace ConZone

structure Cqe where
  commandId : Nat
  sqId : Nat
  sqHead : Nat
  status : Nat
  result0 : Nat
  result1 : Nat

structure CompletionQueue where
  queueSize : Nat
  phase : Nat
  cqHead : Nat
  cqTail : Int
  interruptReady : Bool
  entries : Nat → Cqe

-- What __fill_cq_result takes from a work entry.
structure CompletedWork where
  sqid : Nat
  sqEntry : Nat
  commandId : Nat
  status : Nat
  result0 : Nat
  result1 : Nat

def filledCqe (phase : Nat) (w : CompletedWork) : Cqe :=
  ⟨w.commandId, w.sqid, w.sqEntry, (phase ||| (w.status <<< 1)) % 2 ^ 16, w.result0, w.result1⟩

-- The part of __fill_cq_result under entry_lock. The head and the entry it
-- points to have been read before.
def fillCqResult (cq : CompletionQueue) (cqHead : Nat) (w : CompletedWork) : CompletionQueue :=
  let wraps := decide (cqHead + 1 = cq.queueSize)
  { cq with entries := Function.update cq.entries cqHead (filledCqe cq.phase w),
            phase := if wraps then (if cq.phase = 0 then 1 else 0) else cq.phase,
            cqHead := if wraps then 0 else cqHead + 1, interruptReady := true }

def countConsumed (sqes : Nat → Option SubmissionQueue) (sqid : Nat) : Nat → Option SubmissionQueue :=
  match sqes sqid with
  | none => sqes
  | some sq =>
      Function.update sqes sqid (some { sq with stat := { sq.stat with nrInFlight := u32 (sq.stat.nrInFlight + 2 ^ 32 - 1) } })

-- The loop of nvmev_proc_io_cq. fuel allows for one lap and the step at its end.
def procIoCqLoop (cq : CompletionQueue) (newDb : Int) : Nat → Int → (Nat → Option SubmissionQueue) → Nat → Option SubmissionQueue
  | 0, _, sqes => sqes
  | fuel + 1, i, sqes =>
      if i = newDb then sqes
      else if cq.queueSize ≤ i then procIoCqLoop cq newDb fuel 0 sqes
      else procIoCqLoop cq newDb fuel (i + 1) (countConsumed sqes (cq.entries i.toNat).sqId)

def nvmevProcIoCq (cq : CompletionQueue) (sqes : Nat → Option SubmissionQueue) (newDb oldDb : Int) :
    CompletionQueue × (Nat → Option SubmissionQueue) :=
  ({ cq with cqTail := if newDb = -1 then cq.queueSize - 1 else newDb - 1 },
    procIoCqLoop cq newDb (cq.queueSize + 2) oldDb sqes)

-- One completion queue with its doorbell, what each worker is about to post and
-- the head it has read, how many completions the host has taken by its last
-- doorbell, and all that were posted, with their slots.
structure CqSide where
  cq : CompletionQueue
  sqes : Nat → Option SubmissionQueue
  db : Int
  oldDb : Int
  fetched : Nat → Option (Nat × CompletedWork)
  consumed : Nat
  log : List (Nat × Cqe)

def consumedBy (state : CqSide) (db : Nat) : Nat :=
  state.consumed + (db + state.cq.queueSize - state.consumed % state.cq.queueSize) % state.cq.queueSize

def fetchHead (state : CqSide) (worker : Nat) (work : CompletedWork) : CqSide :=
  { state with fetched := Function.update state.fetched worker (some (state.cq.cqHead, work)) }

def postCqe (state : CqSide) (worker cqHead : Nat) (work : CompletedWork) : CqSide :=
  { state with cq := fillCqResult state.cq cqHead work, fetched := Function.update state.fetched worker none,
               log := state.log ++ [(cqHead, filledCqe state.cq.phase work)] }

-- The completion queue in nvmev_proc_dbs.
def procDbsCq (state : CqSide) : CqSide :=
  if state.db = state.oldDb then state
  else
    let (cq, sqes) := nvmevProcIoCq state.cq state.sqes state.db state.oldDb
    { state with cq := cq, sqes := sqes, oldDb := state.db }

inductive CqEvent where
  | fetch (worker : Nat) (work : CompletedWork)
  | fill (worker : Nat)
  | consume (db : Nat)
  | poll

inductive CqStep : CqSide → CqEvent → CqSide → Prop where
  | fetch (state : CqSide) (worker : Nat) (work : CompletedWork) (free : state.fetched worker = none) :
      CqStep state (.fetch worker work) (fetchHead state worker work)
  | fill (state : CqSide) (worker cqHead : Nat) (work : CompletedWork) (ready : state.fetched worker = some (cqHead, work)) :
      CqStep state (.fill worker) (postCqe state worker cqHead work)
  | consume (state : CqSide) (db : Nat) (inRange : db < state.cq.queueSize) (posted : consumedBy state db ≤ state.log.length) :
      CqStep state (.consume db) { state with db := db, consumed := consumedBy state db }
  | poll (state : CqSide) : CqStep state .poll (procDbsCq state)

-- __nvmev_admin_create_cq.
structure CqInit (state : CqSide) : Prop where
  size : 0 < state.cq.queueSize
  phase : state.cq.phase = 1
  head : state.cq.cqHead = 0
  idle : ∀ worker, state.fetched worker = none
  consumed : state.consumed = 0
  log : state.log = []

def cqSystem : TransitionSystem.System CqSide CqEvent := ⟨CqInit, CqStep⟩

-- 1 on even passes over the ring, 0 on odd ones.
def passPhase (queueSize k : Nat) : Nat := if k / queueSize % 2 = 0 then 1 else 0

-- The k-th completion is in slot k around the ring, with the phase of its pass,
-- and stays there until the host has taken it.
structure CqeInTurn (state : CqSide) (k slot : Nat) (cqe : Cqe) : Prop where
  place : slot = k % state.cq.queueSize
  phase : cqe.status % 2 = passPhase state.cq.queueSize k
  kept : state.consumed ≤ k → state.cq.entries slot = cqe

def CqDisciplined (state : CqSide) : Prop :=
  ∀ k slot cqe, state.log[k]? = some (slot, cqe) → CqeInTurn state k slot cqe

-- A worker posts under the head it has read only if no other has posted in
-- between, and only into a slot the host has taken the last completion from.
def PostsInTurn (state : CqSide) : CqEvent → Prop
  | .fill worker => ∀ cqHead work, state.fetched worker = some (cqHead, work) →
      cqHead = state.cq.cqHead ∧ state.log.length < state.consumed + state.cq.queueSize
  | _ => True

structure Posting (state : CqSide) : Prop where
  size : 0 < state.cq.queueSize
  head : state.cq.cqHead = state.log.length % state.cq.queueSize
  phase : state.cq.phase = passPhase state.cq.queueSize state.log.length
  disciplined : CqDisciplined state

section Passes

theorem filled_phase (phase : Nat) (work : CompletedWork) (bit : phase ≤ 1) : (filledCqe phase work).status % 2 = phase := by
  have cut : ((phase ||| (work.status <<< 1)) % 2 ^ 16) % 2 = (phase ||| (work.status <<< 1)) % 2 :=
    Nat.mod_mod_of_dvd _ (by decide)
  have even : (work.status <<< 1) % 2 = 0 := by
    rw [Nat.shiftLeft_eq]
    omega
  have odd := Nat.or_mod_two_eq_one (a := phase) (b := work.status <<< 1)
  unfold filledCqe
  dsimp only
  rw [cut]
  omega

theorem pass_phase_bit (size total : Nat) : passPhase size total ≤ 1 := by
  unfold passPhase
  split <;> omega

theorem pass_phase_wraps (size total : Nat) (some : 0 < size) (wraps : total % size + 1 = size) :
    passPhase size (total + 1) = if passPhase size total = 0 then 1 else 0 := by
  have split := Nat.div_add_mod total size
  have whole : total + 1 = size * (total / size + 1) := by
    rw [Nat.mul_add]
    omega
  have next : (total + 1) / size = total / size + 1 := by rw [whole, Nat.mul_div_cancel_left _ some]
  simp only [passPhase, next]
  split_ifs <;> omega

theorem pass_phase_same (size total : Nat) (some : 0 < size) (inner : total % size + 1 ≠ size) :
    passPhase size (total + 1) = passPhase size total := by
  have inside := Nat.mod_lt total some
  have split := Nat.div_add_mod total size
  have form : total + 1 = size * (total / size) + (total % size + 1) := by omega
  have same : (total + 1) / size = total / size := by
    rw [form, Nat.mul_add_div some, Nat.div_eq_of_lt (show total % size + 1 < size by omega), Nat.add_zero]
  simp only [passPhase, same]

-- The slot of the completion one lap ago has the other phase.
theorem pass_before (size total : Nat) (some : 0 < size) (lap : size ≤ total) :
    (total - size) % size = total % size ∧ passPhase size (total - size) ≠ passPhase size total := by
  obtain ⟨earlier, same⟩ := Nat.exists_eq_add_of_le' lap
  subst same
  have next : (earlier + size) / size = earlier / size + 1 := Nat.add_div_right _ some
  rw [Nat.add_sub_cancel, Nat.add_mod_right]
  refine ⟨rfl, ?_⟩
  simp only [passPhase, next]
  split_ifs <;> omega

end Passes

section Posts

theorem fill_posting (state : CqSide) (worker : Nat) (work : CompletedWork) (posting : Posting state)
    (room : state.log.length < state.consumed + state.cq.queueSize) :
    Posting (postCqe state worker state.cq.cqHead work) := by
  have some := posting.size
  have next := WrapAround.next_position state.cq.queueSize state.log.length some
  have bit : state.cq.phase ≤ 1 := by
    rw [posting.phase]
    exact pass_phase_bit _ _
  refine ⟨some, ?_, ?_, ?_⟩
  · simp only [postCqe, fillCqResult, List.length_append, List.length_singleton, decide_eq_true_eq, posting.head]
    exact next
  · simp only [postCqe, fillCqResult, List.length_append, List.length_singleton, decide_eq_true_eq, posting.head]
    by_cases wraps : state.log.length % state.cq.queueSize + 1 = state.cq.queueSize
    · rw [if_pos wraps, pass_phase_wraps _ _ some wraps, posting.phase]
    · rw [if_neg wraps, pass_phase_same _ _ some wraps]
      exact posting.phase
  · intro k slot cqe found
    dsimp only [postCqe] at found
    by_cases old : k < state.log.length
    · rw [List.getElem?_append_left old] at found
      have kept := posting.disciplined k slot cqe found
      refine ⟨kept.place, kept.phase, fun waiting => ?_⟩
      have apart := WrapAround.positions_apart state.cq.queueSize k state.log.length old
        (Nat.lt_of_lt_of_le room (Nat.add_le_add_right waiting _))
      have other : slot ≠ state.cq.cqHead := by
        rw [kept.place, posting.head]
        exact apart
      simp only [postCqe, fillCqResult, Function.update_of_ne other]
      exact kept.kept waiting
    · rw [List.getElem?_append_right (by omega)] at found
      have last : k = state.log.length := by
        by_contra later
        rw [List.getElem?_eq_none (by simp; omega)] at found
        cases found
      subst last
      have same : slot = state.cq.cqHead ∧ cqe = filledCqe state.cq.phase work := by simpa [eq_comm] using found
      obtain ⟨rfl, rfl⟩ := same
      refine ⟨posting.head, ?_, fun _ => ?_⟩
      · rw [filled_phase _ _ bit]
        exact posting.phase
      · simp only [postCqe, fillCqResult, Function.update_self]

theorem fill_out_of_turn (state : CqSide) (worker cqHead : Nat) (work : CompletedWork) (posting : Posting state)
    (wrong : ¬(cqHead = state.cq.cqHead ∧ state.log.length < state.consumed + state.cq.queueSize)) :
    ¬CqDisciplined (postCqe state worker cqHead work) := by
  intro disciplined
  have posted := disciplined state.log.length cqHead (filledCqe state.cq.phase work) (by simp [postCqe])
  have slot : cqHead = state.log.length % state.cq.queueSize := posted.place
  apply wrong
  refine ⟨slot.trans posting.head.symm, ?_⟩
  by_contra full
  have some := posting.size
  have lap : state.cq.queueSize ≤ state.log.length := by omega
  have inside : state.log.length - state.cq.queueSize < state.log.length := by omega
  obtain ⟨sameSlot, pass⟩ := pass_before state.cq.queueSize state.log.length some lap
  obtain ⟨old, found⟩ : ∃ entry, state.log[state.log.length - state.cq.queueSize]? = Option.some entry :=
    ⟨_, List.getElem?_eq_getElem inside⟩
  have before := posting.disciplined _ old.1 old.2 found
  have after := disciplined (state.log.length - state.cq.queueSize) old.1 old.2
    (by dsimp only [postCqe]; rw [List.getElem?_append_left inside]; exact found)
  have here : old.1 = cqHead := by
    rw [before.place, sameSlot, slot]
  have kept : (fillCqResult state.cq cqHead work).entries old.1 = old.2 := after.kept (by
    dsimp only [postCqe]
    omega)
  have overwritten : old.2 = filledCqe state.cq.phase work := by
    rw [← kept, here]
    simp only [fillCqResult, Function.update_self]
  have oldPhase := before.phase
  rw [overwritten] at oldPhase
  exact pass (oldPhase.symm.trans posted.phase)

theorem step_posting (state next : CqSide) (event : CqEvent) (posting : Posting state) (inTurn : PostsInTurn state event)
    (taken : CqStep state event next) : Posting next := by
  cases taken with
  | fetch worker work free =>
      refine ⟨posting.size, posting.head, posting.phase, fun k slot cqe found => ?_⟩
      have kept := posting.disciplined k slot cqe found
      exact ⟨kept.place, kept.phase, kept.kept⟩
  | fill worker cqHead work ready =>
      obtain ⟨fresh, room⟩ := inTurn cqHead work ready
      subst fresh
      exact fill_posting state worker work posting room
  | consume db inRange posted =>
      refine ⟨posting.size, posting.head, posting.phase, fun k slot cqe found => ?_⟩
      have kept := posting.disciplined k slot cqe found
      refine ⟨kept.place, kept.phase, fun waiting => kept.kept ?_⟩
      dsimp only [consumedBy] at waiting
      omega
  | poll =>
      unfold procDbsCq
      split
      · exact posting
      · refine ⟨posting.size, posting.head, posting.phase, fun k slot cqe found => ?_⟩
        have kept := posting.disciplined k slot cqe found
        exact ⟨kept.place, kept.phase, kept.kept⟩

theorem posting_invariant : TransitionSystem.Invariant cqSystem PostsInTurn Posting := by
  refine ⟨?_, fun state next event posting inTurn taken => step_posting state next event posting inTurn taken⟩
  intro state init
  refine ⟨init.size, ?_, ?_, ?_⟩
  · rw [init.head, init.log]
    exact (Nat.zero_mod _).symm
  · rw [init.phase, init.log]
    simp [passPhase]
  · intro k slot cqe found
    rw [init.log] at found
    cases found

end Posts

-- As long as the workers post in turn the queue keeps its discipline, and the
-- first post out of turn breaks it.
theorem completions_in_turn_iff (state : CqSide) (reached : TransitionSystem.Reach cqSystem PostsInTurn state) :
    CqDisciplined state ∧ ∀ event next, CqStep state event next → (CqDisciplined next ↔ PostsInTurn state event) := by
  have posting := TransitionSystem.reach_invariant _ _ Posting posting_invariant state reached
  refine ⟨posting.disciplined, fun event next taken => ⟨?_, fun inTurn => ?_⟩⟩
  · intro disciplined
    cases taken with
    | fetch worker work free => trivial
    | fill worker cqHead work ready =>
        intro otherHead otherWork again
        rw [ready] at again
        cases again
        by_contra wrong
        exact fill_out_of_turn state worker cqHead work posting wrong disciplined
    | consume db inRange posted => trivial
    | poll => trivial
  · exact (step_posting state next event posting inTurn taken).disciplined

def noCqe : Cqe := ⟨0, 0, 0, 0, 0, 0⟩

def twoSlots : CqSide :=
  { cq := ⟨2, 1, 0, -1, false, fun _ => noCqe⟩, sqes := fun _ => none, db := 0, oldDb := 0, fetched := fun _ => none,
    consumed := 0, log := [] }

def workOf (sqid commandId : Nat) : CompletedWork := ⟨sqid, 0, commandId, 0, 0, 0⟩

theorem two_slots_init : CqInit twoSlots := ⟨by decide, rfl, rfl, fun _ => rfl, rfl, rfl⟩

-- Two completions fit; the host takes the first and a third goes to its slot.
theorem two_slots_in_turn :
    ∃ state, CqDisciplined state ∧ state.log.length = 3 ∧ state.consumed = 1 ∧
      ∀ event next, CqStep state event next → (CqDisciplined next ↔ PostsInTurn state event) := by
  have fetch := fun (state : CqSide) work (reached : TransitionSystem.Reach cqSystem PostsInTurn state) (free : state.fetched 0 = none) =>
    TransitionSystem.Reach.next _ _ (CqEvent.fetch 0 work) reached trivial (.fetch state 0 work free)
  have post := fun (state : CqSide) work (reached : TransitionSystem.Reach cqSystem PostsInTurn (fetchHead state 0 work))
      (room : state.log.length < state.consumed + state.cq.queueSize) =>
    TransitionSystem.Reach.next _ _ (CqEvent.fill 0) reached (fun cqHead other ready => by cases ready; exact ⟨rfl, room⟩)
      (.fill (fetchHead state 0 work) 0 state.cq.cqHead work rfl)
  have start : TransitionSystem.Reach cqSystem PostsInTurn twoSlots := .start _ two_slots_init
  have first := post _ _ (fetch _ (workOf 1 7) start rfl) (by decide)
  have second := post _ _ (fetch _ (workOf 2 8) first rfl) (by decide)
  have taken := TransitionSystem.Reach.next _ _ (CqEvent.consume 1) second trivial (.consume _ 1 (by decide) (by decide))
  have third := post _ _ (fetch _ (workOf 1 9) taken rfl) (by decide)
  obtain ⟨disciplined, exactly⟩ := completions_in_turn_iff _ third
  exact ⟨_, disciplined, rfl, rfl, exactly⟩

-- Commands of two submission queues fill the queue of two slots; the third
-- completion overwrites the first, which the host has not seen. Two workers
-- that both read the head before either posts use one slot twice.
theorem completions_overwrite :
    (∃ state, TransitionSystem.Reach cqSystem (fun _ _ => True) state ∧ state.consumed = 0 ∧ ¬CqDisciplined state) ∧
      ∃ state, TransitionSystem.Reach cqSystem (fun _ _ => True) state ∧ state.log.length < state.cq.queueSize + 1 ∧ ¬CqDisciplined state := by
  have fetch := fun (state : CqSide) worker work (reached : TransitionSystem.Reach cqSystem (fun _ _ => True) state)
      (free : state.fetched worker = none) =>
    TransitionSystem.Reach.next _ _ (CqEvent.fetch worker work) reached trivial (.fetch state worker work free)
  have post := fun (state : CqSide) worker cqHead work (reached : TransitionSystem.Reach cqSystem (fun _ _ => True) state)
      (ready : state.fetched worker = some (cqHead, work)) =>
    TransitionSystem.Reach.next _ _ (CqEvent.fill worker) reached trivial (.fill state worker cqHead work ready)
  have start : TransitionSystem.Reach cqSystem (fun _ _ => True) twoSlots := .start _ two_slots_init
  have fetched := fetch _ 0 (workOf 1 7) start rfl
  constructor
  · have first := post _ 0 0 _ fetched rfl
    have second := post _ 0 1 _ (fetch _ 0 (workOf 2 8) first rfl) rfl
    have third := post _ 0 0 _ (fetch _ 0 (workOf 1 9) second rfl) rfl
    refine ⟨_, third, rfl, fun disciplined => ?_⟩
    have kept := (disciplined 0 0 (filledCqe 1 (workOf 1 7)) rfl).kept (Nat.le_refl 0)
    have ids : (9 : Nat) = 7 := congrArg Cqe.commandId kept
    omega
  · have both := fetch _ 1 (workOf 2 8) fetched rfl
    have first := post _ 0 0 _ both rfl
    have second := post _ 1 0 _ first rfl
    refine ⟨_, second, by decide, fun disciplined => ?_⟩
    have place := (disciplined 1 0 (filledCqe 1 (workOf 2 8)) rfl).place
    cases place

end ConZone
