import ConZone.AppendZone
import ConZone.Io

set_option autoImplicit false

namespace ConZone

-- The queue entry of a host's command: every attempt at an append rewrites it.
inductive Rewritten : HostCommand → HostCommand → Prop where
  | kept (cmd : HostCommand) : Rewritten cmd cmd
  | placed (rw : RwCommand) (data : DataPointer) (slba : Nat) (append : rw.append = true) :
      Rewritten (.write rw data) (.write { rw with slba := slba } data)

def isAppend : HostCommand → Bool
  | .write rw _ => rw.append
  | .read _ _ | .flush | .mgmtSend _ => false

def firstLba : HostCommand → Nat
  | .write rw _ | .read rw _ => rw.slba
  | .flush | .mgmtSend _ => 0

def lbaCount : HostCommand → Nat
  | .write rw _ | .read rw _ => nrLbasFromRwCmd rw
  | .flush | .mgmtSend _ => 0

section Attempts

variable (p : Params) (mapped : Nat) (ftl : ZmsFtl) (storage : Storage) (req : Request)

theorem attempt_write (rw : RwCommand) (data : DataPointer) (attempt : Attempt)
    (ran : procIoCmd p mapped ftl storage req (.write rw data) = .ok attempt) :
    ∃ outcome, zonedWrite p ftl req rw = .ok outcome ∧ attempt = ⟨outcome.ftl, storage, .write outcome.cmd data, outcome.done⟩ := by
  obtain ⟨outcome, written, rest⟩ := bind_ok _ _ _ ran
  exact ⟨outcome, written, (pure_ok _ _ rest).symm⟩

theorem attempt_read (rw : RwCommand) (data : DataPointer) (attempt : Attempt)
    (ran : procIoCmd p mapped ftl storage req (.read rw data) = .ok attempt) :
    ∃ done next, zonedRead p ftl req rw = .ok (done, next) ∧ attempt = ⟨next, storage, .read rw data, some done⟩ := by
  obtain ⟨⟨done, next⟩, served, rest⟩ := bind_ok _ _ _ ran
  exact ⟨done, next, served, (pure_ok _ _ rest).symm⟩

theorem attempt_flush (attempt : Attempt) (ran : procIoCmd p mapped ftl storage req .flush = .ok attempt) :
    ∃ done next, znsFlush p ftl req = .ok (done, next) ∧ attempt = ⟨next, storage, .flush, some done⟩ := by
  obtain ⟨⟨done, next⟩, served, rest⟩ := bind_ok _ _ _ ran
  exact ⟨done, next, served, (pure_ok _ _ rest).symm⟩

theorem attempt_mgmt (cmd : ZoneMgmtSend) (attempt : Attempt)
    (ran : procIoCmd p mapped ftl storage req (.mgmtSend cmd) = .ok attempt) :
    ∃ status next cleared, mgmtSendStored p mapped ftl storage cmd = .ok (status, next, cleared) ∧
      attempt = ⟨next, cleared, .mgmtSend cmd, some ⟨status, req.nsecsStart⟩⟩ := by
  obtain ⟨⟨status, next, cleared⟩, served, rest⟩ := bind_ok _ _ _ ran
  exact ⟨status, next, cleared, served, (pure_ok _ _ rest).symm⟩

theorem write_succeeds (rw : RwCommand) (outcome : WriteOutcome) (done : Completion) (accounted : Accounted p ftl)
    (run : WriteRun p ftl req rw outcome) (finished : outcome.done = some done) (success : done.status = .success) :
    anyFull ftl = false ∧ outcome.cmd = placeAppend p ftl rw ∧
      (partialDropped p ftl rw ∨ (lbaToZone p (placeAppend p ftl rw).slba < p.zpp.nrZones ∧
        (placeAppend p ftl rw).slba = (ftl.zoneDescs (lbaToZone p (placeAppend p ftl rw).slba)).wp ∧
        (placeAppend p ftl rw).slba + nrLbasFromRwCmd rw ≤
          zoneToSlba p (lbaToZone p (placeAppend p ftl rw).slba) + capacityLbas p)) := by
  cases run with
  | refusedFull full =>
      cases finished
      cases success
  | dropped clear drop => exact ⟨clear, rfl, .inl drop⟩
  | waits clear kept got found => cases finished
  | busy clear kept got index found locked after same => cases finished
  | switches clear kept got index found other unlocked latest flushed flushing => cases finished
  | rejected clear kept got index found own unlocked inside status checked refused check =>
      cases finished
      exact absurd success refused
  | written clear kept got index found own unlocked inside checked check progress filled =>
      have accepted : Accepted p ftl req rw index checked := ⟨clear, kept, ⟨got, found, own, unlocked, check⟩, inside⟩
      obtain ⟨atWp, within, _⟩ := accepted_table p ftl req rw index checked accounted accepted
      exact ⟨clear, rfl, .inr ⟨inside, atWp, within⟩⟩

end Attempts

section Execution

variable (config : DualConfig)

def attemptIo (state : IoState) (slot : Slot) (req : Request) : Option (SqEntry × Attempt) :=
  match state.sq slot with
  | some entry =>
      if entry.dispatched then none
      else
        match procIoCmd (dualParams config entry.loc) (nsMapped config entry.loc) (state.ftls entry.loc) state.storage req entry.cmd with
        | .ok attempt => some (entry, attempt)
        | .error _ => none
  | none => none

def copyIo (state : IoState) (work : Nat) : Option IoState :=
  if work ∉ state.queued ∨ (state.workQueue work).isCopied then none
  else
    match state.sq (state.workQueue work).slot with
    | some entry =>
        match copied (dualParams config entry.loc) (nsMapped config entry.loc) state.storage (state.workQueue work).status entry.cmd with
        | .ok (storage, status, delivered) => some
            { state with storage := storage,
                         workQueue := Function.update state.workQueue work { state.workQueue work with isCopied := true, status := status },
                         sq := Function.update state.sq (state.workQueue work).slot (some { entry with delivered := delivered }) }
        | .error _ => none
    | none => none

def completeIo (state : IoState) (work : Nat) : Option IoState :=
  if work ∉ state.queued ∨ !(state.workQueue work).isCopied then none
  else
    (state.sq (state.workQueue work).slot).map fun entry =>
      { state with queued := state.queued.erase work, sq := Function.update state.sq (state.workQueue work).slot none,
                   cq := state.cq ++ [⟨(state.workQueue work).slot, (state.workQueue work).status, (state.workQueue work).result0,
                     (state.workQueue work).result1, entry⟩] }

def stepIo (state : IoState) : IoEvent → Option IoState
  | .submit slot loc cmd =>
      if state.sq slot = none then some { state with sq := Function.update state.sq slot (some ⟨loc, cmd, cmd, false, 0, []⟩) } else none
  | .retry slot req =>
      (attemptIo config state slot req).bind fun made =>
        if made.2.done = none then some (afterAttempt config state slot made.1 made.2) else none
  | .dispatch slot req work =>
      (attemptIo config state slot req).bind fun made =>
        if work ∈ state.queued then none
        else made.2.done.map fun done => postWork (afterAttempt config state slot made.1 made.2) slot work done
  | .lose slot req =>
      (attemptIo config state slot req).bind fun made =>
        if made.2.done = none then none else some (afterAttempt config state slot made.1 made.2)
  | .copy work => copyIo config state work
  | .complete work => completeIo state work
  | .release loc entry => (runRelease (state.ftls loc) entry).map fun next => { state with ftls := ranOn state.ftls loc next }

def runIo (guard : IoState → IoEvent → Bool) : List IoEvent → IoState → Option IoState
  | [], state => some state
  | event :: rest, state => if guard state event then (stepIo config state event).bind (runIo guard rest) else none

theorem attempt_io (state : IoState) (slot : Slot) (req : Request) (entry : SqEntry) (attempt : Attempt)
    (made : attemptIo config state slot req = some (entry, attempt)) :
    state.sq slot = some entry ∧ entry.dispatched = false ∧
      procIoCmd (dualParams config entry.loc) (nsMapped config entry.loc) (state.ftls entry.loc) state.storage req entry.cmd = .ok attempt := by
  unfold attemptIo at made
  split at made
  · rename_i there found
    split at made
    · cases made
    · rename_i fresh
      split at made
      · rename_i result ran
        cases made
        exact ⟨found, by simpa using fresh, ran⟩
      · cases made
  · cases made

theorem step_io (state next : IoState) (event : IoEvent) (stepped : stepIo config state event = some next) :
    IoStep config state event next := by
  cases event with
  | submit slot loc cmd =>
      simp only [stepIo, Option.ite_none_right_eq_some, Option.some.injEq] at stepped
      rw [← stepped.2]
      exact .submit state slot loc cmd stepped.1
  | retry slot req =>
      simp only [stepIo, Option.bind_eq_some_iff, Option.ite_none_right_eq_some, Option.some.injEq] at stepped
      obtain ⟨⟨entry, attempt⟩, made, refused, same⟩ := stepped
      obtain ⟨waiting, fresh, ran⟩ := attempt_io config state slot req entry attempt made
      rw [← same]
      exact .retry state slot req entry attempt waiting fresh ran refused
  | dispatch slot req work =>
      simp only [stepIo, Option.bind_eq_some_iff, Option.ite_none_left_eq_some, Option.map_eq_some_iff] at stepped
      obtain ⟨⟨entry, attempt⟩, made, free, done, finished, same⟩ := stepped
      obtain ⟨waiting, fresh, ran⟩ := attempt_io config state slot req entry attempt made
      rw [← same]
      exact .dispatch state slot req entry attempt done work waiting fresh ran finished free
  | lose slot req =>
      simp only [stepIo, Option.bind_eq_some_iff, Option.ite_none_left_eq_some, Option.some.injEq] at stepped
      obtain ⟨⟨entry, attempt⟩, made, finished, same⟩ := stepped
      obtain ⟨waiting, fresh, ran⟩ := attempt_io config state slot req entry attempt made
      obtain ⟨done, finished⟩ := Option.ne_none_iff_exists'.mp finished
      rw [← same]
      exact .lose state slot req entry attempt done waiting fresh ran finished
  | copy work =>
      simp only [stepIo, copyIo] at stepped
      split at stepped
      · cases stepped
      · rename_i uncopied
        simp only [not_or, Decidable.not_not, Bool.not_eq_true] at uncopied
        split at stepped
        · rename_i entry found
          split at stepped
          · rename_i storage status delivered ran
            cases stepped
            exact .copy state work entry storage status delivered uncopied.1 uncopied.2 found ran
          · cases stepped
        · cases stepped
  | complete work =>
      simp only [stepIo, completeIo] at stepped
      split at stepped
      · cases stepped
      · rename_i copied
        simp only [not_or, Decidable.not_not, Bool.not_eq_true', Bool.not_eq_false] at copied
        obtain ⟨entry, found, same⟩ := Option.map_eq_some_iff.mp stepped
        rw [← same]
        exact .complete state work entry copied.1 copied.2 found
  | release loc entry =>
      obtain ⟨after, ran, same⟩ := Option.map_eq_some_iff.mp stepped
      rw [← same]
      exact .release state loc entry after ran

theorem run_io_reach (allowed : IoState → IoEvent → Prop) (guard : IoState → IoEvent → Bool)
    (guards : ∀ state event, guard state event = true → allowed state event) (events : List IoEvent) (state last : IoState)
    (reached : TransitionSystem.Reach (ioSystem config) allowed state) (ran : runIo config guard events state = some last) :
    TransitionSystem.Reach (ioSystem config) allowed last := by
  induction events generalizing state with
  | nil =>
      cases ran
      exact reached
  | cons event rest ih =>
      simp only [runIo, Option.ite_none_right_eq_some, Option.bind_eq_some_iff] at ran
      obtain ⟨guarded, next, stepped, ran⟩ := ran
      exact ih next (.next state next event reached (guards state event guarded) (step_io config state next event stepped)) ran

theorem run_io_check (allowed : IoState → IoEvent → Prop) (guard : IoState → IoEvent → Bool)
    (guards : ∀ state event, guard state event = true → allowed state event) (events : List IoEvent) (clock : Nat → Nat)
    (check : IoState → Bool) (ran : (runIo config guard events (ioInit config clock)).any check = true) :
    ∃ state, TransitionSystem.Reach (ioSystem config) allowed state ∧ check state = true := by
  rw [Option.any_eq_true] at ran
  obtain ⟨last, ran, checked⟩ := ran
  exact ⟨last, run_io_reach config allowed guard guards events _ last (.start _ ⟨clock, rfl⟩) ran, checked⟩

end Execution

-- The work entries in use belong to different dispatched commands, each of
-- which is in a relation to the entry.
structure QueuedBy (fits : IoWork → SqEntry → Prop) (state : IoState) : Prop where
  nodup : state.queued.Nodup
  single : ∀ work other, work ∈ state.queued → other ∈ state.queued →
    (state.workQueue work).slot = (state.workQueue other).slot → work = other
  slots : ∀ work, work ∈ state.queued → ∃ entry, state.sq (state.workQueue work).slot = some entry ∧ entry.dispatched = true ∧
    fits (state.workQueue work) entry

def onePage : DataPointer := ⟨0, 0, fun _ => 0, fun _ => 1⟩

section Queue

variable (fits later : IoWork → SqEntry → Prop) (state : IoState)

theorem queued_other_slot (queue : QueuedBy fits state) (slot : Slot) (content : Option SqEntry) (ftls : DualFtl) (storage : Storage)
    (unused : ∀ entry, state.sq slot = some entry → entry.dispatched = false)
    (keeps : ∀ work entry, work ∈ state.queued → state.sq (state.workQueue work).slot = some entry →
      fits (state.workQueue work) entry → later (state.workQueue work) entry) :
    QueuedBy later { state with ftls := ftls, storage := storage, sq := Function.update state.sq slot content } := by
  refine ⟨queue.nodup, queue.single, ?_⟩
  intro work member
  obtain ⟨entry, found, dispatched, fit⟩ := queue.slots work member
  refine ⟨entry, ?_, dispatched, keeps work entry member found fit⟩
  have apart : (state.workQueue work).slot ≠ slot := by
    rintro same
    rw [same] at found
    rw [unused entry found] at dispatched
    cases dispatched
  exact (Function.update_of_ne apart _ _).trans found

theorem queued_kept (queue : QueuedBy fits state) (ftls : DualFtl) (storage : Storage)
    (keeps : ∀ work entry, work ∈ state.queued → state.sq (state.workQueue work).slot = some entry →
      fits (state.workQueue work) entry → later (state.workQueue work) entry) :
    QueuedBy later { state with ftls := ftls, storage := storage } := by
  refine ⟨queue.nodup, queue.single, ?_⟩
  intro work member
  obtain ⟨entry, found, dispatched, fit⟩ := queue.slots work member
  exact ⟨entry, found, dispatched, keeps work entry member found fit⟩

theorem queued_post (queue : QueuedBy fits state) (slot : Slot) (work : Nat) (done : Completion) (entry : SqEntry)
    (here : state.sq slot = some entry) (dispatched : entry.dispatched = true) (free : work ∉ state.queued)
    (alone : ∀ other, other ∈ state.queued → (state.workQueue other).slot ≠ slot)
    (fit : fits (enqueueIoReq (state.workQueue work) slot done) entry) : QueuedBy fits (postWork state slot work done) := by
  have older : ∀ other, other ∈ state.queued → (postWork state slot work done).workQueue other = state.workQueue other := by
    intro other member
    refine Function.update_of_ne ?_ _ _
    rintro rfl
    exact free member
  have newer : (postWork state slot work done).workQueue work = enqueueIoReq (state.workQueue work) slot done :=
    Function.update_self ..
  have members : ∀ other, other ∈ (postWork state slot work done).queued ↔ other ∈ state.queued ∨ other = work := by
    intro other
    simp [postWork]
  refine ⟨?_, ?_, ?_⟩
  · simp only [postWork, List.nodup_append, List.mem_singleton]
    refine ⟨queue.nodup, List.nodup_singleton work, ?_⟩
    rintro other member _ rfl same
    exact free (same ▸ member)
  · intro first second firstIn secondIn same
    rcases (members first).mp firstIn with firstOld | firstNew
    · rcases (members second).mp secondIn with secondOld | secondNew
      · rw [older first firstOld, older second secondOld] at same
        exact queue.single first second firstOld secondOld same
      · subst secondNew
        rw [older first firstOld, newer] at same
        exact absurd same (alone first firstOld)
    · subst firstNew
      rcases (members second).mp secondIn with secondOld | secondNew
      · rw [older second secondOld, newer] at same
        exact absurd same.symm (alone second secondOld)
      · exact secondNew.symm
  · intro other otherIn
    rcases (members other).mp otherIn with old | new
    · rw [older other old]
      exact queue.slots other old
    · subst new
      rw [newer]
      exact ⟨entry, here, dispatched, fit⟩

theorem queued_worked (queue : QueuedBy fits state) (work : Nat) (pending : work ∈ state.queued) (worked : IoWork) (entry : SqEntry)
    (storage : Storage) (slot : worked.slot = (state.workQueue work).slot) (dispatched : entry.dispatched = true)
    (fit : later worked entry)
    (keeps : ∀ other entry, other ∈ state.queued → other ≠ work → state.sq (state.workQueue other).slot = some entry →
      fits (state.workQueue other) entry → later (state.workQueue other) entry) :
    QueuedBy later { state with storage := storage, workQueue := Function.update state.workQueue work worked,
                                sq := Function.update state.sq (state.workQueue work).slot (some entry) } := by
  have slots : ∀ other, (Function.update state.workQueue work worked other).slot = (state.workQueue other).slot := by
    intro other
    by_cases same : other = work
    · rw [same, Function.update_self, slot]
    · rw [Function.update_of_ne same]
  refine ⟨queue.nodup, ?_, ?_⟩
  · intro first second firstIn secondIn same
    dsimp only at same
    rw [slots, slots] at same
    exact queue.single first second firstIn secondIn same
  · intro other otherIn
    dsimp only
    rw [slots]
    by_cases same : other = work
    · subst same
      rw [Function.update_self, Function.update_self]
      exact ⟨entry, rfl, dispatched, fit⟩
    · rw [Function.update_of_ne same]
      obtain ⟨otherEntry, found, otherDispatched, otherFit⟩ := queue.slots other otherIn
      have apart : (state.workQueue other).slot ≠ (state.workQueue work).slot := fun slotSame =>
        same (queue.single other work otherIn pending slotSame)
      rw [Function.update_of_ne apart]
      exact ⟨otherEntry, found, otherDispatched, keeps other otherEntry otherIn same found otherFit⟩

theorem queued_completed (queue : QueuedBy fits state) (work : Nat) (pending : work ∈ state.queued) (cq : List CqEntry)
    (keeps : ∀ other entry, other ∈ state.queued → other ≠ work → state.sq (state.workQueue other).slot = some entry →
      fits (state.workQueue other) entry → later (state.workQueue other) entry) :
    QueuedBy later { state with queued := state.queued.erase work, cq := cq,
                                sq := Function.update state.sq (state.workQueue work).slot none } := by
  have remains : ∀ other, other ∈ state.queued.erase work → other ∈ state.queued ∧ other ≠ work := by
    intro other member
    have parts := (queue.nodup.mem_erase_iff).mp member
    exact ⟨parts.2, parts.1⟩
  refine ⟨queue.nodup.erase work, ?_, ?_⟩
  · intro first second firstIn secondIn same
    exact queue.single first second (remains first firstIn).1 (remains second secondIn).1 same
  · intro other otherIn
    obtain ⟨member, different⟩ := remains other otherIn
    obtain ⟨entry, found, dispatched, fit⟩ := queue.slots other member
    have apart : (state.workQueue other).slot ≠ (state.workQueue work).slot := fun same =>
      different (queue.single other work member pending same)
    exact ⟨entry, (Function.update_of_ne apart _ _).trans found, dispatched, keeps other entry member different found fit⟩

end Queue

end ConZone
