import ConZone.IoRuns

set_option autoImplicit false

namespace ConZone

def AppendDone (record : CqEntry) : Prop := isAppend record.entry.cmd = true ∧ record.status = .success

def reportedLba (record : CqEntry) : Nat := record.result1 * 2 ^ 32 + record.result0

def InReported (record : CqEntry) (lba : Nat) : Prop := reportedLba record ≤ lba ∧ lba < reportedLba record + lbaCount record.entry.cmd

def hostZone (config : DualConfig) (record : CqEntry) : Nat := lbaToZone (dualParams config record.entry.loc) (firstLba record.entry.host)

def ResetsZone (config : DualConfig) (loc : Loc) (zid : Nat) (record : CqEntry) : Prop :=
  record.status = .success ∧ record.entry.loc = loc ∧ ∃ cmd, record.entry.cmd = .mgmtSend cmd ∧ cmd.zsa = .resetZone ∧
    (cmd.selectAll = true ∨ lbaToZone (dualParams config loc) cmd.slba = zid)

-- Two completions of a namespace, the second after the first, with no reset of
-- the first one's zone between them.
def NotSeparated (config : DualConfig) (cq : List CqEntry) (first second : CqEntry) : Prop :=
  first.entry.loc = second.entry.loc ∧ ∃ before middle after, cq = before ++ first :: middle ++ second :: after ∧
    ∀ record ∈ middle, ¬ResetsZone config first.entry.loc (hostZone config first) record

structure AppendsReported (config : DualConfig) (cq : List CqEntry) : Prop where
  stored : ∀ record ∈ cq, AppendDone record → reportedLba record = firstLba record.entry.cmd
  apart : ∀ first second, NotSeparated config cq first second → AppendDone first → AppendDone second →
    ∀ lba, InReported first lba → ¬InReported second lba

section Placement

-- Whatever attempt completed it, a successful append stands where its zone's
-- write pointer stood at that attempt.
def PlacedAtWp (status : NvmeStatus) (entry : SqEntry) : Prop :=
  status = .success → isAppend entry.cmd = true → firstLba entry.cmd = entry.zoneWp

theorem write_placed (p : Params) (ftl : ZmsFtl) (req : Request) (rw : RwCommand) (outcome : WriteOutcome) (done : Completion)
    (run : WriteRun p ftl req rw outcome) (finished : outcome.done = some done) (success : done.status = .success) :
    outcome.cmd = placeAppend p ftl rw := by
  rcases write_run_cmd p ftl req rw outcome run with ⟨full, _⟩ | ⟨_, placed⟩
  · cases run with
    | refusedFull _ =>
        cases finished
        cases success
    | dropped clear _ => simp [full] at clear
    | waits clear _ _ _ => simp [full] at clear
    | busy clear _ _ _ _ _ _ _ => simp [full] at clear
    | switches clear _ _ _ _ _ _ _ _ _ => simp [full] at clear
    | rejected clear _ _ _ _ _ _ _ _ _ _ _ => simp [full] at clear
    | written clear _ _ _ _ _ _ _ _ _ _ _ => simp [full] at clear
  · exact placed

theorem attempt_placed (p : Params) (mapped : Nat) (ftl : ZmsFtl) (storage : Storage) (req : Request) (cmd : HostCommand)
    (attempt : Attempt) (done : Completion) (ran : procIoCmd p mapped ftl storage req cmd = .ok attempt)
    (finished : attempt.done = some done) (success : done.status = .success) (append : isAppend attempt.cmd = true) :
    firstLba attempt.cmd = commandWp p ftl cmd := by
  cases cmd with
  | write rw data =>
      obtain ⟨outcome, written, same⟩ := attempt_write p mapped ftl storage req rw data attempt ran
      subst same
      have placed := write_placed p ftl req rw outcome done (zoned_write_run p ftl req rw outcome written) finished success
      have kind : rw.append = true := by
        by_contra plain
        simp [placed, isAppend, placeAppend, plain] at append
      simp [firstLba, placed, placeAppend, kind, commandWp]
  | read rw data =>
      obtain ⟨_, _, _, same⟩ := attempt_read p mapped ftl storage req rw data attempt ran
      simp [same, isAppend] at append
  | flush =>
      obtain ⟨_, _, _, same⟩ := attempt_flush p mapped ftl storage req attempt ran
      simp [same, isAppend] at append
  | mgmtSend cmd =>
      obtain ⟨_, _, _, _, same⟩ := attempt_mgmt p mapped ftl storage req cmd attempt ran
      simp [same, isAppend] at append

end Placement

-- No use of a work entry writes its results.
structure Reporting (state : IoState) : Prop where
  clean : ∀ work, (state.workQueue work).result0 = 0 ∧ (state.workQueue work).result1 = 0
  queue : QueuedBy (fun work entry => PlacedAtWp work.status entry) state
  posted : ∀ record ∈ state.cq, record.result0 = 0 ∧ record.result1 = 0 ∧ PlacedAtWp record.status record.entry

section Runs

variable (config : DualConfig)

theorem reporting_attempt (state : IoState) (slot : Slot) (entry : SqEntry) (attempt : Attempt) (reporting : Reporting state)
    (waiting : state.sq slot = some entry) (fresh : entry.dispatched = false) : Reporting (afterAttempt config state slot entry attempt) := by
  refine ⟨reporting.clean, ?_, reporting.posted⟩
  refine queued_other_slot _ _ state reporting.queue slot _ _ _ ?_ fun _ _ _ _ fit => fit
  intro other here
  rw [waiting] at here
  cases here
  exact fresh

theorem reporting_step (state next : IoState) (event : IoEvent) (reporting : Reporting state) (taken : IoStep config state event next) :
    Reporting next := by
  cases taken with
  | submit slot loc cmd free =>
      refine ⟨reporting.clean, ?_, reporting.posted⟩
      refine queued_other_slot _ _ state reporting.queue slot _ state.ftls state.storage ?_ fun _ _ _ _ fit => fit
      intro other here
      simp [free] at here
  | retry slot req entry attempt waiting fresh ran refused =>
      exact reporting_attempt config state slot entry attempt reporting waiting fresh
  | lose slot req entry attempt done waiting fresh ran finished =>
      exact reporting_attempt config state slot entry attempt reporting waiting fresh
  | dispatch slot req entry attempt done work waiting fresh ran finished allocated =>
      have attempted := reporting_attempt config state slot entry attempt reporting waiting fresh
      refine ⟨?_, ?_, attempted.posted⟩
      · intro other
        by_cases same : other = work
        · simpa [postWork, afterAttempt, same, enqueueIoReq] using reporting.clean work
        · simpa [postWork, afterAttempt, same] using reporting.clean other
      · refine queued_post _ _ attempted.queue slot work done _ (Function.update_self ..) (by simp [finished]) allocated ?_ ?_
        · intro other member same
          obtain ⟨there, found, dispatched, _⟩ := reporting.queue.slots other member
          have slots : (state.workQueue other).slot = slot := same
          rw [slots, waiting] at found
          cases found
          simp [fresh] at dispatched
        · intro success append
          exact attempt_placed _ _ _ _ req entry.cmd attempt done ran finished success append
  | copy work entry storage status delivered pending uncopied found ran =>
      refine ⟨?_, ?_, reporting.posted⟩
      · intro other
        by_cases same : other = work
        · simpa [same] using reporting.clean work
        · simpa [same] using reporting.clean other
      · obtain ⟨there, foundThere, dispatched, fit⟩ := reporting.queue.slots work pending
        rw [found] at foundThere
        cases foundThere
        refine queued_worked _ _ state reporting.queue work pending _ _ storage rfl dispatched ?_ fun _ _ _ _ _ fit => fit
        intro success append
        refine fit ?_ append
        by_contra failed
        rw [copied, if_neg failed] at ran
        cases ran
        exact failed success
  | complete work entry pending done found =>
      refine ⟨reporting.clean, ?_, ?_⟩
      · exact queued_completed _ _ state reporting.queue work pending _ fun _ _ _ _ _ fit => fit
      · intro record member
        rw [List.mem_append, List.mem_singleton] at member
        rcases member with old | new
        · exact reporting.posted record old
        · subst new
          obtain ⟨there, foundThere, _, fit⟩ := reporting.queue.slots work pending
          rw [found] at foundThere
          cases foundThere
          exact ⟨(reporting.clean work).1, (reporting.clean work).2, fit⟩
  | release loc entry after ran =>
      exact ⟨reporting.clean, queued_kept _ _ state reporting.queue _ state.storage (fun _ _ _ _ fit => fit), reporting.posted⟩

theorem reporting_kept : TransitionSystem.Invariant (ioSystem config) anyEvent Reporting where
  starts := by
    rintro state ⟨clock, rfl⟩
    refine ⟨fun _ => ⟨rfl, rfl⟩, ⟨List.nodup_nil, ?_, ?_⟩, ?_⟩
    · intro work other member
      cases member
    · intro work member
      cases member
    · intro record member
      cases member
  keeps state next event reporting _ taken := reporting_step config state next event reporting taken

end Runs

theorem lba_count_positive (cmd : HostCommand) (append : isAppend cmd = true) : 0 < lbaCount cmd := by
  cases cmd with
  | write rw data => exact Nat.succ_pos rw.length
  | read rw data => cases append
  | flush => cases append
  | mgmtSend cmd => cases append

theorem not_separated_mem (config : DualConfig) (cq : List CqEntry) (first second : CqEntry)
    (near : NotSeparated config cq first second) : first ∈ cq ∧ second ∈ cq := by
  obtain ⟨_, before, middle, after, split, _⟩ := near
  subst split
  simp

-- Every completion reports LBA 0. That is right for an append to a zone whose
-- write pointer is LBA 0, and no two reports are disjoint.
theorem appends_reported_iff (config : DualConfig) (state : IoState)
    (reached : TransitionSystem.Reach (ioSystem config) anyEvent state) :
    AppendsReported config state.cq ↔
      (∀ record ∈ state.cq, AppendDone record → record.entry.zoneWp = 0) ∧
        ∀ first second, NotSeparated config state.cq first second → ¬(AppendDone first ∧ AppendDone second) := by
  have reporting := TransitionSystem.reach_invariant _ _ _ (reporting_kept config) state reached
  have zero : ∀ record ∈ state.cq, reportedLba record = 0 := by
    intro record member
    obtain ⟨low, high, _⟩ := reporting.posted record member
    simp [reportedLba, low, high]
  have placed : ∀ record ∈ state.cq, AppendDone record → firstLba record.entry.cmd = record.entry.zoneWp :=
    fun record member done => (reporting.posted record member).2.2 done.2 done.1
  constructor
  · intro reported
    refine ⟨?_, ?_⟩
    · intro record member done
      rw [← placed record member done, ← reported.stored record member done, zero record member]
    · rintro first second near ⟨firstDone, secondDone⟩
      obtain ⟨firstIn, secondIn⟩ := not_separated_mem config state.cq first second near
      refine reported.apart first second near firstDone secondDone 0 ?_ ?_
      · simpa [InReported, zero first firstIn] using lba_count_positive first.entry.cmd firstDone.1
      · simpa [InReported, zero second secondIn] using lba_count_positive second.entry.cmd secondDone.1
  · rintro ⟨atZero, never⟩
    refine ⟨?_, ?_⟩
    · intro record member done
      rw [zero record member, placed record member done, atZero record member done]
    · intro first second near firstDone secondDone
      exact absurd ⟨firstDone, secondDone⟩ (never first second near)

def appendRun (slba : Nat) : List IoEvent :=
  [.submit (1, 0) .pslc (.write ⟨true, slba, 7, false⟩ onePage), .dispatch (1, 0) ⟨1, 0⟩ 0, .copy 0, .complete 0]

theorem first_append_reported :
    ∃ state : IoState, AppendsReported sampleConfig state.cq ∧ state.cq.any (fun record => decide (record.status = .success)) = true := by
  obtain ⟨state, reached, checked⟩ := run_io_check sampleConfig anyEvent (fun _ _ => true) (fun _ _ _ => trivial) (appendRun 0)
    (fun _ => 0) (fun state => decide (state.cq.length = 1) && state.cq.all (fun record => decide (record.entry.zoneWp = 0)) &&
      state.cq.any (fun record => decide (record.status = .success))) (by decide +kernel)
  simp only [Bool.and_eq_true, decide_eq_true_eq, List.all_eq_true] at checked
  obtain ⟨⟨single, atZero⟩, success⟩ := checked
  refine ⟨state, (appends_reported_iff sampleConfig state reached).mpr ⟨fun record member _ => atZero record member, ?_⟩, success⟩
  rintro first second ⟨_, before, middle, after, split, _⟩ _
  have length := congrArg List.length split
  simp only [List.length_append, List.length_cons] at length
  omega

-- An append to the empty zone 1 is stored at LBA 32 and reports LBA 0.
theorem append_reports_zero :
    ¬∀ config state, TransitionSystem.Reach (ioSystem config) anyEvent state → AppendsReported config state.cq := by
  intro claim
  obtain ⟨state, reached, checked⟩ := run_io_check sampleConfig anyEvent (fun _ _ => true) (fun _ _ _ => trivial) (appendRun 32)
    (fun _ => 0) (fun state => state.cq.any fun record => isAppend record.entry.cmd && decide (record.status = .success) &&
      decide (reportedLba record = 0) && decide (firstLba record.entry.cmd = 32)) (by decide +kernel)
  rw [List.any_eq_true] at checked
  obtain ⟨record, member, checked⟩ := checked
  simp only [Bool.and_eq_true, decide_eq_true_eq] at checked
  obtain ⟨⟨⟨append, success⟩, zero⟩, stored⟩ := checked
  have reported := (claim sampleConfig state reached).stored record member ⟨append, success⟩
  rw [zero, stored] at reported
  cases reported

end ConZone
