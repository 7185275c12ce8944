import ConZone.AdminStart

set_option autoImplicit false

namespace ConZone.Admin

-- nvmev_vdev before the host has written a register.
def powerOn (ns : List Namespace) (mdts : Nat) : Dev :=
  { bar := ⟨0, 0, 0, 0⟩, rdy := 0, shst := 0, oldBar := ⟨0, 0, 0, 0⟩, adminQ := none, dbs := fun _ => 0, oldDbs := fun _ => 0,
    tables := ⟨fun _ => none, fun _ => none, 0, 0, []⟩, ns := ns, mdts := mdts }

def layoutOf (regs : Regs) : Layout := ⟨regs.asq / pageSize, asqs regs.aqa + 1, regs.acq / pageSize, acqs regs.aqa + 1⟩

structure Enables (cc : Nat) : Prop where
  on : en cc = 1
  stays : shn cc ≠ 1

structure Disables (cc : Nat) : Prop where
  off : en cc = 0
  stays : shn cc ≠ 1

structure ShutsDown (cc : Nat) : Prop where
  on : en cc = 1
  shut : shn cc = 1

inductive Stop where
  | reset (off : Nat)
  | shutdown (shut off : Nat)

def Stop.Codes : Stop → Prop
  | .reset off => Disables off
  | .shutdown shut off => ShutsDown shut ∧ Disables off

def stopBlocks (bar : Regs) : Stop → List Block
  | .reset off => [⟨{ bar with cc := off }, .rdy 0⟩]
  | .shutdown shut off => [⟨{ bar with cc := shut }, .shst 2⟩, ⟨{ bar with cc := off }, .rdy 0⟩]

def restartBlocks (bar : Regs) (stop : Stop) (on : Nat) : List Block := stopBlocks bar stop ++ [⟨{ bar with cc := on }, .rdy 1⟩]

structure Up (dev : Dev) : Prop where
  seen : dev.oldBar = dev.bar
  rdy : dev.rdy = 1
  shst : dev.shst ≠ 2
  enabled : Enables dev.bar.cc

def posted (link : Link) : Nat := (link.submitted.take link.served).countP fun cmd => completes cmd.request

-- When the queue is where a host that starts over takes it to be. A shutdown
-- sets head and doorbells back but not the phase, a reset none of them.
def InStep (layout : Layout) (link : Link) : Stop → Prop
  | .reset _ => posted link % (2 * layout.cqDepth) = 0 ∧ link.announced % layout.sqDepth = 0 ∧ link.served % layout.sqDepth = 0
  | .shutdown _ _ => posted link / layout.cqDepth % 2 = 0

section PowerOn

theorem pages_enough (depth size perPage : Nat) (whole : perPage * size = pageSize) : depth ≤ divRoundUp (depth * size) pageSize * perPage := by
  have page : 0 < pageSize := by decide
  have split := Nat.div_add_mod (depth * size + pageSize - 1) pageSize
  have short := Nat.mod_lt (depth * size + pageSize - 1) page
  have covered : depth * size ≤ pageSize * divRoundUp (depth * size) pageSize := by
    unfold divRoundUp
    omega
  have scaled : depth * size ≤ divRoundUp (depth * size) pageSize * perPage * size := by
    rw [Nat.mul_assoc, whole, Nat.mul_comm _ pageSize]
    exact covered
  refine Nat.le_of_mul_le_mul_right scaled (Nat.pos_of_ne_zero fun zero => ?_)
  rw [zero, Nat.mul_zero] at whole
  omega

theorem power_on_settles (ns : List Namespace) (mdts : Nat) (regs : Regs) (aqa : regs.aqa ≠ 0) (asq : regs.asq ≠ 0) (acq : regs.acq ≠ 0)
    (enables : Enables regs.cc) :
    ∃ next, settle (retarget (powerOn ns mdts) regs) = .ok next ∧ next.rdy = 1 ∧ AtStart (layoutOf regs) next := by
  have cc : regs.cc ≠ 0 := by
    intro zero
    have on := enables.on
    rw [zero] at on
    cases on
  simp only [settle, settleAqa, settleAsq, settleAcq, settleCc, retarget, powerOn, barsAqa, barsAsq, barsAcq, barsCc, barsShutdown, clearDoorbell,
    aqa.symm, asq.symm, acq.symm, cc.symm, enables.on, enables.stays, ne_eq, not_false_eq_true, if_true, if_false, Option.isSome_some]
  refine ⟨_, rfl, rfl, ⟨⟨_, rfl, ⟨rfl, rfl, ⟨_, rfl, rfl, ?_⟩, ⟨_, rfl, rfl, ?_⟩⟩, rfl, rfl⟩, ?_, ?_⟩⟩
  · exact pages_enough _ 64 nrSqePerPage (by decide)
  · exact pages_enough _ 16 nrCqePerPage (by decide)
  · simp
  · simp

-- From power on, whatever the order of the host's writes and the device's looks:
-- enabling can always be brought to an end, and then the admin queue is the one
-- the registers describe, at its start.
theorem power_on_ready (ns : List Namespace) (mdts : Nat) (regs : Regs) (aqa : regs.aqa ≠ 0) (asq : regs.asq ≠ 0) (acq : regs.acq ≠ 0)
    (enables : Enables regs.cc) (session : Session)
    (reached : TransitionSystem.Reach (regSystem (powerOn ns mdts) [⟨regs, .rdy 1⟩]) (fun _ _ => True) session) :
    (∃ last, Leads session last ∧ last.blocks = []) ∧ (session.blocks = [] → session.dev.rdy = 1 ∧ AtStart (layoutOf regs) session.dev) := by
  obtain ⟨next, settled, rdy, ready⟩ := power_on_settles ns mdts regs aqa asq acq enables
  have waits : Waits (powerOn ns mdts) [⟨regs, .rdy 1⟩] :=
    ⟨Nat.zero_ne_one, .inr aqa.symm, next, settled, rdy, trivial⟩
  refine ⟨sessions_end _ _ rfl waits session reached, fun done => ?_⟩
  have result := registers_settle _ _ rfl waits session reached done
  simp only [outcome, settled] at result
  have same : next = session.dev := Except.ok.inj result
  rw [← same]
  exact ⟨rdy, ready⟩

theorem sample_power_on : ∃ dev : Dev, dev.rdy = 1 ∧ AtStart ⟨1, 2, 2, 2⟩ dev := by
  have enables : Enables 0x460001 := ⟨by decide, by decide⟩
  have ready := power_on_ready [] 6 ⟨0x10001, 4096, 8192, 0x460001⟩ (by decide) (by decide) (by decide) enables
  have started : TransitionSystem.Reach (regSystem (powerOn [] 6) [⟨⟨0x10001, 4096, 8192, 0x460001⟩, .rdy 1⟩]) (fun _ _ => True)
      ⟨powerOn [] 6, 0, [⟨⟨0x10001, 4096, 8192, 0x460001⟩, .rdy 1⟩]⟩ := .start _ rfl
  obtain ⟨last, leads, done⟩ := (ready _ started).1
  obtain ⟨rdy, start⟩ := (ready last (TransitionSystem.reach_onward _ _ _ last started leads)).2 done
  exact ⟨last.dev, rdy, start⟩

end PowerOn

section Restart

variable (dev : Dev) (queue : AdminQueue)

def withCc (cc rdy : Nat) : Dev := { dev with bar := { dev.bar with cc := cc }, oldBar := { dev.bar with cc := cc }, rdy := rdy }

def cleared : Dev := clearDoorbell (clearDoorbell { dev with shst := 2, adminQ := some { queue with cqHead := 0 } } 0) 1

theorem cc_settles (seen : dev.oldBar = dev.bar) (cc : Nat) (other : cc ≠ dev.bar.cc) :
    settle (retarget dev { dev.bar with cc := cc }) = barsCc (retarget dev { dev.bar with cc := cc }) := by
  simp [settle, settleAqa, settleAsq, settleAcq, settleCc, retarget, seen, Ne.symm other]

theorem disable_settles (seen : dev.oldBar = dev.bar) (cc : Nat) (other : cc ≠ dev.bar.cc) (disables : Disables cc) :
    settle (retarget dev { dev.bar with cc := cc }) = .ok (withCc dev cc 0) := by
  rw [cc_settles dev seen cc other]
  simp [barsCc, barsShutdown, retarget, withCc, seen, disables.off, disables.stays]

theorem enable_settles (seen : dev.oldBar = dev.bar) (found : dev.adminQ = some queue) (cc : Nat) (other : cc ≠ dev.bar.cc) (enables : Enables cc) :
    settle (retarget dev { dev.bar with cc := cc }) = .ok (withCc dev cc 1) := by
  rw [cc_settles dev seen cc other]
  simp [barsCc, barsShutdown, retarget, withCc, seen, found, enables.on, enables.stays]

theorem shutdown_settles (seen : dev.oldBar = dev.bar) (found : dev.adminQ = some queue) (cc : Nat) (other : cc ≠ dev.bar.cc) (shuts : ShutsDown cc) :
    settle (retarget dev { dev.bar with cc := cc }) = .ok (cleared (withCc dev cc 1) queue) := by
  rw [cc_settles dev seen cc other]
  simp [barsCc, barsShutdown, retarget, withCc, cleared, clearDoorbell, seen, found, shuts.on, shuts.shut]

theorem codes_apart (first second : Nat) (apart : en first ≠ en second ∨ shn first ≠ shn second) : first ≠ second := by
  intro same
  rw [same] at apart
  simp at apart

def restarted (stop : Stop) (on : Nat) : Dev :=
  match stop with
  | .reset off => withCc (withCc dev off 0) on 1
  | .shutdown shut off => withCc (withCc (cleared (withCc dev shut 1) queue) off 0) on 1

theorem restart_leads (up : Up dev) (found : dev.adminQ = some queue) (stop : Stop) (codes : stop.Codes) (on : Nat) (enables : Enables on) :
    Waits dev (restartBlocks dev.bar stop on) ∧ outcome dev (restartBlocks dev.bar stop on) = .ok (restarted dev queue stop on) := by
  have there : dev.adminQ.isSome = true := by rw [found]; rfl
  cases stop with
  | reset off =>
      have disables : Disables off := codes
      have first := disable_settles dev up.seen off (codes_apart _ _ (.inl (by rw [disables.off, up.enabled.on]; decide))) disables
      have second := enable_settles (withCc dev off 0) queue rfl found on (codes_apart _ _ (.inl (by rw [enables.on]; simp [withCc, disables.off]))) enables
      refine ⟨⟨?_, .inl there, _, first, rfl, ?_, .inl there, _, second, rfl, trivial⟩, ?_⟩
      · show dev.rdy ≠ 0
        rw [up.rdy]
        decide
      · exact Nat.zero_ne_one
      · simp only [restartBlocks, stopBlocks, List.cons_append, List.nil_append, outcome, first]
        change (settle (retarget (withCc dev off 0) { dev.bar with cc := on }) >>= fun dev => Except.ok dev) = _
        rw [show settle (retarget (withCc dev off 0) { dev.bar with cc := on }) = .ok (withCc (withCc dev off 0) on 1) from second]
        rfl
  | shutdown shut off =>
      obtain ⟨shuts, disables⟩ : ShutsDown shut ∧ Disables off := codes
      have first := shutdown_settles dev queue up.seen found shut (codes_apart _ _ (.inr (by rw [shuts.shut]; exact up.enabled.stays.symm))) shuts
      have second := disable_settles (cleared (withCc dev shut 1) queue) rfl off (codes_apart _ _ (.inl (by
        rw [disables.off]
        show 0 ≠ en shut
        rw [shuts.on]
        decide))) disables
      have third := enable_settles (withCc (cleared (withCc dev shut 1) queue) off 0) _ rfl rfl on (codes_apart _ _ (.inl (by
        rw [enables.on]
        show 1 ≠ en off
        rw [disables.off]
        decide))) enables
      refine ⟨⟨up.shst, .inl there, _, first, rfl, ?_, .inl rfl, _, second, rfl, ?_, .inl rfl, _, third, rfl, trivial⟩, ?_⟩
      · exact Nat.one_ne_zero
      · exact Nat.zero_ne_one
      · simp only [restartBlocks, stopBlocks, List.cons_append, List.nil_append, outcome, first]
        change (settle (retarget (cleared (withCc dev shut 1) queue) { dev.bar with cc := off }) >>= fun dev' =>
          settle (retarget dev' { dev.bar with cc := on }) >>= fun dev => Except.ok dev) = _
        rw [show settle (retarget (cleared (withCc dev shut 1) queue) { dev.bar with cc := off }) = _ from second]
        change (settle (retarget (withCc (cleared (withCc dev shut 1) queue) off 0) { dev.bar with cc := on }) >>= fun dev => Except.ok dev) = _
        rw [show settle (retarget (withCc (cleared (withCc dev shut 1) queue) off 0) { dev.bar with cc := on }) = _ from third]
        rfl

end Restart

section Session

variable (layout : Layout) (start : Dev)

structure RegsKept (dev : Dev) : Prop where
  bar : dev.bar = start.bar
  rdy : dev.rdy = start.rdy
  shst : dev.shst = start.shst
  oldBar : dev.oldBar = start.oldBar

theorem post_reply_regs (dev after : Dev) (memory afterMemory : HostMemory) (queue : AdminQueue) (eid commandId : Nat) (reply : Option Reply)
    (ran : postReply dev memory queue eid commandId reply = .ok (after, afterMemory)) (kept : RegsKept start dev) : RegsKept start after := by
  cases reply with
  | none =>
      cases ran
      exact kept
  | some reply =>
      obtain ⟨_, _, result⟩ := bind_ok _ _ _ ran
      cases result
      exact ⟨kept.bar, kept.rdy, kept.shst, kept.oldBar⟩

theorem regs_invariant : TransitionSystem.Invariant (linkSystem layout start) (Obeys layout) fun link => RegsKept start link.dev := by
  refine ⟨fun link started => ?_, fun link next event kept _ taken => ?_⟩
  · have here : link.dev = start := LinkStart.dev started
    rw [here]
    exact ⟨rfl, rfl, rfl, rfl⟩
  · cases taken with
    | submit cmd => exact kept
    | ring => exact ⟨kept.bar, kept.rdy, kept.shst, kept.oldBar⟩
    | take new => exact ⟨kept.bar, kept.rdy, kept.shst, kept.oldBar⟩
    | look queue idle found rung => exact kept
    | serve pass left dev memory busy more ran =>
        obtain ⟨queue, place, middle, reply, _, _, performed, posted⟩ := proc_req_cases _ _ _ _ _ ran
        have untouched := (request_served link.dev _ middle reply performed).untouched
        refine post_reply_regs start middle dev _ memory queue _ _ reply posted ⟨?_, ?_, ?_, ?_⟩
        · exact untouched.bar.trans kept.bar
        · exact untouched.rdy.trans kept.rdy
        · exact untouched.shst.trans kept.shst
        · exact untouched.oldBar.trans kept.oldBar
    | finish pass busy all => exact ⟨kept.bar, kept.rdy, kept.shst, kept.oldBar⟩
    | lookCq idle =>
        show RegsKept start (procDbsAdminCq link.dev)
        unfold procDbsAdminCq
        split
        · exact kept
        · exact ⟨kept.bar, kept.rdy, kept.shst, kept.oldBar⟩
    | other dbs oldDbs db oldDb => exact ⟨kept.bar, kept.rdy, kept.shst, kept.oldBar⟩

theorem pass_phase_one (size n : Nat) : passPhase size n = 1 ↔ n / size % 2 = 0 := by
  unfold passPhase
  split <;> simp_all

theorem whole_laps (size n : Nat) : n % (2 * size) = 0 ↔ n / size % 2 = 0 ∧ n % size = 0 := by
  rw [Nat.mul_comm, Nat.mod_mul]
  constructor
  · intro zero
    have first : n % size = 0 := by omega
    have second : size * (n / size % 2) = 0 := by omega
    rcases Nat.mul_eq_zero.mp second with empty | even
    · refine ⟨?_, first⟩
      rw [empty, Nat.div_zero]
    · exact ⟨even, first⟩
  · rintro ⟨even, first⟩
    rw [even, first]
    rfl

theorem at_start_iff (dev : Dev) (queue : AdminQueue) (found : dev.adminQ = some queue) (fits : Fits layout queue) :
    AtStart layout dev ↔ queue.phase = 1 ∧ queue.cqHead = 0 ∧ dev.dbs 0 = 0 ∧ dev.oldDbs 0 = 0 := by
  constructor
  · rintro ⟨⟨other, there, _, phase, head⟩, db, oldDb⟩
    have same : queue = other := Option.some.inj (found.symm.trans there)
    rw [same]
    exact ⟨phase, head, db, oldDb⟩
  · rintro ⟨phase, head, db, oldDb⟩
    exact ⟨⟨queue, found, fits, phase, head⟩, db, oldDb⟩

theorem restarted_at_start (link : Link) (stop : Stop) (on : Nat) (alone : Dev) (answered : List (AdminCommand × Option Reply))
    (linked : Linked layout start link alone answered) (idle : link.pass = none) (queue : AdminQueue) (found : link.dev.adminQ = some queue) :
    AtStart layout (restarted link.dev queue stop on) ↔ InStep layout link stop := by
  obtain ⟨other, there, fits, phase, head⟩ := linked.queue
  have same : other = queue := Option.some.inj (there.symm.trans found)
  subst same
  have count : (completionsOf layout answered).length = posted link := serve_alone_counts layout answered start alone _ linked.ran
  rw [count] at phase head
  have atPass := linked.pass
  unfold PassAt at atPass
  rw [idle] at atPass
  cases stop with
  | reset off =>
      rw [at_start_iff layout (restarted link.dev other (.reset off) on) other there fits]
      show other.phase = 1 ∧ other.cqHead = 0 ∧ link.dev.dbs 0 = 0 ∧ link.dev.oldDbs 0 = 0 ↔ _
      rw [phase, head, linked.db, atPass, pass_phase_one, InStep, whole_laps, and_assoc]
  | shutdown shut off =>
      rw [at_start_iff layout (restarted link.dev other (.shutdown shut off) on) { other with cqHead := 0 } rfl
        ⟨fits.sqDepth, fits.cqDepth, fits.sq, fits.cq⟩]
      show other.phase = 1 ∧ 0 = 0 ∧ _ ↔ _
      rw [phase, pass_phase_one, InStep]
      simp [restarted, withCc, cleared, clearDoorbell]

-- After any session that has come to rest, stopping the controller and starting
-- it with the registers it had can always be brought to an end, and the queue is
-- then at its start just when the session ended in step.
theorem restart_in_step_iff (link : Link) (reached : TransitionSystem.Reach (linkSystem layout start) (Obeys layout) link)
    (idle : link.pass = none) (up : Up start) (stop : Stop) (codes : stop.Codes) (on : Nat) (enables : Enables on) (session : Session)
    (went : TransitionSystem.Reach (regSystem link.dev (restartBlocks start.bar stop on)) (fun _ _ => True) session) :
    (∃ last, Leads session last ∧ last.blocks = []) ∧ (session.blocks = [] → (AtStart layout session.dev ↔ InStep layout link stop)) := by
  obtain ⟨alone, answered, linked⟩ := TransitionSystem.reach_invariant _ _ _ (link_invariant layout start) link reached
  have kept := TransitionSystem.reach_invariant _ _ _ (regs_invariant layout start) link reached
  obtain ⟨queue, found, _⟩ := linked.queue
  have upNow : Up link.dev :=
    ⟨by rw [kept.oldBar, kept.bar, up.seen], by rw [kept.rdy, up.rdy], by rw [kept.shst]; exact up.shst, by rw [kept.bar]; exact up.enabled⟩
  have leads := restart_leads link.dev queue upNow found stop codes on enables
  rw [kept.bar] at leads
  refine ⟨sessions_end _ _ upNow.seen leads.1 session went, fun done => ?_⟩
  have result := registers_settle _ _ upNow.seen leads.1 session went done
  have same : restarted link.dev queue stop on = session.dev := Except.ok.inj (leads.2.symm.trans result)
  rw [← same]
  exact restarted_at_start layout start link stop on alone answered linked idle queue found

-- One completion is too few for a reset and does not matter to a shutdown.
theorem sample_restart : ∃ (link : Link) (afterReset afterShutdown : Session), link.submitted = [sampleCommand] ∧
    afterReset.blocks = [] ∧ ¬AtStart sampleLayout afterReset.dev ∧ afterShutdown.blocks = [] ∧ AtStart sampleLayout afterShutdown.dev := by
  obtain ⟨link, reached, idle, submitted, served, _⟩ := sample_link_reached
  have up : Up sampleStart := ⟨rfl, rfl, by decide, by decide, by decide⟩
  have one : posted link = 1 := by
    rw [posted, submitted, served]
    rfl
  have reset := restart_in_step_iff sampleLayout sampleStart link reached idle up (.reset 0) ⟨by decide, by decide⟩ 1 ⟨by decide, by decide⟩
  have shutdown := restart_in_step_iff sampleLayout sampleStart link reached idle up (.shutdown 0x4001 0)
    ⟨⟨by decide, by decide⟩, by decide, by decide⟩ 1 ⟨by decide, by decide⟩
  have first : TransitionSystem.Reach (regSystem link.dev (restartBlocks sampleStart.bar (.reset 0) 1)) (fun _ _ => True)
      ⟨link.dev, 0, restartBlocks sampleStart.bar (.reset 0) 1⟩ := .start _ rfl
  have second : TransitionSystem.Reach (regSystem link.dev (restartBlocks sampleStart.bar (.shutdown 0x4001 0) 1)) (fun _ _ => True)
      ⟨link.dev, 0, restartBlocks sampleStart.bar (.shutdown 0x4001 0) 1⟩ := .start _ rfl
  obtain ⟨afterReset, resetLeads, resetDone⟩ := (reset _ first).1
  obtain ⟨afterShutdown, shutdownLeads, shutdownDone⟩ := (shutdown _ second).1
  have resetIff := (reset afterReset (TransitionSystem.reach_onward _ _ _ _ first resetLeads)).2 resetDone
  have shutdownIff := (shutdown afterShutdown (TransitionSystem.reach_onward _ _ _ _ second shutdownLeads)).2 shutdownDone
  refine ⟨link, afterReset, afterShutdown, submitted, resetDone, ?_, shutdownDone, ?_⟩
  · rw [resetIff, InStep, one]
    exact fun inStep => absurd inStep.1 (by decide)
  · rw [shutdownIff, InStep, one]
    decide

end Session

end ConZone.Admin
