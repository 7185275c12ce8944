import ConZone.AdminRuns

set_option autoImplicit false

namespace ConZone.Admin

-- What the host waits for in CSTS.
inductive Wait where
  | rdy (value : Nat)
  | shst (value : Nat)

def Wait.passes : Wait → Dev → Prop
  | .rdy value, dev => dev.rdy = value
  | .shst value, dev => dev.shst = value

-- The host writes AQA, ASQ, ACQ and CC in this order and then waits. Writing
-- the value a register has is the same as leaving it.
structure Block where
  target : Regs
  wait : Wait

def writeRegister (target : Regs) (bar : Regs) : Nat → Regs
  | 0 => { bar with aqa := target.aqa }
  | 1 => { bar with asq := target.asq }
  | 2 => { bar with acq := target.acq }
  | _ => { bar with cc := target.cc }

-- written counts the registers of the first block that are written.
structure Session where
  dev : Dev
  written : Nat
  blocks : List Block

inductive RegEvent where
  | write
  | pass
  | poll

inductive RegStep : Session → RegEvent → Session → Prop where
  | write (dev : Dev) (written : Nat) (block : Block) (rest : List Block) (more : written < 4) :
      RegStep ⟨dev, written, block :: rest⟩ .write ⟨{ dev with bar := writeRegister block.target dev.bar written }, written + 1, block :: rest⟩
  | pass (dev : Dev) (block : Block) (rest : List Block) (passes : block.wait.passes dev) :
      RegStep ⟨dev, 4, block :: rest⟩ .pass ⟨dev, 0, rest⟩
  | poll (dev next : Dev) (written : Nat) (blocks : List Block) (found : Bool) (ran : nvmevProcBars dev = .ok (found, next)) :
      RegStep ⟨dev, written, blocks⟩ .poll ⟨next, written, blocks⟩

def regSystem (start : Dev) (blocks : List Block) : TransitionSystem.System Session RegEvent :=
  ⟨fun session => session = ⟨start, 0, blocks⟩, RegStep⟩

def settleAqa (dev : Dev) : Dev := if dev.oldBar.aqa ≠ dev.bar.aqa then barsAqa dev else dev
def settleAsq (dev : Dev) : Dev := if dev.oldBar.asq ≠ dev.bar.asq then barsAsq dev else dev
def settleAcq (dev : Dev) : Dev := if dev.oldBar.acq ≠ dev.bar.acq then barsAcq dev else dev
def settleCc (dev : Dev) : Exec Dev := if dev.oldBar.cc ≠ dev.bar.cc then barsCc dev else .ok dev

def settle (dev : Dev) : Exec Dev := settleCc (settleAcq (settleAsq (settleAqa dev)))

def retarget (dev : Dev) (target : Regs) : Dev := { dev with bar := target }

def outcome : Dev → List Block → Exec Dev
  | dev, [] => .ok dev
  | dev, block :: rest => do
      let dev ← settle (retarget dev block.target)
      outcome dev rest

-- The wait of each block is for what the block brings about, and there is an
-- admin queue or will be one.
def Waits : Dev → List Block → Prop
  | _, [] => True
  | dev, block :: rest => ¬block.wait.passes dev ∧ (dev.adminQ.isSome = true ∨ dev.oldBar.aqa ≠ block.target.aqa) ∧
      ∃ next, settle (retarget dev block.target) = .ok next ∧ block.wait.passes next ∧ Waits next rest

def register (regs : Regs) : Nat → Nat
  | 0 => regs.aqa
  | 1 => regs.asq
  | 2 => regs.acq
  | _ => regs.cc

structure Within (base : Dev) (block : Block) (written : Nat) (dev : Dev) : Prop where
  bar : ∀ index, index < 4 → register dev.bar index = register (if index < written then block.target else base.bar) index
  seen : ∀ index, index < 4 → register dev.oldBar index = register dev.bar index ∨ register dev.oldBar index = register base.bar index
  queue : dev.adminQ.isSome = true ∨ dev.oldBar.aqa ≠ block.target.aqa
  leads : settle (retarget dev block.target) = settle (retarget base block.target)
  waits : block.wait.passes dev → dev.bar = block.target ∧ dev.oldBar = block.target

section Registers

theorem regs_ext (first second : Regs) (same : ∀ index, index < 4 → register first index = register second index) : first = second := by
  have aqa := same 0 (by decide)
  have asq := same 1 (by decide)
  have acq := same 2 (by decide)
  have cc := same 3 (by decide)
  cases first
  cases second
  simp only [register] at aqa asq acq cc
  simp only [aqa, asq, acq, cc]

theorem write_register (target bar : Regs) (written index : Nat) (inside : written < 4) (which : index < 4) :
    register (writeRegister target bar written) index = if index = written then register target index else register bar index := by
  have rounds : written = 0 ∨ written = 1 ∨ written = 2 ∨ written = 3 := by omega
  have indexes : index = 0 ∨ index = 1 ∨ index = 2 ∨ index = 3 := by omega
  rcases rounds with rfl | rfl | rfl | rfl <;> rcases indexes with rfl | rfl | rfl | rfl <;> rfl

variable (base : Dev) (block : Block) (written : Nat) (dev : Dev)

theorem pending_written (within : Within base block written dev) (index : Nat) (inside : index < 4)
    (pending : register dev.oldBar index ≠ register dev.bar index) : index < written := by
  by_contra later
  have bar := within.bar index inside
  rw [if_neg later] at bar
  rcases within.seen index inside with same | old
  · exact pending same
  · exact pending (old.trans bar.symm)

theorem pending_target (within : Within base block written dev) (index earlier : Nat) (inside : index < 4) (before : earlier ≤ index)
    (pending : register dev.oldBar index ≠ register dev.bar index) : register dev.bar earlier = register block.target earlier := by
  have reached := pending_written base block written dev within index inside pending
  have bar := within.bar earlier (by omega)
  rw [if_pos (by omega)] at bar
  exact bar

end Registers

section Changes

variable (dev : Dev) (target : Regs)

theorem bars_aqa_retarget (same : dev.bar.aqa = target.aqa) : retarget (barsAqa dev) target = barsAqa (retarget dev target) := by
  simp only [barsAqa, retarget, clearDoorbell, same]

theorem bars_asq_retarget (aqa : dev.bar.aqa = target.aqa) (asq : dev.bar.asq = target.asq) :
    retarget (barsAsq dev) target = barsAsq (retarget dev target) := by
  unfold barsAsq
  cases found : dev.adminQ <;> simp only [retarget, clearDoorbell, found, aqa, asq]

theorem bars_acq_retarget (aqa : dev.bar.aqa = target.aqa) (acq : dev.bar.acq = target.acq) :
    retarget (barsAcq dev) target = barsAcq (retarget dev target) := by
  unfold barsAcq
  cases found : dev.adminQ <;> simp only [retarget, clearDoorbell, found, aqa, acq]

structure Changed (next : Dev) : Prop where
  bar : next.bar = dev.bar
  rdy : next.rdy = dev.rdy
  shst : next.shst = dev.shst
  queue : next.adminQ.isSome = true

theorem bars_aqa_changed : Changed dev (barsAqa dev) ∧ (barsAqa dev).oldBar = { dev.oldBar with aqa := dev.bar.aqa } :=
  ⟨⟨rfl, rfl, rfl, rfl⟩, rfl⟩

theorem bars_asq_changed (queue : dev.adminQ.isSome = true) :
    Changed dev (barsAsq dev) ∧ (barsAsq dev).oldBar = { dev.oldBar with asq := dev.bar.asq } := by
  obtain ⟨found, there⟩ := Option.isSome_iff_exists.mp queue
  simp only [barsAsq, there]
  exact ⟨⟨rfl, rfl, rfl, rfl⟩, rfl⟩

theorem bars_acq_changed (queue : dev.adminQ.isSome = true) :
    Changed dev (barsAcq dev) ∧ (barsAcq dev).oldBar = { dev.oldBar with acq := dev.bar.acq } := by
  obtain ⟨found, there⟩ := Option.isSome_iff_exists.mp queue
  simp only [barsAcq, there]
  exact ⟨⟨rfl, rfl, rfl, rfl⟩, rfl⟩

theorem bars_cc_changed (next : Dev) (ran : barsCc dev = .ok next) :
    next.bar = dev.bar ∧ next.oldBar = { dev.oldBar with cc := dev.bar.cc } ∧ (dev.adminQ.isSome = true → next.adminQ.isSome = true) := by
  unfold barsCc barsShutdown at ran
  by_cases shut : shn dev.bar.cc = 1
  · cases found : dev.adminQ with
    | none =>
        simp only [shut, if_true, found] at ran
        cases ran
    | some queue =>
        simp only [shut, if_true, found] at ran
        cases ran
        exact ⟨rfl, rfl, fun _ => rfl⟩
  · simp only [if_neg shut] at ran
    cases ran
    exact ⟨rfl, rfl, id⟩

end Changes

section Polls

variable (base : Dev) (block : Block) (written : Nat) (dev next : Dev)

theorem change_within (index : Nat) (within : Within base block written dev)
    (pending : register dev.oldBar index ≠ register dev.bar index) (changed : Changed dev next)
    (oldBar : ∀ other, other < 4 → register next.oldBar other = if other = index then register dev.bar index else register dev.oldBar other)
    (leads : settle (retarget next block.target) = settle (retarget dev block.target)) : Within base block written next := by
  refine ⟨fun other inside => ?_, fun other inside => ?_, .inl changed.queue, leads.trans within.leads, fun passes => ?_⟩
  · rw [changed.bar]
    exact within.bar other inside
  · rw [changed.bar, oldBar other inside]
    by_cases here : other = index
    · rw [if_pos here, here]
      exact .inl rfl
    · rw [if_neg here]
      exact within.seen other inside
  · have before : block.wait.passes dev := by
      cases wait : block.wait with
      | rdy value =>
          rw [wait] at passes
          exact changed.rdy.symm.trans passes
      | shst value =>
          rw [wait] at passes
          exact changed.shst.symm.trans passes
    obtain ⟨bar, old⟩ := within.waits before
    rw [bar, old] at pending
    exact absurd rfl pending

theorem poll_aqa (within : Within base block written dev) (pending : dev.oldBar.aqa ≠ dev.bar.aqa) :
    Within base block written (barsAqa dev) := by
  obtain ⟨changed, old⟩ := bars_aqa_changed dev
  have aqa : dev.bar.aqa = block.target.aqa := pending_target base block written dev within 0 0 (by decide) (by decide) pending
  refine change_within base block written dev _ 0 within pending changed ?_ ?_
  · intro other inside
    rw [old]
    have indexes : other = 0 ∨ other = 1 ∨ other = 2 ∨ other = 3 := by omega
    rcases indexes with rfl | rfl | rfl | rfl <;> rfl
  · have now : settleAqa (retarget dev block.target) = retarget (barsAqa dev) block.target := by
      rw [bars_aqa_retarget dev block.target aqa]
      exact if_pos fun same => pending (same.trans aqa.symm)
    have again : settleAqa (retarget (barsAqa dev) block.target) = retarget (barsAqa dev) block.target := if_neg (not_not.mpr aqa)
    rw [settle, settle, now, again]

theorem poll_asq (within : Within base block written dev) (seen : dev.oldBar.aqa = dev.bar.aqa) (pending : dev.oldBar.asq ≠ dev.bar.asq) :
    Within base block written (barsAsq dev) := by
  have aqa : dev.bar.aqa = block.target.aqa := pending_target base block written dev within 1 0 (by decide) (by decide) pending
  have asq : dev.bar.asq = block.target.asq := pending_target base block written dev within 1 1 (by decide) (by decide) pending
  have queue : dev.adminQ.isSome = true := within.queue.resolve_right (not_not.mpr (seen.trans aqa))
  obtain ⟨changed, old⟩ := bars_asq_changed dev queue
  refine change_within base block written dev _ 1 within pending changed ?_ ?_
  · intro other inside
    rw [old]
    have indexes : other = 0 ∨ other = 1 ∨ other = 2 ∨ other = 3 := by omega
    rcases indexes with rfl | rfl | rfl | rfl <;> rfl
  · have first : settleAqa (retarget dev block.target) = retarget dev block.target := if_neg (not_not.mpr (seen.trans aqa))
    have firstAfter : settleAqa (retarget (barsAsq dev) block.target) = retarget (barsAsq dev) block.target := by
      refine if_neg (not_not.mpr ?_)
      simp only [retarget, old]
      exact seen.trans aqa
    have now : settleAsq (retarget dev block.target) = retarget (barsAsq dev) block.target := by
      rw [bars_asq_retarget dev block.target aqa asq]
      exact if_pos fun same => pending (same.trans asq.symm)
    have again : settleAsq (retarget (barsAsq dev) block.target) = retarget (barsAsq dev) block.target := by
      refine if_neg (not_not.mpr ?_)
      simp only [retarget, old]
      exact asq
    rw [settle, settle, first, firstAfter, now, again]

theorem poll_acq (within : Within base block written dev) (seenAqa : dev.oldBar.aqa = dev.bar.aqa) (seenAsq : dev.oldBar.asq = dev.bar.asq)
    (pending : dev.oldBar.acq ≠ dev.bar.acq) : Within base block written (barsAcq dev) := by
  have aqa : dev.bar.aqa = block.target.aqa := pending_target base block written dev within 2 0 (by decide) (by decide) pending
  have asq : dev.bar.asq = block.target.asq := pending_target base block written dev within 2 1 (by decide) (by decide) pending
  have acq : dev.bar.acq = block.target.acq := pending_target base block written dev within 2 2 (by decide) (by decide) pending
  have queue : dev.adminQ.isSome = true := within.queue.resolve_right (not_not.mpr (seenAqa.trans aqa))
  obtain ⟨changed, old⟩ := bars_acq_changed dev queue
  refine change_within base block written dev _ 2 within pending changed ?_ ?_
  · intro other inside
    rw [old]
    have indexes : other = 0 ∨ other = 1 ∨ other = 2 ∨ other = 3 := by omega
    rcases indexes with rfl | rfl | rfl | rfl <;> rfl
  · have first : settleAqa (retarget dev block.target) = retarget dev block.target := if_neg (not_not.mpr (seenAqa.trans aqa))
    have second : settleAsq (retarget dev block.target) = retarget dev block.target := if_neg (not_not.mpr (seenAsq.trans asq))
    have firstAfter : settleAqa (retarget (barsAcq dev) block.target) = retarget (barsAcq dev) block.target := by
      refine if_neg (not_not.mpr ?_)
      simp only [retarget, old]
      exact seenAqa.trans aqa
    have secondAfter : settleAsq (retarget (barsAcq dev) block.target) = retarget (barsAcq dev) block.target := by
      refine if_neg (not_not.mpr ?_)
      simp only [retarget, old]
      exact seenAsq.trans asq
    have now : settleAcq (retarget dev block.target) = retarget (barsAcq dev) block.target := by
      rw [bars_acq_retarget dev block.target aqa acq]
      exact if_pos fun same => pending (same.trans acq.symm)
    have again : settleAcq (retarget (barsAcq dev) block.target) = retarget (barsAcq dev) block.target := by
      refine if_neg (not_not.mpr ?_)
      simp only [retarget, old]
      exact acq
    rw [settle, settle, first, firstAfter, second, secondAfter, now, again]

theorem poll_cc (within : Within base block written dev) (seenAqa : dev.oldBar.aqa = dev.bar.aqa) (seenAsq : dev.oldBar.asq = dev.bar.asq)
    (seenAcq : dev.oldBar.acq = dev.bar.acq) (pending : dev.oldBar.cc ≠ dev.bar.cc) (ran : barsCc dev = .ok next) :
    Within base block written next := by
  have all : dev.bar = block.target :=
    regs_ext _ _ fun index inside => pending_target base block written dev within 3 index (by decide) (by omega) pending
  have queue : dev.adminQ.isSome = true := within.queue.resolve_right (not_not.mpr (all ▸ seenAqa))
  obtain ⟨bar, old, kept⟩ := bars_cc_changed dev next ran
  have settled : next.oldBar = dev.bar := by
    rw [old]
    simp only [seenAqa, seenAsq, seenAcq]
  refine ⟨fun index inside => ?_, fun index _ => .inl ?_, .inl (kept queue), ?_, fun _ => ⟨bar.trans all, settled.trans all⟩⟩
  · rw [bar]
    exact within.bar index inside
  · rw [bar, settled]
  · have same : retarget dev block.target = dev := by rw [retarget, ← all]
    have sameNext : retarget next block.target = next := by rw [retarget, ← all, ← bar]
    have now : settle dev = .ok next := by
      rw [settle, settleAqa, if_neg (not_not.mpr seenAqa), settleAsq, if_neg (not_not.mpr seenAsq), settleAcq, if_neg (not_not.mpr seenAcq),
        settleCc, if_pos pending, ran]
    have after : settle next = .ok next := by
      rw [settle, settleAqa, if_neg (by simp [settled, bar]), settleAsq, if_neg (by simp [settled, bar]), settleAcq,
        if_neg (by simp [settled, bar]), settleCc, if_neg (by simp [settled, bar])]
    rw [← within.leads, same, sameNext, now, after]

theorem poll_within (within : Within base block written dev) (found : Bool) (ran : nvmevProcBars dev = .ok (found, next)) :
    Within base block written next := by
  unfold nvmevProcBars at ran
  by_cases aqa : dev.oldBar.aqa = dev.bar.aqa
  · by_cases asq : dev.oldBar.asq = dev.bar.asq
    · by_cases acq : dev.oldBar.acq = dev.bar.acq
      · by_cases cc : dev.oldBar.cc = dev.bar.cc
        · simp only [aqa, asq, acq, cc, ne_eq, not_true_eq_false, if_false] at ran
          cases ran
          exact within
        · simp only [aqa, asq, acq, cc, ne_eq, not_true_eq_false, if_false, not_false_eq_true, if_true] at ran
          obtain ⟨after, changed, result⟩ := bind_ok _ _ _ ran
          cases result
          exact poll_cc base block written dev next within aqa asq acq cc changed
      · simp only [aqa, asq, acq, ne_eq, not_true_eq_false, if_false, not_false_eq_true, if_true] at ran
        cases ran
        exact poll_acq base block written dev within aqa asq acq
    · simp only [aqa, asq, ne_eq, not_true_eq_false, if_false, not_false_eq_true, if_true] at ran
      cases ran
      exact poll_asq base block written dev within aqa asq
  · simp only [aqa, ne_eq, not_false_eq_true, if_true] at ran
    cases ran
    exact poll_aqa base block written dev within aqa

end Polls

def OnTheWay (start : Dev) (blocks : List Block) (session : Session) : Prop :=
  ∃ base, base.oldBar = base.bar ∧ Waits base session.blocks ∧ outcome base session.blocks = outcome start blocks ∧
    session.written ≤ 4 ∧ (session.blocks = [] → session.dev = base) ∧
    ∀ block rest, session.blocks = block :: rest → Within base block session.written session.dev

section Sessions

variable (start : Dev) (blocks : List Block)

theorem settle_seen (dev : Dev) (seen : dev.oldBar = dev.bar) : settle dev = .ok dev := by
  simp [settle, settleAqa, settleAsq, settleAcq, settleCc, seen]

theorem poll_seen (dev next : Dev) (found : Bool) (seen : dev.oldBar = dev.bar) (ran : nvmevProcBars dev = .ok (found, next)) : next = dev := by
  simp only [nvmevProcBars, seen, ne_eq, not_true_eq_false, if_false] at ran
  cases ran
  rfl

theorem block_begins (base : Dev) (session : Session) (seen : base.oldBar = base.bar) (waits : Waits base session.blocks)
    (first : session.written = 0) (here : session.dev = base) (block : Block) (rest : List Block) (next : session.blocks = block :: rest) :
    Within base block session.written session.dev := by
  rw [next] at waits
  obtain ⟨fresh, queue, _⟩ := waits
  rw [first, here]
  refine ⟨fun index _ => ?_, fun index _ => .inl (by rw [seen]), queue, rfl, fun passes => absurd passes fresh⟩
  rw [if_neg (Nat.not_lt_zero index)]

theorem write_within (base dev : Dev) (block : Block) (written : Nat) (more : written < 4) (within : Within base block written dev) :
    Within base block (written + 1) { dev with bar := writeRegister block.target dev.bar written } := by
  refine ⟨fun index inside => ?_, fun index inside => ?_, within.queue, within.leads, fun passes => ?_⟩
  · rw [write_register block.target dev.bar written index more inside]
    by_cases here : index = written
    · rw [if_pos here, if_pos (by omega)]
    · rw [if_neg here, within.bar index inside]
      by_cases before : index < written
      · rw [if_pos before, if_pos (by omega)]
      · rw [if_neg before, if_neg (by omega)]
  · rw [write_register block.target dev.bar written index more inside]
    by_cases here : index = written
    · -- Its earlier value is that from before the block.
      have unwritten := within.bar index inside
      rw [if_neg (by omega)] at unwritten
      rcases within.seen index inside with same | old
      · exact .inr (same.trans unwritten)
      · exact .inr old
    · rw [if_neg here]
      exact within.seen index inside
  · have before : block.wait.passes dev := by
      cases wait : block.wait <;> rw [wait] at passes <;> exact passes
    obtain ⟨bar, old⟩ := within.waits before
    refine ⟨regs_ext _ _ fun index inside => ?_, old⟩
    rw [write_register block.target dev.bar written index more inside, bar]
    exact ite_self _

theorem on_the_way : TransitionSystem.Invariant (regSystem start blocks) (fun _ _ => True) fun session =>
    start.oldBar = start.bar → Waits start blocks → OnTheWay start blocks session := by
  refine ⟨fun session begun seen waits => ?_, fun session next event way _ taken seen waits => ?_⟩
  · have fresh : session = ⟨start, 0, blocks⟩ := begun
    subst fresh
    exact ⟨start, seen, waits, rfl, Nat.zero_le _, fun _ => rfl, block_begins start ⟨start, 0, blocks⟩ seen waits rfl rfl⟩
  · obtain ⟨base, based, left, whole, bound, ended, within⟩ := way seen waits
    cases taken with
    | write dev written block rest more =>
        refine ⟨base, based, left, whole, more, ?_, fun other others same => ?_⟩
        · intro noBlocks
          cases noBlocks
        · cases same
          exact write_within base dev block written more (within block rest rfl)
    | pass dev block rest passes =>
        have here := within block rest rfl
        obtain ⟨bar, old⟩ := here.waits passes
        have settled : dev.oldBar = dev.bar := old.trans bar.symm
        have same : retarget dev block.target = dev := by rw [retarget, ← bar]
        have leads : settle (retarget base block.target) = .ok dev := by
          rw [← here.leads, same]
          exact settle_seen dev settled
        obtain ⟨next, result, _, onward⟩ := left.2.2
        have reached : next = dev := Except.ok.inj (result.symm.trans leads)
        rw [reached] at onward
        refine ⟨dev, settled, onward, ?_, Nat.zero_le _, fun _ => rfl, block_begins dev ⟨dev, 0, rest⟩ settled onward rfl rfl⟩
        rw [← whole]
        simp only [outcome, leads]
        rfl
    | poll dev after written blocks found ran =>
        refine ⟨base, based, left, whole, bound, fun noBlocks => ?_, fun block rest same => ?_⟩
        · have here := ended noBlocks
          have here : dev = base := here
          rw [← here] at based ⊢
          exact poll_seen dev after found based ran
        · exact poll_within base block written dev after (within block rest same) found ran

theorem registers_settle (seen : start.oldBar = start.bar) (waits : Waits start blocks) (session : Session)
    (reached : TransitionSystem.Reach (regSystem start blocks) (fun _ _ => True) session) (done : session.blocks = []) :
    outcome start blocks = .ok session.dev := by
  obtain ⟨base, _, _, whole, _, ended, _⟩ :=
    TransitionSystem.reach_invariant _ _ _ (on_the_way start blocks) session reached seen waits
  rw [← whole, done, ended done]
  rfl

end Sessions

section Progress

def Leads (first last : Session) : Prop := TransitionSystem.Reach ⟨fun session => session = first, RegStep⟩ (fun _ _ => True) last

theorem leads_refl (session : Session) : Leads session session := .start session rfl

theorem leads_trans (first middle last : Session) (before : Leads first middle) (after : Leads middle last) : Leads first last :=
  TransitionSystem.reach_onward ⟨fun session => session = first, RegStep⟩ _ middle last before after

theorem leads_step (session next : Session) (event : RegEvent) (taken : RegStep session event next) : Leads session next :=
  .next session next event (.start session rfl) trivial taken

variable (written : Nat) (blocks : List Block) (dev : Dev)

theorem poll_leads (next : Dev) (ran : nvmevProcBars dev = .ok (true, next)) : Leads ⟨dev, written, blocks⟩ ⟨next, written, blocks⟩ :=
  leads_step _ _ .poll (.poll dev next written blocks true ran)

theorem settle_aqa_leads : Leads ⟨dev, written, blocks⟩ ⟨settleAqa dev, written, blocks⟩ ∧
    (settleAqa dev).oldBar.aqa = (settleAqa dev).bar.aqa := by
  unfold settleAqa
  by_cases seen : dev.oldBar.aqa = dev.bar.aqa
  · rw [if_neg (not_not.mpr seen)]
    exact ⟨leads_refl _, seen⟩
  · rw [if_pos seen]
    exact ⟨poll_leads written blocks dev _ (by simp [nvmevProcBars, seen]), rfl⟩

theorem settle_asq_leads (aqa : dev.oldBar.aqa = dev.bar.aqa) (queue : dev.adminQ.isSome = true) :
    Leads ⟨dev, written, blocks⟩ ⟨settleAsq dev, written, blocks⟩ ∧ (settleAsq dev).adminQ.isSome = true ∧
      (settleAsq dev).oldBar.aqa = (settleAsq dev).bar.aqa ∧ (settleAsq dev).oldBar.asq = (settleAsq dev).bar.asq := by
  unfold settleAsq
  by_cases seen : dev.oldBar.asq = dev.bar.asq
  · rw [if_neg (not_not.mpr seen)]
    exact ⟨leads_refl _, queue, aqa, seen⟩
  · obtain ⟨changed, old⟩ := bars_asq_changed dev queue
    rw [if_pos seen, changed.bar, old]
    exact ⟨poll_leads written blocks dev _ (by simp [nvmevProcBars, aqa, seen]), changed.queue, aqa, rfl⟩

theorem settle_acq_leads (aqa : dev.oldBar.aqa = dev.bar.aqa) (asq : dev.oldBar.asq = dev.bar.asq) (queue : dev.adminQ.isSome = true) :
    Leads ⟨dev, written, blocks⟩ ⟨settleAcq dev, written, blocks⟩ ∧ (settleAcq dev).oldBar.aqa = (settleAcq dev).bar.aqa ∧
      (settleAcq dev).oldBar.asq = (settleAcq dev).bar.asq ∧ (settleAcq dev).oldBar.acq = (settleAcq dev).bar.acq := by
  unfold settleAcq
  by_cases seen : dev.oldBar.acq = dev.bar.acq
  · rw [if_neg (not_not.mpr seen)]
    exact ⟨leads_refl _, aqa, asq, seen⟩
  · obtain ⟨changed, old⟩ := bars_acq_changed dev queue
    rw [if_pos seen, changed.bar, old]
    exact ⟨poll_leads written blocks dev _ (by simp [nvmevProcBars, aqa, asq, seen]), aqa, asq, rfl⟩

theorem settle_aqa_queue (queue : dev.adminQ.isSome = true ∨ dev.oldBar.aqa ≠ dev.bar.aqa) : (settleAqa dev).adminQ.isSome = true := by
  unfold settleAqa
  by_cases seen : dev.oldBar.aqa = dev.bar.aqa
  · rw [if_neg (not_not.mpr seen)]
    exact queue.resolve_right (not_not.mpr seen)
  · rw [if_pos seen]
    rfl

theorem settle_cc_leads (next : Dev) (aqa : dev.oldBar.aqa = dev.bar.aqa) (asq : dev.oldBar.asq = dev.bar.asq)
    (acq : dev.oldBar.acq = dev.bar.acq) (ran : settleCc dev = .ok next) :
    Leads ⟨dev, written, blocks⟩ ⟨next, written, blocks⟩ ∧ next.oldBar = next.bar := by
  unfold settleCc at ran
  by_cases seen : dev.oldBar.cc = dev.bar.cc
  · rw [if_neg (not_not.mpr seen)] at ran
    cases ran
    refine ⟨leads_refl _, regs_ext _ _ fun index inside => ?_⟩
    have indexes : index = 0 ∨ index = 1 ∨ index = 2 ∨ index = 3 := by omega
    rcases indexes with rfl | rfl | rfl | rfl <;> assumption
  · rw [if_pos seen] at ran
    obtain ⟨bar, old, _⟩ := bars_cc_changed dev next ran
    refine ⟨poll_leads written blocks dev next (by simp [nvmevProcBars, aqa, asq, acq, seen, ran]), ?_⟩
    rw [bar, old]
    simp only [aqa, asq, acq]

theorem settle_leads (next : Dev) (queue : dev.adminQ.isSome = true ∨ dev.oldBar.aqa ≠ dev.bar.aqa) (ran : settle dev = .ok next) :
    Leads ⟨dev, written, blocks⟩ ⟨next, written, blocks⟩ ∧ next.oldBar = next.bar := by
  obtain ⟨first, aqa⟩ := settle_aqa_leads written blocks dev
  obtain ⟨second, there, aqa, asq⟩ := settle_asq_leads written blocks (settleAqa dev) aqa (settle_aqa_queue dev queue)
  obtain ⟨third, aqa, asq, acq⟩ := settle_acq_leads written blocks _ aqa asq there
  obtain ⟨last, seen⟩ := settle_cc_leads written blocks _ next aqa asq acq ran
  exact ⟨leads_trans _ _ _ first (leads_trans _ _ _ second (leads_trans _ _ _ third last)), seen⟩

theorem writes_lead (base : Dev) (block : Block) (rest : List Block) (left : Nat) (all : written + left = 4) (within : Within base block written dev) :
    ∃ after, Leads ⟨dev, written, block :: rest⟩ ⟨after, 4, block :: rest⟩ ∧ Within base block 4 after := by
  induction left generalizing written dev with
  | zero =>
      have four : written = 4 := all
      subst four
      exact ⟨dev, leads_refl _, within⟩
  | succ left ih =>
      have more : written < 4 := by omega
      obtain ⟨after, onward, there⟩ := ih (written + 1) _ (by omega) (write_within base dev block written more within)
      exact ⟨after, leads_trans _ _ _ (leads_step _ _ .write (.write dev written block rest more)) onward, there⟩

theorem blocks_lead (base : Dev) (based : base.oldBar = base.bar) (waits : Waits base blocks) (bound : written ≤ 4)
    (ended : blocks = [] → dev = base) (within : ∀ block rest, blocks = block :: rest → Within base block written dev) :
    ∃ last, Leads ⟨dev, written, blocks⟩ last ∧ last.blocks = [] := by
  induction blocks generalizing base written dev with
  | nil => exact ⟨_, leads_refl _, rfl⟩
  | cons block rest ih =>
      obtain ⟨next, result, passes, onward⟩ := waits.2.2
      obtain ⟨after, wrote, here⟩ := writes_lead written dev base block rest (4 - written) (by omega) (within block rest rfl)
      have target : after.bar = block.target := regs_ext _ _ fun index inside => by rw [here.bar index inside, if_pos inside]
      have same : retarget after block.target = after := by rw [retarget, ← target]
      have ran : settle after = .ok next := by rw [← same, here.leads, result]
      obtain ⟨polled, settled⟩ := settle_leads 4 (block :: rest) after next (by rw [target]; exact here.queue) ran
      have passed := leads_step _ _ .pass (.pass next block rest passes)
      obtain ⟨last, finish, done⟩ := ih 0 next next settled onward (by omega) (fun _ => rfl) (block_begins next ⟨next, 0, rest⟩ settled onward rfl rfl)
      exact ⟨last, leads_trans _ _ _ wrote (leads_trans _ _ _ polled (leads_trans _ _ _ passed finish)), done⟩

theorem sessions_end (start : Dev) (blocks : List Block) (seen : start.oldBar = start.bar) (waits : Waits start blocks) (session : Session)
    (reached : TransitionSystem.Reach (regSystem start blocks) (fun _ _ => True) session) : ∃ last, Leads session last ∧ last.blocks = [] := by
  obtain ⟨base, based, left, _, bound, ended, within⟩ :=
    TransitionSystem.reach_invariant _ _ _ (on_the_way start blocks) session reached seen waits
  obtain ⟨dev, written, blocks⟩ := session
  exact blocks_lead written blocks dev base based left bound ended within

end Progress

end ConZone.Admin
