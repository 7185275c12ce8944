import ConZone.CreditRing
import ConZone.Device

set_option autoImplicit false

namespace ConZone

section Loop

-- The while (1) of the credit loop, from the units that remain.
inductive CreditLoop (head : Nat) : Nat → CreditScan → CreditScan → Prop where
  | leave (remaining : Nat) (scan : CreditScan)
      (ends : remaining - min remaining (scan.credits scan.pos) = 0 ∨ (scan.pos + 1) % nrCreditEntries = head) :
      CreditLoop head remaining scan
        { scan with credits := Function.update scan.credits scan.pos (scan.credits scan.pos - min remaining (scan.credits scan.pos)) }
  | again (remaining : Nat) (scan last : CreditScan)
      (goes : ¬(remaining - min remaining (scan.credits scan.pos) = 0 ∨ (scan.pos + 1) % nrCreditEntries = head))
      (rest : CreditLoop head (remaining - min remaining (scan.credits scan.pos))
        ⟨Function.update scan.credits scan.pos (scan.credits scan.pos - min remaining (scan.credits scan.pos)),
          (scan.pos + 1) % nrCreditEntries, scan.delay + 1⟩ last) : CreditLoop head remaining scan last

theorem consumed_min (remaining available : Nat) : (if remaining ≤ available then remaining else available) = min remaining available := rfl

theorem ring_positive : 0 < nrCreditEntries := by decide

theorem next_slot (head offs : Nat) :
    (CreditRing.slot nrCreditEntries head offs + 1) % nrCreditEntries = CreditRing.slot nrCreditEntries head (offs + 1) := by
  unfold CreditRing.slot
  rw [Nat.mod_add_mod, Nat.add_assoc]

theorem next_slot_head (head offs : Nat) (headInside : head < nrCreditEntries) (inside : offs < nrCreditEntries) :
    CreditRing.slot nrCreditEntries head (offs + 1) = head ↔ offs + 1 = nrCreditEntries := by
  constructor
  · intro same
    by_contra more
    have steps := CreditRing.behind_slot nrCreditEntries head (offs + 1) headInside (by omega)
    have none := CreditRing.behind_slot nrCreditEntries head 0 headInside ring_positive
    have start : CreditRing.slot nrCreditEntries head 0 = head := Nat.mod_eq_of_lt headInside
    rw [same] at steps
    rw [start] at none
    omega
  · intro last
    unfold CreditRing.slot
    rw [last, Nat.add_mod_right, Nat.mod_eq_of_lt headInside]

structure LoopEnds (head offs remaining : Nat) (before after : CreditScan) (slots : Nat) : Prop where
  taken : CreditRing.Taken nrCreditEntries (head + offs) (nrCreditEntries - offs) remaining before.credits after.credits slots
  pos : after.pos = CreditRing.slot nrCreditEntries head (offs + slots - 1)
  delay : after.delay = before.delay + slots - 1

theorem consume_credits_loop (head offs fuel remaining : Nat) (scan : CreditScan) (headInside : head < nrCreditEntries)
    (inside : offs < nrCreditEntries) (pos : scan.pos = CreditRing.slot nrCreditEntries head offs)
    (enough : nrCreditEntries - offs ≤ fuel) :
    CreditLoop head remaining scan (consumeCredits head fuel remaining scan) ∧
      ∃ slots, LoopEnds head offs remaining scan (consumeCredits head fuel remaining scan) slots := by
  induction fuel generalizing offs remaining scan with
  | zero => omega
  | succ fuel ih =>
      have next : (scan.pos + 1) % nrCreditEntries = CreditRing.slot nrCreditEntries head (offs + 1) := by
        rw [pos, next_slot]
      have here : scan.pos = CreditRing.slot nrCreditEntries (head + offs) 0 := by
        rw [pos]
        rfl
      unfold consumeCredits
      dsimp only
      rw [consumed_min]
      by_cases ends : remaining - min remaining (scan.credits scan.pos) = 0 ∨ (scan.pos + 1) % nrCreditEntries = head
      · rw [if_pos ends]
        refine ⟨.leave remaining scan ends, 1, ?_, ?_, rfl⟩
        · apply CreditRing.taken_last nrCreditEntries (head + offs) _ remaining (min remaining (scan.credits scan.pos))
          · omega
          · rw [← here]
          · rw [← here]
          · rw [next, next_slot_head head offs headInside inside] at ends
            omega
        · exact pos
      · rw [if_neg ends]
        have more : offs + 1 < nrCreditEntries := by
          rw [next, next_slot_head head offs headInside inside] at ends
          omega
        obtain ⟨rest, slots, taken, last, delay⟩ := ih (offs + 1) (remaining - min remaining (scan.credits scan.pos))
          ⟨Function.update scan.credits scan.pos (scan.credits scan.pos - min remaining (scan.credits scan.pos)),
            (scan.pos + 1) % nrCreditEntries, scan.delay + 1⟩ more next (by omega)
        have short : scan.credits scan.pos < remaining := by
          rw [not_or] at ends
          omega
        have all : min remaining (scan.credits scan.pos) = scan.credits scan.pos := by omega
        have run := CreditLoop.again remaining scan _ ends rest
        rw [all, Nat.sub_self (scan.credits scan.pos)] at taken last delay
        rw [all, Nat.sub_self (scan.credits scan.pos)] at run ⊢
        have some := taken.some
        refine ⟨run, slots + 1, ?_, ?_, ?_⟩
        · apply CreditRing.taken_more nrCreditEntries (head + offs) (nrCreditEntries - offs) remaining slots scan.credits
            (Function.update scan.credits scan.pos 0) _ (Nat.sub_le _ _) (by rw [← here]; exact short)
          · rw [← here]
          · rw [← here]
            have room : nrCreditEntries - (offs + 1) = nrCreditEntries - offs - 1 := by omega
            rw [← room]
            exact taken
        · rw [last]
          congr 1
          omega
        · rw [delay]
          dsimp only
          omega

end Loop

section Ring

-- chmodel_init for given max_credits and xfer_lat.
def initChannel (maxCredits xferLat : Nat) : ChannelModel :=
  { curTime := 0, head := 0, validLen := 0, maxCredits := maxCredits, commandCredits := 0, xferLat := xferLat,
    availCredits := fun _ => maxCredits % 2 ^ 8, asserted := false }

theorem chmodel_init_channel (bandwidth : Nat) :
    chmodelInit bandwidth = initChannel (chmodelInit bandwidth).maxCredits (chmodelInit bandwidth).xferLat := rfl

def channelSystem (maxCredits xferLat : Nat) : TransitionSystem.System ChannelModel ChannelRequest :=
  ⟨fun channel => channel = initChannel maxCredits xferLat, fun channel request next => next = (requestChannel channel request).2⟩

structure RequestInRange (request : ChannelRequest) : Prop where
  clock : request.curTime < 2 ^ 64
  time : request.requestTime < 2 ^ 64
  length : request.length < 2 ^ 32

structure RingHolds (maxCredits : Nat) (channel : ChannelModel) : Prop where
  head : channel.head < nrCreditEntries
  validLen : channel.validLen ≤ nrCreditEntries
  asserted : channel.asserted = false
  most : ∀ entry, entry < nrCreditEntries → channel.availCredits entry ≤ maxCredits
  outside : ∀ entry, entry < nrCreditEntries → channel.validLen ≤ CreditRing.behind nrCreditEntries channel.head entry →
    channel.availCredits entry = maxCredits

structure ChannelKept (maxCredits xferLat : Nat) (channel : ChannelModel) : Prop where
  window : CreditRing.Window nrCreditEntries maxCredits channel.head channel.validLen channel.availCredits
  asserted : channel.asserted = false
  maxCredits : channel.maxCredits = maxCredits
  xferLat : channel.xferLat = xferLat
  commandCredits : channel.commandCredits = 0

theorem channel_kept_ring (maxCredits xferLat : Nat) (channel : ChannelModel) (kept : ChannelKept maxCredits xferLat channel) :
    RingHolds maxCredits channel :=
  ⟨kept.window.headInside, kept.window.lenInside, kept.asserted, kept.window.most,
    CreditRing.window_entries nrCreditEntries maxCredits channel.head channel.validLen channel.availCredits kept.window⟩

variable (maxCredits xferLat : Nat) (small : maxCredits < 2 ^ 8)

include small in
theorem init_channel_kept : ChannelKept maxCredits xferLat (initChannel maxCredits xferLat) := by
  refine ⟨?_, rfl, rfl, rfl, rfl⟩
  have same : maxCredits % 2 ^ 8 = maxCredits := Nat.mod_eq_of_lt small
  unfold initChannel
  dsimp only
  rw [same]
  exact CreditRing.window_start nrCreditEntries maxCredits ring_positive

theorem refill_inside (credits : Nat → Nat) (start length value entry : Nat) (reached : start ≤ entry) (before : entry < start + length) :
    refill credits start length value entry = value % 2 ^ 8 := if_pos ⟨reached, before⟩

theorem refill_or (credits : Nat → Nat) (start length value entry : Nat) :
    refill credits start length value entry = value % 2 ^ 8 ∨ refill credits start length value entry = credits entry := by
  unfold refill
  split
  · exact .inl rfl
  · exact .inr rfl

theorem refill_passed (credits : Nat → Nat) (head offs value : Nat) (headInside : head < nrCreditEntries) (within : offs ≤ nrCreditEntries)
    (filled : Nat → Nat) (fills : filled = if nrCreditEntries ≤ head + offs then
        refill (refill credits head (nrCreditEntries - head) value) 0 (offs - (nrCreditEntries - head)) value
      else refill credits head offs value) :
    (∀ steps, steps < offs → filled (CreditRing.slot nrCreditEntries head steps) = value % 2 ^ 8) ∧
      ∀ entry, filled entry = value % 2 ^ 8 ∨ filled entry = credits entry := by
  by_cases around : nrCreditEntries ≤ head + offs
  · rw [if_pos around] at fills
    refine ⟨?_, ?_⟩
    · intro steps below
      rw [fills]
      by_cases wraps : head + steps < nrCreditEntries
      · have entry : CreditRing.slot nrCreditEntries head steps = head + steps := Nat.mod_eq_of_lt wraps
        rw [entry]
        have first := refill_inside credits head (nrCreditEntries - head) value (head + steps) (by omega) (by omega)
        cases refill_or (refill credits head (nrCreditEntries - head) value) 0 (offs - (nrCreditEntries - head)) value (head + steps) with
        | inl new => exact new
        | inr old => exact old.trans first
      · have entry : CreditRing.slot nrCreditEntries head steps = head + steps - nrCreditEntries := by
          unfold CreditRing.slot
          rw [Nat.mod_eq_sub_mod (by omega), Nat.mod_eq_of_lt (by omega)]
        rw [entry]
        exact refill_inside _ _ _ _ _ (by omega) (by omega)
    · intro entry
      rw [fills]
      cases refill_or (refill credits head (nrCreditEntries - head) value) 0 (offs - (nrCreditEntries - head)) value entry with
      | inl new => exact .inl new
      | inr old =>
          rw [old]
          exact refill_or credits head _ value entry
  · rw [if_neg around] at fills
    refine ⟨?_, ?_⟩
    · intro steps below
      have entry : CreditRing.slot nrCreditEntries head steps = head + steps := Nat.mod_eq_of_lt (by omega)
      rw [fills, entry]
      exact refill_inside _ _ _ _ _ (by omega) (by omega)
    · intro entry
      rw [fills]
      exact refill_or credits head offs value entry

include small in
theorem advance_head_kept (channel : ChannelModel) (curTime : Nat) (kept : ChannelKept maxCredits xferLat channel) :
    ChannelKept maxCredits xferLat (advanceHead channel curTime) := by
  have full : channel.maxCredits % 2 ^ 8 = maxCredits := by
    rw [kept.maxCredits]
    exact Nat.mod_eq_of_lt small
  have inside := kept.window.headInside
  have bound := kept.window.lenInside
  unfold advanceHead
  dsimp only
  generalize u32 (curTime / unitTimeInterval + 2 ^ 64 - channel.curTime / unitTimeInterval) = elapsed
  have within : (if elapsed < channel.validLen then elapsed else channel.validLen) ≤ channel.validLen := by
    split <;> omega
  generalize (if elapsed < channel.validLen then elapsed else channel.validLen) = offs at within
  have fits : ¬nrCreditEntries < channel.validLen - offs := by omega
  obtain ⟨passed, others⟩ := refill_passed channel.availCredits channel.head offs channel.maxCredits inside (by omega) _ rfl
  rw [full] at passed others
  refine ⟨?_, ?_, kept.maxCredits, kept.xferLat, kept.commandCredits⟩
  · exact CreditRing.window_advance nrCreditEntries maxCredits channel.head channel.validLen offs channel.availCredits _ kept.window
      within passed fun entry _ => others entry
  · rw [kept.asserted]
    simpa using fits

theorem valid_length_slot (head steps : Nat) (headInside : head < nrCreditEntries) (inside : steps < nrCreditEntries) :
    validLength head (CreditRing.slot nrCreditEntries head steps) = steps + 1 := by
  unfold validLength CreditRing.slot
  by_cases wraps : head + steps < nrCreditEntries
  · rw [Nat.mod_eq_of_lt wraps, if_pos (by omega)]
    omega
  · have entry : (head + steps) % nrCreditEntries = head + steps - nrCreditEntries := by
      rw [Nat.mod_eq_sub_mod (by omega), Nat.mod_eq_of_lt (by omega)]
    rw [entry, if_neg (by omega)]
    omega

structure CreditsTaken (channel : ChannelModel) (request : ChannelRequest) : Prop where
  terminates : CreditLoop (advanceHead channel request.curTime).head (unitsToXfer request)
    ⟨(advanceHead channel request.curTime).availCredits,
      CreditRing.slot nrCreditEntries (advanceHead channel request.curTime).head (requestTimeOffs request), 0⟩
    (creditScan (advanceHead channel request.curTime) request)
  taken : ∃ slots, CreditRing.Taken nrCreditEntries ((advanceHead channel request.curTime).head + requestTimeOffs request)
    (nrCreditEntries - requestTimeOffs request) (unitsToXfer request) (advanceHead channel request.curTime).availCredits
    (requestChannel channel request).2.availCredits slots

theorem units_remaining (channel : ChannelModel) (request : ChannelRequest) (free : channel.commandCredits = 0) :
    remainingCredits channel request = unitsToXfer request := by
  unfold remainingCredits unitsToXfer
  rw [free, Nat.add_zero, u32, u32, Nat.mod_mod]

theorem request_loop (channel : ChannelModel) (request : ChannelRequest) (kept : ChannelKept maxCredits xferLat channel)
    (enters : EntersLoop request) :
    CreditLoop channel.head (unitsToXfer request)
        ⟨channel.availCredits, CreditRing.slot nrCreditEntries channel.head (requestTimeOffs request), 0⟩ (creditScan channel request) ∧
      ∃ slots, LoopEnds channel.head (requestTimeOffs request) (unitsToXfer request)
        ⟨channel.availCredits, CreditRing.slot nrCreditEntries channel.head (requestTimeOffs request), 0⟩
        (creditScan channel request) slots := by
  have inside : requestTimeOffs request < nrCreditEntries := by
    unfold EntersLoop at enters
    omega
  have run := consume_credits_loop channel.head (requestTimeOffs request) nrCreditEntries (unitsToXfer request)
    ⟨channel.availCredits, CreditRing.slot nrCreditEntries channel.head (requestTimeOffs request), 0⟩ kept.window.headInside inside rfl
    (Nat.sub_le _ _)
  unfold creditScan
  rw [units_remaining channel request kept.commandCredits]
  exact run

include small in
theorem request_channel_kept (channel : ChannelModel) (request : ChannelRequest) (kept : ChannelKept maxCredits xferLat channel) :
    ChannelKept maxCredits xferLat (requestChannel channel request).2 := by
  have advanced := advance_head_kept maxCredits xferLat small channel request.curTime kept
  unfold requestChannel
  generalize advanceHead channel request.curTime = current at advanced
  dsimp only
  by_cases enters : EntersLoop request
  · obtain ⟨_, slots, ends⟩ := request_loop maxCredits xferLat current request advanced enters
    rw [if_pos enters]
    refine ⟨?_, advanced.asserted, advanced.maxCredits, advanced.xferLat, advanced.commandCredits⟩
    have some := ends.taken.some
    have bound := ends.taken.inside
    have reached : validLength current.head (creditScan current request).pos = requestTimeOffs request + slots := by
      rw [ends.pos, valid_length_slot _ _ advanced.window.headInside (by omega)]
      omega
    have window := CreditRing.window_taken nrCreditEntries maxCredits current.head current.validLen (requestTimeOffs request)
      (unitsToXfer request) slots current.availCredits (creditScan current request).credits advanced.window ends.taken
    dsimp only
    rw [reached, Nat.max_comm]
    exact window
  · rw [if_neg enters]
    exact advanced

include small in
theorem reachable_channel_kept (channel : ChannelModel)
    (reached : TransitionSystem.Reach (channelSystem maxCredits xferLat) (fun _ request => RequestInRange request) channel) :
    ChannelKept maxCredits xferLat channel := by
  refine TransitionSystem.reach_invariant _ _ (ChannelKept maxCredits xferLat) ⟨?_, ?_⟩ channel reached
  · intro state init
    rw [show state = initChannel maxCredits xferLat from init]
    exact init_channel_kept maxCredits xferLat small
  · intro state next request kept _ taken
    rw [show next = (requestChannel state request).2 from taken]
    exact request_channel_kept maxCredits xferLat small state request kept

include small in
theorem credits_taken (channel : ChannelModel) (request : ChannelRequest) (kept : ChannelKept maxCredits xferLat channel)
    (enters : EntersLoop request) : CreditsTaken channel request := by
  have advanced := advance_head_kept maxCredits xferLat small channel request.curTime kept
  obtain ⟨terminates, slots, ends⟩ := request_loop maxCredits xferLat _ request advanced enters
  have after : (requestChannel channel request).2.availCredits = (creditScan (advanceHead channel request.curTime) request).credits := by
    unfold requestChannel
    dsimp only
    rw [if_pos enters]
  refine ⟨terminates, slots, ?_⟩
  rw [after]
  exact ends.taken

theorem latency_bound (channel : ChannelModel) (request : ChannelRequest) (kept : ChannelKept maxCredits xferLat channel)
    (enters : EntersLoop request) : totalLatency channel request < 2 ^ 64 := by
  obtain ⟨_, slots, ends⟩ := request_loop maxCredits xferLat channel request kept enters
  have bound := ends.taken.inside
  have delay := ends.delay
  have transfer : u32 (channel.xferLat * unitsToXfer request) < 2 ^ 32 := Nat.mod_lt _ (by decide)
  have waits : ((creditScan channel request).delay - remainingCredits channel request / channel.maxCredits) * unitTimeInterval ≤
      nrCreditEntries * unitTimeInterval := by
    apply Nat.mul_le_mul_right
    apply Nat.le_trans (Nat.sub_le _ _)
    dsimp only at delay
    omega
  have size : nrCreditEntries * unitTimeInterval < 2 ^ 32 := by decide
  unfold totalLatency
  omega

theorem request_later_iff (channel : ChannelModel) (request : ChannelRequest) (kept : ChannelKept maxCredits xferLat channel)
    (small : maxCredits < 2 ^ 8) (time : request.requestTime < 2 ^ 64) :
    request.requestTime ≤ (requestChannel channel request).1 ↔
      (EntersLoop request → request.requestTime + totalLatency (advanceHead channel request.curTime) request < 2 ^ 64) := by
  have advanced := advance_head_kept maxCredits xferLat small channel request.curTime kept
  unfold requestChannel
  dsimp only
  by_cases enters : EntersLoop request
  · have bound := latency_bound maxCredits xferLat _ request advanced enters
    rw [if_pos enters]
    dsimp only
    unfold u64
    constructor
    · intro later _
      by_contra exceeds
      rw [Nat.mod_eq_sub_mod (by omega), Nat.mod_eq_of_lt (by omega)] at later
      omega
    · intro fits
      rw [Nat.mod_eq_of_lt (fits enters)]
      exact Nat.le_add_right _ _
  · rw [if_neg enters]
    exact ⟨fun _ entered => absurd entered enters, fun _ => Nat.le_refl _⟩

end Ring

-- The ring invariant and what a request does, with the time it returns: not
-- before the request time as long as the sum stays within 64 bits.
structure RequestServed (channel : ChannelModel) (request : ChannelRequest) : Prop where
  loop : EntersLoop request → CreditsTaken channel request
  later : request.requestTime ≤ (requestChannel channel request).1 ↔
    (EntersLoop request → request.requestTime + totalLatency (advanceHead channel request.curTime) request < 2 ^ 64)

theorem credit_ring_kept (maxCredits xferLat : Nat) (_ : 1 ≤ maxCredits) (most : maxCredits ≤ 255) (channel : ChannelModel)
    (reached : TransitionSystem.Reach (channelSystem maxCredits xferLat) (fun _ request => RequestInRange request) channel) :
    RingHolds maxCredits channel ∧ ∀ request, RequestInRange request → RequestServed channel request := by
  have small : maxCredits < 2 ^ 8 := by omega
  have kept := reachable_channel_kept maxCredits xferLat small channel reached
  refine ⟨channel_kept_ring maxCredits xferLat channel kept, fun request inRange => ⟨?_, ?_⟩⟩
  · exact credits_taken maxCredits xferLat small channel request kept
  · exact request_later_iff maxCredits xferLat channel request kept small inRange.time

-- The PCIe link of the shipped device after two transfers.
def pcieBusy : ChannelModel :=
  (requestChannel (requestChannel (chmodelInit 3000) ⟨0, 0, 4096⟩).2 ⟨1000, 5000, 131072⟩).2

theorem pcie_ring_kept :
    0 < pcieBusy.validLen ∧ RingHolds (chmodelInit 3000).maxCredits pcieBusy ∧
      ∀ request, RequestInRange request → RequestServed pcieBusy request := by
  have first : RequestInRange ⟨0, 0, 4096⟩ := ⟨by decide, by decide, by decide⟩
  have second : RequestInRange ⟨1000, 5000, 131072⟩ := ⟨by decide, by decide, by decide⟩
  refine ⟨by decide +kernel, ?_⟩
  refine credit_ring_kept (chmodelInit 3000).maxCredits (chmodelInit 3000).xferLat (by decide) (by decide) pcieBusy ?_
  exact .next _ pcieBusy ⟨1000, 5000, 131072⟩ (.next _ _ ⟨0, 0, 4096⟩ (.start _ (chmodel_init_channel 3000)) first rfl) second rfl

-- At the end of the 64-bit clock the returned time starts again at zero.
theorem request_time_wraps :
    ¬∀ maxCredits xferLat channel request, 1 ≤ maxCredits → maxCredits ≤ 255 →
      TransitionSystem.Reach (channelSystem maxCredits xferLat) (fun _ request => RequestInRange request) channel →
      RequestInRange request → request.requestTime ≤ (requestChannel channel request).1 := by
  intro claim
  have later : 2 ^ 64 - 1 ≤ (requestChannel (initChannel 95 40) ⟨2 ^ 64 - 1, 2 ^ 64 - 1, 4096⟩).1 :=
    claim 95 40 (initChannel 95 40) ⟨2 ^ 64 - 1, 2 ^ 64 - 1, 4096⟩ (by decide) (by decide) (.start _ rfl)
      ⟨by decide, by decide, by decide⟩
  have wrapped : (requestChannel (initChannel 95 40) ⟨2 ^ 64 - 1, 2 ^ 64 - 1, 4096⟩).1 < 2 ^ 64 - 1 := by decide +kernel
  exact absurd later (by omega)

end ConZone
