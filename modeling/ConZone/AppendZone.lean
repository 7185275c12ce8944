import ConZone.FailedWrite

set_option autoImplicit false

namespace ConZone

structure Appended (p : Params) (ftl : ZmsFtl) (req : Request) (cmd : RwCommand) (outcome : WriteOutcome) : Prop where
  place : outcome.cmd.slba = (ftl.zoneDescs (lbaToZone p cmd.slba)).wp
  inside : (ftl.zoneDescs (lbaToZone p cmd.slba)).wp + nrLbasFromRwCmd cmd ≤
    zoneToSlba p (lbaToZone p cmd.slba) + capacityLbas p
  written : ∃ index checked progress, Accepted p ftl req cmd index checked ∧ dataLoop p ftl req cmd index checked = .ok progress
  advanced : (outcome.ftl.zoneDescs (lbaToZone p cmd.slba)).wp =
    (ftl.zoneDescs (lbaToZone p cmd.slba)).wp + nrLbasFromRwCmd cmd
  others : ∀ zid, zid ≠ lbaToZone p cmd.slba → outcome.ftl.zoneDescs zid = ftl.zoneDescs zid

-- One attempt at an append. The zone is computed anew from the rewritten slba
-- at every use of zone_descs, by this attempt and by the ones after it. One that
-- stops at a failed assertion has not come to the write check yet.
structure AppendStays (p : Params) (ftl : ZmsFtl) (req : Request) (cmd : RwCommand) : Prop where
  placed : anyFull ftl = false → lbaToZone p (placeAppend p ftl cmd).slba = lbaToZone p cmd.slba
  again : ∀ outcome, zonedWrite p ftl req cmd = .ok outcome → lbaToZone p outcome.cmd.slba = lbaToZone p cmd.slba
  success : ∀ outcome, zonedWrite p ftl req cmd = .ok outcome → outcome.done.map Completion.status = some .success →
    Appended p ftl req cmd outcome
  failure : ∀ outcome, zonedWrite p ftl req cmd = .ok outcome → outcome.done.map Completion.status ≠ some .success →
    SameTable ftl outcome.ftl
  stopped : ∀ fault, zonedWrite p ftl req cmd = .error fault → ∀ index checked, ¬Accepted p ftl req cmd index checked

-- An attempt that ends before anything of the append has to go to the medium:
-- it waits for a buffer, empties that of another zone, is refused by the write
-- check, or finds room in its buffer.
def BeforeFlush (p : Params) (ftl : ZmsFtl) (cmd : RwCommand) : Prop :=
  Waits p ftl (firstLpn (placeAppend p ftl cmd)) ∨ Switches p ftl (firstLpn (placeAppend p ftl cmd)) ∨
    ¬Admits p ftl (placeAppend p ftl cmd).slba (nrLbasFromRwCmd cmd) ∨ FitsBuffer p ftl cmd

def DataTaken (p : Params) (ftl : ZmsFtl) (req : Request) (cmd : RwCommand) : Prop :=
  ∀ index checked, Accepted p ftl req cmd index checked →
    ∃ progress, dataLoop p ftl req cmd index checked = .ok progress ∧ anyFull progress.ftl = false

theorem data_taken_before (p : Params) (ftl : ZmsFtl) (req : Request) (cmd : RwCommand) (accounted : Accounted p ftl)
    (before : BeforeFlush p ftl cmd) : DataTaken p ftl req cmd := by
  intro index checked accepted
  have admits := accepted_admits p ftl req cmd index checked accounted accepted
  obtain ⟨got, found, own, unlocked, _⟩ := accepted.check
  obtain ⟨looked, foundBefore, same⟩ := found_again p ftl req cmd _ got found
  rcases before with waits | switches | refused | fits
  · simp [Waits, foundBefore, same, unlocked] at waits
  · simp [Switches, foundBefore, same, own] at switches
  · exact absurd admits refused
  · exact accepted_buffered p ftl req cmd index checked accepted fits

section Append

variable (p : Params) (ftl : ZmsFtl) (req : Request) (cmd : RwCommand) (accounted : Accounted p ftl)
variable (append : cmd.append = true) (inside : lbaToZone p cmd.slba < p.zpp.nrZones)

include append in
theorem append_slba : (placeAppend p ftl cmd).slba = (ftl.zoneDescs (lbaToZone p cmd.slba)).wp := by
  unfold placeAppend
  rw [if_pos append]

include accounted append inside in
theorem append_zone_iff :
    lbaToZone p (placeAppend p ftl cmd).slba = lbaToZone p cmd.slba ↔
      (ftl.zoneDescs (lbaToZone p cmd.slba)).wp < zoneToSlba p (lbaToZone p cmd.slba) + zoneLbas p := by
  have sound := accounted.sound _ inside
  have lower := sound.lower
  have upper := sound.upper
  rw [sound.start] at lower upper
  rw [sound.capacity] at upper
  have room : capacityLbas p ≤ zoneLbas p := Nat.div_le_div_right p.zpp.capacityFits
  rw [append_slba p ftl cmd append]
  generalize (ftl.zoneDescs (lbaToZone p cmd.slba)).wp = wp at lower upper
  constructor
  · intro same
    rcases Nat.lt_or_ge wp (zoneToSlba p (lbaToZone p cmd.slba) + zoneLbas p) with below | atEnd
    · exact below
    · have positive := zone_lbas_positive p
      have fits := p.zpp.zonesFit
      have next : wp / zoneLbas p = lbaToZone p cmd.slba + 1 := by
        have exactly : wp = (lbaToZone p cmd.slba + 1) * zoneLbas p := by
          unfold zoneToSlba at atEnd upper
          rw [Nat.succ_mul]
          omega
        rw [exactly, Nat.mul_div_cancel _ positive]
      have wrapped : lbaToZone p wp = lbaToZone p cmd.slba + 1 := by
        unfold lbaToZone u32 at next ⊢
        rw [next]
        exact Nat.mod_eq_of_lt (by change lbaToZone p cmd.slba + 1 < _; omega)
      rw [wrapped] at same
      omega
  · intro below
    exact lba_to_zone_of p _ wp inside lower below

include accounted append inside in
theorem append_stays_of (below : (ftl.zoneDescs (lbaToZone p cmd.slba)).wp < zoneToSlba p (lbaToZone p cmd.slba) + zoneLbas p)
    (kept : ¬partialDropped p ftl cmd) (taken : DataTaken p ftl req cmd) (outcome : WriteOutcome)
    (run : WriteRun p ftl req cmd outcome) :
    (outcome.done.map Completion.status = some .success → Appended p ftl req cmd outcome) ∧
      (outcome.done.map Completion.status ≠ some .success → SameTable ftl outcome.ftl) := by
  have zone := (append_zone_iff p ftl cmd accounted append inside).mpr below
  rcases write_run_accepted p ftl req cmd outcome run with ⟨index, checked, progress, accepted, filled, same⟩ | never
  · obtain ⟨other, reached, clear⟩ := taken index checked accepted
    rw [filled] at reached
    rw [← Except.ok.inj reached] at clear
    obtain ⟨_, within, state, _, descs⟩ := accepted_table p ftl req cmd index checked accounted accepted
    have table := accepted_loop_table p ftl req cmd index checked progress (if anyFull progress.ftl then .capExceeded else .success)
      filled
    rw [append_slba p ftl cmd append] at within
    rw [zone] at descs
    rw [← append_slba p ftl cmd append, zone, append_slba p ftl cmd append] at within
    rw [same]
    constructor
    · intro _
      refine ⟨append_slba p ftl cmd append, within, ⟨index, checked, progress, accepted, filled⟩, ?_, ?_⟩
      · rw [table.descs, descs, Function.update_self]
        rfl
      · intro zid apart
        rw [table.descs, descs, Function.update_of_ne apart]
    · intro failed
      rw [clear] at failed
      exact absurd rfl failed
  · cases run with
    | refusedFull full => exact ⟨fun success => (by cases success), fun _ => ⟨rfl, rfl⟩⟩
    | dropped clear drop => exact absurd drop kept
    | waits clear kept got found =>
        exact ⟨fun success => (nomatch success), fun _ => (found_table p ftl req cmd none got found).toSameTable⟩
    | busy clear kept got index found locked after same =>
        refine ⟨fun success => (nomatch success), fun _ => ?_⟩
        have table := found_table p ftl req cmd (some index) got found
        rcases same with same | same
        · rw [same]
          exact table.toSameTable
        · rw [same]
          exact ⟨table.descs, table.infos⟩
    | switches clear kept got index found other unlocked latest flushed flushing =>
        refine ⟨fun success => (nomatch success), fun _ => ?_⟩
        have table := found_table p ftl req cmd (some index) got found
        have flush := buffer_flush_table p _ flushed index _ latest flushing
        exact ⟨flush.descs.trans table.descs, flush.infos.trans table.infos⟩
    | rejected clear kept got index found own unlocked within status checked refused check =>
        have same := rejected_state p ftl req cmd accounted got index found within status checked refused check
        have table := found_table p ftl req cmd (some index) got found
        constructor
        · intro success
          exact absurd (Option.some.inj success) refused
        · intro _
          rw [same]
          exact ⟨table.descs, table.infos⟩
    | written clear kept got index found own unlocked within checked check progress filled =>
        exact absurd ⟨clear, kept, ⟨got, found, own, unlocked, check⟩, within⟩ (never index checked)

theorem write_run_cmd (outcome : WriteOutcome) (run : WriteRun p ftl req cmd outcome) :
    (anyFull ftl = true ∧ outcome.cmd = cmd) ∨ (anyFull ftl = false ∧ outcome.cmd = placeAppend p ftl cmd) := by
  cases run with
  | refusedFull full => exact .inl ⟨full, rfl⟩
  | dropped clear drop => exact .inr ⟨clear, rfl⟩
  | waits clear kept got found => exact .inr ⟨clear, rfl⟩
  | busy clear kept got index found locked after same => exact .inr ⟨clear, rfl⟩
  | switches clear kept got index found other unlocked latest flushed flushing => exact .inr ⟨clear, rfl⟩
  | rejected clear kept got index found own unlocked within status checked refused check => exact .inr ⟨clear, rfl⟩
  | written clear kept got index found own unlocked within checked check progress filled => exact .inr ⟨clear, rfl⟩

theorem full_append_stays (full : anyFull ftl = true) : AppendStays p ftl req cmd := by
  have refused : ∀ outcome, zonedWrite p ftl req cmd = .ok outcome →
      outcome.cmd = cmd ∧ outcome.done.map Completion.status ≠ some .success ∧ SameTable ftl outcome.ftl := by
    intro outcome ran
    have run := zoned_write_run p ftl req cmd outcome ran
    cases run with
    | refusedFull _ => exact ⟨rfl, fun success => (by cases success), ⟨rfl, rfl⟩⟩
    | dropped clear _ => exact absurd full (by rw [clear]; decide)
    | waits clear _ _ _ => exact absurd full (by rw [clear]; decide)
    | busy clear _ _ _ _ _ _ _ => exact absurd full (by rw [clear]; decide)
    | switches clear _ _ _ _ _ _ _ _ _ => exact absurd full (by rw [clear]; decide)
    | rejected clear _ _ _ _ _ _ _ _ _ _ _ => exact absurd full (by rw [clear]; decide)
    | written clear _ _ _ _ _ _ _ _ _ _ _ => exact absurd full (by rw [clear]; decide)
  constructor
  · intro clear
    rw [clear] at full
    cases full
  · intro outcome ran
    rw [(refused outcome ran).1]
  · intro outcome ran success
    exact absurd success (refused outcome ran).2.1
  · intro outcome ran _
    exact (refused outcome ran).2.2
  · intro fault _ index checked accepted
    rw [accepted.clear] at full
    cases full

include accounted append inside in
theorem append_stays_taken (clear : anyFull ftl = false) :
    AppendStays p ftl req cmd ↔
      (ftl.zoneDescs (lbaToZone p cmd.slba)).wp < zoneToSlba p (lbaToZone p cmd.slba) + zoneLbas p ∧
        ¬partialDropped p ftl cmd ∧ DataTaken p ftl req cmd := by
  have written : 0 < nrLbasFromRwCmd cmd := Nat.succ_pos _
  constructor
  · intro stays
    have zone := stays.placed clear
    refine ⟨(append_zone_iff p ftl cmd accounted append inside).mp zone, ?_, ?_⟩
    · intro drop
      have moved := (stays.success _ (dropped_runs p ftl req cmd inside clear drop) rfl).advanced
      have same : (finishWrite (placeAppend p ftl cmd) ⟨arrived ftl req, req.nsecsStart, req.nsecsStart⟩ none .success).ftl.zoneDescs
          = ftl.zoneDescs := rfl
      rw [same] at moved
      omega
    · intro index checked accepted
      cases filled : dataLoop p ftl req cmd index checked with
      | error fault =>
          have ran := accepted_goes_on p ftl req cmd index checked inside accepted
          rw [filled] at ran
          exact absurd accepted (stays.stopped fault ran index checked)
      | ok progress =>
          refine ⟨progress, rfl, ?_⟩
          cases full : anyFull progress.ftl with
          | false => rfl
          | true =>
              have ran := accepted_runs p ftl req cmd index checked progress inside accepted filled
              have moved := accepted_moves p ftl req cmd accounted index checked progress (if anyFull progress.ftl then .capExceeded else .success)
                accepted filled
              have table := stays.failure _ ran (by rw [full]; exact nofun)
              rw [table.descs] at moved
              omega
  · rintro ⟨below, kept, taken⟩
    have zone := (append_zone_iff p ftl cmd accounted append inside).mpr below
    have runs := fun outcome ran =>
      append_stays_of p ftl req cmd accounted append inside below kept taken outcome (zoned_write_run p ftl req cmd outcome ran)
    refine ⟨fun _ => zone, ?_, fun outcome ran => (runs outcome ran).1, fun outcome ran => (runs outcome ran).2, ?_⟩
    · intro outcome ran
      rcases write_run_cmd p ftl req cmd outcome (zoned_write_run p ftl req cmd outcome ran) with ⟨full, _⟩ | ⟨_, same⟩
      · rw [clear] at full
        cases full
      · rw [same]
        exact zone
    · intro fault ran index checked accepted
      obtain ⟨progress, filled, _⟩ := taken index checked accepted
      rw [accepted_runs p ftl req cmd index checked progress inside accepted filled] at ran
      cases ran

end Append

end ConZone
