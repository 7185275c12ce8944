import ConZone.WriteRun
import ConZone.ZoneAccount

set_option autoImplicit false

namespace ConZone

section Zones

variable (p : Params)

theorem zone_lbas_pages : zoneLbas p = 8 * zoneLpns p := by
  obtain ⟨pages, whole⟩ := p.zpp.sizeAligned
  unfold zoneLbas zoneLpns
  rw [whole, Nat.mul_div_cancel_left _ (by decide)]
  change 4096 * pages / 512 = 8 * pages
  omega

theorem lpn_zone_of_lba (lba : Nat) : lpnToZone p (lbaToLpn lba) = lbaToZone p lba := by
  unfold lpnToZone lbaToZone lbaToLpn secsPerPg
  rw [zone_lbas_pages, Nat.div_div_eq_div_mul]

theorem zone_lbas_positive : 0 < zoneLbas p := by
  have positive := capacity_lbas_positive p
  exact Nat.lt_of_lt_of_le positive (Nat.div_le_div_right p.zpp.capacityFits)

theorem lba_to_zone_of (zid lba : Nat) (inside : zid < p.zpp.nrZones) (lower : zoneToSlba p zid ≤ lba)
    (upper : lba < zoneToSlba p zid + zoneLbas p) : lbaToZone p lba = zid := by
  have fits := p.zpp.zonesFit
  unfold zoneToSlba at lower upper
  have quotient : lba / zoneLbas p = zid := by
    refine Nat.div_eq_of_lt_le lower ?_
    rw [Nat.succ_mul]
    exact upper
  unfold lbaToZone u32
  rw [quotient]
  exact Nat.mod_eq_of_lt (by omega)

theorem zone_end_bound (zid : Nat) (inside : zid < p.zpp.nrZones) : zoneToSlba p zid + zoneLbas p ≤ p.zpp.nrZones * zoneLbas p := by
  rw [zoneToSlba, ← Nat.succ_mul]
  exact Nat.mul_le_mul_right _ inside

theorem lba_space_fits : p.zpp.nrZones * zoneLbas p < 2 ^ 64 :=
  Nat.lt_of_le_of_lt (Nat.mul_le_mul_left _ (Nat.div_le_self _ _)) p.zpp.spaceFits

end Zones

section Resources

variable (p : Params) (ftl : ZmsFtl) (zid : Nat) (accounted : Accounted p ftl) (inside : zid < p.zpp.nrZones)

include accounted inside in
theorem open_room (shut : isOpened (ftl.zoneDescs zid).state = false) :
    (ftl.resInfos .openZone).acquiredCnt < (ftl.resInfos .openZone).totalCnt := by
  rw [accounted.opened, accounted.openTotal]
  refine Tally.count_below (fun desc : ZoneDescriptor => isOpened desc.state = true) ftl.zoneDescs zid p.zpp.nrZones inside ?_
  simp [shut]

include accounted inside in
theorem active_room (passive : isActive (ftl.zoneDescs zid).state = false) :
    (ftl.resInfos .activeZone).acquiredCnt < (ftl.resInfos .activeZone).totalCnt := by
  rw [accounted.active, accounted.activeTotal]
  refine Tally.count_below (fun desc : ZoneDescriptor => isActive desc.state = true) ftl.zoneDescs zid p.zpp.nrZones inside ?_
  simp [passive]

theorem not_full_of_room (type : ResType) (room : (ftl.resInfos type).acquiredCnt < (ftl.resInfos type).totalCnt) :
    isZoneResourceFull ftl type = false := by
  simp only [isZoneResourceFull, beq_eq_false_iff_ne]
  omega

include accounted inside in
theorem open_granted_again (shut : isOpened (ftl.zoneDescs zid).state = false) :
    ∃ after, acquireZoneResource ftl .openZone = (true, after) :=
  ⟨_, acquire_granted ftl .openZone (open_room p ftl zid accounted inside shut) (counters_fit p ftl accounted .openZone).2⟩

include accounted inside in
theorem empty_granted (empty : (ftl.zoneDescs zid).state = .empty) :
    isZoneResourceFull ftl .activeZone = false ∧ isZoneResourceFull ftl .openZone = false ∧
      ∃ after, acquireZoneResource (acquireZoneResource ftl .activeZone).2 .openZone = (true, after) := by
  have active := not_full_of_room ftl .activeZone (active_room p ftl zid accounted inside (by rw [empty]; rfl))
  have opened := not_full_of_room ftl .openZone (open_room p ftl zid accounted inside (by rw [empty]; rfl))
  exact ⟨active, opened, _, (open_empty_granted p ftl zid accounted .openedExpl active opened).1⟩

end Resources

section Buffers

variable (p : Params) (ftl : ZmsFtl)

theorem idle_buffer_spec (ftl : ZmsFtl) (index : Nat) (idle : idleBuffer p ftl = some index) :
    (ftl.writeBuffer index).flushData = 0 ∧ (ftl.writeBuffer index).busy = false := by
  have found := List.find?_some idle
  simpa using found

-- Where a write looks for its buffer: it has to wait for one in use, or it
-- empties another zone's first.
def Waits (slpn : Nat) : Prop :=
  match zmsWbGet p ftl slpn with
  | (none, _) => True
  | (some index, got) => (got.writeBuffer index).busy = true

def Switches (slpn : Nat) : Prop :=
  match zmsWbGet p ftl slpn with
  | (none, _) => False
  | (some index, got) => (got.writeBuffer index).busy = false ∧ zmsWbCheck p (got.writeBuffer index) slpn = false

theorem fullest_buffer_bound (buffers : 0 < p.zpp.nrWb) : fullestBuffer p ftl < p.zpp.nrWb := by
  have stays : ∀ (indices : List Nat) (best : Nat), best < p.zpp.nrWb → (∀ index ∈ indices, index < p.zpp.nrWb) →
      indices.foldl (fun best index =>
        if (ftl.writeBuffer best).flushData < (ftl.writeBuffer index).flushData then index else best) best < p.zpp.nrWb := by
    intro indices
    induction indices with
    | nil => exact fun _ bound _ => bound
    | cons index rest ih =>
        intro best bound inside
        rw [List.foldl_cons]
        refine ih _ ?_ fun other member => inside other (List.mem_cons_of_mem index member)
        split
        · exact inside index List.mem_cons_self
        · exact bound
  exact stays _ 0 buffers fun index member => List.mem_range.mp member

-- The four answers of zms_wb_get: the zone's own buffer, an empty one, none
-- while one is in use, and the fullest of the other zones'.
theorem zms_wb_get_cases (buffers : 0 < p.zpp.nrWb) (slpn : Nat) :
    (∃ index, index < p.zpp.nrWb ∧ (ftl.writeBuffer index).zid = some (lpnToZone p slpn) ∧ zmsWbGet p ftl slpn = (some index, ftl)) ∨
    (∃ index, (ftl.writeBuffer index).flushData = 0 ∧ (ftl.writeBuffer index).busy = false ∧
      zmsWbGet p ftl slpn = (some index, putBuffer ftl index { ftl.writeBuffer index with zid := some (lpnToZone p slpn) })) ∨
    ((∃ index, index < p.zpp.nrWb ∧ (ftl.writeBuffer index).busy = true) ∧ zmsWbGet p ftl slpn = (none, ftl)) ∨
    (∃ index, (ftl.writeBuffer index).flushData ≠ 0 ∧ (ftl.writeBuffer index).busy = false ∧ zmsWbGet p ftl slpn = (some index, ftl)) := by
  cases own : bufferOfZone p ftl (lpnToZone p slpn) with
  | some index =>
      have zid := List.find?_some own
      have member := List.mem_of_find?_eq_some own
      exact .inl ⟨index, List.mem_range.mp member, by simpa using zid, by simp only [zmsWbGet, own]⟩
  | none =>
      cases idle : idleBuffer p ftl with
      | some index =>
          obtain ⟨empty, free⟩ := idle_buffer_spec p ftl index idle
          exact .inr (.inl ⟨index, empty, free, by simp only [zmsWbGet, own, idle]⟩)
      | none =>
          cases flushing : someOneFlushing p ftl with
          | true =>
              simp only [someOneFlushing, List.any_eq_true, List.mem_range] at flushing
              exact .inr (.inr (.inl ⟨flushing, by simpa [zmsWbGet, own, idle, someOneFlushing] using flushing⟩))
          | false =>
              have inside := fullest_buffer_bound p ftl buffers
              have free : (ftl.writeBuffer (fullestBuffer p ftl)).busy = false := by
                simp only [someOneFlushing, List.any_eq_false, List.mem_range, Bool.not_eq_true] at flushing
                exact flushing _ inside
              have kept : (ftl.writeBuffer (fullestBuffer p ftl)).flushData ≠ 0 := by
                have none_idle := List.find?_eq_none.mp idle _ (List.mem_range.mpr inside)
                simpa [free] using none_idle
              exact .inr (.inr (.inr ⟨fullestBuffer p ftl, kept, free, by simp [zmsWbGet, own, idle, flushing]⟩))

theorem waits_for_busy (buffers : 0 < p.zpp.nrWb) (slpn : Nat) (waits : Waits p ftl slpn) :
    ∃ index, index < p.zpp.nrWb ∧ (ftl.writeBuffer index).busy = true := by
  rcases zms_wb_get_cases p ftl buffers slpn with ⟨index, inside, _, got⟩ | ⟨index, _, free, got⟩ | ⟨busy, _⟩ | ⟨index, _, free, got⟩
  · simp only [Waits, got] at waits
    exact ⟨index, inside, waits⟩
  · simp [Waits, got, putBuffer, free] at waits
  · exact busy
  · simp [Waits, got, free] at waits

theorem switches_full (buffers : 0 < p.zpp.nrWb) (slpn index : Nat) (got : ZmsFtl) (found : zmsWbGet p ftl slpn = (some index, got))
    (other : zmsWbCheck p (got.writeBuffer index) slpn = false) : (ftl.writeBuffer index).flushData ≠ 0 := by
  rcases zms_wb_get_cases p ftl buffers slpn with ⟨own, _, zid, same⟩ | ⟨own, _, _, same⟩ | ⟨_, same⟩ | ⟨own, kept, _, same⟩
  · rw [same] at found
    cases found
    simp [zmsWbCheck, zid] at other
  · rw [same] at found
    cases found
    simp [zmsWbCheck, putBuffer] at other
  · rw [same] at found
    cases found
  · rw [same] at found
    cases found
    exact kept

theorem buffer_flush_clears (next : ZmsFtl) (index start latest : Nat) (ran : bufferFlush p ftl index start = .ok (latest, next)) :
    (next.writeBuffer index).flushData = 0 := by
  obtain ⟨state, _, rest⟩ := bind_ok _ _ _ ran
  rw [← (Prod.mk.inj (pure_ok _ _ rest)).2]
  simp [clearBuffer, putBuffer]

theorem zms_wb_get_same (other : ZmsFtl) (slpn : Nat) (same : other.writeBuffer = ftl.writeBuffer) :
    (zmsWbGet p other slpn).1 = (zmsWbGet p ftl slpn).1 ∧
      (zmsWbGet p other slpn).2.writeBuffer = (zmsWbGet p ftl slpn).2.writeBuffer := by
  have own : bufferOfZone p other (lpnToZone p slpn) = bufferOfZone p ftl (lpnToZone p slpn) := by
    simp only [bufferOfZone, same]
  have idle : idleBuffer p other = idleBuffer p ftl := by simp only [idleBuffer, same]
  have flushing : someOneFlushing p other = someOneFlushing p ftl := by simp only [someOneFlushing, same]
  have fullest : fullestBuffer p other = fullestBuffer p ftl := by simp only [fullestBuffer, same]
  simp only [zmsWbGet, own, idle, flushing, fullest]
  cases bufferOfZone p ftl (lpnToZone p slpn) with
  | some index => exact ⟨rfl, same⟩
  | none =>
      cases idleBuffer p ftl with
      | some index => simp [putBuffer, same]
      | none => exact ⟨rfl, same⟩

end Buffers

section Checking

variable (p : Params) (ftl : ZmsFtl) (slba nrLba : Nat)

def isWritable : ZoneState → Bool
  | .empty | .openedImpl | .openedExpl | .closed => true
  | .readOnly | .full | .offline => false

structure Admits : Prop where
  atWp : slba = (ftl.zoneDescs (lbaToZone p slba)).wp
  room : slba + nrLba ≤ zoneToSlba p (lbaToZone p slba) + (ftl.zoneDescs (lbaToZone p slba)).zoneCapacity
  writable : isWritable (ftl.zoneDescs (lbaToZone p slba)).state = true

theorem admit_write_writable (zid : Nat) (accounted : Accounted p ftl) (inside : zid < p.zpp.nrZones)
    (atWp : slba = (ftl.zoneDescs zid).wp) :
    (admitWrite ftl zid slba).1 = .success ↔ isWritable (ftl.zoneDescs zid).state = true := by
  have sound := accounted.sound zid inside
  cases state : (ftl.zoneDescs zid).state with
  | empty =>
      obtain ⟨active, opened, after, granted⟩ := empty_granted p ftl zid accounted inside state
      have first := atWp.trans (sound.empty state)
      simp [admitWrite, state, first, active, opened, openForWrite, granted, isWritable]
  | closed =>
      obtain ⟨after, granted⟩ := open_granted_again p ftl zid accounted inside (by rw [state]; rfl)
      simp [admitWrite, state, openForWrite, granted, isWritable]
  | openedImpl => simp [admitWrite, state, isWritable]
  | openedExpl => simp [admitWrite, state, isWritable]
  | readOnly => simp [admitWrite, state, isWritable]
  | full => simp [admitWrite, state, isWritable]
  | offline => simp [admitWrite, state, isWritable]

variable (accounted : Accounted p ftl) (inside : lbaToZone p slba < p.zpp.nrZones)

include accounted inside in
theorem write_check_boundary (positive : 0 < nrLba) (atWp : slba = (ftl.zoneDescs (lbaToZone p slba)).wp)
    (room : slba + nrLba ≤ zoneToSlba p (lbaToZone p slba) + (ftl.zoneDescs (lbaToZone p slba)).zoneCapacity) :
    checkBoundaryError p slba nrLba = true := by
  have sound := accounted.sound _ inside
  have lower := sound.lower
  have zone := zone_end_bound p _ inside
  have space := lba_space_fits p
  have capacity : capacityLbas p ≤ zoneLbas p := Nat.div_le_div_right p.zpp.capacityFits
  rw [sound.start, ← atWp] at lower
  rw [sound.capacity] at room
  have fits : u64 (slba + nrLba - 1) = slba + nrLba - 1 := Nat.mod_eq_of_lt (by omega)
  rw [checkBoundaryError, fits, beq_iff_eq]
  exact (lba_to_zone_of p _ _ inside (by omega) (by omega)).symm

include accounted inside in
theorem write_check_admits (positive : 0 < nrLba) : (znsWriteCheck p ftl slba nrLba).1 = .success ↔ Admits p ftl slba nrLba := by
  constructor
  · intro passes
    rcases zns_write_check_cases p ftl slba nrLba _ _ accounted inside rfl with ⟨failed, _⟩ | ⟨_, atWp, room, _⟩
    · exact absurd passes failed
    · rw [← (accounted.sound _ inside).capacity] at room
      refine ⟨atWp, room, ?_⟩
      rw [← admit_write_writable p ftl slba _ accounted inside atWp]
      have boundary := write_check_boundary p ftl slba nrLba accounted inside positive atWp room
      have within : ¬zoneToSlba p (lbaToZone p slba) + (ftl.zoneDescs (lbaToZone p slba)).zoneCapacity
          < (ftl.zoneDescs (lbaToZone p slba)).wp + nrLba := by
        rw [← atWp]
        omega
      simp only [znsWriteCheck, boundary, Bool.not_true, Bool.false_eq_true, if_false, if_neg (not_not.mpr atWp), if_neg within] at passes
      split at passes
      · rename_i granted
        rw [granted]
      · exact passes
  · intro admits
    have boundary := write_check_boundary p ftl slba nrLba accounted inside positive admits.atWp admits.room
    have granted := (admit_write_writable p ftl slba _ accounted inside admits.atWp).mpr admits.writable
    have within : ¬zoneToSlba p (lbaToZone p slba) + (ftl.zoneDescs (lbaToZone p slba)).zoneCapacity
        < (ftl.zoneDescs (lbaToZone p slba)).wp + nrLba := by
      rw [← admits.atWp]
      have room := admits.room
      omega
    simp only [znsWriteCheck, boundary, Bool.not_true, Bool.false_eq_true, if_false, if_neg (not_not.mpr admits.atWp), if_neg within]
    generalize admitWrite ftl (lbaToZone p slba) slba = admission at granted ⊢
    obtain ⟨status, after⟩ := admission
    dsimp only at granted
    subst granted
    rfl

end Checking

end ConZone
