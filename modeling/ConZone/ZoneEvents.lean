import ConZone.ZoneWrites

set_option autoImplicit false

namespace ConZone

-- A namespace between two commands: the medium at rest, the pages of each zone
-- spread over medium and buffer, and its write pointer behind them.
structure Settled (p : Params) (resting : ZmsFtl → Prop) (ftl : ZmsFtl) (mapped buffered : Nat → Nat) : Prop where
  rests : resting ftl
  spread : Spread p ftl mapped buffered
  pointers : ∀ zid, zid < p.zpp.nrZones → (ftl.zoneDescs zid).wp = zoneToSlba p zid + secsPerPg * (mapped zid + buffered zid)

def WholePages (cmd : RwCommand) : Prop := secsPerPg ∣ nrLbasFromRwCmd cmd

-- The zone a write is placed in is the one it names; an append to a full zone
-- is placed in the next one.
def PlacedInZone (p : Params) (ftl : ZmsFtl) (cmd : RwCommand) : Prop :=
  lbaToZone p (placeAppend p ftl cmd).slba = lbaToZone p cmd.slba

section Addresses

variable (p : Params) (space : ZonedSpace p)

theorem zone_slba_pages (zid : Nat) : zoneToSlba p zid = secsPerPg * zoneToSlpn p zid := by
  unfold zoneToSlba zoneToSlpn
  rw [zone_lbas_pages]
  exact Nat.mul_left_comm ..

theorem page_lba_lpn (lpn rest : Nat) (within : rest < secsPerPg) : lbaToLpn (secsPerPg * lpn + rest) = lpn := by
  unfold lbaToLpn
  rw [Nat.mul_add_div (by decide), Nat.div_eq_of_lt within, Nat.add_zero]

include space in
theorem capacity_pages : capacityLbas p ≤ secsPerPg * p.zpp.pgsPerZone := by
  have size := zone_lbas_pages p
  have capacity : capacityLbas p ≤ zoneLbas p := Nat.div_le_div_right p.zpp.capacityFits
  rw [space.zone] at size
  exact capacity.trans (Nat.le_of_eq size)

end Addresses

section Writing

variable (p : Params) (loc : Loc) (resting : ZmsFtl → Prop) (contract : MediaContract p loc resting) (space : ZonedSpace p)
variable (buffers : 0 < p.zpp.nrWb) (mapped buffered : Nat → Nat)

include contract in
theorem settled_kept (before after : ZmsFtl) (media : mediaSide after = mediaSide before) (aggs : after.zoneAggLpns = before.zoneAggLpns)
    (buffers : ∀ index, held (after.writeBuffer index) = held (before.writeBuffer index)) (descs : after.zoneDescs = before.zoneDescs)
    (settled : Settled p resting before mapped buffered) : Settled p resting after mapped buffered := by
  refine ⟨contract.media before after media settled.rests,
    spread_kept p mapped buffered before after (media_maps before after media) buffers aggs settled.spread, ?_⟩
  rw [descs]
  exact settled.pointers

theorem started_aggs (ftl : ZmsFtl) (req : Request) (cmd : RwCommand) : (started p ftl req cmd).zoneAggLpns = ftl.zoneAggLpns := by
  unfold started noteRequest notePartial
  dsimp only
  split <;> split <;> rfl

include contract in
theorem get_settled (ftl : ZmsFtl) (slpn : Nat) (inside : lpnToZone p slpn < p.zpp.nrZones)
    (settled : Settled p resting ftl mapped buffered) : Settled p resting (zmsWbGet p ftl slpn).2 mapped buffered := by
  refine ⟨contract.media ftl _ (zms_wb_get_media p ftl slpn) settled.rests,
    zms_wb_get_spread p mapped buffered ftl settled.spread slpn inside, ?_⟩
  rw [(zms_wb_get_table p ftl slpn).descs]
  exact settled.pointers

include contract space in
theorem flush_settled (ftl next : ZmsFtl) (index start latest : Nat) (bound : index < p.zpp.nrWb)
    (settled : Settled p resting ftl mapped buffered) (ran : bufferFlush p ftl index start = .ok (latest, next)) :
    ∃ mapped' buffered', Settled p resting next mapped' buffered' ∧ BufferGone ftl next index ∧ (∀ zid, mapped zid ≤ mapped' zid) ∧
      ∀ zid, mapped' zid + buffered' zid = mapped zid + buffered zid := by
  obtain ⟨mapped', buffered', spread, rests, gone, grows, total⟩ := buffer_flush_spread p loc resting contract space mapped buffered ftl next index
    start latest bound settled.spread settled.rests ran
  refine ⟨mapped', buffered', ⟨rests, spread, ?_⟩, gone, grows, total⟩
  intro zid inside
  rw [gone.descs, total]
  exact settled.pointers zid inside

variable (ftl : ZmsFtl) (req : Request) (cmd : RwCommand)

-- The write check has passed: the zone's pointer is ahead of its pages until
-- the loop has taken them.
structure WriteBegins (p : Params) (resting : ZmsFtl → Prop) (checked : ZmsFtl) (mapped buffered : Nat → Nat) (slba nrLba zid index pgs : Nat) : Prop where
  size : nrLba = secsPerPg * pgs
  first : lbaToLpn slba = zoneToSlpn p zid + (mapped zid + buffered zid)
  last : lbaToLpn (u64 (slba + nrLba - 1)) = zoneToSlpn p zid + (mapped zid + buffered zid) + pgs - 1
  some : 0 < pgs
  fits : mapped zid + buffered zid + pgs ≤ p.zpp.pgsPerZone
  spread : Spread p checked mapped buffered
  rests : resting checked
  serves : Serves p checked index zid
  pointers : ∀ zone, zone < p.zpp.nrZones →
    (checked.zoneDescs zone).wp = zoneToSlba p zone + secsPerPg * (mapped zone + buffered zone + if zone = zid then pgs else 0)

include contract space in
theorem write_begins (whole : secsPerPg ∣ nrLbasFromRwCmd cmd) (slba index : Nat)
    (inside : lbaToZone p slba < p.zpp.nrZones) (got checked : ZmsFtl)
    (settled : Settled p resting got mapped buffered) (gotAccounted : Accounted p got)
    (label : (got.writeBuffer index).zid = some (lbaToZone p slba))
    (check : znsWriteCheck p (lockBuffer got req index) slba (nrLbasFromRwCmd cmd) = (.success, checked)) :
    ∃ pgs, WriteBegins p resting checked mapped buffered slba (nrLbasFromRwCmd cmd) (lbaToZone p slba) index pgs := by
  obtain ⟨pgs, size⟩ := whole
  have lockedAccounted : Accounted p (lockBuffer got req index) := accounted_same p got _ ⟨rfl, rfl⟩ gotAccounted
  have locked : Settled p resting (lockBuffer got req index) mapped buffered := by
    refine settled_kept p loc resting contract mapped buffered got _ ?_ ?_ ?_ ?_ settled
    · rfl
    · rfl
    · exact held_put got index _ rfl
    · rfl
  have only : OnlyTable (lockBuffer got req index) checked := by
    have kept := zns_write_check_only p (lockBuffer got req index) slba (nrLbasFromRwCmd cmd)
    rw [check] at kept
    exact kept
  rcases zns_write_check_cases p (lockBuffer got req index) slba _ _ checked lockedAccounted inside check with
    ⟨failed, _⟩ | ⟨_, atWp, within, state, _, descs, _⟩
  · exact absurd rfl failed
  generalize zone : lbaToZone p slba = zid at *
  have capacity := capacity_pages p space
  have start := zone_slba_pages p zid
  have pointer := locked.pointers zid inside
  have last := zone_end_bound p zid inside
  have fits := lba_space_fits p
  have zonePages := zone_lbas_pages p
  rw [space.zone] at zonePages
  have positive : 0 < nrLbasFromRwCmd cmd := Nat.succ_pos _
  have eight : secsPerPg = 8 := rfl
  rw [size, eight] at within positive
  rw [eight] at capacity start pointer
  have first : slba = secsPerPg * (zoneToSlpn p zid + (mapped zid + buffered zid)) + 0 := by
    rw [eight]
    omega
  have firstPage : lbaToLpn slba = zoneToSlpn p zid + (mapped zid + buffered zid) := by
    rw [first]
    exact page_lba_lpn _ 0 (by decide)
  have lastEntry : slba + nrLbasFromRwCmd cmd - 1 = secsPerPg * (zoneToSlpn p zid + (mapped zid + buffered zid) + pgs - 1) + 7 := by
    rw [size, eight]
    omega
  have lastPage : lbaToLpn (u64 (slba + nrLbasFromRwCmd cmd - 1)) = zoneToSlpn p zid + (mapped zid + buffered zid) + pgs - 1 := by
    rw [show u64 (slba + nrLbasFromRwCmd cmd - 1) = slba + nrLbasFromRwCmd cmd - 1 from Nat.mod_eq_of_lt (by rw [size, eight]; omega), lastEntry]
    exact page_lba_lpn _ 7 (by decide)
  have sameBuffers : checked.writeBuffer = (lockBuffer got req index).writeBuffer := by
    obtain ⟨_, _, same⟩ := only
    rw [same]
  have media := only_table_media _ checked only
  refine ⟨pgs, size, firstPage, lastPage, by omega, by omega, ?_, contract.media _ checked media locked.rests, ?_, ?_⟩
  · refine spread_kept p mapped buffered _ checked (media_maps _ checked media) (fun other => by rw [sameBuffers]) ?_ locked.spread
    obtain ⟨_, _, same⟩ := only
    rw [same]
  · left
    rw [sameBuffers, show (lockBuffer got req index).writeBuffer index = { got.writeBuffer index with sqid := req.sqId, busy := true } from
      Function.update_self ..]
    exact label
  · intro zone zoneInside
    rw [descs]
    by_cases own : zone = zid
    · rw [own, Function.update_self, if_pos rfl]
      change ((lockBuffer got req index).zoneDescs zid).wp + nrLbasFromRwCmd cmd = _
      rw [pointer, size, eight]
      ring
    · rw [Function.update_of_ne own, if_neg own, Nat.add_zero]
      exact locked.pointers zone zoneInside

include contract space in
theorem written_settled (slba nrLba zid index pgs : Nat) (inside : zid < p.zpp.nrZones) (bound : index < p.zpp.nrWb) (checked : ZmsFtl)
    (begins : WriteBegins p resting checked mapped buffered slba nrLba zid index pgs) (progress : WriteProgress)
    (ran : writeLoop p index zid (lbaToLpn (u64 (slba + nrLba - 1))) (lbaToLpn (u64 (slba + nrLba - 1)) + 1 - lbaToLpn slba) (lbaToLpn slba)
      ⟨checked, req.nsecsStart, req.nsecsStart⟩ = .ok progress) :
    ∃ mapped' buffered', Settled p resting progress.ftl mapped' buffered' ∧ (∀ zid, mapped zid ≤ mapped' zid) ∧
      ∀ zone, mapped' zone + buffered' zone = mapped zone + buffered zone + (if zone = zid then nrLba / secsPerPg else 0) := by
  have positive := begins.some
  have fits := begins.fits
  rw [begins.first, begins.last] at ran
  obtain ⟨mapped', buffered', taken⟩ := write_loop_spread p loc resting contract space index zid bound inside _ _
    ⟨checked, req.nsecsStart, req.nsecsStart⟩ progress mapped buffered begins.spread begins.rests begins.serves (by omega) ran
  have total : ∀ zone, mapped' zone + buffered' zone = mapped zone + buffered zone + (if zone = zid then pgs else 0) := by
    intro zone
    rw [taken.total]
    split <;> omega
  refine ⟨mapped', buffered', ⟨taken.resting, taken.spread, ?_⟩, taken.grows, ?_⟩
  · intro zone zoneInside
    rw [taken.descs, total]
    exact begins.pointers zone zoneInside
  · intro zone
    rw [total, begins.size, Nat.mul_div_cancel_left _ (by decide)]

include contract space buffers in
theorem zoned_write_settled (outcome : WriteOutcome) (accounted : Accounted p ftl) (whole : WholePages cmd ∧ PlacedInZone p ftl cmd)
    (settled : Settled p resting ftl mapped buffered) (ran : zonedWrite p ftl req cmd = .ok outcome) :
    ∃ mapped' buffered', Settled p resting outcome.ftl mapped' buffered' ∧ (∀ zid, mapped zid ≤ mapped' zid) ∧
      ∀ zid, mapped' zid + buffered' zid = mapped zid + buffered zid + (if zid = lbaToZone p cmd.slba ∧ outcome.done.any (fun done => decide (done.status = .success)) then nrLbasFromRwCmd cmd / secsPerPg else 0) := by
  have inside : lbaToZone p cmd.slba < p.zpp.nrZones := by
    unfold zonedWrite at ran
    rw [lpn_zone_of_lba] at ran
    split at ran
    · cases ran
    · rename_i below
      exact Nat.lt_of_not_le below
  have idle : ∀ (done : Option Completion), done.any (fun done => decide (done.status = .success)) = false → ∀ zid,
      mapped zid + buffered zid = mapped zid + buffered zid +
        (if zid = lbaToZone p cmd.slba ∧ done.any (fun done => decide (done.status = .success)) = true then nrLbasFromRwCmd cmd / secsPerPg else 0) := by
    intro done failed zid
    rw [failed, if_neg (fun both => Bool.false_ne_true both.2), Nat.add_zero]
  have begun : Settled p resting (started p ftl req cmd) mapped buffered :=
    settled_kept p loc resting contract mapped buffered ftl _ (started_media p ftl req cmd) (started_aggs p ftl req cmd)
      (fun index => by rw [started_buffers]) (started_table p ftl req cmd).descs settled
  have zone : lpnToZone p (firstLpn (placeAppend p ftl cmd)) = lbaToZone p cmd.slba := by
    rw [firstLpn, lpn_zone_of_lba]
    exact whole.2
  have arrives : ∀ got result, zmsWbGet p (started p ftl req cmd) (firstLpn (placeAppend p ftl cmd)) = (result, got) →
      Settled p resting got mapped buffered ∧ Accounted p got := by
    intro got result found
    have after := get_settled p loc resting contract mapped buffered _ (firstLpn (placeAppend p ftl cmd)) (by rw [zone]; exact inside) begun
    have table := zms_wb_get_table p (started p ftl req cmd) (firstLpn (placeAppend p ftl cmd))
    rw [found] at after table
    exact ⟨after, accounted_same p ftl got (same_table_trans _ _ _ (started_table p ftl req cmd).toSameTable table.toSameTable) accounted⟩
  cases zoned_write_run p ftl req cmd outcome ran with
  | refusedFull full => exact absurd full (by rw [resting_clear p loc resting contract ftl settled.rests]; exact Bool.false_ne_true)
  | dropped clear drop =>
      have short := drop.1
      have positive : 0 < nrLbasFromRwCmd cmd := Nat.succ_pos _
      exact absurd (Nat.le_of_dvd positive whole.1) (Nat.not_le_of_lt short)
  | waits clear kept got found =>
      obtain ⟨after, _⟩ := arrives got none found
      exact ⟨mapped, buffered, after, fun _ => Nat.le_refl _, idle _ rfl⟩
  | busy clear kept got index found locked after same =>
      obtain ⟨gotSettled, _⟩ := arrives got (some index) found
      rcases same with same | same
      · rw [same]
        exact ⟨mapped, buffered, gotSettled, fun _ => Nat.le_refl _, idle _ rfl⟩
      · rw [same]
        exact ⟨mapped, buffered, settled_kept p loc resting contract mapped buffered got _ rfl rfl (held_put got index _ rfl) rfl gotSettled,
          fun _ => Nat.le_refl _, idle _ rfl⟩
  | switches clear kept got index found other unlocked latest flushed flushing =>
      obtain ⟨gotSettled, _⟩ := arrives got (some index) found
      obtain ⟨bound, _⟩ := zms_wb_get_index p mapped buffered _ begun.spread buffers _ index got found
      have locked := settled_kept p loc resting contract mapped buffered got
        (putBuffer got index { got.writeBuffer index with busy := true }) rfl rfl (held_put got index _ rfl) rfl gotSettled
      obtain ⟨mapped', buffered', done, _, grows, total⟩ := flush_settled p loc resting contract space mapped buffered _ flushed index _ latest bound
        locked flushing
      refine ⟨mapped', buffered', settled_kept p loc resting contract mapped' buffered' flushed _ rfl rfl (fun _ => rfl) rfl done, grows, ?_⟩
      intro zid
      rw [total]
      exact idle _ rfl zid
  | rejected clear kept got index found own unlocked zoneInside status checked refused check =>
      obtain ⟨gotSettled, gotAccounted⟩ := arrives got (some index) found
      have lockedAccounted : Accounted p (lockBuffer got req index) := accounted_same p got _ ⟨rfl, rfl⟩ gotAccounted
      rcases zns_write_check_cases p (lockBuffer got req index) _ _ status checked lockedAccounted zoneInside check with ⟨_, same⟩ | ⟨passed, _⟩
      · rw [same]
        exact ⟨mapped, buffered, settled_kept p loc resting contract mapped buffered got _ rfl rfl (held_put got index _ rfl) rfl gotSettled,
          fun _ => Nat.le_refl _, idle _ (by simp [finishWrite, refused])⟩
      · exact absurd passed refused
  | written clear kept got index found own unlocked zoneInside checked check progress filled =>
      obtain ⟨gotSettled, gotAccounted⟩ := arrives got (some index) found
      obtain ⟨bound, label⟩ := zms_wb_get_index p mapped buffered _ begun.spread buffers _ index got found
      have mine : (got.writeBuffer index).zid = some (lbaToZone p (placeAppend p ftl cmd).slba) := by
        rcases label with label | ⟨other, _⟩
        · rw [label, zone, whole.2]
        · rw [own] at other
          cases other
      rw [← whole.2] at filled
      unfold lastLpn firstLpn at filled
      rw [place_append_length] at filled
      obtain ⟨pgs, begins⟩ := write_begins p loc resting contract space mapped buffered req cmd whole.1 (placeAppend p ftl cmd).slba index zoneInside got
        checked gotSettled gotAccounted mine check
      obtain ⟨mapped', buffered', done, grows, total⟩ := written_settled p loc resting contract space mapped buffered req _ _ _ index pgs zoneInside bound
        checked begins progress filled
      refine ⟨mapped', buffered', settled_kept p loc resting contract mapped' buffered' progress.ftl _ rfl rfl (fun _ => rfl) rfl done, grows, ?_⟩
      have success : anyFull progress.ftl = false := resting_clear p loc resting contract progress.ftl done.rests
      intro zid
      rw [total, whole.2]
      simp [finishWrite, success]

end Writing

end ConZone
