import ConZone.TlcRoom
import ConZone.BufferRoom

set_option autoImplicit false

namespace ConZone

-- The medium answers a write into a zone as long as another zone is blank, and
-- every reset it may be asked for.
structure MediaAnswers (p : Params) (loc : Loc) (resting : ZmsFtl → Prop) : Prop where
  writes : ∀ ftl start zid i toWritePgs elpn, zid < p.zpp.nrZones → i < p.zpp.pgsPerZone → ZoneFilled p ftl zid i → Spared p ftl zid →
    resting ftl → Answered (nandWrite (foregroundGc p) p ftl start (zoneToSlpn p zid + i) loc .userIo toWritePgs elpn)
  resets : ∀ ftl zid, zid < p.zpp.nrZones → Clearable p ftl zid → resting ftl →
    ∃ scan, resetPages p (zoneLpnList p zid) ⟨ftl, none, none⟩ = .ok scan ∧ Answered (eraseRest p scan)

theorem tlc_media_answers (p : Params) (ns : TlcNamespace p) (regular : Regular p .normal) (many : p.zpp.nrZones ≤ (lineRefs p).length) :
    MediaAnswers p .normal (TlcResting p) where
  writes := fun ftl start zid i toWritePgs elpn inside bound filled spared rests =>
    tlc_write_answers p ns regular ftl many zid i inside bound filled spared start toWritePgs elpn rests
  resets := by
    intro ftl zid inside clearable rests
    obtain ⟨scan, ran, _, none⟩ := tlc_zone_cleared p ns regular ftl zid inside clearable rests
    refine ⟨scan, ran, ?_⟩
    unfold eraseRest
    rw [none]
    exact ok_answers _

section Flushing

variable (p : Params) (loc : Loc) (resting : ZmsFtl → Prop) (contract : MediaContract p loc resting) (space : ZonedSpace p)
variable (answers : MediaAnswers p loc resting) (positive : 0 < oneshotOf p loc)

section Pages

variable (start elpn agg zid : Nat) (inside : zid < p.zpp.nrZones)

include space in
theorem landing_spared (before after : ZmsFtl) (m n : Nat) (fits : m + n ≤ p.zpp.pgsPerZone)
    (lands : Landing p loc resting before after (zoneToSlpn p zid + m) (zoneToSlpn p zid + (m + n))) (spared : Spared p before zid) :
    Spared p after zid := by
  obtain ⟨other, otherInside, apart, blank⟩ := spared
  refine ⟨other, otherInside, apart, fun i bound there => ?_⟩
  rcases (lands.mapped _).mp there with earlier | ⟨low, high⟩
  · exact blank i bound earlier
  · exact apart (zone_lpn_apart p space other i zid (zoneToSlpn p other + i - zoneToSlpn p zid) (by omega) bound (by omega)).1

include contract space answers inside in
theorem flush_pages_answers (n m : Nat) (state : FlushState) (short : m + n ≤ p.zpp.pgsPerZone) (filled : ZoneFilled p state.ftl zid m)
    (spared : Spared p state.ftl zid) (rests : resting state.ftl) :
    Answered (flushPages p loc start elpn agg ((List.range' m n).map fun i => zoneToSlpn p zid + i) state) := by
  induction n generalizing m state with
  | zero => exact ok_answers _
  | succ n ih =>
      rw [List.range'_succ, List.map_cons]
      unfold flushPages
      rw [contract.dual]
      simp only [Bool.not_true, Bool.false_and, Bool.false_eq_true, if_false]
      have counted := count_inplace_step p state.ftl (zoneToSlpn p zid + m)
      have maps := quiet_maps _ _ counted
      have same : ∀ lpn, Mapped p (countInplace p state.ftl (zoneToSlpn p zid + m)) lpn ↔ Mapped p state.ftl lpn := fun lpn =>
        same_maps_mapped p _ _ maps lpn
      obtain ⟨other, otherInside, apart, blank⟩ := spared
      refine bind_answers _ _ ?_ fun written writing => ?_
      · refine answers.writes _ start zid m _ elpn inside (by omega) (fun i bound => ?_) ⟨other, otherInside, apart, fun i bound => ?_⟩
          (contract.media _ _ counted.media rests)
        · rw [same]
          exact filled i bound
        · rw [same]
          exact blank i bound
      · obtain ⟨time, written⟩ := written
        have one := flush_page_lands p loc resting contract start elpn zid inside m state.ftl written _ time (by omega) filled rests writing
        exact ih (m + 1) _ (by omega) (landing_filled p loc resting state.ftl written zid m 1 filled one)
          (landing_spared p loc resting space zid state.ftl written m 1 (by omega) one ⟨other, otherInside, apart, blank⟩) one.resting

include contract space answers inside in
theorem flush_round_answers (n m : Nat) (state : FlushState) (short : m + n ≤ p.zpp.pgsPerZone) (filled : ZoneFilled p state.ftl zid m)
    (spared : Spared p state.ftl zid) (rests : resting state.ftl) (alone : loc = .normal → state.ftl.zoneAggLpns agg = []) :
    Answered (flushRound p start elpn agg ((List.range' m n).map fun i => zoneToSlpn p zid + i) state) := by
  have target : ∀ lpns, getFlushTargetLocation p state.ftl lpns = loc := fun lpns => by
    rw [getFlushTargetLocation, contract.dual, if_pos rfl, contract.target]
  unfold flushRound
  dsimp only
  rw [target, if_neg (fun both => both.2 (alone both.1)), List.length_map, List.length_range', ← List.map_take,
    List.take_range'_of_length_ge (Nat.min_le_right _ _)]
  refine bind_answers _ _ ?_ fun flushed _ => ok_answers _
  exact flush_pages_answers p loc resting contract space answers start elpn agg zid inside _ m state (by omega) filled spared rests

include contract space answers positive inside in
-- A round takes at least one page, so that a round for each page is enough.
theorem flush_rounds_answer (fuel n m : Nat) (enough : n ≤ fuel) (state : FlushState) (short : m + n ≤ p.zpp.pgsPerZone)
    (filled : ZoneFilled p state.ftl zid m) (spared : Spared p state.ftl zid) (rests : resting state.ftl)
    (alone : loc = .normal → state.ftl.zoneAggLpns agg = []) :
    Answered (flushRounds p start elpn agg fuel ((List.range' m n).map fun i => zoneToSlpn p zid + i) state) := by
  induction fuel generalizing m n state with
  | zero =>
      obtain rfl : n = 0 := by omega
      exact ok_answers _
  | succ fuel ih =>
      cases n with
      | zero => exact ok_answers _
      | succ n =>
          unfold flushRounds
          refine bind_answers _ _ ?_ fun rounded ran => ?_
          · exact flush_round_answers p loc resting contract space answers start elpn agg zid inside (n + 1) m state short filled spared rests alone
          · obtain ⟨rest, middle⟩ := rounded
            obtain ⟨pgs, size, left, lands⟩ := flush_round_lands p loc resting contract start elpn agg zid inside (n + 1) m rest state middle
              short filled rests alone ran
            dsimp only
            rw [resting_clear p loc resting contract middle.ftl lands.resting, if_neg Bool.false_ne_true, left]
            exact ih (n + 1 - pgs) (m + pgs) (by omega) middle (by omega) (landing_filled p loc resting state.ftl middle.ftl zid m pgs filled lands)
              (landing_spared p loc resting space zid state.ftl middle.ftl m pgs (by omega) lands spared) lands.resting
              (fun normal => by rw [lands.aggs normal]; exact alone normal)

end Pages

variable (mapped buffered : Nat → Nat) (spare : Nat) (spareInside : spare < p.zpp.nrZones)

include spareInside in
theorem spread_spared (ftl : ZmsFtl) (spread : Spread p ftl mapped buffered) (unwritten : mapped spare + buffered spare = 0) (zid : Nat)
    (apart : zid ≠ spare) : Spared p ftl zid := by
  refine ⟨spare, spareInside, apart.symm, fun i bound there => ?_⟩
  have low := (spread.filled spare spareInside i bound).mp there
  omega

include contract space answers positive spareInside in
theorem buffer_flush_answers (ftl : ZmsFtl) (index start : Nat) (bound : index < p.zpp.nrWb) (spread : Spread p ftl mapped buffered)
    (rests : resting ftl) (unwritten : mapped spare + buffered spare = 0) : Answered (bufferFlush p ftl index start) := by
  unfold bufferFlush
  dsimp only
  refine bind_answers _ _ ?_ fun state _ => ok_answers _
  by_cases blank : (ftl.writeBuffer index).lpns = []
  · rw [blank]
    unfold flushRounds
    exact ok_answers _
  · cases own : (ftl.writeBuffer index).zid with
    | none => exact absurd (spread.free index bound own) blank
    | some zid =>
        obtain ⟨inside, lpns⟩ := spread.own index bound zid own
        have pgs := buffered_pgs p mapped buffered ftl spread index zid bound own
        have apart : zid ≠ spare := by
          rintro rfl
          refine blank ?_
          rw [lpns, show buffered zid = 0 by omega]
          rfl
        rw [pgs, lpns]
        exact flush_rounds_answer p loc resting contract space answers positive start _ _ zid inside _ (buffered zid) (mapped zid) (Nat.le_refl _)
          ⟨ftl, 0, start⟩ (spread.fits zid inside) (spread.filled zid inside)
          (spread_spared p mapped buffered spare spareInside ftl spread unwritten zid apart) rests
          (fun normal => spread.aggs (normal_is_tlc p loc resting contract normal) _)

end Flushing

section Filling

variable (p : Params) (loc : Loc) (resting : ZmsFtl → Prop) (contract : MediaContract p loc resting) (space : ZonedSpace p)
variable (answers : MediaAnswers p loc resting) (positive : 0 < oneshotOf p loc) (sizes : WholeBuffers p)
variable (spare : Nat) (spareInside : spare < p.zpp.nrZones)
variable (index zid : Nat) (bound : index < p.zpp.nrWb) (inside : zid < p.zpp.nrZones) (apart : zid ≠ spare)

include contract space answers positive spareInside bound inside apart in
theorem write_step_answers (pgs : Nat) (progress : WriteProgress) (mapped buffered : Nat → Nat) (spread : Spread p progress.ftl mapped buffered)
    (rests : resting progress.ftl) (serves : Serves p progress.ftl index zid) (room : mapped zid + buffered zid + pgs ≤ p.zpp.pgsPerZone)
    (unwritten : mapped spare + buffered spare = 0) :
    Answered (writeStep p index zid (zoneToSlpn p zid + (mapped zid + buffered zid)) pgs progress) := by
  unfold writeStep
  dsimp only
  generalize ssdAdvanceWriteBuffer progress.ftl.timing progress.latest (pgs * pgsz) = advanced
  obtain ⟨time, timing⟩ := advanced
  dsimp only
  have timed : Spread p { progress.ftl with timing := timing } mapped buffered :=
    spread_kept p mapped buffered progress.ftl _ ⟨fun _ => rfl, rfl⟩ (fun _ => rfl) rfl spread
  obtain ⟨filled, _⟩ := fill_spread p index zid bound inside { progress.ftl with timing := timing } mapped buffered pgs time timed serves room
  split
  · refine bind_answers _ _ ?_ fun flushed _ => ok_answers _
    refine buffer_flush_answers p loc resting contract space answers positive mapped _ spare spareInside _ index time bound filled
      (contract.media progress.ftl _ rfl rests) ?_
    rw [Function.update_of_ne apart.symm]
    exact unwritten
  · exact ok_answers _

include contract space answers positive sizes spareInside bound inside apart in
-- The buffer has room for a page whenever the loop comes to it: a full one was
-- flushed by the step before.
theorem write_loop_answers (elpn fuel : Nat) (progress : WriteProgress) (mapped buffered : Nat → Nat)
    (spread : Spread p progress.ftl mapped buffered) (rests : resting progress.ftl) (serves : Serves p progress.ftl index zid)
    (room : RoomInBuffers p progress.ftl) (within : elpn < zoneToSlpn p zid + p.zpp.pgsPerZone)
    (unwritten : mapped spare + buffered spare = 0) (enough : elpn + 1 - (zoneToSlpn p zid + (mapped zid + buffered zid)) ≤ fuel) :
    Answered (writeLoop p index zid elpn fuel (zoneToSlpn p zid + (mapped zid + buffered zid)) progress) := by
  induction fuel generalizing progress mapped buffered with
  | zero =>
      unfold writeLoop
      rw [if_pos (by omega)]
      exact ok_answers _
  | succ fuel ih =>
      unfold writeLoop
      dsimp only
      by_cases past : elpn < zoneToSlpn p zid + (mapped zid + buffered zid)
      · rw [if_pos past]
        exact ok_answers _
      · rw [if_neg past]
        have free := room index bound
        have least : min (elpn - (zoneToSlpn p zid + (mapped zid + buffered zid)) + 1) (wbLpns p - (progress.ftl.writeBuffer index).pgs) ≤
            elpn - (zoneToSlpn p zid + (mapped zid + buffered zid)) + 1 := Nat.min_le_left _ _
        have fits : min (elpn - (zoneToSlpn p zid + (mapped zid + buffered zid)) + 1) (wbLpns p - (progress.ftl.writeBuffer index).pgs) ≤
            wbLpns p - (progress.ftl.writeBuffer index).pgs := Nat.min_le_right _ _
        have one : 0 < min (elpn - (zoneToSlpn p zid + (mapped zid + buffered zid)) + 1) (wbLpns p - (progress.ftl.writeBuffer index).pgs) := by
          omega
        generalize min (elpn - (zoneToSlpn p zid + (mapped zid + buffered zid)) + 1) (wbLpns p - (progress.ftl.writeBuffer index).pgs) = pgs
          at least fits one
        rw [if_neg (by omega)]
        refine bind_answers _ _ ?_ fun middle stepped => ?_
        · exact write_step_answers p loc resting contract space answers positive spare spareInside index zid bound inside apart pgs progress mapped
            buffered spread rests serves (by omega) unwritten
        · obtain ⟨mapped', buffered', taken, still⟩ := write_step_spread p loc resting contract space index zid bound inside pgs progress middle
            mapped buffered spread rests serves (by omega) stepped
          have after := (write_step_room p sizes index zid _ pgs progress middle (spread.sized index bound) room (by omega) stepped).1
          rw [resting_clear p loc resting contract middle.ftl taken.resting, if_neg Bool.false_ne_true]
          have here := taken.total zid
          have there := taken.total spare
          rw [if_pos rfl] at here
          rw [if_neg apart.symm] at there
          rw [show zoneToSlpn p zid + (mapped zid + buffered zid) + pgs = zoneToSlpn p zid + (mapped' zid + buffered' zid) by omega]
          exact ih middle mapped' buffered' taken.spread taken.resting still after (by omega) (by omega)

end Filling

section Commands

variable (p : Params) (loc : Loc) (resting : ZmsFtl → Prop) (contract : MediaContract p loc resting) (space : ZonedSpace p)
variable (answers : MediaAnswers p loc resting) (positive : 0 < oneshotOf p loc) (sizes : WholeBuffers p) (buffers : 0 < p.zpp.nrWb)
variable (spare : Nat) (spareInside : spare < p.zpp.nrZones) (mapped buffered : Nat → Nat) (unwritten : mapped spare + buffered spare = 0)

section Writes

variable (ftl : ZmsFtl) (req : Request) (cmd : RwCommand) (inside : lbaToZone p cmd.slba < p.zpp.nrZones) (apart : lbaToZone p cmd.slba ≠ spare)
variable (got : ZmsFtl) (index : Nat) (gotSettled : Settled p resting got mapped buffered) (bound : index < p.zpp.nrWb)

include contract space answers positive spareInside unwritten gotSettled bound in
theorem switch_zone_answers : Answered (switchZone p req cmd index got) := by
  unfold switchZone
  cases locked : (got.writeBuffer index).busy with
  | true =>
      rw [buffer_allocate_locked got index locked]
      exact ok_answers _
  | false =>
      rw [buffer_allocate_unlocked got index locked]
      have taken := settled_kept p loc resting contract mapped buffered got (putBuffer got index { got.writeBuffer index with busy := true }) rfl rfl
        (held_put got index _ rfl) rfl gotSettled
      refine bind_answers _ _ ?_ fun flushed _ => ok_answers _
      exact buffer_flush_answers p loc resting contract space answers positive mapped buffered spare spareInside _ index req.nsecsStart bound
        taken.spread taken.rests unwritten

include contract space answers positive sizes spareInside unwritten inside apart gotSettled bound in
theorem write_buffered_answers (whole : WholePages cmd ∧ PlacedInZone p ftl cmd) (accounted : Accounted p got) (room : RoomInBuffers p got)
    (label : (got.writeBuffer index).zid = some (lbaToZone p cmd.slba)) :
    Answered (writeBuffered p req (placeAppend p ftl cmd) (lbaToZone p cmd.slba) index (lockBuffer got req index)) := by
  unfold writeBuffered
  dsimp only
  rw [if_neg (Nat.not_le_of_lt (by rw [whole.2]; exact inside)), place_append_length]
  split
  · rename_i checked check
    obtain ⟨pgs, begins⟩ := write_begins p loc resting contract space mapped buffered req cmd whole.1 (placeAppend p ftl cmd).slba index
      (by rw [whole.2]; exact inside) got checked gotSettled accounted (by rw [whole.2]; exact label) check
    have only := zns_write_check_only p (lockBuffer got req index) (placeAppend p ftl cmd).slba (nrLbasFromRwCmd cmd)
    rw [check] at only
    have ready : RoomInBuffers p checked := by
      refine room_kept p got checked (fun other => ?_) room
      rw [only_table_buffers _ checked only]
      exact congrArg (fun contents => contents.2.1) (held_put got index { got.writeBuffer index with sqid := req.sqId, busy := true } rfl other)
    rw [whole.2] at begins
    have more := begins.some
    have fits := begins.fits
    refine bind_answers _ _ ?_ fun progress _ => ok_answers _
    rw [begins.first, begins.last]
    exact write_loop_answers p loc resting contract space answers positive sizes spare spareInside index (lbaToZone p cmd.slba) bound inside apart _ _
      ⟨checked, req.nsecsStart, req.nsecsStart⟩ mapped buffered begins.spread begins.rests begins.serves ready (by omega) unwritten (by omega)
  · exact ok_answers _

include contract space answers positive sizes buffers spareInside unwritten inside apart in
theorem zoned_write_answers (whole : WholePages cmd ∧ PlacedInZone p ftl cmd) (accounted : Accounted p ftl) (settled : Settled p resting ftl mapped buffered)
    (room : RoomInBuffers p ftl) : Answered (zonedWrite p ftl req cmd) := by
  have begun : Settled p resting (started p ftl req cmd) mapped buffered :=
    settled_kept p loc resting contract mapped buffered ftl _ (started_media p ftl req cmd) (started_aggs p ftl req cmd)
      (fun index => by rw [started_buffers]) (started_table p ftl req cmd).descs settled
  have zone : lpnToZone p (firstLpn (placeAppend p ftl cmd)) = lbaToZone p cmd.slba := by
    rw [firstLpn, lpn_zone_of_lba]
    exact whole.2
  unfold zonedWrite
  rw [lpn_zone_of_lba, if_neg (Nat.not_le_of_lt inside)]
  unfold handleWriteRequest
  dsimp only
  split
  · exact ok_answers _
  · rw [if_neg (fun both => Nat.not_le_of_lt inside both.2)]
    split
    · exact ok_answers _
    · change Answered (writeToBuffer p req (placeAppend p ftl cmd) (lbaToZone p cmd.slba) (started p ftl req cmd))
      unfold writeToBuffer
      dsimp only
      split
      · exact ok_answers _
      · rename_i index got found
        have gotSettled := get_settled p loc resting contract mapped buffered _ (firstLpn (placeAppend p ftl cmd)) (by rw [zone]; exact inside) begun
        have table := zms_wb_get_table p (started p ftl req cmd) (firstLpn (placeAppend p ftl cmd))
        have ready := room_kept p ftl got (found_lpns p ftl req cmd (some index) got found) room
        obtain ⟨bound, label⟩ := zms_wb_get_index p mapped buffered _ begun.spread buffers _ index got found
        rw [firstLpn] at gotSettled table
        rw [found] at gotSettled table
        have books := accounted_same p ftl got (same_table_trans _ _ _ (started_table p ftl req cmd).toSameTable table.toSameTable) accounted
        split
        · exact switch_zone_answers p loc resting contract space answers positive spare spareInside mapped buffered unwritten req
            (placeAppend p ftl cmd) got index gotSettled bound
        · rename_i own
          rw [Bool.not_eq_true', Bool.not_eq_false] at own
          rw [if_neg (by simp [lbas_whole_units])]
          have sameBusy : ((putBuffer got index { got.writeBuffer index with sqid := req.sqId }).writeBuffer index).busy =
              (got.writeBuffer index).busy := by
            simp [putBuffer]
          by_cases locked : (got.writeBuffer index).busy = true
          · rw [buffer_allocate_locked _ index (sameBusy.trans locked)]
            exact ok_answers _
          · have unlocked : (got.writeBuffer index).busy = false := Bool.eq_false_iff.mpr locked
            have lockedState : putBuffer (putBuffer got index { got.writeBuffer index with sqid := req.sqId }) index
                { (putBuffer got index { got.writeBuffer index with sqid := req.sqId }).writeBuffer index with busy := true } =
                lockBuffer got req index := by
              simp [putBuffer, lockBuffer]
            rw [buffer_allocate_unlocked _ index (sameBusy.trans unlocked), lockedState]
            refine write_buffered_answers p loc resting contract space answers positive sizes spare spareInside mapped buffered unwritten ftl req cmd
              inside apart got index gotSettled bound whole books ready ?_
            rcases label with label | ⟨other, _⟩
            · rw [label]
              exact congrArg some zone
            · rw [own] at other
              cases other

end Writes

section Flushes

include contract space answers positive spareInside unwritten in
theorem flush_buffer_answers (ftl : ZmsFtl) (index : Nat) (bound : index < p.zpp.nrWb) (settled : Settled p resting ftl mapped buffered) :
    Answered (flushBuffer p ftl index) := by
  unfold flushBuffer
  split
  · refine bind_answers _ _ ?_ fun flushed _ => ok_answers _
    exact buffer_flush_answers p loc resting contract space answers positive mapped buffered spare spareInside ftl index 0 bound settled.spread
      settled.rests unwritten
  · exact ok_answers _

include contract space answers positive spareInside unwritten in
theorem flush_buffers_answer (req : Request) (indices : List Nat) (bounds : ∀ index ∈ indices, index < p.zpp.nrWb) (ftl : ZmsFtl)
    (settled : Settled p resting ftl mapped buffered) : Answered (flushBuffers p req indices ftl) := by
  induction indices generalizing ftl mapped buffered with
  | nil => exact ok_answers _
  | cons index rest ih =>
      unfold flushBuffers
      have bound := bounds index List.mem_cons_self
      have noted : Settled p resting (putBuffer ftl index { ftl.writeBuffer index with sqid := req.sqId }) mapped buffered :=
        settled_kept p loc resting contract mapped buffered ftl _ rfl rfl (held_put ftl index _ rfl) rfl settled
      refine bind_answers _ _ ?_ fun middle ran => ?_
      · exact flush_buffer_answers p loc resting contract space answers positive spare spareInside mapped buffered unwritten _ index bound noted
      · obtain ⟨mapped', buffered', after, _, _, total⟩ := flush_buffer_settled p loc resting contract space mapped buffered ftl middle req index
          bound settled ran
        exact ih mapped' buffered' ((total spare).trans unwritten) (fun other member => bounds other (List.mem_cons_of_mem index member)) middle after

include contract space answers positive spareInside unwritten in
theorem zns_flush_answers (ftl : ZmsFtl) (req : Request) (settled : Settled p resting ftl mapped buffered) : Answered (znsFlush p ftl req) := by
  unfold znsFlush
  refine bind_answers _ _ ?_ fun flushed _ => ok_answers _
  exact flush_buffers_answer p loc resting contract space answers positive spare spareInside mapped buffered unwritten req _
    (fun index member => List.mem_range.mp member) ftl settled

end Flushes

section Resets

include contract answers in
theorem zone_reset_answers (ftl : ZmsFtl) (space : ZonedSpace p) (zid : Nat) (inside : zid < p.zpp.nrZones) (clearable : Clearable p ftl zid)
    (rests : resting ftl) (spread : Spread p ftl mapped buffered) : Answered (zoneReset p ftl zid) := by
  have zone : lpnToZone p (zoneToSlpn p zid) = zid := zone_lpn_zone p space zid 0 inside space.some
  have clears := (clearable_mapped p mapped buffered ftl spread zid inside).mp clearable
  have media := zms_wb_get_media p ftl (zoneToSlpn p zid)
  have got := zms_wb_get_spread p mapped buffered ftl spread (zoneToSlpn p zid) (by rw [zone]; exact inside)
  unfold zoneReset
  dsimp only
  generalize zmsWbGet p ftl (zoneToSlpn p zid) = looked at media got
  obtain ⟨writeBuffer, middle⟩ := looked
  dsimp only at media got ⊢
  obtain ⟨scan, walked, erases⟩ := answers.resets middle zid inside ((clearable_mapped p mapped buffered middle got zid inside).mpr clears)
    (contract.media ftl middle media rests)
  refine bind_answers _ _ ⟨scan, walked⟩ fun other same => ?_
  rw [walked] at same
  rw [← Except.ok.inj same]
  exact bind_answers _ _ erases fun erased _ => ok_answers _

include contract space answers in
theorem reset_zone_answers (ftl : ZmsFtl) (zid : Nat) (inside : zid < p.zpp.nrZones) (clearable : Clearable p ftl zid)
    (settled : Settled p resting ftl mapped buffered) : Answered (zmgmtSendResetZone p ftl zid) := by
  have clears := (clearable_mapped p mapped buffered ftl settled.spread zid inside).mp clearable
  have cleared : ∀ released : ZmsFtl, OnlyTable ftl released →
      Answered (do let after ← resetZone p (changeZoneState released zid .empty) zid
                   pure (NvmeStatus.success, after) : Exec (NvmeStatus × ZmsFtl)) := by
    intro released only
    refine bind_answers _ _ ?_ fun after _ => ok_answers _
    unfold resetZone
    obtain ⟨rests, spread⟩ := table_settled p loc resting contract mapped buffered ftl _
      (only_table_trans _ _ _ (only_table_trans _ _ _ only (change_zone_state_only released zid .empty)) ⟨_, _, rfl⟩) settled
    exact zone_reset_answers p loc resting contract answers mapped buffered _ space zid inside
      ((clearable_mapped p mapped buffered _ spread zid inside).mpr clears) rests spread
  unfold zmgmtSendResetZone
  dsimp only
  split
  · exact cleared _ (only_table_trans _ _ _ (release_only ftl .openZone) (release_active_only _ zid))
  · exact cleared _ (only_table_trans _ _ _ (release_only ftl .openZone) (release_active_only _ zid))
  · exact cleared _ (release_active_only ftl zid)
  · exact cleared ftl (only_table_refl ftl)
  · exact cleared ftl (only_table_refl ftl)
  · exact ok_answers _

include contract space answers in
theorem zmgmt_send_answers (ftl : ZmsFtl) (slba : Nat) (action : ZoneSendAction) (option : Bool) (inside : lbaToZone p slba < p.zpp.nrZones)
    (clearable : action = .resetZone → Clearable p ftl (lbaToZone p slba)) (settled : Settled p resting ftl mapped buffered) :
    Answered (zmgmtSend p ftl slba action option) := by
  unfold zmgmtSend
  dsimp only
  rw [if_neg (Nat.not_le_of_lt inside)]
  cases action with
  | resetZone => exact reset_zone_answers p loc resting contract space answers mapped buffered ftl _ inside (clearable rfl) settled
  | closeZone => exact ok_answers _
  | finishZone => exact ok_answers _
  | openZone => exact ok_answers _
  | offlineZone => exact ok_answers _
  | flushExplZrwa => exact ok_answers _

include contract space buffers answers in
theorem zmgmt_send_all_answers (cmd : ZoneMgmtSend) (zids : List Nat) (within : ∀ zid ∈ zids, zid < p.zpp.nrZones) (ftl : ZmsFtl)
    (accounted : Accounted p ftl) (online : Online p ftl) (clearable : cmd.zsa = .resetZone → ∀ zid ∈ zids, Clearable p ftl zid)
    (settled : Settled p resting ftl mapped buffered) : Answered (zmgmtSendAll p cmd zids ftl) := by
  induction zids generalizing ftl mapped buffered with
  | nil => exact ok_answers _
  | cons zid rest ih =>
      have inside := within zid List.mem_cons_self
      have others : ∀ other ∈ rest, other < p.zpp.nrZones := fun other member => within other (List.mem_cons_of_mem zid member)
      have zone : lbaToZone p (zoneToSlba p zid) = zid :=
        lba_to_zone_of p zid _ inside (Nat.le_refl _) (Nat.lt_add_of_pos_right (zone_lbas_positive p))
      have own : cmd.zsa = .resetZone → Clearable p ftl (lbaToZone p (zoneToSlba p zid)) := fun reset => by
        rw [zone]
        exact clearable reset zid List.mem_cons_self
      unfold zmgmtSendAll
      refine bind_answers _ _ ?_ fun sent ran => ?_
      · exact zmgmt_send_answers p loc resting contract space answers mapped buffered ftl _ _ _ (by rw [zone]; exact inside) own settled
      · obtain ⟨status, middle⟩ := sent
        have after := zmgmt_send_settled p loc resting contract space buffers mapped buffered ftl middle _ _ _ status accounted online
          (fun reset _ => own reset) settled ran
        refine ih _ _ others middle (zmgmt_send_accounted p ftl middle _ _ _ status accounted ran)
          (zmgmt_send_online p ftl online _ _ _ status middle ran) ?_ after
        intro reset other member
        have before := (clearable_mapped p mapped buffered ftl settled.spread other (others other member)).mp
          (clearable reset other (List.mem_cons_of_mem zid member))
        rw [clearable_mapped p _ _ middle after.spread other (others other member)]
        intro tlc
        unfold ZoneStore.without
        split
        · exact .inr rfl
        · exact before tlc

include contract space buffers answers in
theorem zns_zmgmt_send_answers (cmd : ZoneMgmtSend) (ftl : ZmsFtl) (named : cmd.selectAll = true ∨ lbaToZone p cmd.slba < p.zpp.nrZones)
    (accounted : Accounted p ftl) (online : Online p ftl)
    (clearable : ∀ zid, zid < p.zpp.nrZones → resetZones p cmd zid = true → Clearable p ftl zid)
    (settled : Settled p resting ftl mapped buffered) : Answered (znsZmgmtSend p ftl cmd) := by
  unfold znsZmgmtSend
  split
  · rename_i every
    refine bind_answers _ _ ?_ fun last _ => ok_answers _
    refine zmgmt_send_all_answers p loc resting contract space answers buffers mapped buffered cmd _ (fun zid member => List.mem_range.mp member) ftl
      accounted online (fun reset zid member => clearable zid (List.mem_range.mp member) ?_) settled
    rw [resetZones, if_pos every, reset]
    simpa using member
  · rename_i single
    have inside := named.resolve_left single
    refine zmgmt_send_answers p loc resting contract space answers mapped buffered ftl _ _ _ inside (fun reset => clearable _ inside ?_) settled
    rw [resetZones, if_neg single, reset]
    simp

end Resets

end Commands

section Events

variable (p : Params)

theorem zoned_read_answers (ftl : ZmsFtl) (req : Request) (cmd : RwCommand) (inside : lbaToZone p cmd.slba < p.zpp.nrZones) :
    Answered (zonedRead p ftl req cmd) := by
  unfold zonedRead
  dsimp only
  rw [if_neg (Nat.not_le_of_lt inside)]
  split
  · exact ok_answers _
  · split
    · exact ok_answers _
    · split
      · exact ok_answers _
      · exact ok_answers _

-- An event names zones of the namespace and scheduled releases, and leaves the
-- spare zone as it is.
def Addressed (p : Params) (ftl : ZmsFtl) (spare : Nat) : Event → Prop
  | .write _ cmd => lbaToZone p cmd.slba < p.zpp.nrZones ∧ lbaToZone p cmd.slba ≠ spare
  | .read _ cmd => lbaToZone p cmd.slba < p.zpp.nrZones
  | .mgmtSend cmd => cmd.selectAll = true ∨ lbaToZone p cmd.slba < p.zpp.nrZones
  | .flush _ => True
  | .release entry => entry < ftl.scheduled.length

variable (loc : Loc) (resting : ZmsFtl → Prop) (contract : MediaContract p loc resting) (space : ZonedSpace p)
variable (answers : MediaAnswers p loc resting) (positive : 0 < oneshotOf p loc) (sizes : WholeBuffers p) (buffers : 0 < p.zpp.nrWb)

include contract space answers positive sizes buffers in
theorem event_answers (ftl : ZmsFtl) (store : ZoneStore.Store) (event : Event) (stands : StandsFor p resting ftl store) (room : RoomInBuffers p ftl)
    (spare : Nat) (spareInside : spare < p.zpp.nrZones) (unwritten : store.written spare = 0) (orderly : Orderly p ftl event)
    (addressed : Addressed p ftl spare event) : ∃ next, Step p ftl event next := by
  cases event with
  | write req cmd =>
      obtain ⟨outcome, ran⟩ := zoned_write_answers p loc resting contract space answers positive sizes buffers spare spareInside store.landed
        store.waiting unwritten ftl req cmd addressed.1 addressed.2 orderly stands.accounted stands.settled room
      exact ⟨outcome.ftl, .write ftl req cmd outcome ran⟩
  | read req cmd =>
      obtain ⟨⟨done, next⟩, ran⟩ := zoned_read_answers p ftl req cmd addressed
      exact ⟨next, .read ftl next req cmd done ran⟩
  | flush req =>
      obtain ⟨⟨done, next⟩, ran⟩ := zns_flush_answers p loc resting contract space answers positive spare spareInside store.landed store.waiting
        unwritten ftl req stands.settled
      exact ⟨next, .flush ftl next req done ran⟩
  | mgmtSend cmd =>
      obtain ⟨⟨status, next⟩, ran⟩ := zns_zmgmt_send_answers p loc resting contract space answers buffers store.landed store.waiting cmd ftl
        addressed stands.accounted stands.online orderly stands.settled
      exact ⟨next, .mgmtSend ftl next cmd status ran⟩
  | release entry =>
      have there := List.getElem?_eq_getElem addressed
      generalize ftl.scheduled[entry] = due at there
      obtain ⟨index, time⟩ := due
      refine ⟨{ bufferRelease ftl index with scheduled := ftl.scheduled.eraseIdx entry }, .release ftl _ entry ?_⟩
      unfold runRelease
      rw [there]

end Events

end ConZone
