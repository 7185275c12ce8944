import ConZone.ZoneClear

set_option autoImplicit false

namespace ConZone

-- The LPNs from first on, up to last, have come to the medium.
structure Landing (p : Params) (loc : Loc) (resting : ZmsFtl → Prop) (before after : ZmsFtl) (first last : Nat) : Prop where
  resting : resting after
  mapped : ∀ other, Mapped p after other ↔ Mapped p before other ∨ first ≤ other ∧ other < last
  aggs : loc = .normal → after.zoneAggLpns = before.zoneAggLpns

section Flushing

variable (p : Params) (loc : Loc) (resting : ZmsFtl → Prop) (contract : MediaContract p loc resting)

theorem landing_trans (before middle after : ZmsFtl) (first second third : Nat) (lower : first ≤ second) (upper : second ≤ third)
    (left : Landing p loc resting before middle first second) (right : Landing p loc resting middle after second third) :
    Landing p loc resting before after first third := by
  refine ⟨right.resting, fun other => ?_, fun normal => (right.aggs normal).trans (left.aggs normal)⟩
  rw [right.mapped, left.mapped, or_assoc]
  refine or_congr_right ?_
  omega

theorem landing_refl (ftl : ZmsFtl) (rests : resting ftl) (first : Nat) : Landing p loc resting ftl ftl first first := by
  refine ⟨rests, fun other => ?_, fun _ => rfl⟩
  rw [or_iff_left (by omega)]

theorem landing_filled (before after : ZmsFtl) (zid m n : Nat) (filled : ZoneFilled p before zid m)
    (landing : Landing p loc resting before after (zoneToSlpn p zid + m) (zoneToSlpn p zid + (m + n))) : ZoneFilled p after zid (m + n) := by
  intro i bound
  rw [landing.mapped, filled i bound]
  omega

include contract in
theorem resting_clear (ftl : ZmsFtl) (rests : resting ftl) : anyFull ftl = false := (contract.roomy ftl rests).clear

variable (start elpn agg zid : Nat) (inside : zid < p.zpp.nrZones)

include contract inside in
theorem flush_page_lands (m : Nat) (ftl written : ZmsFtl) (toWritePgs time : Nat) (bound : m < p.zpp.pgsPerZone) (filled : ZoneFilled p ftl zid m)
    (rests : resting ftl) (writing : nandWrite (foregroundGc p) p (countInplace p ftl (zoneToSlpn p zid + m)) start (zoneToSlpn p zid + m) loc .userIo
      toWritePgs elpn = .ok (time, written)) :
    Landing p loc resting ftl written (zoneToSlpn p zid + m) (zoneToSlpn p zid + (m + 1)) := by
  have counted := count_inplace_step p ftl (zoneToSlpn p zid + m)
  have maps := quiet_maps _ _ counted
  have aggs : (countInplace p ftl (zoneToSlpn p zid + m)).zoneAggLpns = ftl.zoneAggLpns := gathered_aggs _ _ (count_inplace_gathered p ftl _)
  obtain ⟨after, mapped, kept⟩ := contract.writes _ written start zid m _ elpn time inside bound
    (fun i bound => by rw [same_maps_mapped p _ _ maps]; exact filled i bound) (contract.media _ _ counted.media rests) writing
  refine ⟨after, fun other => ?_, fun normal => (kept normal).trans aggs⟩
  rw [mapped, same_maps_mapped p _ _ maps]
  refine or_congr_right ?_
  omega

include contract inside in
theorem flush_pages_land (n m : Nat) (state next : FlushState) (short : m + n ≤ p.zpp.pgsPerZone) (filled : ZoneFilled p state.ftl zid m)
    (rests : resting state.ftl)
    (ran : flushPages p loc start elpn agg ((List.range' m n).map fun i => zoneToSlpn p zid + i) state = .ok next) :
    Landing p loc resting state.ftl next.ftl (zoneToSlpn p zid + m) (zoneToSlpn p zid + (m + n)) := by
  induction n generalizing m state with
  | zero =>
      rw [← Except.ok.inj ran]
      exact landing_refl p loc resting state.ftl rests _
  | succ n ih =>
      rw [List.range'_succ, List.map_cons] at ran
      unfold flushPages at ran
      rw [contract.dual] at ran
      simp only [Bool.not_true, Bool.false_and, Bool.false_eq_true, if_false] at ran
      obtain ⟨⟨time, written⟩, writing, ran⟩ := bind_ok _ _ _ ran
      have one := flush_page_lands p loc resting contract start elpn zid inside m state.ftl written _ time (by omega) filled rests writing
      have rest := ih (m + 1) _ (by omega) (landing_filled p loc resting state.ftl written zid m 1 filled one) one.resting ran
      rw [show m + 1 + n = m + (n + 1) by omega] at rest
      exact landing_trans p loc resting state.ftl written next.ftl _ _ _ (by omega) (by omega) one rest

include contract inside in
theorem flush_round_lands (n m : Nat) (rest : List Nat) (state next : FlushState) (short : m + n ≤ p.zpp.pgsPerZone)
    (filled : ZoneFilled p state.ftl zid m) (rests : resting state.ftl) (alone : loc = .normal → state.ftl.zoneAggLpns agg = [])
    (ran : flushRound p start elpn agg ((List.range' m n).map fun i => zoneToSlpn p zid + i) state = .ok (rest, next)) :
    ∃ pgs, pgs = min (oneshotOf p loc) n ∧ rest = (List.range' (m + pgs) (n - pgs)).map (fun i => zoneToSlpn p zid + i) ∧
      Landing p loc resting state.ftl next.ftl (zoneToSlpn p zid + m) (zoneToSlpn p zid + (m + pgs)) := by
  unfold flushRound at ran
  dsimp only at ran
  have target : ∀ lpns, getFlushTargetLocation p state.ftl lpns = loc := fun lpns => by
    rw [getFlushTargetLocation, contract.dual, if_pos rfl, contract.target]
  rw [target, if_neg (fun both => both.2 (alone both.1))] at ran
  obtain ⟨flushed, flushing, ran⟩ := bind_ok _ _ _ ran
  obtain ⟨left, same⟩ := Prod.mk.inj (pure_ok _ _ ran)
  rw [List.length_map, List.length_range'] at left flushing
  have taken : ((List.range' m n).map fun i => zoneToSlpn p zid + i).take (min (oneshotOf p loc) n) =
      (List.range' m (min (oneshotOf p loc) n)).map fun i => zoneToSlpn p zid + i := by
    rw [← List.map_take, List.take_range'_of_length_ge (Nat.min_le_right _ _)]
  rw [taken] at flushing
  have lands := flush_pages_land p loc resting contract start elpn agg zid inside _ m state flushed (by omega) filled rests flushing
  refine ⟨min (oneshotOf p loc) n, rfl, ?_, ?_⟩
  · rw [← left, ← List.map_drop, List.drop_range', Nat.mul_one]
  · rw [← same]
    exact ⟨contract.media flushed.ftl _ rfl lands.resting, lands.mapped, lands.aggs⟩

include contract inside in
theorem flush_rounds_land (fuel n m : Nat) (state next : FlushState) (short : m + n ≤ p.zpp.pgsPerZone)
    (filled : ZoneFilled p state.ftl zid m) (rests : resting state.ftl) (alone : loc = .normal → state.ftl.zoneAggLpns agg = [])
    (ran : flushRounds p start elpn agg fuel ((List.range' m n).map fun i => zoneToSlpn p zid + i) state = .ok next) :
    Landing p loc resting state.ftl next.ftl (zoneToSlpn p zid + m) (zoneToSlpn p zid + (m + n)) := by
  induction fuel generalizing m n state with
  | zero =>
      cases n with
      | zero =>
          rw [← Except.ok.inj ran]
          exact landing_refl p loc resting state.ftl rests _
      | succ n => exact nomatch ran
  | succ fuel ih =>
      cases n with
      | zero =>
          rw [← Except.ok.inj ran]
          exact landing_refl p loc resting state.ftl rests _
      | succ n =>
          unfold flushRounds at ran
          obtain ⟨⟨rest, middle⟩, rounded, ran⟩ := bind_ok _ _ _ ran
          obtain ⟨pgs, size, left, lands⟩ := flush_round_lands p loc resting contract start elpn agg zid inside (n + 1) m rest state middle
            short filled rests alone rounded
          dsimp only at ran
          rw [resting_clear p loc resting contract middle.ftl lands.resting, if_neg Bool.false_ne_true, left] at ran
          have later := ih (n + 1 - pgs) (m + pgs) middle (by omega)
            (landing_filled p loc resting state.ftl middle.ftl zid m pgs filled lands) lands.resting
            (fun normal => by rw [lands.aggs normal]; exact alone normal) ran
          rw [show m + pgs + (n + 1 - pgs) = m + (n + 1) by omega] at later
          exact landing_trans p loc resting state.ftl middle.ftl next.ftl _ _ _ (by omega) (by omega) lands later

end Flushing

end ConZone
