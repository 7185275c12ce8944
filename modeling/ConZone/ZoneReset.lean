import ConZone.ZoneEvents

set_option autoImplicit false

namespace ConZone

-- The pages parked for their zones are the affair of the write paths alone.
section Gathered

variable (p : Params)

theorem erase_linked_lines_gathered (fuel : Nat) (ftl next : ZmsFtl) (target : Option LineRef)
    (ran : eraseLinkedLines p fuel ftl target = .ok next) : gathered next = gathered ftl := by
  induction fuel generalizing ftl target with
  | zero =>
      cases target with
      | none =>
          rw [← Except.ok.inj ran]
      | some target => exact nomatch ran
  | succ fuel ih =>
      cases target with
      | none =>
          rw [← Except.ok.inj ran]
      | some target =>
          unfold eraseLinkedLines at ran
          refine (ih _ _ ran).trans ?_
          split
          · exact erase_line_gathered p ftl target .userIo
          · rfl

theorem reset_page_gathered (scan next : ResetScan) (lpn : Nat) (page : Page) (ran : resetPage p scan lpn page = .ok next) :
    gathered next.ftl = gathered scan.ftl := by
  have dropped : gathered (dropMapping p scan.ftl lpn page) = gathered scan.ftl :=
    set_rmap_gathered p (markPageInvalid p scan.ftl page) none page
  unfold resetPage at ran
  dsimp only at ran
  split at ran
  · obtain ⟨erased, erasing, rest⟩ := bind_ok _ _ _ ran
    rw [← pure_ok _ _ rest]
    exact (erase_linked_lines_gathered p _ _ erased _ erasing).trans dropped
  · rw [← Except.ok.inj ran]
    exact dropped

theorem reset_pages_gathered (lpns : List Nat) (scan next : ResetScan) (ran : resetPages p lpns scan = .ok next) :
    gathered next.ftl = gathered scan.ftl := by
  induction lpns generalizing scan with
  | nil =>
      rw [← Except.ok.inj ran]
  | cons lpn rest ih =>
      unfold resetPages at ran
      split at ran
      · obtain ⟨middle, resetting, ran⟩ := bind_ok _ _ _ ran
        exact (ih middle ran).trans (reset_page_gathered p scan middle lpn _ resetting)
      · rw [← Except.ok.inj ran]

theorem erase_rest_gathered (scan : ResetScan) (next : ZmsFtl) (ran : eraseRest p scan = .ok next) : gathered next = gathered scan.ftl := by
  unfold eraseRest at ran
  split at ran
  · split at ran
    · exact erase_linked_lines_gathered p _ scan.ftl next _ ran
    · rw [← Except.ok.inj ran]
  · rw [← Except.ok.inj ran]

theorem map_read_gathered (lpn : Nat) (grans : List MapType) (state : Nat × ZmsFtl) :
    gathered (mapRead p lpn grans state).2 = gathered state.2 := by
  induction grans generalizing state with
  | nil => rfl
  | cons gran rest ih =>
      obtain ⟨latest, ftl⟩ := state
      unfold mapRead
      dsimp only
      have fetched := nand_read_gathered p ftl [getGranularityStartLpn p lpn gran] .mapReadIo latest
      split
      · split
        · exact fetched
        · exact (ih _).trans fetched
      · exact (ih _).trans fetched

theorem lookup_l2p_gathered (state : ReadState) (lpn : Nat) : gathered (lookupL2p p state lpn).ftl = gathered state.ftl := by
  unfold lookupL2p
  split
  · rfl
  · exact (map_read_gathered p lpn mapType (state.readBegin, _)).trans (nand_read_gathered p state.ftl state.toRead .userIo state.readBegin)

theorem zms_wb_get_gathered (ftl : ZmsFtl) (slpn : Nat) : gathered (zmsWbGet p ftl slpn).2 = gathered ftl := by
  unfold zmsWbGet
  dsimp only
  split
  · rfl
  · split <;> rfl

theorem read_page_gathered (slpn : Nat) (state : ReadState) (lpn : Nat) : gathered (readPage p slpn state lpn).ftl = gathered state.ftl := by
  unfold readPage
  dsimp only
  have got := zms_wb_get_gathered p { state.ftl with stats := { state.ftl.stats with hostRPgs := state.ftl.stats.hostRPgs + 1 } } slpn
  generalize zmsWbGet p _ slpn = found at got ⊢
  obtain ⟨buffer, middle⟩ := found
  dsimp only at got ⊢
  split
  · exact got
  · have looked := lookup_l2p_gathered p { state with ftl := middle, wbReadPgs := state.wbReadPgs + middle.gcAggLpns.count lpn } lpn
    split
    · exact looked.trans got
    · exact looked.trans got

end Gathered

section Clearing

variable (p : Params) (mapped buffered : Nat → Nat)

theorem clearable_mapped (ftl : ZmsFtl) (spread : Spread p ftl mapped buffered) (zid : Nat) (inside : zid < p.zpp.nrZones) :
    Clearable p ftl zid ↔ p.zpp.nsType = .tlc → mapped zid = p.zpp.pgsPerZone ∨ mapped zid = 0 := by
  have fits := spread.fits zid inside
  have filled := spread.filled zid inside
  have exactly : ∀ count, count ≤ p.zpp.pgsPerZone → (ZoneFilled p ftl zid count ↔ mapped zid = count) := by
    intro count least
    constructor
    · intro other
      rcases Nat.lt_trichotomy (mapped zid) count with less | same | more
      · exact absurd ((filled (mapped zid) (by omega)).mp ((other (mapped zid) (by omega)).mpr less)) (Nat.lt_irrefl _)
      · exact same
      · exact absurd ((other count (by omega)).mp ((filled count (by omega)).mpr more)) (Nat.lt_irrefl _)
    · rintro rfl
      exact filled
  unfold Clearable
  rw [exactly p.zpp.pgsPerZone (Nat.le_refl _), exactly 0 (Nat.zero_le _)]

theorem cleared_spread (before after : ZmsFtl) (space : ZonedSpace p) (zid : Nat) (spread : Spread p before mapped buffered)
    (maps : ∀ other, Mapped p after other ↔ Mapped p before other ∧ ¬(zoneToSlpn p zid ≤ other ∧ other < zoneToSlpn p zid + p.zpp.pgsPerZone))
    (buffers : (∃ index, index < p.zpp.nrWb ∧ (before.writeBuffer index).zid = some zid ∧ BufferGone before after index) ∨
      buffered zid = 0 ∧ ∀ index, held (after.writeBuffer index) = held (before.writeBuffer index))
    (aggs : p.zpp.nsType = .tlc → ∀ other, after.zoneAggLpns other = []) :
    Spread p after (Function.update mapped zid 0) (Function.update buffered zid 0) := by
  have filled : ∀ zone, zone < p.zpp.nrZones → ZoneFilled p after zone (Function.update mapped zid 0 zone) := by
    intro zone zoneInside i inZone
    rw [maps, spread.filled zone zoneInside i inZone]
    by_cases same : zone = zid
    · rw [same, Function.update_self]
      omega
    · rw [Function.update_of_ne same, and_iff_left]
      rintro ⟨low, high⟩
      exact same (zone_lpn_apart p space zone i zid (zoneToSlpn p zone + i - zoneToSlpn p zid) (by omega) inZone (by omega)).1
  rcases buffers with ⟨index, bound, own, gone⟩ | ⟨zero, same⟩
  · exact released_spread p mapped buffered before after index zid 0 bound own spread gone (Nat.zero_le _) filled aggs
  · have sameZid : ∀ index, (after.writeBuffer index).zid = (before.writeBuffer index).zid := fun index => congrArg Prod.fst (same index)
    have lpns : ∀ index, (after.writeBuffer index).lpns = (before.writeBuffer index).lpns := fun index =>
      congrArg (fun contents => contents.2.1) (same index)
    have data : ∀ index, (after.writeBuffer index).flushData = (before.writeBuffer index).flushData := fun index =>
      congrArg (fun contents => contents.2.2) (same index)
    refine ⟨filled, ?_, ?_, ?_, ?_, ?_, ?_, aggs⟩
    · intro zone zoneInside
      by_cases here : zone = zid
      · rw [here, Function.update_self, Function.update_self]
        exact Nat.zero_le _
      · rw [Function.update_of_ne here, Function.update_of_ne here]
        exact spread.fits zone zoneInside
    · intro index bound zone own
      rw [sameZid] at own
      rw [lpns]
      obtain ⟨zoneInside, contents⟩ := spread.own index bound zone own
      refine ⟨zoneInside, ?_⟩
      by_cases here : zone = zid
      · rw [here] at contents ⊢
        rw [contents, zero, Function.update_self, Function.update_self]
        rfl
      · rw [contents, Function.update_of_ne here, Function.update_of_ne here]
    · intro index bound
      rw [sameZid, lpns]
      exact spread.free index bound
    · intro index bound
      rw [data, Buffer.pgs, lpns]
      exact spread.sized index bound
    · intro index other
      rw [sameZid, sameZid]
      exact spread.alone index other
    · intro zone absent
      by_cases here : zone = zid
      · rw [here, Function.update_self]
      · rw [Function.update_of_ne here]
        refine spread.rest zone fun index bound => ?_
        rw [← sameZid]
        exact absent index bound

end Clearing

section Reset

variable (p : Params) (loc : Loc) (resting : ZmsFtl → Prop) (contract : MediaContract p loc resting) (space : ZonedSpace p)
variable (buffers : 0 < p.zpp.nrWb) (mapped buffered : Nat → Nat)

-- A buffer is evicted when it holds the page the walk stopped at.
include space in
theorem release_own (ftl : ZmsFtl) (index zid : Nat) (inside : zid < p.zpp.nrZones) (bound : index < p.zpp.nrWb)
    (own : (ftl.writeBuffer index).zid = some zid) (spread : Spread p ftl mapped buffered) (positive : buffered zid ≠ 0) :
    bufsToRelease p ftl index (zoneToSlpn p zid) (some (zoneToSlpn p zid + mapped zid)) ≠ 0 := by
  obtain ⟨_, lpns⟩ := spread.own index bound zid own
  have sized := spread.sized index bound
  have pgs := buffered_pgs p mapped buffered ftl spread index zid bound own
  obtain ⟨rest, size⟩ : ∃ rest, buffered zid = rest + 1 := ⟨buffered zid - 1, by omega⟩
  rw [size, List.range'_succ, List.map_cons] at lpns
  have zone : lpnToZone p (zoneToSlpn p zid) = zid := zone_lpn_zone p space zid 0 inside space.some
  have checked : zmsWbCheck p (ftl.writeBuffer index) (zoneToSlpn p zid) = true := by
    rw [zmsWbCheck, own, zone]
    simp
  have hit : zmsWbHit (ftl.writeBuffer index) (zoneToSlpn p zid + mapped zid) = true := by
    rw [zmsWbHit, own, lpns, pgs]
    simp only [le_refl, decide_true, Bool.true_and, decide_eq_true_eq]
    omega
  unfold bufsToRelease
  dsimp only
  rw [checked, hit, if_pos (by rfl), sized, pgs, size]
  exact Nat.mul_ne_zero (by decide) (Nat.succ_ne_zero rest)

theorem release_none (ftl : ZmsFtl) (index slpn : Nat) (stopped : Option Nat)
    (other : zmsWbCheck p (ftl.writeBuffer index) slpn = false ∨ (ftl.writeBuffer index).lpns = []) :
    bufsToRelease p ftl index slpn stopped = 0 := by
  unfold bufsToRelease
  cases stopped with
  | none => rfl
  | some lpn =>
      dsimp only
      rw [if_neg]
      rcases other with check | blank
      · rw [check, Bool.false_and]
        exact Bool.false_ne_true
      · rw [zmsWbHit, blank]
        simp

include space buffers in
theorem drop_buffered_cases (ftl got : ZmsFtl) (zid : Nat) (inside : zid < p.zpp.nrZones) (writeBuffer : Option Nat) (scan : ResetScan)
    (erased : ZmsFtl) (before : Spread p ftl mapped buffered) (spread : Spread p got mapped buffered)
    (found : zmsWbGet p ftl (zoneToSlpn p zid) = (writeBuffer, got)) (scanned : scan.ftl.writeBuffer = got.writeBuffer)
    (kept : erased.writeBuffer = got.writeBuffer) (descs : erased.zoneDescs = got.zoneDescs)
    (stopped : scan.stopped = if mapped zid < p.zpp.pgsPerZone then some (zoneToSlpn p zid + mapped zid) else none) :
    (∃ index, index < p.zpp.nrWb ∧ (got.writeBuffer index).zid = some zid ∧
        BufferGone got (dropBuffered p scan (zoneToSlpn p zid) writeBuffer erased) index) ∨
      buffered zid = 0 ∧ ∀ index, held ((dropBuffered p scan (zoneToSlpn p zid) writeBuffer erased).writeBuffer index) = held (got.writeBuffer index) := by
  have zone : lpnToZone p (zoneToSlpn p zid) = zid := zone_lpn_zone p space zid 0 inside space.some
  have fits := spread.fits zid inside
  cases writeBuffer with
  | none =>
      have absent := zms_wb_get_none p ftl (zoneToSlpn p zid) got found
      rw [zone] at absent
      refine .inr ⟨spread.rest zid absent, fun index => ?_⟩
      unfold dropBuffered
      dsimp only
      rw [kept]
  | some index =>
      obtain ⟨bound, label⟩ := zms_wb_get_index p mapped buffered ftl before buffers (zoneToSlpn p zid) index got found
      rw [zone] at label
      unfold dropBuffered
      dsimp only
      have stays : ∀ (_ : zmsWbCheck p (got.writeBuffer index) (zoneToSlpn p zid) = false ∨ (got.writeBuffer index).lpns = []) other,
          held ((if bufsToRelease p scan.ftl index (zoneToSlpn p zid) scan.stopped ≠ 0 then evictBuffer erased index else erased).writeBuffer other) =
            held (got.writeBuffer other) := by
        intro idle other
        rw [release_none p scan.ftl index _ _ (by rw [scanned]; exact idle), if_neg (fun nonzero => nonzero rfl), kept]
      rcases label with own | ⟨check, absent⟩
      · by_cases zero : buffered zid = 0
        · refine .inr ⟨zero, stays (.inr ?_)⟩
          rw [(spread.own index bound zid own).2, zero]
          rfl
        · refine .inl ⟨index, bound, own, ?_⟩
          have within : mapped zid < p.zpp.pgsPerZone := by omega
          have release : bufsToRelease p scan.ftl index (zoneToSlpn p zid) scan.stopped ≠ 0 := by
            have released := release_own p space mapped buffered got index zid inside bound own spread zero
            rw [stopped, if_pos within]
            unfold bufsToRelease at released ⊢
            rw [scanned]
            exact released
          rw [if_pos release]
          refine ⟨?_, ?_, descs⟩
          · rw [show (evictBuffer erased index).writeBuffer index = _ from Function.update_self ..]
            rfl
          · intro other apart
            rw [← kept]
            exact Function.update_of_ne apart ..
      · exact .inr ⟨spread.rest zid absent, stays (.inl check)⟩

include contract space buffers in
theorem zone_reset_spread (ftl next : ZmsFtl) (zid : Nat) (inside : zid < p.zpp.nrZones) (clearable : Clearable p ftl zid)
    (rests : resting ftl) (spread : Spread p ftl mapped buffered) (ran : zoneReset p ftl zid = .ok next) :
    resting next ∧ Spread p next (Function.update mapped zid 0) (Function.update buffered zid 0) := by
  have zone : lpnToZone p (zoneToSlpn p zid) = zid := zone_lpn_zone p space zid 0 inside space.some
  have clears := (clearable_mapped p mapped buffered ftl spread zid inside).mp clearable
  unfold zoneReset at ran
  dsimp only at ran
  have media := zms_wb_get_media p ftl (zoneToSlpn p zid)
  have got := zms_wb_get_spread p mapped buffered ftl spread (zoneToSlpn p zid) (by rw [zone]; exact inside)
  generalize found : zmsWbGet p ftl (zoneToSlpn p zid) = looked at ran media got
  obtain ⟨writeBuffer, middle⟩ := looked
  dsimp only at ran media got
  obtain ⟨scan, scanned, rest⟩ := bind_ok _ _ _ ran
  obtain ⟨erased, erasing, rest⟩ := bind_ok _ _ _ rest
  have rested : resting erased := by
    refine contract.resets middle scan erased zid inside ((clearable_mapped p mapped buffered middle got zid inside).mpr clears) ?_ scanned erasing
    exact contract.media ftl middle media rests
  have aggs : erased.zoneAggLpns = middle.zoneAggLpns :=
    gathered_aggs _ _ ((erase_rest_gathered p scan erased erasing).trans (reset_pages_gathered p _ _ scan scanned))
  have hostScan := (reset_pages_step p _ _ scan scanned).host
  have host := (erase_rest_step p scan erased erasing).host.trans hostScan
  have fits := got.fits zid inside
  rw [zone_lpn_list] at scanned
  obtain ⟨stopped, walked⟩ := reset_pages_mapped p (zoneToSlpn p zid) 0 p.zpp.pgsPerZone (mapped zid) ⟨middle, none, none⟩ scan (Nat.zero_le _)
    (by omega) (fun i _ bound => got.filled zid inside i (by omega)) scanned
  rw [Nat.zero_add] at stopped
  have dropped : mediaSide (dropBuffered p scan (zoneToSlpn p zid) writeBuffer erased) = mediaSide erased :=
    drop_buffered_media p scan (zoneToSlpn p zid) writeBuffer erased
  have gathers : (dropBuffered p scan (zoneToSlpn p zid) writeBuffer erased).zoneAggLpns = erased.zoneAggLpns := by
    unfold dropBuffered
    split
    · split <;> rfl
    · rfl
  rw [← pure_ok _ _ rest]
  have last : SameMaps (dropBuffered p scan (zoneToSlpn p zid) writeBuffer erased)
      (countReset (putAgg (dropBuffered p scan (zoneToSlpn p zid) writeBuffer erased) zid [])) := ⟨fun _ => rfl, rfl⟩
  refine ⟨contract.media erased _ dropped rested, ?_⟩
  refine cleared_spread p mapped buffered middle _ space zid got ?_ ?_ ?_
  · intro other
    rw [same_maps_mapped p _ _ last, same_maps_mapped p erased _ (media_maps erased _ dropped), same_maps_mapped p scan.ftl erased (erase_rest_maps p scan erased erasing),
      walked, Nat.add_zero]
  · rcases drop_buffered_cases p space buffers mapped buffered ftl middle zid inside writeBuffer scan erased spread got found
      (congrArg HostSide.writeBuffer hostScan) (congrArg HostSide.writeBuffer host) (congrArg HostSide.zoneDescs host) stopped with
      ⟨index, bound, own, gone⟩ | stays
    · exact .inl ⟨index, bound, own, gone.empty, gone.others, gone.descs⟩
    · exact .inr stays
  · intro tlc other
    change Function.update (dropBuffered p scan (zoneToSlpn p zid) writeBuffer erased).zoneAggLpns zid [] other = []
    by_cases here : other = zid
    · rw [here, Function.update_self]
    · rw [Function.update_of_ne here, gathers, aggs]
      exact got.aggs tlc other

end Reset

end ConZone
