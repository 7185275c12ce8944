import ConZone.ZoneSpread

set_option autoImplicit false

namespace ConZone

section Flushing

variable (p : Params) (loc : Loc) (resting : ZmsFtl → Prop) (contract : MediaContract p loc resting) (space : ZonedSpace p)

include contract in
theorem normal_is_tlc (normal : loc = .normal) : p.zpp.nsType = .tlc := by
  have dual := contract.dual
  have target := contract.target
  rw [normal] at target
  cases kind : p.zpp.nsType with
  | zoned =>
      rw [kind] at dual
      cases dual
  | slc =>
      rw [kind] at target
      cases target
  | tlc => rfl

structure BufferGone (before after : ZmsFtl) (index : Nat) : Prop where
  empty : held (after.writeBuffer index) = (none, [], 0)
  others : ∀ other, other ≠ index → after.writeBuffer other = before.writeBuffer other
  descs : after.zoneDescs = before.zoneDescs

theorem buffer_flush_gone (ftl next : ZmsFtl) (index start latest : Nat) (ran : bufferFlush p ftl index start = .ok (latest, next)) :
    BufferGone ftl next index := by
  unfold bufferFlush at ran
  dsimp only at ran
  obtain ⟨state, flushing, rest⟩ := bind_ok _ _ _ ran
  have done := (Prod.mk.inj (pure_ok _ _ rest)).2
  have host := (flush_rounds_step p _ _ _ _ _ _ state flushing).host
  refine ⟨?_, ?_, ?_⟩
  · rw [← done]
    unfold clearBuffer putBuffer
    dsimp only
    rw [Function.update_self]
    rfl
  · intro other apart
    rw [← done]
    exact (Function.update_of_ne apart ..).trans (congrFun (congrArg HostSide.writeBuffer host) other)
  · rw [← done]
    exact congrArg HostSide.zoneDescs host

variable (mapped buffered : Nat → Nat)

theorem released_spread (before after : ZmsFtl) (index zid count : Nat) (bound : index < p.zpp.nrWb)
    (own : (before.writeBuffer index).zid = some zid) (spread : Spread p before mapped buffered) (gone : BufferGone before after index)
    (least : count ≤ p.zpp.pgsPerZone) (filled : ∀ zone, zone < p.zpp.nrZones → ZoneFilled p after zone (Function.update mapped zid count zone))
    (aggs : p.zpp.nsType = .tlc → ∀ zone, after.zoneAggLpns zone = []) :
    Spread p after (Function.update mapped zid count) (Function.update buffered zid 0) := by
  have empty : (after.writeBuffer index).lpns = [] := congrArg (fun contents => contents.2.1) gone.empty
  have unlabelled : (after.writeBuffer index).zid = none := congrArg Prod.fst gone.empty
  have label : ∀ other, other < p.zpp.nrWb → ∀ zone, (after.writeBuffer other).zid = some zone →
      other ≠ index ∧ zone ≠ zid ∧ (before.writeBuffer other).zid = some zone := by
    intro other inWb zone same
    have apart : other ≠ index := by
      rintro rfl
      rw [unlabelled] at same
      cases same
    rw [gone.others other apart] at same
    refine ⟨apart, ?_, same⟩
    rintro rfl
    exact apart (spread.alone other index _ inWb bound same own)
  refine ⟨filled, ?_, ?_, ?_, ?_, ?_, ?_, aggs⟩
  · intro zone zoneInside
    by_cases same : zone = zid
    · rw [same, Function.update_self, Function.update_self]
      exact least
    · rw [Function.update_of_ne same, Function.update_of_ne same]
      exact spread.fits zone zoneInside
  · intro other inWb zone same
    obtain ⟨apart, zoneApart, earlier⟩ := label other inWb zone same
    rw [Function.update_of_ne zoneApart, Function.update_of_ne zoneApart, gone.others other apart]
    exact spread.own other inWb zone earlier
  · intro other inWb same
    by_cases apart : other = index
    · rw [apart]
      exact empty
    · rw [gone.others other apart] at same ⊢
      exact spread.free other inWb same
  · intro other inWb
    by_cases apart : other = index
    · rw [apart, Buffer.pgs, empty]
      exact congrArg (fun contents => contents.2.2) gone.empty
    · rw [gone.others other apart]
      exact spread.sized other inWb
  · intro first second zone firstWb secondWb firstZid secondZid
    exact spread.alone first second zone firstWb secondWb (label first firstWb zone firstZid).2.2 (label second secondWb zone secondZid).2.2
  · intro zone absent
    by_cases same : zone = zid
    · rw [same, Function.update_self]
    · rw [Function.update_of_ne same]
      refine spread.rest zone fun other inWb labelled => ?_
      by_cases apart : other = index
      · rw [apart, own] at labelled
        exact same (Option.some.inj labelled).symm
      · refine absent other inWb ?_
        rw [gone.others other apart]
        exact labelled

theorem flushed_spread (before after : ZmsFtl) (index zid : Nat) (bound : index < p.zpp.nrWb) (own : (before.writeBuffer index).zid = some zid)
    (spread : Spread p before mapped buffered) (space : ZonedSpace p) (gone : BufferGone before after index)
    (landed : ∀ other, Mapped p after other ↔ Mapped p before other ∨
      zoneToSlpn p zid + mapped zid ≤ other ∧ other < zoneToSlpn p zid + (mapped zid + buffered zid))
    (aggs : p.zpp.nsType = .tlc → after.zoneAggLpns = before.zoneAggLpns) :
    Spread p after (Function.update mapped zid (mapped zid + buffered zid)) (Function.update buffered zid 0) := by
  obtain ⟨inside, _⟩ := spread.own index bound zid own
  have fits := spread.fits zid inside
  refine released_spread p mapped buffered before after index zid _ bound own spread gone fits ?_ ?_
  · intro zone zoneInside i inZone
    rw [landed]
    by_cases same : zone = zid
    · rw [same, Function.update_self, spread.filled zid inside i inZone]
      omega
    · rw [Function.update_of_ne same, spread.filled zone zoneInside i inZone, or_iff_left]
      rintro ⟨low, high⟩
      refine same (zone_lpn_apart p space zone i zid (zoneToSlpn p zone + i - zoneToSlpn p zid) (by omega) inZone (by omega)).1
  · intro tlc
    rw [aggs tlc]
    exact spread.aggs tlc

include contract space in
theorem buffer_flush_spread (ftl next : ZmsFtl) (index start latest : Nat) (bound : index < p.zpp.nrWb)
    (spread : Spread p ftl mapped buffered) (rests : resting ftl) (ran : bufferFlush p ftl index start = .ok (latest, next)) :
    ∃ mapped' buffered', Spread p next mapped' buffered' ∧ resting next ∧ BufferGone ftl next index ∧ (∀ zid, mapped zid ≤ mapped' zid) ∧
      ∀ zid, mapped' zid + buffered' zid = mapped zid + buffered zid := by
  have gone := buffer_flush_gone p ftl next index start latest ran
  have others := gone.others
  unfold bufferFlush at ran
  dsimp only at ran
  obtain ⟨state, flushing, rest⟩ := bind_ok _ _ _ ran
  have done := (Prod.mk.inj (pure_ok _ _ rest)).2
  cases own : (ftl.writeBuffer index).zid with
  | none =>
      have blank := spread.free index bound own
      rw [blank, Buffer.pgs, blank] at flushing
      have same : state = ⟨ftl, 0, start⟩ := (Except.ok.inj flushing).symm
      rw [same] at done
      refine ⟨mapped, buffered, ?_, ?_, gone, fun _ => Nat.le_refl _, fun _ => rfl⟩
      · refine spread_kept p mapped buffered ftl next ?_ ?_ ?_ spread
        · rw [← done]
          exact ⟨fun _ => rfl, rfl⟩
        · intro other
          by_cases self : other = index
          · have sized := spread.sized index bound
            rw [Buffer.pgs, blank] at sized
            rw [self, gone.empty]
            unfold held
            rw [own, blank, sized]
            rfl
          · rw [others other self]
        · rw [← done]
          rfl
      · rw [← done]
        exact contract.media ftl _ rfl rests
  | some zid =>
      obtain ⟨inside, lpns⟩ := spread.own index bound zid own
      have pgs := buffered_pgs p mapped buffered ftl spread index zid bound own
      rw [lpns] at flushing
      have lands := flush_rounds_land p loc resting contract start _ _ zid inside _ (buffered zid) (mapped zid) ⟨ftl, 0, start⟩ state
        (spread.fits zid inside) (spread.filled zid inside) rests
        (fun normal => spread.aggs (normal_is_tlc p loc resting contract normal) _) flushing
      have maps : SameMaps state.ftl next := by
        rw [← done]
        exact ⟨fun _ => rfl, rfl⟩
      refine ⟨_, _, flushed_spread p mapped buffered ftl next index zid bound own spread space gone ?_ ?_, ?_, gone, ?_, ?_⟩
      · intro other
        rw [same_maps_mapped p state.ftl next maps]
        exact lands.mapped other
      · intro tlc
        have normal : loc = .normal := by
          rw [← contract.target, tlc]
          rfl
        rw [← lands.aggs normal, ← done]
        rfl
      · rw [← done]
        exact contract.media state.ftl _ rfl lands.resting
      · intro zone
        by_cases same : zone = zid
        · rw [same, Function.update_self]
          exact Nat.le_add_right _ _
        · rw [Function.update_of_ne same]
      · intro zone
        by_cases same : zone = zid
        · rw [same, Function.update_self, Function.update_self]
          omega
        · rw [Function.update_of_ne same, Function.update_of_ne same]

end Flushing

section Filling

variable (p : Params) (loc : Loc) (resting : ZmsFtl → Prop) (contract : MediaContract p loc resting) (space : ZonedSpace p)
variable (index zid : Nat) (bound : index < p.zpp.nrWb) (inside : zid < p.zpp.nrZones)

-- The buffer a write fills is its zone's; once flushed it has no zone, and
-- then none has that one.
def Serves (p : Params) (ftl : ZmsFtl) (index zid : Nat) : Prop :=
  (ftl.writeBuffer index).zid = some zid ∨
    (ftl.writeBuffer index).zid = none ∧ ∀ other, other < p.zpp.nrWb → (ftl.writeBuffer other).zid ≠ some zid

theorem appended_lpns (start m b pgs : Nat) :
    ((List.range' m b).map fun i => start + i) ++ (List.range pgs).map (start + (m + b) + ·) = (List.range' m (b + pgs)).map fun i => start + i := by
  rw [List.map_add_range', List.map_add_range', ← Nat.add_assoc, List.range_eq_range', List.map_add_range', Nat.add_zero,
    List.range'_append_1]

include bound inside in
theorem fill_spread (ftl : ZmsFtl) (mapped buffered : Nat → Nat) (pgs time : Nat) (spread : Spread p ftl mapped buffered)
    (serves : Serves p ftl index zid) (room : mapped zid + buffered zid + pgs ≤ p.zpp.pgsPerZone) :
    let filled := fillBuffer ftl index zid (zoneToSlpn p zid + (mapped zid + buffered zid)) pgs time
    Spread p filled mapped (Function.update buffered zid (buffered zid + pgs)) ∧ (filled.writeBuffer index).zid = some zid := by
  intro filled
  have there : ∀ other, other ≠ index → filled.writeBuffer other = ftl.writeBuffer other := fun other apart => Function.update_of_ne apart ..
  have here : filled.writeBuffer index = { ftl.writeBuffer index with
      lpns := (ftl.writeBuffer index).lpns ++ (List.range pgs).map (zoneToSlpn p zid + (mapped zid + buffered zid) + ·),
      flushData := (ftl.writeBuffer index).flushData + pgsz * pgs,
      zid := if (ftl.writeBuffer index).zid = none then some zid else (ftl.writeBuffer index).zid, time := time } := Function.update_self ..
  have label : (filled.writeBuffer index).zid = some zid := by
    rw [here]
    rcases serves with own | ⟨none, _⟩
    · rw [own, if_neg nofun]
    · rw [none, if_pos rfl]
  have before : (ftl.writeBuffer index).lpns = (List.range' (mapped zid) (buffered zid)).map fun i => zoneToSlpn p zid + i := by
    rcases serves with own | ⟨none, absent⟩
    · exact (spread.own index bound zid own).2
    · rw [spread.free index bound none, spread.rest zid absent, List.range'_zero, List.map_nil]
  have only : ∀ other, other < p.zpp.nrWb → (ftl.writeBuffer other).zid = some zid → other = index := by
    intro other inWb own
    rcases serves with mine | ⟨_, absent⟩
    · exact spread.alone other index zid inWb bound own mine
    · exact absurd own (absent other inWb)
  have lpns : (filled.writeBuffer index).lpns = (List.range' (mapped zid) (buffered zid + pgs)).map fun i => zoneToSlpn p zid + i := by
    rw [here]
    dsimp only
    rw [before, appended_lpns]
  refine ⟨⟨spread.filled, ?_, ?_, ?_, ?_, ?_, ?_, spread.aggs⟩, label⟩
  · intro zone zoneInside
    by_cases same : zone = zid
    · rw [same, Function.update_self]
      omega
    · rw [Function.update_of_ne same]
      exact spread.fits zone zoneInside
  · intro other inWb zone own
    by_cases self : other = index
    · rw [self, label] at own
      rw [self, lpns, ← Option.some.inj own, Function.update_self]
      exact ⟨inside, rfl⟩
    · rw [there other self] at own ⊢
      have apart : zone ≠ zid := by
        rintro rfl
        exact self (only other inWb own)
      rw [Function.update_of_ne apart]
      exact spread.own other inWb zone own
  · intro other inWb none
    by_cases self : other = index
    · rw [self, label] at none
      cases none
    · rw [there other self] at none ⊢
      exact spread.free other inWb none
  · intro other inWb
    by_cases self : other = index
    · have sized := spread.sized index bound
      rw [Buffer.pgs, before, List.length_map, List.length_range'] at sized
      rw [self, Buffer.pgs, lpns, List.length_map, List.length_range', here]
      dsimp only
      rw [sized]
      ring
    · rw [there other self]
      exact spread.sized other inWb
  · intro first second zone firstWb secondWb firstZid secondZid
    by_cases firstSelf : first = index
    · by_cases secondSelf : second = index
      · rw [firstSelf, secondSelf]
      · rw [firstSelf, label] at firstZid
        rw [there second secondSelf, ← Option.some.inj firstZid] at secondZid
        rw [firstSelf]
        exact (only second secondWb secondZid).symm
    · rw [there first firstSelf] at firstZid
      by_cases secondSelf : second = index
      · rw [secondSelf, label] at secondZid
        rw [← Option.some.inj secondZid] at firstZid
        rw [secondSelf]
        exact only first firstWb firstZid
      · rw [there second secondSelf] at secondZid
        exact spread.alone first second zone firstWb secondWb firstZid secondZid
  · intro zone absent
    have apart : zone ≠ zid := by
      rintro rfl
      exact absent index bound label
    rw [Function.update_of_ne apart]
    refine spread.rest zone fun other inWb own => ?_
    by_cases self : other = index
    · rcases serves with mine | ⟨none, _⟩
      · rw [self, mine] at own
        exact apart (Option.some.inj own).symm
      · rw [self, none] at own
        cases own
    · refine absent other inWb ?_
      rw [there other self]
      exact own

structure Taken (p : Params) (resting : ZmsFtl → Prop) (before after : ZmsFtl) (mapped buffered mapped' buffered' : Nat → Nat)
    (zid pgs : Nat) : Prop where
  spread : Spread p after mapped' buffered'
  resting : resting after
  descs : after.zoneDescs = before.zoneDescs
  grows : ∀ zone, mapped zone ≤ mapped' zone
  total : ∀ zone, mapped' zone + buffered' zone = mapped zone + buffered zone + (if zone = zid then pgs else 0)

include contract space bound inside in
theorem write_step_spread (pgs : Nat) (progress next : WriteProgress) (mapped buffered : Nat → Nat)
    (spread : Spread p progress.ftl mapped buffered) (rests : resting progress.ftl) (serves : Serves p progress.ftl index zid)
    (room : mapped zid + buffered zid + pgs ≤ p.zpp.pgsPerZone)
    (ran : writeStep p index zid (zoneToSlpn p zid + (mapped zid + buffered zid)) pgs progress = .ok next) :
    ∃ mapped' buffered', Taken p resting progress.ftl next.ftl mapped buffered mapped' buffered' zid pgs ∧ Serves p next.ftl index zid := by
  unfold writeStep at ran
  dsimp only at ran
  generalize ssdAdvanceWriteBuffer progress.ftl.timing progress.latest (pgs * pgsz) = advanced at ran
  obtain ⟨time, timing⟩ := advanced
  dsimp only at ran
  have timed : Spread p { progress.ftl with timing := timing } mapped buffered :=
    spread_kept p mapped buffered progress.ftl _ ⟨fun _ => rfl, rfl⟩ (fun _ => rfl) rfl spread
  obtain ⟨filled, label⟩ := fill_spread p index zid bound inside { progress.ftl with timing := timing } mapped buffered pgs time timed serves room
  have total : ∀ zone, mapped zone + Function.update buffered zid (buffered zid + pgs) zone =
      mapped zone + buffered zone + (if zone = zid then pgs else 0) := by
    intro zone
    by_cases same : zone = zid
    · rw [same, Function.update_self, if_pos rfl]
      omega
    · rw [Function.update_of_ne same, if_neg same]
      rfl
  have full := contract.media progress.ftl (fillBuffer { progress.ftl with timing := timing } index zid
    (zoneToSlpn p zid + (mapped zid + buffered zid)) pgs time) rfl rests
  generalize filling : fillBuffer { progress.ftl with timing := timing } index zid (zoneToSlpn p zid + (mapped zid + buffered zid)) pgs time = after
    at ran filled label full
  have descs : after.zoneDescs = progress.ftl.zoneDescs := by
    rw [← filling]
    rfl
  split at ran
  · obtain ⟨⟨completed, flushed⟩, flushing, rest⟩ := bind_ok _ _ _ ran
    rw [← pure_ok _ _ rest]
    obtain ⟨mapped', buffered', done, rests', gone, grows, same⟩ := buffer_flush_spread p loc resting contract space mapped _ after flushed index _
      completed bound filled full flushing
    refine ⟨mapped', buffered', ⟨done, rests', gone.descs.trans descs, grows, fun zone => (same zone).trans (total zone)⟩, .inr ⟨?_, ?_⟩⟩
    · exact congrArg Prod.fst gone.empty
    · intro other inWb own
      by_cases self : other = index
      · rw [self, show (flushed.writeBuffer index).zid = none from congrArg Prod.fst gone.empty] at own
        cases own
      · rw [gone.others other self] at own
        exact self (filled.alone other index zid inWb bound own label)
  · rw [← pure_ok _ _ ran]
    exact ⟨mapped, _, ⟨filled, full, descs, fun _ => Nat.le_refl _, total⟩, .inl label⟩

include contract space bound inside in
theorem write_loop_spread (elpn fuel : Nat) (progress next : WriteProgress) (mapped buffered : Nat → Nat)
    (spread : Spread p progress.ftl mapped buffered) (rests : resting progress.ftl) (serves : Serves p progress.ftl index zid)
    (room : elpn < zoneToSlpn p zid + p.zpp.pgsPerZone)
    (ran : writeLoop p index zid elpn fuel (zoneToSlpn p zid + (mapped zid + buffered zid)) progress = .ok next) :
    ∃ mapped' buffered', Taken p resting progress.ftl next.ftl mapped buffered mapped' buffered' zid
      (elpn + 1 - (zoneToSlpn p zid + (mapped zid + buffered zid))) := by
  induction fuel generalizing progress mapped buffered with
  | zero =>
      unfold writeLoop at ran
      split at ran
      · rename_i past
        rw [← Except.ok.inj ran]
        refine ⟨mapped, buffered, spread, rests, rfl, fun _ => Nat.le_refl _, fun zone => ?_⟩
        split <;> omega
      · cases ran
  | succ fuel ih =>
      unfold writeLoop at ran
      dsimp only at ran
      split at ran
      · rename_i past
        rw [← Except.ok.inj ran]
        refine ⟨mapped, buffered, spread, rests, rfl, fun _ => Nat.le_refl _, fun zone => ?_⟩
        split <;> omega
      · rename_i more
        split at ran
        · cases ran
        · rename_i remaining
          obtain ⟨middle, stepped, rest⟩ := bind_ok _ _ _ ran
          have least : min (elpn - (zoneToSlpn p zid + (mapped zid + buffered zid)) + 1) (wbLpns p - (progress.ftl.writeBuffer index).pgs) ≤
              elpn - (zoneToSlpn p zid + (mapped zid + buffered zid)) + 1 := Nat.min_le_left _ _
          generalize min (elpn - (zoneToSlpn p zid + (mapped zid + buffered zid)) + 1) (wbLpns p - (progress.ftl.writeBuffer index).pgs) = pgs
            at stepped rest least remaining
          obtain ⟨mapped', buffered', taken, still⟩ := write_step_spread p loc resting contract space index zid bound inside pgs progress middle
            mapped buffered spread rests serves (by omega) stepped
          rw [resting_clear p loc resting contract middle.ftl taken.resting, if_neg Bool.false_ne_true] at rest
          have here := taken.total zid
          rw [if_pos rfl] at here
          rw [show zoneToSlpn p zid + (mapped zid + buffered zid) + pgs = zoneToSlpn p zid + (mapped' zid + buffered' zid) by omega] at rest
          obtain ⟨mapped'', buffered'', done⟩ := ih middle mapped' buffered' taken.spread taken.resting still rest
          refine ⟨mapped'', buffered'', done.spread, done.resting, done.descs.trans taken.descs,
            fun zone => (taken.grows zone).trans (done.grows zone), fun zone => ?_⟩
          rw [done.total, taken.total]
          by_cases same : zone = zid
          · rw [if_pos same, if_pos same, if_pos same]
            omega
          · rw [if_neg same, if_neg same, if_neg same]

end Filling

end ConZone
