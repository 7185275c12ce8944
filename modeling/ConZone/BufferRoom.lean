import ConZone.ZoneRuns

set_option autoImplicit false

namespace ConZone

-- A write buffer takes a whole number of pages, so that a full one is seen to
-- be full.
structure WholeBuffers (p : Params) : Prop where
  whole : wbSize p = pgsz * wbLpns p
  some : 0 < wbLpns p

def RoomInBuffers (p : Params) (ftl : ZmsFtl) : Prop := ∀ index, index < p.zpp.nrWb → (ftl.writeBuffer index).pgs < wbLpns p

section Room

variable (p : Params) (sizes : WholeBuffers p)

theorem room_kept (before after : ZmsFtl) (lpns : ∀ index, (after.writeBuffer index).lpns = (before.writeBuffer index).lpns)
    (room : RoomInBuffers p before) : RoomInBuffers p after := by
  intro index bound
  unfold Buffer.pgs
  rw [lpns]
  exact room index bound

include sizes in
theorem room_gone (before after : ZmsFtl) (index : Nat) (gone : BufferGone before after index) (room : ∀ other, other < p.zpp.nrWb → other ≠ index →
    (before.writeBuffer other).pgs < wbLpns p) : RoomInBuffers p after := by
  intro other bound
  by_cases here : other = index
  · rw [here, Buffer.pgs, show (after.writeBuffer index).lpns = [] from congrArg (fun contents => contents.2.1) gone.empty]
    exact sizes.some
  · rw [gone.others other here]
    exact room other bound here

theorem room_spread (ftl : ZmsFtl) (mapped buffered : Nat → Nat) (spread : Spread p ftl mapped buffered) (sizes : WholeBuffers p) :
    RoomInBuffers p ftl ↔ ∀ zid, buffered zid < wbLpns p := by
  constructor
  · intro room zid
    by_cases own : ∃ index, index < p.zpp.nrWb ∧ (ftl.writeBuffer index).zid = some zid
    · obtain ⟨index, bound, own⟩ := own
      rw [← buffered_pgs p mapped buffered ftl spread index zid bound own]
      exact room index bound
    · rw [spread.rest zid fun index bound owner => own ⟨index, bound, owner⟩]
      exact sizes.some
  · intro few index bound
    cases own : (ftl.writeBuffer index).zid with
    | none =>
        rw [Buffer.pgs, spread.free index bound own]
        exact sizes.some
    | some zid =>
        rw [buffered_pgs p mapped buffered ftl spread index zid bound own]
        exact few zid

section Filling

variable (index zid : Nat)

include sizes in
theorem write_step_room (lpn pgs : Nat) (progress next : WriteProgress)
    (sized : (progress.ftl.writeBuffer index).flushData = pgsz * (progress.ftl.writeBuffer index).pgs) (room : RoomInBuffers p progress.ftl)
    (fits : (progress.ftl.writeBuffer index).pgs + pgs ≤ wbLpns p) (ran : writeStep p index zid lpn pgs progress = .ok next) :
    RoomInBuffers p next.ftl ∧ (next.ftl.writeBuffer index).flushData = pgsz * (next.ftl.writeBuffer index).pgs := by
  unfold writeStep at ran
  dsimp only at ran
  generalize ssdAdvanceWriteBuffer progress.ftl.timing progress.latest (pgs * pgsz) = advanced at ran
  obtain ⟨time, timing⟩ := advanced
  dsimp only at ran
  have others : ∀ other, other ≠ index → (fillBuffer { progress.ftl with timing := timing } index zid lpn pgs time).writeBuffer other =
      progress.ftl.writeBuffer other := fun other apart => Function.update_of_ne apart ..
  have here : ((fillBuffer { progress.ftl with timing := timing } index zid lpn pgs time).writeBuffer index).pgs =
      (progress.ftl.writeBuffer index).pgs + pgs := by
    unfold fillBuffer putBuffer Buffer.pgs
    dsimp only
    rw [Function.update_self, List.length_append, List.length_map, List.length_range]
  have data : ((fillBuffer { progress.ftl with timing := timing } index zid lpn pgs time).writeBuffer index).flushData =
      pgsz * ((progress.ftl.writeBuffer index).pgs + pgs) := by
    unfold fillBuffer putBuffer
    dsimp only
    rw [Function.update_self]
    dsimp only
    rw [sized, Nat.mul_add]
  generalize fillBuffer { progress.ftl with timing := timing } index zid lpn pgs time = filled at ran others here data
  split at ran
  · obtain ⟨⟨completed, flushed⟩, flushing, rest⟩ := bind_ok _ _ _ ran
    have gone := buffer_flush_gone p filled flushed index time completed flushing
    rw [← pure_ok _ _ rest]
    refine ⟨room_gone p sizes filled flushed index gone ?_, ?_⟩
    · intro other bound apart
      rw [others other apart]
      exact room other bound
    · rw [Buffer.pgs, show (flushed.writeBuffer index).lpns = [] from congrArg (fun contents => contents.2.1) gone.empty]
      exact congrArg (fun contents => contents.2.2) gone.empty
  · rename_i short
    rw [← pure_ok _ _ ran]
    refine ⟨?_, data.trans (by rw [here])⟩
    intro other bound
    by_cases same : other = index
    · rw [same, here]
      rw [data, sizes.whole] at short
      exact Nat.lt_of_le_of_ne fits fun full => short (by rw [full])
    · rw [others other same]
      exact room other bound

include sizes in
theorem write_loop_room (elpn fuel lpn : Nat) (progress next : WriteProgress) (bound : index < p.zpp.nrWb)
    (sized : (progress.ftl.writeBuffer index).flushData = pgsz * (progress.ftl.writeBuffer index).pgs) (room : RoomInBuffers p progress.ftl)
    (ran : writeLoop p index zid elpn fuel lpn progress = .ok next) : RoomInBuffers p next.ftl := by
  induction fuel generalizing lpn progress with
  | zero =>
      unfold writeLoop at ran
      split at ran
      · rw [← Except.ok.inj ran]
        exact room
      · cases ran
  | succ fuel ih =>
      unfold writeLoop at ran
      dsimp only at ran
      split at ran
      · rw [← Except.ok.inj ran]
        exact room
      · split at ran
        · cases ran
        · obtain ⟨middle, stepped, rest⟩ := bind_ok _ _ _ ran
          have before := room index bound
          have least : min (elpn - lpn + 1) (wbLpns p - (progress.ftl.writeBuffer index).pgs) ≤ wbLpns p - (progress.ftl.writeBuffer index).pgs :=
            Nat.min_le_right _ _
          obtain ⟨after, measured⟩ := write_step_room p sizes index zid lpn _ progress middle sized room (by omega) stepped
          split at rest
          · rw [← pure_ok _ _ rest]
            exact after
          · exact ih _ middle measured after rest

end Filling

section Events

variable (buffers : 0 < p.zpp.nrWb) (resting : ZmsFtl → Prop)

include sizes buffers in
theorem zoned_write_room (ftl : ZmsFtl) (req : Request) (cmd : RwCommand) (outcome : WriteOutcome) (mapped buffered : Nat → Nat)
    (spread : Spread p ftl mapped buffered) (room : RoomInBuffers p ftl) (ran : zonedWrite p ftl req cmd = .ok outcome) :
    RoomInBuffers p outcome.ftl := by
  have begun : Spread p (started p ftl req cmd) mapped buffered :=
    spread_kept p mapped buffered ftl _ (media_maps ftl _ (started_media p ftl req cmd)) (fun index => by rw [started_buffers])
      (started_aggs p ftl req cmd) spread
  have locks : ∀ got index status checked, znsWriteCheck p (lockBuffer got req index) (placeAppend p ftl cmd).slba (nrLbasFromRwCmd cmd) =
      (status, checked) → ∀ other, held (checked.writeBuffer other) = held (got.writeBuffer other) := by
    intro got index status checked check other
    have only := zns_write_check_only p (lockBuffer got req index) (placeAppend p ftl cmd).slba (nrLbasFromRwCmd cmd)
    rw [check] at only
    rw [only_table_buffers _ checked only]
    exact held_put got index { got.writeBuffer index with sqid := req.sqId, busy := true } rfl other
  have arrives : ∀ index got, zmsWbGet p (started p ftl req cmd) (firstLpn (placeAppend p ftl cmd)) = (index, got) → RoomInBuffers p got :=
    fun index got found => room_kept p ftl got (found_lpns p ftl req cmd index got found) room
  cases zoned_write_run p ftl req cmd outcome ran with
  | refusedFull full => exact room
  | dropped clear drop => exact room
  | waits clear kept got found => exact arrives none got found
  | busy clear kept got index found locked after same =>
      rcases same with same | same
      · rw [same]
        exact arrives (some index) got found
      · rw [same]
        exact room_kept p got _ (fun other => congrArg (fun contents => contents.2.1)
          (held_put got index { got.writeBuffer index with sqid := req.sqId } rfl other)) (arrives (some index) got found)
  | switches clear kept got index found other unlocked latest flushed flushing =>
      refine room_kept p flushed _ (fun _ => rfl) (room_gone p sizes _ flushed index (buffer_flush_gone p _ flushed index _ latest flushing) ?_)
      intro slot bound apart
      rw [show (putBuffer got index { got.writeBuffer index with busy := true }).writeBuffer slot = got.writeBuffer slot from
        Function.update_of_ne apart ..]
      exact arrives (some index) got found slot bound
  | rejected clear kept got index found own unlocked inside status checked refused check =>
      have same := locks got index status checked check
      exact room_kept p got _ (fun other => congrArg (fun contents => contents.2.1) (same other)) (arrives (some index) got found)
  | written clear kept got index found own unlocked inside checked check progress filled =>
      have same := locks got index .success checked check
      have gotSpread := zms_wb_get_spread p mapped buffered _ begun (firstLpn (placeAppend p ftl cmd)) (by rw [firstLpn, lpn_zone_of_lba]; exact inside)
      have least := zms_wb_get_index p mapped buffered _ begun buffers (firstLpn (placeAppend p ftl cmd)) index got found
      rw [found] at gotSpread
      have lpns : ∀ other, (checked.writeBuffer other).lpns = (got.writeBuffer other).lpns := fun other =>
        congrArg (fun contents => contents.2.1) (same other)
      have ready : RoomInBuffers p checked := room_kept p got checked lpns (arrives (some index) got found)
      refine room_kept p progress.ftl _ (fun _ => rfl) (write_loop_room p sizes index _ _ _ _ ⟨checked, req.nsecsStart, req.nsecsStart⟩ progress least.1
        ?_ ready filled)
      rw [Buffer.pgs, lpns, show (checked.writeBuffer index).flushData = (got.writeBuffer index).flushData from
        congrArg (fun contents => contents.2.2) (same index)]
      exact gotSpread.sized index least.1

include sizes buffers in
theorem event_room (ftl next : ZmsFtl) (store after : ZoneStore.Store) (event : Event) (stands : StandsFor p resting ftl store)
    (stood : StandsFor p resting next after) (stepped : ZoneStore.Step p.zpp.pgsPerZone store (storeOp p ftl event) after)
    (taken : Step p ftl event next) (room : RoomInBuffers p ftl) : RoomInBuffers p next := by
  have few := (room_spread p ftl _ _ stands.settled.spread sizes).mp room
  cases taken with
  | write req cmd outcome ran => exact zoned_write_room p sizes buffers ftl req cmd outcome _ _ stands.settled.spread room ran
  | read _ req cmd done ran =>
      cases stepped with
      | other => exact (room_spread p next _ _ stood.settled.spread sizes).mpr few
  | flush _ req done ran =>
      cases stepped with
      | flush => exact (room_spread p next _ _ stood.settled.spread sizes).mpr fun _ => sizes.some
  | mgmtSend _ cmd status ran =>
      cases stepped with
      | reset =>
          refine (room_spread p next _ _ stood.settled.spread sizes).mpr fun zid => ?_
          change ZoneStore.without (resetZones p cmd) store.waiting zid < wbLpns p
          unfold ZoneStore.without
          split
          · exact sizes.some
          · exact few zid
  | release _ entry ran =>
      cases stepped with
      | other => exact (room_spread p next _ _ stood.settled.spread sizes).mpr few

include sizes buffers in
theorem room_simulates (simulation : TransitionSystem.Simulation (namespaceSystem p) (Orderly p) (ZoneStore.system p.zpp.pgsPerZone)
      (StandsFor p resting) (storeOp p)) :
    TransitionSystem.Simulation (namespaceSystem p) (Orderly p) (ZoneStore.system p.zpp.pgsPerZone)
      (fun ftl store => StandsFor p resting ftl store ∧ RoomInBuffers p ftl) (storeOp p) where
  starts := by
    rintro ftl ⟨clock, same⟩
    obtain ⟨store, first, stands⟩ := simulation.starts ftl ⟨clock, same⟩
    refine ⟨store, first, stands, fun index bound => ?_⟩
    rw [same]
    exact sizes.some
  steps := by
    rintro ftl next event store ⟨stands, room⟩ orderly taken
    obtain ⟨after, stepped, stood⟩ := simulation.steps ftl next event store stands orderly taken
    exact ⟨after, stepped, stood, event_room p sizes buffers resting ftl next store after event stands stood stepped taken room⟩

end Events

end Room

end ConZone
