import ConZone.ZoneRuns
import ConZone.PlaneTimes

set_option autoImplicit false

namespace ConZone

section Sample

theorem sample_plain (loc : Loc) : PlainConfig sampleConfig loc where
  flat := rfl
  single := by decide
  lines := by cases loc <;> exact .inl (by decide)
  cells := fun _ => by decide

theorem write_event_orderly (p : Params) (ftl : ZmsFtl) (slba pgs : Nat) (some : 0 < pgs) : Orderly p ftl (writeEvent slba (secsPerPg * pgs)) := by
  refine ⟨?_, rfl⟩
  have positive : 0 < secsPerPg * pgs := Nat.mul_pos (by decide) some
  change secsPerPg ∣ secsPerPg * pgs - 1 + 1
  rw [Nat.sub_add_cancel positive]
  exact Nat.dvd_mul_right _ _

theorem three_pages_written (loc : Loc) (check : ZmsFtl → Bool)
    (ran : (runEvents (dualParams sampleConfig loc) [writeEvent 0 16, .release 0, writeEvent 16 8]
      (zmsRealizeFtl (dualParams sampleConfig loc) fun _ => 0)).any check = true) :
    ∃ ftl, Reachable (dualParams sampleConfig loc) (Orderly (dualParams sampleConfig loc)) ftl ∧ check ftl = true := by
  refine run_events_check _ _ _ (fun _ => 0) check ?_ ran
  intro event member state
  rcases List.mem_cons.mp member with same | member
  · rw [same]
    exact write_event_orderly _ state 0 2 (by decide)
  · rcases List.mem_cons.mp member with same | member
    · rw [same]
      trivial
    · rw [List.mem_singleton.mp member]
      exact write_event_orderly _ state 16 1 (by decide)

theorem three_pages_then (loc : Loc) (event : Event)
    (ran : (runEvents (dualParams sampleConfig loc) [writeEvent 0 16, .release 0, writeEvent 16 8]
      (zmsRealizeFtl (dualParams sampleConfig loc) fun _ => 0)).any
        (fun ftl => (stepEvent (dualParams sampleConfig loc) ftl event).isSome) = true) :
    ∃ ftl next, Reachable (dualParams sampleConfig loc) (Orderly (dualParams sampleConfig loc)) ftl ∧
      Step (dualParams sampleConfig loc) ftl event next := by
  obtain ⟨ftl, reached, checked⟩ := three_pages_written loc _ ran
  obtain ⟨next, stepped⟩ := Option.isSome_iff_exists.mp checked
  exact ⟨ftl, next, reached, step_event_step _ ftl next event stepped⟩

end Sample

section Plain

variable (config : DualConfig) (loc : Loc)

def plainResting (config : DualConfig) : Loc → ZmsFtl → Prop
  | .pslc => SlcResting (dualParams config .pslc)
  | .normal => TlcResting (dualParams config .normal)

variable (plain : PlainConfig config loc)

include plain in
theorem plain_contract : MediaContract (dualParams config loc) loc (plainResting config loc) := by
  cases loc with
  | pslc => exact slc_contract _ (dual_slc_namespace config) (plain_regular config .pslc plain)
  | normal => exact tlc_contract _ (plain_tlc_namespace config plain) (plain_regular config .normal plain)

include plain in
theorem plain_starts (clock : Nat → Nat) : plainResting config loc (zmsRealizeFtl (dualParams config loc) clock) := by
  cases loc with
  | pslc => exact slc_start _ (plain_regular config .pslc plain) (dual_init_loc config .pslc) clock
  | normal => exact tlc_start _ (plain_regular config .normal plain) (dual_init_loc config .normal) clock

include plain in
theorem plain_simulates :
    TransitionSystem.Simulation (namespaceSystem (dualParams config loc)) (Orderly (dualParams config loc))
      (ZoneStore.system (dualParams config loc).zpp.pgsPerZone) (StandsFor (dualParams config loc) (plainResting config loc))
      (storeOp (dualParams config loc)) :=
  namespace_simulates _ loc _ (plain_contract config loc plain) (dual_zoned_space config loc) (dual_buffers config loc)
    (plain_starts config loc plain)

include plain in
theorem reached_stands (ftl : ZmsFtl) (reached : Reachable (dualParams config loc) (Orderly (dualParams config loc)) ftl) :
    ∃ store, TransitionSystem.Reach (ZoneStore.system (dualParams config loc).zpp.pgsPerZone) (fun _ _ => True) store ∧
      StandsFor (dualParams config loc) (plainResting config loc) ftl store :=
  TransitionSystem.simulation_reach _ _ _ _ _ (plain_simulates config loc plain) ftl reached

include plain in
-- A dual namespace is a store of append-only zones: in any run each event has
-- on the pages the effect it has in the store.
theorem namespace_refines_store (ftl next : ZmsFtl) (event : Event)
    (reached : Reachable (dualParams config loc) (Orderly (dualParams config loc)) ftl) (orderly : Orderly (dualParams config loc) ftl event)
    (taken : Step (dualParams config loc) ftl event next) :
    ∃ before after, TransitionSystem.Reach (ZoneStore.system (dualParams config loc).zpp.pgsPerZone) (fun _ _ => True) before ∧
      StandsFor (dualParams config loc) (plainResting config loc) ftl before ∧
      ZoneStore.Step (dualParams config loc).zpp.pgsPerZone before (storeOp (dualParams config loc) ftl event) after ∧
      StandsFor (dualParams config loc) (plainResting config loc) next after := by
  obtain ⟨before, run, stands⟩ := reached_stands config loc plain ftl reached
  obtain ⟨after, stepped, stood⟩ := (plain_simulates config loc plain).steps ftl next event before stands orderly taken
  exact ⟨before, after, run, stands, stepped, stood⟩

theorem sample_flush_in_store :
    ∃ ftl next, Reachable (dualParams sampleConfig .normal) (Orderly (dualParams sampleConfig .normal)) ftl ∧
      ∃ before after, TransitionSystem.Reach (ZoneStore.system (dualParams sampleConfig .normal).zpp.pgsPerZone) (fun _ _ => True) before ∧
        StandsFor (dualParams sampleConfig .normal) (plainResting sampleConfig .normal) ftl before ∧
        ZoneStore.Step (dualParams sampleConfig .normal).zpp.pgsPerZone before
          (storeOp (dualParams sampleConfig .normal) ftl (.flush ⟨0, 0⟩)) after ∧
        StandsFor (dualParams sampleConfig .normal) (plainResting sampleConfig .normal) next after := by
  obtain ⟨ftl, next, reached, taken⟩ := three_pages_then .normal (.flush ⟨0, 0⟩) (by decide +kernel)
  exact ⟨ftl, next, reached, namespace_refines_store sampleConfig .normal (sample_plain .normal) ftl next _ reached trivial taken⟩

end Plain

def InBuffer (p : Params) (ftl : ZmsFtl) (lpn index : Nat) : Prop := index < p.zpp.nrWb ∧ lpn ∈ (ftl.writeBuffer index).lpns

-- A page is stored when the write pointer is past it, and then in one place;
-- what waits in a buffer comes after what is on the medium.
structure StoredOnce (p : Params) (ftl : ZmsFtl) (zid i : Nat) : Prop where
  stored : secsPerPg * (zoneToSlpn p zid + i) < (ftl.zoneDescs zid).wp ↔
    Mapped p ftl (zoneToSlpn p zid + i) ∨ ∃ index, InBuffer p ftl (zoneToSlpn p zid + i) index
  single : ∀ index, InBuffer p ftl (zoneToSlpn p zid + i) index → ¬Mapped p ftl (zoneToSlpn p zid + i) ∧
    (ftl.writeBuffer index).lpns.count (zoneToSlpn p zid + i) = 1 ∧
    ∀ other, InBuffer p ftl (zoneToSlpn p zid + i) other → other = index
  ordered : ∀ index, InBuffer p ftl (zoneToSlpn p zid + i) index → ∀ j, i ≤ j → j < p.zpp.pgsPerZone → ¬Mapped p ftl (zoneToSlpn p zid + j)

section Storing

variable (p : Params) (resting : ZmsFtl → Prop) (space : ZonedSpace p) (ftl : ZmsFtl) (mapped buffered : Nat → Nat)
variable (settled : Settled p resting ftl mapped buffered) (zid i : Nat) (inside : zid < p.zpp.nrZones) (bound : i < p.zpp.pgsPerZone)

include space settled bound in
theorem in_buffer_iff (index : Nat) :
    InBuffer p ftl (zoneToSlpn p zid + i) index ↔ index < p.zpp.nrWb ∧ (ftl.writeBuffer index).zid = some zid ∧ mapped zid ≤ i ∧
      i < mapped zid + buffered zid := by
  unfold InBuffer
  refine and_congr_right fun inWb => ?_
  constructor
  · intro member
    cases own : (ftl.writeBuffer index).zid with
    | none =>
        rw [settled.spread.free index inWb own] at member
        exact absurd member List.not_mem_nil
    | some zone =>
        obtain ⟨zoneInside, lpns⟩ := settled.spread.own index inWb zone own
        have fits := settled.spread.fits zone zoneInside
        rw [lpns] at member
        obtain ⟨j, within, same⟩ := List.mem_map.mp member
        rw [List.mem_range'_1] at within
        obtain ⟨zoneSame, pageSame⟩ := zone_lpn_apart p space zone j zid i bound (by omega) same
        rw [← zoneSame, ← pageSame]
        exact ⟨rfl, within.1, within.2⟩
  · rintro ⟨own, low, high⟩
    rw [(settled.spread.own index inWb zid own).2]
    exact List.mem_map.mpr ⟨i, List.mem_range'_1.mpr ⟨low, high⟩, rfl⟩

include space settled inside bound in
theorem stored_once : StoredOnce p ftl zid i := by
  have holds := in_buffer_iff p resting space ftl mapped buffered settled zid i bound
  have filled := settled.spread.filled zid inside i bound
  constructor
  · rw [settled.pointers zid inside, zone_slba_pages p zid, ← Nat.mul_add, Nat.mul_lt_mul_left (show 0 < secsPerPg by decide), filled]
    constructor
    · intro below
      by_cases low : i < mapped zid
      · exact .inl low
      · right
        by_contra absent
        have empty : buffered zid = 0 := settled.spread.rest zid fun index inWb own =>
          absent ⟨index, (holds index).mpr ⟨inWb, own, by omega, by omega⟩⟩
        omega
    · rintro (low | ⟨index, there⟩)
      · omega
      · have within := (holds index).mp there
        omega
  · intro index there
    obtain ⟨inWb, own, low, high⟩ := (holds index).mp there
    refine ⟨?_, ?_, ?_⟩
    · rw [filled]
      omega
    · rw [(settled.spread.own index inWb zid own).2]
      refine List.count_eq_one_of_mem ?_ (List.mem_map.mpr ⟨i, List.mem_range'_1.mpr ⟨low, high⟩, rfl⟩)
      exact List.Nodup.map (fun first second same => Nat.add_left_cancel same) List.nodup_range'
    · intro other otherThere
      obtain ⟨otherWb, otherOwn, _⟩ := (holds other).mp otherThere
      exact settled.spread.alone other index zid otherWb inWb otherOwn own
  · intro index there j later jBound
    have within := (holds index).mp there
    rw [settled.spread.filled zid inside j jBound]
    omega

end Storing

section Runs

variable (config : DualConfig) (loc : Loc) (plain : PlainConfig config loc)

include plain in
theorem pages_stored_once (ftl : ZmsFtl) (reached : Reachable (dualParams config loc) (Orderly (dualParams config loc)) ftl) (zid i : Nat)
    (inside : zid < (dualParams config loc).zpp.nrZones) (bound : i < (dualParams config loc).zpp.pgsPerZone) :
    StoredOnce (dualParams config loc) ftl zid i := by
  obtain ⟨store, _, stands⟩ := reached_stands config loc plain ftl reached
  exact stored_once _ _ (dual_zoned_space config loc) ftl _ _ stands.settled zid i inside bound

theorem sample_pages_stored_once :
    ∃ ftl, Reachable (dualParams sampleConfig .pslc) (Orderly (dualParams sampleConfig .pslc)) ftl ∧
      StoredOnce (dualParams sampleConfig .pslc) ftl 0 2 := by
  obtain ⟨ftl, _, reached, _⟩ := three_pages_then .pslc (.flush ⟨0, 0⟩) (by decide +kernel)
  exact ⟨ftl, reached, pages_stored_once sampleConfig .pslc (sample_plain .pslc) ftl reached 0 2 (by decide +kernel) (by decide +kernel)⟩

structure FlushComplete (p : Params) (ftl next : ZmsFtl) (done : Completion) : Prop where
  landed : ∀ zid, zid < p.zpp.nrZones → ∀ i, i < p.zpp.pgsPerZone →
    (Mapped p next (zoneToSlpn p zid + i) ↔ secsPerPg * (zoneToSlpn p zid + i) < (ftl.zoneDescs zid).wp)
  empty : ∀ index, index < p.zpp.nrWb → (next.writeBuffer index).lpns = []
  descs : next.zoneDescs = ftl.zoneDescs
  idle : ∀ plane ∈ planesOf p.spp, (next.timing.planes plane).nextPlnAvailTime ≤ done.nsecsTarget

theorem flush_waits (p : Params) (ftl next : ZmsFtl) (req : Request) (done : Completion) (ran : znsFlush p ftl req = .ok (done, next))
    (plane : Plane) (member : plane ∈ planesOf p.spp) : (next.timing.planes plane).nextPlnAvailTime ≤ done.nsecsTarget := by
  unfold znsFlush at ran
  obtain ⟨flushed, _, rest⟩ := bind_ok _ _ _ ran
  generalize readClock flushed.timing = clocked at rest
  obtain ⟨start, timing⟩ := clocked
  dsimp only at rest
  have planes : (ssdNextIdleTime p.spp timing).2.planes = timing.planes := rfl
  have bound := next_idle_time_bound p.spp timing plane member
  generalize ssdNextIdleTime p.spp timing = idle at rest planes bound
  obtain ⟨latest, after⟩ := idle
  obtain ⟨completion, same⟩ := Prod.mk.inj (pure_ok _ _ rest)
  rw [← same, ← completion]
  dsimp only at planes bound ⊢
  rw [planes]
  exact bound.trans (Nat.le_max_right start latest)

include plain in
-- When a flush has completed, no plane is still at work and all that was
-- written is on the medium.
theorem flush_completes (ftl next : ZmsFtl) (req : Request) (done : Completion)
    (reached : Reachable (dualParams config loc) (Orderly (dualParams config loc)) ftl)
    (ran : znsFlush (dualParams config loc) ftl req = .ok (done, next)) : FlushComplete (dualParams config loc) ftl next done := by
  obtain ⟨store, _, stands⟩ := reached_stands config loc plain ftl reached
  obtain ⟨settled, empty⟩ := zns_flush_settled _ loc _ (plain_contract config loc plain) (dual_zoned_space config loc) store.landed store.waiting
    ftl next req done stands.settled ran
  refine ⟨?_, empty, (zns_flush_table _ ftl next req done ran).descs, flush_waits _ ftl next req done ran⟩
  intro zid inside i bound
  rw [settled.spread.filled zid inside i bound, stands.settled.pointers zid inside, zone_slba_pages _ zid, ← Nat.mul_add,
    Nat.mul_lt_mul_left (show 0 < secsPerPg by decide)]
  exact (Nat.add_lt_add_iff_left).symm

theorem sample_flush_completes :
    ∃ ftl next done, Reachable (dualParams sampleConfig .normal) (Orderly (dualParams sampleConfig .normal)) ftl ∧
      FlushComplete (dualParams sampleConfig .normal) ftl next done := by
  obtain ⟨ftl, next, reached, taken⟩ := three_pages_then .normal (.flush ⟨0, 0⟩) (by decide +kernel)
  cases taken with
  | flush _ _ done ran => exact ⟨ftl, next, done, reached, flush_completes sampleConfig .normal (sample_plain .normal) ftl next _ done reached ran⟩

structure ResetsOnly (p : Params) (cmd : ZoneMgmtSend) (ftl next : ZmsFtl) (zid : Nat) : Prop where
  emptied : resetZones p cmd zid = true → (next.zoneDescs zid).wp = zoneToSlba p zid ∧
    ∀ i, i < p.zpp.pgsPerZone → ¬Mapped p next (zoneToSlpn p zid + i) ∧ ∀ index, ¬InBuffer p next (zoneToSlpn p zid + i) index
  kept : resetZones p cmd zid = false → (next.zoneDescs zid).wp = (ftl.zoneDescs zid).wp ∧
    ∀ i, i < p.zpp.pgsPerZone → (Mapped p next (zoneToSlpn p zid + i) ↔ Mapped p ftl (zoneToSlpn p zid + i)) ∧
      ((∃ index, InBuffer p next (zoneToSlpn p zid + i) index) ↔ ∃ index, InBuffer p ftl (zoneToSlpn p zid + i) index)

theorem in_some_buffer (p : Params) (resting : ZmsFtl → Prop) (space : ZonedSpace p) (ftl : ZmsFtl) (mapped buffered : Nat → Nat)
    (settled : Settled p resting ftl mapped buffered) (zid i : Nat) (inside : zid < p.zpp.nrZones) (bound : i < p.zpp.pgsPerZone) :
    (∃ index, InBuffer p ftl (zoneToSlpn p zid + i) index) ↔ mapped zid ≤ i ∧ i < mapped zid + buffered zid := by
  have once := stored_once p resting space ftl mapped buffered settled zid i inside bound
  have holds := in_buffer_iff p resting space ftl mapped buffered settled zid i bound
  constructor
  · rintro ⟨index, there⟩
    exact ((holds index).mp there).2.2
  · rintro ⟨low, high⟩
    have stored := once.stored
    rw [settled.pointers zid inside, zone_slba_pages p zid, ← Nat.mul_add, Nat.mul_lt_mul_left (show 0 < secsPerPg by decide),
      settled.spread.filled zid inside i bound] at stored
    rcases stored.mp (by omega) with there | there
    · omega
    · exact there

include plain in
theorem reset_empties_only (ftl next : ZmsFtl) (cmd : ZoneMgmtSend) (zid : Nat)
    (reached : Reachable (dualParams config loc) (Orderly (dualParams config loc)) ftl)
    (orderly : Orderly (dualParams config loc) ftl (.mgmtSend cmd)) (taken : Step (dualParams config loc) ftl (.mgmtSend cmd) next)
    (inside : zid < (dualParams config loc).zpp.nrZones) : ResetsOnly (dualParams config loc) cmd ftl next zid := by
  obtain ⟨store, _, stands⟩ := reached_stands config loc plain ftl reached
  obtain ⟨after, stepped, stood⟩ := (plain_simulates config loc plain).steps ftl next _ store stands orderly taken
  cases stepped with
  | reset =>
      have space := dual_zoned_space config loc
      have before := fun i bound => in_some_buffer _ _ space ftl _ _ stands.settled zid i inside bound
      have later := fun i bound => in_some_buffer _ _ space next _ _ stood.settled zid i inside bound
      have pointer := stood.settled.pointers zid inside
      dsimp only at later pointer
      have filled := stood.settled.spread.filled zid inside
      dsimp only at filled
      constructor
      · intro reset
        have empty : ∀ pages, ZoneStore.without (resetZones (dualParams config loc) cmd) pages zid = 0 := fun _ => if_pos reset
        rw [empty, empty] at pointer later
        rw [empty] at filled
        refine ⟨pointer, fun i bound => ⟨fun there => Nat.not_lt_zero i ((filled i bound).mp there), fun index there => ?_⟩⟩
        exact Nat.not_lt_zero i ((later i bound).mp ⟨index, there⟩).2
      · intro kept
        have same : ∀ pages, ZoneStore.without (resetZones (dualParams config loc) cmd) pages zid = pages zid := fun _ =>
          if_neg (by rw [kept]; exact Bool.false_ne_true)
        rw [same, same] at pointer later
        rw [same] at filled
        refine ⟨pointer.trans (stands.settled.pointers zid inside).symm, fun i bound => ⟨?_, ?_⟩⟩
        · rw [filled i bound, stands.settled.spread.filled zid inside i bound]
        · rw [later i bound, before i bound]

theorem sample_reset_empties :
    ∃ ftl next, Reachable (dualParams sampleConfig .pslc) (Orderly (dualParams sampleConfig .pslc)) ftl ∧
      ResetsOnly (dualParams sampleConfig .pslc) ⟨false, .resetZone, false, 0⟩ ftl next 0 := by
  obtain ⟨ftl, next, reached, taken⟩ := three_pages_then .pslc (resetEvent 0) (by decide +kernel)
  refine ⟨ftl, next, reached, ?_⟩
  refine reset_empties_only sampleConfig .pslc (sample_plain .pslc) ftl next ⟨false, .resetZone, false, 0⟩ 0 reached ?_ taken (by decide +kernel)
  exact fun zid _ _ tlc => nomatch tlc

def SparesZone (p : Params) (zid : Nat) : Event → Prop
  | .mgmtSend cmd => resetZones p cmd zid = false
  | .write .. | .read .. | .flush _ | .release _ => True

theorem spares_shown (p : Params) (zid : Nat) (ftl : ZmsFtl) (event : Event) (spares : SparesZone p zid event) :
    ZoneStore.Spares zid (storeOp p ftl event) := by
  cases event with
  | mgmtSend cmd => exact spares
  | write req cmd => trivial
  | read req cmd => trivial
  | flush req => trivial
  | release entry => trivial

include plain in
-- What was written when a flush came is on the medium from then on, until its
-- zone is reset, whatever else the host does.
theorem flushed_pages_stay (ftl flushed last : ZmsFtl) (req : Request) (zid i : Nat)
    (reached : Reachable (dualParams config loc) (Orderly (dualParams config loc)) ftl)
    (flush : Step (dualParams config loc) ftl (.flush req) flushed)
    (onward : TransitionSystem.Reach ⟨fun first => first = flushed, Step (dualParams config loc)⟩
      (fun state event => Orderly (dualParams config loc) state event ∧ SparesZone (dualParams config loc) zid event) last)
    (inside : zid < (dualParams config loc).zpp.nrZones) (bound : i < (dualParams config loc).zpp.pgsPerZone)
    (written : secsPerPg * (zoneToSlpn (dualParams config loc) zid + i) < (ftl.zoneDescs zid).wp) :
    Mapped (dualParams config loc) last (zoneToSlpn (dualParams config loc) zid + i) := by
  have simulation := plain_simulates config loc plain
  obtain ⟨store, _, stands⟩ := reached_stands config loc plain ftl reached
  obtain ⟨middle, taken, stood⟩ := simulation.steps ftl flushed (.flush req) store stands trivial flush
  have spared : TransitionSystem.Reach ⟨fun first => first = flushed, Step (dualParams config loc)⟩
      (fun state event => Orderly (dualParams config loc) state event ∧
        ZoneStore.Spares zid (storeOp (dualParams config loc) state event)) last :=
    TransitionSystem.reach_mono _ _ _ (fun state event both => ⟨both.1, spares_shown _ zid state event both.2⟩) last onward
  obtain ⟨after, run, ended⟩ := TransitionSystem.simulation_onward _ _ _ _ _ simulation (ZoneStore.Spares zid) flushed last middle stood spared
  have stays := ZoneStore.flushed_stays _ store middle after zid taken run
  rw [ended.settled.spread.filled zid inside i bound]
  refine Nat.lt_of_lt_of_le ?_ stays
  rw [stands.settled.pointers zid inside, zone_slba_pages _ zid, ← Nat.mul_add, Nat.mul_lt_mul_left (show 0 < secsPerPg by decide)] at written
  exact Nat.lt_of_add_lt_add_left written

theorem sample_flushed_page_stays :
    ∃ ftl flushed last, Reachable (dualParams sampleConfig .pslc) (Orderly (dualParams sampleConfig .pslc)) ftl ∧
      Step (dualParams sampleConfig .pslc) ftl (.flush ⟨0, 0⟩) flushed ∧ Step (dualParams sampleConfig .pslc) flushed (writeEvent 32 16) last ∧
      Mapped (dualParams sampleConfig .pslc) last (zoneToSlpn (dualParams sampleConfig .pslc) 0 + 2) := by
  obtain ⟨ftl, reached, checked⟩ := three_pages_written .pslc (fun ftl => decide (16 < (ftl.zoneDescs 0).wp) &&
    ((stepEvent (dualParams sampleConfig .pslc) ftl (.flush ⟨0, 0⟩)).bind fun flushed =>
      stepEvent (dualParams sampleConfig .pslc) flushed (writeEvent 32 16)).isSome) (by decide +kernel)
  rw [Bool.and_eq_true, decide_eq_true_eq, Option.isSome_iff_exists] at checked
  obtain ⟨below, last, ran⟩ := checked
  obtain ⟨flushed, flush, write⟩ := Option.bind_eq_some_iff.mp ran
  have flush := step_event_step _ ftl flushed _ flush
  have write := step_event_step _ flushed last _ write
  refine ⟨ftl, flushed, last, reached, flush, write, ?_⟩
  refine flushed_pages_stay sampleConfig .pslc (sample_plain .pslc) ftl flushed last ⟨0, 0⟩ 0 2 reached flush ?_ (by decide +kernel)
    (by decide +kernel) below
  exact .next flushed last (writeEvent 32 16) (.start flushed rfl) ⟨write_event_orderly _ flushed 32 2 (by decide), trivial⟩ write

end Runs

end ConZone
