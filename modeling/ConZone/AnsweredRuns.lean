import ConZone.StoredPages
import ConZone.TlcLast
import ConZone.ZoneAnswers

set_option autoImplicit false

namespace ConZone

section Lines

variable (config : DualConfig) (plain : PlainConfig config .normal)

include plain in
theorem plain_lines : (lineRefs (dualParams config .normal)).length = (dualParams config .normal).zpp.nrZones := by
  have one : ∀ id, (if id < interleaveSline (dualParams config .normal) then
      (List.range (dualParams config .normal).spp.blksPerLine).map (LineRef.sub id) else [LineRef.line id]).length = 1 := by
    intro id
    rcases plain.lines with many | single
    · have dual : zmsIsDualNs (dualParams config .normal).zpp.nsType = true := rfl
      have lines : (dualParams config .normal).zpp.ttLines = dualTtLines config .normal := rfl
      have slc : (dualParams config .normal).zpp.pslcLines = 0 := rfl
      have whole : interleaveSline (dualParams config .normal) = 0 := by
        unfold interleaveSline
        rw [dual_pgs_per_zone, dual, if_pos rfl, if_neg (by omega), if_pos (by omega), slc]
      rw [whole, if_neg (Nat.not_lt_zero id)]
      rfl
    · have blocks : (dualParams config .normal).spp.blksPerLine = 1 := single
      rw [blocks]
      split <;> rfl
  rw [dual_nr_zones]
  unfold lineRefs
  rw [List.length_flatMap, List.map_congr_left (fun id _ => one id), List.map_const', List.sum_replicate, List.length_range]
  exact Nat.mul_one _

theorem dual_oneshot_positive (loc : Loc) : 0 < oneshotOf (dualParams config loc) loc := by
  have positive := media_oneshot_positive config loc
  unfold mediaOneshot at positive
  cases loc with
  | pslc => rwa [if_pos rfl, Nat.mul_one] at positive
  | normal =>
      rw [if_neg nofun, ← config_oneshot_pages] at positive
      exact positive

include plain in
theorem plain_answers : MediaAnswers (dualParams config .normal) .normal (plainResting config .normal) :=
  tlc_media_answers _ (plain_tlc_namespace config plain) (plain_regular config .normal plain) (Nat.le_of_eq (plain_lines config plain).symm)

end Lines

theorem unwritten_store (p : Params) (resting : ZmsFtl → Prop) (ftl : ZmsFtl) (store : ZoneStore.Store) (stands : StandsFor p resting ftl store)
    (zid : Nat) (inside : zid < p.zpp.nrZones) : store.written zid = 0 ↔ (ftl.zoneDescs zid).wp = zoneToSlba p zid := by
  have pointer := stands.settled.pointers zid inside
  have eight : secsPerPg = 8 := rfl
  rw [eight] at pointer
  unfold ZoneStore.Store.written
  omega

section Room

variable (config : DualConfig) (loc : Loc) (plain : PlainConfig config loc) (sizes : WholeBuffers (dualParams config loc))

include plain sizes in
theorem reached_room (ftl : ZmsFtl) (reached : Reachable (dualParams config loc) (Orderly (dualParams config loc)) ftl) :
    ∃ store, StandsFor (dualParams config loc) (plainResting config loc) ftl store ∧ RoomInBuffers (dualParams config loc) ftl := by
  obtain ⟨store, _, stands⟩ := TransitionSystem.simulation_reach _ _ _ _ _
    (room_simulates _ sizes (dual_buffers config loc) _ (plain_simulates config loc plain)) ftl reached
  exact ⟨store, stands⟩

include plain sizes in
-- Between two commands no write buffer is full.
theorem buffers_keep_room (ftl : ZmsFtl) (reached : Reachable (dualParams config loc) (Orderly (dualParams config loc)) ftl) (index : Nat)
    (bound : index < (dualParams config loc).zpp.nrWb) :
    pgsz * (ftl.writeBuffer index).pgs < wbSize (dualParams config loc) ∧
      (ftl.writeBuffer index).flushData = pgsz * (ftl.writeBuffer index).pgs := by
  obtain ⟨store, stands, room⟩ := reached_room config loc plain sizes ftl reached
  refine ⟨?_, stands.settled.spread.sized index bound⟩
  rw [sizes.whole]
  exact Nat.mul_lt_mul_of_pos_left (room index bound) (by decide)

end Room

theorem sample_whole_buffers (loc : Loc) : WholeBuffers (dualParams sampleConfig loc) where
  whole := by cases loc <;> decide
  some := by cases loc <;> decide

theorem sample_buffers_keep_room :
    ∃ ftl, Reachable (dualParams sampleConfig .normal) (Orderly (dualParams sampleConfig .normal)) ftl ∧
      pgsz * (ftl.writeBuffer 0).pgs < wbSize (dualParams sampleConfig .normal) ∧ (ftl.writeBuffer 0).flushData = pgsz * (ftl.writeBuffer 0).pgs := by
  obtain ⟨ftl, _, reached, _⟩ := three_pages_then .normal (.flush ⟨0, 0⟩) (by decide +kernel)
  exact ⟨ftl, reached, buffers_keep_room sampleConfig .normal (sample_plain .normal) (sample_whole_buffers .normal) ftl reached 0 (by decide +kernel)⟩

section Answers

variable (config : DualConfig) (plain : PlainConfig config .normal)

include plain in
-- A TLC namespace with a zone left to write to carries out what the host asks
-- of the other ones.
theorem tlc_events_answered (sizes : WholeBuffers (dualParams config .normal)) (ftl : ZmsFtl)
    (reached : Reachable (dualParams config .normal) (Orderly (dualParams config .normal)) ftl) (spare : Nat)
    (inside : spare < (dualParams config .normal).zpp.nrZones) (unwritten : (ftl.zoneDescs spare).wp = zoneToSlba (dualParams config .normal) spare)
    (event : Event) (orderly : Orderly (dualParams config .normal) ftl event)
    (addressed : Addressed (dualParams config .normal) ftl spare event) : ∃ next, Step (dualParams config .normal) ftl event next := by
  obtain ⟨store, stands, room⟩ := reached_room config .normal plain sizes ftl reached
  exact event_answers _ .normal _ (plain_contract config .normal plain) (dual_zoned_space config .normal) (plain_answers config plain)
    (dual_oneshot_positive config .normal) sizes (dual_buffers config .normal) ftl store event stands room spare inside
    (unwritten_store _ _ ftl store stands spare inside |>.mpr unwritten) orderly addressed

theorem sample_write_answered :
    ∃ ftl next, Reachable (dualParams sampleConfig .normal) (Orderly (dualParams sampleConfig .normal)) ftl ∧
      Step (dualParams sampleConfig .normal) ftl (writeEvent 96 16) next := by
  obtain ⟨ftl, reached, unwritten⟩ := three_pages_written .normal
    (fun ftl => decide ((ftl.zoneDescs 3).wp = zoneToSlba (dualParams sampleConfig .normal) 3)) (by decide +kernel)
  obtain ⟨next, taken⟩ := tlc_events_answered sampleConfig (sample_plain .normal) (sample_whole_buffers .normal) ftl reached 3 (by decide +kernel)
    (of_decide_eq_true unwritten) (writeEvent 96 16) (write_event_orderly _ ftl 96 2 (by decide)) ⟨by decide +kernel, by decide +kernel⟩
  exact ⟨ftl, next, reached, taken⟩

include plain in
theorem zone_stays_blank (ftl : ZmsFtl) (reached : Reachable (dualParams config .normal) (Orderly (dualParams config .normal)) ftl) :
    ∃ zid, zid < (dualParams config .normal).zpp.nrZones ∧ ZoneBlank (dualParams config .normal) ftl zid := by
  obtain ⟨store, _, stands⟩ := reached_stands config .normal plain ftl reached
  obtain ⟨home, prog, sound⟩ : TlcResting (dualParams config .normal) ftl := stands.settled.rests
  have medium := dual_medium config .normal
  have pointed := reachable_kept _ medium _ (pointed_rules _ medium) _
    (fun clock => ⟨realize_bounded _ medium clock, start_pointed _ clock⟩) ftl reached
  have zones : 0 < (dualParams config .normal).zpp.nrZones := by
    rw [dual_nr_zones]
    exact medium_lines_positive _ medium
  exact blank_zone_left _ (plain_tlc_namespace config plain) (plain_regular config .normal plain) ftl home prog sound
    (Nat.le_of_eq (plain_lines config plain)) zones pointed.2

include plain in
-- A flush needs a zone nothing was written to: the last blank zone cannot be
-- given a page.
theorem flush_answers_iff (ftl : ZmsFtl) (reached : Reachable (dualParams config .normal) (Orderly (dualParams config .normal)) ftl) (req : Request) :
    (∃ next, Step (dualParams config .normal) ftl (.flush req) next) ↔
      ∃ zid, zid < (dualParams config .normal).zpp.nrZones ∧ (ftl.zoneDescs zid).wp = zoneToSlba (dualParams config .normal) zid := by
  obtain ⟨store, _, stands⟩ := reached_stands config .normal plain ftl reached
  constructor
  · rintro ⟨next, taken⟩
    obtain ⟨zid, inside, blank⟩ := zone_stays_blank config plain next (.next ftl next (.flush req) reached trivial taken)
    obtain ⟨after, stepped, stood⟩ := (plain_simulates config .normal plain).steps ftl next (.flush req) store stands trivial taken
    refine ⟨zid, inside, (unwritten_store _ _ ftl store stands zid inside).mp ?_⟩
    cases stepped with
    | flush =>
        have positive := dual_zone_pages_positive config .normal
        by_contra written
        have filled := stood.settled.spread.filled zid inside 0 positive
        exact blank 0 positive (filled.mpr (Nat.pos_of_ne_zero written))
  · rintro ⟨zid, inside, unwritten⟩
    have bare := (unwritten_store _ _ ftl store stands zid inside).mpr unwritten
    obtain ⟨⟨done, next⟩, ran⟩ := zns_flush_answers _ .normal _ (plain_contract config .normal plain) (dual_zoned_space config .normal)
      (plain_answers config plain) (dual_oneshot_positive config .normal) zid inside store.landed store.waiting bare ftl req stands.settled
    exact ⟨next, .flush ftl next req done ran⟩

theorem sample_flush_answers :
    ∃ ftl, Reachable (dualParams sampleConfig .normal) (Orderly (dualParams sampleConfig .normal)) ftl ∧
      ((∃ next, Step (dualParams sampleConfig .normal) ftl (.flush ⟨0, 0⟩) next) ↔
        ∃ zid, zid < (dualParams sampleConfig .normal).zpp.nrZones ∧
          (ftl.zoneDescs zid).wp = zoneToSlba (dualParams sampleConfig .normal) zid) := by
  obtain ⟨ftl, _, reached, _⟩ := three_pages_then .normal (.flush ⟨0, 0⟩) (by decide +kernel)
  exact ⟨ftl, reached, flush_answers_iff sampleConfig (sample_plain .normal) ftl reached ⟨0, 0⟩⟩

end Answers

end ConZone
