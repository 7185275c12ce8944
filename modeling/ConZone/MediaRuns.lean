import ConZone.StoredPages

set_option autoImplicit false

namespace ConZone

open Tally

-- The mapping table and the pages agree: a mapped LPN has a valid page of its
-- own that names it, and every valid page is some LPN's.
structure MappingExact (p : Params) (ftl : ZmsFtl) : Prop where
  placed : ∀ lpn page map, getMaptblEnt p ftl lpn = .mapped page map →
    OwnedPage p page ∧ pageStatus ftl page = .valid ∧ getRmapEnt p ftl page = some lpn
  alone : ∀ lpn other page map otherMap, getMaptblEnt p ftl lpn = .mapped page map → getMaptblEnt p ftl other = .mapped page otherMap → lpn = other
  live : ∀ page, OwnedPage p page → pageStatus ftl page = .valid → ∃ lpn map, getMaptblEnt p ftl lpn = .mapped page map

-- The counters of lines and blocks are the numbers of their pages, and no line
-- is charged with more pages than it has.
structure CountersTrue (p : Params) (ftl : ZmsFtl) : Prop where
  lines : ∀ ref ∈ lineRefs p, (ftl.lm.lines ref).vpc = census (pagesIn p ref) (pageStatus ftl) .valid ∧
    (ftl.lm.lines ref).ipc = census (pagesIn p ref) (pageStatus ftl) .invalid
  blocks : ∀ block, OwnedBlock p block → (ftl.nand block).vpc = census (pagesOf p block) (pageStatus ftl) .valid ∧
    (ftl.nand block).ipc = census (pagesOf p block) (pageStatus ftl) .invalid
  within : ∀ ref ∈ lineRefs p, 0 ≤ (ftl.lm.lines ref).rpc ∧
    (ftl.lm.lines ref).vpc + (ftl.lm.lines ref).ipc + (ftl.lm.lines ref).rpc ≤ pgsPerLineOf p ref

structure LineSorted (p : Params) (ftl : ZmsFtl) (place : Home) (ref : LineRef) : Prop where
  known : place = .free ∨ place = .full ∨ place = .victim ∨ ∃ name, place = .cur name ∧ (ftl.wps name).curline = some ref
  pointed : ∀ name, (ftl.wps name).curline = some ref → place = .cur name
  blank : place = .free → ∀ page, OwnedPage p page → getLine p page = ref → pageStatus ftl page = .free
  clean : place = .full → (ftl.lm.lines ref).ipc = 0 ∧ (ftl.lm.lines ref).vpc + (ftl.lm.lines ref).rpc = pgsPerLineOf p ref
  dirty : place = .victim → 0 < (ftl.lm.lines ref).ipc ∧ (ftl.lm.lines ref).vpc + (ftl.lm.lines ref).ipc + (ftl.lm.lines ref).rpc = pgsPerLineOf p ref

def LinesSorted (p : Params) (loc : Loc) (ftl : ZmsFtl) : Prop :=
  ∃ home free full, Housed p loc ftl.lm home free full ∧ ∀ ref ∈ lineRefs p, LineSorted p ftl (home ref) ref

-- Flash demands that the pages of a block are programmed in order.
def ProgrammedInOrder (p : Params) (ftl : ZmsFtl) : Prop :=
  ∀ block pg later, OwnedPage p ⟨block, pg⟩ → OwnedPage p ⟨block, later⟩ → pg ≤ later → pageStatus ftl ⟨block, pg⟩ = .free →
    pageStatus ftl ⟨block, later⟩ = .free

section Medium

variable (p : Params) (loc : Loc) (regular : Regular p loc) (ftl : ZmsFtl) (home : LineRef → Home) (prog : LineRef → Nat)
variable (sound : MediaSound p loc ftl home prog fun _ => 0)

include sound in
theorem mapping_exact : MappingExact p ftl := by
  have named := sound.pages.named
  have live := sound.pages.valid
  refine ⟨?_, ?_, ?_⟩
  · intro lpn page map entry
    have there := mapped_on_page p ftl lpn page map entry
    obtain ⟨owned, back⟩ := named lpn page there
    exact ⟨owned, (live page owned).mpr ⟨lpn, there⟩, back⟩
  · intro lpn other page map otherMap entry otherEntry
    have first := (named lpn page (mapped_on_page p ftl lpn page map entry)).2
    have second := (named other page (mapped_on_page p ftl other page otherMap otherEntry)).2
    exact Option.some.inj (first.symm.trans second)
  · intro page owned valid
    obtain ⟨lpn, there⟩ := (live page owned).mp valid
    exact ⟨lpn, on_page_entry p ftl lpn page there⟩

include regular sound in
theorem spent_bound (known : ∀ ref, home ref ≠ .out) (ref : LineRef) (listed : ref ∈ lineRefs p) :
    (prog ref : Int) + (ftl.lm.lines ref).rpc ≤ pgsPerLineOf p ref := by
  obtain ⟨free, full, housed⟩ := sound.homes.housed
  cases place : home ref with
  | free =>
      obtain ⟨empty, rpc⟩ := sound.homes.empty ref place
      rw [empty, rpc]
      exact Int.natCast_nonneg _
  | full => exact Int.le_of_eq (sound.homes.spent ref (.inl place))
  | victim => exact Int.le_of_eq (sound.homes.spent ref (.inr (.inl place)))
  | cur name =>
      obtain ⟨owned, line, stands⟩ := sound.homes.stands name ref place
      have bound := owned_place p loc regular _ owned
      rw [line] at bound
      omega
  | out => exact absurd place (known ref)
  | beyond => exact absurd place ((housed.bound ref).mpr listed)

include regular sound in
theorem spent_pages (known : ∀ ref, home ref ≠ .out) (ref : LineRef) (listed : ref ∈ lineRefs p) :
    (ftl.lm.lines ref).vpc + (ftl.lm.lines ref).ipc = prog ref := by
  have reserved := (sound.homes.reserved ref listed).1
  have bound := spent_bound p loc regular ftl home prog sound known ref listed
  rw [sound.counts.vpc ref listed, sound.counts.ipc ref listed, ← programmed_counts p loc regular ftl prog sound.pages ref listed (by omega)]
  push_cast
  rfl

include regular sound in
theorem counters_true (known : ∀ ref, home ref ≠ .out) : CountersTrue p ftl := by
  refine ⟨fun ref listed => ⟨sound.counts.vpc ref listed, sound.counts.ipc ref listed⟩,
    fun block owned => ⟨sound.counts.blkVpc block owned, sound.counts.blkIpc block owned⟩, fun ref listed => ?_⟩
  rw [spent_pages p loc regular ftl home prog sound known ref listed]
  exact ⟨(sound.homes.reserved ref listed).1, spent_bound p loc regular ftl home prog sound known ref listed⟩

include regular sound in
theorem lines_sorted (known : ∀ ref, home ref ≠ .out) : LinesSorted p loc ftl := by
  obtain ⟨free, full, housed⟩ := sound.homes.housed
  refine ⟨home, free, full, housed, fun ref listed => ?_⟩
  have spent := spent_pages p loc regular ftl home prog sound known ref listed
  constructor
  · cases place : home ref with
    | free => exact .inl rfl
    | full => exact .inr (.inl rfl)
    | victim => exact .inr (.inr (.inl rfl))
    | cur name => exact .inr (.inr (.inr ⟨name, rfl, (sound.homes.pointer name ref).mp place⟩))
    | out => exact absurd place (known ref)
    | beyond => exact absurd place ((housed.bound ref).mpr listed)
  · exact fun name cur => (sound.homes.pointer name ref).mpr cur
  · intro place page owned line
    refine sound.pages.blank page owned ?_
    rw [line, (sound.homes.empty ref place).1]
    exact Nat.zero_le _
  · intro place
    obtain ⟨ipc, _⟩ := sound.homes.clean ref place
    have whole := sound.homes.spent ref (.inl place)
    exact ⟨ipc, by omega⟩
  · intro place
    have whole := sound.homes.spent ref (.inr (.inl place))
    exact ⟨sound.homes.dirty ref (.inl place), by omega⟩

include regular in
theorem place_mono (block : Block) (pg later : Nat) (order : pg ≤ later) : placeIn p ⟨block, pg⟩ ≤ placeIn p ⟨block, later⟩ := by
  unfold placeIn
  rw [get_line_pg p block later pg]
  split
  · have flash := regular.rows.flash
    have geometry := regular.medium.geometry
    refine Radix.spread_mono (fun flashpg => ((flashpg * rowsPerLine p.spp + block.plane.lun % rowsPerLine p.spp) * p.spp.nchs +
      block.plane.ch) * p.spp.plsPerLun + block.plane.pl) ?_ pg later p.spp.pgsPerFlashpg flash order
    intro high other less
    have rows := Nat.mul_lt_mul_of_pos_right less geometry.rows
    have channels := Nat.mul_lt_mul_of_pos_right (Nat.add_lt_add_right rows (block.plane.lun % rowsPerLine p.spp)) geometry.channels
    have planes := Nat.mul_lt_mul_of_pos_right (Nat.add_lt_add_right channels block.plane.ch) geometry.planes
    exact Nat.add_lt_add_right planes block.plane.pl
  · exact order

include regular sound in
theorem programmed_in_order : ProgrammedInOrder p ftl := by
  intro block pg later owned laterOwned order blank
  refine sound.pages.blank _ laterOwned ?_
  by_contra inside
  rw [get_line_pg p block later pg] at inside
  have mono := place_mono p loc regular block pg later order
  exact sound.pages.used _ owned (by omega) blank

end Medium

section Runs

variable (config : DualConfig) (loc : Loc) (plain : PlainConfig config loc)

include plain in
theorem reached_media (ftl : ZmsFtl) (reached : Reachable (dualParams config loc) (Orderly (dualParams config loc)) ftl) :
    ∃ home prog, MediaSound (dualParams config loc) loc ftl home prog (fun _ => 0) ∧ ∀ ref, home ref ≠ .out := by
  obtain ⟨store, _, stands⟩ := reached_stands config loc plain ftl reached
  exact (plain_contract config loc plain).sound ftl stands.settled.rests

include plain in
theorem mapping_stays_exact (ftl : ZmsFtl) (reached : Reachable (dualParams config loc) (Orderly (dualParams config loc)) ftl) :
    MappingExact (dualParams config loc) ftl := by
  obtain ⟨home, prog, sound, _⟩ := reached_media config loc plain ftl reached
  exact mapping_exact _ loc ftl home prog sound

theorem sample_mapping_exact :
    ∃ ftl, Reachable (dualParams sampleConfig .normal) (Orderly (dualParams sampleConfig .normal)) ftl ∧ MappingExact (dualParams sampleConfig .normal) ftl := by
  obtain ⟨ftl, reached, _⟩ := three_pages_written .normal (fun _ => true) (by decide +kernel)
  exact ⟨ftl, reached, mapping_stays_exact sampleConfig .normal (sample_plain .normal) ftl reached⟩

include plain in
theorem counters_stay_true (ftl : ZmsFtl) (reached : Reachable (dualParams config loc) (Orderly (dualParams config loc)) ftl) :
    CountersTrue (dualParams config loc) ftl := by
  obtain ⟨home, prog, sound, known⟩ := reached_media config loc plain ftl reached
  exact counters_true _ loc (plain_regular config loc plain) ftl home prog sound known

theorem sample_counters_true :
    ∃ ftl, Reachable (dualParams sampleConfig .pslc) (Orderly (dualParams sampleConfig .pslc)) ftl ∧ CountersTrue (dualParams sampleConfig .pslc) ftl := by
  obtain ⟨ftl, reached, _⟩ := three_pages_written .pslc (fun _ => true) (by decide +kernel)
  exact ⟨ftl, reached, counters_stay_true sampleConfig .pslc (sample_plain .pslc) ftl reached⟩

include plain in
theorem lines_stay_sorted (ftl : ZmsFtl) (reached : Reachable (dualParams config loc) (Orderly (dualParams config loc)) ftl) :
    LinesSorted (dualParams config loc) loc ftl := by
  obtain ⟨home, prog, sound, known⟩ := reached_media config loc plain ftl reached
  exact lines_sorted _ loc (plain_regular config loc plain) ftl home prog sound known

theorem sample_lines_sorted :
    ∃ ftl, Reachable (dualParams sampleConfig .pslc) (Orderly (dualParams sampleConfig .pslc)) ftl ∧ LinesSorted (dualParams sampleConfig .pslc) .pslc ftl := by
  obtain ⟨ftl, reached, _⟩ := three_pages_written .pslc (fun _ => true) (by decide +kernel)
  exact ⟨ftl, reached, lines_stay_sorted sampleConfig .pslc (sample_plain .pslc) ftl reached⟩

include plain in
theorem blocks_programmed_in_order (ftl : ZmsFtl) (reached : Reachable (dualParams config loc) (Orderly (dualParams config loc)) ftl) :
    ProgrammedInOrder (dualParams config loc) ftl := by
  obtain ⟨home, prog, sound, _⟩ := reached_media config loc plain ftl reached
  exact programmed_in_order _ loc (plain_regular config loc plain) ftl home prog sound

theorem sample_programmed_in_order :
    ∃ ftl, Reachable (dualParams sampleConfig .normal) (Orderly (dualParams sampleConfig .normal)) ftl ∧ ProgrammedInOrder (dualParams sampleConfig .normal) ftl := by
  obtain ⟨ftl, reached, _⟩ := three_pages_written .normal (fun _ => true) (by decide +kernel)
  exact ⟨ftl, reached, blocks_programmed_in_order sampleConfig .normal (sample_plain .normal) ftl reached⟩

end Runs

section Tlc

variable (p : Params) (ns : TlcNamespace p) (regular : Regular p .normal)

-- A page of a zone stands at the zone's own offset in a line that no other zone
-- has pages in, and no page ever loses its data.
structure ZonesOnLines (p : Params) (ftl : ZmsFtl) : Prop where
  offset : ∀ zid, zid < p.zpp.nrZones → ∀ i, i < p.zpp.pgsPerZone → ∀ page map,
    getMaptblEnt p ftl (zoneToSlpn p zid + i) = .mapped page map → placeIn p page = i
  own : ∀ zid, zid < p.zpp.nrZones → ∀ other, other < p.zpp.nrZones → ∀ i, i < p.zpp.pgsPerZone → ∀ j, j < p.zpp.pgsPerZone →
    ∀ page there map otherMap, getMaptblEnt p ftl (zoneToSlpn p zid + i) = .mapped page map →
      getMaptblEnt p ftl (zoneToSlpn p other + j) = .mapped there otherMap → (getLine p page = getLine p there ↔ zid = other)
  kept : ∀ page, OwnedPage p page → pageStatus ftl page ≠ .invalid
  victims : ∀ force, selectVictimLine p ftl force .normal = none

variable (ftl : ZmsFtl) (home : LineRef → Home) (prog : LineRef → Nat) (sound : TlcSound p ftl home prog)

include ns regular sound in
theorem zones_on_lines : ZonesOnLines p ftl := by
  refine ⟨?_, ?_, ?_, ?_⟩
  · exact fun zid inside i bound page map entry =>
      (page_on_line p ftl home prog sound zid inside i bound page (mapped_on_page p ftl _ page map entry)).2
  · intro zid inside other otherInside i bound j otherBound page there map otherMap entry otherEntry
    obtain ⟨unit, place⟩ := page_on_line p ftl home prog sound zid inside i bound page
      (mapped_on_page p ftl _ page map entry)
    obtain ⟨otherUnit, otherPlace⟩ := page_on_line p ftl home prog sound other otherInside j otherBound there
      (mapped_on_page p ftl _ there otherMap otherEntry)
    constructor
    · intro same
      rw [← same] at otherUnit
      exact (units_alone p ns regular ftl home prog sound zid other _ unit otherUnit).symm
    · intro same
      rw [same] at unit
      obtain ⟨first, firstThere, firstLine, _⟩ := unit.filled 0 unit.begun
      obtain ⟨second, secondThere, secondLine, _⟩ := otherUnit.filled 0 otherUnit.begun
      have bare := secondThere.2
      rw [firstThere.2] at bare
      rw [← firstLine, ← secondLine, (Ppa.mapped.inj bare).1]
  · exact tlc_never_invalid p regular ftl home prog sound
  · exact fun force => tlc_no_victim p ftl ⟨home, prog, sound⟩ force

end Tlc

section TlcRuns

variable (config : DualConfig) (plain : PlainConfig config .normal)

include plain in
theorem tlc_zones_on_lines (ftl : ZmsFtl) (reached : Reachable (dualParams config .normal) (Orderly (dualParams config .normal)) ftl) :
    ZonesOnLines (dualParams config .normal) ftl := by
  obtain ⟨store, _, stands⟩ := reached_stands config .normal plain ftl reached
  obtain ⟨home, prog, sound⟩ := stands.settled.rests
  exact zones_on_lines _ (plain_tlc_namespace config plain) (plain_regular config .normal plain) ftl home prog sound

theorem sample_zones_on_lines :
    ∃ ftl, Reachable (dualParams sampleConfig .normal) (Orderly (dualParams sampleConfig .normal)) ftl ∧ ZonesOnLines (dualParams sampleConfig .normal) ftl := by
  obtain ⟨ftl, reached, _⟩ := three_pages_written .normal (fun _ => true) (by decide +kernel)
  exact ⟨ftl, reached, tlc_zones_on_lines sampleConfig (sample_plain .normal) ftl reached⟩

end TlcRuns

section SlcRuns

variable (config : DualConfig) (plain : PlainConfig config .pslc)

structure CollectsSafely (p : Params) (ftl next : ZmsFtl) (victim : LineRef) : Prop where
  listed : victim ∈ lineRefs p
  blank : ∀ page, OwnedPage p page → getLine p page = victim → pageStatus next page = .free
  kept : ∀ lpn, Mapped p next lpn ↔ Mapped p ftl lpn
  mapping : MappingExact p next
  counters : CountersTrue p next
  order : ProgrammedInOrder p next

include plain in
theorem slc_collects_safely (ftl selected next : ZmsFtl) (force : Bool) (victim : LineRef)
    (reached : Reachable (dualParams config .pslc) (Orderly (dualParams config .pslc)) ftl)
    (chosen : selectVictimLine (dualParams config .pslc) ftl force .pslc = some (victim, selected))
    (ran : doGc (dualParams config .pslc) ftl force .pslc = .ok next) : CollectsSafely (dualParams config .pslc) ftl next victim := by
  have regular := plain_regular config .pslc plain
  obtain ⟨store, _, stands⟩ := reached_stands config .pslc plain ftl reached
  obtain ⟨⟨home, prog, sound, known⟩, mapped, listed, blank⟩ := slc_collect_sound _ (dual_slc_namespace config) regular ftl selected next force
    victim stands.settled.rests chosen ran
  exact ⟨listed, blank, mapped, mapping_exact _ .pslc next home prog sound.media,
    counters_true _ .pslc regular next home prog sound.media known, programmed_in_order _ .pslc regular next home prog sound.media⟩

def sharedLine : List Event := [writeEvent 0 16, .release 0, writeEvent 32 16, .release 0, resetEvent 0]

theorem shared_line_orderly (event : Event) (member : event ∈ sharedLine) (ftl : ZmsFtl) :
    Orderly (dualParams sampleConfig .pslc) ftl event := by
  simp only [sharedLine, List.mem_cons, List.not_mem_nil, or_false] at member
  rcases member with same | same | same | same | same <;> rw [same]
  · exact write_event_orderly _ ftl 0 2 (by decide)
  · trivial
  · exact write_event_orderly _ ftl 32 2 (by decide)
  · trivial
  · exact fun zid _ _ tlc => nomatch tlc

theorem sample_collects_safely :
    ∃ ftl next, Reachable (dualParams sampleConfig .pslc) (Orderly (dualParams sampleConfig .pslc)) ftl ∧
      CollectsSafely (dualParams sampleConfig .pslc) ftl next (.line 0) := by
  obtain ⟨ftl, reached, checked⟩ := run_events_check (dualParams sampleConfig .pslc) (Orderly (dualParams sampleConfig .pslc)) sharedLine
    (fun _ => 0) (fun ftl => (selectVictimLine (dualParams sampleConfig .pslc) ftl true .pslc).any (fun selected => selected.1 == .line 0) &&
      (doGc (dualParams sampleConfig .pslc) ftl true .pslc).isOk) shared_line_orderly (by decide +kernel)
  rw [Bool.and_eq_true, Option.any_eq_true] at checked
  obtain ⟨⟨⟨victim, selected⟩, chosen, first⟩, collected⟩ := checked
  have same : victim = .line 0 := eq_of_beq first
  rw [same] at chosen
  cases ran : doGc (dualParams sampleConfig .pslc) ftl true .pslc with
  | error crash =>
      rw [ran] at collected
      cases collected
  | ok next =>
      exact ⟨ftl, next, reached, slc_collects_safely sampleConfig (sample_plain .pslc) ftl selected next true (.line 0) reached chosen ran⟩

end SlcRuns

end ConZone
