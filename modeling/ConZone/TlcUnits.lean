import ConZone.TlcMedia

set_option autoImplicit false

namespace ConZone

-- The LPNs of a namespace are its zones, one after the other.
structure ZonedSpace (p : Params) : Prop where
  zone : zoneLpns p = p.zpp.pgsPerZone
  lpns : p.zpp.ttLpns = p.zpp.nrZones * p.zpp.pgsPerZone
  some : 0 < p.zpp.pgsPerZone

-- A TLC namespace whose mapping unit, the zone, fills one line.
structure TlcNamespace (p : Params) : Prop where
  space : ZonedSpace p
  tlc : p.zpp.nsType = .tlc
  unit : ∀ ref ∈ lineRefs p, pgsPerLineOf p ref = p.zpp.pgsPerZone

section Addresses

variable (p : Params) (space : ZonedSpace p) (zid i : Nat) (inside : zid < p.zpp.nrZones) (bound : i < p.zpp.pgsPerZone)

include space inside bound in
theorem zone_lpn_inside : zoneToSlpn p zid + i < p.zpp.ttLpns := by
  unfold zoneToSlpn
  rw [space.zone, space.lpns]
  exact Radix.pair_bound _ _ _ _ inside bound

include space inside bound in
theorem zone_lpn_zone : lpnToZone p (zoneToSlpn p zid + i) = zid := by
  have fits := p.zpp.zonesFit
  unfold lpnToZone zoneToSlpn u32
  rw [space.zone, Radix.div_digit _ _ _ bound]
  exact Nat.mod_eq_of_lt (by omega)

include space in
theorem zone_lpn_apart (other j : Nat) (otherBound : j < p.zpp.pgsPerZone) (bound : i < p.zpp.pgsPerZone)
    (same : zoneToSlpn p zid + i = zoneToSlpn p other + j) : zid = other ∧ i = j := by
  unfold zoneToSlpn at same
  rw [space.zone] at same
  have zone := congrArg (· / p.zpp.pgsPerZone) same
  have digit := congrArg (· % p.zpp.pgsPerZone) same
  simp only [Radix.div_digit _ _ _ bound, Radix.div_digit _ _ _ otherBound] at zone
  simp only [Radix.mod_digit _ _ _ bound, Radix.mod_digit _ _ _ otherBound] at digit
  exact ⟨zone, digit⟩

include space in
theorem zone_lpn_of (lpn : Nat) (within : lpn < p.zpp.ttLpns) :
    ∃ zid i, zid < p.zpp.nrZones ∧ i < p.zpp.pgsPerZone ∧ lpn = zoneToSlpn p zid + i := by
  rw [space.lpns] at within
  refine ⟨lpn / p.zpp.pgsPerZone, lpn % p.zpp.pgsPerZone, Radix.digit_bound lpn _ _ within, Nat.mod_lt _ space.some, ?_⟩
  unfold zoneToSlpn
  rw [space.zone]
  exact (Radix.digits lpn p.zpp.pgsPerZone).symm

include space inside bound in
theorem zone_unit_start : unitStart p (zoneToSlpn p zid + i) .normal = zoneToSlpn p zid := by
  have zone := zone_lpn_zone p space zid i inside bound
  have some := space.some
  unfold unitStart getGranularityStartLpn getMappingGranularity getPagesPerGranularity
  dsimp only
  rw [zone, if_neg (by omega), Nat.add_sub_cancel_left, Nat.div_eq_of_lt bound]
  omega

end Addresses

-- The unit of a zone lies on one line: its first pages are programmed, the
-- others reserved.
structure UnitOn (p : Params) (ftl : ZmsFtl) (prog : LineRef → Nat) (zid : Nat) (ref : LineRef) : Prop where
  listed : ref ∈ lineRefs p
  begun : 0 < prog ref
  filled : ∀ i, i < prog ref → ∃ page, OnPage p ftl (zoneToSlpn p zid + i) page ∧ getLine p page = ref ∧ placeIn p page = i
  ahead : ∀ i, prog ref ≤ i → i < p.zpp.pgsPerZone → barePpa (ftl.maptbl (zoneToSlpn p zid + i)) = .rsv

def ZoneBlank (p : Params) (ftl : ZmsFtl) (zid : Nat) : Prop := ∀ i, i < p.zpp.pgsPerZone → ¬Mapped p ftl (zoneToSlpn p zid + i)

structure TlcSound (p : Params) (ftl : ZmsFtl) (home : LineRef → Home) (prog : LineRef → Nat) : Prop where
  roomy : Roomy p ftl
  media : MediaSound p .normal ftl home prog fun _ => 0
  clean : ∀ ref ∈ lineRefs p, (ftl.lm.lines ref).ipc = 0
  whole : ∀ ref ∈ lineRefs p, prog ref = 0 ∧ (ftl.lm.lines ref).rpc = 0 ∨ 0 < prog ref ∧ (prog ref : Int) + (ftl.lm.lines ref).rpc = pgsPerLineOf p ref
  none : ∀ ref, home ref ≠ .out
  host : ∀ ref name, home ref = .cur name → name = .wp
  units : ∀ zid, zid < p.zpp.nrZones → ZoneBlank p ftl zid ∨ ∃ ref, UnitOn p ftl prog zid ref

section Tlc

variable (p : Params) (ns : TlcNamespace p) (regular : Regular p .normal)

theorem tlc_unit_pgs : unitPgs p .normal = p.zpp.pgsPerZone := rfl

variable (ftl : ZmsFtl) (home : LineRef → Home) (prog : LineRef → Nat) (sound : TlcSound p ftl home prog)

theorem unit_on_congr (after : ZmsFtl) (next : LineRef → Nat) (zid : Nat) (ref : LineRef) (unit : UnitOn p ftl prog zid ref)
    (same : next ref = prog ref) (table : ∀ i, i < p.zpp.pgsPerZone → barePpa (after.maptbl (zoneToSlpn p zid + i)) = barePpa (ftl.maptbl (zoneToSlpn p zid + i)))
    (short : prog ref ≤ p.zpp.pgsPerZone) : UnitOn p after next zid ref := by
  refine ⟨unit.listed, by rw [same]; exact unit.begun, ?_, ?_⟩
  · intro i bound
    rw [same] at bound
    obtain ⟨page, there, place⟩ := unit.filled i bound
    refine ⟨page, ⟨there.1, ?_⟩, place⟩
    rw [table i (by omega)]
    exact there.2
  · intro i past bound
    rw [same] at past
    rw [table i bound]
    exact unit.ahead i past bound

include regular sound in
theorem begun_full (ref : LineRef) (listed : ref ∈ lineRefs p) (begun : 0 < prog ref) : home ref = .full := by
  have whole : (prog ref : Int) + (ftl.lm.lines ref).rpc = pgsPerLineOf p ref := by
    rcases sound.whole ref listed with ⟨zero, _⟩ | ⟨_, all⟩
    · omega
    · exact all
  have clean := sound.clean ref listed
  obtain ⟨_, _, homes⟩ := sound.media
  cases there : home ref with
  | full => rfl
  | free =>
      have blank := (homes.empty ref there).1
      omega
  | victim =>
      have dirty := homes.dirty ref (.inl there)
      omega
  | cur name =>
      obtain ⟨pointed, line, stands⟩ := homes.stands name ref there
      have place := owned_place p .normal regular _ pointed
      rw [line] at place
      omega
  | out => exact absurd there (sound.none ref)
  | beyond =>
      obtain ⟨_, _, housed⟩ := homes.housed
      exact absurd there ((housed.bound ref).mpr listed)

include ns sound in
theorem unit_prog_bound (ref : LineRef) (listed : ref ∈ lineRefs p) : prog ref ≤ p.zpp.pgsPerZone := by
  have size := ns.unit ref listed
  have reserved := (sound.media.homes.reserved ref listed).1
  rcases sound.whole ref listed with ⟨zero, _⟩ | ⟨_, all⟩
  · omega
  · rw [size] at all
    omega

include ns regular sound in
theorem units_alone (zid other : Nat) (ref : LineRef) (unit : UnitOn p ftl prog zid ref) (otherUnit : UnitOn p ftl prog other ref) : other = zid := by
  obtain ⟨there, on, line, spot⟩ := unit.filled 0 unit.begun
  obtain ⟨otherThere, otherOn, otherLine, otherSpot⟩ := otherUnit.filled 0 otherUnit.begun
  obtain ⟨owned, _⟩ := sound.media.pages.named _ there on
  obtain ⟨otherOwned, _⟩ := sound.media.pages.named _ otherThere otherOn
  have pages := place_unique p regular.rows there otherThere owned otherOwned (line.trans otherLine.symm) (spot.trans otherSpot.symm)
  rw [pages] at on
  have lpns := held_alone p ftl _ otherThere prog sound.media.pages on _ otherOn
  exact (zone_lpn_apart p ns.space other 0 zid 0 ns.space.some ns.space.some lpns).1

include sound in
theorem page_on_line (zid : Nat) (inside : zid < p.zpp.nrZones) (i : Nat) (bound : i < p.zpp.pgsPerZone) (page : Page)
    (there : OnPage p ftl (zoneToSlpn p zid + i) page) : UnitOn p ftl prog zid (getLine p page) ∧ placeIn p page = i := by
  rcases sound.units zid inside with blank | ⟨ref, unit⟩
  · exact absurd ((mapped_iff_on_page p ftl _).mpr ⟨page, there⟩) (blank i bound)
  · by_cases ahead : prog ref ≤ i
    · have entry := unit.ahead i ahead bound
      rw [there.2] at entry
      cases entry
    · obtain ⟨found, foundThere, line, place⟩ := unit.filled i (Nat.lt_of_not_le ahead)
      have bare := foundThere.2
      rw [there.2] at bare
      have same : page = found := (Ppa.mapped.inj bare).1
      rw [same, line]
      exact ⟨unit, place⟩

include regular sound in
theorem tlc_never_invalid (page : Page) (owned : OwnedPage p page) : pageStatus ftl page ≠ .invalid := by
  intro invalid
  have listed := owned_listed p .normal regular page owned
  have count := sound.media.counts.ipc _ listed
  rw [sound.clean _ listed] at count
  have empty := Int.natCast_eq_zero.mp count.symm
  unfold Tally.census at empty
  rw [Finset.card_eq_zero, Finset.filter_eq_empty_iff] at empty
  exact empty ((mem_pages_in p _ page).mpr ⟨owned, rfl⟩) invalid

theorem tlc_kept (before after : ZmsFtl) (media : mediaSide after = mediaSide before) (home : LineRef → Home) (prog : LineRef → Nat)
    (roomy : Roomy p after) (sound : TlcSound p before home prog) : TlcSound p after home prog := by
  have lm : after.lm = before.lm := congrArg MediaSide.lm media
  have maps := media_maps before after media
  refine ⟨roomy, media_kept p .normal before after media home prog _ sound.media, ?_, ?_, sound.none, sound.host, ?_⟩
  · rw [lm]
    exact sound.clean
  · rw [lm]
    exact sound.whole
  · intro zid inside
    rcases sound.units zid inside with blank | ⟨ref, unit⟩
    · left
      intro i bound
      rw [same_maps_mapped p before after maps]
      exact blank i bound
    · right
      refine ⟨ref, unit.listed, unit.begun, ?_, ?_⟩
      · intro i bound
        obtain ⟨page, there, place⟩ := unit.filled i bound
        exact ⟨page, (on_page_congr p before after maps.table _ page).mpr there, place⟩
      · intro i past bound
        rw [maps.table]
        exact unit.ahead i past bound

theorem nextpage_step (lines : LineRef → Line) (page next : Page) (map : MapType) (rsv : Bool) (stepped : lineStep p page page = some next) :
    nextpage p lines page map rsv = .mapped next map := by
  have step : (if isSuperblock (getLine p page) then nextpageInterleave p page else nextpageNormal p page) = lineStep p page page := by
    unfold lineStep
    split <;> rfl
  unfold nextpage
  dsimp only
  rw [step, stepped]

section Filling

variable (zid i : Nat) (inside : zid < p.zpp.nrZones) (bound : i < p.zpp.pgsPerZone)

def ZoneFilled (p : Params) (ftl : ZmsFtl) (zid count : Nat) : Prop :=
  ∀ i, i < p.zpp.pgsPerZone → (Mapped p ftl (zoneToSlpn p zid + i) ↔ i < count)

variable (filled : ZoneFilled p ftl zid i)

include ns sound inside filled in
theorem unit_of_filled (positive : 0 < i) (bound : i ≤ p.zpp.pgsPerZone) : ∃ ref, UnitOn p ftl prog zid ref ∧ prog ref = i := by
  rcases sound.units zid inside with blank | ⟨ref, unit⟩
  · exact absurd ((filled 0 (by omega)).mpr positive) (blank 0 (by omega))
  · have short := unit_prog_bound p ns ftl home prog sound ref unit.listed
    refine ⟨ref, unit, ?_⟩
    by_contra apart
    rcases Nat.lt_or_gt_of_ne apart with less | more
    · have mapped := (filled (prog ref) (by omega)).mpr less
      obtain ⟨page, there⟩ := (mapped_iff_on_page p ftl _).mp mapped
      have entry := unit.ahead (prog ref) (Nat.le_refl _) (by omega)
      rw [there.2] at entry
      cases entry
    · obtain ⟨page, there, _⟩ := unit.filled i more
      have mapped := (filled i (by omega)).mp ((mapped_iff_on_page p ftl _).mpr ⟨page, there⟩)
      omega

include ns regular sound inside bound filled in
theorem tlc_fill_runs (positive : 0 < i) (ioType : IoType) : ∃ ref page map, UnitOn p ftl prog zid ref ∧ prog ref = i ∧
    OwnedPage p page ∧ getLine p page = ref ∧ placeIn p page = i ∧
    updateMappingIfReserved p ftl (zoneToSlpn p zid + i) .normal ioType =
      some (refineMapGran p (zoneToSlpn p zid + i) .normal mapType (fillPage p ftl (zoneToSlpn p zid + i) page map)) := by
  obtain ⟨ref, unit, sameProg⟩ := unit_of_filled p ns ftl home prog sound zid i inside filled positive (Nat.le_of_lt bound)
  obtain ⟨prev, there, line, place⟩ := unit.filled (i - 1) (by omega)
  obtain ⟨owned, _⟩ := sound.media.pages.named _ prev there
  have step := next_in_line p .normal regular prev owned
  have size := ns.unit ref unit.listed
  rw [line] at step
  cases stepped : lineStep p prev prev with
  | none =>
      rw [stepped] at step
      dsimp only at step
      omega
  | some page =>
      rw [stepped] at step
      obtain ⟨pageOwned, pageLine, pagePlace⟩ := step
      have before : zoneToSlpn p zid + i - 1 = zoneToSlpn p zid + (i - 1) := by omega
      obtain ⟨map, entry⟩ := on_page_entry p ftl _ prev there
      have reserved : isRsvPpa (ftl.maptbl (zoneToSlpn p zid + i)) = true := by
        have bare := unit.ahead i (Nat.le_of_eq sameProg) bound
        cases held : ftl.maptbl (zoneToSlpn p zid + i) with
        | rsv => rfl
        | mapped found map =>
            rw [held] at bare
            cases bare
        | unmapped =>
            rw [held] at bare
            cases bare
      have start := zone_unit_start p ns.space zid i inside bound
      change getGranularityStartLpn p _ (getMappingGranularity .normal) = _ at start
      refine ⟨ref, page, map, unit, sameProg, pageOwned, pageLine, by omega, ?_⟩
      unfold updateMappingIfReserved getPrevPpa
      rw [start]
      dsimp only
      rw [if_neg (by omega), before, entry]
      dsimp only
      rw [reserved, regular.location prev owned, nextpage_step p ftl.lm.lines prev page map true stepped]
      dsimp only
      rw [note_filled_line_dual p _ _ _ _ regular.dual]
      rfl

theorem fill_table (lpn : Nat) (page : Page) (map : MapType) (within : lpn < p.zpp.ttLpns) (markable : Markable p ftl page) (other : Nat) :
    barePpa ((fillPage p ftl lpn page map).maptbl other) = if other = lpn then .mapped page .pageMap else barePpa (ftl.maptbl other) := by
  have table : (fillPage p ftl lpn page map).maptbl = Function.update ftl.maptbl lpn (.mapped page map) := by
    unfold fillPage
    change (assignPage p ftl lpn page map).maptbl = _
    rw [assign_page_eq p ftl lpn page map within markable]
    unfold setRmapEnt
    split <;> rfl
  rw [table, bare_update]
  rfl

include ns regular sound inside bound filled in
theorem tlc_fill_sound (positive : 0 < i) (ioType : IoType) (next : ZmsFtl)
    (ran : updateOrReserveMapping p ftl (zoneToSlpn p zid + i) .normal ioType = .ok next) :
    ∃ home' prog', TlcSound p next home' prog' ∧ ∀ other, Mapped p next other ↔ Mapped p ftl other ∨ other = zoneToSlpn p zid + i := by
  have roomy := (roomy_rules p regular.medium regular.numbering.inside).maps ftl next _ .normal ioType sound.roomy ran
  obtain ⟨ref, page, map, unit, sameProg, owned, line, place, updated⟩ := tlc_fill_runs p ns regular ftl home prog sound zid i inside bound filled
    positive ioType
  have within := zone_lpn_inside p ns.space zid i inside bound
  have size := ns.unit ref unit.listed
  have unmapped : ∀ there, ¬OnPage p ftl (zoneToSlpn p zid + i) there := fun there on =>
    Nat.lt_irrefl i ((filled i bound).mp ((mapped_iff_on_page p ftl _).mpr ⟨there, on⟩))
  have full := begun_full p regular ftl home prog sound ref unit.listed unit.begun
  have spent := sound.media.homes.spent ref (.inl full)
  have free := sound.media.pages.blank page owned (by rw [line]; omega)
  have markable := blank_markable p .normal regular ftl sound.media.counts page owned free
  rw [← line] at full spent
  have reserved : 0 < (ftl.lm.lines (getLine p page)).rpc := by
    rw [line] at spent ⊢
    omega
  have media := fill_sound p .normal regular ftl home prog _ sound.media (zoneToSlpn p zid + i) page map within unmapped owned
    (by rw [line]; omega) full reserved
  have tallies := fill_tally p ftl (zoneToSlpn p zid + i) page map markable within
  have table := fill_table p ftl (zoneToSlpn p zid + i) page map within markable
  rw [line] at media tallies spent
  have quiet := refine_map_gran_quiet p (zoneToSlpn p zid + i) .normal mapType (fillPage p ftl (zoneToSlpn p zid + i) page map)
  unfold updateOrReserveMapping at ran
  rw [updated] at ran
  have result := Except.ok.inj ran
  rw [← result] at roomy ⊢
  have same := media_maps _ _ quiet.media
  have mapped : ∀ other, Mapped p (fillPage p ftl (zoneToSlpn p zid + i) page map) other ↔ Mapped p ftl other ∨ other = zoneToSlpn p zid + i := by
    intro other
    rw [mapped_iff_on_page, mapped_iff_on_page]
    unfold OnPage
    rw [table]
    by_cases here : other = zoneToSlpn p zid + i
    · rw [if_pos here]
      exact iff_of_true ⟨page, here ▸ within, rfl⟩ (.inr here)
    · rw [if_neg here, or_iff_left here]
  refine ⟨home, Function.update prog ref (prog ref + 1), tlc_kept p _ _ quiet.media home _ roomy ⟨?_, media, ?_, ?_, sound.none, sound.host, ?_⟩, fun other => ?_⟩
  · exact (roomy_rules p regular.medium regular.numbering.inside).media _ _ quiet.media.symm roomy
  · intro other listed
    have ipc := congrArg (fun counts => counts.2.1) (tallies other)
    split at ipc
    · exact ipc.trans (sound.clean other listed)
    · exact ipc.trans (sound.clean other listed)
  · intro other listed
    have rpc := congrArg (fun counts => counts.2.2.1) (tallies other)
    by_cases here : other = ref
    · rw [if_pos here] at rpc
      right
      rw [here, Function.update_self]
      refine ⟨Nat.succ_pos _, ?_⟩
      rw [here] at rpc
      change ((fillPage p ftl (zoneToSlpn p zid + i) page map).lm.lines ref).rpc = (ftl.lm.lines ref).rpc - 1 at rpc
      rw [rpc]
      push_cast
      omega
    · rw [if_neg here] at rpc
      change ((fillPage p ftl (zoneToSlpn p zid + i) page map).lm.lines other).rpc = (ftl.lm.lines other).rpc at rpc
      rw [Function.update_of_ne here, rpc]
      exact sound.whole other listed
  · intro other otherInside
    by_cases here : other = zid
    · right
      rw [here]
      refine ⟨ref, unit.listed, ?_, ?_, ?_⟩
      · rw [Function.update_self]
        exact Nat.succ_pos _
      · intro j before
        rw [Function.update_self, sameProg] at before
        by_cases last : j = i
        · rw [last]
          refine ⟨page, ⟨within, ?_⟩, line, place⟩
          rw [table, if_pos rfl]
        · obtain ⟨there, on, spot⟩ := unit.filled j (by omega)
          refine ⟨there, ⟨on.1, ?_⟩, spot⟩
          rw [table, if_neg (by omega)]
          exact on.2
      · intro j past zoneBound
        rw [Function.update_self, sameProg] at past
        rw [table, if_neg (by omega)]
        exact unit.ahead j (by omega) zoneBound
    · have apart : ∀ j, j < p.zpp.pgsPerZone → zoneToSlpn p other + j ≠ zoneToSlpn p zid + i := fun j zoneBound samePage =>
        here (zone_lpn_apart p ns.space other j zid i bound zoneBound samePage).1
      rcases sound.units other otherInside with blank | ⟨otherRef, otherUnit⟩
      · left
        intro j zoneBound
        rw [mapped, or_iff_left (apart j zoneBound)]
        exact blank j zoneBound
      · right
        have refs : otherRef ≠ ref := by
          rintro rfl
          exact here (units_alone p ns regular ftl home prog sound zid other otherRef unit otherUnit)
        refine ⟨otherRef, unit_on_congr p ftl prog _ _ other otherRef otherUnit (Function.update_of_ne refs _ _) ?_
          (unit_prog_bound p ns ftl home prog sound otherRef otherUnit.listed)⟩
        intro j zoneBound
        rw [table, if_neg (apart j zoneBound)]
  · exact (same_maps_mapped p _ _ same other).trans (mapped other)

end Filling

end Tlc

end ConZone
