import ConZone.ZoneClear

set_option autoImplicit false

namespace ConZone

section Lines

variable (p : Params) (ns : TlcNamespace p) (regular : Regular p .normal)
variable (ftl : ZmsFtl) (home : LineRef → Home) (prog : LineRef → Nat) (sound : TlcSound p ftl home prog)

def lineOfZone (p : Params) (ftl : ZmsFtl) (zid : Nat) : LineRef :=
  match getMaptblEnt p ftl (zoneToSlpn p zid) with
  | .mapped page _ => getLine p page
  | _ => .line 0

theorem unit_line (zid : Nat) (ref : LineRef) (unit : UnitOn p ftl prog zid ref) : lineOfZone p ftl zid = ref := by
  obtain ⟨page, there, line, _⟩ := unit.filled 0 unit.begun
  obtain ⟨map, entry⟩ := on_page_entry p ftl _ page there
  rw [Nat.add_zero] at entry
  unfold lineOfZone
  rw [entry]
  exact line

include ns regular sound in
theorem begun_line_zone (ref : LineRef) (listed : ref ∈ lineRefs p) (begun : 0 < prog ref) :
    ∃ zid, zid < p.zpp.nrZones ∧ ¬ZoneBlank p ftl zid ∧ lineOfZone p ftl zid = ref := by
  obtain ⟨owned, line, place⟩ := first_page_regular p .normal regular ref listed
  have programmed := sound.media.pages.used _ owned (by rw [line, place]; exact begun)
  have kept := tlc_never_invalid p regular ftl home prog sound _ owned
  have valid : pageStatus ftl (getFirstPage p ref) = .valid := by
    cases status : pageStatus ftl (getFirstPage p ref) with
    | free => exact absurd status programmed
    | invalid => exact absurd status kept
    | valid => rfl
  obtain ⟨lpn, there⟩ := (sound.media.pages.valid _ owned).mp valid
  obtain ⟨zid, i, inside, bound, same⟩ := zone_lpn_of p ns.space lpn there.1
  rw [same] at there
  have mapped : Mapped p ftl (zoneToSlpn p zid + i) := (mapped_iff_on_page p ftl _).mpr ⟨_, there⟩
  obtain ⟨unit, _⟩ := page_on_line p ftl home prog sound zid inside i bound _ there
  exact ⟨zid, inside, fun blank => blank i bound mapped, (unit_line p ftl prog zid _ unit).trans line⟩

include sound in
theorem unspent_line (ref : LineRef) (listed : ref ∈ lineRefs p) (unspent : prog ref = 0) : home ref = .free ∨ home ref = .cur .wp := by
  have clean := sound.clean ref listed
  have homes := sound.media.homes
  cases there : home ref with
  | free => exact .inl rfl
  | full =>
      have positive := (homes.clean ref there).2
      omega
  | victim =>
      have dirty := homes.dirty ref (.inl there)
      omega
  | cur name =>
      rw [sound.host ref name there]
      exact .inr rfl
  | out => exact absurd there (sound.none ref)
  | beyond =>
      obtain ⟨_, _, housed⟩ := homes.housed
      exact absurd there ((housed.bound ref).mpr listed)

include ns regular sound in
-- There are as many lines as zones, and each line with programmed pages is one
-- zone's: two blank zones leave two lines.
theorem lines_left (many : p.zpp.nrZones ≤ (lineRefs p).length) (zid other : Nat) (inside : zid < p.zpp.nrZones) (otherInside : other < p.zpp.nrZones)
    (apart : zid ≠ other) (blank : ZoneBlank p ftl zid) (otherBlank : ZoneBlank p ftl other) :
    ∃ first second, first ≠ second ∧ home first = .free ∧ (home second = .free ∨ home second = .cur .wp) := by
  let begun := (lineRefs p).toFinset.filter fun ref => 0 < prog ref
  let rest := (lineRefs p).toFinset.filter fun ref => ¬0 < prog ref
  let zones := ((Finset.range p.zpp.nrZones).erase zid).erase other
  have covered : begun ⊆ zones.image (lineOfZone p ftl) := by
    intro ref member
    obtain ⟨listed, positive⟩ := Finset.mem_filter.mp member
    obtain ⟨owner, ownerInside, busy, line⟩ := begun_line_zone p ns regular ftl home prog sound ref (List.mem_toFinset.mp listed) positive
    refine Finset.mem_image.mpr ⟨owner, ?_, line⟩
    refine Finset.mem_erase.mpr ⟨?_, Finset.mem_erase.mpr ⟨?_, Finset.mem_range.mpr ownerInside⟩⟩
    · rintro rfl
      exact busy otherBlank
    · rintro rfl
      exact busy blank
  have few : begun.card ≤ p.zpp.nrZones - 2 := by
    refine (Finset.card_le_card covered).trans (Finset.card_image_le.trans (Nat.le_of_eq ?_))
    have member : other ∈ (Finset.range p.zpp.nrZones).erase zid := Finset.mem_erase.mpr ⟨apart.symm, Finset.mem_range.mpr otherInside⟩
    rw [Finset.card_erase_of_mem member, Finset.card_erase_of_mem (Finset.mem_range.mpr inside), Finset.card_range]
    omega
  have total : begun.card + rest.card = (lineRefs p).length := by
    rw [Finset.card_filter_add_card_filter_not, List.toFinset_card_of_nodup (line_refs_distinct p)]
  have two : 1 < rest.card := by omega
  obtain ⟨first, firstMember, second, secondMember, different⟩ := Finset.one_lt_card.mp two
  have spare : ∀ ref ∈ rest, home ref = .free ∨ home ref = .cur .wp := by
    intro ref member
    obtain ⟨listed, empty⟩ := Finset.mem_filter.mp member
    exact unspent_line p ftl home prog sound ref (List.mem_toFinset.mp listed) (by omega)
  rcases spare first firstMember with firstFree | firstCur
  · exact ⟨first, second, different, firstFree, spare second secondMember⟩
  · rcases spare second secondMember with secondFree | secondCur
    · exact ⟨second, first, different.symm, secondFree, .inr firstCur⟩
    · have pointed := (sound.media.homes.pointer .wp first).mp firstCur
      rw [(sound.media.homes.pointer .wp second).mp secondCur] at pointed
      exact absurd (Option.some.inj pointed).symm different

end Lines

section Writes

variable (p : Params) (ns : TlcNamespace p) (regular : Regular p .normal) (ftl : ZmsFtl)

include regular in
theorem tlc_gc_answers (resting : TlcResting p ftl) : Answered (foregroundGc p ftl .normal) := by
  unfold foregroundGc
  split
  · dsimp only
    split
    · exact ok_answers _
    · unfold doGc
      rw [tlc_no_victim p (setCreditsToRefill ftl .normal 0) (tlc_resting_kept p regular ftl _ rfl resting)]
      exact ok_answers _
  · exact ok_answers _

def Spared (p : Params) (ftl : ZmsFtl) (zid : Nat) : Prop := ∃ other, other < p.zpp.nrZones ∧ other ≠ zid ∧ ZoneBlank p ftl other

variable (many : p.zpp.nrZones ≤ (lineRefs p).length)
variable (zid i : Nat) (inside : zid < p.zpp.nrZones) (bound : i < p.zpp.pgsPerZone) (filled : ZoneFilled p ftl zid i) (spared : Spared p ftl zid)

include ns regular many inside bound filled spared in
theorem tlc_mapping_answers (home : LineRef → Home) (prog : LineRef → Nat) (sound : TlcSound p ftl home prog) :
    Answered (updateOrReserveMapping p ftl (zoneToSlpn p zid + i) .normal .userIo) := by
  by_cases first : i = 0
  · have blank : ZoneBlank p ftl zid := fun j within held => by
      have before := (filled j within).mp held
      omega
    obtain ⟨other, otherInside, apart, otherBlank⟩ := spared
    obtain ⟨one, another, different, free, room⟩ := lines_left p ns regular ftl home prog sound many zid other inside otherInside apart.symm blank
      otherBlank
    rw [first, Nat.add_zero, blank_zone_reserves p ns ftl home prog sound zid inside blank]
    exact tlc_reserve_answers p ns regular ftl home prog sound zid inside blank .userIo one another different free room
  · obtain ⟨ref, page, map, _, _, _, _, _, updated⟩ := tlc_fill_runs p ns regular ftl home prog sound zid i inside bound filled (by omega) .userIo
    unfold updateOrReserveMapping
    rw [updated]
    exact ok_answers _

include ns regular many inside bound filled spared in
theorem tlc_write_answers (start toWritePgs elpn : Nat) (resting : TlcResting p ftl) :
    Answered (nandWrite (foregroundGc p) p ftl start (zoneToSlpn p zid + i) .normal .userIo toWritePgs elpn) := by
  obtain ⟨home, prog, sound⟩ := resting
  refine bind_answers _ _ (tlc_mapping_answers p ns regular ftl many zid i inside bound filled spared home prog sound) fun written mapping => ?_
  obtain ⟨home', prog', after, _⟩ := tlc_mapping_sound p ns regular ftl home prog sound zid inside i bound filled written mapping
  dsimp only
  split
  · rename_i page map _
    split
    · exact ok_answers _
    · have below := program_page_lower p written start (zoneToSlpn p zid + i) .normal .userIo toWritePgs elpn page
      generalize programPage p written start (zoneToSlpn p zid + i) .normal .userIo toWritePgs elpn page = programmed at below
      obtain ⟨finish, middle⟩ := programmed
      dsimp only at below ⊢
      split
      · refine bind_answers _ _ ?_ fun refilled _ => ok_answers _
        unfold checkAndRefillWriteCredit
        split
        · refine bind_answers _ _ (tlc_gc_answers p regular _ ?_) fun collected _ => ok_answers _
          exact tlc_resting_kept p regular written _ (congrArg Prod.fst below) ⟨home', prog', after⟩
        · exact ok_answers _
      · exact ok_answers _
  · exact ok_answers _

end Writes

end ConZone
