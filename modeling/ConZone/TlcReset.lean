import ConZone.TlcReserve

set_option autoImplicit false

namespace ConZone

-- A full zone is being reset: its first pages have been dropped, the others
-- are still on its line.
structure Clearing (p : Params) (ftl : ZmsFtl) (home : LineRef → Home) (prog : LineRef → Nat) (zid : Nat) (ref : LineRef) (count : Nat) : Prop where
  roomy : Roomy p ftl
  media : MediaSound p .normal ftl home prog fun _ => 0
  listed : ref ∈ lineRefs p
  programmed : prog ref = p.zpp.pgsPerZone
  settled : (ftl.lm.lines ref).rpc = 0
  dropped : (ftl.lm.lines ref).ipc = count
  clean : ∀ other ∈ lineRefs p, other ≠ ref → (ftl.lm.lines other).ipc = 0
  whole : ∀ other ∈ lineRefs p, prog other = 0 ∧ (ftl.lm.lines other).rpc = 0 ∨
    0 < prog other ∧ (prog other : Int) + (ftl.lm.lines other).rpc = pgsPerLineOf p other
  none : ∀ other, home other ≠ .out
  host : ∀ other name, home other = .cur name → name = .wp
  gone : ∀ i, i < count → ¬Mapped p ftl (zoneToSlpn p zid + i)
  left : ∀ i, count ≤ i → i < p.zpp.pgsPerZone → ∃ page, OnPage p ftl (zoneToSlpn p zid + i) page ∧ getLine p page = ref
  units : ∀ other, other < p.zpp.nrZones → other ≠ zid → ZoneBlank p ftl other ∨ ∃ line, line ≠ ref ∧ UnitOn p ftl prog other line

section Tlc

variable (p : Params) (ns : TlcNamespace p) (regular : Regular p .normal)
variable (zid : Nat) (inside : zid < p.zpp.nrZones)

include ns regular inside in
theorem clearing_starts (ftl : ZmsFtl) (resting : TlcResting p ftl) (filled : ZoneFilled p ftl zid p.zpp.pgsPerZone) :
    ∃ home prog ref, Clearing p ftl home prog zid ref 0 := by
  obtain ⟨home, prog, sound⟩ := resting
  have positive := ns.space.some
  obtain ⟨ref, unit, programmed⟩ := unit_of_filled p ns ftl home prog sound zid p.zpp.pgsPerZone inside filled positive (Nat.le_refl _)
  have size := ns.unit ref unit.listed
  have full := begun_full p regular ftl home prog sound ref unit.listed unit.begun
  have spent := sound.media.homes.spent ref (.inl full)
  refine ⟨home, prog, ref, sound.roomy, sound.media, unit.listed, programmed, by omega, sound.clean ref unit.listed, fun other listed _ =>
    sound.clean other listed, sound.whole, sound.none, sound.host, fun i before => absurd before (Nat.not_lt_zero i), ?_, ?_⟩
  · intro i _ bound
    obtain ⟨page, there, line, _⟩ := unit.filled i (by omega)
    exact ⟨page, there, line⟩
  · intro other otherInside apart
    rcases sound.units other otherInside with blank | ⟨line, otherUnit⟩
    · exact .inl blank
    · refine .inr ⟨line, ?_, otherUnit⟩
      rintro rfl
      exact apart (units_alone p ns regular ftl home prog sound zid other line unit otherUnit)

theorem unit_on_kept (before after : ZmsFtl) (prog next : LineRef → Nat) (other : Nat) (line : LineRef) (unit : UnitOn p before prog other line)
    (same : next line = prog line) (onPage : ∀ i page, i < prog line → OnPage p before (zoneToSlpn p other + i) page →
      OnPage p after (zoneToSlpn p other + i) page)
    (ahead : ∀ i, i < p.zpp.pgsPerZone → barePpa (before.maptbl (zoneToSlpn p other + i)) = .rsv →
      barePpa (after.maptbl (zoneToSlpn p other + i)) = .rsv) : UnitOn p after next other line := by
  refine ⟨unit.listed, by rw [same]; exact unit.begun, ?_, ?_⟩
  · intro i bound
    rw [same] at bound
    obtain ⟨page, there, place⟩ := unit.filled i bound
    exact ⟨page, onPage i page bound there, place⟩
  · intro i past bound
    rw [same] at past
    exact ahead i bound (unit.ahead i past bound)

variable (ftl : ZmsFtl) (home : LineRef → Home) (prog : LineRef → Nat) (ref : LineRef) (count : Nat)
variable (clearing : Clearing p ftl home prog zid ref count)

include ns regular clearing in
theorem clearing_step (bound : count < p.zpp.pgsPerZone) : ∃ page map, getMaptblEnt p ftl (zoneToSlpn p zid + count) = .mapped page map ∧
    getLine p page = ref ∧ Clearing p (dropMapping p ftl (zoneToSlpn p zid + count) page) (dropHome home ref) prog zid ref (count + 1) := by
  obtain ⟨page, there, line⟩ := clearing.left count (Nat.le_refl _) bound
  obtain ⟨map, entry⟩ := on_page_entry p ftl _ page there
  have settled : (ftl.lm.lines (getLine p page)).rpc = 0 := by
    rw [line]
    exact clearing.settled
  have media := drop_sound p .normal regular ftl _ page prog there home clearing.media settled
  have onPage := drop_on_page p ftl (zoneToSlpn p zid + count) page
  have tallies := drop_tally p ftl (zoneToSlpn p zid + count) page
  rw [line] at media tallies
  have rpc : ∀ other, ((dropMapping p ftl (zoneToSlpn p zid + count) page).lm.lines other).rpc = (ftl.lm.lines other).rpc := by
    intro other
    have same := congrArg (fun counts => counts.2.2.1) (tallies other)
    split at same <;> exact same
  have table : ∀ other, other ≠ zoneToSlpn p zid + count →
      (dropMapping p ftl (zoneToSlpn p zid + count) page).maptbl other = ftl.maptbl other := by
    intro other apart
    rw [drop_mapping_table]
    exact Function.update_of_ne apart _ _
  refine ⟨page, map, entry, line, (roomy_rules p regular.medium regular.numbering.inside).drops ftl _ page map clearing.roomy entry, media,
    clearing.listed, clearing.programmed, (rpc ref).trans clearing.settled, ?_, ?_, ?_, ?_, ?_, ?_, ?_, ?_⟩
  · have same := congrArg (fun counts => counts.2.1) (tallies ref)
    rw [if_pos rfl] at same
    rw [show ((dropMapping p ftl (zoneToSlpn p zid + count) page).lm.lines ref).ipc = (ftl.lm.lines ref).ipc + 1 from same, clearing.dropped]
    rfl
  · intro other listed apart
    have same := congrArg (fun counts => counts.2.1) (tallies other)
    rw [if_neg apart] at same
    exact same.trans (clearing.clean other listed apart)
  · intro other listed
    rw [rpc]
    exact clearing.whole other listed
  · intro other out
    exact clearing.none other ((drop_home_iff home ref other .out (by decide) (by decide)).mp out)
  · intro other name there
    exact clearing.host other name ((drop_home_iff home ref other (.cur name) nofun nofun).mp there)
  · intro i before held
    rw [drop_mapping_mapped] at held
    exact clearing.gone i (by omega) held.1
  · intro i past zoneBound
    obtain ⟨other, on, otherLine⟩ := clearing.left i (by omega) zoneBound
    exact ⟨other, (onPage _ other).mpr ⟨by omega, on⟩, otherLine⟩
  · intro other otherInside apart
    have away : ∀ i, i < p.zpp.pgsPerZone → zoneToSlpn p other + i ≠ zoneToSlpn p zid + count := fun i zoneBound same =>
      apart (zone_lpn_apart p ns.space other i zid count bound zoneBound same).1
    rcases clearing.units other otherInside apart with blank | ⟨otherRef, refs, unit⟩
    · left
      intro i zoneBound held
      rw [drop_mapping_mapped] at held
      exact blank i zoneBound held.1
    · right
      have short : prog otherRef ≤ p.zpp.pgsPerZone := by
        have size := ns.unit otherRef unit.listed
        have reserved := (clearing.media.homes.reserved otherRef unit.listed).1
        rcases clearing.whole otherRef unit.listed with ⟨zero, _⟩ | ⟨_, all⟩ <;> omega
      refine ⟨otherRef, refs, unit_on_kept p ftl _ prog prog other otherRef unit rfl ?_ ?_⟩
      · intro i held before on
        exact (onPage _ held).mpr ⟨away i (by omega), on⟩
      · intro i zoneBound reserved
        rw [table _ (away i zoneBound)]
        exact reserved

include ns regular clearing in
theorem clearing_ends (all : count = p.zpp.pgsPerZone) :
    ∃ next, eraseLinkedLines p (linesBound p) ftl (some ref) = .ok next ∧ TlcResting p next := by
  have size := ns.unit ref clearing.listed
  have positive := ns.space.some
  have dropped := clearing.dropped
  have settled := clearing.settled
  have total := programmed_counts p .normal regular ftl prog clearing.media.pages ref clearing.listed (by rw [clearing.programmed, size])
  have vpc := clearing.media.counts.vpc ref clearing.listed
  have ipc := clearing.media.counts.ipc ref clearing.listed
  have programmed := clearing.programmed
  have invalid : invalidLine p ftl ref = true := by
    simp only [invalidLine, beq_iff_eq]
    omega
  have queued : home ref = .victim := by
    have homes := clearing.media.homes
    cases there : home ref with
    | victim => rfl
    | free =>
        have blank := (homes.empty ref there).1
        omega
    | full =>
        have clean := (homes.clean ref there).1
        omega
    | cur name =>
        obtain ⟨pointed, line, stands⟩ := homes.stands name ref there
        have place := owned_place p .normal regular _ pointed
        rw [line] at place
        omega
    | out => exact absurd there (clearing.none ref)
    | beyond =>
        obtain ⟨_, _, housed⟩ := homes.housed
        exact absurd there ((housed.bound ref).mpr clearing.listed)
  have freeable : Freeable ftl home ref .userIo := ⟨.inr ⟨queued, by decide⟩, by omega⟩
  have erased : eraseLinkedLines p (linesBound p) ftl (some ref) = .ok (eraseLine p ftl ref .userIo) := by
    unfold linesBound eraseLinkedLines
    dsimp only
    rw [clearing.media.homes.unlinked ref clearing.listed, if_pos invalid]
    generalize p.zpp.ttLines * (p.spp.blksPerLine + 1) = fuel
    cases fuel with
    | zero => rfl
    | succ fuel => rfl
  have known := line_refs_known p ref clearing.listed
  have idle := freeable_idle p .normal ftl home prog _ clearing.media ref .userIo freeable
  have tallies := erase_tally p ftl ref .userIo idle
  have maps := erase_line_maps p ftl ref .userIo
  refine ⟨_, erased, _, _, (roomy_rules p regular.medium regular.numbering.inside).erases ftl ref .userIo clearing.roomy known,
    erase_sound p .normal regular ftl home prog _ clearing.media ref .userIo freeable, ?_, ?_, ?_, ?_, ?_⟩
  · intro other listed
    have same := congrArg (fun counts => counts.2.1) (tallies other)
    by_cases here : other = ref
    · rw [if_pos here] at same
      exact same
    · rw [if_neg here] at same
      exact same.trans (clearing.clean other listed here)
  · intro other listed
    have same := congrArg (fun counts => counts.2.2.1) (tallies other)
    by_cases here : other = ref
    · left
      rw [if_pos here] at same
      exact ⟨by rw [here, Function.update_self], same⟩
    · rw [if_neg here] at same
      rw [Function.update_of_ne here, show ((eraseLine p ftl ref .userIo).lm.lines other).rpc = (ftl.lm.lines other).rpc from same]
      exact clearing.whole other listed
  · intro other
    by_cases here : other = ref
    · rw [here, Function.update_self]
      decide
    · rw [Function.update_of_ne here]
      exact clearing.none other
  · intro other name there
    by_cases here : other = ref
    · rw [here, Function.update_self] at there
      cases there
    · rw [Function.update_of_ne here] at there
      exact clearing.host other name there
  · intro other otherInside
    by_cases here : other = zid
    · left
      intro i bound held
      rw [same_maps_mapped p _ _ maps, here] at held
      exact clearing.gone i (by omega) held
    · rcases clearing.units other otherInside here with blank | ⟨line, apart, unit⟩
      · left
        intro i bound held
        rw [same_maps_mapped p _ _ maps] at held
        exact blank i bound held
      · right
        refine ⟨line, unit_on_kept p ftl _ prog _ other line unit (Function.update_of_ne apart _ _) ?_ ?_⟩
        · intro i page _ on
          exact (on_page_congr p ftl _ maps.table _ page).mpr on
        · intro i _ reserved
          rw [maps.table]
          exact reserved

include ns regular in
theorem clearing_runs (rest : Nat) (firstLine : Option LineRef) (ftl : ZmsFtl) (home : LineRef → Home) (prog : LineRef → Nat)
    (count : Nat) (clearing : Clearing p ftl home prog zid ref count) (remaining : count + (rest + 1) = p.zpp.pgsPerZone)
    (first : firstLine.getD ref = ref) :
    ∃ next, resetPages p ((List.range' count (rest + 1)).map fun i => zoneToSlpn p zid + i) ⟨ftl, firstLine, none⟩ = .ok next ∧
      TlcResting p next.ftl ∧ next.firstLine = none := by
  induction rest generalizing firstLine ftl home count with
  | zero =>
      obtain ⟨page, map, entry, line, after⟩ := clearing_step p ns regular zid ftl home prog ref count clearing (by omega)
      have all : count + 1 = p.zpp.pgsPerZone := by omega
      have size := ns.unit ref after.listed
      have dropped := after.dropped
      have settled := after.settled
      have trigger : (invalidLine p (dropMapping p ftl (zoneToSlpn p zid + count) page) ref &&
          ((dropMapping p ftl (zoneToSlpn p zid + count) page).lm.lines ref).rsvNextline == none) = true := by
        rw [after.media.homes.unlinked ref after.listed]
        simp only [invalidLine, Bool.and_eq_true, beq_iff_eq, and_true]
        push_cast at dropped
        omega
      obtain ⟨erased, erasing, rests⟩ := clearing_ends p ns regular zid _ _ prog ref (count + 1) after all
      refine ⟨⟨erased, none, none⟩, ?_, rests, rfl⟩
      rw [List.range'_succ, List.map_cons]
      unfold resetPages
      dsimp only
      rw [entry]
      unfold resetPage
      dsimp only
      rw [line, first, if_pos trigger, erasing]
      rfl
  | succ rest ih =>
      obtain ⟨page, map, entry, line, after⟩ := clearing_step p ns regular zid ftl home prog ref count clearing (by omega)
      have size := ns.unit ref after.listed
      have dropped := after.dropped
      have settled := after.settled
      have waits : ¬(invalidLine p (dropMapping p ftl (zoneToSlpn p zid + count) page) ref &&
          ((dropMapping p ftl (zoneToSlpn p zid + count) page).lm.lines ref).rsvNextline == none) = true := by
        simp only [invalidLine, Bool.and_eq_true, beq_iff_eq, not_and]
        push_cast at dropped
        omega
      obtain ⟨next, ran, rests⟩ := ih (some ref) _ _ (count + 1) after (by omega) rfl
      refine ⟨next, ?_, rests⟩
      rw [List.range'_succ, List.map_cons]
      unfold resetPages
      dsimp only
      rw [entry]
      unfold resetPage
      dsimp only
      rw [line, first, if_neg waits]
      exact ran

end Tlc

end ConZone
