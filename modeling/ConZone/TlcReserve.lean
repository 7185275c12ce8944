import ConZone.MediaPointers
import ConZone.TlcUnits

set_option autoImplicit false

namespace ConZone

section Tlc

variable (p : Params) (ns : TlcNamespace p) (regular : Regular p .normal)
variable (ftl : ZmsFtl) (home : LineRef → Home) (prog : LineRef → Nat)

section Looping

variable (name : WpName) (ioType : IoType) (cur : LineRef) (page : Page)

include regular in
-- A zone is one line, so the reservation passes all of it in one step.
theorem reserve_loop_passes (here : home cur = .cur (zmsGetWp ioType .normal)) (sound : MediaSound p .normal ftl home prog
      (Function.update (fun _ => 0) (zmsGetWp ioType .normal) 1))
    (listed : cur ∈ lineRefs p) (clean : (ftl.lm.lines cur).ipc = 0) (settled : (ftl.lm.lines cur).rpc = 0) (one : prog cur = 1)
    (stands : page = wpPage (ftl.wps (zmsGetWp ioType .normal))) :
    ∃ next, reserveLoop p ioType .normal (pgsPerLineOf p cur - 1) ⟨ftl, page, cur, cur, pgsPerLineOf p cur - 1⟩ = .ok next ∧
      ((next = ftl ∧ pgsPerLineOf p cur = 1) ∨
        ∃ last, OwnedPage p last ∧ getLine p last = cur ∧ placeIn p last = pgsPerLineOf p cur - 1 ∧
          next = passPages ftl (zmsGetWp ioType .normal) cur (pgsPerLineOf p cur - 1) last) := by
  have size := line_size_positive p .normal regular cur listed
  obtain ⟨owned, line, place⟩ := sound.homes.stands _ cur here
  rw [Function.update_self, one, settled] at place
  have programmed := programmed_counts p .normal regular ftl prog sound.pages cur listed (by omega)
  have vpc := sound.counts.vpc cur listed
  have ipc := sound.counts.ipc cur listed
  rw [← stands] at owned line place
  cases rest : pgsPerLineOf p cur - 1 with
  | zero => exact ⟨ftl, reserve_loop_done p ioType .normal 0 _ rfl, .inl ⟨rfl, by omega⟩⟩
  | succ fuel =>
      obtain ⟨last, walked, _⟩ := walk_in_line p regular.rows page owned (fuel + 1) (by
        rw [← regular.sizes.size page owned, line]
        omega)
      obtain ⟨lastOwned, lastLine, lastPlace⟩ := walk_place p regular.rows (fuel + 1) page last owned regular.medium walked
      have fast := advanced_ppa_walk p regular.rows.toWalkGeometry page (owned_digits p page owned) (fuel + 1)
      change _ = Walk.advance (lineStep p page) (fuel + 1) page at fast
      rw [walked] at fast
      have room : freeInLine p ftl cur = (fuel + 1 : Nat) := by
        unfold freeInLine
        rw [settled]
        omega
      have stepped : reserveStep p ioType .normal ⟨ftl, page, cur, cur, fuel + 1⟩ =
          .ok (⟨passPages ftl (zmsGetWp ioType .normal) cur (fuel + 1) last, last, cur, cur, 0⟩, true) := by
        unfold reserveStep
        dsimp only
        rw [room, if_neg (by omega)]
        unfold reserveInLine
        dsimp only
        rw [Int.toNat_natCast, Nat.min_self, fast, Nat.sub_self]
        rfl
      refine ⟨passPages ftl (zmsGetWp ioType .normal) cur (fuel + 1) last, ?_, .inr ⟨last, lastOwned, lastLine.trans line, by omega, rfl⟩⟩
      rw [reserve_loop_round p ioType .normal fuel _ _ (Nat.succ_ne_zero fuel) stepped]
      exact reserve_loop_done p ioType .normal fuel _ rfl

end Looping

-- What the reservation of a zone leaves: its first page is programmed, the
-- others wait on the same line. ahead is how far the pointers are behind.
structure Reserved (p : Params) (ftl next : ZmsFtl) (home : LineRef → Home) (prog : LineRef → Nat) (ahead : WpName → Nat) (zid : Nat)
    (cur : LineRef) (page : Page) : Prop where
  listed : cur ∈ lineRefs p
  fresh : prog cur = 0
  media : MediaSound p .normal next home (Function.update prog cur 1) ahead
  none : ∀ ref, home ref ≠ .out
  line : getLine p page = cur
  place : placeIn p page = 0
  ipc : ∀ ref, (next.lm.lines ref).ipc = (ftl.lm.lines ref).ipc
  rpc : ∀ ref, (next.lm.lines ref).rpc = if ref = cur then ((pgsPerLineOf p cur - 1 : Nat) : Int) else (ftl.lm.lines ref).rpc
  table : ∀ lpn, barePpa (next.maptbl lpn) = if lpn = zoneToSlpn p zid then .mapped page .pageMap
    else if zoneToSlpn p zid ≤ lpn ∧ lpn < zoneToSlpn p zid + p.zpp.pgsPerZone then .rsv else barePpa (ftl.maptbl lpn)

variable (sound : TlcSound p ftl home prog) (zid : Nat) (inside : zid < p.zpp.nrZones) (blank : ZoneBlank p ftl zid)

include blank in
theorem blank_unit (lpn : Nat) (first : zoneToSlpn p zid ≤ lpn) (past : lpn < zoneToSlpn p zid + p.zpp.pgsPerZone) (there : Page) :
    ¬OnPage p ftl lpn there := by
  intro on
  have mapped := (mapped_iff_on_page p ftl lpn).mpr ⟨there, on⟩
  rw [show lpn = zoneToSlpn p zid + (lpn - zoneToSlpn p zid) by omega] at mapped
  exact blank (lpn - zoneToSlpn p zid) (by omega) mapped

include ns inside in
theorem reserve_zone_unit : reserveUnit p ftl (zoneToSlpn p zid) p.zpp.pgsPerZone = .ok (reserveEntries ftl (zoneToSlpn p zid) p.zpp.pgsPerZone) := by
  have zonePages := ns.space.some
  have last := zone_lpn_inside p ns.space zid (p.zpp.pgsPerZone - 1) inside (by omega)
  unfold reserveUnit
  exact if_pos (by omega)

include ns regular sound inside blank in
theorem unit_passed (ioType : IoType) (page : Page) (opened : ZmsFtl)
    (taken : getNewPage p (reserveEntries ftl (zoneToSlpn p zid) p.zpp.pgsPerZone) ioType .normal = .ok (page, opened)) :
    ∃ home' cur passed, TakesFree (zmsGetWp ioType .normal) home home' ∧ home' cur = .cur (zmsGetWp ioType .normal) ∧
      reserveLoop p ioType .normal (p.zpp.pgsPerZone - 1)
        ⟨firstPageTaken p opened (zoneToSlpn p zid) .normal ioType page, page, getLine p page, getLine p page, p.zpp.pgsPerZone - 1⟩ = .ok passed ∧
      Reserved p ftl passed home' prog (Function.update (fun _ => 0) (zmsGetWp ioType .normal) 1) zid cur page := by
  have zonePages := ns.space.some
  have start : unitStart p (zoneToSlpn p zid) .normal = zoneToSlpn p zid := zone_unit_start p ns.space zid 0 inside zonePages
  have within := zone_lpn_inside p ns.space zid 0 inside zonePages
  rw [Nat.add_zero] at within
  have alone := blank_unit p ftl zid blank
  have entry := reserve_entries_sound p .normal ftl home prog _ sound.media (zoneToSlpn p zid) p.zpp.pgsPerZone alone
  obtain ⟨home', kept, ⟨cur, here⟩, same, takes, pages⟩ := opened_page p .normal regular _ home prog _ entry ioType opened page rfl taken
  have listed := pointed_listed p .normal regular opened home' prog _ kept _ cur here
  have size := line_size_positive p .normal regular cur listed
  have unit := ns.unit cur listed
  obtain ⟨owned, line, stands⟩ := kept.homes.stands _ cur here
  have place := owned_place p .normal regular _ owned
  rw [line] at place
  have rpcOpened : ∀ ref, (opened.lm.lines ref).rpc = (ftl.lm.lines ref).rpc :=
    same_rpc (reserveEntries ftl (zoneToSlpn p zid) p.zpp.pgsPerZone) opened pages
  have ipcOpened : ∀ ref, (opened.lm.lines ref).ipc = (ftl.lm.lines ref).ipc := fun ref =>
    congrArg (fun counts => counts.2.1) (pages.tallies ref)
  have fresh : prog cur = 0 ∧ (ftl.lm.lines cur).rpc = 0 := by
    rcases sound.whole cur listed with zero | ⟨_, all⟩
    · exact zero
    · rw [rpcOpened] at stands
      omega
  have settled : (opened.lm.lines cur).rpc = 0 := (rpcOpened cur).trans fresh.2
  obtain ⟨markable, spot, _⟩ := pointer_blank p .normal regular opened home' prog _ kept _ cur here rfl settled
  have absent : ∀ there, ¬OnPage p opened (zoneToSlpn p zid) there := fun there => by
    rw [same_on_page p _ opened pages, reserve_entries_on_page p ftl _ _ alone]
    exact alone _ (Nat.le_refl _) (by omega) there
  have assigned := assign_sound p .normal regular opened home' prog _ kept (zoneToSlpn p zid) .pageMap within absent _ cur here rfl settled
  have counted := (assign_lm p opened (zoneToSlpn p zid) (wpPage (opened.wps (zmsGetWp ioType .normal))) .pageMap within markable).1
  have pointers := (assign_lm p opened (zoneToSlpn p zid) (wpPage (opened.wps (zmsGetWp ioType .normal))) .pageMap within markable).2
  rw [← same] at assigned markable line spot counted pointers
  rw [fresh.1] at assigned spot
  have quiet := set_map_gran_quiet p (assignPage p opened (zoneToSlpn p zid) page .pageMap) .pageMap (zoneToSlpn p zid)
  have first : firstPageTaken p opened (zoneToSlpn p zid) .normal ioType page =
      setMapGran p (assignPage p opened (zoneToSlpn p zid) page .pageMap) .pageMap (zoneToSlpn p zid) := by
    unfold firstPageTaken
    rw [note_filled_line_dual p _ _ _ _ regular.dual, start]
    rfl
  have table := take_first_page_table p opened (zoneToSlpn p zid) page within
  rw [show takeFirstPage p opened (zoneToSlpn p zid) page =
    setMapGran p (assignPage p opened (zoneToSlpn p zid) page .pageMap) .pageMap (zoneToSlpn p zid) from rfl] at table
  have marked := media_kept p .normal _ _ quiet.media home' _ _ assigned
  have lm : (setMapGran p (assignPage p opened (zoneToSlpn p zid) page .pageMap) .pageMap (zoneToSlpn p zid)).lm = countValid opened.lm cur := by
    rw [← line]
    exact (congrArg MediaSide.lm quiet.media).trans counted
  have wps : (setMapGran p (assignPage p opened (zoneToSlpn p zid) page .pageMap) .pageMap (zoneToSlpn p zid)).wps = opened.wps :=
    (congrArg MediaSide.wps quiet.media).trans pointers
  have ipcMarked : ∀ ref, ((setMapGran p (assignPage p opened (zoneToSlpn p zid) page .pageMap) .pageMap (zoneToSlpn p zid)).lm.lines ref).ipc =
      (ftl.lm.lines ref).ipc := by
    intro ref
    rw [lm, ← ipcOpened]
    unfold countValid
    dsimp only
    by_cases equal : ref = cur
    · rw [equal, Function.update_self]
    · rw [Function.update_of_ne equal]
  have rpcMarked : ∀ ref, ((setMapGran p (assignPage p opened (zoneToSlpn p zid) page .pageMap) .pageMap (zoneToSlpn p zid)).lm.lines ref).rpc =
      (ftl.lm.lines ref).rpc := by
    intro ref
    rw [lm, ← rpcOpened]
    unfold countValid
    dsimp only
    by_cases equal : ref = cur
    · rw [equal, Function.update_self]
    · rw [Function.update_of_ne equal]
  have entered : ∀ lpn, barePpa ((setMapGran p (assignPage p opened (zoneToSlpn p zid) page .pageMap) .pageMap (zoneToSlpn p zid)).maptbl lpn) =
      if lpn = zoneToSlpn p zid then .mapped page .pageMap
      else if zoneToSlpn p zid ≤ lpn ∧ lpn < zoneToSlpn p zid + p.zpp.pgsPerZone then .rsv else barePpa (ftl.maptbl lpn) := by
    intro lpn
    rw [table, pages.maps.table]
    unfold reserveEntries
    dsimp only
    split
    · rfl
    · split <;> rfl
  have none : ∀ ref, home' ref ≠ .out := fun ref out => sound.none ref ((takes_free_out _ _ _ takes ref).mp out)
  rw [first, line, ← unit]
  obtain ⟨passed, ran, through⟩ := reserve_loop_passes p regular _ home' (Function.update prog cur 1) ioType cur page here marked listed
    ((ipcMarked cur).trans (sound.clean cur listed)) ((rpcMarked cur).trans fresh.2) (Function.update_self ..) (by rw [wps]; exact same)
  refine ⟨home', cur, passed, takes, here, ran, ?_⟩
  rcases through with ⟨still, single⟩ | ⟨lastEntry, endOwned, endLine, endPlace, through⟩
  · rw [still]
    refine ⟨listed, fresh.1, marked, none, line, spot, ipcMarked, fun ref => ?_, entered⟩
    rw [rpcMarked]
    split
    · rename_i equal
      rw [equal, fresh.2, single]
      rfl
    · rfl
  · rw [through]
    refine ⟨listed, fresh.1, ?_, none, line, spot, ?_, ?_, entered⟩
    · refine pass_sound p .normal _ home' _ _ marked _ cur here ((ipcMarked cur).trans (sound.clean cur listed)) lastEntry _ listed endOwned endLine ?_
      rw [endPlace, wps, ← same, spot, Nat.zero_add]
    · intro ref
      rw [← ipcMarked]
      unfold passPages updateWritePointer putWp putLine
      dsimp only
      by_cases equal : ref = cur
      · rw [equal, Function.update_self]
      · rw [Function.update_of_ne equal]
    · intro ref
      unfold passPages updateWritePointer putWp putLine
      dsimp only
      by_cases equal : ref = cur
      · rw [equal, Function.update_self, if_pos rfl]
        dsimp only
        rw [rpcMarked, fresh.2, Int.zero_add]
      · rw [Function.update_of_ne equal, if_neg equal, rpcMarked]

include ns regular sound inside blank in
theorem tlc_reserve_runs (ioType : IoType) (next : ZmsFtl) (ran : reserveMapping p ftl (zoneToSlpn p zid) .normal ioType = .ok next) :
    ∃ home' cur page, Reserved p ftl next home' prog (fun _ => 0) zid cur page := by
  obtain ⟨reserved, page, opened, looped, advanced, last, entries, taken, reserving, advancing, checked⟩ :=
    reserve_mapping_runs p ftl next (zoneToSlpn p zid) .normal ioType ran
  have start : unitStart p (zoneToSlpn p zid) .normal = zoneToSlpn p zid := zone_unit_start p ns.space zid 0 inside ns.space.some
  rw [tlc_unit_pgs] at reserving
  rw [start, tlc_unit_pgs, reserve_zone_unit p ns ftl zid inside] at entries
  rw [← Except.ok.inj entries] at taken
  obtain ⟨home', cur, passed, _, here, passing, unit⟩ := unit_passed p ns regular ftl home prog sound zid inside blank ioType page opened taken
  rw [reserving] at passing
  rw [← Except.ok.inj passing] at unit
  obtain ⟨home'', done, later, moved⟩ := advanced_sound p .normal regular looped home' _ _ unit.media ioType cur here advanced next last
    (Function.update_self ..) (by rw [Function.update_self]; omega) advancing checked
  rw [Function.update_idem, Function.update_eq_self] at done
  refine ⟨home'', cur, page, unit.listed, unit.fresh, done, fun ref out => unit.none ref ((later ref).mp out), unit.line, unit.place, ?_, ?_, ?_⟩
  · intro ref
    rw [← unit.ipc]
    exact congrArg (fun counts => counts.2.1) (moved.tallies ref)
  · intro ref
    rw [same_rpc looped next moved, unit.rpc]
  · intro lpn
    rw [moved.maps.table, unit.table]

include ns regular sound inside blank in
-- One of two lines a reservation asks for is for the zone, the other one is
-- where the write pointer goes next.
theorem tlc_reserve_answers (ioType : IoType) (first second : LineRef) (apart : first ≠ second) (free : home first = .free)
    (room : home second = .free ∨ home second = .cur (zmsGetWp ioType .normal)) :
    ∃ next, reserveMapping p ftl (zoneToSlpn p zid) .normal ioType = .ok next := by
  have start : unitStart p (zoneToSlpn p zid) .normal = zoneToSlpn p zid := zone_unit_start p ns.space zid 0 inside ns.space.some
  have entry := reserve_entries_sound p .normal ftl home prog _ sound.media (zoneToSlpn p zid) p.zpp.pgsPerZone (blank_unit p ftl zid blank)
  obtain ⟨page, opened, taken⟩ := page_runs p .normal _ home prog _ entry ioType first (.inl free)
  obtain ⟨home', cur, passed, takes, here, passing, unit⟩ := unit_passed p ns regular ftl home prog sound zid inside blank ioType page opened taken
  have left : ∃ spare, home' spare = .free := by
    have alone : ∀ ref, home' ref = .cur (zmsGetWp ioType .normal) → ref = cur := by
      intro ref there
      have pointed := (unit.media.homes.pointer _ ref).mp there
      rw [(unit.media.homes.pointer _ cur).mp here] at pointed
      exact (Option.some.inj pointed).symm
    rcases takes first with same | ⟨_, firstHere⟩
    · exact ⟨first, same.trans free⟩
    · refine ⟨second, ?_⟩
      have away : home' second ≠ .cur (zmsGetWp ioType .normal) := fun there => apart ((alone first firstHere).trans (alone second there).symm)
      rcases takes second with same | ⟨_, secondHere⟩
      · rcases room with secondFree | pointed
        · exact same.trans secondFree
        · exact absurd (same.trans pointed) away
      · exact absurd secondHere away
  obtain ⟨spare, spareFree⟩ := left
  obtain ⟨advanced, last, next, advancing, checked⟩ := advanced_runs p .normal regular passed home' _ _ unit.media ioType cur here
    (Function.update_self ..) (by rw [Function.update_self]; omega) spare spareFree
  refine ⟨next, ?_⟩
  change (reserveUnit p ftl (unitStart p (zoneToSlpn p zid) .normal) (unitPgs p .normal) >>= _) = _
  rw [start, tlc_unit_pgs, reserve_zone_unit p ns ftl zid inside]
  change (getNewPage p _ ioType .normal >>= _) = _
  rw [taken]
  change (reserveLoop p ioType .normal (p.zpp.pgsPerZone - 1)
    ⟨firstPageTaken p opened (zoneToSlpn p zid) .normal ioType page, page, getLine p page, getLine p page, p.zpp.pgsPerZone - 1⟩ >>= _) = _
  rw [passing]
  change (advanceWritePointer p passed ioType .normal >>= _) = _
  rw [advancing]
  change (getNewPage p advanced ioType .normal >>= _) = _
  rw [checked]
  rfl

include ns sound inside blank in
theorem blank_zone_reserves : updateOrReserveMapping p ftl (zoneToSlpn p zid) .normal .userIo =
    reserveMapping p ftl (zoneToSlpn p zid) .normal .userIo := by
  have zonePages := ns.space.some
  have start : unitStart p (zoneToSlpn p zid) .normal = zoneToSlpn p zid := zone_unit_start p ns.space zid 0 inside zonePages
  have unmapped : ¬Mapped p ftl (zoneToSlpn p zid) := blank 0 zonePages
  have failed : updateMappingIfReserved p ftl (zoneToSlpn p zid) .normal .userIo = none := by
    change getGranularityStartLpn p _ (getMappingGranularity .normal) = _ at start
    unfold updateMappingIfReserved getPrevPpa
    rw [start]
    dsimp only
    rw [if_pos rfl]
    unfold Mapped at unmapped
    cases entry : getMaptblEnt p ftl (zoneToSlpn p zid) with
    | mapped page map =>
        rw [entry] at unmapped
        exact absurd rfl unmapped
    | unmapped => rfl
    | rsv => rfl
  unfold updateOrReserveMapping
  rw [failed]
  dsimp only
  rw [any_full_loc ftl .normal sound.roomy.clear, if_neg Bool.false_ne_true]

include ns regular sound inside blank in
theorem tlc_reserve_sound (next : ZmsFtl) (ran : updateOrReserveMapping p ftl (zoneToSlpn p zid) .normal .userIo = .ok next) :
    ∃ home' prog', TlcSound p next home' prog' ∧ ∀ other, Mapped p next other ↔ Mapped p ftl other ∨ other = zoneToSlpn p zid := by
  have roomy := (roomy_rules p regular.medium regular.numbering.inside).maps ftl next _ .normal .userIo sound.roomy ran
  have zonePages := ns.space.some
  have within := zone_lpn_inside p ns.space zid 0 inside zonePages
  rw [Nat.add_zero] at within
  have others := update_or_reserve_others p .userIo .normal ftl next (zoneToSlpn p zid) ran
  rw [blank_zone_reserves p ns ftl home prog sound zid inside blank] at ran
  obtain ⟨home', cur, page, done⟩ := tlc_reserve_runs p ns regular ftl home prog sound zid inside blank .userIo next ran
  have size := ns.unit cur done.listed
  have outside : ∀ other j, other ≠ zid → j < p.zpp.pgsPerZone →
      barePpa (next.maptbl (zoneToSlpn p other + j)) = barePpa (ftl.maptbl (zoneToSlpn p other + j)) := by
    intro other j apart bound
    have away : ∀ k, k < p.zpp.pgsPerZone → zoneToSlpn p other + j ≠ zoneToSlpn p zid + k := fun k zoneBound same =>
      apart (zone_lpn_apart p ns.space other j zid k zoneBound bound same).1
    have first := away 0 zonePages
    rw [Nat.add_zero] at first
    rw [done.table, if_neg first, if_neg]
    rintro ⟨lower, upper⟩
    exact away (zoneToSlpn p other + j - zoneToSlpn p zid) (by omega) (by omega)
  have entries : ∀ j, 0 < j → j < p.zpp.pgsPerZone → barePpa (next.maptbl (zoneToSlpn p zid + j)) = .rsv := by
    intro j positive bound
    rw [done.table, if_neg (by omega), if_pos ⟨by omega, by omega⟩]
  refine ⟨home', _, ⟨roomy, done.media, ?_, ?_, done.none, ?_, ?_⟩, ?_⟩
  · intro ref listed
    rw [done.ipc]
    exact sound.clean ref listed
  · intro ref listed
    rw [done.rpc]
    by_cases here : ref = cur
    · right
      rw [here, Function.update_self, if_pos rfl]
      refine ⟨Nat.one_pos, ?_⟩
      rw [size]
      push_cast
      omega
    · rw [Function.update_of_ne here, if_neg here]
      exact sound.whole ref listed
  · intro ref name there
    by_contra apart
    have pointed := (done.media.homes.pointer name ref).mp there
    have kept := congrFun others name
    unfold otherWps at kept
    rw [if_neg (show name ≠ zmsGetWp .userIo .normal from apart), if_neg (show name ≠ zmsGetWp .userIo .normal from apart)] at kept
    rw [Option.some.inj kept, ← sound.media.homes.pointer name ref] at pointed
    exact apart (sound.host ref name pointed)
  · intro other otherInside
    by_cases here : other = zid
    · right
      rw [here]
      refine ⟨cur, done.listed, by rw [Function.update_self]; exact Nat.one_pos, ?_, ?_⟩
      · intro j before
        rw [Function.update_self] at before
        refine ⟨page, ⟨?_, ?_⟩, done.line, by rw [done.place]; omega⟩
        · rw [show j = 0 by omega]
          exact within
        · rw [show zoneToSlpn p zid + j = zoneToSlpn p zid by omega, done.table, if_pos rfl]
      · intro j past bound
        rw [Function.update_self] at past
        exact entries j (by omega) bound
    · rcases sound.units other otherInside with otherBlank | ⟨ref, unit⟩
      · left
        intro j bound
        have zoneInside := zone_lpn_inside p ns.space other j otherInside bound
        have before := otherBlank j bound
        unfold Mapped getMaptblEnt at before ⊢
        rw [if_pos zoneInside] at before ⊢
        rw [← mapped_bare, outside other j here bound, mapped_bare]
        exact before
      · right
        have apart : ref ≠ cur := by
          rintro rfl
          have begun := unit.begun
          rw [done.fresh] at begun
          exact Nat.lt_irrefl 0 begun
        exact ⟨ref, unit_on_congr p ftl prog next _ other ref unit (Function.update_of_ne apart _ _) (fun j bound => outside other j here bound)
          (unit_prog_bound p ns ftl home prog sound ref unit.listed)⟩
  · intro other
    by_cases here : other = zoneToSlpn p zid
    · rw [here]
      refine iff_of_true ?_ (.inr rfl)
      rw [mapped_iff_on_page]
      exact ⟨page, within, by rw [done.table, if_pos rfl]⟩
    · rw [or_iff_left here, mapped_iff_on_page, mapped_iff_on_page]
      refine exists_congr fun there => ?_
      unfold OnPage
      rw [done.table, if_neg here]
      split
      · rename_i zoneBound
        refine iff_of_false (fun on => nomatch on.2) fun on => ?_
        have mapped := (mapped_iff_on_page p ftl other).mpr ⟨there, on⟩
        rw [show other = zoneToSlpn p zid + (other - zoneToSlpn p zid) by omega] at mapped
        exact blank (other - zoneToSlpn p zid) (by omega) mapped
      · rfl

-- Nothing but the reset of a zone makes a page of a TLC namespace invalid, and
-- that erases the line: there is never a line to collect.
def TlcResting (p : Params) (ftl : ZmsFtl) : Prop := ∃ home prog, TlcSound p ftl home prog

include regular in
theorem tlc_resting_kept (before after : ZmsFtl) (media : mediaSide after = mediaSide before) (resting : TlcResting p before) :
    TlcResting p after := by
  obtain ⟨home, prog, sound⟩ := resting
  exact ⟨home, prog, tlc_kept p before after media home prog
    ((roomy_rules p regular.medium regular.numbering.inside).media before after media sound.roomy) sound⟩

theorem tlc_no_victim (resting : TlcResting p ftl) (force : Bool) : selectVictimLine p ftl force .normal = none := by
  obtain ⟨home, prog, sound⟩ := resting
  obtain ⟨free, full, housed⟩ := sound.media.homes.housed
  have empty : {ref | home ref = homeLabels.queue} = ∅ := by
    ext ref
    refine iff_of_false (fun queued => ?_) nofun
    have dirty := sound.media.homes.dirty ref (.inl queued)
    have listed := housed_known p .normal ftl.lm home free full housed ref .victim queued (by decide)
    have clean := sound.clean ref listed
    omega
  have peeked := (IndexedHeap.peek_none _ _ housed.stored.queued).mpr empty
  unfold selectVictimLine
  rw [peeked]

include regular in
theorem tlc_foreground_gc_sound (next : ZmsFtl) (resting : TlcResting p ftl) (ran : foregroundGc p ftl .normal = .ok next) :
    lowerSide next = lowerSide ftl := by
  unfold foregroundGc at ran
  split at ran
  · dsimp only at ran
    split at ran
    · rw [← Except.ok.inj ran]
      rfl
    · unfold doGc at ran
      rw [tlc_no_victim p (setCreditsToRefill ftl .normal 0) (tlc_resting_kept p regular ftl _ rfl resting)] at ran
      rw [← Except.ok.inj ran]
      rfl
  · rw [← Except.ok.inj ran]
    rfl

include ns regular sound inside in
theorem tlc_mapping_sound (i : Nat) (bound : i < p.zpp.pgsPerZone) (filled : ZoneFilled p ftl zid i) (written : ZmsFtl)
    (mapping : updateOrReserveMapping p ftl (zoneToSlpn p zid + i) .normal .userIo = .ok written) :
    ∃ home' prog', TlcSound p written home' prog' ∧ ∀ other, Mapped p written other ↔ Mapped p ftl other ∨ other = zoneToSlpn p zid + i := by
  by_cases first : i = 0
  · rw [first, Nat.add_zero] at mapping ⊢
    refine tlc_reserve_sound p ns regular ftl home prog sound zid inside (fun j within held => ?_) written mapping
    have before := (filled j within).mp held
    omega
  · exact tlc_fill_sound p ns regular ftl home prog sound zid i inside bound filled (by omega) .userIo written mapping

include ns regular in
theorem tlc_user_write_sound (next : ZmsFtl) (start toWritePgs elpn time zid i : Nat) (inside : zid < p.zpp.nrZones) (bound : i < p.zpp.pgsPerZone)
    (filled : ZoneFilled p ftl zid i) (resting : TlcResting p ftl)
    (ran : nandWrite (foregroundGc p) p ftl start (zoneToSlpn p zid + i) .normal .userIo toWritePgs elpn = .ok (time, next)) :
    TlcResting p next ∧ (∀ other, Mapped p next other ↔ Mapped p ftl other ∨ other = zoneToSlpn p zid + i) ∧
      next.zoneAggLpns = ftl.zoneAggLpns := by
  obtain ⟨written, mapping, wrote⟩ := nand_write_runs (foregroundGc p) p ftl next start _ .normal .userIo toWritePgs elpn time ran
  have aggs : written.zoneAggLpns = ftl.zoneAggLpns := gathered_aggs _ _ (update_or_reserve_gathered p ftl written _ .normal .userIo mapping)
  obtain ⟨home, prog, sound⟩ := resting
  obtain ⟨home', prog', after, mapped⟩ := tlc_mapping_sound p ns regular ftl home prog sound zid inside i bound filled written mapping
  have below : lowerSide next = lowerSide written := by
    rcases wrote.settled with same | ⟨paid, collected, paidBelow, collecting, same⟩
    · exact same
    · have rests := tlc_resting_kept p regular written paid (congrArg Prod.fst paidBelow) ⟨home', prog', after⟩
      exact same.trans ((tlc_foreground_gc_sound p regular paid collected rests collecting).trans paidBelow)
  have media : mediaSide next = mediaSide written := congrArg Prod.fst below
  refine ⟨tlc_resting_kept p regular written next media ⟨home', prog', after⟩, fun other => ?_, (congrArg Prod.snd below).trans aggs⟩
  rw [same_maps_mapped p written next (media_maps written next media), mapped]

end Tlc

end ConZone
