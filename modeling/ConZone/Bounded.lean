import ConZone.Erase
import ConZone.ZoneAccount

set_option autoImplicit false

namespace ConZone

structure OwnedPage (p : Params) (page : Page) : Prop where
  block : OwnedBlock p page.block
  pg : page.pg < usedPgs p.spp page.blk

def KnownRef (p : Params) (ref : LineRef) : Prop := topId ref < p.zpp.ttLines

def KnownNode (p : Params) : ListNode → Prop
  | .line ref => KnownRef p ref
  | _ => True

section Pages

variable (p : Params) (medium : Medium p)

include medium in
theorem first_page_owned (ref : LineRef) (known : KnownRef p ref) : OwnedPage p (getFirstPage p ref) := by
  have geometry := medium.geometry
  have group := Nat.mod_lt (topId ref) geometry.groups
  obtain ⟨first, last⟩ := line_blk_range p medium.toWholeRows (topId ref) known
  cases ref with
  | line id =>
      rw [get_first_page_line p geometry.toGroupRows]
      refine ⟨⟨geometry.channels, ?_, geometry.planes, first, last⟩, medium.used _ first last⟩
      rw [geometry.luns]
      exact Nat.mul_lt_mul_of_pos_right group geometry.rows
  | sub parent id =>
      rw [get_first_page_sub p geometry.toGroupRows]
      have dies : 0 < lunsPerGroup p.spp := by
        rw [geometry.group]
        exact Nat.mul_pos geometry.rows geometry.channels
      have die := Nat.mod_lt id dies
      have row : id % lunsPerGroup p.spp / p.spp.nchs < rowsPerLine p.spp := by
        have size := geometry.group
        rw [size] at die ⊢
        exact Radix.digit_bound _ _ _ die
      refine ⟨⟨Nat.mod_lt _ geometry.channels, ?_, Nat.mod_lt _ geometry.planes, first, last⟩, medium.used _ first last⟩
      rw [geometry.luns]
      exact Radix.pair_bound _ _ _ _ group row

include medium in
theorem get_line_known (page : Page) (owned : OwnedPage p page) : KnownRef p (getLine p page) := by
  have geometry := medium.geometry
  have lun := lun_group_bound p geometry page.block.plane.lun owned.block.lun
  have first := owned.block.first
  have last := owned.block.last
  have bound : lmidOf p page.block < p.zpp.ttLines := by
    rw [medium.lines]
    exact Radix.pair_bound _ _ _ _ (by omega) lun
  have line := get_line_of_block p geometry.toGroupRows page.block page.pg owned.block.ch
  have same : getLine p ⟨page.block, page.pg⟩ = getLine p page := rfl
  unfold KnownRef
  rw [← same, line]
  split
  · exact bound
  · exact bound

include medium in
theorem whole_flashpg_bound (page : Page) (owned : OwnedPage p page) (inner : (page.pg + 1) % p.spp.pgsPerFlashpg ≠ 0) :
    page.pg + 1 < usedPgs p.spp page.blk := by
  have whole := medium.flashpgs page.blk owned.block.first owned.block.last
  have below := owned.pg
  rcases Nat.lt_or_eq_of_le below with inside | atEnd
  · exact inside
  · rw [← atEnd] at whole
    exact absurd (Nat.mod_eq_zero_of_dvd whole) inner

include medium in
theorem nextpage_interleave_owned (page next : Page) (owned : OwnedPage p page) (ran : nextpageInterleave p page = some next) :
    OwnedPage p next := by
  have geometry := medium.geometry
  obtain ⟨⟨ch, lun, pl, first, last⟩, pg⟩ := owned
  have owned : OwnedPage p page := ⟨⟨ch, lun, pl, first, last⟩, pg⟩
  have base : page.lun / rowsPerLine p.spp * rowsPerLine p.spp + rowsPerLine p.spp ≤ p.spp.lunsPerCh := by
    have group := lun_group_bound p geometry page.block.plane.lun lun
    rw [geometry.luns, ← Nat.succ_mul]
    exact Nat.mul_le_mul_right _ group
  have row := Nat.mod_lt page.lun geometry.rows
  have split := Radix.digits page.lun (rowsPerLine p.spp)
  unfold nextpageInterleave at ran
  dsimp only at ran
  split at ran
  · rename_i inner
    rw [← Option.some.inj ran]
    exact ⟨⟨ch, lun, pl, first, last⟩, whole_flashpg_bound p medium page owned inner⟩
  · rename_i carry
    have back : page.pg + 1 - p.spp.pgsPerFlashpg < usedPgs p.spp page.blk := by
      have flash := medium.flash
      omega
    split at ran
    · rename_i plane
      rw [← Option.some.inj ran]
      refine ⟨⟨ch, lun, ?_, first, last⟩, back⟩
      change page.pl + 1 < p.spp.plsPerLun
      change page.pl < p.spp.plsPerLun at pl
      omega
    · split at ran
      · rename_i channel
        rw [← Option.some.inj ran]
        refine ⟨⟨?_, lun, geometry.planes, first, last⟩, back⟩
        change page.ch + 1 < p.spp.nchs
        change page.ch < p.spp.nchs at ch
        omega
      · split at ran
        · rename_i inRows
          rw [← Option.some.inj ran]
          refine ⟨⟨geometry.channels, ?_, geometry.planes, first, last⟩, back⟩
          change page.lun + 1 < p.spp.lunsPerCh
          omega
        · split at ran
          · rename_i unused
            rw [← Option.some.inj ran]
            refine ⟨⟨geometry.channels, ?_, geometry.planes, first, last⟩, ?_⟩
            · change page.lun / rowsPerLine p.spp * rowsPerLine p.spp < p.spp.lunsPerCh
              have rows := geometry.rows
              omega
            · change page.pg + 1 - p.spp.pgsPerFlashpg + p.spp.pgsPerFlashpg < usedPgs p.spp page.blk
              have whole : p.spp.pgsPerFlashpg ≤ page.pg + 1 := by
                have divides : p.spp.pgsPerFlashpg ∣ page.pg + 1 := Nat.dvd_of_mod_eq_zero (by simpa using carry)
                exact Nat.le_of_dvd (by omega) divides
              omega
          · cases ran

theorem nextpage_normal_owned (page next : Page) (owned : OwnedPage p page) (ran : nextpageNormal p page = some next) :
    OwnedPage p next := by
  obtain ⟨⟨ch, lun, pl, first, last⟩, pg⟩ := owned
  unfold nextpageNormal at ran
  split at ran
  · rw [← Option.some.inj ran]
    refine ⟨⟨ch, lun, pl, first, last⟩, ?_⟩
    change page.pg + 1 < usedPgs p.spp page.blk
    omega
  · cases ran

include medium in
theorem nextpage_in_line_owned (page next : Page) (superblock : Bool) (owned : OwnedPage p page)
    (ran : (if superblock then nextpageInterleave p page else nextpageNormal p page) = some next) : OwnedPage p next := by
  cases superblock with
  | true => exact nextpage_interleave_owned p medium page next owned ran
  | false => exact nextpage_normal_owned p page next owned ran

include medium in
theorem advanced_owned (page next : Page) (steps : Nat) (owned : OwnedPage p page)
    (ran : getAdvancedPpaFast p page steps = some next) : OwnedPage p next := by
  have geometry := medium.geometry
  obtain ⟨⟨ch, lun, pl, first, last⟩, pg⟩ := owned
  have base : page.lun / rowsPerLine p.spp * rowsPerLine p.spp + rowsPerLine p.spp ≤ p.spp.lunsPerCh := by
    have group := lun_group_bound p geometry page.block.plane.lun lun
    rw [geometry.luns, ← Nat.succ_mul]
    exact Nat.mul_le_mul_right _ group
  unfold getAdvancedPpaFast at ran
  split at ran
  · rw [← Option.some.inj ran]
    exact ⟨⟨ch, lun, pl, first, last⟩, pg⟩
  · split at ran
    · split at ran
      · cases ran
      · rename_i inside
        rw [← Option.some.inj ran]
        exact ⟨⟨ch, lun, pl, first, last⟩, Nat.lt_of_not_le inside⟩
    · dsimp only at ran
      generalize total : (page.pg % p.spp.pgsPerFlashpg + page.pl * p.spp.pgsPerFlashpg
        + page.ch * p.spp.plsPerLun * p.spp.pgsPerFlashpg
        + (page.lun - page.lun / rowsPerLine p.spp * rowsPerLine p.spp) * p.spp.nchs * p.spp.plsPerLun * p.spp.pgsPerFlashpg
        + steps) = count at ran
      split at ran
      · cases ran
      · split at ran
        · cases ran
        · rename_i inside
          rw [← Option.some.inj ran]
          have stripe : 0 < p.spp.pgsPerFlashpg * p.spp.plsPerLun * p.spp.nchs * rowsPerLine p.spp :=
            Nat.mul_pos (Nat.mul_pos (Nat.mul_pos medium.flash geometry.planes) geometry.channels) geometry.rows
          have rest := Nat.mod_lt count stripe
          generalize count % (p.spp.pgsPerFlashpg * p.spp.plsPerLun * p.spp.nchs * rowsPerLine p.spp) = rem at rest inside ⊢
          have row : rem / p.spp.pgsPerFlashpg / p.spp.plsPerLun / p.spp.nchs < rowsPerLine p.spp := by
            rw [Nat.div_div_eq_div_mul, Nat.div_div_eq_div_mul]
            exact Nat.div_lt_of_lt_mul (by simpa only [Nat.mul_assoc] using rest)
          refine ⟨⟨Nat.mod_lt _ geometry.channels, ?_, Nat.mod_lt _ geometry.planes, first, last⟩, Nat.lt_of_not_le inside⟩
          change page.lun / rowsPerLine p.spp * rowsPerLine p.spp + rem / p.spp.pgsPerFlashpg / p.spp.plsPerLun / p.spp.nchs
            < p.spp.lunsPerCh
          omega

end Pages

section Containers

variable (p : Params)

structure BoundedLines (lm : LineMgmt) : Prop where
  links : IntrusiveList.ClosedUnder (KnownNode p) lm.links
  victims : ∀ loc slot, KnownRef p ((lm.victimLinePq loc).d slot)
  nexts : ∀ ref next, (lm.lines ref).rsvNextline = some next → KnownRef p next

theorem put_lines_bounded (lm : LineMgmt) (lines : LineRef → Line) (bounded : BoundedLines p lm)
    (nexts : ∀ ref next, (lines ref).rsvNextline = some next → KnownRef p next) : BoundedLines p { lm with lines := lines } :=
  ⟨bounded.links, bounded.victims, nexts⟩

theorem update_line_bounded (lm : LineMgmt) (ref : LineRef) (line : Line) (bounded : BoundedLines p lm)
    (known : ∀ next, line.rsvNextline = some next → KnownRef p next) :
    BoundedLines p { lm with lines := Function.update lm.lines ref line } := by
  refine put_lines_bounded p lm _ bounded ?_
  intro other next linked
  by_cases same : other = ref
  · rw [same, Function.update_self] at linked
    exact known next linked
  · rw [Function.update_of_ne same] at linked
    exact bounded.nexts other next linked

theorem put_victim_heap_bounded (lm : LineMgmt) (loc : Loc) (heap : IndexedHeap.Heap LineRef) (bounded : BoundedLines p lm)
    (slots : IndexedHeap.AllSlots (KnownRef p) heap) : BoundedLines p (putVictimHeap lm loc heap) := by
  refine ⟨bounded.links, ?_, fun ref next linked => bounded.nexts ref next linked⟩
  intro other slot
  unfold putVictimHeap
  dsimp only
  by_cases same : other = loc
  · rw [same, Function.update_self]
    exact slots slot
  · rw [Function.update_of_ne same]
    exact bounded.victims other slot

theorem victim_heap_slots (lm : LineMgmt) (loc : Loc) (bounded : BoundedLines p lm) :
    IndexedHeap.AllSlots (KnownRef p) (victimHeap lm loc) := bounded.victims loc

theorem insert_victim_bounded (lm : LineMgmt) (loc : Loc) (ref : LineRef) (bounded : BoundedLines p lm) (known : KnownRef p ref) :
    BoundedLines p (insertVictim lm loc ref) := by
  have placed := put_victim_heap_bounded p lm loc _ bounded
    (IndexedHeap.insert_slots (KnownRef p) (victimPri lm) _ ref (victim_heap_slots p lm loc bounded) known)
  exact ⟨placed.links, placed.victims, placed.nexts⟩

theorem add_full_bounded (lm : LineMgmt) (loc : Loc) (ref : LineRef) (bounded : BoundedLines p lm) (known : KnownRef p ref) :
    BoundedLines p (addFull lm loc ref) :=
  ⟨IntrusiveList.add_tail_closed (KnownNode p) _ _ _ bounded.links known trivial, bounded.victims, bounded.nexts⟩

theorem add_free_bounded (lm : LineMgmt) (loc : Loc) (ref : LineRef) (bounded : BoundedLines p lm) (known : KnownRef p ref) :
    BoundedLines p (addFree lm loc ref) :=
  ⟨IntrusiveList.add_tail_closed (KnownNode p) _ _ _ bounded.links known trivial, bounded.victims, bounded.nexts⟩

theorem del_full_bounded (lm : LineMgmt) (loc : Loc) (ref : LineRef) (bounded : BoundedLines p lm) (known : KnownRef p ref) :
    BoundedLines p (delFull lm loc ref) :=
  ⟨IntrusiveList.del_init_closed (KnownNode p) _ _ bounded.links known, bounded.victims, bounded.nexts⟩

theorem del_free_bounded (lm : LineMgmt) (loc : Loc) (ref : LineRef) (bounded : BoundedLines p lm) (known : KnownRef p ref) :
    BoundedLines p (delFree lm loc ref) :=
  ⟨IntrusiveList.del_init_closed (KnownNode p) _ _ bounded.links known, bounded.victims, bounded.nexts⟩

theorem retire_curline_bounded (lm : LineMgmt) (loc : Loc) (cur : LineRef) (bounded : BoundedLines p lm) (known : KnownRef p cur) :
    BoundedLines p (retireCurline p lm loc cur) := by
  unfold retireCurline
  split
  · exact add_full_bounded p lm loc cur bounded known
  · exact insert_victim_bounded p lm loc cur bounded known

theorem dec_vpc_bounded (lm : LineMgmt) (loc : Loc) (ref : LineRef) (bounded : BoundedLines p lm) :
    BoundedLines p (decVpc lm loc ref) := by
  unfold decVpc
  dsimp only
  split
  · have placed := put_victim_heap_bounded p lm loc _ bounded
      (IndexedHeap.change_priority_slots (KnownRef p) (victimPri lm) _ (((lm.lines ref).vpc - 1) % 2 ^ 64).toNat ref
        (victim_heap_slots p lm loc bounded))
    exact update_line_bounded p _ ref _ placed (placed.nexts ref)
  · exact update_line_bounded p _ ref _ bounded (bounded.nexts ref)

theorem detach_line_bounded (lm : LineMgmt) (loc : Loc) (ref : LineRef) (bounded : BoundedLines p lm) (known : KnownRef p ref) :
    BoundedLines p (detachLine p lm loc ref) := by
  unfold detachLine
  split
  · split
    · exact bounded
    · have placed := put_victim_heap_bounded p lm loc _ bounded
        (IndexedHeap.remove_slots (KnownRef p) (victimPri lm) _ ref (victim_heap_slots p lm loc bounded))
      generalize putVictimHeap lm loc _ = removed at placed ⊢
      have cleared := update_line_bounded p removed ref { removed.lines ref with pos := 0 } placed (placed.nexts ref)
      exact ⟨cleared.links, cleared.victims, cleared.nexts⟩
  · exact del_full_bounded p lm loc ref bounded known

theorem clear_line_bounded (lm : LineMgmt) (ref : LineRef) (bounded : BoundedLines p lm) : BoundedLines p (clearLine lm ref) :=
  update_line_bounded p lm ref _ bounded (fun _ linked => nomatch linked)

end Containers

section States

variable (p : Params)

def wpLoc : WpName → Loc
  | .wp | .gcWp => .normal
  | .pslcWp | .pslcGcWp => .pslc

structure Bounded (ftl : ZmsFtl) : Prop where
  lines : BoundedLines p ftl.lm
  current : ∀ name cur, (ftl.wps name).curline = some cur → KnownRef p cur
  page : ∀ name, (ftl.wps name).curline ≠ none → OwnedPage p (wpPage (ftl.wps name))
  place : ∀ name, (ftl.wps name).curline ≠ none → (ftl.wps name).loc = wpLoc name
  mapped : ∀ lpn page map, ftl.maptbl lpn = .mapped page map → OwnedPage p page

theorem zms_get_wp_loc (ioType : IoType) (loc : Loc) : wpLoc (zmsGetWp ioType loc) = loc := by
  unfold zmsGetWp
  cases loc with
  | normal => dsimp only; split <;> rfl
  | pslc => dsimp only; split <;> rfl

theorem bare_mapped (ppa other : Ppa) (page : Page) (map : MapType) (same : barePpa other = barePpa ppa)
    (mapped : other = .mapped page map) : ∃ before, ppa = .mapped page before := by
  rw [mapped] at same
  cases ppa with
  | unmapped => cases same
  | rsv => cases same
  | mapped held before =>
      have pages : page = held := (Ppa.mapped.inj same).1
      rw [pages]
      exact ⟨before, rfl⟩

theorem media_bounded (before after : ZmsFtl) (media : mediaSide after = mediaSide before) (bounded : Bounded p before) :
    Bounded p after := by
  have lines : after.lm = before.lm := congrArg MediaSide.lm media
  have wps : after.wps = before.wps := congrArg MediaSide.wps media
  have table := congrArg MediaSide.maptbl media
  refine ⟨?_, ?_, ?_, ?_, ?_⟩
  · rw [lines]
    exact bounded.lines
  · rw [wps]
    exact bounded.current
  · rw [wps]
    exact bounded.page
  · rw [wps]
    exact bounded.place
  · intro lpn page map mapped
    obtain ⟨old, held⟩ := bare_mapped (before.maptbl lpn) (after.maptbl lpn) page map (congrFun table lpn) mapped
    exact bounded.mapped lpn page old held

theorem put_lm_bounded (ftl : ZmsFtl) (lm : LineMgmt) (bounded : Bounded p ftl) (lines : BoundedLines p lm) :
    Bounded p { ftl with lm := lm } :=
  ⟨lines, bounded.current, bounded.page, bounded.place, bounded.mapped⟩

theorem put_line_bounded (ftl : ZmsFtl) (ref : LineRef) (line : Line) (bounded : Bounded p ftl)
    (known : ∀ next, line.rsvNextline = some next → KnownRef p next) : Bounded p (putLine ftl ref line) :=
  put_lm_bounded p ftl _ bounded (update_line_bounded p ftl.lm ref line bounded.lines known)

theorem put_block_bounded (ftl : ZmsFtl) (block : Block) (state : NandBlock) (bounded : Bounded p ftl) :
    Bounded p (putBlock ftl block state) :=
  ⟨bounded.lines, bounded.current, bounded.page, bounded.place, bounded.mapped⟩

theorem set_full_bounded (ftl : ZmsFtl) (loc : Loc) (bounded : Bounded p ftl) : Bounded p (setFull ftl loc) := by
  cases loc with
  | normal => exact ⟨bounded.lines, bounded.current, bounded.page, bounded.place, bounded.mapped⟩
  | pslc => exact ⟨bounded.lines, bounded.current, bounded.page, bounded.place, bounded.mapped⟩

theorem put_wp_bounded (ftl : ZmsFtl) (name : WpName) (pointer : WritePointer) (bounded : Bounded p ftl)
    (current : ∀ cur, pointer.curline = some cur → KnownRef p cur)
    (page : pointer.curline ≠ none → OwnedPage p (wpPage pointer))
    (place : pointer.curline ≠ none → pointer.loc = wpLoc name) : Bounded p (putWp ftl name pointer) := by
  refine ⟨bounded.lines, ?_, ?_, ?_, bounded.mapped⟩
  · intro other
    by_cases same : other = name
    · rw [same]
      simpa [putWp] using current
    · simpa [putWp, same] using bounded.current other
  · intro other
    by_cases same : other = name
    · rw [same]
      simpa [putWp] using page
    · simpa [putWp, same] using bounded.page other
  · intro other
    by_cases same : other = name
    · rw [same]
      simpa [putWp] using place
    · simpa [putWp, same] using bounded.place other

theorem update_write_pointer_bounded (ftl : ZmsFtl) (name : WpName) (page : Page) (bounded : Bounded p ftl)
    (owned : OwnedPage p page) : Bounded p (updateWritePointer ftl name page) :=
  put_wp_bounded p ftl name _ bounded (bounded.current name) (fun _ => owned) (bounded.place name)

theorem set_maptbl_bounded (ftl : ZmsFtl) (lpn : Nat) (ppa : Ppa) (bounded : Bounded p ftl)
    (owned : ∀ page map, ppa = .mapped page map → OwnedPage p page) : Bounded p (setMaptblEnt p ftl lpn ppa) := by
  unfold setMaptblEnt
  split
  · refine ⟨bounded.lines, bounded.current, bounded.page, bounded.place, ?_⟩
    intro other page map mapped
    by_cases same : other = lpn
    · dsimp only at mapped
      rw [same, Function.update_self] at mapped
      exact owned page map mapped
    · dsimp only at mapped
      rw [Function.update_of_ne same] at mapped
      exact bounded.mapped other page map mapped
  · exact bounded

theorem set_rmap_bounded (ftl : ZmsFtl) (lpn : Option Nat) (page : Page) (bounded : Bounded p ftl) :
    Bounded p (setRmapEnt p ftl lpn page) := by
  unfold setRmapEnt
  split
  · exact ⟨bounded.lines, bounded.current, bounded.page, bounded.place, bounded.mapped⟩
  · exact bounded

theorem mark_page_valid_bounded (ftl : ZmsFtl) (page : Page) (bounded : Bounded p ftl) : Bounded p (markPageValid p ftl page) := by
  unfold markPageValid
  dsimp only
  split
  · exact bounded
  · split
    · exact put_block_bounded p ftl _ _ bounded
    · split
      · exact put_block_bounded p ftl _ _ bounded
      · refine put_line_bounded p _ _ _ (put_block_bounded p ftl _ _ bounded) ?_
        intro next linked
        exact bounded.lines.nexts _ next linked

theorem mark_page_invalid_bounded (ftl : ZmsFtl) (page : Page) (bounded : Bounded p ftl) (known : KnownRef p (getLine p page)) :
    Bounded p (markPageInvalid p ftl page) := by
  unfold markPageInvalid
  dsimp only
  refine put_lm_bounded p _ _ (put_block_bounded p ftl page.block _ bounded) ?_
  have counted := update_line_bounded p ftl.lm (getLine p page)
    { ftl.lm.lines (getLine p page) with ipc := (ftl.lm.lines (getLine p page)).ipc + 1 } bounded.lines (bounded.lines.nexts _)
  have fallen := dec_vpc_bounded p _ (getPageLocation p page) (getLine p page) counted
  split
  · exact insert_victim_bounded p _ _ _ (del_full_bounded p _ _ _ fallen known) known
  · exact fallen

theorem drop_mapping_bounded (ftl : ZmsFtl) (lpn : Nat) (page : Page) (bounded : Bounded p ftl)
    (known : KnownRef p (getLine p page)) : Bounded p (dropMapping p ftl lpn page) := by
  have dropped := set_rmap_bounded p _ none page (mark_page_invalid_bounded p ftl page bounded known)
  refine ⟨dropped.lines, dropped.current, dropped.page, dropped.place, ?_⟩
  intro other page' map mapped
  unfold dropMapping unmapLpn at mapped
  dsimp only at mapped
  by_cases same : other = lpn
  · rw [same, Function.update_self] at mapped
    cases mapped
  · rw [Function.update_of_ne same] at mapped
    exact dropped.mapped other page' map mapped

theorem get_maptbl_owned (ftl : ZmsFtl) (lpn : Nat) (page : Page) (map : MapType) (bounded : Bounded p ftl)
    (mapped : getMaptblEnt p ftl lpn = .mapped page map) : OwnedPage p page := by
  unfold getMaptblEnt at mapped
  split at mapped
  · exact bounded.mapped lpn page map mapped
  · cases mapped

theorem first_free_known (ftl : ZmsFtl) (loc : Loc) (ref : LineRef) (bounded : Bounded p ftl)
    (found : IntrusiveList.listFirstEntryOrNull ftl.lm.links (.free loc) = some (.line ref)) : KnownRef p ref :=
  IntrusiveList.first_entry_closed (KnownNode p) ftl.lm.links (.free loc) (.line ref) bounded.lines.links trivial found

theorem get_next_free_line_bounded (ftl next : ZmsFtl) (loc : Loc) (line : Option LineRef) (bounded : Bounded p ftl)
    (ran : getNextFreeLine ftl loc = .ok (line, next)) : Bounded p next ∧ ∀ ref, line = some ref → KnownRef p ref := by
  unfold getNextFreeLine at ran
  split at ran
  · cases ran
    exact ⟨set_full_bounded p ftl loc bounded, fun _ absent => nomatch absent⟩
  · rename_i ref found
    have known := first_free_known p ftl loc ref bounded found
    cases ran
    refine ⟨put_lm_bounded p ftl _ bounded (del_free_bounded p ftl.lm loc ref bounded.lines known), ?_⟩
    intro other same
    rw [← Option.some.inj same]
    exact known
  · cases ran

theorem refine_map_gran_bounded (ftl : ZmsFtl) (lpn : Nat) (loc : Loc) (bounded : Bounded p ftl) :
    Bounded p (refineMapGran p lpn loc mapType ftl) :=
  media_bounded p ftl _ (refine_map_gran_quiet p lpn loc mapType ftl).media bounded

theorem note_filled_line_bounded (ftl : ZmsFtl) (ref : LineRef) (loc : Loc) (ioType : IoType) (bounded : Bounded p ftl) :
    Bounded p (noteFilledLine p ftl ref loc ioType) := by
  unfold noteFilledLine
  dsimp only
  split
  · refine ⟨put_lines_bounded p ftl.lm _ bounded.lines ?_, bounded.current, bounded.page, bounded.place, bounded.mapped⟩
    intro other next linked
    by_cases same : other = ref
    · simp only [same, Function.update_self] at linked
      exact bounded.lines.nexts ref next linked
    · simp only [ne_eq, same, not_false_eq_true, Function.update_of_ne] at linked
      exact bounded.lines.nexts other next linked
  · exact bounded

end States

section Reserving

variable (p : Params) (medium : Medium p)

theorem bump_zone_writes_media (ftl : ZmsFtl) (name : WpName) : mediaSide (bumpZoneWrites ftl name) = mediaSide ftl := by
  unfold bumpZoneWrites
  split <;> rfl

theorem init_lines_bounded (refs : List LineRef) (known : ∀ ref ∈ refs, KnownRef p ref)
    (lm : LineMgmt) (bounded : BoundedLines p lm) :
    BoundedLines p (refs.foldl (fun lm ref => addFree lm (initLoc p ref) ref) lm) := by
  induction refs generalizing lm with
  | nil => exact bounded
  | cons ref rest ih =>
      refine ih (fun other member => known other (List.mem_cons_of_mem ref member)) _ ?_
      exact add_free_bounded p lm _ ref bounded (known ref List.mem_cons_self)

theorem line_refs_known (ref : LineRef) (member : ref ∈ lineRefs p) : KnownRef p ref := by
  unfold lineRefs at member
  rw [List.mem_flatMap] at member
  obtain ⟨id, bound, member⟩ := member
  rw [List.mem_range] at bound
  split at member
  · obtain ⟨sub, _, same⟩ := List.mem_map.mp member
    rw [← same]
    exact bound
  · rw [List.mem_singleton] at member
    rw [member]
    exact bound

include medium in
theorem medium_lines_positive : 0 < p.zpp.ttLines := by
  rw [medium.lines]
  exact Nat.mul_pos medium.some medium.geometry.groups

include medium in
theorem realize_bounded (clock : Nat → Nat) : Bounded p (zmsRealizeFtl p clock) := by
  have positive := medium_lines_positive p medium
  have empty : BoundedLines p emptyLineMgmt := by
    refine ⟨⟨fun _ holds => holds, fun _ holds => holds⟩, fun _ _ => positive, ?_⟩
    intro ref next linked
    cases linked
  refine ⟨init_lines_bounded p (lineRefs p) (line_refs_known p) _ empty, ?_, ?_, ?_, ?_⟩
  · intro name cur absent
    cases absent
  · intro name pointed
    exact absurd rfl pointed
  · intro name pointed
    exact absurd rfl pointed
  · intro lpn page map mapped
    cases mapped

include medium in
theorem init_write_pointer_bounded (ftl next : ZmsFtl) (ioType : IoType) (loc : Loc) (bounded : Bounded p ftl)
    (ran : initWritePointer p ftl ioType loc = .ok next) :
    Bounded p next ∧ (next.wps (zmsGetWp ioType loc)).curline ≠ none := by
  unfold initWritePointer at ran
  obtain ⟨⟨line, middle⟩, taken, rest⟩ := bind_ok _ _ _ ran
  obtain ⟨popped, known⟩ := get_next_free_line_bounded p ftl middle loc line bounded taken
  dsimp only at rest
  cases line with
  | none => cases rest
  | some line =>
      have owned := first_page_owned p medium line (known line rfl)
      rw [← pure_ok _ _ rest]
      refine ⟨put_wp_bounded p middle _ _ popped ?_ (fun _ => owned) (fun _ => (zms_get_wp_loc ioType loc).symm), ?_⟩
      · intro cur same
        rw [← Option.some.inj same]
        exact known line rfl
      · simp [putWp]

include medium in
theorem open_write_pointer_bounded (ftl next : ZmsFtl) (ioType : IoType) (loc : Loc) (bounded : Bounded p ftl)
    (ran : openWritePointer p ftl ioType loc = .ok next) :
    Bounded p next ∧ (next.wps (zmsGetWp ioType loc)).curline ≠ none := by
  unfold openWritePointer at ran
  split at ran
  · exact init_write_pointer_bounded p medium ftl next ioType loc bounded ran
  · rename_i opened
    rw [← Except.ok.inj ran]
    exact ⟨bounded, opened⟩

theorem get_current_page_bounded (ftl : ZmsFtl) (name : WpName) (bounded : Bounded p ftl) :
    Bounded p (getCurrentPage p ftl name).2 ∧ (getCurrentPage p ftl name).1 = wpPage (ftl.wps name) ∧
      (getCurrentPage p ftl name).2.wps = ftl.wps := by
  unfold getCurrentPage
  dsimp only
  split
  · refine ⟨set_full_bounded p ftl _ bounded, rfl, ?_⟩
    cases getPageLocation p (wpPage (ftl.wps name)) <;> rfl
  · exact ⟨bounded, rfl, rfl⟩

include medium in
theorem get_new_page_bounded (ftl next : ZmsFtl) (ioType : IoType) (loc : Loc) (page : Page) (bounded : Bounded p ftl)
    (ran : getNewPage p ftl ioType loc = .ok (page, next)) :
    Bounded p next ∧ OwnedPage p page ∧ page = wpPage (next.wps (zmsGetWp ioType loc)) ∧
      (next.wps (zmsGetWp ioType loc)).curline ≠ none := by
  unfold getNewPage at ran
  obtain ⟨middle, ready, rest⟩ := bind_ok _ _ _ ran
  obtain ⟨opened, pointed⟩ := open_write_pointer_bounded p medium ftl middle ioType loc bounded ready
  obtain ⟨after, page', wps⟩ := get_current_page_bounded p middle (zmsGetWp ioType loc) opened
  have result := pure_ok _ _ rest
  rw [result] at after page' wps
  dsimp only at after page' wps
  refine ⟨after, ?_, ?_, ?_⟩
  · rw [page']
    exact opened.page _ pointed
  · rw [page', wps]
  · rw [wps]
    exact pointed

include medium in
theorem get_new_wp_bounded (ftl next : ZmsFtl) (name : WpName) (bounded : Bounded p ftl)
    (ran : getNewWp p ftl name = .ok next) : Bounded p next := by
  unfold getNewWp at ran
  split at ran
  · cases ran
  · rename_i cur current
    have curKnown := bounded.current name cur current
    have opened : (ftl.wps name).curline ≠ none := by
      rw [current]
      exact fun absent => nomatch absent
    obtain ⟨⟨line, middle⟩, taken, rest⟩ := bind_ok _ _ _ ran
    have retired := put_lm_bounded p ftl _ bounded (retire_curline_bounded p ftl.lm (ftl.wps name).loc cur bounded.lines curKnown)
    have same : middle.wps = ftl.wps := by
      unfold getNextFreeLine at taken
      split at taken
      · rw [← (Prod.mk.inj (Except.ok.inj taken)).2]
        cases (ftl.wps name).loc <;> rfl
      · rw [← (Prod.mk.inj (Except.ok.inj taken)).2]
      · cases taken
    obtain ⟨popped, known⟩ := get_next_free_line_bounded p _ middle _ line retired taken
    have place := bounded.place name opened
    dsimp only at rest
    cases line with
    | none =>
        rw [← pure_ok _ _ rest]
        exact put_wp_bounded p middle name _ popped (fun _ absent => nomatch absent) (fun pointed => absurd rfl pointed)
          (fun pointed => absurd rfl pointed)
    | some line =>
        have owned := first_page_owned p medium line (known line rfl)
        have moved : Bounded p (updateWritePointer (putWp middle name { middle.wps name with curline := some line }) name
            (getFirstPage p line)) := by
          unfold updateWritePointer
          have twice : putWp (putWp middle name { middle.wps name with curline := some line }) name
              { (putWp middle name { middle.wps name with curline := some line }).wps name with
                block := (getFirstPage p line).block, pg := (getFirstPage p line).pg }
              = putWp middle name ⟨some line, (middle.wps name).loc, (getFirstPage p line).block, (getFirstPage p line).pg⟩ := by
            simp [putWp]
          rw [twice]
          refine put_wp_bounded p middle name _ popped ?_ (fun _ => owned) (fun _ => ?_)
          · intro other same
            rw [← Option.some.inj same]
            exact known line rfl
          · rw [same]
            exact place
        rw [← pure_ok _ _ rest]
        exact media_bounded p _ _ (bump_zone_writes_media _ name) moved

structure BoundedReservation (r : Reservation) : Prop where
  ftl : Bounded p r.ftl
  page : OwnedPage p r.page
  current : KnownRef p r.current
  prev : KnownRef p r.prev

include medium in
theorem cross_line_bounded (ioType : IoType) (loc : Loc) (r next : Reservation) (found : Bool) (bounded : BoundedReservation p r)
    (ran : crossLine p ioType loc r = .ok (next, found)) : BoundedReservation p next := by
  unfold crossLine at ran
  obtain ⟨middle, moved, rest⟩ := bind_ok _ _ _ ran
  have left := get_new_wp_bounded p medium r.ftl middle _ bounded.ftl moved
  dsimp only at rest
  split at rest
  · rw [← (Prod.mk.inj (pure_ok _ _ rest)).1]
    exact ⟨left, bounded.page, bounded.current, bounded.prev⟩
  · rename_i line current
    obtain ⟨⟨page, last⟩, taken, rest⟩ := bind_ok _ _ _ rest
    have linked : Bounded p (setRsvNextline middle r.prev r.current) := by
      refine put_line_bounded p middle _ _ left ?_
      intro other same
      rw [← Option.some.inj same]
      exact bounded.current
    obtain ⟨after, owned, _, _⟩ := get_new_page_bounded p medium _ last ioType loc page linked taken
    rw [← (Prod.mk.inj (pure_ok _ _ rest)).1]
    exact ⟨after, owned, left.current _ line current, bounded.current⟩

include medium in
theorem reserve_in_line_bounded (ioType : IoType) (loc : Loc) (r next : Reservation) (free : Nat) (found : Bool)
    (bounded : BoundedReservation p r) (ran : reserveInLine p ioType loc r free = .ok (next, found)) :
    BoundedReservation p next := by
  unfold reserveInLine at ran
  dsimp only at ran
  have counted : Bounded p (putLine r.ftl r.current { r.ftl.lm.lines r.current with
      rpc := (r.ftl.lm.lines r.current).rpc + (min r.remaining free : Nat) }) :=
    put_line_bounded p r.ftl r.current _ bounded.ftl (bounded.ftl.lines.nexts r.current)
  split at ran
  · rename_i page advanced
    have owned := advanced_owned p medium r.page page _ bounded.page advanced
    rw [← (Prod.mk.inj (pure_ok _ _ ran)).1]
    exact ⟨update_write_pointer_bounded p _ _ page counted owned, owned, bounded.current, bounded.prev⟩
  · refine cross_line_bounded p medium ioType loc _ next found ?_ ran
    exact ⟨counted, bounded.page, bounded.current, bounded.prev⟩

include medium in
theorem reserve_step_bounded (ioType : IoType) (loc : Loc) (r next : Reservation) (found : Bool) (bounded : BoundedReservation p r)
    (ran : reserveStep p ioType loc r = .ok (next, found)) : BoundedReservation p next := by
  unfold reserveStep at ran
  dsimp only at ran
  split at ran
  · obtain ⟨⟨middle, reached⟩, crossed, rest⟩ := bind_ok _ _ _ ran
    have across := cross_line_bounded p medium ioType loc r middle reached bounded crossed
    dsimp only at rest
    split at rest
    · exact reserve_in_line_bounded p medium ioType loc middle next _ found across rest
    · rw [← (Prod.mk.inj (pure_ok _ _ rest)).1]
      exact across
  · exact reserve_in_line_bounded p medium ioType loc r next _ found bounded ran

include medium in
theorem reserve_loop_bounded (ioType : IoType) (loc : Loc) (fuel : Nat) (r : Reservation) (next : ZmsFtl)
    (bounded : BoundedReservation p r) (ran : reserveLoop p ioType loc fuel r = .ok next) : Bounded p next := by
  induction fuel generalizing r with
  | zero =>
      unfold reserveLoop at ran
      split at ran
      · rw [← Except.ok.inj ran]
        exact bounded.ftl
      · cases ran
  | succ fuel ih =>
      unfold reserveLoop at ran
      split at ran
      · rw [← Except.ok.inj ran]
        exact bounded.ftl
      · obtain ⟨⟨middle, found⟩, stepped, rest⟩ := bind_ok _ _ _ ran
        have after := reserve_step_bounded p medium ioType loc r middle found bounded stepped
        dsimp only at rest
        split at rest
        · exact ih middle after rest
        · rw [← pure_ok _ _ rest]
          exact after.ftl

include medium in
theorem advance_write_pointer_bounded (ftl next : ZmsFtl) (ioType : IoType) (loc : Loc) (bounded : Bounded p ftl)
    (ran : advanceWritePointer p ftl ioType loc = .ok next) : Bounded p next := by
  unfold advanceWritePointer at ran
  dsimp only at ran
  split at ran
  · rw [← Except.ok.inj ran]
    exact bounded
  · rename_i cur current
    obtain ⟨after, page, wps⟩ := get_current_page_bounded p ftl (zmsGetWp ioType loc) bounded
    have opened : (ftl.wps (zmsGetWp ioType loc)).curline ≠ none := by
      rw [current]
      exact fun absent => nomatch absent
    have owned := bounded.page _ opened
    rw [← page] at owned
    generalize getCurrentPage p ftl (zmsGetWp ioType loc) = taken at ran after owned
    obtain ⟨page, middle⟩ := taken
    dsimp only at ran after owned
    split at ran
    · rename_i following visited
      rw [← Except.ok.inj ran]
      exact update_write_pointer_bounded p middle _ following after
        (nextpage_in_line_owned p medium page following (isSuperblock cur) owned visited)
    · exact get_new_wp_bounded p medium middle next _ after ran

theorem reserve_unit_bounded (ftl next : ZmsFtl) (slpn pgs : Nat) (bounded : Bounded p ftl)
    (ran : reserveUnit p ftl slpn pgs = .ok next) : Bounded p next := by
  unfold reserveUnit at ran
  split at ran
  · rw [← Except.ok.inj ran]
    refine ⟨bounded.lines, bounded.current, bounded.page, bounded.place, ?_⟩
    intro lpn page map mapped
    unfold reserveEntries at mapped
    dsimp only at mapped
    split at mapped
    · cases mapped
    · exact bounded.mapped lpn page map mapped
  · cases ran

theorem take_first_page_bounded (ftl : ZmsFtl) (slpn : Nat) (page : Page) (bounded : Bounded p ftl) (owned : OwnedPage p page) :
    Bounded p (takeFirstPage p ftl slpn page) := by
  have mapped : Bounded p (setMaptblEnt p ftl slpn (.mapped page .pageMap)) := by
    refine set_maptbl_bounded p ftl slpn _ bounded ?_
    intro other map same
    rw [← (Ppa.mapped.inj same).1]
    exact owned
  exact media_bounded p _ _ (set_map_gran_quiet p _ .pageMap slpn).media
    (set_rmap_bounded p _ _ page (mark_page_valid_bounded p _ page mapped))

include medium in
theorem reserve_mapping_bounded (ftl next : ZmsFtl) (lpn : Nat) (loc : Loc) (ioType : IoType) (bounded : Bounded p ftl)
    (ran : reserveMapping p ftl lpn loc ioType = .ok next) : Bounded p next := by
  obtain ⟨reserved, page, opened, looped, advanced, last, entries, taken, reserving, advancing, checked⟩ :=
    reserve_mapping_runs p ftl next lpn loc ioType ran
  have unit := reserve_unit_bounded p ftl reserved _ _ bounded entries
  obtain ⟨after, owned, _, _⟩ := get_new_page_bounded p medium reserved opened ioType loc page unit taken
  have known := get_line_known p medium page owned
  have first := note_filled_line_bounded p _ (getLine p page) loc ioType
    (take_first_page_bounded p opened (unitStart p lpn loc) page after owned)
  have loop := reserve_loop_bounded p medium ioType loc _ _ looped ⟨first, owned, known, known⟩ reserving
  have moved := advance_write_pointer_bounded p medium looped advanced ioType loc loop advancing
  exact (get_new_page_bounded p medium advanced next ioType loc last moved checked).1

include medium in
theorem nextpage_owned (ftl : ZmsFtl) (page next : Page) (map nextMap : MapType) (rsv : Bool) (bounded : Bounded p ftl)
    (owned : OwnedPage p page) (ran : nextpage p ftl.lm.lines page map rsv = .mapped next nextMap) : OwnedPage p next := by
  unfold nextpage at ran
  dsimp only at ran
  split at ran
  · rename_i following visited
    rw [← (Ppa.mapped.inj ran).1]
    exact nextpage_in_line_owned p medium page following _ owned visited
  · split at ran
    · rename_i linked nextPlace
      rw [← (Ppa.mapped.inj ran).1]
      exact first_page_owned p medium _ (bounded.lines.nexts _ _ nextPlace)
    · cases ran

include medium in
theorem update_mapping_bounded (ftl next : ZmsFtl) (lpn : Nat) (loc : Loc) (ioType : IoType) (bounded : Bounded p ftl)
    (ran : updateMappingIfReserved p ftl lpn loc ioType = some next) : Bounded p next := by
  unfold updateMappingIfReserved at ran
  split at ran
  · rename_i prev map before
    have prevOwned := get_maptbl_owned p ftl _ prev map bounded before
    split at ran
    · cases ran
    · split at ran
      · rename_i page map visited
        have owned := nextpage_owned p medium ftl prev page _ map true bounded prevOwned visited
        rw [← Option.some.inj ran]
        refine refine_map_gran_bounded p _ lpn loc (note_filled_line_bounded p _ _ loc ioType ?_)
        have mapped : Bounded p (setMaptblEnt p ftl lpn (.mapped page map)) := by
          refine set_maptbl_bounded p ftl lpn _ bounded ?_
          intro other map same
          rw [← (Ppa.mapped.inj same).1]
          exact owned
        have marked := set_rmap_bounded p _ (some lpn) page (mark_page_valid_bounded p _ page mapped)
        exact put_line_bounded p _ _ _ marked (marked.lines.nexts _)
      · cases ran
  · cases ran

include medium in
theorem update_or_reserve_mapping_bounded (ftl next : ZmsFtl) (lpn : Nat) (loc : Loc) (ioType : IoType) (bounded : Bounded p ftl)
    (ran : updateOrReserveMapping p ftl lpn loc ioType = .ok next) : Bounded p next := by
  unfold updateOrReserveMapping at ran
  split at ran
  · rename_i updated ran'
    rw [← Except.ok.inj ran]
    exact update_mapping_bounded p medium ftl updated lpn loc ioType bounded ran'
  · split at ran
    · rw [← Except.ok.inj ran]
      exact bounded
    · exact reserve_mapping_bounded p medium ftl next lpn loc ioType bounded ran

end Reserving

section Erasing

variable (p : Params) (medium : Medium p)

theorem erase_block_bounded (ioType : IoType) (ftl : ZmsFtl) (block : Block) (bounded : Bounded p ftl) :
    Bounded p (eraseBlock p ioType ftl block) := by
  unfold eraseBlock
  dsimp only
  have marked := put_block_bounded p ftl block ⟨fun pg => if pg < p.spp.pgsPerBlk then .free else (ftl.nand block).status pg, 0, 0,
    (ftl.nand block).eraseCnt + 1⟩ bounded
  split
  · exact media_bounded p _ _ (submit_nand_cmd_quiet p _ _ _ _ _ _).media marked
  · exact marked

theorem erase_blocks_bounded (ioType : IoType) (blocks : List Block) (ftl : ZmsFtl) (bounded : Bounded p ftl) :
    Bounded p (blocks.foldl (eraseBlock p ioType) ftl) := by
  induction blocks generalizing ftl with
  | nil => exact bounded
  | cons block rest ih => exact ih _ (erase_block_bounded p ioType ftl block bounded)

include medium in
theorem reset_wp_bounded (ftl : ZmsFtl) (ref : LineRef) (bounded : Bounded p ftl) : Bounded p (resetWp ftl ref) := by
  unfold resetWp
  split
  · rename_i name found
    refine put_wp_bounded p ftl name _ bounded (bounded.current name) ?_ (bounded.place name)
    intro opened
    have owned := bounded.page name opened
    have first := owned.block.first
    have last := owned.block.last
    have luns : 0 < p.spp.lunsPerCh := by
      rw [medium.geometry.luns]
      exact Nat.mul_pos medium.geometry.groups medium.geometry.rows
    exact ⟨⟨medium.geometry.channels, luns, medium.geometry.planes, first, last⟩, medium.used _ first last⟩
  · exact bounded

include medium in
theorem mark_line_free_bounded (ftl : ZmsFtl) (ref : LineRef) (ioType : IoType) (bounded : Bounded p ftl) (known : KnownRef p ref) :
    Bounded p (markLineFree p ftl ref ioType) := by
  unfold markLineFree
  dsimp only
  have left : BoundedLines p (if ioType ≠ .gcIo ∧ (!isActiveLine ftl ref) = true then
      detachLine p ftl.lm (getLineLocation p ref) ref else ftl.lm) := by
    split
    · exact detach_line_bounded p ftl.lm _ ref bounded.lines known
    · exact bounded.lines
  have cleared := clear_line_bounded p _ ref left
  generalize clearLine _ ref = lm at cleared ⊢
  have moved : Bounded p (if !isActiveLine ftl ref then { ftl with lm := addFree lm (getLineLocation p ref) ref }
      else resetWp { ftl with lm := lm } ref) := by
    split
    · exact put_lm_bounded p ftl _ bounded (add_free_bounded p lm _ ref cleared known)
    · exact reset_wp_bounded p medium _ ref (put_lm_bounded p ftl lm bounded cleared)
  generalize (if !isActiveLine ftl ref then _ else _ : ZmsFtl) = after at moved ⊢
  refine media_bounded p (if _ then _ else _) _ rfl ?_
  split
  · exact put_line_bounded p after ref _ moved (moved.lines.nexts ref)
  · exact moved

include medium in
theorem erase_line_bounded (ftl : ZmsFtl) (ref : LineRef) (ioType : IoType) (bounded : Bounded p ftl) (known : KnownRef p ref) :
    Bounded p (eraseLine p ftl ref ioType) :=
  mark_line_free_bounded p medium _ ref ioType (erase_blocks_bounded p ioType _ ftl bounded) known

theorem select_victim_bounded (ftl next : ZmsFtl) (force : Bool) (loc : Loc) (victim : LineRef) (bounded : Bounded p ftl)
    (selected : selectVictimLine p ftl force loc = some (victim, next)) : Bounded p next ∧ KnownRef p victim := by
  unfold selectVictimLine at selected
  split at selected
  · cases selected
  · rename_i peeked found
    split at selected
    · cases selected
    · obtain ⟨same, after⟩ := Prod.mk.inj (Option.some.inj selected)
      rw [same] at found after
      have known := IndexedHeap.peek_slot (KnownRef p) _ victim (victim_heap_slots p ftl.lm loc bounded.lines) found
      refine ⟨?_, known⟩
      rw [← after]
      have popped := put_victim_heap_bounded p ftl.lm loc _ bounded.lines
        (IndexedHeap.pop_slots (KnownRef p) (victimPri ftl.lm) _ (victim_heap_slots p ftl.lm loc bounded.lines))
      generalize putVictimHeap ftl.lm loc _ = lm at popped ⊢
      have cleared := update_line_bounded p lm victim { lm.lines victim with pos := 0 } popped (popped.nexts victim)
      exact put_lm_bounded p ftl _ bounded ⟨cleared.links, cleared.victims, cleared.nexts⟩

end Erasing

end ConZone
