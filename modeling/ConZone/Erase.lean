import ConZone.Layout
import ConZone.Frame

set_option autoImplicit false

namespace ConZone

-- A block belongs to the line that get_line maps its pages to.
def BelongsTo (p : Params) (ref : LineRef) (block : Block) : Prop := OwnedBlock p block ∧ getLine p ⟨block, 0⟩ = ref

structure Erased (p : Params) (before after : NandBlock) : Prop where
  pages : ∀ pg, pg < p.spp.pgsPerBlk → after.status pg = .free
  vpc : after.vpc = 0
  ipc : after.ipc = 0
  eraseCnt : after.eraseCnt = before.eraseCnt + 1

structure EraseRestores (p : Params) (ftl : ZmsFtl) (ref : LineRef) (ioType : IoType) : Prop where
  inside : ∀ block, BelongsTo p ref block → Erased p (ftl.nand block) ((eraseLine p ftl ref ioType).nand block)
  outside : ∀ block, ¬BelongsTo p ref block → (eraseLine p ftl ref ioType).nand block = ftl.nand block

theorem mark_line_free_nand (p : Params) (ftl : ZmsFtl) (ref : LineRef) (ioType : IoType) :
    (markLineFree p ftl ref ioType).nand = ftl.nand := by
  unfold markLineFree
  dsimp only
  generalize clearLine _ ref = cleared
  have placed : (if !isActiveLine ftl ref then { ftl with lm := addFree cleared (getLineLocation p ref) ref }
      else resetWp { ftl with lm := cleared } ref).nand = ftl.nand := by
    split
    · rfl
    · unfold resetWp
      split
      · rfl
      · rfl
  generalize (if !isActiveLine ftl ref then _ else _ : ZmsFtl) = moved at placed ⊢
  split
  · exact placed
  · exact placed

theorem erase_block_nand (p : Params) (ioType : IoType) (ftl : ZmsFtl) (block : Block) :
    (eraseBlock p ioType ftl block).nand = (markBlockFree p ftl block).nand := by
  unfold eraseBlock
  dsimp only
  split
  · rfl
  · rfl

theorem erase_block_other (p : Params) (ioType : IoType) (ftl : ZmsFtl) (block other : Block) (apart : other ≠ block) :
    (eraseBlock p ioType ftl block).nand other = ftl.nand other := by
  rw [erase_block_nand]
  unfold markBlockFree putBlock
  exact Function.update_of_ne apart _ _

theorem erase_block_self (p : Params) (ioType : IoType) (ftl : ZmsFtl) (block : Block) :
    Erased p (ftl.nand block) ((eraseBlock p ioType ftl block).nand block) := by
  rw [erase_block_nand]
  unfold markBlockFree putBlock
  dsimp only
  rw [Function.update_self]
  exact ⟨fun pg bound => if_pos bound, rfl, rfl, rfl⟩

theorem erase_blocks_nand (p : Params) (ioType : IoType) (blocks : List Block) (ftl : ZmsFtl) (distinct : blocks.Nodup) :
    (∀ block, block ∈ blocks → Erased p (ftl.nand block) ((blocks.foldl (eraseBlock p ioType) ftl).nand block)) ∧
      ∀ block, block ∉ blocks → (blocks.foldl (eraseBlock p ioType) ftl).nand block = ftl.nand block := by
  induction blocks generalizing ftl with
  | nil => exact ⟨fun block member => absurd member List.not_mem_nil, fun block _ => rfl⟩
  | cons first rest ih =>
      obtain ⟨fresh, distinct⟩ := List.nodup_cons.mp distinct
      obtain ⟨inside, outside⟩ := ih (eraseBlock p ioType ftl first) distinct
      rw [List.foldl_cons]
      refine ⟨?_, ?_⟩
      · intro block member
        by_cases same : block = first
        · rw [same, outside first fresh]
          exact erase_block_self p ioType ftl first
        · have later : block ∈ rest := (List.mem_cons.mp member).resolve_left same
          have erased := inside block later
          rwa [erase_block_other p ioType ftl first block same] at erased
      · intro block absent
        rw [List.mem_cons, not_or] at absent
        rw [outside block absent.2]
        exact erase_block_other p ioType ftl first block absent.1

theorem erase_line_nand (p : Params) (ftl : ZmsFtl) (ref : LineRef) (ioType : IoType) :
    (eraseLine p ftl ref ioType).nand = ((erasedBlocks p ref).foldl (eraseBlock p ioType) ftl).nand :=
  mark_line_free_nand p _ ref ioType

theorem erased_blocks_nodup (p : Params) (ref : LineRef) : (erasedBlocks p ref).Nodup := by
  unfold erasedBlocks
  dsimp only
  split
  · rw [List.nodup_flatMap]
    refine ⟨?_, ?_⟩
    · intro ch _
      refine List.Nodup.map_on ?_ (List.nodup_range.filter _)
      intro row _ other _ same
      injection same with plane
      injection plane with _ lun
      omega
    · refine List.nodup_range.imp ?_
      intro ch other apart block member again
      simp only [List.mem_map] at member again
      obtain ⟨row, _, same⟩ := member
      obtain ⟨second, _, equal⟩ := again
      rw [← same] at equal
      injection equal with plane
      injection plane with chs
      exact apart chs.symm
  · exact List.nodup_singleton _

theorem erase_restores_iff_visits (p : Params) (ftl : ZmsFtl) (ref : LineRef) (ioType : IoType) :
    EraseRestores p ftl ref ioType ↔ ∀ block, block ∈ erasedBlocks p ref ↔ BelongsTo p ref block := by
  obtain ⟨visited, missed⟩ := erase_blocks_nand p ioType (erasedBlocks p ref) ftl (erased_blocks_nodup p ref)
  rw [← erase_line_nand p ftl ref ioType] at visited missed
  constructor
  · intro restores block
    constructor
    · intro member
      by_contra foreign
      have count := (visited block member).eraseCnt
      rw [restores.outside block foreign] at count
      omega
    · intro own
      by_contra absent
      have count := (restores.inside block own).eraseCnt
      rw [missed block absent] at count
      omega
  · intro visits
    exact ⟨fun block own => visited block ((visits block).mpr own),
      fun block foreign => missed block fun member => foreign ((visits block).mp member)⟩

section Visits

variable (p : Params) (geometry : Geometry p.spp)

include geometry in
theorem mem_erased_line (id : Nat) (block : Block) :
    block ∈ erasedBlocks p (.line id) ↔
      block.plane.ch < p.spp.nchs ∧ block.plane.lun / rowsPerLine p.spp = id % p.spp.lineGroups ∧ block.plane.pl = 0 ∧
        block.blk = lineBlk p id := by
  have rows := geometry.rows
  have group := Nat.mod_lt id geometry.groups
  unfold erasedBlocks
  rw [get_first_page_line p geometry.toGroupRows]
  simp only [isSuperblock, if_true, mkPage, Page.lun, Page.pl, Page.blk, List.mem_flatMap, List.mem_range, List.mem_map,
    List.mem_filter]
  constructor
  · rintro ⟨ch, chBound, row, ⟨rowBound, _⟩, same⟩
    rw [← same]
    exact ⟨chBound, Radix.div_digit _ _ _ rowBound, rfl, rfl⟩
  · rintro ⟨ch, lun, pl, blk⟩
    refine ⟨block.plane.ch, ch, block.plane.lun % rowsPerLine p.spp, ⟨Nat.mod_lt _ rows, ?_⟩, ?_⟩
    · rw [geometry.luns]
      exact decide_eq_true (Radix.pair_bound _ _ _ _ group (Nat.mod_lt _ rows))
    · rw [← lun, Radix.digits]
      obtain ⟨⟨blockCh, blockLun, blockPl⟩, blockBlk⟩ := block
      dsimp only at pl blk ⊢
      rw [pl, blk]
      rfl

include geometry in
theorem belongs_to_line (id : Nat) (whole : interleaveSline p ≤ id) (block : Block) :
    BelongsTo p (.line id) block ↔
      OwnedBlock p block ∧ block.blk = lineBlk p id ∧ block.plane.lun / rowsPerLine p.spp = id % p.spp.lineGroups := by
  unfold BelongsTo
  constructor
  · rintro ⟨owned, line⟩
    refine ⟨owned, ?_⟩
    rw [get_line_of_block p geometry.toGroupRows block 0 owned.ch] at line
    split at line
    · cases line
    · injection line with same
      exact (line_of_lmid p geometry block owned id).mp same
  · rintro ⟨owned, place⟩
    refine ⟨owned, ?_⟩
    have same := (line_of_lmid p geometry block owned id).mpr place
    rw [get_line_of_block p geometry.toGroupRows block 0 owned.ch, same, if_neg (by omega)]

include geometry in
theorem belongs_to_sub (parent id : Nat) (split : parent < interleaveSline p) (block : Block) :
    BelongsTo p (.sub parent id) block ↔ OwnedBlock p block ∧ lmidOf p block = parent ∧ slotOf p block = id := by
  unfold BelongsTo
  constructor
  · rintro ⟨owned, line⟩
    refine ⟨owned, ?_⟩
    rw [get_line_of_block p geometry.toGroupRows block 0 owned.ch] at line
    split at line
    · injection line with lmid slot
      exact ⟨lmid, slot⟩
    · cases line
  · rintro ⟨owned, lmid, slot⟩
    refine ⟨owned, ?_⟩
    rw [get_line_of_block p geometry.toGroupRows block 0 owned.ch, lmid, slot, if_pos split]

include geometry in
theorem slot_determines (block other : Block) (owned : OwnedBlock p block) (otherOwned : OwnedBlock p other)
    (lmid : lmidOf p block = lmidOf p other) (slot : slotOf p block = slotOf p other) : block = other := by
  obtain ⟨blk, group⟩ := (line_of_lmid p geometry block owned _).mp lmid
  obtain ⟨otherBlk, otherGroup⟩ := (line_of_lmid p geometry other otherOwned _).mp rfl
  unfold slotOf at slot
  have pl := congrArg (· % p.spp.plsPerLun) slot
  have die := congrArg (· / p.spp.plsPerLun) slot
  simp only [Radix.mod_digit _ _ _ owned.pl, Radix.mod_digit _ _ _ otherOwned.pl] at pl
  simp only [Radix.div_digit _ _ _ owned.pl, Radix.div_digit _ _ _ otherOwned.pl] at die
  have ch := congrArg (· % p.spp.nchs) die
  have row := congrArg (· / p.spp.nchs) die
  simp only [Radix.mod_digit _ _ _ owned.ch, Radix.mod_digit _ _ _ otherOwned.ch] at ch
  simp only [Radix.div_digit _ _ _ owned.ch, Radix.div_digit _ _ _ otherOwned.ch] at row
  have lun : block.plane.lun = other.plane.lun := by
    rw [← Radix.digits block.plane.lun (rowsPerLine p.spp), ← Radix.digits other.plane.lun (rowsPerLine p.spp), row, group,
      otherGroup]
  have row : block.blk = other.blk := blk.trans otherBlk.symm
  obtain ⟨⟨blockCh, blockLun, blockPl⟩, blockBlk⟩ := block
  obtain ⟨⟨secondCh, secondLun, secondPl⟩, secondBlk⟩ := other
  dsimp only at lun row ch pl
  rw [lun, row, ch, pl]

end Visits

section Covering

variable (p : Params) (whole : WholeRows p)

include whole in
theorem line_blk_range (id : Nat) (inside : id < p.zpp.ttLines) :
    zmsFirstOwnedBlk p ≤ lineBlk p id ∧ lineBlk p id < zmsFirstOwnedBlk p + ownedRows p := by
  rw [whole.lines] at inside
  have row := Radix.digit_bound id _ _ inside
  unfold lineBlk lmid2Blkid
  dsimp only [topId]
  generalize id / p.spp.lineGroups = index at row
  omega

-- Whether the blocks erase_line visits are all blocks of the line: on a whole
-- superblock it leaves out every plane but the first; for the line of a single
-- block it takes the die as the fast index where get_line takes the plane.
def EraseCovers (p : Params) : LineRef → Prop
  | .line _ => p.spp.plsPerLun = 1
  | .sub _ id => id % lunsPerGroup p.spp * p.spp.plsPerLun + id / lunsPerGroup p.spp = id

include whole in
theorem erase_visits_line (id : Nat) (inside : id < p.zpp.ttLines) (split : interleaveSline p ≤ id) :
    (∀ block, block ∈ erasedBlocks p (.line id) ↔ BelongsTo p (.line id) block) ↔ p.spp.plsPerLun = 1 := by
  have geometry := whole.geometry
  have group := Nat.mod_lt id geometry.groups
  obtain ⟨first, last⟩ := line_blk_range p whole id inside
  constructor
  · intro visits
    by_contra several
    have planes := geometry.planes
    let second : Block := ⟨⟨0, id % p.spp.lineGroups * rowsPerLine p.spp, 1⟩, lineBlk p id⟩
    have lun : second.plane.lun / rowsPerLine p.spp = id % p.spp.lineGroups := Nat.mul_div_cancel _ geometry.rows
    have owned : OwnedBlock p second := by
      refine ⟨geometry.channels, ?_, ?_, first, last⟩
      · rw [geometry.luns]
        exact Nat.mul_lt_mul_of_pos_right group geometry.rows
      · change 1 < p.spp.plsPerLun
        omega
    have member := (visits second).mpr ((belongs_to_line p geometry id split second).mpr ⟨owned, rfl, lun⟩)
    have plane := ((mem_erased_line p geometry id second).mp member).2.2.1
    cases plane
  · intro one block
    rw [mem_erased_line p geometry, belongs_to_line p geometry id split]
    constructor
    · rintro ⟨ch, lun, pl, blk⟩
      refine ⟨⟨ch, ?_, by omega, by omega, by omega⟩, blk, lun⟩
      rw [geometry.luns, ← Radix.digits block.plane.lun (rowsPerLine p.spp), lun]
      exact Radix.pair_bound _ _ _ _ group (Nat.mod_lt _ geometry.rows)
    · rintro ⟨owned, blk, lun⟩
      have plane := owned.pl
      exact ⟨owned.ch, lun, by omega, blk⟩

include whole in
theorem erase_visits_sub (parent id : Nat) (inside : parent < p.zpp.ttLines) (split : parent < interleaveSline p)
    (bound : id < p.spp.blksPerLine) :
    (∀ block, block ∈ erasedBlocks p (.sub parent id) ↔ BelongsTo p (.sub parent id) block) ↔
      id % lunsPerGroup p.spp * p.spp.plsPerLun + id / lunsPerGroup p.spp = id := by
  have geometry := whole.geometry
  have group := Nat.mod_lt parent geometry.groups
  obtain ⟨first, last⟩ := line_blk_range p whole parent inside
  have plane : id / lunsPerGroup p.spp < p.spp.plsPerLun := by
    rw [geometry.blocks, ← geometry.group, Nat.mul_comm] at bound
    exact Radix.digit_bound id _ _ bound
  have row := subline_row p geometry.toGroupRows id
  have slot := first_page_slot p geometry.toGroupRows parent id
  have page := get_first_page_sub p geometry.toGroupRows parent id
  rw [Nat.mod_eq_of_lt plane] at page slot
  have visited : erasedBlocks p (.sub parent id) = [(getFirstPage p (.sub parent id)).block] := rfl
  rw [page] at slot
  rw [visited, page]
  have owned : OwnedBlock p (mkPage (id % lunsPerGroup p.spp % p.spp.nchs)
      (parent % p.spp.lineGroups * rowsPerLine p.spp + id % lunsPerGroup p.spp / p.spp.nchs)
      (id / lunsPerGroup p.spp) (lmid2Blkid p (.line parent)) 0).block := by
    refine ⟨Nat.mod_lt _ geometry.channels, ?_, plane, first, last⟩
    rw [geometry.luns]
    exact Radix.pair_bound _ _ _ _ group row
  have lmid : lmidOf p (mkPage (id % lunsPerGroup p.spp % p.spp.nchs)
      (parent % p.spp.lineGroups * rowsPerLine p.spp + id % lunsPerGroup p.spp / p.spp.nchs)
      (id / lunsPerGroup p.spp) (lmid2Blkid p (.line parent)) 0).block = parent :=
    (line_of_lmid p geometry _ owned parent).mpr ⟨rfl, Radix.div_digit _ _ _ row⟩
  generalize (mkPage _ _ _ _ _).block = visitedBlock at owned lmid slot ⊢
  constructor
  · intro visits
    have own := (visits visitedBlock).mp (List.mem_singleton.mpr rfl)
    exact slot.symm.trans ((belongs_to_sub p geometry parent id split visitedBlock).mp own).2.2
  · intro fixed block
    rw [List.mem_singleton, belongs_to_sub p geometry parent id split]
    constructor
    · intro same
      rw [same]
      exact ⟨owned, lmid, slot.trans fixed⟩
    · rintro ⟨blockOwned, blockLmid, blockSlot⟩
      exact slot_determines p geometry block visitedBlock blockOwned owned (blockLmid.trans lmid.symm)
        (blockSlot.trans (slot.trans fixed).symm)

end Covering

theorem mem_line_refs (p : Params) (ref : LineRef) :
    ref ∈ lineRefs p ↔
      match ref with
      | .line id => id < p.zpp.ttLines ∧ interleaveSline p ≤ id
      | .sub parent id => parent < p.zpp.ttLines ∧ parent < interleaveSline p ∧ id < p.spp.blksPerLine := by
  unfold lineRefs
  rw [List.mem_flatMap]
  cases ref with
  | line id =>
      constructor
      · rintro ⟨top, inside, member⟩
        rw [List.mem_range] at inside
        split at member
        · rw [List.mem_map] at member
          obtain ⟨_, _, same⟩ := member
          cases same
        · rename_i whole
          rw [List.mem_singleton] at member
          injection member with same
          subst same
          exact ⟨inside, Nat.le_of_not_lt whole⟩
      · rintro ⟨inside, whole⟩
        exact ⟨id, List.mem_range.mpr inside, by rw [if_neg (Nat.not_lt.mpr whole)]; exact List.mem_singleton.mpr rfl⟩
  | sub parent id =>
      constructor
      · rintro ⟨top, inside, member⟩
        rw [List.mem_range] at inside
        split at member
        · rename_i split
          rw [List.mem_map] at member
          obtain ⟨slot, bound, same⟩ := member
          injection same with topSame slotSame
          subst topSame slotSame
          exact ⟨inside, split, List.mem_range.mp bound⟩
        · rw [List.mem_singleton] at member
          cases member
      · rintro ⟨inside, split, bound⟩
        refine ⟨parent, List.mem_range.mpr inside, ?_⟩
        rw [if_pos split]
        exact List.mem_map.mpr ⟨id, List.mem_range.mpr bound, rfl⟩

theorem erase_visits_iff (p : Params) (whole : WholeRows p) (ref : LineRef) (member : ref ∈ lineRefs p) :
    (∀ block, block ∈ erasedBlocks p ref ↔ BelongsTo p ref block) ↔ EraseCovers p ref := by
  rw [mem_line_refs] at member
  cases ref with
  | line id => exact erase_visits_line p whole id member.1 member.2
  | sub parent id => exact erase_visits_sub p whole parent id member.1 member.2.1 member.2.2

theorem erase_line_restores_iff (p : Params) (whole : WholeRows p) (ftl : ZmsFtl) (ref : LineRef) (member : ref ∈ lineRefs p)
    (ioType : IoType) : EraseRestores p ftl ref ioType ↔ EraseCovers p ref := by
  rw [erase_restores_iff_visits]
  exact erase_visits_iff p whole ref member

theorem erase_line_restores_sample_line :
    EraseRestores (dualParams sampleConfig .pslc) (zmsRealizeFtl (dualParams sampleConfig .pslc) fun _ => 0) (.line 1) .userIo :=
  (erase_line_restores_iff _ (dual_whole_rows sampleConfig .pslc) _ (.line 1) (by decide) .userIo).mpr rfl

def twoPlaneConfig : DualConfig :=
  { sampleConfig with plnsPerLun := 2, planesPositive := Nat.two_pos, planesFit := sampleConfig.lunsFit, zoneFits := by decide }

-- Zone 0 is written in full, so line 0 is in use when it is erased.
theorem erase_line_misses_second_plane :
    ∃ ftl, Reachable (dualParams twoPlaneConfig .pslc) (fun _ _ => True) ftl ∧
      ¬EraseRestores (dualParams twoPlaneConfig .pslc) ftl (.line 0) .userIo := by
  obtain ⟨ftl, reached, missed⟩ := run_events_check (dualParams twoPlaneConfig .pslc) (fun _ _ => True) [writeEvent 0 64]
    (fun _ => 0)
    (fun ftl => ((eraseLine (dualParams twoPlaneConfig .pslc) ftl (.line 0) .userIo).nand ⟨⟨0, 0, 1⟩, 0⟩).status 0 == .valid)
    (fun _ _ _ => trivial) (by decide +kernel)
  refine ⟨ftl, reached, fun restores => ?_⟩
  have owned : OwnedBlock (dualParams twoPlaneConfig .pslc) ⟨⟨0, 0, 1⟩, 0⟩ :=
    ⟨by decide, by decide, by decide, by decide, by decide⟩
  have erased := (restores.inside ⟨⟨0, 0, 1⟩, 0⟩ ⟨owned, by decide⟩).pages 0 (by decide)
  rw [beq_iff_eq] at missed
  rw [erased] at missed
  cases missed

end ConZone
