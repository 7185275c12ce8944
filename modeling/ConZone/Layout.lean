import ConZone.Device
import ConZone.Radix

set_option autoImplicit false

namespace ConZone

def lunsPerGroup (spp : SsdParams) : Nat := spp.ttLuns / spp.lineGroups

-- A line group consists of whole rows of LUNs, one LUN of every channel a row.
structure GroupRows (spp : SsdParams) : Prop where
  channels : 0 < spp.nchs
  planes : 0 < spp.plsPerLun
  groups : 0 < spp.lineGroups
  rows : 0 < rowsPerLine spp
  group : lunsPerGroup spp = rowsPerLine spp * spp.nchs

-- DIES_PER_ZONE divides the number of LUNs: every LUN belongs to a group, and a
-- line takes a block of every plane of its group. The dual build checks this
-- with a BUG_ON; outside it nothing does, and it is an assumption.
structure Geometry (spp : SsdParams) : Prop extends GroupRows spp where
  luns : spp.lunsPerCh = spp.lineGroups * rowsPerLine spp
  blocks : spp.blksPerLine = rowsPerLine spp * spp.nchs * spp.plsPerLun

def ownedRows (p : Params) : Nat := p.zpp.ttLines / p.spp.lineGroups

structure WholeRows (p : Params) : Prop where
  geometry : Geometry p.spp
  lines : p.zpp.ttLines = ownedRows p * p.spp.lineGroups

structure Medium (p : Params) : Prop extends WholeRows p where
  some : 0 < ownedRows p
  flash : 0 < p.spp.pgsPerFlashpg
  used : ∀ blk, zmsFirstOwnedBlk p ≤ blk → blk < zmsFirstOwnedBlk p + ownedRows p → 0 < usedPgs p.spp blk
  flashpgs : ∀ blk, zmsFirstOwnedBlk p ≤ blk → blk < zmsFirstOwnedBlk p + ownedRows p → p.spp.pgsPerFlashpg ∣ usedPgs p.spp blk

structure OwnedBlock (p : Params) (block : Block) : Prop where
  ch : block.plane.ch < p.spp.nchs
  lun : block.plane.lun < p.spp.lunsPerCh
  pl : block.plane.pl < p.spp.plsPerLun
  first : zmsFirstOwnedBlk p ≤ block.blk
  last : block.blk < zmsFirstOwnedBlk p + ownedRows p

theorem config_groups (config : DualConfig) :
    (ssdInitParams config).ttLuns = (ssdInitParams config).lineGroups * config.diesPerZone := by
  have whole : config.diesPerZone ∣ config.lunsPerNandCh * config.nandChannels := by
    rw [Nat.mul_comm]
    exact config.groupsWhole
  exact (Nat.div_mul_cancel whole).symm

theorem config_luns_positive (config : DualConfig) : 0 < (ssdInitParams config).ttLuns :=
  Nat.mul_pos config.lunsPositive config.channelsPositive

theorem config_groups_positive (config : DualConfig) : 0 < (ssdInitParams config).lineGroups := by
  have luns := config_luns_positive config
  rw [config_groups] at luns
  exact Nat.pos_of_mul_pos_right luns

theorem config_luns_per_group (config : DualConfig) : lunsPerGroup (ssdInitParams config) = config.diesPerZone := by
  unfold lunsPerGroup
  rw [config_groups, Nat.mul_div_cancel_left _ (config_groups_positive config)]

theorem config_rows (config : DualConfig) : rowsPerLine (ssdInitParams config) * config.nandChannels = config.diesPerZone := by
  have group := config_luns_per_group config
  unfold lunsPerGroup at group
  unfold rowsPerLine
  rw [group]
  exact Nat.div_mul_cancel config.diesWhole

theorem config_geometry (config : DualConfig) : Geometry (ssdInitParams config) := by
  have rows := config_rows config
  have dies := config.diesPositive
  refine ⟨⟨config.channelsPositive, config.planesPositive, config_groups_positive config, ?_, ?_⟩, ?_, ?_⟩
  · rw [← rows] at dies
    exact Nat.pos_of_mul_pos_right dies
  · rw [config_luns_per_group]
    exact rows.symm
  · have total := config_groups config
    rw [← rows, ← Nat.mul_assoc] at total
    exact Nat.eq_of_mul_eq_mul_right config.channelsPositive total
  · change config.diesPerZone * config.plnsPerLun = _
    rw [← rows]
    rfl

theorem dual_owned_rows (config : DualConfig) (loc : Loc) :
    ownedRows (dualParams config loc) = mediaRows (ssdInitParams config) loc :=
  Nat.mul_div_cancel _ (config_groups_positive config)

theorem dual_whole_rows (config : DualConfig) (loc : Loc) : WholeRows (dualParams config loc) := by
  refine ⟨config_geometry config, ?_⟩
  rw [dual_owned_rows]
  rfl

theorem dual_first_owned (config : DualConfig) (loc : Loc) :
    zmsFirstOwnedBlk (dualParams config loc) = if loc = .pslc then 0 else config.slcInitBlks := by
  cases loc with
  | pslc => rfl
  | normal => rfl

theorem dual_media_rows (config : DualConfig) (loc : Loc) :
    mediaRows (ssdInitParams config) loc = if loc = .pslc then config.slcInitBlks else config.blksPerPln - config.slcInitBlks := by
  cases loc with
  | pslc => rfl
  | normal => exact if_pos config.tlcPresent

-- The blocks of a dual namespace all have the size of its medium.
def mediaPgsPerBlk (spp : SsdParams) (loc : Loc) : Nat := if loc = .pslc then spp.pslcPgsPerBlk else spp.pgsPerBlk

theorem dual_blk_medium (config : DualConfig) (loc : Loc) (blk : Nat)
    (first : zmsFirstOwnedBlk (dualParams config loc) ≤ blk)
    (last : blk < zmsFirstOwnedBlk (dualParams config loc) + ownedRows (dualParams config loc)) :
    blk < config.slcInitBlks ↔ loc = .pslc := by
  rw [dual_owned_rows, dual_media_rows, dual_first_owned] at last
  rw [dual_first_owned] at first
  cases loc with
  | pslc => simpa using last
  | normal => simpa using first

theorem dual_used_pgs (config : DualConfig) (loc : Loc) (blk : Nat)
    (first : zmsFirstOwnedBlk (dualParams config loc) ≤ blk)
    (last : blk < zmsFirstOwnedBlk (dualParams config loc) + ownedRows (dualParams config loc)) :
    usedPgs (ssdInitParams config) blk = mediaPgsPerBlk (ssdInitParams config) loc := by
  have medium := dual_blk_medium config loc blk first last
  unfold usedPgs mediaPgsPerBlk
  have zones : (blk < (ssdInitParams config).metaPslcBlks ∨
      (ssdInitParams config).metaPslcBlks + (ssdInitParams config).metaNormalBlks ≤ blk ∧
        blk < (ssdInitParams config).metaNormalBlks + (ssdInitParams config).pslcBlks) ↔ blk < config.slcInitBlks := by
    change (blk < 0 ∨ 0 + 0 ≤ blk ∧ blk < 0 + config.slcInitBlks) ↔ _
    omega
  simp only [zones, medium]

theorem config_media_pgs_per_blk (config : DualConfig) (loc : Loc) :
    mediaPgsPerBlk (ssdInitParams config) loc =
      config.flashPageSize / pgsz * ((if loc = .pslc then 1 else config.cellMode) * oneshots config) := by
  have slc := config_pslc_pgs_per_blk config
  have tlc := config_pgs_per_blk config
  unfold mediaPgsPerBlk
  split
  · rw [slc, Nat.one_mul]
  · rw [tlc, Nat.mul_assoc]

theorem dual_medium (config : DualConfig) (loc : Loc) : Medium (dualParams config loc) := by
  have flash := config_flash_positive config
  refine ⟨dual_whole_rows config loc, ?_, flash, ?_, ?_⟩
  · have slc := config.slcEnough
    have tlc := config.tlcPresent
    rw [dual_owned_rows, dual_media_rows]
    split <;> omega
  · intro blk first last
    rw [show (dualParams config loc).spp = ssdInitParams config from rfl, dual_used_pgs config loc blk first last,
      config_media_pgs_per_blk]
    have cell := config.cellPositive
    have shots := config_oneshots_positive config
    refine Nat.mul_pos flash (Nat.mul_pos ?_ shots)
    split <;> omega
  · intro blk first last
    rw [show (dualParams config loc).spp = ssdInitParams config from rfl, dual_used_pgs config loc blk first last,
      config_media_pgs_per_blk]
    exact Nat.dvd_mul_right _ _

section Lines

variable (p : Params) (rows : GroupRows p.spp)

include rows in
theorem group_size : p.spp.ttLuns / p.spp.lineGroups = rowsPerLine p.spp * p.spp.nchs := rows.group

include rows in
theorem die_of_block (block : Block) (ch : block.plane.ch < p.spp.nchs) :
    (block.plane.lun * p.spp.nchs + block.plane.ch) / (p.spp.ttLuns / p.spp.lineGroups) = block.plane.lun / rowsPerLine p.spp ∧
      (block.plane.lun * p.spp.nchs + block.plane.ch) % (p.spp.ttLuns / p.spp.lineGroups) =
        block.plane.lun % rowsPerLine p.spp * p.spp.nchs + block.plane.ch := by
  rw [group_size p rows, Nat.mul_comm (rowsPerLine p.spp), ← Nat.div_div_eq_div_mul, Radix.div_digit _ _ _ ch]
  refine ⟨rfl, ?_⟩
  rw [Nat.mod_mul, Radix.mod_digit _ _ _ ch, Radix.div_digit _ _ _ ch]
  ring

def lmidOf (block : Block) : Nat :=
  (block.blk - zmsFirstOwnedBlk p) * p.spp.lineGroups + block.plane.lun / rowsPerLine p.spp

def slotOf (block : Block) : Nat :=
  (block.plane.lun % rowsPerLine p.spp * p.spp.nchs + block.plane.ch) * p.spp.plsPerLun + block.plane.pl

include rows in
theorem get_line_of_block (block : Block) (pg : Nat) (ch : block.plane.ch < p.spp.nchs) :
    getLine p ⟨block, pg⟩ =
      if lmidOf p block < interleaveSline p then .sub (lmidOf p block) (slotOf p block) else .line (lmidOf p block) := by
  obtain ⟨group, die⟩ := die_of_block p rows block ch
  unfold getLine lmidOf slotOf
  simp only [Page.blk, Page.lun, Page.ch, Page.pl, group, die]

theorem lun_group_bound (geometry : Geometry p.spp) (lun : Nat) (bound : lun < p.spp.lunsPerCh) : lun / rowsPerLine p.spp < p.spp.lineGroups := by
  rw [geometry.luns] at bound
  exact Radix.digit_bound lun _ _ bound

theorem line_of_lmid (geometry : Geometry p.spp) (block : Block) (owned : OwnedBlock p block) (id : Nat) :
    lmidOf p block = id ↔
      block.blk = lmid2Blkid p (.line id) ∧ block.plane.lun / rowsPerLine p.spp = id % p.spp.lineGroups := by
  have group := lun_group_bound p geometry block.plane.lun owned.lun
  have first := owned.first
  unfold lmidOf lmid2Blkid topId
  constructor
  · intro same
    rw [← same, Radix.div_digit _ _ _ group, Radix.mod_digit _ _ _ group]
    exact ⟨by omega, rfl⟩
  · rintro ⟨blk, lun⟩
    rw [blk, lun, Nat.add_sub_cancel]
    exact Radix.digits id _

include rows in
theorem get_first_page_line (id : Nat) :
    getFirstPage p (.line id) = mkPage 0 (id % p.spp.lineGroups * rowsPerLine p.spp) 0 (lmid2Blkid p (.line id)) 0 := by
  unfold getFirstPage topId
  dsimp only
  rw [group_size p rows, ← Nat.mul_assoc, Nat.mul_mod_left, Nat.mul_div_cancel _ rows.channels]

include rows in
theorem get_first_page_sub (parent id : Nat) :
    getFirstPage p (.sub parent id) =
      mkPage (id % lunsPerGroup p.spp % p.spp.nchs)
        (parent % p.spp.lineGroups * rowsPerLine p.spp + id % lunsPerGroup p.spp / p.spp.nchs)
        (id / lunsPerGroup p.spp % p.spp.plsPerLun) (lmid2Blkid p (.line parent)) 0 := by
  have size : p.spp.ttLuns / p.spp.lineGroups = lunsPerGroup p.spp := rfl
  unfold getFirstPage topId lmid2Blkid topId
  dsimp only
  rw [size, rows.group, ← Nat.mul_assoc, Nat.mul_comm (parent % _ * _) p.spp.nchs, Nat.mul_add_mod,
    Nat.mul_add_div rows.channels]

include rows in
theorem luns_per_group_positive : 0 < lunsPerGroup p.spp := by
  rw [rows.group]
  exact Nat.mul_pos rows.rows rows.channels

include rows in
theorem subline_row (id : Nat) : id % lunsPerGroup p.spp / p.spp.nchs < rowsPerLine p.spp := by
  have die := Nat.mod_lt id (luns_per_group_positive p rows)
  rw [rows.group] at die ⊢
  exact Radix.digit_bound _ _ _ die

include rows in
theorem first_page_ch (ref : LineRef) : (getFirstPage p ref).ch < p.spp.nchs := by
  cases ref with
  | line id =>
      rw [get_first_page_line p rows]
      exact rows.channels
  | sub parent id =>
      rw [get_first_page_sub p rows]
      exact Nat.mod_lt _ rows.channels

-- get_first_page takes the die as the fast index of a subline, get_line the
-- plane.
include rows in
theorem first_page_slot (parent id : Nat) :
    slotOf p (getFirstPage p (.sub parent id)).block =
      id % lunsPerGroup p.spp * p.spp.plsPerLun + id / lunsPerGroup p.spp % p.spp.plsPerLun := by
  have row := subline_row p rows id
  rw [get_first_page_sub p rows]
  unfold slotOf mkPage
  dsimp only
  rw [Radix.mod_digit _ _ _ row, Radix.digits]

end Lines

section Enumeration

variable (p : Params)

-- The i-th page of a superblock line, in the order nextpageInterleave visits
-- them: page within the flash page, plane, channel, LUN row, flash page.
def linePage (id i : Nat) : Page :=
  let flashPages := i / p.spp.pgsPerFlashpg
  let planes := flashPages / p.spp.plsPerLun
  let channels := planes / p.spp.nchs
  mkPage (planes % p.spp.nchs) (id % p.spp.lineGroups * rowsPerLine p.spp + channels % rowsPerLine p.spp)
    (flashPages % p.spp.plsPerLun) (lmid2Blkid p (.line id))
    (channels / rowsPerLine p.spp * p.spp.pgsPerFlashpg + i % p.spp.pgsPerFlashpg)

def lineBlk (id : Nat) : Nat := lmid2Blkid p (.line id)

end Enumeration

end ConZone
