import ConZone.Bounded

set_option autoImplicit false

namespace ConZone

section Dual

variable (config : DualConfig) (loc : Loc)

def mediaOneshot : Nat := config.flashPageSize / pgsz * (if loc = .pslc then 1 else config.cellMode)

theorem media_oneshot_positive : 0 < mediaOneshot config loc := by
  have flash := config_flash_positive config
  have cell := config.cellPositive
  unfold mediaOneshot
  refine Nat.mul_pos flash ?_
  split <;> omega

theorem media_pgs_oneshots : mediaPgsPerBlk (ssdInitParams config) loc = mediaOneshot config loc * oneshots config := by
  rw [config_media_pgs_per_blk, mediaOneshot, Nat.mul_assoc]

theorem dual_nand_type (blk : Nat) (first : zmsFirstOwnedBlk (dualParams config loc) ≤ blk)
    (last : blk < zmsFirstOwnedBlk (dualParams config loc) + ownedRows (dualParams config loc)) :
    nandType (ssdInitParams config) blk = if loc = .pslc then cellModeSlc else config.cellMode := by
  have medium := dual_blk_medium config loc blk first last
  unfold nandType
  have zones : (blk < (ssdInitParams config).metaPslcBlks ∨
      (ssdInitParams config).metaPslcBlks + (ssdInitParams config).metaNormalBlks ≤ blk ∧
        blk < (ssdInitParams config).metaNormalBlks + (ssdInitParams config).pslcBlks) ↔ blk < config.slcInitBlks := by
    change (blk < 0 ∨ 0 + 0 ≤ blk ∧ blk < 0 + config.slcInitBlks) ↔ _
    omega
  simp only [zones, medium]
  rfl

-- A TLC block programmed with one bit a cell is taken for a pSLC one.
theorem dual_page_location (page : Page) (owned : OwnedPage (dualParams config loc) page) :
    getPageLocation (dualParams config loc) page = if config.cellMode = 1 then .pslc else loc := by
  have type := dual_nand_type config loc page.blk owned.block.first owned.block.last
  unfold getPageLocation locOfNandType
  rw [show (dualParams config loc).spp = ssdInitParams config from rfl, type]
  cases loc with
  | pslc => simp
  | normal => simp [cellModeSlc]

theorem dual_oneshot (page : Page) (owned : OwnedPage (dualParams config loc) page) :
    oneshotOf (dualParams config loc) (getPageLocation (dualParams config loc) page) = mediaOneshot config loc := by
  have slc : oneshotOf (dualParams config loc) .pslc = config.flashPageSize / pgsz := rfl
  have tlc : oneshotOf (dualParams config loc) .normal = config.flashPageSize / pgsz * config.cellMode :=
    config_oneshot_pages config
  rw [dual_page_location config loc page owned]
  unfold mediaOneshot
  cases loc with
  | pslc => simp [slc]
  | normal =>
      by_cases single : config.cellMode = 1
      · simp [single, slc]
      · simp [single, tlc]

-- The planes a row of blocks spans, and the place of a page's plane among them.
def rowPlanes : Nat := config.nandChannels * config.lunsPerNandCh * config.plnsPerLun

def parallelIdx (page : Page) : Nat :=
  page.lun * (config.nandChannels * config.plnsPerLun) + page.ch * config.plnsPerLun + page.pl

theorem parallel_idx_bound (page : Page) (owned : OwnedPage (dualParams config loc) page) :
    parallelIdx config page < rowPlanes config := by
  have ch : page.ch < config.nandChannels := owned.block.ch
  have lun : page.lun < config.lunsPerNandCh := owned.block.lun
  have pl : page.pl < config.plnsPerLun := owned.block.pl
  have inner := Radix.pair_bound page.ch page.pl config.nandChannels config.plnsPerLun ch pl
  have outer := Radix.pair_bound page.lun (page.ch * config.plnsPerLun + page.pl) config.lunsPerNandCh
    (config.nandChannels * config.plnsPerLun) lun inner
  have size : config.lunsPerNandCh * (config.nandChannels * config.plnsPerLun) = rowPlanes config := by
    unfold rowPlanes
    ring
  unfold parallelIdx
  omega

def pageOffset (page : Page) : Nat :=
  (page.pg / mediaOneshot config loc * rowPlanes config + parallelIdx config page) * mediaOneshot config loc
    + page.pg % mediaOneshot config loc

theorem page_offset_bound (page : Page) (owned : OwnedPage (dualParams config loc) page) :
    pageOffset config loc page < mediaPgsPerBlk (ssdInitParams config) loc * rowPlanes config := by
  have positive := media_oneshot_positive config loc
  have pg : page.pg < mediaPgsPerBlk (ssdInitParams config) loc := by
    have bound := owned.pg
    rwa [show (dualParams config loc).spp = ssdInitParams config from rfl,
      dual_used_pgs config loc page.blk owned.block.first owned.block.last] at bound
  rw [media_pgs_oneshots, Nat.mul_comm (mediaOneshot config loc)] at pg
  have shot := Radix.digit_bound page.pg (oneshots config) (mediaOneshot config loc) pg
  have rowed := Radix.pair_bound _ _ (oneshots config) (rowPlanes config) shot (parallel_idx_bound config loc page owned)
  have total := Radix.pair_bound _ _ _ (mediaOneshot config loc) rowed (Nat.mod_lt page.pg positive)
  have size : oneshots config * rowPlanes config * mediaOneshot config loc =
      mediaPgsPerBlk (ssdInitParams config) loc * rowPlanes config := by
    rw [media_pgs_oneshots]
    ring
  rw [size] at total
  exact total

theorem page_index_split (page : Page) (owned : OwnedPage (dualParams config loc) page) :
    ppa2Pgidx (dualParams config loc) page =
      topId (getLine (dualParams config loc) page) * pgsPerLineOf (dualParams config loc) (getLine (dualParams config loc) page)
        + pageOffset config loc page := by
  have oneshot := dual_oneshot config loc page owned
  unfold ppa2Pgidx
  dsimp only
  rw [oneshot]
  have planes : mediaOneshot config loc * (dualParams config loc).spp.nchs * (dualParams config loc).spp.lunsPerCh
      * (dualParams config loc).spp.plsPerLun = mediaOneshot config loc * rowPlanes config := by
    change mediaOneshot config loc * config.nandChannels * config.lunsPerNandCh * config.plnsPerLun = _
    unfold rowPlanes
    ring
  have place : page.lun * ((dualParams config loc).spp.nchs * (dualParams config loc).spp.plsPerLun)
      + page.ch * (dualParams config loc).spp.plsPerLun + page.pl = parallelIdx config page := rfl
  rw [planes, place]
  unfold pageOffset
  ring

theorem dual_pgs_per_line (ref : LineRef) (known : KnownRef (dualParams config loc) ref) :
    pgsPerLineOf (dualParams config loc) ref =
      if isSuperblock ref then mediaPgsPerLine (ssdInitParams config) loc else mediaPgsPerBlk (ssdInitParams config) loc := by
  have bound : topId ref < dualTtLines config loc := known
  cases loc with
  | pslc =>
      cases ref with
      | line id =>
          have inside : id < (dualParams config .pslc).zpp.pslcLines := bound
          exact if_pos inside
      | sub parent id =>
          have inside : parent < (dualParams config .pslc).zpp.pslcLines := bound
          exact if_pos inside
  | normal =>
      cases ref with
      | line id => rfl
      | sub parent id => rfl

theorem media_line_blocks : mediaPgsPerLine (ssdInitParams config) loc =
    config.diesPerZone * config.plnsPerLun * mediaPgsPerBlk (ssdInitParams config) loc := by
  cases loc with
  | pslc => rfl
  | normal => rfl

theorem single_group_planes (single : (ssdInitParams config).lineGroups = 1) :
    rowPlanes config = config.diesPerZone * config.plnsPerLun := by
  have groups := config_groups config
  rw [single, Nat.one_mul] at groups
  unfold rowPlanes
  rw [← groups]
  change _ = config.lunsPerNandCh * config.nandChannels * config.plnsPerLun
  ring

theorem dual_interleave : interleaveSline (dualParams config loc) = if dualTtLines config loc < 4 then dualTtLines config loc else 0 := by
  have dual : zmsIsDualNs (dualParams config loc).zpp.nsType = true := by cases loc <;> rfl
  have zone : (dualParams config loc).zpp.pgsPerZone = (dualParams config loc).zpp.pgsPerLine := Nat.mul_div_cancel _ (by decide)
  have lines : (dualParams config loc).zpp.ttLines = dualTtLines config loc := rfl
  unfold interleaveSline
  rw [if_pos dual, zone, lines]
  simp only [Nat.lt_irrefl, false_or]
  split
  · rfl
  · rename_i several
    cases loc with
    | pslc => exact if_neg several
    | normal => simp [dualParams]

theorem dual_line_of (page : Page) (owned : OwnedPage (dualParams config loc) page) :
    getLine (dualParams config loc) page =
      if dualTtLines config loc < 4 then .sub (lmidOf (dualParams config loc) page.block) (slotOf (dualParams config loc) page.block)
      else .line (lmidOf (dualParams config loc) page.block) := by
  have known : topId (getLine (dualParams config loc) page) < dualTtLines config loc :=
    get_line_known _ (dual_medium config loc) page owned
  have line := get_line_of_block (dualParams config loc) (config_geometry config).toGroupRows page.block page.pg owned.block.ch
  have same : getLine (dualParams config loc) ⟨page.block, page.pg⟩ = getLine (dualParams config loc) page := rfl
  rw [same, dual_interleave] at line
  rw [line] at known ⊢
  split
  · rename_i few
    rw [if_pos few] at known
    split at known
    · rename_i split
      rw [if_pos split]
    · rename_i whole
      exact absurd known whole
  · exact if_neg (Nat.not_lt_zero _)

end Dual

def PagesInRange (p : Params) : Prop := ∀ page, OwnedPage p page → ppa2Pgidx p page < p.zpp.ttPpns

theorem single_group_in_range (config : DualConfig) (loc : Loc) (single : (ssdInitParams config).lineGroups = 1) :
    PagesInRange (dualParams config loc) := by
  intro page owned
  have known : topId (getLine (dualParams config loc) page) < dualTtLines config loc :=
    get_line_known _ (dual_medium config loc) page owned
  have offset := page_offset_bound config loc page owned
  have line := media_line_blocks config loc
  rw [single_group_planes config single, Nat.mul_comm, ← line] at offset
  have size : pgsPerLineOf (dualParams config loc) (getLine (dualParams config loc) page) ≤ mediaPgsPerLine (ssdInitParams config) loc := by
    rw [dual_pgs_per_line config loc _ known]
    split
    · exact Nat.le_refl _
    · rw [line]
      exact Nat.le_mul_of_pos_left _ (Nat.mul_pos config.diesPositive config.planesPositive)
  rw [page_index_split config loc page owned]
  change _ < dualTtLines config loc * mediaPgsPerLine (ssdInitParams config) loc
  calc topId (getLine (dualParams config loc) page) * pgsPerLineOf (dualParams config loc) (getLine (dualParams config loc) page)
        + pageOffset config loc page
      ≤ topId (getLine (dualParams config loc) page) * mediaPgsPerLine (ssdInitParams config) loc + pageOffset config loc page :=
        Nat.add_le_add_right (Nat.mul_le_mul_left _ size) _
    _ < dualTtLines config loc * mediaPgsPerLine (ssdInitParams config) loc := Radix.pair_bound _ _ _ _ known offset

end ConZone
