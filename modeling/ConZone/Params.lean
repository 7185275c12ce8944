import Mathlib.Tactic.Ring
import Mathlib.Tactic.Positivity

set_option autoImplicit false

namespace ConZone

def secsz : Nat := 512
def secsPerPg : Nat := 8
def pgsz : Nat := 4096

def u32 (value : Nat) : Nat := value % 2 ^ 32
def u64 (value : Nat) : Nat := value % 2 ^ 64

-- The zoned namespace types of zms_read_write.c. SSD_TYPE_CONZONE_SLC and
-- SSD_TYPE_CONZONE_TLC are the two namespaces of the dual build.
inductive NsType where
  | zoned
  | slc
  | tlc
  deriving DecidableEq

def zmsIsDualNs : NsType → Bool
  | .zoned => false
  | .slc | .tlc => true

inductive Loc where
  | normal
  | pslc
  deriving DecidableEq

def zmsDualTargetLoc (nsType : NsType) : Loc := if nsType = .slc then .pslc else .normal

inductive MapType where
  | pageMap
  | chunkMap
  | subZoneMap
  | zoneMap
  deriving DecidableEq

-- map_type[] in the order the searches try it.
def mapType : List MapType := [.zoneMap, .subZoneMap, .chunkMap, .pageMap]

def cellModeSlc : Nat := 1

structure SsdParams where
  nchs : Nat
  lunsPerCh : Nat
  plsPerLun : Nat
  cellMode : Nat
  blksPerPl : Nat
  pslcBlks : Nat
  metaPslcBlks : Nat
  metaNormalBlks : Nat
  pgsPerFlashpg : Nat
  pgsPerOneshotpg : Nat
  pgsPerBlk : Nat
  pgsPerLine : Nat
  pslcPgsPerOneshotpg : Nat
  pslcPgsPerBlk : Nat
  pslcPgsPerLine : Nat
  blksPerLine : Nat
  ttLuns : Nat
  lineGroups : Nat

-- The last fields hold what the realization guarantees: zones are whole pages,
-- zone_capacity did not overflow its 32 bits, and zone ids and LBAs fit theirs.
structure ZnsParams where
  nsType : NsType
  nsid : Nat
  nrZones : Nat
  zoneSize : Nat
  zoneCapacity : Nat
  pgsPerZone : Nat
  pgsPerChunk : Nat
  nrWb : Nat
  zoneWbSize : Nat
  ttLines : Nat
  pslcLines : Nat
  pgsPerLine : Nat
  pslcPgsPerLine : Nat
  ttLpns : Nat
  peerTtLpns : Nat
  ttPpns : Nat
  gcThresLinesHigh : Nat
  enableGcDelay : Bool
  preRead : Nat
  sizeAligned : pgsz ∣ zoneSize
  capacityAligned : secsz ∣ zoneCapacity
  capacityPositive : 0 < zoneCapacity
  capacityFits : zoneCapacity ≤ zoneSize
  zonesFit : nrZones < 2 ^ 32
  spaceFits : nrZones * zoneSize < 2 ^ 64

structure Params where
  spp : SsdParams
  zpp : ZnsParams

def rowsPerLine (spp : SsdParams) : Nat := spp.ttLuns / spp.lineGroups / spp.nchs

-- ssd_init_nand_plane: the first rows of every plane are programmed as pSLC.
def nandType (spp : SsdParams) (blk : Nat) : Nat :=
  if blk < spp.metaPslcBlks ∨ (spp.metaPslcBlks + spp.metaNormalBlks ≤ blk ∧ blk < spp.metaNormalBlks + spp.pslcBlks) then
    cellModeSlc
  else spp.cellMode

def usedPgs (spp : SsdParams) (blk : Nat) : Nat :=
  if blk < spp.metaPslcBlks ∨ (spp.metaPslcBlks + spp.metaNormalBlks ≤ blk ∧ blk < spp.metaNormalBlks + spp.pslcBlks) then
    spp.pslcPgsPerBlk
  else spp.pgsPerBlk

-- The constants of ssd_config.h that shape the dual build, with its static
-- asserts, the size agreement zms_realize_dual_params enforces with BUG_ON
-- (whole lines of dies, whole one-shot pages in a block) and the widths of the
-- struct ppa bit fields and of zone_capacity.
structure DualConfig where
  nandChannels : Nat
  lunsPerNandCh : Nat
  plnsPerLun : Nat
  diesPerZone : Nat
  cellMode : Nat
  flashPageSize : Nat
  blkSize : Nat
  slcInitBlks : Nat
  blksPerPln : Nat
  zoneWbSize : Nat
  chunkSize : Nat
  channelsPositive : 0 < nandChannels
  lunsPositive : 0 < lunsPerNandCh
  planesPositive : 0 < plnsPerLun
  diesPositive : 0 < diesPerZone
  diesWhole : nandChannels ∣ diesPerZone
  groupsWhole : diesPerZone ∣ nandChannels * lunsPerNandCh
  cellPositive : 0 < cellMode
  cellBypass : cellMode < 4
  flashPositive : 0 < flashPageSize
  flashWhole : pgsz ∣ flashPageSize
  blkPositive : 0 < blkSize
  blkWhole : flashPageSize * cellMode ∣ blkSize
  slcEnough : 4 ≤ slcInitBlks
  tlcPresent : slcInitBlks < blksPerPln
  channelsFit : nandChannels < 2 ^ 8
  lunsFit : lunsPerNandCh < 2 ^ 8
  planesFit : plnsPerLun < 2 ^ 8
  blocksFit : blksPerPln ≤ 2 ^ 16
  pagesFit : blkSize / pgsz < 2 ^ 16
  zoneFits : diesPerZone * plnsPerLun * blkSize < 2 ^ 32

def ssdInitParams (config : DualConfig) : SsdParams :=
  let oneshotPageSize := config.flashPageSize * config.cellMode
  let pgsPerOneshotpg := oneshotPageSize / pgsz
  let oneshotpgsPerBlk := config.blkSize / oneshotPageSize
  let pgsPerBlk := pgsPerOneshotpg * oneshotpgsPerBlk
  let ttLuns := config.lunsPerNandCh * config.nandChannels
  let blksPerLine := config.diesPerZone * config.plnsPerLun
  let pslcPgsPerBlk := (config.blkSize / config.cellMode + pgsz - 1) / pgsz
  { nchs := config.nandChannels, lunsPerCh := config.lunsPerNandCh, plsPerLun := config.plnsPerLun,
    cellMode := config.cellMode, blksPerPl := config.blksPerPln, pslcBlks := config.slcInitBlks,
    metaPslcBlks := 0, metaNormalBlks := 0, pgsPerFlashpg := config.flashPageSize / pgsz,
    pgsPerOneshotpg := pgsPerOneshotpg, pgsPerBlk := pgsPerBlk, pgsPerLine := blksPerLine * pgsPerBlk,
    pslcPgsPerOneshotpg := config.flashPageSize / pgsz, pslcPgsPerBlk := pslcPgsPerBlk,
    pslcPgsPerLine := blksPerLine * pslcPgsPerBlk, blksPerLine := blksPerLine, ttLuns := ttLuns,
    lineGroups := ttLuns / config.diesPerZone }

def dualNsType : Loc → NsType
  | .pslc => .slc
  | .normal => .tlc

def mediaRows (spp : SsdParams) (loc : Loc) : Nat :=
  if loc = .pslc then spp.pslcBlks
  else if spp.pslcBlks < spp.blksPerPl then spp.blksPerPl - spp.pslcBlks else 0

def mediaPgsPerLine (spp : SsdParams) (loc : Loc) : Nat :=
  if loc = .pslc then spp.pslcPgsPerLine else spp.pgsPerLine

theorem config_oneshot_pages (config : DualConfig) :
    config.flashPageSize * config.cellMode / pgsz = config.flashPageSize / pgsz * config.cellMode := by
  obtain ⟨pages, whole⟩ := config.flashWhole
  rw [whole, Nat.mul_assoc, Nat.mul_div_cancel_left _ (by decide), Nat.mul_div_cancel_left _ (by decide)]

-- Both media have the same number of one-shot pages in a block; a TLC one is
-- cellMode flash pages long, a pSLC one a single flash page.
def oneshots (config : DualConfig) : Nat := config.blkSize / (config.flashPageSize * config.cellMode)

theorem config_blk_size (config : DualConfig) :
    config.blkSize = config.flashPageSize * config.cellMode * oneshots config :=
  (Nat.mul_div_cancel' config.blkWhole).symm

theorem config_pgs_per_blk (config : DualConfig) :
    (ssdInitParams config).pgsPerBlk = config.flashPageSize / pgsz * config.cellMode * oneshots config := by
  simp only [ssdInitParams, config_oneshot_pages, oneshots]

theorem config_pslc_pgs_per_blk (config : DualConfig) :
    (ssdInitParams config).pslcPgsPerBlk = config.flashPageSize / pgsz * oneshots config := by
  obtain ⟨pages, whole⟩ := config.flashWhole
  have size : config.blkSize / config.cellMode = pgsz * (pages * oneshots config) := by
    have product : config.blkSize = pgsz * (pages * oneshots config) * config.cellMode := by
      rw [config_blk_size, whole]; ring
    rw [product, Nat.mul_div_cancel _ config.cellPositive]
  have flash : config.flashPageSize / pgsz = pages := by
    rw [whole, Nat.mul_div_cancel_left _ (by decide)]
  change (config.blkSize / config.cellMode + pgsz - 1) / pgsz = _
  rw [size, flash]
  have positive : 0 < pgsz := by decide
  rw [Nat.add_sub_assoc positive, Nat.mul_add_div positive,
    Nat.div_eq_of_lt (by have : pgsz = 4096 := rfl; omega), Nat.add_zero]

theorem config_flash_positive (config : DualConfig) : 0 < config.flashPageSize / pgsz := by
  obtain ⟨pages, whole⟩ := config.flashWhole
  have positive := config.flashPositive
  rw [whole, Nat.mul_div_cancel_left _ (by decide)]
  rcases Nat.eq_zero_or_pos pages with zero | some
  · rw [whole, zero] at positive; omega
  · exact some

theorem config_oneshots_positive (config : DualConfig) : 0 < oneshots config := by
  have positive := config.blkPositive
  rw [config_blk_size] at positive
  exact Nat.pos_of_mul_pos_left positive

theorem config_media_pgs_positive (config : DualConfig) (loc : Loc) :
    0 < mediaPgsPerLine (ssdInitParams config) loc := by
  have dies := config.diesPositive
  have planes := config.planesPositive
  have flash := config_flash_positive config
  have shots := config_oneshots_positive config
  have cell := config.cellPositive
  have slcPages := config_pslc_pgs_per_blk config
  have tlcPages := config_pgs_per_blk config
  unfold mediaPgsPerLine
  split
  · change 0 < config.diesPerZone * config.plnsPerLun * (ssdInitParams config).pslcPgsPerBlk
    rw [slcPages]
    positivity
  · change 0 < config.diesPerZone * config.plnsPerLun * (ssdInitParams config).pgsPerBlk
    rw [tlcPages]
    positivity

theorem config_zone_bytes (config : DualConfig) (loc : Loc) :
    mediaPgsPerLine (ssdInitParams config) loc * pgsz ≤ config.diesPerZone * config.plnsPerLun * config.blkSize := by
  obtain ⟨pages, whole⟩ := config.flashWhole
  have flash : config.flashPageSize / pgsz = pages := by
    rw [whole, Nat.mul_div_cancel_left _ (by decide)]
  have slcPages := config_pslc_pgs_per_blk config
  have tlcPages := config_pgs_per_blk config
  have cell := config.cellPositive
  rw [flash] at slcPages tlcPages
  have size := config_blk_size config
  rw [whole] at size
  unfold mediaPgsPerLine
  split
  · change config.diesPerZone * config.plnsPerLun * (ssdInitParams config).pslcPgsPerBlk * pgsz ≤ _
    rw [slcPages, size, Nat.mul_assoc]
    refine Nat.mul_le_mul_left _ ?_
    calc pages * oneshots config * pgsz ≤ pages * oneshots config * pgsz * config.cellMode :=
          Nat.le_mul_of_pos_right _ cell
      _ = pgsz * pages * config.cellMode * oneshots config := by ring
  · change config.diesPerZone * config.plnsPerLun * (ssdInitParams config).pgsPerBlk * pgsz ≤ _
    rw [tlcPages, size, Nat.mul_assoc]
    exact Nat.le_of_eq (by ring)

def dualTtLines (config : DualConfig) (loc : Loc) : Nat :=
  mediaRows (ssdInitParams config) loc * (ssdInitParams config).lineGroups

def dualZoneSize (config : DualConfig) (loc : Loc) : Nat := mediaPgsPerLine (ssdInitParams config) loc * pgsz

theorem dual_tt_lines_bound (config : DualConfig) (loc : Loc) : dualTtLines config loc ≤ 2 ^ 32 - 1 := by
  have rows : mediaRows (ssdInitParams config) loc ≤ 2 ^ 16 := by
    have slc : config.slcInitBlks < config.blksPerPln := config.tlcPresent
    have total := config.blocksFit
    unfold mediaRows
    simp only [ssdInitParams, slc, ↓reduceIte]
    split <;> omega
  have groups : (ssdInitParams config).lineGroups ≤ 2 ^ 8 * 2 ^ 8 - 2 ^ 8 := by
    have luns := config.lunsFit
    have channels := config.channelsFit
    change config.lunsPerNandCh * config.nandChannels / config.diesPerZone ≤ _
    calc config.lunsPerNandCh * config.nandChannels / config.diesPerZone
        ≤ config.lunsPerNandCh * config.nandChannels := Nat.div_le_self _ _
      _ ≤ (2 ^ 8 - 1) * (2 ^ 8) := Nat.mul_le_mul (by omega) (by omega)
      _ = 2 ^ 8 * 2 ^ 8 - 2 ^ 8 := by decide
  calc dualTtLines config loc ≤ 2 ^ 16 * (2 ^ 8 * 2 ^ 8 - 2 ^ 8) := Nat.mul_le_mul rows groups
    _ ≤ 2 ^ 32 - 1 := by decide

theorem dual_zone_size_bound (config : DualConfig) (loc : Loc) : dualZoneSize config loc < 2 ^ 32 :=
  Nat.lt_of_le_of_lt (config_zone_bytes config loc) config.zoneFits

theorem dual_zone_size_positive (config : DualConfig) (loc : Loc) : 0 < dualZoneSize config loc :=
  Nat.mul_pos (config_media_pgs_positive config loc) (by decide)

def otherLoc : Loc → Loc
  | .pslc => .normal
  | .normal => .pslc

-- zms_init_params followed by zms_realize_dual_params: one zone is exactly one
-- superblock line of the medium, so capacity and size agree.
def dualParams (config : DualConfig) (loc : Loc) : Params where
  spp := ssdInitParams config
  zpp :=
    let spp := ssdInitParams config
    let pgsPerLine := mediaPgsPerLine spp loc
    let ttLines := dualTtLines config loc
    let zoneSize := dualZoneSize config loc
    let programUnit := (if loc = .pslc then config.flashPageSize else config.flashPageSize * config.cellMode) *
      (config.diesPerZone * config.plnsPerLun)
    { nsType := dualNsType loc, nsid := if loc = .pslc then 0 else 1, nrZones := ttLines * zoneSize / zoneSize,
      zoneSize := zoneSize, zoneCapacity := zoneSize, pgsPerZone := zoneSize / pgsz,
      pgsPerChunk := config.chunkSize / pgsz, nrWb := max 1 (config.zoneWbSize / programUnit),
      zoneWbSize := config.zoneWbSize, ttLines := ttLines,
      pslcLines := if loc = .pslc then ttLines else 0, pgsPerLine := pgsPerLine,
      pslcPgsPerLine := spp.pslcPgsPerLine, ttLpns := (ttLines * zoneSize + pgsz - 1) / pgsz,
      peerTtLpns := (dualTtLines config (otherLoc loc) * dualZoneSize config (otherLoc loc) + pgsz - 1) / pgsz,
      ttPpns := ttLines * pgsPerLine, gcThresLinesHigh := 2, enableGcDelay := true, preRead := 0,
      sizeAligned := Nat.dvd_mul_left _ _, capacityAligned := Dvd.dvd.mul_left (by decide) _,
      capacityPositive := dual_zone_size_positive config loc,
      capacityFits := Nat.le_refl _,
      zonesFit := by
        have bound := dual_tt_lines_bound config loc
        rw [Nat.mul_div_cancel _ (dual_zone_size_positive config loc)]
        omega,
      spaceFits := by
        have lines := dual_tt_lines_bound config loc
        have size := dual_zone_size_bound config loc
        rw [Nat.mul_div_cancel _ (dual_zone_size_positive config loc)]
        calc dualTtLines config loc * dualZoneSize config loc ≤ (2 ^ 32 - 1) * (2 ^ 32 - 1) :=
              Nat.mul_le_mul lines (by omega)
          _ < 2 ^ 64 := by decide }

theorem dual_nr_zones (config : DualConfig) (loc : Loc) :
    (dualParams config loc).zpp.nrZones = dualTtLines config loc :=
  Nat.mul_div_cancel _ (dual_zone_size_positive config loc)

theorem dual_pgs_per_zone (config : DualConfig) (loc : Loc) :
    (dualParams config loc).zpp.pgsPerZone = (dualParams config loc).zpp.pgsPerLine :=
  Nat.mul_div_cancel _ (by decide)

theorem dual_tt_lpns (config : DualConfig) (loc : Loc) :
    (dualParams config loc).zpp.ttLpns = (dualParams config loc).zpp.nrZones * (dualParams config loc).zpp.pgsPerZone := by
  rw [dual_nr_zones, dual_pgs_per_zone]
  change (dualTtLines config loc * (mediaPgsPerLine (ssdInitParams config) loc * pgsz) + pgsz - 1) / pgsz = _
  have positive : 0 < pgsz := by decide
  rw [← Nat.mul_assoc, Nat.mul_comm _ pgsz, Nat.add_sub_assoc positive, Nat.mul_add_div positive,
    Nat.div_eq_of_lt (by have : pgsz = 4096 := rfl; omega), Nat.add_zero]
  rfl

end ConZone
