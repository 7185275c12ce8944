import ConZone.Layout
import Mathlib.Data.Int.DivMod

set_option autoImplicit false

namespace ConZone

def kb (count : Nat) : Nat := count * 2 ^ 10
def mb (count : Nat) : Nat := count * 2 ^ 20

def flashPageSizeBytes : Nat := kb 16
def physicalMetaSize : Nat := mb 7392
def cellModeQlc : Nat := 4

-- The constants of the dual build before any check. BLK_SIZE is an unsigned
-- long long, the cell modes are the five of ssd_config.h.
structure DualConstants where
  nandChannels : Nat
  lunsPerNandCh : Nat
  plnsPerLun : Nat
  diesPerZone : Nat
  cellMode : Nat
  blkSize : Nat
  dualSlcInitBlks : Nat
  dualBlksPerPln : Nat
  cellKnown : cellMode ≤ cellModeQlc
  blkFits : blkSize < 2 ^ 64

section Asserts

variable (constants : DualConstants)

def oneshotPageSize : Nat := flashPageSizeBytes * constants.cellMode
def pslcBlkSize : Nat := constants.blkSize / constants.cellMode

def metaRowSize : Nat :=
  u64 (u64 (u64 (constants.blkSize * constants.nandChannels) * constants.lunsPerNandCh) * constants.plnsPerLun)

def metaPslcInitBlks : Nat := u64 (physicalMetaSize + metaRowSize constants - 1) / metaRowSize constants

-- A division or remainder by zero does not compile.
structure StaticAsserts : Prop where
  bypass : constants.cellMode ≠ cellModeQlc
  oneshot : oneshotPageSize constants % flashPageSizeBytes = 0
  some : constants.blkSize ≠ 0 ∨ constants.dualBlksPerPln ≠ 0
  blk : oneshotPageSize constants ≠ 0 ∧ u64 (constants.blkSize * constants.plnsPerLun) % oneshotPageSize constants = 0
  dies : constants.nandChannels ≠ 0 ∧ constants.diesPerZone % constants.nandChannels = 0
  metaBlks : metaRowSize constants ≠ 0 ∧ 4 ≤ metaPslcInitBlks constants
  pslcBlk : u64 (pslcBlkSize constants * constants.plnsPerLun) % flashPageSizeBytes = 0
  slcEnough : 4 ≤ constants.dualSlcInitBlks
  tlcPresent : constants.dualSlcInitBlks < constants.dualBlksPerPln

-- NVMEV_ASSERT in ssd_init_params, for one partition.
structure InitAsserts : Prop where
  parts : constants.nandChannels % 1 = 0
  blkSize : 0 < constants.blkSize
  rows : constants.dualSlcInitBlks < constants.dualBlksPerPln
  pages : oneshotPageSize constants % pgsz = 0 ∧ flashPageSizeBytes % pgsz = 0
  oneshot : oneshotPageSize constants % flashPageSizeBytes = 0

structure Asserted : Prop extends StaticAsserts constants, InitAsserts constants

end Asserts

section Realization

variable (constants : DualConstants)

def initParams : SsdParams :=
  let pgsPerOneshotpg := oneshotPageSize constants / pgsz
  let oneshotpgsPerBlk := constants.blkSize / oneshotPageSize constants
  let pgsPerBlk := u64 (pgsPerOneshotpg * oneshotpgsPerBlk)
  let ttLuns := constants.lunsPerNandCh * constants.nandChannels
  let blksPerLine := u64 (constants.diesPerZone * constants.plnsPerLun)
  let pslcPgsPerBlk := u64 (pslcBlkSize constants + pgsz - 1) / pgsz
  { nchs := constants.nandChannels, lunsPerCh := constants.lunsPerNandCh, plsPerLun := constants.plnsPerLun,
    cellMode := constants.cellMode, blksPerPl := constants.dualBlksPerPln, pslcBlks := constants.dualSlcInitBlks,
    metaPslcBlks := 0, metaNormalBlks := 0, pgsPerFlashpg := flashPageSizeBytes / pgsz, pgsPerOneshotpg := pgsPerOneshotpg,
    pgsPerBlk := pgsPerBlk, pgsPerLine := u64 (blksPerLine * pgsPerBlk), pslcPgsPerOneshotpg := flashPageSizeBytes / pgsz,
    pslcPgsPerBlk := pslcPgsPerBlk, pslcPgsPerLine := u64 (blksPerLine * pslcPgsPerBlk), blksPerLine := blksPerLine,
    ttLuns := ttLuns, lineGroups := ttLuns / constants.diesPerZone }

def dualRows : Loc → Nat
  | .pslc => constants.dualSlcInitBlks
  | .normal => constants.dualBlksPerPln - constants.dualSlcInitBlks

def dualBlkSize : Loc → Nat
  | .pslc => pslcBlkSize constants
  | .normal => constants.blkSize

-- DUAL_SLC_CAPACITY and DUAL_TLC_CAPACITY.
def dualCapacity (loc : Loc) : Nat :=
  u64 (u64 (u64 (u64 (dualRows constants loc * constants.nandChannels) * constants.lunsPerNandCh) * constants.plnsPerLun) *
    dualBlkSize constants loc)

end Realization

section Lines

variable (spp : SsdParams)

def realizedLines (loc : Loc) : Nat := u64 (mediaRows spp loc * spp.lineGroups)

-- zms_realize_dual_params.
def realizedSize (loc : Loc) : Nat := u64 (u64 (realizedLines spp loc * mediaPgsPerLine spp loc) * pgsz)

-- used_pgs of a block is an int.
def usedPgsInt (blk : Nat) : Int := Int.bmod (usedPgs spp blk) (2 ^ 32)

-- One of the blks_per_line blocks of a line.
structure LineBlock where
  loc : Loc
  id : Nat
  index : Nat

def InLines (slot : LineBlock) : Prop := slot.id < realizedLines spp slot.loc ∧ slot.index < spp.blksPerLine

def firstRow (loc : Loc) : Nat := if loc = .pslc then 0 else spp.pslcBlks

-- get_first_page of the block's subline, in the bit fields of struct ppa.
def blockOf (slot : LineBlock) : Block :=
  let lunsPerGroup := spp.ttLuns / spp.lineGroups
  let targetFlatLun := slot.id % spp.lineGroups * lunsPerGroup + slot.index % lunsPerGroup
  ⟨⟨targetFlatLun % spp.nchs % 2 ^ 8, targetFlatLun / spp.nchs % 2 ^ 8, slot.index / lunsPerGroup % spp.plsPerLun % 2 ^ 8⟩,
    (slot.id / spp.lineGroups + firstRow spp slot.loc) % 2 ^ 16⟩

structure DeviceBlock (block : Block) : Prop where
  ch : block.plane.ch < spp.nchs
  lun : block.plane.lun < spp.lunsPerCh
  pl : block.plane.pl < spp.plsPerLun
  blk : block.blk < spp.blksPerPl

end Lines

structure GeometryAgrees (constants : DualConstants) : Prop where
  sizes : ∀ loc, dualCapacity constants loc = realizedSize (initParams constants) loc
  flashpgs : ∀ blk, blk < (initParams constants).blksPerPl → ((initParams constants).pgsPerFlashpg : Int) ∣ usedPgsInt (initParams constants) blk
  covered : ∀ block, DeviceBlock (initParams constants) block →
    ∃ slot, (InLines (initParams constants) slot ∧ blockOf (initParams constants) slot = block) ∧
      ∀ other, InLines (initParams constants) other → blockOf (initParams constants) other = block → other = slot

-- Blocks are whole one-shot pages, the dies fall into whole zones, and struct
-- ppa has room for every block.
structure WholeGeometry (constants : DualConstants) : Prop where
  blk : oneshotPageSize constants ∣ constants.blkSize
  dies : constants.diesPerZone ∣ constants.lunsPerNandCh * constants.nandChannels
  channels : constants.nandChannels ≤ 2 ^ 8
  luns : constants.lunsPerNandCh ≤ 2 ^ 8
  planes : constants.plnsPerLun ≤ 2 ^ 8
  rows : constants.dualBlksPerPln ≤ 2 ^ 16

section Words

theorem u64_small (value : Nat) (bound : value < 2 ^ 64) : u64 value = value := Nat.mod_eq_of_lt bound

theorem u64_mod (value : Nat) : u64 value ≡ value [MOD 2 ^ 64] := Nat.mod_modEq value _

end Words

section Sizes

variable (constants : DualConstants)

theorem init_groups : (initParams constants).lineGroups = constants.lunsPerNandCh * constants.nandChannels / constants.diesPerZone := rfl

theorem asserted_positive (asserted : Asserted constants) :
    0 < constants.nandChannels ∧ 0 < constants.lunsPerNandCh ∧ 0 < constants.plnsPerLun ∧ 0 < constants.cellMode := by
  have row := asserted.metaBlks.1
  have oneshot := asserted.blk.1
  refine ⟨Nat.pos_of_ne_zero asserted.dies.1, ?_, ?_, ?_⟩
  · apply Nat.pos_of_ne_zero
    intro zero
    simp [metaRowSize, zero, u64] at row
  · apply Nat.pos_of_ne_zero
    intro zero
    simp [metaRowSize, zero, u64] at row
  · apply Nat.pos_of_ne_zero
    intro zero
    simp [oneshotPageSize, zero] at oneshot

theorem init_media_rows (asserted : Asserted constants) (loc : Loc) : mediaRows (initParams constants) loc = dualRows constants loc := by
  cases loc with
  | pslc => rfl
  | normal => exact if_pos asserted.rows

theorem dual_capacity_bytes (loc : Loc) :
    dualCapacity constants loc =
      u64 (dualRows constants loc * constants.nandChannels * constants.lunsPerNandCh * constants.plnsPerLun * dualBlkSize constants loc) := by
  have rows := (u64_mod (dualRows constants loc * constants.nandChannels)).mul_right constants.lunsPerNandCh
  have luns := ((u64_mod _).trans rows).mul_right constants.plnsPerLun
  exact ((u64_mod _).trans luns).mul_right (dualBlkSize constants loc)

theorem realized_bytes (asserted : Asserted constants) (loc : Loc) :
    realizedSize (initParams constants) loc =
      u64 (dualRows constants loc * (initParams constants).lineGroups *
        (constants.diesPerZone * constants.plnsPerLun * mediaPgsPerBlk (initParams constants) loc) * pgsz) := by
  have line : mediaPgsPerLine (initParams constants) loc ≡
      constants.diesPerZone * constants.plnsPerLun * mediaPgsPerBlk (initParams constants) loc [MOD 2 ^ 64] := by
    have blocks := u64_mod (constants.diesPerZone * constants.plnsPerLun)
    cases loc with
    | pslc => exact (u64_mod _).trans (blocks.mul_right _)
    | normal => exact (u64_mod _).trans (blocks.mul_right _)
  have lines := u64_mod (dualRows constants loc * (initParams constants).lineGroups)
  rw [realizedSize, realizedLines, init_media_rows constants asserted]
  exact ((u64_mod _).trans (lines.mul line)).mul_right pgsz

end Sizes

section Whole

variable (constants : DualConstants) (asserted : Asserted constants) (whole : WholeGeometry constants)

def wholeOneshots : Nat := constants.blkSize / oneshotPageSize constants

include whole in
theorem whole_blk_size : constants.blkSize = 16384 * constants.cellMode * wholeOneshots constants :=
  (Nat.mul_div_cancel' whole.blk).symm

include asserted whole in
theorem whole_pslc_blk_size : pslcBlkSize constants = 16384 * wholeOneshots constants := by
  obtain ⟨_, _, _, cell⟩ := asserted_positive constants asserted
  rw [pslcBlkSize, whole_blk_size constants whole, Nat.mul_right_comm, Nat.mul_div_cancel _ cell]

include asserted whole in
theorem whole_pages (loc : Loc) :
    mediaPgsPerBlk (initParams constants) loc = 4 * ((if loc = .pslc then 1 else constants.cellMode) * wholeOneshots constants) := by
  obtain ⟨_, _, _, cell⟩ := asserted_positive constants asserted
  have size := whole_blk_size constants whole
  have fits := constants.blkFits
  have shots : wholeOneshots constants ≤ constants.cellMode * wholeOneshots constants := Nat.le_mul_of_pos_left _ cell
  rw [Nat.mul_assoc] at size
  cases loc with
  | pslc =>
      have pages : mediaPgsPerBlk (initParams constants) .pslc = u64 (pslcBlkSize constants + pgsz - 1) / pgsz := rfl
      rw [pages, whole_pslc_blk_size constants asserted whole, u64_small _ (by simp only [pgsz]; omega)]
      simp only [pgsz, if_true]
      omega
  | normal =>
      have pages : mediaPgsPerBlk (initParams constants) .normal = u64 (oneshotPageSize constants / pgsz * wholeOneshots constants) := rfl
      have oneshot : oneshotPageSize constants / pgsz = 4 * constants.cellMode := by
        simp only [oneshotPageSize, flashPageSizeBytes, kb, pgsz]
        omega
      rw [pages, oneshot, Nat.mul_assoc, u64_small _ (by omega), if_neg (by decide)]

include asserted whole in
theorem whole_bytes (loc : Loc) : mediaPgsPerBlk (initParams constants) loc * pgsz = dualBlkSize constants loc := by
  rw [whole_pages constants asserted whole]
  cases loc with
  | pslc =>
      rw [dualBlkSize, whole_pslc_blk_size constants asserted whole]
      simp only [pgsz, if_true]
      ring
  | normal =>
      rw [dualBlkSize, whole_blk_size constants whole, if_neg (by decide)]
      simp only [pgsz]
      ring

include whole in
theorem whole_dies : (initParams constants).lineGroups * constants.diesPerZone = constants.lunsPerNandCh * constants.nandChannels :=
  Nat.div_mul_cancel whole.dies

include asserted whole in
theorem whole_sizes (loc : Loc) : dualCapacity constants loc = realizedSize (initParams constants) loc := by
  have dies := whole_dies constants whole
  rw [dual_capacity_bytes, realized_bytes constants asserted, ← whole_bytes constants asserted whole]
  congr 1
  calc dualRows constants loc * constants.nandChannels * constants.lunsPerNandCh * constants.plnsPerLun *
        (mediaPgsPerBlk (initParams constants) loc * pgsz) =
      dualRows constants loc * (constants.lunsPerNandCh * constants.nandChannels) * constants.plnsPerLun *
        mediaPgsPerBlk (initParams constants) loc * pgsz := by ring
    _ = dualRows constants loc * ((initParams constants).lineGroups * constants.diesPerZone) * constants.plnsPerLun *
        mediaPgsPerBlk (initParams constants) loc * pgsz := by rw [dies]
    _ = _ := by ring

theorem used_pgs_medium (blk : Nat) :
    usedPgs (initParams constants) blk = mediaPgsPerBlk (initParams constants) (if blk < constants.dualSlcInitBlks then .pslc else .normal) := by
  have rows : (blk < (initParams constants).metaPslcBlks ∨
      (initParams constants).metaPslcBlks + (initParams constants).metaNormalBlks ≤ blk ∧
        blk < (initParams constants).metaNormalBlks + (initParams constants).pslcBlks) ↔ blk < constants.dualSlcInitBlks := by
    simp [initParams]
  unfold usedPgs
  simp only [rows]
  split
  · rfl
  · rfl

theorem int_of_multiple (value : Nat) (four : 4 ∣ value) : (4 : Int) ∣ Int.bmod value (2 ^ 32) := by
  unfold Int.bmod
  dsimp only
  split
  · omega
  · omega

include asserted whole in
theorem whole_flashpgs (blk : Nat) : ((initParams constants).pgsPerFlashpg : Int) ∣ usedPgsInt (initParams constants) blk := by
  have flash : flashPageSizeBytes / pgsz = 4 := by decide
  have pages : 4 ∣ usedPgs (initParams constants) blk := by
    rw [used_pgs_medium, whole_pages constants asserted whole]
    exact Nat.dvd_mul_right 4 _
  have multiple := int_of_multiple _ pages
  have same : (initParams constants).pgsPerFlashpg = 4 := flash
  rw [same]
  exact multiple

end Whole

section Covering

variable (constants : DualConstants) (asserted : Asserted constants) (whole : WholeGeometry constants)

include asserted in
theorem luns_positive : 0 < constants.lunsPerNandCh * constants.nandChannels := by
  obtain ⟨channels, luns, _, _⟩ := asserted_positive constants asserted
  exact Nat.mul_pos luns channels

include whole in
theorem whole_luns_bound : constants.lunsPerNandCh * constants.nandChannels ≤ 2 ^ 16 :=
  (Nat.mul_le_mul whole.luns whole.channels).trans (by decide)

include asserted whole in
theorem whole_groups_positive : 0 < (initParams constants).lineGroups ∧ 0 < constants.diesPerZone := by
  have luns := luns_positive constants asserted
  rw [← whole_dies constants whole] at luns
  exact ⟨Nat.pos_of_mul_pos_right luns, Nat.pos_of_mul_pos_left luns⟩

include asserted whole in
theorem whole_luns_per_group : (initParams constants).ttLuns / (initParams constants).lineGroups = constants.diesPerZone := by
  have luns : (initParams constants).ttLuns = (initParams constants).lineGroups * constants.diesPerZone := (whole_dies constants whole).symm
  rw [luns, Nat.mul_div_cancel_left _ (whole_groups_positive constants asserted whole).1]

include asserted whole in
theorem whole_blks_per_line : (initParams constants).blksPerLine = constants.diesPerZone * constants.plnsPerLun := by
  apply u64_small
  have dies := Nat.le_of_dvd (luns_positive constants asserted) whole.dies
  have bound := Nat.mul_le_mul (dies.trans (whole_luns_bound constants whole)) whole.planes
  omega

include asserted whole in
theorem whole_lines (loc : Loc) : realizedLines (initParams constants) loc = dualRows constants loc * (initParams constants).lineGroups := by
  rw [realizedLines, init_media_rows constants asserted]
  apply u64_small
  have rows : dualRows constants loc ≤ 2 ^ 16 := by
    have total := whole.rows
    have some := asserted.rows
    cases loc with
    | pslc => exact (Nat.le_of_lt some).trans total
    | normal => exact (Nat.sub_le _ _).trans total
  have groups : (initParams constants).lineGroups ≤ 2 ^ 16 := (Nat.div_le_self _ _).trans (whole_luns_bound constants whole)
  have bound := Nat.mul_le_mul rows groups
  omega

-- The die of a block of a line, counted over the LUNs first.
def dieOf (slot : LineBlock) : Nat :=
  slot.id % (initParams constants).lineGroups * constants.diesPerZone + slot.index % constants.diesPerZone

structure BlockAt (slot : LineBlock) (block : Block) : Prop where
  ch : block.plane.ch = dieOf constants slot % constants.nandChannels
  lun : block.plane.lun = dieOf constants slot / constants.nandChannels
  pl : block.plane.pl = slot.index / constants.diesPerZone
  blk : block.blk = slot.id / (initParams constants).lineGroups + firstRow (initParams constants) slot.loc

theorem first_row_last (loc : Loc) (row : Nat) (bound : row < dualRows constants loc) (some : constants.dualSlcInitBlks < constants.dualBlksPerPln) :
    row + firstRow (initParams constants) loc < constants.dualBlksPerPln := by
  cases loc with
  | pslc => exact Nat.lt_trans bound some
  | normal =>
      have first : firstRow (initParams constants) .normal = constants.dualSlcInitBlks := rfl
      simp only [dualRows] at bound
      omega

include asserted whole in
theorem line_block_placed (slot : LineBlock) (inside : InLines (initParams constants) slot) :
    BlockAt constants slot (blockOf (initParams constants) slot) := by
  obtain ⟨groups, dies⟩ := whole_groups_positive constants asserted whole
  obtain ⟨channels, _, _, _⟩ := asserted_positive constants asserted
  obtain ⟨line, index⟩ := inside
  rw [whole_lines constants asserted whole] at line
  rw [whole_blks_per_line constants asserted whole, Nat.mul_comm] at index
  have row := Radix.digit_bound slot.id _ _ line
  have plane := Radix.digit_bound slot.index _ _ index
  have die : dieOf constants slot < constants.lunsPerNandCh * constants.nandChannels := by
    rw [← whole_dies constants whole]
    exact Radix.pair_bound _ _ _ _ (Nat.mod_lt _ groups) (Nat.mod_lt _ dies)
  have lun := Radix.digit_bound _ _ _ die
  have ch := Nat.mod_lt (dieOf constants slot) channels
  have blk := first_row_last constants slot.loc _ row asserted.rows
  have channelsFit := whole.channels
  have lunsFit := whole.luns
  have planesFit := whole.planes
  have rowsFit := whole.rows
  unfold blockOf
  rw [whole_luns_per_group constants asserted whole]
  refine ⟨?_, ?_, ?_, ?_⟩
  · exact Nat.mod_eq_of_lt (by unfold dieOf at ch; exact Nat.lt_of_lt_of_le ch channelsFit)
  · exact Nat.mod_eq_of_lt (by unfold dieOf at lun; exact Nat.lt_of_lt_of_le lun lunsFit)
  · have kept : slot.index / constants.diesPerZone % constants.plnsPerLun = slot.index / constants.diesPerZone := Nat.mod_eq_of_lt plane
    exact (congrArg (· % 2 ^ 8) kept).trans (Nat.mod_eq_of_lt (Nat.lt_of_lt_of_le plane planesFit))
  · exact Nat.mod_eq_of_lt (Nat.lt_of_lt_of_le blk rowsFit)

theorem block_at_unique (slot : LineBlock) (first second : Block) (left : BlockAt constants slot first) (right : BlockAt constants slot second) :
    first = second := by
  obtain ⟨⟨_, _, _⟩, _⟩ := first
  obtain ⟨⟨_, _, _⟩, _⟩ := second
  have ch := left.ch.trans right.ch.symm
  have lun := left.lun.trans right.lun.symm
  have pl := left.pl.trans right.pl.symm
  have blk := left.blk.trans right.blk.symm
  simp only at ch lun pl blk
  rw [ch, lun, pl, blk]

def lineBlockOf (block : Block) : LineBlock :=
  let loc := if block.blk < constants.dualSlcInitBlks then .pslc else .normal
  let die := block.plane.lun * constants.nandChannels + block.plane.ch
  ⟨loc, (block.blk - firstRow (initParams constants) loc) * (initParams constants).lineGroups + die / constants.diesPerZone,
    block.plane.pl * constants.diesPerZone + die % constants.diesPerZone⟩

include asserted whole in
theorem line_block_found (block : Block) (device : DeviceBlock (initParams constants) block) :
    InLines (initParams constants) (lineBlockOf constants block) ∧ BlockAt constants (lineBlockOf constants block) block := by
  obtain ⟨groups, dies⟩ := whole_groups_positive constants asserted whole
  have die : block.plane.lun * constants.nandChannels + block.plane.ch < constants.lunsPerNandCh * constants.nandChannels :=
    Radix.pair_bound _ _ _ _ device.lun device.ch
  have zone : (block.plane.lun * constants.nandChannels + block.plane.ch) / constants.diesPerZone < (initParams constants).lineGroups := by
    rw [← whole_dies constants whole] at die
    exact Radix.digit_bound _ _ _ die
  have inZone := Nat.mod_lt (block.plane.lun * constants.nandChannels + block.plane.ch) dies
  have split := Radix.digits (block.plane.lun * constants.nandChannels + block.plane.ch) constants.diesPerZone
  have last : block.blk < constants.dualBlksPerPln := device.blk
  have row : block.blk - firstRow (initParams constants) (lineBlockOf constants block).loc < dualRows constants (lineBlockOf constants block).loc ∧
      firstRow (initParams constants) (lineBlockOf constants block).loc ≤ block.blk := by
    unfold lineBlockOf
    dsimp only
    split
    · rename_i slc
      exact ⟨slc, Nat.zero_le _⟩
    · rename_i tlc
      have first : firstRow (initParams constants) .normal = constants.dualSlcInitBlks := rfl
      rw [first, dualRows]
      omega
  have dieSame : dieOf constants (lineBlockOf constants block) = block.plane.lun * constants.nandChannels + block.plane.ch := by
    unfold dieOf lineBlockOf
    dsimp only
    rw [Radix.mod_digit _ _ _ zone, Radix.mod_digit _ _ _ inZone]
    exact split
  refine ⟨⟨?_, ?_⟩, ?_, ?_, ?_, ?_⟩
  · rw [whole_lines constants asserted whole]
    exact Radix.pair_bound _ _ _ _ row.1 zone
  · rw [whole_blks_per_line constants asserted whole, Nat.mul_comm]
    exact Radix.pair_bound _ _ _ _ device.pl inZone
  · rw [dieSame]
    exact (Radix.mod_digit _ _ _ device.ch).symm
  · rw [dieSame]
    exact (Radix.div_digit _ _ _ device.ch).symm
  · exact (Radix.div_digit _ _ _ inZone).symm
  · have blkSame : (lineBlockOf constants block).id / (initParams constants).lineGroups =
        block.blk - firstRow (initParams constants) (lineBlockOf constants block).loc := Radix.div_digit _ _ _ zone
    rw [blkSame]
    exact (Nat.sub_add_cancel row.2).symm

include asserted whole in
theorem line_block_of_placed (slot : LineBlock) (block : Block) (inside : InLines (initParams constants) slot) (placed : BlockAt constants slot block) :
    slot = lineBlockOf constants block := by
  obtain ⟨groups, dies⟩ := whole_groups_positive constants asserted whole
  have zone := Nat.mod_lt slot.id groups
  have inZone := Nat.mod_lt slot.index dies
  have line := inside.1
  rw [whole_lines constants asserted whole] at line
  have row := Radix.digit_bound slot.id _ _ line
  have die : block.plane.lun * constants.nandChannels + block.plane.ch = dieOf constants slot := by
    rw [placed.lun, placed.ch]
    exact Radix.digits _ _
  have loc : (if block.blk < constants.dualSlcInitBlks then .pslc else .normal) = slot.loc := by
    have blk := placed.blk
    cases here : slot.loc with
    | pslc =>
        rw [here] at blk row
        exact if_pos (by rw [blk]; exact row)
    | normal =>
        rw [here] at blk
        exact if_neg (by rw [blk]; exact Nat.not_lt.mpr (Nat.le_add_left _ _))
  obtain ⟨slotLoc, id, index⟩ := slot
  unfold lineBlockOf
  dsimp only at loc ⊢
  rw [loc, die, placed.blk, placed.pl, Nat.add_sub_cancel]
  unfold dieOf
  dsimp only at zone inZone ⊢
  rw [Radix.div_digit _ _ _ inZone, Radix.mod_digit _ _ _ inZone, Radix.digits, Radix.digits]

include asserted whole in
theorem whole_covered (block : Block) (device : DeviceBlock (initParams constants) block) :
    ∃ slot, (InLines (initParams constants) slot ∧ blockOf (initParams constants) slot = block) ∧
      ∀ other, InLines (initParams constants) other → blockOf (initParams constants) other = block → other = slot := by
  obtain ⟨inside, placed⟩ := line_block_found constants asserted whole block device
  refine ⟨lineBlockOf constants block, ⟨inside, ?_⟩, ?_⟩
  · exact block_at_unique constants _ _ _ (line_block_placed constants asserted whole _ inside) placed
  · intro other within same
    have there := line_block_placed constants asserted whole other within
    rw [same] at there
    exact line_block_of_placed constants asserted whole other block within there

end Covering

section Agreement

variable (constants : DualConstants) (asserted : Asserted constants) (agrees : GeometryAgrees constants)

include agrees in
theorem agreed_block (ch lun pl blk : Nat) (device : DeviceBlock (initParams constants) ⟨⟨ch, lun, pl⟩, blk⟩) :
    ∃ slot, InLines (initParams constants) slot ∧ blockOf (initParams constants) slot = ⟨⟨ch, lun, pl⟩, blk⟩ := by
  obtain ⟨slot, found, _⟩ := agrees.covered _ device
  exact ⟨slot, found⟩

include asserted agrees in
theorem agreed_fits :
    constants.nandChannels ≤ 2 ^ 8 ∧ constants.lunsPerNandCh ≤ 2 ^ 8 ∧ constants.plnsPerLun ≤ 2 ^ 8 ∧ constants.dualBlksPerPln ≤ 2 ^ 16 := by
  obtain ⟨channels, luns, planes, _⟩ := asserted_positive constants asserted
  have rows : 0 < constants.dualBlksPerPln := Nat.lt_of_le_of_lt (Nat.zero_le _) asserted.rows
  have fields : ∀ slot : LineBlock, (blockOf (initParams constants) slot).plane.ch < 2 ^ 8 ∧
      (blockOf (initParams constants) slot).plane.lun < 2 ^ 8 ∧ (blockOf (initParams constants) slot).plane.pl < 2 ^ 8 ∧
        (blockOf (initParams constants) slot).blk < 2 ^ 16 := by
    intro slot
    exact ⟨Nat.mod_lt _ (by decide), Nat.mod_lt _ (by decide), Nat.mod_lt _ (by decide), Nat.mod_lt _ (by decide)⟩
  refine ⟨?_, ?_, ?_, ?_⟩
  · by_contra exceeds
    obtain ⟨slot, _, same⟩ := agreed_block constants agrees (2 ^ 8) 0 0 0 ⟨Nat.lt_of_not_le exceeds, luns, planes, rows⟩
    have field := (fields slot).1
    rw [same] at field
    exact Nat.lt_irrefl _ field
  · by_contra exceeds
    obtain ⟨slot, _, same⟩ := agreed_block constants agrees 0 (2 ^ 8) 0 0 ⟨channels, Nat.lt_of_not_le exceeds, planes, rows⟩
    have field := (fields slot).2.1
    rw [same] at field
    exact Nat.lt_irrefl _ field
  · by_contra exceeds
    obtain ⟨slot, _, same⟩ := agreed_block constants agrees 0 0 (2 ^ 8) 0 ⟨channels, luns, Nat.lt_of_not_le exceeds, rows⟩
    have field := (fields slot).2.2.1
    rw [same] at field
    exact Nat.lt_irrefl _ field
  · by_contra exceeds
    obtain ⟨slot, _, same⟩ := agreed_block constants agrees 0 0 0 (2 ^ 16) ⟨channels, luns, planes, Nat.lt_of_not_le exceeds⟩
    have field := (fields slot).2.2.2
    rw [same] at field
    exact Nat.lt_irrefl _ field

theorem zones_leave_none (luns dies planes group groups index : Nat) (some : 0 < planes) (inGroup : group < groups) (whole : groups = luns / dies)
    (die : group * (luns / groups) + index % (luns / groups) = luns - 1) (plane : index / (luns / groups) % planes = planes - 1)
    (inside : index < dies * planes) (positive : 0 < luns) : dies ∣ luns := by
  have few : groups * (luns / groups) ≤ luns := Nat.mul_div_le luns groups
  have zones : groups * dies ≤ luns := by
    rw [whole]
    exact Nat.div_mul_le_self luns dies
  have wide : dies ≤ luns / groups := by
    rw [Nat.le_div_iff_mul_le (by omega), Nat.mul_comm]
    exact zones
  generalize luns / groups = lunsPerGroup at few wide die plane
  have high : planes - 1 ≤ index / lunsPerGroup := by
    rw [← plane]
    exact Nat.mod_le _ _
  have split := Radix.digits index lunsPerGroup
  have before : (planes - 1) * lunsPerGroup ≤ index / lunsPerGroup * lunsPerGroup := Nat.mul_le_mul_right _ high
  have planesBefore : (planes - 1) * dies ≤ (planes - 1) * lunsPerGroup := Nat.mul_le_mul_left _ wide
  have total : dies * planes = (planes - 1) * dies + dies := by
    rw [Nat.mul_comm, ← Nat.succ_mul, Nat.succ_eq_add_one, Nat.sub_add_cancel some]
  have offset : index % lunsPerGroup < dies := by omega
  have groupsBefore : group * lunsPerGroup + lunsPerGroup ≤ groups * lunsPerGroup := by
    rw [← Nat.succ_mul]
    exact Nat.mul_le_mul_right _ inGroup
  have same : lunsPerGroup = dies := by omega
  subst same
  exact ⟨groups, by rw [Nat.mul_comm]; omega⟩

include asserted agrees in
theorem agreed_dies : constants.diesPerZone ∣ constants.lunsPerNandCh * constants.nandChannels := by
  obtain ⟨channels, luns, planes, _⟩ := asserted_positive constants asserted
  obtain ⟨channelsFit, lunsFit, planesFit, _⟩ := agreed_fits constants asserted agrees
  have positive := luns_positive constants asserted
  obtain ⟨slot, ⟨line, index⟩, same⟩ := agreed_block constants agrees (constants.nandChannels - 1) (constants.lunsPerNandCh - 1)
    (constants.plnsPerLun - 1) 0 ⟨Nat.sub_lt channels Nat.one_pos, Nat.sub_lt luns Nat.one_pos, Nat.sub_lt planes Nat.one_pos,
      Nat.lt_of_le_of_lt (Nat.zero_le _) asserted.rows⟩
  have groups : 0 < (initParams constants).lineGroups := by
    apply Nat.pos_of_ne_zero
    intro zero
    simp [realizedLines, zero, u64] at line
  have group := Nat.mod_lt slot.id groups
  have fewer : (initParams constants).lineGroups ≤ (initParams constants).ttLuns := Nat.div_le_self _ _
  have offset := Nat.mod_lt slot.index (Nat.div_pos fewer groups)
  have die := Radix.pair_bound _ _ _ _ group offset
  have inDevice := Nat.lt_of_lt_of_le die (Nat.mul_div_le (initParams constants).ttLuns (initParams constants).lineGroups)
  injection same with plane _
  injection plane with ch lun pl
  have ch := (Nat.mod_eq_of_lt (Nat.lt_of_lt_of_le (Nat.mod_lt _ channels) channelsFit)).symm.trans ch
  have lun := (Nat.mod_eq_of_lt (Nat.lt_of_lt_of_le (Radix.digit_bound _ _ _ inDevice) lunsFit)).symm.trans lun
  have pl := (Nat.mod_eq_of_lt (Nat.lt_of_lt_of_le (Nat.mod_lt _ planes) planesFit)).symm.trans pl
  have last : (constants.lunsPerNandCh - 1) * constants.nandChannels + (constants.nandChannels - 1) =
      constants.lunsPerNandCh * constants.nandChannels - 1 := by
    rw [Nat.sub_mul, Nat.one_mul]
    have whole := Nat.le_mul_of_pos_left constants.nandChannels luns
    omega
  have flat := Radix.digits (slot.id % (initParams constants).lineGroups *
    ((initParams constants).ttLuns / (initParams constants).lineGroups) +
      slot.index % ((initParams constants).ttLuns / (initParams constants).lineGroups)) constants.nandChannels
  rw [lun, ch] at flat
  exact zones_leave_none _ _ _ _ _ _ planes group (init_groups constants) (flat.symm.trans last) pl
    (Nat.lt_of_lt_of_le index (Nat.mod_le _ _)) positive

-- What the last one-shot page of a block leaves over does not come to a multiple
-- of 2^64 over all blocks.
include asserted agrees in
theorem agreed_blk : oneshotPageSize constants ∣ constants.blkSize := by
  obtain ⟨channels, luns, planes, cell⟩ := asserted_positive constants asserted
  obtain ⟨channelsFit, lunsFit, planesFit, rowsFit⟩ := agreed_fits constants asserted agrees
  have dies : (initParams constants).lineGroups * constants.diesPerZone = constants.lunsPerNandCh * constants.nandChannels :=
    Nat.div_mul_cancel (agreed_dies constants asserted agrees)
  have rows : 0 < dualRows constants .normal := Nat.sub_pos_of_lt asserted.rows
  have oneshot : oneshotPageSize constants = 16384 * constants.cellMode := rfl
  have split := Nat.div_add_mod constants.blkSize (oneshotPageSize constants)
  have left := Nat.mod_lt constants.blkSize (Nat.pos_of_ne_zero asserted.blk.1)
  have pages : mediaPgsPerBlk (initParams constants) .normal * pgsz =
      oneshotPageSize constants * (constants.blkSize / oneshotPageSize constants) := by
    have fits := constants.blkFits
    have value : mediaPgsPerBlk (initParams constants) .normal =
        u64 (oneshotPageSize constants / pgsz * (constants.blkSize / oneshotPageSize constants)) := rfl
    have whole : oneshotPageSize constants / pgsz * pgsz = oneshotPageSize constants := by
      rw [oneshot]
      simp only [pgsz]
      omega
    have bound : oneshotPageSize constants / pgsz * (constants.blkSize / oneshotPageSize constants) ≤ constants.blkSize :=
      (Nat.mul_le_mul_right _ (Nat.div_le_self _ _)).trans (Nat.mul_div_le _ _)
    rw [value, u64_small _ (Nat.lt_of_le_of_lt bound fits), Nat.mul_right_comm, whole]
  have sizes := agrees.sizes .normal
  rw [dual_capacity_bytes, realized_bytes constants asserted] at sizes
  generalize blocksSame : dualRows constants .normal * constants.nandChannels * constants.lunsPerNandCh * constants.plnsPerLun = blocks at sizes
  have realized : dualRows constants .normal * (initParams constants).lineGroups *
      (constants.diesPerZone * constants.plnsPerLun * mediaPgsPerBlk (initParams constants) .normal) * pgsz =
        blocks * (oneshotPageSize constants * (constants.blkSize / oneshotPageSize constants)) := by
    rw [← pages, ← blocksSame]
    calc _ = dualRows constants .normal * ((initParams constants).lineGroups * constants.diesPerZone) * constants.plnsPerLun *
          (mediaPgsPerBlk (initParams constants) .normal * pgsz) := by ring
      _ = _ := by
        rw [dies]
        ring
  have blkBytes : dualBlkSize constants .normal = constants.blkSize := rfl
  rw [realized, blkBytes] at sizes
  have leftOver : 2 ^ 64 ∣ blocks * (constants.blkSize % oneshotPageSize constants) := by
    have whole : blocks * (oneshotPageSize constants * (constants.blkSize / oneshotPageSize constants)) ≤ blocks * constants.blkSize :=
      Nat.mul_le_mul_left _ (Nat.mul_div_le _ _)
    have difference := (Nat.modEq_iff_dvd' whole).mp sizes.symm
    rwa [← Nat.mul_sub, ← Nat.mod_eq_sub_mul_div] at difference
  have few : blocks ≤ 2 ^ 40 := by
    have rowsFew : dualRows constants .normal ≤ 2 ^ 16 := (Nat.sub_le _ _).trans rowsFit
    rw [← blocksSame]
    exact (Nat.mul_le_mul (Nat.mul_le_mul (Nat.mul_le_mul rowsFew channelsFit) lunsFit) planesFit).trans (by decide)
  have small : constants.blkSize % oneshotPageSize constants ≤ 2 ^ 16 := by
    have known := constants.cellKnown
    simp only [cellModeQlc] at known
    omega
  have bound : blocks * (constants.blkSize % oneshotPageSize constants) < 2 ^ 64 :=
    Nat.lt_of_le_of_lt (Nat.mul_le_mul few small) (by decide)
  have none := Nat.eq_zero_of_dvd_of_lt leftOver bound
  have some : blocks ≠ 0 := by
    rw [← blocksSame]
    positivity
  exact Nat.dvd_of_mod_eq_zero ((Nat.mul_eq_zero.mp none).resolve_left some)

-- The asserts compare products over a LUN; what they leave open is this.
include asserted in
theorem geometry_agrees_iff : GeometryAgrees constants ↔ WholeGeometry constants := by
  constructor
  · intro agrees
    obtain ⟨channels, luns, planes, rows⟩ := agreed_fits constants asserted agrees
    exact ⟨agreed_blk constants asserted agrees, agreed_dies constants asserted agrees, channels, luns, planes, rows⟩
  · intro whole
    exact ⟨whole_sizes constants asserted whole, fun blk _ => whole_flashpgs constants asserted whole blk,
      whole_covered constants asserted whole⟩

end Agreement
section Constants

-- The numbers of ssd_config.h.
def shippedConstants : DualConstants := ⟨4, 2, 4, 4, 3, mb 33, 4, 12, by decide, by decide⟩

theorem shipped_asserted : Asserted shippedConstants := by
  refine ⟨⟨?_, ?_, ?_, ?_, ?_, ?_, ?_, ?_, ?_⟩, ?_, ?_, ?_, ?_, ?_⟩ <;> decide

theorem shipped_agrees : GeometryAgrees shippedConstants :=
  (geometry_agrees_iff shippedConstants shipped_asserted).mpr ⟨by decide, by decide, by decide, by decide, by decide, by decide⟩

-- Three LUNs a channel and zones of eight dies: four dies are in no zone.
def threeLuns : DualConstants := ⟨4, 3, 4, 8, 3, mb 33, 4, 12, by decide, by decide⟩

theorem three_luns_asserted : Asserted threeLuns := by
  refine ⟨⟨?_, ?_, ?_, ?_, ?_, ?_, ?_, ?_, ?_⟩, ?_, ?_, ?_, ?_, ?_⟩ <;> decide

theorem three_luns_differ : Asserted threeLuns ∧ ¬GeometryAgrees threeLuns := by
  refine ⟨three_luns_asserted, fun agrees => ?_⟩
  have sizes := agrees.sizes .normal
  revert sizes
  decide

end Constants

end ConZone
