import ConZone.State

set_option autoImplicit false

namespace ConZone

def mkPage (ch lun pl blk pg : Nat) : Page := ⟨⟨⟨ch, lun, pl⟩, blk⟩, pg⟩

def Page.ch (page : Page) : Nat := page.block.plane.ch
def Page.lun (page : Page) : Nat := page.block.plane.lun
def Page.pl (page : Page) : Nat := page.block.plane.pl
def Page.blk (page : Page) : Nat := page.block.blk

def zmsFirstOwnedBlk (p : Params) : Nat :=
  if zmsIsDualNs p.zpp.nsType then (if zmsDualTargetLoc p.zpp.nsType = .pslc then 0 else p.spp.pslcBlks)
  else p.spp.metaPslcBlks + p.spp.metaNormalBlks

-- zms_realize_ftl: the lines below this id are split into one subline a block.
def interleaveSline (p : Params) : Nat :=
  let media := if zmsIsDualNs p.zpp.nsType then p.zpp.pgsPerLine else p.spp.pgsPerLine
  if p.zpp.pgsPerZone < media ∨ p.zpp.ttLines < 4 then p.zpp.ttLines
  else if p.zpp.pslcLines < 4 then p.zpp.pslcLines
  else 0

def pgsPerLineOf (p : Params) : LineRef → Nat
  | .line id => if id < p.zpp.pslcLines then p.zpp.pslcPgsPerLine else p.zpp.pgsPerLine
  | .sub parent _ => if parent < p.zpp.pslcLines then p.spp.pslcPgsPerBlk else p.spp.pgsPerBlk

def topId : LineRef → Nat
  | .line id => id
  | .sub parent _ => parent

def isSuperblock : LineRef → Bool
  | .line _ => true
  | .sub _ _ => false

def locOfNandType (nandType : Nat) : Loc := if nandType = cellModeSlc then .pslc else .normal

def getPageLocation (p : Params) (page : Page) : Loc := locOfNandType (nandType p.spp page.blk)

def getLine (p : Params) (page : Page) : LineRef :=
  let rowIdx := page.blk - zmsFirstOwnedBlk p
  let globalDieIdx := page.lun * p.spp.nchs + page.ch
  let diesPerGroup := p.spp.ttLuns / p.spp.lineGroups
  let lmid := rowIdx * p.spp.lineGroups + globalDieIdx / diesPerGroup
  if lmid < interleaveSline p then .sub lmid (globalDieIdx % diesPerGroup * p.spp.plsPerLun + page.pl)
  else .line lmid

def oneshotOf (p : Params) (loc : Loc) : Nat :=
  match loc with
  | .pslc => p.spp.pslcPgsPerOneshotpg
  | .normal => p.spp.pgsPerOneshotpg

def ppa2Pgidx (p : Params) (page : Page) : Nat :=
  let line := getLine p page
  let oneshot := oneshotOf p (getPageLocation p page)
  let parallelIdx := page.lun * (p.spp.nchs * p.spp.plsPerLun) + page.ch * p.spp.plsPerLun + page.pl
  topId line * pgsPerLineOf p line
    + page.pg / oneshot * (oneshot * p.spp.nchs * p.spp.lunsPerCh * p.spp.plsPerLun)
    + parallelIdx * oneshot + page.pg % oneshot

def lmid2Blkid (p : Params) (ref : LineRef) : Nat := topId ref / p.spp.lineGroups + zmsFirstOwnedBlk p

def getFirstPage (p : Params) (ref : LineRef) : Page :=
  let lunsPerGroup := p.spp.ttLuns / p.spp.lineGroups
  let baseFlatLun := topId ref % p.spp.lineGroups * lunsPerGroup
  match ref with
  | .line _ => mkPage (baseFlatLun % p.spp.nchs) (baseFlatLun / p.spp.nchs) 0 (lmid2Blkid p ref) 0
  | .sub _ id =>
      let targetFlatLun := baseFlatLun + id % lunsPerGroup
      mkPage (targetFlatLun % p.spp.nchs) (targetFlatLun / p.spp.nchs) (id / lunsPerGroup % p.spp.plsPerLun) (lmid2Blkid p ref) 0

def getLineLocation (p : Params) (ref : LineRef) : Loc := getPageLocation p (getFirstPage p ref)

def flashpageSame (p : Params) (first second : Page) : Bool :=
  first.block == second.block && first.pg / p.spp.pgsPerFlashpg == second.pg / p.spp.pgsPerFlashpg

def isLastPgInWordline (p : Params) (page : Page) : Bool :=
  page.pg % oneshotOf p (getPageLocation p page) == oneshotOf p (getPageLocation p page) - 1

-- none stands for UNMAPPED_PPA, the end of the line.
def nextpageInterleave (p : Params) (page : Page) : Option Page :=
  let pgsPerFlashpg := p.spp.pgsPerFlashpg
  let rows := rowsPerLine p.spp
  if (page.pg + 1) % pgsPerFlashpg ≠ 0 then some (mkPage page.ch page.lun page.pl page.blk (page.pg + 1))
  else
    let pg := page.pg + 1 - pgsPerFlashpg
    if page.pl + 1 ≠ p.spp.plsPerLun then some (mkPage page.ch page.lun (page.pl + 1) page.blk pg)
    else if page.ch + 1 ≠ p.spp.nchs then some (mkPage (page.ch + 1) page.lun 0 page.blk pg)
    else
      let baseLun := page.lun / rows * rows
      if page.lun + 1 ≠ baseLun + rows then some (mkPage 0 (page.lun + 1) 0 page.blk pg)
      else if pg + pgsPerFlashpg ≠ usedPgs p.spp page.blk then some (mkPage 0 baseLun 0 page.blk (pg + pgsPerFlashpg))
      else none

def nextpageNormal (p : Params) (page : Page) : Option Page :=
  if page.pg + 1 ≠ usedPgs p.spp page.blk then some (mkPage page.ch page.lun page.pl page.blk (page.pg + 1)) else none

-- The map bits of the entry travel along, except into a linked line.
def nextpage (p : Params) (lines : LineRef → Line) (page : Page) (map : MapType) (rsv : Bool) : Ppa :=
  let line := getLine p page
  match if isSuperblock line then nextpageInterleave p page else nextpageNormal p page with
  | some next => .mapped next map
  | none =>
      match rsv, (lines line).rsvNextline with
      | true, some linked => .mapped (getFirstPage p linked) .pageMap
      | _, _ => .unmapped

def getAdvancedPpaFast (p : Params) (start : Page) (steps : Nat) : Option Page :=
  if steps = 0 then some start
  else if !isSuperblock (getLine p start) then
    if usedPgs p.spp start.blk ≤ start.pg + steps then none
    else some (mkPage start.ch start.lun start.pl start.blk (start.pg + steps))
  else
    let dPgLow := p.spp.pgsPerFlashpg
    let dPl := p.spp.plsPerLun
    let dCh := p.spp.nchs
    let dLun := rowsPerLine p.spp
    let baseLun := start.lun / dLun * dLun
    let stripeSize := dPgLow * dPl * dCh * dLun
    let currentIdxInStripe := start.pg % dPgLow + start.pl * dPgLow + start.ch * dPl * dPgLow
      + (start.lun - baseLun) * dCh * dPl * dPgLow
    let total := currentIdxInStripe + steps
    let newPgHigh := start.pg / dPgLow + total / stripeSize
    let rem := total % stripeSize
    if usedPgs p.spp start.blk ≤ newPgHigh * dPgLow then none
    else
      let pg := newPgHigh * dPgLow + rem % dPgLow
      if usedPgs p.spp start.blk ≤ pg then none
      else
        some (mkPage (rem / dPgLow / dPl % dCh) (baseLun + rem / dPgLow / dPl / dCh) (rem / dPgLow % dPl) start.blk pg)

def zoneLbas (p : Params) : Nat := p.zpp.zoneSize / secsz
def zoneLpns (p : Params) : Nat := p.zpp.zoneSize / pgsz
def capacityLbas (p : Params) : Nat := p.zpp.zoneCapacity / secsz

def lpnToZone (p : Params) (lpn : Nat) : Nat := u32 (lpn / zoneLpns p)
def zoneToSlpn (p : Params) (zid : Nat) : Nat := zid * zoneLpns p
def lbaToZone (p : Params) (lba : Nat) : Nat := u32 (lba / zoneLbas p)
def zoneToSlba (p : Params) (zid : Nat) : Nat := zid * zoneLbas p
def lbaToLpn (lba : Nat) : Nat := lba / secsPerPg

def getPagesPerGranularity (p : Params) : MapType → Nat
  | .pageMap => 1
  | .chunkMap => p.zpp.pgsPerChunk
  | .zoneMap => p.zpp.pgsPerZone
  | .subZoneMap => p.zpp.pslcPgsPerLine

def getGranularityStartLpn (p : Params) (lpn : Nat) (granularity : MapType) : Nat :=
  let slpn := zoneToSlpn p (lpnToZone p lpn)
  let pgs := getPagesPerGranularity p granularity
  if pgs = 0 then lpn else (lpn - slpn) / pgs * pgs + slpn

theorem zone_start_le (p : Params) (lpn : Nat) : zoneToSlpn p (lpnToZone p lpn) ≤ lpn := by
  unfold zoneToSlpn lpnToZone u32
  calc lpn / zoneLpns p % 2 ^ 32 * zoneLpns p ≤ lpn / zoneLpns p * zoneLpns p := Nat.mul_le_mul_right _ (Nat.mod_le _ _)
    _ ≤ lpn := Nat.div_mul_le_self lpn _

theorem page_granularity_start (p : Params) (lpn : Nat) : getGranularityStartLpn p lpn .pageMap = lpn := by
  have start := zone_start_le p lpn
  unfold getGranularityStartLpn getPagesPerGranularity
  dsimp only
  rw [if_neg (by decide), Nat.div_one, Nat.mul_one]
  omega

def getMappingGranularity : Loc → MapType
  | .normal => .zoneMap
  | .pslc => .pageMap

end ConZone
