import ConZone.Line
import ConZone.L2p

set_option autoImplicit false

namespace ConZone

def zmsGetWp (ioType : IoType) (loc : Loc) : WpName :=
  match loc with
  | .normal => if ioType = .gcIo then .gcWp else .wp
  | .pslc => if ioType = .userIo then .pslcWp else .pslcGcWp

def victimPri (lm : LineMgmt) (ref : LineRef) : Nat := ((lm.lines ref).vpc % 2 ^ 64).toNat

def victimHeap (lm : LineMgmt) (loc : Loc) : IndexedHeap.Heap LineRef :=
  ⟨(lm.victimLinePq loc).d, (lm.victimLinePq loc).size, fun ref => (lm.lines ref).pos⟩

def putVictimHeap (lm : LineMgmt) (loc : Loc) (heap : IndexedHeap.Heap LineRef) : LineMgmt :=
  { lm with victimLinePq := Function.update lm.victimLinePq loc ⟨heap.d, heap.size⟩,
            lines := fun ref => { lm.lines ref with pos := heap.pos ref } }

def incCnt (counts : Loc → Nat) (loc : Loc) : Loc → Nat := Function.update counts loc (u32 (counts loc + 1))
def decCnt (counts : Loc → Nat) (loc : Loc) : Loc → Nat := Function.update counts loc (u32 (counts loc + 2 ^ 32 - 1))

def insertVictim (lm : LineMgmt) (loc : Loc) (ref : LineRef) : LineMgmt :=
  let lm := putVictimHeap lm loc (IndexedHeap.pqueueInsert (victimPri lm) (victimHeap lm loc) ref)
  { lm with victimLineCnt := incCnt lm.victimLineCnt loc }

def addFull (lm : LineMgmt) (loc : Loc) (ref : LineRef) : LineMgmt :=
  { lm with links := IntrusiveList.listAddTail lm.links (.line ref) (.full loc), fullLineCnt := incCnt lm.fullLineCnt loc }

def delFull (lm : LineMgmt) (loc : Loc) (ref : LineRef) : LineMgmt :=
  { lm with links := IntrusiveList.listDelInit lm.links (.line ref), fullLineCnt := decCnt lm.fullLineCnt loc }

def addFree (lm : LineMgmt) (loc : Loc) (ref : LineRef) : LineMgmt :=
  { lm with links := IntrusiveList.listAddTail lm.links (.line ref) (.free loc), freeLineCnt := incCnt lm.freeLineCnt loc }

def delFree (lm : LineMgmt) (loc : Loc) (ref : LineRef) : LineMgmt :=
  { lm with links := IntrusiveList.listDelInit lm.links (.line ref), freeLineCnt := decCnt lm.freeLineCnt loc }

def getNextFreeLine (ftl : ZmsFtl) (loc : Loc) : Exec (Option LineRef × ZmsFtl) :=
  match IntrusiveList.listFirstEntryOrNull ftl.lm.links (.free loc) with
  | none => .ok (none, setFull ftl loc)
  | some (.line ref) => .ok (some ref, { ftl with lm := delFree ftl.lm loc ref })
  | some _ => .error .listHead

def wpPage (wp : WritePointer) : Page := ⟨wp.block, wp.pg⟩

def updateWritePointer (ftl : ZmsFtl) (name : WpName) (page : Page) : ZmsFtl :=
  putWp ftl name { ftl.wps name with block := page.block, pg := page.pg }

def bumpZoneWrites (ftl : ZmsFtl) (name : WpName) : ZmsFtl :=
  if name = .wp then { ftl with stats := { ftl.stats with zoneWriteCnt := ftl.stats.zoneWriteCnt + 1 } } else ftl

-- The line the write pointer leaves goes to the full list when no page of it
-- is invalid, counting reserved pages as valid, and to the victim queue otherwise.
def retireCurline (p : Params) (lm : LineMgmt) (loc : Loc) (cur : LineRef) : LineMgmt :=
  if (lm.lines cur).vpc + (lm.lines cur).rpc = pgsPerLineOf p cur then addFull lm loc cur else insertVictim lm loc cur

def getNewWp (p : Params) (ftl : ZmsFtl) (name : WpName) : Exec ZmsFtl :=
  match (ftl.wps name).curline with
  | none => .error .nullDeref
  | some cur => do
      let loc := (ftl.wps name).loc
      let ftl := { ftl with lm := retireCurline p ftl.lm loc cur }
      let (next, ftl) ← getNextFreeLine ftl loc
      let ftl := putWp ftl name { ftl.wps name with curline := next }
      match next with
      | none => pure ftl
      | some line => pure (bumpZoneWrites (updateWritePointer ftl name (getFirstPage p line)) name)

def getCurrentPage (p : Params) (ftl : ZmsFtl) (name : WpName) : Page × ZmsFtl :=
  let page := wpPage (ftl.wps name)
  if p.zpp.ttPpns ≤ ppa2Pgidx p page then (page, setFull ftl (getPageLocation p page)) else (page, ftl)

def initWritePointer (p : Params) (ftl : ZmsFtl) (ioType : IoType) (loc : Loc) : Exec ZmsFtl := do
  let (curline, ftl) ← getNextFreeLine ftl loc
  match curline with
  | none => .error .bugOn
  | some line =>
      let page := getFirstPage p line
      pure (putWp ftl (zmsGetWp ioType loc) ⟨some line, loc, page.block, page.pg⟩)

def openWritePointer (p : Params) (ftl : ZmsFtl) (ioType : IoType) (loc : Loc) : Exec ZmsFtl :=
  if (ftl.wps (zmsGetWp ioType loc)).curline = none then initWritePointer p ftl ioType loc else .ok ftl

def getNewPage (p : Params) (ftl : ZmsFtl) (ioType : IoType) (loc : Loc) : Exec (Page × ZmsFtl) := do
  let ftl ← openWritePointer p ftl ioType loc
  pure (getCurrentPage p ftl (zmsGetWp ioType loc))

def advanceWritePointer (p : Params) (ftl : ZmsFtl) (ioType : IoType) (loc : Loc) : Exec ZmsFtl :=
  let name := zmsGetWp ioType loc
  match (ftl.wps name).curline with
  | none => .ok ftl
  | some cur =>
      let (page, ftl) := getCurrentPage p ftl name
      match if isSuperblock cur then nextpageInterleave p page else nextpageNormal p page with
      | some next => .ok (updateWritePointer ftl name next)
      | none => getNewWp p ftl name

def putBlock (ftl : ZmsFtl) (block : Block) (state : NandBlock) : ZmsFtl :=
  { ftl with nand := Function.update ftl.nand block state }

def pageStatus (ftl : ZmsFtl) (page : Page) : PageStatus := (ftl.nand page.block).status page.pg

def markPageValid (p : Params) (ftl : ZmsFtl) (page : Page) : ZmsFtl :=
  let used := usedPgs p.spp page.blk
  let blk := ftl.nand page.block
  let ref := getLine p page
  let line := ftl.lm.lines ref
  if used ≤ page.pg ∨ blk.status page.pg ≠ .free then ftl
  else
    let status := Function.update blk.status page.pg .valid
    if ¬(0 ≤ blk.vpc ∧ blk.vpc < used) then putBlock ftl page.block { blk with status := status }
    else
      let ftl := putBlock ftl page.block { blk with status := status, vpc := blk.vpc + 1 }
      if ¬(0 ≤ line.vpc ∧ line.vpc < pgsPerLineOf p ref) then ftl else putLine ftl ref { line with vpc := line.vpc + 1 }

-- pqueue_change_priority stores the new priority back into vpc.
def decVpc (lm : LineMgmt) (loc : Loc) (ref : LineRef) : LineMgmt :=
  let vpc := (lm.lines ref).vpc - 1
  let lm' := if (lm.lines ref).pos ≠ 0 then
      putVictimHeap lm loc (IndexedHeap.pqueueChangePriority (victimPri lm) (victimHeap lm loc) (vpc % 2 ^ 64).toNat ref)
    else lm
  { lm' with lines := Function.update lm'.lines ref { lm'.lines ref with vpc := vpc } }

def markPageInvalid (p : Params) (ftl : ZmsFtl) (page : Page) : ZmsFtl :=
  let loc := getPageLocation p page
  let blk := ftl.nand page.block
  let ref := getLine p page
  let line := ftl.lm.lines ref
  let wasFullLine := line.vpc = pgsPerLineOf p ref
  let ftl := putBlock ftl page.block
    { blk with status := Function.update blk.status page.pg .invalid, ipc := blk.ipc + 1, vpc := blk.vpc - 1 }
  let lm := decVpc (putLine ftl ref { line with ipc := line.ipc + 1 }).lm loc ref
  { ftl with lm := if wasFullLine then insertVictim (delFull lm loc ref) loc ref else lm }

def markBlockFree (p : Params) (ftl : ZmsFtl) (block : Block) : ZmsFtl :=
  let blk := ftl.nand block
  putBlock ftl block
    { status := fun pg => if pg < p.spp.pgsPerBlk then .free else blk.status pg, ipc := 0, vpc := 0, eraseCnt := blk.eraseCnt + 1 }

def getMaptblEnt (p : Params) (ftl : ZmsFtl) (lpn : Nat) : Ppa := if lpn < p.zpp.ttLpns then ftl.maptbl lpn else .unmapped

def setMaptblEnt (p : Params) (ftl : ZmsFtl) (lpn : Nat) (ppa : Ppa) : ZmsFtl :=
  if lpn < p.zpp.ttLpns then { ftl with maptbl := Function.update ftl.maptbl lpn ppa } else ftl

def getRmapEnt (p : Params) (ftl : ZmsFtl) (page : Page) : Option Nat :=
  if ppa2Pgidx p page < p.zpp.ttPpns then ftl.rmap (ppa2Pgidx p page) else none

def setRmapEnt (p : Params) (ftl : ZmsFtl) (lpn : Option Nat) (page : Page) : ZmsFtl :=
  if ppa2Pgidx p page < p.zpp.ttPpns then { ftl with rmap := Function.update ftl.rmap (ppa2Pgidx p page) lpn } else ftl

def unmapLpn (ftl : ZmsFtl) (lpn : Nat) : ZmsFtl := { ftl with maptbl := Function.update ftl.maptbl lpn .unmapped }

def getPrevPpa (p : Params) (ftl : ZmsFtl) (lpn : Nat) (granularity : MapType) : Ppa :=
  let mappingSlpn := getGranularityStartLpn p lpn granularity
  getMaptblEnt p ftl (if lpn = mappingSlpn then lpn else lpn - 1)

def setMapGran (p : Params) (ftl : ZmsFtl) (gran : MapType) (mapSlpn : Nat) : ZmsFtl :=
  let resident := checkResident gran
  let index := getL2pcacheidx p ftl.l2p mapSlpn
  let cache :=
    if index = -1 then
      let (index, cache) := l2pInsert p ftl.l2p mapSlpn gran resident
      setL2pcacheidx p cache p.zpp.nsid mapSlpn index
    else
      let slot := mapSlpn % l2pSlots
      putEnt ftl.l2p slot index { ftl.l2p.mapping slot index with granularity := gran, resident := resident }
  let ppa := match getMaptblEnt p ftl mapSlpn with
    | .mapped page _ => .mapped page gran
    | other => other
  setMaptblEnt p { ftl with l2p := cache } mapSlpn ppa

-- The lines of a non-dual namespace that fill up in pSLC queue for migration.
def noteFilledLine (p : Params) (ftl : ZmsFtl) (ref : LineRef) (loc : Loc) (ioType : IoType) : ZmsFtl :=
  let line := ftl.lm.lines ref
  if ioType = .userIo ∧ loc = .pslc ∧ !zmsIsDualNs p.zpp.nsType ∧ line.rpc = 0 ∧ line.vpc + line.ipc = pgsPerLineOf p ref then
    let order := ftl.lineWriteCnt + 1
    let lines := Function.update ftl.lm.lines ref { line with midWriteOrder := order }
    let heap := IndexedHeap.pqueueInsert (fun ref => (lines ref).midWriteOrder)
      ⟨ftl.migratingLinePq.d, ftl.migratingLinePq.size, fun ref => (lines ref).midPos⟩ ref
    { ftl with lineWriteCnt := order, migratingLinePq := ⟨heap.d, heap.size⟩,
               lm := { ftl.lm with lines := fun ref => { lines ref with midPos := heap.pos ref } } }
  else ftl

def decLineRpc (p : Params) (ftl : ZmsFtl) (page : Page) : ZmsFtl :=
  let ref := getLine p page
  putLine ftl ref { ftl.lm.lines ref with rpc := (ftl.lm.lines ref).rpc - 1 }

def refineMapGran (p : Params) (lpn : Nat) (loc : Loc) : List MapType → ZmsFtl → ZmsFtl
  | [], ftl => ftl
  | gran :: rest, ftl =>
      let mapSlpn := getGranularityStartLpn p lpn gran
      match getMaptblEnt p ftl mapSlpn with
      | .mapped page _ =>
          if getPageLocation p page = loc ∧ (lpn - mapSlpn + 1) % getPagesPerGranularity p gran = 0 then
            setMapGran p ftl gran mapSlpn
          else refineMapGran p lpn loc rest ftl
      | _ => refineMapGran p lpn loc rest ftl

-- none is FAILURE, which changes nothing.
def updateMappingIfReserved (p : Params) (ftl : ZmsFtl) (lpn : Nat) (loc : Loc) (ioType : IoType) : Option ZmsFtl :=
  match getPrevPpa p ftl lpn (getMappingGranularity loc) with
  | .mapped prev map =>
      if !isRsvPpa (ftl.maptbl lpn) || getPageLocation p prev != loc then none
      else
        match nextpage p ftl.lm.lines prev map true with
        | .mapped page map =>
            let ftl := setMaptblEnt p ftl lpn (.mapped page map)
            let ftl := markPageValid p ftl page
            let ftl := setRmapEnt p ftl (some lpn) page
            let ftl := decLineRpc p ftl page
            let ftl := noteFilledLine p ftl (getLine p page) loc ioType
            some (refineMapGran p lpn loc mapType ftl)
        | _ => none
  | _ => none

def setRsvNextline (ftl : ZmsFtl) (ref next : LineRef) : ZmsFtl :=
  putLine ftl ref { ftl.lm.lines ref with rsvNextline := some next }

structure Reservation where
  ftl : ZmsFtl
  page : Page
  current : LineRef
  prev : LineRef
  remaining : Nat

-- false when no line was left, where the reserving loop breaks.
def crossLine (p : Params) (ioType : IoType) (loc : Loc) (r : Reservation) : Exec (Reservation × Bool) := do
  let name := zmsGetWp ioType loc
  let ftl ← getNewWp p r.ftl name
  match (ftl.wps name).curline with
  | none => pure ({ r with ftl := ftl }, false)
  | some next =>
      let (page, ftl) ← getNewPage p (setRsvNextline ftl r.prev r.current) ioType loc
      pure (⟨ftl, page, next, r.current, r.remaining⟩, true)

def freeInLine (p : Params) (ftl : ZmsFtl) (ref : LineRef) : Int :=
  pgsPerLineOf p ref - ((ftl.lm.lines ref).vpc + (ftl.lm.lines ref).ipc + (ftl.lm.lines ref).rpc)

def reserveInLine (p : Params) (ioType : IoType) (loc : Loc) (r : Reservation) (free : Nat) : Exec (Reservation × Bool) := do
  let step := min r.remaining free
  let line := r.ftl.lm.lines r.current
  let next := getAdvancedPpaFast p r.page step
  let r := { r with ftl := putLine r.ftl r.current { line with rpc := line.rpc + step }, remaining := r.remaining - step }
  match next with
  | some next => pure ({ r with ftl := updateWritePointer r.ftl (zmsGetWp ioType loc) next, page := next }, true)
  | none => crossLine p ioType loc r

def reserveStep (p : Params) (ioType : IoType) (loc : Loc) (r : Reservation) : Exec (Reservation × Bool) := do
  let free := freeInLine p r.ftl r.current
  if free ≤ 0 then
    let (r, found) ← crossLine p ioType loc r
    if found then reserveInLine p ioType loc r (pgsPerLineOf p r.current) else pure (r, false)
  else reserveInLine p ioType loc r free.toNat

-- One mapping unit is reserved from the write pointer on, line by line. fuel
-- is the number of pages left: every round takes at least one.
def reserveLoop (p : Params) (ioType : IoType) (loc : Loc) : Nat → Reservation → Exec ZmsFtl
  | 0, r => if r.remaining = 0 then .ok r.ftl else .error .hang
  | fuel + 1, r =>
      if r.remaining = 0 then .ok r.ftl
      else do
        let (r, found) ← reserveStep p ioType loc r
        if found then reserveLoop p ioType loc fuel r else pure r.ftl

def reserveEntries (ftl : ZmsFtl) (slpn pgs : Nat) : ZmsFtl :=
  { ftl with maptbl := fun lpn => if slpn ≤ lpn ∧ lpn < slpn + pgs then .rsv else ftl.maptbl lpn }

def reserveUnit (p : Params) (ftl : ZmsFtl) (slpn pgs : Nat) : Exec ZmsFtl :=
  if slpn + pgs ≤ p.zpp.ttLpns then .ok (reserveEntries ftl slpn pgs) else .error .outOfBounds

def takeFirstPage (p : Params) (ftl : ZmsFtl) (slpn : Nat) (page : Page) : ZmsFtl :=
  let ftl := setMaptblEnt p ftl slpn (.mapped page .pageMap)
  let ftl := markPageValid p ftl page
  let ftl := setRmapEnt p ftl (some slpn) page
  setMapGran p ftl .pageMap slpn

def reserveMapping (p : Params) (ftl : ZmsFtl) (lpn : Nat) (loc : Loc) (ioType : IoType) : Exec ZmsFtl := do
  let granularity := getMappingGranularity loc
  let pgs := getPagesPerGranularity p granularity
  let slpn := getGranularityStartLpn p lpn granularity
  let ftl ← reserveUnit p ftl slpn pgs
  let (page, ftl) ← getNewPage p ftl ioType loc
  let current := getLine p page
  let ftl := noteFilledLine p (takeFirstPage p ftl slpn page) current loc ioType
  let ftl ← reserveLoop p ioType loc (pgs - 1) ⟨ftl, page, current, current, pgs - 1⟩
  let ftl ← advanceWritePointer p ftl ioType loc
  let (_, ftl) ← getNewPage p ftl ioType loc
  pure ftl

def updateOrReserveMapping (p : Params) (ftl : ZmsFtl) (lpn : Nat) (loc : Loc) (ioType : IoType) : Exec ZmsFtl :=
  match updateMappingIfReserved p ftl lpn loc ioType with
  | some ftl => .ok ftl
  | none => if locFull ftl loc then .ok ftl else reserveMapping p ftl lpn loc ioType

end ConZone
