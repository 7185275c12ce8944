import ConZone.Run
import ConZone.State

set_option autoImplicit false

-- The conventional namespace of the builds without IS_CONZONE: conv_ftl.c. A
-- line is the blocks of one number in all LUNs; PLNS_PER_LUN is 1 in these builds.
namespace ConZone.Conv

-- struct ssdparams of one partition, with what the types of its fields and of the
-- fields of struct ppa promise. lunsPerLine is DIES_PER_ZONE where the build has
-- it, and all LUNs where it has not; groupsWhole, that it divides the LUNs, is
-- BUG_ON-checked in dual builds only and assumed here. nsLpns is the size of the
-- namespace in pages.
structure ConvParams where
  nrParts : Nat
  nchs : Nat
  lunsPerCh : Nat
  lunsPerLine : Nat
  lineGroups : Nat
  blksPerPl : Nat
  pgsPerFlashpg : Nat
  flashpgsPerOneshotpg : Nat
  oneshotpgsPerBlk : Nat
  writeBufferSize : Nat
  nsLpns : Nat
  partsPositive : 0 < nrParts
  groupsWhole : nchs * lunsPerCh = lineGroups * lunsPerLine
  lunsPositive : 0 < nchs * lunsPerCh
  pagesPositive : 0 < oneshotpgsPerBlk * (flashpgsPerOneshotpg * pgsPerFlashpg)
  linesEnough : 2 ≤ blksPerPl
  linesFit : blksPerPl * lineGroups < 2 ^ 32
  lineFits : lunsPerLine * (oneshotpgsPerBlk * (flashpgsPerOneshotpg * pgsPerFlashpg)) < 2 ^ 31

section Sizes

variable (c : ConvParams)

def pgsPerOneshotpg : Nat := c.flashpgsPerOneshotpg * c.pgsPerFlashpg
def pgsPerBlk : Nat := c.oneshotpgsPerBlk * pgsPerOneshotpg c
def flashpgsPerBlk : Nat := c.flashpgsPerOneshotpg * c.oneshotpgsPerBlk
def pgsPerPl : Nat := pgsPerBlk c * c.blksPerPl
def pgsPerLun : Nat := pgsPerPl c
def pgsPerCh : Nat := pgsPerLun c * c.lunsPerCh
def ttPgs : Nat := pgsPerCh c * c.nchs
def pgsPerLine : Nat := c.lunsPerLine * pgsPerBlk c
def ttLines : Nat := c.blksPerPl * c.lineGroups

end Sizes

structure Line where
  ipc : Int
  vpc : Int
  pos : Nat

inductive ListNode where
  | free
  | full
  | line (id : Nat)
  deriving DecidableEq

structure WritePointer where
  curline : Option Nat
  ch : Nat
  lun : Nat
  pg : Nat
  blk : Nat
  pl : Nat
  deriving DecidableEq

structure LineMgmt where
  lines : Nat → Line
  links : IntrusiveList.Links ListNode
  victimLineD : Nat → Nat
  victimLineSize : Nat
  freeLineCnt : Nat
  victimLineCnt : Nat
  fullLineCnt : Nat

-- struct conv_ftl with the blocks it works on. gcMissed and creditsWrapped are no
-- fields of the source: they note that a garbage collection found no line with an
-- invalid page, and that a credit was taken where none was left.
structure ConvFtl where
  nand : Block → NandBlock
  maptbl : Nat → Option Page
  rmap : Nat → Option Nat
  lm : LineMgmt
  wp : WritePointer
  gcWp : WritePointer
  writeCredits : Nat
  creditsToRefill : Nat
  gcMissed : Bool
  creditsWrapped : Bool

def nvmevAssert (condition : Prop) [Decidable condition] : Exec Unit := if condition then .ok () else .error .bugOn

def checkAddr (a max : Nat) : Exec Unit := nvmevAssert (a < max)

section Lines

def victimHeap (lm : LineMgmt) : IndexedHeap.Heap Nat := ⟨lm.victimLineD, lm.victimLineSize, fun id => (lm.lines id).pos⟩

def putVictimHeap (lm : LineMgmt) (heap : IndexedHeap.Heap Nat) : LineMgmt :=
  { lm with victimLineD := heap.d, victimLineSize := heap.size, lines := fun id => { lm.lines id with pos := heap.pos id } }

-- pqueue_pri_t is an unsigned 64-bit integer.
def victimLineGetPri (lm : LineMgmt) (id : Nat) : Nat := ((lm.lines id).vpc % 2 ^ 64).toNat

def putLine (lm : LineMgmt) (id : Nat) (line : Line) : LineMgmt := { lm with lines := Function.update lm.lines id line }

def incCnt (count : Nat) : Nat := u32 (count + 1)
def decCnt (count : Nat) : Nat := u32 (count + 2 ^ 32 - 1)

def insertVictim (lm : LineMgmt) (id : Nat) : LineMgmt :=
  let lm := putVictimHeap lm (IndexedHeap.pqueueInsert (victimLineGetPri lm) (victimHeap lm) id)
  { lm with victimLineCnt := incCnt lm.victimLineCnt }

def addFull (lm : LineMgmt) (id : Nat) : LineMgmt :=
  { lm with links := IntrusiveList.listAddTail lm.links (.line id) .full, fullLineCnt := incCnt lm.fullLineCnt }

def delFull (lm : LineMgmt) (id : Nat) : LineMgmt :=
  { lm with links := IntrusiveList.listDelInit lm.links (.line id), fullLineCnt := decCnt lm.fullLineCnt }

def addFree (lm : LineMgmt) (id : Nat) : LineMgmt :=
  { lm with links := IntrusiveList.listAddTail lm.links (.line id) .free, freeLineCnt := incCnt lm.freeLineCnt }

def getNextFreeLine (lm : LineMgmt) : Exec (Option Nat × LineMgmt) :=
  match IntrusiveList.listFirstEntryOrNull lm.links .free with
  | none => .ok (none, lm)
  | some (.line id) =>
      .ok (some id, { lm with links := IntrusiveList.listDelInit lm.links (.line id), freeLineCnt := decCnt lm.freeLineCnt })
  | some _ => .error .listHead

end Lines

section Pointers

variable (c : ConvParams)

def getWp (ftl : ConvFtl) (ioType : IoType) : WritePointer := if ioType = .gcIo then ftl.gcWp else ftl.wp

def putWp (ftl : ConvFtl) (ioType : IoType) (wpp : WritePointer) : ConvFtl :=
  if ioType = .gcIo then { ftl with gcWp := wpp } else { ftl with wp := wpp }

def prepareWritePointer (ftl : ConvFtl) (ioType : IoType) : Exec ConvFtl := do
  let (curline, lm) ← getNextFreeLine ftl.lm
  match curline with
  | none => .error .bugOn
  | some id => pure (putWp { ftl with lm := lm } ioType ⟨some id, 0, 0, 0, id, 0⟩)

-- advance_write_pointer up to the end of the line; none is the end.
def stepWritePointer (wpp : WritePointer) : Exec (Option WritePointer) := do
  checkAddr wpp.pg (pgsPerBlk c)
  let pg := wpp.pg + 1
  if pg % pgsPerOneshotpg c ≠ 0 then pure (some { wpp with pg := pg })
  else
    let pg := pg - pgsPerOneshotpg c
    checkAddr wpp.ch c.nchs
    if wpp.ch + 1 ≠ c.nchs then pure (some { wpp with pg := pg, ch := wpp.ch + 1 })
    else
      checkAddr wpp.lun c.lunsPerCh
      if wpp.lun + 1 ≠ c.lunsPerCh then pure (some { wpp with pg := pg, ch := 0, lun := wpp.lun + 1 })
      else
        let pg := pg + pgsPerOneshotpg c
        if pg ≠ pgsPerBlk c then pure (some { wpp with pg := pg, ch := 0, lun := 0 }) else pure none

def retireLine (lm : LineMgmt) (id : Nat) : Exec LineMgmt :=
  let line := lm.lines id
  if line.vpc = pgsPerLine c then do
    nvmevAssert (line.ipc = 0)
    pure (addFull lm id)
  else do
    nvmevAssert (0 ≤ line.vpc ∧ line.vpc < pgsPerLine c)
    nvmevAssert (0 < line.ipc)
    pure (insertVictim lm id)

-- Without a line to go on with, the next use of curline is a NULL dereference.
def advanceWritePointer (ftl : ConvFtl) (ioType : IoType) : Exec ConvFtl := do
  let wpp := getWp ftl ioType
  match ← stepWritePointer c wpp with
  | some next => pure (putWp ftl ioType next)
  | none =>
      match wpp.curline with
      | none => .error .nullDeref
      | some cur => do
          let lm ← retireLine c ftl.lm cur
          checkAddr wpp.blk c.blksPerPl
          let (curline, lm) ← getNextFreeLine lm
          match curline with
          | none => .error .nullDeref
          | some id => do
              checkAddr id c.blksPerPl
              nvmevAssert (wpp.pl = 0)
              pure (putWp { ftl with lm := lm } ioType ⟨some id, 0, 0, 0, id, wpp.pl⟩)

def getNewPage (ftl : ConvFtl) (ioType : IoType) : Exec Page := do
  let wp := getWp ftl ioType
  nvmevAssert (wp.pl = 0)
  pure ⟨⟨⟨wp.ch, wp.lun, wp.pl⟩, wp.blk⟩, wp.pg⟩

end Pointers

section Mapping

variable (c : ConvParams)

def ppa2pgidx (page : Page) : Nat :=
  page.block.plane.ch * pgsPerCh c + page.block.plane.lun * pgsPerLun c + page.block.plane.pl * pgsPerPl c
    + page.block.blk * pgsPerBlk c + page.pg

def getRmapEnt (ftl : ConvFtl) (page : Page) : Exec (Option Nat) := do
  nvmevAssert (ppa2pgidx c page < ttPgs c)
  pure (ftl.rmap (ppa2pgidx c page))

def setRmapEnt (ftl : ConvFtl) (lpn : Option Nat) (page : Page) : Exec ConvFtl := do
  nvmevAssert (ppa2pgidx c page < ttPgs c)
  pure { ftl with rmap := Function.update ftl.rmap (ppa2pgidx c page) lpn }

def setMaptblEnt (ftl : ConvFtl) (lpn : Nat) (page : Page) : Exec ConvFtl := do
  nvmevAssert (lpn < ttPgs c)
  pure { ftl with maptbl := Function.update ftl.maptbl lpn (some page) }

def putBlock (ftl : ConvFtl) (block : Block) (blk : NandBlock) : ConvFtl :=
  { ftl with nand := Function.update ftl.nand block blk }

def pageStatus (ftl : ConvFtl) (page : Page) : PageStatus := (ftl.nand page.block).status page.pg

-- pqueue_change_priority stores the new priority back into vpc.
def decVpc (lm : LineMgmt) (id : Nat) : LineMgmt :=
  let vpc := (lm.lines id).vpc - 1
  let lm := if (lm.lines id).pos ≠ 0 then
      putVictimHeap lm (IndexedHeap.pqueueChangePriority (victimLineGetPri lm) (victimHeap lm) (vpc % 2 ^ 64).toNat id)
    else lm
  putLine lm id { lm.lines id with vpc := vpc }

-- The line part of mark_page_invalid.
def invalidateInLine (lm : LineMgmt) (id : Nat) : Exec LineMgmt := do
  let line := lm.lines id
  nvmevAssert (0 ≤ line.ipc ∧ line.ipc < pgsPerLine c)
  nvmevAssert (line.vpc = pgsPerLine c → line.ipc = 0)
  nvmevAssert (0 < line.vpc ∧ line.vpc ≤ pgsPerLine c)
  let lm := decVpc (putLine lm id { line with ipc := line.ipc + 1 }) id
  if line.vpc = pgsPerLine c then pure (insertVictim (delFull lm id) id) else pure lm

def markPageInvalid (ftl : ConvFtl) (page : Page) : Exec ConvFtl := do
  let blk := ftl.nand page.block
  nvmevAssert (blk.status page.pg = .valid)
  nvmevAssert (0 ≤ blk.ipc ∧ blk.ipc < pgsPerBlk c)
  nvmevAssert (0 < blk.vpc ∧ blk.vpc ≤ pgsPerBlk c)
  let lm ← invalidateInLine c ftl.lm page.block.blk
  pure { putBlock ftl page.block { blk with status := Function.update blk.status page.pg .invalid,
                                            ipc := blk.ipc + 1, vpc := blk.vpc - 1 } with lm := lm }

def markPageValid (ftl : ConvFtl) (page : Page) : Exec ConvFtl := do
  let blk := ftl.nand page.block
  let line := ftl.lm.lines page.block.blk
  nvmevAssert (blk.status page.pg = .free)
  nvmevAssert (0 ≤ blk.vpc ∧ blk.vpc < pgsPerBlk c)
  nvmevAssert (0 ≤ line.vpc ∧ line.vpc < pgsPerLine c)
  pure { putBlock ftl page.block { blk with status := Function.update blk.status page.pg .valid, vpc := blk.vpc + 1 } with
         lm := putLine ftl.lm page.block.blk { line with vpc := line.vpc + 1 } }

def markBlockFree (ftl : ConvFtl) (block : Block) : ConvFtl :=
  let blk := ftl.nand block
  putBlock ftl block { status := fun pg => if pg < pgsPerBlk c then .free else blk.status pg,
                       ipc := 0, vpc := 0, eraseCnt := blk.eraseCnt + 1 }

-- The new page of an LPN, for a host write and for a copy alike.
def placePage (ftl : ConvFtl) (ioType : IoType) (lpn : Nat) : Exec (Page × ConvFtl) := do
  let page ← getNewPage ftl ioType
  let ftl ← setMaptblEnt c ftl lpn page
  let ftl ← setRmapEnt c ftl (some lpn) page
  let ftl ← markPageValid c ftl page
  let ftl ← advanceWritePointer c ftl ioType
  pure (page, ftl)

end Mapping

section Collecting

variable (c : ConvParams)

-- INVALID_LPN is no valid LPN.
def gcWritePage (ftl : ConvFtl) (oldPage : Page) : Exec ConvFtl := do
  match ← getRmapEnt c ftl oldPage with
  | none => .error .bugOn
  | some lpn => do
      nvmevAssert (lpn < ttPgs c)
      let (_, ftl) ← placePage c ftl .gcIo lpn
      pure ftl

def selectVictimLine (ftl : ConvFtl) (force : Bool) : Option (Nat × ConvFtl) :=
  match IndexedHeap.pqueuePeek (victimHeap ftl.lm) with
  | none => none
  | some victim =>
      if !force && decide ((pgsPerLine c / 8 : Nat) < (ftl.lm.lines victim).vpc) then none
      else
        let lm := putVictimHeap ftl.lm (IndexedHeap.pqueuePop (victimLineGetPri ftl.lm) (victimHeap ftl.lm))
        let lm := putLine lm victim { lm.lines victim with pos := 0 }
        some (victim, { ftl with lm := { lm with victimLineCnt := decCnt lm.victimLineCnt } })

def flashPages (page : Page) : List Page := (List.range c.pgsPerFlashpg).map fun i => { page with pg := page.pg + i }

def noneFree (ftl : ConvFtl) : List Page → Exec Unit
  | [] => .ok ()
  | page :: rest => do
      nvmevAssert (pageStatus ftl page ≠ .free)
      noneFree ftl rest

def copyPages : List Page → ConvFtl → Exec ConvFtl
  | [], ftl => .ok ftl
  | page :: rest, ftl => do
      let ftl ← if pageStatus ftl page = .valid then gcWritePage c ftl page else pure ftl
      copyPages rest ftl

def cleanOneFlashpg (ftl : ConvFtl) (page : Page) : Exec ConvFtl := do
  noneFree ftl (flashPages c page)
  if (flashPages c page).all fun page => pageStatus ftl page ≠ .valid then pure ftl else copyPages c (flashPages c page) ftl

-- The turns of the loops of do_gc: flash page, channel and LUN.
def gcTurns : List (Nat × Nat × Nat) :=
  (List.range (flashpgsPerBlk c)).flatMap fun flashpg =>
    (List.range c.nchs).flatMap fun ch => (List.range c.lunsPerCh).map fun lun => (flashpg, ch, lun)

def turnPage (victim : Nat) (turn : Nat × Nat × Nat) : Page := ⟨⟨⟨turn.2.1, turn.2.2, 0⟩, victim⟩, turn.1 * c.pgsPerFlashpg⟩

def gcTurn (victim : Nat) (ftl : ConvFtl) (turn : Nat × Nat × Nat) : Exec ConvFtl := do
  let ftl ← cleanOneFlashpg c ftl (turnPage c victim turn)
  if turn.1 + 1 = flashpgsPerBlk c then pure (markBlockFree c ftl (turnPage c victim turn).block) else pure ftl

def gcLoop (victim : Nat) : List (Nat × Nat × Nat) → ConvFtl → Exec ConvFtl
  | [], ftl => .ok ftl
  | turn :: rest, ftl => do
      let ftl ← gcTurn c victim ftl turn
      gcLoop victim rest ftl

def markLineFree (ftl : ConvFtl) (id : Nat) : ConvFtl :=
  { ftl with lm := addFree (putLine ftl.lm id { ftl.lm.lines id with ipc := 0, vpc := 0 }) id }

def doGc (ftl : ConvFtl) (force : Bool) : Exec ConvFtl :=
  match selectVictimLine c ftl force with
  | none => .ok { ftl with gcMissed := true }
  | some (victim, ftl) => do
      let line := ftl.lm.lines victim
      let ftl := { ftl with creditsToRefill := u32 (line.ipc % 2 ^ 32).toNat, gcMissed := ftl.gcMissed || decide (line.ipc < 1) }
      let ftl ← gcLoop c victim (gcTurns c) ftl
      pure (markLineFree ftl victim)

def gcThresLinesHigh : Nat := 2

def shouldGcHigh (ftl : ConvFtl) : Bool := decide (ftl.lm.freeLineCnt ≤ gcThresLinesHigh)

def foregroundGc (ftl : ConvFtl) : Exec ConvFtl := if shouldGcHigh ftl then doGc c ftl true else .ok ftl

def consumeWriteCredit (ftl : ConvFtl) : ConvFtl :=
  { ftl with writeCredits := u32 (ftl.writeCredits + 2 ^ 32 - 1), creditsWrapped := ftl.creditsWrapped || ftl.writeCredits == 0 }

def checkAndRefillWriteCredit (ftl : ConvFtl) : Exec ConvFtl :=
  if ftl.writeCredits = 0 then do
    let ftl ← foregroundGc c ftl
    pure { ftl with writeCredits := u32 (ftl.writeCredits + ftl.creditsToRefill) }
  else .ok ftl

end Collecting

section Initial

variable (c : ConvParams)

def freshLine : Line := ⟨0, 0, 0⟩

-- init_lines.
def initLines : LineMgmt :=
  (List.range (ttLines c)).foldl addFree ⟨fun _ => freshLine, IntrusiveList.selfLinked, fun _ => 0, 1, 0, 0, 0⟩

def bareFtl : ConvFtl where
  nand _ := ⟨fun _ => .free, 0, 0, 0⟩
  maptbl _ := none
  rmap _ := none
  lm := initLines c
  wp := ⟨none, 0, 0, 0, 0, 0⟩
  gcWp := ⟨none, 0, 0, 0, 0, 0⟩
  writeCredits := u32 (pgsPerLine c)
  creditsToRefill := u32 (pgsPerLine c)
  gcMissed := false
  creditsWrapped := false

def convInitFtl : Exec ConvFtl := do
  let ftl ← prepareWritePointer (bareFtl c) .userIo
  prepareWritePointer ftl .gcIo

end Initial

section Commands

variable (c : ConvParams)

def invalidateOld (ftl : ConvFtl) (lpn : Nat) : Exec ConvFtl :=
  match ftl.maptbl lpn with
  | none => .ok ftl
  | some page => do
      let ftl ← markPageInvalid c ftl page
      setRmapEnt c ftl none page

-- One turn of the loop of conv_write, for the LPN of its partition.
def writePage (ftl : ConvFtl) (lpn : Nat) : Exec (Page × ConvFtl) := do
  let ftl ← invalidateOld c ftl lpn
  let (page, ftl) ← placePage c ftl .userIo lpn
  let ftl ← checkAndRefillWriteCredit c (consumeWriteCredit ftl)
  pure (page, ftl)

def lastPgInWordline (page : Page) : Bool := page.pg % pgsPerOneshotpg c == pgsPerOneshotpg c - 1

structure RwCommand where
  slba : Nat
  length : Nat
  slbaFits : slba < 2 ^ 64
  lengthFits : length < 2 ^ 16

def nrLba (cmd : RwCommand) : Nat := cmd.length + 1
def startLpn (cmd : RwCommand) : Nat := cmd.slba / secsPerPg
def endLpn (cmd : RwCommand) : Nat := u64 (cmd.slba + nrLba cmd - 1) / secsPerPg

structure WriteBuffer where
  size : Nat
  remaining : Nat

-- The partitions of a namespace and the buffer they share. todo holds the LPNs
-- that the write in progress has still to place, scheduled the bytes of the
-- releases that are still to be run.
structure ConvNs where
  parts : Nat → ConvFtl
  wbuf : WriteBuffer
  todo : List Nat
  scheduled : List Nat

def lpnsOf (cmd : RwCommand) : List Nat := (List.range (endLpn cmd + 1 - startLpn cmd)).map fun i => startLpn cmd + i

-- conv_write up to its loop. A write that is turned away, or that finds too little
-- room in the buffer, changes nothing.
def convWrite (ns : ConvNs) (cmd : RwCommand) : ConvNs :=
  if ttPgs c ≤ endLpn cmd / c.nrParts then ns
  else if ns.wbuf.remaining < nrLba cmd * secsz then ns
  else { ns with wbuf := { ns.wbuf with remaining := ns.wbuf.remaining - nrLba cmd * secsz }, todo := lpnsOf cmd }

-- queued tells whether the work queue has an entry for the release.
def convWriteTurn (ns : ConvNs) (lpn : Nat) (rest : List Nat) (queued : Bool) : Exec ConvNs := do
  let part := lpn % c.nrParts
  let (page, ftl) ← writePage c (ns.parts part) (lpn / c.nrParts)
  let scheduled := if lastPgInWordline c page && queued then ns.scheduled ++ [pgsPerOneshotpg c * pgsz] else ns.scheduled
  pure { ns with parts := Function.update ns.parts part ftl, todo := rest, scheduled := scheduled }

def bufferRelease (ns : ConvNs) (place bytes : Nat) : ConvNs :=
  let remaining := ns.wbuf.remaining + bytes
  { ns with wbuf := { ns.wbuf with remaining := if ns.wbuf.size ≤ remaining then ns.wbuf.size else remaining },
            scheduled := ns.scheduled.eraseIdx place }

inductive Event where
  | read (cmd : RwCommand)
  | write (cmd : RwCommand)
  | turn (queued : Bool)
  | release (place : Nat)

-- The loop of a write is taken turn by turn, so that it can be said what holds
-- between them. A read only asks for times.
inductive Step (ns : ConvNs) : Event → ConvNs → Prop where
  | read (cmd : RwCommand) (idle : ns.todo = []) : Step ns (.read cmd) ns
  | write (cmd : RwCommand) (idle : ns.todo = []) : Step ns (.write cmd) (convWrite c ns cmd)
  | turn (queued : Bool) (lpn : Nat) (rest : List Nat) (next : ConvNs) (due : ns.todo = lpn :: rest)
      (ran : convWriteTurn c ns lpn rest queued = .ok next) : Step ns (.turn queued) next
  | release (place bytes : Nat) (due : ns.scheduled[place]? = some bytes) : Step ns (.release place) (bufferRelease ns place bytes)

def Starts (ns : ConvNs) : Prop :=
  (∀ part, convInitFtl c = .ok (ns.parts part)) ∧ ns.wbuf = ⟨c.writeBufferSize, c.writeBufferSize⟩ ∧ ns.todo = [] ∧ ns.scheduled = []

def system : TransitionSystem.System ConvNs Event := ⟨Starts c, Step c⟩

abbrev Reachable (allowed : ConvNs → Event → Prop) : ConvNs → Prop := TransitionSystem.Reach (system c) allowed

end Commands

end ConZone.Conv
