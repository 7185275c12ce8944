import ConZone.Mapping
import ConZone.Timing

set_option autoImplicit false

namespace ConZone

def invalidLpn : Nat := 2 ^ 64 - 1

-- The pages of one flash page that a read command will fetch: its first page
-- and the bytes collected so far. Each plane collects one at a time.
abbrev ReadAgg := Nat → Option (Page × Nat)

def submitRead (p : Params) (ftl : ZmsFtl) (ioType : IoType) (start : Nat) (agg : Page × Nat) : Nat × ZmsFtl :=
  if ioType ≠ .gcIo ∨ p.zpp.enableGcDelay then
    let ftl := { ftl with stats := { ftl.stats with deviceRPgs := ftl.stats.deviceRPgs + agg.2 / pgsz } }
    submitNandCmd p ftl ioType .nandRead start agg.2 agg.1
  else (start, ftl)

def planeIdx (p : Params) (page : Page) : Nat :=
  (page.ch * (p.spp.lunsPerCh * p.spp.plsPerLun) + page.lun * p.spp.plsPerLun + page.pl)
    % (p.spp.nchs * p.spp.lunsPerCh * p.spp.plsPerLun)

def readStep (p : Params) (ioType : IoType) (start : Nat) (state : Nat × ZmsFtl × ReadAgg) (lpn : Nat) : Nat × ZmsFtl × ReadAgg :=
  let (latest, ftl, aggs) := state
  match getMaptblEnt p ftl lpn with
  | .mapped page _ =>
      let idx := planeIdx p page
      match aggs idx with
      | none => (latest, ftl, Function.update aggs idx (some (page, pgsz)))
      | some (first, size) =>
          if flashpageSame p page first then (latest, ftl, Function.update aggs idx (some (first, size + pgsz)))
          else
            let (time, ftl) := submitRead p ftl ioType start (first, size)
            (max latest time, ftl, Function.update aggs idx (some (page, pgsz)))
  | _ => state

def nandRead (p : Params) (ftl : ZmsFtl) (lpns : List Nat) (ioType : IoType) (start : Nat) : Nat × ZmsFtl :=
  let (latest, ftl, aggs) := lpns.foldl (readStep p ioType start) (start, ftl, fun _ => none)
  (List.range (p.spp.nchs * p.spp.lunsPerCh * p.spp.plsPerLun)).foldl (fun state idx =>
    match aggs idx with
    | none => state
    | some agg =>
        let (time, ftl) := submitRead p state.2 ioType start agg
        (max state.1 time, ftl)) (latest, ftl)

section Reading

variable (p : Params) (holds : ZmsFtl → Prop) (ioType : IoType) (start : Nat)
  (submits : ∀ ftl agg, holds ftl → holds (submitRead p ftl ioType start agg).2)

include submits in
theorem read_step_keeps (state : Nat × ZmsFtl × ReadAgg) (lpn : Nat) (held : holds state.2.1) :
    holds (readStep p ioType start state lpn).2.1 := by
  obtain ⟨latest, ftl, aggs⟩ := state
  unfold readStep
  dsimp only
  split
  · split
    · exact held
    · split
      · exact held
      · exact submits ftl _ held
  · exact held

include submits in
theorem nand_read_keeps (ftl : ZmsFtl) (lpns : List Nat) (held : holds ftl) : holds (nandRead p ftl lpns ioType start).2 := by
  have steps : ∀ state : Nat × ZmsFtl × ReadAgg, holds state.2.1 → holds (lpns.foldl (readStep p ioType start) state).2.1 := by
    induction lpns with
    | nil => exact fun _ before => before
    | cons lpn rest ih => exact fun state before => ih _ (read_step_keeps p holds ioType start submits state lpn before)
  unfold nandRead
  have collected := steps (start, ftl, fun _ => none) held
  generalize lpns.foldl (readStep p ioType start) (start, ftl, fun _ => none) = state at collected
  obtain ⟨latest, middle, aggs⟩ := state
  dsimp only at collected ⊢
  generalize List.range (p.spp.nchs * p.spp.lunsPerCh * p.spp.plsPerLun) = indices
  induction indices generalizing latest middle with
  | nil => exact collected
  | cons idx rest ih =>
      rw [List.foldl_cons]
      cases aggs idx with
      | none => exact ih latest middle collected
      | some agg => exact ih _ _ (submits middle agg collected)

end Reading

def consumeWriteCredit (ftl : ZmsFtl) (loc : Loc) : ZmsFtl :=
  { ftl with wfc := Function.update ftl.wfc loc { ftl.wfc loc with writeCredits := (ftl.wfc loc).writeCredits - 1 } }

def setCreditsToRefill (ftl : ZmsFtl) (loc : Loc) (credits : Int) : ZmsFtl :=
  { ftl with wfc := Function.update ftl.wfc loc { ftl.wfc loc with creditsToRefill := credits } }

def addCredits (ftl : ZmsFtl) (loc : Loc) : ZmsFtl :=
  let wfc := ftl.wfc loc
  { ftl with wfc := Function.update ftl.wfc loc { wfc with writeCredits := wfc.writeCredits + wfc.creditsToRefill } }

-- collect is foreground_gc. The writes that collecting issues carry GC_IO and
-- never take a credit, so the recursion of the source ends after one level.
def checkAndRefillWriteCredit (collect : ZmsFtl → Loc → Exec ZmsFtl) (ftl : ZmsFtl) (loc : Loc) : Exec ZmsFtl := do
  if (ftl.wfc loc).writeCredits ≤ 0 then
    let ftl ← collect ftl loc
    pure (addCredits ftl loc)
  else pure ftl

def countWrite (ftl : ZmsFtl) (ioType : IoType) (pgs : Nat) : ZmsFtl :=
  { ftl with stats := { ftl.stats with deviceWPgs := ftl.stats.deviceWPgs + pgs,
                                       gcPgs := ftl.stats.gcPgs + (if ioType = .gcIo then pgs else 0) } }

def programPage (p : Params) (ftl : ZmsFtl) (start lpn : Nat) (loc : Loc) (ioType : IoType) (toWritePgs elpn : Nat)
    (page : Page) : Nat × ZmsFtl :=
  if isLastPgInWordline p page || lpn == elpn then
    let pgs := min toWritePgs (oneshotOf p loc)
    if ioType ≠ .gcIo ∨ p.zpp.enableGcDelay then
      let (time, ftl) := submitNandCmd p ftl ioType .nandWrite start (pgs * pgsz) page
      (max time start, countWrite ftl ioType pgs)
    else (start, countWrite ftl ioType pgs)
  else (start, ftl)

def takesCredit (p : Params) (loc : Loc) (ioType : IoType) : Bool :=
  (ioType == .userIo && loc == .pslc) || (ioType != .gcIo && p.zpp.nsType == .tlc && loc == .normal)

def nandWrite (collect : ZmsFtl → Loc → Exec ZmsFtl) (p : Params) (ftl : ZmsFtl) (start lpn : Nat) (loc : Loc)
    (ioType : IoType) (toWritePgs elpn : Nat) : Exec (Nat × ZmsFtl) := do
  let ftl ← updateOrReserveMapping p ftl lpn loc ioType
  match getMaptblEnt p ftl lpn with
  | .mapped page _ =>
      if locFull ftl loc then pure (start, ftl)
      else
        let (time, ftl) := programPage p ftl start lpn loc ioType toWritePgs elpn page
        if takesCredit p loc ioType then
          let ftl ← checkAndRefillWriteCredit collect (consumeWriteCredit ftl loc) loc
          pure (time, ftl)
        else pure (time, ftl)
  | _ => pure (start, ftl)

def dropMapping (p : Params) (ftl : ZmsFtl) (lpn : Nat) (page : Page) : ZmsFtl :=
  unmapLpn (setRmapEnt p (markPageInvalid p ftl page) none page) lpn

def dropIfMapped (p : Params) (ftl : ZmsFtl) (lpn : Nat) : ZmsFtl :=
  match getMaptblEnt p ftl lpn with
  | .mapped page _ => dropMapping p ftl lpn page
  | _ => ftl

def internalWriteLoop (collect : ZmsFtl → Loc → Exec ZmsFtl) (p : Params) (ioType : IoType) (loc : Loc) (start elpn : Nat) :
    List Nat → ZmsFtl → Nat → Nat → Exec (Nat × ZmsFtl)
  | [], ftl, _, latest => .ok (latest, ftl)
  | lpn :: rest, ftl, toWritePgs, latest => do
      let (time, ftl) ← nandWrite collect p (dropIfMapped p ftl lpn) start lpn loc ioType (toWritePgs + 1) elpn
      internalWriteLoop collect p ioType loc start elpn rest ftl (if time ≠ start then 0 else toWritePgs + 1) (max latest time)

def internalWrite (collect : ZmsFtl → Loc → Exec ZmsFtl) (p : Params) (ftl : ZmsFtl) (lpns : List Nat) (ioType : IoType)
    (loc : Loc) (start : Nat) : Exec (Nat × ZmsFtl) :=
  let (writeStart, ftl) := nandRead p ftl lpns ioType start
  internalWriteLoop collect p ioType loc writeStart (lpns.getLast?.getD 0) lpns ftl 0 writeStart

def wpNames : List WpName := [.gcWp, .wp, .pslcGcWp, .pslcWp]

def isActiveLine (ftl : ZmsFtl) (ref : LineRef) : Bool := wpNames.any fun name => (ftl.wps name).curline == some ref

def selectVictimLine (p : Params) (ftl : ZmsFtl) (force : Bool) (loc : Loc) : Option (LineRef × ZmsFtl) :=
  match IndexedHeap.pqueuePeek (victimHeap ftl.lm loc) with
  | none => none
  | some victim =>
      if !force && decide ((p.spp.pgsPerLine / 8 : Nat) < (ftl.lm.lines victim).vpc) then none
      else
        let lm := putVictimHeap ftl.lm loc (IndexedHeap.pqueuePop (victimPri ftl.lm) (victimHeap ftl.lm loc))
        let lines := Function.update lm.lines victim { lm.lines victim with pos := 0 }
        some (victim, { ftl with lm := { lm with lines := lines, victimLineCnt := decCnt lm.victimLineCnt loc } })

-- Leaving the container of a line that is neither collected nor active: the
-- full list when every page is still valid, else the victim queue if queued.
def detachLine (p : Params) (lm : LineMgmt) (loc : Loc) (ref : LineRef) : LineMgmt :=
  if (lm.lines ref).vpc ≠ pgsPerLineOf p ref then
    if IndexedHeap.pqueuePeek (victimHeap lm loc) = none ∨ (lm.lines ref).pos = 0 then lm
    else
      let lm := putVictimHeap lm loc (IndexedHeap.pqueueRemove (victimPri lm) (victimHeap lm loc) ref)
      { lm with lines := Function.update lm.lines ref { lm.lines ref with pos := 0 },
                victimLineCnt := decCnt lm.victimLineCnt loc }
  else delFull lm loc ref

def clearLine (lm : LineMgmt) (ref : LineRef) : LineMgmt :=
  { lm with lines := Function.update lm.lines ref { lm.lines ref with ipc := 0, vpc := 0, rpc := 0, rsvNextline := none } }

def resetWp (ftl : ZmsFtl) (ref : LineRef) : ZmsFtl :=
  match wpNames.find? fun name => (ftl.wps name).curline == some ref with
  | some name =>
      putWp ftl name { ftl.wps name with block := ⟨⟨0, 0, 0⟩, (ftl.wps name).block.blk⟩, pg := 0 }
  | none => ftl

def markLineFree (p : Params) (ftl : ZmsFtl) (ref : LineRef) (ioType : IoType) : ZmsFtl :=
  let loc := getLineLocation p ref
  let active := isActiveLine ftl ref
  let lm := if ioType ≠ .gcIo ∧ !active then detachLine p ftl.lm loc ref else ftl.lm
  let lm := clearLine lm ref
  let ftl := if !active then { ftl with lm := addFree lm loc ref } else resetWp { ftl with lm := lm } ref
  let line := ftl.lm.lines ref
  let ftl := if loc = .pslc ∧ ioType ≠ .migrateIo ∧ !active ∧ line.midPos ≠ 0 then
      putLine ftl ref { line with midPos := 0, midWriteOrder := 0 }
    else ftl
  { ftl with stats := { ftl.stats with eraseCnt := Function.update ftl.stats.eraseCnt loc (ftl.stats.eraseCnt loc + 1) } }

def eraseBlock (p : Params) (ioType : IoType) (ftl : ZmsFtl) (block : Block) : ZmsFtl :=
  let ftl := markBlockFree p ftl block
  if ioType ≠ .gcIo ∨ p.zpp.enableGcDelay then (submitNandCmd p ftl ioType .nandErase 0 0 ⟨block, 0⟩).2 else ftl

-- The blocks erase_line visits: for a superblock line the plane of its first
-- page in every channel and every LUN of its rows.
def erasedBlocks (p : Params) (ref : LineRef) : List Block :=
  let first := getFirstPage p ref
  if isSuperblock ref then
    (List.range p.spp.nchs).flatMap fun ch =>
      ((List.range (rowsPerLine p.spp)).filter fun row => first.lun + row < p.spp.lunsPerCh).map fun row =>
        ⟨⟨ch, first.lun + row, first.pl⟩, first.blk⟩
  else [first.block]

def eraseLine (p : Params) (ftl : ZmsFtl) (ref : LineRef) (ioType : IoType) : ZmsFtl :=
  markLineFree p ((erasedBlocks p ref).foldl (eraseBlock p ioType) ftl) ref ioType

def invalidLine (p : Params) (ftl : ZmsFtl) (ref : LineRef) : Bool :=
  (ftl.lm.lines ref).ipc + (ftl.lm.lines ref).rpc == pgsPerLineOf p ref

def eraseLinkedLines (p : Params) : Nat → ZmsFtl → Option LineRef → Exec ZmsFtl
  | _, ftl, none => .ok ftl
  | 0, _, some _ => .error .hang
  | fuel + 1, ftl, some target =>
      let next := (ftl.lm.lines target).rsvNextline
      eraseLinkedLines p fuel (if invalidLine p ftl target then eraseLine p ftl target .userIo else ftl) next

def pagesBound (p : Params) : Nat := p.spp.blksPerLine * p.spp.pgsPerBlk + 1

def linesBound (p : Params) : Nat := p.zpp.ttLines * (p.spp.blksPerLine + 1) + 1

-- collecting is never asked for by the writes below, see checkAndRefillWriteCredit.
def noCollect (_ : ZmsFtl) (_ : Loc) : Exec ZmsFtl := .error .hang

structure GcScan where
  ftl : ZmsFtl
  agg : List Nat

-- A full program unit is moved at once.
def gcFlush (p : Params) (ftl : ZmsFtl) (agg : List Nat) (loc : Loc) : Exec GcScan :=
  if agg.length = oneshotOf p loc then do
    let (_, ftl) ← internalWrite noCollect p ftl agg .gcIo loc 0
    pure ⟨ftl, []⟩
  else .ok ⟨ftl, agg⟩

def countCopy (scan : GcScan) : GcScan :=
  { scan with ftl := { scan.ftl with stats := { scan.ftl.stats with deviceCopyPgs := scan.ftl.stats.deviceCopyPgs + 1 } } }

def gcVisit (p : Params) (loc : Loc) (scan : GcScan) (page : Page) : Exec GcScan :=
  if pageStatus scan.ftl page = .valid then do
    let scan ← gcFlush p scan.ftl (scan.agg ++ [(getRmapEnt p scan.ftl page).getD invalidLpn]) loc
    pure (countCopy scan)
  else .ok scan

def gcNext (p : Params) (ftl : ZmsFtl) (page : Page) : Option Page :=
  match nextpage p ftl.lm.lines page .pageMap false with
  | .mapped next _ => some next
  | _ => none

def gcScan (p : Params) (loc : Loc) : Nat → GcScan → Option Page → Exec GcScan
  | _, scan, none => .ok scan
  | 0, _, some _ => .error .hang
  | fuel + 1, scan, some page => do
      let scan ← gcVisit p loc scan page
      gcScan p loc fuel scan (gcNext p scan.ftl page)

def parkGcLpn (p : Params) (ftl : ZmsFtl) (lpn : Nat) : ZmsFtl :=
  dropIfMapped p { ftl with gcAggLpns := ftl.gcAggLpns ++ [lpn] } lpn

def gcStart (ftl : ZmsFtl) (loc : Loc) : GcScan :=
  if loc = .normal then ⟨{ ftl with gcAggLpns := [] }, ftl.gcAggLpns⟩ else ⟨ftl, []⟩

-- What does not fill a program unit waits in gc_agg_lpns or is written as it is.
def gcRest (p : Params) (loc : Loc) (scan : GcScan) : Exec ZmsFtl :=
  if scan.agg = [] then .ok scan.ftl
  else if loc = .normal then .ok (scan.agg.foldl (parkGcLpn p) scan.ftl)
  else do
    let (_, ftl) ← internalWrite noCollect p scan.ftl scan.agg .gcIo .pslc 0
    pure ftl

-- submit_internal_write for GC_IO.
def submitInternalWrite (p : Params) (ftl : ZmsFtl) (ref : LineRef) : Exec ZmsFtl := do
  let first := getFirstPage p ref
  let loc := getLineLocation p ref
  let scan ← gcScan p loc (pagesBound p) (gcStart ftl loc) (some first)
  gcRest p loc scan

def countGc (ftl : ZmsFtl) : ZmsFtl := { ftl with stats := { ftl.stats with gcCount := ftl.stats.gcCount + 1 } }

def doGc (p : Params) (ftl : ZmsFtl) (force : Bool) (loc : Loc) : Exec ZmsFtl :=
  match selectVictimLine p ftl force loc with
  | none => .ok ftl
  | some (victim, ftl) => do
      let line := ftl.lm.lines victim
      let ftl ← submitInternalWrite p (setCreditsToRefill ftl loc (line.ipc + line.rpc)) victim
      pure (countGc (eraseLine p ftl victim .gcIo))

def shouldGcHigh (p : Params) (ftl : ZmsFtl) (loc : Loc) : Bool := decide (ftl.lm.freeLineCnt loc ≤ p.zpp.gcThresLinesHigh)

def foregroundGc (p : Params) (ftl : ZmsFtl) (loc : Loc) : Exec ZmsFtl :=
  if shouldGcHigh p ftl loc then
    let ftl := setCreditsToRefill ftl loc 0
    if anyFull ftl then .ok ftl else doGc p ftl true loc
  else
    .ok (setCreditsToRefill ftl loc (match loc with
      | .pslc => p.zpp.pslcPgsPerLine
      | .normal => p.zpp.pgsPerLine))

end ConZone
