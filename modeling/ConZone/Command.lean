import ConZone.Zone

set_option autoImplicit false

namespace ConZone

def writeUnitSize : Nat := 512

structure RwCommand where
  append : Bool
  slba : Nat
  length : Nat
  fua : Bool

def nrLbasFromRwCmd (cmd : RwCommand) : Nat := cmd.length + 1

structure Request where
  sqId : Nat
  nsecsStart : Nat

structure Completion where
  status : NvmeStatus
  nsecsTarget : Nat

structure WriteProgress where
  ftl : ZmsFtl
  latest : Nat
  xferCompleted : Nat

def fillBuffer (ftl : ZmsFtl) (index zid lpn pgs time : Nat) : ZmsFtl :=
  let buffer := ftl.writeBuffer index
  putBuffer ftl index
    { buffer with lpns := buffer.lpns ++ (List.range pgs).map (lpn + ·), flushData := buffer.flushData + pgsz * pgs,
                  zid := if buffer.zid = none then some zid else buffer.zid, time := time }

def writeStep (p : Params) (index zid lpn pgs : Nat) (progress : WriteProgress) : Exec WriteProgress := do
  let (time, timing) := ssdAdvanceWriteBuffer progress.ftl.timing progress.latest (pgs * pgsz)
  let ftl := fillBuffer { progress.ftl with timing := timing } index zid lpn pgs time
  if (ftl.writeBuffer index).flushData = wbSize p then
    let (completed, ftl) ← bufferFlush p ftl index time
    pure ⟨ftl, max completed time, time⟩
  else pure ⟨ftl, time, time⟩

-- fuel bounds the LPNs left. A full buffer that is not flushed, because its
-- capacity is no multiple of a page, would let the source loop forever.
def writeLoop (p : Params) (index zid elpn : Nat) : Nat → Nat → WriteProgress → Exec WriteProgress
  | 0, lpn, progress => if elpn < lpn then .ok progress else .error .hang
  | fuel + 1, lpn, progress =>
      if elpn < lpn then .ok progress
      else
        let pgs := min (elpn - lpn + 1) (wbLpns p - (progress.ftl.writeBuffer index).pgs)
        if pgs = 0 then .error .hang
        else do
          let progress ← writeStep p index zid lpn pgs progress
          if anyFull progress.ftl then pure progress else writeLoop p index zid elpn fuel (lpn + pgs) progress

-- done is none when the handler returns false and the dispatcher will run the
-- same entry again, with the slba an append has rewritten.
structure WriteOutcome where
  ftl : ZmsFtl
  cmd : RwCommand
  done : Option Completion

def finishWrite (cmd : RwCommand) (progress : WriteProgress) (buffer : Option Nat) (status : NvmeStatus) :
    WriteOutcome :=
  let ftl := match buffer with
    | some index => scheduleInternalOperation progress.ftl progress.latest index
    | none => progress.ftl
  { ftl := { ftl with stats := { ftl.stats with hostWrequestCnt := ftl.stats.hostWrequestCnt + 1 } }, cmd := cmd,
    done := some ⟨status, if cmd.fua then progress.latest else progress.xferCompleted⟩ }

def noteRequest (ftl : ZmsFtl) (slba nrLba start : Nat) : ZmsFtl :=
  if ftl.lastNlb ≠ nrLba ∨ ftl.lastSlba ≠ slba then
    { ftl with lastNlb := nrLba, lastSlba := slba, lastStime := start }
  else ftl

-- From the accepted buffer on: the write check commits the zone, then the data
-- goes through the buffer.
def writeBuffered (p : Params) (req : Request) (cmd : RwCommand) (zid index : Nat) (ftl : ZmsFtl) : Exec WriteOutcome :=
  let start := req.nsecsStart
  let slpn := lbaToLpn cmd.slba
  let elpn := lbaToLpn (u64 (cmd.slba + nrLbasFromRwCmd cmd - 1))
  if p.zpp.nrZones ≤ lbaToZone p cmd.slba then .error .outOfBounds
  else
    match znsWriteCheck p ftl cmd.slba (nrLbasFromRwCmd cmd) with
    | (.success, ftl) => do
        let progress ← writeLoop p index zid elpn (elpn + 1 - slpn) slpn ⟨ftl, start, start⟩
        pure (finishWrite cmd progress (some index) (if anyFull progress.ftl then .capExceeded else .success))
    | (status, ftl) => .ok (finishWrite cmd ⟨ftl, start, start⟩ (some index) status)

def switchZone (p : Params) (req : Request) (cmd : RwCommand) (index : Nat) (ftl : ZmsFtl) : Exec WriteOutcome :=
  match bufferAllocate ftl index with
  | none => .ok ⟨ftl, cmd, none⟩
  | some ftl => do
      let (latest, ftl) ← bufferFlush p ftl index req.nsecsStart
      pure ⟨scheduleInternalOperation ftl latest index, cmd, none⟩

def writeToBuffer (p : Params) (req : Request) (cmd : RwCommand) (zid : Nat) (ftl : ZmsFtl) : Exec WriteOutcome :=
  let slpn := lbaToLpn cmd.slba
  match zmsWbGet p ftl slpn with
  | (none, ftl) => .ok ⟨ftl, cmd, none⟩
  | (some index, ftl) =>
      if !zmsWbCheck p (ftl.writeBuffer index) slpn then switchZone p req cmd index ftl
      else if nrLbasFromRwCmd cmd * secsz % writeUnitSize ≠ 0 then
        .ok (finishWrite cmd ⟨ftl, req.nsecsStart, req.nsecsStart⟩ (some index) .znsInvalidWrite)
      else
        let ftl := putBuffer ftl index { ftl.writeBuffer index with sqid := req.sqId }
        match bufferAllocate ftl index with
        | none => .ok ⟨ftl, cmd, none⟩
        | some ftl => writeBuffered p req cmd zid index ftl

def placeAppend (p : Params) (ftl : ZmsFtl) (cmd : RwCommand) : RwCommand :=
  if cmd.append then { cmd with slba := (ftl.zoneDescs (lbaToZone p cmd.slba)).wp } else cmd

def notePartial (ftl : ZmsFtl) (cmd : RwCommand) : ZmsFtl :=
  if nrLbasFromRwCmd cmd < secsPerPg then { ftl with nopgLastLpn := lbaToLpn cmd.slba } else ftl

-- The migration wait is left out: it asks for LUN flags that this build never sets.
def handleWriteRequest (p : Params) (ftl : ZmsFtl) (req : Request) (cmd : RwCommand) : Exec WriteOutcome :=
  let start := req.nsecsStart
  let ftl := { ftl with currentTime := start }
  if anyFull ftl then .ok (finishWrite cmd ⟨ftl, start, start⟩ none .capExceeded)
  else
    let ftl := { ftl with pendingForMigrating := false }
    let zid := lbaToZone p cmd.slba
    if cmd.append ∧ p.zpp.nrZones ≤ zid then .error .outOfBounds
    else
      let cmd := placeAppend p ftl cmd
      if nrLbasFromRwCmd cmd < secsPerPg ∧ ftl.nopgLastLpn = lbaToLpn cmd.slba then
        .ok (finishWrite cmd ⟨ftl, start, start⟩ none .success)
      else writeToBuffer p req cmd zid (noteRequest (notePartial ftl cmd) cmd.slba (nrLbasFromRwCmd cmd) start)

def zonedWrite (p : Params) (ftl : ZmsFtl) (req : Request) (cmd : RwCommand) : Exec WriteOutcome :=
  if p.zpp.nrZones ≤ lpnToZone p (lbaToLpn cmd.slba) then .error .outOfBounds else handleWriteRequest p ftl req cmd

def mapRead (p : Params) (lpn : Nat) : List MapType → Nat × ZmsFtl → Nat × ZmsFtl
  | [], state => state
  | gran :: rest, (latest, ftl) =>
      let mapSlpn := getGranularityStartLpn p lpn gran
      let (latest, ftl) := nandRead p ftl [mapSlpn] .mapReadIo latest
      match getMaptblEnt p ftl mapSlpn with
      | .mapped _ map =>
          if map = gran then
            let (index, cache) := l2pInsert p ftl.l2p mapSlpn gran (checkResident gran)
            let cache := setL2pcacheidx p cache p.zpp.nsid mapSlpn index
            let cache := l2pAccess cache mapSlpn index
            (latest, { ftl with l2p := cache, stats := { ftl.stats with l2pMisses := ftl.stats.l2pMisses + 1 } })
          else mapRead p lpn rest (latest, ftl)
      | _ => mapRead p lpn rest (latest, ftl)

def l2pSearch (p : Params) (ftl : ZmsFtl) (lpn : Nat) : Option (Nat × Int) :=
  mapType.findSome? fun gran =>
    let mapSlpn := getGranularityStartLpn p lpn gran
    let index := getL2pcacheidx p ftl.l2p mapSlpn
    if index = -1 then none else some (mapSlpn, index)

structure ReadState where
  ftl : ZmsFtl
  toRead : List Nat
  readBegin : Nat
  latest : Nat
  wbReadPgs : Nat

def bufferHolds (p : Params) (ftl : ZmsFtl) (buffer : Option Nat) (slpn lpn : Nat) : Bool :=
  match buffer with
  | some index => zmsWbCheck p (ftl.writeBuffer index) slpn && zmsWbHit (ftl.writeBuffer index) lpn
  | none => false

def lookupL2p (p : Params) (state : ReadState) (lpn : Nat) : ReadState :=
  match l2pSearch p state.ftl lpn with
  | some (mapSlpn, index) =>
      { state with ftl := { state.ftl with l2p := l2pAccess state.ftl.l2p mapSlpn index,
                                           stats := { state.ftl.stats with l2pHits := state.ftl.stats.l2pHits + 1 } } }
  | none =>
      let (completed, ftl) := nandRead p state.ftl state.toRead .userIo state.readBegin
      let (readBegin, ftl) := mapRead p lpn mapType (state.readBegin, ftl)
      { state with ftl := ftl, toRead := [], readBegin := readBegin, latest := max state.latest completed }

def readPage (p : Params) (slpn : Nat) (state : ReadState) (lpn : Nat) : ReadState :=
  let ftl := { state.ftl with stats := { state.ftl.stats with hostRPgs := state.ftl.stats.hostRPgs + 1 } }
  let (buffer, ftl) := zmsWbGet p ftl slpn
  if bufferHolds p ftl buffer slpn lpn then
    { state with ftl := { ftl with stats := { ftl.stats with readWbHits := ftl.stats.readWbHits + 1 } },
                 wbReadPgs := state.wbReadPgs + 1 }
  else
    let parked := ftl.gcAggLpns.count lpn
    let state := lookupL2p p { state with ftl := ftl, wbReadPgs := state.wbReadPgs + parked } lpn
    let ftl := if mappedPpa (getMaptblEnt p state.ftl lpn) then state.ftl
      else { state.ftl with stats := { state.ftl.stats with unmappedReadCnt := state.ftl.stats.unmappedReadCnt + 1 } }
    { state with ftl := ftl, toRead := state.toRead ++ [lpn] }

def lpnRange (slpn elpn : Nat) : List Nat := (List.range (elpn + 1 - slpn)).map (slpn + ·)

def handleReadRequest (p : Params) (ftl : ZmsFtl) (req : Request) (cmd : RwCommand) : Completion × ZmsFtl :=
  let nrLba := nrLbasFromRwCmd cmd
  let slpn := lbaToLpn cmd.slba
  let elpn := lbaToLpn (u64 (cmd.slba + nrLba - 1))
  let begin := req.nsecsStart + (if nrLba * secsz ≤ 4096 then fw4kbRdLat else fwRdLat)
  let state := (lpnRange slpn elpn).foldl (readPage p slpn) ⟨{ ftl with currentTime := req.nsecsStart }, [], begin, begin, 0⟩
  let (completed, ftl) := nandRead p state.ftl state.toRead .userIo state.readBegin
  let latest := max state.latest (if state.toRead = [] then 0 else completed)
  let (latest, timing) :=
    if state.wbReadPgs = 0 then (latest, ftl.timing)
    else
      let (completed, timing) := ssdAdvanceWriteBuffer ftl.timing begin (state.wbReadPgs * pgsz)
      (max latest completed, timing)
  let (completed, timing) := ssdAdvancePcie timing latest (nrLba * secsz)
  (⟨.success, max latest completed⟩,
    { ftl with timing := timing,
               stats := { ftl.stats with hostRrequestCnt := ftl.stats.hostRrequestCnt + 1,
                                         wbReadPgs := ftl.stats.wbReadPgs + state.wbReadPgs } })

def zonedRead (p : Params) (ftl : ZmsFtl) (req : Request) (cmd : RwCommand) : Exec (Completion × ZmsFtl) :=
  let nrLba := nrLbasFromRwCmd cmd
  let zid := lbaToZone p cmd.slba
  if p.zpp.nrZones ≤ zid then .error .outOfBounds
  else if (ftl.zoneDescs zid).state = .offline then .ok (⟨.znsErrOffline, req.nsecsStart⟩, ftl)
  else if !checkBoundaryError p cmd.slba nrLba then .ok (⟨.znsErrBoundary, req.nsecsStart⟩, ftl)
  else if zoneToSlba p zid + (ftl.zoneDescs zid).zoneCapacity < u64 (cmd.slba + nrLba) then .ok (⟨.success, req.nsecsStart⟩, ftl)
  else .ok (handleReadRequest p ftl req cmd)

def flushBuffer (p : Params) (ftl : ZmsFtl) (index : Nat) : Exec ZmsFtl :=
  if (ftl.writeBuffer index).flushData ≠ 0 then do
    let (_, ftl) ← bufferFlush p ftl index 0
    pure ftl
  else .ok ftl

def flushBuffers (p : Params) (req : Request) : List Nat → ZmsFtl → Exec ZmsFtl
  | [], ftl => .ok ftl
  | index :: rest, ftl => do
      let ftl ← flushBuffer p (putBuffer ftl index { ftl.writeBuffer index with sqid := req.sqId }) index
      flushBuffers p req rest ftl

def znsFlush (p : Params) (ftl : ZmsFtl) (req : Request) : Exec (Completion × ZmsFtl) := do
  let ftl ← flushBuffers p req (List.range p.zpp.nrWb) ftl
  let (start, timing) := readClock ftl.timing
  let (latest, timing) := ssdNextIdleTime p.spp timing
  pure (⟨.success, max start latest⟩,
    { ftl with timing := timing, stats := { ftl.stats with hostFlushCnt := ftl.stats.hostFlushCnt + 1 } })

end ConZone
