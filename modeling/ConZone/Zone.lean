import ConZone.Buffer

set_option autoImplicit false

namespace ConZone

inductive NvmeStatus where
  | success
  | capExceeded
  | lbaRange
  | znsInvalidZoneOperation
  | znsZrwaRsrcUnavail
  | znsErrBoundary
  | znsErrFull
  | znsErrReadOnly
  | znsErrOffline
  | znsInvalidWrite
  | znsNoActiveZone
  | znsNoOpenZone
  | znsInvalidTransition
  deriving DecidableEq

def putDesc (ftl : ZmsFtl) (zid : Nat) (desc : ZoneDescriptor) : ZmsFtl :=
  { ftl with zoneDescs := Function.update ftl.zoneDescs zid desc }

def putRes (ftl : ZmsFtl) (type : ResType) (count : Nat) : ZmsFtl :=
  { ftl with resInfos := Function.update ftl.resInfos type { ftl.resInfos type with acquiredCnt := count } }

def isZoneResourceAvail (ftl : ZmsFtl) (type : ResType) : Bool :=
  decide ((ftl.resInfos type).acquiredCnt < (ftl.resInfos type).totalCnt)

def isZoneResourceFull (ftl : ZmsFtl) (type : ResType) : Bool :=
  (ftl.resInfos type).acquiredCnt == (ftl.resInfos type).totalCnt

def acquireZoneResource (ftl : ZmsFtl) (type : ResType) : Bool × ZmsFtl :=
  if isZoneResourceAvail ftl type then (true, putRes ftl type (u32 ((ftl.resInfos type).acquiredCnt + 1))) else (false, ftl)

def noteRelease (ftl : ZmsFtl) (type : ResType) : ZmsFtl :=
  let info := ftl.resInfos type
  { ftl with resInfos := Function.update ftl.resInfos type { info with asserted := info.asserted || info.acquiredCnt == 0 } }

def releaseZoneResource (ftl : ZmsFtl) (type : ResType) : ZmsFtl :=
  putRes (noteRelease ftl type) type (u32 ((ftl.resInfos type).acquiredCnt + 2 ^ 32 - 1))

def changeZoneState (ftl : ZmsFtl) (zid : Nat) (state : ZoneState) : ZmsFtl :=
  putDesc ftl zid { ftl.zoneDescs zid with state := state }

def checkBoundaryError (p : Params) (slba nrLba : Nat) : Bool :=
  lbaToZone p slba == lbaToZone p (u64 (slba + nrLba - 1))

def increaseWritePtr (p : Params) (ftl : ZmsFtl) (zid nrLba : Nat) : ZmsFtl :=
  let wp := (ftl.zoneDescs zid).wp + nrLba
  let ftl := putDesc ftl zid { ftl.zoneDescs zid with wp := wp }
  if wp = zoneToSlba p zid + (ftl.zoneDescs zid).zoneCapacity then
    changeZoneState (releaseZoneResource (releaseZoneResource ftl .openZone) .activeZone) zid .full
  else ftl

def openForWrite (ftl : ZmsFtl) (zid : Nat) : NvmeStatus × ZmsFtl :=
  match acquireZoneResource ftl .openZone with
  | (false, ftl) => (.znsNoOpenZone, ftl)
  | (true, ftl) => (.success, changeZoneState ftl zid .openedImpl)

def admitWrite (ftl : ZmsFtl) (zid slba : Nat) : NvmeStatus × ZmsFtl :=
  match (ftl.zoneDescs zid).state with
  | .empty =>
      if slba ≠ (ftl.zoneDescs zid).zslba then (.znsInvalidWrite, ftl)
      else if isZoneResourceFull ftl .activeZone then (.znsNoActiveZone, ftl)
      else if isZoneResourceFull ftl .openZone then (.znsNoOpenZone, ftl)
      else openForWrite (acquireZoneResource ftl .activeZone).2 zid
  | .closed => openForWrite ftl zid
  | .openedImpl | .openedExpl => (.success, ftl)
  | .full => (.znsErrFull, ftl)
  | .readOnly => (.znsErrReadOnly, ftl)
  | .offline => (.znsErrOffline, ftl)

def znsWriteCheck (p : Params) (ftl : ZmsFtl) (slba nrLba : Nat) : NvmeStatus × ZmsFtl :=
  let zid := lbaToZone p slba
  let desc := ftl.zoneDescs zid
  if !checkBoundaryError p slba nrLba then (.znsErrBoundary, ftl)
  else if slba ≠ desc.wp then (.znsInvalidWrite, ftl)
  else if zoneToSlba p zid + desc.zoneCapacity < desc.wp + nrLba then (.znsInvalidWrite, ftl)
  else
    match admitWrite ftl zid slba with
    | (.success, ftl) => (.success, increaseWritePtr p ftl zid nrLba)
    | refused => refused

inductive ZoneSendAction where
  | closeZone
  | finishZone
  | openZone
  | resetZone
  | offlineZone
  | flushExplZrwa
  deriving DecidableEq

def zmgmtSendCloseZone (ftl : ZmsFtl) (zid : Nat) : NvmeStatus × ZmsFtl :=
  match (ftl.zoneDescs zid).state with
  | .openedImpl | .openedExpl => (.success, releaseZoneResource (changeZoneState ftl zid .closed) .openZone)
  | .closed => (.success, ftl)
  | _ => (.znsInvalidTransition, ftl)

def releaseActive (ftl : ZmsFtl) (zid : Nat) : ZmsFtl :=
  let zrwav := (ftl.zoneDescs zid).zrwav
  let ftl := releaseZoneResource ftl .activeZone
  if zrwav then releaseZoneResource ftl .zrwaZone else ftl

def zmgmtSendFinishZone (ftl : ZmsFtl) (zid : Nat) : NvmeStatus × ZmsFtl :=
  match (ftl.zoneDescs zid).state with
  | .openedImpl | .openedExpl =>
      (.success, changeZoneState (releaseActive (releaseZoneResource ftl .openZone) zid) zid .full)
  | .closed => (.success, changeZoneState (releaseActive ftl zid) zid .full)
  | .empty => (.success, changeZoneState ftl zid .full)
  | .full => (.success, ftl)
  | _ => (.znsInvalidTransition, ftl)

def openExplicitly (ftl : ZmsFtl) (zid : Nat) : NvmeStatus × ZmsFtl :=
  match acquireZoneResource ftl .openZone with
  | (false, ftl) => (.znsNoOpenZone, ftl)
  | (true, ftl) => (.success, changeZoneState ftl zid .openedExpl)

def zmgmtSendOpenZone (ftl : ZmsFtl) (zid : Nat) (zrwa : Bool) : NvmeStatus × ZmsFtl :=
  match (ftl.zoneDescs zid).state with
  | .empty =>
      if isZoneResourceFull ftl .activeZone then (.znsNoActiveZone, ftl)
      else if isZoneResourceFull ftl .openZone then (.znsNoOpenZone, ftl)
      else if zrwa && isZoneResourceFull ftl .zrwaZone then (.znsZrwaRsrcUnavail, ftl)
      else
        let ftl := if zrwa then
            let ftl := (acquireZoneResource ftl .zrwaZone).2
            putDesc ftl zid { ftl.zoneDescs zid with zrwav := true }
          else ftl
        openExplicitly (acquireZoneResource ftl .activeZone).2 zid
  | .closed => openExplicitly ftl zid
  | .openedImpl => (.success, changeZoneState ftl zid .openedExpl)
  | .openedExpl => (.success, ftl)
  | _ => (.znsInvalidTransition, ftl)

def zmgmtSendOfflineZone (ftl : ZmsFtl) (zid : Nat) : NvmeStatus × ZmsFtl :=
  match (ftl.zoneDescs zid).state with
  | .readOnly => (.success, changeZoneState ftl zid .offline)
  | .offline => (.success, ftl)
  | _ => (.znsInvalidTransition, ftl)

-- The walk of zone_reset over the LPNs of the zone, which stops at the first
-- one that is not mapped. stopped is that LPN.
structure ResetScan where
  ftl : ZmsFtl
  firstLine : Option LineRef
  stopped : Option Nat

def resetPage (p : Params) (scan : ResetScan) (lpn : Nat) (page : Page) : Exec ResetScan :=
  let ftl := dropMapping p scan.ftl lpn page
  let line := getLine p page
  let first := scan.firstLine.getD line
  if invalidLine p ftl line && (ftl.lm.lines line).rsvNextline == none then do
    let ftl ← eraseLinkedLines p (linesBound p) ftl (some first)
    pure { scan with ftl := ftl, firstLine := none }
  else .ok { scan with ftl := ftl, firstLine := some first }

def resetPages (p : Params) : List Nat → ResetScan → Exec ResetScan
  | [], scan => .ok scan
  | lpn :: rest, scan =>
      match getMaptblEnt p scan.ftl lpn with
      | .mapped page _ => do
          let scan ← resetPage p scan lpn page
          resetPages p rest scan
      | _ => .ok { scan with stopped := some lpn }

def evictBuffer (ftl : ZmsFtl) (index : Nat) : ZmsFtl :=
  putBuffer ftl index { ftl.writeBuffer index with lpns := [], flushData := 0, zid := none, sqid := 2 ^ 32 - 1 }

-- The buffer to release is looked up before the walk and checked where it stops.
def bufsToRelease (p : Params) (ftl : ZmsFtl) (index : Nat) (slpn : Nat) : Option Nat → Nat
  | some lpn =>
      let buffer := ftl.writeBuffer index
      if zmsWbCheck p buffer slpn && zmsWbHit buffer lpn then buffer.flushData else 0
  | none => 0

def zoneLpnList (p : Params) (zid : Nat) : List Nat := (List.range p.zpp.pgsPerZone).map fun i => zoneToSlpn p zid + i

def eraseRest (p : Params) (scan : ResetScan) : Exec ZmsFtl :=
  match scan.firstLine with
  | some first => if invalidLine p scan.ftl first then eraseLinkedLines p (linesBound p) scan.ftl (some first) else .ok scan.ftl
  | none => .ok scan.ftl

def dropBuffered (p : Params) (scan : ResetScan) (slpn : Nat) (writeBuffer : Option Nat) (ftl : ZmsFtl) : ZmsFtl :=
  match writeBuffer with
  | some index => if bufsToRelease p scan.ftl index slpn scan.stopped ≠ 0 then evictBuffer ftl index else ftl
  | none => ftl

def countReset (ftl : ZmsFtl) : ZmsFtl := { ftl with stats := { ftl.stats with zoneResetCnt := ftl.stats.zoneResetCnt + 1 } }

def zoneReset (p : Params) (ftl : ZmsFtl) (zid : Nat) : Exec ZmsFtl := do
  let slpn := zoneToSlpn p zid
  let (writeBuffer, ftl) := zmsWbGet p ftl slpn
  let scan ← resetPages p (zoneLpnList p zid) ⟨ftl, none, none⟩
  let ftl ← eraseRest p scan
  pure (countReset (putAgg (dropBuffered p scan slpn writeBuffer ftl) zid []))

def resetZone (p : Params) (ftl : ZmsFtl) (zid : Nat) : Exec ZmsFtl :=
  zoneReset p (putDesc ftl zid { ftl.zoneDescs zid with wp := (ftl.zoneDescs zid).zslba, zrwav := false }) zid

def zmgmtSendResetZone (p : Params) (ftl : ZmsFtl) (zid : Nat) : Exec (NvmeStatus × ZmsFtl) := do
  let reset (ftl : ZmsFtl) : Exec (NvmeStatus × ZmsFtl) := do
    let ftl ← resetZone p (changeZoneState ftl zid .empty) zid
    pure (.success, ftl)
  match (ftl.zoneDescs zid).state with
  | .openedImpl | .openedExpl => reset (releaseActive (releaseZoneResource ftl .openZone) zid)
  | .closed => reset (releaseActive ftl zid)
  | .full | .empty => reset ftl
  | _ => pure (.znsInvalidTransition, ftl)

-- MAX_ZRWA_ZONES is 0, so no zone ever has zrwav and an explicit ZRWA flush
-- always ends at its first check.
def zmgmtSend (p : Params) (ftl : ZmsFtl) (slba : Nat) (action : ZoneSendAction) (option : Bool) : Exec (NvmeStatus × ZmsFtl) :=
  let zid := lbaToZone p slba
  if p.zpp.nrZones ≤ zid then .error .outOfBounds
  else
    match action with
    | .closeZone => .ok (zmgmtSendCloseZone ftl zid)
    | .finishZone => .ok (zmgmtSendFinishZone ftl zid)
    | .openZone => .ok (zmgmtSendOpenZone ftl zid option)
    | .resetZone => zmgmtSendResetZone p ftl zid
    | .offlineZone => .ok (zmgmtSendOfflineZone ftl zid)
    | .flushExplZrwa => .ok (.znsInvalidZoneOperation, ftl)

structure ZoneMgmtSend where
  selectAll : Bool
  zsa : ZoneSendAction
  zsaso : Bool
  slba : Nat

def zmgmtSendAll (p : Params) (cmd : ZoneMgmtSend) : List Nat → ZmsFtl → Exec ZmsFtl
  | [], ftl => .ok ftl
  | zid :: rest, ftl => do
      let (_, ftl) ← zmgmtSend p ftl (zoneToSlba p zid) cmd.zsa cmd.zsaso
      zmgmtSendAll p cmd rest ftl

def znsZmgmtSend (p : Params) (ftl : ZmsFtl) (cmd : ZoneMgmtSend) : Exec (NvmeStatus × ZmsFtl) :=
  if cmd.selectAll then do
    let ftl ← zmgmtSendAll p cmd (List.range p.zpp.nrZones) ftl
    pure (.success, ftl)
  else zmgmtSend p ftl cmd.slba cmd.zsa cmd.zsaso

end ConZone
