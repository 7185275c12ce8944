import ConZone.Zone
import ConZone.Run

set_option autoImplicit false

-- The ZNS namespace of the builds without IS_CONZONE: zns_read_write.c and
-- zns_mgmt_send.c over a write buffer that counts its free bytes.
namespace ConZone.Zns

inductive NvmeStatus where
  | success
  | invalidField
  | znsInvalidZoneOperation
  | znsZrwaRsrcUnavail
  | znsErrBoundary
  | znsErrFull
  | znsErrReadOnly
  | znsErrOffline
  | znsInvalidWrite
  | znsNoActiveZone
  | znsNoOpenZone
  | znsInvalidTransition
  deriving DecidableEq

-- struct znsparams, sizes in bytes, with what zns_init_params asks of them and
-- what the types of the fields promise.
structure ZnsParams where
  nrZones : Nat
  zoneSize : Nat
  zoneCapacity : Nat
  zoneWbSize : Nat
  globalWbSize : Nat
  nrZrwaZones : Nat
  zrwafgSize : Nat
  zrwaSize : Nat
  zrwaBufferSize : Nat
  pgsPerOneshotpg : Nat
  writeUnitSize : Nat
  zonePositive : 0 < zoneSize
  zonePages : zoneSize % pgsz = 0
  oneshotPositive : 0 < pgsPerOneshotpg
  addressable : nrZones * zoneSize < 2 ^ 64
  zonesFit : nrZones < 2 ^ 32
  capacityFits : zoneCapacity < 2 ^ 32
  zrwaZonesFit : nrZrwaZones < 2 ^ 32
  zrwafgPositive : 0 < nrZrwaZones → secsz ≤ zrwafgSize

section Addresses

variable (c : ZnsParams)

def zoneLbas : Nat := c.zoneSize / secsz
def zoneLpns : Nat := c.zoneSize / pgsz
def capacityLbas : Nat := c.zoneCapacity / secsz
def lbasPerZrwa : Nat := c.zrwaSize / secsz
def lbasPerZrwafg : Nat := c.zrwafgSize / secsz

def lpnToZone (lpn : Nat) : Nat := u32 (lpn / zoneLpns c)
def zoneToSlpn (zid : Nat) : Nat := zid * zoneLpns c
def lbaToZone (lba : Nat) : Nat := u32 (lba / zoneLbas c)
def zoneToSlba (zid : Nat) : Nat := zid * zoneLbas c
def zoneToElba (zid : Nat) : Nat := zoneToSlba c (zid + 1) - 1
def zoneToElpn (zid : Nat) : Nat := zoneToElba c zid / secsPerPg

-- pg of the ppa that __lpn_to_ppa makes, which is all the write path reads of it.
def lpnToPg (lpn : Nat) : Nat := (lpn - zoneToSlpn c (lpnToZone c lpn)) % c.pgsPerOneshotpg

end Addresses

structure WriteBuffer where
  size : Nat
  remaining : Nat
  deriving DecidableEq

inductive BufferRef where
  | global
  | zone (zid : Nat)
  | zrwa (zid : Nat)
  deriving DecidableEq

-- struct zns_ftl with the buffers it writes to. scheduled lists the releases
-- that are still to be run. covered is no field of the source: it notes how many
-- LBAs of a zone, from its start, the program commands so far have taken.
-- asserted notes that the ASSERT(0) of __increase_write_ptr was met.
structure ZnsFtl where
  zoneDescs : Nat → ZoneDescriptor
  resInfos : ResType → ZoneResourceInfo
  buffers : BufferRef → WriteBuffer
  scheduled : List (BufferRef × Nat)
  covered : Nat → Nat
  asserted : Bool

def bufferSize (c : ZnsParams) : BufferRef → Nat
  | .global => c.globalWbSize
  | .zone _ => c.zoneWbSize
  | .zrwa _ => c.zrwaBufferSize

def znsInitFtl (c : ZnsParams) : ZnsFtl where
  zoneDescs zid := ⟨.empty, false, capacityLbas c, zoneToSlba c zid, zoneToSlba c zid⟩
  resInfos
    | .activeZone => ⟨0, c.nrZones, false⟩
    | .openZone => ⟨0, c.nrZones, false⟩
    | .zrwaZone => ⟨0, c.nrZrwaZones, false⟩
  buffers ref := ⟨bufferSize c ref, bufferSize c ref⟩
  scheduled := []
  covered _ := 0
  asserted := false

section Buffers

def putBuffer (ftl : ZnsFtl) (ref : BufferRef) (buffer : WriteBuffer) : ZnsFtl :=
  { ftl with buffers := Function.update ftl.buffers ref buffer }

def bufferAllocate (ftl : ZnsFtl) (ref : BufferRef) (size : Nat) : Nat × ZnsFtl :=
  let buffer := ftl.buffers ref
  let size := if buffer.remaining < size then 0 else size
  (u32 size, putBuffer ftl ref { buffer with remaining := buffer.remaining - size })

def bufferRelease (ftl : ZnsFtl) (ref : BufferRef) (size : Nat) : ZnsFtl :=
  let buffer := ftl.buffers ref
  let remaining := buffer.remaining + size
  putBuffer ftl ref { buffer with remaining := if buffer.size ≤ remaining then buffer.size else remaining }

def bufferRefill (ftl : ZnsFtl) (ref : BufferRef) : ZnsFtl :=
  putBuffer ftl ref { ftl.buffers ref with remaining := (ftl.buffers ref).size }

end Buffers

section Zones

def putDesc (ftl : ZnsFtl) (zid : Nat) (desc : ZoneDescriptor) : ZnsFtl :=
  { ftl with zoneDescs := Function.update ftl.zoneDescs zid desc }

def putRes (ftl : ZnsFtl) (type : ResType) (info : ZoneResourceInfo) : ZnsFtl :=
  { ftl with resInfos := Function.update ftl.resInfos type info }

def isZoneResourceAvail (ftl : ZnsFtl) (type : ResType) : Bool :=
  decide ((ftl.resInfos type).acquiredCnt < (ftl.resInfos type).totalCnt)

def isZoneResourceFull (ftl : ZnsFtl) (type : ResType) : Bool :=
  (ftl.resInfos type).acquiredCnt == (ftl.resInfos type).totalCnt

def acquireZoneResource (ftl : ZnsFtl) (type : ResType) : Bool × ZnsFtl :=
  if isZoneResourceAvail ftl type then
    (true, putRes ftl type { ftl.resInfos type with acquiredCnt := u32 ((ftl.resInfos type).acquiredCnt + 1) })
  else (false, ftl)

def releaseZoneResource (ftl : ZnsFtl) (type : ResType) : ZnsFtl :=
  let info := ftl.resInfos type
  putRes ftl type { info with acquiredCnt := u32 (info.acquiredCnt + 2 ^ 32 - 1),
                              asserted := info.asserted || info.acquiredCnt == 0 }

def changeZoneState (ftl : ZnsFtl) (zid : Nat) (state : ZoneState) : ZnsFtl :=
  putDesc ftl zid { ftl.zoneDescs zid with state := state }

def checkBoundaryError (c : ZnsParams) (slba nrLba : Nat) : Bool :=
  lbaToZone c slba == lbaToZone c (u64 (slba + nrLba - 1))

-- A write pointer past the capacity is only logged.
def increaseWritePtr (c : ZnsParams) (ftl : ZnsFtl) (zid nrLba : Nat) : ZnsFtl :=
  let desc := ftl.zoneDescs zid
  let curWritePtr := u64 (desc.wp + nrLba)
  let ftl := putDesc ftl zid { desc with wp := curWritePtr }
  if curWritePtr = zoneToSlba c zid + desc.zoneCapacity then
    let ftl := releaseZoneResource (releaseZoneResource ftl .openZone) .activeZone
    changeZoneState { ftl with asserted := ftl.asserted || desc.zrwav } zid .full
  else ftl

end Zones

structure RwCommand where
  append : Bool
  slba : Nat
  length : Nat
  slbaFits : slba < 2 ^ 64
  lengthFits : length < 2 ^ 16

def nrLbasFromRwCmd (cmd : RwCommand) : Nat := cmd.length + 1

-- How many entries the worker's queue will still hand out.
structure Request where
  freeEntries : Nat

-- done is none where the handler returns false, and the command is tried again
-- with the slba it has then.
structure WriteOutcome where
  ftl : ZnsFtl
  slba : Nat
  done : Option NvmeStatus

-- The commands a write gives to the flash, and the releases it schedules with
-- them as far as the work queue has entries.
structure Programs where
  ftl : ZnsFtl
  freeEntries : Nat

def scheduleInternalOperation (state : Programs) (ref : BufferRef) (bytes : Nat) : Programs :=
  if state.freeEntries = 0 then state
  else ⟨{ state.ftl with scheduled := state.ftl.scheduled ++ [(ref, bytes)] }, state.freeEntries - 1⟩

def advanceNand (ftl : ZnsFtl) (zid endLpn : Nat) : ZnsFtl :=
  let desc := ftl.zoneDescs zid
  let taken := min desc.wp (endLpn * secsPerPg) - desc.zslba
  { ftl with covered := Function.update ftl.covered zid (max (ftl.covered zid) taken) }

def oneshotBytes (c : ZnsParams) : Nat := c.pgsPerOneshotpg * pgsz

def unalignedSpace (c : ZnsParams) : Nat := u32 (c.zoneSize % oneshotBytes c)

def programPages (c : ZnsParams) (ref : BufferRef) (zid lpn pgs : Nat) (state : Programs) : Programs :=
  if lpnToPg c lpn + pgs = c.pgsPerOneshotpg ∨ lpn + pgs - 1 = zoneToElpn c zid then
    let bytes := if lpn + pgs - 1 = zoneToElpn c zid ∧ 0 < unalignedSpace c then unalignedSpace c else oneshotBytes c
    scheduleInternalOperation { state with ftl := advanceNand state.ftl zid (lpn + pgs) } ref bytes
  else state

-- Every turn takes a page or more; fuel is the number of pages.
def programLoop (c : ZnsParams) (ref : BufferRef) (zid elpn : Nat) : Nat → Nat → Programs → Programs
  | 0, _, state => state
  | fuel + 1, lpn, state =>
      if elpn < lpn then state
      else
        let pgs := min (elpn - lpn + 1) (c.pgsPerOneshotpg - lpnToPg c lpn)
        programLoop c ref zid elpn fuel (lpn + pgs) (programPages c ref zid lpn pgs state)

section Writing

variable (c : ZnsParams)

def openForWrite (ftl : ZnsFtl) (zid : Nat) : NvmeStatus × ZnsFtl :=
  match acquireZoneResource ftl .openZone with
  | (false, ftl) => (.znsNoOpenZone, ftl)
  | (true, ftl) => (.success, changeZoneState ftl zid .openedImpl)

def admitWrite (ftl : ZnsFtl) (zid slba : Nat) : NvmeStatus × ZnsFtl :=
  match (ftl.zoneDescs zid).state with
  | .empty =>
      if slba ≠ (ftl.zoneDescs zid).zslba then (.znsInvalidWrite, ftl)
      else if isZoneResourceFull ftl .activeZone then (.znsNoActiveZone, ftl)
      else if isZoneResourceFull ftl .openZone then (.znsNoOpenZone, ftl)
      else openForWrite (acquireZoneResource ftl .activeZone).2 zid
  | .closed => openForWrite ftl zid
  | .openedImpl | .openedExpl => (.success, ftl)
  | .full => (.znsErrFull, ftl)
  | .readOnly => (.znsErrReadOnly, ftl)
  | .offline => (.znsErrOffline, ftl)

-- The checks of __zns_write, in its order, once the buffer has been taken.
def checkWrite (ftl : ZnsFtl) (zid slba nrLba : Nat) : NvmeStatus × ZnsFtl :=
  if nrLba * secsz % c.writeUnitSize ≠ 0 then (.znsInvalidWrite, ftl)
  else if !checkBoundaryError c slba nrLba then (.znsErrBoundary, ftl)
  else if slba ≠ (ftl.zoneDescs zid).wp then (.znsInvalidWrite, ftl)
  else admitWrite ftl zid slba

def writeBufferOf (zid : Nat) : BufferRef := if c.zoneWbSize ≠ 0 then .zone zid else .global

def placedSlba (ftl : ZnsFtl) (cmd : RwCommand) : Nat :=
  if cmd.append then (ftl.zoneDescs (lbaToZone c cmd.slba)).wp else cmd.slba

-- __zns_write, from the allocation on.
def writeTaken (ftl : ZnsFtl) (req : Request) (zid slba nrLba : Nat) : WriteOutcome :=
  match checkWrite c ftl zid slba nrLba with
  | (.success, ftl) =>
      let slpn := lbaToLpn slba
      let elpn := lbaToLpn (u64 (slba + nrLba - 1))
      let done := programLoop c (writeBufferOf c zid) zid elpn (elpn + 1 - slpn) slpn
        ⟨increaseWritePtr c ftl zid nrLba, req.freeEntries⟩
      ⟨done.ftl, slba, some .success⟩
  | (status, ftl) => ⟨ftl, slba, some status⟩

def writePlain (ftl : ZnsFtl) (req : Request) (cmd : RwCommand) : Exec WriteOutcome :=
  let zid := lbaToZone c cmd.slba
  if c.nrZones ≤ zid then .error .outOfBounds
  else
    let slba := placedSlba c ftl cmd
    let bytes := nrLbasFromRwCmd cmd * secsz
    let (taken, ftl) := bufferAllocate ftl (writeBufferOf c zid) bytes
    if taken < bytes then .ok ⟨ftl, slba, none⟩ else .ok (writeTaken c ftl req zid slba (nrLbasFromRwCmd cmd))

end Writing

section Random

variable (c : ZnsParams)

def zrwaImplStart (wp : Nat) : Nat := u64 (wp + lbasPerZrwa c)
def zrwaImplEnd (wp : Nat) : Nat := u64 (wp + u32 (2 * lbasPerZrwa c) + 2 ^ 64 - 1)

-- How many LBAs a write that ends at elba commits with it.
def nrLbasFlush (zid wp elba : Nat) : Nat :=
  if zrwaImplStart c wp ≤ elba then
    u64 ((elba - zrwaImplStart c wp + 1 + lbasPerZrwafg c - 1) / lbasPerZrwafg c * lbasPerZrwafg c)
  else if elba = zoneToElba c zid then u64 (elba + 2 ^ 64 - wp + 1)
  else 0

def checkZrwa (ftl : ZnsFtl) (zid slba elba nrLba : Nat) : NvmeStatus :=
  if nrLba * secsz % c.writeUnitSize ≠ 0 then .znsInvalidWrite
  else if !checkBoundaryError c slba nrLba then .znsErrBoundary
  else if slba < (ftl.zoneDescs zid).wp ∨ zrwaImplEnd c (ftl.zoneDescs zid).wp < elba then .znsInvalidWrite
  else .success

def openZrwa (ftl : ZnsFtl) (zid : Nat) : Exec (NvmeStatus × ZnsFtl) :=
  match acquireZoneResource ftl .openZone with
  | (false, ftl) => .ok (.znsNoOpenZone, ftl)
  | (true, ftl) =>
      if c.zrwaBufferSize = 0 then .error .nullDeref
      else
        let (taken, ftl) := bufferAllocate ftl (.zrwa zid) c.zrwaSize
        if taken = 0 then .error .bugOn else .ok (.success, changeZoneState ftl zid .openedImpl)

def admitZrwa (ftl : ZnsFtl) (zid : Nat) : Exec (NvmeStatus × ZnsFtl) :=
  match (ftl.zoneDescs zid).state with
  | .closed | .empty => openZrwa c ftl zid
  | .openedImpl | .openedExpl => .ok (.success, ftl)
  | .full => .ok (.znsErrFull, ftl)
  | .readOnly => .ok (.znsErrReadOnly, ftl)
  | .offline => .ok (.znsErrOffline, ftl)

-- The second loop: remaining pages from lpn on.
def commitLoop (ref : BufferRef) (zid : Nat) : Nat → Nat → Nat → Programs → Programs
  | 0, _, _, state => state
  | fuel + 1, lpn, remaining, state =>
      if remaining = 0 then state
      else
        let pgs := min remaining (c.pgsPerOneshotpg - lpnToPg c lpn)
        let state := if lpnToPg c lpn + pgs = c.pgsPerOneshotpg then
            scheduleInternalOperation { state with ftl := advanceNand state.ftl zid (lpn + pgs) } ref (oneshotBytes c)
          else state
        commitLoop ref zid fuel (lpn + pgs) (remaining - pgs) state

def commitZrwa (ftl : ZnsFtl) (req : Request) (zid slba wp flushed : Nat) : Exec WriteOutcome :=
  if flushed = 0 then .ok ⟨ftl, slba, some .success⟩
  else if c.zrwaBufferSize = 0 then .error .nullDeref
  else
    let (taken, ftl) := bufferAllocate ftl (.zrwa zid) (u64 (flushed * secsz))
    if taken = 0 then .ok ⟨ftl, slba, none⟩
    else
      let pages := flushed / secsPerPg
      let done := commitLoop c (.zrwa zid) zid pages (lbaToLpn wp) pages
        ⟨increaseWritePtr c ftl zid (u32 flushed), req.freeEntries⟩
      .ok ⟨done.ftl, slba, some .success⟩

-- __zns_write_zrwa.
def writeZrwa (ftl : ZnsFtl) (req : Request) (cmd : RwCommand) : Exec WriteOutcome :=
  let slba := cmd.slba
  let nrLba := nrLbasFromRwCmd cmd
  let elba := u64 (slba + nrLba - 1)
  let zid := lbaToZone c slba
  if c.nrZones ≤ zid then .error .outOfBounds
  else
    let wp := (ftl.zoneDescs zid).wp
    match checkZrwa c ftl zid slba elba nrLba with
    | .success => do
        match ← admitZrwa c ftl zid with
        | (.success, ftl) => commitZrwa c ftl req zid slba wp (nrLbasFlush c zid wp elba)
        | (status, ftl) => pure ⟨ftl, slba, some status⟩
    | status => .ok ⟨ftl, slba, some status⟩

def znsWrite (ftl : ZnsFtl) (req : Request) (cmd : RwCommand) : Exec WriteOutcome :=
  let zid := lpnToZone c (lbaToLpn cmd.slba)
  if c.nrZones ≤ zid then .error .outOfBounds
  else if (ftl.zoneDescs zid).zrwav then writeZrwa c ftl req cmd else writePlain c ftl req cmd

end Random

section Managing

variable (c : ZnsParams)

def zmgmtSendCloseZone (ftl : ZnsFtl) (zid : Nat) : NvmeStatus × ZnsFtl :=
  match (ftl.zoneDescs zid).state with
  | .openedImpl | .openedExpl => (.success, releaseZoneResource (changeZoneState ftl zid .closed) .openZone)
  | .closed => (.success, ftl)
  | _ => (.znsInvalidTransition, ftl)

def releaseActive (ftl : ZnsFtl) (zrwa : Bool) : ZnsFtl :=
  let ftl := releaseZoneResource ftl .activeZone
  if zrwa then releaseZoneResource ftl .zrwaZone else ftl

def zmgmtSendFinishZone (ftl : ZnsFtl) (zid : Nat) : NvmeStatus × ZnsFtl :=
  let isZrwaZone := (ftl.zoneDescs zid).zrwav
  match (ftl.zoneDescs zid).state with
  | .openedImpl | .openedExpl =>
      (.success, changeZoneState (releaseActive (releaseZoneResource ftl .openZone) isZrwaZone) zid .full)
  | .closed => (.success, changeZoneState (releaseActive ftl isZrwaZone) zid .full)
  | .empty => (.success, changeZoneState ftl zid .full)
  | .full => (.success, ftl)
  | _ => (.znsInvalidTransition, ftl)

def openExplicitly (ftl : ZnsFtl) (zid : Nat) : NvmeStatus × ZnsFtl :=
  match acquireZoneResource ftl .openZone with
  | (false, ftl) => (.znsNoOpenZone, ftl)
  | (true, ftl) => (.success, changeZoneState ftl zid .openedExpl)

def takeZrwa (ftl : ZnsFtl) (zid : Nat) : ZnsFtl :=
  let ftl := (acquireZoneResource ftl .zrwaZone).2
  putDesc ftl zid { ftl.zoneDescs zid with zrwav := true }

def zmgmtSendOpenZone (ftl : ZnsFtl) (zid : Nat) (zrwa : Bool) : NvmeStatus × ZnsFtl :=
  match (ftl.zoneDescs zid).state with
  | .empty =>
      if isZoneResourceFull ftl .activeZone then (.znsNoActiveZone, ftl)
      else if isZoneResourceFull ftl .openZone then (.znsNoOpenZone, ftl)
      else if zrwa && isZoneResourceFull ftl .zrwaZone then (.znsZrwaRsrcUnavail, ftl)
      else openExplicitly (acquireZoneResource (if zrwa then takeZrwa ftl zid else ftl) .activeZone).2 zid
  | .closed => openExplicitly ftl zid
  | .openedImpl => (.success, changeZoneState ftl zid .openedExpl)
  | .openedExpl => (.success, ftl)
  | _ => (.znsInvalidTransition, ftl)

def resetZone (ftl : ZnsFtl) (zid : Nat) : ZnsFtl :=
  let ftl := putDesc ftl zid { ftl.zoneDescs zid with wp := (ftl.zoneDescs zid).zslba, zrwav := false }
  let ftl := { ftl with covered := Function.update ftl.covered zid 0 }
  if c.zrwaBufferSize ≠ 0 then bufferRefill ftl (.zrwa zid) else ftl

def zmgmtSendResetZone (ftl : ZnsFtl) (zid : Nat) : NvmeStatus × ZnsFtl :=
  let isZrwaZone := (ftl.zoneDescs zid).zrwav
  let reset (ftl : ZnsFtl) : NvmeStatus × ZnsFtl := (.success, resetZone c (changeZoneState ftl zid .empty) zid)
  match (ftl.zoneDescs zid).state with
  | .openedImpl | .openedExpl => reset (releaseActive (releaseZoneResource ftl .openZone) isZrwaZone)
  | .closed => reset (releaseActive ftl isZrwaZone)
  | .full | .empty => reset ftl
  | _ => (.znsInvalidTransition, ftl)

def zmgmtSendOfflineZone (ftl : ZnsFtl) (zid : Nat) : NvmeStatus × ZnsFtl :=
  match (ftl.zoneDescs zid).state with
  | .readOnly => (.success, changeZoneState ftl zid .offline)
  | .offline => (.success, ftl)
  | _ => (.znsInvalidTransition, ftl)

def flushTo (ftl : ZnsFtl) (zid slba : Nat) : ZnsFtl :=
  let desc := ftl.zoneDescs zid
  let wp := u64 (slba + 1)
  let ftl := putDesc ftl zid { desc with wp := wp }
  if wp = zoneToSlba c zid + desc.zoneCapacity then
    let ftl := if desc.state ≠ .closed then releaseZoneResource ftl .openZone else ftl
    changeZoneState (releaseZoneResource (releaseZoneResource ftl .activeZone) .zrwaZone) zid .full
  else ftl

def zmgmtSendFlushExplicitZrwa (ftl : ZnsFtl) (slba : Nat) : NvmeStatus × ZnsFtl :=
  let zid := lbaToZone c slba
  let desc := ftl.zoneDescs zid
  let zrwaEnd := min (u64 (desc.wp + lbasPerZrwa c + 2 ^ 64 - 1)) (u64 (zoneToSlba c zid + desc.zoneCapacity + 2 ^ 64 - 1))
  if !desc.zrwav then (.znsInvalidZoneOperation, ftl)
  else if !(desc.wp ≤ slba && slba ≤ zrwaEnd) then (.znsInvalidZoneOperation, ftl)
  else if (slba - desc.wp + 1) % lbasPerZrwafg c ≠ 0 then (.invalidField, ftl)
  else
    match desc.state with
    | .openedExpl | .openedImpl | .closed => (.success, flushTo c ftl zid slba)
    | _ => (.znsInvalidZoneOperation, ftl)

def zmgmtSend (ftl : ZnsFtl) (slba : Nat) (action : ZoneSendAction) (option : Bool) : Exec (NvmeStatus × ZnsFtl) :=
  let zid := lbaToZone c slba
  if c.nrZones ≤ zid then .error .outOfBounds
  else
    match action with
    | .closeZone => .ok (zmgmtSendCloseZone ftl zid)
    | .finishZone => .ok (zmgmtSendFinishZone ftl zid)
    | .openZone => .ok (zmgmtSendOpenZone ftl zid option)
    | .resetZone => .ok (zmgmtSendResetZone c ftl zid)
    | .offlineZone => .ok (zmgmtSendOfflineZone ftl zid)
    | .flushExplZrwa => .ok (zmgmtSendFlushExplicitZrwa c ftl slba)

def zmgmtSendAll (cmd : ZoneMgmtSend) : List Nat → ZnsFtl → Exec ZnsFtl
  | [], ftl => .ok ftl
  | zid :: rest, ftl => do
      let (_, ftl) ← zmgmtSend c ftl (zoneToSlba c zid) cmd.zsa cmd.zsaso
      zmgmtSendAll cmd rest ftl

def znsZmgmtSend (ftl : ZnsFtl) (cmd : ZoneMgmtSend) : Exec (NvmeStatus × ZnsFtl) :=
  if cmd.selectAll then do
    let ftl ← zmgmtSendAll c cmd (List.range c.nrZones) ftl
    pure (.success, ftl)
  else zmgmtSend c ftl cmd.slba cmd.zsa cmd.zsaso

end Managing

-- What moves the state: the two kinds of commands, and a worker that runs one
-- of the scheduled releases. Reads and flushes only ask for times.
inductive Event where
  | write (req : Request) (cmd : RwCommand)
  | mgmtSend (cmd : ZoneMgmtSend)
  | release (place : Nat)

inductive Step (c : ZnsParams) (ftl : ZnsFtl) : Event → ZnsFtl → Prop where
  | write (req : Request) (cmd : RwCommand) (outcome : WriteOutcome) (ran : znsWrite c ftl req cmd = .ok outcome) :
      Step c ftl (.write req cmd) outcome.ftl
  | mgmtSend (cmd : ZoneMgmtSend) (status : NvmeStatus) (next : ZnsFtl) (ran : znsZmgmtSend c ftl cmd = .ok (status, next)) :
      Step c ftl (.mgmtSend cmd) next
  | release (place : Nat) (ref : BufferRef) (bytes : Nat) (due : ftl.scheduled[place]? = some (ref, bytes)) :
      Step c ftl (.release place) (bufferRelease { ftl with scheduled := ftl.scheduled.eraseIdx place } ref bytes)

def system (c : ZnsParams) : TransitionSystem.System ZnsFtl Event := ⟨fun ftl => ftl = znsInitFtl c, Step c⟩

abbrev Reachable (c : ZnsParams) (allowed : ZnsFtl → Event → Prop) : ZnsFtl → Prop :=
  TransitionSystem.Reach (system c) allowed

end ConZone.Zns
