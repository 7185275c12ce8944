import ConZone.Dual

set_option autoImplicit false

namespace ConZone

def pageSize : Nat := 4096

-- ns->size and ns->mapped, the latter from storage_mapped on.
def nsSize (p : Params) : Nat := p.zpp.nrZones * p.zpp.zoneSize

def nsMapped (config : DualConfig) : Loc → Nat
  | .pslc => 0
  | .normal => nsSize (dualParams config .pslc)

abbrev Storage := Nat → UInt8

-- The PRP fields of a command, the entries of its PRP list and the memory they
-- point into.
structure DataPointer where
  prp1 : Nat
  prp2 : Nat
  prpList : Nat → Nat
  memory : Nat → UInt8

inductive HostCommand where
  | write (rw : RwCommand) (data : DataPointer)
  | read (rw : RwCommand) (data : DataPointer)
  | flush
  | mgmtSend (cmd : ZoneMgmtSend)

def cmdIoOffset (rw : RwCommand) : Nat := u64 (rw.slba * secsz)
def cmdIoSize (rw : RwCommand) : Nat := nrLbasFromRwCmd rw * secsz

def cmdNsRange (p : Params) (rw : RwCommand) : Bool :=
  decide (cmdIoOffset rw ≤ nsSize p) && decide (cmdIoSize rw ≤ nsSize p - cmdIoOffset rw)

def ioSizeAt (paddr remaining : Nat) : Nat :=
  let ioSize := min remaining pageSize
  if paddr % pageSize ≠ 0 ∧ pageSize < ioSize + paddr % pageSize then pageSize - paddr % pageSize else ioSize

-- list is paddr_list with prp2_offs, none while it is NULL.
def prpAt (data : DataPointer) (prpOffs : Nat) (list : Option Nat) (remaining : Nat) : Option (Nat × Option Nat) :=
  match prpOffs with
  | 0 => some (data.prp1, list)
  | 1 => if pageSize < remaining then some (data.prpList 0, some 1) else some (data.prp2, list)
  | _ => list.map fun prp2Offs => (data.prpList prp2Offs, some (prp2Offs + 1))

-- The pieces of memory the copy loop goes through. fuel is the number of bytes
-- left: every round takes at least one.
def prpPieces (data : DataPointer) : Nat → Nat → Option Nat → Nat → Exec (List (Nat × Nat))
  | 0, _, _, remaining => if remaining = 0 then .ok [] else .error .hang
  | fuel + 1, prpOffs, list, remaining =>
      if remaining = 0 then .ok []
      else
        match prpAt data prpOffs list remaining with
        | none => .error .nullDeref
        | some (paddr, list) => do
            let ioSize := ioSizeAt paddr remaining
            let rest ← prpPieces data fuel (prpOffs + 1) list (remaining - ioSize)
            pure ((paddr, ioSize) :: rest)

def commandPieces (rw : RwCommand) (data : DataPointer) : Exec (List (Nat × Nat)) :=
  prpPieces data (cmdIoSize rw) 0 none (cmdIoSize rw)

def memcpy (storage : Storage) (dest : Nat) (source : Nat → UInt8) (size : Nat) : Storage := fun address =>
  if dest ≤ address ∧ address < dest + size then source (address - dest) else storage address

def copyIn (memory : Nat → UInt8) : List (Nat × Nat) → Nat → Storage → Storage
  | [], _, storage => storage
  | (paddr, size) :: rest, dest, storage => copyIn memory rest (dest + size) (memcpy storage dest (fun i => memory (paddr + i)) size)

def copyOut (storage : Storage) : List (Nat × Nat) → Nat → List (Nat × UInt8)
  | [], _ => []
  | (paddr, size) :: rest, source =>
      (List.range size).map (fun i => (paddr + i, storage (source + i))) ++ copyOut storage rest (source + size)

-- __do_perform_io: none is the 0 that ends the command with NVME_SC_LBA_RANGE,
-- otherwise the storage and what went to the host's memory.
def doPerformIo (p : Params) (mapped : Nat) (storage : Storage) : HostCommand → Exec (Option (Storage × List (Nat × UInt8)))
  | .write rw data =>
      if cmdNsRange p rw then do
        let pieces ← commandPieces rw data
        pure (some (copyIn data.memory pieces (mapped + cmdIoOffset rw) storage, []))
      else pure none
  | .read rw data =>
      if cmdNsRange p rw then do
        let pieces ← commandPieces rw data
        pure (some (storage, copyOut storage pieces (mapped + cmdIoOffset rw)))
      else pure none
  | .flush | .mgmtSend _ => pure (some (storage, []))

-- The memset of __reset_zone, whose zone_size has 32 bits.
def clearZone (p : Params) (mapped : Nat) (storage : Storage) (zid : Nat) : Storage :=
  memcpy storage (mapped + zid * p.zpp.zoneSize) (fun _ => 0) (u32 p.zpp.zoneSize)

-- __reset_zone runs just when a reset is accepted.
def sendStored (p : Params) (mapped : Nat) (ftl : ZmsFtl) (storage : Storage) (slba : Nat) (action : ZoneSendAction) (option : Bool) :
    Exec (NvmeStatus × ZmsFtl × Storage) := do
  let (status, next) ← zmgmtSend p ftl slba action option
  pure (status, next, if action = .resetZone ∧ status = .success then clearZone p mapped storage (lbaToZone p slba) else storage)

def sendAllStored (p : Params) (mapped : Nat) (cmd : ZoneMgmtSend) : List Nat → ZmsFtl → Storage → Exec (ZmsFtl × Storage)
  | [], ftl, storage => .ok (ftl, storage)
  | zid :: rest, ftl, storage => do
      let (_, ftl, storage) ← sendStored p mapped ftl storage (zoneToSlba p zid) cmd.zsa cmd.zsaso
      sendAllStored p mapped cmd rest ftl storage

def mgmtSendStored (p : Params) (mapped : Nat) (ftl : ZmsFtl) (storage : Storage) (cmd : ZoneMgmtSend) :
    Exec (NvmeStatus × ZmsFtl × Storage) :=
  if cmd.selectAll then do
    let (ftl, storage) ← sendAllStored p mapped cmd (List.range p.zpp.nrZones) ftl storage
    pure (.success, ftl, storage)
  else sendStored p mapped ftl storage cmd.slba cmd.zsa cmd.zsaso

-- What the handler of a command leaves: done is none when it returned false.
structure Attempt where
  ftl : ZmsFtl
  storage : Storage
  cmd : HostCommand
  done : Option Completion

def procIoCmd (p : Params) (mapped : Nat) (ftl : ZmsFtl) (storage : Storage) (req : Request) : HostCommand → Exec Attempt
  | .write rw data => do
      let outcome ← zonedWrite p ftl req rw
      pure ⟨outcome.ftl, storage, .write outcome.cmd data, outcome.done⟩
  | .read rw data => do
      let (done, ftl) ← zonedRead p ftl req rw
      pure ⟨ftl, storage, .read rw data, some done⟩
  | .flush => do
      let (done, ftl) ← znsFlush p ftl req
      pure ⟨ftl, storage, .flush, some done⟩
  | .mgmtSend cmd => do
      let (status, ftl, storage) ← mgmtSendStored p mapped ftl storage cmd
      pure ⟨ftl, storage, .mgmtSend cmd, some ⟨status, req.nsecsStart⟩⟩

abbrev Slot := Nat × Nat

-- struct nvmev_io_work without its place in the lists of the worker.
structure IoWork where
  slot : Slot
  nsecsTarget : Nat
  isCopied : Bool
  status : NvmeStatus
  result0 : Nat
  result1 : Nat

-- An entry of a submission queue: the command as the host wrote it and as the
-- attempts at it left it, whether the dispatcher is through with it, the write
-- pointer of its zone at the last attempt and what the host's memory got.
structure SqEntry where
  loc : Loc
  host : HostCommand
  cmd : HostCommand
  dispatched : Bool
  zoneWp : Nat
  delivered : List (Nat × UInt8)

structure CqEntry where
  slot : Slot
  status : NvmeStatus
  result0 : Nat
  result1 : Nat
  entry : SqEntry

-- workQueue holds the entries of all workers, queued those in use; cq is every
-- completion posted so far.
structure IoState where
  ftls : DualFtl
  storage : Storage
  sq : Slot → Option SqEntry
  workQueue : Nat → IoWork
  queued : List Nat
  cq : List CqEntry

def ioInit (config : DualConfig) (clock : Nat → Nat) : IoState :=
  { ftls := dualRealize config clock, storage := fun _ => 0, sq := fun _ => none,
    workQueue := fun _ => ⟨(0, 0), 0, false, .success, 0, 0⟩, queued := [], cq := [] }

def commandWp (p : Params) (ftl : ZmsFtl) : HostCommand → Nat
  | .write rw _ | .read rw _ => (ftl.zoneDescs (lbaToZone p rw.slba)).wp
  | .flush | .mgmtSend _ => 0

-- __enqueue_io_req: the results of an earlier use of the work entry stay.
def enqueueIoReq (work : IoWork) (slot : Slot) (done : Completion) : IoWork :=
  { work with slot := slot, nsecsTarget := done.nsecsTarget, status := done.status, isCopied := false }

def afterAttempt (config : DualConfig) (state : IoState) (slot : Slot) (entry : SqEntry) (attempt : Attempt) : IoState :=
  { state with
    ftls := ranOn state.ftls entry.loc attempt.ftl, storage := attempt.storage,
    sq := Function.update state.sq slot (some { entry with
      cmd := attempt.cmd, dispatched := attempt.done.isSome,
      zoneWp := commandWp (dualParams config entry.loc) (state.ftls entry.loc) entry.cmd }) }

def postWork (state : IoState) (slot : Slot) (work : Nat) (done : Completion) : IoState :=
  { state with workQueue := Function.update state.workQueue work (enqueueIoReq (state.workQueue work) slot done),
               queued := state.queued ++ [work] }

-- The worker's copy: only a command without an error so far is performed.
def copied (p : Params) (mapped : Nat) (storage : Storage) (status : NvmeStatus) (cmd : HostCommand) :
    Exec (Storage × NvmeStatus × List (Nat × UInt8)) :=
  if status = .success then do
    match ← doPerformIo p mapped storage cmd with
    | some (storage, delivered) => pure (storage, .success, delivered)
    | none => pure (storage, .lbaRange, [])
  else .ok (storage, status, [])

inductive IoEvent where
  | submit (slot : Slot) (loc : Loc) (cmd : HostCommand)
  | retry (slot : Slot) (req : Request)
  | dispatch (slot : Slot) (req : Request) (work : Nat)
  | lose (slot : Slot) (req : Request)
  | copy (work : Nat)
  | complete (work : Nat)
  | release (loc : Loc) (entry : Nat)

-- The host fills free slots; the dispatcher runs handlers; the workers copy,
-- complete and release. Every order is possible.
inductive IoStep (config : DualConfig) : IoState → IoEvent → IoState → Prop where
  | submit (state : IoState) (slot : Slot) (loc : Loc) (cmd : HostCommand) (free : state.sq slot = none) :
      IoStep config state (.submit slot loc cmd)
        { state with sq := Function.update state.sq slot (some ⟨loc, cmd, cmd, false, 0, []⟩) }
  | retry (state : IoState) (slot : Slot) (req : Request) (entry : SqEntry) (attempt : Attempt)
      (waiting : state.sq slot = some entry) (fresh : entry.dispatched = false)
      (ran : procIoCmd (dualParams config entry.loc) (nsMapped config entry.loc) (state.ftls entry.loc) state.storage req entry.cmd = .ok attempt)
      (refused : attempt.done = none) :
      IoStep config state (.retry slot req) (afterAttempt config state slot entry attempt)
  | dispatch (state : IoState) (slot : Slot) (req : Request) (entry : SqEntry) (attempt : Attempt) (done : Completion) (work : Nat)
      (waiting : state.sq slot = some entry) (fresh : entry.dispatched = false)
      (ran : procIoCmd (dualParams config entry.loc) (nsMapped config entry.loc) (state.ftls entry.loc) state.storage req entry.cmd = .ok attempt)
      (finished : attempt.done = some done) (allocated : work ∉ state.queued) :
      IoStep config state (.dispatch slot req work) (postWork (afterAttempt config state slot entry attempt) slot work done)
  -- The work queue is almost full: the request is dropped and never completes.
  | lose (state : IoState) (slot : Slot) (req : Request) (entry : SqEntry) (attempt : Attempt) (done : Completion)
      (waiting : state.sq slot = some entry) (fresh : entry.dispatched = false)
      (ran : procIoCmd (dualParams config entry.loc) (nsMapped config entry.loc) (state.ftls entry.loc) state.storage req entry.cmd = .ok attempt)
      (finished : attempt.done = some done) :
      IoStep config state (.lose slot req) (afterAttempt config state slot entry attempt)
  | copy (state : IoState) (work : Nat) (entry : SqEntry) (storage : Storage) (status : NvmeStatus) (delivered : List (Nat × UInt8))
      (pending : work ∈ state.queued) (uncopied : (state.workQueue work).isCopied = false)
      (found : state.sq (state.workQueue work).slot = some entry)
      (ran : copied (dualParams config entry.loc) (nsMapped config entry.loc) state.storage (state.workQueue work).status entry.cmd
        = .ok (storage, status, delivered)) :
      IoStep config state (.copy work)
        { state with storage := storage,
                     workQueue := Function.update state.workQueue work { state.workQueue work with isCopied := true, status := status },
                     sq := Function.update state.sq (state.workQueue work).slot (some { entry with delivered := delivered }) }
  | complete (state : IoState) (work : Nat) (entry : SqEntry) (pending : work ∈ state.queued)
      (done : (state.workQueue work).isCopied = true) (found : state.sq (state.workQueue work).slot = some entry) :
      IoStep config state (.complete work)
        { state with queued := state.queued.erase work, sq := Function.update state.sq (state.workQueue work).slot none,
                     cq := state.cq ++ [⟨(state.workQueue work).slot, (state.workQueue work).status, (state.workQueue work).result0,
                       (state.workQueue work).result1, entry⟩] }
  | release (state : IoState) (loc : Loc) (entry : Nat) (next : ZmsFtl) (ran : runRelease (state.ftls loc) entry = some next) :
      IoStep config state (.release loc entry) { state with ftls := ranOn state.ftls loc next }

def ioSystem (config : DualConfig) : TransitionSystem.System IoState IoEvent :=
  ⟨fun state => ∃ clock, state = ioInit config clock, IoStep config⟩

end ConZone
