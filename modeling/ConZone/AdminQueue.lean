import ConZone.Completions
import ConZone.Io
import ConZone.PhasedRing

set_option autoImplicit false

namespace ConZone.Admin

def nrMaxIoQueue : Nat := 72
def nrSqePerPage : Nat := 64
def nrCqePerPage : Nat := 256
def nvmeQueuePhysContig : Nat := 1
def nvmeCqIrqEnabled : Nat := 2
def nvmeFeatNumQueues : Nat := 7
def nvmeLogSmart : Nat := 2
def nvmeLogCmdEffects : Nat := 5
def nvmeNidtCsi : Nat := 4
def nvmeCsiZns : Nat := 2
def ozcsZrwa : Nat := 2
def zrwacapExpflushsup : Nat := 1
def lbaBits : Nat := 9

def divRoundUp (value unit : Nat) : Nat := (value + unit - 1) / unit

structure QueuePages where
  first : Nat
  pages : Nat

structure AdminQueue where
  phase : Nat
  sqDepth : Nat
  cqDepth : Nat
  cqHead : Nat
  nvmeSq : Option QueuePages
  nvmeCq : Option QueuePages

-- What the create commands write into a queue. The queue itself starts with
-- these and zeroes.
structure IoSq where
  qid : Nat
  cqid : Nat
  priority : Nat
  physContig : Bool
  queueSize : Nat
  sq : QueuePages
  offset : Nat

structure IoCq where
  qid : Nat
  irqVector : Nat
  irqEnabled : Bool
  interruptReady : Bool
  physContig : Bool
  queueSize : Nat
  phase : Nat
  cqHead : Nat
  cqTail : Int
  cq : QueuePages
  offset : Nat

structure CreateSq where
  prp1 : Nat
  sqid : Nat
  qsize : Nat
  sqFlags : Nat
  cqid : Nat

structure CreateCq where
  prp1 : Nat
  cqid : Nat
  qsize : Nat
  cqFlags : Nat
  irqVector : Nat

structure GetLogPage where
  prp1 : Nat
  lid : Nat
  numdl : Nat
  numdu : Nat

structure Identify where
  nsid : Nat
  data : DataPointer
  cns : Nat

inductive AdminRequest where
  | deleteSq (qid : Nat)
  | createSq (cmd : CreateSq)
  | getLogPage (cmd : GetLogPage)
  | deleteCq (qid : Nat)
  | createCq (cmd : CreateCq)
  | identify (cmd : Identify)
  | abortCmd
  | setFeatures (fid dword11 : Nat)
  | getFeatures (fid : Nat)
  | asyncEvent
  | unhandled (opcode : Nat)

structure AdminCommand where
  commandId : Nat
  request : AdminRequest

inductive AdminStatus where
  | success
  | invalidOpcode
  | dataXferError
  deriving DecidableEq

def AdminStatus.code : AdminStatus → Nat
  | .success => 0
  | .invalidOpcode => 1
  | .dataXferError => 4

-- What a handler passes to __make_cq_entry_results.
structure Reply where
  ret : AdminStatus
  result0 : Nat
  result1 : Nat

def makeCqEntry (ret : AdminStatus) : Reply := ⟨ret, 0, 0⟩

-- The part of struct znsparams that is told to the host.
structure ZoneLimits where
  nrActiveZones : Nat
  nrOpenZones : Nat
  nrZrwaZones : Nat
  zrwafgSize : Nat
  zrwaSize : Nat
  zoneSize : Nat

-- struct nvmev_ns; zp is none for a type that is not zoned.
structure Namespace where
  csi : Nat
  size : Nat
  zp : Option ZoneLimits

structure Lbaf where
  ms : Nat
  ds : Nat
  rp : Nat

structure IdNs where
  lbaf : List Lbaf
  flbas : Nat
  nlbaf : Nat
  dps : Nat
  nsze : Nat
  ncap : Nat
  nuse : Nat

structure IdCtrl where
  nn : Nat
  oncs : Nat
  acl : Nat
  vwc : Nat
  sn : String
  mn : String
  fr : String
  mdts : Nat
  sqes : Nat
  cqes : Nat

structure IdZnsNs where
  zoc : Nat
  ozcs : Nat
  mar : Nat
  mor : Nat
  numzrwa : Nat
  zrwafg : Nat
  zrwasz : Nat
  zrwacap : Nat
  zsze : Nat
  zdes : Nat

-- The pages the device writes into the host's memory, zero where not given.
inductive DataPage where
  | smartLog (spareThresh : Nat)
  | effectsLog (acs iocs : List (Nat × Nat))
  | idNs (page : IdNs)
  | idCtrl (page : IdCtrl)
  | nsList (ids : List Nat)
  | nsDesc (nidt nidl csi : Nat)
  | znsNs (page : IdZnsNs)
  | znsCtrl (zasl : Nat)
  | zeroes

structure Delivery where
  page : DataPage
  pieces : List (Nat × Nat)

structure Tables where
  sqes : Nat → Option IoSq
  cqes : Nat → Option IoCq
  nrSq : Nat
  nrCq : Nat
  delivered : List Delivery

structure Regs where
  aqa : Nat
  asq : Nat
  acq : Nat
  cc : Nat

structure Dev where
  bar : Regs
  rdy : Nat
  shst : Nat
  oldBar : Regs
  adminQ : Option AdminQueue
  dbs : Nat → Nat
  oldDbs : Nat → Nat
  tables : Tables
  ns : List Namespace
  mdts : Nat

-- The host's memory as an array of commands and one of completions. The two
-- queues do not overlap, nor does what the device delivers overlap them.
structure HostMemory where
  commands : Nat → AdminCommand
  completions : Nat → Cqe

section Entries

-- sq_entry and cq_entry.
def entryAt (perPage : Nat) (queue : Option QueuePages) (entryId : Nat) : Exec Nat :=
  match queue with
  | none => .error .nullDeref
  | some run =>
      if entryId / perPage < run.pages then .ok ((run.first + entryId / perPage) * perPage + entryId % perPage)
      else .error .outOfBounds

def makeCqEntryResults (queue : AdminQueue) (memory : HostMemory) (eid commandId : Nat) (reply : Reply) :
    Exec (AdminQueue × HostMemory) := do
  let place ← entryAt nrCqePerPage queue.nvmeCq queue.cqHead
  let wraps := decide (queue.cqHead + 1 = queue.cqDepth)
  let entry := filledCqe queue.phase ⟨0, eid, commandId, reply.ret.code, reply.result0, reply.result1⟩
  pure ({ queue with cqHead := if wraps then 0 else queue.cqHead + 1,
                     phase := if wraps then (if queue.phase = 0 then 1 else 0) else queue.phase },
    { memory with completions := Function.update memory.completions place entry })

end Entries

section Queues

def clearDoorbell (dev : Dev) (dbsIdx : Nat) : Dev :=
  { dev with dbs := Function.update dev.dbs dbsIdx 0, oldDbs := Function.update dev.oldDbs dbsIdx 0 }

def createdCq (cmd : CreateCq) : IoCq :=
  let irqEnabled := decide (cmd.cqFlags &&& nvmeCqIrqEnabled ≠ 0)
  { qid := cmd.cqid, irqVector := if irqEnabled then cmd.irqVector else 0, irqEnabled := irqEnabled, interruptReady := false,
    physContig := decide (cmd.cqFlags &&& nvmeQueuePhysContig ≠ 0), queueSize := cmd.qsize + 1, phase := 1, cqHead := 0, cqTail := -1,
    cq := ⟨cmd.prp1 / pageSize, divRoundUp ((cmd.qsize + 1) * 16) pageSize⟩, offset := cmd.prp1 % pageSize }

def nvmevAdminCreateCq (dev : Dev) (cmd : CreateCq) : Exec (Dev × Reply) :=
  if nrMaxIoQueue < cmd.cqid then .error .outOfBounds
  else
    let tables := { dev.tables with cqes := Function.update dev.tables.cqes cmd.cqid (some (createdCq cmd)) }
    .ok (clearDoorbell { dev with tables := tables } (cmd.cqid * 2 + 1), makeCqEntry .success)

def nvmevAdminDeleteCq (dev : Dev) (qid : Nat) : Exec (Dev × Reply) :=
  if nrMaxIoQueue < qid then .error .outOfBounds
  else .ok ({ dev with tables := { dev.tables with cqes := Function.update dev.tables.cqes qid none } }, makeCqEntry .success)

def createdSq (cmd : CreateSq) : IoSq :=
  { qid := cmd.sqid, cqid := cmd.cqid, priority := cmd.sqFlags &&& 0xFFFE,
    physContig := decide (cmd.sqFlags &&& nvmeQueuePhysContig ≠ 0), queueSize := cmd.qsize + 1,
    sq := ⟨cmd.prp1 / pageSize, divRoundUp ((cmd.qsize + 1) * 64) pageSize⟩, offset := cmd.prp1 % pageSize }

def nvmevAdminCreateSq (dev : Dev) (cmd : CreateSq) : Exec (Dev × Reply) :=
  if nrMaxIoQueue < cmd.sqid then .error .outOfBounds
  else
    let tables := { dev.tables with sqes := Function.update dev.tables.sqes cmd.sqid (some (createdSq cmd)) }
    .ok (clearDoorbell { dev with tables := tables } (cmd.sqid * 2), makeCqEntry .success)

def nvmevAdminDeleteSq (dev : Dev) (qid : Nat) : Exec (Dev × Reply) :=
  if nrMaxIoQueue < qid then .error .outOfBounds
  else .ok ({ dev with tables := { dev.tables with sqes := Function.update dev.tables.sqes qid none } }, makeCqEntry .success)

end Queues

section Pages

def deliver (dev : Dev) (page : DataPage) (pieces : List (Nat × Nat)) : Dev :=
  { dev with tables := { dev.tables with delivered := dev.tables.delivered ++ [⟨page, pieces⟩] } }

def logPage (lid : Nat) : DataPage :=
  if lid = nvmeLogSmart then .smartLog 20
  else if lid = nvmeLogCmdEffects then
    .effectsLog [(0x02, 1), (0x06, 1), (0x09, 1), (0x0a, 1), (0x0c, 1)] [(0x7d, 1), (0x79, 1 ||| 2), (0x7a, 1)]
  else .zeroes

-- The bytes go to the memory behind prp1 in one piece.
def nvmevAdminGetLogPage (dev : Dev) (cmd : GetLogPage) : Dev × Reply :=
  let len := u32 (((cmd.numdu <<< 16 ||| cmd.numdl) + 1) * 4)
  (deliver dev (logPage cmd.lid) [(cmd.prp1, len)], makeCqEntry .success)

-- __prp_write_data: the pieces written and whether it got to the end. The loop
-- is that of __do_perform_io with a check for addresses that are zero.
def prpWriteData (data : DataPointer) : Nat → Nat → Option Nat → Nat → Exec (List (Nat × Nat) × Bool)
  | 0, _, _, remaining => if remaining = 0 then .ok ([], true) else .error .hang
  | fuel + 1, prpOffs, list, remaining =>
      if remaining = 0 then .ok ([], true)
      else if prpOffs = 1 ∧ data.prp2 = 0 then .ok ([], false)
      else
        match prpAt data prpOffs list remaining with
        | none => .error .nullDeref
        | some (paddr, list) =>
            if paddr = 0 then .ok ([], false)
            else do
              let ioSize := ioSizeAt paddr remaining
              let (rest, whole) ← prpWriteData data fuel (prpOffs + 1) list (remaining - ioSize)
              pure ((paddr, ioSize) :: rest, whole)

-- The kzalloc of a namespace identify always succeeds here, so its
-- NVME_SC_INTERNAL answer is left out.
def sendPage (dev : Dev) (cmd : Identify) (page : DataPage) : Exec (Dev × Reply) := do
  let (pieces, whole) ← prpWriteData cmd.data pageSize 0 none pageSize
  pure (deliver dev page pieces, makeCqEntry (if whole then .success else .dataXferError))

-- nvmev_vdev->ns[nsid] with nsid = cmd->nsid - 1.
def namespaceOf (dev : Dev) (nsid : Nat) : Exec Namespace :=
  if nsid = 0 then .error .outOfBounds
  else
    match dev.ns[nsid - 1]? with
    | none => .error .outOfBounds
    | some found => .ok found

def lbaFormats : List Lbaf := [⟨0, 9, 2⟩, ⟨8, 9, 2⟩, ⟨16, 9, 2⟩, ⟨0, 12, 0⟩, ⟨8, 12, 0⟩, ⟨64, 12, 0⟩, ⟨128, 12, 0⟩]

def lbaFormat : Nat := if lbaBits = 9 then 0 else 3

def identifiedNs (size : Nat) : IdNs :=
  let nsze := size >>> (lbaFormats[lbaFormat]?.elim 0 Lbaf.ds)
  { lbaf := lbaFormats, flbas := lbaFormat, nlbaf := 6, dps := 0, nsze := nsze, ncap := nsze, nuse := nsze }

def nvmevAdminIdentifyNamespace (dev : Dev) (cmd : Identify) : Exec (Dev × Reply) := do
  let found ← namespaceOf dev cmd.nsid
  sendPage dev cmd (.idNs (identifiedNs found.size))

def nvmevAdminIdentifyNamespaces (dev : Dev) (cmd : Identify) : Exec (Dev × Reply) :=
  sendPage dev cmd (.nsList (((List.range dev.ns.length).map (· + 1)).filter fun i => decide (cmd.nsid < i)))

def nvmevAdminIdentifyNamespaceDesc (dev : Dev) (cmd : Identify) : Exec (Dev × Reply) := do
  let found ← namespaceOf dev cmd.nsid
  sendPage dev cmd (.nsDesc nvmeNidtCsi 1 found.csi)

def identifiedZns (zpp : ZoneLimits) : IdZnsNs :=
  let zrwa := decide (0 < zpp.nrZrwaZones)
  { zoc := 0, ozcs := if zrwa then ozcsZrwa else 0, mar := u32 (zpp.nrActiveZones + 2 ^ 32 - 1), mor := u32 (zpp.nrOpenZones + 2 ^ 32 - 1),
    numzrwa := if zrwa then u32 (zpp.nrZrwaZones - 1) else 0, zrwafg := if zrwa then zpp.zrwafgSize % 2 ^ 16 else 0,
    zrwasz := if zrwa then zpp.zrwaSize % 2 ^ 16 else 0, zrwacap := if zrwa then zrwacapExpflushsup else 0,
    zsze := zpp.zoneSize >>> lbaBits, zdes := 0 }

def sendZnsNamespace (dev : Dev) (cmd : Identify) (found : Namespace) : Exec (Dev × Reply) :=
  match found.zp with
  | none => sendPage dev cmd .zeroes
  | some zpp => if found.csi ≠ nvmeCsiZns then .error .bugOn else sendPage dev cmd (.znsNs (identifiedZns zpp))

def nvmevAdminIdentifyZnsNamespace (dev : Dev) (cmd : Identify) : Exec (Dev × Reply) := do
  let found ← namespaceOf dev cmd.nsid
  sendZnsNamespace dev cmd found

def nvmevAdminIdentifyZnsCtrl (dev : Dev) (cmd : Identify) : Exec (Dev × Reply) := sendPage dev cmd (.znsCtrl 0)

def nvmevAdminIdentifyCtrl (dev : Dev) (cmd : Identify) : Exec (Dev × Reply) :=
  sendPage dev cmd (.idCtrl
    { nn := dev.ns.length, oncs := 0, acl := 3, vwc := 1, sn := "CSL_Virt_SN_01", mn := "CSL_Virt_MN_01", fr := "CSL_002",
      mdts := dev.mdts, sqes := 0x66, cqes := 0x44 })

def nvmevAdminIdentify (dev : Dev) (cmd : Identify) : Exec (Dev × Reply) :=
  match cmd.cns with
  | 0x00 => nvmevAdminIdentifyNamespace dev cmd
  | 0x01 => nvmevAdminIdentifyCtrl dev cmd
  | 0x02 => nvmevAdminIdentifyNamespaces dev cmd
  | 0x03 => nvmevAdminIdentifyNamespaceDesc dev cmd
  | 0x05 => nvmevAdminIdentifyZnsNamespace dev cmd
  | 0x06 => nvmevAdminIdentifyZnsCtrl dev cmd
  | _ => .ok (dev, makeCqEntry .invalidOpcode)

end Pages

section Features

def queueCounts (tables : Tables) : Nat := u32 (u32 (tables.nrCq + 2 ^ 32 - 1) <<< 16) ||| u32 (tables.nrSq + 2 ^ 32 - 1)

-- Every other feature is accepted and ignored.
def nvmevAdminSetFeatures (dev : Dev) (fid dword11 : Nat) : Dev × Reply :=
  if fid = nvmeFeatNumQueues then
    let tables := { dev.tables with nrSq := min (dword11 % 2 ^ 16 + 1) nrMaxIoQueue, nrCq := min (dword11 / 2 ^ 16 % 2 ^ 16 + 1) nrMaxIoQueue }
    ({ dev with tables := tables }, ⟨.success, queueCounts tables, 0⟩)
  else (dev, makeCqEntry .success)

def nvmevAdminGetFeatures (dev : Dev) (fid : Nat) : Dev × Reply :=
  (dev, ⟨.success, if fid = nvmeFeatNumQueues then queueCounts dev.tables else 0, 0⟩)

end Features

section Requests

-- The switch of __nvmev_proc_admin_req. An abort gets no completion.
def adminRequest (dev : Dev) : AdminRequest → Exec (Dev × Option Reply)
  | .deleteSq qid => do
      let (dev, reply) ← nvmevAdminDeleteSq dev qid
      pure (dev, some reply)
  | .createSq cmd => do
      let (dev, reply) ← nvmevAdminCreateSq dev cmd
      pure (dev, some reply)
  | .getLogPage cmd => .ok ((nvmevAdminGetLogPage dev cmd).1, some (nvmevAdminGetLogPage dev cmd).2)
  | .deleteCq qid => do
      let (dev, reply) ← nvmevAdminDeleteCq dev qid
      pure (dev, some reply)
  | .createCq cmd => do
      let (dev, reply) ← nvmevAdminCreateCq dev cmd
      pure (dev, some reply)
  | .identify cmd => do
      let (dev, reply) ← nvmevAdminIdentify dev cmd
      pure (dev, some reply)
  | .abortCmd => .ok (dev, none)
  | .setFeatures fid dword11 => .ok ((nvmevAdminSetFeatures dev fid dword11).1, some (nvmevAdminSetFeatures dev fid dword11).2)
  | .getFeatures fid => .ok ((nvmevAdminGetFeatures dev fid).1, some (nvmevAdminGetFeatures dev fid).2)
  | .asyncEvent => .ok (dev, some (makeCqEntry .success))
  | .unhandled _ => .ok (dev, some (makeCqEntry .invalidOpcode))

def postReply (dev : Dev) (memory : HostMemory) (queue : AdminQueue) (eid commandId : Nat) : Option Reply → Exec (Dev × HostMemory)
  | none => .ok (dev, memory)
  | some reply => do
      let (queue, memory) ← makeCqEntryResults queue memory eid commandId reply
      pure ({ dev with adminQ := some queue }, memory)

def nvmevProcAdminReq (dev : Dev) (memory : HostMemory) (entryId : Nat) : Exec (Dev × HostMemory) := do
  match dev.adminQ with
  | none => .error .nullDeref
  | some queue =>
      let place ← entryAt nrSqePerPage queue.nvmeSq entryId
      let (dev, reply) ← adminRequest dev (memory.commands place).request
      postReply dev memory queue entryId (memory.commands place).commandId reply

def procAdminSqLoop (sqDepth : Nat) : Nat → Nat → Dev → HostMemory → Exec (Dev × HostMemory)
  | 0, _, dev, memory => .ok (dev, memory)
  | left + 1, curr, dev, memory => do
      let (dev, memory) ← nvmevProcAdminReq dev memory curr
      procAdminSqLoop sqDepth left (if curr + 1 = sqDepth then 0 else curr + 1) dev memory

def numProc (sqDepth newDb oldDb : Nat) : Nat :=
  (if (newDb : Int) - oldDb < 0 then (newDb : Int) - oldDb + sqDepth else (newDb : Int) - oldDb).toNat

def nvmevProcAdminSq (dev : Dev) (memory : HostMemory) (newDb oldDb : Nat) : Exec (Dev × HostMemory) :=
  match dev.adminQ with
  | none => .error .nullDeref
  | some queue => procAdminSqLoop queue.sqDepth (numProc queue.sqDepth newDb oldDb) oldDb dev memory

-- The admin queue in nvmev_proc_dbs; nvmev_proc_admin_cq does nothing.
def procDbsAdminSq (dev : Dev) (memory : HostMemory) : Exec (Dev × HostMemory) :=
  if dev.dbs 0 = dev.oldDbs 0 then .ok (dev, memory)
  else do
    let (next, memory) ← nvmevProcAdminSq dev memory (dev.dbs 0) (dev.oldDbs 0)
    pure ({ next with oldDbs := Function.update next.oldDbs 0 (dev.dbs 0) }, memory)

def procDbsAdminCq (dev : Dev) : Dev :=
  if dev.dbs 1 = dev.oldDbs 1 then dev else { dev with oldDbs := Function.update dev.oldDbs 1 (dev.dbs 1) }

end Requests

section Registers

def asqs (aqa : Nat) : Nat := aqa % 2 ^ 12
def acqs (aqa : Nat) : Nat := aqa / 2 ^ 16 % 2 ^ 12
def en (cc : Nat) : Nat := cc % 2
def shn (cc : Nat) : Nat := cc / 2 ^ 14 % 4

def freshQueue : AdminQueue := ⟨0, 0, 0, 0, none, none⟩

def barsAqa (dev : Dev) : Dev :=
  let queue := { dev.adminQ.getD freshQueue with
    cqHead := 0, phase := 1, sqDepth := asqs dev.bar.aqa + 1, cqDepth := acqs dev.bar.aqa + 1 }
  clearDoorbell (clearDoorbell { dev with oldBar := { dev.oldBar with aqa := dev.bar.aqa }, adminQ := some queue } 0) 1

-- Without a queue the change is left for a later round.
def barsAsq (dev : Dev) : Dev :=
  match dev.adminQ with
  | none => dev
  | some queue =>
      let depth := asqs dev.bar.aqa + 1
      let queue := { queue with sqDepth := depth, nvmeSq := some ⟨dev.bar.asq / pageSize, divRoundUp (depth * 64) pageSize⟩ }
      clearDoorbell { dev with oldBar := { dev.oldBar with asq := dev.bar.asq }, adminQ := some queue } 0

def barsAcq (dev : Dev) : Dev :=
  match dev.adminQ with
  | none => dev
  | some queue =>
      let depth := acqs dev.bar.aqa + 1
      let queue := { queue with cqDepth := depth, cqHead := 0, nvmeCq := some ⟨dev.bar.acq / pageSize, divRoundUp (depth * 16) pageSize⟩ }
      clearDoorbell { dev with oldBar := { dev.oldBar with acq := dev.bar.acq }, adminQ := some queue } 1

def barsShutdown (dev : Dev) : Exec Dev :=
  if shn dev.bar.cc = 1 then
    match dev.adminQ with
    | none => .error .nullDeref
    | some queue => .ok (clearDoorbell (clearDoorbell { dev with shst := 2, adminQ := some { queue with cqHead := 0 } } 0) 1)
  else .ok dev

def barsCc (dev : Dev) : Exec Dev := do
  let rdy := if en dev.bar.cc = 1 then (if dev.adminQ.isSome then 1 else dev.rdy) else 0
  let next ← barsShutdown { dev with rdy := rdy }
  pure { next with oldBar := { next.oldBar with cc := dev.bar.cc } }

-- One change of the registers at a time, and whether there was one.
def nvmevProcBars (dev : Dev) : Exec (Bool × Dev) :=
  if dev.oldBar.aqa ≠ dev.bar.aqa then .ok (true, barsAqa dev)
  else if dev.oldBar.asq ≠ dev.bar.asq then .ok (true, barsAsq dev)
  else if dev.oldBar.acq ≠ dev.bar.acq then .ok (true, barsAcq dev)
  else if dev.oldBar.cc ≠ dev.bar.cc then do
    let next ← barsCc dev
    pure (true, next)
  else .ok (false, dev)

end Registers

end ConZone.Admin
