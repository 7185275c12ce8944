import ConZone.Params
import ConZone.IntrusiveList
import ConZone.IndexedHeap

set_option autoImplicit false

namespace ConZone

inductive IoType where
  | userIo
  | gcIo
  | migrateIo
  | mapReadIo
  deriving DecidableEq

inductive NandOp where
  | nandRead
  | nandWrite
  | nandErase
  | nandNop
  deriving DecidableEq

inductive PageStatus where
  | free
  | invalid
  | valid
  deriving DecidableEq

structure Plane where
  ch : Nat
  lun : Nat
  pl : Nat
  deriving DecidableEq

structure Block where
  plane : Plane
  blk : Nat
  deriving DecidableEq

structure Page where
  block : Block
  pg : Nat
  deriving DecidableEq

-- struct ppa: UNMAPPED_PPA and RSV_PPA both read as reserved through
-- IS_RSV_PPA, since all bits of UNMAPPED_PPA are set.
inductive Ppa where
  | unmapped
  | rsv
  | mapped (page : Page) (map : MapType)
  deriving DecidableEq

def mappedPpa : Ppa → Bool
  | .mapped _ _ => true
  | _ => false

def isRsvPpa : Ppa → Bool
  | .mapped _ _ => false
  | _ => true

structure NandBlock where
  status : Nat → PageStatus
  ipc : Int
  vpc : Int
  eraseCnt : Int

-- A line of lm->lines[] or an element of a line's sub_lines[].
inductive LineRef where
  | line (id : Nat)
  | sub (parent id : Nat)
  deriving DecidableEq

structure Line where
  ipc : Int
  vpc : Int
  rpc : Int
  pos : Nat
  rsvNextline : Option LineRef
  midPos : Nat
  midWriteOrder : Nat

inductive ListNode where
  | free (loc : Loc)
  | full (loc : Loc)
  | line (ref : LineRef)
  deriving DecidableEq

-- A pqueue_t without the positions, which are fields of the queued lines.
structure Queue where
  d : Nat → LineRef
  size : Nat

-- The fields struct zms_line_mgmt has twice, plain and with the pslc_ prefix,
-- are indexed by the location.
structure LineMgmt where
  lines : LineRef → Line
  links : IntrusiveList.Links ListNode
  victimLinePq : Loc → Queue
  freeLineCnt : Loc → Nat
  fullLineCnt : Loc → Nat
  victimLineCnt : Loc → Nat

inductive WpName where
  | wp
  | gcWp
  | pslcWp
  | pslcGcWp
  deriving DecidableEq

structure WritePointer where
  curline : Option LineRef
  loc : Loc
  block : Block
  pg : Nat

structure WriteFlowControl where
  writeCredits : Int
  creditsToRefill : Int

inductive ZoneState where
  | empty
  | openedImpl
  | openedExpl
  | closed
  | readOnly
  | full
  | offline
  deriving DecidableEq

structure ZoneDescriptor where
  state : ZoneState
  zrwav : Bool
  zoneCapacity : Nat
  zslba : Nat
  wp : Nat

inductive ResType where
  | activeZone
  | openZone
  | zrwaZone
  deriving DecidableEq

-- ASSERT compiles to nothing; asserted records that the one of
-- release_zone_resource, a release at zero, would have failed.
structure ZoneResourceInfo where
  acquiredCnt : Nat
  totalCnt : Nat
  asserted : Bool

-- lpns holds the first pgs entries of buffer.lpns[]; zid is none for -1.
structure Buffer where
  zid : Option Nat
  lpns : List Nat
  flushData : Nat
  busy : Bool
  sqid : Nat
  time : Nat

def Buffer.pgs (buffer : Buffer) : Nat := buffer.lpns.length

structure L2pCacheEnt where
  nsid : Nat
  lpn : Option Nat
  granularity : MapType
  resident : Bool
  next : Int
  last : Int

-- struct l2pcache together with the l2pcache_idx tables of the two namespaces
-- that share it; an eviction may clear an entry of either.
structure L2pCache where
  slotLen : Nat → Nat
  head : Nat → Int
  tail : Nat → Int
  mapping : Nat → Int → L2pCacheEnt
  idx : Nat → Nat → Int

structure NandCmd where
  type : IoType
  cmd : NandOp
  xferSize : Nat
  stime : Nat
  page : Page
  ctime : Nat

structure NandPlane where
  cmdQueue : List NandCmd
  nextPlnAvailTime : Nat
  migrating : Bool
  migratingEtime : Nat
  cmdQueueDepth : Nat
  maxCmdQueueDepth : Nat

structure ChannelModel where
  curTime : Nat
  head : Nat
  validLen : Nat
  maxCredits : Nat
  commandCredits : Nat
  xferLat : Nat
  availCredits : Nat → Nat
  asserted : Bool

-- clock is the sequence of cpu_clock readings the dispatcher will make.
structure Timing where
  planes : Plane → NandPlane
  channels : Nat → ChannelModel
  pcie : ChannelModel
  clock : Nat → Nat
  ticks : Nat

structure Stats where
  hostWPgs : Nat
  hostRPgs : Nat
  deviceWPgs : Nat
  deviceRPgs : Nat
  gcPgs : Nat
  deviceCopyPgs : Nat
  l2pMisses : Nat
  l2pHits : Nat
  readWbHits : Nat
  wbReadPgs : Nat
  unmappedReadCnt : Nat
  zoneResetCnt : Nat
  zoneWriteCnt : Nat
  hostWrequestCnt : Nat
  hostRrequestCnt : Nat
  hostFlushCnt : Nat
  eraseCnt : Loc → Nat
  gcCount : Nat
  earlyFlushCnt : Nat
  inplaceUpdate : Nat
  flushCnt : Loc → Nat

-- struct zms_ftl with the parts of the shared struct ssd it works on. An rmap
-- entry is none for INVALID_LPN. scheduled lists the pending internal
-- operations: the buffer to release and its target time.
structure ZmsFtl where
  nand : Block → NandBlock
  timing : Timing
  l2p : L2pCache
  maptbl : Nat → Ppa
  rmap : Nat → Option Nat
  lm : LineMgmt
  wps : WpName → WritePointer
  wfc : Loc → WriteFlowControl
  deviceFull : Bool
  pslcFull : Bool
  pendingForMigrating : Bool
  gcAggLpns : List Nat
  zoneAggLpns : Nat → List Nat
  migratingLinePq : Queue
  lineWriteCnt : Nat
  writeBuffer : Nat → Buffer
  zoneDescs : Nat → ZoneDescriptor
  resInfos : ResType → ZoneResourceInfo
  nopgLastLpn : Nat
  lastSlba : Nat
  lastNlb : Nat
  lastStime : Nat
  currentTime : Nat
  scheduled : List (Nat × Nat)
  stats : Stats

-- What stops the modelled kernel: a failed NVMEV_ASSERT, a NULL dereference, a
-- list head taken for a line, an access outside zone_descs, an endless loop.
inductive Fault where
  | bugOn
  | nullDeref
  | listHead
  | outOfBounds
  | hang
  deriving DecidableEq

abbrev Exec (α : Type) := Except Fault α

theorem bind_ok {α β : Type} (first : Exec α) (next : α → Exec β) (result : β) (run : (first >>= next) = .ok result) :
    ∃ value, first = .ok value ∧ next value = .ok result := by
  cases first with
  | error fault => exact nomatch run
  | ok value => exact ⟨value, rfl, run⟩

theorem pure_ok {α : Type} (value result : α) (run : (pure value : Exec α) = .ok result) : value = result :=
  Except.ok.inj run

def Answered {α : Type} (run : Exec α) : Prop := ∃ value, run = .ok value

theorem ok_answers {α : Type} (value : α) : Answered (.ok value) := ⟨value, rfl⟩

theorem bind_answers {α β : Type} (first : Exec α) (next : α → Exec β) (runs : Answered first)
    (rest : ∀ value, first = .ok value → Answered (next value)) : Answered (first >>= next) := by
  obtain ⟨value, ran⟩ := runs
  have after := rest value ran
  rw [ran]
  exact after

def anyFull (ftl : ZmsFtl) : Bool := ftl.deviceFull || ftl.pslcFull

def locFull (ftl : ZmsFtl) : Loc → Bool
  | .normal => ftl.deviceFull
  | .pslc => ftl.pslcFull

def setFull (ftl : ZmsFtl) : Loc → ZmsFtl
  | .normal => { ftl with deviceFull := true }
  | .pslc => { ftl with pslcFull := true }

def putLine (ftl : ZmsFtl) (ref : LineRef) (line : Line) : ZmsFtl :=
  { ftl with lm := { ftl.lm with lines := Function.update ftl.lm.lines ref line } }

def putBuffer (ftl : ZmsFtl) (index : Nat) (buffer : Buffer) : ZmsFtl :=
  { ftl with writeBuffer := Function.update ftl.writeBuffer index buffer }

def putWp (ftl : ZmsFtl) (name : WpName) (pointer : WritePointer) : ZmsFtl :=
  { ftl with wps := Function.update ftl.wps name pointer }

end ConZone
