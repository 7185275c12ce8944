import ConZone.State

set_option autoImplicit false

namespace ConZone

def nrCreditEntries : Nat := 1024 * 96
def unitTimeInterval : Nat := 4000
def unitXferSize : Nat := 128

def readClock (timing : Timing) : Nat × Timing :=
  (timing.clock timing.ticks, { timing with ticks := timing.ticks + 1 })

def refill (credits : Nat → Nat) (start length value : Nat) : Nat → Nat :=
  fun entry => if start ≤ entry ∧ entry < start + length then value % 2 ^ 8 else credits entry

def advanceHead (channel : ChannelModel) (curTime : Nat) : ChannelModel :=
  let elapsed := u32 (curTime / unitTimeInterval + 2 ^ 64 - channel.curTime / unitTimeInterval)
  let offs := if elapsed < channel.validLen then elapsed else channel.validLen
  let credits :=
    if nrCreditEntries ≤ channel.head + offs then
      refill (refill channel.availCredits channel.head (nrCreditEntries - channel.head) channel.maxCredits)
        0 (offs - (nrCreditEntries - channel.head)) channel.maxCredits
    else refill channel.availCredits channel.head offs channel.maxCredits
  { channel with curTime := curTime, head := (channel.head + offs) % nrCreditEntries,
                 validLen := channel.validLen - offs, availCredits := credits,
                 asserted := channel.asserted || decide (nrCreditEntries < channel.validLen - offs) }

structure CreditScan where
  credits : Nat → Nat
  pos : Nat
  delay : Nat

-- The while (1) of chmodel_request moves pos once per round until the credits
-- are spent or it is back in front of head, so one lap of fuel is enough.
def consumeCredits (head : Nat) : Nat → Nat → CreditScan → CreditScan
  | 0, _, scan => scan
  | fuel + 1, remaining, scan =>
      let consumed := if remaining ≤ scan.credits scan.pos then remaining else scan.credits scan.pos
      let credits := Function.update scan.credits scan.pos (scan.credits scan.pos - consumed)
      let nextPos := (scan.pos + 1) % nrCreditEntries
      if remaining - consumed = 0 ∨ nextPos = head then { scan with credits := credits }
      else consumeCredits head fuel (remaining - consumed) ⟨credits, nextPos, scan.delay + 1⟩

-- One call of chmodel_request, with the wall clock it reads.
structure ChannelRequest where
  curTime : Nat
  requestTime : Nat
  length : Nat

def requestTimeOffs (request : ChannelRequest) : Nat :=
  u32 (request.requestTime / unitTimeInterval - request.curTime / unitTimeInterval)

def unitsToXfer (request : ChannelRequest) : Nat := u32 ((request.length + unitXferSize - 1) / unitXferSize)

def remainingCredits (channel : ChannelModel) (request : ChannelRequest) : Nat := u32 (unitsToXfer request + channel.commandCredits)

-- The request is neither before the clock nor beyond the ring.
def EntersLoop (request : ChannelRequest) : Prop :=
  ¬(request.requestTime < request.curTime ∨ nrCreditEntries ≤ requestTimeOffs request)

instance (request : ChannelRequest) : Decidable (EntersLoop request) := inferInstanceAs (Decidable (¬_))

def creditScan (channel : ChannelModel) (request : ChannelRequest) : CreditScan :=
  consumeCredits channel.head nrCreditEntries (remainingCredits channel request)
    ⟨channel.availCredits, (channel.head + requestTimeOffs request) % nrCreditEntries, 0⟩

def validLength (head pos : Nat) : Nat := if head ≤ pos then pos - head + 1 else nrCreditEntries - (head - pos - 1)

def totalLatency (channel : ChannelModel) (request : ChannelRequest) : Nat :=
  u32 (channel.xferLat * unitsToXfer request)
    + ((creditScan channel request).delay - remainingCredits channel request / channel.maxCredits) * unitTimeInterval

-- chmodel_request in the widths of the source.
def requestChannel (channel : ChannelModel) (request : ChannelRequest) : Nat × ChannelModel :=
  let channel := advanceHead channel request.curTime
  if EntersLoop request then
    let scan := creditScan channel request
    (u64 (request.requestTime + totalLatency channel request),
      { channel with availCredits := scan.credits, validLen := max (validLength channel.head scan.pos) channel.validLen })
  else (request.requestTime, channel)

def chmodelRequest (timing : Timing) (channel : ChannelModel) (requestTime length : Nat) : Nat × ChannelModel × Timing :=
  let (curTime, timing) := readClock timing
  let (time, channel) := requestChannel channel ⟨curTime, requestTime, length⟩
  (time, channel, timing)

def ssdAdvancePcie (timing : Timing) (requestTime length : Nat) : Nat × Timing :=
  let (time, pcie, timing) := chmodelRequest timing timing.pcie requestTime length
  (time, { timing with pcie := pcie })

def fw4kbRdLat : Nat := 20000
def fwRdLat : Nat := 13000
def fwWbufLat0 : Nat := 5600
def fwWbufLat1 : Nat := 600

def ssdAdvanceWriteBuffer (timing : Timing) (requestTime length : Nat) : Nat × Timing :=
  ssdAdvancePcie timing (u64 (requestTime + fwWbufLat0 + fwWbufLat1 * ((length + pgsz - 1) / pgsz))) length

-- A command placed in a plane's queue: the commands before it, itself with its
-- start time, the commands after it, and whether it overtook a migration.
structure Placed where
  before : List NandCmd
  command : NandCmd
  after : List NandCmd
  preemp : Bool

def overtakes (command : NandCmd) (cmdStime : Nat) (queued : NandCmd) : Bool :=
  queued.type == .migrateIo && decide (cmdStime < queued.stime) && queued.page.block.blk != command.page.block.blk

def ssdInitNandPlane : NandPlane := ⟨[], 0, false, 0, 0, 0⟩

def planeGetstime (plane : NandPlane) (command : NandCmd) (cmdStime : Nat) : NandPlane × Placed :=
  let queue := plane.cmdQueue.filter (fun queued => !decide (queued.ctime < cmdStime))
  let depth := plane.cmdQueueDepth - plane.cmdQueue.countP (fun queued => decide (queued.ctime < cmdStime)) + 1
  let migrating := plane.migrating && !decide (plane.migratingEtime < cmdStime)
  let plane := { plane with migrating := migrating, cmdQueueDepth := depth,
                            maxCmdQueueDepth := max plane.maxCmdQueueDepth depth }
  match command.type != .migrateIo && migrating, queue.dropWhile (fun queued => !overtakes command cmdStime queued) with
  | true, overtaken :: rest =>
      (plane, ⟨queue.takeWhile (fun queued => !overtakes command cmdStime queued),
        { command with stime := overtaken.stime }, overtaken :: rest, true⟩)
  | _, _ =>
      ({ plane with migrating := migrating || command.type == .migrateIo },
        ⟨queue, { command with stime := max plane.nextPlnAvailTime cmdStime }, [], false⟩)

def delayed (shift : Nat) (command : NandCmd) : NandCmd :=
  { command with stime := u64 (command.stime + shift), ctime := u64 (command.ctime + shift) }

def migrationEnd (latest : Nat) (command : NandCmd) : Nat :=
  if command.type = .migrateIo then max latest command.ctime else latest

def planeUpdate (plane : NandPlane) (placed : Placed) (cmdEtime : Nat) : NandPlane :=
  let shift := u64 (cmdEtime + 2 ^ 64 - placed.command.stime)
  let after := if placed.preemp then placed.after.map (delayed shift) else placed.after
  let command := { placed.command with ctime := cmdEtime }
  { plane with cmdQueue := placed.before ++ command :: after,
               nextPlnAvailTime := if placed.preemp then u64 (plane.nextPlnAvailTime + shift) else cmdEtime,
               migratingEtime := migrationEnd (after.foldl migrationEnd plane.migratingEtime) command }

def pgRdLat (cellMode cell : Nat) : Nat :=
  match cellMode, cell with
  | 1, 0 => 20000
  | 2, 0 => 36013 - 6000
  | 2, 1 => 36013 + 6000
  | 3, 0 | 3, 1 | 3, 2 => 40000
  | 4, _ => 85000
  | _, _ => 0

def pgWrLat (cellMode : Nat) : Nat :=
  match cellMode with
  | 1 => 75000
  | 2 => 185000
  | 3 => 937500
  | 4 => 6098000
  | _ => 0

def blkErLat : Nat := 3500000

-- The channel transfers of a read, in pieces of at most max_ch_xfer_size bytes.
def transfer (timing : Timing) (ch maxXfer : Nat) : Nat → Nat → Nat → Nat × Timing
  | 0, _, chnlTime => (chnlTime, timing)
  | fuel + 1, remaining, chnlTime =>
      if remaining = 0 then (chnlTime, timing)
      else
        let xferSize := min remaining maxXfer
        let (chnlEtime, channel, timing) := chmodelRequest timing (timing.channels ch) chnlTime xferSize
        transfer { timing with channels := Function.update timing.channels ch channel } ch maxXfer fuel
          (remaining - xferSize) chnlEtime

def putPlane (timing : Timing) (plane : Plane) (state : NandPlane) : Timing :=
  { timing with planes := Function.update timing.planes plane state }

def cellModeOf (spp : SsdParams) (command : NandCmd) : Nat :=
  if command.type = .mapReadIo then cellModeSlc else nandType spp command.page.block.blk

def cellOf (spp : SsdParams) (command : NandCmd) : Nat :=
  if cellModeOf spp command = cellModeSlc then 0 else command.page.pg / spp.pgsPerFlashpg % spp.cellMode

def ssdAdvanceNand (spp : SsdParams) (timing : Timing) (command : NandCmd) : Nat × Timing :=
  let (cmdStime, timing) := if command.stime = 0 then readClock timing else (command.stime, timing)
  let plane := command.page.block.plane
  match command.cmd with
  | .nandRead =>
      let (state, placed) := planeGetstime (timing.planes plane) command cmdStime
      let (etime, timing) := transfer timing plane.ch (spp.pgsPerFlashpg * pgsz) command.xferSize command.xferSize
        (u64 (placed.command.stime + pgRdLat (cellModeOf spp command) (cellOf spp command)))
      (etime, putPlane timing plane (planeUpdate state placed etime))
  | .nandWrite =>
      let (state, placed) := planeGetstime (timing.planes plane) command cmdStime
      let (chnlEtime, channel, timing) :=
        chmodelRequest timing (timing.channels plane.ch) placed.command.stime command.xferSize
      let etime := u64 (chnlEtime + pgWrLat (cellModeOf spp command))
      (etime, putPlane { timing with channels := Function.update timing.channels plane.ch channel } plane
        (planeUpdate state placed etime))
  | .nandErase =>
      let (state, placed) := planeGetstime (timing.planes plane) command cmdStime
      let etime := u64 (placed.command.stime + blkErLat)
      (etime, putPlane timing plane (planeUpdate state placed etime))
  | .nandNop =>
      let state := timing.planes plane
      let etime := max state.nextPlnAvailTime cmdStime
      (etime, putPlane timing plane { state with nextPlnAvailTime := etime })

def planesOf (spp : SsdParams) : List Plane :=
  (List.range spp.nchs).flatMap fun ch =>
    (List.range spp.lunsPerCh).flatMap fun lun => (List.range spp.plsPerLun).map fun pl => ⟨ch, lun, pl⟩

def ssdNextIdleTime (spp : SsdParams) (timing : Timing) : Nat × Timing :=
  let (latest, timing) := readClock timing
  ((planesOf spp).foldl (fun time plane => max time (timing.planes plane).nextPlnAvailTime) latest, timing)

def submitNandCmd (p : Params) (ftl : ZmsFtl) (type : IoType) (cmd : NandOp) (stime xferSize : Nat) (page : Page) :
    Nat × ZmsFtl :=
  let (time, timing) := ssdAdvanceNand p.spp ftl.timing
    { type := type, cmd := cmd, xferSize := xferSize, stime := stime, page := page, ctime := 2 ^ 64 - 1 }
  (time, { ftl with timing := timing })

end ConZone
