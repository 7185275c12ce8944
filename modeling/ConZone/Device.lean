import ConZone.Command
import ConZone.Run

set_option autoImplicit false

namespace ConZone

def mib : Nat := 2 ^ 20
def nsPerSec : Nat := 10 ^ 9

def chmodelInit (bandwidth : Nat) : ChannelModel :=
  let maxCredits := bandwidth * mib * unitTimeInterval / nsPerSec / unitXferSize
  { curTime := 0, head := 0, validLen := 0, maxCredits := maxCredits, commandCredits := 0,
    xferLat := unitXferSize * nsPerSec / (bandwidth * mib), availCredits := fun _ => maxCredits % 2 ^ 8, asserted := false }

def ssdInitTiming (clock : Nat → Nat) : Timing :=
  { planes := fun _ => ssdInitNandPlane, channels := fun _ => chmodelInit 1422, pcie := chmodelInit 3000,
    clock := clock, ticks := 0 }

def ssdInitL2pcache : L2pCache :=
  { slotLen := fun _ => 0, head := fun _ => 0, tail := fun _ => 0,
    mapping := fun _ _ => ⟨0, none, .pageMap, false, -1, -1⟩, idx := fun _ _ => -1 }

def initLine : Line := ⟨0, 0, 0, 0, none, 0, 0⟩

def lineRefs (p : Params) : List LineRef :=
  (List.range p.zpp.ttLines).flatMap fun id =>
    if id < interleaveSline p then (List.range p.spp.blksPerLine).map (LineRef.sub id) else [.line id]

def initLoc (p : Params) (ref : LineRef) : Loc := if topId ref < p.zpp.pslcLines then .pslc else .normal

def emptyLineMgmt : LineMgmt :=
  { lines := fun _ => initLine, links := IntrusiveList.selfLinked, victimLinePq := fun _ => ⟨fun _ => .line 0, 1⟩,
    freeLineCnt := fun _ => 0, fullLineCnt := fun _ => 0, victimLineCnt := fun _ => 0 }

def initLines (p : Params) : LineMgmt :=
  (lineRefs p).foldl (fun lm ref => addFree lm (initLoc p ref) ref) emptyLineMgmt

def initDescriptor (p : Params) (zid : Nat) : ZoneDescriptor :=
  { state := .empty, zrwav := false, zoneCapacity := capacityLbas p, zslba := zoneToSlba p zid, wp := zoneToSlba p zid }

def initResource (p : Params) : ResType → ZoneResourceInfo
  | .activeZone | .openZone => ⟨0, p.zpp.nrZones, false⟩
  | .zrwaZone => ⟨0, 0, false⟩

def initStats : Stats :=
  ⟨0, 0, 0, 0, 0, 0, 0, 0, 0, 0, 0, 0, 0, 0, 0, 0, fun _ => 0, 0, 0, 0, fun _ => 0⟩

-- zms_init_ftl and zms_realize_ftl on a new SSD.
def zmsRealizeFtl (p : Params) (clock : Nat → Nat) : ZmsFtl :=
  { nand := fun _ => ⟨fun _ => .free, 0, 0, 0⟩, timing := ssdInitTiming clock, l2p := ssdInitL2pcache,
    maptbl := fun _ => .unmapped, rmap := fun _ => none, lm := initLines p,
    wps := fun _ => ⟨none, .normal, ⟨⟨0, 0, 0⟩, 0⟩, 0⟩,
    wfc := fun
      | .normal => ⟨p.zpp.pgsPerLine, p.zpp.pgsPerLine⟩
      | .pslc => ⟨p.zpp.pslcPgsPerLine, p.zpp.pslcPgsPerLine⟩,
    deviceFull := false, pslcFull := false, pendingForMigrating := false, gcAggLpns := [], zoneAggLpns := fun _ => [],
    migratingLinePq := ⟨fun _ => .line 0, 1⟩, lineWriteCnt := 0,
    writeBuffer := fun _ => ⟨none, [], 0, false, 0, 0⟩, zoneDescs := initDescriptor p, resInfos := initResource p,
    nopgLastLpn := 0, lastSlba := 0, lastNlb := 0, lastStime := 0, currentTime := 0, scheduled := [], stats := initStats }

-- What happens to one namespace: an attempt of the dispatcher at a host
-- command, or the worker running the n-th scheduled buffer release.
inductive Event where
  | write (req : Request) (cmd : RwCommand)
  | read (req : Request) (cmd : RwCommand)
  | flush (req : Request)
  | mgmtSend (cmd : ZoneMgmtSend)
  | release (entry : Nat)

def runRelease (ftl : ZmsFtl) (entry : Nat) : Option ZmsFtl :=
  match ftl.scheduled[entry]? with
  | some (index, _) => some { bufferRelease ftl index with scheduled := ftl.scheduled.eraseIdx entry }
  | none => none

inductive Step (p : Params) : ZmsFtl → Event → ZmsFtl → Prop where
  | write (ftl : ZmsFtl) (req : Request) (cmd : RwCommand) (outcome : WriteOutcome)
      (ran : zonedWrite p ftl req cmd = .ok outcome) : Step p ftl (.write req cmd) outcome.ftl
  | read (ftl next : ZmsFtl) (req : Request) (cmd : RwCommand) (done : Completion)
      (ran : zonedRead p ftl req cmd = .ok (done, next)) : Step p ftl (.read req cmd) next
  | flush (ftl next : ZmsFtl) (req : Request) (done : Completion) (ran : znsFlush p ftl req = .ok (done, next)) :
      Step p ftl (.flush req) next
  | mgmtSend (ftl next : ZmsFtl) (cmd : ZoneMgmtSend) (status : NvmeStatus)
      (ran : znsZmgmtSend p ftl cmd = .ok (status, next)) : Step p ftl (.mgmtSend cmd) next
  | release (ftl next : ZmsFtl) (entry : Nat) (ran : runRelease ftl entry = some next) : Step p ftl (.release entry) next

def namespaceSystem (p : Params) : TransitionSystem.System ZmsFtl Event :=
  ⟨fun ftl => ∃ clock, ftl = zmsRealizeFtl p clock, Step p⟩

def Reachable (p : Params) (allowed : ZmsFtl → Event → Prop) (ftl : ZmsFtl) : Prop :=
  TransitionSystem.Reach (namespaceSystem p) allowed ftl

-- The step relation as a function, and runs of it.
def stepEvent (p : Params) (ftl : ZmsFtl) : Event → Option ZmsFtl
  | .write req cmd => match zonedWrite p ftl req cmd with
      | .ok outcome => some outcome.ftl
      | .error _ => none
  | .read req cmd => match zonedRead p ftl req cmd with
      | .ok (_, next) => some next
      | .error _ => none
  | .flush req => match znsFlush p ftl req with
      | .ok (_, next) => some next
      | .error _ => none
  | .mgmtSend cmd => match znsZmgmtSend p ftl cmd with
      | .ok (_, next) => some next
      | .error _ => none
  | .release entry => runRelease ftl entry

def runEvents (p : Params) : List Event → ZmsFtl → Option ZmsFtl
  | [], ftl => some ftl
  | event :: rest, ftl => (stepEvent p ftl event).bind (runEvents p rest)

theorem step_event_step (p : Params) (ftl next : ZmsFtl) (event : Event) (stepped : stepEvent p ftl event = some next) :
    Step p ftl event next := by
  unfold stepEvent at stepped
  cases event with
  | write req cmd =>
      dsimp only at stepped
      split at stepped
      · rename_i outcome ran
        rw [← Option.some.inj stepped]
        exact .write ftl req cmd outcome ran
      · cases stepped
  | read req cmd =>
      dsimp only at stepped
      split at stepped
      · rename_i done after ran
        rw [← Option.some.inj stepped]
        exact .read ftl after req cmd done ran
      · cases stepped
  | flush req =>
      dsimp only at stepped
      split at stepped
      · rename_i done after ran
        rw [← Option.some.inj stepped]
        exact .flush ftl after req done ran
      · cases stepped
  | mgmtSend cmd =>
      dsimp only at stepped
      split at stepped
      · rename_i status after ran
        rw [← Option.some.inj stepped]
        exact .mgmtSend ftl after cmd status ran
      · cases stepped
  | release entry => exact .release ftl next entry stepped

theorem run_events_reach (p : Params) (allowed : ZmsFtl → Event → Prop) (events : List Event) (ftl last : ZmsFtl)
    (reached : Reachable p allowed ftl) (permitted : ∀ event ∈ events, ∀ state, allowed state event)
    (ran : runEvents p events ftl = some last) : Reachable p allowed last := by
  induction events generalizing ftl with
  | nil =>
      rw [← Option.some.inj ran]
      exact reached
  | cons event rest ih =>
      unfold runEvents at ran
      rw [Option.bind_eq_some_iff] at ran
      obtain ⟨next, stepped, ran⟩ := ran
      refine ih next ?_ (fun other member => permitted other (List.mem_cons_of_mem event member)) ran
      exact .next ftl next event reached (permitted event List.mem_cons_self ftl) (step_event_step p ftl next event stepped)

theorem run_events_check (p : Params) (allowed : ZmsFtl → Event → Prop) (events : List Event) (clock : Nat → Nat)
    (check : ZmsFtl → Bool) (permitted : ∀ event ∈ events, ∀ state, allowed state event)
    (ran : (runEvents p events (zmsRealizeFtl p clock)).any check = true) :
    ∃ ftl, Reachable p allowed ftl ∧ check ftl = true := by
  rw [Option.any_eq_true] at ran
  obtain ⟨last, ran, checked⟩ := ran
  exact ⟨last, run_events_reach p allowed events _ last (.start _ ⟨clock, rfl⟩) permitted ran, checked⟩

-- A small device for examples: two dies, both in every line, one plane, one
-- page a flash page, two one-shot pages a block and a write buffer of two pages.
def sampleConfig : DualConfig where
  nandChannels := 1
  lunsPerNandCh := 2
  plnsPerLun := 1
  diesPerZone := 2
  cellMode := 3
  flashPageSize := pgsz
  blkSize := 6 * pgsz
  slcInitBlks := 4
  blksPerPln := 8
  zoneWbSize := 2 * pgsz
  chunkSize := pgsz
  channelsPositive := Nat.one_pos
  lunsPositive := Nat.two_pos
  planesPositive := Nat.one_pos
  diesPositive := Nat.two_pos
  diesWhole := by decide
  groupsWhole := by decide
  cellPositive := by decide
  cellBypass := by decide
  flashPositive := by decide
  flashWhole := by decide
  blkPositive := by decide
  blkWhole := by decide
  slcEnough := by decide
  tlcPresent := by decide
  channelsFit := by decide
  lunsFit := by decide
  planesFit := by decide
  blocksFit := by decide
  pagesFit := by decide
  zoneFits := by decide

def writeEvent (slba nrLba : Nat) : Event := .write ⟨0, 0⟩ ⟨false, slba, nrLba - 1, false⟩

def resetEvent (slba : Nat) : Event := .mgmtSend ⟨false, .resetZone, false, slba⟩

end ConZone
