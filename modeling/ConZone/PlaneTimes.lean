import ConZone.Run
import ConZone.Timing
import Mathlib.Logic.Relation

set_option autoImplicit false

namespace ConZone

-- The timing model moves by NAND commands; whatever else moves it leaves the
-- planes alone.
inductive TimeStep (spp : SsdParams) : Timing → Timing → Prop where
  | nand (timing : Timing) (command : NandCmd) : TimeStep spp timing (ssdAdvanceNand spp timing command).2
  | other (timing next : Timing) (same : next.planes = timing.planes) : TimeStep spp timing next

abbrev TimeSteps (spp : SsdParams) : Timing → Timing → Prop := Relation.ReflTransGen (TimeStep spp)

def submitTime (timing : Timing) (command : NandCmd) : Nat :=
  if command.stime = 0 then timing.clock timing.ticks else command.stime

-- Commands in the order they run, one after the other, all ended by available.
structure Timeline (commands : List NandCmd) (available : Nat) : Prop where
  proper : ∀ command ∈ commands, command.stime ≤ command.ctime
  disjoint : commands.Pairwise fun first second => first.ctime ≤ second.stime
  ends : ∀ command ∈ commands, command.ctime ≤ available

structure PlaneTimeline (plane : NandPlane) : Prop where
  timeline : Timeline plane.cmdQueue plane.nextPlnAvailTime
  depth : plane.cmdQueueDepth = plane.cmdQueue.length

def movedBack (shift : Nat) (command : NandCmd) : NandCmd :=
  { command with stime := command.stime + shift, ctime := command.ctime + shift }

-- What is left of a plane's queue when a command arrives at cmdStime.
def keptCmds (plane : NandPlane) (cmdStime : Nat) : List NandCmd :=
  plane.cmdQueue.filter fun queued => !decide (queued.ctime < cmdStime)

-- The command issued is queued after some of those left there. It starts when
-- it is requested or later, and delays each command after it by what it takes.
structure QueuedAt (before after : NandPlane) (command issued : NandCmd) (cmdStime : Nat) (earlier later : List NandCmd) : Prop where
  same : issued = { command with stime := issued.stime, ctime := issued.ctime }
  starts : cmdStime ≤ issued.stime
  kept : keptCmds before cmdStime = earlier ++ later
  queue : after.cmdQueue = earlier ++ issued :: later.map (movedBack (issued.ctime - issued.stime))

section Channels

theorem chmodel_request_planes (timing : Timing) (channel : ChannelModel) (requestTime length : Nat) :
    (chmodelRequest timing channel requestTime length).2.2.planes = timing.planes := rfl

theorem pcie_planes (timing : Timing) (requestTime length : Nat) :
    (ssdAdvancePcie timing requestTime length).2.planes = timing.planes := rfl

theorem transfer_planes (ch maxXfer fuel remaining : Nat) (timing : Timing) (chnlTime : Nat) :
    (transfer timing ch maxXfer fuel remaining chnlTime).2.planes = timing.planes := by
  induction fuel generalizing timing remaining chnlTime with
  | zero => rfl
  | succ fuel ih =>
      by_cases finished : remaining = 0
      · simp [transfer, finished]
      · simp only [transfer, if_neg finished]
        rw [ih]
        exact chmodel_request_planes timing (timing.channels ch) chnlTime (min remaining maxXfer)

def TransfersLater (ch maxXfer : Nat) : Nat → Nat → Nat → Timing → Prop
  | 0, _, _, _ => True
  | fuel + 1, remaining, chnlTime, timing =>
      if remaining = 0 then True
      else
        let (chnlEtime, channel, next) := chmodelRequest timing (timing.channels ch) chnlTime (min remaining maxXfer)
        chnlTime ≤ chnlEtime ∧
          TransfersLater ch maxXfer fuel (remaining - min remaining maxXfer) chnlEtime
            { next with channels := Function.update next.channels ch channel }

theorem transfer_later (ch maxXfer fuel remaining : Nat) (timing : Timing) (chnlTime : Nat)
    (later : TransfersLater ch maxXfer fuel remaining chnlTime timing) :
    chnlTime ≤ (transfer timing ch maxXfer fuel remaining chnlTime).1 := by
  induction fuel generalizing timing remaining chnlTime with
  | zero => exact Nat.le_refl chnlTime
  | succ fuel ih =>
      by_cases finished : remaining = 0
      · simp [transfer, finished]
      · simp only [TransfersLater, if_neg finished] at later
        simp only [transfer, if_neg finished]
        exact Nat.le_trans later.1 (ih _ _ _ later.2)

end Channels

section Timelines

theorem timeline_empty (available : Nat) : Timeline [] available :=
  ⟨fun _ member => absurd member List.not_mem_nil, .nil, fun _ member => absurd member List.not_mem_nil⟩

theorem timeline_later (commands : List NandCmd) (available later : Nat) (line : Timeline commands available)
    (grows : available ≤ later) : Timeline commands later :=
  ⟨line.proper, line.disjoint, fun command member => Nat.le_trans (line.ends command member) grows⟩

theorem timeline_sublist (commands kept : List NandCmd) (available : Nat) (line : Timeline commands available)
    (part : kept.Sublist commands) : Timeline kept available :=
  ⟨fun command member => line.proper command (part.subset member), line.disjoint.sublist part,
    fun command member => line.ends command (part.subset member)⟩

theorem timeline_last (commands : List NandCmd) (available : Nat) (command : NandCmd) (line : Timeline commands available)
    (waits : available ≤ command.stime) (runs : command.stime ≤ command.ctime) :
    Timeline (commands ++ [command]) command.ctime := by
  refine ⟨?_, ?_, ?_⟩
  · intro queued member
    rcases List.mem_append.mp member with old | new
    · exact line.proper queued old
    · rw [List.mem_singleton.mp new]
      exact runs
  · apply List.pairwise_append.mpr
    refine ⟨line.disjoint, List.pairwise_singleton _ _, ?_⟩
    intro queued old new member
    rw [List.mem_singleton.mp member]
    exact Nat.le_trans (line.ends queued old) waits
  · intro queued member
    rcases List.mem_append.mp member with old | new
    · exact Nat.le_trans (line.ends queued old) (Nat.le_trans waits runs)
    · rw [List.mem_singleton.mp new]

theorem timeline_delayed (commands : List NandCmd) (available shift : Nat) (line : Timeline commands available) :
    Timeline (commands.map (movedBack shift)) (available + shift) := by
  refine ⟨?_, ?_, ?_⟩
  · intro moved member
    obtain ⟨queued, old, same⟩ := List.mem_map.mp member
    rw [← same]
    exact Nat.add_le_add_right (line.proper queued old) shift
  · apply List.pairwise_map.mpr
    exact line.disjoint.imp fun order => Nat.add_le_add_right order shift
  · intro moved member
    obtain ⟨queued, old, same⟩ := List.mem_map.mp member
    rw [← same]
    exact Nat.add_le_add_right (line.ends queued old) shift

theorem timeline_append (earlier later : List NandCmd) (middle available : Nat) (first : Timeline earlier middle)
    (second : Timeline later available) (after : ∀ command ∈ later, middle ≤ command.stime) (grows : middle ≤ available) :
    Timeline (earlier ++ later) available := by
  refine ⟨?_, ?_, ?_⟩
  · intro command member
    rcases List.mem_append.mp member with old | new
    · exact first.proper command old
    · exact second.proper command new
  · apply List.pairwise_append.mpr
    refine ⟨first.disjoint, second.disjoint, ?_⟩
    intro command old next new
    exact Nat.le_trans (first.ends command old) (after next new)
  · intro command member
    rcases List.mem_append.mp member with old | new
    · exact Nat.le_trans (first.ends command old) grows
    · exact second.ends command new

-- A command that starts when the next one would have started fits in front of
-- it once that and all later ones have moved back by the time it takes.
theorem timeline_overtake (earlier rest : List NandCmd) (overtaken command : NandCmd) (available : Nat)
    (line : Timeline (earlier ++ overtaken :: rest) available) (takes : command.stime = overtaken.stime)
    (runs : command.stime ≤ command.ctime) :
    Timeline (earlier ++ command :: (overtaken :: rest).map (movedBack (command.ctime - command.stime)))
      (available + (command.ctime - command.stime)) := by
  obtain ⟨_, ordered, apart⟩ := List.pairwise_append.mp line.disjoint
  have behind := (List.pairwise_cons.mp ordered).1
  have starts : ∀ queued ∈ overtaken :: rest, overtaken.stime ≤ queued.stime := by
    intro queued member
    rcases List.mem_cons.mp member with same | later
    · rw [same]
    · exact Nat.le_trans (line.proper overtaken (by simp)) (behind queued later)
  have exceeds : overtaken.stime ≤ available := Nat.le_trans (line.proper overtaken (by simp)) (line.ends overtaken (by simp))
  have front : Timeline earlier command.stime := by
    have part := timeline_sublist _ earlier available line (List.sublist_append_left _ _)
    refine ⟨part.proper, part.disjoint, ?_⟩
    intro queued member
    rw [takes]
    exact apart queued member overtaken (by simp)
  have inserted := timeline_last earlier command.stime command front (Nat.le_refl _) runs
  have back := timeline_delayed _ available (command.ctime - command.stime)
    (timeline_sublist _ (overtaken :: rest) available line (List.sublist_append_right _ _))
  have whole := timeline_append _ _ command.ctime _ inserted back ?_ (by omega)
  · rw [List.append_assoc, List.singleton_append] at whole
    exact whole
  · intro moved member
    obtain ⟨queued, old, same⟩ := List.mem_map.mp member
    have order := starts queued old
    rw [← same]
    dsimp only [movedBack]
    omega

end Timelines

section Planes

inductive PlacedAt (plane : NandPlane) (command : NandCmd) (cmdStime : Nat) : Placed → Prop where
  | last (waits : Nat) (idle : waits = max plane.nextPlnAvailTime cmdStime) :
      PlacedAt plane command cmdStime ⟨keptCmds plane cmdStime, { command with stime := waits }, [], false⟩
  | overtaking (before : List NandCmd) (overtaken : NandCmd) (rest : List NandCmd)
      (queue : keptCmds plane cmdStime = before ++ overtaken :: rest) (later : cmdStime < overtaken.stime) :
      PlacedAt plane command cmdStime ⟨before, { command with stime := overtaken.stime }, overtaken :: rest, true⟩

theorem plane_getstime_placed (plane : NandPlane) (command : NandCmd) (cmdStime : Nat) :
    PlacedAt plane command cmdStime (planeGetstime plane command cmdStime).2 := by
  unfold planeGetstime
  dsimp only
  split
  · rename_i overtaken rest _ found
    have met := List.head?_dropWhile_not (fun queued => !overtakes command cmdStime queued) (keptCmds plane cmdStime)
    rw [show (keptCmds plane cmdStime).dropWhile (fun queued => !overtakes command cmdStime queued) = overtaken :: rest from found] at met
    have taken : overtakes command cmdStime overtaken = true := by simpa using met
    simp only [overtakes, Bool.and_eq_true, decide_eq_true_eq] at taken
    refine .overtaking _ overtaken rest ?_ taken.1.2
    rw [← found]
    exact (List.takeWhile_append_dropWhile).symm
  · exact .last _ rfl

theorem plane_getstime_state (plane : NandPlane) (command : NandCmd) (cmdStime : Nat)
    (depth : plane.cmdQueueDepth = plane.cmdQueue.length) :
    (planeGetstime plane command cmdStime).1.nextPlnAvailTime = plane.nextPlnAvailTime ∧
      (planeGetstime plane command cmdStime).1.cmdQueueDepth = (keptCmds plane cmdStime).length + 1 := by
  have split := List.length_eq_countP_add_countP (fun queued : NandCmd => decide (queued.ctime < cmdStime)) (l := plane.cmdQueue)
  have rest : (keptCmds plane cmdStime).length = plane.cmdQueue.countP fun queued => !decide (queued.ctime < cmdStime) :=
    (List.countP_eq_length_filter).symm
  have left : plane.cmdQueueDepth - plane.cmdQueue.countP (fun queued => decide (queued.ctime < cmdStime)) + 1 =
      (keptCmds plane cmdStime).length + 1 := by
    rw [depth, rest]
    simp only [Bool.not_eq_true, Bool.decide_eq_false] at split
    omega
  unfold planeGetstime
  dsimp only
  split
  · exact ⟨rfl, left⟩
  · exact ⟨rfl, left⟩

theorem word_difference (first second : Nat) (order : first ≤ second) (fits : second < 2 ^ 64) :
    u64 (second + 2 ^ 64 - first) = second - first := by
  unfold u64
  omega

theorem delayed_fits (commands : List NandCmd) (available shift : Nat) (line : Timeline commands available)
    (fits : available + shift < 2 ^ 64) : commands.map (delayed shift) = commands.map (movedBack shift) := by
  apply List.map_congr_left
  intro command member
  have ends := line.ends command member
  have runs := line.proper command member
  have first : u64 (command.stime + shift) = command.stime + shift := Nat.mod_eq_of_lt (by omega)
  have last : u64 (command.ctime + shift) = command.ctime + shift := Nat.mod_eq_of_lt (by omega)
  rw [delayed, movedBack, first, last]

theorem plane_update_overtaking (state : NandPlane) (before rest : List NandCmd) (command overtaken : NandCmd) (cmdEtime : Nat)
    (line : Timeline (before ++ overtaken :: rest) state.nextPlnAvailTime) (later : command.stime ≤ cmdEtime)
    (ends : cmdEtime < 2 ^ 64) (fits : state.nextPlnAvailTime + (cmdEtime - command.stime) < 2 ^ 64) :
    (planeUpdate state ⟨before, command, overtaken :: rest, true⟩ cmdEtime).cmdQueue =
        before ++ { command with ctime := cmdEtime } :: (overtaken :: rest).map (movedBack (cmdEtime - command.stime)) ∧
      (planeUpdate state ⟨before, command, overtaken :: rest, true⟩ cmdEtime).nextPlnAvailTime =
        state.nextPlnAvailTime + (cmdEtime - command.stime) := by
  have back := timeline_sublist _ (overtaken :: rest) _ line (List.sublist_append_right _ _)
  have shift := word_difference command.stime cmdEtime later ends
  unfold planeUpdate
  simp only [shift, if_true]
  rw [delayed_fits _ _ _ back fits]
  exact ⟨rfl, Nat.mod_eq_of_lt fits⟩

theorem plane_update_timeline (plane state : NandPlane) (command : NandCmd) (cmdStime cmdEtime : Nat) (placed : Placed)
    (sound : PlaneTimeline plane) (place : PlacedAt plane command cmdStime placed)
    (avail : state.nextPlnAvailTime = plane.nextPlnAvailTime) (depth : state.cmdQueueDepth = (keptCmds plane cmdStime).length + 1)
    (later : placed.command.stime ≤ cmdEtime) (ends : cmdEtime < 2 ^ 64)
    (fits : placed.preemp = true → plane.nextPlnAvailTime + (cmdEtime - placed.command.stime) < 2 ^ 64) :
    PlaneTimeline (planeUpdate state placed cmdEtime) ∧
      ∃ issued earlier later, QueuedAt plane (planeUpdate state placed cmdEtime) command issued cmdStime earlier later := by
  have kept : Timeline (keptCmds plane cmdStime) plane.nextPlnAvailTime :=
    timeline_sublist _ _ _ sound.timeline List.filter_sublist
  cases place with
  | last waits idle =>
      dsimp only at later
      have line := timeline_last _ _ { command with stime := waits, ctime := cmdEtime } kept (by dsimp only; omega) later
      refine ⟨⟨line, ?_⟩, { command with stime := waits, ctime := cmdEtime }, keptCmds plane cmdStime, [], rfl, ?_, ?_, rfl⟩
      · simp [planeUpdate, depth]
      · dsimp only
        omega
      · rw [List.append_nil]
  | overtaking before overtaken rest queue starts =>
      dsimp only at later fits
      have room := fits rfl
      rw [queue] at kept
      rw [← avail] at kept room
      have line := timeline_overtake before rest overtaken { command with stime := overtaken.stime, ctime := cmdEtime } _ kept rfl later
      obtain ⟨moved, available⟩ := plane_update_overtaking state before rest { command with stime := overtaken.stime } overtaken cmdEtime
        kept later ends room
      refine ⟨⟨?_, ?_⟩, { command with stime := overtaken.stime, ctime := cmdEtime }, before, overtaken :: rest, rfl,
        Nat.le_of_lt starts, queue, moved⟩
      · rw [moved, available]
        exact line
      · rw [moved]
        simp [planeUpdate, depth, queue]
        omega

end Planes

section Issuing

variable (spp : SsdParams)

def clocked (timing : Timing) (command : NandCmd) : Timing := if command.stime = 0 then (readClock timing).2 else timing

def placedOn (timing : Timing) (command : NandCmd) : Placed :=
  (planeGetstime (timing.planes command.page.block.plane) command (submitTime timing command)).2

def nandStart (timing : Timing) (command : NandCmd) : Nat := (placedOn timing command).command.stime

def readLat (command : NandCmd) : Nat := pgRdLat (cellModeOf spp command) (cellOf spp command)

def nandEnd (timing : Timing) (command : NandCmd) : Nat :=
  match command.cmd with
  | .nandRead => (transfer (clocked timing command) command.page.block.plane.ch (spp.pgsPerFlashpg * pgsz) command.xferSize
      command.xferSize (nandStart timing command + readLat spp command)).1
  | .nandWrite => (chmodelRequest (clocked timing command) ((clocked timing command).channels command.page.block.plane.ch)
      (nandStart timing command) command.xferSize).1 + pgWrLat (cellModeOf spp command)
  | .nandErase => nandStart timing command + blkErLat
  | .nandNop => max (timing.planes command.page.block.plane).nextPlnAvailTime (submitTime timing command)

-- The requests that a command makes of its channel complete no earlier than made.
def ChannelsLater (timing : Timing) (command : NandCmd) : Prop :=
  match command.cmd with
  | .nandRead => TransfersLater command.page.block.plane.ch (spp.pgsPerFlashpg * pgsz) command.xferSize command.xferSize
      (nandStart timing command + readLat spp command) (clocked timing command)
  | .nandWrite => nandStart timing command ≤ (chmodelRequest (clocked timing command)
      ((clocked timing command).channels command.page.block.plane.ch) (nandStart timing command) command.xferSize).1
  | .nandErase | .nandNop => True

-- No time of the command, nor of those it delays, passes 2^64.
structure InTime (timing : Timing) (command : NandCmd) : Prop where
  read : command.cmd = .nandRead → nandStart timing command + readLat spp command < 2 ^ 64
  ends : nandEnd spp timing command < 2 ^ 64
  delays : (placedOn timing command).preemp = true →
    (timing.planes command.page.block.plane).nextPlnAvailTime + (nandEnd spp timing command - nandStart timing command) < 2 ^ 64

theorem nand_command_submitted (timing : Timing) (command : NandCmd) :
    (if command.stime = 0 then readClock timing else (command.stime, timing)) = (submitTime timing command, clocked timing command) := by
  unfold submitTime clocked
  split <;> rfl

theorem clocked_planes (timing : Timing) (command : NandCmd) : (clocked timing command).planes = timing.planes := by
  unfold clocked
  split <;> rfl

theorem advance_nand_runs (timing : Timing) (command : NandCmd) (queues : command.cmd ≠ .nandNop)
    (later : ChannelsLater spp timing command) (inTime : InTime spp timing command) :
    nandStart timing command ≤ nandEnd spp timing command ∧ ∃ middle, middle.planes = timing.planes ∧
      (ssdAdvanceNand spp timing command).2 = putPlane middle command.page.block.plane
        (planeUpdate (planeGetstime (timing.planes command.page.block.plane) command (submitTime timing command)).1
          (placedOn timing command) (nandEnd spp timing command)) := by
  have same := clocked_planes timing command
  have ends := inTime.ends
  unfold ssdAdvanceNand
  rw [nand_command_submitted]
  dsimp only
  rw [same]
  cases kind : command.cmd with
  | nandRead =>
      have start : u64 ((planeGetstime (timing.planes command.page.block.plane) command (submitTime timing command)).2.command.stime +
          pgRdLat (cellModeOf spp command) (cellOf spp command)) = nandStart timing command + readLat spp command :=
        Nat.mod_eq_of_lt (inTime.read kind)
      simp only [ChannelsLater, kind] at later
      simp only [nandEnd, kind, start]
      refine ⟨?_, _, (transfer_planes _ _ _ _ (clocked timing command) _).trans same, rfl⟩
      exact Nat.le_trans (Nat.le_add_right _ _) (transfer_later _ _ _ _ _ _ later)
  | nandWrite =>
      simp only [ChannelsLater, kind] at later
      simp only [nandEnd, kind] at ends ⊢
      have word : u64 ((chmodelRequest (clocked timing command) ((clocked timing command).channels command.page.block.plane.ch)
          (planeGetstime (timing.planes command.page.block.plane) command (submitTime timing command)).2.command.stime
          command.xferSize).1 + pgWrLat (cellModeOf spp command)) = _ := Nat.mod_eq_of_lt ends
      rw [word]
      refine ⟨Nat.le_trans later (Nat.le_add_right _ _), _, ?_, rfl⟩
      exact same
  | nandErase =>
      simp only [nandEnd, kind] at ends ⊢
      have word : u64 ((planeGetstime (timing.planes command.page.block.plane) command (submitTime timing command)).2.command.stime +
          blkErLat) = _ := Nat.mod_eq_of_lt ends
      rw [word]
      exact ⟨Nat.le_add_right _ _, clocked timing command, same, rfl⟩
  | nandNop => exact absurd kind queues

theorem advance_nand_nop (timing : Timing) (command : NandCmd) (idle : command.cmd = .nandNop) :
    (ssdAdvanceNand spp timing command).1 = nandEnd spp timing command ∧
      (ssdAdvanceNand spp timing command).2 = putPlane (clocked timing command) command.page.block.plane
        { timing.planes command.page.block.plane with nextPlnAvailTime := nandEnd spp timing command } := by
  unfold ssdAdvanceNand nandEnd
  rw [nand_command_submitted, idle]
  dsimp only
  rw [clocked_planes]
  exact ⟨rfl, rfl⟩

theorem put_plane_other (middle timing : Timing) (plane other : Plane) (state : NandPlane) (same : middle.planes = timing.planes)
    (apart : other ≠ plane) : (putPlane middle plane state).planes other = timing.planes other := by
  unfold putPlane
  dsimp only
  rw [Function.update_of_ne apart, same]

theorem advance_nand_other (timing : Timing) (command : NandCmd) (plane : Plane) (apart : plane ≠ command.page.block.plane) :
    (ssdAdvanceNand spp timing command).2.planes plane = timing.planes plane := by
  have same := clocked_planes timing command
  unfold ssdAdvanceNand
  rw [nand_command_submitted]
  cases command.cmd with
  | nandRead => exact put_plane_other _ timing _ plane _ ((transfer_planes _ _ _ _ (clocked timing command) _).trans same) apart
  | nandWrite => exact put_plane_other _ timing _ plane _ same apart
  | nandErase => exact put_plane_other _ timing _ plane _ same apart
  | nandNop => exact put_plane_other _ timing _ plane _ same apart

theorem advance_nand_timeline (timing : Timing) (command : NandCmd) (sound : PlaneTimeline (timing.planes command.page.block.plane))
    (channels : ChannelsLater spp timing command) (inTime : InTime spp timing command) :
    PlaneTimeline ((ssdAdvanceNand spp timing command).2.planes command.page.block.plane) ∧
      (command.cmd ≠ .nandNop → ∃ issued earlier later, QueuedAt (timing.planes command.page.block.plane)
        ((ssdAdvanceNand spp timing command).2.planes command.page.block.plane) command issued (submitTime timing command) earlier later) := by
  by_cases idle : command.cmd = .nandNop
  · obtain ⟨_, ran⟩ := advance_nand_nop spp timing command idle
    have later : (timing.planes command.page.block.plane).nextPlnAvailTime ≤ nandEnd spp timing command := by
      unfold nandEnd
      rw [idle]
      exact Nat.le_max_left _ _
    rw [ran]
    simp only [putPlane, Function.update_self]
    exact ⟨⟨timeline_later _ _ _ sound.timeline later, sound.depth⟩, fun runs => absurd idle runs⟩
  · obtain ⟨later, middle, _, ran⟩ := advance_nand_runs spp timing command idle channels inTime
    have place := plane_getstime_placed (timing.planes command.page.block.plane) command (submitTime timing command)
    obtain ⟨avail, depth⟩ := plane_getstime_state (timing.planes command.page.block.plane) command (submitTime timing command) sound.depth
    rw [ran]
    simp only [putPlane, Function.update_self]
    obtain ⟨line, queued⟩ := plane_update_timeline _ _ command (submitTime timing command) _ _ sound place avail depth later
      inTime.ends inTime.delays
    exact ⟨line, fun _ => queued⟩

theorem start_timeline (plane : NandPlane) (empty : plane.cmdQueue = []) (depth : plane.cmdQueueDepth = 0) : PlaneTimeline plane := by
  refine ⟨?_, ?_⟩
  · rw [empty]
    exact timeline_empty _
  · rw [depth, empty]
    rfl

-- Commands of any kind and type, at any times, and whatever else leaves the
-- planes alone in between.
def planeSystem : TransitionSystem.System Timing (Option NandCmd) :=
  ⟨fun timing => timing.planes = fun _ => ssdInitNandPlane,
    fun before event after =>
      match event with
      | some command => after = (ssdAdvanceNand spp before command).2
      | none => after.planes = before.planes⟩

-- What is promised of a command: a read moves something, the times are 64-bit
-- words and the channel requests complete no earlier than made.
structure Requested (timing : Timing) (command : NandCmd) : Prop where
  moves : command.cmd = .nandRead → command.xferSize ≠ 0
  word : submitTime timing command < 2 ^ 64
  channels : ChannelsLater spp timing command

def Requests (timing : Timing) (event : Option NandCmd) : Prop := ∀ command, event = some command → Requested spp timing command

def RequestsInTime (timing : Timing) (event : Option NandCmd) : Prop :=
  ∀ command, event = some command → Requested spp timing command ∧ InTime spp timing command

theorem timelines_invariant :
    TransitionSystem.Invariant (planeSystem spp) (RequestsInTime spp) fun timing => ∀ plane, PlaneTimeline (timing.planes plane) := by
  refine ⟨?_, ?_⟩
  · intro timing init plane
    have idle : timing.planes = fun _ => ssdInitNandPlane := init
    rw [idle]
    exact start_timeline _ rfl rfl
  · intro before after event sound requests taken plane
    cases event with
    | none =>
        have same : after.planes = before.planes := taken
        rw [same]
        exact sound plane
    | some command =>
        have ran : after = (ssdAdvanceNand spp before command).2 := taken
        obtain ⟨requested, inTime⟩ := requests command rfl
        rw [ran]
        by_cases here : plane = command.page.block.plane
        · rw [here]
          exact (advance_nand_timeline spp before command (sound _) requested.channels inTime).1
        · rw [advance_nand_other spp before command plane here]
          exact sound plane

theorem advance_nand_nop_time (timing : Timing) (command : NandCmd) (idle : command.cmd = .nandNop) :
    submitTime timing command ≤ (ssdAdvanceNand spp timing command).1 ∧
      ((ssdAdvanceNand spp timing command).2.planes command.page.block.plane).cmdQueue =
        (timing.planes command.page.block.plane).cmdQueue := by
  obtain ⟨ends, ran⟩ := advance_nand_nop spp timing command idle
  rw [ends, ran]
  simp only [putPlane, Function.update_self, nandEnd, idle]
  exact ⟨Nat.le_max_right _ _, trivial⟩

-- Every queue is a timeline, and a command is queued with a start no earlier
-- than its request and with those behind it delayed by what it takes.
theorem plane_commands_timeline (timing : Timing) (reached : TransitionSystem.Reach (planeSystem spp) (RequestsInTime spp) timing) :
    (∀ plane, PlaneTimeline (timing.planes plane)) ∧
      ∀ command, Requested spp timing command → InTime spp timing command →
        (command.cmd = .nandNop → submitTime timing command ≤ (ssdAdvanceNand spp timing command).1 ∧
          ((ssdAdvanceNand spp timing command).2.planes command.page.block.plane).cmdQueue =
            (timing.planes command.page.block.plane).cmdQueue) ∧
        (command.cmd ≠ .nandNop → ∃ issued earlier later, QueuedAt (timing.planes command.page.block.plane)
          ((ssdAdvanceNand spp timing command).2.planes command.page.block.plane) command issued (submitTime timing command) earlier later) := by
  have sound := TransitionSystem.reach_invariant _ _ _ (timelines_invariant spp) timing reached
  refine ⟨sound, fun command requested inTime => ⟨advance_nand_nop_time spp timing command, fun runs => ?_⟩⟩
  exact (advance_nand_timeline spp timing command (sound _) requested.channels inTime).2 runs

theorem fold_max_bound (timing : Timing) (planes : List Plane) (start : Nat) :
    start ≤ planes.foldl (fun time plane => max time (timing.planes plane).nextPlnAvailTime) start ∧
      ∀ plane ∈ planes, (timing.planes plane).nextPlnAvailTime ≤
        planes.foldl (fun time plane => max time (timing.planes plane).nextPlnAvailTime) start := by
  induction planes generalizing start with
  | nil => exact ⟨Nat.le_refl start, fun _ member => nomatch member⟩
  | cons first rest ih =>
      obtain ⟨lower, each⟩ := ih (max start (timing.planes first).nextPlnAvailTime)
      rw [List.foldl_cons]
      refine ⟨Nat.le_trans (Nat.le_max_left _ _) lower, ?_⟩
      intro plane member
      rcases List.mem_cons.mp member with same | later
      · rw [same]
        exact Nat.le_trans (Nat.le_max_right _ _) lower
      · exact each plane later

theorem next_idle_time_bound (timing : Timing) (plane : Plane) (member : plane ∈ planesOf spp) :
    (timing.planes plane).nextPlnAvailTime ≤ (ssdNextIdleTime spp timing).1 :=
  (fold_max_bound timing (planesOf spp) _).2 plane member

end Issuing

def idleTiming : Timing :=
  { planes := fun _ => ssdInitNandPlane, channels := fun _ => ⟨0, 0, 0, 1, 0, 0, fun _ => 1, false⟩,
    pcie := ⟨0, 0, 0, 1, 0, 0, fun _ => 1, false⟩, clock := fun _ => 1, ticks := 0 }

def onePlaneSpp : SsdParams := ⟨1, 1, 1, 3, 4, 0, 0, 0, 4, 12, 12, 12, 4, 4, 4, 1, 1, 1⟩

def eraseAt (type : IoType) (stime blk : Nat) : NandCmd := ⟨type, .nandErase, 0, stime, ⟨⟨⟨0, 0, 0⟩, blk⟩, 0⟩, 0⟩

def afterErase (timing : Timing) (type : IoType) (stime blk : Nat) : Timing :=
  (ssdAdvanceNand onePlaneSpp timing (eraseAt type stime blk)).2

theorem erase_requested (timing : Timing) (type : IoType) (stime blk : Nat) (late : 0 < stime) (word : stime < 2 ^ 64) :
    Requested onePlaneSpp timing (eraseAt type stime blk) := by
  have request : submitTime timing (eraseAt type stime blk) = stime := if_neg (Nat.ne_of_gt late)
  exact ⟨fun read => (nomatch read), by rw [request]; exact word, trivial⟩

theorem erase_reach (timing : Timing) (type : IoType) (stime blk : Nat) (late : 0 < stime) (word : stime < 2 ^ 64)
    (inTime : InTime onePlaneSpp timing (eraseAt type stime blk))
    (reached : TransitionSystem.Reach (planeSystem onePlaneSpp) (RequestsInTime onePlaneSpp) timing) :
    TransitionSystem.Reach (planeSystem onePlaneSpp) (RequestsInTime onePlaneSpp) (afterErase timing type stime blk) := by
  refine TransitionSystem.Reach.next timing _ (some (eraseAt type stime blk)) reached ?_ rfl
  intro command same
  cases same
  exact ⟨erase_requested timing type stime blk late word, inTime⟩

-- Of two migration erases the second still waits when a host's erase of another
-- block overtakes it.
theorem erase_overtakes_migration :
    ∃ timing, PlaneTimeline ((afterErase timing .userIo 30 2).planes ⟨0, 0, 0⟩) ∧
      (∃ issued earlier later, QueuedAt (timing.planes ⟨0, 0, 0⟩) ((afterErase timing .userIo 30 2).planes ⟨0, 0, 0⟩)
        (eraseAt .userIo 30 2) issued 30 earlier later) ∧
      ((afterErase timing .userIo 30 2).planes ⟨0, 0, 0⟩).cmdQueue.map (fun command => (command.type, command.stime, command.ctime)) =
        [(.migrateIo, 10, 3500010), (.userIo, 3500010, 7000010), (.migrateIo, 7000010, 10500010)] := by
  have start : TransitionSystem.Reach (planeSystem onePlaneSpp) (RequestsInTime onePlaneSpp) idleTiming :=
    .start idleTiming (show _ = _ from rfl)
  have first : InTime onePlaneSpp idleTiming (eraseAt .migrateIo 10 1) := ⟨fun read => (nomatch read), by decide, by decide⟩
  have second : InTime onePlaneSpp (afterErase idleTiming .migrateIo 10 1) (eraseAt .migrateIo 20 1) :=
    ⟨fun read => (nomatch read), by decide, by decide⟩
  have third : InTime onePlaneSpp (afterErase (afterErase idleTiming .migrateIo 10 1) .migrateIo 20 1) (eraseAt .userIo 30 2) :=
    ⟨fun read => (nomatch read), by decide, by decide⟩
  have migrating := erase_reach _ .migrateIo 20 1 (by decide) (by decide) second
    (erase_reach _ .migrateIo 10 1 (by decide) (by decide) first start)
  have overtaken := erase_reach _ .userIo 30 2 (by decide) (by decide) third migrating
  have issues := (plane_commands_timeline onePlaneSpp _ migrating).2 (eraseAt .userIo 30 2)
    (erase_requested _ .userIo 30 2 (by decide) (by decide)) third
  refine ⟨_, (plane_commands_timeline onePlaneSpp _ overtaken).1 _, issues.2 (fun same => nomatch same), ?_⟩
  decide

-- An erase requested at the last moment of the 64-bit clock ends long before it starts.
theorem erase_time_wraps :
    ¬∀ spp timing, TransitionSystem.Reach (planeSystem spp) (Requests spp) timing → ∀ plane, PlaneTimeline (timing.planes plane) := by
  intro claim
  have start : TransitionSystem.Reach (planeSystem onePlaneSpp) (Requests onePlaneSpp) idleTiming :=
    .start idleTiming (show _ = _ from rfl)
  have reached : TransitionSystem.Reach (planeSystem onePlaneSpp) (Requests onePlaneSpp) (afterErase idleTiming .userIo (2 ^ 64 - 1) 0) := by
    refine .next idleTiming _ (some (eraseAt .userIo (2 ^ 64 - 1) 0)) start ?_ rfl
    intro command same
    cases same
    exact erase_requested idleTiming .userIo (2 ^ 64 - 1) 0 (by decide) (by decide)
  have queued := (claim onePlaneSpp _ reached ⟨0, 0, 0⟩).timeline.proper
  have wrapped : ¬∀ command ∈ ((afterErase idleTiming .userIo (2 ^ 64 - 1) 0).planes ⟨0, 0, 0⟩).cmdQueue,
      command.stime ≤ command.ctime := by decide
  exact wrapped queued

end ConZone
