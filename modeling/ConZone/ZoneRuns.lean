import ConZone.ZoneActions
import ConZone.MediaConfigs

set_option autoImplicit false

namespace ConZone

-- The commands whose effect on the pages of the zones is that on a store:
-- writes are of whole pages and stay in the zone they name, and a zone of a TLC
-- namespace is reset with all of its pages on the medium or none.
def Orderly (p : Params) (ftl : ZmsFtl) : Event → Prop
  | .write _ cmd => WholePages cmd ∧ PlacedInZone p ftl cmd
  | .mgmtSend cmd => ∀ zid, zid < p.zpp.nrZones → resetZones p cmd zid = true → Clearable p ftl zid
  | .read .. | .flush _ | .release _ => True

def takenPgs (p : Params) (ftl : ZmsFtl) (req : Request) (cmd : RwCommand) : Nat :=
  match zonedWrite p ftl req cmd with
  | .ok outcome => if outcome.done.any (fun done => decide (done.status = .success)) then nrLbasFromRwCmd cmd / secsPerPg else 0
  | .error _ => 0

def storeOp (p : Params) (ftl : ZmsFtl) : Event → ZoneStore.Op
  | .write req cmd => .append (lbaToZone p cmd.slba) (takenPgs p ftl req cmd)
  | .flush _ => .flush
  | .mgmtSend cmd => .reset (resetZones p cmd)
  | .read .. | .release _ => .other

structure StandsFor (p : Params) (resting : ZmsFtl → Prop) (ftl : ZmsFtl) (store : ZoneStore.Store) : Prop where
  accounted : Accounted p ftl
  online : Online p ftl
  settled : Settled p resting ftl store.landed store.waiting

section Simulating

variable (p : Params) (loc : Loc) (resting : ZmsFtl → Prop) (contract : MediaContract p loc resting) (space : ZonedSpace p)
variable (buffers : 0 < p.zpp.nrWb)

theorem realize_settled (starts : ∀ clock, resting (zmsRealizeFtl p clock)) (clock : Nat → Nat) :
    Settled p resting (zmsRealizeFtl p clock) (fun _ => 0) (fun _ => 0) := by
  have unmapped : ∀ lpn, ¬Mapped p (zmsRealizeFtl p clock) lpn := by
    intro lpn there
    obtain ⟨page, map, entry⟩ := (mapped_entry p _ lpn).mp there
    unfold getMaptblEnt at entry
    split at entry
    · cases entry
    · cases entry
  refine ⟨starts clock, ⟨?_, ?_, ?_, ?_, ?_, ?_, ?_, ?_⟩, ?_⟩
  · intro zid _ i _
    exact iff_of_false (unmapped _) (Nat.not_lt_zero i)
  · exact fun zid _ => Nat.zero_le _
  · exact fun index _ zid own => nomatch own
  · exact fun _ _ _ => rfl
  · exact fun _ _ => rfl
  · exact fun index other zid _ _ own => nomatch own
  · exact fun _ _ => rfl
  · exact fun _ _ => rfl
  · exact fun _ _ => rfl

include contract space buffers in
theorem write_stands (ftl : ZmsFtl) (store : ZoneStore.Store) (req : Request) (cmd : RwCommand) (outcome : WriteOutcome)
    (stands : StandsFor p resting ftl store) (whole : WholePages cmd ∧ PlacedInZone p ftl cmd) (ran : zonedWrite p ftl req cmd = .ok outcome) :
    ∃ next, ZoneStore.Step p.zpp.pgsPerZone store (storeOp p ftl (.write req cmd)) next ∧ StandsFor p resting outcome.ftl next := by
  have inside : lbaToZone p cmd.slba < p.zpp.nrZones := by
    have dispatched := ran
    unfold zonedWrite at dispatched
    rw [lpn_zone_of_lba] at dispatched
    split at dispatched
    · cases dispatched
    · rename_i below
      exact Nat.lt_of_not_le below
  obtain ⟨mapped', buffered', after, grows, total⟩ := zoned_write_settled p loc resting contract space buffers store.landed store.waiting ftl req
    cmd outcome stands.accounted whole stands.settled ran
  refine ⟨⟨mapped', buffered'⟩, .append _ _ ⟨mapped', buffered'⟩ grows ?_ (after.spread.fits _ inside),
    write_accounted p ftl req cmd outcome stands.accounted ran,
    zoned_write_online p ftl stands.online req cmd outcome stands.accounted ran, after⟩
  intro zone
  refine (total zone).trans ?_
  unfold takenPgs
  rw [ran]
  dsimp only
  by_cases own : zone = lbaToZone p cmd.slba
  · rw [if_pos own]
    cases outcome.done.any (fun done => decide (done.status = .success)) with
    | false => rw [if_neg (fun both => Bool.false_ne_true both.2), if_neg Bool.false_ne_true, Nat.add_zero, Nat.add_zero]; rfl
    | true => rw [if_pos ⟨own, rfl⟩, if_pos rfl]; rfl
  · rw [if_neg own, if_neg (fun both => own both.1)]
    rfl

include contract space buffers in
theorem event_stands (ftl next : ZmsFtl) (store : ZoneStore.Store) (event : Event) (stands : StandsFor p resting ftl store)
    (orderly : Orderly p ftl event) (taken : Step p ftl event next) :
    ∃ after, ZoneStore.Step p.zpp.pgsPerZone store (storeOp p ftl event) after ∧ StandsFor p resting next after := by
  cases taken with
  | write req cmd outcome ran => exact write_stands p loc resting contract space buffers ftl store req cmd outcome stands orderly ran
  | read _ req cmd done ran =>
      have table := zoned_read_table p ftl next req cmd done ran
      exact ⟨store, .other, accounted_same p ftl next table.toSameTable stands.accounted, online_same p ftl stands.online next table.descs,
        zoned_read_settled p loc resting contract store.landed store.waiting ftl next req cmd done stands.settled ran⟩
  | flush _ req done ran =>
      have table := zns_flush_table p ftl next req done ran
      have flushed := (zns_flush_settled p loc resting contract space store.landed store.waiting ftl next req done stands.settled ran).1
      exact ⟨⟨store.written, fun _ => 0⟩, .flush, accounted_same p ftl next table.toSameTable stands.accounted,
        online_same p ftl stands.online next table.descs, flushed⟩
  | mgmtSend _ cmd status ran =>
      obtain ⟨online, after⟩ := zns_zmgmt_send_settled p loc resting contract space buffers store.landed store.waiting cmd ftl next status
        stands.accounted stands.online orderly stands.settled ran
      exact ⟨_, .reset _, zns_zmgmt_send_accounted p ftl next cmd status stands.accounted ran, online, after⟩
  | release _ entry ran =>
      have table := run_release_table ftl next entry ran
      exact ⟨store, .other, accounted_same p ftl next table stands.accounted, online_same p ftl stands.online next table.descs,
        run_release_settled p loc resting contract store.landed store.waiting ftl next entry stands.settled ran⟩

include contract space buffers in
theorem namespace_simulates (starts : ∀ clock, resting (zmsRealizeFtl p clock)) :
    TransitionSystem.Simulation (namespaceSystem p) (Orderly p) (ZoneStore.system p.zpp.pgsPerZone) (StandsFor p resting) (storeOp p) where
  starts := by
    rintro ftl ⟨clock, same⟩
    rw [same]
    exact ⟨_, rfl, realize_accounted p clock, realize_online p clock, realize_settled p resting starts clock⟩
  steps := fun ftl next event store stands orderly taken => event_stands p loc resting contract space buffers ftl next store event stands
    orderly taken

end Simulating

end ConZone
