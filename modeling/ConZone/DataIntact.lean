import ConZone.Contents

set_option autoImplicit false

namespace ConZone

def opOf (config : DualConfig) (entry : SqEntry) (applied : Bool) : Overlay.Op Nat UInt8 where
  touches := Covers config entry
  effect := given config entry
  applied := applied
  within := by
    intro address changed
    by_contra outside
    simp [given, outside] at changed

-- A work entry that has not failed stands for an operation, which a write's
-- becomes once the worker has copied its data.
structure FitsOp (config : DualConfig) (ops : Slot → Option (Overlay.Op Nat UInt8)) (stored : Storage) (work : IoWork)
    (entry : SqEntry) : Prop where
  flies : work.status = .success → ops work.slot = some (opOf config entry (!isWrite entry.cmd || work.isCopied))
  served : work.status = .success → work.isCopied = true → Served config stored entry
  failed : work.status ≠ .success → ops work.slot = none

structure Flying (config : DualConfig) (state : IoState) (ops : Slot → Option (Overlay.Op Nat UInt8)) : Prop where
  settled : Overlay.Settled ops (content config state.cq) state.storage
  owned : ∀ slot op, ops slot = some op → ∃ entry, state.sq slot = some entry ∧ entry.dispatched = true ∧ Sound config entry ∧
    op.touches = Covers config entry
  queue : QueuedBy (FitsOp config ops (content config state.cq)) state

structure Intact (config : DualConfig) (state : IoState) : Prop where
  accounted : ∀ loc, Accounted (dualParams config loc) (state.ftls loc)
  online : ∀ loc, Online (dualParams config loc) (state.ftls loc)
  waiting : ∀ slot entry, state.sq slot = some entry → entry.dispatched = false → Waiting config entry
  flying : ∃ ops, Flying config state ops
  reads : ∀ before record after, state.cq = before ++ record :: after → record.status = .success →
    Served config (content config before) record.entry

section Launching

variable (config : DualConfig) (state : IoState) (ops : Slot → Option (Overlay.Op Nat UInt8)) (flying : Flying config state ops)

include flying in
theorem grounded (slot : Slot) (entry : SqEntry) (there : state.sq slot = some entry) (fresh : entry.dispatched = false) : ops slot = none := by
  cases none_or : ops slot with
  | none => rfl
  | some op =>
      obtain ⟨other, found, dispatched, _⟩ := flying.owned slot op none_or
      rw [there] at found
      cases found
      rw [fresh] at dispatched
      cases dispatched

include flying in
theorem launched_apart (slot : Slot) (entry launched : SqEntry) (there : state.sq slot = some entry) (fresh : entry.dispatched = false)
    (sound : Sound config launched) (loc : launched.loc = entry.loc)
    (final : launched.cmd = finalCommand (dualParams config entry.loc) (state.ftls entry.loc) entry.cmd)
    (discipline : ∀ other inFlight, other ≠ slot → state.sq other = some inFlight → inFlight.dispatched = true → inFlight.loc = entry.loc →
      ∀ lba, Touches (dualParams config entry.loc) (finalCommand (dualParams config entry.loc) (state.ftls entry.loc) entry.cmd) lba →
        ¬Touches (dualParams config entry.loc) inFlight.cmd lba)
    (other : Slot) (otherOp : Overlay.Op Nat UInt8) (address : Nat) (there' : ops other = some otherOp) (covered : Covers config launched address) :
    ¬otherOp.touches address := by
  obtain ⟨inFlight, found, dispatched, otherSound, touches⟩ := flying.owned other otherOp there'
  rw [touches]
  rintro ⟨otherMapped, otherTouched, _⟩
  obtain ⟨mapped, touched, _⟩ := covered
  have different : other ≠ slot := by
    rintro rfl
    rw [grounded config state ops flying other entry there fresh] at there'
    cases there'
  by_cases same : inFlight.loc = entry.loc
  · rw [loc, final] at touched
    rw [same] at otherTouched
    exact discipline other inFlight different found dispatched same _ touched otherTouched
  · have inside := touched_inside _ _ _ sound.inside touched
    have otherInside := touched_inside _ _ _ otherSound.inside otherTouched
    exact namespaces_apart config launched.loc inFlight.loc address (by rw [loc]; exact same) mapped inside otherMapped otherInside

include flying in
theorem flying_elsewhere (slot : Slot) (unused : ∀ entry, state.sq slot = some entry → entry.dispatched = false)
    (ftls : DualFtl) (storage : Storage) (changed : Option SqEntry)
    (later : Slot → Option (Overlay.Op Nat UInt8)) (same : ∀ other, other ≠ slot → later other = ops other)
    (settled : Overlay.Settled later (content config state.cq) storage)
    (own : ∀ op, later slot = some op → ∃ entry, changed = some entry ∧ entry.dispatched = true ∧ Sound config entry ∧
      op.touches = Covers config entry) :
    Flying config { state with ftls := ftls, storage := storage, sq := Function.update state.sq slot changed } later := by
  refine ⟨settled, ?_, ?_⟩
  · intro other op flies
    by_cases here : other = slot
    · subst here
      dsimp only
      rw [Function.update_self]
      exact own op flies
    · dsimp only
      rw [Function.update_of_ne here]
      rw [same other here] at flies
      exact flying.owned other op flies
  · refine queued_other_slot _ _ state flying.queue slot changed ftls storage unused ?_
    intro work workEntry member found fit
    have apart : (state.workQueue work).slot ≠ slot := by
      intro here
      obtain ⟨other, otherFound, dispatched, _⟩ := flying.queue.slots work member
      rw [here] at otherFound
      rw [unused other otherFound] at dispatched
      cases dispatched
    exact ⟨fun success => (same _ apart).trans (fit.flies success), fit.served, fun failed => (same _ apart).trans (fit.failed failed)⟩

variable (slot : Slot) (entry : SqEntry) (attempt : Attempt) (req : Request)
variable (there : state.sq slot = some entry) (fresh : entry.dispatched = false)

def attempted : SqEntry :=
  { entry with cmd := attempt.cmd, dispatched := attempt.done.isSome,
               zoneWp := commandWp (dualParams config entry.loc) (state.ftls entry.loc) entry.cmd }

include flying there fresh in
theorem launched (intact : Intact config state)
    (ran : procIoCmd (dualParams config entry.loc) (nsMapped config entry.loc) (state.ftls entry.loc) state.storage req entry.cmd = .ok attempt)
    (fits : ∀ rw data, entry.cmd = .write rw data → FitsIn (dualParams config entry.loc) (state.ftls entry.loc) rw)
    (discipline : ∀ other inFlight, other ≠ slot → state.sq other = some inFlight → inFlight.dispatched = true → inFlight.loc = entry.loc →
      ∀ lba, Touches (dualParams config entry.loc) (finalCommand (dualParams config entry.loc) (state.ftls entry.loc) entry.cmd) lba →
        ¬Touches (dualParams config entry.loc) inFlight.cmd lba)
    (done : Completion) (finished : attempt.done = some done) :
    ∃ later, Flying config (afterAttempt config state slot entry attempt) later ∧
      (done.status = .success → later slot = some (opOf config (attempted config state entry attempt) (!isWrite attempt.cmd))) ∧
      (done.status ≠ .success → later slot = none) := by
  have unused : ∀ other, state.sq slot = some other → other.dispatched = false := by
    intro other found
    rw [there] at found
    cases found
    exact fresh
  have free := grounded config state ops flying slot entry there fresh
  have waiting := intact.waiting slot entry there fresh
  by_cases success : done.status = .success
  · obtain ⟨final, sound, stored⟩ := attempt_through config entry (state.ftls entry.loc) state.storage req attempt attempt.done.isSome
      (commandWp (dualParams config entry.loc) (state.ftls entry.loc) entry.cmd) waiting fits ran (intact.accounted entry.loc)
      (intact.online entry.loc) done finished success
    change Sound config (attempted config state entry attempt) at sound
    have apart := launched_apart config state ops flying slot entry (attempted config state entry attempt) there fresh sound rfl final discipline
    have started := Overlay.settled_start ops _ state.storage flying.settled slot (opOf config (attempted config state entry attempt) false)
      free rfl apart
    have own : ∀ applied op, Function.update ops slot (some (opOf config (attempted config state entry attempt) applied)) slot = some op →
        ∃ launched, some (attempted config state entry attempt) = some launched ∧ launched.dispatched = true ∧ Sound config launched ∧
          op.touches = Covers config launched := by
      intro applied op same
      rw [Function.update_self] at same
      cases same
      refine ⟨_, rfl, ?_, sound, rfl⟩
      simp [attempted, finished]
    cases kind : isWrite attempt.cmd with
    | true =>
        rw [kind, if_pos rfl] at stored
        refine ⟨Function.update ops slot (some (opOf config (attempted config state entry attempt) false)), ?_, ?_, ?_⟩
        · refine flying_elsewhere config state ops flying slot unused _ attempt.storage _ _ (fun other different => Function.update_of_ne different _ _) ?_
            (own false)
          rw [stored]
          exact started
        · intro _
          rw [Function.update_self]
          rfl
        · intro failed
          exact absurd success failed
    | false =>
        rw [kind, if_neg (by decide)] at stored
        have applied := Overlay.settled_apply _ _ state.storage started slot _
          (opOf config (attempted config state entry attempt) true) (Function.update_self ..) rfl rfl rfl
        rw [Function.update_idem] at applied
        refine ⟨Function.update ops slot (some (opOf config (attempted config state entry attempt) true)), ?_, ?_, ?_⟩
        · refine flying_elsewhere config state ops flying slot unused _ attempt.storage _ _ (fun other different => Function.update_of_ne different _ _) ?_
            (own true)
          rw [stored]
          exact applied
        · intro _
          rw [Function.update_self]
          rfl
        · intro failed
          exact absurd success failed
  · have stored := attempt_failed config entry (state.ftls entry.loc) state.storage req attempt ran (intact.online entry.loc) done finished success
    refine ⟨ops, ?_, fun through => absurd through success, fun _ => free⟩
    refine flying_elsewhere config state ops flying slot unused _ attempt.storage _ ops (fun _ _ => rfl) ?_ ?_
    · rw [stored]
      exact flying.settled
    · intro op flies
      rw [free] at flies
      cases flies

end Launching

section Working

variable (config : DualConfig) (state : IoState) (ops : Slot → Option (Overlay.Op Nat UInt8)) (flying : Flying config state ops)
variable (work : Nat) (entry : SqEntry) (pending : work ∈ state.queued) (found : state.sq (state.workQueue work).slot = some entry)

theorem write_kind (cmd : HostCommand) (kind : isWrite cmd = true) : ∃ rw data, cmd = .write rw data := by
  cases cmd with
  | write rw data => exact ⟨rw, data, rfl⟩
  | _ => cases kind

theorem copy_succeeds (sound : Sound config entry) (storage later : Storage) (status : NvmeStatus) (delivered : List (Nat × UInt8))
    (ran : copied (dualParams config entry.loc) (nsMapped config entry.loc) storage .success entry.cmd = .ok (later, status, delivered)) :
    status = .success ∧ doPerformIo (dualParams config entry.loc) (nsMapped config entry.loc) storage entry.cmd = .ok (some (later, delivered)) := by
  simp only [copied, if_true] at ran
  obtain ⟨result, performed, rest⟩ := bind_ok _ _ _ ran
  cases result with
  | some pair =>
      have same := pure_ok _ _ rest
      cases same
      exact ⟨rfl, performed⟩
  | none =>
      exfalso
      have inside := sound.inside
      cases cmd : entry.cmd with
      | write rw data =>
          rw [cmd] at inside performed
          simp only [doPerformIo, (in_namespace_range _ rw inside).2, if_true] at performed
          obtain ⟨pieces, _, wrong⟩ := bind_ok _ _ _ performed
          cases pure_ok _ _ wrong
      | read rw data =>
          rw [cmd] at inside performed
          simp only [doPerformIo, (in_namespace_range _ rw inside).2, if_true] at performed
          obtain ⟨pieces, _, wrong⟩ := bind_ok _ _ _ performed
          cases pure_ok _ _ wrong
      | flush =>
          rw [cmd] at performed
          cases performed
      | mgmtSend send =>
          rw [cmd] at performed
          cases performed

include flying found in
theorem flying_owner (op : Overlay.Op Nat UInt8) (flies : ops (state.workQueue work).slot = some op) :
    entry.dispatched = true ∧ Sound config entry ∧ op.touches = Covers config entry := by
  obtain ⟨other, otherFound, dispatched, sound, touches⟩ := flying.owned _ op flies
  rw [found] at otherFound
  cases otherFound
  exact ⟨dispatched, sound, touches⟩

include flying pending found in
theorem flying_fits : entry.dispatched = true ∧ FitsOp config ops (content config state.cq) (state.workQueue work) entry := by
  obtain ⟨other, otherFound, dispatched, fit⟩ := flying.queue.slots work pending
  rw [found] at otherFound
  cases otherFound
  exact ⟨dispatched, fit⟩

include flying pending found in
theorem flying_copied (later : Slot → Option (Overlay.Op Nat UInt8)) (storage : Storage) (status : NvmeStatus)
    (delivered : List (Nat × UInt8)) (same : ∀ other, other ≠ (state.workQueue work).slot → later other = ops other)
    (settled : Overlay.Settled later (content config state.cq) storage)
    (own : ∀ op, later (state.workQueue work).slot = some op → op.touches = Covers config entry ∧ Sound config entry)
    (fit : FitsOp config later (content config state.cq) { state.workQueue work with isCopied := true, status := status }
      { entry with delivered := delivered }) :
    Flying config
      { state with storage := storage,
                   workQueue := Function.update state.workQueue work { state.workQueue work with isCopied := true, status := status },
                   sq := Function.update state.sq (state.workQueue work).slot (some { entry with delivered := delivered }) } later := by
  have dispatched := (flying_fits config state ops flying work entry pending found).1
  refine ⟨settled, ?_, ?_⟩
  · intro other op flies
    dsimp only
    by_cases here : other = (state.workQueue work).slot
    · rw [here, Function.update_self]
      rw [here] at flies
      obtain ⟨touches, sound⟩ := own op flies
      exact ⟨_, rfl, dispatched, ⟨sound.inside, sound.zone⟩, touches⟩
    · rw [Function.update_of_ne here]
      rw [same other here] at flies
      exact flying.owned other op flies
  · refine queued_worked _ _ state flying.queue work pending _ _ storage rfl dispatched fit ?_
    intro other otherEntry member different otherFound otherFit
    have apart : (state.workQueue other).slot ≠ (state.workQueue work).slot := fun slotSame =>
      different (flying.queue.single other work member pending slotSame)
    exact ⟨fun success => (same _ apart).trans (otherFit.flies success), otherFit.served,
      fun failed => (same _ apart).trans (otherFit.failed failed)⟩

include flying pending found in
theorem copy_step (uncopied : (state.workQueue work).isCopied = false) (storage : Storage) (status : NvmeStatus)
    (delivered : List (Nat × UInt8))
    (ran : copied (dualParams config entry.loc) (nsMapped config entry.loc) state.storage (state.workQueue work).status entry.cmd
      = .ok (storage, status, delivered)) :
    (∃ later, Flying config
      { state with storage := storage,
                   workQueue := Function.update state.workQueue work { state.workQueue work with isCopied := true, status := status },
                   sq := Function.update state.sq (state.workQueue work).slot (some { entry with delivered := delivered }) } later) ∧
      ∀ address, storage address ≠ state.storage address → Covers config entry address := by
  obtain ⟨dispatched, fit⟩ := flying_fits config state ops flying work entry pending found
  by_cases success : (state.workQueue work).status = .success
  · have flies := fit.flies success
    obtain ⟨_, sound, touches⟩ := flying_owner config state ops flying work entry found _ flies
    rw [success] at ran
    obtain ⟨through, performed⟩ := copy_succeeds config entry sound state.storage storage status delivered ran
    subst through
    rw [uncopied, Bool.or_false] at flies
    have worked : ∀ later, later (state.workQueue work).slot = some (opOf config entry true) →
        Served config (content config state.cq) { entry with delivered := delivered } →
        FitsOp config later (content config state.cq) { state.workQueue work with isCopied := true, status := .success }
          { entry with delivered := delivered } := by
      intro later there served
      refine ⟨fun _ => ?_, fun _ _ => served, fun failed => absurd rfl failed⟩
      rw [Bool.or_true]
      exact there
    have own : ∀ applied op, some (opOf config entry applied) = some op → op.touches = Covers config entry ∧ Sound config entry := by
      intro applied op same
      cases same
      exact ⟨rfl, sound⟩
    cases kind : isWrite entry.cmd with
    | true =>
        obtain ⟨rw, data, cmd⟩ := write_kind entry.cmd kind
        have stored := copied_write config entry sound state.storage storage rw data delivered cmd performed
        rw [kind] at flies
        have applied := Overlay.settled_apply ops _ state.storage flying.settled _ _ (opOf config entry true) flies rfl rfl rfl
        refine ⟨⟨Function.update ops (state.workQueue work).slot (some (opOf config entry true)), ?_⟩, ?_⟩
        · refine flying_copied config state ops flying work entry pending found _ storage .success delivered
            (fun other different => Function.update_of_ne different _ _) ?_ ?_ (worked _ (Function.update_self ..) ?_)
          · rw [stored]
            exact applied
          · intro op there
            rw [Function.update_self] at there
            exact own true op there
          · intro other otherData otherCmd
            dsimp only at otherCmd
            rw [cmd] at otherCmd
            cases otherCmd
        · intro address changed
          by_contra outside
          rw [stored, Overlay.overlay_none _ _ _ (by simp [given, outside])] at changed
          exact changed rfl
    | false =>
        rw [kind] at flies
        have stored : storage = state.storage := by
          cases cmd : entry.cmd with
          | write rw data =>
              rw [cmd] at kind
              cases kind
          | read rw data => exact (copied_read config entry sound state.storage storage rw data delivered cmd performed).1
          | flush =>
              rw [cmd] at performed
              cases performed
              rfl
          | mgmtSend send =>
              rw [cmd] at performed
              cases performed
              rfl
        refine ⟨⟨ops, ?_⟩, fun address changed => absurd (congrFun stored address) changed⟩
        refine flying_copied config state ops flying work entry pending found ops storage .success delivered (fun _ _ => rfl) ?_ ?_
          (worked ops flies ?_)
        · rw [stored]
          exact flying.settled
        · intro op there
          rw [flies] at there
          exact own true op there
        · intro rw data cmd
          have served := (copied_read config entry sound state.storage storage rw data delivered cmd performed).2
          refine served_same config { entry with delivered := delivered } state.storage _ served (fun address mapped touched => ?_) rw data cmd
          refine (Overlay.settled_read ops _ state.storage flying.settled _ _ address flies ?_ fun _ => ?_).symm
          · exact (sound_covers config entry sound address).mpr ⟨mapped, touched⟩
          · change entry.cmd = .read rw data at cmd
            simp [opOf, given, cmd]
  · rw [failed_copies_nothing _ _ _ _ _ success] at ran
    cases ran
    refine ⟨⟨ops, ?_⟩, fun address changed => absurd rfl changed⟩
    refine flying_copied config state ops flying work entry pending found ops state.storage _ [] (fun _ _ => rfl) flying.settled ?_ ?_
    · intro op flies
      rw [fit.failed success] at flies
      cases flies
    · exact ⟨fun through => absurd through success, fun through => absurd through success, fit.failed⟩

def completed : CqEntry :=
  ⟨(state.workQueue work).slot, (state.workQueue work).status, (state.workQueue work).result0, (state.workQueue work).result1, entry⟩

theorem content_completed (record : CqEntry) : content config (state.cq ++ [record]) =
    if record.status = .success then Overlay.overlay (given config record.entry) (content config state.cq) else content config state.cq := by
  rw [content, List.foldl_append]
  rfl

include flying pending found in
theorem complete_step (done : (state.workQueue work).isCopied = true) :
    (∃ later, Flying config
      { state with queued := state.queued.erase work, sq := Function.update state.sq (state.workQueue work).slot none,
                   cq := state.cq ++ [completed state work entry] } later) ∧
      ((state.workQueue work).status = .success → Served config (content config state.cq) entry) := by
  obtain ⟨dispatched, fit⟩ := flying_fits config state ops flying work entry pending found
  refine ⟨?_, fun success => fit.served success done⟩
  have owned : ∀ later : Slot → Option (Overlay.Op Nat UInt8), later (state.workQueue work).slot = none →
      (∀ other, other ≠ (state.workQueue work).slot → later other = ops other) →
      ∀ slot op, later slot = some op → ∃ entry, Function.update state.sq (state.workQueue work).slot none slot = some entry ∧
        entry.dispatched = true ∧ Sound config entry ∧ op.touches = Covers config entry := by
    intro later gone same slot op flies
    by_cases here : slot = (state.workQueue work).slot
    · rw [here, gone] at flies
      cases flies
    · rw [Function.update_of_ne here]
      rw [same slot here] at flies
      exact flying.owned slot op flies
  have apart : ∀ other, other ∈ state.queued → other ≠ work → (state.workQueue other).slot ≠ (state.workQueue work).slot :=
    fun other member different slotSame => different (flying.queue.single other work member pending slotSame)
  by_cases success : (state.workQueue work).status = .success
  · have flies := fit.flies success
    rw [done, Bool.or_true] at flies
    have sound := (flying_owner config state ops flying work entry found _ flies).2.1
    have finished := Overlay.settled_finish ops _ state.storage flying.settled _ _ flies
    have now : content config (state.cq ++ [completed state work entry]) = Overlay.overlay (given config entry) (content config state.cq) := by
      rw [content_completed]
      exact if_pos success
    refine ⟨Function.update ops (state.workQueue work).slot none, ?_, ?_, ?_⟩
    · dsimp only
      rw [now]
      exact finished
    · exact owned _ (Function.update_self ..) fun other different => Function.update_of_ne different _ _
    · refine queued_completed _ _ state flying.queue work pending _ ?_
      intro other otherEntry member different otherFound otherFit
      have elsewhere := Function.update_of_ne (apart other member different) none ops
      refine ⟨fun through => elsewhere.trans (otherFit.flies through), fun through copied => ?_,
        fun failed => elsewhere.trans (otherFit.failed failed)⟩
      rw [now]
      have otherFlies := otherFit.flies through
      have otherSound := (flying_owner config state ops flying other otherEntry otherFound _ otherFlies).2.1
      refine served_same config otherEntry _ _ (otherFit.served through copied) fun address mapped touched => ?_
      apply Overlay.overlay_none
      by_contra changed
      have covers := (sound_covers config otherEntry otherSound address).mpr ⟨mapped, touched⟩
      exact flying.settled.apart _ _ _ _ address (apart other member different) otherFlies flies covers
        ((opOf config entry true).within address changed)
  · have gone := fit.failed success
    have now : content config (state.cq ++ [completed state work entry]) = content config state.cq := by
      rw [content_completed]
      exact if_neg success
    refine ⟨ops, ?_, owned ops gone fun _ _ => rfl, ?_⟩
    · dsimp only
      rw [now]
      exact flying.settled
    · refine queued_completed _ _ state flying.queue work pending _ ?_
      intro other otherEntry member different otherFound otherFit
      rw [now]
      exact otherFit

end Working

def Disciplined (config : DualConfig) (state : IoState) (event : IoEvent) : Prop :=
  HostDiscipline config state event ∧ AppendsFit config state event

section Runs

variable (config : DualConfig) (state : IoState) (intact : Intact config state)

include intact in
theorem attempt_accounts (slot : Slot) (entry : SqEntry) (attempt : Attempt) (req : Request)
    (ran : procIoCmd (dualParams config entry.loc) (nsMapped config entry.loc) (state.ftls entry.loc) state.storage req entry.cmd = .ok attempt)
    (loc : Loc) : Accounted (dualParams config loc) ((afterAttempt config state slot entry attempt).ftls loc) ∧
      Online (dualParams config loc) ((afterAttempt config state slot entry attempt).ftls loc) := by
  obtain ⟨accounted, online⟩ := attempt_tables _ _ _ _ req entry.cmd attempt (intact.accounted entry.loc) (intact.online entry.loc) ran
  dsimp only [afterAttempt]
  by_cases same : loc = entry.loc
  · subst same
    rw [ran_on_self]
    exact ⟨accounted, online⟩
  · rw [ran_on_other _ _ _ _ same]
    exact ⟨accounted_same _ (state.ftls loc) _ ⟨rfl, rfl⟩ (intact.accounted loc), online_same _ _ (intact.online loc) _ rfl⟩

include intact in
theorem attempt_waiting (slot : Slot) (entry : SqEntry) (attempt : Attempt)
    (own : attempt.done = none → Waiting config (attempted config state entry attempt)) (other : Slot) (otherEntry : SqEntry)
    (there : (afterAttempt config state slot entry attempt).sq other = some otherEntry) (fresh : otherEntry.dispatched = false) :
    Waiting config otherEntry := by
  dsimp only [afterAttempt] at there
  by_cases same : other = slot
  · rw [same, Function.update_self] at there
    cases there
    apply own
    simpa using fresh
  · rw [Function.update_of_ne same] at there
    exact intact.waiting other otherEntry there fresh

theorem intact_step (next : IoState) (event : IoEvent) (permitted : Disciplined config state event) (taken : IoStep config state event next)
    (intact : Intact config state) : Intact config next := by
  obtain ⟨ops, flying⟩ := intact.flying
  obtain ⟨discipline, fit⟩ := permitted
  cases taken with
  | submit slot loc cmd free =>
      refine ⟨intact.accounted, intact.online, ?_, ?_, intact.reads⟩
      · intro other entry there fresh
        dsimp only at there
        by_cases same : other = slot
        · rw [same, Function.update_self] at there
          cases there
          exact ⟨discipline, .kept cmd, fun _ => rfl⟩
        · rw [Function.update_of_ne same] at there
          exact intact.waiting other entry there fresh
      · refine ⟨ops, flying_elsewhere config state ops flying slot ?_ state.ftls state.storage _ ops (fun _ _ => rfl) flying.settled ?_⟩
        · intro entry there
          rw [free] at there
          cases there
        · intro op flies
          obtain ⟨entry, there, _⟩ := flying.owned slot op flies
          rw [free] at there
          cases there
  | retry slot req entry attempt waiting fresh ran refused =>
      have fits : ∀ rw data, entry.cmd = .write rw data → FitsIn (dualParams config entry.loc) (state.ftls entry.loc) rw :=
        fun rw data cmd append clear => fit entry rw data waiting cmd append clear
      have accounts := attempt_accounts config state intact slot entry attempt req ran
      obtain ⟨stored, again⟩ := attempt_again config entry (state.ftls entry.loc) state.storage req attempt attempt.done.isSome
        (commandWp (dualParams config entry.loc) (state.ftls entry.loc) entry.cmd) (intact.waiting slot entry waiting fresh) fits ran
        (intact.accounted entry.loc) refused
      refine ⟨fun loc => (accounts loc).1, fun loc => (accounts loc).2, attempt_waiting config state intact slot entry attempt fun _ => again,
        ⟨ops, ?_⟩, intact.reads⟩
      refine flying_elsewhere config state ops flying slot ?_ _ attempt.storage _ ops (fun _ _ => rfl) ?_ ?_
      · intro other there
        rw [waiting] at there
        cases there
        exact fresh
      · rw [stored]
        exact flying.settled
      · intro op flies
        rw [grounded config state ops flying slot entry waiting fresh] at flies
        cases flies
  | lose slot req entry attempt done waiting fresh ran finished =>
      have accounts := attempt_accounts config state intact slot entry attempt req ran
      obtain ⟨later, lost, _⟩ := launched config state ops flying slot entry attempt req waiting fresh intact ran
        (fun rw data cmd append clear => fit entry rw data waiting cmd append clear) (discipline entry waiting) done finished
      refine ⟨fun loc => (accounts loc).1, fun loc => (accounts loc).2, attempt_waiting config state intact slot entry attempt ?_,
        ⟨later, lost⟩, intact.reads⟩
      intro unfinished
      rw [finished] at unfinished
      cases unfinished
  | dispatch slot req entry attempt done work waiting fresh ran finished allocated =>
      have accounts := attempt_accounts config state intact slot entry attempt req ran
      obtain ⟨later, flew, through, failed⟩ := launched config state ops flying slot entry attempt req waiting fresh intact ran
        (fun rw data cmd append clear => fit entry rw data waiting cmd append clear) (discipline entry waiting) done finished
      refine ⟨fun loc => (accounts loc).1, fun loc => (accounts loc).2, attempt_waiting config state intact slot entry attempt ?_,
        ⟨later, flew.settled, flew.owned, ?_⟩, intact.reads⟩
      · intro unfinished
        rw [finished] at unfinished
        cases unfinished
      · refine queued_post _ _ flew.queue slot work done (attempted config state entry attempt) (Function.update_self ..)
          (by simp [attempted, finished]) allocated ?_ ?_
        · intro other member same
          obtain ⟨there, found, dispatched, _⟩ := flying.queue.slots other member
          have slots : (state.workQueue other).slot = slot := same
          rw [slots, waiting] at found
          cases found
          rw [fresh] at dispatched
          cases dispatched
        · refine ⟨fun success => ?_, fun _ copied => (by cases copied), failed⟩
          change later slot = _
          rw [through success]
          simp [enqueueIoReq, attempted]
  | copy work entry storage status delivered pending uncopied found ran =>
      obtain ⟨later, _⟩ := copy_step config state ops flying work entry pending found uncopied storage status delivered ran
      refine ⟨intact.accounted, intact.online, ?_, later, intact.reads⟩
      intro other otherEntry there fresh
      dsimp only at there
      by_cases same : other = (state.workQueue work).slot
      · have dispatched := (flying_fits config state ops flying work entry pending found).1
        rw [same, Function.update_self] at there
        cases there
        dsimp only at fresh
        rw [dispatched] at fresh
        cases fresh
      · rw [Function.update_of_ne same] at there
        exact intact.waiting other otherEntry there fresh
  | complete work entry pending done found =>
      obtain ⟨later, served⟩ := complete_step config state ops flying work entry pending found done
      refine ⟨intact.accounted, intact.online, ?_, later, ?_⟩
      · intro other otherEntry there fresh
        dsimp only at there
        by_cases same : other = (state.workQueue work).slot
        · rw [same, Function.update_self] at there
          cases there
        · rw [Function.update_of_ne same] at there
          exact intact.waiting other otherEntry there fresh
      · intro before record after split success
        rcases List.eq_nil_or_concat after with empty | ⟨rest, last, tail⟩
        · rw [empty] at split
          obtain ⟨same, records⟩ := List.append_inj' split rfl
          cases records
          rw [← same]
          exact served success
        · rw [tail, List.concat_eq_append, ← List.cons_append, ← List.append_assoc] at split
          exact intact.reads before record rest (List.append_inj' split rfl).1 success
  | release loc entry after ran =>
      have table := run_release_table (state.ftls loc) after entry ran
      refine ⟨?_, ?_, intact.waiting, ⟨ops, flying.settled, flying.owned, ?_⟩, intact.reads⟩
      · intro other
        dsimp only
        by_cases same : other = loc
        · subst same
          rw [ran_on_self]
          exact accounted_same _ _ after table (intact.accounted other)
        · rw [ran_on_other _ _ _ _ same]
          exact accounted_same _ (state.ftls other) _ ⟨rfl, rfl⟩ (intact.accounted other)
      · intro other
        dsimp only
        by_cases same : other = loc
        · subst same
          rw [ran_on_self]
          exact online_same _ _ (intact.online other) after table.descs
        · rw [ran_on_other _ _ _ _ same]
          exact online_same _ _ (intact.online other) _ rfl
      · exact queued_kept _ _ state flying.queue _ state.storage fun _ _ _ _ fit => fit

theorem intact_kept : TransitionSystem.Invariant (ioSystem config) (Disciplined config) (Intact config) where
  starts := by
    rintro state ⟨clock, rfl⟩
    refine ⟨fun loc => realize_accounted _ clock, fun loc => realize_online _ clock, ?_, ⟨fun _ => none, ⟨?_, ?_, ?_⟩, ?_, ?_⟩, ?_⟩
    · intro slot entry there
      cases there
    · intro _ _ _ _ _ _ flies
      cases flies
    · intro _ _
      rfl
    · intro _ _ _ _ flies
      cases flies
    · intro _ _ flies
      cases flies
    · refine ⟨List.nodup_nil, ?_, ?_⟩
      · intro work other member
        cases member
      · intro work member
        cases member
    · intro before record after split
      simp [ioInit] at split
  keeps state next event intact permitted taken := intact_step config state next event permitted taken intact

include intact in
theorem intact_stores (event : IoEvent) (next : IoState) (permitted : Disciplined config state event) (taken : IoStep config state event next)
    (address : Nat) (changed : next.storage address ≠ state.storage address) :
    ∃ entry, acting state event = some entry ∧ Covers config entry address := by
  obtain ⟨ops, flying⟩ := intact.flying
  have made := fun slot req entry attempt waiting fresh ran fits =>
    attempt_stores config entry (state.ftls entry.loc) state.storage req attempt (intact.waiting slot entry waiting fresh) fits ran
      (intact.accounted entry.loc) (intact.online entry.loc) address
  cases taken with
  | submit slot loc cmd free => exact absurd rfl changed
  | retry slot req entry attempt waiting fresh ran refused =>
      exact ⟨entry, waiting, made slot req entry attempt waiting fresh ran
        (fun rw data cmd append clear => permitted.2 entry rw data waiting cmd append clear) changed⟩
  | lose slot req entry attempt done waiting fresh ran finished =>
      exact ⟨entry, waiting, made slot req entry attempt waiting fresh ran
        (fun rw data cmd append clear => permitted.2 entry rw data waiting cmd append clear) changed⟩
  | dispatch slot req entry attempt done work waiting fresh ran finished allocated =>
      exact ⟨entry, waiting, made slot req entry attempt waiting fresh ran
        (fun rw data cmd append clear => permitted.2 entry rw data waiting cmd append clear) changed⟩
  | copy work entry storage status delivered pending uncopied found ran =>
      exact ⟨entry, found, (copy_step config state ops flying work entry pending found uncopied storage status delivered ran).2 address changed⟩
  | complete work entry pending done found => exact absurd rfl changed
  | release loc entry after ran => exact absurd rfl changed

end Runs

-- In every run of a disciplined host whose appends stay in their zones, reads
-- return the data of the commands completed before them and every stored byte
-- is changed by a command that covers it.
theorem data_intact (config : DualConfig) (state : IoState) (reached : TransitionSystem.Reach (ioSystem config) (Disciplined config) state) :
    DataIntact config (Disciplined config) state := by
  have intact := TransitionSystem.reach_invariant _ _ _ (intact_kept config) state reached
  exact ⟨intact.reads, fun event next permitted taken address changed =>
    intact_stores config state intact event next permitted taken address changed⟩

section Samples

variable (config : DualConfig)

instance (p : Params) (cmd : HostCommand) : Decidable (InNamespace p cmd) :=
  match cmd with
  | .write _ _ | .read _ _ => inferInstanceAs (Decidable (_ ≤ _))
  | .flush => inferInstanceAs (Decidable True)
  | .mgmtSend _ => inferInstanceAs (Decidable (_ ∨ _))

def soloGuard (_ : IoState) : IoEvent → Bool
  | .submit slot loc cmd => decide (slot = (1, 0)) && decide (InNamespace (dualParams config loc) cmd)
  | .retry _ _ | .dispatch _ _ _ | .lose _ _ | .copy _ | .complete _ | .release _ _ => true

def OneSlot (state : IoState) : Prop := ∀ slot, slot ≠ (1, 0) → state.sq slot = none

theorem one_slot_used (state : IoState) (one : OneSlot state) (slot : Slot) (entry : SqEntry) (there : state.sq slot = some entry) :
    slot = (1, 0) := by
  by_contra different
  rw [one slot different] at there
  cases there

theorem one_slot_kept : TransitionSystem.Invariant (ioSystem config) (fun state event => soloGuard config state event = true) OneSlot where
  starts := by
    rintro state ⟨clock, rfl⟩
    exact fun _ _ => rfl
  keeps state next event one permitted taken := by
    have changed : ∀ slot content, slot = (1, 0) → ∀ other, other ≠ (1, 0) → Function.update state.sq slot content other = none := by
      intro slot content here other different
      rw [Function.update_of_ne (by rw [here]; exact different)]
      exact one other different
    cases taken with
    | submit slot loc cmd free =>
        simp only [soloGuard, Bool.and_eq_true, decide_eq_true_eq] at permitted
        exact changed slot _ permitted.1
    | retry slot req entry attempt waiting fresh ran refused => exact changed slot _ (one_slot_used state one slot entry waiting)
    | lose slot req entry attempt done waiting fresh ran finished => exact changed slot _ (one_slot_used state one slot entry waiting)
    | dispatch slot req entry attempt done work waiting fresh ran finished allocated =>
        exact changed slot _ (one_slot_used state one slot entry waiting)
    | copy work entry storage status delivered pending uncopied found ran => exact changed _ _ (one_slot_used state one _ entry found)
    | complete work entry pending done found => exact changed _ _ (one_slot_used state one _ entry found)
    | release loc entry after ran => exact one

theorem solo_disciplined (state : IoState) (event : IoEvent) (one : OneSlot state) (guarded : soloGuard config state event = true) :
    HostDiscipline config state event := by
  have alone : ∀ slot entry, state.sq slot = some entry → ∀ other inFlight, other ≠ slot → state.sq other = some inFlight → False := by
    intro slot entry there other inFlight different also
    exact different ((one_slot_used state one other inFlight also).trans (one_slot_used state one slot entry there).symm)
  cases event with
  | submit slot loc cmd =>
      simp only [soloGuard, Bool.and_eq_true, decide_eq_true_eq] at guarded
      exact guarded.2
  | dispatch slot req work =>
      intro entry there other inFlight different also
      exact (alone slot entry there other inFlight different also).elim
  | lose slot req =>
      intro entry there other inFlight different also
      exact (alone slot entry there other inFlight different also).elim
  | retry slot req => trivial
  | copy work => trivial
  | complete work => trivial
  | release loc entry => trivial

def plainGuard (state : IoState) (event : IoEvent) : Bool :=
  soloGuard config state event && (acting state event).all fun entry => !isAppend entry.cmd

theorem plain_fits (state : IoState) (event : IoEvent) (guarded : plainGuard config state event = true) : AppendsFit config state event := by
  rw [plainGuard, Bool.and_eq_true] at guarded
  have never : ∀ slot, acting state event = state.sq slot → ∀ entry rw data, state.sq slot = some entry → entry.cmd = .write rw data →
      rw.append = true → False := by
    intro slot here entry rw data there cmd append
    have plain := guarded.2
    rw [here, there, Option.all_some, cmd, isAppend, append] at plain
    cases plain
  cases event with
  | retry slot req => exact fun entry rw data there cmd append => (never slot rfl entry rw data there cmd append).elim
  | dispatch slot req work => exact fun entry rw data there cmd append => (never slot rfl entry rw data there cmd append).elim
  | lose slot req => exact fun entry rw data there cmd append => (never slot rfl entry rw data there cmd append).elim
  | submit slot loc cmd => trivial
  | copy work => trivial
  | complete work => trivial
  | release loc entry => trivial

end Samples

-- One command of the SLC namespace, from its submission to its completion.
def commandRun (cmd : HostCommand) : List IoEvent :=
  [.submit (1, 0) .pslc cmd, .dispatch (1, 0) ⟨1, 0⟩ 0, .copy 0, .complete 0, .release .pslc 0]

theorem page_written_and_read :
    ∃ state : IoState, DataIntact sampleConfig (Disciplined sampleConfig) state ∧ state.cq.length = 2 := by
  obtain ⟨state, reached, checked⟩ := run_io_check sampleConfig (fun state event => plainGuard sampleConfig state event = true)
    (plainGuard sampleConfig) (fun _ _ guarded => guarded)
    (commandRun (.write ⟨false, 0, 7, false⟩ onePage) ++ [.submit (1, 0) .pslc (.read ⟨false, 0, 7, false⟩ onePage),
      .dispatch (1, 0) ⟨1, 0⟩ 0, .copy 0, .complete 0]) (fun _ => 0) (fun state => decide (state.cq.length = 2)) (by decide +kernel)
  refine ⟨state, data_intact sampleConfig state ?_, of_decide_eq_true checked⟩
  refine TransitionSystem.reach_within _ _ _ OneSlot ?_ (fun state event one guarded => ?_) state reached
  · refine ⟨(one_slot_kept sampleConfig).starts, fun state next event one permitted taken => ?_⟩
    rw [plainGuard, Bool.and_eq_true] at permitted
    exact (one_slot_kept sampleConfig).keeps state next event one permitted.1 taken
  · refine ⟨solo_disciplined sampleConfig state event one ?_, plain_fits sampleConfig state event guarded⟩
    rw [plainGuard, Bool.and_eq_true] at guarded
    exact guarded.1

def readsAppended (state : IoState) : Bool :=
  match state.cq with
  | [written, appended, read] => decide (read.status = .success) && decide (firstLba read.entry.cmd = 32) &&
      decide (read.entry.loc = .pslc) && !isWrite read.entry.cmd &&
      decide ((read.entry.delivered.map Prod.snd).head? = some 1) &&
      decide (content sampleConfig [written, appended] (lbaAddress sampleConfig .pslc 32) = 0)
  | _ => false

-- Zone 0 is full; an append to it is stored in zone 1, and the read of LBA 32
-- returns its data.
theorem append_corrupts_next_zone :
    ¬∀ config state, TransitionSystem.Reach (ioSystem config) (HostDiscipline config) state →
        DataIntact config (HostDiscipline config) state := by
  intro claim
  obtain ⟨state, reached, checked⟩ := run_io_check sampleConfig (fun state event => soloGuard sampleConfig state event = true)
    (soloGuard sampleConfig) (fun _ _ guarded => guarded)
    (commandRun (.write ⟨false, 0, 31, false⟩ onePage) ++ commandRun (.write ⟨true, 0, 7, false⟩ onePage) ++
      [.submit (1, 0) .pslc (.read ⟨false, 32, 0, false⟩ onePage), .dispatch (1, 0) ⟨1, 0⟩ 0, .copy 0, .complete 0]) (fun _ => 0)
    readsAppended (by decide +kernel)
  have disciplined := TransitionSystem.reach_within _ _ _ OneSlot (one_slot_kept sampleConfig) (solo_disciplined sampleConfig) state reached
  unfold readsAppended at checked
  split at checked
  · rename_i written appended read done
    simp only [Bool.and_eq_true, Bool.not_eq_true', decide_eq_true_eq] at checked
    obtain ⟨⟨⟨⟨⟨success, first⟩, loc⟩, kind⟩, served⟩, zero⟩ := checked
    have intact := (claim sampleConfig state disciplined).reads [written, appended] read [] done success
    cases cmd : read.entry.cmd with
    | read rw data =>
        obtain ⟨pieces, _, delivered⟩ := intact rw data cmd
        rw [cmd] at first
        change rw.slba = 32 at first
        have count : 0 < nrLbasFromRwCmd rw * secsz := Nat.mul_pos (Nat.succ_pos _) (by decide)
        rw [delivered, ← Nat.succ_pred_eq_of_pos count, List.range_succ_eq_map] at served
        simp only [List.map_cons, List.head?_cons, Nat.add_zero, Option.some.injEq] at served
        rw [loc, first, zero] at served
        cases served
    | write rw data =>
        rw [cmd] at kind
        cases kind
    | flush =>
        rw [cmd] at first
        cases first
    | mgmtSend send =>
        rw [cmd] at first
        cases first
  · cases checked

end ConZone
