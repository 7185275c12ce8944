import ConZone.AdminTables

set_option autoImplicit false

namespace ConZone.Admin

structure Layout where
  sqFirst : Nat
  sqDepth : Nat
  cqFirst : Nat
  cqDepth : Nat

def sqSlot (layout : Layout) (slot : Nat) : Nat := layout.sqFirst * nrSqePerPage + slot
def cqSlot (layout : Layout) (slot : Nat) : Nat := layout.cqFirst * nrCqePerPage + slot

-- The dispatcher within nvmev_proc_admin_sq: the doorbell it works for, the
-- next entry and how many it has left.
structure Pass where
  sqDepth : Nat
  newDb : Nat
  curr : Nat
  left : Nat

-- The device with the host that uses its admin queue: what the host has put
-- into the queue so far, how many of these its doorbell announced and the device
-- served, and the completions the host has taken.
structure Link where
  dev : Dev
  memory : HostMemory
  pass : Option Pass
  submitted : List AdminCommand
  announced : Nat
  served : Nat
  taken : List Cqe

def submitCommand (layout : Layout) (link : Link) (cmd : AdminCommand) : Link :=
  let place := sqSlot layout (link.submitted.length % layout.sqDepth)
  { link with memory := { link.memory with commands := Function.update link.memory.commands place cmd },
              submitted := link.submitted ++ [cmd] }

def ringDoorbell (layout : Layout) (link : Link) : Link :=
  let db := link.submitted.length % layout.sqDepth
  { link with dev := { link.dev with dbs := Function.update link.dev.dbs 0 db }, announced := link.submitted.length }

def headEntry (layout : Layout) (link : Link) : Cqe := link.memory.completions (cqSlot layout (link.taken.length % layout.cqDepth))

-- The host knows a new completion by its phase.
def headIsNew (layout : Layout) (link : Link) : Prop :=
  (headEntry layout link).status % 2 = passPhase layout.cqDepth link.taken.length

def takeCompletion (layout : Layout) (link : Link) : Link :=
  let db := (link.taken.length + 1) % layout.cqDepth
  { link with dev := { link.dev with dbs := Function.update link.dev.dbs 1 db }, taken := link.taken ++ [headEntry layout link] }

def nextEntry (pass : Pass) : Nat := if pass.curr + 1 = pass.sqDepth then 0 else pass.curr + 1

inductive LinkEvent where
  | submit (cmd : AdminCommand)
  | ring
  | take
  | look
  | serve
  | finish
  | lookCq
  | other (dbs oldDbs : Nat → Nat)

-- The host submits, rings and takes at any time. A pass of the dispatcher over
-- the queue is one look at the doorbell, as many turns as that tells and the end
-- that notes the doorbell. The doorbells of the other queues change as they like.
inductive LinkStep (layout : Layout) : Link → LinkEvent → Link → Prop where
  | submit (link : Link) (cmd : AdminCommand) : LinkStep layout link (.submit cmd) (submitCommand layout link cmd)
  | ring (link : Link) : LinkStep layout link .ring (ringDoorbell layout link)
  | take (link : Link) (new : headIsNew layout link) : LinkStep layout link .take (takeCompletion layout link)
  | look (link : Link) (queue : AdminQueue) (idle : link.pass = none) (found : link.dev.adminQ = some queue)
      (rung : link.dev.dbs 0 ≠ link.dev.oldDbs 0) :
      LinkStep layout link .look
        { link with pass := some ⟨queue.sqDepth, link.dev.dbs 0, link.dev.oldDbs 0, numProc queue.sqDepth (link.dev.dbs 0) (link.dev.oldDbs 0)⟩ }
  | serve (link : Link) (pass : Pass) (left : Nat) (dev : Dev) (memory : HostMemory) (busy : link.pass = some pass)
      (more : pass.left = left + 1) (ran : nvmevProcAdminReq link.dev link.memory pass.curr = .ok (dev, memory)) :
      LinkStep layout link .serve
        { link with dev := dev, memory := memory, pass := some { pass with curr := nextEntry pass, left := left }, served := link.served + 1 }
  | finish (link : Link) (pass : Pass) (busy : link.pass = some pass) (all : pass.left = 0) :
      LinkStep layout link .finish
        { link with dev := { link.dev with oldDbs := Function.update link.dev.oldDbs 0 pass.newDb }, pass := none }
  | lookCq (link : Link) (idle : link.pass = none) : LinkStep layout link .lookCq { link with dev := procDbsAdminCq link.dev }
  | other (link : Link) (dbs oldDbs : Nat → Nat) (db : ∀ index, index < 2 → dbs index = link.dev.dbs index)
      (oldDb : ∀ index, index < 2 → oldDbs index = link.dev.oldDbs index) :
      LinkStep layout link (.other dbs oldDbs) { link with dev := { link.dev with dbs := dbs, oldDbs := oldDbs } }

-- The host leaves one entry of the submission queue free and never asks for
-- more completions than the completion queue has entries it has not yet taken.
def Obeys (layout : Layout) (link : Link) : LinkEvent → Prop
  | .submit cmd => Numbered cmd.request ∧ link.submitted.length + 1 < link.served + layout.sqDepth ∧
      (link.submitted ++ [cmd]).countP (fun cmd => completes cmd.request) ≤ link.taken.length + layout.cqDepth
  | _ => True

structure Fits (layout : Layout) (queue : AdminQueue) : Prop where
  sqDepth : queue.sqDepth = layout.sqDepth
  cqDepth : queue.cqDepth = layout.cqDepth
  sq : ∃ run, queue.nvmeSq = some run ∧ run.first = layout.sqFirst ∧ layout.sqDepth ≤ run.pages * nrSqePerPage
  cq : ∃ run, queue.nvmeCq = some run ∧ run.first = layout.cqFirst ∧ layout.cqDepth ≤ run.pages * nrCqePerPage

structure AtStart (layout : Layout) (dev : Dev) : Prop where
  queue : ∃ queue, dev.adminQ = some queue ∧ Fits layout queue ∧ queue.phase = 1 ∧ queue.cqHead = 0
  db : dev.dbs 0 = 0
  oldDb : dev.oldDbs 0 = 0

structure LinkStart (layout : Layout) (start : Dev) (link : Link) : Prop where
  dev : link.dev = start
  ready : AtStart layout start
  sqPositive : 0 < layout.sqDepth
  cqPositive : 0 < layout.cqDepth
  clear : ∀ slot, slot < layout.cqDepth → (link.memory.completions (cqSlot layout slot)).status % 2 = 0
  idle : link.pass = none
  submitted : link.submitted = []
  announced : link.announced = 0
  served : link.served = 0
  taken : link.taken = []

def linkSystem (layout : Layout) (start : Dev) : TransitionSystem.System Link LinkEvent :=
  ⟨LinkStart layout start, LinkStep layout⟩

-- The completions of commands served one after another from the start on: entry
-- k of the queue answers in the order of the commands, with the phase of its
-- pass.
def completionsOf (layout : Layout) (answered : List (AdminCommand × Option Reply)) : List Cqe :=
  let works := answered.zipIdx.filterMap fun entry => entry.1.2.map fun reply =>
    (⟨0, entry.2 % layout.sqDepth, entry.1.1.commandId, reply.ret.code, reply.result0, reply.result1⟩ : CompletedWork)
  works.mapIdx fun n work => filledCqe (passPhase layout.cqDepth n) work

def isTagged (cqe : Cqe) : Bool := decide (cqe.status % 2 = 1)

-- The pass under way is at the next command and ends with one that is announced.
def PassAt (layout : Layout) (link : Link) : Prop :=
  match link.pass with
  | none => link.dev.oldDbs 0 = link.served % layout.sqDepth
  | some pass => pass.sqDepth = layout.sqDepth ∧ pass.curr = link.served % layout.sqDepth ∧
      pass.newDb = (link.served + pass.left) % layout.sqDepth ∧ link.served + pass.left ≤ link.announced

structure Linked (layout : Layout) (start : Dev) (link : Link) (alone : Dev) (answered : List (AdminCommand × Option Reply)) : Prop where
  sqPositive : 0 < layout.sqDepth
  cqPositive : 0 < layout.cqDepth
  ran : serveAlone start (link.submitted.take link.served) = .ok (alone, answered)
  same : SameTables alone link.dev
  queue : ∃ queue, link.dev.adminQ = some queue ∧ Fits layout queue ∧
    queue.phase = passPhase layout.cqDepth (completionsOf layout answered).length ∧
    queue.cqHead = (completionsOf layout answered).length % layout.cqDepth
  sq : PhasedRing.Kept layout.sqDepth (fun slot => link.memory.commands (sqSlot layout slot)) link.submitted link.served
  room : link.submitted.length < link.served + layout.sqDepth
  behind : link.served ≤ link.announced
  announced : link.announced ≤ link.submitted.length
  db : link.dev.dbs 0 = link.announced % layout.sqDepth
  pass : PassAt layout link
  cq : PhasedRing.Tagged layout.cqDepth isTagged (fun slot => link.memory.completions (cqSlot layout slot)) (completionsOf layout answered)
  count : link.taken.length ≤ (completionsOf layout answered).length
  taken : link.taken = (completionsOf layout answered).take link.taken.length
  owed : link.submitted.countP (fun cmd => completes cmd.request) ≤ link.taken.length + layout.cqDepth
  numbered : ∀ cmd ∈ link.submitted, Numbered cmd.request

section Completions

variable (layout : Layout) (answered : List (AdminCommand × Option Reply)) (cmd : AdminCommand)

theorem completions_none : completionsOf layout (answered ++ [(cmd, none)]) = completionsOf layout answered := by
  simp [completionsOf, List.zipIdx_append]

theorem completions_some (reply : Reply) : completionsOf layout (answered ++ [(cmd, some reply)]) =
    completionsOf layout answered ++ [filledCqe (passPhase layout.cqDepth (completionsOf layout answered).length)
      ⟨0, answered.length % layout.sqDepth, cmd.commandId, reply.ret.code, reply.result0, reply.result1⟩] := by
  simp [completionsOf, List.zipIdx_append, List.mapIdx_append]

theorem serve_alone_counts (dev after : Dev) (cmds : List AdminCommand) (ran : serveAlone dev cmds = .ok (after, answered)) :
    (completionsOf layout answered).length = cmds.countP fun cmd => completes cmd.request := by
  have counted : ∀ (start : Nat), (answered.zipIdx start).countP (fun entry => entry.1.2.isSome) = cmds.countP fun cmd => completes cmd.request := by
    induction cmds generalizing dev answered with
    | nil =>
        cases ran
        simp
    | cons first rest ih =>
        obtain ⟨served, now, later⟩ := bind_ok _ _ _ ran
        obtain ⟨others, onward, result⟩ := bind_ok _ _ _ later
        cases result
        intro start
        have whether := (request_served dev first.request served.1 served.2 now).answered
        simp only [List.zipIdx_cons, List.countP_cons, ih others.2 served.1 onward, whether]
  rw [← counted 0]
  simp [completionsOf, List.countP_eq_length_filter, List.length_filterMap_eq_countP]

theorem lap_of_phase (size k : Nat) : decide (passPhase size k = 1) = PhasedRing.lap size k := by
  unfold passPhase PhasedRing.lap
  split <;> simp_all

theorem filled_tag (n : Nat) (work : CompletedWork) :
    isTagged (filledCqe (passPhase layout.cqDepth n) work) = PhasedRing.lap layout.cqDepth n := by
  rw [isTagged, filled_phase _ work (pass_phase_bit layout.cqDepth n), lap_of_phase]

end Completions

section Entries

theorem entry_at_ok (perPage : Nat) (run : QueuePages) (entryId : Nat) (inside : entryId < run.pages * perPage) :
    entryAt perPage (some run) entryId = .ok (run.first * perPage + entryId) := by
  have page : entryId / perPage < run.pages := Nat.div_lt_of_lt_mul (by rwa [Nat.mul_comm] at inside)
  have place : (run.first + entryId / perPage) * perPage + entryId % perPage = run.first * perPage + entryId := by
    rw [Nat.add_mul, Nat.add_assoc, Nat.div_add_mod']
  simp only [entryAt, if_pos page, place]

theorem update_slot {α : Type} (memory : Nat → α) (place : Nat → Nat) (slot : Nat) (item : α)
    (apart : ∀ index, place index = place slot → index = slot) :
    (fun index => Function.update memory (place slot) item (place index)) = Function.update (fun index => memory (place index)) slot item := by
  funext index
  by_cases same : index = slot
  · subst same
    simp
  · rw [Function.update_of_ne same, Function.update_of_ne (fun met => same (apart index met))]

theorem sq_slot_apart (layout : Layout) (slot index : Nat) (same : sqSlot layout index = sqSlot layout slot) : index = slot :=
  Nat.add_left_cancel same

theorem cq_slot_apart (layout : Layout) (slot index : Nat) (same : cqSlot layout index = cqSlot layout slot) : index = slot :=
  Nat.add_left_cancel same

theorem sq_entry_at (layout : Layout) (queue : AdminQueue) (fits : Fits layout queue) (slot : Nat) (inside : slot < layout.sqDepth) :
    entryAt nrSqePerPage queue.nvmeSq slot = .ok (sqSlot layout slot) := by
  obtain ⟨run, found, first, pages⟩ := fits.sq
  rw [found, entry_at_ok nrSqePerPage run slot (by omega), sqSlot, first]

theorem cq_entry_at (layout : Layout) (queue : AdminQueue) (fits : Fits layout queue) (slot : Nat) (inside : slot < layout.cqDepth) :
    entryAt nrCqePerPage queue.nvmeCq slot = .ok (cqSlot layout slot) := by
  obtain ⟨run, found, first, pages⟩ := fits.cq
  rw [found, entry_at_ok nrCqePerPage run slot (by omega), cqSlot, first]

theorem next_head (layout : Layout) (n head phase : Nat) (positive : 0 < layout.cqDepth) (atPass : head = n % layout.cqDepth)
    (turn : phase = passPhase layout.cqDepth n) :
    (if decide (head + 1 = layout.cqDepth) then 0 else head + 1) = (n + 1) % layout.cqDepth ∧
      (if decide (head + 1 = layout.cqDepth) then (if phase = 0 then 1 else 0) else phase) = passPhase layout.cqDepth (n + 1) := by
  subst atPass turn
  have next := WrapAround.next_position layout.cqDepth n positive
  by_cases wraps : n % layout.cqDepth + 1 = layout.cqDepth
  · rw [if_pos wraps] at next
    simp [wraps, next, pass_phase_wraps layout.cqDepth n positive wraps]
  · rw [if_neg wraps] at next
    simp only [wraps, decide_false, Bool.false_eq_true, if_false]
    exact ⟨next, (pass_phase_same layout.cqDepth n positive wraps).symm⟩

end Entries

section Steps

variable (layout : Layout) (start : Dev) (link : Link) (alone : Dev) (answered : List (AdminCommand × Option Reply))

theorem submit_linked (cmd : AdminCommand) (linked : Linked layout start link alone answered) (obeys : Obeys layout link (.submit cmd)) :
    Linked layout start (submitCommand layout link cmd) alone answered := by
  obtain ⟨numbered, room, owed⟩ := obeys
  have behind := linked.behind
  have announced := linked.announced
  refine { linked with ran := ?_, sq := ?_, room := ?_, announced := ?_, owed := owed, numbered := ?_ }
  · have kept : (link.submitted ++ [cmd]).take link.served = link.submitted.take link.served := List.take_append_of_le_length (by omega)
    exact kept ▸ linked.ran
  · have pushed := PhasedRing.kept_push _ _ _ _ cmd linked.sq (by omega)
    rw [← update_slot link.memory.commands (sqSlot layout) _ cmd (sq_slot_apart layout _)] at pushed
    exact pushed
  · simp only [submitCommand, List.length_append, List.length_singleton]
    exact room
  · simp only [submitCommand, List.length_append, List.length_singleton]
    omega
  · intro other there
    rcases List.mem_append.mp there with old | new
    · exact linked.numbered other old
    · rw [List.mem_singleton.mp new]
      exact numbered

theorem pass_at_congr (other : Link) (pass : other.pass = link.pass) (oldDb : other.dev.oldDbs 0 = link.dev.oldDbs 0)
    (served : other.served = link.served) (announced : link.announced ≤ other.announced) (atPass : PassAt layout link) : PassAt layout other := by
  unfold PassAt at atPass ⊢
  rw [pass, served, oldDb]
  cases now : link.pass with
  | none =>
      rw [now] at atPass
      exact atPass
  | some under =>
      rw [now] at atPass
      exact ⟨atPass.1, atPass.2.1, atPass.2.2.1, Nat.le_trans atPass.2.2.2 announced⟩

theorem ring_linked (linked : Linked layout start link alone answered) : Linked layout start (ringDoorbell layout link) alone answered := by
  refine { linked with same := ?_, behind := ?_, announced := Nat.le_refl _, db := ?_, pass := ?_ }
  · exact ⟨linked.same.tables, linked.same.ns, linked.same.mdts⟩
  · exact Nat.le_trans linked.behind linked.announced
  · simp [ringDoorbell]
  · exact pass_at_congr layout link _ rfl rfl rfl linked.announced linked.pass

theorem posted_near (linked : Linked layout start link alone answered) :
    (completionsOf layout answered).length ≤ link.taken.length + layout.cqDepth := by
  have posted := serve_alone_counts layout answered start alone _ linked.ran
  have fewer : (link.submitted.take link.served).countP (fun cmd => completes cmd.request) ≤ link.submitted.countP fun cmd => completes cmd.request :=
    (List.take_sublist _ _).countP_le
  have owed := linked.owed
  omega

theorem head_new_iff (linked : Linked layout start link alone answered) :
    headIsNew layout link ↔ link.taken.length < (completionsOf layout answered).length := by
  have near := posted_near layout start link alone answered linked
  have shows := PhasedRing.head_shows _ _ _ _ link.taken.length linked.cq linked.cqPositive linked.count near
  rw [← shows, isTagged, ← lap_of_phase]
  have bit := pass_phase_bit layout.cqDepth link.taken.length
  unfold headIsNew headEntry
  rw [decide_eq_decide]
  omega

theorem take_linked (linked : Linked layout start link alone answered) (new : headIsNew layout link) :
    Linked layout start (takeCompletion layout link) alone answered := by
  have near := posted_near layout start link alone answered linked
  have waiting := (head_new_iff layout start link alone answered linked).mp new
  have entry : headEntry layout link = (completionsOf layout answered)[link.taken.length] :=
    PhasedRing.head_item _ _ _ _ link.taken.length linked.cq near waiting
  refine { linked with same := ?_, db := ?_, pass := ?_, count := ?_, taken := ?_, owed := ?_ }
  · exact ⟨linked.same.tables, linked.same.ns, linked.same.mdts⟩
  · exact linked.db
  · exact pass_at_congr layout link _ rfl rfl rfl (Nat.le_refl _) linked.pass
  · simp only [takeCompletion, List.length_append, List.length_singleton]
    exact waiting
  · simp only [takeCompletion, List.length_append, List.length_singleton, List.take_succ_eq_append_getElem waiting, ← linked.taken, entry]
  · have owed := linked.owed
    simp only [takeCompletion, List.length_append, List.length_singleton]
    omega

theorem num_proc_distance (size front back : Nat) (order : back ≤ front) (near : front < back + size) :
    numProc size (front % size) (back % size) = front - back := by
  have far := WrapAround.distance size front back order near
  unfold numProc
  push_cast
  rw [far]
  exact Int.toNat_natCast _

theorem look_linked (queue : AdminQueue) (linked : Linked layout start link alone answered) (idle : link.pass = none)
    (found : link.dev.adminQ = some queue) :
    Linked layout start
      { link with pass := some ⟨queue.sqDepth, link.dev.dbs 0, link.dev.oldDbs 0, numProc queue.sqDepth (link.dev.dbs 0) (link.dev.oldDbs 0)⟩ }
      alone answered := by
  obtain ⟨other, there, fits, _, _⟩ := linked.queue
  have same : queue = other := Option.some.inj (found.symm.trans there)
  have atPass : link.dev.oldDbs 0 = link.served % layout.sqDepth := by
    have pass := linked.pass
    unfold PassAt at pass
    rw [idle] at pass
    exact pass
  have behind := linked.behind
  have announced := linked.announced
  have room := linked.room
  have left : numProc queue.sqDepth (link.dev.dbs 0) (link.dev.oldDbs 0) = link.announced - link.served := by
    rw [same, fits.sqDepth, linked.db, atPass]
    exact num_proc_distance layout.sqDepth link.announced link.served behind (by omega)
  have whole : link.served + (link.announced - link.served) = link.announced := Nat.add_sub_of_le behind
  refine { linked with pass := ?_ }
  simp only [PassAt, left, whole]
  exact ⟨by rw [same, fits.sqDepth], atPass, linked.db, Nat.le_refl _⟩

theorem post_linked (dev : Dev) (queue : AdminQueue) (cmd : AdminCommand) (reply : Option Reply) (after : Dev) (memory : HostMemory)
    (linked : Linked layout start link alone answered) (found : link.dev.adminQ = some queue) (adminQ : dev.adminQ = some queue)
    (posted : postReply dev link.memory queue (answered.length % layout.sqDepth) cmd.commandId reply = .ok (after, memory)) :
    (∃ queue, after = { dev with adminQ := some queue } ∧ Fits layout queue ∧
      queue.phase = passPhase layout.cqDepth (completionsOf layout (answered ++ [(cmd, reply)])).length ∧
      queue.cqHead = (completionsOf layout (answered ++ [(cmd, reply)])).length % layout.cqDepth) ∧
    memory.commands = link.memory.commands ∧
    PhasedRing.Tagged layout.cqDepth isTagged (fun slot => memory.completions (cqSlot layout slot)) (completionsOf layout (answered ++ [(cmd, reply)])) ∧
    completionsOf layout answered <+: completionsOf layout (answered ++ [(cmd, reply)]) := by
  obtain ⟨other, there, fits, phase, head⟩ := linked.queue
  have same : other = queue := Option.some.inj (there.symm.trans found)
  subst same
  cases reply with
  | none =>
      cases posted
      rw [completions_none]
      exact ⟨⟨other, by rw [← adminQ], fits, phase, head⟩, rfl, linked.cq, List.prefix_rfl⟩
  | some reply =>
      have inside : other.cqHead < layout.cqDepth := by
        rw [head]
        exact Nat.mod_lt _ linked.cqPositive
      have entry := cq_entry_at layout other fits other.cqHead inside
      simp only [postReply, makeCqEntryResults, entry] at posted
      cases posted
      rw [completions_some]
      have next := next_head layout _ other.cqHead other.phase linked.cqPositive head phase
      have tagged := filled_tag layout (completionsOf layout answered).length
        ⟨0, answered.length % layout.sqDepth, cmd.commandId, reply.ret.code, reply.result0, reply.result1⟩
      refine ⟨⟨_, rfl, ⟨fits.sqDepth, fits.cqDepth, fits.sq, fits.cq⟩, ?_, ?_⟩, rfl, ?_, List.prefix_append _ _⟩
      · simp only [List.length_append, List.length_singleton, fits.cqDepth]
        exact next.2
      · simp only [List.length_append, List.length_singleton, fits.cqDepth]
        exact next.1
      · have pushed := PhasedRing.tagged_push _ _ _ _ _ linked.cq tagged
        rw [← head, ← phase] at pushed
        rw [← update_slot link.memory.completions (cqSlot layout) _ _ (cq_slot_apart layout _)] at pushed
        rw [← phase]
        exact pushed

theorem same_tables_symm (first second : Dev) (same : SameTables first second) : SameTables second first :=
  ⟨same.tables.symm, same.ns.symm, same.mdts.symm⟩

theorem proc_req_cases (dev : Dev) (memory : HostMemory) (entryId : Nat) (after : Dev) (afterMemory : HostMemory)
    (ran : nvmevProcAdminReq dev memory entryId = .ok (after, afterMemory)) :
    ∃ queue place middle reply, dev.adminQ = some queue ∧ entryAt nrSqePerPage queue.nvmeSq entryId = .ok place ∧
      adminRequest dev (memory.commands place).request = .ok (middle, reply) ∧
      postReply middle memory queue entryId (memory.commands place).commandId reply = .ok (after, afterMemory) := by
  unfold nvmevProcAdminReq at ran
  cases found : dev.adminQ with
  | none =>
      rw [found] at ran
      cases ran
  | some queue =>
      rw [found] at ran
      obtain ⟨place, looked, later⟩ := bind_ok _ _ _ ran
      obtain ⟨result, served, posted⟩ := bind_ok _ _ _ later
      exact ⟨queue, place, result.1, result.2, rfl, looked, served, posted⟩

theorem served_length (linked : Linked layout start link alone answered) : answered.length = link.served := by
  have cmds := serve_alone_runs start _ alone answered linked.ran
  have behind := linked.behind
  have announced := linked.announced
  have length := congrArg List.length cmds
  rw [List.length_map, List.length_take] at length
  omega

theorem next_turn (pass : Pass) (sqDepth served : Nat) (positive : 0 < sqDepth) (depth : pass.sqDepth = sqDepth) (atPass : pass.curr = served % sqDepth) :
    nextEntry pass = (served + 1) % sqDepth := by
  rw [nextEntry, atPass, depth]
  exact WrapAround.next_position sqDepth served positive

theorem serve_linked (pass : Pass) (left : Nat) (after : Dev) (memory : HostMemory) (linked : Linked layout start link alone answered)
    (busy : link.pass = some pass) (more : pass.left = left + 1) (ran : nvmevProcAdminReq link.dev link.memory pass.curr = .ok (after, memory)) :
    ∃ next answers, Linked layout start
      { link with dev := after, memory := memory, pass := some { pass with curr := nextEntry pass, left := left }, served := link.served + 1 }
      next answers := by
  have atPass := linked.pass
  unfold PassAt at atPass
  rw [busy] at atPass
  obtain ⟨depth, curr, newDb, within⟩ := atPass
  have announced := linked.announced
  have inside : link.served < link.submitted.length := by omega
  obtain ⟨queue, place, middle, reply, found, looked, performed, posted⟩ := proc_req_cases _ _ _ _ _ ran
  -- The entry is the command that is next in turn.
  obtain ⟨other, there, fits, _, _⟩ := linked.queue
  have same : other = queue := Option.some.inj (there.symm.trans found)
  subst same
  have entry := sq_entry_at layout other fits pass.curr (by rw [curr]; exact Nat.mod_lt _ linked.sqPositive)
  have spot : place = sqSlot layout (link.served % layout.sqDepth) := by
    rw [entry] at looked
    cases looked
    rw [curr]
  have held : link.memory.commands place = link.submitted[link.served] := by
    rw [spot]
    exact PhasedRing.kept_item _ _ _ _ linked.sq link.served (Nat.le_refl _) inside
  generalize told : link.submitted[link.served] = cmd at held
  rw [held] at performed posted
  have numbered : Numbered cmd.request := told ▸ linked.numbered _ (List.getElem_mem inside)
  -- Alone it does the same.
  have served := request_served link.dev cmd.request middle reply performed
  obtain ⟨next, again, tables⟩ := served.again alone (same_tables_symm _ _ linked.same)
  have taken : link.submitted.take (link.served + 1) = link.submitted.take link.served ++ [cmd] := by
    rw [List.take_succ_eq_append_getElem inside, told]
  have stillAlone := serve_alone_last start alone next _ answered cmd reply linked.ran again
  -- The completion goes in turn.
  have length := served_length layout start link alone answered linked
  rw [curr, ← length] at posted
  obtain ⟨⟨queue, result, fitting, phase, head⟩, commands, cq, extension⟩ :=
    post_linked layout start link alone answered middle other cmd reply after memory linked found (served.untouched.adminQ.trans found) posted
  have doorbells := served.doorbells numbered
  subst result
  refine ⟨next, answered ++ [(cmd, reply)], ?_⟩
  refine { linked with ran := ?_, same := ?_, queue := ⟨queue, rfl, fitting, phase, head⟩, sq := ?_, room := ?_, behind := ?_,
                       announced := announced, db := ?_, pass := ?_, cq := cq, count := ?_, taken := ?_ }
  · rw [taken]
    exact stillAlone
  · exact same_tables_symm _ _ ⟨tables.tables, tables.ns, tables.mdts⟩
  · rw [commands]
    exact PhasedRing.kept_pass _ _ _ _ _ linked.sq (Nat.le_succ _)
  · have room := linked.room
    show link.submitted.length < link.served + 1 + layout.sqDepth
    omega
  · show link.served + 1 ≤ link.announced
    omega
  · exact (doorbells.dbs 0 (by decide)).trans linked.db
  · refine ⟨depth, ?_, ?_, ?_⟩
    · exact next_turn pass layout.sqDepth link.served linked.sqPositive depth curr
    · rw [more] at newDb
      rw [newDb, Nat.add_assoc, Nat.add_comm 1 left]
    · show link.served + 1 + left ≤ link.announced
      omega
  · exact Nat.le_trans linked.count extension.length_le
  · obtain ⟨rest, extended⟩ := extension
    rw [← extended, List.take_append_of_le_length linked.count]
    exact linked.taken

theorem finish_linked (pass : Pass) (linked : Linked layout start link alone answered) (busy : link.pass = some pass) (all : pass.left = 0) :
    Linked layout start
      { link with dev := { link.dev with oldDbs := Function.update link.dev.oldDbs 0 pass.newDb }, pass := none } alone answered := by
  have atPass := linked.pass
  unfold PassAt at atPass
  rw [busy] at atPass
  obtain ⟨_, _, newDb, _⟩ := atPass
  refine { linked with same := ⟨linked.same.tables, linked.same.ns, linked.same.mdts⟩, pass := ?_ }
  simp [PassAt, newDb, all]

theorem doorbells_linked (dbs oldDbs : Nat → Nat) (linked : Linked layout start link alone answered) (db : dbs 0 = link.dev.dbs 0)
    (oldDb : oldDbs 0 = link.dev.oldDbs 0) : Linked layout start { link with dev := { link.dev with dbs := dbs, oldDbs := oldDbs } } alone answered := by
  refine { linked with same := ⟨linked.same.tables, linked.same.ns, linked.same.mdts⟩, db := db.trans linked.db, pass := ?_ }
  exact pass_at_congr layout link _ rfl oldDb rfl (Nat.le_refl _) linked.pass

theorem look_cq_linked (linked : Linked layout start link alone answered) :
    Linked layout start { link with dev := procDbsAdminCq link.dev } alone answered := by
  unfold procDbsAdminCq
  split
  · exact linked
  · exact doorbells_linked layout start link alone answered link.dev.dbs _ linked rfl (Function.update_of_ne (by decide) _ _)

theorem start_linked (started : LinkStart layout start link) : Linked layout start link start [] := by
  obtain ⟨dev, ready, sqPositive, cqPositive, clear, idle, submitted, announced, served, taken⟩ := started
  obtain ⟨queue, found, fits, phase, head⟩ := ready.queue
  refine ⟨sqPositive, cqPositive, ?_, ?_, ⟨queue, dev ▸ found, fits, ?_, ?_⟩, ?_, ?_, ?_, ?_, ?_, ?_, ?_, ?_, ?_, ?_, ?_⟩
  · simp [submitted, serveAlone]
  · rw [dev]
    exact same_tables_refl start
  · simp [phase, completionsOf, passPhase]
  · simp [head, completionsOf]
  · rw [submitted, served]
    exact PhasedRing.kept_start _ _
  · simp [submitted, served, sqPositive]
  · simp [served]
  · simp [announced]
  · simp [dev, ready.db, announced]
  · simp [PassAt, idle, dev, ready.oldDb, served]
  · refine PhasedRing.tagged_start _ _ _ fun slot inside => ?_
    simp [isTagged, clear slot inside]
  · simp [taken]
  · simp [taken]
  · simp [submitted]
  · simp [submitted]

theorem step_linked (next : Link) (event : LinkEvent) (linked : Linked layout start link alone answered) (obeys : Obeys layout link event)
    (taken : LinkStep layout link event next) : ∃ nextAlone answers, Linked layout start next nextAlone answers := by
  cases taken with
  | submit cmd => exact ⟨alone, answered, submit_linked layout start link alone answered cmd linked obeys⟩
  | ring => exact ⟨alone, answered, ring_linked layout start link alone answered linked⟩
  | take new => exact ⟨alone, answered, take_linked layout start link alone answered linked new⟩
  | look queue idle found rung => exact ⟨alone, answered, look_linked layout start link alone answered queue linked idle found⟩
  | serve pass left dev memory busy more ran => exact serve_linked layout start link alone answered pass left dev memory linked busy more ran
  | finish pass busy all => exact ⟨alone, answered, finish_linked layout start link alone answered pass linked busy all⟩
  | lookCq idle => exact ⟨alone, answered, look_cq_linked layout start link alone answered linked⟩
  | other dbs oldDbs db oldDb =>
      exact ⟨alone, answered, doorbells_linked layout start link alone answered dbs oldDbs linked (db 0 (by decide)) (oldDb 0 (by decide))⟩

end Steps

section Runs

variable (layout : Layout) (start : Dev)

theorem link_invariant :
    TransitionSystem.Invariant (linkSystem layout start) (Obeys layout) fun link => ∃ alone answered, Linked layout start link alone answered := by
  refine ⟨fun link started => ⟨start, [], start_linked layout start link started⟩, ?_⟩
  rintro link next event ⟨alone, answered, linked⟩ obeys taken
  exact step_linked layout start link alone answered next event linked obeys taken

-- Whatever the order in which host and device take their steps, the device is
-- where the commands served so far lead one after another in the order of their
-- submission, the host has taken their completions in that order, and it sees a
-- further one just when there is one.
theorem admin_commands_in_order (link : Link) (reached : TransitionSystem.Reach (linkSystem layout start) (Obeys layout) link) :
    ∃ alone answered, serveAlone start (link.submitted.take link.served) = .ok (alone, answered) ∧ SameTables alone link.dev ∧
      link.taken = (completionsOf layout answered).take link.taken.length ∧
      (headIsNew layout link ↔ link.taken.length < (completionsOf layout answered).length) := by
  obtain ⟨alone, answered, linked⟩ := TransitionSystem.reach_invariant _ _ _ (link_invariant layout start) link reached
  exact ⟨alone, answered, linked.ran, linked.same, linked.taken, head_new_iff layout start link alone answered linked⟩

-- A queue is under an id just as the last command served that names the id has
-- left it.
theorem queues_as_last_told (link : Link) (reached : TransitionSystem.Reach (linkSystem layout start) (Obeys layout) link) :
    (∀ qid, link.dev.tables.sqes qid = lastTold (start.tables.sqes qid) (toldSq qid) (link.submitted.take link.served)) ∧
      (∀ qid, link.dev.tables.cqes qid = lastTold (start.tables.cqes qid) (toldCq qid) (link.submitted.take link.served)) ∧
      (link.dev.tables.nrSq, link.dev.tables.nrCq) =
        lastTold (start.tables.nrSq, start.tables.nrCq) toldCounts (link.submitted.take link.served) := by
  obtain ⟨alone, answered, linked⟩ := TransitionSystem.reach_invariant _ _ _ (link_invariant layout start) link reached
  rw [← linked.same.tables]
  refine ⟨fun qid => ?_, fun qid => ?_, ?_⟩
  · exact serve_alone_told (toldSq qid) (fun dev => dev.tables.sqes qid)
      (fun dev request after reply served => (request_tells dev request after reply served).sqes qid) start alone _ answered linked.ran
  · exact serve_alone_told (toldCq qid) (fun dev => dev.tables.cqes qid)
      (fun dev request after reply served => (request_tells dev request after reply served).cqes qid) start alone _ answered linked.ran
  · exact serve_alone_told toldCounts (fun dev => (dev.tables.nrSq, dev.tables.nrCq))
      (fun dev request after reply served => (request_tells dev request after reply served).counts) start alone _ answered linked.ran

end Runs

section Samples

def sampleLayout : Layout := ⟨1, 2, 2, 2⟩

def sampleTables : Tables := ⟨fun _ => none, fun _ => none, 0, 0, []⟩

def sampleStart : Dev :=
  { bar := ⟨0x10001, 4096, 8192, 1⟩, rdy := 1, shst := 0, oldBar := ⟨0x10001, 4096, 8192, 1⟩,
    adminQ := some ⟨1, 2, 2, 0, some ⟨1, 1⟩, some ⟨2, 1⟩⟩, dbs := fun _ => 0, oldDbs := fun _ => 0, tables := sampleTables,
    ns := [⟨2, 2 ^ 30, none⟩], mdts := 6 }

def sampleMemory : HostMemory := ⟨fun _ => ⟨0, .asyncEvent⟩, fun _ => ⟨0, 0, 0, 0, 0, 0⟩⟩

def sampleLink : Link := ⟨sampleStart, sampleMemory, none, [], 0, 0, []⟩

def sampleCommand : AdminCommand := ⟨7, .createCq ⟨3 * 4096, 1, 15, 3, 1⟩⟩

theorem sample_link_start : LinkStart sampleLayout sampleStart sampleLink := by
  refine ⟨rfl, ⟨⟨_, rfl, ⟨rfl, rfl, ⟨_, rfl, rfl, by decide⟩, ⟨_, rfl, rfl, by decide⟩⟩, rfl, rfl⟩, rfl, rfl⟩, by decide, by decide, ?_, rfl, rfl,
    rfl, rfl, rfl⟩
  intro slot _
  rfl

theorem sample_link_reached : ∃ link, TransitionSystem.Reach (linkSystem sampleLayout sampleStart) (Obeys sampleLayout) link ∧
    link.pass = none ∧ link.submitted = [sampleCommand] ∧ link.served = 1 ∧ link.taken.length = 1 := by
  have started : TransitionSystem.Reach (linkSystem sampleLayout sampleStart) (Obeys sampleLayout) sampleLink :=
    .start sampleLink sample_link_start
  have numbered : Numbered sampleCommand.request := Nat.one_ne_zero
  have submitted := TransitionSystem.Reach.next _ _ (LinkEvent.submit sampleCommand) started ⟨numbered, by decide, by decide⟩ (.submit _ _)
  have rung := TransitionSystem.Reach.next _ _ LinkEvent.ring submitted trivial (.ring _)
  have looked := TransitionSystem.Reach.next _ _ LinkEvent.look rung trivial (.look _ _ rfl rfl (by decide))
  have served := TransitionSystem.Reach.next _ _ LinkEvent.serve looked trivial (.serve _ _ 0 _ _ rfl rfl rfl)
  have finished := TransitionSystem.Reach.next _ _ LinkEvent.finish served trivial (.finish _ _ rfl rfl)
  have taken := TransitionSystem.Reach.next _ _ LinkEvent.take finished trivial (.take _ rfl)
  exact ⟨_, taken, rfl, rfl, rfl, rfl⟩

theorem sample_in_order : ∃ (alone : Dev) (answered : List (AdminCommand × Option Reply)) (link : Link), serveAlone sampleStart [sampleCommand] = .ok (alone, answered) ∧
    SameTables alone link.dev ∧ link.taken = (completionsOf sampleLayout answered).take 1 := by
  obtain ⟨link, reached, _, submitted, served, one⟩ := sample_link_reached
  obtain ⟨alone, answered, ran, same, taken, _⟩ := admin_commands_in_order sampleLayout sampleStart link reached
  rw [submitted, served] at ran
  rw [one] at taken
  exact ⟨alone, answered, link, ran, same, taken⟩

theorem sample_queue_told : ∃ link : Link, link.submitted = [sampleCommand] ∧
    (link.dev.tables.cqes 1).map IoCq.queueSize = some 16 ∧ link.dev.tables.cqes 2 = none := by
  obtain ⟨link, reached, _, submitted, served, _⟩ := sample_link_reached
  obtain ⟨_, cqes, _⟩ := queues_as_last_told sampleLayout sampleStart link reached
  refine ⟨link, submitted, ?_, ?_⟩
  · rw [cqes 1, submitted, served]
    rfl
  · rw [cqes 2, submitted, served]
    rfl

end Samples

end ConZone.Admin
