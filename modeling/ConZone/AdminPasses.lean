import ConZone.AdminRuns

set_option autoImplicit false

namespace ConZone.Admin

def PageFits (data : DataPointer) : Prop := data.prp1 % pageSize = 0 ∨ data.prp1 % pageSize + data.prp2 % pageSize ≤ pageSize

def Exists (ns : List Namespace) (nsid : Nat) : Prop := 0 < nsid ∧ nsid ≤ ns.length

def Proper (ns : List Namespace) : AdminRequest → Prop
  | .deleteSq qid | .deleteCq qid => qid ≤ nrMaxIoQueue
  | .createSq cmd => 0 < cmd.sqid ∧ cmd.sqid ≤ nrMaxIoQueue
  | .createCq cmd => 0 < cmd.cqid ∧ cmd.cqid ≤ nrMaxIoQueue
  | .identify cmd => PageFits cmd.data ∧ (cmd.cns = 0x00 ∨ cmd.cns = 0x03 ∨ cmd.cns = 0x05 → Exists ns cmd.nsid)
  | _ => True

def ZonedCsi (ns : List Namespace) : Prop := ∀ found ∈ ns, found.zp.isSome = true → found.csi = nvmeCsiZns

def ObeysProperly (layout : Layout) (ns : List Namespace) (link : Link) (event : LinkEvent) : Prop :=
  Obeys layout link event ∧ ∀ cmd, event = .submit cmd → Proper ns cmd.request

section Pages

variable (data : DataPointer)

theorem prp_write_end (fuel prpOffs : Nat) (list : Option Nat) : prpWriteData data fuel prpOffs list 0 = .ok ([], true) := by
  cases fuel <;> simp [prpWriteData]

theorem prp_write_second (fuel remaining : Nat) (fits : remaining + data.prp2 % pageSize ≤ pageSize) :
    ∃ result, prpWriteData data (fuel + 1) 1 none remaining = .ok result := by
  by_cases empty : remaining = 0
  · exact ⟨_, by rw [empty, prp_write_end]⟩
  · by_cases zero : data.prp2 = 0
    · exact ⟨([], false), by simp [prpWriteData, empty, zero]⟩
    · have direct : ¬pageSize < remaining := by omega
      have whole : ioSizeAt data.prp2 remaining = remaining := by
        have least : min remaining pageSize = remaining := by omega
        simp only [ioSizeAt, least]
        exact if_neg (by omega)
      refine ⟨([(data.prp2, remaining)], true), ?_⟩
      simp only [prpWriteData, if_neg empty, zero, and_false, if_false, prpAt, if_neg direct, whole, Nat.sub_self, prp_write_end]
      rfl

theorem prp_write_first (fuel : Nat) (fits : PageFits data) : ∃ result, prpWriteData data (fuel + 2) 0 none pageSize = .ok result := by
  have positive : pageSize ≠ 0 := by decide
  by_cases zero : data.prp1 = 0
  · exact ⟨([], false), by simp [prpWriteData, prpAt, zero, positive]⟩
  · have first : ioSizeAt data.prp1 pageSize = pageSize - data.prp1 % pageSize := by
      unfold ioSizeAt
      by_cases aligned : data.prp1 % pageSize = 0
      · simp [aligned]
      · have past : data.prp1 % pageSize ≠ 0 ∧ pageSize < min pageSize pageSize + data.prp1 % pageSize := ⟨aligned, by omega⟩
        rw [if_pos past]
    have below : data.prp1 % pageSize < pageSize := Nat.mod_lt _ (by decide)
    have rest : pageSize - (pageSize - data.prp1 % pageSize) = data.prp1 % pageSize := by omega
    have second : ∃ result, prpWriteData data (fuel + 1) 1 none (data.prp1 % pageSize) = .ok result := by
      rcases fits with aligned | within
      · exact ⟨_, by rw [aligned, prp_write_end]⟩
      · exact prp_write_second data fuel _ within
    obtain ⟨result, ran⟩ := second
    refine ⟨((data.prp1, pageSize - data.prp1 % pageSize) :: result.1, result.2), ?_⟩
    rw [prpWriteData]
    simp only [if_neg positive, prpAt, if_neg zero, first, rest, Nat.zero_add, ran]
    simp

theorem prp_write_ok (fits : PageFits data) : ∃ result, prpWriteData data pageSize 0 none pageSize = .ok result :=
  prp_write_first data 4094 fits

theorem send_page_runs (dev : Dev) (cmd : Identify) (page : DataPage) (fits : PageFits cmd.data) :
    ∃ result, sendPage dev cmd page = .ok result := by
  obtain ⟨pieces, ran⟩ := prp_write_ok cmd.data fits
  simp only [sendPage, ran]
  exact ⟨_, rfl⟩

theorem namespace_found (dev : Dev) (nsid : Nat) (there : Exists dev.ns nsid) : ∃ found ∈ dev.ns, namespaceOf dev nsid = .ok found := by
  obtain ⟨positive, within⟩ := there
  have inside : nsid - 1 < dev.ns.length := by omega
  refine ⟨dev.ns[nsid - 1], List.getElem_mem inside, ?_⟩
  simp [namespaceOf, Nat.ne_of_gt positive, List.getElem?_eq_getElem inside]

theorem identify_runs (dev : Dev) (cmd : Identify) (zoned : ZonedCsi dev.ns) (fits : PageFits cmd.data)
    (there : cmd.cns = 0x00 ∨ cmd.cns = 0x03 ∨ cmd.cns = 0x05 → Exists dev.ns cmd.nsid) :
    ∃ result, nvmevAdminIdentify dev cmd = .ok result := by
  unfold nvmevAdminIdentify
  split
  · rename_i which
    obtain ⟨found, _, looked⟩ := namespace_found dev cmd.nsid (there (.inl which))
    simp only [nvmevAdminIdentifyNamespace, looked]
    exact send_page_runs dev cmd _ fits
  · exact send_page_runs dev cmd _ fits
  · exact send_page_runs dev cmd _ fits
  · rename_i which
    obtain ⟨found, _, looked⟩ := namespace_found dev cmd.nsid (there (.inr (.inl which)))
    simp only [nvmevAdminIdentifyNamespaceDesc, looked]
    exact send_page_runs dev cmd _ fits
  · rename_i which
    obtain ⟨found, member, looked⟩ := namespace_found dev cmd.nsid (there (.inr (.inr which)))
    simp only [nvmevAdminIdentifyZnsNamespace, looked]
    change ∃ result, sendZnsNamespace dev cmd found = .ok result
    unfold sendZnsNamespace
    cases limits : found.zp with
    | none => exact send_page_runs dev cmd _ fits
    | some zpp =>
        have csi := zoned found member (by rw [limits]; rfl)
        simp only [csi, ne_eq, not_true_eq_false, if_false]
        exact send_page_runs dev cmd _ fits
  · exact send_page_runs dev cmd _ fits
  · exact ⟨_, rfl⟩

theorem request_runs (dev : Dev) (request : AdminRequest) (zoned : ZonedCsi dev.ns) (proper : Proper dev.ns request) :
    ∃ result, adminRequest dev request = .ok result := by
  cases request with
  | deleteSq qid =>
      have inside : ¬nrMaxIoQueue < qid := Nat.not_lt.mpr proper
      exact ⟨_, by simp only [adminRequest, nvmevAdminDeleteSq, if_neg inside]; rfl⟩
  | createSq cmd =>
      have inside : ¬nrMaxIoQueue < cmd.sqid := Nat.not_lt.mpr proper.2
      exact ⟨_, by simp only [adminRequest, nvmevAdminCreateSq, if_neg inside]; rfl⟩
  | deleteCq qid =>
      have inside : ¬nrMaxIoQueue < qid := Nat.not_lt.mpr proper
      exact ⟨_, by simp only [adminRequest, nvmevAdminDeleteCq, if_neg inside]; rfl⟩
  | createCq cmd =>
      have inside : ¬nrMaxIoQueue < cmd.cqid := Nat.not_lt.mpr proper.2
      exact ⟨_, by simp only [adminRequest, nvmevAdminCreateCq, if_neg inside]; rfl⟩
  | identify cmd =>
      obtain ⟨result, ran⟩ := identify_runs dev cmd zoned proper.1 proper.2
      exact ⟨_, by simp only [adminRequest, ran]; rfl⟩
  | getLogPage cmd => exact ⟨_, rfl⟩
  | abortCmd => exact ⟨_, rfl⟩
  | setFeatures fid dword11 => exact ⟨_, rfl⟩
  | getFeatures fid => exact ⟨_, rfl⟩
  | asyncEvent => exact ⟨_, rfl⟩
  | unhandled opcode => exact ⟨_, rfl⟩

end Pages

section Passes

variable (layout : Layout) (start : Dev)

theorem serve_alone_ns (dev after : Dev) (cmds : List AdminCommand) (answered : List (AdminCommand × Option Reply))
    (ran : serveAlone dev cmds = .ok (after, answered)) : after.ns = dev.ns := by
  induction cmds generalizing dev answered with
  | nil =>
      cases ran
      rfl
  | cons cmd rest ih =>
      obtain ⟨first, now, later⟩ := bind_ok _ _ _ ran
      obtain ⟨others, onward, result⟩ := bind_ok _ _ _ later
      cases result
      rw [ih first.1 others.2 onward]
      exact (request_served dev cmd.request first.1 first.2 now).untouched.ns

theorem proper_invariant (ns : List Namespace) :
    TransitionSystem.Invariant (linkSystem layout start) (ObeysProperly layout ns) fun link => ∀ cmd ∈ link.submitted, Proper ns cmd.request := by
  refine ⟨fun link started cmd there => ?_, fun link next event kept obeys taken => ?_⟩
  · rw [started.submitted] at there
    cases there
  · cases taken with
    | submit cmd =>
        intro other there
        rcases List.mem_append.mp there with old | new
        · exact kept other old
        · rw [List.mem_singleton.mp new]
          exact obeys.2 cmd rfl
    | ring => exact kept
    | take new => exact kept
    | look queue idle found rung => exact kept
    | serve pass left dev memory busy more ran => exact kept
    | finish pass busy all => exact kept
    | lookCq idle => exact kept
    | other dbs oldDbs db oldDb => exact kept

theorem reached_linked (ns : List Namespace) (link : Link)
    (reached : TransitionSystem.Reach (linkSystem layout start) (ObeysProperly layout ns) link) :
    ∃ alone answered, Linked layout start link alone answered := by
  have obeys := TransitionSystem.reach_mono _ _ (Obeys layout) (fun _ _ allowed => allowed.1) link reached
  exact TransitionSystem.reach_invariant _ _ _ (link_invariant layout start) link obeys

theorem post_runs (dev : Dev) (memory : HostMemory) (queue : AdminQueue) (eid commandId : Nat) (reply : Option Reply) (fits : Fits layout queue)
    (room : queue.cqHead < layout.cqDepth) : ∃ result, postReply dev memory queue eid commandId reply = .ok result := by
  cases reply with
  | none => exact ⟨_, rfl⟩
  | some reply =>
      simp only [postReply, makeCqEntryResults, cq_entry_at layout queue fits queue.cqHead room]
      exact ⟨_, rfl⟩

theorem turn_runs (link : Link) (pass : Pass) (left : Nat) (zoned : ZonedCsi start.ns)
    (reached : TransitionSystem.Reach (linkSystem layout start) (ObeysProperly layout start.ns) link) (busy : link.pass = some pass)
    (more : pass.left = left + 1) : ∃ dev memory, nvmevProcAdminReq link.dev link.memory pass.curr = .ok (dev, memory) := by
  obtain ⟨alone, answered, linked⟩ := reached_linked layout start start.ns link reached
  have atPass := linked.pass
  unfold PassAt at atPass
  rw [busy] at atPass
  obtain ⟨_, curr, _, within⟩ := atPass
  have announced := linked.announced
  have inside : link.served < link.submitted.length := by omega
  obtain ⟨queue, found, fits, phase, head⟩ := linked.queue
  have entry := sq_entry_at layout queue fits pass.curr (by rw [curr]; exact Nat.mod_lt _ linked.sqPositive)
  have held : link.memory.commands (sqSlot layout pass.curr) = link.submitted[link.served] := by
    rw [curr]
    exact PhasedRing.kept_item _ _ _ _ linked.sq link.served (Nat.le_refl _) inside
  have proper := TransitionSystem.reach_invariant _ _ _ (proper_invariant layout start start.ns) link reached _ (List.getElem_mem inside)
  have ns : link.dev.ns = start.ns := by
    rw [← linked.same.ns]
    exact serve_alone_ns start alone _ answered linked.ran
  rw [← ns, ← held] at proper
  rw [← ns] at zoned
  obtain ⟨⟨middle, reply⟩, ran⟩ := request_runs link.dev _ zoned proper
  have room : queue.cqHead < layout.cqDepth := by
    rw [head]
    exact Nat.mod_lt _ linked.cqPositive
  obtain ⟨⟨dev, memory⟩, posted⟩ := post_runs layout middle link.memory queue pass.curr
    (link.memory.commands (sqSlot layout pass.curr)).commandId reply fits room
  refine ⟨dev, memory, ?_⟩
  simp only [nvmevProcAdminReq, found]
  rw [entry]
  change (adminRequest link.dev (link.memory.commands (sqSlot layout pass.curr)).request >>= fun result =>
    postReply result.1 link.memory queue pass.curr (link.memory.commands (sqSlot layout pass.curr)).commandId result.2) = _
  rw [ran]
  exact posted

theorem loop_runs (zoned : ZonedCsi start.ns) (left : Nat) (link : Link) (pass : Pass)
    (reached : TransitionSystem.Reach (linkSystem layout start) (ObeysProperly layout start.ns) link) (busy : link.pass = some pass)
    (more : pass.left = left) : ∃ dev memory curr, procAdminSqLoop pass.sqDepth left pass.curr link.dev link.memory = .ok (dev, memory) ∧
      TransitionSystem.Reach (linkSystem layout start) (ObeysProperly layout start.ns)
        { link with dev := dev, memory := memory, pass := some ⟨pass.sqDepth, pass.newDb, curr, 0⟩, served := link.served + left } := by
  induction left generalizing link pass with
  | zero =>
      refine ⟨link.dev, link.memory, pass.curr, rfl, ?_⟩
      have same : some ⟨pass.sqDepth, pass.newDb, pass.curr, 0⟩ = link.pass := by rw [busy, ← more]
      rw [same]
      exact reached
  | succ left ih =>
      obtain ⟨dev, memory, ran⟩ := turn_runs layout start link pass left zoned reached busy more
      have turned := TransitionSystem.Reach.next _ _ LinkEvent.serve reached ⟨trivial, fun _ served => by cases served⟩
        (.serve link pass left dev memory busy more ran)
      obtain ⟨last, lastMemory, curr, looped, there⟩ := ih _ { pass with curr := nextEntry pass, left := left } turned rfl rfl
      refine ⟨last, lastMemory, curr, ?_, ?_⟩
      · simp only [procAdminSqLoop, ran]
        exact looped
      · rw [Nat.add_assoc, Nat.add_comm 1 left] at there
        exact there

theorem same_distance (size front back : Nat) (order : back ≤ front) (near : front < back + size) (same : front % size = back % size) :
    front = back := by
  rcases Nat.lt_or_ge back front with later | level
  · exact absurd same.symm (WrapAround.positions_apart size back front later near)
  · exact Nat.le_antisymm level order

end Passes

end ConZone.Admin
