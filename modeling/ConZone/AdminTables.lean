import ConZone.AdminQueue
import ConZone.Run

set_option autoImplicit false

namespace ConZone.Admin

structure SameTables (dev other : Dev) : Prop where
  tables : dev.tables = other.tables
  ns : dev.ns = other.ns
  mdts : dev.mdts = other.mdts

-- The ids of queues start behind that of the admin queue.
def Numbered : AdminRequest → Prop
  | .createSq cmd => cmd.sqid ≠ 0
  | .createCq cmd => cmd.cqid ≠ 0
  | _ => True

structure Untouched (dev after : Dev) : Prop where
  adminQ : after.adminQ = dev.adminQ
  bar : after.bar = dev.bar
  rdy : after.rdy = dev.rdy
  shst : after.shst = dev.shst
  oldBar : after.oldBar = dev.oldBar
  ns : after.ns = dev.ns
  mdts : after.mdts = dev.mdts

structure DoorbellsKept (dev after : Dev) : Prop where
  dbs : ∀ index, index < 2 → after.dbs index = dev.dbs index
  oldDbs : ∀ index, index < 2 → after.oldDbs index = dev.oldDbs index

-- An abort is not answered.
def completes : AdminRequest → Bool
  | .abortCmd => false
  | _ => true

structure Served (dev : Dev) (request : AdminRequest) (after : Dev) (reply : Option Reply) : Prop where
  untouched : Untouched dev after
  doorbells : Numbered request → DoorbellsKept dev after
  answered : reply.isSome = completes request
  again : ∀ other, SameTables dev other → ∃ otherAfter, adminRequest other request = .ok (otherAfter, reply) ∧ SameTables after otherAfter

-- One command after another, each with what it has passed on for its
-- completion.
def serveAlone : Dev → List AdminCommand → Exec (Dev × List (AdminCommand × Option Reply))
  | dev, [] => .ok (dev, [])
  | dev, cmd :: rest => do
      let (dev, reply) ← adminRequest dev cmd.request
      let (dev, answered) ← serveAlone dev rest
      pure (dev, (cmd, reply) :: answered)

-- What a request says about the queue with an id, and about how many queues
-- there are: the last word on each counts.
def toldSq (qid : Nat) : AdminRequest → Option (Option IoSq)
  | .createSq cmd => if cmd.sqid = qid then some (some (createdSq cmd)) else none
  | .deleteSq deleted => if deleted = qid then some none else none
  | _ => none

def toldCq (qid : Nat) : AdminRequest → Option (Option IoCq)
  | .createCq cmd => if cmd.cqid = qid then some (some (createdCq cmd)) else none
  | .deleteCq deleted => if deleted = qid then some none else none
  | _ => none

def toldCounts : AdminRequest → Option (Nat × Nat)
  | .setFeatures fid dword11 =>
      if fid = nvmeFeatNumQueues then some (min (dword11 % 2 ^ 16 + 1) nrMaxIoQueue, min (dword11 / 2 ^ 16 % 2 ^ 16 + 1) nrMaxIoQueue) else none
  | _ => none

def lastTold {α : Type} (before : α) (told : AdminRequest → Option α) (cmds : List AdminCommand) : α :=
  (cmds.filterMap fun cmd => told cmd.request).getLast?.getD before

section Requests

variable (dev : Dev)

theorem same_tables_refl : SameTables dev dev := ⟨rfl, rfl, rfl⟩

theorem untouched_refl : Untouched dev dev := ⟨rfl, rfl, rfl, rfl, rfl, rfl, rfl⟩

theorem doorbells_refl : DoorbellsKept dev dev := ⟨fun _ _ => rfl, fun _ _ => rfl⟩

theorem clear_doorbell_kept (tables : Tables) (index : Nat) (far : 2 ≤ index) :
    DoorbellsKept dev (clearDoorbell { dev with tables := tables } index) := by
  refine ⟨fun other near => ?_, fun other near => ?_⟩
  · exact Function.update_of_ne (by omega) _ _
  · exact Function.update_of_ne (by omega) _ _

theorem send_page_ok (cmd : Identify) (page : DataPage) (after : Dev) (reply : Reply) (ran : sendPage dev cmd page = .ok (after, reply)) :
    ∃ pieces, after = deliver dev page pieces ∧ ∀ other, sendPage other cmd page = .ok (deliver other page pieces, reply) := by
  unfold sendPage at ran ⊢
  cases sent : prpWriteData cmd.data pageSize 0 none pageSize with
  | error fault =>
      rw [sent] at ran
      cases ran
  | ok result =>
      rw [sent] at ran
      cases ran
      exact ⟨result.1, rfl, fun _ => rfl⟩

theorem namespace_of_same (other : Dev) (same : SameTables dev other) (nsid : Nat) : namespaceOf dev nsid = namespaceOf other nsid := by
  simp [namespaceOf, same.ns]

theorem identify_cases (cmd : Identify) (after : Dev) (reply : Reply) (ran : nvmevAdminIdentify dev cmd = .ok (after, reply)) :
    (∃ page pieces, after = deliver dev page pieces ∧
        ∀ other, SameTables dev other → nvmevAdminIdentify other cmd = .ok (deliver other page pieces, reply)) ∨
      after = dev ∧ ∀ other, nvmevAdminIdentify other cmd = .ok (other, reply) := by
  unfold nvmevAdminIdentify at ran ⊢
  split at ran
  · obtain ⟨found, looked, sent⟩ := bind_ok _ _ _ ran
    obtain ⟨pieces, result, again⟩ := send_page_ok dev cmd _ after reply sent
    refine .inl ⟨_, pieces, result, fun other same => ?_⟩
    simp only [nvmevAdminIdentifyNamespace, ← namespace_of_same dev other same, looked]
    exact again other
  · obtain ⟨pieces, result, again⟩ := send_page_ok dev cmd _ after reply ran
    refine .inl ⟨_, pieces, result, fun other same => ?_⟩
    simp only [nvmevAdminIdentifyCtrl, ← same.ns, ← same.mdts]
    exact again other
  · obtain ⟨pieces, result, again⟩ := send_page_ok dev cmd _ after reply ran
    refine .inl ⟨_, pieces, result, fun other same => ?_⟩
    simp only [nvmevAdminIdentifyNamespaces, ← same.ns]
    exact again other
  · obtain ⟨found, looked, sent⟩ := bind_ok _ _ _ ran
    obtain ⟨pieces, result, again⟩ := send_page_ok dev cmd _ after reply sent
    refine .inl ⟨_, pieces, result, fun other same => ?_⟩
    simp only [nvmevAdminIdentifyNamespaceDesc, ← namespace_of_same dev other same, looked]
    exact again other
  · obtain ⟨found, looked, sent⟩ := bind_ok _ _ _ ran
    have step : ∀ other, SameTables dev other → nvmevAdminIdentifyZnsNamespace other cmd = sendZnsNamespace other cmd found := by
      intro other same
      simp only [nvmevAdminIdentifyZnsNamespace, ← namespace_of_same dev other same, looked]
      rfl
    unfold sendZnsNamespace at sent step
    cases limits : found.zp with
    | none =>
        simp only [limits] at sent step
        obtain ⟨pieces, result, again⟩ := send_page_ok dev cmd _ after reply sent
        exact .inl ⟨_, pieces, result, fun other same => (step other same).trans (again other)⟩
    | some zpp =>
        simp only [limits] at sent step
        by_cases zoned : found.csi ≠ nvmeCsiZns
        · rw [if_pos zoned] at sent
          cases sent
        · simp only [if_neg zoned] at sent step
          obtain ⟨pieces, result, again⟩ := send_page_ok dev cmd _ after reply sent
          exact .inl ⟨_, pieces, result, fun other same => (step other same).trans (again other)⟩
  · obtain ⟨pieces, result, again⟩ := send_page_ok dev cmd _ after reply ran
    exact .inl ⟨_, pieces, result, fun other _ => again other⟩
  · cases ran
    exact .inr ⟨rfl, fun _ => rfl⟩

theorem deliver_same (other : Dev) (same : SameTables dev other) (page : DataPage) (pieces : List (Nat × Nat)) :
    SameTables (deliver dev page pieces) (deliver other page pieces) :=
  ⟨by simp [deliver, same.tables], same.ns, same.mdts⟩

theorem create_sq_served (cmd : CreateSq) (after : Dev) (reply : Reply) (ran : nvmevAdminCreateSq dev cmd = .ok (after, reply)) :
    Served dev (.createSq cmd) after (some reply) := by
  unfold nvmevAdminCreateSq at ran
  split at ran
  · cases ran
  · rename_i inside
    cases ran
    refine ⟨⟨rfl, rfl, rfl, rfl, rfl, rfl, rfl⟩, fun numbered => ?_, rfl, fun other same => ?_⟩
    · have far : cmd.sqid ≠ 0 := numbered
      exact clear_doorbell_kept dev _ (cmd.sqid * 2) (by omega)
    · simp only [adminRequest, nvmevAdminCreateSq, if_neg inside]
      exact ⟨_, rfl, by simp [clearDoorbell, same.tables], same.ns, same.mdts⟩

theorem create_cq_served (cmd : CreateCq) (after : Dev) (reply : Reply) (ran : nvmevAdminCreateCq dev cmd = .ok (after, reply)) :
    Served dev (.createCq cmd) after (some reply) := by
  unfold nvmevAdminCreateCq at ran
  split at ran
  · cases ran
  · rename_i inside
    cases ran
    refine ⟨⟨rfl, rfl, rfl, rfl, rfl, rfl, rfl⟩, fun numbered => ?_, rfl, fun other same => ?_⟩
    · have far : cmd.cqid ≠ 0 := numbered
      exact clear_doorbell_kept dev _ (cmd.cqid * 2 + 1) (by omega)
    · simp only [adminRequest, nvmevAdminCreateCq, if_neg inside]
      exact ⟨_, rfl, by simp [clearDoorbell, same.tables], same.ns, same.mdts⟩

theorem delete_sq_served (qid : Nat) (after : Dev) (reply : Reply) (ran : nvmevAdminDeleteSq dev qid = .ok (after, reply)) :
    Served dev (.deleteSq qid) after (some reply) := by
  unfold nvmevAdminDeleteSq at ran
  split at ran
  · cases ran
  · rename_i inside
    cases ran
    refine ⟨⟨rfl, rfl, rfl, rfl, rfl, rfl, rfl⟩, fun _ => ⟨fun _ _ => rfl, fun _ _ => rfl⟩, rfl, fun other same => ?_⟩
    simp only [adminRequest, nvmevAdminDeleteSq, if_neg inside]
    exact ⟨_, rfl, by simp [same.tables], same.ns, same.mdts⟩

theorem delete_cq_served (qid : Nat) (after : Dev) (reply : Reply) (ran : nvmevAdminDeleteCq dev qid = .ok (after, reply)) :
    Served dev (.deleteCq qid) after (some reply) := by
  unfold nvmevAdminDeleteCq at ran
  split at ran
  · cases ran
  · rename_i inside
    cases ran
    refine ⟨⟨rfl, rfl, rfl, rfl, rfl, rfl, rfl⟩, fun _ => ⟨fun _ _ => rfl, fun _ _ => rfl⟩, rfl, fun other same => ?_⟩
    simp only [adminRequest, nvmevAdminDeleteCq, if_neg inside]
    exact ⟨_, rfl, by simp [same.tables], same.ns, same.mdts⟩

theorem identify_served (cmd : Identify) (after : Dev) (reply : Reply) (ran : nvmevAdminIdentify dev cmd = .ok (after, reply)) :
    Served dev (.identify cmd) after (some reply) := by
  rcases identify_cases dev cmd after reply ran with ⟨page, pieces, result, again⟩ | ⟨result, again⟩
  · subst result
    refine ⟨⟨rfl, rfl, rfl, rfl, rfl, rfl, rfl⟩, fun _ => ⟨fun _ _ => rfl, fun _ _ => rfl⟩, rfl, fun other same => ?_⟩
    simp only [adminRequest, again other same]
    exact ⟨_, rfl, deliver_same dev other same page pieces⟩
  · subst result
    refine ⟨untouched_refl _, fun _ => doorbells_refl _, rfl, fun other same => ?_⟩
    simp only [adminRequest, again other]
    exact ⟨_, rfl, same⟩

theorem set_features_served (fid dword11 : Nat) :
    Served dev (.setFeatures fid dword11) (nvmevAdminSetFeatures dev fid dword11).1 (some (nvmevAdminSetFeatures dev fid dword11).2) := by
  unfold nvmevAdminSetFeatures
  split
  · rename_i queues
    refine ⟨⟨rfl, rfl, rfl, rfl, rfl, rfl, rfl⟩, fun _ => ⟨fun _ _ => rfl, fun _ _ => rfl⟩, rfl, fun other same => ?_⟩
    simp only [adminRequest, nvmevAdminSetFeatures, if_pos queues]
    exact ⟨_, rfl, by simp [same.tables], same.ns, same.mdts⟩
  · rename_i ignored
    refine ⟨untouched_refl _, fun _ => doorbells_refl _, rfl, fun other same => ?_⟩
    simp only [adminRequest, nvmevAdminSetFeatures, if_neg ignored]
    exact ⟨_, rfl, same⟩

theorem get_features_served (fid : Nat) : Served dev (.getFeatures fid) dev (some (nvmevAdminGetFeatures dev fid).2) := by
  refine ⟨untouched_refl _, fun _ => doorbells_refl _, rfl, fun other same => ?_⟩
  simp only [adminRequest, nvmevAdminGetFeatures, ← same.tables]
  exact ⟨_, rfl, same⟩

theorem request_served (request : AdminRequest) (after : Dev) (reply : Option Reply) (ran : adminRequest dev request = .ok (after, reply)) :
    Served dev request after reply := by
  cases request with
  | deleteSq qid =>
      obtain ⟨_, deleted, result⟩ := bind_ok _ _ _ ran
      cases result
      exact delete_sq_served dev qid _ _ deleted
  | createSq cmd =>
      obtain ⟨_, created, result⟩ := bind_ok _ _ _ ran
      cases result
      exact create_sq_served dev cmd _ _ created
  | getLogPage cmd =>
      cases ran
      refine ⟨⟨rfl, rfl, rfl, rfl, rfl, rfl, rfl⟩, fun _ => ⟨fun _ _ => rfl, fun _ _ => rfl⟩, rfl, fun other same => ?_⟩
      exact ⟨_, rfl, deliver_same dev other same _ _⟩
  | deleteCq qid =>
      obtain ⟨_, deleted, result⟩ := bind_ok _ _ _ ran
      cases result
      exact delete_cq_served dev qid _ _ deleted
  | createCq cmd =>
      obtain ⟨_, created, result⟩ := bind_ok _ _ _ ran
      cases result
      exact create_cq_served dev cmd _ _ created
  | identify cmd =>
      obtain ⟨_, identified, result⟩ := bind_ok _ _ _ ran
      cases result
      exact identify_served dev cmd _ _ identified
  | abortCmd =>
      cases ran
      exact ⟨untouched_refl _, fun _ => doorbells_refl _, rfl, fun other same => ⟨other, rfl, same⟩⟩
  | setFeatures fid dword11 =>
      cases ran
      exact set_features_served dev fid dword11
  | getFeatures fid =>
      cases ran
      exact get_features_served dev fid
  | asyncEvent =>
      cases ran
      exact ⟨untouched_refl _, fun _ => doorbells_refl _, rfl, fun other same => ⟨other, rfl, same⟩⟩
  | unhandled opcode =>
      cases ran
      exact ⟨untouched_refl _, fun _ => doorbells_refl _, rfl, fun other same => ⟨other, rfl, same⟩⟩

end Requests

section Alone

theorem serve_alone_runs (dev : Dev) (cmds : List AdminCommand) (after : Dev) (answered : List (AdminCommand × Option Reply))
    (ran : serveAlone dev cmds = .ok (after, answered)) : answered.map Prod.fst = cmds := by
  induction cmds generalizing dev answered with
  | nil =>
      cases ran
      rfl
  | cons cmd rest ih =>
      obtain ⟨first, _, later⟩ := bind_ok _ _ _ ran
      obtain ⟨last, others, result⟩ := bind_ok _ _ _ later
      cases result
      simp [ih first.1 last.2 others]

theorem serve_alone_last (dev middle after : Dev) (cmds : List AdminCommand) (answered : List (AdminCommand × Option Reply))
    (cmd : AdminCommand) (reply : Option Reply) (ran : serveAlone dev cmds = .ok (middle, answered))
    (last : adminRequest middle cmd.request = .ok (after, reply)) :
    serveAlone dev (cmds ++ [cmd]) = .ok (after, answered ++ [(cmd, reply)]) := by
  induction cmds generalizing dev answered with
  | nil =>
      cases ran
      simp only [List.nil_append, serveAlone, last]
      rfl
  | cons first rest ih =>
      obtain ⟨served, now, later⟩ := bind_ok _ _ _ ran
      obtain ⟨others, onward, result⟩ := bind_ok _ _ _ later
      cases result
      have whole := ih served.1 others.2 onward
      simp only [List.cons_append, serveAlone, now]
      change (serveAlone served.1 (rest ++ [cmd]) >>= fun result => pure (result.1, (first, served.2) :: result.2)) = _
      rw [whole]
      rfl

end Alone

section Told

variable {α : Type} (told : AdminRequest → Option α)

theorem last_told_cons (before : α) (cmd : AdminCommand) (rest : List AdminCommand) :
    lastTold before told (cmd :: rest) = lastTold ((told cmd.request).getD before) told rest := by
  unfold lastTold
  cases said : told cmd.request with
  | none => simp [said]
  | some word => simp [said, List.getLast?_cons]

theorem serve_alone_told (part : Dev → α)
    (tells : ∀ dev request after reply, adminRequest dev request = .ok (after, reply) → part after = (told request).getD (part dev))
    (dev after : Dev) (cmds : List AdminCommand) (answered : List (AdminCommand × Option Reply)) (ran : serveAlone dev cmds = .ok (after, answered)) :
    part after = lastTold (part dev) told cmds := by
  induction cmds generalizing dev answered with
  | nil =>
      cases ran
      rfl
  | cons cmd rest ih =>
      obtain ⟨first, now, later⟩ := bind_ok _ _ _ ran
      obtain ⟨others, onward, result⟩ := bind_ok _ _ _ later
      cases result
      rw [last_told_cons, ← tells dev cmd.request first.1 first.2 now]
      exact ih first.1 others.2 onward

theorem update_told {β : Type} (table : Nat → Option β) (changed qid : Nat) (entry : Option β) :
    Function.update table changed entry qid = (if changed = qid then some entry else none).getD (table qid) := by
  by_cases same : changed = qid
  · subst same
    simp
  · simp [same, Function.update_of_ne (Ne.symm same)]

structure Tells (dev after : Dev) (request : AdminRequest) : Prop where
  sqes : ∀ qid, after.tables.sqes qid = (toldSq qid request).getD (dev.tables.sqes qid)
  cqes : ∀ qid, after.tables.cqes qid = (toldCq qid request).getD (dev.tables.cqes qid)
  counts : (after.tables.nrSq, after.tables.nrCq) = (toldCounts request).getD (dev.tables.nrSq, dev.tables.nrCq)

theorem request_tells (dev : Dev) (request : AdminRequest) (after : Dev) (reply : Option Reply)
    (ran : adminRequest dev request = .ok (after, reply)) : Tells dev after request := by
  cases request with
  | deleteSq qid =>
      obtain ⟨result, deleted, passed⟩ := bind_ok _ _ _ ran
      cases passed
      unfold nvmevAdminDeleteSq at deleted
      split at deleted
      · cases deleted
      · cases deleted
        exact ⟨fun other => update_told _ qid other none, fun _ => rfl, rfl⟩
  | createSq cmd =>
      obtain ⟨result, created, passed⟩ := bind_ok _ _ _ ran
      cases passed
      unfold nvmevAdminCreateSq at created
      split at created
      · cases created
      · cases created
        exact ⟨fun other => update_told _ cmd.sqid other _, fun _ => rfl, rfl⟩
  | deleteCq qid =>
      obtain ⟨result, deleted, passed⟩ := bind_ok _ _ _ ran
      cases passed
      unfold nvmevAdminDeleteCq at deleted
      split at deleted
      · cases deleted
      · cases deleted
        exact ⟨fun _ => rfl, fun other => update_told _ qid other none, rfl⟩
  | createCq cmd =>
      obtain ⟨result, created, passed⟩ := bind_ok _ _ _ ran
      cases passed
      unfold nvmevAdminCreateCq at created
      split at created
      · cases created
      · cases created
        exact ⟨fun _ => rfl, fun other => update_told _ cmd.cqid other _, rfl⟩
  | identify cmd =>
      obtain ⟨result, identified, passed⟩ := bind_ok _ _ _ ran
      cases passed
      rcases identify_cases dev cmd _ _ identified with ⟨page, pieces, same, _⟩ | ⟨same, _⟩
      · rw [same]
        exact ⟨fun _ => rfl, fun _ => rfl, rfl⟩
      · rw [same]
        exact ⟨fun _ => rfl, fun _ => rfl, rfl⟩
  | setFeatures fid dword11 =>
      cases ran
      by_cases queues : fid = nvmeFeatNumQueues
      · simp only [nvmevAdminSetFeatures, if_pos queues]
        exact ⟨fun _ => rfl, fun _ => rfl, by simp [toldCounts, queues]⟩
      · simp only [nvmevAdminSetFeatures, if_neg queues]
        exact ⟨fun _ => rfl, fun _ => rfl, by simp [toldCounts, queues]⟩
  | getLogPage cmd =>
      cases ran
      exact ⟨fun _ => rfl, fun _ => rfl, rfl⟩
  | abortCmd =>
      cases ran
      exact ⟨fun _ => rfl, fun _ => rfl, rfl⟩
  | getFeatures fid =>
      cases ran
      exact ⟨fun _ => rfl, fun _ => rfl, rfl⟩
  | asyncEvent =>
      cases ran
      exact ⟨fun _ => rfl, fun _ => rfl, rfl⟩
  | unhandled opcode =>
      cases ran
      exact ⟨fun _ => rfl, fun _ => rfl, rfl⟩

end Told

end ConZone.Admin
