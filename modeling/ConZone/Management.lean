import ConZone.IoRuns

set_option autoImplicit false

namespace ConZone

section Managing

-- The states in which a management action is accepted. No zone has room for a
-- ZRWA, so an open that asks for one is only accepted where none is taken.
def accepts : ZoneSendAction → Bool → ZoneState → Bool
  | .closeZone, _, .openedImpl | .closeZone, _, .openedExpl | .closeZone, _, .closed => true
  | .closeZone, _, _ => false
  | .finishZone, _, .readOnly | .finishZone, _, .offline => false
  | .finishZone, _, _ => true
  | .openZone, zrwa, .empty => !zrwa
  | .openZone, _, .closed | .openZone, _, .openedImpl | .openZone, _, .openedExpl => true
  | .openZone, _, _ => false
  | .resetZone, _, .readOnly | .resetZone, _, .offline => false
  | .resetZone, _, _ => true
  | .offlineZone, _, .readOnly | .offlineZone, _, .offline => true
  | .offlineZone, _, _ => false
  | .flushExplZrwa, _, _ => false

variable (p : Params) (ftl : ZmsFtl) (zid : Nat) (accounted : Accounted p ftl) (inside : zid < p.zpp.nrZones)

include accounted inside in
theorem open_zone_accepts (zrwa : Bool) :
    ((zmgmtSendOpenZone ftl zid zrwa).1 = .success ↔ accepts .openZone zrwa (ftl.zoneDescs zid).state = true) ∧
      ((zmgmtSendOpenZone ftl zid zrwa).1 ≠ .success → (zmgmtSendOpenZone ftl zid zrwa).2 = ftl) := by
  cases state : (ftl.zoneDescs zid).state with
  | empty =>
      obtain ⟨active, opened, after, granted⟩ := empty_granted p ftl zid accounted inside state
      have zrwaFull : isZoneResourceFull ftl .zrwaZone = true := by
        simp [isZoneResourceFull, accounted.noZrwa]
      cases zrwa with
      | true => simp [zmgmtSendOpenZone, state, active, opened, zrwaFull, accepts]
      | false => simp [zmgmtSendOpenZone, state, active, opened, openExplicitly, granted, accepts]
  | closed =>
      obtain ⟨after, granted⟩ := open_granted_again p ftl zid accounted inside (by rw [state]; rfl)
      simp [zmgmtSendOpenZone, state, openExplicitly, granted, accepts]
  | openedImpl => simp [zmgmtSendOpenZone, state, accepts]
  | openedExpl => simp [zmgmtSendOpenZone, state, accepts]
  | readOnly => simp [zmgmtSendOpenZone, state, accepts]
  | full => simp [zmgmtSendOpenZone, state, accepts]
  | offline => simp [zmgmtSendOpenZone, state, accepts]

theorem reset_zone_accepts (option : Bool) (next : ZmsFtl) (status : NvmeStatus)
    (ran : zmgmtSendResetZone p ftl zid = .ok (status, next)) :
    status = .success ↔ accepts .resetZone option (ftl.zoneDescs zid).state = true := by
  have resets : ∀ booked : ZmsFtl, (do let after ← resetZone p booked zid
                                       pure (NvmeStatus.success, after) : Exec (NvmeStatus × ZmsFtl)) = .ok (status, next) →
      status = .success := by
    intro booked run
    obtain ⟨after, _, rest⟩ := bind_ok _ _ _ run
    exact (Prod.mk.inj (pure_ok _ _ rest)).1.symm
  cases state : (ftl.zoneDescs zid).state <;> simp only [zmgmtSendResetZone, state] at ran
  case readOnly => simp [← (Prod.mk.inj (pure_ok _ _ ran)).1, accepts]
  case offline => simp [← (Prod.mk.inj (pure_ok _ _ ran)).1, accepts]
  all_goals simp [resets _ ran, accepts]

theorem zmgmt_send_accepts (slba : Nat) (action : ZoneSendAction) (option : Bool) (accounted : Accounted p ftl)
    (inside : lbaToZone p slba < p.zpp.nrZones) (next : ZmsFtl) (status : NvmeStatus)
    (ran : zmgmtSend p ftl slba action option = .ok (status, next)) :
    (status = .success ↔ accepts action option (ftl.zoneDescs (lbaToZone p slba)).state = true) ∧ (status ≠ .success → next = ftl) := by
  have dispatched : ¬p.zpp.nrZones ≤ lbaToZone p slba := Nat.not_le_of_lt inside
  simp only [zmgmtSend, dispatched, if_false] at ran
  cases action with
  | closeZone =>
      cases state : (ftl.zoneDescs (lbaToZone p slba)).state <;>
        simp [zmgmtSendCloseZone, state] at ran <;> simp [← ran.1, ← ran.2, accepts]
  | finishZone =>
      cases state : (ftl.zoneDescs (lbaToZone p slba)).state <;>
        simp [zmgmtSendFinishZone, state] at ran <;> simp [← ran.1, ← ran.2, accepts]
  | openZone =>
      have opens := open_zone_accepts p ftl _ accounted inside option
      rw [Except.ok.inj ran] at opens
      exact opens
  | resetZone =>
      refine ⟨reset_zone_accepts p ftl _ option next status ran, ?_⟩
      intro failed
      rcases reset_zone_runs p ftl next _ status ran with ⟨_, same⟩ | ⟨success, _⟩
      · exact same
      · exact absurd success failed
  | offlineZone =>
      cases state : (ftl.zoneDescs (lbaToZone p slba)).state <;>
        simp [zmgmtSendOfflineZone, state] at ran <;> simp [← ran.1, ← ran.2, accepts]
  | flushExplZrwa =>
      simp at ran
      simp [← ran.1, ← ran.2, accepts]

theorem refused_action_runs (slba : Nat) (action : ZoneSendAction) (option : Bool) (inside : lbaToZone p slba < p.zpp.nrZones)
    (refused : accepts action option (ftl.zoneDescs (lbaToZone p slba)).state = false) :
    ∃ status next, zmgmtSend p ftl slba action option = .ok (status, next) := by
  have dispatched : ¬p.zpp.nrZones ≤ lbaToZone p slba := Nat.not_le_of_lt inside
  cases action with
  | resetZone =>
      cases state : (ftl.zoneDescs (lbaToZone p slba)).state with
      | readOnly => exact ⟨.znsInvalidTransition, ftl, by simp [zmgmtSend, dispatched, zmgmtSendResetZone, state, pure, Except.pure]⟩
      | offline => exact ⟨.znsInvalidTransition, ftl, by simp [zmgmtSend, dispatched, zmgmtSendResetZone, state, pure, Except.pure]⟩
      | _ => simp [state, accepts] at refused
  | closeZone => exact ⟨_, _, by simp only [zmgmtSend, dispatched, if_false]; rfl⟩
  | finishZone => exact ⟨_, _, by simp only [zmgmtSend, dispatched, if_false]; rfl⟩
  | openZone => exact ⟨_, _, by simp only [zmgmtSend, dispatched, if_false]; rfl⟩
  | offlineZone => exact ⟨_, _, by simp only [zmgmtSend, dispatched, if_false]; rfl⟩
  | flushExplZrwa => exact ⟨_, _, by simp only [zmgmtSend, dispatched, if_false]; rfl⟩

end Managing

-- Nothing the host or the device does makes a zone read-only, and only a
-- read-only zone can be taken offline.
def isOnline : ZoneState → Bool
  | .readOnly | .offline => false
  | .empty | .openedImpl | .openedExpl | .closed | .full => true

def Online (p : Params) (ftl : ZmsFtl) : Prop := ∀ zid, zid < p.zpp.nrZones → isOnline (ftl.zoneDescs zid).state = true

section Actions

variable (p : Params) (ftl : ZmsFtl) (zid : Nat) (online : Online p ftl)

include online in
theorem online_same (after : ZmsFtl) (descs : after.zoneDescs = ftl.zoneDescs) : Online p after := by
  intro other inside
  rw [descs]
  exact online other inside

include online in
theorem online_put (desc : ZoneDescriptor) (state : isOnline desc.state = true) : Online p (putDesc ftl zid desc) := by
  intro other inside
  by_cases same : other = zid
  · simpa [putDesc, same] using state
  · simpa [putDesc, same] using online other inside

include online in
theorem online_change (before : ZmsFtl) (descs : before.zoneDescs = ftl.zoneDescs) (state : ZoneState) (up : isOnline state = true) :
    Online p (changeZoneState before zid state) :=
  online_put p before zid (online_same p ftl online before descs) _ up

theorem acquire_descs (type : ResType) : (acquireZoneResource ftl type).2.zoneDescs = ftl.zoneDescs := by
  by_cases avail : isZoneResourceAvail ftl type = true
  · simp [acquireZoneResource, avail, putRes]
  · simp [acquireZoneResource, avail]

theorem release_active_descs : (releaseActive ftl zid).zoneDescs = ftl.zoneDescs := by
  simp only [releaseActive]
  split <;> rfl

include online in
theorem open_explicitly_online (before : ZmsFtl) (descs : before.zoneDescs = ftl.zoneDescs) : Online p (openExplicitly before zid).2 := by
  have acquired := (acquire_descs before .openZone).trans descs
  simp only [openExplicitly]
  generalize acquireZoneResource before .openZone = result at acquired
  obtain ⟨granted, after⟩ := result
  cases granted with
  | false => exact online_same p ftl online after acquired
  | true => exact online_change p ftl zid online after acquired .openedExpl rfl

include online in
theorem open_zone_online (inside : zid < p.zpp.nrZones) (zrwa : Bool) : Online p (zmgmtSendOpenZone ftl zid zrwa).2 := by
  cases state : (ftl.zoneDescs zid).state with
  | empty =>
      simp only [zmgmtSendOpenZone, state]
      split
      · exact online
      · split
        · exact online
        · split
          · exact online
          · refine open_explicitly_online p _ zid ?_ _ (acquire_descs _ .activeZone)
            split
            · have acquired := online_same p ftl online _ (acquire_descs ftl .zrwaZone)
              refine online_put p _ zid acquired _ ?_
              rw [acquire_descs]
              exact online zid inside
            · exact online
  | closed => simpa only [zmgmtSendOpenZone, state] using open_explicitly_online p ftl zid online ftl rfl
  | openedImpl => simpa only [zmgmtSendOpenZone, state] using online_change p ftl zid online ftl rfl .openedExpl rfl
  | openedExpl => simpa only [zmgmtSendOpenZone, state] using online
  | readOnly => simpa only [zmgmtSendOpenZone, state] using online
  | full => simpa only [zmgmtSendOpenZone, state] using online
  | offline => simpa only [zmgmtSendOpenZone, state] using online

include online in
theorem reset_zone_online (next : ZmsFtl) (status : NvmeStatus) (ran : zmgmtSendResetZone p ftl zid = .ok (status, next)) :
    Online p next := by
  have reset : ∀ released : ZmsFtl, released.zoneDescs = ftl.zoneDescs →
      (do let after ← resetZone p (changeZoneState released zid .empty) zid
          pure (NvmeStatus.success, after) : Exec (NvmeStatus × ZmsFtl)) = .ok (status, next) → Online p next := by
    intro released descs run
    obtain ⟨after, resetting, rest⟩ := bind_ok _ _ _ run
    rw [← (Prod.mk.inj (pure_ok _ _ rest)).2]
    have emptied := online_change p ftl zid online released descs .empty rfl
    have booked := online_put p (changeZoneState released zid .empty) zid emptied
      { (changeZoneState released zid .empty).zoneDescs zid with
        wp := ((changeZoneState released zid .empty).zoneDescs zid).zslba, zrwav := false } (by simp [changeZoneState, putDesc, isOnline])
    exact online_same p _ booked after (zone_reset_table p _ after zid resetting).descs
  cases state : (ftl.zoneDescs zid).state <;> simp only [zmgmtSendResetZone, state] at ran
  case openedImpl => exact reset _ ((release_active_descs _ zid).trans (release_descs ftl .openZone)) ran
  case openedExpl => exact reset _ ((release_active_descs _ zid).trans (release_descs ftl .openZone)) ran
  case closed => exact reset _ (release_active_descs _ zid) ran
  case full => exact reset ftl rfl ran
  case empty => exact reset ftl rfl ran
  case readOnly =>
    rw [← (Prod.mk.inj (pure_ok _ _ ran)).2]
    exact online
  case offline =>
    rw [← (Prod.mk.inj (pure_ok _ _ ran)).2]
    exact online

include online in
theorem close_zone_online : Online p (zmgmtSendCloseZone ftl zid).2 := by
  have closed := online_change p ftl zid online ftl rfl .closed rfl
  cases state : (ftl.zoneDescs zid).state <;> simp only [zmgmtSendCloseZone, state]
  case openedImpl => exact online_same p _ closed _ (release_descs _ .openZone)
  case openedExpl => exact online_same p _ closed _ (release_descs _ .openZone)
  all_goals exact online

include online in
theorem finish_zone_online : Online p (zmgmtSendFinishZone ftl zid).2 := by
  cases state : (ftl.zoneDescs zid).state <;> simp only [zmgmtSendFinishZone, state]
  case openedImpl =>
    exact online_change p ftl zid online _ ((release_active_descs _ zid).trans (release_descs ftl .openZone)) .full rfl
  case openedExpl =>
    exact online_change p ftl zid online _ ((release_active_descs _ zid).trans (release_descs ftl .openZone)) .full rfl
  case closed => exact online_change p ftl zid online _ (release_active_descs _ zid) .full rfl
  case empty => exact online_change p ftl zid online _ rfl .full rfl
  all_goals exact online

include online in
theorem zmgmt_send_online (slba : Nat) (action : ZoneSendAction) (option : Bool) (status : NvmeStatus) (next : ZmsFtl)
    (ran : zmgmtSend p ftl slba action option = .ok (status, next)) : Online p next := by
  by_cases past : p.zpp.nrZones ≤ lbaToZone p slba
  · simp [zmgmtSend, past] at ran
  · simp only [zmgmtSend, past, if_false] at ran
    have up := online _ (Nat.lt_of_not_le past)
    cases action with
    | closeZone =>
        have kept := close_zone_online p ftl (lbaToZone p slba) online
        rwa [Except.ok.inj ran] at kept
    | finishZone =>
        have kept := finish_zone_online p ftl (lbaToZone p slba) online
        rwa [Except.ok.inj ran] at kept
    | openZone =>
        have kept := open_zone_online p ftl (lbaToZone p slba) online (Nat.lt_of_not_le past) option
        rwa [Except.ok.inj ran] at kept
    | resetZone => exact reset_zone_online p ftl _ online next status ran
    | offlineZone =>
        cases state : (ftl.zoneDescs (lbaToZone p slba)).state
        case readOnly => simp [state, isOnline] at up
        case offline => simp [state, isOnline] at up
        all_goals
          simp only [zmgmtSendOfflineZone, state] at ran
          rw [← (Prod.mk.inj (Except.ok.inj ran)).2]
          exact online
    | flushExplZrwa =>
        rw [← (Prod.mk.inj (Except.ok.inj ran)).2]
        exact online

include online in
theorem write_check_online (slba nrLba : Nat) (accounted : Accounted p ftl) (inside : lbaToZone p slba < p.zpp.nrZones)
    (status : NvmeStatus) (after : ZmsFtl) (ran : znsWriteCheck p ftl slba nrLba = (status, after)) : Online p after := by
  rcases zns_write_check_cases p ftl slba nrLba status after accounted inside ran with ⟨_, same⟩ | ⟨_, _, _, state, opened, descs, _⟩
  · rw [same]
    exact online
  · intro other below
    rw [descs]
    by_cases same : other = lbaToZone p slba
    · rw [same, Function.update_self]
      simp only [writtenDesc]
      split
      · rfl
      · cases state <;> first | rfl | cases opened
    · rw [Function.update_of_ne same]
      exact online other below

include online in
theorem zoned_write_online (req : Request) (cmd : RwCommand) (outcome : WriteOutcome) (accounted : Accounted p ftl)
    (ran : zonedWrite p ftl req cmd = .ok outcome) : Online p outcome.ftl := by
  rcases write_run_table p ftl req cmd outcome (zoned_write_run p ftl req cmd outcome ran) with
    same | ⟨before, checked, status, first, inside, check, last⟩
  · exact online_same p ftl online _ same.descs
  · have up := online_same p ftl online before first.descs
    have booked := accounted_same p ftl before first accounted
    have passed := write_check_online p before up _ _ booked inside status checked check
    exact online_same p checked passed _ last.descs

end Actions

theorem realize_online (p : Params) (clock : Nat → Nat) : Online p (zmsRealizeFtl p clock) := fun _ _ => rfl

end ConZone
