import ConZone.ZnsSteps

set_option autoImplicit false

namespace ConZone.Zns

-- The write pointer of a zone is inside its capacity, and at the end of it the
-- zone is full.
structure PointerSound (desc : ZoneDescriptor) : Prop where
  lower : desc.zslba ≤ desc.wp
  upper : desc.wp ≤ desc.zslba + desc.zoneCapacity
  full : desc.wp = desc.zslba + desc.zoneCapacity → desc.state = .full

structure SoundDescriptor (c : ZnsParams) (zid : Nat) (desc : ZoneDescriptor) : Prop where
  start : desc.zslba = zoneToSlba c zid
  capacity : desc.zoneCapacity = capacityLbas c
  pointer : PointerSound desc
  plain : desc.zrwav = false

def AllSound (c : ZnsParams) (ftl : ZnsFtl) : Prop := ∀ zid, SoundDescriptor c zid (ftl.zoneDescs zid)

def withoutZrwa : Event → Prop
  | .mgmtSend cmd => cmd.zsa = .openZone → cmd.zsaso = false
  | _ => True

-- The write, placed at the write pointer if it is an append, ends behind the
-- capacity of its zone.
def Crosses (c : ZnsParams) (ftl : ZnsFtl) (cmd : RwCommand) : Prop :=
  let desc := ftl.zoneDescs (writeZone c cmd)
  desc.zslba + desc.zoneCapacity < placedSlba c ftl cmd + nrLbasFromRwCmd cmd

-- A write that crosses finds its buffer too full to be looked at.
def StaysInside (c : ZnsParams) (ftl : ZnsFtl) : Event → Prop
  | .write _ cmd => Crosses c ftl cmd → ¬HasRoom c ftl cmd
  | _ => True

structure Untouched (before after : ZnsFtl) : Prop where
  zoneDescs : after.zoneDescs = before.zoneDescs
  resInfos : after.resInfos = before.resInfos
  buffers : after.buffers = before.buffers

section Zones

variable (c : ZnsParams)

theorem zone_end_fits (zid : Nat) (inside : zid < c.nrZones) : zoneToSlba c zid + capacityLbas c < 2 ^ 64 := by
  have sectors : zoneToSlba c zid ≤ c.nrZones * c.zoneSize / secsz := by
    unfold zoneToSlba zoneLbas
    calc zid * (c.zoneSize / secsz) ≤ c.nrZones * (c.zoneSize / secsz) := Nat.mul_le_mul_right _ inside.le
      _ ≤ c.nrZones * c.zoneSize / secsz := Nat.mul_div_le_mul_div_assoc _ _ _
  have size := c.addressable
  have capacity := c.capacityFits
  unfold capacityLbas secsz at *
  omega

theorem all_sound_put (ftl after : ZnsFtl) (zid : Nat) (desc : ZoneDescriptor) (sound : AllSound c ftl)
    (descs : after.zoneDescs = Function.update ftl.zoneDescs zid desc) (fits : SoundDescriptor c zid desc) : AllSound c after := by
  intro other
  rw [descs]
  by_cases here : other = zid
  · subst here
    rw [Function.update_self]
    exact fits
  · rw [Function.update_of_ne here]
    exact sound other

theorem all_sound_same (ftl after : ZnsFtl) (sound : AllSound c ftl) (descs : after.zoneDescs = ftl.zoneDescs) : AllSound c after := by
  intro zid
  rw [descs]
  exact sound zid

theorem sound_state (zid : Nat) (desc : ZoneDescriptor) (state : ZoneState) (sound : SoundDescriptor c zid desc)
    (open' : desc.state ≠ .full ∨ state = .full) : SoundDescriptor c zid { desc with state := state } := by
  refine ⟨sound.start, sound.capacity, ⟨sound.pointer.lower, sound.pointer.upper, ?_⟩, sound.plain⟩
  intro atEnd
  rcases open' with notFull | full
  · exact absurd (sound.pointer.full atEnd) notFull
  · exact full

@[simp] theorem acquire_descs (ftl : ZnsFtl) (type : ResType) : (acquireZoneResource ftl type).2.zoneDescs = ftl.zoneDescs :=
  (acquire_counters ftl type).zoneDescs

theorem release_descs (ftl : ZnsFtl) (type : ResType) : (releaseZoneResource ftl type).zoneDescs = ftl.zoneDescs := rfl

theorem change_state_descs (ftl : ZnsFtl) (zid : Nat) (state : ZoneState) :
    (changeZoneState ftl zid state).zoneDescs = Function.update ftl.zoneDescs zid { ftl.zoneDescs zid with state := state } := rfl

theorem admission_desc (ftl after : ZnsFtl) (zid : Nat) (admitted : Admission ftl zid after) :
    ∃ state, (ftl.zoneDescs zid).state ≠ .full ∧ state ≠ .full ∧
      after.zoneDescs = Function.update ftl.zoneDescs zid { ftl.zoneDescs zid with state := state } := by
  have reopened : ∀ base acquired : ZnsFtl, base.zoneDescs = ftl.zoneDescs → acquireZoneResource base .openZone = (true, acquired) →
      (changeZoneState acquired zid .openedImpl).zoneDescs =
        Function.update ftl.zoneDescs zid { ftl.zoneDescs zid with state := .openedImpl } := by
    intro base acquired same taken
    have descs := acquire_descs base .openZone
    rw [taken] at descs
    dsimp only at descs
    unfold changeZoneState putDesc
    rw [descs, same]
  cases admitted with
  | opened state before open' =>
      have notFull : (ftl.zoneDescs zid).state ≠ .full := by
        rw [before]
        rcases open' with rfl | rfl
        · decide
        · decide
      exact ⟨(ftl.zoneDescs zid).state, notFull, notFull, (Function.update_eq_self zid ftl.zoneDescs).symm⟩
  | closed before acquired taken =>
      exact ⟨.openedImpl, by rw [before]; decide, by decide, reopened ftl acquired rfl taken⟩
  | empty before acquired activeRoom openRoom taken =>
      exact ⟨.openedImpl, by rw [before]; decide, by decide, reopened _ acquired (acquire_descs ftl .activeZone) taken⟩

theorem increase_descs (ftl : ZnsFtl) (zid nrLba : Nat) : (increaseWritePtr c ftl zid nrLba).zoneDescs =
    Function.update ftl.zoneDescs zid { ftl.zoneDescs zid with
      wp := u64 ((ftl.zoneDescs zid).wp + nrLba),
      state := if u64 ((ftl.zoneDescs zid).wp + nrLba) = zoneToSlba c zid + (ftl.zoneDescs zid).zoneCapacity then .full
        else (ftl.zoneDescs zid).state } := by
  unfold increaseWritePtr
  dsimp only
  split
  · rw [change_state_descs]
    dsimp only
    rw [release_descs, release_descs]
    unfold putDesc
    dsimp only
    rw [Function.update_self, Function.update_idem]
  · rfl

theorem increase_write_ptr_sound (ftl : ZnsFtl) (zid nrLba : Nat) (sound : AllSound c ftl) (inside : zid < c.nrZones)
    (ends : (ftl.zoneDescs zid).wp + nrLba ≤ (ftl.zoneDescs zid).zslba + (ftl.zoneDescs zid).zoneCapacity) :
    AllSound c (increaseWritePtr c ftl zid nrLba) := by
  have here := sound zid
  have fits := zone_end_fits c zid inside
  have whole : u64 ((ftl.zoneDescs zid).wp + nrLba) = (ftl.zoneDescs zid).wp + nrLba := by
    rw [here.start, here.capacity] at ends
    exact Nat.mod_eq_of_lt (by omega)
  have lower := here.pointer.lower
  apply all_sound_put c ftl _ zid _ sound (increase_descs c ftl zid nrLba)
  rw [whole]
  refine ⟨here.start, here.capacity, ⟨by dsimp only; omega, ends, ?_⟩, here.plain⟩
  intro atEnd
  dsimp only at atEnd ⊢
  rw [here.start] at atEnd
  exact if_pos atEnd

end Zones

section Commands

variable (c : ZnsParams)

theorem placed_crosses (ftl : ZnsFtl) (cmd : RwCommand) (within : ¬Crosses c ftl cmd)
    (placed : placedSlba c ftl cmd = (ftl.zoneDescs (writeZone c cmd)).wp) :
    (ftl.zoneDescs (writeZone c cmd)).wp + nrLbasFromRwCmd cmd ≤
      (ftl.zoneDescs (writeZone c cmd)).zslba + (ftl.zoneDescs (writeZone c cmd)).zoneCapacity := by
  unfold Crosses at within
  dsimp only at within
  rw [placed] at within
  omega

theorem zns_write_plain (ftl : ZnsFtl) (req : Request) (cmd : RwCommand) (outcome : WriteOutcome)
    (plain : ∀ zid, (ftl.zoneDescs zid).zrwav = false) (ran : znsWrite c ftl req cmd = .ok outcome) :
    writePlain c ftl req cmd = .ok outcome := by
  unfold znsWrite at ran
  dsimp only at ran
  rw [plain _] at ran
  split at ran
  · cases ran
  · exact ran

theorem write_plain_sound (ftl : ZnsFtl) (req : Request) (cmd : RwCommand) (outcome : WriteOutcome) (sound : AllSound c ftl)
    (inside : Crosses c ftl cmd → ¬HasRoom c ftl cmd) (ran : writePlain c ftl req cmd = .ok outcome) : AllSound c outcome.ftl := by
  obtain ⟨bound, ⟨_, rfl⟩ | ⟨room, rfl⟩⟩ := write_plain_cases c ftl req cmd outcome ran
  · exact sound
  · have within : ¬Crosses c ftl cmd := fun crosses => inside crosses room
    have taken : AllSound c (afterTaking c ftl cmd) := all_sound_same c ftl _ sound rfl
    rcases write_taken_cases c (afterTaking c ftl cmd) req (writeZone c cmd) (placedSlba c ftl cmd) (nrLbasFromRwCmd cmd) with
      ⟨after, checked, done⟩ | ⟨status, after, refused, checked, done⟩
    · rw [done]
      obtain ⟨_, _, placed, admitted⟩ := check_write_admitted c _ after _ _ _ checked
      obtain ⟨state, notFull, _, descs⟩ := admission_desc _ after _ admitted
      have opened : AllSound c after :=
        all_sound_put c _ after _ _ taken descs (sound_state c _ _ state (taken _) (.inl notFull))
      have ends := placed_crosses c ftl cmd within placed
      have moved : AllSound c (increaseWritePtr c after (writeZone c cmd) (nrLbasFromRwCmd cmd)) := by
        apply increase_write_ptr_sound c after _ _ opened bound
        rw [descs, Function.update_self]
        exact ends
      exact all_sound_same c _ _ moved (congrArg ZoneSide.zoneDescs (program_loop_side c _ _ _ _ _ _))
    · rw [done]
      exact all_sound_same c _ after taken (check_write_refused c _ after _ _ _ status refused checked).zoneDescs

theorem release_active_descs (ftl : ZnsFtl) (zrwa : Bool) : (releaseActive ftl zrwa).zoneDescs = ftl.zoneDescs := by
  cases zrwa <;> rfl

theorem open_explicitly_sound (ftl : ZnsFtl) (zid : Nat) (sound : AllSound c ftl) (shut : (ftl.zoneDescs zid).state ≠ .full) :
    AllSound c (openExplicitly ftl zid).2 := by
  have descs := acquire_descs ftl .openZone
  unfold openExplicitly
  cases taken : acquireZoneResource ftl .openZone with
  | mk granted after =>
      rw [taken] at descs
      dsimp only at descs
      cases granted with
      | false => exact all_sound_same c ftl after sound descs
      | true =>
          apply all_sound_put c ftl _ zid { ftl.zoneDescs zid with state := .openedExpl } sound
          · dsimp only
            rw [change_state_descs, descs]
          · exact sound_state c zid _ _ (sound zid) (.inl shut)

theorem change_state_sound (ftl base : ZnsFtl) (zid : Nat) (state : ZoneState) (sound : AllSound c ftl)
    (descs : base.zoneDescs = ftl.zoneDescs) (fits : (ftl.zoneDescs zid).state ≠ .full ∨ state = .full) :
    AllSound c (changeZoneState base zid state) := by
  apply all_sound_put c ftl _ zid { ftl.zoneDescs zid with state := state } sound
  · rw [change_state_descs, descs]
  · exact sound_state c zid _ state (sound zid) fits

theorem reset_descs (base : ZnsFtl) (zid : Nat) : (resetZone c (changeZoneState base zid .empty) zid).zoneDescs =
    Function.update base.zoneDescs zid
      { base.zoneDescs zid with state := .empty, wp := (base.zoneDescs zid).zslba, zrwav := false } := by
  have after : (resetZone c (changeZoneState base zid .empty) zid).zoneDescs =
      Function.update (changeZoneState base zid .empty).zoneDescs zid
        { (changeZoneState base zid .empty).zoneDescs zid with
          wp := ((changeZoneState base zid .empty).zoneDescs zid).zslba, zrwav := false } := by
    unfold resetZone
    dsimp only
    split <;> rfl
  rw [after, change_state_descs, Function.update_self, Function.update_idem]

theorem reset_zone_sound (ftl base : ZnsFtl) (zid : Nat) (some : 0 < capacityLbas c) (sound : AllSound c ftl)
    (descs : base.zoneDescs = ftl.zoneDescs) : AllSound c (resetZone c (changeZoneState base zid .empty) zid) := by
  have here := sound zid
  have fresh : SoundDescriptor c zid ⟨.empty, false, (ftl.zoneDescs zid).zoneCapacity, (ftl.zoneDescs zid).zslba, (ftl.zoneDescs zid).zslba⟩ := by
    refine ⟨here.start, here.capacity, ⟨le_refl _, Nat.le_add_right _ _, ?_⟩, rfl⟩
    intro atEnd
    have capacity := here.capacity
    dsimp only at atEnd
    omega
  apply all_sound_put c ftl _ zid _ sound _ fresh
  rw [reset_descs, descs]

theorem close_zone_sound (ftl : ZnsFtl) (zid : Nat) (sound : AllSound c ftl) : AllSound c (zmgmtSendCloseZone ftl zid).2 := by
  have closing : (ftl.zoneDescs zid).state ≠ .full →
      AllSound c (releaseZoneResource (changeZoneState ftl zid .closed) .openZone) := fun shut =>
    all_sound_same c _ _ (change_state_sound c ftl ftl zid .closed sound rfl (.inl shut)) (release_descs _ _)
  unfold zmgmtSendCloseZone
  cases state : (ftl.zoneDescs zid).state with
  | openedImpl => exact closing (by rw [state]; decide)
  | openedExpl => exact closing (by rw [state]; decide)
  | _ => exact sound

theorem finish_zone_sound (ftl : ZnsFtl) (zid : Nat) (sound : AllSound c ftl) : AllSound c (zmgmtSendFinishZone ftl zid).2 := by
  have filling : ∀ base : ZnsFtl, base.zoneDescs = ftl.zoneDescs → AllSound c (changeZoneState base zid .full) :=
    fun base descs => change_state_sound c ftl base zid .full sound descs (.inr rfl)
  unfold zmgmtSendFinishZone
  cases state : (ftl.zoneDescs zid).state with
  | openedImpl => exact filling _ ((release_active_descs _ _).trans (release_descs ftl .openZone))
  | openedExpl => exact filling _ ((release_active_descs _ _).trans (release_descs ftl .openZone))
  | closed => exact filling _ (release_active_descs ftl _)
  | empty => exact filling ftl rfl
  | _ => exact sound

theorem open_zone_sound (ftl : ZnsFtl) (zid : Nat) (sound : AllSound c ftl) : AllSound c (zmgmtSendOpenZone ftl zid false).2 := by
  unfold zmgmtSendOpenZone
  cases state : (ftl.zoneDescs zid).state with
  | empty =>
      dsimp only
      split
      · exact sound
      · split
        · exact sound
        · rw [Bool.false_and, if_neg Bool.false_ne_true, if_neg Bool.false_ne_true]
          have descs := acquire_descs ftl .activeZone
          apply open_explicitly_sound c _ zid (all_sound_same c ftl _ sound descs)
          rw [descs, state]
          decide
  | closed => exact open_explicitly_sound c ftl zid sound (by rw [state]; decide)
  | openedImpl => exact change_state_sound c ftl ftl zid .openedExpl sound rfl (.inl (by rw [state]; decide))
  | _ => exact sound

theorem reset_send_sound (some : 0 < capacityLbas c) (ftl : ZnsFtl) (zid : Nat) (sound : AllSound c ftl) :
    AllSound c (zmgmtSendResetZone c ftl zid).2 := by
  have resetting : ∀ base : ZnsFtl, base.zoneDescs = ftl.zoneDescs → AllSound c (resetZone c (changeZoneState base zid .empty) zid) :=
    fun base descs => reset_zone_sound c ftl base zid some sound descs
  unfold zmgmtSendResetZone
  cases state : (ftl.zoneDescs zid).state with
  | openedImpl => exact resetting _ ((release_active_descs _ _).trans (release_descs ftl .openZone))
  | openedExpl => exact resetting _ ((release_active_descs _ _).trans (release_descs ftl .openZone))
  | closed => exact resetting _ (release_active_descs ftl _)
  | full => exact resetting ftl rfl
  | empty => exact resetting ftl rfl
  | _ => exact sound

theorem offline_zone_sound (ftl : ZnsFtl) (zid : Nat) (sound : AllSound c ftl) : AllSound c (zmgmtSendOfflineZone ftl zid).2 := by
  unfold zmgmtSendOfflineZone
  cases state : (ftl.zoneDescs zid).state with
  | readOnly => exact change_state_sound c ftl ftl zid .offline sound rfl (.inl (by rw [state]; decide))
  | _ => exact sound

theorem flush_explicit_idle (ftl : ZnsFtl) (slba : Nat) (plain : (ftl.zoneDescs (lbaToZone c slba)).zrwav = false) :
    zmgmtSendFlushExplicitZrwa c ftl slba = (.znsInvalidZoneOperation, ftl) := by
  simp [zmgmtSendFlushExplicitZrwa, plain]

theorem zmgmt_send_sound (some : 0 < capacityLbas c) (ftl next : ZnsFtl) (slba : Nat) (action : ZoneSendAction) (option : Bool)
    (status : NvmeStatus) (plain : action = .openZone → option = false) (sound : AllSound c ftl)
    (ran : zmgmtSend c ftl slba action option = .ok (status, next)) : AllSound c next := by
  obtain ⟨_, rfl⟩ := zmgmt_send_ran c ftl next slba action option status ran
  cases action with
  | closeZone => exact close_zone_sound c ftl _ sound
  | finishZone => exact finish_zone_sound c ftl _ sound
  | openZone =>
      rw [plain rfl]
      exact open_zone_sound c ftl _ sound
  | resetZone => exact reset_send_sound c some ftl _ sound
  | offlineZone => exact offline_zone_sound c ftl _ sound
  | flushExplZrwa =>
      unfold sentAction
      rw [flush_explicit_idle c ftl slba (sound _).plain]
      exact sound

def insideStep (ftl : ZnsFtl) (event : Event) : Prop := withoutZrwa event ∧ StaysInside c ftl event

theorem pointers_kept (some : 0 < capacityLbas c) : TransitionSystem.Invariant (system c) (insideStep c) (AllSound c) where
  starts := by
    intro ftl init zid
    rw [show ftl = znsInitFtl c from init]
    refine ⟨rfl, rfl, ⟨le_refl _, Nat.le_add_right _ _, ?_⟩, rfl⟩
    intro atEnd
    have grown : zoneToSlba c zid = zoneToSlba c zid + capacityLbas c := atEnd
    omega
  keeps := by
    intro ftl next event sound permitted taken
    cases taken with
    | write req cmd outcome ran =>
        exact write_plain_sound c ftl req cmd outcome sound permitted.2 (zns_write_plain c ftl req cmd outcome (fun zid => (sound zid).plain) ran)
    | mgmtSend cmd status next ran =>
        exact zns_zmgmt_send_keeps c (AllSound c) cmd
          (fun ftl slba status next held sent => zmgmt_send_sound c some ftl next slba _ _ status permitted.1 held sent)
          ftl next status sound ran
    | release place ref bytes due => exact all_sound_same c ftl _ sound rfl

-- What is kept of the buffers, which only taking, programming and releasing move.
structure BufferSide where
  buffers : BufferRef → WriteBuffer
  scheduled : List (BufferRef × Nat)
  covered : Nat → Nat

def bufferSide (ftl : ZnsFtl) : BufferSide := ⟨ftl.buffers, ftl.scheduled, ftl.covered⟩

theorem counters_only_side (before after : ZnsFtl) (same : CountersOnly before after) : bufferSide after = bufferSide before := by
  unfold bufferSide
  rw [same.buffers, same.scheduled, same.covered]

theorem increase_buffer_side (ftl : ZnsFtl) (zid nrLba : Nat) : bufferSide (increaseWritePtr c ftl zid nrLba) = bufferSide ftl := by
  unfold increaseWritePtr
  dsimp only
  split <;> rfl

theorem admission_buffer_side (ftl after : ZnsFtl) (zid : Nat) (admitted : Admission ftl zid after) : bufferSide after = bufferSide ftl := by
  have reopened : ∀ base acquired : ZnsFtl, bufferSide base = bufferSide ftl → acquireZoneResource base .openZone = (true, acquired) →
      bufferSide (changeZoneState acquired zid .openedImpl) = bufferSide ftl := by
    intro base acquired same taken
    have kept := counters_only_side _ _ (acquire_counters base .openZone)
    rw [taken] at kept
    exact kept.trans same
  cases admitted with
  | opened => rfl
  | closed _ acquired taken => exact reopened ftl acquired rfl taken
  | empty _ acquired _ _ taken => exact reopened _ acquired (counters_only_side _ _ (acquire_counters ftl .activeZone)) taken

theorem write_taken_buffers (ftl : ZnsFtl) (req : Request) (zid slba nrLba : Nat) :
    (writeTaken c ftl req zid slba nrLba).ftl.buffers = ftl.buffers := by
  rcases write_taken_cases c ftl req zid slba nrLba with ⟨after, checked, done⟩ | ⟨status, after, refused, checked, done⟩
  · rw [done]
    have programmed := program_loop_side c (writeBufferOf c zid) zid (lbaToLpn (u64 (slba + nrLba - 1)))
      (lbaToLpn (u64 (slba + nrLba - 1)) + 1 - lbaToLpn slba) (lbaToLpn slba) ⟨increaseWritePtr c after zid nrLba, req.freeEntries⟩
    calc (programWrite c (increaseWritePtr c after zid nrLba) req zid slba nrLba).ftl.buffers
        = (increaseWritePtr c after zid nrLba).buffers := congrArg ZoneSide.buffers programmed
      _ = after.buffers := congrArg BufferSide.buffers (increase_buffer_side c after zid nrLba)
      _ = ftl.buffers := congrArg BufferSide.buffers
          (admission_buffer_side ftl after zid (check_write_admitted c ftl after zid slba nrLba checked).2.2.2)
  · rw [done]
    exact (check_write_refused c ftl after zid slba nrLba status refused checked).buffers

theorem looked_at_touches (ftl : ZnsFtl) (req : Request) (cmd : RwCommand) (outcome : WriteOutcome)
    (ran : writePlain c ftl req cmd = .ok outcome) (room : HasRoom c ftl cmd) : outcome.ftl.buffers ≠ ftl.buffers := by
  intro untouched
  have size := (command_bytes cmd).1
  obtain ⟨_, ⟨full, _⟩ | ⟨_, rfl⟩⟩ := write_plain_cases c ftl req cmd outcome ran
  · exact full room
  · rw [write_taken_buffers] at untouched
    have taken : (afterTaking c ftl cmd).buffers (writeBufferOf c (writeZone c cmd)) =
        { ftl.buffers (writeBufferOf c (writeZone c cmd)) with
          remaining := (ftl.buffers (writeBufferOf c (writeZone c cmd))).remaining - nrLbasFromRwCmd cmd * secsz } :=
      Function.update_self _ _ _
    rw [untouched] at taken
    have less := congrArg WriteBuffer.remaining taken
    unfold HasRoom at room
    dsimp only at less
    omega

end Commands

-- The capacity must be a sector or more, or no zone is full where it should be.
-- A write that would cross is turned away without a trace only if its buffer
-- has no room for it.
theorem write_pointer_inside_iff (c : ZnsParams) :
    ((∀ ftl, Reachable c (insideStep c) ftl → ∀ zid, zid < c.nrZones → PointerSound (ftl.zoneDescs zid)) ↔
      (0 < capacityLbas c ∨ c.nrZones = 0)) ∧
      ∀ ftl req cmd outcome, Reachable c (insideStep c) ftl → 0 < capacityLbas c → znsWrite c ftl req cmd = .ok outcome →
        Crosses c ftl cmd → (outcome.done ≠ some .success ∧ Untouched ftl outcome.ftl ↔ ¬HasRoom c ftl cmd) := by
  refine ⟨⟨?_, ?_⟩, ?_⟩
  · intro within
    by_contra neither
    rw [not_or] at neither
    have first := within (znsInitFtl c) (.start _ rfl) 0 (Nat.pos_of_ne_zero neither.2)
    have atEnd : (znsInitFtl c).zoneDescs 0 = ⟨.empty, false, capacityLbas c, zoneToSlba c 0, zoneToSlba c 0⟩ := rfl
    have full := first.full (by rw [atEnd]; dsimp only; omega)
    rw [atEnd] at full
    cases full
  · intro some ftl reached zid inside
    have sized : 0 < capacityLbas c := by omega
    exact (TransitionSystem.reach_invariant _ _ _ (pointers_kept c sized) ftl reached zid).pointer
  · intro ftl req cmd outcome reached some ran crosses
    have sound := TransitionSystem.reach_invariant _ _ _ (pointers_kept c some) ftl reached
    have plain := zns_write_plain c ftl req cmd outcome (fun zid => (sound zid).plain) ran
    constructor
    · rintro ⟨_, untouched⟩ room
      exact looked_at_touches c ftl req cmd outcome plain room untouched.buffers
    · intro full
      obtain ⟨_, ⟨_, rfl⟩ | ⟨room, _⟩⟩ := write_plain_cases c ftl req cmd outcome plain
      · exact ⟨by simp, rfl, rfl, rfl⟩
      · exact absurd room full

-- A page is written at the start of each zone, and the rest of the first one.
theorem zone_filled_to_capacity : ∃ ftl : ZnsFtl, PointerSound (ftl.zoneDescs 0) ∧ (ftl.zoneDescs 0).wp = 24 ∧ (ftl.zoneDescs 0).state = .full := by
  obtain ⟨ftl, reached, checked⟩ := run_events_check sampleParams (insideStep sampleParams)
    (fun ftl event => match event with
      | .write _ cmd => decide ((ftl.zoneDescs (writeZone sampleParams cmd)).zslba + (ftl.zoneDescs (writeZone sampleParams cmd)).zoneCapacity ≥
          placedSlba sampleParams ftl cmd + nrLbasFromRwCmd cmd)
      | _ => false)
    (by
      intro ftl event permitted
      cases event with
      | write req cmd =>
          simp only [decide_eq_true_eq] at permitted
          exact ⟨trivial, fun crosses => absurd crosses (Nat.not_lt.mpr permitted)⟩
      | mgmtSend cmd => cases permitted
      | release place => cases permitted)
    [writeEvent 0 7 (by decide) (by decide), writeEvent 32 7 (by decide) (by decide), writeEvent 8 15 (by decide) (by decide)]
    (fun ftl => decide ((ftl.zoneDescs 0).wp = 24) && decide ((ftl.zoneDescs 0).state = .full)) (by decide +kernel)
  simp only [Bool.and_eq_true, decide_eq_true_eq] at checked
  exact ⟨ftl, ((write_pointer_inside_iff sampleParams).1.mpr (.inl (by decide))) ftl reached 0 (by decide), checked⟩

-- The same zone is written in steps that pass its capacity: it stays open.
theorem zone_written_past_capacity : ∃ ftl, Reachable sampleParams (fun _ event => withoutZrwa event) ftl ∧
    sampleParams.zoneCapacity ≤ sampleParams.zoneSize ∧ ¬PointerSound (ftl.zoneDescs 0) ∧ (ftl.zoneDescs 0).state = .openedImpl := by
  obtain ⟨ftl, reached, checked⟩ := run_events_check sampleParams (fun _ event => withoutZrwa event)
    (fun _ event => match event with
      | .mgmtSend _ => false
      | _ => true)
    (by
      intro ftl event permitted
      cases event with
      | write => trivial
      | mgmtSend cmd => cases permitted
      | release => trivial)
    [writeEvent 0 15 (by decide) (by decide), .release 0, .release 0, writeEvent 16 15 (by decide) (by decide)]
    (fun ftl => decide ((ftl.zoneDescs 0).wp = 32) && decide ((ftl.zoneDescs 0).zslba + (ftl.zoneDescs 0).zoneCapacity = 24) &&
      decide ((ftl.zoneDescs 0).state = .openedImpl)) (by decide +kernel)
  simp only [Bool.and_eq_true, decide_eq_true_eq] at checked
  obtain ⟨⟨pointer, capacity⟩, state⟩ := checked
  refine ⟨ftl, reached, by decide, ?_, state⟩
  intro sound
  have upper := sound.upper
  omega

end ConZone.Zns
