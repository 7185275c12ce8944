import ConZone.ZoneTable
import ConZone.Tally

set_option autoImplicit false

namespace ConZone

def isOpened : ZoneState → Bool
  | .openedImpl | .openedExpl => true
  | _ => false

def isActive : ZoneState → Bool
  | .openedImpl | .openedExpl | .closed => true
  | _ => false

def openZones (p : Params) (descs : Nat → ZoneDescriptor) : Nat :=
  Nat.count (fun zid => isOpened (descs zid).state = true) p.zpp.nrZones

def activeZones (p : Params) (descs : Nat → ZoneDescriptor) : Nat :=
  Nat.count (fun zid => isActive (descs zid).state = true) p.zpp.nrZones

structure SoundDescriptor (p : Params) (zid : Nat) (desc : ZoneDescriptor) : Prop where
  start : desc.zslba = zoneToSlba p zid
  capacity : desc.zoneCapacity = capacityLbas p
  lower : desc.zslba ≤ desc.wp
  upper : desc.wp ≤ desc.zslba + desc.zoneCapacity
  empty : desc.state = .empty → desc.wp = desc.zslba
  full : desc.wp = desc.zslba + desc.zoneCapacity → desc.state = .full
  plain : desc.zrwav = false

-- The accounts of the zones: every descriptor is sound and the two counters
-- are the numbers of open and of active zones.
structure Accounted (p : Params) (ftl : ZmsFtl) : Prop where
  sound : ∀ zid, zid < p.zpp.nrZones → SoundDescriptor p zid (ftl.zoneDescs zid)
  opened : (ftl.resInfos .openZone).acquiredCnt = openZones p ftl.zoneDescs
  active : (ftl.resInfos .activeZone).acquiredCnt = activeZones p ftl.zoneDescs
  openTotal : (ftl.resInfos .openZone).totalCnt = p.zpp.nrZones
  activeTotal : (ftl.resInfos .activeZone).totalCnt = p.zpp.nrZones
  noZrwa : (ftl.resInfos .zrwaZone).acquiredCnt = 0 ∧ (ftl.resInfos .zrwaZone).totalCnt = 0
  released : ∀ type, (ftl.resInfos type).asserted = false

theorem accounted_same (p : Params) (before after : ZmsFtl) (table : SameTable before after) (accounted : Accounted p before) :
    Accounted p after := by
  obtain ⟨sound, opened, active, openTotal, activeTotal, noZrwa, released⟩ := accounted
  constructor
  · rw [table.descs]
    exact sound
  · rw [table.descs, table.infos]
    exact opened
  · rw [table.descs, table.infos]
    exact active
  · rw [table.infos]
    exact openTotal
  · rw [table.infos]
    exact activeTotal
  · rw [table.infos]
    exact noZrwa
  · rw [table.infos]
    exact released

theorem open_zones_bound (p : Params) (descs : Nat → ZoneDescriptor) : openZones p descs ≤ p.zpp.nrZones := Nat.count_le _

theorem active_zones_bound (p : Params) (descs : Nat → ZoneDescriptor) : activeZones p descs ≤ p.zpp.nrZones := Nat.count_le _

theorem open_is_active (state : ZoneState) (opened : isOpened state = true) : isActive state = true := by
  cases state with
  | openedImpl => rfl
  | openedExpl => rfl
  | empty => cases opened
  | closed => rfl
  | readOnly => cases opened
  | full => cases opened
  | offline => cases opened

theorem open_zones_positive (p : Params) (descs : Nat → ZoneDescriptor) (zid : Nat) (inside : zid < p.zpp.nrZones)
    (opened : isOpened (descs zid).state = true) : 0 < openZones p descs :=
  Tally.count_positive (fun desc : ZoneDescriptor => isOpened desc.state = true) descs zid p.zpp.nrZones inside opened

theorem active_zones_positive (p : Params) (descs : Nat → ZoneDescriptor) (zid : Nat) (inside : zid < p.zpp.nrZones)
    (active : isActive (descs zid).state = true) : 0 < activeZones p descs :=
  Tally.count_positive (fun desc : ZoneDescriptor => isActive desc.state = true) descs zid p.zpp.nrZones inside active

def openShare (state : ZoneState) : Int := if isOpened state = true then 1 else 0
def activeShare (state : ZoneState) : Int := if isActive state = true then 1 else 0

theorem open_zones_update (p : Params) (descs : Nat → ZoneDescriptor) (zid : Nat) (desc : ZoneDescriptor)
    (inside : zid < p.zpp.nrZones) :
    (openZones p (Function.update descs zid desc) : Int) =
      openZones p descs + (openShare desc.state - openShare (descs zid).state) := by
  have counted := Tally.count_update (fun desc : ZoneDescriptor => isOpened desc.state = true) descs zid p.zpp.nrZones desc inside
  unfold openZones openShare
  split <;> split <;> simp_all only [if_true, if_false, reduceCtorEq] <;> omega

theorem active_zones_update (p : Params) (descs : Nat → ZoneDescriptor) (zid : Nat) (desc : ZoneDescriptor)
    (inside : zid < p.zpp.nrZones) :
    (activeZones p (Function.update descs zid desc) : Int) =
      activeZones p descs + (activeShare desc.state - activeShare (descs zid).state) := by
  have counted := Tally.count_update (fun desc : ZoneDescriptor => isActive desc.state = true) descs zid p.zpp.nrZones desc inside
  unfold activeZones activeShare
  split <;> split <;> simp_all only [if_true, if_false, reduceCtorEq] <;> omega

-- What an action adds to the two counters, and that it leaves the rest of
-- the resource table alone.
structure Ledger (before after : ZmsFtl) (opened active : Int) : Prop where
  openCnt : ((after.resInfos .openZone).acquiredCnt : Int) = (before.resInfos .openZone).acquiredCnt + opened
  activeCnt : ((after.resInfos .activeZone).acquiredCnt : Int) = (before.resInfos .activeZone).acquiredCnt + active
  totals : ∀ type, (after.resInfos type).totalCnt = (before.resInfos type).totalCnt
  zrwa : after.resInfos .zrwaZone = before.resInfos .zrwaZone
  released : ∀ type, (after.resInfos type).asserted = (before.resInfos type).asserted

theorem ledger_same (before after : ZmsFtl) (same : after.resInfos = before.resInfos) : Ledger before after 0 0 := by
  constructor
  · rw [same]
    omega
  · rw [same]
    omega
  · intro type
    rw [same]
  · rw [same]
  · intro type
    rw [same]

theorem change_zone_state_infos (ftl : ZmsFtl) (zid : Nat) (state : ZoneState) :
    (changeZoneState ftl zid state).resInfos = ftl.resInfos := rfl

theorem ledger_trans (first second third : ZmsFtl) (opened active moreOpened moreActive : Int)
    (left : Ledger first second opened active) (right : Ledger second third moreOpened moreActive) :
    Ledger first third (opened + moreOpened) (active + moreActive) := by
  obtain ⟨leftOpen, leftActive, leftTotals, leftZrwa, leftReleased⟩ := left
  obtain ⟨rightOpen, rightActive, rightTotals, rightZrwa, rightReleased⟩ := right
  exact ⟨by omega, by omega, fun type => (rightTotals type).trans (leftTotals type), rightZrwa.trans leftZrwa,
    fun type => (rightReleased type).trans (leftReleased type)⟩

theorem accounted_booked (p : Params) (before after : ZmsFtl) (zid : Nat) (desc : ZoneDescriptor)
    (accounted : Accounted p before) (inside : zid < p.zpp.nrZones)
    (descs : after.zoneDescs = Function.update before.zoneDescs zid desc)
    (ledger : Ledger before after (openShare desc.state - openShare (before.zoneDescs zid).state)
      (activeShare desc.state - activeShare (before.zoneDescs zid).state))
    (sound : SoundDescriptor p zid desc) : Accounted p after := by
  have openUpdate := open_zones_update p before.zoneDescs zid desc inside
  have activeUpdate := active_zones_update p before.zoneDescs zid desc inside
  have openedBefore := accounted.opened
  have activeBefore := accounted.active
  have openedAfter := ledger.openCnt
  have activeAfter := ledger.activeCnt
  constructor
  · intro other below
    rw [descs]
    by_cases same : other = zid
    · rw [same, Function.update_self]
      exact sound
    · rw [Function.update_of_ne same]
      exact accounted.sound other below
  · rw [descs]
    omega
  · rw [descs]
    omega
  · rw [ledger.totals]
    exact accounted.openTotal
  · rw [ledger.totals]
    exact accounted.activeTotal
  · rw [ledger.zrwa]
    exact accounted.noZrwa
  · intro type
    rw [ledger.released]
    exact accounted.released type

theorem released_count (count : Nat) (some : 0 < count) (fits : count < 2 ^ 32) : u32 (count + 2 ^ 32 - 1) = count - 1 := by
  unfold u32
  omega

theorem acquired_count (count total : Nat) (room : count < total) (fits : total < 2 ^ 32) : u32 (count + 1) = count + 1 := by
  unfold u32
  omega

theorem release_infos_other (ftl : ZmsFtl) (type other : ResType) (apart : other ≠ type) :
    (releaseZoneResource ftl type).resInfos other = ftl.resInfos other := by
  unfold releaseZoneResource putRes noteRelease
  dsimp only
  rw [Function.update_of_ne apart, Function.update_of_ne apart]

theorem release_infos (ftl : ZmsFtl) (type : ResType) (some : 0 < (ftl.resInfos type).acquiredCnt)
    (fits : (ftl.resInfos type).acquiredCnt < 2 ^ 32) :
    (releaseZoneResource ftl type).resInfos type =
      { ftl.resInfos type with acquiredCnt := (ftl.resInfos type).acquiredCnt - 1 } := by
  have positive : ((ftl.resInfos type).acquiredCnt == 0) = false := by
    rw [beq_eq_false_iff_ne]
    omega
  unfold releaseZoneResource putRes noteRelease
  dsimp only
  rw [Function.update_self, Function.update_self, released_count _ some fits, positive, Bool.or_false]

@[simp] theorem release_descs (ftl : ZmsFtl) (type : ResType) : (releaseZoneResource ftl type).zoneDescs = ftl.zoneDescs := rfl

theorem acquire_granted (ftl : ZmsFtl) (type : ResType) (room : (ftl.resInfos type).acquiredCnt < (ftl.resInfos type).totalCnt)
    (fits : (ftl.resInfos type).totalCnt < 2 ^ 32) :
    acquireZoneResource ftl type = (true, putRes ftl type ((ftl.resInfos type).acquiredCnt + 1)) := by
  unfold acquireZoneResource isZoneResourceAvail
  rw [if_pos (decide_eq_true room), acquired_count _ _ room fits]

theorem acquire_refused (ftl : ZmsFtl) (type : ResType) (full : ¬(ftl.resInfos type).acquiredCnt < (ftl.resInfos type).totalCnt) :
    acquireZoneResource ftl type = (false, ftl) := by
  unfold acquireZoneResource isZoneResourceAvail
  rw [if_neg (by rw [decide_eq_true_iff]; exact full)]

theorem release_open_ledger (ftl : ZmsFtl) (some : 0 < (ftl.resInfos .openZone).acquiredCnt)
    (fits : (ftl.resInfos .openZone).acquiredCnt < 2 ^ 32) : Ledger ftl (releaseZoneResource ftl .openZone) (-1) 0 := by
  have released := release_infos ftl .openZone some fits
  have active := release_infos_other ftl .openZone .activeZone (by decide)
  have zrwa := release_infos_other ftl .openZone .zrwaZone (by decide)
  refine ⟨?_, ?_, ?_, zrwa, ?_⟩
  · rw [released]
    dsimp only
    omega
  · rw [active]
    omega
  · intro type
    cases type with
    | openZone => rw [released]
    | activeZone => rw [active]
    | zrwaZone => rw [zrwa]
  · intro type
    cases type with
    | openZone => rw [released]
    | activeZone => rw [active]
    | zrwaZone => rw [zrwa]

theorem release_active_ledger (ftl : ZmsFtl) (some : 0 < (ftl.resInfos .activeZone).acquiredCnt)
    (fits : (ftl.resInfos .activeZone).acquiredCnt < 2 ^ 32) : Ledger ftl (releaseZoneResource ftl .activeZone) 0 (-1) := by
  have released := release_infos ftl .activeZone some fits
  have opened := release_infos_other ftl .activeZone .openZone (by decide)
  have zrwa := release_infos_other ftl .activeZone .zrwaZone (by decide)
  refine ⟨?_, ?_, ?_, zrwa, ?_⟩
  · rw [opened]
    omega
  · rw [released]
    dsimp only
    omega
  · intro type
    cases type with
    | openZone => rw [opened]
    | activeZone => rw [released]
    | zrwaZone => rw [zrwa]
  · intro type
    cases type with
    | openZone => rw [opened]
    | activeZone => rw [released]
    | zrwaZone => rw [zrwa]

theorem acquire_open_ledger (ftl : ZmsFtl) : Ledger ftl (putRes ftl .openZone ((ftl.resInfos .openZone).acquiredCnt + 1)) 1 0 := by
  refine ⟨?_, ?_, ?_, rfl, ?_⟩
  · simp [putRes]
  · simp [putRes]
  · intro type
    cases type with
    | openZone => simp [putRes]
    | activeZone => rfl
    | zrwaZone => rfl
  · intro type
    cases type with
    | openZone => simp [putRes]
    | activeZone => rfl
    | zrwaZone => rfl

theorem acquire_active_ledger (ftl : ZmsFtl) :
    Ledger ftl (putRes ftl .activeZone ((ftl.resInfos .activeZone).acquiredCnt + 1)) 0 1 := by
  refine ⟨?_, ?_, ?_, rfl, ?_⟩
  · simp [putRes]
  · simp [putRes]
  · intro type
    cases type with
    | openZone => rfl
    | activeZone => simp [putRes]
    | zrwaZone => rfl
  · intro type
    cases type with
    | openZone => rfl
    | activeZone => simp [putRes]
    | zrwaZone => rfl

section Actions

variable (p : Params) (ftl : ZmsFtl) (zid : Nat) (accounted : Accounted p ftl) (inside : zid < p.zpp.nrZones)

include accounted in
theorem counters_fit (type : ResType) : (ftl.resInfos type).acquiredCnt < 2 ^ 32 ∧ (ftl.resInfos type).totalCnt < 2 ^ 32 := by
  have zones := p.zpp.zonesFit
  have openBound := open_zones_bound p ftl.zoneDescs
  have activeBound := active_zones_bound p ftl.zoneDescs
  have opened := accounted.opened
  have active := accounted.active
  have openTotal := accounted.openTotal
  have activeTotal := accounted.activeTotal
  have noZrwa := accounted.noZrwa
  cases type with
  | openZone => omega
  | activeZone => omega
  | zrwaZone => omega

include accounted inside in
theorem opened_counted (opened : isOpened (ftl.zoneDescs zid).state = true) :
    0 < (ftl.resInfos .openZone).acquiredCnt ∧ 0 < (ftl.resInfos .activeZone).acquiredCnt := by
  rw [accounted.opened, accounted.active]
  exact ⟨open_zones_positive p ftl.zoneDescs zid inside opened,
    active_zones_positive p ftl.zoneDescs zid inside (open_is_active _ opened)⟩

include accounted inside in
theorem active_counted (active : isActive (ftl.zoneDescs zid).state = true) : 0 < (ftl.resInfos .activeZone).acquiredCnt := by
  rw [accounted.active]
  exact active_zones_positive p ftl.zoneDescs zid inside active

include accounted inside in
theorem accounted_new_state (state : ZoneState) (after : ZmsFtl)
    (descs : after.zoneDescs = Function.update ftl.zoneDescs zid { ftl.zoneDescs zid with state := state })
    (ledger : Ledger ftl after (openShare state - openShare (ftl.zoneDescs zid).state)
      (activeShare state - activeShare (ftl.zoneDescs zid).state))
    (notEmpty : state ≠ .empty) (full : (ftl.zoneDescs zid).state = .full → state = .full)  : Accounted p after := by
  have sound := accounted.sound zid inside
  exact accounted_booked p ftl after zid _ accounted inside descs ledger
    ⟨sound.start, sound.capacity, sound.lower, sound.upper, fun same => absurd same notEmpty,
      fun atEnd => full (sound.full atEnd), sound.plain⟩

include accounted inside in
theorem close_zone_accounted : Accounted p (zmgmtSendCloseZone ftl zid).2 := by
  unfold zmgmtSendCloseZone
  have close : isOpened (ftl.zoneDescs zid).state = true →
      Accounted p (releaseZoneResource (changeZoneState ftl zid .closed) .openZone) := by
    intro opened
    have positive := (opened_counted p ftl zid accounted inside opened).1
    have fits := (counters_fit p ftl accounted .openZone).1
    refine accounted_new_state p ftl zid accounted inside .closed _ rfl ?_ (by decide) ?_
    · have ledger := release_open_ledger (changeZoneState ftl zid .closed) positive fits
      unfold openShare activeShare
      rw [opened, open_is_active _ opened]
      exact ⟨ledger.openCnt, ledger.activeCnt, ledger.totals, ledger.zrwa, ledger.released⟩
    · intro full
      rw [full] at opened
      cases opened
  split
  · rename_i state
    exact close (by rw [state]; rfl)
  · rename_i state
    exact close (by rw [state]; rfl)
  · exact accounted
  · exact accounted

include accounted inside in
theorem release_active_accounted (released : ZmsFtl) (opened : Int)
    (ledger : Ledger ftl released opened 0) (descs : released.zoneDescs = ftl.zoneDescs)
    (active : isActive (ftl.zoneDescs zid).state = true) :
    (releaseActive released zid).zoneDescs = ftl.zoneDescs ∧ Ledger ftl (releaseActive released zid) opened (-1) := by
  have plain := (accounted.sound zid inside).plain
  have positive := active_counted p ftl zid accounted inside active
  have fits := (counters_fit p ftl accounted .activeZone).1
  have count := ledger.activeCnt
  have same : releaseActive released zid = releaseZoneResource released .activeZone := by
    unfold releaseActive
    rw [descs, plain]
    rfl
  rw [same]
  refine ⟨descs, ?_⟩
  have step := release_active_ledger released (by omega) (by omega)
  have both := ledger_trans _ _ _ _ _ _ _ ledger step
  simpa using both

include accounted inside in
theorem release_both_accounted (opened : isOpened (ftl.zoneDescs zid).state = true) :
    (releaseActive (releaseZoneResource ftl .openZone) zid).zoneDescs = ftl.zoneDescs ∧
      Ledger ftl (releaseActive (releaseZoneResource ftl .openZone) zid) (-1) (-1) := by
  have positive := (opened_counted p ftl zid accounted inside opened).1
  have fits := (counters_fit p ftl accounted .openZone).1
  exact release_active_accounted p ftl zid accounted inside _ (-1) (release_open_ledger ftl positive fits) rfl
    (open_is_active _ opened)

include accounted inside in
theorem finish_zone_accounted : Accounted p (zmgmtSendFinishZone ftl zid).2 := by
  have finish : ∀ released opened active, released.zoneDescs = ftl.zoneDescs → Ledger ftl released opened active →
      opened = 0 - openShare (ftl.zoneDescs zid).state → active = 0 - activeShare (ftl.zoneDescs zid).state →
      Accounted p (changeZoneState released zid .full) := by
    intro released opened active descs ledger openEq activeEq
    refine accounted_new_state p ftl zid accounted inside .full _ ?_ ?_ (by decide) fun _ => rfl
    · unfold changeZoneState putDesc
      rw [descs]
    · subst openEq activeEq
      exact ⟨ledger.openCnt, ledger.activeCnt, ledger.totals, ledger.zrwa, ledger.released⟩
  unfold zmgmtSendFinishZone
  split
  · rename_i state
    have opened : isOpened (ftl.zoneDescs zid).state = true := by rw [state]; rfl
    obtain ⟨descs, ledger⟩ := release_both_accounted p ftl zid accounted inside opened
    exact finish _ _ _ descs ledger (by rw [state]; rfl) (by rw [state]; rfl)
  · rename_i state
    have opened : isOpened (ftl.zoneDescs zid).state = true := by rw [state]; rfl
    obtain ⟨descs, ledger⟩ := release_both_accounted p ftl zid accounted inside opened
    exact finish _ _ _ descs ledger (by rw [state]; rfl) (by rw [state]; rfl)
  · rename_i state
    obtain ⟨descs, ledger⟩ := release_active_accounted p ftl zid accounted inside ftl 0 (ledger_same ftl ftl rfl) rfl
      (by rw [state]; rfl)
    exact finish _ _ _ descs ledger (by rw [state]; rfl) (by rw [state]; rfl)
  · rename_i state
    exact finish ftl 0 0 rfl (ledger_same ftl ftl rfl) (by rw [state]; rfl) (by rw [state]; rfl)
  · exact accounted
  · exact accounted

theorem open_granted (acquired : ZmsFtl) (state : ZoneState)
    (opens : (acquireZoneResource acquired .openZone).1 = true)
    (fits : (acquired.resInfos .openZone).totalCnt < 2 ^ 32) :
    Ledger acquired (changeZoneState (acquireZoneResource acquired .openZone).2 zid state) 1 0 ∧
      (changeZoneState (acquireZoneResource acquired .openZone).2 zid state).zoneDescs =
        Function.update acquired.zoneDescs zid { acquired.zoneDescs zid with state := state } := by
  by_cases room : (acquired.resInfos .openZone).acquiredCnt < (acquired.resInfos .openZone).totalCnt
  · rw [acquire_granted acquired .openZone room fits]
    have ledger := acquire_open_ledger acquired
    exact ⟨⟨ledger.openCnt, ledger.activeCnt, ledger.totals, ledger.zrwa, ledger.released⟩, rfl⟩
  · rw [acquire_refused acquired .openZone room] at opens
    cases opens

include accounted in
theorem resource_room (type : ResType) (kind : type = .openZone ∨ type = .activeZone) (notFull : isZoneResourceFull ftl type = false) :
    (ftl.resInfos type).acquiredCnt < (ftl.resInfos type).totalCnt := by
  unfold isZoneResourceFull at notFull
  rw [beq_eq_false_iff_ne] at notFull
  have openBound := open_zones_bound p ftl.zoneDescs
  have activeBound := active_zones_bound p ftl.zoneDescs
  have opened := accounted.opened
  have active := accounted.active
  have openTotal := accounted.openTotal
  have activeTotal := accounted.activeTotal
  rcases kind with same | same
  · subst same
    omega
  · subst same
    omega

include accounted in
theorem open_empty_granted (state : ZoneState) (activeRoom : isZoneResourceFull ftl .activeZone = false)
    (openRoom : isZoneResourceFull ftl .openZone = false) :
    acquireZoneResource (acquireZoneResource ftl .activeZone).2 .openZone =
        (true, (acquireZoneResource (acquireZoneResource ftl .activeZone).2 .openZone).2) ∧
      Ledger ftl (changeZoneState (acquireZoneResource (acquireZoneResource ftl .activeZone).2 .openZone).2 zid state) 1 1 ∧
      (changeZoneState (acquireZoneResource (acquireZoneResource ftl .activeZone).2 .openZone).2 zid state).zoneDescs =
        Function.update ftl.zoneDescs zid { ftl.zoneDescs zid with state := state } := by
  have activeSpace := resource_room p ftl accounted .activeZone (.inr rfl) activeRoom
  have openSpace := resource_room p ftl accounted .openZone (.inl rfl) openRoom
  have activeFits := (counters_fit p ftl accounted .activeZone).2
  have openFits := (counters_fit p ftl accounted .openZone).2
  rw [acquire_granted ftl .activeZone activeSpace activeFits]
  dsimp only
  have first := acquire_active_ledger ftl
  generalize held : putRes ftl .activeZone ((ftl.resInfos .activeZone).acquiredCnt + 1) = acquired at first
  have sameOpen : acquired.resInfos .openZone = ftl.resInfos .openZone := by rw [← held]; rfl
  have descs : acquired.zoneDescs = ftl.zoneDescs := by rw [← held]; rfl
  have granted : acquireZoneResource acquired .openZone =
      (true, putRes acquired .openZone ((acquired.resInfos .openZone).acquiredCnt + 1)) :=
    acquire_granted acquired .openZone (by rw [sameOpen]; exact openSpace) (by rw [sameOpen]; exact openFits)
  obtain ⟨second, opened⟩ := open_granted zid acquired state (by rw [granted]) (by rw [sameOpen]; exact openFits)
  refine ⟨by rw [granted], ?_, ?_⟩
  · have both := ledger_trans _ _ _ _ _ _ _ first second
    simpa using both
  · rw [opened, descs]

include accounted inside in
theorem open_zone_accounted (zrwa : Bool) : Accounted p (zmgmtSendOpenZone ftl zid zrwa).2 := by
  unfold zmgmtSendOpenZone
  split
  · rename_i state
    split
    · exact accounted
    · rename_i activeRoom
      split
      · exact accounted
      · rename_i openRoom
        split
        · exact accounted
        · rename_i noZrwa
          have zrwaFull : isZoneResourceFull ftl .zrwaZone = true := by
            unfold isZoneResourceFull
            rw [accounted.noZrwa.1, accounted.noZrwa.2]
            rfl
          rw [zrwaFull, Bool.and_true] at noZrwa
          rw [Bool.not_eq_true] at noZrwa activeRoom openRoom
          obtain ⟨granted, ledger, descs⟩ := open_empty_granted p ftl zid accounted .openedExpl activeRoom openRoom
          unfold openExplicitly
          simp only [noZrwa, Bool.false_eq_true, if_false]
          rw [granted]
          refine accounted_new_state p ftl zid accounted inside .openedExpl _ descs ?_ (by decide) ?_
          · rw [state]
            exact ledger
          · intro full
            rw [state] at full
            cases full
  · rename_i state
    unfold openExplicitly
    cases taken : acquireZoneResource ftl .openZone with
    | mk granted acquired =>
        cases granted with
        | false =>
            by_cases room : (ftl.resInfos .openZone).acquiredCnt < (ftl.resInfos .openZone).totalCnt
            · rw [acquire_granted ftl .openZone room (counters_fit p ftl accounted .openZone).2] at taken
              cases taken
            · rw [acquire_refused ftl .openZone room] at taken
              rw [← (Prod.mk.inj taken).2]
              exact accounted
        | true =>
            obtain ⟨ledger, descs⟩ := open_granted zid ftl .openedExpl (by rw [taken]) (counters_fit p ftl accounted .openZone).2
            rw [taken] at ledger descs
            refine accounted_new_state p ftl zid accounted inside .openedExpl _ descs ?_ (by decide) ?_
            · rw [state]
              exact ledger
            · intro full
              rw [state] at full
              cases full
  · rename_i state
    refine accounted_new_state p ftl zid accounted inside .openedExpl _ rfl ?_ (by decide) ?_
    · rw [state]
      exact ledger_same ftl _ rfl
    · intro full
      rw [state] at full
      cases full
  · exact accounted
  · exact accounted

include accounted inside in
theorem offline_zone_accounted : Accounted p (zmgmtSendOfflineZone ftl zid).2 := by
  unfold zmgmtSendOfflineZone
  split
  · rename_i state
    refine accounted_new_state p ftl zid accounted inside .offline _ rfl ?_ (by decide) ?_
    · rw [state]
      exact ledger_same ftl _ rfl
    · intro full
      rw [state] at full
      cases full
  · exact accounted
  · exact accounted

include accounted inside in
theorem reset_zone_accounted (status : NvmeStatus) (next : ZmsFtl) (ran : zmgmtSendResetZone p ftl zid = .ok (status, next)) :
    Accounted p next := by
  have sound := accounted.sound zid inside
  have positive := p.zpp.capacityPositive
  have reset : ∀ released opened active, released.zoneDescs = ftl.zoneDescs → Ledger ftl released opened active →
      opened = 0 - openShare (ftl.zoneDescs zid).state → active = 0 - activeShare (ftl.zoneDescs zid).state →
      (do let done ← resetZone p (changeZoneState released zid .empty) zid
          pure (NvmeStatus.success, done) : Exec (NvmeStatus × ZmsFtl)) = .ok (status, next) → Accounted p next := by
    intro released opened active descs ledger openEq activeEq ran
    obtain ⟨done, resetting, rest⟩ := bind_ok _ _ _ ran
    rw [← (Prod.mk.inj (pure_ok _ _ rest)).2]
    refine accounted_same p _ done (zone_reset_table p _ done zid resetting).toSameTable ?_
    refine accounted_booked p ftl _ zid
      { ftl.zoneDescs zid with state := .empty, zrwav := false, wp := (ftl.zoneDescs zid).zslba } accounted inside ?_ ?_ ?_
    · simp [putDesc, changeZoneState, descs]
    · subst openEq activeEq
      exact ⟨ledger.openCnt, ledger.activeCnt, ledger.totals, ledger.zrwa, ledger.released⟩
    · refine ⟨sound.start, sound.capacity, Nat.le_refl _, Nat.le_add_right _ _, fun _ => rfl, ?_, rfl⟩
      intro atEnd
      dsimp only at atEnd
      rw [sound.capacity] at atEnd
      have room : 0 < capacityLbas p := Nat.div_pos (Nat.le_of_dvd positive p.zpp.capacityAligned) (by decide)
      omega
  unfold zmgmtSendResetZone at ran
  dsimp only at ran
  split at ran
  · rename_i state
    have opened : isOpened (ftl.zoneDescs zid).state = true := by rw [state]; rfl
    obtain ⟨descs, ledger⟩ := release_both_accounted p ftl zid accounted inside opened
    exact reset _ _ _ descs ledger (by rw [state]; rfl) (by rw [state]; rfl) ran
  · rename_i state
    have opened : isOpened (ftl.zoneDescs zid).state = true := by rw [state]; rfl
    obtain ⟨descs, ledger⟩ := release_both_accounted p ftl zid accounted inside opened
    exact reset _ _ _ descs ledger (by rw [state]; rfl) (by rw [state]; rfl) ran
  · rename_i state
    obtain ⟨descs, ledger⟩ := release_active_accounted p ftl zid accounted inside ftl 0 (ledger_same ftl ftl rfl) rfl
      (by rw [state]; rfl)
    exact reset _ _ _ descs ledger (by rw [state]; rfl) (by rw [state]; rfl) ran
  · rename_i state
    exact reset ftl 0 0 rfl (ledger_same ftl ftl rfl) (by rw [state]; rfl) (by rw [state]; rfl) ran
  · rename_i state
    exact reset ftl 0 0 rfl (ledger_same ftl ftl rfl) (by rw [state]; rfl) (by rw [state]; rfl) ran
  · rw [← (Prod.mk.inj (pure_ok _ _ ran)).2]
    exact accounted

-- What the write check did to the zone when it let a write of nrLba blocks in.
structure Admitted (p : Params) (before after : ZmsFtl) (zid nrLba : Nat) (state : ZoneState) : Prop where
  opened : isOpened state = true
  descs : after.zoneDescs = Function.update before.zoneDescs zid { before.zoneDescs zid with state := state }
  ledger : Ledger before after (openShare state - openShare (before.zoneDescs zid).state)
    (activeShare state - activeShare (before.zoneDescs zid).state)

include accounted in
theorem open_for_write_cases (acquired : ZmsFtl) (same : acquired = ftl) (status : NvmeStatus) (after : ZmsFtl)
    (ran : openForWrite acquired zid = (status, after)) :
    (status = .znsNoOpenZone ∧ after = ftl) ∨
      (status = .success ∧ Ledger ftl after 1 0 ∧
        after.zoneDescs = Function.update ftl.zoneDescs zid { ftl.zoneDescs zid with state := .openedImpl }) := by
  subst same
  unfold openForWrite at ran
  have fits := (counters_fit p acquired accounted .openZone).2
  by_cases room : (acquired.resInfos .openZone).acquiredCnt < (acquired.resInfos .openZone).totalCnt
  · have granted := acquire_granted acquired .openZone room fits
    obtain ⟨ledger, descs⟩ := open_granted zid acquired .openedImpl (by rw [granted]) fits
    rw [granted] at ran ledger descs
    obtain ⟨statusEq, afterEq⟩ := Prod.mk.inj ran
    subst statusEq afterEq
    exact .inr ⟨rfl, ledger, descs⟩
  · rw [acquire_refused acquired .openZone room] at ran
    obtain ⟨statusEq, afterEq⟩ := Prod.mk.inj ran
    exact .inl ⟨statusEq.symm, afterEq.symm⟩

include accounted in
theorem admit_write_cases (slba nrLba : Nat) (status : NvmeStatus) (after : ZmsFtl)
    (ran : admitWrite ftl zid slba = (status, after)) :
    (status ≠ .success ∧ after = ftl) ∨ (status = .success ∧ ∃ state, Admitted p ftl after zid nrLba state) := by
  unfold admitWrite at ran
  have refuse : ∀ other, other ≠ NvmeStatus.success → (other, ftl) = (status, after) →
      (status ≠ .success ∧ after = ftl) ∨ (status = .success ∧ ∃ state, Admitted p ftl after zid nrLba state) := by
    intro other failed same
    obtain ⟨statusEq, afterEq⟩ := Prod.mk.inj same
    exact .inl ⟨statusEq ▸ failed, afterEq.symm⟩
  split at ran
  · rename_i state
    split at ran
    · exact refuse _ (by decide) ran
    · split at ran
      · exact refuse _ (by decide) ran
      · rename_i activeRoom
        split at ran
        · exact refuse _ (by decide) ran
        · rename_i openRoom
          rw [Bool.not_eq_true] at activeRoom openRoom
          obtain ⟨granted, ledger, descs⟩ := open_empty_granted p ftl zid accounted .openedImpl activeRoom openRoom
          unfold openForWrite at ran
          rw [granted] at ran
          obtain ⟨statusEq, afterEq⟩ := Prod.mk.inj ran
          subst afterEq
          refine .inr ⟨statusEq.symm, .openedImpl, rfl, descs, ?_⟩
          rw [state]
          exact ledger
  · rename_i state
    rcases open_for_write_cases p ftl zid accounted ftl rfl status after ran with ⟨refused, same⟩ | ⟨opened, ledger, descs⟩
    · exact .inl ⟨by rw [refused]; decide, same⟩
    · refine .inr ⟨opened, .openedImpl, rfl, descs, ?_⟩
      rw [state]
      exact ledger
  · rename_i state
    obtain ⟨statusEq, afterEq⟩ := Prod.mk.inj ran
    subst afterEq
    refine .inr ⟨statusEq.symm, .openedImpl, rfl, ?_, ?_⟩
    · rw [← state, Function.update_eq_self]
    · rw [state]
      exact ledger_same ftl ftl rfl
  · rename_i state
    obtain ⟨statusEq, afterEq⟩ := Prod.mk.inj ran
    subst afterEq
    refine .inr ⟨statusEq.symm, .openedExpl, rfl, ?_, ?_⟩
    · rw [← state, Function.update_eq_self]
    · rw [state]
      exact ledger_same ftl ftl rfl
  · exact refuse _ (by decide) ran
  · exact refuse _ (by decide) ran
  · exact refuse _ (by decide) ran

include accounted inside in
theorem admitted_counts (admitted : ZmsFtl) (nrLba : Nat) (state : ZoneState) (admission : Admitted p ftl admitted zid nrLba state) :
    (0 < (admitted.resInfos .openZone).acquiredCnt ∧ (admitted.resInfos .openZone).acquiredCnt < 2 ^ 32) ∧
      0 < (admitted.resInfos .activeZone).acquiredCnt ∧ (admitted.resInfos .activeZone).acquiredCnt < 2 ^ 32 := by
  have zones := p.zpp.zonesFit
  have desc : (admitted.zoneDescs zid).state = state := by rw [admission.descs, Function.update_self]
  have openPositive := open_zones_positive p admitted.zoneDescs zid inside (by rw [desc]; exact admission.opened)
  have activePositive := active_zones_positive p admitted.zoneDescs zid inside
    (by rw [desc]; exact open_is_active state admission.opened)
  have openBound := open_zones_bound p admitted.zoneDescs
  have activeBound := active_zones_bound p admitted.zoneDescs
  have openCount : ((admitted.resInfos .openZone).acquiredCnt : Int) = openZones p admitted.zoneDescs := by
    rw [admission.ledger.openCnt, admission.descs, open_zones_update p ftl.zoneDescs zid _ inside, accounted.opened]
  have activeCount : ((admitted.resInfos .activeZone).acquiredCnt : Int) = activeZones p admitted.zoneDescs := by
    rw [admission.ledger.activeCnt, admission.descs, active_zones_update p ftl.zoneDescs zid _ inside, accounted.active]
  omega

def writtenDesc (desc : ZoneDescriptor) (state : ZoneState) (nrLba : Nat) : ZoneDescriptor :=
  { desc with state := if desc.wp + nrLba = desc.zslba + desc.zoneCapacity then .full else state, wp := desc.wp + nrLba }

include accounted inside in
theorem increase_write_ptr_effect (admitted : ZmsFtl) (nrLba : Nat) (state : ZoneState)
    (admission : Admitted p ftl admitted zid nrLba state) :
    (increaseWritePtr p admitted zid nrLba).zoneDescs =
        Function.update ftl.zoneDescs zid (writtenDesc (ftl.zoneDescs zid) state nrLba) ∧
      Ledger ftl (increaseWritePtr p admitted zid nrLba)
        (openShare (writtenDesc (ftl.zoneDescs zid) state nrLba).state - openShare (ftl.zoneDescs zid).state)
        (activeShare (writtenDesc (ftl.zoneDescs zid) state nrLba).state - activeShare (ftl.zoneDescs zid).state) := by
  have sound := accounted.sound zid inside
  have desc : admitted.zoneDescs zid = { ftl.zoneDescs zid with state := state } := by rw [admission.descs, Function.update_self]
  have active := open_is_active state admission.opened
  have openShareOne : openShare state = 1 := by unfold openShare; rw [if_pos admission.opened]
  have activeShareOne : activeShare state = 1 := by unfold activeShare; rw [if_pos active]
  obtain ⟨openCount, activeCount⟩ := admitted_counts p ftl zid accounted inside admitted nrLba state admission
  have moves : (putDesc admitted zid { admitted.zoneDescs zid with wp := (admitted.zoneDescs zid).wp + nrLba }).zoneDescs =
      Function.update ftl.zoneDescs zid { ftl.zoneDescs zid with state := state, wp := (ftl.zoneDescs zid).wp + nrLba } := by
    unfold putDesc
    dsimp only
    rw [desc, admission.descs, Function.update_idem]
  unfold increaseWritePtr
  dsimp only
  generalize grown : putDesc admitted zid _ = moved at moves ⊢
  have infos : moved.resInfos = admitted.resInfos := by rw [← grown]; rfl
  have movedDesc : moved.zoneDescs zid = { ftl.zoneDescs zid with state := state, wp := (ftl.zoneDescs zid).wp + nrLba } := by
    rw [moves, Function.update_self]
  have moving := ledger_trans _ _ _ _ _ _ _ admission.ledger (ledger_same admitted moved infos)
  rw [movedDesc, desc, ← sound.start]
  dsimp only
  by_cases atEnd : (ftl.zoneDescs zid).wp + nrLba = (ftl.zoneDescs zid).zslba + (ftl.zoneDescs zid).zoneCapacity
  · have written : writtenDesc (ftl.zoneDescs zid) state nrLba =
        { ftl.zoneDescs zid with state := .full, wp := (ftl.zoneDescs zid).wp + nrLba } := by
      unfold writtenDesc
      rw [if_pos atEnd]
    rw [if_pos atEnd, written]
    have openMoved : moved.resInfos .openZone = admitted.resInfos .openZone := by rw [infos]
    have activeMoved : (releaseZoneResource moved .openZone).resInfos .activeZone = admitted.resInfos .activeZone := by
      rw [release_infos_other moved .openZone .activeZone (by decide), infos]
    rw [← openMoved] at openCount
    rw [← activeMoved] at activeCount
    have releases := ledger_trans _ _ _ _ _ _ _ (release_open_ledger moved openCount.1 openCount.2)
      (release_active_ledger (releaseZoneResource moved .openZone) activeCount.1 activeCount.2)
    have ledger := ledger_trans _ _ _ _ _ _ _ moving releases
    refine ⟨?_, ?_⟩
    · unfold changeZoneState putDesc
      dsimp only
      rw [release_descs, release_descs, movedDesc, moves, Function.update_idem]
    · have fullOpen : openShare .full = 0 := rfl
      have fullActive : activeShare .full = 0 := rfl
      rw [openShareOne, activeShareOne] at ledger
      rw [fullOpen, fullActive]
      have opens : 1 - openShare (ftl.zoneDescs zid).state + 0 + (-1 + 0) = 0 - openShare (ftl.zoneDescs zid).state := by
        omega
      have actives : 1 - activeShare (ftl.zoneDescs zid).state + 0 + (0 + -1) = 0 - activeShare (ftl.zoneDescs zid).state := by
        omega
      rw [opens, actives] at ledger
      have changed := ledger_trans _ _ _ _ _ _ _ ledger (ledger_same _ _ (change_zone_state_infos _ zid .full))
      rwa [Int.add_zero, Int.add_zero] at changed
  · have written : writtenDesc (ftl.zoneDescs zid) state nrLba =
        { ftl.zoneDescs zid with state := state, wp := (ftl.zoneDescs zid).wp + nrLba } := by
      unfold writtenDesc
      rw [if_neg atEnd]
    rw [if_neg atEnd, written]
    rw [Int.add_zero, Int.add_zero] at moving
    exact ⟨moves, moving⟩

end Actions

-- A write check that passes advances its zone by the blocks of the write and
-- any other leaves the state as it was.
theorem zns_write_check_cases (p : Params) (ftl : ZmsFtl) (slba nrLba : Nat) (status : NvmeStatus) (after : ZmsFtl)
    (accounted : Accounted p ftl) (inside : lbaToZone p slba < p.zpp.nrZones)
    (ran : znsWriteCheck p ftl slba nrLba = (status, after)) :
    (status ≠ .success ∧ after = ftl) ∨
      (status = .success ∧ slba = (ftl.zoneDescs (lbaToZone p slba)).wp ∧
        slba + nrLba ≤ zoneToSlba p (lbaToZone p slba) + capacityLbas p ∧
        ∃ state, isOpened state = true ∧
          after.zoneDescs = Function.update ftl.zoneDescs (lbaToZone p slba)
            (writtenDesc (ftl.zoneDescs (lbaToZone p slba)) state nrLba) ∧
          Ledger ftl after
            (openShare (writtenDesc (ftl.zoneDescs (lbaToZone p slba)) state nrLba).state
              - openShare (ftl.zoneDescs (lbaToZone p slba)).state)
            (activeShare (writtenDesc (ftl.zoneDescs (lbaToZone p slba)) state nrLba).state
              - activeShare (ftl.zoneDescs (lbaToZone p slba)).state)) := by
  have sound := accounted.sound _ inside
  unfold znsWriteCheck at ran
  dsimp only at ran
  have refuse : ∀ other, other ≠ NvmeStatus.success → (other, ftl) = (status, after) → status ≠ .success ∧ after = ftl := by
    intro other failed same
    obtain ⟨statusEq, afterEq⟩ := Prod.mk.inj same
    exact ⟨statusEq ▸ failed, afterEq.symm⟩
  split at ran
  · exact .inl (refuse _ (by decide) ran)
  · split at ran
    · exact .inl (refuse _ (by decide) ran)
    · rename_i atWp
      rw [not_not] at atWp
      split at ran
      · exact .inl (refuse _ (by decide) ran)
      · rename_i within
        cases admission : admitWrite ftl (lbaToZone p slba) slba with
        | mk admittedStatus admitted =>
            rw [admission] at ran
            rcases admit_write_cases p ftl (lbaToZone p slba) accounted slba nrLba admittedStatus admitted admission with
              ⟨failed, same⟩ | ⟨granted, state, opening⟩
            · refine .inl ?_
              cases admittedStatus with
              | success => exact absurd rfl failed
              | _ => exact ⟨by rw [← (Prod.mk.inj ran).1]; decide, (Prod.mk.inj ran).2.symm.trans same⟩
            · subst granted
              obtain ⟨statusEq, afterEq⟩ := Prod.mk.inj ran
              obtain ⟨descs, ledger⟩ := increase_write_ptr_effect p ftl (lbaToZone p slba) accounted inside admitted nrLba state opening
              subst afterEq
              refine .inr ⟨statusEq.symm, atWp, ?_, state, opening.opened, descs, ledger⟩
              rw [sound.capacity] at within
              omega

theorem zns_write_check_accounted (p : Params) (ftl : ZmsFtl) (slba nrLba : Nat) (status : NvmeStatus) (after : ZmsFtl)
    (accounted : Accounted p ftl) (inside : lbaToZone p slba < p.zpp.nrZones) (some : 0 < nrLba)
    (ran : znsWriteCheck p ftl slba nrLba = (status, after)) : Accounted p after := by
  have sound := accounted.sound _ inside
  rcases zns_write_check_cases p ftl slba nrLba status after accounted inside ran with
    ⟨_, same⟩ | ⟨_, atWp, within, state, opened, descs, ledger⟩
  · rw [same]
    exact accounted
  · refine accounted_booked p ftl after _ _ accounted inside descs ledger ?_
    have notEmpty : state ≠ .empty := fun same => by
      rw [same] at opened
      cases opened
    have start := sound.start
    have capacity := sound.capacity
    have lower := sound.lower
    unfold writtenDesc
    refine ⟨start, capacity, ?_, ?_, ?_, ?_, sound.plain⟩
    · dsimp only
      omega
    · dsimp only
      omega
    · dsimp only
      intro same
      split at same
      · cases same
      · exact absurd same notEmpty
    · dsimp only
      intro atEnd
      rw [if_pos atEnd]

theorem write_accounted (p : Params) (ftl : ZmsFtl) (req : Request) (cmd : RwCommand) (outcome : WriteOutcome)
    (accounted : Accounted p ftl) (ran : zonedWrite p ftl req cmd = .ok outcome) : Accounted p outcome.ftl := by
  rcases write_run_table p ftl req cmd outcome (zoned_write_run p ftl req cmd outcome ran) with
    same | ⟨before, checked, status, table, inside, check, rest⟩
  · exact accounted_same p ftl outcome.ftl same accounted
  · have started := accounted_same p ftl before table accounted
    have positive : 0 < nrLbasFromRwCmd cmd := Nat.succ_pos _
    have after := zns_write_check_accounted p before _ _ status checked started inside positive check
    exact accounted_same p checked outcome.ftl rest after

theorem zmgmt_send_accounted (p : Params) (ftl next : ZmsFtl) (slba : Nat) (action : ZoneSendAction) (option : Bool)
    (status : NvmeStatus) (accounted : Accounted p ftl) (ran : zmgmtSend p ftl slba action option = .ok (status, next)) :
    Accounted p next := by
  unfold zmgmtSend at ran
  dsimp only at ran
  split at ran
  · cases ran
  · rename_i bound
    have inside := Nat.lt_of_not_le bound
    cases action with
    | closeZone =>
        have closed := close_zone_accounted p ftl (lbaToZone p slba) accounted inside
        rwa [Except.ok.inj ran] at closed
    | finishZone =>
        have finished := finish_zone_accounted p ftl (lbaToZone p slba) accounted inside
        rwa [Except.ok.inj ran] at finished
    | openZone =>
        have opened := open_zone_accounted p ftl (lbaToZone p slba) accounted inside option
        rwa [Except.ok.inj ran] at opened
    | resetZone => exact reset_zone_accounted p ftl (lbaToZone p slba) accounted inside status next ran
    | offlineZone =>
        have offline := offline_zone_accounted p ftl (lbaToZone p slba) accounted inside
        rwa [Except.ok.inj ran] at offline
    | flushExplZrwa =>
        rw [← (Prod.mk.inj (Except.ok.inj ran)).2]
        exact accounted

theorem zmgmt_send_all_accounted (p : Params) (cmd : ZoneMgmtSend) (zids : List Nat) (ftl next : ZmsFtl)
    (accounted : Accounted p ftl) (ran : zmgmtSendAll p cmd zids ftl = .ok next) : Accounted p next := by
  induction zids generalizing ftl with
  | nil =>
      rw [← Except.ok.inj ran]
      exact accounted
  | cons zid rest ih =>
      unfold zmgmtSendAll at ran
      obtain ⟨⟨status, middle⟩, sent, ran⟩ := bind_ok _ _ _ ran
      exact ih middle (zmgmt_send_accounted p ftl middle _ _ _ status accounted sent) ran

theorem zns_zmgmt_send_accounted (p : Params) (ftl next : ZmsFtl) (cmd : ZoneMgmtSend) (status : NvmeStatus)
    (accounted : Accounted p ftl) (ran : znsZmgmtSend p ftl cmd = .ok (status, next)) : Accounted p next := by
  unfold znsZmgmtSend at ran
  split at ran
  · obtain ⟨middle, sent, rest⟩ := bind_ok _ _ _ ran
    rw [← (Prod.mk.inj (pure_ok _ _ rest)).2]
    exact zmgmt_send_all_accounted p cmd _ ftl middle accounted sent
  · exact zmgmt_send_accounted p ftl next _ _ _ status accounted ran

theorem capacity_lbas_positive (p : Params) : 0 < capacityLbas p :=
  Nat.div_pos (Nat.le_of_dvd p.zpp.capacityPositive p.zpp.capacityAligned) (by decide)

theorem realize_accounted (p : Params) (clock : Nat → Nat) : Accounted p (zmsRealizeFtl p clock) := by
  have room := capacity_lbas_positive p
  constructor
  · intro zid _
    refine ⟨rfl, rfl, Nat.le_refl _, Nat.le_add_right _ _, fun _ => rfl, ?_, rfl⟩
    intro atEnd
    change zoneToSlba p zid = zoneToSlba p zid + capacityLbas p at atEnd
    omega
  · exact (Nat.count_iff_forall_not.mpr fun zid _ opened => nomatch opened).symm
  · exact (Nat.count_iff_forall_not.mpr fun zid _ active => nomatch active).symm
  · rfl
  · rfl
  · exact ⟨rfl, rfl⟩
  · intro type
    cases type with
    | openZone => rfl
    | activeZone => rfl
    | zrwaZone => rfl

theorem accounted_invariant (p : Params) (allowed : ZmsFtl → Event → Prop) :
    TransitionSystem.Invariant (namespaceSystem p) allowed (Accounted p) := by
  refine ⟨?_, ?_⟩
  · rintro state ⟨clock, same⟩
    rw [same]
    exact realize_accounted p clock
  · intro state next event accounted _ taken
    cases taken with
    | write req cmd outcome ran => exact write_accounted p state req cmd outcome accounted ran
    | read _ req cmd done ran => exact accounted_same p state next (zoned_read_table p state next req cmd done ran).toSameTable accounted
    | flush _ req done ran => exact accounted_same p state next (zns_flush_table p state next req done ran).toSameTable accounted
    | mgmtSend _ cmd status ran => exact zns_zmgmt_send_accounted p state next cmd status accounted ran
    | release _ entry ran => exact accounted_same p state next (run_release_table state next entry ran) accounted

theorem reachable_accounted (p : Params) (allowed : ZmsFtl → Event → Prop) (ftl : ZmsFtl) (reached : Reachable p allowed ftl) :
    Accounted p ftl :=
  TransitionSystem.reach_invariant _ _ _ (accounted_invariant p allowed) ftl reached

def closedZones (p : Params) (descs : Nat → ZoneDescriptor) : Nat :=
  Nat.count (fun zid => (descs zid).state = .closed) p.zpp.nrZones

theorem active_zones_split (p : Params) (descs : Nat → ZoneDescriptor) :
    activeZones p descs = openZones p descs + closedZones p descs := by
  unfold activeZones openZones closedZones
  induction p.zpp.nrZones with
  | zero => rfl
  | succ bound ih =>
      rw [Nat.count_succ, Nat.count_succ, Nat.count_succ, ih]
      cases (descs bound).state with
      | closed => simp [isActive, isOpened]; omega
      | openedImpl => simp [isActive, isOpened]; omega
      | openedExpl => simp [isActive, isOpened]; omega
      | _ => simp [isActive, isOpened]

structure ZoneAccounts (p : Params) (ftl : ZmsFtl) : Prop where
  opened : (ftl.resInfos .openZone).acquiredCnt = openZones p ftl.zoneDescs
  active : (ftl.resInfos .activeZone).acquiredCnt = openZones p ftl.zoneDescs + closedZones p ftl.zoneDescs
  openLimit : (ftl.resInfos .openZone).acquiredCnt ≤ (ftl.resInfos .openZone).totalCnt
  activeLimit : (ftl.resInfos .activeZone).acquiredCnt ≤ (ftl.resInfos .activeZone).totalCnt
  neverReleasedAtZero : ∀ type, (ftl.resInfos type).asserted = false
  writePointer : ∀ zid, zid < p.zpp.nrZones →
    (ftl.zoneDescs zid).zslba ≤ (ftl.zoneDescs zid).wp ∧
      (ftl.zoneDescs zid).wp ≤ (ftl.zoneDescs zid).zslba + (ftl.zoneDescs zid).zoneCapacity
  empty : ∀ zid, zid < p.zpp.nrZones → (ftl.zoneDescs zid).state = .empty → (ftl.zoneDescs zid).wp = (ftl.zoneDescs zid).zslba
  full : ∀ zid, zid < p.zpp.nrZones → (ftl.zoneDescs zid).wp = (ftl.zoneDescs zid).zslba + (ftl.zoneDescs zid).zoneCapacity →
    (ftl.zoneDescs zid).state = .full

theorem reachable_zone_accounts (p : Params) (ftl : ZmsFtl) (reached : Reachable p (fun _ _ => True) ftl) : ZoneAccounts p ftl := by
  have accounted := reachable_accounted p _ ftl reached
  constructor
  · exact accounted.opened
  · rw [accounted.active, active_zones_split]
  · rw [accounted.opened, accounted.openTotal]
    exact open_zones_bound p ftl.zoneDescs
  · rw [accounted.active, accounted.activeTotal]
    exact active_zones_bound p ftl.zoneDescs
  · exact accounted.released
  · intro zid inside
    exact ⟨(accounted.sound zid inside).lower, (accounted.sound zid inside).upper⟩
  · intro zid inside
    exact (accounted.sound zid inside).empty
  · intro zid inside
    exact (accounted.sound zid inside).full

def oneZoneOpened : ZmsFtl := (zmgmtSendOpenZone (zmsRealizeFtl (dualParams sampleConfig .pslc) fun _ => 0) 0 false).2

theorem one_zone_opened_accounts : ZoneAccounts (dualParams sampleConfig .pslc) oneZoneOpened :=
  reachable_zone_accounts _ _
    (.next _ _ (.mgmtSend ⟨false, .openZone, false, 0⟩) (.start _ ⟨fun _ => 0, rfl⟩) trivial (.mgmtSend _ _ _ .success rfl))

end ConZone
