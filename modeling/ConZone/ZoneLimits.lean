import ConZone.Management

set_option autoImplicit false

namespace ConZone

-- zp.nr_open_zones and zp.nr_active_zones of the zoned namespaces, from which
-- the controller reports MOR and MAR.
def nrOpenZones : Nat := 6
def nrActiveZones : Nat := 6

def ExceedsLimit (p : Params) (ftl : ZmsFtl) (zid : Nat) : Prop :=
  zid < p.zpp.nrZones ∧
    (((ftl.zoneDescs zid).state = .empty ∨ (ftl.zoneDescs zid).state = .closed) ∧ openZones p ftl.zoneDescs = nrOpenZones ∨
      (ftl.zoneDescs zid).state = .empty ∧ activeZones p ftl.zoneDescs = nrActiveZones)

def refusedForLimit (status : NvmeStatus) : Prop := status = .znsNoActiveZone ∨ status = .znsNoOpenZone

def WritesZone (p : Params) (ftl : ZmsFtl) (cmd : RwCommand) (zid : Nat) : Prop :=
  lbaToZone p cmd.slba = zid ∧ (cmd.append = true ∨ cmd.slba = (ftl.zoneDescs zid).wp) ∧
    (ftl.zoneDescs zid).wp + nrLbasFromRwCmd cmd ≤ (ftl.zoneDescs zid).zslba + (ftl.zoneDescs zid).zoneCapacity

structure LimitsEnforced (p : Params) (ftl : ZmsFtl) : Prop where
  opened : openZones p ftl.zoneDescs ≤ nrOpenZones
  active : activeZones p ftl.zoneDescs ≤ nrActiveZones
  openRefused : ∀ zid cmd status next, ExceedsLimit p ftl zid → cmd.zsa = .openZone → cmd.selectAll = false →
    lbaToZone p cmd.slba = zid → znsZmgmtSend p ftl cmd = .ok (status, next) → refusedForLimit status ∧ SameTable ftl next
  openAllRefused : ∀ zid cmd status next, ExceedsLimit p ftl zid → cmd.zsa = .openZone → cmd.selectAll = true →
    znsZmgmtSend p ftl cmd = .ok (status, next) → next.zoneDescs zid = ftl.zoneDescs zid
  writeRefused : ∀ zid req cmd outcome done, ExceedsLimit p ftl zid → WritesZone p ftl cmd zid →
    zonedWrite p ftl req cmd = .ok outcome → outcome.done = some done → refusedForLimit done.status ∧ SameTable ftl outcome.ftl

section Limits

variable (p : Params)

theorem exceeds_many (ftl : ZmsFtl) (zid : Nat) (exceeds : ExceedsLimit p ftl zid) : nrOpenZones < p.zpp.nrZones := by
  obtain ⟨inside, full⟩ := exceeds
  rcases full with ⟨shut, opened⟩ | ⟨empty, active⟩
  · rw [← opened]
    refine Tally.count_below (fun desc : ZoneDescriptor => isOpened desc.state = true) ftl.zoneDescs zid p.zpp.nrZones inside ?_
    rcases shut with state | state <;> simp [state, isOpened]
  · have same : nrOpenZones = activeZones p ftl.zoneDescs := active.symm
    rw [same]
    refine Tally.count_below (fun desc : ZoneDescriptor => isActive desc.state = true) ftl.zoneDescs zid p.zpp.nrZones inside ?_
    simp [empty, isActive]

theorem few_zones_enforced (ftl : ZmsFtl) (few : p.zpp.nrZones ≤ nrOpenZones) : LimitsEnforced p ftl := by
  have never : ∀ zid, ¬ExceedsLimit p ftl zid := fun zid exceeds => Nat.not_lt_of_le few (exceeds_many p ftl zid exceeds)
  constructor
  · exact Nat.le_trans (open_zones_bound p ftl.zoneDescs) few
  · exact Nat.le_trans (active_zones_bound p ftl.zoneDescs) few
  · intro zid _ _ _ exceeds
    exact absurd exceeds (never zid)
  · intro zid _ _ _ exceeds
    exact absurd exceeds (never zid)
  · intro zid _ _ _ _ exceeds
    exact absurd exceeds (never zid)

def openEvent (slba : Nat) : Event := .mgmtSend ⟨false, .openZone, false, slba⟩

theorem open_empty_zone (ftl : ZmsFtl) (zid : Nat) (accounted : Accounted p ftl) (inside : zid < p.zpp.nrZones)
    (empty : (ftl.zoneDescs zid).state = .empty) :
    ∃ next, Step p ftl (openEvent (zoneToSlba p zid)) next ∧
      next.zoneDescs = Function.update ftl.zoneDescs zid { ftl.zoneDescs zid with state := .openedExpl } := by
  have zone : lbaToZone p (zoneToSlba p zid) = zid :=
    lba_to_zone_of p zid _ inside (Nat.le_refl _) (Nat.lt_add_of_pos_right (zone_lbas_positive p))
  obtain ⟨activeRoom, openRoom, _⟩ := empty_granted p ftl zid accounted inside empty
  obtain ⟨granted, _, descs⟩ := open_empty_granted p ftl zid accounted .openedExpl activeRoom openRoom
  have ran : zmgmtSendOpenZone ftl zid false =
      (.success, changeZoneState (acquireZoneResource (acquireZoneResource ftl .activeZone).2 .openZone).2 zid .openedExpl) := by
    simp only [zmgmtSendOpenZone, empty, activeRoom, openRoom, openExplicitly, Bool.false_eq_true, if_false]
    rw [granted, Bool.false_and, if_neg Bool.false_ne_true]
  have sent : znsZmgmtSend p ftl ⟨false, .openZone, false, zoneToSlba p zid⟩ = zmgmtSend p ftl (zoneToSlba p zid) .openZone false := rfl
  refine ⟨_, .mgmtSend ftl _ _ .success ?_, descs⟩
  rw [sent, zmgmtSend, zone, if_neg (Nat.not_le_of_lt inside), ran]

theorem opens_each (clock : Nat → Nat) (count : Nat) (zones : count ≤ p.zpp.nrZones) :
    ∃ ftl, Reachable p (fun _ _ => True) ftl ∧ (∀ zid, zid < count → (ftl.zoneDescs zid).state = .openedExpl) ∧
      ∀ zid, count ≤ zid → (ftl.zoneDescs zid).state = .empty := by
  induction count with
  | zero => exact ⟨zmsRealizeFtl p clock, .start _ ⟨clock, rfl⟩, fun zid below => absurd below (Nat.not_lt_zero zid), fun _ _ => rfl⟩
  | succ count ih =>
      obtain ⟨ftl, reached, opened, rest⟩ := ih (Nat.le_of_succ_le zones)
      have accounted := reachable_accounted p _ ftl reached
      obtain ⟨next, stepped, descs⟩ := open_empty_zone p ftl count accounted zones (rest count (Nat.le_refl count))
      refine ⟨next, .next ftl next _ reached trivial stepped, ?_, ?_⟩
      · intro zid below
        by_cases last : zid = count
        · rw [descs, last, Function.update_self]
        · rw [descs, Function.update_of_ne last]
          exact opened zid (by omega)
      · intro zid above
        rw [descs, Function.update_of_ne (by omega)]
        exact rest zid (by omega)

theorem every_zone_opens (clock : Nat → Nat) :
    ∃ ftl, Reachable p (fun _ _ => True) ftl ∧ openZones p ftl.zoneDescs = p.zpp.nrZones := by
  obtain ⟨ftl, reached, opened, _⟩ := opens_each p clock p.zpp.nrZones (Nat.le_refl _)
  refine ⟨ftl, reached, Nat.count_iff_forall.mpr ?_⟩
  intro zid inside
  rw [opened zid inside]
  rfl

end Limits

-- The counters are bounded by the number of zones, so the limits reported hold
-- exactly where there are no more zones than they allow.
theorem limits_enforced_iff (p : Params) :
    (∀ ftl, Reachable p (fun _ _ => True) ftl → LimitsEnforced p ftl) ↔ p.zpp.nrZones ≤ nrOpenZones := by
  constructor
  · intro enforced
    obtain ⟨ftl, reached, opened⟩ := every_zone_opens p fun _ => 0
    rw [← opened]
    exact (enforced ftl reached).opened
  · intro few ftl _
    exact few_zones_enforced p ftl few

-- Seven pSLC lines are seven zones, which can all be open at once.
def sevenZonesConfig : DualConfig :=
  { sampleConfig with
    slcInitBlks := 7, blksPerPln := 8, slcEnough := by decide, tlcPresent := by decide, blocksFit := sampleConfig.blocksFit }

theorem seven_zones_open :
    ∃ ftl, Reachable (dualParams sevenZonesConfig .pslc) (fun _ _ => True) ftl ∧ openZones (dualParams sevenZonesConfig .pslc) ftl.zoneDescs = 7 ∧
      ¬LimitsEnforced (dualParams sevenZonesConfig .pslc) ftl := by
  obtain ⟨ftl, reached, opened⟩ := every_zone_opens (dualParams sevenZonesConfig .pslc) fun _ => 0
  have zones : (dualParams sevenZonesConfig .pslc).zpp.nrZones = 7 := by decide
  rw [zones] at opened
  refine ⟨ftl, reached, opened, fun enforced => ?_⟩
  have bound := enforced.opened
  rw [opened] at bound
  exact absurd bound (by decide)

end ConZone
