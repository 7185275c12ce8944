import ConZone.ZnsPointers
import ConZone.ZoneAccount

set_option autoImplicit false

namespace ConZone.Zns

def holds (type : ResType) (desc : ZoneDescriptor) : Bool :=
  match type with
  | .openZone => isOpened desc.state
  | .activeZone => isActive desc.state
  | .zrwaZone => isActive desc.state && desc.zrwav

def holders (c : ZnsParams) (type : ResType) (descs : Nat → ZoneDescriptor) : Nat :=
  Nat.count (fun zid => holds type (descs zid) = true) c.nrZones

def totalOf (c : ZnsParams) : ResType → Nat
  | .zrwaZone => c.nrZrwaZones
  | _ => c.nrZones

-- Every counter is the number of zones that hold its resource, and no ASSERT
-- of the resource functions or of __increase_write_ptr has been met.
structure ResourcesCounted (c : ZnsParams) (ftl : ZnsFtl) : Prop where
  counts : ∀ type, (ftl.resInfos type).acquiredCnt = holders c type ftl.zoneDescs
  released : ∀ type, (ftl.resInfos type).asserted = false
  unasserted : ftl.asserted = false

structure Accounted (c : ZnsParams) (ftl : ZnsFtl) : Prop where
  counted : ResourcesCounted c ftl
  totals : ∀ type, (ftl.resInfos type).totalCnt = totalOf c type
  zrwaRoom : (ftl.resInfos .zrwaZone).acquiredCnt ≤ c.nrZrwaZones
  fresh : ∀ zid, zid < c.nrZones → (ftl.zoneDescs zid).state = .empty → (ftl.zoneDescs zid).zrwav = false

def weight (type : ResType) (desc : ZoneDescriptor) : Int := if holds type desc = true then 1 else 0

structure Ledger (before after : ZnsFtl) (entry : ResType → Int) : Prop where
  counts : ∀ type, ((after.resInfos type).acquiredCnt : Int) = (before.resInfos type).acquiredCnt + entry type
  totals : ∀ type, (after.resInfos type).totalCnt = (before.resInfos type).totalCnt
  released : ∀ type, (after.resInfos type).asserted = (before.resInfos type).asserted
  unasserted : after.asserted = before.asserted

section Ledgers

theorem ledger_same (before after : ZnsFtl) (infos : after.resInfos = before.resInfos) (noted : after.asserted = before.asserted) :
    Ledger before after (fun _ => 0) := by
  refine ⟨?_, ?_, ?_, noted⟩
  · intro type
    rw [infos]
    omega
  · intro type
    rw [infos]
  · intro type
    rw [infos]

theorem ledger_trans (first second third : ZnsFtl) (entry more : ResType → Int) (left : Ledger first second entry)
    (right : Ledger second third more) : Ledger first third (fun type => entry type + more type) := by
  refine ⟨?_, ?_, ?_, right.unasserted.trans left.unasserted⟩
  · intro type
    rw [right.counts, left.counts]
    omega
  · intro type
    rw [right.totals, left.totals]
  · intro type
    rw [right.released, left.released]

theorem ledger_entry (before after : ZnsFtl) (entry other : ResType → Int) (ledger : Ledger before after entry)
    (same : ∀ type, entry type = other type) : Ledger before after other := by
  rw [← funext same]
  exact ledger

def entryOf (type : ResType) (amount : Int) (other : ResType) : Int := if other = type then amount else 0

theorem put_res_ledger (ftl : ZnsFtl) (type : ResType) (info : ZoneResourceInfo) (amount : Int)
    (counts : (info.acquiredCnt : Int) = (ftl.resInfos type).acquiredCnt + amount)
    (totals : info.totalCnt = (ftl.resInfos type).totalCnt) (released : info.asserted = (ftl.resInfos type).asserted) :
    Ledger ftl (putRes ftl type info) (entryOf type amount) := by
  unfold putRes entryOf
  refine ⟨?_, ?_, ?_, rfl⟩
  · intro other
    dsimp only
    by_cases here : other = type
    · subst here
      rw [Function.update_self, if_pos rfl, counts]
    · rw [Function.update_of_ne here, if_neg here]
      omega
  · intro other
    dsimp only
    by_cases here : other = type
    · subst here
      rw [Function.update_self, totals]
    · rw [Function.update_of_ne here]
  · intro other
    dsimp only
    by_cases here : other = type
    · subst here
      rw [Function.update_self, released]
    · rw [Function.update_of_ne here]

theorem release_ledger (ftl : ZnsFtl) (type : ResType) (some : 0 < (ftl.resInfos type).acquiredCnt)
    (fits : (ftl.resInfos type).acquiredCnt < 2 ^ 32) : Ledger ftl (releaseZoneResource ftl type) (entryOf type (-1)) := by
  have positive : ((ftl.resInfos type).acquiredCnt == 0) = false := by
    rw [beq_eq_false_iff_ne]
    omega
  unfold releaseZoneResource
  dsimp only
  rw [released_count _ some fits, positive, Bool.or_false]
  apply put_res_ledger
  · dsimp only
    omega
  · rfl
  · rfl

theorem acquire_ledger (ftl : ZnsFtl) (type : ResType) (room : (ftl.resInfos type).acquiredCnt < (ftl.resInfos type).totalCnt)
    (fits : (ftl.resInfos type).totalCnt < 2 ^ 32) :
    ∃ after, acquireZoneResource ftl type = (true, after) ∧ Ledger ftl after (entryOf type 1) ∧ CountersOnly ftl after := by
  have counters := acquire_counters ftl type
  unfold acquireZoneResource isZoneResourceAvail at *
  rw [if_pos (decide_eq_true room)] at *
  refine ⟨_, rfl, ?_, counters⟩
  rw [acquired_count _ _ room fits]
  apply put_res_ledger
  · dsimp only
    omega
  · rfl
  · rfl

end Ledgers

section Zones

variable (c : ZnsParams)

theorem holders_bound (type : ResType) (descs : Nat → ZoneDescriptor) : holders c type descs ≤ c.nrZones := Nat.count_le _

theorem holders_update (type : ResType) (descs : Nat → ZoneDescriptor) (zid : Nat) (desc : ZoneDescriptor) (inside : zid < c.nrZones) :
    (holders c type (Function.update descs zid desc) : Int) = holders c type descs + (weight type desc - weight type (descs zid)) := by
  have counted := Tally.count_update (fun desc : ZoneDescriptor => holds type desc = true) descs zid c.nrZones desc inside
  unfold holders weight
  split at counted
  · split at counted
    · rename_i old new
      rw [if_pos new, if_pos old]
      omega
    · rename_i old new
      rw [if_neg new, if_pos old]
      omega
  · split at counted
    · rename_i old new
      rw [if_pos new, if_neg old]
      omega
    · rename_i old new
      rw [if_neg new, if_neg old]
      omega

variable (ftl : ZnsFtl) (accounted : Accounted c ftl)

include accounted in
theorem counter_fits (type : ResType) :
    (ftl.resInfos type).acquiredCnt ≤ (ftl.resInfos type).totalCnt ∧ (ftl.resInfos type).totalCnt < 2 ^ 32 := by
  have zones := c.zonesFit
  have areas := c.zrwaZonesFit
  have counts := accounted.counted.counts type
  have totals := accounted.totals type
  have bound := holders_bound c type ftl.zoneDescs
  cases type with
  | zrwaZone =>
      have room := accounted.zrwaRoom
      rw [totals]
      exact ⟨room, areas⟩
  | openZone =>
      rw [totals, counts]
      exact ⟨bound, zones⟩
  | activeZone =>
      rw [totals, counts]
      exact ⟨bound, zones⟩

include accounted in
theorem held_counted (type : ResType) (zid : Nat) (inside : zid < c.nrZones) (held : holds type (ftl.zoneDescs zid) = true) :
    0 < (ftl.resInfos type).acquiredCnt := by
  rw [accounted.counted.counts]
  exact Tally.count_positive (fun desc : ZoneDescriptor => holds type desc = true) ftl.zoneDescs zid c.nrZones inside held

include accounted in
theorem shut_room (type : ResType) (kind : type ≠ .zrwaZone) (zid : Nat) (inside : zid < c.nrZones)
    (shut : holds type (ftl.zoneDescs zid) = false) : (ftl.resInfos type).acquiredCnt < (ftl.resInfos type).totalCnt := by
  have below := Tally.count_below (fun desc : ZoneDescriptor => holds type desc = true) ftl.zoneDescs zid c.nrZones inside
    (by simp [shut])
  rw [accounted.counted.counts, accounted.totals]
  cases type with
  | zrwaZone => exact absurd rfl kind
  | openZone => exact below
  | activeZone => exact below

include accounted in
theorem accounted_booked (after : ZnsFtl) (zid : Nat) (desc : ZoneDescriptor) (inside : zid < c.nrZones)
    (descs : after.zoneDescs = Function.update ftl.zoneDescs zid desc)
    (ledger : Ledger ftl after (fun type => weight type desc - weight type (ftl.zoneDescs zid)))
    (fresh : desc.state = .empty → desc.zrwav = false)
    (room : holds .zrwaZone desc = true → holds .zrwaZone (ftl.zoneDescs zid) = false →
      (ftl.resInfos .zrwaZone).acquiredCnt < (ftl.resInfos .zrwaZone).totalCnt) : Accounted c after := by
  constructor
  · constructor
    · intro type
      have counts := ledger.counts type
      rw [accounted.counted.counts, ← holders_update c type ftl.zoneDescs zid desc inside, ← descs] at counts
      exact Int.ofNat.inj counts
    · intro type
      rw [ledger.released]
      exact accounted.counted.released type
    · rw [ledger.unasserted]
      exact accounted.counted.unasserted
  · intro type
    rw [ledger.totals]
    exact accounted.totals type
  · have counts := ledger.counts .zrwaZone
    have before := accounted.zrwaRoom
    have total := accounted.totals .zrwaZone
    unfold totalOf at total
    dsimp only at total
    unfold weight at counts
    cases new : holds .zrwaZone desc with
    | false =>
        rw [new] at counts
        simp only [Bool.false_eq_true, if_false] at counts
        split at counts <;> omega
    | true =>
        cases old : holds .zrwaZone (ftl.zoneDescs zid) with
        | true =>
            rw [new, old] at counts
            simp only [if_true] at counts
            omega
        | false =>
            have more := room new old
            rw [new, old] at counts
            simp only [if_true, Bool.false_eq_true, if_false] at counts
            omega
  · intro other bound
    rw [descs]
    by_cases here : other = zid
    · subst here
      rw [Function.update_self]
      exact fresh
    · rw [Function.update_of_ne here]
      exact accounted.fresh other bound

include accounted in
theorem accounted_same (after : ZnsFtl) (descs : after.zoneDescs = ftl.zoneDescs) (infos : after.resInfos = ftl.resInfos)
    (noted : after.asserted = ftl.asserted) : Accounted c after := by
  obtain ⟨⟨counts, released, unasserted⟩, totals, zrwaRoom, fresh⟩ := accounted
  refine ⟨⟨?_, ?_, noted.trans unasserted⟩, ?_, ?_, ?_⟩
  · rw [descs, infos]
    exact counts
  · rw [infos]
    exact released
  · rw [infos]
    exact totals
  · rw [infos]
    exact zrwaRoom
  · rw [descs]
    exact fresh

end Zones

section Weights

variable (desc : ZoneDescriptor)

theorem weight_opened (opened : isOpened desc.state = true) (type : ResType) :
    weight type desc = entryOf .openZone 1 type + (entryOf .activeZone 1 type + if desc.zrwav then entryOf .zrwaZone 1 type else 0) := by
  have active := open_is_active desc.state opened
  cases zrwa : desc.zrwav with
  | false => cases type <;> simp [weight, holds, entryOf, opened, active, zrwa]
  | true => cases type <;> simp [weight, holds, entryOf, opened, active, zrwa]

theorem weight_closed (closed : desc.state = .closed) (type : ResType) :
    weight type desc = entryOf .activeZone 1 type + if desc.zrwav then entryOf .zrwaZone 1 type else 0 := by
  cases zrwa : desc.zrwav with
  | false => cases type <;> simp [weight, holds, entryOf, isOpened, isActive, closed, zrwa]
  | true => cases type <;> simp [weight, holds, entryOf, isOpened, isActive, closed, zrwa]

theorem weight_idle (idle : isActive desc.state = false) (type : ResType) : weight type desc = 0 := by
  have shut : isOpened desc.state = false := by
    cases opened : isOpened desc.state with
    | false => rfl
    | true =>
        rw [open_is_active desc.state opened] at idle
        cases idle
  cases type <;> simp [weight, holds, idle, shut]

theorem weight_same (other : ZoneDescriptor) (opened : isOpened other.state = isOpened desc.state)
    (active : isActive other.state = isActive desc.state) (zrwa : other.zrwav = desc.zrwav) (type : ResType) :
    weight type other = weight type desc := by
  unfold weight holds
  rw [opened, active, zrwa]

end Weights

section Releases

variable (ftl : ZnsFtl) (zrwa : Bool)

theorem entry_apart (type other : ResType) (amount : Int) (apart : other ≠ type) : entryOf type amount other = 0 := if_neg apart

theorem release_active_ledger (active : 0 < (ftl.resInfos .activeZone).acquiredCnt)
    (area : zrwa = true → 0 < (ftl.resInfos .zrwaZone).acquiredCnt) (fits : ∀ type, (ftl.resInfos type).acquiredCnt < 2 ^ 32) :
    Ledger ftl (releaseActive ftl zrwa) (fun type => entryOf .activeZone (-1) type + if zrwa then entryOf .zrwaZone (-1) type else 0) := by
  have first := release_ledger ftl .activeZone active (fits _)
  cases zrwa with
  | false => exact ledger_entry _ _ _ _ first fun type => by simp
  | true =>
      have kept := first.counts .zrwaZone
      rw [entry_apart _ _ _ (by decide)] at kept
      have held := area rfl
      have bound := fits .zrwaZone
      exact ledger_trans _ _ _ _ _ first (release_ledger _ .zrwaZone (by omega) (by omega))

theorem release_opened_ledger (opened : 0 < (ftl.resInfos .openZone).acquiredCnt) (active : 0 < (ftl.resInfos .activeZone).acquiredCnt)
    (area : zrwa = true → 0 < (ftl.resInfos .zrwaZone).acquiredCnt) (fits : ∀ type, (ftl.resInfos type).acquiredCnt < 2 ^ 32) :
    Ledger ftl (releaseActive (releaseZoneResource ftl .openZone) zrwa) (fun type => entryOf .openZone (-1) type +
      (entryOf .activeZone (-1) type + if zrwa then entryOf .zrwaZone (-1) type else 0)) := by
  have first := release_ledger ftl .openZone opened (fits _)
  refine ledger_trans _ _ _ _ _ first (release_active_ledger _ zrwa ?_ ?_ ?_)
  · have kept := first.counts .activeZone
    rw [entry_apart _ _ _ (by decide)] at kept
    omega
  · intro wanted
    have kept := first.counts .zrwaZone
    rw [entry_apart _ _ _ (by decide)] at kept
    have held := area wanted
    omega
  · intro type
    have counts := first.counts type
    have bound := fits type
    unfold entryOf at counts
    split at counts <;> omega

end Releases

section Actions

variable (c : ZnsParams) (ftl : ZnsFtl) (accounted : Accounted c ftl) (zid : Nat) (inside : zid < c.nrZones)

include accounted in
theorem counters_fit (type : ResType) : (ftl.resInfos type).acquiredCnt < 2 ^ 32 := by
  have fits := counter_fits c ftl accounted type
  omega

include accounted inside in
theorem active_held (active : isActive (ftl.zoneDescs zid).state = true) : 0 < (ftl.resInfos .activeZone).acquiredCnt ∧
    ((ftl.zoneDescs zid).zrwav = true → 0 < (ftl.resInfos .zrwaZone).acquiredCnt) := by
  refine ⟨held_counted c ftl accounted .activeZone zid inside active, ?_⟩
  intro area
  apply held_counted c ftl accounted .zrwaZone zid inside
  simp [holds, active, area]

include accounted inside in
theorem give_up_opened (base : ZnsFtl) (infos : base.resInfos = ftl.resInfos) (noted : base.asserted = ftl.asserted)
    (opened : isOpened (ftl.zoneDescs zid).state = true) :
    Ledger ftl (releaseActive (releaseZoneResource base .openZone) (ftl.zoneDescs zid).zrwav)
      (fun type => -weight type (ftl.zoneDescs zid)) := by
  obtain ⟨active, area⟩ := active_held c ftl accounted zid inside (open_is_active _ opened)
  have open' := held_counted c ftl accounted .openZone zid inside opened
  have released := release_opened_ledger base (ftl.zoneDescs zid).zrwav (by rw [infos]; exact open') (by rw [infos]; exact active)
    (by rw [infos]; exact area) (by rw [infos]; exact counters_fit c ftl accounted)
  refine ledger_entry _ _ _ _ (ledger_trans _ _ _ _ _ (ledger_same ftl base infos noted) released) ?_
  intro type
  rw [weight_opened _ opened]
  cases type <;> cases (ftl.zoneDescs zid).zrwav <;> simp [entryOf]

include accounted inside in
theorem give_up_closed (base : ZnsFtl) (infos : base.resInfos = ftl.resInfos) (noted : base.asserted = ftl.asserted)
    (closed : (ftl.zoneDescs zid).state = .closed) :
    Ledger ftl (releaseActive base (ftl.zoneDescs zid).zrwav) (fun type => -weight type (ftl.zoneDescs zid)) := by
  obtain ⟨active, area⟩ := active_held c ftl accounted zid inside (by rw [closed]; rfl)
  have released := release_active_ledger base (ftl.zoneDescs zid).zrwav (by rw [infos]; exact active)
    (by rw [infos]; exact area) (by rw [infos]; exact counters_fit c ftl accounted)
  refine ledger_entry _ _ _ _ (ledger_trans _ _ _ _ _ (ledger_same ftl base infos noted) released) ?_
  intro type
  rw [weight_closed _ closed]
  cases type <;> cases (ftl.zoneDescs zid).zrwav <;> simp [entryOf]

include accounted inside in
theorem given_up (after : ZnsFtl) (desc : ZoneDescriptor) (idle : isActive desc.state = false)
    (fresh : desc.state = .empty → desc.zrwav = false) (descs : after.zoneDescs = Function.update ftl.zoneDescs zid desc)
    (ledger : Ledger ftl after (fun type => -weight type (ftl.zoneDescs zid))) : Accounted c after := by
  apply accounted_booked c ftl accounted after zid desc inside descs _ fresh
  · intro held
    rw [holds, idle, Bool.false_and] at held
    cases held
  · refine ledger_entry _ _ _ _ ledger fun type => ?_
    rw [weight_idle desc idle]
    omega

theorem change_state_ledger (before base : ZnsFtl) (state : ZoneState) (entry : ResType → Int) (ledger : Ledger before base entry) :
    Ledger before (changeZoneState base zid state) entry :=
  ⟨ledger.counts, ledger.totals, ledger.released, ledger.unasserted⟩

theorem noted_ledger (before base : ZnsFtl) (noted : Bool) (entry : ResType → Int) (ledger : Ledger before base entry)
    (same : noted = before.asserted) : Ledger before { base with asserted := noted } entry :=
  ⟨ledger.counts, ledger.totals, ledger.released, same⟩

include accounted inside in
theorem close_zone_accounted : Accounted c (zmgmtSendCloseZone ftl zid).2 := by
  have closing : isOpened (ftl.zoneDescs zid).state = true →
      Accounted c (releaseZoneResource (changeZoneState ftl zid .closed) .openZone) := by
    intro opened
    have open' := held_counted c ftl accounted .openZone zid inside opened
    have released := release_ledger (changeZoneState ftl zid .closed) .openZone open' (counters_fit c ftl accounted _)
    apply accounted_booked c ftl accounted _ zid { ftl.zoneDescs zid with state := .closed } inside rfl
    · refine ledger_entry _ _ _ _ (ledger_trans _ _ _ _ _ (ledger_same ftl (changeZoneState ftl zid .closed) rfl rfl) released) ?_
      intro type
      rw [weight_opened _ opened, weight_closed _ rfl]
      cases type <;> cases (ftl.zoneDescs zid).zrwav <;> simp [entryOf]
    · intro empty
      cases empty
    · intro new old
      have active := open_is_active _ opened
      simp [holds, active] at old
      simp [holds, old] at new
  unfold zmgmtSendCloseZone
  cases state : (ftl.zoneDescs zid).state with
  | openedImpl => exact closing (by rw [state]; rfl)
  | openedExpl => exact closing (by rw [state]; rfl)
  | _ => exact accounted

include accounted inside in
theorem finish_zone_accounted : Accounted c (zmgmtSendFinishZone ftl zid).2 := by
  have filling : ∀ base, base.zoneDescs = ftl.zoneDescs → Ledger ftl base (fun type => -weight type (ftl.zoneDescs zid)) →
      Accounted c (changeZoneState base zid .full) := by
    intro base descs ledger
    apply given_up c ftl accounted zid inside _ { ftl.zoneDescs zid with state := .full } rfl (fun empty => by cases empty)
    · rw [change_state_descs, descs]
    · exact change_state_ledger zid ftl base .full _ ledger
  unfold zmgmtSendFinishZone
  cases state : (ftl.zoneDescs zid).state with
  | openedImpl => exact filling _ (release_active_descs _ _) (give_up_opened c ftl accounted zid inside ftl rfl rfl (by rw [state]; rfl))
  | openedExpl => exact filling _ (release_active_descs _ _) (give_up_opened c ftl accounted zid inside ftl rfl rfl (by rw [state]; rfl))
  | closed => exact filling _ (release_active_descs _ _) (give_up_closed c ftl accounted zid inside ftl rfl rfl state)
  | empty =>
      refine filling ftl rfl (ledger_entry _ _ _ _ (ledger_same ftl ftl rfl rfl) fun type => ?_)
      rw [weight_idle _ (by rw [state]; rfl)]
      rfl
  | _ => exact accounted

include accounted inside in
theorem reset_zone_accounted : Accounted c (zmgmtSendResetZone c ftl zid).2 := by
  have resetting : ∀ base, base.zoneDescs = ftl.zoneDescs → Ledger ftl base (fun type => -weight type (ftl.zoneDescs zid)) →
      Accounted c (resetZone c (changeZoneState base zid .empty) zid) := by
    intro base descs ledger
    have after := reset_descs c base zid
    have kept : (resetZone c (changeZoneState base zid .empty) zid).resInfos = base.resInfos ∧
        (resetZone c (changeZoneState base zid .empty) zid).asserted = base.asserted := by
      unfold resetZone
      dsimp only
      split <;> exact ⟨rfl, rfl⟩
    rw [descs] at after
    apply given_up c ftl accounted zid inside _ _ rfl (fun _ => rfl) after
    exact ledger_entry _ _ _ _ (ledger_trans _ _ _ _ _ ledger (ledger_same base _ kept.1 kept.2)) fun type => by omega
  have idle : isActive (ftl.zoneDescs zid).state = false → Ledger ftl ftl (fun type => -weight type (ftl.zoneDescs zid)) := by
    intro idle
    refine ledger_entry _ _ _ _ (ledger_same ftl ftl rfl rfl) fun type => ?_
    rw [weight_idle _ idle]
    rfl
  unfold zmgmtSendResetZone
  cases state : (ftl.zoneDescs zid).state with
  | openedImpl => exact resetting _ (release_active_descs _ _) (give_up_opened c ftl accounted zid inside ftl rfl rfl (by rw [state]; rfl))
  | openedExpl => exact resetting _ (release_active_descs _ _) (give_up_opened c ftl accounted zid inside ftl rfl rfl (by rw [state]; rfl))
  | closed => exact resetting _ (release_active_descs _ _) (give_up_closed c ftl accounted zid inside ftl rfl rfl state)
  | full => exact resetting ftl rfl (idle (by rw [state]; rfl))
  | empty => exact resetting ftl rfl (idle (by rw [state]; rfl))
  | _ => exact accounted

include accounted inside in
theorem offline_zone_accounted : Accounted c (zmgmtSendOfflineZone ftl zid).2 := by
  unfold zmgmtSendOfflineZone
  cases state : (ftl.zoneDescs zid).state with
  | readOnly =>
      apply given_up c ftl accounted zid inside _ { ftl.zoneDescs zid with state := .offline } rfl (fun empty => by cases empty) rfl
      refine ledger_entry _ _ _ _ (ledger_same ftl (changeZoneState ftl zid .offline) rfl rfl) fun type => ?_
      rw [weight_idle _ (by rw [state]; rfl)]
      rfl
  | _ => exact accounted

include accounted inside in
theorem flush_to_accounted (slba : Nat) (active : isActive (ftl.zoneDescs zid).state = true) (area : (ftl.zoneDescs zid).zrwav = true) :
    Accounted c (flushTo c ftl zid slba) := by
  have moved : Accounted c (putDesc ftl zid { ftl.zoneDescs zid with wp := u64 (slba + 1) }) := by
    apply accounted_booked c ftl accounted _ zid { ftl.zoneDescs zid with wp := u64 (slba + 1) } inside rfl
    · refine ledger_entry _ _ _ _ (ledger_same ftl _ rfl rfl) fun type => ?_
      exact (sub_eq_zero.mpr (weight_same (ftl.zoneDescs zid) _ rfl rfl rfl type)).symm
    · exact accounted.fresh zid inside
    · intro new old
      exact absurd (old.symm.trans new) (by decide)
  unfold flushTo
  dsimp only
  split
  · have filling : ∀ base, base.zoneDescs = Function.update ftl.zoneDescs zid { ftl.zoneDescs zid with wp := u64 (slba + 1) } →
        Ledger ftl base (fun type => -weight type (ftl.zoneDescs zid)) → Accounted c (changeZoneState base zid .full) := by
      intro base descs ledger
      apply given_up c ftl accounted zid inside _ { ftl.zoneDescs zid with wp := u64 (slba + 1), state := .full } rfl
        (fun empty => by cases empty)
      · rw [change_state_descs, descs, Function.update_self, Function.update_idem]
      · exact change_state_ledger zid ftl base .full _ ledger
    by_cases closed : (ftl.zoneDescs zid).state = .closed
    · rw [if_neg (by simpa using closed)]
      apply filling _ rfl
      have ledger := give_up_closed c ftl accounted zid inside (putDesc ftl zid { ftl.zoneDescs zid with wp := u64 (slba + 1) }) rfl rfl closed
      rw [area] at ledger
      exact ledger
    · rw [if_pos closed]
      apply filling _ rfl
      have opened : isOpened (ftl.zoneDescs zid).state = true := by
        cases state : (ftl.zoneDescs zid).state with
        | openedImpl => rfl
        | openedExpl => rfl
        | closed => exact absurd state closed
        | _ =>
            rw [state] at active
            cases active
      have ledger := give_up_opened c ftl accounted zid inside (putDesc ftl zid { ftl.zoneDescs zid with wp := u64 (slba + 1) }) rfl rfl opened
      rw [area] at ledger
      exact ledger
  · exact moved

include accounted inside in
theorem opened_again (base : ZnsFtl) (closed : (ftl.zoneDescs zid).state = .closed) (descs : base.zoneDescs = ftl.zoneDescs)
    (infos : base.resInfos = ftl.resInfos) (noted : base.asserted = ftl.asserted) :
    ∃ acquired, acquireZoneResource base .openZone = (true, acquired) ∧ CountersOnly base acquired ∧
      ∀ state, isOpened state = true → Accounted c (changeZoneState acquired zid state) := by
  have fits := counter_fits c ftl accounted .openZone
  have room := shut_room c ftl accounted .openZone (by decide) zid inside (by simp [holds, isOpened, closed])
  obtain ⟨after, granted, ledger, only⟩ := acquire_ledger base .openZone (by rw [infos]; exact room) (by rw [infos]; exact fits.2)
  refine ⟨after, granted, only, ?_⟩
  intro state opening
  apply accounted_booked c ftl accounted _ zid { ftl.zoneDescs zid with state := state } inside
  · rw [change_state_descs, only.zoneDescs, descs]
  · apply change_state_ledger
    refine ledger_entry _ _ _ _ (ledger_trans _ _ _ _ _ (ledger_same ftl base infos noted) ledger) fun type => ?_
    rw [weight_opened _ opening, weight_closed _ closed]
    cases type <;> cases (ftl.zoneDescs zid).zrwav <;> simp [entryOf]
  · intro empty
    rw [show state = .empty from empty] at opening
    cases opening
  · intro new old
    simp [holds, isActive, closed] at old
    simp [holds, old] at new

include accounted inside in
theorem opened_first (base : ZnsFtl) (zrwa : Bool) (empty : (ftl.zoneDescs zid).state = .empty)
    (descs : base.zoneDescs = Function.update ftl.zoneDescs zid { ftl.zoneDescs zid with zrwav := zrwa })
    (ledger : Ledger ftl base (fun type => if zrwa then entryOf .zrwaZone 1 type else 0))
    (area : zrwa = true → (ftl.resInfos .zrwaZone).acquiredCnt < (ftl.resInfos .zrwaZone).totalCnt) :
    ∃ acquired, acquireZoneResource (acquireZoneResource base .activeZone).2 .openZone = (true, acquired) ∧
      CountersOnly base acquired ∧ ∀ state, isOpened state = true → Accounted c (changeZoneState acquired zid state) := by
  have activeRoom := shut_room c ftl accounted .activeZone (by decide) zid inside (by simp [holds, isActive, empty])
  have openRoom := shut_room c ftl accounted .openZone (by decide) zid inside (by simp [holds, isOpened, empty])
  have activeFits := (counter_fits c ftl accounted .activeZone).2
  have openFits := (counter_fits c ftl accounted .openZone).2
  have spared : ∀ type, type ≠ .zrwaZone → (base.resInfos type).acquiredCnt = (ftl.resInfos type).acquiredCnt := by
    intro type apart
    have counts := ledger.counts type
    rw [entry_apart _ _ _ apart] at counts
    split at counts <;> omega
  obtain ⟨middle, first, activeLedger, activeOnly⟩ := acquire_ledger base .activeZone
    (by rw [spared _ (by decide), ledger.totals]; exact activeRoom) (by rw [ledger.totals]; exact activeFits)
  have unchanged := activeLedger.counts .openZone
  rw [entry_apart _ _ _ (by decide), spared _ (by decide)] at unchanged
  obtain ⟨last, second, openLedger, openOnly⟩ := acquire_ledger middle .openZone
    (by rw [activeLedger.totals, ledger.totals]; omega) (by rw [activeLedger.totals, ledger.totals]; exact openFits)
  rw [first]
  refine ⟨last, second, counters_only_trans _ _ _ activeOnly openOnly, ?_⟩
  intro state opening
  apply accounted_booked c ftl accounted _ zid { ftl.zoneDescs zid with zrwav := zrwa, state := state } inside
  · rw [change_state_descs, openOnly.zoneDescs, activeOnly.zoneDescs, descs, Function.update_self, Function.update_idem]
  · apply change_state_ledger
    refine ledger_entry _ _ _ _ (ledger_trans _ _ _ _ _ ledger (ledger_trans _ _ _ _ _ activeLedger openLedger)) fun type => ?_
    rw [weight_opened _ opening, weight_idle _ (by rw [empty]; rfl)]
    cases type <;> cases zrwa <;> simp [entryOf]
  · intro again
    rw [show state = .empty from again] at opening
    cases opening
  · intro new _
    cases zrwa with
    | true => exact area rfl
    | false => simp [holds] at new

theorem open_explicitly_granted (base acquired : ZnsFtl) (taken : acquireZoneResource base .openZone = (true, acquired)) :
    openExplicitly base zid = (.success, changeZoneState acquired zid .openedExpl) := by
  unfold openExplicitly
  rw [taken]

include accounted in
theorem zrwa_available (notFull : isZoneResourceFull ftl .zrwaZone = false) :
    (ftl.resInfos .zrwaZone).acquiredCnt < (ftl.resInfos .zrwaZone).totalCnt := by
  have within := (counter_fits c ftl accounted .zrwaZone).1
  have apart : (ftl.resInfos .zrwaZone).acquiredCnt ≠ (ftl.resInfos .zrwaZone).totalCnt := by
    simpa [isZoneResourceFull] using notFull
  omega

include accounted inside in
theorem open_zone_accounted (zrwa : Bool) : Accounted c (zmgmtSendOpenZone ftl zid zrwa).2 := by
  unfold zmgmtSendOpenZone
  cases state : (ftl.zoneDescs zid).state with
  | empty =>
      dsimp only
      split
      · exact accounted
      · split
        · exact accounted
        · cases zrwa with
          | false =>
              rw [Bool.false_and, if_neg Bool.false_ne_true, if_neg Bool.false_ne_true]
              have plain := accounted.fresh zid inside state
              obtain ⟨acquired, taken, _, opened⟩ := opened_first c ftl accounted zid inside ftl false state
                (by rw [← plain]; exact (Function.update_eq_self zid ftl.zoneDescs).symm)
                (ledger_entry _ _ _ _ (ledger_same ftl ftl rfl rfl) fun _ => rfl) (fun asked => by cases asked)
              rw [open_explicitly_granted zid _ acquired taken]
              exact opened .openedExpl rfl
          | true =>
              rw [Bool.true_and]
              split
              · exact accounted
              · rename_i notFull
                rw [if_pos rfl]
                have room := zrwa_available c ftl accounted (by simpa using notFull)
                obtain ⟨reserved, granted, ledger, only⟩ := acquire_ledger ftl .zrwaZone room (counter_fits c ftl accounted .zrwaZone).2
                have base : takeZrwa ftl zid = putDesc reserved zid { ftl.zoneDescs zid with zrwav := true } := by
                  unfold takeZrwa
                  rw [granted]
                  dsimp only
                  rw [only.zoneDescs]
                obtain ⟨acquired, taken, _, opened⟩ := opened_first c ftl accounted zid inside (takeZrwa ftl zid) true state
                  (by rw [base]; unfold putDesc; dsimp only; rw [only.zoneDescs])
                  (by
                    rw [base]
                    exact ledger_entry _ _ _ _ (⟨ledger.counts, ledger.totals, ledger.released, ledger.unasserted⟩ :
                      Ledger ftl (putDesc reserved zid { ftl.zoneDescs zid with zrwav := true }) (entryOf .zrwaZone 1)) fun _ => rfl)
                  (fun _ => room)
                rw [open_explicitly_granted zid _ acquired taken]
                exact opened .openedExpl rfl
  | closed =>
      obtain ⟨acquired, taken, _, opened⟩ := opened_again c ftl accounted zid inside ftl state rfl rfl rfl
      dsimp only
      rw [open_explicitly_granted zid ftl acquired taken]
      exact opened .openedExpl rfl
  | openedImpl =>
      apply accounted_booked c ftl accounted _ zid { ftl.zoneDescs zid with state := .openedExpl } inside rfl
      · refine ledger_entry _ _ _ _ (ledger_same ftl (changeZoneState ftl zid .openedExpl) rfl rfl) fun type => ?_
        exact (sub_eq_zero.mpr (weight_same (ftl.zoneDescs zid) { ftl.zoneDescs zid with state := .openedExpl }
          (by rw [state]; rfl) (by rw [state]; rfl) rfl type)).symm
      · intro empty
        cases empty
      · intro new old
        simp [holds, state, isActive] at old
        simp [holds, old] at new
  | _ => exact accounted

include accounted in
theorem sent_action_accounted (slba : Nat) (action : ZoneSendAction) (option : Bool) (bound : lbaToZone c slba < c.nrZones) :
    Accounted c (sentAction c ftl slba action option) := by
  cases action with
  | closeZone => exact close_zone_accounted c ftl accounted _ bound
  | finishZone => exact finish_zone_accounted c ftl accounted _ bound
  | openZone => exact open_zone_accounted c ftl accounted _ bound option
  | resetZone => exact reset_zone_accounted c ftl accounted _ bound
  | offlineZone => exact offline_zone_accounted c ftl accounted _ bound
  | flushExplZrwa =>
      unfold sentAction zmgmtSendFlushExplicitZrwa
      dsimp only
      split
      · exact accounted
      · rename_i area
        have random : (ftl.zoneDescs (lbaToZone c slba)).zrwav = true := by simpa using area
        split
        · exact accounted
        · split
          · exact accounted
          · cases state : (ftl.zoneDescs (lbaToZone c slba)).state with
            | openedImpl => exact flush_to_accounted c ftl accounted _ bound slba (by rw [state]; rfl) random
            | openedExpl => exact flush_to_accounted c ftl accounted _ bound slba (by rw [state]; rfl) random
            | closed => exact flush_to_accounted c ftl accounted _ bound slba (by rw [state]; rfl) random
            | _ => exact accounted

-- The pointer of an open zone moves on; at the end the zone is given up,
-- unless it has a random write area, which is then left on the books.
include accounted inside in
theorem increase_accounted (nrLba : Nat) (opened : isOpened (ftl.zoneDescs zid).state = true)
    (spared : (ftl.zoneDescs zid).zrwav = true →
      u64 ((ftl.zoneDescs zid).wp + nrLba) ≠ zoneToSlba c zid + (ftl.zoneDescs zid).zoneCapacity) :
    Accounted c (increaseWritePtr c ftl zid nrLba) := by
  have descs := increase_descs c ftl zid nrLba
  by_cases atEnd : u64 ((ftl.zoneDescs zid).wp + nrLba) = zoneToSlba c zid + (ftl.zoneDescs zid).zoneCapacity
  · have plain : (ftl.zoneDescs zid).zrwav = false := by
      cases area : (ftl.zoneDescs zid).zrwav with
      | false => rfl
      | true => exact absurd atEnd (spared area)
    have ledger := give_up_opened c ftl accounted zid inside
      (putDesc ftl zid { ftl.zoneDescs zid with wp := u64 ((ftl.zoneDescs zid).wp + nrLba) }) rfl rfl opened
    rw [if_pos atEnd] at descs
    apply given_up c ftl accounted zid inside _ _ rfl (fun empty => by cases empty) descs
    unfold increaseWritePtr
    dsimp only
    rw [if_pos atEnd]
    apply change_state_ledger
    unfold releaseActive at ledger
    dsimp only at ledger
    rw [if_neg (by rw [plain]; decide)] at ledger
    apply noted_ledger ftl _ _ _ ledger
    rw [plain, Bool.or_false]
    rfl
  · rw [if_neg atEnd] at descs
    apply accounted_booked c ftl accounted _ zid _ inside descs
    · refine ledger_entry _ _ _ _ (ledger_same ftl _ ?_ ?_) fun type => ?_
      · unfold increaseWritePtr
        dsimp only
        rw [if_neg atEnd]
        rfl
      · unfold increaseWritePtr
        dsimp only
        rw [if_neg atEnd]
        rfl
      · exact (sub_eq_zero.mpr (weight_same (ftl.zoneDescs zid) _ rfl rfl rfl type)).symm
    · exact accounted.fresh zid inside
    · intro new old
      exact absurd (old.symm.trans new) (by decide)

theorem increase_asserts (nrLba : Nat) (area : (ftl.zoneDescs zid).zrwav = true)
    (atEnd : u64 ((ftl.zoneDescs zid).wp + nrLba) = zoneToSlba c zid + (ftl.zoneDescs zid).zoneCapacity) :
    (increaseWritePtr c ftl zid nrLba).asserted = true := by
  unfold increaseWritePtr
  dsimp only
  rw [if_pos atEnd, area]
  exact Bool.or_true _

include accounted inside in
theorem admission_accounted (after : ZnsFtl) (plain : (ftl.zoneDescs zid).zrwav = false) (admitted : Admission ftl zid after) :
    Accounted c after ∧ isOpened (after.zoneDescs zid).state = true ∧ (after.zoneDescs zid).zrwav = false := by
  have shown : ∀ base acquired : ZnsFtl, base.zoneDescs = ftl.zoneDescs → CountersOnly base acquired →
      isOpened ((changeZoneState acquired zid .openedImpl).zoneDescs zid).state = true ∧
        ((changeZoneState acquired zid .openedImpl).zoneDescs zid).zrwav = false := by
    intro base acquired same only
    rw [change_state_descs, Function.update_self, only.zoneDescs, same]
    exact ⟨rfl, plain⟩
  cases admitted with
  | opened state before open' =>
      refine ⟨accounted, ?_, plain⟩
      rcases open' with same | same
      · rw [before, same]; rfl
      · rw [before, same]; rfl
  | closed before acquired taken =>
      obtain ⟨other, granted, only, opened⟩ := opened_again c ftl accounted zid inside ftl before rfl rfl rfl
      rw [taken] at granted
      cases granted
      exact ⟨opened .openedImpl rfl, shown ftl acquired rfl only⟩
  | empty before acquired activeRoom openRoom taken =>
      obtain ⟨other, granted, only, opened⟩ := opened_first c ftl accounted zid inside ftl false before
        (by rw [← plain]; exact (Function.update_eq_self zid ftl.zoneDescs).symm)
        (ledger_entry _ _ _ _ (ledger_same ftl ftl rfl rfl) fun _ => rfl) (fun asked => by cases asked)
      rw [taken] at granted
      cases granted
      exact ⟨opened .openedImpl rfl, shown ftl acquired rfl only⟩

end Actions

section Writes

variable (c : ZnsParams) (ftl : ZnsFtl) (accounted : Accounted c ftl)

include accounted in
theorem side_accounted (after : ZnsFtl) (same : zoneSide after = zoneSide ftl) : Accounted c after :=
  accounted_same c ftl accounted after (congrArg ZoneSide.zoneDescs same) (congrArg ZoneSide.resInfos same)
    (congrArg ZoneSide.asserted same)

include accounted in
theorem write_plain_accounted (req : Request) (cmd : RwCommand) (outcome : WriteOutcome)
    (plain : (ftl.zoneDescs (writeZone c cmd)).zrwav = false) (ran : writePlain c ftl req cmd = .ok outcome) :
    Accounted c outcome.ftl := by
  obtain ⟨bound, ⟨_, rfl⟩ | ⟨_, rfl⟩⟩ := write_plain_cases c ftl req cmd outcome ran
  · exact accounted
  · have taken : Accounted c (afterTaking c ftl cmd) := accounted_same c ftl accounted _ rfl rfl rfl
    rcases write_taken_cases c (afterTaking c ftl cmd) req (writeZone c cmd) (placedSlba c ftl cmd) (nrLbasFromRwCmd cmd) with
      ⟨after, checked, done⟩ | ⟨status, after, refused, checked, done⟩
    · rw [done]
      obtain ⟨_, _, _, admitted⟩ := check_write_admitted c _ after _ _ _ checked
      obtain ⟨open', opened, still⟩ := admission_accounted c _ taken _ bound after plain admitted
      have moved := increase_accounted c after open' _ bound (nrLbasFromRwCmd cmd) opened (by rw [still]; intro area; cases area)
      exact side_accounted c _ moved _ (program_loop_side c _ _ _ _ _ _)
    · rw [done]
      rcases check_write_refused_cases c _ after _ _ _ status refused checked with rfl | ⟨empty, rfl, _, full⟩
      · exact taken
      · obtain ⟨acquired, granted, _⟩ := opened_first c _ taken _ bound _ false empty
          (by rw [← show ((afterTaking c ftl cmd).zoneDescs (writeZone c cmd)).zrwav = false from plain]
              exact (Function.update_eq_self _ _).symm)
          (ledger_entry _ _ _ _ (ledger_same _ _ rfl rfl) fun _ => rfl) (fun asked => by cases asked)
        have denied : acquireZoneResource (acquireZoneResource (afterTaking c ftl cmd) .activeZone).2 .openZone =
            (false, (acquireZoneResource (afterTaking c ftl cmd) .activeZone).2) := if_neg (by rw [full]; decide)
        rw [denied] at granted
        cases granted

end Writes

section Random

variable (c : ZnsParams)

def lastLba (cmd : RwCommand) : Nat := u64 (cmd.slba + nrLbasFromRwCmd cmd - 1)

def committed (ftl : ZnsFtl) (cmd : RwCommand) : Nat :=
  nrLbasFlush c (writeZone c cmd) (ftl.zoneDescs (writeZone c cmd)).wp (lastLba cmd)

def zrwaSpace (ftl : ZnsFtl) (zid : Nat) : Nat :=
  let remaining := (ftl.buffers (.zrwa zid)).remaining
  if (ftl.zoneDescs zid).state = .closed then remaining - c.zrwaSize else remaining

-- The write is accepted in a zone with a random write area, and what it commits
-- brings the write pointer to the end of the capacity.
structure FillsZrwa (ftl : ZnsFtl) (cmd : RwCommand) : Prop where
  area : (ftl.zoneDescs (writeZone c cmd)).zrwav = true
  accepted : checkZrwa c ftl (writeZone c cmd) cmd.slba (lastLba cmd) (nrLbasFromRwCmd cmd) = .success
  active : isActive (ftl.zoneDescs (writeZone c cmd)).state = true
  commits : 0 < committed c ftl cmd
  room : u64 (committed c ftl cmd * secsz) ≤ zrwaSpace c ftl (writeZone c cmd)
  taken : u32 (u64 (committed c ftl cmd * secsz)) ≠ 0
  fills : u64 ((ftl.zoneDescs (writeZone c cmd)).wp + u32 (committed c ftl cmd)) =
    zoneToSlba c (writeZone c cmd) + (ftl.zoneDescs (writeZone c cmd)).zoneCapacity

inductive ZrwaAdmission (ftl : ZnsFtl) (zid : Nat) : ZnsFtl → Prop where
  | opened (opened : isOpened (ftl.zoneDescs zid).state = true) : ZrwaAdmission ftl zid ftl
  | reopened (shut : (ftl.zoneDescs zid).state = .closed ∨ (ftl.zoneDescs zid).state = .empty) (acquired : ZnsFtl)
      (granted : acquireZoneResource ftl .openZone = (true, acquired))
      (taken : (bufferAllocate acquired (.zrwa zid) c.zrwaSize).1 ≠ 0) :
      ZrwaAdmission ftl zid (changeZoneState (bufferAllocate acquired (.zrwa zid) c.zrwaSize).2 zid .openedImpl)

theorem open_zrwa_cases (ftl after : ZnsFtl) (zid : Nat) (status : NvmeStatus)
    (shut : (ftl.zoneDescs zid).state = .closed ∨ (ftl.zoneDescs zid).state = .empty)
    (ran : openZrwa c ftl zid = .ok (status, after)) : (status = .success ∧ ZrwaAdmission c ftl zid after) ∨ (status ≠ .success ∧ after = ftl) := by
  unfold openZrwa at ran
  by_cases room : isZoneResourceAvail ftl .openZone = true
  · have granted : acquireZoneResource ftl .openZone = _ := if_pos room
    rw [granted] at ran
    dsimp only at ran
    split at ran
    · cases ran
    · split at ran
      · cases ran
      · rename_i taken
        cases ran
        exact .inl ⟨rfl, .reopened shut _ granted taken⟩
  · have denied : acquireZoneResource ftl .openZone = (false, ftl) := if_neg room
    rw [denied] at ran
    cases ran
    exact .inr ⟨by decide, rfl⟩

theorem admit_zrwa_cases (ftl after : ZnsFtl) (zid : Nat) (status : NvmeStatus) (ran : admitZrwa c ftl zid = .ok (status, after)) :
    (status = .success ∧ ZrwaAdmission c ftl zid after) ∨ (status ≠ .success ∧ after = ftl) := by
  unfold admitZrwa at ran
  cases state : (ftl.zoneDescs zid).state with
  | closed =>
      rw [state] at ran
      exact open_zrwa_cases c ftl after zid status (.inl state) ran
  | empty =>
      rw [state] at ran
      exact open_zrwa_cases c ftl after zid status (.inr state) ran
  | openedImpl =>
      rw [state] at ran
      cases ran
      exact .inl ⟨rfl, .opened (by rw [state]; rfl)⟩
  | openedExpl =>
      rw [state] at ran
      cases ran
      exact .inl ⟨rfl, .opened (by rw [state]; rfl)⟩
  | _ =>
      rw [state] at ran
      cases ran
      exact .inr ⟨by decide, rfl⟩

theorem allocate_granted (ftl : ZnsFtl) (ref : BufferRef) (size : Nat) (taken : (bufferAllocate ftl ref size).1 ≠ 0) :
    size ≤ (ftl.buffers ref).remaining ∧ u32 size ≠ 0 ∧ (bufferAllocate ftl ref size).2 = takenFrom ftl ref size := by
  by_cases room : size ≤ (ftl.buffers ref).remaining
  · rw [allocate_room ftl ref size room] at taken ⊢
    exact ⟨room, taken, rfl⟩
  · rw [allocate_short ftl ref size (by omega)] at taken
    exact absurd rfl taken

-- An admitted zone is open, has its random write area and its pointer as
-- before, and what the admission has left of its buffer.
structure ZrwaOpened (ftl opened : ZnsFtl) (zid : Nat) : Prop where
  accounted : Accounted c opened
  state : isOpened (opened.zoneDescs zid).state = true
  area : (opened.zoneDescs zid).zrwav = (ftl.zoneDescs zid).zrwav
  pointer : (opened.zoneDescs zid).wp = (ftl.zoneDescs zid).wp
  capacity : (opened.zoneDescs zid).zoneCapacity = (ftl.zoneDescs zid).zoneCapacity
  space : (opened.buffers (.zrwa zid)).remaining = zrwaSpace c ftl zid
  before : isActive (ftl.zoneDescs zid).state = true

theorem zrwa_admission_opened (ftl after : ZnsFtl) (zid : Nat) (accounted : Accounted c ftl) (inside : zid < c.nrZones)
    (area : (ftl.zoneDescs zid).zrwav = true) (admitted : ZrwaAdmission c ftl zid after) : ZrwaOpened c ftl after zid := by
  cases admitted with
  | opened opened =>
      refine ⟨accounted, opened, rfl, rfl, rfl, ?_, open_is_active _ opened⟩
      unfold zrwaSpace
      dsimp only
      rw [if_neg]
      intro closed
      rw [closed] at opened
      cases opened
  | reopened shut acquired granted taken =>
      have closed : (ftl.zoneDescs zid).state = .closed := by
        rcases shut with closed | empty
        · exact closed
        · rw [accounted.fresh zid inside empty] at area
          cases area
      obtain ⟨other, again, only, opening⟩ := opened_again c ftl accounted zid inside ftl closed rfl rfl rfl
      rw [granted] at again
      cases again
      obtain ⟨_, _, left⟩ := allocate_granted acquired (.zrwa zid) c.zrwaSize taken
      rw [left]
      have descs : (changeZoneState (takenFrom acquired (.zrwa zid) c.zrwaSize) zid .openedImpl).zoneDescs zid =
          { ftl.zoneDescs zid with state := .openedImpl } := by
        rw [change_state_descs, Function.update_self]
        change { acquired.zoneDescs zid with state := .openedImpl } = _
        rw [only.zoneDescs]
      refine ⟨accounted_same c _ (opening .openedImpl rfl) _ rfl rfl rfl, ?_, ?_, ?_, ?_, ?_, by rw [closed]; rfl⟩
      · rw [descs]
        rfl
      · rw [descs]
      · rw [descs]
      · rw [descs]
      · unfold zrwaSpace changeZoneState putDesc takenFrom putBuffer
        dsimp only
        rw [Function.update_self, if_pos closed, only.buffers]

theorem commit_zrwa_counted (ftl : ZnsFtl) (req : Request) (zid slba wp flushed : Nat) (outcome : WriteOutcome) (accounted : Accounted c ftl)
    (inside : zid < c.nrZones) (opened : isOpened (ftl.zoneDescs zid).state = true) (area : (ftl.zoneDescs zid).zrwav = true)
    (ran : commitZrwa c ftl req zid slba wp flushed = .ok outcome) :
    (¬(0 < flushed ∧ u64 (flushed * secsz) ≤ (ftl.buffers (.zrwa zid)).remaining ∧ u32 (u64 (flushed * secsz)) ≠ 0 ∧
        u64 ((ftl.zoneDescs zid).wp + u32 flushed) = zoneToSlba c zid + (ftl.zoneDescs zid).zoneCapacity) → Accounted c outcome.ftl) ∧
      ((0 < flushed ∧ u64 (flushed * secsz) ≤ (ftl.buffers (.zrwa zid)).remaining ∧ u32 (u64 (flushed * secsz)) ≠ 0 ∧
        u64 ((ftl.zoneDescs zid).wp + u32 flushed) = zoneToSlba c zid + (ftl.zoneDescs zid).zoneCapacity) → outcome.ftl.asserted = true) := by
  unfold commitZrwa at ran
  split at ran
  · rename_i none
    cases ran
    refine ⟨fun _ => accounted, ?_⟩
    rintro ⟨some, _⟩
    omega
  · rename_i some
    split at ran
    · cases ran
    · dsimp only at ran
      split at ran
      · rename_i refused
        have short : ¬(u64 (flushed * secsz) ≤ (ftl.buffers (.zrwa zid)).remaining ∧ u32 (u64 (flushed * secsz)) ≠ 0) := by
          rintro ⟨room, whole⟩
          rw [allocate_room ftl _ _ room] at refused
          exact whole refused
        cases ran
        refine ⟨fun _ => accounted_same c ftl accounted _ rfl rfl rfl, ?_⟩
        rintro ⟨_, room, whole, _⟩
        exact absurd ⟨room, whole⟩ short
      · rename_i granted
        obtain ⟨room, whole, left⟩ := allocate_granted ftl (.zrwa zid) _ granted
        rw [left] at ran
        cases ran
        have taken : Accounted c (takenFrom ftl (.zrwa zid) (u64 (flushed * secsz))) := accounted_same c ftl accounted _ rfl rfl rfl
        have side := commit_loop_side c (.zrwa zid) zid (flushed / secsPerPg) (lbaToLpn wp) (flushed / secsPerPg)
          ⟨increaseWritePtr c (takenFrom ftl (.zrwa zid) (u64 (flushed * secsz))) zid (u32 flushed), req.freeEntries⟩
        constructor
        · intro spared
          apply side_accounted c _ _ _ side
          apply increase_accounted c _ taken zid inside (u32 flushed) opened
          intro _ atEnd
          exact spared ⟨Nat.pos_of_ne_zero some, room, whole, atEnd⟩
        · rintro ⟨_, _, _, atEnd⟩
          exact (congrArg ZoneSide.asserted side).trans (increase_asserts c _ zid (u32 flushed) area atEnd)

theorem active_admitted (ftl after : ZnsFtl) (zid : Nat) (status : NvmeStatus) (accounted : Accounted c ftl) (inside : zid < c.nrZones)
    (active : isActive (ftl.zoneDescs zid).state = true) (ran : admitZrwa c ftl zid = .ok (status, after)) : status = .success := by
  unfold admitZrwa at ran
  cases state : (ftl.zoneDescs zid).state with
  | closed =>
      obtain ⟨acquired, granted, _⟩ := opened_again c ftl accounted zid inside ftl state rfl rfl rfl
      rw [state] at ran
      dsimp only at ran
      unfold openZrwa at ran
      rw [granted] at ran
      dsimp only at ran
      split at ran
      · cases ran
      · split at ran
        · cases ran
        · cases ran
          rfl
  | openedImpl =>
      rw [state] at ran
      cases ran
      rfl
  | openedExpl =>
      rw [state] at ran
      cases ran
      rfl
  | _ =>
      rw [state] at active
      cases active

theorem write_zrwa_counted (ftl : ZnsFtl) (req : Request) (cmd : RwCommand) (outcome : WriteOutcome) (accounted : Accounted c ftl)
    (area : (ftl.zoneDescs (writeZone c cmd)).zrwav = true) (ran : writeZrwa c ftl req cmd = .ok outcome) :
    (¬FillsZrwa c ftl cmd → Accounted c outcome.ftl) ∧ (FillsZrwa c ftl cmd → outcome.ftl.asserted = true) := by
  unfold writeZrwa at ran
  dsimp only at ran
  rw [show lbaToZone c cmd.slba = writeZone c cmd from rfl,
    show u64 (cmd.slba + nrLbasFromRwCmd cmd - 1) = lastLba cmd from rfl] at ran
  split at ran
  · cases ran
  · rename_i outside
    have inside : writeZone c cmd < c.nrZones := Nat.lt_of_not_le outside
    split at ran
    · rename_i accepted
      obtain ⟨⟨status, after⟩, admitting, onward⟩ := bind_ok _ _ _ ran
      rcases admit_zrwa_cases c ftl after _ status admitting with ⟨rfl, admitted⟩ | ⟨refused, rfl⟩
      · obtain ⟨open', state, still, pointer, capacity, space, before⟩ :=
          zrwa_admission_opened c ftl after _ accounted inside area admitted
        have counted := commit_zrwa_counted c after req _ _ _ _ outcome open' inside state (still.trans area) onward
        rw [pointer, capacity, space] at counted
        refine ⟨fun spared => counted.1 ?_, fun fills => counted.2 ⟨fills.commits, fills.room, fills.taken, fills.fills⟩⟩
        rintro ⟨commits, room, taken, fills⟩
        exact spared ⟨area, accepted, before, commits, room, taken, fills⟩
      · have same : outcome.ftl = after := by
          cases status with
          | success => exact absurd rfl refused
          | _ =>
              cases onward
              rfl
        rw [same]
        refine ⟨fun _ => accounted, fun fills => ?_⟩
        exact absurd (active_admitted c after after _ status accounted inside fills.active admitting) refused
    · rename_i refused
      cases ran
      refine ⟨fun _ => accounted, fun fills => absurd fills.accepted refused⟩

end Random

section Runs

variable (c : ZnsParams)

theorem lpn_zone (lba : Nat) : lpnToZone c (lbaToLpn lba) = lbaToZone c lba := by
  have whole := Nat.div_add_mod c.zoneSize pgsz
  rw [c.zonePages, Nat.add_zero] at whole
  unfold lpnToZone lbaToZone zoneLpns zoneLbas lbaToLpn
  rw [Nat.div_div_eq_div_mul]
  congr 2
  unfold secsPerPg pgsz secsz at *
  omega

def sparesZrwa (ftl : ZnsFtl) : Event → Prop
  | .write _ cmd => ¬FillsZrwa c ftl cmd
  | _ => True

theorem zns_write_counted (ftl : ZnsFtl) (req : Request) (cmd : RwCommand) (outcome : WriteOutcome) (accounted : Accounted c ftl)
    (ran : znsWrite c ftl req cmd = .ok outcome) :
    (¬FillsZrwa c ftl cmd → Accounted c outcome.ftl) ∧ (FillsZrwa c ftl cmd → outcome.ftl.asserted = true) := by
  unfold znsWrite at ran
  dsimp only at ran
  rw [lpn_zone, show lbaToZone c cmd.slba = writeZone c cmd from rfl] at ran
  split at ran
  · cases ran
  · split at ran
    · rename_i area
      exact write_zrwa_counted c ftl req cmd outcome accounted area ran
    · rename_i area
      have plain : (ftl.zoneDescs (writeZone c cmd)).zrwav = false := by simpa using area
      exact ⟨fun _ => write_plain_accounted c ftl accounted req cmd outcome plain ran, fun fills => absurd fills.area area⟩

theorem init_accounted : Accounted c (znsInitFtl c) := by
  have none : ∀ type, holders c type (znsInitFtl c).zoneDescs = 0 := by
    intro type
    refine Nat.count_iff_forall_not.mpr ?_
    intro zid _
    cases type <;> exact Bool.false_ne_true
  refine ⟨⟨?_, ?_, rfl⟩, ?_, Nat.zero_le _, fun _ _ _ => rfl⟩
  · intro type
    rw [none]
    cases type <;> rfl
  · intro type
    cases type <;> rfl
  · intro type
    cases type <;> rfl

theorem accounts_kept : TransitionSystem.Invariant (system c) (sparesZrwa c) (Accounted c) where
  starts := by
    intro ftl init
    rw [show ftl = znsInitFtl c from init]
    exact init_accounted c
  keeps := by
    intro ftl next event accounted permitted taken
    cases taken with
    | write req cmd outcome ran => exact (zns_write_counted c ftl req cmd outcome accounted ran).1 permitted
    | mgmtSend cmd status next ran =>
        apply zns_zmgmt_send_keeps c (Accounted c) cmd _ ftl next status accounted ran
        intro middle slba sent after held sending
        obtain ⟨bound, rfl⟩ := zmgmt_send_ran c middle after slba _ _ sent sending
        exact sent_action_accounted c middle held slba _ _ bound
    | release place ref bytes due => exact accounted_same c ftl accounted _ rfl rfl rfl

end Runs

-- As long as no write fills a zone with a random write area, the counters are
-- right; the first that does meets the ASSERT(0).
theorem resources_counted_iff (c : ZnsParams) :
    (∀ ftl, Reachable c (sparesZrwa c) ftl → ResourcesCounted c ftl) ∧
      ∀ ftl req cmd outcome, Reachable c (sparesZrwa c) ftl → znsWrite c ftl req cmd = .ok outcome →
        (ResourcesCounted c outcome.ftl ↔ ¬FillsZrwa c ftl cmd) := by
  have kept := TransitionSystem.reach_invariant _ _ _ (accounts_kept c)
  refine ⟨fun ftl reached => (kept ftl reached).counted, ?_⟩
  intro ftl req cmd outcome reached ran
  obtain ⟨right, wrong⟩ := zns_write_counted c ftl req cmd outcome (kept ftl reached) ran
  refine ⟨fun counted fills => ?_, fun spared => (right spared).counted⟩
  have met := wrong fills
  rw [counted.unasserted] at met
  cases met

-- Two zones of four pages, one of which may have a random write area as large
-- as the zone.
def randomParams : ZnsParams :=
  { sampleParams with zoneCapacity := 4 * pgsz, nrZrwaZones := 1, zrwafgSize := pgsz, zrwaSize := 4 * pgsz, zrwaBufferSize := 8 * pgsz,
                      capacityFits := by decide, zrwaZonesFit := by decide, zrwafgPositive := by decide }

def sendEvent (zsa : ZoneSendAction) (zsaso : Bool) (slba : Nat) : Event := .mgmtSend ⟨false, zsa, zsaso, slba⟩

-- Zone 0 gets a random write area, is written, committed in part and finished;
-- zone 1 is written.
theorem random_zone_finished : ∃ ftl : ZnsFtl, ResourcesCounted randomParams ftl ∧ (ftl.zoneDescs 0).wp = 8 ∧
    (ftl.zoneDescs 0).state = .full ∧ (ftl.resInfos .zrwaZone).acquiredCnt = 0 ∧ (ftl.resInfos .openZone).acquiredCnt = 1 := by
  obtain ⟨ftl, reached, checked⟩ := run_events_check randomParams (sparesZrwa randomParams)
    (fun ftl event => match event with
      | .write _ cmd => decide (committed randomParams ftl cmd = 0)
      | _ => true)
    (by
      intro ftl event permitted
      cases event with
      | write req cmd =>
          intro fills
          have commits := fills.commits
          rw [of_decide_eq_true permitted] at commits
          exact absurd commits (Nat.lt_irrefl 0)
      | mgmtSend cmd => trivial
      | release place => trivial)
    [sendEvent .openZone true 0, writeEvent 0 15 (by decide) (by decide), writeEvent 32 7 (by decide) (by decide),
      sendEvent .flushExplZrwa false 7, sendEvent .finishZone false 0]
    (fun ftl => decide ((ftl.zoneDescs 0).wp = 8 ∧ (ftl.zoneDescs 0).state = .full ∧
      (ftl.resInfos .zrwaZone).acquiredCnt = 0 ∧ (ftl.resInfos .openZone).acquiredCnt = 1)) (by decide +kernel)
  exact ⟨ftl, (resources_counted_iff randomParams).1 ftl reached, of_decide_eq_true checked⟩

-- The whole zone is written at once: it is full, and its random write area is
-- still on the books.
theorem random_zone_written_full : ∃ ftl, Reachable randomParams (fun _ _ => True) ftl ∧ ¬ResourcesCounted randomParams ftl ∧
    ftl.asserted = true ∧ (ftl.zoneDescs 0).state = .full ∧ (ftl.resInfos .zrwaZone).acquiredCnt = 1 ∧
      holders randomParams .zrwaZone ftl.zoneDescs = 0 := by
  obtain ⟨ftl, reached, checked⟩ := run_events_check randomParams (fun _ _ => True) (fun _ _ => true) (fun _ _ _ => trivial)
    [sendEvent .openZone true 0, writeEvent 0 31 (by decide) (by decide)]
    (fun ftl => decide (ftl.asserted = true ∧ (ftl.zoneDescs 0).state = .full ∧ (ftl.resInfos .zrwaZone).acquiredCnt = 1 ∧
      holders randomParams .zrwaZone ftl.zoneDescs = 0)) (by decide +kernel)
  have shown := of_decide_eq_true checked
  refine ⟨ftl, reached, ?_, shown⟩
  intro counted
  have met := counted.unasserted
  rw [shown.1] at met
  cases met

end ConZone.Zns
