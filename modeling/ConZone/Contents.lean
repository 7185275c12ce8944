import ConZone.Payload
import ConZone.Management

set_option autoImplicit false

namespace ConZone

-- Where an LBA of a namespace is stored, and the LBA stored at an address.
def lbaAddress (config : DualConfig) (loc : Loc) (lba : Nat) : Nat := nsMapped config loc + lba * secsz
def lbaAt (config : DualConfig) (loc : Loc) (address : Nat) : Nat := (address - nsMapped config loc) / secsz

def nsLbas (p : Params) : Nat := p.zpp.nrZones * zoneLbas p

def InNamespace (p : Params) : HostCommand → Prop
  | .write rw _ | .read rw _ => rw.slba + nrLbasFromRwCmd rw ≤ nsLbas p
  | .flush => True
  | .mgmtSend cmd => cmd.selectAll = true ∨ cmd.slba < nsLbas p

-- The LBAs a command reads, writes or resets.
def Touches (p : Params) (cmd : HostCommand) (lba : Nat) : Prop :=
  match cmd with
  | .write rw _ | .read rw _ => rw.slba ≤ lba ∧ lba < rw.slba + nrLbasFromRwCmd rw
  | .flush => False
  | .mgmtSend cmd => cmd.zsa = .resetZone ∧ lba < nsLbas p ∧ (cmd.selectAll = true ∨ lbaToZone p lba = lbaToZone p cmd.slba)

instance (p : Params) (cmd : HostCommand) (lba : Nat) : Decidable (Touches p cmd lba) :=
  match cmd with
  | .write _ _ | .read _ _ | .mgmtSend _ => inferInstanceAs (Decidable (_ ∧ _))
  | .flush => inferInstanceAs (Decidable False)

-- The addresses a command has to do with. An append never has to do with a
-- zone that the host did not name.
def Covers (config : DualConfig) (entry : SqEntry) (address : Nat) : Prop :=
  nsMapped config entry.loc ≤ address ∧ Touches (dualParams config entry.loc) entry.cmd (lbaAt config entry.loc address) ∧
    (isAppend entry.cmd = true → lbaToZone (dualParams config entry.loc) (lbaAt config entry.loc address) =
      lbaToZone (dualParams config entry.loc) (firstLba entry.host))

instance (config : DualConfig) (entry : SqEntry) (address : Nat) : Decidable (Covers config entry address) :=
  inferInstanceAs (Decidable (_ ∧ _ ∧ _))

def given (config : DualConfig) (entry : SqEntry) (address : Nat) : Option UInt8 :=
  if Covers config entry address then
    match entry.cmd with
    | .write rw data =>
        match commandPieces rw data with
        | .ok pieces => some (data.memory (byteAddress pieces (address - lbaAddress config entry.loc rw.slba)))
        | .error _ => none
    | .read _ _ | .flush => none
    | .mgmtSend _ => some 0
  else none

-- The data of the commands completed so far, on a memory that was all zeros.
def content (config : DualConfig) (cq : List CqEntry) : Storage :=
  cq.foldl (fun content record =>
    if record.status = .success then Overlay.overlay (given config record.entry) content else content) fun _ => 0

def acting (state : IoState) : IoEvent → Option SqEntry
  | .retry slot _ | .dispatch slot _ _ | .lose slot _ => state.sq slot
  | .copy work | .complete work => state.sq (state.workQueue work).slot
  | .submit _ _ _ | .release _ _ => none

-- A read got the content of all its LBAs, byte by byte.
def Served (config : DualConfig) (stored : Storage) (entry : SqEntry) : Prop :=
  ∀ rw data, entry.cmd = .read rw data → ∃ pieces, commandPieces rw data = .ok pieces ∧
    entry.delivered = (List.range (nrLbasFromRwCmd rw * secsz)).map fun index =>
      (byteAddress pieces index, stored (lbaAddress config entry.loc rw.slba + index))

structure DataIntact (config : DualConfig) (permitted : IoState → IoEvent → Prop) (state : IoState) : Prop where
  reads : ∀ before record after, state.cq = before ++ record :: after → record.status = .success →
    Served config (content config before) record.entry
  stores : ∀ event next, permitted state event → IoStep config state event next → ∀ address,
    next.storage address ≠ state.storage address → ∃ entry, acting state event = some entry ∧ Covers config entry address

def finalCommand (p : Params) (ftl : ZmsFtl) : HostCommand → HostCommand
  | .write rw data => .write (if anyFull ftl then rw else placeAppend p ftl rw) data
  | .read rw data => .read rw data
  | .flush => .flush
  | .mgmtSend cmd => .mgmtSend cmd

-- The host stays inside the namespaces, and no command touches an LBA that
-- another one in flight touches.
def HostDiscipline (config : DualConfig) (state : IoState) : IoEvent → Prop
  | .submit _ loc cmd => InNamespace (dualParams config loc) cmd
  | .dispatch slot _ _ | .lose slot _ => ∀ entry, state.sq slot = some entry → ∀ other inFlight, other ≠ slot →
      state.sq other = some inFlight → inFlight.dispatched = true → inFlight.loc = entry.loc → ∀ lba,
      Touches (dualParams config entry.loc) (finalCommand (dualParams config entry.loc) (state.ftls entry.loc) entry.cmd) lba →
        ¬Touches (dualParams config entry.loc) inFlight.cmd lba
  | .retry _ _ | .copy _ | .complete _ | .release _ _ => True

-- An attempt at an append, unless a full flag is up, finds its zone not
-- written to its end and, if it is dropped as a repeated part of a page, room.
def AppendsFit (config : DualConfig) (state : IoState) : IoEvent → Prop
  | .retry slot _ | .dispatch slot _ _ | .lose slot _ => ∀ entry rw data, state.sq slot = some entry → entry.cmd = .write rw data →
      rw.append = true → anyFull (state.ftls entry.loc) = false →
      let p := dualParams config entry.loc
      let wp := ((state.ftls entry.loc).zoneDescs (lbaToZone p rw.slba)).wp
      let zoneEnd := zoneToSlba p (lbaToZone p rw.slba) + zoneLbas p
      wp < zoneEnd ∧ (partialDropped p (state.ftls entry.loc) rw → wp + nrLbasFromRwCmd rw ≤ zoneEnd)
  | .submit _ _ _ | .copy _ | .complete _ | .release _ _ => True

section Addresses

variable (p : Params)

theorem zone_lbas_size : zoneLbas p * secsz = p.zpp.zoneSize := by
  obtain ⟨pages, whole⟩ := p.zpp.sizeAligned
  have size : pgsz * pages = pages * 8 * secsz := by
    change 4096 * pages = pages * 8 * 512
    omega
  rw [zoneLbas, whole, size, Nat.mul_div_cancel _ (by decide)]

theorem ns_size_lbas : nsSize p = nsLbas p * secsz := by
  rw [nsSize, nsLbas, Nat.mul_assoc, zone_lbas_size]

theorem ns_lba_zone (lba : Nat) (inside : lba < nsLbas p) : lbaToZone p lba = lba / zoneLbas p ∧ lbaToZone p lba < p.zpp.nrZones := by
  have zone : lba / zoneLbas p < p.zpp.nrZones := by
    rw [Nat.div_lt_iff_lt_mul (zone_lbas_positive p)]
    exact inside
  have fits := p.zpp.zonesFit
  have same : lbaToZone p lba = lba / zoneLbas p := Nat.mod_eq_of_lt (by omega)
  exact ⟨same, by omega⟩

theorem in_namespace_range (rw : RwCommand) (inside : rw.slba + nrLbasFromRwCmd rw ≤ nsLbas p) :
    cmdIoOffset rw = rw.slba * secsz ∧ cmdNsRange p rw = true := by
  have space : nsSize p < 2 ^ 64 := p.zpp.spaceFits
  have bytes : (rw.slba + nrLbasFromRwCmd rw) * secsz ≤ nsSize p := by
    rw [ns_size_lbas]
    exact Nat.mul_le_mul_right _ inside
  rw [Nat.add_mul] at bytes
  have offset : cmdIoOffset rw = rw.slba * secsz := Nat.mod_eq_of_lt (by omega)
  refine ⟨offset, ?_⟩
  rw [cmdNsRange, offset, Bool.and_eq_true, decide_eq_true_eq, decide_eq_true_eq, cmdIoSize]
  omega

variable (config : DualConfig) (loc : Loc)

theorem lba_at_iff (address slba count : Nat) (mapped : nsMapped config loc ≤ address) :
    (slba ≤ lbaAt config loc address ∧ lbaAt config loc address < slba + count) ↔
      (lbaAddress config loc slba ≤ address ∧ address < lbaAddress config loc slba + count * secsz) := by
  rw [lbaAt, lbaAddress, Nat.le_div_iff_mul_le (by decide), Nat.div_lt_iff_lt_mul (by decide), Nat.add_mul]
  omega

theorem namespaces_apart (other : Loc) (address : Nat) (apart : other ≠ loc) (mapped : nsMapped config loc ≤ address)
    (inside : lbaAt config loc address < nsLbas (dualParams config loc)) (otherMapped : nsMapped config other ≤ address) :
    ¬lbaAt config other address < nsLbas (dualParams config other) := by
  have bound : ∀ loc, nsMapped config loc ≤ address → lbaAt config loc address < nsLbas (dualParams config loc) →
      address < nsMapped config loc + nsSize (dualParams config loc) := by
    intro loc mapped inside
    rw [lbaAt, Nat.div_lt_iff_lt_mul (by decide), ← ns_size_lbas] at inside
    omega
  intro otherInside
  have first := bound loc mapped inside
  have second := bound other otherMapped otherInside
  cases loc with
  | pslc =>
      cases other with
      | pslc => exact apart rfl
      | normal =>
          change nsSize (dualParams config .pslc) ≤ address at otherMapped
          change address < 0 + nsSize (dualParams config .pslc) at first
          omega
  | normal =>
      cases other with
      | normal => exact apart rfl
      | pslc =>
          change nsSize (dualParams config .pslc) ≤ address at mapped
          change address < 0 + nsSize (dualParams config .pslc) at second
          omega

end Addresses

-- A command that has got through stays inside its namespace, and an append
-- inside the zone the host named.
structure Sound (config : DualConfig) (entry : SqEntry) : Prop where
  inside : InNamespace (dualParams config entry.loc) entry.cmd
  zone : isAppend entry.cmd = true → ∀ lba, Touches (dualParams config entry.loc) entry.cmd lba →
    lbaToZone (dualParams config entry.loc) lba = lbaToZone (dualParams config entry.loc) (firstLba entry.host)

section Copying

variable (config : DualConfig) (entry : SqEntry)

theorem sound_covers (sound : Sound config entry) (address : Nat) :
    Covers config entry address ↔ nsMapped config entry.loc ≤ address ∧
      Touches (dualParams config entry.loc) entry.cmd (lbaAt config entry.loc address) :=
  ⟨fun covers => ⟨covers.1, covers.2.1⟩, fun touches => ⟨touches.1, touches.2, fun append => sound.zone append _ touches.2⟩⟩

theorem touched_inside (p : Params) (cmd : HostCommand) (lba : Nat) (inside : InNamespace p cmd) (touched : Touches p cmd lba) :
    lba < nsLbas p := by
  cases cmd with
  | write rw data => exact Nat.lt_of_lt_of_le touched.2 inside
  | read rw data => exact Nat.lt_of_lt_of_le touched.2 inside
  | flush => exact absurd touched id
  | mgmtSend cmd => exact touched.2.1

theorem copied_write (sound : Sound config entry) (storage later : Storage) (rw : RwCommand) (data : DataPointer)
    (delivered : List (Nat × UInt8)) (cmd : entry.cmd = .write rw data)
    (ran : doPerformIo (dualParams config entry.loc) (nsMapped config entry.loc) storage entry.cmd = .ok (some (later, delivered))) :
    later = Overlay.overlay (given config entry) storage := by
  have inside := sound.inside
  rw [cmd] at inside
  obtain ⟨offset, range⟩ := in_namespace_range _ rw inside
  rw [cmd] at ran
  simp only [doPerformIo, range, if_true] at ran
  obtain ⟨pieces, gathered, rest⟩ := bind_ok _ _ _ ran
  have same := Option.some.inj (pure_ok _ _ rest)
  rw [← (Prod.mk.inj same).1]
  have bytes := command_pieces_bytes rw data pieces gathered
  funext address
  rw [copy_in_bytes, bytes, offset]
  have here : (nsMapped config entry.loc + rw.slba * secsz ≤ address ∧ address < nsMapped config entry.loc + rw.slba * secsz + cmdIoSize rw) ↔
      Covers config entry address := by
    rw [sound_covers config entry sound, cmd]
    constructor
    · intro within
      have mapped : nsMapped config entry.loc ≤ address := by omega
      exact ⟨mapped, (lba_at_iff config entry.loc address _ _ mapped).mpr within⟩
    · rintro ⟨mapped, touched⟩
      exact (lba_at_iff config entry.loc address _ _ mapped).mp touched
  by_cases covers : Covers config entry address
  · rw [if_pos (here.mpr covers), Overlay.overlay, given, if_pos covers, cmd]
    dsimp only
    rw [gathered]
    rfl
  · rw [if_neg (fun within => covers (here.mp within)), Overlay.overlay, given, if_neg covers]
    rfl

theorem copied_read (sound : Sound config entry) (storage later : Storage) (rw : RwCommand) (data : DataPointer)
    (delivered : List (Nat × UInt8)) (cmd : entry.cmd = .read rw data)
    (ran : doPerformIo (dualParams config entry.loc) (nsMapped config entry.loc) storage entry.cmd = .ok (some (later, delivered))) :
    later = storage ∧ Served config storage { entry with delivered := delivered } := by
  have inside := sound.inside
  rw [cmd] at inside
  obtain ⟨offset, range⟩ := in_namespace_range _ rw inside
  rw [cmd] at ran
  simp only [doPerformIo, range, if_true] at ran
  obtain ⟨pieces, gathered, rest⟩ := bind_ok _ _ _ ran
  have same := Option.some.inj (pure_ok _ _ rest)
  refine ⟨(Prod.mk.inj same).1.symm, ?_⟩
  intro other otherData otherCmd
  dsimp only at otherCmd
  rw [cmd] at otherCmd
  cases otherCmd
  refine ⟨pieces, gathered, ?_⟩
  rw [← (Prod.mk.inj same).2, copy_out_bytes, command_pieces_bytes rw data pieces gathered, offset]
  rfl

theorem served_same (stored other : Storage) (served : Served config stored entry)
    (same : ∀ address, nsMapped config entry.loc ≤ address → Touches (dualParams config entry.loc) entry.cmd (lbaAt config entry.loc address) →
      other address = stored address) : Served config other entry := by
  intro rw data cmd
  obtain ⟨pieces, gathered, delivered⟩ := served rw data cmd
  refine ⟨pieces, gathered, delivered.trans ?_⟩
  apply List.map_congr_left
  intro index member
  have mapped : nsMapped config entry.loc ≤ lbaAddress config entry.loc rw.slba + index := by
    rw [lbaAddress]
    omega
  have touched : Touches (dualParams config entry.loc) entry.cmd (lbaAt config entry.loc (lbaAddress config entry.loc rw.slba + index)) := by
    rw [cmd]
    refine (lba_at_iff config entry.loc _ _ _ mapped).mpr ⟨Nat.le_add_right _ _, ?_⟩
    have bound := List.mem_range.mp member
    omega
  rw [same _ mapped touched]

end Copying

section Resetting

variable (config : DualConfig) (loc : Loc)

theorem zone_bytes_iff (zid address : Nat) (inside : zid < (dualParams config loc).zpp.nrZones) :
    (nsMapped config loc + zid * (dualParams config loc).zpp.zoneSize ≤ address ∧
      address < nsMapped config loc + zid * (dualParams config loc).zpp.zoneSize + (dualParams config loc).zpp.zoneSize) ↔
    nsMapped config loc ≤ address ∧ lbaAt config loc address < nsLbas (dualParams config loc) ∧
      lbaToZone (dualParams config loc) (lbaAt config loc address) = zid := by
  have size := zone_lbas_size (dualParams config loc)
  have start : lbaAddress config loc (zoneToSlba (dualParams config loc) zid) =
      nsMapped config loc + zid * (dualParams config loc).zpp.zoneSize := by
    rw [lbaAddress, zoneToSlba, Nat.mul_assoc, size]
  have last := zone_end_bound (dualParams config loc) zid inside
  rw [← start, ← size]
  constructor
  · intro within
    have mapped : nsMapped config loc ≤ address := by
      rw [lbaAddress] at within
      omega
    obtain ⟨lower, upper⟩ := (lba_at_iff config loc address _ _ mapped).mpr within
    exact ⟨mapped, Nat.lt_of_lt_of_le upper last, lba_to_zone_of _ zid _ inside lower upper⟩
  · rintro ⟨mapped, below, zone⟩
    refine (lba_at_iff config loc address _ _ mapped).mp ?_
    have positive := zone_lbas_positive (dualParams config loc)
    rw [(ns_lba_zone _ _ below).1] at zone
    have split := Nat.div_add_mod (lbaAt config loc address) (zoneLbas (dualParams config loc))
    have rest := Nat.mod_lt (lbaAt config loc address) positive
    rw [zone, Nat.mul_comm] at split
    rw [zoneToSlba]
    omega

theorem clear_zone_bytes (storage : Storage) (zid address : Nat) (inside : zid < (dualParams config loc).zpp.nrZones) :
    clearZone (dualParams config loc) (nsMapped config loc) storage zid address =
      if nsMapped config loc ≤ address ∧ lbaAt config loc address < nsLbas (dualParams config loc) ∧
        lbaToZone (dualParams config loc) (lbaAt config loc address) = zid then 0 else storage address := by
  have size : u32 (dualParams config loc).zpp.zoneSize = (dualParams config loc).zpp.zoneSize :=
    Nat.mod_eq_of_lt (dual_zone_size_bound config loc)
  simp only [clearZone, memcpy, size, zone_bytes_iff config loc zid address inside]

theorem send_stored_runs (p : Params) (mapped : Nat) (ftl next : ZmsFtl) (storage cleared : Storage) (slba : Nat) (action : ZoneSendAction)
    (option : Bool) (status : NvmeStatus) (ran : sendStored p mapped ftl storage slba action option = .ok (status, next, cleared)) :
    zmgmtSend p ftl slba action option = .ok (status, next) ∧
      cleared = if action = .resetZone ∧ status = .success then clearZone p mapped storage (lbaToZone p slba) else storage := by
  obtain ⟨⟨done, after⟩, sent, rest⟩ := bind_ok _ _ _ ran
  have same := pure_ok _ _ rest
  cases same
  exact ⟨sent, rfl⟩

theorem mgmt_stored_keeps (p : Params) (mapped : Nat) (cmd : ZoneMgmtSend) (holds : ZmsFtl → Prop)
    (keeps : ∀ ftl next slba status, holds ftl → zmgmtSend p ftl slba cmd.zsa cmd.zsaso = .ok (status, next) → holds next)
    (ftl next : ZmsFtl) (storage cleared : Storage) (status : NvmeStatus) (start : holds ftl)
    (ran : mgmtSendStored p mapped ftl storage cmd = .ok (status, next, cleared)) : holds next := by
  have all : ∀ (zids : List Nat) (ftl next : ZmsFtl) (storage cleared : Storage), holds ftl →
      sendAllStored p mapped cmd zids ftl storage = .ok (next, cleared) → holds next := by
    intro zids
    induction zids with
    | nil =>
        intro ftl next storage cleared start run
        cases run
        exact start
    | cons zid rest ih =>
        intro ftl next storage cleared start run
        obtain ⟨⟨status, after, middle⟩, sent, remaining⟩ := bind_ok _ _ _ run
        obtain ⟨acted, _⟩ := send_stored_runs _ _ ftl after storage middle _ _ _ status sent
        exact ih after next middle cleared (keeps ftl after _ status start acted) remaining
  by_cases select : cmd.selectAll = true
  · simp only [mgmtSendStored, select, if_true] at ran
    obtain ⟨⟨after, last⟩, sent, rest⟩ := bind_ok _ _ _ ran
    have same := pure_ok _ _ rest
    cases same
    exact all _ ftl _ storage _ start sent
  · simp only [mgmtSendStored, select, Bool.false_eq_true, if_false] at ran
    obtain ⟨acted, _⟩ := send_stored_runs _ _ ftl next storage cleared _ _ _ status ran
    exact keeps ftl next _ status start acted

theorem send_all_stored_bytes (cmd : ZoneMgmtSend) (zids : List Nat) (ftl next : ZmsFtl) (storage cleared : Storage)
    (online : Online (dualParams config loc) ftl) (inside : ∀ zid ∈ zids, zid < (dualParams config loc).zpp.nrZones)
    (ran : sendAllStored (dualParams config loc) (nsMapped config loc) cmd zids ftl storage = .ok (next, cleared)) (address : Nat) :
    cleared address = if cmd.zsa = .resetZone ∧ nsMapped config loc ≤ address ∧
      lbaAt config loc address < nsLbas (dualParams config loc) ∧
      lbaToZone (dualParams config loc) (lbaAt config loc address) ∈ zids then 0 else storage address := by
  induction zids generalizing ftl storage with
  | nil =>
      cases ran
      simp
  | cons zid rest ih =>
      obtain ⟨⟨status, after, middle⟩, sent, remaining⟩ := bind_ok _ _ _ ran
      obtain ⟨acted, same⟩ := send_stored_runs _ _ ftl after storage middle _ _ _ status sent
      have here := inside zid List.mem_cons_self
      have zone : lbaToZone (dualParams config loc) (zoneToSlba (dualParams config loc) zid) = zid :=
        lba_to_zone_of _ zid _ here (Nat.le_refl _) (Nat.lt_add_of_pos_right (zone_lbas_positive _))
      rw [ih after middle (zmgmt_send_online _ ftl online _ _ _ status after acted)
        (fun other member => inside other (List.mem_cons_of_mem zid member)) remaining, same, zone]
      by_cases reset : cmd.zsa = .resetZone
      · have up := online zid here
        have success : status = .success := by
          rw [reset, zmgmtSend, if_neg (by rw [zone]; omega), zone] at acted
          rw [reset_zone_accepts _ ftl zid cmd.zsaso after status acted]
          cases state : (ftl.zoneDescs zid).state <;> simp [state, isOnline, accepts] at up ⊢
        simp only [reset, success, and_self, if_true, clear_zone_bytes config loc storage zid address here, List.mem_cons, true_and]
        by_cases cleared : nsMapped config loc ≤ address ∧ lbaAt config loc address < nsLbas (dualParams config loc)
        · by_cases first : lbaToZone (dualParams config loc) (lbaAt config loc address) = zid
          · simp [cleared, first]
          · simp [cleared, first]
        · have never : ∀ more : Prop, ¬(nsMapped config loc ≤ address ∧ lbaAt config loc address < nsLbas (dualParams config loc) ∧ more) :=
            fun more all => cleared ⟨all.1, all.2.1⟩
          simp only [never, if_false]
      · simp [reset]

theorem mgmt_stored (entry : SqEntry) (cmd : ZoneMgmtSend) (ftl next : ZmsFtl) (storage cleared : Storage) (status : NvmeStatus)
    (sends : entry.cmd = .mgmtSend cmd) (online : Online (dualParams config entry.loc) ftl)
    (ran : mgmtSendStored (dualParams config entry.loc) (nsMapped config entry.loc) ftl storage cmd = .ok (status, next, cleared)) :
    (status = .success → cleared = Overlay.overlay (given config entry) storage) ∧ (status ≠ .success → cleared = storage) := by
  have covers : ∀ address, Covers config entry address ↔ nsMapped config entry.loc ≤ address ∧ cmd.zsa = .resetZone ∧
      lbaAt config entry.loc address < nsLbas (dualParams config entry.loc) ∧
      (cmd.selectAll = true ∨ lbaToZone (dualParams config entry.loc) (lbaAt config entry.loc address) =
        lbaToZone (dualParams config entry.loc) cmd.slba) := by
    intro address
    simp only [Covers, sends, Touches, isAppend]
    simp
  have zeros : ∀ address, Overlay.overlay (given config entry) storage address =
      if Covers config entry address then 0 else storage address := by
    intro address
    by_cases here : Covers config entry address
    · simp [Overlay.overlay, given, here, sends]
    · simp [Overlay.overlay, given, here]
  by_cases all : cmd.selectAll = true
  · simp only [mgmtSendStored, all, if_true] at ran
    obtain ⟨⟨after, last⟩, sent, rest⟩ := bind_ok _ _ _ ran
    have same := pure_ok _ _ rest
    cases same
    refine ⟨fun _ => ?_, fun failed => absurd rfl failed⟩
    · funext address
      have bytes := send_all_stored_bytes config entry.loc cmd _ ftl after storage last online (fun zid member => List.mem_range.mp member)
        sent address
      have everywhere : (cmd.zsa = .resetZone ∧ nsMapped config entry.loc ≤ address ∧
          lbaAt config entry.loc address < nsLbas (dualParams config entry.loc) ∧
          lbaToZone (dualParams config entry.loc) (lbaAt config entry.loc address) ∈ List.range (dualParams config entry.loc).zpp.nrZones) ↔
            Covers config entry address := by
        rw [covers, List.mem_range]
        constructor
        · rintro ⟨reset, mapped, below, _⟩
          exact ⟨mapped, reset, below, .inl all⟩
        · rintro ⟨mapped, reset, below, _⟩
          exact ⟨reset, mapped, below, (ns_lba_zone _ _ below).2⟩
      simp only [everywhere] at bytes
      exact bytes.trans (zeros address).symm
  · simp only [mgmtSendStored, all, Bool.false_eq_true, if_false] at ran
    obtain ⟨acted, same⟩ := send_stored_runs _ _ ftl next storage cleared _ _ _ status ran
    have inside := (zmgmt_send_runs _ ftl next _ _ _ status acted).1
    refine ⟨fun success => ?_, fun failed => ?_⟩
    · funext address
      rw [zeros]
      by_cases reset : cmd.zsa = .resetZone
      · rw [same, if_pos ⟨reset, success⟩, clear_zone_bytes config entry.loc storage _ address inside]
        simp only [covers, reset, all, true_and, Bool.false_eq_true, false_or]
      · rw [same, if_neg fun both => reset both.1]
        simp only [covers, reset, false_and, and_false, if_false]
    · rw [same, if_neg fun both => failed both.2]

end Resetting

theorem attempt_tables (p : Params) (mapped : Nat) (ftl : ZmsFtl) (storage : Storage) (req : Request) (cmd : HostCommand) (attempt : Attempt)
    (accounted : Accounted p ftl) (online : Online p ftl) (ran : procIoCmd p mapped ftl storage req cmd = .ok attempt) :
    Accounted p attempt.ftl ∧ Online p attempt.ftl := by
  cases cmd with
  | write rw data =>
      obtain ⟨outcome, written, same⟩ := attempt_write p mapped ftl storage req rw data attempt ran
      rw [same]
      exact ⟨write_accounted p ftl req rw outcome accounted written, zoned_write_online p ftl online req rw outcome accounted written⟩
  | read rw data =>
      obtain ⟨done, next, served, same⟩ := attempt_read p mapped ftl storage req rw data attempt ran
      have table := zoned_read_table p ftl next req rw done served
      rw [same]
      exact ⟨accounted_same p ftl next table.toSameTable accounted, online_same p ftl online next table.descs⟩
  | flush =>
      obtain ⟨done, next, served, same⟩ := attempt_flush p mapped ftl storage req attempt ran
      have table := zns_flush_table p ftl next req done served
      rw [same]
      exact ⟨accounted_same p ftl next table.toSameTable accounted, online_same p ftl online next table.descs⟩
  | mgmtSend cmd =>
      obtain ⟨status, next, cleared, served, same⟩ := attempt_mgmt p mapped ftl storage req cmd attempt ran
      rw [same]
      refine ⟨?_, ?_⟩
      · exact mgmt_stored_keeps p mapped cmd (Accounted p)
          (fun before after slba done kept sent => zmgmt_send_accounted p before after slba cmd.zsa cmd.zsaso done kept sent)
          ftl next storage cleared status accounted served
      · exact mgmt_stored_keeps p mapped cmd (Online p)
          (fun before after slba done kept sent => zmgmt_send_online p before kept slba cmd.zsa cmd.zsaso done after sent)
          ftl next storage cleared status online served

def isWrite : HostCommand → Bool
  | .write _ _ => true
  | .read _ _ | .flush | .mgmtSend _ => false

structure Waiting (config : DualConfig) (entry : SqEntry) : Prop where
  inside : InNamespace (dualParams config entry.loc) entry.host
  rewritten : Rewritten entry.host entry.cmd
  zone : isAppend entry.cmd = true → lbaToZone (dualParams config entry.loc) (firstLba entry.cmd) =
    lbaToZone (dualParams config entry.loc) (firstLba entry.host)

def FitsIn (p : Params) (ftl : ZmsFtl) (rw : RwCommand) : Prop :=
  rw.append = true → anyFull ftl = false →
    (ftl.zoneDescs (lbaToZone p rw.slba)).wp < zoneToSlba p (lbaToZone p rw.slba) + zoneLbas p ∧
      (partialDropped p ftl rw → (ftl.zoneDescs (lbaToZone p rw.slba)).wp + nrLbasFromRwCmd rw ≤
        zoneToSlba p (lbaToZone p rw.slba) + zoneLbas p)

section Attempting

variable (config : DualConfig) (entry : SqEntry)

theorem plain_kept (host : HostCommand) (rw : RwCommand) (data : DataPointer) (plain : rw.append = false)
    (rewritten : Rewritten host (.write rw data)) : host = .write rw data := by
  cases rewritten with
  | kept => rfl
  | placed first data slba append =>
      dsimp only at plain
      rw [append] at plain
      cases plain

theorem others_kept (host cmd : HostCommand) (kind : isWrite cmd = false) (rewritten : Rewritten host cmd) : host = cmd := by
  cases rewritten with
  | kept => rfl
  | placed rw data slba append => cases kind

theorem rewritten_again (host : HostCommand) (rw : RwCommand) (data : DataPointer) (slba : Nat) (append : rw.append = true)
    (rewritten : Rewritten host (.write rw data)) : Rewritten host (.write { rw with slba := slba } data) := by
  cases rewritten with
  | kept => exact .placed rw data slba append
  | placed first data first' again => exact .placed first data slba again

theorem place_append_plain (p : Params) (ftl : ZmsFtl) (rw : RwCommand) (plain : rw.append = false) : placeAppend p ftl rw = rw := by
  simp [placeAppend, plain]

theorem place_append_moved (p : Params) (ftl : ZmsFtl) (rw : RwCommand) (append : rw.append = true) :
    placeAppend p ftl rw = { rw with slba := (ftl.zoneDescs (lbaToZone p rw.slba)).wp } := by
  simp [placeAppend, append]

theorem write_waits_again (ftl : ZmsFtl) (req : Request) (rw : RwCommand) (data : DataPointer) (outcome : WriteOutcome) (dispatched : Bool)
    (zoneWp : Nat) (accounted : Accounted (dualParams config entry.loc) ftl) (cmd : entry.cmd = .write rw data) (waiting : Waiting config entry)
    (fits : FitsIn (dualParams config entry.loc) ftl rw) (ran : zonedWrite (dualParams config entry.loc) ftl req rw = .ok outcome) :
    Waiting config { entry with cmd := .write outcome.cmd data, dispatched := dispatched, zoneWp := zoneWp } := by
  have inside := zoned_write_dispatched _ ftl req rw outcome ran
  obtain ⟨hostInside, rewritten, zone⟩ := waiting
  rw [cmd] at rewritten zone
  rcases write_run_cmd _ ftl req rw outcome (zoned_write_run _ ftl req rw outcome ran) with ⟨_, same⟩ | ⟨clear, same⟩
  · rw [same]
    exact ⟨hostInside, rewritten, zone⟩
  · rw [same]
    cases append : rw.append with
    | false =>
        rw [place_append_plain _ ftl rw append]
        exact ⟨hostInside, rewritten, zone⟩
    | true =>
        have stays := (append_zone_iff _ ftl rw accounted append inside).mpr (fits append clear).1
        rw [place_append_moved _ ftl rw append] at stays ⊢
        refine ⟨hostInside, rewritten_again _ rw data _ append rewritten, fun _ => ?_⟩
        exact stays.trans (zone append)

theorem write_goes_through (ftl : ZmsFtl) (req : Request) (rw : RwCommand) (data : DataPointer) (outcome : WriteOutcome) (done : Completion)
    (dispatched : Bool) (zoneWp : Nat) (accounted : Accounted (dualParams config entry.loc) ftl) (cmd : entry.cmd = .write rw data)
    (waiting : Waiting config entry) (fits : FitsIn (dualParams config entry.loc) ftl rw)
    (ran : zonedWrite (dualParams config entry.loc) ftl req rw = .ok outcome) (finished : outcome.done = some done)
    (success : done.status = .success) :
    outcome.cmd = (if anyFull ftl then rw else placeAppend (dualParams config entry.loc) ftl rw) ∧
      Sound config { entry with cmd := .write outcome.cmd data, dispatched := dispatched, zoneWp := zoneWp } := by
  have inside := zoned_write_dispatched _ ftl req rw outcome ran
  obtain ⟨clear, same, through⟩ := write_succeeds _ ftl req rw outcome done accounted (zoned_write_run _ ftl req rw outcome ran) finished success
  rw [clear, same]
  refine ⟨by simp, ?_⟩
  cases append : rw.append with
  | false =>
      have kept := plain_kept _ rw data append (cmd ▸ waiting.rewritten)
      have hostInside := waiting.inside
      rw [kept] at hostInside
      rw [place_append_plain _ ftl rw append]
      refine ⟨hostInside, fun append' => ?_⟩
      change rw.append = true at append'
      rw [append] at append'
      cases append'
  | true =>
      have zone := waiting.zone
      rw [cmd] at zone
      have sound := accounted.sound _ inside
      have lower := sound.lower
      rw [sound.start] at lower
      obtain ⟨below, room⟩ := fits append clear
      have stays := (append_zone_iff _ ftl rw accounted append inside).mpr below
      rw [place_append_moved _ ftl rw append] at stays through ⊢
      dsimp only at stays through
      have upper : (ftl.zoneDescs (lbaToZone (dualParams config entry.loc) rw.slba)).wp + nrLbasFromRwCmd rw ≤
          zoneToSlba (dualParams config entry.loc) (lbaToZone (dualParams config entry.loc) rw.slba) + zoneLbas (dualParams config entry.loc) := by
        rcases through with drop | ⟨_, _, within⟩
        · exact room drop
        · rw [stays] at within
          have capacity : capacityLbas (dualParams config entry.loc) ≤ zoneLbas (dualParams config entry.loc) :=
            Nat.div_le_div_right (dualParams config entry.loc).zpp.capacityFits
          omega
      refine ⟨?_, ?_⟩
      · exact Nat.le_trans upper (zone_end_bound _ _ inside)
      · rintro _ lba ⟨first, last⟩
        dsimp only at first last
        have there := lba_to_zone_of (dualParams config entry.loc) _ lba inside (Nat.le_trans lower first) (Nat.lt_of_lt_of_le last upper)
        exact there.trans (zone append)

theorem silent_given (after : SqEntry) (kind : ∀ rw data, after.cmd ≠ .write rw data) (still : ∀ cmd, after.cmd ≠ .mgmtSend cmd)
    (storage : Storage) : Overlay.overlay (given config after) storage = storage := by
  funext address
  apply Overlay.overlay_none
  simp only [given]
  split
  · split
    · rename_i rw data cmd
      exact absurd cmd (kind rw data)
    · rfl
    · rfl
    · rename_i cmd sends
      exact absurd sends (still cmd)
  · rfl

variable (ftl : ZmsFtl) (storage : Storage) (req : Request) (attempt : Attempt) (dispatched : Bool) (zoneWp : Nat)
variable (waiting : Waiting config entry)
variable (fits : ∀ rw data, entry.cmd = .write rw data → FitsIn (dualParams config entry.loc) ftl rw)
variable (ran : procIoCmd (dualParams config entry.loc) (nsMapped config entry.loc) ftl storage req entry.cmd = .ok attempt)

include waiting fits ran in
theorem attempt_again (accounted : Accounted (dualParams config entry.loc) ftl) (unfinished : attempt.done = none) :
    attempt.storage = storage ∧ Waiting config { entry with cmd := attempt.cmd, dispatched := dispatched, zoneWp := zoneWp } := by
  cases cmd : entry.cmd with
  | write rw data =>
      rw [cmd] at ran
      obtain ⟨outcome, written, same⟩ := attempt_write _ _ ftl storage req rw data attempt ran
      rw [same]
      exact ⟨rfl, write_waits_again config entry ftl req rw data outcome dispatched zoneWp accounted cmd waiting (fits rw data cmd) written⟩
  | read rw data =>
      rw [cmd] at ran
      obtain ⟨done, next, _, same⟩ := attempt_read _ _ ftl storage req rw data attempt ran
      rw [same] at unfinished
      cases unfinished
  | flush =>
      rw [cmd] at ran
      obtain ⟨done, next, _, same⟩ := attempt_flush _ _ ftl storage req attempt ran
      rw [same] at unfinished
      cases unfinished
  | mgmtSend send =>
      rw [cmd] at ran
      obtain ⟨status, next, cleared, _, same⟩ := attempt_mgmt _ _ ftl storage req send attempt ran
      rw [same] at unfinished
      cases unfinished

include waiting fits ran in
theorem attempt_through (accounted : Accounted (dualParams config entry.loc) ftl) (online : Online (dualParams config entry.loc) ftl)
    (done : Completion) (finished : attempt.done = some done) (success : done.status = .success) :
    attempt.cmd = finalCommand (dualParams config entry.loc) ftl entry.cmd ∧
      Sound config { entry with cmd := attempt.cmd, dispatched := dispatched, zoneWp := zoneWp } ∧
      attempt.storage = if isWrite attempt.cmd then storage
        else Overlay.overlay (given config { entry with cmd := attempt.cmd, dispatched := dispatched, zoneWp := zoneWp }) storage := by
  have inside := waiting.inside
  have rewritten := waiting.rewritten
  cases cmd : entry.cmd with
  | write rw data =>
      rw [cmd] at ran
      obtain ⟨outcome, written, same⟩ := attempt_write _ _ ftl storage req rw data attempt ran
      rw [same] at finished ⊢
      obtain ⟨final, sound⟩ := write_goes_through config entry ftl req rw data outcome done dispatched zoneWp accounted cmd waiting
        (fits rw data cmd) written finished success
      refine ⟨?_, sound, rfl⟩
      rw [finalCommand, final]
  | read rw data =>
      rw [cmd] at ran rewritten
      obtain ⟨result, next, _, same⟩ := attempt_read _ _ ftl storage req rw data attempt ran
      rw [others_kept _ _ rfl rewritten] at inside
      rw [same]
      refine ⟨rfl, ⟨inside, fun append => by cases append⟩, ?_⟩
      exact (silent_given config _ (fun _ _ => HostCommand.noConfusion) (fun _ => HostCommand.noConfusion) storage).symm
  | flush =>
      rw [cmd] at ran
      obtain ⟨result, next, _, same⟩ := attempt_flush _ _ ftl storage req attempt ran
      rw [same]
      refine ⟨rfl, ⟨trivial, fun append => by cases append⟩, ?_⟩
      exact (silent_given config _ (fun _ _ => HostCommand.noConfusion) (fun _ => HostCommand.noConfusion) storage).symm
  | mgmtSend send =>
      rw [cmd] at ran rewritten
      obtain ⟨status, next, cleared, sent, same⟩ := attempt_mgmt _ _ ftl storage req send attempt ran
      rw [others_kept _ _ rfl rewritten] at inside
      rw [same] at finished ⊢
      cases finished
      refine ⟨rfl, ⟨inside, fun append => by cases append⟩, ?_⟩
      exact (mgmt_stored config { entry with cmd := .mgmtSend send, dispatched := dispatched, zoneWp := zoneWp } send ftl next storage
        cleared status rfl online sent).1 success

include ran in
theorem attempt_failed (online : Online (dualParams config entry.loc) ftl) (done : Completion) (finished : attempt.done = some done)
    (failed : done.status ≠ .success) : attempt.storage = storage := by
  cases cmd : entry.cmd with
  | write rw data =>
      rw [cmd] at ran
      obtain ⟨outcome, _, same⟩ := attempt_write _ _ ftl storage req rw data attempt ran
      rw [same]
  | read rw data =>
      rw [cmd] at ran
      obtain ⟨result, next, _, same⟩ := attempt_read _ _ ftl storage req rw data attempt ran
      rw [same]
  | flush =>
      rw [cmd] at ran
      obtain ⟨result, next, _, same⟩ := attempt_flush _ _ ftl storage req attempt ran
      rw [same]
  | mgmtSend send =>
      rw [cmd] at ran
      obtain ⟨status, next, cleared, sent, same⟩ := attempt_mgmt _ _ ftl storage req send attempt ran
      rw [same] at finished ⊢
      cases finished
      exact (mgmt_stored config { entry with cmd := .mgmtSend send } send ftl next storage cleared status rfl online sent).2 failed

include waiting fits ran in
theorem attempt_stores (accounted : Accounted (dualParams config entry.loc) ftl) (online : Online (dualParams config entry.loc) ftl)
    (address : Nat) (changed : attempt.storage address ≠ storage address) : Covers config entry address := by
  cases finished : attempt.done with
  | none =>
      have stored := (attempt_again config entry ftl storage req attempt false 0 waiting fits ran accounted finished).1
      rw [stored] at changed
      exact absurd rfl changed
  | some done =>
      by_cases success : done.status = .success
      · obtain ⟨final, _, stored⟩ := attempt_through config entry ftl storage req attempt false 0 waiting fits ran accounted online done
          finished success
        cases kind : isWrite attempt.cmd with
        | true =>
            rw [stored, kind, if_pos rfl] at changed
            exact absurd rfl changed
        | false =>
            rw [stored, kind, if_neg (by decide)] at changed
            have same : attempt.cmd = entry.cmd := by
              cases cmd : entry.cmd with
              | write rw data =>
                  rw [final, cmd] at kind
                  cases kind
              | read rw data => rw [final, cmd, finalCommand]
              | flush => rw [final, cmd, finalCommand]
              | mgmtSend send => rw [final, cmd, finalCommand]
            by_contra outside
            rw [same, Overlay.overlay_none] at changed
            · exact changed rfl
            · have away : ¬Covers config { entry with cmd := entry.cmd, dispatched := false, zoneWp := 0 } address := outside
              simp only [given, if_neg away]
      · have stored := attempt_failed config entry ftl storage req attempt ran online done finished success
        rw [stored] at changed
        exact absurd rfl changed

end Attempting

end ConZone
