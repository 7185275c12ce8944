import ConZone.Device
import ConZone.FailedWrite

set_option autoImplicit false

namespace ConZone

def leBytes : Nat → Nat → List Nat
  | 0, _ => []
  | count + 1, value => value % 256 :: leBytes count (value / 256)

@[simp] theorem le_bytes_length (count value : Nat) : (leBytes count value).length = count := by
  induction count generalizing value with
  | zero => rfl
  | succ count ih => rw [leBytes, List.length_cons, ih]

def leValue : List Nat → Nat
  | [] => 0
  | byte :: rest => byte + 256 * leValue rest

theorem le_value_bytes (count value : Nat) (fits : value < 256 ^ count) : leValue (leBytes count value) = value := by
  induction count generalizing value with
  | zero =>
      rw [Nat.pow_zero] at fits
      simp only [leBytes, leValue]
      omega
  | succ count ih =>
      rw [Nat.pow_succ, Nat.mul_comm] at fits
      have rest := ih (value / 256) (Nat.div_lt_of_lt_mul fits)
      simp only [leBytes, leValue, rest]
      omega

def zoneStateCode : ZoneState → Nat
  | .empty => 0x1
  | .openedImpl => 0x2
  | .openedExpl => 0x3
  | .closed => 0x4
  | .readOnly => 0xD
  | .full => 0xE
  | .offline => 0xF

def zoneTypeSeqWriteRequired : Nat := 0x2

-- struct zone_descriptor and the fixed part of struct zone_report.
def descriptorBytes (desc : ZoneDescriptor) : List Nat :=
  [zoneTypeSeqWriteRequired, zoneStateCode desc.state * 16, if desc.zrwav then 8 else 0, 0] ++ leBytes 4 0
    ++ leBytes 8 desc.zoneCapacity ++ leBytes 8 desc.zslba ++ leBytes 8 desc.wp ++ List.replicate 32 0

def zoneDescriptorSize : Nat := 64
def zoneReportSize : Nat := 64

theorem descriptor_bytes_length (desc : ZoneDescriptor) : (descriptorBytes desc).length = zoneDescriptorSize := by
  simp [descriptorBytes, zoneDescriptorSize]

structure ZoneMgmtRecv where
  slba : Nat
  nrDw : Nat
  zra : Nat
  zraSpecificField : Nat
  zraSpecificFeatures : Bool
  dwFits : nrDw < 2 ^ 32

-- What the command reads of the zns_ftl it casts ns->ftls to, which both kinds
-- of zoned namespace begin with.
structure ReportedFtl where
  nrZones : Nat
  zoneLbas : Nat
  zoneDescs : Nat → ZoneDescriptor
  zonesFit : nrZones < 2 ^ 32
  lbasPositive : 0 < zoneLbas

def zmsReported (p : Params) (ftl : ZmsFtl) : ReportedFtl :=
  ⟨p.zpp.nrZones, zoneLbas p, ftl.zoneDescs, p.zpp.zonesFit, zone_lbas_positive p⟩

def reportedZone (ftl : ReportedFtl) (lba : Nat) : Nat := u32 (lba / ftl.zoneLbas)

structure Store where
  offset : Nat
  bytes : List Nat

def fillZoneReport (ftl : ReportedFtl) (cmd : ZoneMgmtRecv) (reportLen : Nat) : List Store :=
  let startZid := reportedZone ftl cmd.slba
  let nrZonesAvail := ftl.nrZones - startZid
  let header : Store := ⟨0, leBytes 8 (if cmd.zraSpecificFeatures then nrZonesAvail else nrZonesAvail)⟩
  if reportLen ≤ zoneReportSize then [header]
  else
    let maxDescs := (reportLen - zoneReportSize) / zoneDescriptorSize
    let nrDescToCopy := min nrZonesAvail maxDescs
    [header, ⟨zoneReportSize, (List.range' startZid nrDescToCopy).flatMap fun zid => descriptorBytes (ftl.zoneDescs zid)⟩]

def checkZmgmtRcvOptionSupported (ftl : ReportedFtl) (cmd : ZoneMgmtRecv) : Bool :=
  decide (reportedZone ftl cmd.slba < ftl.nrZones) && cmd.zra == 0 && cmd.zraSpecificField == 0

inductive RecvStatus where
  | success
  | internal
  | invalidField
  deriving DecidableEq

-- The status, the stores into the report buffer and the bytes that
-- __prp_transfer_data copies to the host.
structure RecvOutcome where
  status : RecvStatus
  stores : List Store
  sent : List Nat

-- The buffer starts out zeroed.
def bufferByte (stores : List Store) (offset : Nat) : Nat :=
  stores.foldl (fun byte store => if store.offset ≤ offset then (store.bytes[offset - store.offset]?).getD byte else byte) 0

def recvLength (cmd : ZoneMgmtRecv) : Nat := u32 (cmd.nrDw + 1) * 4

def znsZmgmtRecv (kvzalloc : Nat → Bool) (ftl : ReportedFtl) (cmd : ZoneMgmtRecv) : RecvOutcome :=
  let length := recvLength cmd
  if checkZmgmtRcvOptionSupported ftl cmd then
    if kvzalloc length then
      let stores := fillZoneReport ftl cmd length
      ⟨.success, stores, (List.range length).map (bufferByte stores)⟩
    else ⟨.internal, [], []⟩
  else ⟨.invalidField, [], []⟩

section Exact

variable (ftl : ReportedFtl) (cmd : ZoneMgmtRecv)

def askedLength : Nat := 4 * (cmd.nrDw + 1)

def remainingZones : Nat := ftl.nrZones - reportedZone ftl cmd.slba

def fittingDescs : Nat := (askedLength cmd - zoneReportSize) / zoneDescriptorSize

def returnedDescs : Nat := min (remainingZones ftl cmd) (fittingDescs cmd)

def announcedZones : Nat := if cmd.zraSpecificFeatures then returnedDescs ftl cmd else remainingZones ftl cmd

def zoneBytes (first count : Nat) : List Nat := (List.range' first count).flatMap fun zid => descriptorBytes (ftl.zoneDescs zid)

-- What the host asked for: nothing behind the length, the count of zones, and
-- the descriptors of the zones from the start zone on, as many as fit.
structure ExactReport (outcome : RecvOutcome) : Prop where
  inside : ∀ store ∈ outcome.stores, store.offset + store.bytes.length ≤ askedLength cmd
  length : outcome.sent.length = askedLength cmd
  header : outcome.sent.take 8 = (leBytes 8 (announcedZones ftl cmd)).take (askedLength cmd)
  descs : (outcome.sent.drop zoneReportSize).take (returnedDescs ftl cmd * zoneDescriptorSize) =
    zoneBytes ftl (reportedZone ftl cmd.slba) (returnedDescs ftl cmd)

theorem zone_bytes_length (first count : Nat) : (zoneBytes ftl first count).length = count * zoneDescriptorSize := by
  unfold zoneBytes
  induction count generalizing first with
  | zero => simp
  | succ count ih =>
      rw [List.range'_succ, List.flatMap_cons, List.length_append, ih, descriptor_bytes_length, Nat.add_mul]
      omega

theorem zone_bytes_add (first count more : Nat) :
    zoneBytes ftl first (count + more) = zoneBytes ftl first count ++ zoneBytes ftl (first + count) more := by
  unfold zoneBytes
  rw [← List.flatMap_append, List.range'_append_1]

theorem asked_length (bounded : cmd.nrDw + 1 < 2 ^ 32) : recvLength cmd = askedLength cmd := by
  unfold recvLength askedLength u32
  rw [Nat.mod_eq_of_lt bounded]
  omega

theorem returned_fits : zoneReportSize + returnedDescs ftl cmd * zoneDescriptorSize ≤ max zoneReportSize (askedLength cmd) := by
  have below : returnedDescs ftl cmd ≤ fittingDescs cmd := Nat.min_le_right _ _
  unfold fittingDescs zoneReportSize zoneDescriptorSize at *
  omega

def reportStores : List Store :=
  ⟨0, leBytes 8 (remainingZones ftl cmd)⟩ :: if askedLength cmd ≤ zoneReportSize then [] else
    [⟨zoneReportSize, zoneBytes ftl (reportedZone ftl cmd.slba) (returnedDescs ftl cmd)⟩]

theorem report_filled : fillZoneReport ftl cmd (askedLength cmd) = reportStores ftl cmd := by
  unfold fillZoneReport reportStores
  simp only [ite_self]
  split <;> rfl

theorem header_byte (offset : Nat) (inside : offset < 8) :
    bufferByte (reportStores ftl cmd) offset = ((leBytes 8 (remainingZones ftl cmd))[offset]?).getD 0 := by
  unfold bufferByte reportStores
  split
  · simp
  · have before : ¬zoneReportSize ≤ offset := by
      unfold zoneReportSize
      omega
    simp [before]

theorem desc_byte (offset : Nat) (inside : offset < returnedDescs ftl cmd * zoneDescriptorSize) :
    bufferByte (reportStores ftl cmd) (zoneReportSize + offset) =
      ((zoneBytes ftl (reportedZone ftl cmd.slba) (returnedDescs ftl cmd))[offset]?).getD 0 := by
  have fits := returned_fits ftl cmd
  have long : ¬askedLength cmd ≤ zoneReportSize := by omega
  have stored : offset < (zoneBytes ftl (reportedZone ftl cmd.slba) (returnedDescs ftl cmd)).length := by
    rw [zone_bytes_length]
    exact inside
  unfold bufferByte reportStores
  simp [long, List.getElem?_eq_getElem stored]

def reportBytes : List Nat := (List.range (askedLength cmd)).map (bufferByte (reportStores ftl cmd))

theorem sent_header (asked : 1 ≤ cmd.nrDw) : (reportBytes ftl cmd).take 8 = leBytes 8 (remainingZones ftl cmd) := by
  have room : 8 ≤ askedLength cmd := by
    unfold askedLength
    omega
  apply List.ext_getElem
  · simp [reportBytes, room]
  · intro offset left right
    have inside : offset < 8 := by simpa using right
    simp [reportBytes, header_byte ftl cmd offset inside, inside]

theorem sent_descs : ((reportBytes ftl cmd).drop zoneReportSize).take (returnedDescs ftl cmd * zoneDescriptorSize) =
    zoneBytes ftl (reportedZone ftl cmd.slba) (returnedDescs ftl cmd) := by
  have fits := returned_fits ftl cmd
  have sized := zone_bytes_length ftl (reportedZone ftl cmd.slba) (returnedDescs ftl cmd)
  apply List.ext_getElem
  · simp only [reportBytes, List.length_take, List.length_drop, List.length_map, List.length_range, sized]
    omega
  · intro offset left right
    have inside : offset < returnedDescs ftl cmd * zoneDescriptorSize := by
      rw [← sized]
      exact right
    have byte := desc_byte ftl cmd offset inside
    rw [List.getElem?_eq_getElem right, Option.getD_some] at byte
    simpa [reportBytes] using byte

variable (kvzalloc : Nat → Bool) (supported : checkZmgmtRcvOptionSupported ftl cmd = true)

include supported in
theorem recv_granted (granted : kvzalloc (recvLength cmd) = true) (bounded : cmd.nrDw + 1 < 2 ^ 32) :
    znsZmgmtRecv kvzalloc ftl cmd = ⟨.success, reportStores ftl cmd, reportBytes ftl cmd⟩ := by
  rw [asked_length cmd bounded] at granted
  unfold znsZmgmtRecv reportBytes
  simp only [asked_length cmd bounded, supported, granted, if_true, report_filled]

include supported in
theorem recv_refused (refused : kvzalloc (recvLength cmd) = false) : znsZmgmtRecv kvzalloc ftl cmd = ⟨.internal, [], []⟩ := by
  unfold znsZmgmtRecv
  simp only [supported, refused, if_true, Bool.false_eq_true, if_false]

include supported in
theorem sent_length (granted : kvzalloc (recvLength cmd) = true) : (znsZmgmtRecv kvzalloc ftl cmd).sent.length = recvLength cmd := by
  unfold znsZmgmtRecv
  simp [supported, granted]

-- A whole header is asked for, nr_dw + 1 does not wrap, and a partial report
-- reaches the last zone.
structure ReportsExactly : Prop where
  granted : kvzalloc (recvLength cmd) = true
  header : 1 ≤ cmd.nrDw
  bounded : cmd.nrDw + 1 < 2 ^ 32
  reaches : cmd.zraSpecificFeatures = true → remainingZones ftl cmd ≤ fittingDescs cmd

theorem remaining_fits : remainingZones ftl cmd < 256 ^ 8 := by
  have fits := ftl.zonesFit
  unfold remainingZones
  omega

theorem announced_reaching (reaches : cmd.zraSpecificFeatures = true → remainingZones ftl cmd ≤ fittingDescs cmd) :
    announcedZones ftl cmd = remainingZones ftl cmd := by
  unfold announcedZones returnedDescs
  split
  · rename_i flagged
    exact Nat.min_eq_left (reaches flagged)
  · rfl

include supported in
theorem exact_of (reports : ReportsExactly ftl cmd kvzalloc) : ExactReport ftl cmd (znsZmgmtRecv kvzalloc ftl cmd) := by
  have header := reports.header
  have room : 8 ≤ askedLength cmd := by
    unfold askedLength
    omega
  rw [recv_granted ftl cmd kvzalloc supported reports.granted reports.bounded]
  constructor
  · intro store member
    have fits := returned_fits ftl cmd
    unfold reportStores at member
    rcases List.mem_cons.mp member with rfl | member
    · simpa using room
    · split at member
      · cases member
      · rw [List.mem_singleton.mp member, zone_bytes_length]
        dsimp only
        omega
  · simp [reportBytes]
  · rw [sent_header ftl cmd header, announced_reaching ftl cmd reports.reaches, List.take_of_length_le]
    rwa [le_bytes_length]
  · exact sent_descs ftl cmd

include supported in
theorem reports_of (exact : ExactReport ftl cmd (znsZmgmtRecv kvzalloc ftl cmd)) : ReportsExactly ftl cmd kvzalloc := by
  have dwFits := cmd.dwFits
  have granted : kvzalloc (recvLength cmd) = true := by
    by_contra refused
    have length := exact.length
    rw [recv_refused ftl cmd kvzalloc supported (by simpa using refused)] at length
    unfold askedLength at length
    simp at length
  have bounded : cmd.nrDw + 1 < 2 ^ 32 := by
    by_contra wraps
    have last : cmd.nrDw = 2 ^ 32 - 1 := by omega
    have length := exact.length
    rw [sent_length ftl cmd kvzalloc supported granted] at length
    unfold recvLength askedLength at length
    rw [last] at length
    exact absurd length (by decide)
  have inside := exact.inside
  have told := exact.header
  rw [recv_granted ftl cmd kvzalloc supported granted bounded] at inside told
  have header : 1 ≤ cmd.nrDw := by
    have first := inside _ (List.mem_cons_self ..)
    simp only [le_bytes_length, askedLength] at first
    omega
  refine ⟨granted, header, bounded, ?_⟩
  intro flagged
  have room : 8 ≤ askedLength cmd := by
    unfold askedLength
    omega
  have announced : announcedZones ftl cmd = returnedDescs ftl cmd := by simp [announcedZones, flagged]
  have returned : returnedDescs ftl cmd ≤ remainingZones ftl cmd := Nat.min_le_left _ _
  have remaining := remaining_fits ftl cmd
  rw [sent_header ftl cmd header, announced, List.take_of_length_le (by rwa [le_bytes_length])] at told
  have same := congrArg leValue told
  rw [le_value_bytes 8 _ remaining, le_value_bytes 8 _ (Nat.lt_of_le_of_lt returned remaining)] at same
  rw [same]
  exact Nat.min_le_right _ _

end Exact

-- A host that takes the zones from the report it was sent and asks again from
-- the first one it has not seen.
def hostCount (cmd : ZoneMgmtRecv) (sent : List Nat) : Nat :=
  if cmd.zraSpecificFeatures then leValue (sent.take 8)
  else min (leValue (sent.take 8)) ((sent.length - zoneReportSize) / zoneDescriptorSize)

def hostScan (kvzalloc : Nat → Bool) (ftl : ReportedFtl) : Nat → ZoneMgmtRecv → List Nat
  | 0, _ => []
  | rounds + 1, cmd =>
      let sent := (znsZmgmtRecv kvzalloc ftl cmd).sent
      let next := reportedZone ftl cmd.slba + hostCount cmd sent
      (sent.drop zoneReportSize).take (hostCount cmd sent * zoneDescriptorSize) ++
        if next < ftl.nrZones then hostScan kvzalloc ftl rounds { cmd with slba := next * ftl.zoneLbas } else []

section Scan

variable (ftl : ReportedFtl) (cmd : ZoneMgmtRecv) (kvzalloc : Nat → Bool)

theorem reported_zone_of (zid : Nat) (inside : zid < ftl.nrZones) : reportedZone ftl (zid * ftl.zoneLbas) = zid := by
  have fits := ftl.zonesFit
  unfold reportedZone u32
  rw [Nat.mul_div_cancel _ ftl.lbasPositive]
  exact Nat.mod_eq_of_lt (by omega)

theorem host_count (reports : ReportsExactly ftl cmd kvzalloc) : hostCount cmd (reportBytes ftl cmd) = returnedDescs ftl cmd := by
  have length : (reportBytes ftl cmd).length = askedLength cmd := by simp [reportBytes]
  unfold hostCount
  rw [sent_header ftl cmd reports.header, le_value_bytes 8 _ (remaining_fits ftl cmd), length]
  split
  · rename_i flagged
    exact (Nat.min_eq_left (reports.reaches flagged)).symm
  · rfl

theorem scan_sees (rounds : Nat) (supported : checkZmgmtRcvOptionSupported ftl cmd = true)
    (reports : ReportsExactly ftl cmd kvzalloc) :
    hostScan kvzalloc ftl rounds cmd =
      zoneBytes ftl (reportedZone ftl cmd.slba) (min (rounds * fittingDescs cmd) (remainingZones ftl cmd)) := by
  induction rounds generalizing cmd with
  | zero => simp [hostScan, zoneBytes]
  | succ rounds ih =>
      have returned : returnedDescs ftl cmd = min (remainingZones ftl cmd) (fittingDescs cmd) := rfl
      have started : reportedZone ftl cmd.slba < ftl.nrZones := by
        simp only [checkZmgmtRcvOptionSupported, Bool.and_eq_true, decide_eq_true_eq] at supported
        exact supported.1.1
      have rest : remainingZones ftl cmd = ftl.nrZones - reportedZone ftl cmd.slba := rfl
      unfold hostScan
      dsimp only
      rw [recv_granted ftl cmd kvzalloc supported reports.granted reports.bounded]
      dsimp only
      rw [host_count ftl cmd kvzalloc reports, sent_descs]
      have grown : (rounds + 1) * fittingDescs cmd = rounds * fittingDescs cmd + fittingDescs cmd := Nat.succ_mul _ _
      split
      · -- More zones remain than the report holds.
        rename_i more
        have zone := reported_zone_of ftl _ more
        have full : returnedDescs ftl cmd = fittingDescs cmd := by omega
        have left : remainingZones ftl { cmd with slba := (reportedZone ftl cmd.slba + returnedDescs ftl cmd) * ftl.zoneLbas } =
            remainingZones ftl cmd - fittingDescs cmd := by
          unfold remainingZones
          rw [zone, full]
          omega
        rw [ih { cmd with slba := (reportedZone ftl cmd.slba + returnedDescs ftl cmd) * ftl.zoneLbas } ?_ ?_, left, zone]
        · rw [← zone_bytes_add, full]
          congr 1
          have same : fittingDescs { cmd with slba := (reportedZone ftl cmd.slba + fittingDescs cmd) * ftl.zoneLbas } = fittingDescs cmd := rfl
          rw [same]
          omega
        · simp only [checkZmgmtRcvOptionSupported, zone, Bool.and_eq_true, decide_eq_true_eq] at supported ⊢
          exact ⟨⟨more, supported.1.2⟩, supported.2⟩
        · refine ⟨reports.granted, reports.header, reports.bounded, ?_⟩
          intro flagged
          have reaches := reports.reaches flagged
          omega
      · rename_i last
        have whole : returnedDescs ftl cmd = remainingZones ftl cmd := by omega
        rw [List.append_nil, whole]
        congr 1
        omega

-- The host sees every zone once, in order, as soon as the rounds have room for
-- all of them.
theorem zone_report_exact (supported : checkZmgmtRcvOptionSupported ftl cmd = true) :
    (ExactReport ftl cmd (znsZmgmtRecv kvzalloc ftl cmd) ↔ ReportsExactly ftl cmd kvzalloc) ∧
    (ReportsExactly ftl cmd kvzalloc → ∀ rounds, hostScan kvzalloc ftl rounds cmd =
      zoneBytes ftl (reportedZone ftl cmd.slba) (min (rounds * fittingDescs cmd) (remainingZones ftl cmd))) :=
  ⟨⟨reports_of ftl cmd kvzalloc supported, exact_of ftl cmd kvzalloc supported⟩, fun reports rounds =>
    scan_sees ftl cmd kvzalloc rounds supported reports⟩

end Scan

def sampleReported : ReportedFtl := zmsReported (dualParams sampleConfig .pslc) (zmsRealizeFtl (dualParams sampleConfig .pslc) 0)

theorem zone_report_exact_two_rounds :
    hostScan (fun size => decide (size ≤ 2 ^ 31 - 1)) sampleReported 2 ⟨0, 47, 0, 0, false, by decide⟩ = zoneBytes sampleReported 0 4 :=
  (zone_report_exact sampleReported ⟨0, 47, 0, 0, false, by decide⟩ (fun size => decide (size ≤ 2 ^ 31 - 1)) (by decide)).2
    ⟨by decide, by decide, by decide, by decide⟩ 2

-- A partial report of 128 bytes holds one descriptor and announces four zones.
theorem partial_report_overcounts : ¬∀ (config : DualConfig) (loc : Loc) (ftl : ZmsFtl) (cmd : ZoneMgmtRecv),
    Reachable (dualParams config loc) (fun _ _ => True) ftl →
      checkZmgmtRcvOptionSupported (zmsReported (dualParams config loc) ftl) cmd = true →
      ExactReport (zmsReported (dualParams config loc) ftl) cmd
        (znsZmgmtRecv (fun _ => true) (zmsReported (dualParams config loc) ftl) cmd) := by
  intro claim
  have reached : Reachable (dualParams sampleConfig .pslc) (fun _ _ => True) (zmsRealizeFtl (dualParams sampleConfig .pslc) 0) :=
    .start _ ⟨0, rfl⟩
  have exact := claim sampleConfig .pslc _ ⟨0, 31, 0, 0, true, by decide⟩ reached (by decide)
  exact absurd exact.header (by decide +kernel)

end ConZone
