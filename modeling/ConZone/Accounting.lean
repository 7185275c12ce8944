import ConZone.Written
import ConZone.Batches
import ConZone.SlcMaps
import ConZone.OnlyLines
import ConZone.Device

set_option autoImplicit false

namespace ConZone

-- One nand_write of a call: the LPN its mapping step gives a page, the page its
-- own LPN is on after that, and the command it submits with its completion time.
structure PageWrite where
  lpn : Nat
  loc : Loc
  last : Bool
  mapped : Option Nat
  place : Option Page
  command : Option (NandCmd × Nat)

-- The nand_write calls of one loop over pages, and those of every collection and
-- internal write started meanwhile, call by call.
structure Trace where
  own : List PageWrite
  inner : List (List PageWrite)

def Trace.append (first second : Trace) : Trace := ⟨first.own ++ second.own, first.inner ++ second.inner⟩

def Trace.calls (trace : Trace) : List (List PageWrite) := trace.own :: trace.inner

section Writing

variable (p : Params)

-- Either the LPN moves on to the next page of its reserved unit, or the unit is
-- reserved anew and its first LPN takes the page of the write pointer.
def mappedLpn (ftl : ZmsFtl) (lpn : Nat) (loc : Loc) (ioType : IoType) : Option Nat :=
  match updateMappingIfReserved p ftl lpn loc ioType with
  | some _ => some lpn
  | none => if locFull ftl loc then none else some (unitStart p lpn loc)

def placeOf (ftl : ZmsFtl) (lpn : Nat) (loc : Loc) : Option Page :=
  match getMaptblEnt p ftl lpn with
  | .mapped page _ => if locFull ftl loc then none else some page
  | _ => none

def swr (start : Nat) (loc : Loc) (ioType : IoType) (toWritePgs : Nat) (page : Page) : NandCmd :=
  { type := ioType, cmd := .nandWrite, xferSize := min toWritePgs (oneshotOf p loc) * pgsz, stime := start, page := page,
    ctime := 2 ^ 64 - 1 }

def submitted (ftl : ZmsFtl) (ioType : IoType) (command : NandCmd) : Option (NandCmd × Nat) :=
  if ioType ≠ .gcIo ∨ p.zpp.enableGcDelay then some (command, (ssdAdvanceNand p.spp ftl.timing command).1) else none

def isProgramPoint (lpn elpn : Nat) (page : Page) : Bool := isLastPgInWordline p page || lpn == elpn

def pageWrite (ftl mapped : ZmsFtl) (start lpn : Nat) (loc : Loc) (ioType : IoType) (toWritePgs elpn : Nat) : PageWrite :=
  { lpn := lpn, loc := loc, last := lpn == elpn, mapped := mappedLpn p ftl lpn loc ioType, place := placeOf p mapped lpn loc,
    command := (placeOf p mapped lpn loc).bind fun page =>
      if isProgramPoint p lpn elpn page then submitted p mapped ioType (swr p start loc ioType toWritePgs page) else none }

variable (collected : ZmsFtl → Loc → List (List PageWrite))

def refillCalls (ftl : ZmsFtl) (loc : Loc) : List (List PageWrite) :=
  if (ftl.wfc loc).writeCredits ≤ 0 then collected ftl loc else []

def nandWriteTrace (ftl : ZmsFtl) (start lpn : Nat) (loc : Loc) (ioType : IoType) (toWritePgs elpn : Nat) : Trace :=
  match updateOrReserveMapping p ftl lpn loc ioType with
  | .error _ => ⟨[], []⟩
  | .ok mapped =>
      ⟨[pageWrite p ftl mapped start lpn loc ioType toWritePgs elpn],
        match placeOf p mapped lpn loc with
        | none => []
        | some page =>
            if takesCredit p loc ioType then
              refillCalls collected
                (consumeWriteCredit (programPage p mapped start lpn loc ioType toWritePgs elpn page).2 loc) loc
            else []⟩

variable (collect : ZmsFtl → Loc → Exec ZmsFtl) (prepare : ZmsFtl → Nat → ZmsFtl)

-- The page loop that internal_write and buffer_flush share: what they do to an
-- LPN before it is written is their own.
def writePages (ioType : IoType) (loc : Loc) (start elpn : Nat) : List Nat → FlushState → Exec FlushState
  | [], state => .ok state
  | lpn :: rest, state => do
      let (time, ftl) ← nandWrite collect p (prepare state.ftl lpn) start lpn loc ioType (state.toWritePgs + 1) elpn
      writePages ioType loc start elpn rest
        ⟨ftl, if time ≠ start then 0 else state.toWritePgs + 1, max state.latest time⟩

def writePagesTrace (ioType : IoType) (loc : Loc) (start elpn : Nat) : List Nat → FlushState → Trace
  | [], _ => ⟨[], []⟩
  | lpn :: rest, state =>
      (nandWriteTrace p collected (prepare state.ftl lpn) start lpn loc ioType (state.toWritePgs + 1) elpn).append
        (match nandWrite collect p (prepare state.ftl lpn) start lpn loc ioType (state.toWritePgs + 1) elpn with
        | .error _ => ⟨[], []⟩
        | .ok (time, ftl) => writePagesTrace ioType loc start elpn rest
            ⟨ftl, if time ≠ start then 0 else state.toWritePgs + 1, max state.latest time⟩)

def internalWriteTrace (ftl : ZmsFtl) (lpns : List Nat) (ioType : IoType) (loc : Loc) (start : Nat) : Trace :=
  let (writeStart, ftl) := nandRead p ftl lpns ioType start
  writePagesTrace p collected collect (dropIfMapped p) ioType loc writeStart (lpns.getLast?.getD 0) lpns ⟨ftl, 0, writeStart⟩

end Writing

section Collecting

variable (p : Params)

def gcFlushCalls (ftl : ZmsFtl) (agg : List Nat) (loc : Loc) : List (List PageWrite) :=
  if agg.length = oneshotOf p loc then (internalWriteTrace p (fun _ _ => []) noCollect ftl agg .gcIo loc 0).calls else []

def gcVisitCalls (loc : Loc) (scan : GcScan) (page : Page) : List (List PageWrite) :=
  if pageStatus scan.ftl page = .valid then
    gcFlushCalls p scan.ftl (scan.agg ++ [(getRmapEnt p scan.ftl page).getD invalidLpn]) loc
  else []

def gcScanCalls (loc : Loc) : Nat → GcScan → Option Page → List (List PageWrite)
  | _, _, none => []
  | 0, _, some _ => []
  | fuel + 1, scan, some page =>
      gcVisitCalls p loc scan page ++
        match gcVisit p loc scan page with
        | .error _ => []
        | .ok scan => gcScanCalls loc fuel scan (gcNext p scan.ftl page)

def gcRestCalls (loc : Loc) (scan : GcScan) : List (List PageWrite) :=
  if scan.agg = [] then []
  else if loc = .normal then []
  else (internalWriteTrace p (fun _ _ => []) noCollect scan.ftl scan.agg .gcIo .pslc 0).calls

def submitInternalCalls (ftl : ZmsFtl) (ref : LineRef) : List (List PageWrite) :=
  let first := getFirstPage p ref
  let loc := getLineLocation p ref
  gcScanCalls p loc (pagesBound p) (gcStart ftl loc) (some first) ++
    match gcScan p loc (pagesBound p) (gcStart ftl loc) (some first) with
    | .error _ => []
    | .ok scan => gcRestCalls p loc scan

def doGcCalls (ftl : ZmsFtl) (force : Bool) (loc : Loc) : List (List PageWrite) :=
  match selectVictimLine p ftl force loc with
  | none => []
  | some (victim, ftl) =>
      let line := ftl.lm.lines victim
      submitInternalCalls p (setCreditsToRefill ftl loc (line.ipc + line.rpc)) victim

def foregroundCalls (ftl : ZmsFtl) (loc : Loc) : List (List PageWrite) :=
  if shouldGcHigh p ftl loc then
    let ftl := setCreditsToRefill ftl loc 0
    if anyFull ftl then [] else doGcCalls p ftl true loc
  else []

end Collecting

section Flushing

variable (p : Params)

-- What a flush does to an LPN before it is written.
def readyPage (loc : Loc) (zid : Nat) (ftl : ZmsFtl) (lpn : Nat) : ZmsFtl :=
  let ftl := countInplace p ftl lpn
  if !zmsIsDualNs p.zpp.nsType && loc == .pslc then putAgg ftl zid (ftl.zoneAggLpns zid ++ [lpn]) else ftl

def flushRoundTrace (start elpn zid : Nat) (lpns : List Nat) (state : FlushState) : Trace :=
  let loc := getFlushTargetLocation p state.ftl lpns
  let agg := state.ftl.zoneAggLpns zid
  if loc = .normal ∧ agg ≠ [] then
    let pgs := p.spp.pgsPerOneshotpg - agg.length
    ⟨[], (internalWriteTrace p (foregroundCalls p) (foregroundGc p) state.ftl (agg ++ lpns.take pgs) .userIo .normal start).calls⟩
  else
    let pgs := min (oneshotOf p loc) lpns.length
    writePagesTrace p (foregroundCalls p) (foregroundGc p) (readyPage p loc zid) .userIo loc start elpn (lpns.take pgs) state

def flushRoundsTrace (start elpn zid : Nat) : Nat → List Nat → FlushState → Trace
  | _, [], _ => ⟨[], []⟩
  | 0, _ :: _, _ => ⟨[], []⟩
  | fuel + 1, lpns, state =>
      (flushRoundTrace p start elpn zid lpns state).append
        (match flushRound p start elpn zid lpns state with
        | .error _ => ⟨[], []⟩
        | .ok (rest, state) => if anyFull state.ftl then ⟨[], []⟩ else flushRoundsTrace start elpn zid fuel rest state)

def bufferFlushTrace (ftl : ZmsFtl) (index start : Nat) : Trace :=
  let buffer := ftl.writeBuffer index
  let elpn := buffer.lpns.getLast?.getD invalidLpn
  let zid := lpnToZone p (buffer.lpns.headD invalidLpn)
  flushRoundsTrace p start elpn zid buffer.pgs buffer.lpns ⟨ftl, 0, start⟩

inductive PageCall where
  | flush (index start : Nat)
  | internal (lpns : List Nat) (ioType : IoType) (loc : Loc) (start : Nat)

def runCall (ftl : ZmsFtl) : PageCall → Exec (Nat × ZmsFtl)
  | .flush index start => bufferFlush p ftl index start
  | .internal lpns ioType loc start => internalWrite (foregroundGc p) p ftl lpns ioType loc start

def callTrace (ftl : ZmsFtl) : PageCall → Trace
  | .flush index start => bufferFlushTrace p ftl index start
  | .internal lpns ioType loc start => internalWriteTrace p (foregroundCalls p) (foregroundGc p) ftl lpns ioType loc start

end Flushing

section Sums

variable (p : Params)

def writtenPgs (write : PageWrite) : Nat :=
  match write.command with
  | some (command, _) => command.xferSize / pgsz
  | none => 0

def callPgs (call : List PageWrite) : Nat := (call.map writtenPgs).sum

-- The sum of xfer_size/pgsz over the NAND_WRITE commands of all the calls.
def writtenPages (calls : List (List PageWrite)) : Nat := (calls.map callPgs).sum

-- The pages that LPNs are newly mapped to.
def newlyMapped (calls : List (List PageWrite)) : Nat := (calls.map fun call => call.countP fun write => write.mapped.isSome).sum

-- Every NAND command completes later than it starts.
def CompleteLater (call : List PageWrite) : Prop :=
  ∀ write ∈ call, ∀ submission ∈ write.command, submission.1.stime < submission.2

instance (call : List PageWrite) : Decidable (CompleteLater call) :=
  inferInstanceAs (Decidable (∀ write ∈ call, ∀ submission ∈ write.command, submission.1.stime < submission.2))

-- Where a program command is issued: at the last page of a wordline and at the
-- last LPN of the call.
def programs (write : PageWrite) : Bool :=
  match write.place with
  | some page => isLastPgInWordline p page || write.last
  | none => false

def oneshotPgs (write : PageWrite) : Nat := oneshotOf p write.loc

-- From one program command to the next there are at most the pages of a one-shot
-- page, and the call's last page is one where a command is issued.
def WholeBatches (call : List PageWrite) : Prop := Batches.Whole (programs p) (oneshotPgs p) 0 call

instance (call : List PageWrite) : Decidable (WholeBatches p call) := Batches.decidableWhole (programs p) (oneshotPgs p) 0 call

-- What the counter and the commands of a call follow from: the pages its LPNs
-- are given.
structure Batched (call : List PageWrite) : Prop where
  mapped : ∀ write ∈ call, write.mapped.isSome = true
  sent : CompleteLater call → callPgs call = Batches.sent (programs p) (oneshotPgs p) 0 call

structure CallsAccount (before after : ZmsFtl) (calls : List (List PageWrite)) : Prop where
  step : MediaStep before after
  written : deviceWritten after = deviceWritten before + writtenPages calls
  batched : anyFull after = false → ∀ call ∈ calls, Batched p call

-- What a stretch of a loop over pages changes, from one number of pages waiting
-- to be programmed to another.
structure PagesAccount (before after : FlushState) (trace : Trace) : Prop where
  step : MediaStep before.ftl after.ftl
  written : deviceWritten after.ftl = deviceWritten before.ftl + callPgs trace.own + writtenPages trace.inner
  batched : anyFull after.ftl = false → ∀ call ∈ trace.inner, Batched p call
  mapped : anyFull after.ftl = false → ∀ write ∈ trace.own, write.mapped.isSome = true
  sent : CompleteLater trace.own →
    callPgs trace.own = Batches.sent (programs p) (oneshotPgs p) before.toWritePgs trace.own
  waiting : CompleteLater trace.own → after.toWritePgs = Batches.left (programs p) before.toWritePgs trace.own

theorem call_pgs_append (first second : List PageWrite) : callPgs (first ++ second) = callPgs first + callPgs second := by
  simp [callPgs]

theorem written_pages_append (first second : List (List PageWrite)) :
    writtenPages (first ++ second) = writtenPages first + writtenPages second := by
  simp [writtenPages]

theorem calls_account_none (before after : ZmsFtl) (step : MediaStep before after) (same : deviceWritten after = deviceWritten before) :
    CallsAccount p before after [] :=
  ⟨step, same, fun _ _ member => absurd member List.not_mem_nil⟩

theorem calls_account_trans (first second third : ZmsFtl) (left right : List (List PageWrite))
    (before : CallsAccount p first second left) (after : CallsAccount p second third right) :
    CallsAccount p first third (left ++ right) := by
  refine ⟨media_step_trans _ _ _ before.step after.step, ?_, ?_⟩
  · rw [after.written, before.written, written_pages_append, Nat.add_assoc]
  · intro clear call member
    cases List.mem_append.mp member with
    | inl earlier => exact before.batched (media_step_clear _ _ after.step clear) call earlier
    | inr later => exact after.batched clear call later

theorem calls_account_around (start first last finish : ZmsFtl) (calls : List (List PageWrite)) (before : MediaStep start first)
    (none : deviceWritten first = deviceWritten start) (account : CallsAccount p first last calls) (after : MediaStep last finish)
    (same : deviceWritten finish = deviceWritten last) : CallsAccount p start finish calls := by
  have opened := calls_account_trans p _ _ _ _ _ (calls_account_none p start first before none) account
  have closed := calls_account_trans p _ _ _ _ _ opened (calls_account_none p last finish after same)
  simpa using closed

theorem pages_account_refl (state : FlushState) : PagesAccount p state state ⟨[], []⟩ :=
  ⟨media_step_refl state.ftl, rfl, fun _ _ member => absurd member List.not_mem_nil,
    fun _ _ member => absurd member List.not_mem_nil, fun _ => rfl, fun _ => rfl⟩

theorem pages_account_trans (first second third : FlushState) (left right : Trace) (before : PagesAccount p first second left)
    (after : PagesAccount p second third right) : PagesAccount p first third (left.append right) := by
  have clearBefore := media_step_clear _ _ after.step
  have laterLeft : CompleteLater (left.append right).own → CompleteLater left.own :=
    fun later write member => later write (List.mem_append_left _ member)
  have laterRight : CompleteLater (left.append right).own → CompleteLater right.own :=
    fun later write member => later write (List.mem_append_right _ member)
  refine ⟨media_step_trans _ _ _ before.step after.step, ?_, ?_, ?_, ?_, ?_⟩
  · rw [after.written, before.written]
    simp only [Trace.append, call_pgs_append, written_pages_append]
    omega
  · intro clear call member
    cases List.mem_append.mp member with
    | inl earlier => exact before.batched (clearBefore clear) call earlier
    | inr later => exact after.batched clear call later
  · intro clear write member
    cases List.mem_append.mp member with
    | inl earlier => exact before.mapped (clearBefore clear) write earlier
    | inr later => exact after.mapped clear write later
  · intro later
    simp only [Trace.append]
    rw [call_pgs_append, Batches.sent_append, before.sent (laterLeft later), after.sent (laterRight later),
      before.waiting (laterLeft later)]
  · intro later
    simp only [Trace.append]
    rw [Batches.left_append, after.waiting (laterRight later), before.waiting (laterLeft later)]

theorem pages_account_silent (before after : ZmsFtl) (waiting latest latest' : Nat) (write : PageWrite) (step : MediaStep before after)
    (same : deviceWritten after = deviceWritten before) (given : anyFull after = false → write.mapped.isSome = true)
    (silent : write.command = none) (between : programs p write = false) :
    PagesAccount p ⟨before, waiting, latest⟩ ⟨after, waiting + 1, latest'⟩ ⟨[write], []⟩ := by
  have pages : callPgs [write] = 0 := by simp [callPgs, writtenPgs, silent]
  refine ⟨step, ?_, fun _ _ member => absurd member List.not_mem_nil, ?_, fun _ => ?_, fun _ => ?_⟩
  · rw [pages]
    exact same
  · intro clear other member
    rw [List.mem_singleton.mp member]
    exact given clear
  · rw [pages]
    simp [Batches.sent, between]
  · simp [Batches.left, between]

theorem pages_account_inner (state : FlushState) (last : ZmsFtl) (latest : Nat) (calls : List (List PageWrite))
    (account : CallsAccount p state.ftl last calls) :
    PagesAccount p state ⟨last, state.toWritePgs, latest⟩ ⟨[], calls⟩ := by
  refine ⟨account.step, account.written, account.batched, ?_, fun _ => rfl, fun _ => rfl⟩
  exact fun _ _ member => absurd member List.not_mem_nil

theorem pages_account_calls (before after : FlushState) (trace : Trace) (account : PagesAccount p before after trace)
    (fresh : before.toWritePgs = 0) : CallsAccount p before.ftl after.ftl trace.calls := by
  refine ⟨account.step, ?_, ?_⟩
  · rw [account.written, Nat.add_assoc]
    rfl
  · intro clear call member
    cases List.mem_cons.mp member with
    | inl own =>
        rw [own]
        refine ⟨account.mapped clear, fun later => ?_⟩
        rw [account.sent later, fresh]
    | inr inner => exact account.batched clear call inner

end Sums

section Pages

variable (p : Params) (delay : p.zpp.enableGcDelay = true)
variable (collect : ZmsFtl → Loc → Exec ZmsFtl) (collected : ZmsFtl → Loc → List (List PageWrite))
variable (collects : ∀ ftl loc next, collect ftl loc = .ok next → CallsAccount p ftl next (collected ftl loc))

theorem any_full_loc (ftl : ZmsFtl) (loc : Loc) (clear : anyFull ftl = false) : locFull ftl loc = false := by
  unfold anyFull at clear
  rw [Bool.or_eq_false_iff] at clear
  cases loc with
  | normal => exact clear.1
  | pslc => exact clear.2

theorem mapped_lpn_clear (ftl : ZmsFtl) (lpn : Nat) (loc : Loc) (ioType : IoType) (clear : anyFull ftl = false) :
    (mappedLpn p ftl lpn loc ioType).isSome = true := by
  unfold mappedLpn
  split
  · rfl
  · rw [any_full_loc ftl loc clear]
    rfl

include collects in
theorem refill_account (ftl next : ZmsFtl) (loc : Loc) (ran : checkAndRefillWriteCredit collect ftl loc = .ok next) :
    CallsAccount p ftl next (refillCalls collected ftl loc) := by
  unfold checkAndRefillWriteCredit at ran
  unfold refillCalls
  split at ran
  · rename_i spent
    obtain ⟨middle, collecting, rest⟩ := bind_ok _ _ _ ran
    rw [if_pos spent, ← pure_ok _ _ rest]
    have account := collects ftl loc middle collecting
    exact calls_account_around p ftl ftl middle _ _ (media_step_refl ftl) rfl account ⟨rfl, id, id⟩ rfl
  · rename_i left
    rw [if_neg left, ← pure_ok _ _ ran]
    exact calls_account_none p ftl ftl (media_step_refl ftl) rfl

theorem program_page_not (ftl : ZmsFtl) (start lpn : Nat) (loc : Loc) (ioType : IoType) (toWritePgs elpn : Nat) (page : Page)
    (between : isProgramPoint p lpn elpn page = false) :
    programPage p ftl start lpn loc ioType toWritePgs elpn page = (start, ftl) := by
  unfold isProgramPoint at between
  unfold programPage
  rw [if_neg (by rw [between]; exact Bool.false_ne_true)]

theorem internal_write_pages (ioType : IoType) (loc : Loc) (start elpn : Nat) (lpns : List Nat) (ftl : ZmsFtl)
    (toWritePgs latest : Nat) :
    internalWriteLoop collect p ioType loc start elpn lpns ftl toWritePgs latest =
      (do
        let state ← writePages p collect (dropIfMapped p) ioType loc start elpn lpns ⟨ftl, toWritePgs, latest⟩
        pure (state.latest, state.ftl)) := by
  induction lpns generalizing ftl toWritePgs latest with
  | nil => rfl
  | cons lpn rest ih =>
      unfold internalWriteLoop writePages
      cases nandWrite collect p (dropIfMapped p ftl lpn) start lpn loc ioType (toWritePgs + 1) elpn with
      | error fault => rfl
      | ok written => exact ih written.2 _ _

include delay in
theorem program_page_point (ftl : ZmsFtl) (start lpn : Nat) (loc : Loc) (ioType : IoType) (toWritePgs elpn : Nat) (page : Page)
    (point : isProgramPoint p lpn elpn page = true) :
    submitted p ftl ioType (swr p start loc ioType toWritePgs page) =
        some (swr p start loc ioType toWritePgs page, (ssdAdvanceNand p.spp ftl.timing (swr p start loc ioType toWritePgs page)).1) ∧
      (programPage p ftl start lpn loc ioType toWritePgs elpn page).1 =
        max (ssdAdvanceNand p.spp ftl.timing (swr p start loc ioType toWritePgs page)).1 start ∧
      deviceWritten (programPage p ftl start lpn loc ioType toWritePgs elpn page).2 =
        deviceWritten ftl + min toWritePgs (oneshotOf p loc) := by
  have issued : ioType ≠ .gcIo ∨ p.zpp.enableGcDelay = true := .inr delay
  unfold isProgramPoint at point
  unfold submitted programPage
  rw [if_pos issued, if_pos point, if_pos issued]
  exact ⟨rfl, rfl, rfl⟩

theorem swr_pages (start : Nat) (loc : Loc) (ioType : IoType) (toWritePgs : Nat) (page : Page) :
    (swr p start loc ioType toWritePgs page).xferSize / pgsz = min toWritePgs (oneshotOf p loc) :=
  Nat.mul_div_cancel _ (by decide)

include delay in
theorem page_write_account (ftl mapped : ZmsFtl) (start lpn : Nat) (loc : Loc) (ioType : IoType) (waiting elpn latest : Nat)
    (page : Page) (mapping : updateOrReserveMapping p ftl lpn loc ioType = .ok mapped)
    (place : placeOf p mapped lpn loc = some page) :
    PagesAccount p ⟨ftl, waiting, latest⟩
      ⟨(programPage p mapped start lpn loc ioType (waiting + 1) elpn page).2,
        if (programPage p mapped start lpn loc ioType (waiting + 1) elpn page).1 ≠ start then 0 else waiting + 1,
        max latest (programPage p mapped start lpn loc ioType (waiting + 1) elpn page).1⟩
      ⟨[pageWrite p ftl mapped start lpn loc ioType (waiting + 1) elpn], []⟩ := by
  have moved := update_or_reserve_mapping_step p ftl mapped lpn loc ioType mapping
  have quiet := program_page_quiet p mapped start lpn loc ioType (waiting + 1) elpn page
  have step := media_step_trans _ _ _ moved (quiet_media_step _ _ quiet)
  have same := update_or_reserve_written p ftl mapped lpn loc ioType mapping
  have given : anyFull (programPage p mapped start lpn loc ioType (waiting + 1) elpn page).2 = false →
      ∀ write ∈ [pageWrite p ftl mapped start lpn loc ioType (waiting + 1) elpn], write.mapped.isSome = true := by
    intro clear write member
    rw [List.mem_singleton.mp member]
    exact mapped_lpn_clear p ftl lpn loc ioType (media_step_clear _ _ step clear)
  have spot : programs p (pageWrite p ftl mapped start lpn loc ioType (waiting + 1) elpn) = isProgramPoint p lpn elpn page := by
    unfold programs pageWrite
    rw [place]
    rfl
  cases point : isProgramPoint p lpn elpn page with
  | false =>
      rw [program_page_not p mapped start lpn loc ioType (waiting + 1) elpn page point] at step given ⊢
      simp only [ne_eq, not_true_eq_false, if_false]
      apply pages_account_silent p ftl mapped waiting latest _ _ step same (fun clear => given clear _ (List.mem_singleton.mpr rfl))
      · simp [pageWrite, place, point]
      · exact spot.trans point
  | true =>
      obtain ⟨issued, time, counted⟩ := program_page_point p delay mapped start lpn loc ioType (waiting + 1) elpn page point
      have sends : (pageWrite p ftl mapped start lpn loc ioType (waiting + 1) elpn).command =
          some (swr p start loc ioType (waiting + 1) page,
            (ssdAdvanceNand p.spp mapped.timing (swr p start loc ioType (waiting + 1) page)).1) := by
        simp only [pageWrite, place, Option.bind_some, point, if_true, issued]
      have pages : writtenPgs (pageWrite p ftl mapped start lpn loc ioType (waiting + 1) elpn) =
          min (waiting + 1) (oneshotOf p loc) := by
        rw [writtenPgs, sends]
        exact swr_pages p start loc ioType (waiting + 1) page
      refine ⟨step, ?_, fun _ _ member => absurd member List.not_mem_nil, given, fun _ => ?_, fun later => ?_⟩
      · simp [callPgs, pages, writtenPages, counted, same]
      · simp only [callPgs, List.map_cons, List.map_nil, List.sum_cons, List.sum_nil, pages, Batches.sent, spot, point, if_true]
        rfl
      · have after := later _ (List.mem_singleton.mpr rfl) _ (Option.mem_def.mpr sends)
        have elapsed : (programPage p mapped start lpn loc ioType (waiting + 1) elpn page).1 ≠ start := by
          rw [time]
          change start < _ at after
          omega
        simp only [Batches.left, spot, point, if_true, if_pos elapsed]

include delay collects in
theorem nand_write_account (ftl next : ZmsFtl) (start lpn : Nat) (loc : Loc) (ioType : IoType) (waiting elpn latest time : Nat)
    (ran : nandWrite collect p ftl start lpn loc ioType (waiting + 1) elpn = .ok (time, next)) :
    PagesAccount p ⟨ftl, waiting, latest⟩ ⟨next, if time ≠ start then 0 else waiting + 1, max latest time⟩
      (nandWriteTrace p collected ftl start lpn loc ioType (waiting + 1) elpn) := by
  unfold nandWrite at ran
  obtain ⟨mapped, mapping, rest⟩ := bind_ok _ _ _ ran
  unfold nandWriteTrace
  rw [mapping]
  dsimp only
  cases place : placeOf p mapped lpn loc with
  | none =>
      have ended : time = start ∧ next = mapped := by
        unfold placeOf at place
        split at rest
        · rename_i page map entry
          rw [entry] at place
          dsimp only at place
          by_cases full : locFull mapped loc = true
          · rw [if_pos full] at rest
            cases pure_ok _ _ rest
            exact ⟨rfl, rfl⟩
          · rw [if_neg full] at place
            cases place
        · cases pure_ok _ _ rest
          exact ⟨rfl, rfl⟩
      rw [ended.1, ended.2]
      have moved := update_or_reserve_mapping_step p ftl mapped lpn loc ioType mapping
      have same := update_or_reserve_written p ftl mapped lpn loc ioType mapping
      simp only [ne_eq, not_true_eq_false, if_false]
      apply pages_account_silent p ftl mapped waiting latest _ _ moved same
      · exact fun clear => mapped_lpn_clear p ftl lpn loc ioType (media_step_clear _ _ moved clear)
      · simp [pageWrite, place]
      · simp [programs, pageWrite, place]
  | some page =>
      have written := page_write_account p delay ftl mapped start lpn loc ioType waiting elpn latest page mapping place
      have taken : (do
          let (time, ftl) := programPage p mapped start lpn loc ioType (waiting + 1) elpn page
          if takesCredit p loc ioType then
            let ftl ← checkAndRefillWriteCredit collect (consumeWriteCredit ftl loc) loc
            pure (time, ftl)
          else pure (time, ftl) : Exec (Nat × ZmsFtl)) = .ok (time, next) := by
        unfold placeOf at place
        split at place
        · rename_i other map entry
          rw [entry] at rest
          dsimp only at rest
          split at place
          · cases place
          · rename_i clear
            cases place
            rw [if_neg clear] at rest
            exact rest
        · cases place
      dsimp only
      generalize programPage p mapped start lpn loc ioType (waiting + 1) elpn page = programmed at written taken ⊢
      obtain ⟨finish, done⟩ := programmed
      dsimp only at written taken ⊢
      split at taken
      · rename_i credit
        rw [if_pos credit]
        obtain ⟨refilled, refilling, taken⟩ := bind_ok _ _ _ taken
        obtain ⟨same, last⟩ := Prod.mk.inj (pure_ok _ _ taken)
        rw [last] at refilling
        rw [← same]
        have refill := refill_account p collect collected collects _ next loc refilling
        have around := calls_account_around p done (consumeWriteCredit done loc) next next _ ⟨rfl, id, id⟩ rfl refill (media_step_refl next) rfl
        have both := pages_account_trans p _ _ _ _ _ written (pages_account_inner p _ next (max latest finish) _ around)
        simpa [Trace.append] using both
      · rename_i free
        rw [if_neg free]
        cases pure_ok _ _ taken
        exact written

include delay collects in
theorem write_pages_account (prepare : ZmsFtl → Nat → ZmsFtl) (prepares : ∀ ftl lpn, MediaStep ftl (prepare ftl lpn))
    (prepared : ∀ ftl lpn, deviceWritten (prepare ftl lpn) = deviceWritten ftl) (ioType : IoType) (loc : Loc) (start elpn : Nat)
    (lpns : List Nat) (state next : FlushState)
    (ran : writePages p collect prepare ioType loc start elpn lpns state = .ok next) :
    PagesAccount p state next (writePagesTrace p collected collect prepare ioType loc start elpn lpns state) := by
  induction lpns generalizing state with
  | nil =>
      rw [Except.ok.inj ran]
      exact pages_account_refl p next
  | cons lpn rest ih =>
      unfold writePages at ran
      obtain ⟨⟨time, middle⟩, writing, ran⟩ := bind_ok _ _ _ ran
      have first := nand_write_account p delay collect collected collects _ middle start lpn loc ioType state.toWritePgs elpn
        state.latest time writing
      have ready := calls_account_none p state.ftl _ (prepares state.ftl lpn) (prepared state.ftl lpn)
      have later := ih _ ran
      unfold writePagesTrace
      rw [writing]
      have start := pages_account_trans p _ _ _ _ _ (pages_account_inner p state _ state.latest _ ready) first
      exact pages_account_trans p _ _ _ _ _ start later

include delay collects in
theorem internal_write_account (ftl next : ZmsFtl) (lpns : List Nat) (ioType : IoType) (loc : Loc) (start time : Nat)
    (ran : internalWrite collect p ftl lpns ioType loc start = .ok (time, next)) :
    CallsAccount p ftl next (internalWriteTrace p collected collect ftl lpns ioType loc start).calls := by
  have quiet := nand_read_quiet p ftl lpns ioType start
  have same := nand_read_written p ftl lpns ioType start
  unfold internalWrite at ran
  unfold internalWriteTrace
  generalize nandRead p ftl lpns ioType start = fetched at ran quiet same ⊢
  obtain ⟨writeStart, middle⟩ := fetched
  dsimp only at ran quiet same ⊢
  rw [internal_write_pages] at ran
  obtain ⟨last, looped, rest⟩ := bind_ok _ _ _ ran
  have written := write_pages_account p delay collect collected collects (dropIfMapped p) (drop_if_mapped_step p)
    (drop_if_mapped_written p) ioType loc writeStart _ lpns _ last looped
  have calls := pages_account_calls p _ last _ written rfl
  cases pure_ok _ _ rest
  exact calls_account_around p ftl middle last.ftl last.ftl _ (quiet_media_step _ _ quiet) same calls (media_step_refl last.ftl) rfl

end Pages

section Collections

variable (p : Params) (delay : p.zpp.enableGcDelay = true)

theorem no_collect_account (ftl : ZmsFtl) (loc : Loc) (next : ZmsFtl) (ran : noCollect ftl loc = .ok next) :
    CallsAccount p ftl next [] :=
  nomatch ran

include delay in
theorem gc_flush_account (ftl : ZmsFtl) (agg : List Nat) (loc : Loc) (scan : GcScan) (ran : gcFlush p ftl agg loc = .ok scan) :
    CallsAccount p ftl scan.ftl (gcFlushCalls p ftl agg loc) := by
  unfold gcFlush at ran
  unfold gcFlushCalls
  split at ran
  · rename_i full
    rw [if_pos full]
    obtain ⟨⟨time, middle⟩, writing, rest⟩ := bind_ok _ _ _ ran
    rw [← pure_ok _ _ rest]
    exact internal_write_account p delay noCollect _ (no_collect_account p) ftl middle agg .gcIo loc 0 time writing
  · rename_i partly
    rw [if_neg partly, ← Except.ok.inj ran]
    exact calls_account_none p ftl ftl (media_step_refl ftl) rfl

include delay in
theorem gc_visit_account (loc : Loc) (scan next : GcScan) (page : Page) (ran : gcVisit p loc scan page = .ok next) :
    CallsAccount p scan.ftl next.ftl (gcVisitCalls p loc scan page) := by
  unfold gcVisit at ran
  unfold gcVisitCalls
  split at ran
  · rename_i valid
    rw [if_pos valid]
    obtain ⟨middle, flushed, rest⟩ := bind_ok _ _ _ ran
    rw [← pure_ok _ _ rest]
    have account := gc_flush_account p delay scan.ftl _ loc middle flushed
    exact calls_account_around p scan.ftl scan.ftl middle.ftl _ _ (media_step_refl scan.ftl) rfl account ⟨rfl, id, id⟩ rfl
  · rename_i stale
    rw [if_neg stale, ← Except.ok.inj ran]
    exact calls_account_none p scan.ftl scan.ftl (media_step_refl scan.ftl) rfl

include delay in
theorem gc_scan_account (loc : Loc) (fuel : Nat) (scan next : GcScan) (page : Option Page)
    (ran : gcScan p loc fuel scan page = .ok next) : CallsAccount p scan.ftl next.ftl (gcScanCalls p loc fuel scan page) := by
  induction fuel generalizing scan page with
  | zero =>
      cases page with
      | none =>
          rw [← Except.ok.inj ran]
          exact calls_account_none p scan.ftl scan.ftl (media_step_refl scan.ftl) rfl
      | some page => exact nomatch ran
  | succ fuel ih =>
      cases page with
      | none =>
          rw [← Except.ok.inj ran]
          exact calls_account_none p scan.ftl scan.ftl (media_step_refl scan.ftl) rfl
      | some page =>
          unfold gcScan at ran
          obtain ⟨middle, visited, rest⟩ := bind_ok _ _ _ ran
          unfold gcScanCalls
          rw [visited]
          exact calls_account_trans p _ _ _ _ _ (gc_visit_account p delay loc scan middle page visited) (ih middle _ rest)

include delay in
theorem gc_rest_account (loc : Loc) (scan : GcScan) (next : ZmsFtl) (ran : gcRest p loc scan = .ok next) :
    CallsAccount p scan.ftl next (gcRestCalls p loc scan) := by
  have step := gc_rest_step p loc scan next ran
  unfold gcRest at ran
  unfold gcRestCalls
  split at ran
  · rename_i empty
    rw [if_pos empty]
    rw [← Except.ok.inj ran] at step ⊢
    exact calls_account_none p _ _ step rfl
  · rename_i some
    rw [if_neg some]
    split at ran
    · rename_i normal
      rw [if_pos normal]
      rw [← Except.ok.inj ran] at step ⊢
      exact calls_account_none p _ _ step (park_gc_lpns_written p scan.agg scan.ftl)
    · rename_i slc
      rw [if_neg slc]
      obtain ⟨⟨time, middle⟩, writing, rest⟩ := bind_ok _ _ _ ran
      rw [← pure_ok _ _ rest]
      exact internal_write_account p delay noCollect _ (no_collect_account p) scan.ftl middle scan.agg .gcIo .pslc 0 time writing

include delay in
theorem submit_internal_account (ftl next : ZmsFtl) (ref : LineRef) (ran : submitInternalWrite p ftl ref = .ok next) :
    CallsAccount p ftl next (submitInternalCalls p ftl ref) := by
  unfold submitInternalWrite at ran
  obtain ⟨scan, scanned, rest⟩ := bind_ok _ _ _ ran
  have start : MediaStep ftl (gcStart ftl (getLineLocation p ref)).ftl ∧
      deviceWritten (gcStart ftl (getLineLocation p ref)).ftl = deviceWritten ftl := by
    unfold gcStart
    split
    · exact ⟨⟨rfl, id, id⟩, rfl⟩
    · exact ⟨media_step_refl ftl, rfl⟩
  unfold submitInternalCalls
  dsimp only
  rw [scanned]
  have walked := calls_account_trans p _ _ _ _ _ (gc_scan_account p delay _ _ _ scan _ scanned) (gc_rest_account p delay _ scan next rest)
  exact calls_account_around p ftl _ next next _ start.1 start.2 walked (media_step_refl next) rfl

include delay in
theorem do_gc_account (ftl next : ZmsFtl) (force : Bool) (loc : Loc) (ran : doGc p ftl force loc = .ok next) :
    CallsAccount p ftl next (doGcCalls p ftl force loc) := by
  unfold doGc at ran
  unfold doGcCalls
  cases chosen : selectVictimLine p ftl force loc with
  | none =>
    rw [chosen] at ran
    rw [← Except.ok.inj ran]
    exact calls_account_none p ftl ftl (media_step_refl ftl) rfl
  | some selection =>
    obtain ⟨victim, selected⟩ := selection
    rw [chosen] at ran
    obtain ⟨middle, moved, rest⟩ := bind_ok _ _ _ ran
    rw [← pure_ok _ _ rest]
    have first := select_victim_line_step p ftl selected force loc victim chosen
    have erased := erase_line_step p middle victim .gcIo
    have account := submit_internal_account p delay _ middle victim moved
    refine calls_account_around p ftl (setCreditsToRefill selected loc _) middle _ _ ⟨first.host, first.deviceSticky, first.pslcSticky⟩
      ?_ account ?_ ?_
    · exact select_victim_written p ftl selected force loc victim chosen
    · exact ⟨erased.host, erased.deviceSticky, erased.pslcSticky⟩
    · exact erase_line_written p middle victim .gcIo

include delay in
theorem foreground_account (ftl : ZmsFtl) (loc : Loc) (next : ZmsFtl) (ran : foregroundGc p ftl loc = .ok next) :
    CallsAccount p ftl next (foregroundCalls p ftl loc) := by
  unfold foregroundGc at ran
  unfold foregroundCalls
  split at ran
  · rename_i high
    rw [if_pos high]
    dsimp only at ran ⊢
    split at ran
    · rename_i full
      rw [if_pos full, ← Except.ok.inj ran]
      exact calls_account_none p ftl _ ⟨rfl, id, id⟩ rfl
    · rename_i clear
      rw [if_neg clear]
      have account := do_gc_account p delay _ next true loc ran
      exact calls_account_around p ftl (setCreditsToRefill ftl loc 0) next next _ ⟨rfl, id, id⟩ rfl account (media_step_refl next) rfl
  · rename_i low
    rw [if_neg low, ← Except.ok.inj ran]
    exact calls_account_none p ftl _ ⟨rfl, id, id⟩ rfl

end Collections

section Flushes

variable (p : Params) (delay : p.zpp.enableGcDelay = true)

theorem flush_pages_written (loc : Loc) (start elpn zid : Nat) (lpns : List Nat) (state : FlushState) :
    flushPages p loc start elpn zid lpns state =
      writePages p (foregroundGc p) (readyPage p loc zid) .userIo loc start elpn lpns state := by
  induction lpns generalizing state with
  | nil => rfl
  | cons lpn rest ih =>
      unfold flushPages writePages
      change (nandWrite (foregroundGc p) p (readyPage p loc zid state.ftl lpn) start lpn loc .userIo (state.toWritePgs + 1) elpn >>= _) = _
      cases nandWrite (foregroundGc p) p (readyPage p loc zid state.ftl lpn) start lpn loc .userIo (state.toWritePgs + 1) elpn with
      | error fault => rfl
      | ok written => exact ih _

theorem ready_page_step (loc : Loc) (zid : Nat) (ftl : ZmsFtl) (lpn : Nat) : MediaStep ftl (readyPage p loc zid ftl lpn) := by
  have counted := quiet_media_step _ _ (count_inplace_step p ftl lpn)
  unfold readyPage
  dsimp only
  split
  · exact ⟨counted.host, counted.deviceSticky, counted.pslcSticky⟩
  · exact counted

theorem ready_page_written (loc : Loc) (zid : Nat) (ftl : ZmsFtl) (lpn : Nat) :
    deviceWritten (readyPage p loc zid ftl lpn) = deviceWritten ftl := by
  rw [← count_inplace_written p ftl lpn]
  unfold readyPage
  dsimp only
  split <;> rfl

include delay in
theorem flush_round_account (start elpn zid : Nat) (lpns rest : List Nat) (state next : FlushState)
    (ran : flushRound p start elpn zid lpns state = .ok (rest, next)) :
    PagesAccount p state next (flushRoundTrace p start elpn zid lpns state) := by
  unfold flushRound at ran
  unfold flushRoundTrace
  dsimp only at ran ⊢
  split at ran
  · rename_i joined
    rw [if_pos joined]
    obtain ⟨⟨time, middle⟩, writing, ran⟩ := bind_ok _ _ _ ran
    rw [← (Prod.mk.inj (pure_ok _ _ ran)).2]
    have account := internal_write_account p delay (foregroundGc p) (foregroundCalls p) (foreground_account p delay) state.ftl middle
      _ .userIo .normal start time writing
    exact pages_account_inner p state _ _ _
      (calls_account_around p state.ftl state.ftl middle _ _ (media_step_refl state.ftl) rfl account ⟨rfl, id, id⟩ rfl)
  · rename_i plain
    rw [if_neg plain]
    obtain ⟨flushed, flushing, ran⟩ := bind_ok _ _ _ ran
    rw [← (Prod.mk.inj (pure_ok _ _ ran)).2]
    rw [flush_pages_written] at flushing
    have account := write_pages_account p delay (foregroundGc p) (foregroundCalls p) (foreground_account p delay)
      (readyPage p _ zid) (ready_page_step p _ zid) (ready_page_written p _ zid) .userIo _ start elpn _ state flushed flushing
    exact ⟨⟨account.step.host, account.step.deviceSticky, account.step.pslcSticky⟩, account.written, account.batched, account.mapped,
      account.sent, account.waiting⟩

include delay in
theorem flush_rounds_account (start elpn zid fuel : Nat) (lpns : List Nat) (state next : FlushState)
    (ran : flushRounds p start elpn zid fuel lpns state = .ok next) :
    PagesAccount p state next (flushRoundsTrace p start elpn zid fuel lpns state) := by
  induction fuel generalizing lpns state with
  | zero =>
      cases lpns with
      | nil =>
          rw [Except.ok.inj ran]
          exact pages_account_refl p next
      | cons lpn rest => exact nomatch ran
  | succ fuel ih =>
      cases lpns with
      | nil =>
          rw [Except.ok.inj ran]
          exact pages_account_refl p next
      | cons lpn lpns =>
          unfold flushRounds at ran
          obtain ⟨⟨rest, middle⟩, rounded, ran⟩ := bind_ok _ _ _ ran
          have first := flush_round_account p delay start elpn zid _ rest state middle rounded
          unfold flushRoundsTrace
          rw [rounded]
          dsimp only at ran ⊢
          split at ran
          · rename_i full
            rw [if_pos full, ← pure_ok _ _ ran]
            exact pages_account_trans p _ _ _ _ _ first (pages_account_refl p middle)
          · rename_i clear
            rw [if_neg clear]
            exact pages_account_trans p _ _ _ _ _ first (ih rest middle ran)

include delay in
theorem run_call_account (ftl next : ZmsFtl) (call : PageCall) (time : Nat) (ran : runCall p ftl call = .ok (time, next)) :
    ∃ last, CallsAccount p ftl last (callTrace p ftl call).calls ∧ anyFull next = anyFull last ∧
      deviceWritten next = deviceWritten last := by
  cases call with
  | flush index start =>
      obtain ⟨state, flushed, rest⟩ := bind_ok _ _ _ ran
      have account := flush_rounds_account p delay start _ _ _ _ _ state flushed
      rw [← (Prod.mk.inj (pure_ok _ _ rest)).2]
      exact ⟨state.ftl, pages_account_calls p _ state _ account rfl, rfl, rfl⟩
  | internal lpns ioType loc start =>
      exact ⟨next, internal_write_account p delay (foregroundGc p) (foregroundCalls p) (foreground_account p delay) ftl next lpns
        ioType loc start time ran, rfl, rfl⟩

end Flushes

section Accounted

variable (p : Params)

-- The pages of the call's NAND_WRITE commands are what device_w_pgs grows by,
-- and they are as many as the pages newly mapped.
structure PagesAccounted (ftl next : ZmsFtl) (call : PageCall) : Prop where
  counted : deviceWritten next = deviceWritten ftl + writtenPages (callTrace p ftl call).calls
  all : writtenPages (callTrace p ftl call).calls = newlyMapped (callTrace p ftl call).calls

theorem newly_mapped_all (calls : List (List PageWrite)) (batched : ∀ call ∈ calls, Batched p call) :
    newlyMapped calls = (calls.map List.length).sum := by
  unfold newlyMapped
  congr 1
  apply List.map_congr_left
  intro call member
  exact List.countP_eq_length.mpr (batched call member).mapped

theorem written_pages_sent (calls : List (List PageWrite)) (batched : ∀ call ∈ calls, Batched p call)
    (later : ∀ call ∈ calls, CompleteLater call) :
    writtenPages calls = (calls.map (Batches.sent (programs p) (oneshotPgs p) 0)).sum := by
  unfold writtenPages
  congr 1
  apply List.map_congr_left
  intro call member
  exact (batched call member).sent (later call member)

-- A partial batch is dropped when more pages wait at a program command than a
-- one-shot page has, or when the last LPN comes out on no page.
theorem pages_accounted_whole (delay : p.zpp.enableGcDelay = true) (ftl next : ZmsFtl) (call : PageCall) (time : Nat)
    (ran : runCall p ftl call = .ok (time, next)) (clear : anyFull next = false)
    (later : ∀ writes ∈ (callTrace p ftl call).calls, CompleteLater writes) :
    PagesAccounted p ftl next call ↔ ∀ writes ∈ (callTrace p ftl call).calls, WholeBatches p writes := by
  obtain ⟨last, account, flags, counter⟩ := run_call_account p delay ftl next call time ran
  have batched := account.batched (flags.symm.trans clear)
  have counted : deviceWritten next = deviceWritten ftl + writtenPages (callTrace p ftl call).calls := counter.trans account.written
  have pages := written_pages_sent p _ batched later
  have mapped := newly_mapped_all p _ batched
  have whole := Batches.sent_sum_all_iff (programs p) (oneshotPgs p) (callTrace p ftl call).calls
  rw [← pages, ← mapped] at whole
  constructor
  · exact fun accounted => whole.mp accounted.all
  · exact fun batches => ⟨counted, whole.mpr batches⟩

end Accounted

end ConZone
