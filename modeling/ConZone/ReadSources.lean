import ConZone.Lookups
import ConZone.OutOfRange

set_option autoImplicit false

namespace ConZone

-- What handle_read_request asks is_zoned for: the buffer of __zms_wb_get,
-- whether __zms_wb_check and __zms_wb_hit let it serve a page, and the
-- granularities the L2P search and map_read go through.
structure ReadRules where
  wbGet : ZmsFtl → Nat → Option Nat × ZmsFtl
  wbServes : Buffer → Nat → Nat → Bool
  grans : List MapType

def readRules (p : Params) (isZoned : Bool) : ReadRules :=
  if isZoned then
    { wbGet := zmsWbGet p, wbServes := fun buffer slpn lpn => zmsWbCheck p buffer slpn && zmsWbHit buffer lpn, grans := mapType }
  else
    { wbGet := fun ftl _ => (some 0, ftl), wbServes := fun buffer _ lpn => buffer.zid == none && buffer.lpns.contains lpn,
      grans := [.pageMap] }

-- The read in progress with the LPNs of every branch it took: found in the
-- write buffer, counted for a match in gc_agg_lpns, given to map_read, handed
-- to nand_read, found unmapped.
structure ReadRun where
  state : ReadState
  wbHits : List Nat
  aggHits : List Nat
  mapReads : List Nat
  nandReads : List Nat
  unmapped : List Nat

def wbHolds (rules : ReadRules) (ftl : ZmsFtl) (buffer : Option Nat) (slpn lpn : Nat) : Bool :=
  match buffer with
  | some index => rules.wbServes (ftl.writeBuffer index) slpn lpn
  | none => false

def searchGrans (p : Params) (ftl : ZmsFtl) (lpn : Nat) (grans : List MapType) : Option (Nat × Int) :=
  grans.findSome? fun gran =>
    let mapSlpn := getGranularityStartLpn p lpn gran
    let index := getL2pcacheidx p ftl.l2p mapSlpn
    if index = -1 then none else some (mapSlpn, index)

def countL2pHit (state : ReadState) (mapSlpn : Nat) (index : Int) : ReadState :=
  { state with ftl := { state.ftl with l2p := l2pAccess state.ftl.l2p mapSlpn index,
                                       stats := { state.ftl.stats with l2pHits := state.ftl.stats.l2pHits + 1 } } }

-- A miss hands the pages collected so far to nand_read before the map is read.
def fetchMap (p : Params) (state : ReadState) (lpn : Nat) (grans : List MapType) : ReadState :=
  let (completed, ftl) := nandRead p state.ftl state.toRead .userIo state.readBegin
  let (readBegin, ftl) := mapRead p lpn grans (state.readBegin, ftl)
  { state with ftl := ftl, toRead := [], readBegin := readBegin, latest := max state.latest completed }

def lookupRun (p : Params) (rules : ReadRules) (run : ReadRun) (lpn : Nat) : ReadRun :=
  match searchGrans p run.state.ftl lpn rules.grans with
  | some (mapSlpn, index) => { run with state := countL2pHit run.state mapSlpn index }
  | none =>
      { run with state := fetchMap p run.state lpn rules.grans, mapReads := run.mapReads ++ [lpn],
                 nandReads := run.nandReads ++ run.state.toRead }

def countUnmapped (ftl : ZmsFtl) : ZmsFtl :=
  { ftl with stats := { ftl.stats with unmappedReadCnt := ftl.stats.unmappedReadCnt + 1 } }

def handPage (p : Params) (run : ReadRun) (lpn : Nat) : ReadRun :=
  let toRead := run.state.toRead ++ [lpn]
  if mappedPpa (getMaptblEnt p run.state.ftl lpn) then { run with state := { run.state with toRead := toRead } }
  else
    { run with state := { run.state with ftl := countUnmapped run.state.ftl, toRead := toRead }, unmapped := run.unmapped ++ [lpn] }

def countWbHit (state : ReadState) (ftl : ZmsFtl) : ReadState :=
  { state with ftl := { ftl with stats := { ftl.stats with readWbHits := ftl.stats.readWbHits + 1 } },
               wbReadPgs := state.wbReadPgs + 1 }

def countAggHits (state : ReadState) (ftl : ZmsFtl) (found : List Nat) : ReadState :=
  { state with ftl := ftl, wbReadPgs := state.wbReadPgs + found.length }

-- The continue of the gc_agg_lpns search only goes on with that search, so a
-- page found there takes the rest of the round as well.
def readPageRun (p : Params) (rules : ReadRules) (slpn : Nat) (run : ReadRun) (lpn : Nat) : ReadRun :=
  let (buffer, ftl) := rules.wbGet (pageCounted run.state.ftl) slpn
  if wbHolds rules ftl buffer slpn lpn then { run with state := countWbHit run.state ftl, wbHits := run.wbHits ++ [lpn] }
  else
    let found := ftl.gcAggLpns.filter (· == lpn)
    handPage p (lookupRun p rules { run with state := countAggHits run.state ftl found, aggHits := run.aggHits ++ found } lpn) lpn

def readStart (ftl : ZmsFtl) (req : Request) (cmd : RwCommand) : ReadState :=
  let begin := req.nsecsStart + (if nrLbasFromRwCmd cmd * secsz ≤ 4096 then fw4kbRdLat else fwRdLat)
  ⟨{ ftl with currentTime := req.nsecsStart }, [], begin, begin, 0⟩

-- The page loop; what it has collected at the end goes to nand_read as well.
def readRun (p : Params) (rules : ReadRules) (ftl : ZmsFtl) (req : Request) (cmd : RwCommand) : ReadRun :=
  let run := (readLpns cmd).foldl (readPageRun p rules (lbaToLpn cmd.slba)) ⟨readStart ftl req cmd, [], [], [], [], []⟩
  { run with nandReads := run.nandReads ++ run.state.toRead }

def finishRead (p : Params) (req : Request) (cmd : RwCommand) (state : ReadState) : Completion × ZmsFtl :=
  let begin := req.nsecsStart + (if nrLbasFromRwCmd cmd * secsz ≤ 4096 then fw4kbRdLat else fwRdLat)
  let (completed, ftl) := nandRead p state.ftl state.toRead .userIo state.readBegin
  let latest := max state.latest (if state.toRead = [] then 0 else completed)
  let (latest, timing) :=
    if state.wbReadPgs = 0 then (latest, ftl.timing)
    else
      let (completed, timing) := ssdAdvanceWriteBuffer ftl.timing begin (state.wbReadPgs * pgsz)
      (max latest completed, timing)
  let (completed, timing) := ssdAdvancePcie timing latest (nrLbasFromRwCmd cmd * secsz)
  (⟨.success, max latest completed⟩,
    { ftl with timing := timing,
               stats := { ftl.stats with hostRrequestCnt := ftl.stats.hostRrequestCnt + 1,
                                         wbReadPgs := ftl.stats.wbReadPgs + state.wbReadPgs } })

-- handle_read_request of any namespace: zoned, or block and meta.
def readAny (p : Params) (isZoned : Bool) (ftl : ZmsFtl) (req : Request) (cmd : RwCommand) : Completion × ZmsFtl :=
  finishRead p req cmd (readRun p (readRules p isZoned) ftl req cmd).state

def serves (rules : ReadRules) (ftl : ZmsFtl) (slpn lpn : Nat) : Bool :=
  wbHolds rules (rules.wbGet ftl slpn).2 (rules.wbGet ftl slpn).1 slpn lpn

section Zoned

variable (p : Params)

theorem lookup_run_state (run : ReadRun) (lpn : Nat) :
    (lookupRun p (readRules p true) run lpn).state = lookupL2p p run.state lpn := by
  have same : searchGrans p run.state.ftl lpn (readRules p true).grans = l2pSearch p run.state.ftl lpn := rfl
  unfold lookupRun lookupL2p
  rw [same]
  cases l2pSearch p run.state.ftl lpn with
  | none => rfl
  | some found => rfl

theorem hand_page_state (run : ReadRun) (lpn : Nat) : (handPage p run lpn).state =
    if mappedPpa (getMaptblEnt p run.state.ftl lpn) then { run.state with toRead := run.state.toRead ++ [lpn] }
    else { run.state with ftl := countUnmapped run.state.ftl, toRead := run.state.toRead ++ [lpn] } := by
  cases mapped : mappedPpa (getMaptblEnt p run.state.ftl lpn) with
  | true => simp [handPage, mapped]
  | false => simp [handPage, mapped]

theorem read_page_branches (slpn : Nat) (state : ReadState) (lpn : Nat) : readPage p slpn state lpn =
    let got := zmsWbGet p (pageCounted state.ftl) slpn
    if bufferHolds p got.2 got.1 slpn lpn then countWbHit state got.2
    else
      let looked := lookupL2p p { state with ftl := got.2, wbReadPgs := state.wbReadPgs + got.2.gcAggLpns.count lpn } lpn
      { looked with ftl := if mappedPpa (getMaptblEnt p looked.ftl lpn) then looked.ftl else countUnmapped looked.ftl,
                    toRead := looked.toRead ++ [lpn] } := rfl

theorem read_page_run_state (slpn : Nat) (run : ReadRun) (lpn : Nat) :
    (readPageRun p (readRules p true) slpn run lpn).state = readPage p slpn run.state lpn := by
  rw [read_page_branches]
  have got : (readRules p true).wbGet (pageCounted run.state.ftl) slpn = zmsWbGet p (pageCounted run.state.ftl) slpn := rfl
  unfold readPageRun
  rw [got]
  generalize zmsWbGet p (pageCounted run.state.ftl) slpn = found
  obtain ⟨buffer, ftl⟩ := found
  have held : wbHolds (readRules p true) ftl buffer slpn lpn = bufferHolds p ftl buffer slpn lpn := by
    cases buffer with
    | none => rfl
    | some index => rfl
  dsimp only
  rw [held]
  cases bufferHolds p ftl buffer slpn lpn with
  | true => rfl
  | false =>
      rw [List.count_eq_length_filter]
      simp only [Bool.false_eq_true, if_false, hand_page_state, lookup_run_state, countAggHits]
      split
      · rfl
      · rfl

theorem read_any_zoned (ftl : ZmsFtl) (req : Request) (cmd : RwCommand) :
    readAny p true ftl req cmd = handleReadRequest p ftl req cmd := by
  have pages : ∀ (lpns : List Nat) (run : ReadRun),
      (lpns.foldl (readPageRun p (readRules p true) (lbaToLpn cmd.slba)) run).state =
        lpns.foldl (readPage p (lbaToLpn cmd.slba)) run.state := by
    intro lpns
    induction lpns with
    | nil => exact fun _ => rfl
    | cons lpn rest ih =>
        intro run
        rw [List.foldl_cons, List.foldl_cons, ih, read_page_run_state]
  have state : (readRun p (readRules p true) ftl req cmd).state =
      (readLpns cmd).foldl (readPage p (lbaToLpn cmd.slba)) (readStart ftl req cmd) := pages _ _
  unfold readAny handleReadRequest
  rw [state]
  unfold readLpns readStart
  dsimp only
  generalize List.foldl (readPage p (lbaToLpn cmd.slba)) _ _ = done
  unfold finishRead
  dsimp only

end Zoned

section Rules

variable (p : Params)

theorem zms_wb_get_again (ftl : ZmsFtl) (slpn : Nat) : zmsWbGet p (zmsWbGet p ftl slpn).2 slpn = zmsWbGet p ftl slpn := by
  cases own : bufferOfZone p ftl (lpnToZone p slpn) with
  | some index => simp [zmsWbGet, own]
  | none =>
      cases idle : idleBuffer p ftl with
      | none => simp [zmsWbGet, own, idle]
      | some index =>
          -- The buffer is labelled for the zone now, and no other was.
          have inside : index ∈ List.range p.zpp.nrWb := List.mem_of_find?_eq_some idle
          have others := List.find?_eq_none.mp own
          have labelled : bufferOfZone p (putBuffer ftl index { ftl.writeBuffer index with zid := some (lpnToZone p slpn) })
              (lpnToZone p slpn) = some index := by
            have alone : ∀ other ∈ List.range p.zpp.nrWb,
                ((putBuffer ftl index { ftl.writeBuffer index with zid := some (lpnToZone p slpn) }).writeBuffer other).zid ==
                  some (lpnToZone p slpn) → other = index := by
              intro other member found
              by_contra apart
              exact others other member (by simpa [putBuffer, apart] using found)
            cases found : bufferOfZone p (putBuffer ftl index { ftl.writeBuffer index with zid := some (lpnToZone p slpn) })
                (lpnToZone p slpn) with
            | none =>
                have missed := List.find?_eq_none.mp found index inside
                simp [putBuffer] at missed
            | some other =>
                have matched := List.find?_some found
                rw [alone other (List.mem_of_find?_eq_some found) matched]
          simp [zmsWbGet, own, idle, labelled]

theorem wb_get_agg (isZoned : Bool) (ftl : ZmsFtl) (slpn : Nat) :
    ((readRules p isZoned).wbGet ftl slpn).2.gcAggLpns = ftl.gcAggLpns := by
  cases isZoned with
  | false => rfl
  | true =>
      change (zmsWbGet p ftl slpn).2.gcAggLpns = _
      unfold zmsWbGet
      dsimp only
      split
      · rfl
      · split
        · rfl
        · rfl

theorem wb_holds_same (rules : ReadRules) (ftl other : ZmsFtl) (same : other.writeBuffer = ftl.writeBuffer) (buffer : Option Nat)
    (slpn lpn : Nat) : wbHolds rules other buffer slpn lpn = wbHolds rules ftl buffer slpn lpn := by
  cases buffer with
  | none => rfl
  | some index => simp [wbHolds, same]

theorem serves_same (isZoned : Bool) (ftl other : ZmsFtl) (same : other.writeBuffer = ftl.writeBuffer) (slpn lpn : Nat) :
    serves (readRules p isZoned) other slpn lpn = serves (readRules p isZoned) ftl slpn lpn := by
  cases isZoned with
  | false => exact wb_holds_same _ _ _ same _ slpn lpn
  | true =>
      obtain ⟨index, buffers⟩ := zms_wb_get_same p ftl other slpn same
      change wbHolds _ (zmsWbGet p other slpn).2 (zmsWbGet p other slpn).1 slpn lpn = wbHolds _ (zmsWbGet p ftl slpn).2 _ slpn lpn
      rw [index]
      exact wb_holds_same _ _ _ buffers _ slpn lpn

theorem serves_again (isZoned : Bool) (ftl : ZmsFtl) (slpn lpn : Nat) :
    serves (readRules p isZoned) ((readRules p isZoned).wbGet ftl slpn).2 slpn lpn = serves (readRules p isZoned) ftl slpn lpn := by
  cases isZoned with
  | false => rfl
  | true =>
      have again : (readRules p true).wbGet ((readRules p true).wbGet ftl slpn).2 slpn = (readRules p true).wbGet ftl slpn :=
        zms_wb_get_again p ftl slpn
      simp only [serves, again]

end Rules

section Fetching

variable (p : Params)

theorem submit_read_agg (ftl : ZmsFtl) (ioType : IoType) (start : Nat) (agg : Page × Nat) :
    (submitRead p ftl ioType start agg).2.gcAggLpns = ftl.gcAggLpns := by
  unfold submitRead
  split
  · rfl
  · rfl

theorem nand_read_agg (ftl : ZmsFtl) (lpns : List Nat) (ioType : IoType) (start : Nat) :
    (nandRead p ftl lpns ioType start).2.gcAggLpns = ftl.gcAggLpns :=
  nand_read_keeps p (fun after => after.gcAggLpns = ftl.gcAggLpns) ioType start
    (fun middle agg before => (submit_read_agg p middle ioType start agg).trans before) ftl lpns rfl

theorem map_read_agg (lpn : Nat) (grans : List MapType) (state : Nat × ZmsFtl) :
    (mapRead p lpn grans state).2.gcAggLpns = state.2.gcAggLpns := by
  induction grans generalizing state with
  | nil => rfl
  | cons gran rest ih =>
      obtain ⟨latest, ftl⟩ := state
      have fetched := nand_read_agg p ftl [getGranularityStartLpn p lpn gran] .mapReadIo latest
      unfold mapRead
      dsimp only
      split
      · split
        · exact fetched
        · exact (ih _).trans fetched
      · exact (ih _).trans fetched

theorem fetch_map_agg (state : ReadState) (lpn : Nat) (grans : List MapType) :
    (fetchMap p state lpn grans).ftl.gcAggLpns = state.ftl.gcAggLpns :=
  (map_read_agg p lpn grans _).trans (nand_read_agg p state.ftl state.toRead .userIo state.readBegin)

theorem fetch_map_quiet (state : ReadState) (lpn : Nat) (grans : List MapType) : Quiet state.ftl (fetchMap p state lpn grans).ftl :=
  quiet_trans _ _ _ (nand_read_quiet p state.ftl state.toRead .userIo state.readBegin)
    (map_read_quiet p lpn grans (state.readBegin, (nandRead p state.ftl state.toRead .userIo state.readBegin).2))

theorem lookup_run_agg (rules : ReadRules) (run : ReadRun) (lpn : Nat) :
    (lookupRun p rules run lpn).state.ftl.gcAggLpns = run.state.ftl.gcAggLpns := by
  unfold lookupRun
  split
  · rfl
  · exact fetch_map_agg p run.state lpn rules.grans

theorem lookup_run_buffers (rules : ReadRules) (run : ReadRun) (lpn : Nat) :
    (lookupRun p rules run lpn).state.ftl.writeBuffer = run.state.ftl.writeBuffer := by
  unfold lookupRun
  split
  · rfl
  · exact congrArg HostSide.writeBuffer (fetch_map_quiet p run.state lpn rules.grans).host

theorem hand_page_sides (run : ReadRun) (lpn : Nat) :
    (handPage p run lpn).state.ftl.gcAggLpns = run.state.ftl.gcAggLpns ∧
      (handPage p run lpn).state.ftl.writeBuffer = run.state.ftl.writeBuffer := by
  cases mapped : mappedPpa (getMaptblEnt p run.state.ftl lpn) with
  | true => simp [handPage, mapped]
  | false => simp [handPage, mapped, countUnmapped]

end Fetching

-- What the log says once some pages of the request are through: the buffer took
-- those it serves, the others went the whole way to nand_read.
structure LogOf (rules : ReadRules) (ftl : ZmsFtl) (slpn : Nat) (seen : List Nat) (run : ReadRun) : Prop where
  agg : run.state.ftl.gcAggLpns = ftl.gcAggLpns
  serving : ∀ lpn, serves rules run.state.ftl slpn lpn = serves rules ftl slpn lpn
  wbHits : run.wbHits = seen.filter (serves rules ftl slpn ·)
  aggHits : run.aggHits = (seen.filter (!serves rules ftl slpn ·)).flatMap fun lpn => ftl.gcAggLpns.filter (· == lpn)
  nandReads : run.nandReads ++ run.state.toRead = seen.filter (!serves rules ftl slpn ·)
  mapReads : ∀ lpn ∈ run.mapReads, lpn ∈ seen.filter (!serves rules ftl slpn ·)
  unmapped : ∀ lpn ∈ run.unmapped, lpn ∈ seen.filter (!serves rules ftl slpn ·)
  pgs : run.state.wbReadPgs = run.wbHits.length + run.aggHits.length

section Logging

variable (p : Params) (rules : ReadRules)

theorem lookup_run_log (run : ReadRun) (lpn : Nat) :
    (lookupRun p rules run lpn).wbHits = run.wbHits ∧ (lookupRun p rules run lpn).aggHits = run.aggHits ∧
      (lookupRun p rules run lpn).unmapped = run.unmapped ∧ (lookupRun p rules run lpn).state.wbReadPgs = run.state.wbReadPgs ∧
      (lookupRun p rules run lpn).nandReads ++ (lookupRun p rules run lpn).state.toRead = run.nandReads ++ run.state.toRead ∧
      ∀ other ∈ (lookupRun p rules run lpn).mapReads, other ∈ run.mapReads ∨ other = lpn := by
  unfold lookupRun
  split
  · exact ⟨rfl, rfl, rfl, rfl, rfl, fun _ member => .inl member⟩
  · exact ⟨rfl, rfl, rfl, rfl, by simp [fetchMap], fun _ member => by simpa using member⟩

theorem hand_page_log (run : ReadRun) (lpn : Nat) :
    (handPage p run lpn).wbHits = run.wbHits ∧ (handPage p run lpn).aggHits = run.aggHits ∧
      (handPage p run lpn).mapReads = run.mapReads ∧ (handPage p run lpn).state.wbReadPgs = run.state.wbReadPgs ∧
      (handPage p run lpn).nandReads ++ (handPage p run lpn).state.toRead = run.nandReads ++ run.state.toRead ++ [lpn] ∧
      ∀ other ∈ (handPage p run lpn).unmapped, other ∈ run.unmapped ∨ other = lpn := by
  cases mapped : mappedPpa (getMaptblEnt p run.state.ftl lpn) with
  | true =>
      have pages : ∀ other ∈ run.unmapped, other ∈ run.unmapped ∨ other = lpn := fun _ member => .inl member
      simpa [handPage, mapped] using pages
  | false => simp [handPage, mapped]

end Logging

section Sources

variable (p : Params) (isZoned : Bool) (ftl : ZmsFtl) (slpn : Nat)

theorem buffer_page_log (seen : List Nat) (run : ReadRun) (lpn : Nat) (before : LogOf (readRules p isZoned) ftl slpn seen run)
    (served : serves (readRules p isZoned) ftl slpn lpn = true) (after : ZmsFtl) (agg : after.gcAggLpns = ftl.gcAggLpns)
    (serving : ∀ other, serves (readRules p isZoned) after slpn other = serves (readRules p isZoned) ftl slpn other) :
    LogOf (readRules p isZoned) ftl slpn (seen ++ [lpn]) { run with state := countWbHit run.state after, wbHits := run.wbHits ++ [lpn] } := by
  have more : ∀ other, other ∈ seen.filter (!serves (readRules p isZoned) ftl slpn ·) →
      other ∈ (seen ++ [lpn]).filter (!serves (readRules p isZoned) ftl slpn ·) := by
    intro other member
    simp [member, List.filter_append]
  constructor
  · exact agg
  · intro other
    exact (serves_same p isZoned after (countWbHit run.state after).ftl rfl slpn other).trans (serving other)
  · simp [before.wbHits, List.filter_append, served]
  · simp [before.aggHits, List.filter_append, served]
  · simpa [countWbHit, List.filter_append, served] using before.nandReads
  · exact fun other member => more other (before.mapReads other member)
  · exact fun other member => more other (before.unmapped other member)
  · have pgs := before.pgs
    simp only [countWbHit, List.length_append, List.length_singleton]
    omega

theorem nand_page_log (seen : List Nat) (run : ReadRun) (lpn : Nat) (before : LogOf (readRules p isZoned) ftl slpn seen run)
    (missed : serves (readRules p isZoned) ftl slpn lpn = false) (after : ZmsFtl) (agg : after.gcAggLpns = ftl.gcAggLpns)
    (serving : ∀ other, serves (readRules p isZoned) after slpn other = serves (readRules p isZoned) ftl slpn other) :
    LogOf (readRules p isZoned) ftl slpn (seen ++ [lpn])
      (handPage p (lookupRun p (readRules p isZoned) { run with
        state := countAggHits run.state after (after.gcAggLpns.filter (· == lpn)),
        aggHits := run.aggHits ++ after.gcAggLpns.filter (· == lpn) } lpn) lpn) := by
  generalize began : ({ run with
    state := countAggHits run.state after (after.gcAggLpns.filter (· == lpn)),
    aggHits := run.aggHits ++ after.gcAggLpns.filter (· == lpn) } : ReadRun) = start
  obtain ⟨lookedWb, lookedAgg, lookedUnmapped, lookedPgs, lookedReads, lookedMaps⟩ := lookup_run_log p (readRules p isZoned) start lpn
  have buffers := lookup_run_buffers p (readRules p isZoned) start lpn
  have parked := lookup_run_agg p (readRules p isZoned) start lpn
  generalize lookupRun p (readRules p isZoned) start lpn = looked at *
  obtain ⟨handedWb, handedAgg, handedMaps, handedPgs, handedReads, handedUnmapped⟩ := hand_page_log p looked lpn
  obtain ⟨keptAgg, keptBuffers⟩ := hand_page_sides p looked lpn
  subst began
  have last : lpn ∈ (seen ++ [lpn]).filter (!serves (readRules p isZoned) ftl slpn ·) := by simp [missed]
  have more : ∀ other, other ∈ seen.filter (!serves (readRules p isZoned) ftl slpn ·) →
      other ∈ (seen ++ [lpn]).filter (!serves (readRules p isZoned) ftl slpn ·) := by
    intro other member
    simp [member, List.filter_append]
  constructor
  · exact (keptAgg.trans parked).trans agg
  · intro other
    exact (serves_same p isZoned after _ (keptBuffers.trans buffers) slpn other).trans (serving other)
  · simp [handedWb, lookedWb, before.wbHits, List.filter_append, missed]
  · simp [handedAgg, lookedAgg, before.aggHits, List.filter_append, missed, agg]
  · rw [handedReads, lookedReads]
    simp [countAggHits, before.nandReads, List.filter_append, missed]
  · intro other member
    rw [handedMaps] at member
    rcases lookedMaps other member with member | same
    · exact more other (before.mapReads other member)
    · rw [same]
      exact last
  · intro other member
    rcases handedUnmapped other member with member | same
    · rw [lookedUnmapped] at member
      exact more other (before.unmapped other member)
    · rw [same]
      exact last
  · have pgs := before.pgs
    simp only [handedPgs, lookedPgs, handedWb, lookedWb, handedAgg, lookedAgg, countAggHits, List.length_append]
    omega

theorem read_page_log (seen : List Nat) (run : ReadRun) (lpn : Nat) (before : LogOf (readRules p isZoned) ftl slpn seen run) :
    LogOf (readRules p isZoned) ftl slpn (seen ++ [lpn]) (readPageRun p (readRules p isZoned) slpn run lpn) := by
  have agg := (wb_get_agg p isZoned (pageCounted run.state.ftl) slpn).trans before.agg
  have counted := serves_same p isZoned run.state.ftl (pageCounted run.state.ftl) rfl slpn
  have serving : ∀ other, serves (readRules p isZoned) ((readRules p isZoned).wbGet (pageCounted run.state.ftl) slpn).2 slpn other =
      serves (readRules p isZoned) ftl slpn other := by
    intro other
    rw [serves_again, counted, before.serving]
  have decided : serves (readRules p isZoned) (pageCounted run.state.ftl) slpn lpn = serves (readRules p isZoned) ftl slpn lpn := by
    rw [counted, before.serving]
  rw [serves] at decided
  unfold readPageRun
  generalize (readRules p isZoned).wbGet (pageCounted run.state.ftl) slpn = got at agg serving decided ⊢
  obtain ⟨buffer, after⟩ := got
  dsimp only at agg serving decided ⊢
  rw [decided]
  cases served : serves (readRules p isZoned) ftl slpn lpn with
  | true => exact buffer_page_log p isZoned ftl slpn seen run lpn before served after agg serving
  | false => exact nand_page_log p isZoned ftl slpn seen run lpn before served after agg serving

theorem read_pages_log (lpns seen : List Nat) (run : ReadRun) (before : LogOf (readRules p isZoned) ftl slpn seen run) :
    LogOf (readRules p isZoned) ftl slpn (seen ++ lpns) (lpns.foldl (readPageRun p (readRules p isZoned) slpn) run) := by
  induction lpns generalizing seen run with
  | nil => simpa using before
  | cons lpn rest ih =>
      have next := ih (seen ++ [lpn]) _ (read_page_log p isZoned ftl slpn seen run lpn before)
      simpa using next

end Sources

-- Every page of the request comes from one place: the write buffer, if it holds
-- it, else the GC buffer, if it holds it, else the medium; what is in the GC
-- buffer costs no map_read and counts as no unmapped read.
structure ServedOnce (p : Params) (isZoned : Bool) (ftl : ZmsFtl) (req : Request) (cmd : RwCommand) : Prop where
  wb : ∀ lpn ∈ readLpns cmd, lpn ∈ (readRun p (readRules p isZoned) ftl req cmd).wbHits ↔
    serves (readRules p isZoned) ftl (lbaToLpn cmd.slba) lpn = true
  agg : ∀ lpn ∈ readLpns cmd, lpn ∈ (readRun p (readRules p isZoned) ftl req cmd).aggHits ↔
    serves (readRules p isZoned) ftl (lbaToLpn cmd.slba) lpn = false ∧ lpn ∈ ftl.gcAggLpns
  nand : ∀ lpn ∈ readLpns cmd, (lpn ∈ (readRun p (readRules p isZoned) ftl req cmd).nandReads ∨
      lpn ∈ (readRun p (readRules p isZoned) ftl req cmd).unmapped) ↔
    serves (readRules p isZoned) ftl (lbaToLpn cmd.slba) lpn = false ∧ lpn ∉ ftl.gcAggLpns
  total : (readRun p (readRules p isZoned) ftl req cmd).state.wbReadPgs +
      ((readRun p (readRules p isZoned) ftl req cmd).nandReads.length +
        ((readRun p (readRules p isZoned) ftl req cmd).unmapped.filter
          fun lpn => decide (lpn ∉ (readRun p (readRules p isZoned) ftl req cmd).nandReads)).length) = (readLpns cmd).length
  aside : ∀ lpn ∈ readLpns cmd, lpn ∈ ftl.gcAggLpns → lpn ∉ (readRun p (readRules p isZoned) ftl req cmd).mapReads ∧
    lpn ∉ (readRun p (readRules p isZoned) ftl req cmd).unmapped

section Requests

variable (p : Params) (isZoned : Bool) (ftl : ZmsFtl) (req : Request) (cmd : RwCommand)

theorem read_run_log : ∃ run, LogOf (readRules p isZoned) ftl (lbaToLpn cmd.slba) (readLpns cmd) run ∧
    readRun p (readRules p isZoned) ftl req cmd = { run with nandReads := run.nandReads ++ run.state.toRead } := by
  have serving := serves_same p isZoned ftl (readStart ftl req cmd).ftl rfl (lbaToLpn cmd.slba)
  have begins : LogOf (readRules p isZoned) ftl (lbaToLpn cmd.slba) [] ⟨readStart ftl req cmd, [], [], [], [], []⟩ :=
    ⟨rfl, serving, rfl, rfl, rfl, fun _ member => member, fun _ member => member, rfl⟩
  exact ⟨_, read_pages_log p isZoned ftl (lbaToLpn cmd.slba) (readLpns cmd) [] _ begins, rfl⟩

theorem read_run_sides :
    let run := readRun p (readRules p isZoned) ftl req cmd
    let others := (readLpns cmd).filter (!serves (readRules p isZoned) ftl (lbaToLpn cmd.slba) ·)
    run.wbHits = (readLpns cmd).filter (serves (readRules p isZoned) ftl (lbaToLpn cmd.slba) ·) ∧
      run.aggHits = (others.flatMap fun lpn => ftl.gcAggLpns.filter (· == lpn)) ∧ run.nandReads = others ∧
      (∀ lpn ∈ run.mapReads, lpn ∈ others) ∧ (∀ lpn ∈ run.unmapped, lpn ∈ others) ∧
      run.state.wbReadPgs = run.wbHits.length + run.aggHits.length := by
  obtain ⟨run, log, same⟩ := read_run_log p isZoned ftl req cmd
  rw [same]
  exact ⟨log.wbHits, log.aggHits, log.nandReads, log.mapReads, log.unmapped, log.pgs⟩

-- A page that the write buffer misses goes to nand_read, parked or not.
theorem served_once_unparked (once : ServedOnce p isZoned ftl req cmd) (lpn : Nat) (member : lpn ∈ readLpns cmd)
    (missed : serves (readRules p isZoned) ftl (lbaToLpn cmd.slba) lpn = false) : lpn ∉ ftl.gcAggLpns := by
  obtain ⟨_, _, nandReads, _⟩ := read_run_sides p isZoned ftl req cmd
  have passed : lpn ∈ (readRun p (readRules p isZoned) ftl req cmd).nandReads := by
    rw [nandReads]
    simp [member, missed]
  exact ((once.nand lpn member).mp (.inl passed)).2

theorem served_once_of_unparked (unparked : ∀ lpn ∈ readLpns cmd,
      serves (readRules p isZoned) ftl (lbaToLpn cmd.slba) lpn = false → lpn ∉ ftl.gcAggLpns) :
    ServedOnce p isZoned ftl req cmd := by
  obtain ⟨wbHits, aggHits, nandReads, mapReads, unmapped, pgs⟩ := read_run_sides p isZoned ftl req cmd
  have missed : ∀ lpn ∈ (readLpns cmd).filter (!serves (readRules p isZoned) ftl (lbaToLpn cmd.slba) ·),
      lpn ∈ readLpns cmd ∧ serves (readRules p isZoned) ftl (lbaToLpn cmd.slba) lpn = false := by
    intro lpn member
    simpa using member
  have parksNone : (readRun p (readRules p isZoned) ftl req cmd).aggHits = [] := by
    rw [aggHits, List.flatMap_eq_nil_iff]
    intro lpn member
    obtain ⟨inside, free⟩ := missed lpn member
    have absent := unparked lpn inside free
    rw [List.filter_eq_nil_iff]
    intro other found same
    rw [beq_iff_eq] at same
    exact absent (same ▸ found)
  constructor
  · intro lpn member
    simp [wbHits, member]
  · intro lpn member
    simp only [parksNone, List.not_mem_nil, false_iff, not_and]
    exact unparked lpn member
  · intro lpn member
    constructor
    · intro passed
      have other : lpn ∈ (readLpns cmd).filter (!serves (readRules p isZoned) ftl (lbaToLpn cmd.slba) ·) :=
        passed.elim (fun passed => nandReads ▸ passed) (unmapped lpn)
      exact ⟨(missed lpn other).2, unparked lpn member (missed lpn other).2⟩
    · rintro ⟨free, _⟩
      left
      rw [nandReads]
      simp [member, free]
  · have passed : ((readRun p (readRules p isZoned) ftl req cmd).unmapped.filter
        fun lpn => decide (lpn ∉ (readRun p (readRules p isZoned) ftl req cmd).nandReads)) = [] := by
      rw [List.filter_eq_nil_iff]
      intro lpn member
      simp [nandReads, unmapped lpn member]
    have split := List.length_eq_length_filter_add (l := readLpns cmd) (serves (readRules p isZoned) ftl (lbaToLpn cmd.slba) ·)
    rw [passed, pgs, parksNone, wbHits, nandReads]
    simp only [List.length_nil]
    omega
  · intro lpn member parked
    have served : lpn ∉ (readLpns cmd).filter (!serves (readRules p isZoned) ftl (lbaToLpn cmd.slba) ·) :=
      fun other => unparked lpn member (missed lpn other).2 parked
    exact ⟨fun found => served (mapReads lpn found), fun found => served (unmapped lpn found)⟩

end Requests

-- Eight lines of three pages each in the normal medium, with a write buffer of
-- one page.
def smallLineConfig : DualConfig :=
  { sampleConfig with
    lunsPerNandCh := 1, diesPerZone := 1, blkSize := 3 * pgsz, blksPerPln := 12, zoneWbSize := pgsz,
    lunsPositive := Nat.one_pos, diesPositive := Nat.one_pos, diesWhole := twoGroupConfig.diesWhole, groupsWhole := by decide,
    blkPositive := by decide, blkWhole := by decide, tlcPresent := by decide, lunsFit := sampleConfig.channelsFit, blocksFit := by decide,
    pagesFit := by decide, zoneFits := by decide }

def zoneStart (zid : Nat) : Nat := zid * 24

def writeZone (zid pgs : Nat) : List Event := [writeEvent (zoneStart zid) (8 * pgs), .release 0]

-- Zones 1 and 0 are reset partly written, so their lines are free while the full
-- list still goes through them, and the reset of the full zone 2 leads the free
-- list into the lines of zones 3, 4 and 5. Zone 1 is then written into those of
-- 3 and 4, and the collection that follows finds the one page of zone 4.
def parkingRun : List Event :=
  writeZone 0 1 ++ writeZone 1 1 ++ writeZone 2 3 ++ writeZone 3 1 ++ writeZone 4 1 ++ writeZone 5 1 ++ writeZone 6 1 ++
    [resetEvent (zoneStart 1), resetEvent (zoneStart 0), resetEvent (zoneStart 6), resetEvent (zoneStart 2)] ++
    writeZone 7 1 ++ writeZone 0 1 ++ writeZone 1 1

-- The run leaves page 12, the first of zone 4, in the GC buffer alone.
def pageParked (ftl : ZmsFtl) : Bool :=
  decide (12 ∈ ftl.gcAggLpns) && !serves (readRules (dualParams smallLineConfig .normal) true) ftl 12 12 &&
    decide ((ftl.zoneDescs 4).state ≠ .offline ∧ (ftl.zoneDescs 4).zoneCapacity = 24)

theorem page_parked : ∃ ftl, Reachable (dualParams smallLineConfig .normal) (fun _ _ => True) ftl ∧ pageParked ftl = true :=
  run_events_check (dualParams smallLineConfig .normal) (fun _ _ => True) parkingRun (fun _ => 0) pageParked
    (fun _ _ _ => trivial) (by decide +kernel)

end ConZone
