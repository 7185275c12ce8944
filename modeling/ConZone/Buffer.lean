import ConZone.Gc

set_option autoImplicit false

namespace ConZone

def wbSize (p : Params) : Nat := p.zpp.zoneWbSize / p.zpp.nrWb
def wbLpns (p : Params) : Nat := wbSize p / pgsz

def bufferOfZone (p : Params) (ftl : ZmsFtl) (zid : Nat) : Option Nat :=
  (List.range p.zpp.nrWb).find? fun index => (ftl.writeBuffer index).zid == some zid

def idleBuffer (p : Params) (ftl : ZmsFtl) : Option Nat :=
  (List.range p.zpp.nrWb).find? fun index => (ftl.writeBuffer index).flushData == 0 && !(ftl.writeBuffer index).busy

def someOneFlushing (p : Params) (ftl : ZmsFtl) : Bool :=
  (List.range p.zpp.nrWb).any fun index => (ftl.writeBuffer index).busy

def fullestBuffer (p : Params) (ftl : ZmsFtl) : Nat :=
  (List.range p.zpp.nrWb).foldl (fun best index =>
    if (ftl.writeBuffer best).flushData < (ftl.writeBuffer index).flushData then index else best) 0

-- GLOBAL_WB_SIZE is 0 and WB_MGNT is WB_STATIC. none is the NULL that makes
-- the caller wait for a buffer that is being flushed.
def zmsWbGet (p : Params) (ftl : ZmsFtl) (slpn : Nat) : Option Nat × ZmsFtl :=
  let zid := lpnToZone p slpn
  match bufferOfZone p ftl zid with
  | some index => (some index, ftl)
  | none =>
      match idleBuffer p ftl with
      | some index => (some index, putBuffer ftl index { ftl.writeBuffer index with zid := some zid })
      | none => (if someOneFlushing p ftl then none else some (fullestBuffer p ftl), ftl)

-- true is SUCCESS.
def zmsWbCheck (p : Params) (buffer : Buffer) (slpn : Nat) : Bool :=
  buffer.zid == none || buffer.zid == some (lpnToZone p slpn)

def zmsWbHit (buffer : Buffer) (lpn : Nat) : Bool :=
  match buffer.zid, buffer.lpns with
  | some _, first :: _ => first ≤ lpn && lpn < first + buffer.pgs
  | _, _ => false

def bufferAllocate (ftl : ZmsFtl) (index : Nat) : Option ZmsFtl :=
  if (ftl.writeBuffer index).busy then none else some (putBuffer ftl index { ftl.writeBuffer index with busy := true })

def bufferRelease (ftl : ZmsFtl) (index : Nat) : ZmsFtl :=
  putBuffer ftl index { ftl.writeBuffer index with busy := false }

def scheduleInternalOperation (ftl : ZmsFtl) (time index : Nat) : ZmsFtl :=
  { ftl with scheduled := ftl.scheduled ++ [(index, time)] }

def getFlushTargetLocation (p : Params) (ftl : ZmsFtl) (remaining : List Nat) : Loc :=
  if zmsIsDualNs p.zpp.nsType then zmsDualTargetLoc p.zpp.nsType
  else
    let agg := ftl.zoneAggLpns (lpnToZone p (remaining.headD 0))
    if agg.length + remaining.length < p.spp.pgsPerOneshotpg then .pslc else .normal

def putAgg (ftl : ZmsFtl) (zid : Nat) (lpns : List Nat) : ZmsFtl :=
  { ftl with zoneAggLpns := Function.update ftl.zoneAggLpns zid lpns }

def countInplace (p : Params) (ftl : ZmsFtl) (lpn : Nat) : ZmsFtl :=
  if mappedPpa (getMaptblEnt p ftl lpn) then
    { ftl with stats := { ftl.stats with inplaceUpdate := ftl.stats.inplaceUpdate + 1 } }
  else ftl

structure FlushState where
  ftl : ZmsFtl
  toWritePgs : Nat
  latest : Nat

-- The page loop of one round. A zoned write to a mapped LPN only logs an error
-- and counts; the old page stays as it is.
def flushPages (p : Params) (loc : Loc) (start elpn zid : Nat) : List Nat → FlushState → Exec FlushState
  | [], state => .ok state
  | lpn :: rest, state => do
      let ftl := countInplace p state.ftl lpn
      let ftl := if !zmsIsDualNs p.zpp.nsType && loc == .pslc then putAgg ftl zid (ftl.zoneAggLpns zid ++ [lpn]) else ftl
      let (time, ftl) ← nandWrite (foregroundGc p) p ftl start lpn loc .userIo (state.toWritePgs + 1) elpn
      flushPages p loc start elpn zid rest
        ⟨ftl, if time ≠ start then 0 else state.toWritePgs + 1, max state.latest time⟩

def countFlush (ftl : ZmsFtl) (loc : Loc) (pgs : Nat) : ZmsFtl :=
  { ftl with stats := { ftl.stats with flushCnt := Function.update ftl.stats.flushCnt loc (ftl.stats.flushCnt loc + pgs) } }

-- One round of buffer_flush: the pages it takes off the front and its effect.
-- Only a non-dual namespace has aggregated pages to join with.
def flushRound (p : Params) (start elpn zid : Nat) (lpns : List Nat) (state : FlushState) : Exec (List Nat × FlushState) := do
  let loc := getFlushTargetLocation p state.ftl lpns
  let agg := state.ftl.zoneAggLpns zid
  if loc = .normal ∧ agg ≠ [] then
    let pgs := p.spp.pgsPerOneshotpg - agg.length
    let (time, ftl) ← internalWrite (foregroundGc p) p state.ftl (agg ++ lpns.take pgs) .userIo .normal start
    pure (lpns.drop pgs, ⟨countFlush (putAgg ftl zid []) loc pgs, state.toWritePgs, max state.latest time⟩)
  else
    let pgs := min (oneshotOf p loc) lpns.length
    let state ← flushPages p loc start elpn zid (lpns.take pgs) state
    pure (lpns.drop pgs, { state with ftl := countFlush state.ftl loc pgs })

-- fuel is the number of pages left; every round takes at least one.
def flushRounds (p : Params) (start elpn zid : Nat) : Nat → List Nat → FlushState → Exec FlushState
  | _, [], state => .ok state
  | 0, _ :: _, _ => .error .hang
  | fuel + 1, lpns, state => do
      let (rest, state) ← flushRound p start elpn zid lpns state
      if anyFull state.ftl then pure state else flushRounds p start elpn zid fuel rest state

def clearBuffer (ftl : ZmsFtl) (index time : Nat) : ZmsFtl :=
  putBuffer ftl index { ftl.writeBuffer index with flushData := 0, lpns := [], zid := none, time := time }

def countHostWrite (p : Params) (ftl : ZmsFtl) (buffer : Buffer) : ZmsFtl :=
  { ftl with stats := { ftl.stats with hostWPgs := ftl.stats.hostWPgs + buffer.pgs,
                                       earlyFlushCnt := ftl.stats.earlyFlushCnt + (if buffer.flushData < wbSize p then 1 else 0) } }

def bufferFlush (p : Params) (ftl : ZmsFtl) (index start : Nat) : Exec (Nat × ZmsFtl) := do
  let buffer := ftl.writeBuffer index
  let elpn := buffer.lpns.getLast?.getD invalidLpn
  let zid := lpnToZone p (buffer.lpns.headD invalidLpn)
  let state ← flushRounds p start elpn zid buffer.pgs buffer.lpns ⟨ftl, 0, start⟩
  pure (state.latest, clearBuffer (countHostWrite p state.ftl buffer) index state.latest)

end ConZone
