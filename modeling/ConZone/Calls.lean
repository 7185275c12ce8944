import ConZone.ZoneTable
import ConZone.PlaneTimes

set_option autoImplicit false

namespace ConZone

-- The part of a namespace that the FTL's primitives work on: the medium, the
-- tables and the L2P cache.
structure Core where
  nand : Block → NandBlock
  maptbl : Nat → Ppa
  rmap : Nat → Option Nat
  lm : LineMgmt
  wps : WpName → WritePointer
  l2p : L2pCache
  deviceFull : Bool
  pslcFull : Bool

def coreOf (ftl : ZmsFtl) : Core :=
  ⟨ftl.nand, ftl.maptbl, ftl.rmap, ftl.lm, ftl.wps, ftl.l2p, ftl.deviceFull, ftl.pslcFull⟩

def BuffersSized (ftl : ZmsFtl) : Prop :=
  ∀ index, (ftl.writeBuffer index).flushData = pgsz * (ftl.writeBuffer index).pgs

-- Work that leaves all of that alone. The planes move by NAND commands only,
-- and the buffers keep their count.
structure Aside (p : Params) (before after : ZmsFtl) : Prop where
  core : coreOf after = coreOf before
  time : TimeSteps p.spp before.timing after.timing
  sized : BuffersSized before → BuffersSized after

inductive Op where
  | aside
  | hit (lpn : Nat)
  | fill (lpn : Nat) (gran : MapType)
  | map (lpn : Nat) (loc : Loc) (ioType : IoType)
  | move (lpn : Nat) (loc : Loc) (ioType : IoType)
  | drop (lpn : Nat)
  | select (loc : Loc)
  | erase (ref : LineRef) (ioType : IoType)

def insertMissed (p : Params) (ftl : ZmsFtl) (mapSlpn : Nat) (gran : MapType) : L2pCache :=
  let (index, cache) := l2pInsert p ftl.l2p mapSlpn gran (checkResident gran)
  l2pAccess (setL2pcacheidx p cache p.zpp.nsid mapSlpn index) mapSlpn index

inductive Call (p : Params) (ftl : ZmsFtl) : Op → Exec ZmsFtl → Prop where
  | aside (next : ZmsFtl) (same : Aside p ftl next) : Call p ftl .aside (.ok next)
  | hit (lpn mapSlpn : Nat) (index : Int) (found : l2pSearch p ftl lpn = some (mapSlpn, index)) :
      Call p ftl (.hit lpn) (.ok { ftl with l2p := l2pAccess ftl.l2p mapSlpn index })
  | fill (lpn : Nat) (gran : MapType) (page : Page) (missed : l2pSearch p ftl lpn = none) (tried : gran ∈ mapType)
      (mapped : getMaptblEnt p ftl (getGranularityStartLpn p lpn gran) = .mapped page gran) :
      Call p ftl (.fill lpn gran) (.ok { ftl with l2p := insertMissed p ftl (getGranularityStartLpn p lpn gran) gran })
  | map (lpn : Nat) (loc : Loc) (ioType : IoType) : Call p ftl (.map lpn loc ioType) (updateOrReserveMapping p ftl lpn loc ioType)
  | move (lpn : Nat) (loc : Loc) (ioType : IoType) :
      Call p ftl (.move lpn loc ioType) (updateOrReserveMapping p (dropIfMapped p ftl lpn) lpn loc ioType)
  | drop (lpn : Nat) (page : Page) (map : MapType) (mapped : getMaptblEnt p ftl lpn = .mapped page map) :
      Call p ftl (.drop lpn) (.ok (dropMapping p ftl lpn page))
  | select (force : Bool) (loc : Loc) (victim : LineRef) (next : ZmsFtl)
      (selected : selectVictimLine p ftl force loc = some (victim, next)) : Call p ftl (.select loc) (.ok next)
  | erase (ref : LineRef) (ioType : IoType) : Call p ftl (.erase ref ioType) (.ok (eraseLine p ftl ref ioType))

-- A piece of the program as the primitives it goes through, each of which
-- meets a condition on the state it starts from. It ends with the last one, or
-- at a fault that is no failed assertion and no NULL dereference.
inductive Calls (p : Params) (meets : ZmsFtl → Op → Prop) (ftl : ZmsFtl) : Exec ZmsFtl → Prop where
  | done : Calls p meets ftl (.ok ftl)
  | call (middle : ZmsFtl) (op : Op) (result : Exec ZmsFtl) (before : Calls p meets ftl (.ok middle))
      (met : meets middle op) (called : Call p middle op result) : Calls p meets ftl result
  | stop (middle : ZmsFtl) (fault : Fault) (before : Calls p meets ftl (.ok middle))
      (other : fault ≠ .bugOn ∧ fault ≠ .nullDeref) : Calls p meets ftl (.error fault)

def anyCall (_ : ZmsFtl) (_ : Op) : Prop := True

-- What a run makes of the FTL.
def effect {α : Type} (state : α → ZmsFtl) (run : Exec α) : Exec ZmsFtl :=
  match run with
  | .ok value => .ok (state value)
  | .error fault => .error fault

section Closure

variable (p : Params) (meets : ZmsFtl → Op → Prop)

theorem calls_trans (ftl middle : ZmsFtl) (result : Exec ZmsFtl) (first : Calls p meets ftl (.ok middle))
    (second : Calls p meets middle result) : Calls p meets ftl result := by
  induction second with
  | done => exact first
  | call last op result _ met called ih => exact .call last op result ih met called
  | stop last fault _ other ih => exact .stop last fault ih other

theorem calls_mono (other : ZmsFtl → Op → Prop) (weaker : ∀ ftl op, meets ftl op → other ftl op) (ftl : ZmsFtl)
    (result : Exec ZmsFtl) (run : Calls p meets ftl result) : Calls p other ftl result := by
  induction run with
  | done => exact .done
  | call middle op result _ met called ih => exact .call middle op result ih (weaker middle op met) called
  | stop middle fault _ harmless ih => exact .stop middle fault ih harmless

theorem calls_keep (holds : ZmsFtl → Prop)
    (keeps : ∀ ftl op next, holds ftl → meets ftl op → Call p ftl op (.ok next) → holds next) (ftl next : ZmsFtl)
    (start : holds ftl) (run : Calls p meets ftl (.ok next)) : holds next := by
  generalize ran : (Except.ok next : Exec ZmsFtl) = result at run
  induction run generalizing next with
  | done =>
      cases ran
      exact start
  | call middle op result _ met called ih =>
      subst ran
      exact keeps middle op next (ih middle rfl) met called
  | stop => cases ran

theorem calls_aside (ftl next : ZmsFtl) (same : Aside p ftl next) : Calls p anyCall ftl (.ok next) :=
  .call ftl .aside _ .done trivial (.aside next same)

theorem calls_one (ftl : ZmsFtl) (op : Op) (result : Exec ZmsFtl) (called : Call p ftl op result) : Calls p anyCall ftl result :=
  .call ftl op result .done trivial called

theorem calls_bind {α β : Type} (ftl : ZmsFtl) (state : α → ZmsFtl) (after : β → ZmsFtl) (first : Exec α) (next : α → Exec β)
    (start : Calls p meets ftl (effect state first))
    (rest : ∀ value, first = .ok value → Calls p meets (state value) (effect after (next value))) :
    Calls p meets ftl (effect after (first >>= next)) := by
  cases first with
  | error fault => exact start
  | ok value => exact calls_trans p meets ftl (state value) _ start (rest value rfl)

end Closure

section Asides

variable (p : Params)

theorem aside_refl (ftl : ZmsFtl) : Aside p ftl ftl := ⟨rfl, .refl, id⟩

theorem aside_trans (first second third : ZmsFtl) (left : Aside p first second) (right : Aside p second third) : Aside p first third :=
  ⟨right.core.trans left.core, left.time.trans right.time, fun sized => right.sized (left.sized sized)⟩

theorem aside_still (before after : ZmsFtl) (core : coreOf after = coreOf before) (planes : after.timing.planes = before.timing.planes)
    (sized : BuffersSized before → BuffersSized after) : Aside p before after :=
  ⟨core, .single (.other _ _ planes), sized⟩

theorem put_buffer_sized (ftl : ZmsFtl) (index : Nat) (buffer : Buffer) (own : buffer.flushData = pgsz * buffer.pgs)
    (sized : BuffersSized ftl) : BuffersSized (putBuffer ftl index buffer) := by
  intro other
  by_cases same : other = index
  · subst same
    simpa [putBuffer] using own
  · simpa [putBuffer, same] using sized other

theorem relabel_aside (ftl : ZmsFtl) (index : Nat) (buffer : Buffer) (lpns : buffer.lpns = (ftl.writeBuffer index).lpns)
    (data : buffer.flushData = (ftl.writeBuffer index).flushData) : Aside p ftl (putBuffer ftl index buffer) := by
  refine aside_still p _ _ rfl rfl fun sized => put_buffer_sized ftl index buffer ?_ sized
  rw [data, sized index]
  simp only [Buffer.pgs, lpns]

theorem submit_nand_cmd_aside (ftl : ZmsFtl) (type : IoType) (cmd : NandOp) (stime size : Nat) (page : Page) :
    Aside p ftl (submitNandCmd p ftl type cmd stime size page).2 :=
  ⟨rfl, .single (.nand ftl.timing _), id⟩

theorem submit_read_aside (ftl : ZmsFtl) (ioType : IoType) (start : Nat) (agg : Page × Nat) :
    Aside p ftl (submitRead p ftl ioType start agg).2 := by
  unfold submitRead
  split
  · have counted := aside_still p ftl { ftl with stats := { ftl.stats with deviceRPgs := ftl.stats.deviceRPgs + agg.2 / pgsz } } rfl rfl id
    exact aside_trans p _ _ _ counted (submit_nand_cmd_aside p _ ioType .nandRead start agg.2 agg.1)
  · exact aside_refl p ftl

theorem nand_read_aside (ftl : ZmsFtl) (lpns : List Nat) (ioType : IoType) (start : Nat) :
    Aside p ftl (nandRead p ftl lpns ioType start).2 :=
  nand_read_keeps p (Aside p ftl) ioType start
    (fun middle agg before => aside_trans p ftl middle _ before (submit_read_aside p middle ioType start agg))
    ftl lpns (aside_refl p ftl)

theorem program_page_aside (ftl : ZmsFtl) (start lpn : Nat) (loc : Loc) (ioType : IoType) (toWritePgs elpn : Nat) (page : Page) :
    Aside p ftl (programPage p ftl start lpn loc ioType toWritePgs elpn page).2 := by
  unfold programPage
  split
  · dsimp only
    split
    · have programmed := submit_nand_cmd_aside p ftl ioType .nandWrite start (min toWritePgs (oneshotOf p loc) * pgsz) page
      exact aside_trans p _ _ _ programmed (aside_still p _ _ rfl rfl id)
    · exact aside_still p _ _ rfl rfl id
  · exact aside_refl p ftl

theorem count_inplace_aside (ftl : ZmsFtl) (lpn : Nat) : Aside p ftl (countInplace p ftl lpn) := by
  unfold countInplace
  split
  · exact aside_still p _ _ rfl rfl id
  · exact aside_refl p ftl

theorem zms_wb_get_aside (ftl : ZmsFtl) (slpn : Nat) : Aside p ftl (zmsWbGet p ftl slpn).2 := by
  unfold zmsWbGet
  dsimp only
  split
  · exact aside_refl p ftl
  · split
    · exact relabel_aside p _ _ _ rfl rfl
    · exact aside_refl p ftl

theorem drop_buffered_aside (scan : ResetScan) (slpn : Nat) (writeBuffer : Option Nat) (ftl : ZmsFtl) :
    Aside p ftl (dropBuffered p scan slpn writeBuffer ftl) := by
  unfold dropBuffered
  cases writeBuffer with
  | none => exact aside_refl p ftl
  | some index =>
      dsimp only
      split
      · exact aside_still p _ _ rfl rfl (put_buffer_sized ftl index _ rfl)
      · exact aside_refl p ftl

theorem only_table_aside (before after : ZmsFtl) (only : OnlyTable before after) : Aside p before after := by
  obtain ⟨_, _, same⟩ := only
  rw [same]
  exact aside_still p _ _ rfl rfl id

end Asides

section Collecting

variable (p : Params) (collect : ZmsFtl → Loc → Exec ZmsFtl)
variable (collects : ∀ ftl loc, Calls p anyCall ftl (collect ftl loc))

theorem effect_id (run : Exec ZmsFtl) : effect id run = run := by
  cases run <;> rfl

include collects in
theorem check_and_refill_calls (ftl : ZmsFtl) (loc : Loc) : Calls p anyCall ftl (checkAndRefillWriteCredit collect ftl loc) := by
  unfold checkAndRefillWriteCredit
  by_cases spent : (ftl.wfc loc).writeCredits ≤ 0
  · rw [if_pos spent, ← effect_id (_ >>= _)]
    refine calls_bind p anyCall ftl id id _ _ ?_ ?_
    · rw [effect_id]
      exact collects ftl loc
    · intro next _
      exact calls_aside p next _ (aside_still p _ _ rfl rfl id)
  · rw [if_neg spent]
    exact .done

include collects in
-- The mapping comes first; whatever follows it starts from the mapped state.
theorem nand_write_calls (before ftl : ZmsFtl) (start lpn : Nat) (loc : Loc) (ioType : IoType) (toWritePgs elpn : Nat)
    (mapping : Calls p anyCall before (updateOrReserveMapping p ftl lpn loc ioType)) :
    Calls p anyCall before (effect Prod.snd (nandWrite collect p ftl start lpn loc ioType toWritePgs elpn)) := by
  unfold nandWrite
  refine calls_bind p anyCall before id Prod.snd _ _ (by rw [effect_id]; exact mapping) ?_
  intro mapped _
  dsimp only [id]
  split
  · rename_i page map _
    split
    · exact .done
    · have programmed := program_page_aside p mapped start lpn loc ioType toWritePgs elpn page
      generalize programPage p mapped start lpn loc ioType toWritePgs elpn page = written at programmed
      obtain ⟨time, middle⟩ := written
      dsimp only at programmed ⊢
      split
      · refine calls_trans p anyCall mapped (consumeWriteCredit middle loc) _ 
          (calls_aside p mapped _ (aside_trans p _ _ _ programmed (aside_still p _ _ rfl rfl id))) ?_
        refine calls_bind p anyCall _ id Prod.snd _ _ ?_ ?_
        · rw [effect_id]
          exact check_and_refill_calls p collect collects _ loc
        · intro next _
          exact .done
      · exact calls_aside p mapped _ programmed
  · exact .done

include collects in
theorem internal_write_loop_calls (ioType : IoType) (loc : Loc) (start elpn : Nat) (lpns : List Nat) (ftl : ZmsFtl)
    (toWritePgs latest : Nat) :
    Calls p anyCall ftl (effect Prod.snd (internalWriteLoop collect p ioType loc start elpn lpns ftl toWritePgs latest)) := by
  induction lpns generalizing ftl toWritePgs latest with
  | nil => exact .done
  | cons lpn rest ih =>
      unfold internalWriteLoop
      refine calls_bind p anyCall ftl Prod.snd Prod.snd _ _ ?_ ?_
      · exact nand_write_calls p collect collects ftl _ start lpn loc ioType _ elpn
          (calls_one p ftl _ _ (.move lpn loc ioType))
      · intro written _
        exact ih written.2 _ _

include collects in
theorem internal_write_calls (ftl : ZmsFtl) (lpns : List Nat) (ioType : IoType) (loc : Loc) (start : Nat) :
    Calls p anyCall ftl (effect Prod.snd (internalWrite collect p ftl lpns ioType loc start)) := by
  have fetched := nand_read_aside p ftl lpns ioType start
  unfold internalWrite
  generalize nandRead p ftl lpns ioType start = done at fetched
  obtain ⟨writeStart, middle⟩ := done
  exact calls_trans p anyCall ftl middle _ (calls_aside p ftl middle fetched)
    (internal_write_loop_calls p collect collects ioType loc writeStart _ lpns middle _ _)

end Collecting

section Garbage

variable (p : Params)

theorem hang_harmless : Fault.hang ≠ .bugOn ∧ Fault.hang ≠ .nullDeref := by decide

theorem no_collect_calls (ftl : ZmsFtl) (loc : Loc) : Calls p anyCall ftl (noCollect ftl loc) :=
  .stop ftl .hang .done hang_harmless

theorem gc_flush_calls (ftl : ZmsFtl) (agg : List Nat) (loc : Loc) : Calls p anyCall ftl (effect GcScan.ftl (gcFlush p ftl agg loc)) := by
  unfold gcFlush
  split
  · refine calls_bind p anyCall ftl Prod.snd GcScan.ftl _ _ ?_ ?_
    · exact internal_write_calls p noCollect (no_collect_calls p) ftl agg .gcIo loc 0
    · intro written _
      exact .done
  · exact .done

theorem gc_visit_calls (loc : Loc) (scan : GcScan) (page : Page) :
    Calls p anyCall scan.ftl (effect GcScan.ftl (gcVisit p loc scan page)) := by
  unfold gcVisit
  split
  · refine calls_bind p anyCall scan.ftl GcScan.ftl GcScan.ftl _ _ (gc_flush_calls p scan.ftl _ loc) ?_
    intro flushed _
    exact calls_aside p flushed.ftl _ (aside_still p _ _ rfl rfl id)
  · exact .done

theorem gc_scan_calls (loc : Loc) (fuel : Nat) (scan : GcScan) (page : Option Page) :
    Calls p anyCall scan.ftl (effect GcScan.ftl (gcScan p loc fuel scan page)) := by
  induction fuel generalizing scan page with
  | zero =>
      cases page with
      | none => exact .done
      | some page => exact .stop scan.ftl .hang .done hang_harmless
  | succ fuel ih =>
      cases page with
      | none => exact .done
      | some page =>
          unfold gcScan
          refine calls_bind p anyCall scan.ftl GcScan.ftl GcScan.ftl _ _ (gc_visit_calls p loc scan page) ?_
          intro visited _
          exact ih visited _

theorem park_gc_lpn_calls (ftl : ZmsFtl) (lpn : Nat) : Calls p anyCall ftl (.ok (parkGcLpn p ftl lpn)) := by
  have noted : Calls p anyCall ftl (.ok { ftl with gcAggLpns := ftl.gcAggLpns ++ [lpn] }) := calls_aside p ftl _ (aside_still p _ _ rfl rfl id)
  unfold parkGcLpn dropIfMapped
  split
  · rename_i page map mapped
    exact .call _ (.drop lpn) _ noted trivial (.drop lpn page map mapped)
  · exact noted

theorem gc_rest_calls (loc : Loc) (scan : GcScan) : Calls p anyCall scan.ftl (gcRest p loc scan) := by
  unfold gcRest
  split
  · exact .done
  · split
    · generalize scan.ftl = ftl
      generalize scan.agg = lpns
      induction lpns generalizing ftl with
      | nil => exact .done
      | cons lpn rest ih => exact calls_trans p anyCall ftl _ _ (park_gc_lpn_calls p ftl lpn) (ih _)
    · rw [← effect_id (_ >>= _)]
      refine calls_bind p anyCall scan.ftl Prod.snd id _ _ ?_ ?_
      · exact internal_write_calls p noCollect (no_collect_calls p) scan.ftl scan.agg .gcIo .pslc 0
      · intro written _
        exact .done

theorem submit_internal_write_calls (ftl : ZmsFtl) (ref : LineRef) : Calls p anyCall ftl (submitInternalWrite p ftl ref) := by
  have started : Aside p ftl (gcStart ftl (getLineLocation p ref)).ftl := by
    unfold gcStart
    split
    · exact aside_still p _ _ rfl rfl id
    · exact aside_refl p ftl
  unfold submitInternalWrite
  refine calls_trans p anyCall ftl _ _ (calls_aside p ftl _ started) ?_
  rw [← effect_id (_ >>= _)]
  refine calls_bind p anyCall _ GcScan.ftl id _ _ (gc_scan_calls p _ _ _ _) ?_
  intro scan _
  rw [effect_id]
  exact gc_rest_calls p _ scan

theorem foreground_gc_calls (ftl : ZmsFtl) (loc : Loc) : Calls p anyCall ftl (foregroundGc p ftl loc) := by
  unfold foregroundGc
  split
  · dsimp only
    have credits : Calls p anyCall ftl (.ok (setCreditsToRefill ftl loc 0)) := calls_aside p ftl _ (aside_still p _ _ rfl rfl id)
    split
    · exact credits
    · refine calls_trans p anyCall ftl _ _ credits ?_
      unfold doGc
      split
      · exact .done
      · rename_i victim selected chosen
        have taken : Calls p anyCall (setCreditsToRefill ftl loc 0) (.ok selected) :=
          calls_one p _ _ _ (.select true loc victim selected chosen)
        have refilled : Calls p anyCall (setCreditsToRefill ftl loc 0)
            (.ok (setCreditsToRefill selected loc ((selected.lm.lines victim).ipc + (selected.lm.lines victim).rpc))) :=
          calls_trans p anyCall _ _ _ taken (calls_aside p selected _ (aside_still p _ _ rfl rfl id))
        refine calls_trans p anyCall _ _ _ refilled ?_
        rw [← effect_id (_ >>= _)]
        refine calls_bind p anyCall _ id id _ _ (by rw [effect_id]; exact submit_internal_write_calls p _ victim) ?_
        intro moved _
        have erased : Calls p anyCall moved (.ok (eraseLine p moved victim .gcIo)) := calls_one p moved _ _ (.erase victim .gcIo)
        exact calls_trans p anyCall moved _ _ erased (calls_aside p _ _ (aside_still p _ _ rfl rfl id))
  · exact calls_aside p ftl _ (aside_still p _ _ rfl rfl id)

end Garbage

section Flushing

variable (p : Params)

theorem flush_pages_calls (loc : Loc) (start elpn zid : Nat) (lpns : List Nat) (state : FlushState) :
    Calls p anyCall state.ftl (effect FlushState.ftl (flushPages p loc start elpn zid lpns state)) := by
  induction lpns generalizing state with
  | nil => exact .done
  | cons lpn rest ih =>
      unfold flushPages
      dsimp only
      have counted := count_inplace_aside p state.ftl lpn
      generalize countInplace p state.ftl lpn = middle at counted
      have noted : Aside p state.ftl (if (!zmsIsDualNs p.zpp.nsType && loc == .pslc) = true then
          putAgg middle zid (middle.zoneAggLpns zid ++ [lpn]) else middle) := by
        split
        · exact aside_trans p _ _ _ counted (aside_still p _ _ rfl rfl id)
        · exact counted
      generalize (if (!zmsIsDualNs p.zpp.nsType && loc == .pslc) = true then putAgg middle zid (middle.zoneAggLpns zid ++ [lpn])
          else middle) = ready at noted
      refine calls_trans p anyCall state.ftl ready _ (calls_aside p state.ftl ready noted) ?_
      refine calls_bind p anyCall ready Prod.snd FlushState.ftl _ _ ?_ ?_
      · exact nand_write_calls p (foregroundGc p) (foreground_gc_calls p) ready ready start lpn loc .userIo _ elpn
          (calls_one p ready _ _ (.map lpn loc .userIo))
      · intro written _
        exact ih ⟨written.2, _, _⟩

theorem flush_round_calls (start elpn zid : Nat) (lpns : List Nat) (state : FlushState) :
    Calls p anyCall state.ftl (effect (fun done : List Nat × FlushState => done.2.ftl) (flushRound p start elpn zid lpns state)) := by
  unfold flushRound
  dsimp only
  split
  · refine calls_bind p anyCall state.ftl Prod.snd _ _ _ ?_ ?_
    · exact internal_write_calls p (foregroundGc p) (foreground_gc_calls p) state.ftl _ .userIo .normal start
    · intro written _
      exact calls_aside p written.2 _ (aside_still p _ _ rfl rfl id)
  · refine calls_bind p anyCall state.ftl FlushState.ftl _ _ _ (flush_pages_calls p _ start elpn zid _ state) ?_
    intro flushed _
    exact calls_aside p flushed.ftl _ (aside_still p _ _ rfl rfl id)

theorem flush_rounds_calls (start elpn zid fuel : Nat) (lpns : List Nat) (state : FlushState) :
    Calls p anyCall state.ftl (effect FlushState.ftl (flushRounds p start elpn zid fuel lpns state)) := by
  induction fuel generalizing lpns state with
  | zero =>
      cases lpns with
      | nil => exact .done
      | cons lpn rest => exact .stop state.ftl .hang .done hang_harmless
  | succ fuel ih =>
      cases lpns with
      | nil => exact .done
      | cons lpn lpns =>
          unfold flushRounds
          refine calls_bind p anyCall state.ftl (fun done : List Nat × FlushState => done.2.ftl) _ _ _
            (flush_round_calls p start elpn zid _ state) ?_
          intro rounded _
          dsimp only
          split
          · exact .done
          · exact ih rounded.1 rounded.2

theorem buffer_flush_calls (ftl : ZmsFtl) (index start : Nat) :
    Calls p anyCall ftl (effect Prod.snd (bufferFlush p ftl index start)) := by
  unfold bufferFlush
  dsimp only
  refine calls_bind p anyCall ftl FlushState.ftl _ _ _ (flush_rounds_calls p start _ _ _ _ ⟨ftl, 0, start⟩) ?_
  intro flushed _
  have counted : Aside p flushed.ftl (countHostWrite p flushed.ftl (ftl.writeBuffer index)) := aside_still p _ _ rfl rfl id
  have cleared : Aside p (countHostWrite p flushed.ftl (ftl.writeBuffer index))
      (clearBuffer (countHostWrite p flushed.ftl (ftl.writeBuffer index)) index flushed.latest) :=
    aside_still p _ _ rfl rfl (put_buffer_sized _ index _ rfl)
  exact calls_aside p flushed.ftl _ (aside_trans p _ _ _ counted cleared)

end Flushing

section Writing

variable (p : Params)

theorem fill_aside (ftl : ZmsFtl) (index zid lpn pgs latest : Nat) :
    Aside p ftl (fillBuffer { ftl with timing := (ssdAdvanceWriteBuffer ftl.timing latest (pgs * pgsz)).2 } index zid lpn pgs
      (ssdAdvanceWriteBuffer ftl.timing latest (pgs * pgsz)).1) := by
  refine aside_still p _ _ rfl (pcie_planes _ _ _) fun sized => ?_
  refine put_buffer_sized _ index _ ?_ sized
  have own := sized index
  simp only [Buffer.pgs] at own
  simp only [Buffer.pgs, List.length_append, List.length_map, List.length_range, Nat.mul_add, own]

theorem write_step_calls (index zid lpn pgs : Nat) (progress : WriteProgress) :
    Calls p anyCall progress.ftl (effect WriteProgress.ftl (writeStep p index zid lpn pgs progress)) := by
  unfold writeStep
  dsimp only
  have filled : Aside p progress.ftl (fillBuffer { progress.ftl with
      timing := (ssdAdvanceWriteBuffer progress.ftl.timing progress.latest (pgs * pgsz)).2 } index zid lpn pgs
      (ssdAdvanceWriteBuffer progress.ftl.timing progress.latest (pgs * pgsz)).1) :=
    fill_aside p progress.ftl index zid lpn pgs progress.latest
  generalize fillBuffer _ index zid lpn pgs _ = ready at filled
  split
  · refine calls_trans p anyCall progress.ftl ready _ (calls_aside p progress.ftl ready filled) ?_
    refine calls_bind p anyCall ready Prod.snd _ _ _ (buffer_flush_calls p ready index _) ?_
    intro flushed _
    exact .done
  · exact calls_aside p progress.ftl ready filled

theorem write_loop_calls (index zid elpn fuel lpn : Nat) (progress : WriteProgress) :
    Calls p anyCall progress.ftl (effect WriteProgress.ftl (writeLoop p index zid elpn fuel lpn progress)) := by
  induction fuel generalizing lpn progress with
  | zero =>
      unfold writeLoop
      split
      · exact .done
      · exact .stop progress.ftl .hang .done hang_harmless
  | succ fuel ih =>
      unfold writeLoop
      dsimp only
      split
      · exact .done
      · split
        · exact .stop progress.ftl .hang .done hang_harmless
        · refine calls_bind p anyCall progress.ftl WriteProgress.ftl _ _ _ (write_step_calls p index zid lpn _ progress) ?_
          intro stepped _
          split
          · exact .done
          · exact ih _ stepped

theorem finish_write_aside (cmd : RwCommand) (progress : WriteProgress) (buffer : Option Nat) (status : NvmeStatus) :
    Aside p progress.ftl (finishWrite cmd progress buffer status).ftl := by
  cases buffer <;> exact aside_still p _ _ rfl rfl id

theorem write_buffered_calls (req : Request) (cmd : RwCommand) (zid index : Nat) (ftl : ZmsFtl) :
    Calls p anyCall ftl (effect WriteOutcome.ftl (writeBuffered p req cmd zid index ftl)) := by
  have checked := only_table_aside p _ _ (zns_write_check_only p ftl cmd.slba (nrLbasFromRwCmd cmd))
  unfold writeBuffered
  dsimp only
  split
  · exact .stop ftl .outOfBounds .done (by decide)
  · split
    · rename_i after granted
      rw [granted] at checked
      refine calls_trans p anyCall ftl after _ (calls_aside p ftl after checked) ?_
      refine calls_bind p anyCall after WriteProgress.ftl _ _ _ (write_loop_calls p index zid _ _ _ ⟨after, _, _⟩) ?_
      intro progress _
      exact calls_aside p progress.ftl _ (finish_write_aside p cmd progress _ _)
    · rename_i refused after _ denied
      rw [denied] at checked
      exact calls_aside p ftl _ (aside_trans p _ _ _ checked (finish_write_aside p cmd ⟨after, _, _⟩ _ _))

theorem switch_zone_calls (req : Request) (cmd : RwCommand) (index : Nat) (ftl : ZmsFtl) :
    Calls p anyCall ftl (effect WriteOutcome.ftl (switchZone p req cmd index ftl)) := by
  unfold switchZone bufferAllocate
  by_cases busy : (ftl.writeBuffer index).busy = true
  · rw [if_pos busy]
    exact .done
  · rw [if_neg busy]
    dsimp only
    have locked : Aside p ftl (putBuffer ftl index { ftl.writeBuffer index with busy := true }) := relabel_aside p _ _ _ rfl rfl
    generalize putBuffer ftl index _ = ready at locked
    refine calls_trans p anyCall ftl ready _ (calls_aside p ftl ready locked) ?_
    refine calls_bind p anyCall ready Prod.snd _ _ _ (buffer_flush_calls p ready index _) ?_
    intro flushed _
    exact calls_aside p flushed.2 _ (aside_still p _ _ rfl rfl id)

theorem write_to_buffer_calls (req : Request) (cmd : RwCommand) (zid : Nat) (ftl : ZmsFtl) :
    Calls p anyCall ftl (effect WriteOutcome.ftl (writeToBuffer p req cmd zid ftl)) := by
  have got := zms_wb_get_aside p ftl (lbaToLpn cmd.slba)
  unfold writeToBuffer
  dsimp only
  split
  · rename_i after none
    rw [none] at got
    exact calls_aside p ftl after got
  · rename_i index after found
    rw [found] at got
    split
    · exact calls_trans p anyCall ftl after _ (calls_aside p ftl after got) (switch_zone_calls p req cmd index after)
    · split
      · exact calls_aside p ftl _ (aside_trans p _ _ _ got (finish_write_aside p cmd ⟨after, _, _⟩ _ _))
      · unfold bufferAllocate
        split
        · exact calls_aside p ftl _ (aside_trans p _ _ _ got (relabel_aside p _ _ _ rfl rfl))
        · rename_i locked taken
          split at taken
          · cases taken
          · have ready : Aside p ftl locked := by
              rw [← Option.some.inj taken]
              refine aside_trans p _ _ _ ?_ (relabel_aside p _ index _ rfl rfl)
              exact aside_trans p _ _ _ got (relabel_aside p after index _ rfl rfl)
            exact calls_trans p anyCall ftl locked _ (calls_aside p ftl locked ready)
              (write_buffered_calls p req cmd zid index locked)

theorem started_aside (ftl : ZmsFtl) (cmd : RwCommand) (slba nrLba start : Nat) :
    Aside p ftl (noteRequest (notePartial ftl cmd) slba nrLba start) := by
  have partly : Aside p ftl (notePartial ftl cmd) := by
    unfold notePartial
    split
    · exact aside_still p _ _ rfl rfl id
    · exact aside_refl p ftl
  unfold noteRequest
  split
  · exact aside_trans p _ _ _ partly (aside_still p _ _ rfl rfl id)
  · exact partly

theorem zoned_write_calls (ftl : ZmsFtl) (req : Request) (cmd : RwCommand) :
    Calls p anyCall ftl (effect WriteOutcome.ftl (zonedWrite p ftl req cmd)) := by
  unfold zonedWrite
  split
  · exact .stop ftl .outOfBounds .done (by decide)
  · unfold handleWriteRequest
    dsimp only
    split
    · exact calls_aside p ftl _ (aside_still p _ _ rfl rfl id)
    · split
      · exact .stop ftl .outOfBounds .done (by decide)
      · split
        · exact calls_aside p ftl _ (aside_still p _ _ rfl rfl id)
        · refine calls_trans p anyCall ftl _ _ (calls_aside p ftl _ ?_) (write_to_buffer_calls p req _ _ _)
          refine aside_trans p ftl _ _ ?_ (started_aside p _ _ _ _ _)
          exact aside_still p _ _ rfl rfl id

theorem flush_buffer_calls (ftl : ZmsFtl) (index : Nat) : Calls p anyCall ftl (flushBuffer p ftl index) := by
  unfold flushBuffer
  split
  · rw [← effect_id (_ >>= _)]
    refine calls_bind p anyCall ftl Prod.snd id _ _ (buffer_flush_calls p ftl index 0) ?_
    intro flushed _
    exact .done
  · exact .done

theorem flush_buffers_calls (req : Request) (indices : List Nat) (ftl : ZmsFtl) :
    Calls p anyCall ftl (flushBuffers p req indices ftl) := by
  induction indices generalizing ftl with
  | nil => exact .done
  | cons index rest ih =>
      unfold flushBuffers
      have noted : Aside p ftl (putBuffer ftl index { ftl.writeBuffer index with sqid := req.sqId }) := relabel_aside p _ _ _ rfl rfl
      generalize putBuffer ftl index _ = ready at noted
      refine calls_trans p anyCall ftl ready _ (calls_aside p ftl ready noted) ?_
      rw [← effect_id (_ >>= _)]
      refine calls_bind p anyCall ready id id _ _ (by rw [effect_id]; exact flush_buffer_calls p ready index) ?_
      intro flushed _
      rw [effect_id]
      exact ih flushed

theorem zns_flush_calls (ftl : ZmsFtl) (req : Request) : Calls p anyCall ftl (effect Prod.snd (znsFlush p ftl req)) := by
  unfold znsFlush
  refine calls_bind p anyCall ftl id Prod.snd _ _ (by rw [effect_id]; exact flush_buffers_calls p req _ ftl) ?_
  intro flushed _
  exact calls_aside p flushed _ (aside_still p _ _ rfl rfl id)

end Writing

section Resetting

variable (p : Params)

-- All a management action does to the tables is to drop mappings and to erase.
def resetCall (_ : ZmsFtl) : Op → Prop
  | .aside => True
  | .drop _ => True
  | .erase _ _ => True
  | _ => False

theorem reset_aside (ftl next : ZmsFtl) (same : Aside p ftl next) : Calls p resetCall ftl (.ok next) :=
  .call ftl .aside _ .done trivial (.aside next same)

theorem erase_linked_lines_calls (fuel : Nat) (ftl : ZmsFtl) (target : Option LineRef) :
    Calls p resetCall ftl (eraseLinkedLines p fuel ftl target) := by
  induction fuel generalizing ftl target with
  | zero =>
      cases target with
      | none => exact .done
      | some target => exact .stop ftl .hang .done hang_harmless
  | succ fuel ih =>
      cases target with
      | none => exact .done
      | some target =>
          unfold eraseLinkedLines
          dsimp only
          split
          · exact calls_trans p resetCall ftl _ _ (.call ftl (.erase target .userIo) _ .done trivial (.erase target .userIo)) (ih _ _)
          · exact ih _ _

theorem reset_page_calls (scan : ResetScan) (lpn : Nat) (page : Page) (map : MapType)
    (mapped : getMaptblEnt p scan.ftl lpn = .mapped page map) :
    Calls p resetCall scan.ftl (effect ResetScan.ftl (resetPage p scan lpn page)) := by
  have dropped : Calls p resetCall scan.ftl (.ok (dropMapping p scan.ftl lpn page)) :=
    .call scan.ftl (.drop lpn) _ .done trivial (.drop lpn page map mapped)
  unfold resetPage
  dsimp only
  refine calls_trans p resetCall scan.ftl _ _ dropped ?_
  split
  · refine calls_bind p resetCall _ id ResetScan.ftl _ _ (by rw [effect_id]; exact erase_linked_lines_calls p _ _ _) ?_
    intro erased _
    exact .done
  · exact .done

theorem reset_pages_calls (lpns : List Nat) (scan : ResetScan) :
    Calls p resetCall scan.ftl (effect ResetScan.ftl (resetPages p lpns scan)) := by
  induction lpns generalizing scan with
  | nil => exact .done
  | cons lpn rest ih =>
      unfold resetPages
      split
      · rename_i page map mapped
        refine calls_bind p resetCall scan.ftl ResetScan.ftl ResetScan.ftl _ _ (reset_page_calls p scan lpn page map mapped) ?_
        intro dropped _
        exact ih dropped
      · exact .done

theorem zone_reset_calls (ftl : ZmsFtl) (zid : Nat) : Calls p resetCall ftl (zoneReset p ftl zid) := by
  have got := zms_wb_get_aside p ftl (zoneToSlpn p zid)
  unfold zoneReset
  dsimp only
  generalize (zmsWbGet p ftl (zoneToSlpn p zid)).1 = writeBuffer
  generalize (zmsWbGet p ftl (zoneToSlpn p zid)).2 = middle at got
  refine calls_trans p resetCall ftl middle _ (reset_aside p ftl middle got) ?_
  rw [← effect_id (_ >>= _)]
  refine calls_bind p resetCall middle ResetScan.ftl id _ _ (reset_pages_calls p _ ⟨middle, none, none⟩) ?_
  intro scan _
  refine calls_bind p resetCall scan.ftl id id _ _ ?_ ?_
  · rw [effect_id]
    unfold eraseRest
    split
    · split
      · exact erase_linked_lines_calls p _ _ _
      · exact .done
    · exact .done
  · intro erased _
    exact reset_aside p erased _ (aside_trans p _ _ _ (drop_buffered_aside p scan _ writeBuffer erased) (aside_still p _ _ rfl rfl id))

theorem zmgmt_reset_calls (ftl : ZmsFtl) (zid : Nat) : Calls p resetCall ftl (effect Prod.snd (zmgmtSendResetZone p ftl zid)) := by
  have reset : ∀ booked, Aside p ftl booked →
      Calls p resetCall ftl (effect Prod.snd (do
        let done ← resetZone p (changeZoneState booked zid .empty) zid
        pure (NvmeStatus.success, done))) := by
    intro booked same
    refine calls_trans p resetCall ftl _ _ (reset_aside p ftl booked same) ?_
    refine calls_bind p resetCall booked id Prod.snd _ _ ?_ ?_
    · rw [effect_id]
      unfold resetZone
      generalize cleared : putDesc (changeZoneState booked zid .empty) zid _ = ready
      have same : Aside p booked ready := by
        rw [← cleared]
        exact aside_still p _ _ rfl rfl id
      exact calls_trans p resetCall booked ready _ (reset_aside p booked ready same) (zone_reset_calls p ready zid)
    · intro done _
      exact .done
  unfold zmgmtSendResetZone
  dsimp only
  split
  · exact reset _ (only_table_aside p _ _ (only_table_trans _ _ _ (release_only ftl .openZone) (release_active_only _ zid)))
  · exact reset _ (only_table_aside p _ _ (only_table_trans _ _ _ (release_only ftl .openZone) (release_active_only _ zid)))
  · exact reset _ (only_table_aside p _ _ (release_active_only ftl zid))
  · exact reset ftl (aside_refl p ftl)
  · exact reset ftl (aside_refl p ftl)
  · exact .done

theorem zmgmt_send_calls (ftl : ZmsFtl) (slba : Nat) (action : ZoneSendAction) (option : Bool) :
    Calls p resetCall ftl (effect Prod.snd (zmgmtSend p ftl slba action option)) := by
  unfold zmgmtSend
  dsimp only
  split
  · exact .stop ftl .outOfBounds .done (by decide)
  · cases action with
    | closeZone => exact reset_aside p ftl _ (only_table_aside p _ _ (close_only ftl _))
    | finishZone => exact reset_aside p ftl _ (only_table_aside p _ _ (finish_only ftl _))
    | openZone => exact reset_aside p ftl _ (only_table_aside p _ _ (open_zone_only ftl _ option))
    | resetZone => exact zmgmt_reset_calls p ftl _
    | offlineZone => exact reset_aside p ftl _ (only_table_aside p _ _ (offline_only ftl _))
    | flushExplZrwa => exact .done

theorem zmgmt_send_all_calls (cmd : ZoneMgmtSend) (zids : List Nat) (ftl : ZmsFtl) :
    Calls p resetCall ftl (zmgmtSendAll p cmd zids ftl) := by
  induction zids generalizing ftl with
  | nil => exact .done
  | cons zid rest ih =>
      unfold zmgmtSendAll
      rw [← effect_id (_ >>= _)]
      refine calls_bind p resetCall ftl Prod.snd id _ _ (zmgmt_send_calls p ftl _ _ _) ?_
      intro sent _
      rw [effect_id]
      exact ih sent.2

theorem zns_zmgmt_send_calls (ftl : ZmsFtl) (cmd : ZoneMgmtSend) :
    Calls p resetCall ftl (effect Prod.snd (znsZmgmtSend p ftl cmd)) := by
  unfold znsZmgmtSend
  split
  · refine calls_bind p resetCall ftl id Prod.snd _ _ (by rw [effect_id]; exact zmgmt_send_all_calls p cmd _ ftl) ?_
    intro sent _
    exact .done
  · exact zmgmt_send_calls p ftl _ _ _

end Resetting

section Reading

variable (p : Params)

theorem l2p_search_missed (ftl other : ZmsFtl) (lpn : Nat) (same : other.l2p = ftl.l2p) :
    l2pSearch p other lpn = l2pSearch p ftl lpn := by
  simp only [l2pSearch, same]

theorem map_read_calls (lpn : Nat) (grans : List MapType) (latest : Nat) (ftl : ZmsFtl) (missed : l2pSearch p ftl lpn = none)
    (tried : ∀ gran ∈ grans, gran ∈ mapType) : Calls p anyCall ftl (.ok (mapRead p lpn grans (latest, ftl)).2) := by
  induction grans generalizing latest ftl with
  | nil => exact .done
  | cons gran rest ih =>
      have fetched := nand_read_aside p ftl [getGranularityStartLpn p lpn gran] .mapReadIo latest
      unfold mapRead
      dsimp only
      generalize nandRead p ftl [getGranularityStartLpn p lpn gran] .mapReadIo latest = done at fetched
      obtain ⟨time, middle⟩ := done
      dsimp only at fetched ⊢
      have start : Calls p anyCall ftl (.ok middle) := calls_aside p ftl middle fetched
      have missedAfter : l2pSearch p middle lpn = none := by
        rw [l2p_search_missed p ftl middle lpn (congrArg Core.l2p fetched.core)]
        exact missed
      have onward := ih time middle missedAfter fun other member => tried other (List.mem_cons_of_mem gran member)
      split
      · rename_i page map mapped
        split
        · rename_i sameGran
          rw [sameGran] at mapped
          have filled : Calls p anyCall middle (.ok { middle with
              l2p := insertMissed p middle (getGranularityStartLpn p lpn gran) gran }) :=
            calls_one p middle _ _ (.fill lpn gran page missedAfter (tried gran List.mem_cons_self) mapped)
          refine calls_trans p anyCall ftl middle _ start (calls_trans p anyCall middle _ _ filled ?_)
          exact calls_aside p _ _ (aside_still p _ _ rfl rfl id)
        · exact calls_trans p anyCall ftl middle _ start onward
      · exact calls_trans p anyCall ftl middle _ start onward

theorem lookup_l2p_calls (state : ReadState) (lpn : Nat) : Calls p anyCall state.ftl (.ok (lookupL2p p state lpn).ftl) := by
  have fetched := nand_read_aside p state.ftl state.toRead .userIo state.readBegin
  unfold lookupL2p
  split
  · rename_i mapSlpn index found
    have touched : Calls p anyCall state.ftl (.ok { state.ftl with l2p := l2pAccess state.ftl.l2p mapSlpn index }) :=
      calls_one p state.ftl _ _ (.hit lpn mapSlpn index found)
    exact calls_trans p anyCall state.ftl _ _ touched (calls_aside p _ _ (aside_still p _ _ rfl rfl id))
  · rename_i missed
    generalize nandRead p state.ftl state.toRead .userIo state.readBegin = done at fetched
    obtain ⟨completed, middle⟩ := done
    dsimp only at fetched ⊢
    refine calls_trans p anyCall state.ftl middle _ (calls_aside p state.ftl middle fetched) ?_
    refine map_read_calls p lpn mapType state.readBegin middle ?_ fun _ member => member
    rw [l2p_search_missed p state.ftl middle lpn (congrArg Core.l2p fetched.core)]
    exact missed

theorem read_page_calls (slpn : Nat) (state : ReadState) (lpn : Nat) :
    Calls p anyCall state.ftl (.ok (readPage p slpn state lpn).ftl) := by
  have got := zms_wb_get_aside p { state.ftl with stats := { state.ftl.stats with hostRPgs := state.ftl.stats.hostRPgs + 1 } } slpn
  unfold readPage
  dsimp only
  generalize zmsWbGet p _ slpn = found at got
  obtain ⟨buffer, middle⟩ := found
  dsimp only at got ⊢
  have found : Aside p state.ftl middle := by
    refine aside_trans p state.ftl _ middle ?_ got
    exact aside_still p _ _ rfl rfl id
  have start : Calls p anyCall state.ftl (.ok middle) := calls_aside p state.ftl middle found
  split
  · exact calls_aside p state.ftl _ (aside_trans p _ _ _ found (aside_still p _ _ rfl rfl id))
  · refine calls_trans p anyCall state.ftl middle _ start ?_
    have looked := lookup_l2p_calls p { state with ftl := middle, wbReadPgs := state.wbReadPgs + middle.gcAggLpns.count lpn } lpn
    generalize lookupL2p p _ lpn = after at looked
    refine calls_trans p anyCall middle after.ftl _ looked ?_
    dsimp only
    split
    · exact .done
    · exact calls_aside p after.ftl _ (aside_still p _ _ rfl rfl id)

theorem read_pages_calls (slpn : Nat) (lpns : List Nat) (state : ReadState) :
    Calls p anyCall state.ftl (.ok (lpns.foldl (readPage p slpn) state).ftl) := by
  induction lpns generalizing state with
  | nil => exact .done
  | cons lpn rest ih => exact calls_trans p anyCall _ _ _ (read_page_calls p slpn state lpn) (ih _)

theorem handle_read_request_calls (ftl : ZmsFtl) (req : Request) (cmd : RwCommand) :
    Calls p anyCall ftl (.ok (handleReadRequest p ftl req cmd).2) := by
  unfold handleReadRequest
  dsimp only
  have pages := read_pages_calls p (lbaToLpn cmd.slba)
    (lpnRange (lbaToLpn cmd.slba) (lbaToLpn (u64 (cmd.slba + nrLbasFromRwCmd cmd - 1))))
    ⟨{ ftl with currentTime := req.nsecsStart }, [],
      req.nsecsStart + (if nrLbasFromRwCmd cmd * secsz ≤ 4096 then fw4kbRdLat else fwRdLat),
      req.nsecsStart + (if nrLbasFromRwCmd cmd * secsz ≤ 4096 then fw4kbRdLat else fwRdLat), 0⟩
  generalize List.foldl (readPage p (lbaToLpn cmd.slba)) _ _ = state at pages
  have fetched := nand_read_aside p state.ftl state.toRead .userIo state.readBegin
  generalize nandRead p state.ftl state.toRead .userIo state.readBegin = done at fetched
  obtain ⟨completed, middle⟩ := done
  dsimp only at fetched ⊢
  refine calls_trans p anyCall ftl _ _ (calls_aside p ftl { ftl with currentTime := req.nsecsStart } (aside_still p _ _ rfl rfl id)) ?_
  refine calls_trans p anyCall _ _ _ pages (calls_aside p state.ftl _ (aside_trans p _ middle _ fetched ?_))
  refine aside_still p middle _ rfl ?_ id
  refine (pcie_planes _ _ _).trans ?_
  split
  · rfl
  · exact pcie_planes middle.timing _ _

theorem zoned_read_calls (ftl : ZmsFtl) (req : Request) (cmd : RwCommand) :
    Calls p anyCall ftl (effect Prod.snd (zonedRead p ftl req cmd)) := by
  unfold zonedRead
  dsimp only
  split
  · exact .stop ftl .outOfBounds .done (by decide)
  · split
    · exact .done
    · split
      · exact .done
      · split
        · exact .done
        · exact handle_read_request_calls p ftl req cmd

end Reading

def eventRun (p : Params) (ftl : ZmsFtl) : Event → Exec ZmsFtl
  | .write req cmd => effect WriteOutcome.ftl (zonedWrite p ftl req cmd)
  | .read req cmd => effect Prod.snd (zonedRead p ftl req cmd)
  | .flush req => effect Prod.snd (znsFlush p ftl req)
  | .mgmtSend cmd => effect Prod.snd (znsZmgmtSend p ftl cmd)
  | .release entry => .ok ((runRelease ftl entry).getD ftl)

theorem event_calls (p : Params) (ftl : ZmsFtl) (event : Event) : Calls p anyCall ftl (eventRun p ftl event) := by
  cases event with
  | write req cmd => exact zoned_write_calls p ftl req cmd
  | read req cmd => exact zoned_read_calls p ftl req cmd
  | flush req => exact zns_flush_calls p ftl req
  | mgmtSend cmd => exact calls_mono p resetCall anyCall (fun _ _ _ => trivial) ftl _ (zns_zmgmt_send_calls p ftl cmd)
  | release entry =>
      refine calls_aside p ftl _ ?_
      unfold runRelease
      split
      · rename_i index _ _
        have released : Aside p ftl (bufferRelease ftl index) := relabel_aside p ftl index _ rfl rfl
        exact aside_trans p _ _ _ released (aside_still p _ _ rfl rfl id)
      · exact aside_refl p ftl

theorem step_event_run (p : Params) (ftl next : ZmsFtl) (event : Event) (taken : Step p ftl event next) :
    eventRun p ftl event = .ok next := by
  cases taken with
  | write req cmd outcome ran => simp [eventRun, effect, ran]
  | read _ req cmd done ran => simp [eventRun, effect, ran]
  | flush _ req done ran => simp [eventRun, effect, ran]
  | mgmtSend _ cmd status ran => simp [eventRun, effect, ran]
  | release _ entry ran => simp [eventRun, ran]

theorem step_calls (p : Params) (ftl next : ZmsFtl) (event : Event) (taken : Step p ftl event next) :
    Calls p anyCall ftl (.ok next) := by
  have calls := event_calls p ftl event
  rw [step_event_run p ftl next event taken] at calls
  exact calls

end ConZone
