import ConZone.StoredPages
import ConZone.SlcCalls
import ConZone.TlcBatches

set_option autoImplicit false

namespace ConZone

def callLpns (ftl : ZmsFtl) : PageCall → List Nat
  | .flush index _ => (ftl.writeBuffer index).lpns
  | .internal lpns .. => lpns

def callIo : PageCall → IoType
  | .flush .. => .userIo
  | .internal _ ioType .. => ioType

-- The LPNs of a buffer are the next pages of a zone that has its first ones on
-- the medium.
structure NextPages (p : Params) (ftl : ZmsFtl) (index zid first : Nat) : Prop where
  inside : zid < p.zpp.nrZones
  filled : ZoneFilled p ftl zid first
  lpns : (ftl.writeBuffer index).lpns = (List.range' first (ftl.writeBuffer index).pgs).map fun i => zoneToSlpn p zid + i
  fits : first + (ftl.writeBuffer index).pgs ≤ p.zpp.pgsPerZone

inductive FlushesNext (p : Params) (ftl : ZmsFtl) : PageCall → Prop where
  | flush (index start zid first : Nat) (next : NextPages p ftl index zid first) : FlushesNext p ftl (.flush index start)

-- A state that a run of commands passes, between two commands or within one.
-- What a command does apart from these calls leaves the medium alone, such as
-- the filling of a buffer.
inductive Underway (p : Params) (allowed : ZmsFtl → Event → Prop) (calls : ZmsFtl → PageCall → Prop) : ZmsFtl → Prop where
  | between (ftl : ZmsFtl) (reached : Reachable p allowed ftl) : Underway p allowed calls ftl
  | aside (before after : ZmsFtl) (underway : Underway p allowed calls before) (media : mediaSide after = mediaSide before)
      (aggs : after.zoneAggLpns = before.zoneAggLpns) : Underway p allowed calls after
  | called (before after : ZmsFtl) (call : PageCall) (time : Nat) (underway : Underway p allowed calls before) (meets : calls before call)
      (ran : runCall p before call = .ok (time, after)) : Underway p allowed calls after

-- More write credits are left than the call has pages: no collection falls due.
def Unhurried (p : Params) (loc : Loc) (ftl : ZmsFtl) (call : PageCall) : Prop :=
  takesCredit p loc (callIo call) = true → ((callLpns ftl call).length : Int) < (ftl.wfc loc).writeCredits

def OnMedia (p : Params) (loc : Loc) : PageCall → Prop
  | .flush .. => zmsDualTargetLoc p.zpp.nsType = loc
  | .internal _ _ target _ => target = loc

-- The calls whose pages come in the order of a line, from a known place on.
inductive InTurn (config : DualConfig) : Loc → ZmsFtl → PageCall → Nat → Prop where
  | slc (ftl : ZmsFtl) (call : PageCall) (first : Nat)
      (underway : Underway (dualParams config .pslc) (fun _ _ => True) (fun _ _ => True) ftl) (media : OnMedia (dualParams config .pslc) .pslc call)
      (calm : Unhurried (dualParams config .pslc) .pslc ftl call) : InTurn config .pslc ftl call first
  | unit (ftl : ZmsFtl) (call : PageCall) (lpn first : Nat) (cells : config.cellMode ≠ 1)
      (underway : Underway (dualParams config .normal) (fun _ _ => True) (fun _ _ => True) ftl)
      (media : OnMedia (dualParams config .normal) .normal call) (calm : Unhurried (dualParams config .normal) .normal ftl call)
      (lpns : callLpns ftl call = List.range' lpn (callLpns ftl call).length)
      (line : StaysInLine (dualParams config .normal) ftl (callIo call) lpn (callLpns ftl call).length first)
      (alone : ∀ zid, ftl.zoneAggLpns zid = []) : InTurn config .normal ftl call first
  | zone (loc : Loc) (ftl : ZmsFtl) (index start zid first : Nat) (plain : PlainConfig config loc)
      (underway : Underway (dualParams config loc) (Orderly (dualParams config loc)) (FlushesNext (dualParams config loc)) ftl)
      (next : NextPages (dualParams config loc) ftl index zid first) : InTurn config loc ftl (.flush index start) first

section Bounds

variable (p : Params) (medium : Medium p) (allowed : ZmsFtl → Event → Prop) (calls : ZmsFtl → PageCall → Prop)

include medium in
theorem underway_bounded (ftl : ZmsFtl) (underway : Underway p allowed calls ftl) : Bounded p ftl := by
  have rules := bounded_rules p medium
  induction underway with
  | between ftl reached => exact reachable_kept p medium (Bounded p) rules allowed (realize_bounded p medium) ftl reached
  | aside before after _ media _ ih => exact media_bounded p before after media ih
  | called before after call time _ _ ran ih =>
      cases call with
      | flush index start => exact buffer_flush_kept p (Bounded p) rules before after index start time ih ran
      | internal lpns ioType loc start =>
          exact internal_write_kept p (Bounded p) rules (foregroundGc p) (foreground_gc_kept p (Bounded p) rules) before after lpns ioType loc
            start time ih ran

end Bounds

section Zones

variable (config : DualConfig) (loc : Loc) (plain : PlainConfig config loc)

include plain in
theorem underway_resting (ftl : ZmsFtl)
    (underway : Underway (dualParams config loc) (Orderly (dualParams config loc)) (FlushesNext (dualParams config loc)) ftl) :
    plainResting config loc ftl ∧ (loc = .normal → ∀ zid, ftl.zoneAggLpns zid = []) := by
  have contract := plain_contract config loc plain
  induction underway with
  | between ftl reached =>
      obtain ⟨store, _, stands⟩ := reached_stands config loc plain ftl reached
      exact ⟨stands.settled.rests, fun normal => stands.settled.spread.aggs (normal_is_tlc _ loc _ contract normal)⟩
  | aside before after _ media aggs ih =>
      refine ⟨contract.media before after media ih.1, fun normal => ?_⟩
      rw [aggs]
      exact ih.2 normal
  | called before after call time _ meets ran ih =>
      cases meets with
      | flush index start zid first next =>
          obtain ⟨state, flushing, rest⟩ := bind_ok _ _ _ ran
          rw [next.lpns] at flushing
          have lands := flush_rounds_land _ loc _ contract start _ _ zid next.inside _ _ first ⟨before, 0, start⟩ state next.fits next.filled ih.1
            (fun normal => ih.2 normal _) flushing
          rw [← (Prod.mk.inj (pure_ok _ _ rest)).2]
          refine ⟨contract.media state.ftl _ rfl lands.resting, fun normal => ?_⟩
          change ∀ zid, state.ftl.zoneAggLpns zid = []
          rw [lands.aggs normal]
          exact ih.2 normal

end Zones

theorem last_lpn (lpns : List Nat) (other lpn : Nat) (ending : lpns.getLast? = some lpn) : lpn = lpns.getLast?.getD other := by
  rw [ending]
  rfl

section Followed

variable (p : Params) (delay : p.zpp.enableGcDelay = true) (dual : zmsIsDualNs p.zpp.nsType = true)
variable (ready : Nat → List Nat → ZmsFtl → Prop) (shown : Nat → PageWrite → Prop) (fine : List PageWrite → Prop) (place : Nat)

include delay dual in
theorem flush_call_followed (alone : ∀ place lpns ftl, ready place lpns ftl → zmsDualTargetLoc p.zpp.nsType = .normal → ∀ zid, ftl.zoneAggLpns zid = [])
    (counted : ∀ place lpns ftl loc pgs, ready place lpns ftl → ready place lpns (countFlush ftl loc pgs))
    (follow : ∀ start elpn, PagesFollow p (foregroundGc p) (foregroundCalls p) (countInplace p) .userIo (zmsDualTargetLoc p.zpp.nsType) start elpn
      ready shown fine) (ftl next : ZmsFtl) (index start time : Nat) (begun : ready place (ftl.writeBuffer index).lpns ftl)
    (ran : bufferFlush p ftl index start = .ok (time, next)) (clear : anyFull next = false) :
    ∃ after, Followed (zmsDualTargetLoc p.zpp.nsType) ((ftl.writeBuffer index).lpns.getLast?.getD invalidLpn) ready shown fine place
      (ftl.writeBuffer index).lpns [] after (bufferFlushTrace p ftl index start) := by
  obtain ⟨state, flushing, rest⟩ := bind_ok _ _ _ ran
  have same : anyFull next = anyFull state.ftl := by
    rw [← (Prod.mk.inj (pure_ok _ _ rest)).2]
    rfl
  rw [same] at clear
  exact ⟨state.ftl, flush_rounds_followed p delay dual start _ _ ready shown fine (fun place lpns ftl begun normal => alone place lpns ftl begun normal _)
    counted (follow start _) _ _ place ⟨ftl, 0, start⟩ state begun flushing clear⟩

include delay in
theorem internal_call_followed (prepares : Prepares p (dropIfMapped p)) (loc : Loc) (ioType : IoType)
    (follow : ∀ start elpn, PagesFollow p (foregroundGc p) (foregroundCalls p) (dropIfMapped p) ioType loc start elpn ready shown fine)
    (ftl next : ZmsFtl) (lpns : List Nat) (start time : Nat) (begun : ready place lpns (nandRead p ftl lpns ioType start).2)
    (ran : internalWrite (foregroundGc p) p ftl lpns ioType loc start = .ok (time, next)) (clear : anyFull next = false) :
    ∃ after, Followed loc (lpns.getLast?.getD 0) ready shown fine place lpns [] after
      (internalWriteTrace p (foregroundCalls p) (foregroundGc p) ftl lpns ioType loc start) := by
  unfold internalWrite at ran
  unfold internalWriteTrace
  generalize nandRead p ftl lpns ioType start = fetched at ran begun ⊢
  obtain ⟨writeStart, middle⟩ := fetched
  dsimp only at ran begun ⊢
  rw [internal_write_pages] at ran
  obtain ⟨last, looped, rest⟩ := bind_ok _ _ _ ran
  rw [← (Prod.mk.inj (pure_ok _ _ rest)).2] at clear
  rw [← List.append_nil lpns] at begun
  exact ⟨last.ftl, write_pages_followed p delay (foregroundGc p) (foregroundCalls p) (foreground_account p delay) (dropIfMapped p) prepares.step
    (drop_if_mapped_written p) ioType loc writeStart _ ready shown fine (follow writeStart _) lpns [] place ⟨middle, 0, writeStart⟩ last begun looped
    clear⟩

-- A call that stands on nothing but the medium, the aggregated LPNs and the
-- credits is followed whichever loop it runs.
include delay dual in
theorem call_followed (loc : Loc) (call : PageCall) (media : OnMedia p loc call) (drops : Prepares p (dropIfMapped p))
    (alone : ∀ place lpns ftl, ready place lpns ftl → loc = .normal → ∀ zid, ftl.zoneAggLpns zid = [])
    (kept : ∀ place lpns before after, mediaSide after = mediaSide before → gathered after = gathered before → ready place lpns before →
      ready place lpns after)
    (follow : ∀ prepare, Prepares p prepare → ∀ start elpn,
      PagesFollow p (foregroundGc p) (foregroundCalls p) prepare (callIo call) loc start elpn ready shown fine)
    (ftl next : ZmsFtl) (time : Nat) (begun : ready place (callLpns ftl call) ftl) (ran : runCall p ftl call = .ok (time, next))
    (clear : anyFull next = false) :
    ∃ after elpn, (∀ lpn, (callLpns ftl call).getLast? = some lpn → lpn = elpn) ∧
      Followed loc elpn ready shown fine place (callLpns ftl call) [] after (callTrace p ftl call) := by
  cases call with
  | flush index start =>
      have target : zmsDualTargetLoc p.zpp.nsType = loc := media
      subst target
      obtain ⟨after, followed⟩ := flush_call_followed p delay dual ready shown fine place alone
        (fun place lpns ftl loc pgs ready => kept place lpns ftl (countFlush ftl loc pgs) rfl rfl ready) (follow _ (count_inplace_prepares p)) ftl next
        index start time begun ran clear
      exact ⟨after, _, last_lpn _ invalidLpn, followed⟩
  | internal lpns ioType target start =>
      have target : target = loc := media
      subst target
      have fetched := kept place lpns ftl _ (nand_read_quiet p ftl lpns ioType start).media (nand_read_gathered p ftl lpns ioType start) begun
      obtain ⟨after, followed⟩ := internal_call_followed p delay ready shown fine place drops target ioType (follow _ drops) ftl next lpns start time
        fetched ran clear
      exact ⟨after, _, last_lpn _ 0, followed⟩

end Followed

section Accounted

variable (config : DualConfig) (loc : Loc) (ftl next : ZmsFtl) (call : PageCall) (time : Nat)
variable (ran : runCall (dualParams config loc) ftl call = .ok (time, next)) (clear : anyFull next = false)
variable (later : ∀ writes ∈ (callTrace (dualParams config loc) ftl call).calls, CompleteLater writes)

theorem slc_batches_full (first count : Nat) : FullBatches (dualParams config .pslc) .pslc first count := by
  unfold FullBatches Batches.Held Batches.lastStripe
  rw [dual_wordline_flashpgs, if_pos rfl]
  exact .inr (.inl (by omega))

include ran clear later in
-- What collections do meanwhile is accounted for; what is left are the batches
-- of the call itself.
theorem followed_accounted (ready : Nat → List Nat → ZmsFtl → Prop) (first elpn : Nat) (lpns : List Nat) (after : ZmsFtl)
    (ending : ∀ lpn, lpns.getLast? = some lpn → lpn = elpn) (distinct : loc = .normal → lpns.Nodup)
    (followed : Followed loc elpn ready (ShownAt config loc) (WholeBatches (dualParams config loc)) first lpns [] after
      (callTrace (dualParams config loc) ftl call)) :
    PagesAccounted (dualParams config loc) ftl next call ↔ FullBatches (dualParams config loc) loc first lpns.length := by
  have own : WholeBatches (dualParams config loc) (callTrace (dualParams config loc) ftl call).own ↔
      FullBatches (dualParams config loc) loc first lpns.length := by
    cases loc with
    | normal => exact placed_call_iff config .normal ready _ first lpns [] after _ elpn ending followed (distinct rfl)
    | pslc => exact iff_of_true (slc_call_whole config .pslc ready _ first lpns [] after _ elpn ending followed rfl) (slc_batches_full config first _)
  rw [pages_accounted_whole (dualParams config loc) rfl ftl next call time ran clear later, ← own]
  constructor
  · exact fun whole => whole _ List.mem_cons_self
  · intro whole writes member
    rcases List.mem_cons.mp member with same | inner
    · rw [same]
      exact whole
    · exact followed.inner writes inner

end Accounted

section Calm

variable (config : DualConfig) (ftl next : ZmsFtl) (call : PageCall) (first time : Nat)

theorem slc_calm_accounted (ran : runCall (dualParams config .pslc) ftl call = .ok (time, next)) (clear : anyFull next = false)
    (later : ∀ writes ∈ (callTrace (dualParams config .pslc) ftl call).calls, CompleteLater writes) (bounded : Bounded (dualParams config .pslc) ftl)
    (media : OnMedia (dualParams config .pslc) .pslc call) (calm : Unhurried (dualParams config .pslc) .pslc ftl call) :
    PagesAccounted (dualParams config .pslc) ftl next call ↔ FullBatches (dualParams config .pslc) .pslc first (callLpns ftl call).length := by
  have begun := digit_begun (dualParams config .pslc) (ftl.wps (zmsGetWp (callIo call) .pslc))
  obtain ⟨after, elpn, ending, followed⟩ := call_followed (dualParams config .pslc) rfl rfl (SlcCalm config (callIo call)) (ShownAt config .pslc)
    (WholeBatches (dualParams config .pslc)) _ .pslc call media (drop_if_mapped_prepares _ (dual_medium config .pslc))
    (fun _ _ _ _ normal => nomatch normal)
    (slc_calm_kept config _)
    (fun prepare prepares start elpn => slc_calm_follow config _ _ prepare prepares (callIo call) start elpn _) ftl next time ⟨⟨bounded, calm⟩, begun⟩
    ran clear
  exact (followed_accounted config .pslc ftl next call time ran clear later _ _ _ _ after ending nofun followed).trans
    (iff_of_true (slc_batches_full config _ _) (slc_batches_full config _ _))

theorem tlc_unit_accounted (ran : runCall (dualParams config .normal) ftl call = .ok (time, next)) (clear : anyFull next = false)
    (later : ∀ writes ∈ (callTrace (dualParams config .normal) ftl call).calls, CompleteLater writes) (cells : config.cellMode ≠ 1)
    (bounded : Bounded (dualParams config .normal) ftl) (media : OnMedia (dualParams config .normal) .normal call)
    (calm : Unhurried (dualParams config .normal) .normal ftl call) (lpn : Nat)
    (lpns : callLpns ftl call = List.range' lpn (callLpns ftl call).length)
    (line : StaysInLine (dualParams config .normal) ftl (callIo call) lpn (callLpns ftl call).length first)
    (alone : ∀ zid, ftl.zoneAggLpns zid = []) :
    PagesAccounted (dualParams config .normal) ftl next call ↔ FullBatches (dualParams config .normal) .normal first (callLpns ftl call).length := by
  have distinct : (callLpns ftl call).Nodup := by
    rw [lpns]
    exact List.nodup_range'
  obtain ⟨after, elpn, ending, followed⟩ := call_followed (dualParams config .normal) rfl rfl (TlcCalm config (callIo call)) (ShownAt config .normal)
    (WholeBatches (dualParams config .normal)) first .normal call media (drop_if_mapped_prepares _ (dual_medium config .normal))
    (fun _ _ _ ready _ => ready.aggs)
    (tlc_calm_kept config _)
    (fun prepare prepares start elpn => tlc_calm_follow config cells _ _ prepare prepares (callIo call) start elpn _) ftl next time
    ⟨⟨bounded, calm⟩, alone, .inr ⟨lpn, lpns, line⟩⟩ ran clear
  exact followed_accounted config .normal ftl next call time ran clear later _ _ _ _ after ending (fun _ => distinct) followed

end Calm

section Zoned

variable (config : DualConfig) (ftl next : ZmsFtl) (index start zid first time : Nat)

theorem next_lpns_distinct (p : Params) (ftl : ZmsFtl) (index zid first : Nat) (pages : NextPages p ftl index zid first) :
    (ftl.writeBuffer index).lpns.Nodup := by
  rw [pages.lpns]
  exact List.Nodup.map (fun _ _ same => Nat.add_left_cancel same) List.nodup_range'

theorem slc_zone_accounted (regular : Regular (dualParams config .pslc) .pslc)
    (ran : runCall (dualParams config .pslc) ftl (.flush index start) = .ok (time, next)) (clear : anyFull next = false)
    (later : ∀ writes ∈ (callTrace (dualParams config .pslc) ftl (.flush index start)).calls, CompleteLater writes)
    (resting : SlcResting (dualParams config .pslc) ftl) (pages : NextPages (dualParams config .pslc) ftl index zid first) :
    PagesAccounted (dualParams config .pslc) ftl next (.flush index start) ↔
      FullBatches (dualParams config .pslc) .pslc first (ftl.writeBuffer index).lpns.length := by
  have distinct := next_lpns_distinct _ ftl index zid first pages
  have begun := digit_begun (dualParams config .pslc) (ftl.wps .pslcWp)
  have unmapped : ∀ lpn ∈ (ftl.writeBuffer index).lpns, ¬Mapped (dualParams config .pslc) ftl lpn := by
    intro lpn member held
    rw [pages.lpns] at member
    obtain ⟨i, range, same⟩ := List.mem_map.mp member
    obtain ⟨low, high⟩ := List.mem_range'_1.mp range
    have fits := pages.fits
    rw [← same] at held
    have before := (pages.filled i (by omega)).mp held
    omega
  obtain ⟨after, followed⟩ := flush_call_followed (dualParams config .pslc) rfl rfl (SlcReady config) (ShownAt config .pslc)
    (WholeBatches (dualParams config .pslc)) _ (fun _ _ _ _ normal => nomatch normal)
    (fun place lpns ftl loc pgs ready => slc_ready_kept config place lpns ftl (countFlush ftl loc pgs) rfl regular ready)
    (slc_flush_follow config regular) ftl next index start time ⟨resting, begun, unmapped, distinct⟩ ran clear
  exact (followed_accounted config .pslc ftl next _ time ran clear later _ _ _ _ after (last_lpn _ invalidLpn) nofun followed).trans
    (iff_of_true (slc_batches_full config _ _) (slc_batches_full config _ _))

theorem tlc_zone_accounted (ns : TlcNamespace (dualParams config .normal)) (regular : Regular (dualParams config .normal) .normal)
    (ran : runCall (dualParams config .normal) ftl (.flush index start) = .ok (time, next)) (clear : anyFull next = false)
    (later : ∀ writes ∈ (callTrace (dualParams config .normal) ftl (.flush index start)).calls, CompleteLater writes)
    (resting : TlcResting (dualParams config .normal) ftl) (alone : ∀ zid, ftl.zoneAggLpns zid = [])
    (pages : NextPages (dualParams config .normal) ftl index zid first) :
    PagesAccounted (dualParams config .normal) ftl next (.flush index start) ↔
      FullBatches (dualParams config .normal) .normal first (ftl.writeBuffer index).lpns.length := by
  have distinct := next_lpns_distinct _ ftl index zid first pages
  obtain ⟨after, followed⟩ := flush_call_followed (dualParams config .normal) rfl rfl (TlcReady config zid) (ShownAt config .normal)
    (WholeBatches (dualParams config .normal)) first (fun _ _ _ ready _ => ready.aggs)
    (fun place lpns ftl loc pgs ready => ⟨tlc_resting_kept _ regular ftl _ rfl ready.resting, ready.filled, ready.lpns, ready.fits, ready.aggs⟩)
    (fun start elpn => tlc_flush_follow config ns regular zid pages.inside start elpn _) ftl next index start time
    ⟨resting, pages.filled, pages.lpns, pages.fits, alone⟩ ran clear
  exact followed_accounted config .normal ftl next _ time ran clear later _ _ _ _ after (last_lpn _ invalidLpn) (fun _ => distinct) followed

end Zoned

def wideConfig : DualConfig := { sampleConfig with zoneWbSize := 6 * pgsz }

def flushAccounted (p : Params) (ftl : ZmsFtl) : Bool :=
  (decide (∀ i, i < p.zpp.pgsPerZone → (Mapped p ftl (zoneToSlpn p 0 + i) ↔ i < 0)) && decide ((ftl.writeBuffer 0).lpns = [0, 1, 2])) &&
    match runCall p ftl (.flush 0 100) with
    | .ok (_, next) => !anyFull next && (callTrace p ftl (.flush 0 100)).calls.all fun writes => decide (CompleteLater writes)
    | .error _ => false

def flushLosesPage (p : Params) (ftl : ZmsFtl) : Bool :=
  match runCall p ftl (.flush 0 100) with
  | .ok (_, next) =>
      !anyFull next && ((callTrace p ftl (.flush 0 100)).calls.all fun writes => decide (CompleteLater writes)) &&
        decide (writtenPages (callTrace p ftl (.flush 0 100)).calls = 3) && decide (newlyMapped (callTrace p ftl (.flush 0 100)).calls = 4)
  | .error _ => false

end ConZone
