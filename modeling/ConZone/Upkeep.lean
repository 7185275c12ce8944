import ConZone.Bounded

set_option autoImplicit false

namespace ConZone

-- A condition on the medium that its five elementary operations keep. What no
-- operation on the medium touches cannot matter to it.
structure MediumRules (p : Params) (holds : ZmsFtl → Prop) : Prop where
  bounded : ∀ ftl, holds ftl → Bounded p ftl
  media : ∀ before after, mediaSide after = mediaSide before → holds before → holds after
  maps : ∀ ftl next lpn loc ioType, holds ftl → updateOrReserveMapping p ftl lpn loc ioType = .ok next → holds next
  drops : ∀ ftl lpn page map, holds ftl → getMaptblEnt p ftl lpn = .mapped page map → holds (dropMapping p ftl lpn page)
  erases : ∀ ftl ref ioType, holds ftl → KnownRef p ref → holds (eraseLine p ftl ref ioType)
  selects : ∀ ftl next force loc victim, holds ftl → selectVictimLine p ftl force loc = some (victim, next) → holds next

section Collection

variable (p : Params) (medium : Medium p) (holds : ZmsFtl → Prop) (rules : MediumRules p holds)

include rules in
theorem quiet_kept (before after : ZmsFtl) (quiet : Quiet before after) (kept : holds before) : holds after :=
  rules.media before after quiet.media kept

include rules in
theorem drop_if_mapped_kept (ftl : ZmsFtl) (lpn : Nat) (kept : holds ftl) : holds (dropIfMapped p ftl lpn) := by
  unfold dropIfMapped
  split
  · rename_i page map mapped
    exact rules.drops ftl lpn page map kept mapped
  · exact kept

section Writing

variable (collect : ZmsFtl → Loc → Exec ZmsFtl)
variable (collects : ∀ ftl loc next, holds ftl → collect ftl loc = .ok next → holds next)

include rules collects in
theorem nand_write_kept (ftl next : ZmsFtl) (start lpn : Nat) (loc : Loc) (ioType : IoType) (toWritePgs elpn time : Nat)
    (kept : holds ftl) (ran : nandWrite collect p ftl start lpn loc ioType toWritePgs elpn = .ok (time, next)) : holds next := by
  unfold nandWrite at ran
  obtain ⟨mapped, mapping, rest⟩ := bind_ok _ _ _ ran
  have after := rules.maps ftl mapped lpn loc ioType kept mapping
  split at rest
  · rename_i page map _
    split at rest
    · rw [← (Prod.mk.inj (pure_ok _ _ rest)).2]
      exact after
    · have programmed := quiet_kept p holds rules _ _ (program_page_quiet p mapped start lpn loc ioType toWritePgs elpn page) after
      generalize programPage p mapped start lpn loc ioType toWritePgs elpn page = written at rest programmed
      obtain ⟨finish, done⟩ := written
      dsimp only at rest programmed
      split at rest
      · obtain ⟨refilled, refilling, rest⟩ := bind_ok _ _ _ rest
        rw [← (Prod.mk.inj (pure_ok _ _ rest)).2]
        have paid := rules.media done (consumeWriteCredit done loc) rfl programmed
        unfold checkAndRefillWriteCredit at refilling
        split at refilling
        · obtain ⟨collected, collecting, rest⟩ := bind_ok _ _ _ refilling
          rw [← pure_ok _ _ rest]
          exact rules.media collected _ rfl (collects _ loc collected paid collecting)
        · rw [← pure_ok _ _ refilling]
          exact paid
      · rw [← (Prod.mk.inj (pure_ok _ _ rest)).2]
        exact programmed
  · rw [← (Prod.mk.inj (pure_ok _ _ rest)).2]
    exact after

include rules collects in
theorem internal_write_loop_kept (ioType : IoType) (loc : Loc) (start elpn : Nat) (lpns : List Nat) (ftl next : ZmsFtl)
    (toWritePgs latest time : Nat) (kept : holds ftl)
    (ran : internalWriteLoop collect p ioType loc start elpn lpns ftl toWritePgs latest = .ok (time, next)) : holds next := by
  induction lpns generalizing ftl toWritePgs latest with
  | nil =>
      unfold internalWriteLoop at ran
      rw [← (Prod.mk.inj (Except.ok.inj ran)).2]
      exact kept
  | cons lpn rest ih =>
      unfold internalWriteLoop at ran
      obtain ⟨⟨written, middle⟩, writing, ran⟩ := bind_ok _ _ _ ran
      have dropped := drop_if_mapped_kept p holds rules ftl lpn kept
      exact ih middle _ _ (nand_write_kept p holds rules collect collects _ middle start lpn loc ioType _ elpn written dropped writing) ran

include rules collects in
theorem internal_write_kept (ftl next : ZmsFtl) (lpns : List Nat) (ioType : IoType) (loc : Loc) (start time : Nat) (kept : holds ftl)
    (ran : internalWrite collect p ftl lpns ioType loc start = .ok (time, next)) : holds next := by
  unfold internalWrite at ran
  have fetched := quiet_kept p holds rules _ _ (nand_read_quiet p ftl lpns ioType start) kept
  generalize nandRead p ftl lpns ioType start = done at ran fetched
  obtain ⟨writeStart, middle⟩ := done
  exact internal_write_loop_kept p holds rules collect collects ioType loc writeStart _ lpns middle next _ _ time fetched ran

end Writing

theorem no_collect_kept (ftl : ZmsFtl) (loc : Loc) (next : ZmsFtl) (_ : holds ftl) (ran : noCollect ftl loc = .ok next) :
    holds next :=
  nomatch ran

include rules in
theorem gc_visit_kept (loc : Loc) (scan next : GcScan) (page : Page) (kept : holds scan.ftl)
    (ran : gcVisit p loc scan page = .ok next) : holds next.ftl := by
  unfold gcVisit at ran
  split at ran
  · obtain ⟨middle, flushed, rest⟩ := bind_ok _ _ _ ran
    have after : holds middle.ftl := by
      unfold gcFlush at flushed
      split at flushed
      · obtain ⟨⟨time, written⟩, writing, rest⟩ := bind_ok _ _ _ flushed
        rw [← pure_ok _ _ rest]
        exact internal_write_kept p holds rules noCollect (no_collect_kept holds) scan.ftl written _ .gcIo loc 0 time kept writing
      · rw [← Except.ok.inj flushed]
        exact kept
    rw [← pure_ok _ _ rest]
    exact rules.media middle.ftl _ rfl after
  · rw [← Except.ok.inj ran]
    exact kept

include rules in
theorem gc_scan_kept (loc : Loc) (fuel : Nat) (scan next : GcScan) (page : Option Page) (kept : holds scan.ftl)
    (ran : gcScan p loc fuel scan page = .ok next) : holds next.ftl := by
  induction fuel generalizing scan page with
  | zero =>
      cases page with
      | none =>
          rw [← Except.ok.inj ran]
          exact kept
      | some page => exact nomatch ran
  | succ fuel ih =>
      cases page with
      | none =>
          rw [← Except.ok.inj ran]
          exact kept
      | some page =>
          unfold gcScan at ran
          obtain ⟨middle, visited, rest⟩ := bind_ok _ _ _ ran
          exact ih middle _ (gc_visit_kept p holds rules loc scan middle page kept visited) rest

include rules in
theorem park_gc_lpns_kept (lpns : List Nat) (ftl : ZmsFtl) (kept : holds ftl) : holds (lpns.foldl (parkGcLpn p) ftl) := by
  induction lpns generalizing ftl with
  | nil => exact kept
  | cons lpn rest ih => exact ih _ (drop_if_mapped_kept p holds rules _ lpn (rules.media ftl _ rfl kept))

include rules in
theorem submit_internal_write_kept (ftl next : ZmsFtl) (ref : LineRef) (kept : holds ftl)
    (ran : submitInternalWrite p ftl ref = .ok next) : holds next := by
  unfold submitInternalWrite at ran
  obtain ⟨scan, scanned, rest⟩ := bind_ok _ _ _ ran
  have start : holds (gcStart ftl (getLineLocation p ref)).ftl := by
    unfold gcStart
    split
    · exact rules.media ftl _ rfl kept
    · exact kept
  have after := gc_scan_kept p holds rules _ _ _ scan _ start scanned
  unfold gcRest at rest
  split at rest
  · rw [← Except.ok.inj rest]
    exact after
  · split at rest
    · rw [← Except.ok.inj rest]
      exact park_gc_lpns_kept p holds rules scan.agg scan.ftl after
    · obtain ⟨⟨time, written⟩, writing, rest⟩ := bind_ok _ _ _ rest
      rw [← pure_ok _ _ rest]
      exact internal_write_kept p holds rules noCollect (no_collect_kept holds) scan.ftl written scan.agg .gcIo .pslc 0 time after writing

include rules in
theorem foreground_gc_kept (ftl : ZmsFtl) (loc : Loc) (next : ZmsFtl) (kept : holds ftl) (ran : foregroundGc p ftl loc = .ok next) :
    holds next := by
  unfold foregroundGc at ran
  split at ran
  · dsimp only at ran
    have credits := rules.media ftl (setCreditsToRefill ftl loc 0) rfl kept
    split at ran
    · rw [← Except.ok.inj ran]
      exact credits
    · unfold doGc at ran
      split at ran
      · rw [← Except.ok.inj ran]
        exact credits
      · rename_i victim selected chosen
        obtain ⟨middle, moved, rest⟩ := bind_ok _ _ _ ran
        obtain ⟨_, known⟩ := select_victim_bounded p _ selected true loc victim (rules.bounded _ credits) chosen
        have picked := rules.media selected
          (setCreditsToRefill selected loc ((selected.lm.lines victim).ipc + (selected.lm.lines victim).rpc)) rfl
          (rules.selects _ selected true loc victim credits chosen)
        have emptied := submit_internal_write_kept p holds rules _ middle victim picked moved
        rw [← pure_ok _ _ rest]
        exact rules.media (eraseLine p middle victim .gcIo) _ rfl (rules.erases middle victim .gcIo emptied known)
  · rw [← Except.ok.inj ran]
    exact rules.media ftl _ rfl kept

include rules in
theorem flush_pages_kept (loc : Loc) (start elpn zid : Nat) (lpns : List Nat) (state next : FlushState) (kept : holds state.ftl)
    (ran : flushPages p loc start elpn zid lpns state = .ok next) : holds next.ftl := by
  induction lpns generalizing state with
  | nil =>
      rw [← Except.ok.inj ran]
      exact kept
  | cons lpn rest ih =>
      unfold flushPages at ran
      dsimp only at ran
      obtain ⟨⟨time, written⟩, writing, ran⟩ := bind_ok _ _ _ ran
      have counted := quiet_kept p holds rules _ _ (count_inplace_step p state.ftl lpn) kept
      refine ih _ (nand_write_kept p holds rules _ (foreground_gc_kept p holds rules) _ written start lpn loc .userIo _ elpn time ?_ writing) ran
      split
      · exact rules.media (countInplace p state.ftl lpn) _ rfl counted
      · exact counted

include rules in
theorem flush_round_kept (start elpn zid : Nat) (lpns rest : List Nat) (state next : FlushState) (kept : holds state.ftl)
    (ran : flushRound p start elpn zid lpns state = .ok (rest, next)) : holds next.ftl := by
  unfold flushRound at ran
  dsimp only at ran
  split at ran
  · obtain ⟨⟨time, written⟩, writing, ran⟩ := bind_ok _ _ _ ran
    rw [← (Prod.mk.inj (pure_ok _ _ ran)).2]
    exact rules.media written _ rfl
      (internal_write_kept p holds rules _ (foreground_gc_kept p holds rules) state.ftl written _ .userIo .normal start time kept writing)
  · obtain ⟨flushed, flushing, ran⟩ := bind_ok _ _ _ ran
    rw [← (Prod.mk.inj (pure_ok _ _ ran)).2]
    exact rules.media flushed.ftl _ rfl (flush_pages_kept p holds rules _ start elpn zid _ state flushed kept flushing)

include rules in
theorem flush_rounds_kept (start elpn zid fuel : Nat) (lpns : List Nat) (state next : FlushState) (kept : holds state.ftl)
    (ran : flushRounds p start elpn zid fuel lpns state = .ok next) : holds next.ftl := by
  induction fuel generalizing lpns state with
  | zero =>
      cases lpns with
      | nil =>
          rw [← Except.ok.inj ran]
          exact kept
      | cons lpn rest => exact nomatch ran
  | succ fuel ih =>
      cases lpns with
      | nil =>
          rw [← Except.ok.inj ran]
          exact kept
      | cons lpn lpns =>
          unfold flushRounds at ran
          obtain ⟨⟨rest, middle⟩, rounded, ran⟩ := bind_ok _ _ _ ran
          have after := flush_round_kept p holds rules start elpn zid _ rest state middle kept rounded
          dsimp only at ran
          split at ran
          · rw [← pure_ok _ _ ran]
            exact after
          · exact ih rest middle after ran

include rules in
theorem buffer_flush_kept (ftl next : ZmsFtl) (index start latest : Nat) (kept : holds ftl)
    (ran : bufferFlush p ftl index start = .ok (latest, next)) : holds next := by
  unfold bufferFlush at ran
  obtain ⟨state, flushed, rest⟩ := bind_ok _ _ _ ran
  rw [← (Prod.mk.inj (pure_ok _ _ rest)).2]
  exact rules.media state.ftl _ rfl (flush_rounds_kept p holds rules start _ _ _ _ _ state kept flushed)

include rules in
theorem write_loop_kept (index zid elpn fuel lpn : Nat) (progress next : WriteProgress) (kept : holds progress.ftl)
    (ran : writeLoop p index zid elpn fuel lpn progress = .ok next) : holds next.ftl := by
  induction fuel generalizing lpn progress with
  | zero =>
      unfold writeLoop at ran
      split at ran
      · rw [← Except.ok.inj ran]
        exact kept
      · cases ran
  | succ fuel ih =>
      unfold writeLoop at ran
      dsimp only at ran
      split at ran
      · rw [← Except.ok.inj ran]
        exact kept
      · split at ran
        · cases ran
        · obtain ⟨middle, stepped, rest⟩ := bind_ok _ _ _ ran
          have after : holds middle.ftl := by
            unfold writeStep at stepped
            dsimp only at stepped
            split at stepped
            · obtain ⟨⟨completed, flushed⟩, flushing, done⟩ := bind_ok _ _ _ stepped
              rw [← pure_ok _ _ done]
              refine buffer_flush_kept p holds rules _ flushed index _ completed ?_ flushing
              exact rules.media progress.ftl _ rfl kept
            · rw [← pure_ok _ _ stepped]
              exact rules.media progress.ftl _ rfl kept
          split at rest
          · rw [← pure_ok _ _ rest]
            exact after
          · exact ih _ middle after rest

end Collection

section Resetting

variable (p : Params) (medium : Medium p) (holds : ZmsFtl → Prop) (rules : MediumRules p holds)

include rules in
theorem erase_linked_lines_kept (fuel : Nat) (ftl next : ZmsFtl) (target : Option LineRef)
    (known : ∀ ref, target = some ref → KnownRef p ref) (kept : holds ftl)
    (ran : eraseLinkedLines p fuel ftl target = .ok next) : holds next := by
  induction fuel generalizing ftl target with
  | zero =>
      cases target with
      | none =>
          rw [← Except.ok.inj ran]
          exact kept
      | some target => exact nomatch ran
  | succ fuel ih =>
      cases target with
      | none =>
          rw [← Except.ok.inj ran]
          exact kept
      | some target =>
          unfold eraseLinkedLines at ran
          refine ih _ _ ?_ ?_ ran
          · intro ref linked
            exact (rules.bounded ftl kept).lines.nexts target ref linked
          · split
            · exact rules.erases ftl target .userIo kept (known target rfl)
            · exact kept

include medium rules in
theorem reset_page_kept (scan next : ResetScan) (lpn : Nat) (page : Page) (map : MapType) (kept : holds scan.ftl)
    (first : ∀ ref, scan.firstLine = some ref → KnownRef p ref) (mapped : getMaptblEnt p scan.ftl lpn = .mapped page map)
    (ran : resetPage p scan lpn page = .ok next) :
    holds next.ftl ∧ ∀ ref, next.firstLine = some ref → KnownRef p ref := by
  have dropped := rules.drops scan.ftl lpn page map kept mapped
  have line := get_line_known p medium page (get_maptbl_owned p scan.ftl lpn page map (rules.bounded _ kept) mapped)
  have known : ∀ ref, some (scan.firstLine.getD (getLine p page)) = some ref → KnownRef p ref := by
    intro ref same
    rw [← Option.some.inj same]
    cases held : scan.firstLine with
    | none => exact line
    | some other => exact first other held
  unfold resetPage at ran
  dsimp only at ran
  split at ran
  · obtain ⟨erased, erasing, rest⟩ := bind_ok _ _ _ ran
    rw [← pure_ok _ _ rest]
    exact ⟨erase_linked_lines_kept p holds rules _ _ erased _ known dropped erasing, fun _ absent => nomatch absent⟩
  · rw [← Except.ok.inj ran]
    exact ⟨dropped, known⟩

include medium rules in
theorem reset_pages_kept (lpns : List Nat) (scan next : ResetScan) (kept : holds scan.ftl)
    (first : ∀ ref, scan.firstLine = some ref → KnownRef p ref) (ran : resetPages p lpns scan = .ok next) :
    holds next.ftl ∧ ∀ ref, next.firstLine = some ref → KnownRef p ref := by
  induction lpns generalizing scan with
  | nil =>
      rw [← Except.ok.inj ran]
      exact ⟨kept, first⟩
  | cons lpn rest ih =>
      unfold resetPages at ran
      split at ran
      · rename_i page map mapped
        obtain ⟨middle, dropped, ran⟩ := bind_ok _ _ _ ran
        obtain ⟨after, line⟩ := reset_page_kept p medium holds rules scan middle lpn page map kept first mapped dropped
        exact ih middle after line ran
      · rw [← Except.ok.inj ran]
        exact ⟨kept, first⟩

theorem zms_wb_get_media (ftl : ZmsFtl) (slpn : Nat) : mediaSide (zmsWbGet p ftl slpn).2 = mediaSide ftl := by
  unfold zmsWbGet
  dsimp only
  split
  · rfl
  · split <;> rfl

theorem drop_buffered_media (scan : ResetScan) (slpn : Nat) (writeBuffer : Option Nat) (ftl : ZmsFtl) :
    mediaSide (dropBuffered p scan slpn writeBuffer ftl) = mediaSide ftl := by
  unfold dropBuffered
  cases writeBuffer with
  | none => rfl
  | some index =>
      dsimp only
      split <;> rfl

include medium rules in
theorem zone_reset_kept (ftl next : ZmsFtl) (zid : Nat) (kept : holds ftl) (ran : zoneReset p ftl zid = .ok next) : holds next := by
  unfold zoneReset at ran
  dsimp only at ran
  have got := rules.media ftl _ (zms_wb_get_media p ftl (zoneToSlpn p zid)) kept
  generalize zmsWbGet p ftl (zoneToSlpn p zid) = found at ran got
  obtain ⟨writeBuffer, middle⟩ := found
  obtain ⟨scan, scanned, rest⟩ := bind_ok _ _ _ ran
  obtain ⟨erased, erasing, rest⟩ := bind_ok _ _ _ rest
  obtain ⟨walked, first⟩ := reset_pages_kept p medium holds rules _ ⟨middle, none, none⟩ scan got (fun _ absent => nomatch absent) scanned
  have cleared : holds erased := by
    unfold eraseRest at erasing
    split at erasing
    · rename_i line held
      split at erasing
      · refine erase_linked_lines_kept p holds rules _ _ erased (some line) ?_ walked erasing
        intro ref same
        rw [← Option.some.inj same]
        exact first line held
      · rw [← Except.ok.inj erasing]
        exact walked
    · rw [← Except.ok.inj erasing]
      exact walked
  rw [← pure_ok _ _ rest]
  exact rules.media erased _ (drop_buffered_media p scan (zoneToSlpn p zid) writeBuffer erased) cleared

end Resetting

section Events

variable (p : Params) (medium : Medium p) (holds : ZmsFtl → Prop) (rules : MediumRules p holds)

theorem only_table_media (before after : ZmsFtl) (only : OnlyTable before after) : mediaSide after = mediaSide before := by
  obtain ⟨descs, infos, same⟩ := only
  rw [same]
  rfl

include medium rules in
theorem zmgmt_send_kept (ftl next : ZmsFtl) (slba : Nat) (action : ZoneSendAction) (option : Bool) (status : NvmeStatus)
    (kept : holds ftl) (ran : zmgmtSend p ftl slba action option = .ok (status, next)) : holds next := by
  obtain ⟨_, ⟨_, only⟩ | ⟨_, reset⟩⟩ := zmgmt_send_runs p ftl next slba action option status ran
  · exact rules.media ftl next (only_table_media ftl next only) kept
  · rcases reset_zone_runs p ftl next _ status reset with ⟨_, same⟩ | ⟨_, booked, only, _, cleared⟩
    · rw [same]
      exact kept
    · exact zone_reset_kept p medium holds rules booked next _ (rules.media ftl booked (only_table_media ftl booked only) kept) cleared

include medium rules in
theorem zmgmt_send_all_kept (cmd : ZoneMgmtSend) (zids : List Nat) (ftl next : ZmsFtl) (kept : holds ftl)
    (ran : zmgmtSendAll p cmd zids ftl = .ok next) : holds next := by
  induction zids generalizing ftl with
  | nil =>
      rw [← Except.ok.inj ran]
      exact kept
  | cons zid rest ih =>
      unfold zmgmtSendAll at ran
      obtain ⟨⟨status, middle⟩, sent, ran⟩ := bind_ok _ _ _ ran
      exact ih middle (zmgmt_send_kept p medium holds rules ftl middle _ _ _ status kept sent) ran

theorem read_pages_media (slpn : Nat) (lpns : List Nat) (state : ReadState) :
    mediaSide (lpns.foldl (readPage p slpn) state).ftl = mediaSide state.ftl := by
  induction lpns generalizing state with
  | nil => rfl
  | cons lpn rest ih =>
      obtain ⟨counted, before, after⟩ := read_page_effect p slpn state lpn
      rw [List.foldl_cons, ih, after.media, zms_wb_get_media, before.media]

theorem zoned_read_media (ftl next : ZmsFtl) (req : Request) (cmd : RwCommand) (done : Completion)
    (ran : zonedRead p ftl req cmd = .ok (done, next)) : mediaSide next = mediaSide ftl := by
  have unchanged : ∀ result, (Except.ok (result, ftl) : Exec (Completion × ZmsFtl)) = .ok (done, next) →
      mediaSide next = mediaSide ftl := by
    intro result same
    rw [← (Prod.mk.inj (Except.ok.inj same)).2]
  unfold zonedRead at ran
  dsimp only at ran
  split at ran
  · cases ran
  · split at ran
    · exact unchanged _ ran
    · split at ran
      · exact unchanged _ ran
      · split at ran
        · exact unchanged _ ran
        · have last := (read_end_quiet p ftl req cmd).media
          rw [Except.ok.inj ran] at last
          rw [last, read_pages_media]
          rfl

include rules in
theorem flush_buffer_kept (ftl next : ZmsFtl) (index : Nat) (kept : holds ftl) (ran : flushBuffer p ftl index = .ok next) :
    holds next := by
  unfold flushBuffer at ran
  split at ran
  · obtain ⟨⟨latest, flushed⟩, flushing, rest⟩ := bind_ok _ _ _ ran
    rw [← pure_ok _ _ rest]
    exact buffer_flush_kept p holds rules ftl flushed index 0 latest kept flushing
  · rw [← Except.ok.inj ran]
    exact kept

include rules in
theorem flush_buffers_kept (req : Request) (indices : List Nat) (ftl next : ZmsFtl) (kept : holds ftl)
    (ran : flushBuffers p req indices ftl = .ok next) : holds next := by
  induction indices generalizing ftl with
  | nil =>
      rw [← Except.ok.inj ran]
      exact kept
  | cons index rest ih =>
      unfold flushBuffers at ran
      obtain ⟨middle, flushed, ran⟩ := bind_ok _ _ _ ran
      refine ih middle (flush_buffer_kept p holds rules _ middle index ?_ flushed) ran
      exact rules.media ftl _ rfl kept

theorem started_media (ftl : ZmsFtl) (req : Request) (cmd : RwCommand) : mediaSide (started p ftl req cmd) = mediaSide ftl := by
  unfold started noteRequest notePartial
  dsimp only
  split <;> split <;> rfl

include rules in
theorem zoned_write_kept (ftl : ZmsFtl) (req : Request) (cmd : RwCommand) (outcome : WriteOutcome) (kept : holds ftl)
    (ran : zonedWrite p ftl req cmd = .ok outcome) : holds outcome.ftl := by
  have arrives := fun got result (found : zmsWbGet p (started p ftl req cmd) (firstLpn (placeAppend p ftl cmd)) = (result, got)) =>
    have media := zms_wb_get_media p (started p ftl req cmd) (firstLpn (placeAppend p ftl cmd))
    rules.media ftl got (by rw [found] at media; exact media.trans (started_media p ftl req cmd)) kept
  cases zoned_write_run p ftl req cmd outcome ran with
  | refusedFull full => exact rules.media ftl _ rfl kept
  | dropped clear drop => exact rules.media ftl _ rfl kept
  | waits clear fresh got found => exact arrives got none found
  | busy clear fresh got index found locked after same =>
      have arrived := arrives got (some index) found
      rcases same with same | same
      · rw [same]
        exact arrived
      · rw [same]
        exact rules.media got _ rfl arrived
  | switches clear fresh got index found other unlocked latest flushed flushing =>
      have arrived := arrives got (some index) found
      have locked := rules.media got (putBuffer got index { got.writeBuffer index with busy := true }) rfl arrived
      exact rules.media flushed _ rfl (buffer_flush_kept p holds rules _ flushed index _ latest locked flushing)
  | rejected clear fresh got index found own unlocked inside status checked refused check =>
      have arrived := arrives got (some index) found
      have only := zns_write_check_only p (lockBuffer got req index) (placeAppend p ftl cmd).slba (nrLbasFromRwCmd cmd)
      rw [check] at only
      have locked := rules.media got (lockBuffer got req index) rfl arrived
      have after := rules.media _ checked (only_table_media _ checked only) locked
      exact rules.media checked _ rfl after
  | written clear fresh got index found own unlocked inside checked check progress filled =>
      have arrived := arrives got (some index) found
      have only := zns_write_check_only p (lockBuffer got req index) (placeAppend p ftl cmd).slba (nrLbasFromRwCmd cmd)
      rw [check] at only
      have locked := rules.media got (lockBuffer got req index) rfl arrived
      have after := rules.media _ checked (only_table_media _ checked only) locked
      exact rules.media progress.ftl _ rfl (write_loop_kept p holds rules index _ _ _ _ _ progress after filled)

include medium rules in
theorem step_kept (ftl next : ZmsFtl) (event : Event) (kept : holds ftl) (taken : Step p ftl event next) : holds next := by
  cases taken with
  | write req cmd outcome ran => exact zoned_write_kept p holds rules ftl req cmd outcome kept ran
  | read _ req cmd done ran => exact rules.media ftl next (zoned_read_media p ftl next req cmd done ran) kept
  | flush _ req done ran =>
      unfold znsFlush at ran
      obtain ⟨middle, flushed, rest⟩ := bind_ok _ _ _ ran
      rw [← (Prod.mk.inj (pure_ok _ _ rest)).2]
      exact rules.media middle _ rfl (flush_buffers_kept p holds rules req _ ftl middle kept flushed)
  | mgmtSend _ cmd status ran =>
      unfold znsZmgmtSend at ran
      split at ran
      · obtain ⟨middle, sent, rest⟩ := bind_ok _ _ _ ran
        rw [← (Prod.mk.inj (pure_ok _ _ rest)).2]
        exact zmgmt_send_all_kept p medium holds rules cmd _ ftl middle kept sent
      · exact zmgmt_send_kept p medium holds rules ftl next _ _ _ status kept ran
  | release _ entry ran =>
      unfold runRelease at ran
      split at ran
      · rw [← Option.some.inj ran]
        exact rules.media ftl _ rfl kept
      · cases ran

include medium rules in
theorem reachable_kept (allowed : ZmsFtl → Event → Prop) (starts : ∀ clock, holds (zmsRealizeFtl p clock)) (ftl : ZmsFtl)
    (reached : Reachable p allowed ftl) : holds ftl := by
  refine TransitionSystem.reach_invariant _ _ holds ⟨?_, ?_⟩ ftl reached
  · intro state init
    obtain ⟨clock, same⟩ := init
    rw [same]
    exact starts clock
  · intro state next event kept _ taken
    exact step_kept p medium holds rules state next event kept taken

end Events

theorem bounded_rules (p : Params) (medium : Medium p) : MediumRules p (Bounded p) where
  bounded := fun _ bounded => bounded
  media := fun before after media bounded => media_bounded p before after media bounded
  maps := fun ftl next lpn loc ioType bounded ran => update_or_reserve_mapping_bounded p medium ftl next lpn loc ioType bounded ran
  drops := fun ftl lpn page map bounded mapped =>
    drop_mapping_bounded p ftl lpn page bounded (get_line_known p medium page (get_maptbl_owned p ftl lpn page map bounded mapped))
  erases := fun ftl ref ioType bounded known => erase_line_bounded p medium ftl ref ioType bounded known
  selects := fun ftl next force loc victim bounded selected => (select_victim_bounded p ftl next force loc victim bounded selected).1

end ConZone
