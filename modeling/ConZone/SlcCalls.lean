import ConZone.SlcBatches

set_option autoImplicit false

namespace ConZone

section Collecting

variable (p : Params) (ns : SlcNamespace p) (regular : Regular p .pslc) (delay : p.zpp.enableGcDelay = true)

-- A collection writes by a pointer of its own, no more than a one-shot page of
-- pages at a time.
structure Collecting (before after : ZmsFtl) : Prop where
  sound : ∃ home prog, SlcSound p after home prog
  others : otherWps .pslcGcWp after = otherWps .pslcGcWp before

theorem collecting_trans (first second third : ZmsFtl) (left : Collecting p first second) (right : Collecting p second third) :
    Collecting p first third :=
  ⟨right.sound, right.others.trans left.others⟩

include regular in
theorem collecting_quiet (before middle after : ZmsFtl) (media : mediaSide after = mediaSide middle) (kept : Collecting p before middle) :
    Collecting p before after := by
  obtain ⟨⟨home, prog, sound⟩, others⟩ := kept
  refine ⟨⟨home, prog, slc_quiet p regular middle after media home prog sound⟩, ?_⟩
  rw [← others]
  exact other_wps_congr _ middle after (congrArg MediaSide.wps media)

include ns regular in
theorem slc_gc_follow (before : ZmsFtl) (start elpn : Nat) :
    PagesFollow p noCollect (fun _ _ => []) (dropIfMapped p) .gcIo .pslc start elpn (fun _ _ ftl => Collecting p before ftl)
      (fun _ write => write.place.isSome = true) (fun _ => False) := by
  rintro place lpn rest ftl next toWritePgs time ⟨⟨home, prog, sound⟩, others⟩ ran clear
  obtain ⟨home', dropped, _, absent, _⟩ := slc_drop_if_mapped p regular ftl lpn home prog sound
  obtain ⟨written, mapping, traced⟩ := nand_write_traced p noCollect (fun _ _ => []) _ next start lpn .pslc .gcIo toWritePgs elpn time ran
  obtain ⟨mapped, again, own⟩ := nand_write_own p noCollect (fun _ _ => []) .gcIo .pslc start elpn _ next lpn toWritePgs time ran
  cases Except.ok.inj (mapping.symm.trans again)
  have moved := update_or_reserve_others p .gcIo .pslc _ written lpn mapping
  rw [slc_update_or_reserve, any_full_loc _ .pslc dropped.roomy.clear, if_neg Bool.false_ne_true] at mapping
  obtain ⟨home'', prog', done, _, landed⟩ := slc_reserve_sound p ns regular _ written lpn .gcIo home' prog dropped
    (fun page held => absent ((mapped_iff_on_page p _ lpn).mpr ⟨page, held⟩)) mapping
  have kept : Collecting p before written := by
    refine ⟨⟨home'', prog', done⟩, moved.trans ?_⟩
    rw [← others]
    exact other_wps_congr _ _ _ ((drop_if_mapped_prepares p regular.medium).wps ftl lpn)
  rcases traced.settled with ⟨below, inner, _⟩ | ⟨⟨takes, _⟩, _⟩
  · refine ⟨collecting_quiet p regular before written next (congrArg Prod.fst below) kept, ?_, ?_⟩
    · intro write member
      rw [own, List.mem_singleton] at member
      obtain ⟨page, there, _⟩ := landed.there
      rw [member]
      unfold pageWrite
      rw [on_page_place p written lpn page .pslc done.roomy.clear there]
      rfl
    · intro writes member
      rw [inner] at member
      exact absurd member List.not_mem_nil
  · cases takes

-- The calls that a piece of a collection makes.
structure GcCalls (before after : ZmsFtl) (calls : List (List PageWrite)) : Prop where
  kept : Collecting p before after
  whole : ∀ writes ∈ calls, WholeBatches p writes

theorem slc_gc_calls_append (first second third : ZmsFtl) (left right : List (List PageWrite)) (before : GcCalls p first second left)
    (after : GcCalls p second third right) : GcCalls p first third (left ++ right) := by
  refine ⟨collecting_trans p first second third before.kept after.kept, fun writes member => ?_⟩
  rcases List.mem_append.mp member with earlier | later
  · exact before.whole writes earlier
  · exact after.whole writes later

theorem slc_gc_calls_none (ftl : ZmsFtl) (sound : ∃ home prog, SlcSound p ftl home prog) : GcCalls p ftl ftl [] :=
  ⟨⟨sound, rfl⟩, fun _ member => absurd member List.not_mem_nil⟩

include ns regular delay in
theorem slc_gc_internal_calls (ftl next : ZmsFtl) (lpns : List Nat) (start time : Nat) (sound : ∃ home prog, SlcSound p ftl home prog)
    (short : lpns.length ≤ oneshotOf p .pslc) (ran : internalWrite noCollect p ftl lpns .gcIo .pslc start = .ok (time, next)) :
    GcCalls p ftl next (internalWriteTrace p (fun _ _ => []) noCollect ftl lpns .gcIo .pslc start).calls := by
  have quiet := nand_read_quiet p ftl lpns .gcIo start
  obtain ⟨home, prog, known⟩ := sound
  obtain ⟨_, _, done, _⟩ := gc_internal_write_sound p ns regular ftl next lpns start time home prog known ran
  unfold internalWrite at ran
  unfold internalWriteTrace
  generalize nandRead p ftl lpns .gcIo start = fetched at ran quiet ⊢
  obtain ⟨writeStart, middle⟩ := fetched
  dsimp only at ran quiet ⊢
  rw [internal_write_pages] at ran
  obtain ⟨last, looped, rest⟩ := bind_ok _ _ _ ran
  have same : last.ftl = next := (Prod.mk.inj (pure_ok _ _ rest)).2
  have begun : Collecting p ftl middle := collecting_quiet p regular ftl ftl middle quiet.media ⟨⟨home, prog, known⟩, rfl⟩
  have followed := write_pages_followed p delay noCollect (fun _ _ => []) (no_collect_account p) (dropIfMapped p) (drop_if_mapped_step p)
    (drop_if_mapped_written p) .gcIo .pslc writeStart _ _ _ _ (slc_gc_follow p ns regular ftl writeStart (lpns.getLast?.getD 0)) lpns [] 0
    ⟨middle, 0, writeStart⟩ last begun looped (by rw [same]; exact done.roomy.clear)
  rw [← same]
  refine ⟨followed.ready, fun writes member => ?_⟩
  rcases List.mem_cons.mp member with own | inner
  · rw [own]
    refine short_call_whole p .pslc _ _ 0 lpns [] last.ftl _ _ (fun lpn ending => ?_) _ (fun _ _ placed => placed) followed short
    rw [ending]
    rfl
  · exact (followed.inner writes inner).elim

include ns regular delay in
theorem slc_gc_flush_calls (ftl : ZmsFtl) (agg : List Nat) (scan : GcScan) (sound : ∃ home prog, SlcSound p ftl home prog)
    (short : agg.length ≤ oneshotOf p .pslc) (some : 0 < oneshotOf p .pslc) (ran : gcFlush p ftl agg .pslc = .ok scan) :
    GcCalls p ftl scan.ftl (gcFlushCalls p ftl agg .pslc) ∧ scan.agg.length < oneshotOf p .pslc := by
  unfold gcFlush at ran
  unfold gcFlushCalls
  split at ran
  · rename_i full
    rw [if_pos full]
    obtain ⟨⟨time, middle⟩, writing, rest⟩ := bind_ok _ _ _ ran
    rw [← pure_ok _ _ rest]
    exact ⟨slc_gc_internal_calls p ns regular delay ftl middle agg 0 time sound short writing, some⟩
  · rename_i partly
    rw [if_neg partly, ← Except.ok.inj ran]
    exact ⟨slc_gc_calls_none p ftl sound, Nat.lt_of_le_of_ne short partly⟩

include ns regular delay in
theorem slc_gc_visit_calls (scan next : GcScan) (page : Page) (sound : ∃ home prog, SlcSound p scan.ftl home prog)
    (short : scan.agg.length < oneshotOf p .pslc) (ran : gcVisit p .pslc scan page = .ok next) :
    GcCalls p scan.ftl next.ftl (gcVisitCalls p .pslc scan page) ∧ next.agg.length < oneshotOf p .pslc := by
  unfold gcVisit at ran
  unfold gcVisitCalls
  split at ran
  · rename_i valid
    rw [if_pos valid]
    obtain ⟨middle, flushed, rest⟩ := bind_ok _ _ _ ran
    obtain ⟨calls, left⟩ := slc_gc_flush_calls p ns regular delay scan.ftl _ middle sound
      (by rw [List.length_append]; exact short) (Nat.zero_lt_of_lt short) flushed
    rw [← pure_ok _ _ rest]
    exact ⟨⟨collecting_quiet p regular scan.ftl middle.ftl _ rfl calls.kept, calls.whole⟩, left⟩
  · rename_i stale
    rw [if_neg stale, ← Except.ok.inj ran]
    exact ⟨slc_gc_calls_none p scan.ftl sound, short⟩

include ns regular delay in
theorem slc_gc_scan_calls (fuel : Nat) (scan next : GcScan) (page : Option Page) (sound : ∃ home prog, SlcSound p scan.ftl home prog)
    (short : scan.agg.length < oneshotOf p .pslc) (ran : gcScan p .pslc fuel scan page = .ok next) :
    GcCalls p scan.ftl next.ftl (gcScanCalls p .pslc fuel scan page) ∧ next.agg.length < oneshotOf p .pslc := by
  induction fuel generalizing scan page with
  | zero =>
      cases page with
      | none =>
          rw [← Except.ok.inj ran]
          exact ⟨slc_gc_calls_none p scan.ftl sound, short⟩
      | some page => exact nomatch ran
  | succ fuel ih =>
      cases page with
      | none =>
          rw [← Except.ok.inj ran]
          exact ⟨slc_gc_calls_none p scan.ftl sound, short⟩
      | some page =>
          unfold gcScan at ran
          obtain ⟨middle, visited, rest⟩ := bind_ok _ _ _ ran
          obtain ⟨first, left⟩ := slc_gc_visit_calls p ns regular delay scan middle page sound short visited
          obtain ⟨later, last⟩ := ih middle _ first.kept.sound left rest
          unfold gcScanCalls
          rw [visited]
          exact ⟨slc_gc_calls_append p _ _ _ _ _ first later, last⟩

include ns regular delay in
theorem slc_gc_rest_calls (scan : GcScan) (next : ZmsFtl) (sound : ∃ home prog, SlcSound p scan.ftl home prog)
    (short : scan.agg.length < oneshotOf p .pslc) (ran : gcRest p .pslc scan = .ok next) :
    GcCalls p scan.ftl next (gcRestCalls p .pslc scan) := by
  unfold gcRest at ran
  unfold gcRestCalls
  split at ran
  · rename_i empty
    rw [if_pos empty, ← Except.ok.inj ran]
    exact slc_gc_calls_none p scan.ftl sound
  · rename_i some
    rw [if_neg some, if_neg nofun]
    rw [if_neg nofun] at ran
    obtain ⟨⟨time, middle⟩, writing, rest⟩ := bind_ok _ _ _ ran
    rw [← pure_ok _ _ rest]
    exact slc_gc_internal_calls p ns regular delay scan.ftl middle scan.agg 0 time sound (Nat.le_of_lt short) writing

include ns regular delay in
theorem slc_submit_calls (ftl next : ZmsFtl) (ref : LineRef) (listed : ref ∈ lineRefs p)
    (sound : ∃ home prog, SlcSound p ftl home prog) (some : 0 < oneshotOf p .pslc) (ran : submitInternalWrite p ftl ref = .ok next) :
    GcCalls p ftl next (submitInternalCalls p ftl ref) := by
  unfold submitInternalWrite at ran
  unfold submitInternalCalls
  rw [listed_location p .pslc regular ref listed] at ran ⊢
  obtain ⟨scan, scanned, rest⟩ := bind_ok _ _ _ ran
  obtain ⟨walked, short⟩ := slc_gc_scan_calls p ns regular delay _ (gcStart ftl .pslc) scan _ sound some scanned
  dsimp only
  rw [scanned]
  exact slc_gc_calls_append p _ _ _ _ _ walked (slc_gc_rest_calls p ns regular delay scan next walked.kept.sound short rest)

include ns regular delay in
theorem slc_do_gc_calls (ftl next : ZmsFtl) (force : Bool) (resting : SlcResting p ftl) (some : 0 < oneshotOf p .pslc)
    (ran : doGc p ftl force .pslc = .ok next) :
    otherWps .pslcGcWp next = otherWps .pslcGcWp ftl ∧ ∀ writes ∈ doGcCalls p ftl force .pslc, WholeBatches p writes := by
  obtain ⟨home, prog, sound, none⟩ := resting
  unfold doGc at ran
  unfold doGcCalls
  cases chosen : selectVictimLine p ftl force .pslc with
  | none =>
      rw [chosen] at ran
      rw [← Except.ok.inj ran]
      exact ⟨rfl, fun _ member => absurd member List.not_mem_nil⟩
  | some selection =>
      obtain ⟨victim, selected⟩ := selection
      rw [chosen] at ran
      obtain ⟨emptied, moving, rest⟩ := bind_ok _ _ _ ran
      obtain ⟨credited, listed, _⟩ := slc_selected_sound p regular ftl selected force victim home prog sound chosen
      obtain ⟨home', prog', done, out, vpc, _⟩ := submit_internal_write_emptied p ns regular victim _ prog _ emptied credited
        (Function.update_self ..) listed moving
      have calls := slc_submit_calls p ns regular delay _ emptied victim listed ⟨_, prog, credited⟩ some moving
      have away : home' victim = .out := (out victim).mpr (Function.update_self ..)
      have idle := freeable_idle p .pslc emptied home' prog' _ done.media victim .gcIo ⟨.inl ⟨away, rfl⟩, vpc⟩
      have erased := (erase_line_idle p emptied victim .gcIo idle).1
      refine ⟨?_, calls.whole⟩
      rw [← pure_ok _ _ rest]
      calc otherWps .pslcGcWp (countGc (eraseLine p emptied victim .gcIo))
          = otherWps .pslcGcWp emptied := other_wps_congr _ _ _ erased
        _ = otherWps .pslcGcWp selected := calls.kept.others
        _ = otherWps .pslcGcWp ftl := other_wps_congr _ _ _ (select_victim_wps p ftl selected force .pslc victim chosen)

include ns regular delay in
theorem slc_foreground_calls (ftl next : ZmsFtl) (resting : SlcResting p ftl) (some : 0 < oneshotOf p .pslc)
    (ran : foregroundGc p ftl .pslc = .ok next) :
    otherWps .pslcGcWp next = otherWps .pslcGcWp ftl ∧ ∀ writes ∈ foregroundCalls p ftl .pslc, WholeBatches p writes := by
  unfold foregroundGc at ran
  unfold foregroundCalls
  split at ran
  · rename_i high
    rw [if_pos high]
    have credited := slc_resting_kept p regular ftl (setCreditsToRefill ftl .pslc 0) rfl resting
    dsimp only at ran ⊢
    split at ran
    · rename_i full
      rw [if_pos full, ← Except.ok.inj ran]
      exact ⟨rfl, fun _ member => absurd member List.not_mem_nil⟩
    · rename_i clear
      rw [if_neg clear]
      exact slc_do_gc_calls p ns regular delay (setCreditsToRefill ftl .pslc 0) next true credited some ran
  · rename_i low
    rw [if_neg low, ← Except.ok.inj ran]
    exact ⟨rfl, fun _ member => absurd member List.not_mem_nil⟩

end Collecting

section Flushing

variable (config : DualConfig) (regular : Regular (dualParams config .pslc) .pslc)

structure SlcReady (place : Nat) (rest : List Nat) (ftl : ZmsFtl) : Prop where
  resting : SlcResting (dualParams config .pslc) ftl
  ahead : DigitAhead (dualParams config .pslc) place (ftl.wps .pslcWp)
  unmapped : ∀ lpn ∈ rest, ¬Mapped (dualParams config .pslc) ftl lpn
  distinct : rest.Nodup

theorem slc_oneshot_positive : 0 < oneshotOf (dualParams config .pslc) .pslc := by
  rw [← dual_wordline_pages]
  exact Nat.mul_pos (dual_wordline_positive config .pslc) (config_flash_positive config)

theorem slc_ready_kept (place : Nat) (rest : List Nat) (before after : ZmsFtl) (media : mediaSide after = mediaSide before)
    (regular : Regular (dualParams config .pslc) .pslc) (ready : SlcReady config place rest before) : SlcReady config place rest after := by
  refine ⟨slc_resting_kept _ regular before after media ready.resting, ?_, fun lpn member held => ?_, ready.distinct⟩
  · rw [show after.wps = before.wps from congrArg MediaSide.wps media]
    exact ready.ahead
  · exact ready.unmapped lpn member ((same_maps_mapped _ before after (media_maps before after media) lpn).mp held)

include regular in
theorem slc_flush_follow (start elpn : Nat) :
    PagesFollow (dualParams config .pslc) (foregroundGc (dualParams config .pslc)) (foregroundCalls (dualParams config .pslc))
      (countInplace (dualParams config .pslc)) .userIo .pslc start elpn (SlcReady config) (ShownAt config .pslc)
      (WholeBatches (dualParams config .pslc)) := by
  intro place lpn rest ftl next toWritePgs time ready ran clear
  have ns := dual_slc_namespace config
  have counted := slc_ready_kept config place (lpn :: rest) ftl _ (count_inplace_step (dualParams config .pslc) ftl lpn).media regular ready
  generalize countInplace (dualParams config .pslc) ftl lpn = before at ran counted ⊢
  obtain ⟨resting, ahead, unmapped, distinct⟩ := counted
  have absent := unmapped lpn List.mem_cons_self
  obtain ⟨done, mapped⟩ := slc_user_write_sound _ ns regular before next start lpn toWritePgs elpn time resting absent ran
  obtain ⟨written, mapping, traced⟩ := nand_write_traced _ _ (foregroundCalls (dualParams config .pslc)) before next start lpn .pslc .userIo
    toWritePgs elpn time ran
  obtain ⟨again, mappedAgain, own⟩ := nand_write_own _ _ (foregroundCalls (dualParams config .pslc)) .userIo .pslc start elpn before next lpn
    toWritePgs time ran
  cases Except.ok.inj (mapping.symm.trans mappedAgain)
  obtain ⟨home, prog, sound, none⟩ := resting
  rw [slc_update_or_reserve, any_full_loc _ .pslc sound.roomy.clear, if_neg Bool.false_ne_true] at mapping
  obtain ⟨home', prog', writtenSound, out, _⟩ := slc_reserve_sound _ ns regular before written lpn .userIo home prog sound
    (fun page held => absent ((mapped_iff_on_page _ before lpn).mpr ⟨page, held⟩)) mapping
  obtain ⟨after, page, there, digit⟩ := slc_reserve_digit _ ns (config_row_geometry config) before written lpn place .userIo ahead mapping
  have rests : SlcResting _ written := ⟨home', prog', writtenSound, fun ref here => none ref ((out ref).mp here)⟩
  have left : ∀ other ∈ rest, ¬Mapped (dualParams config .pslc) next other := by
    intro other member held
    rcases (mapped other).mp held with before | same
    · exact unmapped other (List.mem_cons_of_mem lpn member) before
    · rw [same] at member
      exact (List.nodup_cons.mp distinct).1 member
  have spot : ∀ write ∈ (nandWriteTrace (dualParams config .pslc) (foregroundCalls (dualParams config .pslc)) before start lpn .pslc .userIo
      toWritePgs elpn).own, ShownAt config .pslc place write := by
    intro write member
    rw [own, List.mem_singleton] at member
    rw [member]
    exact slc_shown config place _ page (on_page_place _ written lpn page .pslc writtenSound.roomy.clear there)
      (writtenSound.media.pages.named lpn page there).1 digit
  rcases traced.settled with ⟨below, inner, _⟩ | ⟨_, paid, collected, paidBelow, collecting, below, inner⟩
  · have wps : next.wps = written.wps := congrArg (fun side => MediaSide.wps side.1) below
    refine ⟨⟨done, ?_, left, (List.nodup_cons.mp distinct).2⟩, spot, ?_⟩
    · rw [wps]
      exact after
    · intro writes member
      rw [inner] at member
      exact absurd member List.not_mem_nil
  · have paidMedia : mediaSide paid = mediaSide written := congrArg Prod.fst paidBelow
    obtain ⟨others, whole⟩ := slc_foreground_calls _ ns regular rfl paid collected (slc_resting_kept _ regular written paid paidMedia rests)
      (slc_oneshot_positive config) collecting
    have pointer : next.wps .pslcWp = written.wps .pslcWp := by
      have same := congrFun others .pslcWp
      unfold otherWps at same
      rw [if_neg (by decide), if_neg (by decide)] at same
      calc next.wps .pslcWp = collected.wps .pslcWp := congrFun (congrArg (fun side => MediaSide.wps side.1) below) .pslcWp
        _ = paid.wps .pslcWp := Option.some.inj same
        _ = written.wps .pslcWp := congrFun (congrArg MediaSide.wps paidMedia) .pslcWp
    refine ⟨⟨done, ?_, left, (List.nodup_cons.mp distinct).2⟩, spot, ?_⟩
    · rw [pointer]
      exact after
    · intro writes member
      rw [inner] at member
      exact whole writes member

end Flushing

end ConZone
