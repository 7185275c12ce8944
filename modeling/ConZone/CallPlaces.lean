import ConZone.MediaMoves
import ConZone.Accounting

set_option autoImplicit false

namespace ConZone

section Following

variable (p : Params) (delay : p.zpp.enableGcDelay = true)
variable (collect : ZmsFtl → Loc → Exec ZmsFtl) (collected : ZmsFtl → Loc → List (List PageWrite))
variable (collects : ∀ ftl loc next, collect ftl loc = .ok next → CallsAccount p ftl next (collected ftl loc))
variable (prepare : ZmsFtl → Nat → ZmsFtl) (prepares : ∀ ftl lpn, MediaStep ftl (prepare ftl lpn))
variable (prepared : ∀ ftl lpn, deviceWritten (prepare ftl lpn) = deviceWritten ftl)
variable (ioType : IoType) (loc : Loc) (start elpn : Nat)

-- ready says what holds before the page of a place is written, with the LPNs that
-- are left; shown, what a page write at a place is seen to do; fine, what holds of
-- the calls that collections make meanwhile.
variable (ready : Nat → List Nat → ZmsFtl → Prop) (shown : Nat → PageWrite → Prop) (fine : List PageWrite → Prop)

def PagesFollow : Prop :=
  ∀ place lpn rest ftl next toWritePgs time, ready place (lpn :: rest) ftl →
    nandWrite collect p (prepare ftl lpn) start lpn loc ioType toWritePgs elpn = .ok (time, next) → anyFull next = false →
    ready (place + 1) rest next ∧
      (∀ write ∈ (nandWriteTrace p collected (prepare ftl lpn) start lpn loc ioType toWritePgs elpn).own, shown place write) ∧
      ∀ writes ∈ (nandWriteTrace p collected (prepare ftl lpn) start lpn loc ioType toWritePgs elpn).inner, fine writes

structure Followed (place : Nat) (lpns rest : List Nat) (after : ZmsFtl) (trace : Trace) : Prop where
  ready : ready (place + lpns.length) rest after
  lpns : trace.own.map (fun write => (write.loc, write.last)) = lpns.map fun lpn => (loc, lpn == elpn)
  shown : ∀ index write, trace.own[index]? = some write → shown (place + index) write
  inner : ∀ writes ∈ trace.inner, fine writes

theorem followed_nil (place : Nat) (rest : List Nat) (ftl : ZmsFtl) (begun : ready place rest ftl) :
    Followed loc elpn ready shown fine place [] rest ftl ⟨[], []⟩ :=
  ⟨begun, rfl, fun _ _ none => (nomatch none), fun _ member => absurd member List.not_mem_nil⟩

theorem followed_length (place : Nat) (lpns rest : List Nat) (ftl : ZmsFtl) (trace : Trace)
    (followed : Followed loc elpn ready shown fine place lpns rest ftl trace) : trace.own.length = lpns.length := by
  have same := congrArg List.length followed.lpns
  rwa [List.length_map, List.length_map] at same

theorem followed_trans (place : Nat) (first second rest : List Nat) (middle after : ZmsFtl) (left right : Trace)
    (before : Followed loc elpn ready shown fine place first (second ++ rest) middle left)
    (later : Followed loc elpn ready shown fine (place + first.length) second rest after right) :
    Followed loc elpn ready shown fine place (first ++ second) rest after (left.append right) := by
  have length := followed_length loc elpn ready shown fine place first _ middle left before
  refine ⟨?_, ?_, ?_, ?_⟩
  · rw [List.length_append, ← Nat.add_assoc]
    exact later.ready
  · simp only [Trace.append, List.map_append]
    rw [before.lpns, later.lpns]
  · intro index write there
    simp only [Trace.append] at there
    rcases Nat.lt_or_ge index left.own.length with inside | past
    · rw [List.getElem?_append_left inside] at there
      exact before.shown index write there
    · rw [List.getElem?_append_right past] at there
      have own := later.shown _ write there
      rwa [show place + first.length + (index - left.own.length) = place + index by omega] at own
  · intro writes member
    rcases List.mem_append.mp member with earlier | inner
    · exact before.inner writes earlier
    · exact later.inner writes inner

theorem nand_write_own (ftl next : ZmsFtl) (lpn toWritePgs time : Nat)
    (ran : nandWrite collect p ftl start lpn loc ioType toWritePgs elpn = .ok (time, next)) :
    ∃ mapped, updateOrReserveMapping p ftl lpn loc ioType = .ok mapped ∧
      (nandWriteTrace p collected ftl start lpn loc ioType toWritePgs elpn).own =
        [pageWrite p ftl mapped start lpn loc ioType toWritePgs elpn] := by
  unfold nandWrite at ran
  obtain ⟨mapped, mapping, _⟩ := bind_ok _ _ _ ran
  refine ⟨mapped, mapping, ?_⟩
  unfold nandWriteTrace
  rw [mapping]

variable (follow : PagesFollow p collect collected prepare ioType loc start elpn ready shown fine)

include delay collects prepares prepared follow in
-- By induction on the LPNs: each is given the next place.
theorem write_pages_followed (lpns rest : List Nat) (place : Nat) (state next : FlushState) (begun : ready place (lpns ++ rest) state.ftl)
    (ran : writePages p collect prepare ioType loc start elpn lpns state = .ok next) (clear : anyFull next.ftl = false) :
    Followed loc elpn ready shown fine place lpns rest next.ftl
      (writePagesTrace p collected collect prepare ioType loc start elpn lpns state) := by
  induction lpns generalizing place state with
  | nil =>
      rw [← Except.ok.inj ran]
      exact followed_nil loc elpn ready shown fine place rest state.ftl begun
  | cons lpn lpns ih =>
      unfold writePages at ran
      obtain ⟨⟨time, middle⟩, writing, ran⟩ := bind_ok _ _ _ ran
      have later := (write_pages_account p delay collect collected collects prepare prepares prepared ioType loc start elpn lpns _ next ran).step
      obtain ⟨after, own, inner⟩ := follow place lpn (lpns ++ rest) state.ftl middle _ time begun writing (media_step_clear _ _ later clear)
      obtain ⟨mapped, _, alone⟩ := nand_write_own p collect collected ioType loc start elpn _ middle lpn _ time writing
      have first : Followed loc elpn ready shown fine place [lpn] (lpns ++ rest) middle
          (nandWriteTrace p collected (prepare state.ftl lpn) start lpn loc ioType (state.toWritePgs + 1) elpn) := by
        refine ⟨after, ?_, ?_, inner⟩
        · rw [alone]
          rfl
        · intro index write there
          have member := List.mem_of_getElem? there
          rw [alone] at there
          rw [List.getElem?_singleton] at there
          split at there
          · rename_i zero
            rw [zero]
            exact own write member
          · cases there
      unfold writePagesTrace
      rw [writing]
      exact followed_trans loc elpn ready shown fine place [lpn] lpns rest middle next.ftl _ _ first (ih (place + 1) _ after ran)

end Following

section Flushing

variable (p : Params) (delay : p.zpp.enableGcDelay = true) (dual : zmsIsDualNs p.zpp.nsType = true)
variable (start elpn zid : Nat) (ready : Nat → List Nat → ZmsFtl → Prop) (shown : Nat → PageWrite → Prop)
variable (fine : List PageWrite → Prop)
variable (alone : ∀ place lpns ftl, ready place lpns ftl → zmsDualTargetLoc p.zpp.nsType = .normal → ftl.zoneAggLpns zid = [])
variable (counted : ∀ place lpns ftl loc pgs, ready place lpns ftl → ready place lpns (countFlush ftl loc pgs))
variable (follow : PagesFollow p (foregroundGc p) (foregroundCalls p) (countInplace p) .userIo (zmsDualTargetLoc p.zpp.nsType) start elpn
  ready shown fine)

include dual in
theorem dual_ready_page (loc : Loc) (zid : Nat) : readyPage p loc zid = countInplace p := by
  funext ftl lpn
  unfold readyPage
  dsimp only
  rw [dual]
  rfl

include delay dual alone counted follow in
theorem flush_round_followed (lpns rest : List Nat) (place : Nat) (state next : FlushState) (begun : ready place lpns state.ftl)
    (ran : flushRound p start elpn zid lpns state = .ok (rest, next)) (clear : anyFull next.ftl = false) :
    ∃ taken, lpns = taken ++ rest ∧ Followed (zmsDualTargetLoc p.zpp.nsType) elpn ready shown fine place taken rest next.ftl
      (flushRoundTrace p start elpn zid lpns state) := by
  have target : getFlushTargetLocation p state.ftl lpns = zmsDualTargetLoc p.zpp.nsType := by
    rw [getFlushTargetLocation, dual, if_pos rfl]
  unfold flushRound at ran
  unfold flushRoundTrace
  dsimp only at ran ⊢
  have single : ¬(zmsDualTargetLoc p.zpp.nsType = .normal ∧ state.ftl.zoneAggLpns zid ≠ []) :=
    fun both => both.2 (alone place lpns state.ftl begun both.1)
  rw [target, if_neg single] at ran ⊢
  obtain ⟨flushed, flushing, ran⟩ := bind_ok _ _ _ ran
  obtain ⟨left, same⟩ := Prod.mk.inj (pure_ok _ _ ran)
  rw [flush_pages_written, dual_ready_page p dual] at flushing
  rw [dual_ready_page p dual]
  rw [← same] at clear ⊢
  rw [← List.take_append_drop (min (oneshotOf p (zmsDualTargetLoc p.zpp.nsType)) lpns.length) lpns] at begun
  have written := write_pages_followed p delay (foregroundGc p) (foregroundCalls p) (foreground_account p delay) (countInplace p)
    (fun ftl lpn => quiet_media_step _ _ (count_inplace_step p ftl lpn)) (count_inplace_written p) .userIo _ start elpn ready shown fine follow
    _ _ place state flushed begun flushing clear
  refine ⟨_, by rw [← left, List.take_append_drop], ?_⟩
  rw [← left]
  exact ⟨counted _ _ _ _ _ written.ready, written.lpns, written.shown, written.inner⟩

include delay dual alone counted follow in
theorem flush_rounds_followed (fuel : Nat) (lpns : List Nat) (place : Nat) (state next : FlushState) (begun : ready place lpns state.ftl)
    (ran : flushRounds p start elpn zid fuel lpns state = .ok next) (clear : anyFull next.ftl = false) :
    Followed (zmsDualTargetLoc p.zpp.nsType) elpn ready shown fine place lpns [] next.ftl
      (flushRoundsTrace p start elpn zid fuel lpns state) := by
  induction fuel generalizing lpns place state with
  | zero =>
      cases lpns with
      | nil =>
          rw [← Except.ok.inj ran]
          exact followed_nil _ elpn ready shown fine place [] state.ftl begun
      | cons lpn lpns => exact nomatch ran
  | succ fuel ih =>
      cases lpns with
      | nil =>
          rw [← Except.ok.inj ran]
          exact followed_nil _ elpn ready shown fine place [] state.ftl begun
      | cons lpn lpns =>
          unfold flushRounds at ran
          obtain ⟨⟨rest, middle⟩, rounded, ran⟩ := bind_ok _ _ _ ran
          unfold flushRoundsTrace
          rw [rounded]
          dsimp only at ran ⊢
          split at ran
          · rename_i full
            rw [← pure_ok _ _ ran, full] at clear
            cases clear
          · rename_i unfilled
            obtain ⟨taken, split, first⟩ := flush_round_followed p delay dual start elpn zid ready shown fine alone counted follow _ rest place
              state middle begun rounded (Bool.eq_false_iff.mpr unfilled)
            have middleReady := first.ready
            rw [if_neg unfilled]
            rw [← List.append_nil rest] at first
            have both := followed_trans _ elpn ready shown fine place taken rest [] middle.ftl next.ftl _ _ first
              (ih rest _ middle middleReady ran)
            rw [← split] at both
            exact both

end Flushing

section Tracing

variable (p : Params) (collect : ZmsFtl → Loc → Exec ZmsFtl) (collected : ZmsFtl → Loc → List (List PageWrite))

-- After the mapping step of a page write only the collection that a spent
-- credit may bring about touches the medium, and it makes all other calls.
structure WroteTraced (loc : Loc) (ioType : IoType) (written next : ZmsFtl) (trace : Trace) : Prop where
  settled : lowerSide next = lowerSide written ∧ trace.inner = [] ∧ (written.wfc loc).writeCredits - 1 ≤ (next.wfc loc).writeCredits ∨
    (takesCredit p loc ioType = true ∧ (written.wfc loc).writeCredits ≤ 1) ∧ ∃ paid after, lowerSide paid = lowerSide written ∧
      collect paid loc = .ok after ∧ lowerSide next = lowerSide after ∧ trace.inner = collected paid loc

theorem program_page_wfc (ftl : ZmsFtl) (start lpn : Nat) (loc : Loc) (ioType : IoType) (toWritePgs elpn : Nat) (page : Page) :
    (programPage p ftl start lpn loc ioType toWritePgs elpn page).2.wfc = ftl.wfc := by
  unfold programPage
  split
  · split <;> rfl
  · rfl

theorem nand_write_traced (ftl next : ZmsFtl) (start lpn : Nat) (loc : Loc) (ioType : IoType) (toWritePgs elpn time : Nat)
    (ran : nandWrite collect p ftl start lpn loc ioType toWritePgs elpn = .ok (time, next)) :
    ∃ written, updateOrReserveMapping p ftl lpn loc ioType = .ok written ∧
      WroteTraced p collect collected loc ioType written next (nandWriteTrace p collected ftl start lpn loc ioType toWritePgs elpn) := by
  unfold nandWrite at ran
  obtain ⟨written, mapping, rest⟩ := bind_ok _ _ _ ran
  refine ⟨written, mapping, ?_⟩
  unfold nandWriteTrace
  rw [mapping]
  unfold placeOf
  have idle : next = written → WroteTraced p collect collected loc ioType written next
      ⟨[pageWrite p ftl written start lpn loc ioType toWritePgs elpn], []⟩ := by
    intro unchanged
    rw [unchanged]
    exact ⟨.inl ⟨rfl, rfl, by omega⟩⟩
  dsimp only
  cases entry : getMaptblEnt p written lpn with
  | unmapped =>
      rw [entry] at rest
      exact idle (Prod.mk.inj (pure_ok _ _ rest)).2.symm
  | rsv =>
      rw [entry] at rest
      exact idle (Prod.mk.inj (pure_ok _ _ rest)).2.symm
  | mapped page map =>
      rw [entry] at rest
      dsimp only at rest ⊢
      by_cases full : locFull written loc = true
      · rw [if_pos full] at rest ⊢
        exact idle (Prod.mk.inj (pure_ok _ _ rest)).2.symm
      · rw [if_neg full] at rest ⊢
        have below := program_page_lower p written start lpn loc ioType toWritePgs elpn page
        have credits := program_page_wfc p written start lpn loc ioType toWritePgs elpn page
        dsimp only
        generalize programPage p written start lpn loc ioType toWritePgs elpn page = programmed at rest below credits ⊢
        obtain ⟨finish, done⟩ := programmed
        dsimp only at rest below credits ⊢
        split at rest
        · rename_i takes
          have paid : ((consumeWriteCredit done loc).wfc loc).writeCredits = (written.wfc loc).writeCredits - 1 := by
            unfold consumeWriteCredit
            dsimp only
            rw [Function.update_self, credits]
          obtain ⟨refilled, refilling, rest⟩ := bind_ok _ _ _ rest
          unfold checkAndRefillWriteCredit at refilling
          unfold refillCalls
          rw [if_pos takes, ← (Prod.mk.inj (pure_ok _ _ rest)).2]
          split at refilling
          · rename_i spent
            obtain ⟨after, collecting, rest⟩ := bind_ok _ _ _ refilling
            rw [if_pos spent, ← pure_ok _ _ rest]
            rw [paid] at spent
            exact ⟨.inr ⟨⟨takes, by omega⟩, consumeWriteCredit done loc, after, below, collecting, rfl, rfl⟩⟩
          · rename_i left
            rw [if_neg left, ← pure_ok _ _ refilling]
            exact ⟨.inl ⟨below, rfl, Int.le_of_eq paid.symm⟩⟩
        · rename_i free
          rw [if_neg free, ← (Prod.mk.inj (pure_ok _ _ rest)).2]
          refine ⟨.inl ⟨below, rfl, ?_⟩⟩
          rw [credits]
          omega

end Tracing

end ConZone
