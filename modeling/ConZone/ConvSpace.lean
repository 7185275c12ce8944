import ConZone.ConvCredits

set_option autoImplicit false

namespace ConZone.Conv

section Ends

variable {α β : Type}

structure Ends (property : α → Prop) (exec : Exec α) : Prop where
  holds : ∀ value, exec = .ok value → property value
  line : exec ≠ .error .nullDeref

theorem ends_ok (property : α → Prop) (value : α) (holds : property value) : Ends property (.ok value) := by
  refine ⟨fun other same => ?_, fun absurd' => (nomatch absurd')⟩
  rw [← Except.ok.inj same]
  exact holds

theorem ends_fault (property : α → Prop) (fault : Fault) (apart : fault ≠ .nullDeref) : Ends property (.error fault) :=
  ⟨fun _ same => (nomatch same), fun same => apart (Except.error.inj same)⟩

theorem ends_bind (middle : α → Prop) (property : β → Prop) (first : Exec α) (next : α → Exec β) (ends : Ends middle first)
    (rest : ∀ value, middle value → Ends property (next value)) : Ends property (first >>= next) := by
  cases first with
  | ok value => exact rest value (ends.holds value rfl)
  | error fault => exact ends_fault _ _ fun same => ends.line (by rw [same])

theorem ends_assert (condition : Prop) [Decidable condition] : Ends (fun _ => condition) (nvmevAssert condition) := by
  unfold nvmevAssert
  split
  · rename_i holds
    exact ends_ok _ _ holds
  · exact ends_fault _ _ (by decide)

end Ends

section Confined

variable (c : ConvParams) (ftl : ConvFtl) (cur lpn : Nat)

-- Where a line takes only some of the LUNs, the write pointer never gets to the end
-- of its first line: the counts of the line are too small for the pages there.
-- ahead is 1 when the page of the write pointer is taken.
structure Confined (ahead : Nat) : Prop where
  standing : Standing c ftl.wp cur
  counted : (ftl.lm.lines cur).vpc + (ftl.lm.lines cur).ipc = wpIdx c ftl.wp + ahead
  vpc : 0 ≤ (ftl.lm.lines cur).vpc ∧ (ftl.lm.lines cur).vpc ≤ pgsPerLine c
  ipc : 0 ≤ (ftl.lm.lines cur).ipc ∧ (ftl.lm.lines cur).ipc ≤ pgsPerLine c
  mapped : ∀ lpn page, ftl.maptbl lpn = some page → page.block.blk = cur
  free : 3 ≤ ftl.lm.freeLineCnt
  credits : 1 ≤ ftl.writeCredits ∧ ftl.writeCredits ≤ pgsPerLine c
  refill : ftl.creditsToRefill = pgsPerLine c
  collects : ftl.gcMissed = false
  unwrapped : ftl.creditsWrapped = false

theorem dec_vpc_free (lm : LineMgmt) (id : Nat) : (decVpc lm id).freeLineCnt = lm.freeLineCnt := by
  unfold decVpc
  dsimp only
  split
  · rfl
  · rfl

theorem invalidate_in_line_ends (lm : LineMgmt) (id : Nat) : Ends (fun next =>
    next.freeLineCnt = lm.freeLineCnt ∧ (next.lines id).vpc = (lm.lines id).vpc - 1 ∧ (next.lines id).ipc = (lm.lines id).ipc + 1 ∧
      0 < (lm.lines id).vpc ∧ (lm.lines id).ipc < pgsPerLine c) (invalidateInLine c lm id) := by
  unfold invalidateInLine
  dsimp only
  refine ends_bind _ _ _ _ (ends_assert _) fun _ ipcRange => ?_
  refine ends_bind _ _ _ _ (ends_assert _) fun _ _ => ?_
  refine ends_bind _ _ _ _ (ends_assert _) fun _ vpcRange => ?_
  obtain ⟨vpc, ipc⟩ := bump_dec_counts lm id id
  rw [if_pos rfl] at vpc ipc
  have free : (decVpc (bumpIpc lm id) id).freeLineCnt = lm.freeLineCnt := dec_vpc_free _ _
  split
  · exact ends_ok _ _ ⟨free, vpc, ipc, vpcRange.1, ipcRange.2⟩
  · exact ends_ok _ _ ⟨free, vpc, ipc, vpcRange.1, ipcRange.2⟩

theorem mark_page_invalid_confined (page : Page) (line : page.block.blk = cur) (confined : Confined c ftl cur 0) :
    Ends (fun next => Confined c next cur 0) (markPageInvalid c ftl page) := by
  have inLine := invalidate_in_line_ends c ftl.lm cur
  unfold markPageInvalid
  dsimp only
  rw [line]
  refine ends_bind _ _ _ _ (ends_assert _) fun _ _ => ?_
  refine ends_bind _ _ _ _ (ends_assert _) fun _ _ => ?_
  refine ends_bind _ _ _ _ (ends_assert _) fun _ _ => ?_
  refine ends_bind _ _ _ _ inLine fun lm after => ?_
  obtain ⟨free, vpc, ipc, some, room⟩ := after
  have counted := confined.counted
  have vpcRange := confined.vpc
  have ipcRange := confined.ipc
  refine ends_ok _ _ ⟨confined.standing, ?_, ?_, ?_, confined.mapped, ?_, confined.credits, confined.refill, confined.collects, confined.unwrapped⟩
  · change (lm.lines cur).vpc + (lm.lines cur).ipc = wpIdx c ftl.wp + (0 : Nat)
    omega
  · dsimp only
    omega
  · dsimp only
    omega
  · dsimp only
    rw [free]
    exact confined.free

theorem set_rmap_confined (entry : Option Nat) (page : Page) (confined : Confined c ftl cur 0) :
    Ends (fun next => Confined c next cur 0) (setRmapEnt c ftl entry page) := by
  unfold setRmapEnt
  refine ends_bind _ _ _ _ (ends_assert _) fun _ _ => ?_
  exact ends_ok _ _ ⟨confined.standing, confined.counted, confined.vpc, confined.ipc, confined.mapped, confined.free, confined.credits,
    confined.refill, confined.collects, confined.unwrapped⟩

theorem invalidate_confined (confined : Confined c ftl cur 0) : Ends (fun next => Confined c next cur 0) (invalidateOld c ftl lpn) := by
  unfold invalidateOld
  cases mapped : ftl.maptbl lpn with
  | none => exact ends_ok _ _ confined
  | some page =>
      have line := confined.mapped lpn page mapped
      refine ends_bind _ _ _ _ (mark_page_invalid_confined c ftl cur page line confined) fun next kept => ?_
      exact set_rmap_confined c next cur none page kept

-- At the end of the line it would hold as many invalid pages as valid ones, and no
-- more valid ones than it may: the line is neither full nor fit for the queue.
theorem advance_confined (parted : ¬WholeLines c) (confined : Confined c ftl cur 1) :
    Ends (fun next => Confined c next cur 0) (advanceWritePointer c ftl .userIo) := by
  have standing := confined.standing
  have counted := confined.counted
  have vpc := confined.vpc
  have ipc := confined.ipc
  unfold advanceWritePointer
  change Ends _ (stepWritePointer c ftl.wp >>= _)
  rcases step_write_pointer c ftl.wp cur standing with ⟨next, stepped, nextStanding, idx⟩ | ⟨ended, span⟩
  · rw [stepped]
    refine ends_ok _ _ ⟨nextStanding, ?_, vpc, ipc, confined.mapped, confined.free, confined.credits, confined.refill, confined.collects,
      confined.unwrapped⟩
    change (ftl.lm.lines cur).vpc + (ftl.lm.lines cur).ipc = wpIdx c next + 0
    omega
  · rw [ended, ok_bind]
    have pointer : getWp ftl .userIo = ftl.wp := rfl
    dsimp only
    rw [pointer, standing.curline]
    dsimp only
    have groups : 2 ≤ c.lineGroups := by
      have some : 0 < c.lineGroups * c.lunsPerLine := by
        rw [← c.groupsWhole]
        exact c.lunsPositive
      have positive := Nat.pos_of_mul_pos_right some
      unfold WholeLines at parted
      omega
    have pages : 2 * pgsPerLine c ≤ spanPages c := by
      rw [span_groups]
      exact Nat.mul_le_mul_right _ groups
    have positive : 0 < spanPages c := Nat.mul_pos c.lunsPositive (pgs_per_blk_positive c)
    have full : (ftl.lm.lines cur).vpc = pgsPerLine c := by omega
    have stops : retireLine c ftl.lm cur = .error .bugOn := by
      have invalid : ¬(ftl.lm.lines cur).ipc = 0 := by omega
      unfold retireLine
      dsimp only
      rw [if_pos full]
      unfold nvmevAssert
      rw [if_neg invalid]
      rfl
    rw [stops]
    exact ends_fault _ _ (by decide)

theorem set_maptbl_confined (page : Page) (line : page.block.blk = cur) (confined : Confined c ftl cur 0) :
    Ends (fun next => Confined c next cur 0) (setMaptblEnt c ftl lpn page) := by
  unfold setMaptblEnt
  refine ends_bind _ _ _ _ (ends_assert _) fun _ _ => ?_
  refine ends_ok _ _ ⟨confined.standing, confined.counted, confined.vpc, confined.ipc, ?_, confined.free, confined.credits, confined.refill,
    confined.collects, confined.unwrapped⟩
  intro other known mapped
  dsimp only at mapped
  by_cases here : other = lpn
  · rw [here, Function.update_self] at mapped
    rw [← Option.some.inj mapped]
    exact line
  · rw [Function.update_of_ne here] at mapped
    exact confined.mapped other known mapped

theorem mark_page_valid_confined (page : Page) (line : page.block.blk = cur) (confined : Confined c ftl cur 0) :
    Ends (fun next => Confined c next cur 1) (markPageValid c ftl page) := by
  have counted := confined.counted
  unfold markPageValid
  dsimp only
  rw [line]
  refine ends_bind _ _ _ _ (ends_assert _) fun _ _ => ?_
  refine ends_bind _ _ _ _ (ends_assert _) fun _ _ => ?_
  refine ends_bind _ _ _ _ (ends_assert _) fun _ room => ?_
  have here : (putLine ftl.lm cur { ftl.lm.lines cur with vpc := (ftl.lm.lines cur).vpc + 1 }).lines cur =
      { ftl.lm.lines cur with vpc := (ftl.lm.lines cur).vpc + 1 } := Function.update_self ..
  refine ends_ok _ _ ⟨confined.standing, ?_, ?_, ?_, confined.mapped, confined.free, confined.credits, confined.refill, confined.collects,
    confined.unwrapped⟩
  · dsimp only
    rw [here]
    change (ftl.lm.lines cur).vpc + 1 + (ftl.lm.lines cur).ipc = wpIdx c ftl.wp + (1 : Nat)
    omega
  · dsimp only
    rw [here]
    dsimp only
    omega
  · dsimp only
    rw [here]
    exact confined.ipc

theorem place_confined (parted : ¬WholeLines c) (confined : Confined c ftl cur 0) :
    Ends (fun placed => Confined c placed.2 cur 0) (placePage c ftl .userIo lpn) := by
  have newPage : Ends (fun page => page = wpPage ftl.wp) (getNewPage ftl .userIo) := by
    unfold getNewPage
    exact ends_bind _ _ _ _ (ends_assert _) fun _ _ => ends_ok _ _ rfl
  unfold placePage
  refine ends_bind _ _ _ _ newPage fun page same => ?_
  have line : page.block.blk = cur := by
    rw [same]
    exact confined.standing.blk
  refine ends_bind _ _ _ _ (set_maptbl_confined c ftl cur lpn page line confined) fun first firstKept => ?_
  refine ends_bind _ _ _ _ (set_rmap_confined c first cur (some lpn) page firstKept) fun second secondKept => ?_
  refine ends_bind _ _ _ _ (mark_page_valid_confined c second cur page line secondKept) fun third thirdKept => ?_
  exact ends_bind _ _ _ _ (advance_confined c third cur parted thirdKept) fun _ done => ends_ok _ _ done

theorem refill_confined (confined : Confined c ftl cur 0) :
    Ends (fun next => Confined c next cur 0) (checkAndRefillWriteCredit c (consumeWriteCredit ftl)) := by
  have small := c.lineFits
  change pgsPerLine c < 2 ^ 31 at small
  have credits := confined.credits
  have free := confined.free
  rw [consume_credits ftl credits.1 (by omega)]
  unfold checkAndRefillWriteCredit
  dsimp only
  split
  · rename_i out
    unfold foregroundGc shouldGcHigh gcThresLinesHigh
    dsimp only
    have refilled : u32 (ftl.writeCredits - 1 + ftl.creditsToRefill) = pgsPerLine c := by
      rw [out, confined.refill]
      unfold u32
      omega
    rw [decide_eq_false (by omega), if_neg (by decide), ok_bind]
    dsimp only
    rw [refilled]
    exact ends_ok _ _ ⟨confined.standing, confined.counted, confined.vpc, confined.ipc, confined.mapped, free, by dsimp only; omega,
      confined.refill, confined.collects, confined.unwrapped⟩
  · exact ends_ok _ _ ⟨confined.standing, confined.counted, confined.vpc, confined.ipc, confined.mapped, free, by dsimp only; omega,
      confined.refill, confined.collects, confined.unwrapped⟩

theorem write_page_confined (parted : ¬WholeLines c) (confined : Confined c ftl cur 0) :
    Ends (fun placed => Confined c placed.2 cur 0) (writePage c ftl lpn) := by
  unfold writePage
  refine ends_bind _ _ _ _ (invalidate_confined c ftl cur lpn confined) fun dropped kept => ?_
  refine ends_bind _ _ _ _ (place_confined c dropped cur lpn parted kept) fun placed more => ?_
  obtain ⟨page, next⟩ := placed
  dsimp only at more ⊢
  exact ends_bind _ _ _ _ (refill_confined c next cur more) fun _ done => ends_ok _ _ done

end Confined

section Begin

variable (c : ConvParams)

theorem add_free_ring (count : Nat) (small : count < 2 ^ 32) :
    IntrusiveList.Ring ((List.range count).foldl addFree
        ⟨fun _ => freshLine, IntrusiveList.selfLinked, fun _ => 0, 1, 0, 0, 0⟩).links .free ((List.range count).map .line) ∧
      ((List.range count).foldl addFree ⟨fun _ => freshLine, IntrusiveList.selfLinked, fun _ => 0, 1, 0, 0, 0⟩).freeLineCnt = count := by
  induction count with
  | zero => exact ⟨IntrusiveList.ring_empty _ _ rfl rfl, rfl⟩
  | succ count ih =>
      obtain ⟨ring, counted⟩ := ih (by omega)
      rw [List.range_succ, List.foldl_append, List.map_append]
      refine ⟨?_, ?_⟩
      · exact IntrusiveList.ring_add_tail _ ListNode.free (.line count) _ ring (unlisted _ .free count (fun _ => by simp) (by simp))
      · exact (congrArg incCnt counted).trans (inc_cnt count (count + 1) (Nat.lt_succ_self _) small)

theorem next_free_ring (lm : LineMgmt) (id : Nat) (free : List Nat)
    (ring : IntrusiveList.Ring lm.links .free ((id :: free).map .line)) :
    ∃ taken, getNextFreeLine lm = .ok (some id, taken) ∧ taken.lines = lm.lines ∧
      IntrusiveList.Ring taken.links .free (free.map .line) ∧ taken.freeLineCnt = decCnt lm.freeLineCnt := by
  refine ⟨{ lm with links := IntrusiveList.listDelInit lm.links (.line id), freeLineCnt := decCnt lm.freeLineCnt }, ?_, rfl, ?_, rfl⟩
  · unfold getNextFreeLine
    rw [IntrusiveList.ring_first_entry _ _ _ ring]
    rfl
  · exact IntrusiveList.ring_del_init lm.links .free (.line id) [] (free.map .line) ring

theorem confined_start (lines : 5 ≤ ttLines c) (ftl : ConvFtl) (ran : convInitFtl c = .ok ftl) : Confined c ftl 0 0 := by
  obtain ⟨more, split⟩ : ∃ more, ttLines c = more + 2 := ⟨ttLines c - 2, by omega⟩
  have ids : List.range (ttLines c) = 0 :: 1 :: (List.range more).map fun id => id + 2 := by
    rw [split, List.range_succ_eq_map, List.range_succ_eq_map, List.map_cons, List.map_map]
    rfl
  have small : ttLines c < 2 ^ 32 := c.linesFit
  obtain ⟨ring, counted⟩ := add_free_ring (ttLines c) small
  have fresh : (initLines c).lines = fun _ => freshLine := add_free_lines _ _
  change IntrusiveList.Ring (initLines c).links _ _ at ring
  change (initLines c).freeLineCnt = _ at counted
  rw [ids] at ring
  obtain ⟨first, takesFirst, firstLines, firstRing, firstCnt⟩ := next_free_ring _ 0 _ ring
  obtain ⟨second, takesSecond, secondLines, _, secondCnt⟩ := next_free_ring _ 1 _ firstRing
  have free : second.freeLineCnt = more := by
    rw [secondCnt, firstCnt, counted, split, dec_cnt (more + 1) (by omega), dec_cnt more (by omega)]
  have started : ftl = startFtl c second := by
    have userLine : prepareWritePointer (bareFtl c) .userIo = .ok { bareFtl c with lm := first, wp := ⟨some 0, 0, 0, 0, 0, 0⟩ } := by
      unfold prepareWritePointer
      change (getNextFreeLine (initLines c) >>= _) = _
      rw [takesFirst]
      rfl
    unfold convInitFtl at ran
    rw [userLine, ok_bind] at ran
    unfold prepareWritePointer at ran
    dsimp only at ran
    rw [takesSecond, ok_bind] at ran
    exact (Except.ok.inj ran).symm
  have line : (startFtl c second).lm.lines 0 = freshLine := by
    change second.lines 0 = freshLine
    rw [secondLines, firstLines, fresh]
  have zero : wpIdx c (startFtl c second).wp = 0 := by
    change pageIdx c 0 0 0 = 0
    unfold pageIdx
    simp
  have lineSize := c.lineFits
  change pgsPerLine c < 2 ^ 31 at lineSize
  have positive : 0 < pgsPerLine c := by
    apply Nat.pos_of_ne_zero
    intro none
    have spans := span_groups c
    rw [none, Nat.mul_zero] at spans
    have some : 0 < spanPages c := Nat.mul_pos c.lunsPositive (pgs_per_blk_positive c)
    omega
  have credits : u32 (pgsPerLine c) = pgsPerLine c := by
    unfold u32
    omega
  rw [started]
  refine ⟨⟨rfl, Nat.pos_of_mul_pos_right c.lunsPositive, Nat.pos_of_mul_pos_left c.lunsPositive, rfl, rfl, pgs_per_blk_positive c⟩,
    ?_, ?_, ?_, fun _ _ mapped => (nomatch mapped), ?_, ?_, credits, rfl, rfl⟩
  · rw [line, zero]
    rfl
  · rw [line]
    exact ⟨Int.le_refl _, Int.natCast_nonneg _⟩
  · rw [line]
    exact ⟨Int.le_refl _, Int.natCast_nonneg _⟩
  · change 3 ≤ second.freeLineCnt
    omega
  · change 1 ≤ u32 (pgsPerLine c) ∧ u32 (pgsPerLine c) ≤ pgsPerLine c
    rw [credits]
    exact ⟨positive, Nat.le_refl _⟩

end Begin

section Space

variable (c : ConvParams)

-- The LPNs of a partition that lie in the namespace.
def addressable (part : Nat) : Nat := (c.nsLpns + c.nrParts - 1 - part) / c.nrParts

theorem addressable_lpn (lpn : Nat) (inside : lpn < c.nsLpns) : lpn / c.nrParts < addressable c (lpn % c.nrParts) := by
  have digits := Nat.div_add_mod' lpn c.nrParts
  apply (Nat.le_div_iff_mul_le c.partsPositive).mpr
  rw [Nat.succ_mul]
  omega

def Supplied (part : Nat) (ftl : ConvFtl) : Prop :=
  (WholeLines c ∧ ∃ shape, Credited c ftl shape (addressable c part)) ∨ (¬WholeLines c ∧ ∃ cur, Confined c ftl cur 0)

theorem supplied_noted (part : Nat) (ftl : ConvFtl) (supplied : Supplied c part ftl) :
    ftl.gcMissed = false ∧ ftl.creditsWrapped = false := by
  rcases supplied with ⟨_, _, credited⟩ | ⟨_, _, confined⟩
  · exact ⟨credited.collects, credited.unwrapped⟩
  · exact ⟨confined.collects, confined.unwrapped⟩

theorem write_page_supplied (part : Nat) (enough : addressable c part < (ttLines c - 4) * pgsPerLine c) (ftl : ConvFtl) (lpn : Nat)
    (bound : lpn < addressable c part) (supplied : Supplied c part ftl) :
    Ends (fun placed => Supplied c part placed.2) (writePage c ftl lpn) := by
  rcases supplied with ⟨whole, shape, credited⟩ | ⟨parted, cur, confined⟩
  · obtain ⟨page, next, after, ran, kept⟩ := write_page_credited c ftl shape (addressable c part) lpn whole enough credited bound
    rw [ran]
    exact ends_ok _ _ (.inl ⟨whole, after, kept⟩)
  · have ends := write_page_confined c ftl cur lpn parted confined
    exact ⟨fun placed ran => .inr ⟨parted, cur, ends.holds placed ran⟩, ends.line⟩

theorem start_supplied (part : Nat) (enough : addressable c part < (ttLines c - 4) * pgsPerLine c) (ftl : ConvFtl)
    (ran : convInitFtl c = .ok ftl) : Supplied c part ftl := by
  have lines : 5 ≤ ttLines c := by
    by_contra few
    have none : ttLines c - 4 = 0 := by omega
    rw [none, Nat.zero_mul] at enough
    exact absurd enough (Nat.not_lt_zero _)
  by_cases whole : WholeLines c
  · obtain ⟨lm, free, started, steady, length⟩ := conv_init_steady c whole
    rw [ran] at started
    have same : ftl = startFtl c lm := Except.ok.inj started
    have lineSize := c.lineFits
    change pgsPerLine c < 2 ^ 31 at lineSize
    have positive := line_positive c whole
    have credits : u32 (pgsPerLine c) = pgsPerLine c := by
      unfold u32
      omega
    have writeCredits : (startFtl c lm).writeCredits = pgsPerLine c := credits
    have refill : (startFtl c lm).creditsToRefill = pgsPerLine c := credits
    have room : stock c (startShape c free) = free.length * pgsPerLine c + pgsPerLine c + pgsPerLine c := rfl
    rw [lines_whole c whole] at lines
    have three := Nat.mul_le_mul_right (pgsPerLine c) (show 3 ≤ free.length by omega)
    rw [same]
    refine .inl ⟨whole, startShape c free, ⟨steady, ?_, ?_, ?_, rfl, rfl, fun _ mapped => absurd rfl mapped⟩, ?_⟩
    · rw [writeCredits]
    · rw [refill]
      exact ⟨positive, Nat.le_refl _⟩
    · rw [writeCredits, room]
      omega
    · rw [writeCredits]
      exact positive
  · exact .inr ⟨whole, 0, confined_start c lines ftl ran⟩

structure NsSupplied (part : Nat) (ns : ConvNs) : Prop where
  supplied : Supplied c part (ns.parts part)
  todo : ∀ lpn ∈ ns.todo, lpn < c.nsLpns

def InRange (_ : ConvNs) (event : Event) : Prop := ∀ cmd, event = .write cmd → endLpn cmd < c.nsLpns

theorem turn_supplied (part : Nat) (enough : addressable c part < (ttLines c - 4) * pgsPerLine c) (ns : ConvNs) (lpn : Nat)
    (rest : List Nat) (queued : Bool) (due : ns.todo = lpn :: rest) (here : lpn % c.nrParts = part) (supplied : NsSupplied c part ns) :
    Ends (NsSupplied c part) (convWriteTurn c ns lpn rest queued) := by
  have inside := supplied.todo lpn (by rw [due]; exact List.mem_cons_self ..)
  have bound := addressable_lpn c lpn inside
  rw [here] at bound
  unfold convWriteTurn
  dsimp only
  rw [here]
  refine ends_bind _ _ _ _ (write_page_supplied c part enough _ _ bound supplied.supplied) fun placed kept => ?_
  obtain ⟨page, ftl⟩ := placed
  refine ends_ok _ _ ⟨?_, fun other member => supplied.todo other (by rw [due]; exact List.mem_cons_of_mem _ member)⟩
  dsimp only
  rw [Function.update_self]
  exact kept

theorem supplied_kept (part : Nat) (enough : addressable c part < (ttLines c - 4) * pgsPerLine c) :
    TransitionSystem.Invariant (system c) (InRange c) (NsSupplied c part) := by
  refine ⟨?_, ?_⟩
  · rintro ns ⟨parts, _, todo, _⟩
    refine ⟨start_supplied c part enough _ (parts part), ?_⟩
    rw [todo]
    exact fun lpn member => (nomatch member)
  · intro ns next event supplied allowed step
    cases step with
    | read cmd idle => exact supplied
    | write cmd idle =>
        obtain ⟨parts, todo⟩ := conv_write_todo c ns cmd idle
        refine ⟨by rw [parts]; exact supplied.supplied, fun lpn member => ?_⟩
        exact Nat.lt_of_le_of_lt (todo lpn member).1 (allowed cmd rfl)
    | turn queued lpn rest next due ran =>
        by_cases here : lpn % c.nrParts = part
        · exact (turn_supplied c part enough ns lpn rest queued due here supplied).holds next ran
        · unfold convWriteTurn at ran
          obtain ⟨placed, _, built⟩ := bind_ok _ _ _ ran
          rw [← pure_ok _ _ built]
          refine ⟨?_, fun other member => supplied.todo other (by rw [due]; exact List.mem_cons_of_mem _ member)⟩
          dsimp only
          rw [Function.update_of_ne (Ne.symm here)]
          exact supplied.supplied
    | release place bytes due => exact ⟨supplied.supplied, supplied.todo⟩

-- As long as the addressable pages leave four lines free, no write page finds the
-- free list empty, every collection finds a line worth collecting and no credit is
-- taken where none is left.
theorem lines_never_run_out (part : Nat) (enough : addressable c part < (ttLines c - 4) * pgsPerLine c) (ns : ConvNs)
    (reached : Reachable c (InRange c) ns) :
    (ns.parts part).gcMissed = false ∧ (ns.parts part).creditsWrapped = false ∧
      ∀ queued lpn rest, ns.todo = lpn :: rest → lpn % c.nrParts = part → convWriteTurn c ns lpn rest queued ≠ .error .nullDeref := by
  have supplied := TransitionSystem.reach_invariant _ _ _ (supplied_kept c part enough) ns reached
  obtain ⟨collects, unwrapped⟩ := supplied_noted c part _ supplied.supplied
  refine ⟨collects, unwrapped, fun queued lpn rest due here => ?_⟩
  exact (turn_supplied c part enough ns lpn rest queued due here supplied).line

theorem space_reclaimed : ∃ ns, 0 < ((ns.parts 0).nand ⟨⟨0, 0, 0⟩, 0⟩).eraseCnt ∧
    (ns.parts 0).gcMissed = false ∧ (ns.parts 0).creditsWrapped = false ∧ ∀ queued lpn rest, ns.todo = lpn :: rest →
      lpn % smallParams.nrParts = 0 → convWriteTurn smallParams ns lpn rest queued ≠ .error .nullDeref := by
  have erased : (match overwriteRun smallParams 8 with
      | .ok ns => decide (0 < ((ns.parts 0).nand ⟨⟨0, 0, 0⟩, 0⟩).eraseCnt)
      | .error _ => false) = true := by decide +kernel
  have inside : ∀ cmd ∈ overwrites 8, ∀ ns, InRange smallParams ns (.write cmd) := by
    intro cmd member ns other same
    rw [← Event.write.inj same]
    obtain ⟨i, _, rfl⟩ := List.mem_map.mp member
    change (i % 3 * 8 + (0 * 8 + 7 + 1) - 1) % 2 ^ 64 / 8 < 3
    omega
  cases ran : overwriteRun smallParams 8 with
  | error fault =>
      rw [ran] at erased
      cases erased
  | ok ns =>
      rw [ran] at erased
      have reached := overwrite_run_reached smallParams (InRange smallParams) (fun _ _ _ same => (nomatch same)) 8 inside ns ran
      exact ⟨ns, of_decide_eq_true erased, lines_never_run_out smallParams 0 (by decide) ns reached⟩

end Space

end ConZone.Conv
