import ConZone.ConvTurns

set_option autoImplicit false

namespace ConZone.Conv

section Copy

variable (c : ConvParams) (initial ftl : ConvFtl) (shape : Shape) (victim base total : Nat) (before : Page → PageStatus)

def staleBut (left : List Page) : Page → Prop := fun page => page.block.blk = victim ∧ page ∉ left

-- A collection that has still to read the pages of left. before is what the pages
-- of the victim were at the start, total how many of them were valid, base the
-- stock at the start.
structure Collecting (left : List Page) : Prop where
  sound : Sound c ftl shape none (staleBut victim left)
  rest : AtRest c ftl shape
  out : ∀ id, shape.place id = .out ↔ id = victim
  credits : KeepsCredits initial ftl
  mapped : ∀ lpn, ftl.maptbl lpn = none ↔ initial.maptbl lpn = none
  stock : stock c shape + total = base + validIn before left
  unread : ∀ page ∈ left, pageStatus ftl page = before page
  notFree : ∀ page ∈ left, before page ≠ .free
  inLine : ∀ page ∈ left, InDevice c page ∧ page.block.blk = victim
  distinct : left.Nodup

def VictimFrame (ftl next : ConvFtl) : Prop := ∀ page, page.block.blk = victim → pageStatus next page = pageStatus ftl page

theorem stale_rest (page : Page) (left : List Page) (other : Page) (apart : other ≠ page) :
    staleBut victim left other ↔ staleBut victim (page :: left) other := by
  unfold staleBut
  rw [List.mem_cons, not_or]
  exact ⟨fun stale => ⟨stale.1, apart, stale.2⟩, fun stale => ⟨stale.1, stale.2.2⟩⟩

theorem copy_valid_page (whole : WholeLines c) (page : Page) (left : List Page)
    (collecting : Collecting c initial ftl shape victim base total before (page :: left)) (valid : pageStatus ftl page = .valid) :
    (∃ next after, gcWritePage c ftl page = .ok next ∧ Collecting c initial next after victim base total before left ∧
      VictimFrame victim ftl next) ∨
    (gcWritePage c ftl page = .error .nullDeref ∧ base ≤ pgsPerLine c + total) := by
  obtain ⟨inside, blk⟩ := collecting.inLine page (List.mem_cons_self ..)
  have distinct := List.nodup_cons.mp collecting.distinct
  have sound := collecting.sound
  obtain ⟨lpn, _, named, mapped⟩ := sound.maps.valid page inside (fun stale => stale.2 (List.mem_cons_self ..)) valid
  have bound := (sound.maps.mapped lpn page (by simp) mapped).1
  have opened : Sound c ftl shape (some lpn) (staleBut victim left) := by
    refine ⟨?_, sound.counts, sound.owned, sound.active, sound.standing, sound.filled⟩
    exact map_leave c ftl ftl lpn page _ sound.maps mapped rfl (fun _ _ _ => rfl) (fun _ _ => rfl) _
      (.inl ⟨blk, distinct.1⟩) fun other apart => stale_rest victim page left other apart
  obtain ⟨_, newLine, _, _⟩ := wp_page_facts c ftl shape none _ sound collecting.rest .gcIo
  have away : (wpPage (getWp ftl .gcIo)).block.blk ≠ victim := by
    intro same
    have placed := cur_place c ftl shape none _ sound .gcIo
    rw [← newLine, same, (collecting.out victim).mpr rfl] at placed
    cases placed
  have counted : validIn before (page :: left) = validIn before left + 1 := by
    have was := (collecting.unread page (List.mem_cons_self ..)).symm.trans valid
    unfold validIn
    exact List.countP_cons_of_pos (by simp [was])
  have run : gcWritePage c ftl page = (placePage c ftl .gcIo lpn >>= fun placed => pure placed.2) := by
    unfold gcWritePage
    rw [get_rmap_ok c ftl page inside, named]
    dsimp only [bind, Except.bind]
    rw [nvmev_assert_ok _ bound]
  have stockNow := collecting.stock
  rw [run]
  rcases place_page_sound c ftl shape lpn _ .gcIo whole opened collecting.rest bound (fun stale => away stale.1) with
    ⟨next, after, ran, placed⟩ | ⟨stopped, noFree, last⟩
  · rw [ran]
    have frame : VictimFrame victim ftl next := by
      intro other line
      rw [placed.status, Function.update_of_ne]
      rintro rfl
      exact away line
    refine .inl ⟨next, after, rfl, ⟨placed.sound, placed.rest, ?_, ?_, ?_, ?_, ?_, ?_, ?_, distinct.2⟩, frame⟩
    · intro id
      rw [placed.out]
      exact collecting.out id
    · have first := collecting.credits
      have second := placed.credits
      exact ⟨second.writeCredits.trans first.writeCredits, second.creditsToRefill.trans first.creditsToRefill,
        second.gcMissed.trans first.gcMissed, second.creditsWrapped.trans first.creditsWrapped⟩
    · intro other
      rw [placed.maptbl, ← collecting.mapped other]
      by_cases here : other = lpn
      · rw [here, Function.update_self, mapped]
        simp
      · rw [Function.update_of_ne here]
    · have used := placed.stock
      omega
    · intro other member
      rw [frame other (collecting.inLine other (List.mem_cons_of_mem _ member)).2]
      exact collecting.unread other (List.mem_cons_of_mem _ member)
    · exact fun other member => collecting.notFree other (List.mem_cons_of_mem _ member)
    · exact fun other member => collecting.inLine other (List.mem_cons_of_mem _ member)
  · rw [stopped]
    refine .inr ⟨rfl, ?_⟩
    have room : stock c shape = (pgsPerLine c - shape.used .user) + (pgsPerLine c - shape.used .gc) := by
      unfold stock
      rw [noFree, List.length_nil, Nat.zero_mul, Nat.zero_add]
    change shape.used .gc + 1 = pgsPerLine c at last
    omega

theorem skip_page (page : Page) (left : List Page) (collecting : Collecting c initial ftl shape victim base total before (page :: left))
    (notValid : pageStatus ftl page ≠ .valid) : Collecting c initial ftl shape victim base total before left := by
  have sound := collecting.sound
  have skipped : validIn before (page :: left) = validIn before left := by
    have was := collecting.unread page (List.mem_cons_self ..)
    unfold validIn
    exact List.countP_cons_of_neg (by rw [← was]; simp [notValid])
  refine ⟨⟨⟨?_, ?_⟩, sound.counts, sound.owned, sound.active, sound.standing, sound.filled⟩, collecting.rest, collecting.out,
    collecting.credits, collecting.mapped, ?_, fun other member => collecting.unread other (List.mem_cons_of_mem _ member),
    fun other member => collecting.notFree other (List.mem_cons_of_mem _ member),
    fun other member => collecting.inLine other (List.mem_cons_of_mem _ member), (List.nodup_cons.mp collecting.distinct).2⟩
  · intro lpn other apart mapped
    obtain ⟨bound, inside, fresh, valid, named⟩ := sound.maps.mapped lpn other apart mapped
    have away : other ≠ page := by
      rintro rfl
      exact notValid valid
    rw [← stale_rest victim page left other away] at fresh
    exact ⟨bound, inside, fresh, valid, named⟩
  · intro other inside fresh valid
    have away : other ≠ page := by
      rintro rfl
      exact notValid valid
    rw [stale_rest victim page left other away] at fresh
    exact sound.maps.valid other inside fresh valid
  · rw [← skipped]
    exact collecting.stock

theorem copy_pages_sound (whole : WholeLines c) (pages left : List Page)
    (collecting : Collecting c initial ftl shape victim base total before (pages ++ left)) :
    (∃ next after, copyPages c pages ftl = .ok next ∧ Collecting c initial next after victim base total before left ∧
      VictimFrame victim ftl next) ∨
    (copyPages c pages ftl = .error .nullDeref ∧ base ≤ pgsPerLine c + total) := by
  induction pages generalizing ftl shape with
  | nil => exact .inl ⟨ftl, shape, rfl, collecting, fun _ _ => rfl⟩
  | cons page rest ih =>
      rw [List.cons_append] at collecting
      unfold copyPages
      by_cases valid : pageStatus ftl page = .valid
      · rw [if_pos valid]
        rcases copy_valid_page c initial ftl shape victim base total before whole page _ collecting valid with
          ⟨middle, between, ran, more, frame⟩ | ⟨stopped, short⟩
        · rw [ran]
          rcases ih middle between more with ⟨next, after, ranRest, done, frameRest⟩ | ⟨stopped, short⟩
          · exact .inl ⟨next, after, ranRest, done, fun other line => (frameRest other line).trans (frame other line)⟩
          · exact .inr ⟨stopped, short⟩
        · rw [stopped]
          exact .inr ⟨rfl, short⟩
      · rw [if_neg valid]
        exact ih ftl shape (skip_page c initial ftl shape victim base total before page _ collecting valid)

theorem none_free_ok (pages : List Page) (used : ∀ page ∈ pages, pageStatus ftl page ≠ .free) : noneFree ftl pages = .ok () := by
  induction pages with
  | nil => rfl
  | cons page rest ih =>
      unfold noneFree
      rw [nvmev_assert_ok _ (used page (List.mem_cons_self ..))]
      exact ih fun other member => used other (List.mem_cons_of_mem _ member)

theorem copy_none (pages : List Page) (none : ∀ page ∈ pages, pageStatus ftl page ≠ .valid) : copyPages c pages ftl = .ok ftl := by
  induction pages with
  | nil => rfl
  | cons page rest ih =>
      unfold copyPages
      rw [if_neg (none page (List.mem_cons_self ..))]
      exact ih fun other member => none other (List.mem_cons_of_mem _ member)

-- The count of valid pages only saves the loop that would find none.
theorem clean_one_flashpg_run (page : Page) (used : ∀ other ∈ flashPages c page, pageStatus ftl other ≠ .free) :
    cleanOneFlashpg c ftl page = copyPages c (flashPages c page) ftl := by
  unfold cleanOneFlashpg
  rw [none_free_ok ftl _ used]
  dsimp only [bind, Except.bind]
  split
  · rename_i none
    rw [List.all_eq_true] at none
    rw [copy_none c ftl _ fun other member => of_decide_eq_true (none other member)]
    rfl
  · rfl

end Copy

section Erase

variable (c : ConvParams) (initial ftl : ConvFtl) (shape : Shape) (victim base total : Nat) (before : Page → PageStatus)

theorem erased_status (block : Block) (page : Page) : pageStatus (markBlockFree c ftl block) page =
    if page.block = block ∧ page.pg < pgsPerBlk c then .free else pageStatus ftl page := by
  unfold pageStatus markBlockFree putBlock
  dsimp only
  by_cases here : page.block = block
  · rw [here, Function.update_self]
    dsimp only
    simp only [true_and]
  · rw [Function.update_of_ne here, if_neg fun both => here both.1]

theorem erase_block (block : Block) (left : List Page) (collecting : Collecting c initial ftl shape victim base total before left)
    (line : block.blk = victim) (done : ∀ page ∈ left, page.block ≠ block) :
    Collecting c initial (markBlockFree c ftl block) shape victim base total before left := by
  have sound := collecting.sound
  have elsewhere : ∀ page, page.block ≠ block → pageStatus (markBlockFree c ftl block) page = pageStatus ftl page := by
    intro page apart
    rw [erased_status, if_neg fun both => apart both.1]
  have fresh : ∀ page, ¬staleBut victim left page → page.block ≠ block := by
    intro page notStale same
    by_cases member : page ∈ left
    · exact done page member same
    · exact notStale ⟨by rw [same]; exact line, member⟩
  have others : ∀ id, id < c.blksPerPl → id ≠ victim → ∀ page ∈ linePages c id,
      pageStatus (markBlockFree c ftl block) page = pageStatus ftl page := by
    intro id bound apart page member
    apply elsewhere
    rintro rfl
    exact apart ((line_pages_apart c id _ page bound member rfl).trans line)
  have below : ∀ id value, shape.place id = value → value ≠ .beyond → id < c.blksPerPl :=
    fun id value placed apart => placed_below c _ _ _ _ sound.owned id value placed apart
  have stays : ∀ id value, shape.place id = value → value ≠ .out → id ≠ victim := by
    rintro id value placed notOut rfl
    exact notOut (placed.symm.trans ((collecting.out id).mpr rfl))
  refine ⟨⟨⟨?_, ?_⟩, ⟨?_, ?_⟩, sound.owned, sound.active, sound.standing, ⟨?_, ?_, ?_, ?_⟩⟩, collecting.rest, collecting.out,
    ?_, collecting.mapped, collecting.stock, ?_, collecting.notFree, collecting.inLine, collecting.distinct⟩
  · intro lpn page apart mapped
    obtain ⟨bound, inside, notStale, valid, named⟩ := sound.maps.mapped lpn page apart mapped
    rw [elsewhere page (fresh page notStale)]
    exact ⟨bound, inside, notStale, valid, named⟩
  · intro page inside notStale valid
    rw [elsewhere page (fresh page notStale)] at valid
    exact sound.maps.valid page inside notStale valid
  · intro other
    by_cases here : other = block
    · have none : ∀ value, value ≠ .free → Tally.census (blockPages c other) (pageStatus (markBlockFree c ftl block)) value = 0 := by
        intro value notFree
        apply Tally.census_none
        intro page member
        obtain ⟨inBlock, pg⟩ := (mem_block_pages c _ page).mp member
        rw [erased_status, if_pos ⟨inBlock.trans here, pg⟩]
        exact Ne.symm notFree
      have erased : (markBlockFree c ftl block).nand other =
          ⟨fun pg => if pg < pgsPerBlk c then .free else (ftl.nand block).status pg, 0, 0, (ftl.nand block).eraseCnt + 1⟩ := by
        rw [here]
        exact Function.update_self ..
      refine ⟨?_, ?_⟩
      · rw [none .valid (by decide), erased]
        rfl
      · rw [none .invalid (by decide), erased]
        rfl
    · have counted := sound.counts.block other
      have same : ∀ page ∈ blockPages c other, pageStatus (markBlockFree c ftl block) page = pageStatus ftl page := by
        intro page member
        apply elsewhere
        rw [((mem_block_pages c _ page).mp member).1]
        exact here
      have kept : (markBlockFree c ftl block).nand other = ftl.nand other := Function.update_of_ne here _ _
      rw [kept]
      exact ⟨by rw [Tally.census_congr _ _ _ _ same]; exact counted.vpc, by rw [Tally.census_congr _ _ _ _ same]; exact counted.ipc⟩
  · intro id bound notOut
    have counted := sound.counts.line id bound notOut
    have same := others id bound (stays id _ rfl notOut)
    exact ⟨by rw [Tally.census_congr _ _ _ _ same]; exact counted.vpc, by rw [Tally.census_congr _ _ _ _ same]; exact counted.ipc⟩
  · intro id placed page member
    rw [others id (below id _ placed (by decide)) (stays id _ placed (by decide)) page member]
    exact sound.filled.free id placed page member
  · intro id placed page member
    rw [others id (below id _ placed (by decide)) (stays id _ placed (by decide)) page member]
    exact sound.filled.full id placed page member
  · intro id placed
    have same := others id (below id _ placed (by decide)) (stays id _ placed (by decide))
    obtain ⟨used, page, member, invalid⟩ := sound.filled.victim id placed
    refine ⟨fun other otherMember => ?_, page, member, ?_⟩
    · rw [same other otherMember]
      exact used other otherMember
    · rw [same page member]
      exact invalid
  · intro ioType page member
    have placed := cur_place c ftl shape none _ sound ioType
    have notOut : activeOf ioType ≠ .out := by
      rcases active_of_cases ioType with user | gc
      · rw [user]
        decide
      · rw [gc]
        decide
    rw [others _ (cur_bound c ftl shape none _ sound ioType) (stays _ _ placed notOut) page member]
    exact sound.filled.active ioType page member
  · exact ⟨collecting.credits.writeCredits, collecting.credits.creditsToRefill, collecting.credits.gcMissed,
      collecting.credits.creditsWrapped⟩
  · intro page member
    rw [elsewhere page (done page member)]
    exact collecting.unread page member

end Erase

section Loop

variable (c : ConvParams) (initial ftl : ConvFtl) (shape : Shape) (victim base total : Nat) (before : Page → PageStatus)

def Erased (turns : List (Nat × Nat × Nat)) : Prop :=
  ∀ ch lun, ch < c.nchs → lun < c.lunsPerCh → (flashpgsPerBlk c - 1, ch, lun) ∉ turns → ∀ pg, pg < pgsPerBlk c →
    pageStatus ftl ⟨⟨⟨ch, lun, 0⟩, victim⟩, pg⟩ = .free

theorem flashpgs_positive : 0 < flashpgsPerBlk c := by
  apply Nat.pos_of_ne_zero
  intro none
  have pages := flashpgs_pages c
  have positive := pgs_per_blk_positive c
  rw [none, Nat.zero_mul] at pages
  omega

theorem last_turn_done (turn : Nat × Nat × Nat) (rest : List (Nat × Nat × Nat)) (suffix : turn :: rest <:+ gcTurns c)
    (last : turn.1 + 1 = flashpgsPerBlk c) : ∀ page ∈ pagesOf c victim rest, page.block ≠ (turnPage c victim turn).block := by
  intro page member same
  obtain ⟨_, _, inRest⟩ := (mem_pages_of c victim rest page).mp member
  have distinct := List.nodup_cons.mp ((gc_turns_nodup c).sublist suffix.sublist)
  have rise := List.pairwise_cons.mp ((gc_turns_rise c).sublist suffix.sublist)
  have later := rise.1 _ inRest
  have inGc := (mem_gc_turns c _).mp (suffix.subset (List.mem_cons_of_mem _ inRest))
  have high : (turnOf c page).1 = turn.1 := by omega
  apply distinct.1
  have here : turnOf c page = turn := by
    obtain ⟨flashpg, ch, lun⟩ := turn
    unfold turnOf at high ⊢
    rw [same]
    dsimp only at high
    rw [high]
    rfl
  rw [← here]
  exact inRest

theorem gc_turn_sound (whole : WholeLines c) (turn : Nat × Nat × Nat) (rest : List (Nat × Nat × Nat))
    (suffix : turn :: rest <:+ gcTurns c)
    (collecting : Collecting c initial ftl shape victim base total before (pagesOf c victim (turn :: rest)))
    (erased : Erased c ftl victim (turn :: rest)) :
    (∃ next after, gcTurn c victim ftl turn = .ok next ∧
      Collecting c initial next after victim base total before (pagesOf c victim rest) ∧ Erased c next victim rest) ∨
    (gcTurn c victim ftl turn = .error .nullDeref ∧ base ≤ pgsPerLine c + total) := by
  have pages : pagesOf c victim (turn :: rest) = flashPages c (turnPage c victim turn) ++ pagesOf c victim rest := rfl
  rw [pages] at collecting
  have used : ∀ other ∈ flashPages c (turnPage c victim turn), pageStatus ftl other ≠ .free := by
    intro other member
    rw [collecting.unread other (List.mem_append_left _ member)]
    exact collecting.notFree other (List.mem_append_left _ member)
  unfold gcTurn
  rw [clean_one_flashpg_run c ftl _ used]
  rcases copy_pages_sound c initial ftl shape victim base total before whole _ _ collecting with
    ⟨next, after, ran, more, frame⟩ | ⟨stopped, short⟩
  · rw [ran]
    dsimp only [bind, Except.bind]
    have kept : ∀ ch lun, ch < c.nchs → lun < c.lunsPerCh → (flashpgsPerBlk c - 1, ch, lun) ∉ turn :: rest →
        ∀ pg, pg < pgsPerBlk c → pageStatus next ⟨⟨⟨ch, lun, 0⟩, victim⟩, pg⟩ = .free := by
      intro ch lun chBound lunBound absent pg pgBound
      rw [frame _ rfl]
      exact erased ch lun chBound lunBound absent pg pgBound
    by_cases last : turn.1 + 1 = flashpgsPerBlk c
    · rw [if_pos last]
      have done := last_turn_done c victim turn rest suffix last
      refine .inl ⟨_, after, rfl, erase_block c initial next after victim base total before _ _ more rfl done, ?_⟩
      intro ch lun chBound lunBound absent pg pgBound
      rw [erased_status]
      split
      · rfl
      · rename_i other
        refine kept ch lun chBound lunBound (fun member => ?_) pg pgBound
        rcases List.mem_cons.mp member with same | inRest
        · exact other ⟨by rw [← same]; rfl, pgBound⟩
        · exact absent inRest
    · rw [if_neg last]
      refine .inl ⟨next, after, rfl, more, ?_⟩
      intro ch lun chBound lunBound absent pg pgBound
      refine kept ch lun chBound lunBound (fun member => ?_) pg pgBound
      rcases List.mem_cons.mp member with same | inRest
      · have positive := flashpgs_positive c
        rw [← same] at last
        exact last (Nat.sub_add_cancel positive)
      · exact absent inRest
  · rw [stopped]
    exact .inr ⟨rfl, short⟩

theorem gc_loop_sound (whole : WholeLines c) (turns : List (Nat × Nat × Nat)) (suffix : turns <:+ gcTurns c)
    (collecting : Collecting c initial ftl shape victim base total before (pagesOf c victim turns))
    (erased : Erased c ftl victim turns) :
    (∃ next after, gcLoop c victim turns ftl = .ok next ∧ Collecting c initial next after victim base total before [] ∧
      Erased c next victim []) ∨
    (gcLoop c victim turns ftl = .error .nullDeref ∧ base ≤ pgsPerLine c + total) := by
  induction turns generalizing ftl shape with
  | nil => exact .inl ⟨ftl, shape, rfl, collecting, erased⟩
  | cons turn rest ih =>
      unfold gcLoop
      rcases gc_turn_sound c initial ftl shape victim base total before whole turn rest suffix collecting erased with
        ⟨middle, between, ran, more, moreErased⟩ | ⟨stopped, short⟩
      · rw [ran]
        exact ih middle between ((List.suffix_cons turn rest).trans suffix) more moreErased
      · rw [stopped]
        exact .inr ⟨rfl, short⟩

end Loop

section Collect

variable (c : ConvParams) (ftl : ConvFtl) (shape : Shape)

def unstale : Page → Prop := fun _ => False

def selectedLm (lm : LineMgmt) (victim : Nat) : LineMgmt :=
  let popped := putVictimHeap lm (IndexedHeap.pqueuePop (victimLineGetPri lm) (victimHeap lm))
  { putLine popped victim { popped.lines victim with pos := 0 } with victimLineCnt := decCnt popped.victimLineCnt }

theorem selected_counts (lm : LineMgmt) (victim id : Nat) :
    ((selectedLm lm victim).lines id).vpc = (lm.lines id).vpc ∧ ((selectedLm lm victim).lines id).ipc = (lm.lines id).ipc := by
  unfold selectedLm putLine
  dsimp only
  by_cases here : id = victim
  · rw [here, Function.update_self]
    exact ⟨rfl, rfl⟩
  · rw [Function.update_of_ne here]
    exact ⟨rfl, rfl⟩

def selectedFtl (victim : Nat) : ConvFtl :=
  let line := ftl.lm.lines victim
  { ftl with lm := selectedLm ftl.lm victim, creditsToRefill := u32 (line.ipc % 2 ^ 32).toNat,
             gcMissed := ftl.gcMissed || decide (line.ipc < 1) }

theorem do_gc_run (victim : Nat) (peeked : IndexedHeap.pqueuePeek (victimHeap ftl.lm) = some victim) :
    doGc c ftl true = (gcLoop c victim (gcTurns c) (selectedFtl ftl victim) >>= fun done => pure (markLineFree done victim)) := by
  unfold doGc selectVictimLine
  rw [peeked]
  dsimp only
  rw [Bool.not_true, Bool.false_and, if_neg (by decide)]
  dsimp only
  have same := (selected_counts ftl.lm victim victim).2
  unfold selectedLm at same
  rw [same]
  rfl

def collecting (victim : Nat) : Shape := { shape with place := Function.update shape.place victim .out }

theorem select_sound (victim : Nat) (sound : Sound c ftl shape none unstale) (rest : AtRest c ftl shape)
    (noneOut : ∀ id, shape.place id ≠ .out) (peeked : IndexedHeap.pqueuePeek (victimHeap ftl.lm) = some victim) :
    shape.place victim = .victim ∧
      Collecting c (selectedFtl ftl victim) (selectedFtl ftl victim) (collecting shape victim) victim (stock c shape)
        (validIn (pageStatus ftl) (pagesOf c victim (gcTurns c))) (pageStatus ftl) (pagesOf c victim (gcTurns c)) := by
  obtain ⟨wasVictim, popped⟩ := pop_owned c ftl.lm shape.place shape.free shape.full victim sound.owned peeked
  have owned := popped _ rfl
  have bound := placed_below c _ _ _ _ sound.owned victim _ wasVictim (by decide)
  have stays : ∀ value, value ≠ .victim → value ≠ .out → ∀ id, (collecting shape victim).place id = value ↔ shape.place id = value := by
    intro value notVictim notOut id
    exact move_keeps shape.place victim .out value (Ne.symm notOut) (by rw [wasVictim]; exact Ne.symm notVictim) id
  have isOut : ∀ id, (collecting shape victim).place id = .out ↔ id = victim := by
    intro id
    refine (move_enters shape.place victim .out id).trans ?_
    exact ⟨fun either => either.resolve_right (noneOut id), .inl⟩
  have fresh : ∀ page, InDevice c page → ¬staleBut victim (pagesOf c victim (gcTurns c)) page := by
    intro page inside stale
    exact stale.2 ((all_pages c victim bound page).mpr ((mem_line_pages c victim bound page).mpr ⟨inside, stale.1⟩))
  refine ⟨wasVictim, ⟨⟨?_, ?_⟩, ⟨sound.counts.block, ?_⟩, owned, ?_, sound.standing, ⟨?_, ?_, ?_, sound.filled.active⟩⟩, rest, isOut,
    ⟨rfl, rfl, rfl, rfl⟩, fun _ => Iff.rfl, rfl, fun _ _ => rfl, ?_, ?_, pages_of_nodup c victim _ (gc_turns_nodup c)⟩
  · intro lpn page apart mapped
    obtain ⟨lpnBound, inside, _, valid, named⟩ := sound.maps.mapped lpn page apart mapped
    exact ⟨lpnBound, inside, fresh page inside, valid, named⟩
  · exact fun page inside _ valid => sound.maps.valid page inside id valid
  · intro id idBound notOut
    have counts := selected_counts ftl.lm victim id
    change Counted _ _ ((selectedLm ftl.lm victim).lines id).vpc ((selectedLm ftl.lm victim).lines id).ipc
    rw [counts.1, counts.2]
    exact sound.counts.line id idBound (noneOut id)
  · intro ioType id
    have apart := active_of_cases ioType
    rw [stays (activeOf ioType) (by rcases apart with same | same <;> rw [same] <;> decide)
      (by rcases apart with same | same <;> rw [same] <;> decide) id]
    exact sound.active ioType id
  · exact fun id placed => sound.filled.free id ((stays .free (by decide) (by decide) id).mp placed)
  · exact fun id placed => sound.filled.full id ((stays .full (by decide) (by decide) id).mp placed)
  · intro id placed
    exact sound.filled.victim id ((move_leaves shape.place victim .out .victim (by decide) id).mp placed).2
  · intro page member
    exact (sound.filled.victim victim wasVictim).1 page ((all_pages c victim bound page).mp member)
  · intro page member
    exact (mem_line_pages c victim bound page).mp ((all_pages c victim bound page).mp member)

def collected (victim : Nat) : Shape :=
  { shape with place := Function.update shape.place victim .free, free := shape.free ++ [victim] }

theorem finish_sound (initial : ConvFtl) (victim base total : Nat) (before : Page → PageStatus) (bound : victim < c.blksPerPl)
    (done : Collecting c initial ftl shape victim base total before []) (erased : Erased c ftl victim []) :
    Sound c (markLineFree ftl victim) (collected shape victim) none unstale := by
  have sound := done.sound
  have isOut : shape.place victim = .out := (done.out victim).mpr rfl
  have empty : ∀ page ∈ linePages c victim, pageStatus ftl page = .free := by
    intro page member
    obtain ⟨inside, blk⟩ := (mem_line_pages c victim bound page).mp member
    have free := erased page.block.plane.ch page.block.plane.lun inside.ch inside.lun (by simp) page.pg inside.pg
    obtain ⟨⟨⟨ch, lun, pl⟩, line⟩, pg⟩ := page
    have flat : pl = 0 := inside.pl
    dsimp only at blk
    rw [flat, blk]
    exact free
  have stays : ∀ value, value ≠ .free → value ≠ .out → ∀ id, (collected shape victim).place id = value ↔ shape.place id = value := by
    intro value notFree notOut id
    exact move_keeps shape.place victim .free value (Ne.symm notFree) (by rw [isOut]; exact Ne.symm notOut) id
  have lines : ∀ id, ((markLineFree ftl victim).lm.lines id) =
      if id = victim then { ftl.lm.lines victim with ipc := 0, vpc := 0 } else ftl.lm.lines id := by
    intro id
    unfold markLineFree addFree putLine
    dsimp only
    by_cases here : id = victim
    · rw [here, Function.update_self, if_pos rfl]
    · rw [Function.update_of_ne here, if_neg here]
  refine ⟨⟨?_, ?_⟩, ⟨sound.counts.block, ?_⟩, ?_, ?_, sound.standing, ⟨?_, ?_, ?_, sound.filled.active⟩⟩
  · intro lpn page apart mapped
    obtain ⟨lpnBound, inside, _, valid, named⟩ := sound.maps.mapped lpn page apart mapped
    exact ⟨lpnBound, inside, id, valid, named⟩
  · intro page inside _ valid
    refine sound.maps.valid page inside (fun stale => ?_) valid
    have free := empty page ((mem_line_pages c victim bound page).mpr ⟨inside, stale.1⟩)
    change pageStatus ftl page = .valid at valid
    rw [free] at valid
    cases valid
  · intro id idBound _
    rw [lines id]
    by_cases here : id = victim
    · rw [if_pos here, here]
      have none : ∀ value, value ≠ .free → Tally.census (linePages c victim) (pageStatus (markLineFree ftl victim)) value = 0 := by
        intro value notFree
        apply Tally.census_none
        intro page member
        have free : pageStatus (markLineFree ftl victim) page = .free := empty page member
        rw [free]
        exact Ne.symm notFree
      exact ⟨by rw [none .valid (by decide)]; rfl, by rw [none .invalid (by decide)]; rfl⟩
    · rw [if_neg here]
      exact sound.counts.line id idBound fun out => here ((done.out id).mp out)
  · have cleared := put_line_owned c ftl.lm shape.place shape.free shape.full victim
      { ftl.lm.lines victim with ipc := 0, vpc := 0 } sound.owned rfl
    exact add_free_owned c _ shape.place shape.free shape.full victim cleared (.inr (.inr isOut))
  · intro ioType id
    have apart := active_of_cases ioType
    rw [stays (activeOf ioType) (by rcases apart with same | same <;> rw [same] <;> decide)
      (by rcases apart with same | same <;> rw [same] <;> decide) id]
    exact sound.active ioType id
  · intro id placed
    rcases (move_enters shape.place victim .free id).mp placed with here | wasFree
    · rw [here]
      exact empty
    · exact sound.filled.free id wasFree
  · exact fun id placed => sound.filled.full id ((stays .full (by decide) (by decide) id).mp placed)
  · exact fun id placed => sound.filled.victim id ((stays .victim (by decide) (by decide) id).mp placed)

end Collect

end ConZone.Conv
