import ConZone.ConvWrites

set_option autoImplicit false

namespace ConZone.Conv

section Initial

variable (c : ConvParams)

theorem add_free_lines (lm : LineMgmt) (ids : List Nat) : (ids.foldl addFree lm).lines = lm.lines := by
  induction ids generalizing lm with
  | nil => rfl
  | cons id rest ih => exact ih (addFree lm id)

def startPlace (count id : Nat) : Place := if id < count then .free else if id < c.blksPerPl then .out else .beyond

theorem start_place_next (count : Nat) : Function.update (startPlace c count) count .free = startPlace c (count + 1) := by
  funext id
  unfold startPlace
  by_cases here : id = count
  · rw [here, Function.update_self, if_pos (Nat.lt_succ_self count)]
  · rw [Function.update_of_ne here]
    by_cases below : id < count
    · rw [if_pos below, if_pos (Nat.lt_succ_of_lt below)]
    · have above : ¬id < count + 1 := by omega
      rw [if_neg below, if_neg above]

theorem bare_owned : Owned c ⟨fun _ => freshLine, IntrusiveList.selfLinked, fun _ => 0, 1, 0, 0, 0⟩ (startPlace c 0) [] [] := by
  have unlisted : ∀ value, value = .free ∨ value = .full ∨ value = .victim → ∀ id, startPlace c 0 id ≠ value := by
    intro value listed id
    unfold startPlace
    rw [if_neg (Nat.not_lt_zero id)]
    split
    · rcases listed with rfl | rfl | rfl <;> decide
    · rcases listed with rfl | rfl | rfl <;> decide
  refine ⟨IntrusiveList.ring_empty _ _ rfl rfl, IntrusiveList.ring_empty _ _ rfl rfl, ?_, ?_, ?_, fun _ _ => rfl, rfl, rfl, rfl, ?_⟩
  · exact fun id => ⟨fun member => (nomatch member), fun placed => absurd placed (unlisted .free (.inl rfl) id)⟩
  · exact fun id => ⟨fun member => (nomatch member), fun placed => absurd placed (unlisted .full (.inr (.inl rfl)) id)⟩
  · have none : {id | startPlace c 0 id = .victim} = ∅ := by
      ext id
      exact ⟨fun placed => absurd placed (unlisted .victim (.inr (.inr rfl)) id), fun member => member.elim⟩
    rw [none]
    exact IndexedHeap.holds_empty _ rfl
  · intro id
    unfold startPlace
    rw [if_neg (Nat.not_lt_zero id)]
    split
    · rename_i below
      exact ⟨fun _ => below, fun _ => by decide⟩
    · rename_i above
      exact ⟨fun absurd' => absurd rfl absurd', fun below => absurd below above⟩

theorem init_lines_owned (count : Nat) (fits : count ≤ c.blksPerPl) :
    Owned c ((List.range count).foldl addFree ⟨fun _ => freshLine, IntrusiveList.selfLinked, fun _ => 0, 1, 0, 0, 0⟩) (startPlace c count)
      (List.range count) [] := by
  induction count with
  | zero => exact bare_owned c
  | succ count ih =>
      have before := ih (by omega)
      have loose : Loose (startPlace c count count) := by
        unfold startPlace
        rw [if_neg (Nat.lt_irrefl count), if_pos (by omega)]
        exact .inr (.inr rfl)
      have added := add_free_owned c _ _ _ _ count before loose
      rw [start_place_next] at added
      rw [List.range_succ, List.foldl_append]
      exact added

def startShape (free : List Nat) : Shape where
  place := Function.update (Function.update (startPlace c c.blksPerPl) 0 .user) 1 .gc
  free := free
  full := []
  cur place := if place = .gc then 1 else 0
  used _ := 0

theorem start_place (id : Nat) (free : List Nat) : (startShape c free).place id =
    if id = 1 then .gc else if id = 0 then .user else if id < c.blksPerPl then .free else .beyond := by
  unfold startShape startPlace
  dsimp only
  by_cases gc : id = 1
  · rw [gc, Function.update_self, if_pos rfl]
  · rw [Function.update_of_ne gc, if_neg gc]
    by_cases user : id = 0
    · rw [user, Function.update_self, if_pos rfl]
    · rw [Function.update_of_ne user, if_neg user]
      by_cases below : id < c.blksPerPl
      · rw [if_pos below, if_pos below]
      · rw [if_neg below, if_neg below, if_neg below]

def startFtl (lm : LineMgmt) : ConvFtl :=
  { bareFtl c with lm := lm, wp := ⟨some 0, 0, 0, 0, 0, 0⟩, gcWp := ⟨some 1, 0, 0, 0, 1, 0⟩ }

theorem start_steady (lm : LineMgmt) (free : List Nat) (lines : lm.lines = fun _ => freshLine)
    (owned : Owned c lm (startShape c free).place free []) : Steady c (startFtl c lm) (startShape c free) := by
  have none : ∀ (pages : Finset Page) (value : PageStatus), value ≠ .free → Tally.census pages (pageStatus (startFtl c lm)) value = 0 :=
    fun pages value notFree => Tally.census_none _ _ _ fun _ _ => Ne.symm notFree
  have chs : 0 < c.nchs := Nat.pos_of_mul_pos_right c.lunsPositive
  have luns : 0 < c.lunsPerCh := Nat.pos_of_mul_pos_left c.lunsPositive
  have placed : ∀ id, (startShape c free).place id = .gc ∨ (startShape c free).place id = .user ∨ (startShape c free).place id = .free ∨
      (startShape c free).place id = .beyond := by
    intro id
    rw [start_place]
    split
    · exact .inl rfl
    · split
      · exact .inr (.inl rfl)
      · split
        · exact .inr (.inr (.inl rfl))
        · exact .inr (.inr (.inr rfl))
  refine ⟨⟨⟨fun _ _ _ mapped => (nomatch mapped), fun _ _ _ valid => (nomatch valid)⟩, ⟨?_, ?_⟩, owned, ?_, ?_, ⟨?_, ?_, ?_, ?_⟩⟩, ?_, ?_⟩
  · intro block
    exact ⟨by rw [none _ .valid (by decide)]; rfl, by rw [none _ .invalid (by decide)]; rfl⟩
  · intro id _ _
    have fresh : (startFtl c lm).lm.lines id = freshLine := congrFun lines id
    rw [fresh]
    exact ⟨by rw [none _ .valid (by decide)]; rfl, by rw [none _ .invalid (by decide)]; rfl⟩
  · intro ioType id
    rw [start_place]
    rcases active_of_cases ioType with user | gc
    · rw [user]
      change _ ↔ id = 0
      by_cases second : id = 1
      · rw [if_pos second, second]
        decide
      · rw [if_neg second]
        by_cases first : id = 0
        · rw [if_pos first]
          exact ⟨fun _ => first, fun _ => rfl⟩
        · rw [if_neg first]
          split
          · exact ⟨fun same => (nomatch same), fun same => absurd same first⟩
          · exact ⟨fun same => (nomatch same), fun same => absurd same first⟩
    · rw [gc]
      change _ ↔ id = 1
      by_cases second : id = 1
      · rw [if_pos second]
        exact ⟨fun _ => second, fun _ => rfl⟩
      · rw [if_neg second]
        refine ⟨fun same => ?_, fun same => absurd same second⟩
        split at same
        · cases same
        · split at same
          · cases same
          · cases same
  · intro ioType
    unfold getWp activeOf
    split
    · exact ⟨rfl, chs, luns, rfl, rfl, pgs_per_blk_positive c⟩
    · exact ⟨rfl, chs, luns, rfl, rfl, pgs_per_blk_positive c⟩
  · exact fun _ _ _ _ => rfl
  · intro id full
    rcases placed id with same | same | same | same
    all_goals
      rw [same] at full
      cases full
  · intro id victim
    rcases placed id with same | same | same | same
    all_goals
      rw [same] at victim
      cases victim
  · exact fun _ _ _ => ⟨fun _ => Nat.zero_le _, fun _ => rfl⟩
  · intro ioType
    have zero : pageIdx c 0 0 0 = 0 := by
      unfold pageIdx
      simp
    unfold getWp
    split
    · exact zero.symm
    · exact zero.symm
  · intro id out
    rcases placed id with same | same | same | same
    all_goals
      rw [same] at out
      cases out

theorem conv_init_steady (whole : WholeLines c) : ∃ lm free, convInitFtl c = .ok (startFtl c lm) ∧
    Steady c (startFtl c lm) (startShape c free) ∧ free.length + 2 = c.blksPerPl := by
  obtain ⟨more, lines⟩ : ∃ more, c.blksPerPl = more + 2 := ⟨c.blksPerPl - 2, by have enough := c.linesEnough; omega⟩
  have ids : List.range c.blksPerPl = 0 :: 1 :: (List.range more).map fun id => id + 2 := by
    rw [lines, List.range_succ_eq_map, List.range_succ_eq_map, List.map_cons, List.map_map]
    rfl
  have owned := init_lines_owned c c.blksPerPl (Nat.le_refl _)
  have initial : (List.range c.blksPerPl).foldl addFree ⟨fun _ => freshLine, IntrusiveList.selfLinked, fun _ => 0, 1, 0, 0, 0⟩ =
      initLines c := by
    unfold initLines
    rw [lines_whole c whole]
  have fresh : (initLines c).lines = fun _ => freshLine := add_free_lines _ _
  rw [initial, ids] at owned
  obtain ⟨first, takesFirst, firstLines, firstOwned⟩ := next_free_line c _ _ _ _ 0 .user owned (.inl rfl)
  obtain ⟨second, takesSecond, secondLines, secondOwned⟩ := next_free_line c _ _ _ _ 1 .gc firstOwned (.inr (.inl rfl))
  refine ⟨second, _, ?_, start_steady c second _ ?_ secondOwned, ?_⟩
  · have userLine : prepareWritePointer (bareFtl c) .userIo = .ok { bareFtl c with lm := first, wp := ⟨some 0, 0, 0, 0, 0, 0⟩ } := by
      unfold prepareWritePointer
      change (getNextFreeLine (initLines c) >>= _) = _
      rw [takesFirst]
      rfl
    unfold convInitFtl
    rw [userLine]
    unfold prepareWritePointer
    dsimp only [bind, Except.bind]
    rw [takesSecond]
    rfl
  · rw [secondLines, firstLines, fresh]
  · rw [List.length_map, List.length_range, lines]

end Initial

section Runs

variable (c : ConvParams)

-- The two directions of the mapping, the status of the pages, the counts of blocks
-- and lines, and a place for every line: in one of the lists, in the queue or behind
-- a write pointer.
structure Consistent (ftl : ConvFtl) : Prop where
  inverse : ∀ lpn page, ftl.maptbl lpn = some page → lpn < ttPgs c ∧ InDevice c page ∧ ftl.rmap (ppa2pgidx c page) = some lpn
  injective : ∀ lpn other page, ftl.maptbl lpn = some page → ftl.maptbl other = some page → lpn = other
  valid : ∀ page, InDevice c page →
    (pageStatus ftl page = .valid ↔ ∃ lpn, ftl.rmap (ppa2pgidx c page) = some lpn ∧ ftl.maptbl lpn = some page)
  blocks : ∀ block, Counted (blockPages c block) (pageStatus ftl) (ftl.nand block).vpc (ftl.nand block).ipc
  lines : ∀ id, id < ttLines c → Counted (linePages c id) (pageStatus ftl) (ftl.lm.lines id).vpc (ftl.lm.lines id).ipc
  placed : ∃ place free full, Owned c ftl.lm place free full ∧ ∀ id, id < ttLines c →
    (place id = .user ↔ ftl.wp.curline = some id) ∧ (place id = .gc ↔ ftl.gcWp.curline = some id) ∧ place id ≠ .out

theorem steady_consistent (whole : WholeLines c) (ftl : ConvFtl) (shape : Shape) (steady : Steady c ftl shape) : Consistent c ftl := by
  have sound := steady.sound
  have mapped := fun lpn page => sound.maps.mapped lpn page (fun none => (nomatch none))
  refine ⟨?_, ?_, ?_, sound.counts.block, ?_, shape.place, shape.free, shape.full, sound.owned, ?_⟩
  · intro lpn page known
    obtain ⟨bound, inside, _, _, named⟩ := mapped lpn page known
    exact ⟨bound, inside, named⟩
  · intro lpn other page known otherKnown
    have named := (mapped lpn page known).2.2.2.2
    have otherNamed := (mapped other page otherKnown).2.2.2.2
    exact Option.some.inj (named.symm.trans otherNamed)
  · intro page inside
    constructor
    · intro valid
      obtain ⟨lpn, _, named, known⟩ := sound.maps.valid page inside id valid
      exact ⟨lpn, named, known⟩
    · rintro ⟨lpn, _, known⟩
      exact (mapped lpn page known).2.2.2.1
  · intro id bound
    rw [lines_whole c whole] at bound
    exact sound.counts.line id bound (steady.noneOut id)
  · intro id _
    have user := sound.active .userIo id
    have gc := sound.active .gcIo id
    have userLine := (sound.standing .userIo).curline
    have gcLine := (sound.standing .gcIo).curline
    change ftl.wp.curline = _ at userLine
    change ftl.gcWp.curline = _ at gcLine
    rw [userLine, gcLine, Option.some.injEq, Option.some.injEq]
    exact ⟨user.trans eq_comm, gc.trans eq_comm, steady.noneOut id⟩

structure NsSteady (ns : ConvNs) : Prop where
  parts : ∀ part, ∃ shape, Steady c (ns.parts part) shape
  todo : ∀ lpn ∈ ns.todo, lpn / c.nrParts < ttPgs c

theorem conv_write_todo (ns : ConvNs) (cmd : RwCommand) (idle : ns.todo = []) : (convWrite c ns cmd).parts = ns.parts ∧
    ∀ lpn ∈ (convWrite c ns cmd).todo, lpn ≤ endLpn cmd ∧ endLpn cmd / c.nrParts < ttPgs c := by
  unfold convWrite
  split
  · refine ⟨rfl, fun lpn member => ?_⟩
    rw [idle] at member
    cases member
  · rename_i below
    split
    · refine ⟨rfl, fun lpn member => ?_⟩
      rw [idle] at member
      cases member
    · refine ⟨rfl, fun lpn member => ⟨?_, Nat.lt_of_not_le below⟩⟩
      obtain ⟨place, inside, rfl⟩ := List.mem_map.mp member
      have bound := List.mem_range.mp inside
      omega

theorem turn_steady (whole : WholeLines c) (ns : ConvNs) (steady : NsSteady c ns) (lpn : Nat) (rest : List Nat) (queued : Bool)
    (due : ns.todo = lpn :: rest) :
    (∃ next, convWriteTurn c ns lpn rest queued = .ok next ∧ NsSteady c next) ∨ convWriteTurn c ns lpn rest queued = .error .nullDeref := by
  obtain ⟨shape, part⟩ := steady.parts (lpn % c.nrParts)
  have bound := steady.todo lpn (by rw [due]; exact List.mem_cons_self ..)
  unfold convWriteTurn
  dsimp only
  rcases write_page_sound c _ shape _ whole part bound with ⟨page, ftl, after, ran, kept⟩ | stopped
  · rw [ran, ok_bind]
    refine .inl ⟨_, rfl, ?_, fun other member => steady.todo other (by rw [due]; exact List.mem_cons_of_mem _ member)⟩
    intro other
    dsimp only
    by_cases here : other = lpn % c.nrParts
    · rw [here, Function.update_self]
      exact ⟨after, kept⟩
    · rw [Function.update_of_ne here]
      exact steady.parts other
  · rw [stopped]
    exact .inr rfl

theorem steady_kept (whole : WholeLines c) (allowed : ConvNs → Event → Prop) :
    TransitionSystem.Invariant (system c) allowed (NsSteady c) := by
  refine ⟨?_, ?_⟩
  · rintro ns ⟨parts, _, todo, _⟩
    refine ⟨fun part => ?_, ?_⟩
    · obtain ⟨lm, free, run, steady, _⟩ := conv_init_steady c whole
      rw [parts part] at run
      rw [Except.ok.inj run]
      exact ⟨_, steady⟩
    · rw [todo]
      exact fun lpn member => (nomatch member)
  · intro ns next event steady _ step
    cases step with
    | read cmd idle => exact steady
    | write cmd idle =>
        obtain ⟨parts, todo⟩ := conv_write_todo c ns cmd idle
        refine ⟨by rw [parts]; exact steady.parts, fun lpn member => ?_⟩
        obtain ⟨below, bound⟩ := todo lpn member
        exact Nat.lt_of_le_of_lt (Nat.div_le_div_right below) bound
    | turn queued lpn rest next due ran =>
        rcases turn_steady c whole ns steady lpn rest queued due with ⟨other, ranOther, kept⟩ | stopped
        · rw [ran] at ranOther
          rw [Except.ok.inj ranOther]
          exact kept
        · rw [ran] at stopped
          cases stopped
    | release place bytes due => exact ⟨steady.parts, steady.todo⟩

def takeTurns : List Nat → ConvNs → Exec ConvNs
  | [], ns => .ok ns
  | lpn :: rest, ns => do
      let ns ← convWriteTurn c ns lpn rest false
      takeTurns rest ns

def writeAll : List RwCommand → ConvNs → Exec ConvNs
  | [], ns => .ok ns
  | cmd :: rest, ns => do
      let ns := convWrite c ns cmd
      let ns ← takeTurns c ns.todo ns
      writeAll rest ns

theorem turns_reached (allowed : ConvNs → Event → Prop) (turns : ∀ ns queued, allowed ns (.turn queued)) (lpns : List Nat)
    (ns next : ConvNs) (due : ns.todo = lpns) (ran : takeTurns c lpns ns = .ok next) (reached : Reachable c allowed ns) :
    Reachable c allowed next ∧ next.todo = [] := by
  induction lpns generalizing ns with
  | nil =>
      rw [← Except.ok.inj ran]
      exact ⟨reached, due⟩
  | cons lpn rest ih =>
      obtain ⟨middle, taken, ranRest⟩ := bind_ok _ _ _ ran
      have left : middle.todo = rest := by
        obtain ⟨placed, _, built⟩ := bind_ok _ _ _ taken
        rw [← pure_ok _ _ built]
      exact ih middle left ranRest (.next ns middle (.turn false) reached (turns ns false) (.turn false lpn rest middle due taken))

theorem writes_reached (allowed : ConvNs → Event → Prop) (turns : ∀ ns queued, allowed ns (.turn queued)) (cmds : List RwCommand)
    (permitted : ∀ cmd ∈ cmds, ∀ ns, allowed ns (.write cmd)) (ns next : ConvNs) (idle : ns.todo = [])
    (ran : writeAll c cmds ns = .ok next) (reached : Reachable c allowed ns) : Reachable c allowed next ∧ next.todo = [] := by
  induction cmds generalizing ns with
  | nil =>
      rw [← Except.ok.inj ran]
      exact ⟨reached, idle⟩
  | cons cmd rest ih =>
      obtain ⟨middle, taken, ranRest⟩ := bind_ok _ _ _ ran
      have started : Reachable c allowed (convWrite c ns cmd) :=
        .next ns _ (.write cmd) reached (permitted cmd (List.mem_cons_self ..) ns) (.write cmd idle)
      obtain ⟨middleReached, middleIdle⟩ := turns_reached c allowed turns _ _ middle rfl taken started
      exact ih (fun other member => permitted other (List.mem_cons_of_mem _ member)) middle middleIdle ranRest middleReached

-- Where a line takes the blocks of all LUNs, a write stops at no assertion.
theorem conv_ftl_consistent (whole : WholeLines c) (ns : ConvNs) (reached : Reachable c (fun _ _ => True) ns) :
    (∀ part, Consistent c (ns.parts part)) ∧ ∀ queued lpn rest, ns.todo = lpn :: rest →
      (∃ next, convWriteTurn c ns lpn rest queued = .ok next) ∨ convWriteTurn c ns lpn rest queued = .error .nullDeref := by
  have steady := TransitionSystem.reach_invariant _ _ _ (steady_kept c whole _) ns reached
  refine ⟨fun part => ?_, fun queued lpn rest due => ?_⟩
  · obtain ⟨shape, part⟩ := steady.parts part
    exact steady_consistent c whole _ shape part
  · rcases turn_steady c whole ns steady lpn rest queued due with ⟨next, ran, _⟩ | stopped
    · exact .inl ⟨next, ran⟩
    · exact .inr stopped

end Runs

section Fixed

-- Six lines of two pages in one LUN.
def smallParams : ConvParams where
  nrParts := 1
  nchs := 1
  lunsPerCh := 1
  lunsPerLine := 1
  lineGroups := 1
  blksPerPl := 6
  pgsPerFlashpg := 1
  flashpgsPerOneshotpg := 1
  oneshotpgsPerBlk := 2
  writeBufferSize := 2 ^ 20
  nsLpns := 3
  partsPositive := by decide
  groupsWhole := by decide
  lunsPositive := by decide
  pagesPositive := by decide
  linesEnough := by decide
  linesFit := by decide
  lineFits := by decide

-- Two LUNs, and lines of one LUN each.
def partialParams : ConvParams where
  nrParts := 1
  nchs := 2
  lunsPerCh := 1
  lunsPerLine := 1
  lineGroups := 2
  blksPerPl := 3
  pgsPerFlashpg := 1
  flashpgsPerOneshotpg := 1
  oneshotpgsPerBlk := 1
  writeBufferSize := 2 ^ 20
  nsLpns := 1
  partsPositive := by decide
  groupsWhole := by decide
  lunsPositive := by decide
  pagesPositive := by decide
  linesEnough := by decide
  linesFit := by decide
  lineFits := by decide

def pageWrite (lpn pages : Nat) (bound : lpn < 2 ^ 32) (fits : pages < 16) : RwCommand where
  slba := lpn * 8
  length := pages * 8 + 7
  slbaFits := by omega
  lengthFits := by omega

def startNs (c : ConvParams) (ftl : ConvFtl) : ConvNs := ⟨fun _ => ftl, ⟨c.writeBufferSize, c.writeBufferSize⟩, [], []⟩

theorem start_ns_reached (c : ConvParams) (allowed : ConvNs → Event → Prop) (ftl : ConvFtl) (ran : convInitFtl c = .ok ftl) :
    Reachable c allowed (startNs c ftl) :=
  .start _ ⟨fun _ => ran, rfl, rfl, rfl⟩

-- Three LPNs are overwritten in turn until lines have been collected.
def overwrites (count : Nat) : List RwCommand := (List.range count).map fun i => pageWrite (i % 3) 0 (by omega) (by decide)

def overwriteRun (c : ConvParams) (count : Nat) : Exec ConvNs := do
  let ftl ← convInitFtl c
  writeAll c (overwrites count) (startNs c ftl)

theorem overwrite_run_reached (c : ConvParams) (allowed : ConvNs → Event → Prop) (turns : ∀ ns queued, allowed ns (.turn queued))
    (count : Nat) (permitted : ∀ cmd ∈ overwrites count, ∀ ns, allowed ns (.write cmd)) (ns : ConvNs)
    (ran : overwriteRun c count = .ok ns) : Reachable c allowed ns := by
  obtain ⟨ftl, started, wrote⟩ := bind_ok _ _ _ ran
  exact (writes_reached c allowed turns _ permitted _ ns rfl wrote (start_ns_reached c allowed ftl started)).1

theorem consistent_after_collecting : ∃ ns, 0 < ((ns.parts 0).nand ⟨⟨0, 0, 0⟩, 0⟩).eraseCnt ∧
    (∀ part, Consistent smallParams (ns.parts part)) ∧ ∀ queued lpn rest, ns.todo = lpn :: rest →
      (∃ next, convWriteTurn smallParams ns lpn rest queued = .ok next) ∨
        convWriteTurn smallParams ns lpn rest queued = .error .nullDeref := by
  have erased : (match overwriteRun smallParams 8 with
      | .ok ns => decide (0 < ((ns.parts 0).nand ⟨⟨0, 0, 0⟩, 0⟩).eraseCnt)
      | .error _ => false) = true := by decide +kernel
  cases ran : overwriteRun smallParams 8 with
  | error fault =>
      rw [ran] at erased
      cases erased
  | ok ns =>
      rw [ran] at erased
      exact ⟨ns, of_decide_eq_true erased, conv_ftl_consistent smallParams rfl ns
        (overwrite_run_reached _ _ (fun _ _ => trivial) _ (fun _ _ _ => trivial) ns ran)⟩

theorem first_lpn_fits : 0 < 2 ^ 32 := by decide

def partialRun : Exec ConvNs := do
  let ftl ← convInitFtl partialParams
  convWriteTurn partialParams (convWrite partialParams (startNs partialParams ftl) (pageWrite 0 1 first_lpn_fits (by decide))) 0 [1] false

-- The second page of a fresh line is one too many for the line's count.
theorem partial_line_stops : ∃ ns, Reachable partialParams (fun _ _ => True) ns ∧ ns.todo = [1] ∧
    convWriteTurn partialParams ns 1 [] false = .error .bugOn := by
  have stops : (match partialRun with
      | .ok ns => match convWriteTurn partialParams ns 1 [] false with
        | .error fault => decide (fault = .bugOn)
        | .ok _ => false
      | .error _ => false) = true := by decide +kernel
  cases ran : partialRun with
  | error fault =>
      rw [ran] at stops
      cases stops
  | ok ns =>
      rw [ran] at stops
      obtain ⟨ftl, started, taken⟩ := bind_ok _ _ _ ran
      have begun : Reachable partialParams (fun _ _ => True)
          (convWrite partialParams (startNs partialParams ftl) (pageWrite 0 1 first_lpn_fits (by decide))) :=
        .next _ _ (.write _) (start_ns_reached _ _ ftl started) trivial (.write _ rfl)
      have due : (convWrite partialParams (startNs partialParams ftl) (pageWrite 0 1 first_lpn_fits (by decide))).todo = [0, 1] := rfl
      have left : ns.todo = [1] := by
        obtain ⟨placed, _, built⟩ := bind_ok _ _ _ taken
        rw [← pure_ok _ _ built]
      refine ⟨ns, .next _ ns (.turn false) begun trivial (.turn false 0 [1] ns due taken), left, ?_⟩
      dsimp only at stops
      cases outcome : convWriteTurn partialParams ns 1 [] false with
      | ok next =>
          rw [outcome] at stops
          cases stops
      | error fault =>
          rw [outcome] at stops
          rw [of_decide_eq_true stops]

end Fixed

end ConZone.Conv
