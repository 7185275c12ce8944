import ConZone.ConvPlace

set_option autoImplicit false

namespace ConZone.Conv

section Line

variable (c : ConvParams) (ftl : ConvFtl) (shape : Shape) (hole : Option Nat) (stale : Page → Prop)

-- The lines that are behind a write pointer have a free page left, those in the
-- queue an invalid one, so that only the lines of the full list are all valid.
theorem full_line (whole : WholeLines c) (sound : Sound c ftl shape hole stale) (rest : AtRest c ftl shape) (id : Nat)
    (bound : id < c.blksPerPl) (notOut : shape.place id ≠ .out) :
    (ftl.lm.lines id).vpc = pgsPerLine c ↔ shape.place id = .full := by
  have counted := sound.counts.line id bound notOut
  have size : (linePages c id).card = pgsPerLine c := by rw [line_pages_card, span_whole c whole]
  constructor
  · intro all
    rw [counted.vpc] at all
    have valid := Tally.census_whole (linePages c id) (pageStatus ftl) .valid (by omega)
    have active : ∀ ioType, shape.place id ≠ activeOf ioType := by
      intro ioType placed
      obtain ⟨_, _, member, free⟩ := wp_page_facts c ftl shape hole stale sound rest ioType
      rw [← (sound.active ioType id).mp placed] at member
      rw [valid _ member] at free
      cases free
    have some : ∃ page, page ∈ linePages c id := by
      obtain ⟨_, _, member, _⟩ := wp_page_facts c ftl shape hole stale sound rest .userIo
      have positive := Finset.card_pos.mpr ⟨_, member⟩
      rw [line_pages_card, ← line_pages_card c id] at positive
      exact Finset.card_pos.mp positive
    obtain ⟨page, member⟩ := some
    cases placed : shape.place id with
    | free =>
        have free := sound.filled.free id placed page member
        rw [valid page member] at free
        cases free
    | full => rfl
    | victim =>
        obtain ⟨_, other, otherMember, invalid⟩ := sound.filled.victim id placed
        rw [valid other otherMember] at invalid
        cases invalid
    | user => exact absurd placed (active .userIo)
    | gc => exact absurd placed (active .gcIo)
    | out => exact absurd placed notOut
    | beyond => exact absurd placed ((sound.owned.bound id).mpr bound)
  · intro isFull
    rw [counted.vpc, Tally.census_all _ _ _ (sound.filled.full id isFull), size]

-- What an overwritten page does to its line: a line of the full list goes to the
-- queue, any other stays.
structure Overwritten (id : Nat) (lm : LineMgmt) (place : Nat → Place) (full : List Nat) : Prop where
  owned : Owned c lm place shape.free full
  vpc : ∀ other, (lm.lines other).vpc = if other = id then (ftl.lm.lines other).vpc - 1 else (ftl.lm.lines other).vpc
  ipc : ∀ other, (lm.lines other).ipc = if other = id then (ftl.lm.lines other).ipc + 1 else (ftl.lm.lines other).ipc
  moved : place = if shape.place id = .full then Function.update shape.place id .victim else shape.place

theorem invalidate_in_line (whole : WholeLines c) (sound : Sound c ftl shape hole stale) (rest : AtRest c ftl shape) (page : Page)
    (inside : InDevice c page) (valid : pageStatus ftl page = .valid) (notOut : shape.place page.block.blk ≠ .out) :
    ∃ lm place full, invalidateInLine c ftl.lm page.block.blk = .ok lm ∧ Overwritten c ftl shape page.block.blk lm place full := by
  have counted := sound.counts.line _ inside.blk notOut
  obtain ⟨ipcRange, vpcRange, wholeLine⟩ :=
    counted_stock _ _ _ _ page ((mem_line_pages c _ inside.blk _).mpr ⟨inside, rfl⟩) valid counted
  rw [line_pages_card, span_whole c whole] at ipcRange vpcRange wholeLine
  have isFull := full_line c ftl shape hole stale whole sound rest _ inside.blk notOut
  have bumped := put_line_owned c ftl.lm shape.place shape.free shape.full page.block.blk
    { ftl.lm.lines page.block.blk with ipc := (ftl.lm.lines page.block.blk).ipc + 1 } sound.owned rfl
  have decreased := dec_vpc_owned c _ shape.place shape.free shape.full page.block.blk bumped
  have counts := bump_dec_counts ftl.lm page.block.blk
  unfold invalidateInLine
  dsimp only
  rw [nvmev_assert_ok _ ipcRange, nvmev_assert_ok _ wholeLine, nvmev_assert_ok _ vpcRange]
  dsimp only [bind, Except.bind]
  by_cases all : (ftl.lm.lines page.block.blk).vpc = pgsPerLine c
  · rw [if_pos all]
    have wasFull := isFull.mp all
    obtain ⟨left, right, _, removed⟩ := del_full_owned c _ shape.place shape.free shape.full page.block.blk decreased wasFull
    have queued := insert_victim_owned c _ _ shape.free (left ++ right) page.block.blk removed
      (by rw [Function.update_self]; exact .inr (.inr rfl))
    rw [Function.update_idem] at queued
    refine ⟨_, _, _, rfl, queued, fun other => (counts other).1, fun other => (counts other).2, ?_⟩
    rw [if_pos wasFull]
  · rw [if_neg all]
    refine ⟨_, shape.place, shape.full, rfl, decreased, fun other => (counts other).1, fun other => (counts other).2, ?_⟩
    rw [if_neg fun wasFull => all (isFull.mpr wasFull)]

end Line

section Drop

variable (c : ConvParams) (ftl : ConvFtl) (shape : Shape) (lpn : Nat) (stale : Page → Prop)

def droppedFtl (page : Page) (lm : LineMgmt) : ConvFtl :=
  let blk := ftl.nand page.block
  { putBlock ftl page.block { blk with status := Function.update blk.status page.pg .invalid, ipc := blk.ipc + 1, vpc := blk.vpc - 1 } with
    rmap := Function.update ftl.rmap (ppa2pgidx c page) none, lm := lm }

theorem dropped_status (page : Page) (lm : LineMgmt) :
    pageStatus (droppedFtl c ftl page lm) = Function.update (pageStatus ftl) page .invalid :=
  put_status _ _ _ _ _ _

structure Dropped (next : ConvFtl) (after : Shape) : Prop where
  sound : Sound c next after (some lpn) stale
  rest : AtRest c next after
  credits : KeepsCredits ftl next
  maptbl : next.maptbl = ftl.maptbl
  out : ∀ id, after.place id = .out ↔ shape.place id = .out
  free : after.free = shape.free
  used : after.used = shape.used

theorem drop_run (page : Page) (lm : LineMgmt) (counts : CountSound c ftl shape.place) (inside : InDevice c page)
    (valid : pageStatus ftl page = .valid) (lines : invalidateInLine c ftl.lm page.block.blk = .ok lm) :
    (markPageInvalid c ftl page >>= fun ftl => setRmapEnt c ftl none page) = .ok (droppedFtl c ftl page lm) := by
  obtain ⟨ipcRange, vpcRange, _⟩ :=
    counted_stock _ _ _ _ page ((mem_block_pages c _ _).mpr ⟨rfl, inside.pg⟩) valid (counts.block page.block)
  rw [block_pages_card] at ipcRange vpcRange
  have isValid : (ftl.nand page.block).status page.pg = .valid := valid
  unfold markPageInvalid
  dsimp only
  rw [nvmev_assert_ok _ isValid, nvmev_assert_ok _ ipcRange, nvmev_assert_ok _ vpcRange, lines]
  dsimp only [bind, Except.bind, pure, Except.pure]
  rw [set_rmap_ok c _ _ _ inside]
  rfl

theorem dropped_counts (page : Page) (lm : LineMgmt) (place : Nat → Place) (full : List Nat) (counts : CountSound c ftl shape.place)
    (inside : InDevice c page) (valid : pageStatus ftl page = .valid) (notOut : shape.place page.block.blk ≠ .out)
    (overwritten : Overwritten c ftl shape page.block.blk lm place full)
    (out : ∀ id, place id = .out ↔ shape.place id = .out) : CountSound c (droppedFtl c ftl page lm) place := by
  have status := dropped_status c ftl page lm
  refine counts_after c ftl _ shape.place place page .invalid counts status ?_ ?_ ?_ ?_ fun id _ notOutNext => ?_
  · intro block apart
    exact Function.update_of_ne apart _ _
  · have here : (droppedFtl c ftl page lm).nand page.block =
        { ftl.nand page.block with status := Function.update (ftl.nand page.block).status page.pg .invalid,
                                   ipc := (ftl.nand page.block).ipc + 1, vpc := (ftl.nand page.block).vpc - 1 } :=
      Function.update_self ..
    rw [here, status]
    exact counted_invalid _ _ _ _ page ((mem_block_pages c _ _).mpr ⟨rfl, inside.pg⟩) valid (counts.block page.block)
  · intro id apart
    have vpc := overwritten.vpc id
    have ipc := overwritten.ipc id
    rw [if_neg apart] at vpc ipc
    exact ⟨vpc, ipc⟩
  · have vpc := overwritten.vpc page.block.blk
    have ipc := overwritten.ipc page.block.blk
    rw [if_pos rfl] at vpc ipc
    change Counted _ _ (lm.lines page.block.blk).vpc (lm.lines page.block.blk).ipc
    rw [vpc, ipc, status]
    exact counted_invalid _ _ _ _ page ((mem_line_pages c _ inside.blk _).mpr ⟨inside, rfl⟩) valid
      (counts.line _ inside.blk notOut)
  · exact fun isOut => notOutNext ((out id).mpr isOut)

theorem dropped_filled (status : Page → PageStatus) (page : Page) (place : Nat → Place) (inside : InDevice c page)
    (valid : status page = .valid) (bound : ∀ id, shape.place id ≠ .beyond → id < c.blksPerPl)
    (moved : place = if shape.place page.block.blk = .full then Function.update shape.place page.block.blk .victim else shape.place)
    (filled : Filled c status shape.place shape.cur shape.used) :
    Filled c (Function.update status page .invalid) place shape.cur shape.used := by
  have member : page ∈ linePages c page.block.blk := (mem_line_pages c _ inside.blk _).mpr ⟨inside, rfl⟩
  have freeSame : ∀ other, Function.update status page .invalid other = .free ↔ status other = .free := by
    intro other
    by_cases here : other = page
    · rw [here, Function.update_self, valid]
      simp
    · rw [Function.update_of_ne here]
  -- A line of the same place as before is another line than the page's, unless it
  -- was not in the full list.
  have before : ∀ id stands, place id = stands → stands ≠ .victim → shape.place id = stands := by
    intro id stands placed notVictim
    rw [moved] at placed
    split at placed
    · by_cases here : id = page.block.blk
      · rw [here, Function.update_self] at placed
        exact absurd placed.symm notVictim
      · rw [Function.update_of_ne here] at placed
        exact placed
    · exact placed
  refine ⟨?_, ?_, ?_, ?_⟩
  · intro id placed other otherMember
    exact (freeSame other).mpr (filled.free id (before id .free placed (by decide)) other otherMember)
  · intro id placed other otherMember
    have wasFull := before id .full placed (by decide)
    have apart : other ≠ page := by
      rintro rfl
      have line := line_pages_apart c id _ other (bound id (by rw [wasFull]; decide)) otherMember rfl
      rw [moved, ← line, if_pos wasFull, Function.update_self] at placed
      cases placed
    rw [Function.update_of_ne apart]
    exact filled.full id wasFull other otherMember
  · intro id placed
    by_cases here : id = page.block.blk
    · rw [here]
      refine ⟨fun other otherMember free => ?_, page, member, Function.update_self ..⟩
      have wasFree := (freeSame other).mp free
      by_cases wasFull : shape.place page.block.blk = .full
      · rw [filled.full _ wasFull other otherMember] at wasFree
        cases wasFree
      · rw [moved, if_neg wasFull, here] at placed
        exact (filled.victim _ placed).1 other otherMember wasFree
    · have wasVictim : shape.place id = .victim := by
        rw [moved] at placed
        split at placed
        · rw [Function.update_of_ne here] at placed
          exact placed
        · exact placed
      obtain ⟨used, other, otherMember, invalid⟩ := filled.victim id wasVictim
      refine ⟨fun entry entryMember free => used entry entryMember ((freeSame entry).mp free), other, otherMember, ?_⟩
      by_cases same : other = page
      · rw [same, Function.update_self]
      · rw [Function.update_of_ne same]
        exact invalid
  · intro ioType other otherMember
    rw [freeSame]
    exact filled.active ioType other otherMember

theorem drop_page_sound (whole : WholeLines c) (page : Page) (sound : Sound c ftl shape none stale) (rest : AtRest c ftl shape)
    (mapped : ftl.maptbl lpn = some page) (noneOut : ∀ id, shape.place id ≠ .out) :
    ∃ next after, (markPageInvalid c ftl page >>= fun ftl => setRmapEnt c ftl none page) = .ok next ∧
      Dropped c ftl shape lpn stale next after := by
  obtain ⟨_, inside, _, valid, _⟩ := sound.maps.mapped lpn page (by simp) mapped
  obtain ⟨lm, place, full, lines, overwritten⟩ :=
    invalidate_in_line c ftl shape none stale whole sound rest page inside valid (noneOut _)
  have status := dropped_status c ftl page lm
  have moves : ∀ stands, stands ≠ .full → stands ≠ .victim → ∀ id, place id = stands ↔ shape.place id = stands := by
    intro stands notFull notVictim id
    rw [overwritten.moved]
    split
    · rename_i wasFull
      exact move_keeps shape.place _ .victim stands (Ne.symm notVictim) (by rw [wasFull]; exact Ne.symm notFull) id
    · exact Iff.rfl
  refine ⟨_, { shape with place := place, full := full }, drop_run c ftl shape page lm sound.counts inside valid lines,
    ⟨?_, ?_, overwritten.owned, ?_, sound.standing, ?_⟩, rest, ⟨rfl, rfl, rfl, rfl⟩, rfl, moves .out (by decide) (by decide), rfl, rfl⟩
  · refine map_leave c ftl (droppedFtl c ftl page lm) lpn page stale sound.maps mapped rfl ?_ ?_ stale (.inr ?_) fun _ _ => Iff.rfl
    · intro other otherInside apart
      exact Function.update_of_ne (fun same => apart (pgidx_unique c other page otherInside inside same)) _ _
    · intro other apart
      rw [status, Function.update_of_ne apart]
    · rw [status, Function.update_self]
      decide
  · exact dropped_counts c ftl shape page lm place full sound.counts inside valid (noneOut _) overwritten
      (moves .out (by decide) (by decide))
  · intro ioType id
    have apart := active_of_cases ioType
    rw [moves (activeOf ioType) (by rcases apart with same | same <;> rw [same] <;> decide)
      (by rcases apart with same | same <;> rw [same] <;> decide) id]
    exact sound.active ioType id
  · rw [status]
    exact dropped_filled c shape _ page place inside valid (fun id => (sound.owned.bound id).mp) overwritten.moved sound.filled

theorem invalidate_old_sound (whole : WholeLines c) (sound : Sound c ftl shape none stale) (rest : AtRest c ftl shape)
    (noneOut : ∀ id, shape.place id ≠ .out) :
    ∃ next after, invalidateOld c ftl lpn = .ok next ∧ Dropped c ftl shape lpn stale next after := by
  unfold invalidateOld
  cases mapped : ftl.maptbl lpn with
  | none =>
      exact ⟨ftl, shape, rfl, ⟨map_open c ftl lpn stale mapped sound.maps, sound.counts, sound.owned, sound.active, sound.standing,
        sound.filled⟩, rest, ⟨rfl, rfl, rfl, rfl⟩, rfl, fun _ => Iff.rfl, rfl, rfl⟩
  | some page => exact drop_page_sound c ftl shape lpn stale whole page sound rest mapped noneOut

end Drop

end ConZone.Conv
