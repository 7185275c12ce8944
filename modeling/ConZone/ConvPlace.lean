import ConZone.ConvLines

set_option autoImplicit false

namespace ConZone.Conv

section Maps

variable (c : ConvParams) (ftl next : ConvFtl) (lpn : Nat) (page : Page) (hole : Option Nat) (stale : Page → Prop)

theorem map_frame (maptbl : next.maptbl = ftl.maptbl) (rmap : next.rmap = ftl.rmap) (status : pageStatus next = pageStatus ftl)
    (maps : MapSound c ftl hole stale) : MapSound c next hole stale := by
  refine ⟨?_, ?_⟩
  · intro other spot notHole mapped
    rw [status, rmap]
    rw [maptbl] at mapped
    exact maps.mapped other spot notHole mapped
  · intro other inside fresh valid
    rw [status] at valid
    rw [maptbl, rmap]
    exact maps.valid other inside fresh valid

theorem map_open (unmapped : ftl.maptbl lpn = none) (maps : MapSound c ftl none stale) : MapSound c ftl (some lpn) stale := by
  refine ⟨fun other spot _ mapped => maps.mapped other spot (by simp) mapped, ?_⟩
  intro other inside fresh valid
  obtain ⟨owner, _, named, mapped⟩ := maps.valid other inside fresh valid
  refine ⟨owner, ?_, named, mapped⟩
  intro same
  rw [← Option.some.inj same, unmapped] at mapped
  cases mapped

theorem map_other (maps : MapSound c ftl none stale) (mapped : ftl.maptbl lpn = some page) (owner : Nat) (spot : Page)
    (apart : some lpn ≠ some owner) (otherMapped : ftl.maptbl owner = some spot) : spot ≠ page := by
  rintro rfl
  have named := (maps.mapped lpn spot (by simp) mapped).2.2.2.2
  have otherNamed := (maps.mapped owner spot (by simp) otherMapped).2.2.2.2
  exact apart (named.symm.trans otherNamed)

theorem map_leave (maps : MapSound c ftl none stale) (mapped : ftl.maptbl lpn = some page) (maptbl : next.maptbl = ftl.maptbl)
    (rmap : ∀ other, InDevice c other → other ≠ page → next.rmap (ppa2pgidx c other) = ftl.rmap (ppa2pgidx c other))
    (status : ∀ other, other ≠ page → pageStatus next other = pageStatus ftl other) (left : Page → Prop)
    (gone : left page ∨ pageStatus next page ≠ .valid) (others : ∀ other, other ≠ page → (left other ↔ stale other)) :
    MapSound c next (some lpn) left := by
  refine ⟨?_, ?_⟩
  · intro owner spot apart otherMapped
    rw [maptbl] at otherMapped
    have away := map_other c ftl lpn page stale maps mapped owner spot apart otherMapped
    obtain ⟨bound, inside, fresh, valid, named⟩ := maps.mapped owner spot (by simp) otherMapped
    rw [status spot away, rmap spot inside away, others spot away]
    exact ⟨bound, inside, fresh, valid, named⟩
  · intro other inside fresh valid
    have away : other ≠ page := by
      rintro rfl
      rcases gone with isLeft | notValid
      · exact fresh isLeft
      · exact notValid valid
    rw [others other away] at fresh
    rw [status other away] at valid
    obtain ⟨owner, _, named, otherMapped⟩ := maps.valid other inside fresh valid
    refine ⟨owner, ?_, by rw [rmap other inside away]; exact named, by rw [maptbl]; exact otherMapped⟩
    intro same
    rw [← Option.some.inj same, mapped] at otherMapped
    exact away (Option.some.inj otherMapped).symm

theorem map_fill (maps : MapSound c ftl (some lpn) stale) (bound : lpn < ttPgs c) (inside : InDevice c page)
    (free : pageStatus ftl page = .free) (fresh : ¬stale page) (maptbl : next.maptbl = Function.update ftl.maptbl lpn (some page))
    (rmap : next.rmap = Function.update ftl.rmap (ppa2pgidx c page) (some lpn))
    (status : pageStatus next = Function.update (pageStatus ftl) page .valid) : MapSound c next none stale := by
  have keeps : ∀ other, InDevice c other → other ≠ page →
      next.rmap (ppa2pgidx c other) = ftl.rmap (ppa2pgidx c other) ∧ pageStatus next other = pageStatus ftl other := by
    intro other otherInside away
    rw [rmap, status, Function.update_of_ne away, Function.update_of_ne]
    · exact ⟨rfl, rfl⟩
    · exact fun same => away (pgidx_unique c other page otherInside inside same)
  refine ⟨?_, ?_⟩
  · intro owner spot _ mapped
    rw [maptbl] at mapped
    by_cases here : owner = lpn
    · rw [here, Function.update_self] at mapped
      have same := Option.some.inj mapped
      rw [here, ← same, status, rmap, Function.update_self, Function.update_self]
      exact ⟨bound, inside, fresh, rfl, rfl⟩
    · rw [Function.update_of_ne here] at mapped
      obtain ⟨ownerBound, spotInside, spotFresh, valid, named⟩ :=
        maps.mapped owner spot (fun same => here (Option.some.inj same).symm) mapped
      have away : spot ≠ page := by
        rintro rfl
        rw [free] at valid
        cases valid
      obtain ⟨sameRmap, sameStatus⟩ := keeps spot spotInside away
      rw [sameRmap, sameStatus]
      exact ⟨ownerBound, spotInside, spotFresh, valid, named⟩
  · intro other otherInside otherFresh valid
    by_cases here : other = page
    · rw [here, rmap, maptbl, Function.update_self]
      exact ⟨lpn, by simp, rfl, Function.update_self ..⟩
    · obtain ⟨sameRmap, sameStatus⟩ := keeps other otherInside here
      rw [sameStatus] at valid
      obtain ⟨owner, notHole, named, mapped⟩ := maps.valid other otherInside otherFresh valid
      refine ⟨owner, by simp, sameRmap.trans named, ?_⟩
      rw [maptbl, Function.update_of_ne fun same => notHole (by rw [same])]
      exact mapped

end Maps

section Counts

variable (c : ConvParams) (ftl next : ConvFtl) (place placeNext : Nat → Place) (page : Page) (entry : PageStatus)

theorem counts_after (counts : CountSound c ftl place)
    (status : pageStatus next = Function.update (pageStatus ftl) page entry)
    (blocks : ∀ block, block ≠ page.block → next.nand block = ftl.nand block)
    (blockHere : Counted (blockPages c page.block) (pageStatus next) (next.nand page.block).vpc (next.nand page.block).ipc)
    (lines : ∀ id, id ≠ page.block.blk →
      (next.lm.lines id).vpc = (ftl.lm.lines id).vpc ∧ (next.lm.lines id).ipc = (ftl.lm.lines id).ipc)
    (lineHere : Counted (linePages c page.block.blk) (pageStatus next) (next.lm.lines page.block.blk).vpc
      (next.lm.lines page.block.blk).ipc)
    (out : ∀ id, id ≠ page.block.blk → placeNext id ≠ .out → place id ≠ .out) : CountSound c next placeNext := by
  refine ⟨?_, ?_⟩
  · intro block
    by_cases here : block = page.block
    · rw [here]
      exact blockHere
    · rw [blocks block here, status]
      apply counted_outside
      · rw [mem_block_pages]
        exact fun member => here member.1.symm
      · exact counts.block block
  · intro id bound notOut
    by_cases here : id = page.block.blk
    · rw [here]
      exact lineHere
    · rw [(lines id here).1, (lines id here).2, status]
      apply counted_outside
      · rw [mem_line_pages c id bound]
        exact fun member => here member.2.symm
      · exact counts.line id bound (out id here notOut)

end Counts

section Lines

variable (c : ConvParams) (ftl : ConvFtl) (shape : Shape) (hole : Option Nat) (stale : Page → Prop)

theorem idx_unique (id : Nat) (bound : id < c.blksPerPl) (page other : Page) (member : page ∈ linePages c id)
    (otherMember : other ∈ linePages c id) (same : idxOf c page = idxOf c other) : page = other := by
  obtain ⟨inside, line⟩ := (mem_line_pages c id bound page).mp member
  obtain ⟨otherInside, otherLine⟩ := (mem_line_pages c id bound other).mp otherMember
  obtain ⟨ch, lun, pg⟩ := page_idx_unique c _ _ _ _ _ _ inside.ch inside.lun otherInside.ch otherInside.lun same
  have pl := inside.pl.trans otherInside.pl.symm
  have blk := line.trans otherLine.symm
  obtain ⟨⟨⟨pageCh, pageLun, pagePl⟩, pageBlk⟩, pagePg⟩ := page
  obtain ⟨⟨⟨othCh, othLun, othPl⟩, othBlk⟩, othPg⟩ := other
  dsimp only at ch lun pg pl blk
  rw [ch, lun, pg, pl, blk]

theorem cur_place (sound : Sound c ftl shape hole stale) (ioType : IoType) :
    shape.place (shape.cur (activeOf ioType)) = activeOf ioType :=
  (sound.active ioType _).mpr rfl

theorem active_loose (ioType : IoType) : Loose (activeOf ioType) := by
  unfold activeOf
  split
  · exact .inr (.inl rfl)
  · exact .inl rfl

theorem cur_bound (sound : Sound c ftl shape hole stale) (ioType : IoType) : shape.cur (activeOf ioType) < c.blksPerPl := by
  apply (sound.owned.bound _).mp
  rw [cur_place c ftl shape hole stale sound]
  exact (loose_apart _ (active_loose ioType)).2.2.2

theorem wp_page_facts (sound : Sound c ftl shape hole stale) (rest : AtRest c ftl shape) (ioType : IoType) :
    InDevice c (wpPage (getWp ftl ioType)) ∧ (wpPage (getWp ftl ioType)).block.blk = shape.cur (activeOf ioType) ∧
      wpPage (getWp ftl ioType) ∈ linePages c (shape.cur (activeOf ioType)) ∧ pageStatus ftl (wpPage (getWp ftl ioType)) = .free := by
  have bound := cur_bound c ftl shape hole stale sound ioType
  have standing := standing_page c _ _ bound (sound.standing ioType)
  have member := (mem_line_pages c _ bound _).mpr standing
  refine ⟨standing.1, standing.2, member, ?_⟩
  exact (sound.filled.active ioType _ member).mpr (Nat.le_of_eq (rest ioType))

theorem line_pages_apart (id other : Nat) (page : Page) (bound : id < c.blksPerPl) (member : page ∈ linePages c id)
    (line : page.block.blk = other) : id = other :=
  ((mem_line_pages c id bound page).mp member).2.symm.trans line

end Lines

section Asserts

variable (c : ConvParams) (ftl : ConvFtl) (lpn : Nat) (page : Page) (ioType : IoType)

theorem nvmev_assert_ok (condition : Prop) [Decidable condition] (holds : condition) : nvmevAssert condition = .ok () := if_pos holds

theorem get_new_page_ok (pl : (getWp ftl ioType).pl = 0) : getNewPage ftl ioType = .ok (wpPage (getWp ftl ioType)) := by
  unfold getNewPage
  dsimp only
  rw [nvmev_assert_ok _ pl]
  rfl

theorem set_maptbl_ok (bound : lpn < ttPgs c) :
    setMaptblEnt c ftl lpn page = .ok { ftl with maptbl := Function.update ftl.maptbl lpn (some page) } := by
  unfold setMaptblEnt
  rw [nvmev_assert_ok _ bound]
  rfl

theorem set_rmap_ok (entry : Option Nat) (inside : InDevice c page) :
    setRmapEnt c ftl entry page = .ok { ftl with rmap := Function.update ftl.rmap (ppa2pgidx c page) entry } := by
  unfold setRmapEnt
  rw [nvmev_assert_ok _ (pgidx_bound c page inside)]
  rfl

theorem get_rmap_ok (inside : InDevice c page) : getRmapEnt c ftl page = .ok (ftl.rmap (ppa2pgidx c page)) := by
  unfold getRmapEnt
  rw [nvmev_assert_ok _ (pgidx_bound c page inside)]
  rfl

theorem mark_page_valid_ok (whole : WholeLines c) (place : Nat → Place) (counts : CountSound c ftl place) (inside : InDevice c page)
    (free : pageStatus ftl page = .free) (notOut : place page.block.blk ≠ .out) : markPageValid c ftl page =
      .ok { putBlock ftl page.block { ftl.nand page.block with
              status := Function.update (ftl.nand page.block).status page.pg .valid, vpc := (ftl.nand page.block).vpc + 1 } with
            lm := putLine ftl.lm page.block.blk { ftl.lm.lines page.block.blk with vpc := (ftl.lm.lines page.block.blk).vpc + 1 } } := by
  have inBlock := counted_room _ _ _ _ page ((mem_block_pages c _ _).mpr ⟨rfl, inside.pg⟩) free (counts.block page.block)
  have inLine := counted_room _ _ _ _ page ((mem_line_pages c _ inside.blk _).mpr ⟨inside, rfl⟩) free
    (counts.line _ inside.blk notOut)
  rw [block_pages_card] at inBlock
  rw [line_pages_card, span_whole c whole] at inLine
  have isFree : (ftl.nand page.block).status page.pg = .free := free
  unfold markPageValid
  dsimp only
  rw [nvmev_assert_ok _ isFree, nvmev_assert_ok _ inBlock, nvmev_assert_ok _ inLine]
  rfl

end Asserts

section Fill

variable (c : ConvParams) (ftl : ConvFtl) (shape : Shape) (lpn : Nat) (stale : Page → Prop) (ioType : IoType)

-- What place_page has done when it advances the write pointer.
def filledFtl : ConvFtl :=
  let page := wpPage (getWp ftl ioType)
  let blk := ftl.nand page.block
  let line := ftl.lm.lines page.block.blk
  { putBlock { ftl with maptbl := Function.update ftl.maptbl lpn (some page),
                        rmap := Function.update ftl.rmap (ppa2pgidx c page) (some lpn) } page.block
      { blk with status := Function.update blk.status page.pg .valid, vpc := blk.vpc + 1 } with
    lm := putLine ftl.lm page.block.blk { line with vpc := line.vpc + 1 } }

def useOne : Shape := { shape with used := Function.update shape.used (activeOf ioType) (shape.used (activeOf ioType) + 1) }

theorem filled_status : pageStatus (filledFtl c ftl lpn ioType) = Function.update (pageStatus ftl) (wpPage (getWp ftl ioType)) .valid :=
  put_status _ _ _ _ _ _

theorem filled_sound (sound : Sound c ftl shape (some lpn) stale) (rest : AtRest c ftl shape)
    (bound : lpn < ttPgs c) (fresh : ¬stale (wpPage (getWp ftl ioType))) :
    Sound c (filledFtl c ftl lpn ioType) (useOne shape ioType) none stale := by
  obtain ⟨inside, line, member, free⟩ := wp_page_facts c ftl shape _ stale sound rest ioType
  have status := filled_status c ftl lpn ioType
  have curBound := cur_bound c ftl shape _ stale sound ioType
  have away : ∀ id, id < c.blksPerPl → id ≠ shape.cur (activeOf ioType) → ∀ page ∈ linePages c id,
      pageStatus (filledFtl c ftl lpn ioType) page = pageStatus ftl page := by
    intro id idBound apart page pageMember
    rw [status, Function.update_of_ne]
    rintro rfl
    exact apart (line_pages_apart c id _ _ idBound pageMember line)
  refine ⟨?_, ?_, ?_, sound.active, sound.standing, ?_⟩
  · exact map_fill c ftl _ lpn _ stale sound.maps bound inside free fresh rfl rfl status
  · refine counts_after c ftl _ shape.place shape.place _ .valid sound.counts status ?_ ?_ ?_ ?_ fun _ _ notOut => notOut
    · intro block apart
      exact Function.update_of_ne apart _ _
    · rw [status]
      have counted := sound.counts.block (wpPage (getWp ftl ioType)).block
      have more := counted_valid _ _ _ _ _ ((mem_block_pages c _ _).mpr ⟨rfl, inside.pg⟩) free counted
      have here : (filledFtl c ftl lpn ioType).nand (wpPage (getWp ftl ioType)).block =
          { ftl.nand (wpPage (getWp ftl ioType)).block with
            status := Function.update (ftl.nand (wpPage (getWp ftl ioType)).block).status (wpPage (getWp ftl ioType)).pg .valid,
            vpc := (ftl.nand (wpPage (getWp ftl ioType)).block).vpc + 1 } := Function.update_self ..
      rw [here]
      exact more
    · intro id apart
      have same : (filledFtl c ftl lpn ioType).lm.lines id = ftl.lm.lines id := Function.update_of_ne apart _ _
      rw [same]
      exact ⟨rfl, rfl⟩
    · rw [status]
      have notOut : shape.place (wpPage (getWp ftl ioType)).block.blk ≠ .out := by
        rw [line, cur_place c ftl shape _ stale sound]
        unfold activeOf
        split <;> decide
      have counted := sound.counts.line _ inside.blk notOut
      have more := counted_valid _ _ _ _ _ ((mem_line_pages c _ inside.blk _).mpr ⟨inside, rfl⟩) free counted
      have here : (filledFtl c ftl lpn ioType).lm.lines (wpPage (getWp ftl ioType)).block.blk =
          { ftl.lm.lines (wpPage (getWp ftl ioType)).block.blk with
            vpc := (ftl.lm.lines (wpPage (getWp ftl ioType)).block.blk).vpc + 1 } := Function.update_self ..
      rw [here]
      exact more
  · exact put_line_owned c ftl.lm shape.place shape.free shape.full _ _ sound.owned rfl
  · have standsApart : ∀ id value, shape.place id = value → Loose value = False → id ≠ shape.cur (activeOf ioType) := by
      rintro id value placed notLoose rfl
      rw [cur_place c ftl shape _ stale sound] at placed
      rw [← placed] at notLoose
      exact notLoose ▸ active_loose ioType
    have below : ∀ id value, shape.place id = value → value ≠ .beyond → id < c.blksPerPl :=
      fun id value placed apart => placed_below c _ _ _ _ sound.owned id value placed apart
    refine ⟨?_, ?_, ?_, ?_⟩
    · intro id placed page pageMember
      rw [away id (below id _ placed (by decide)) (standsApart id _ placed (by simp [Loose])) page pageMember]
      exact sound.filled.free id placed page pageMember
    · intro id placed page pageMember
      rw [away id (below id _ placed (by decide)) (standsApart id _ placed (by simp [Loose])) page pageMember]
      exact sound.filled.full id placed page pageMember
    · intro id placed
      have same := away id (below id _ placed (by decide)) (standsApart id _ placed (by simp [Loose]))
      obtain ⟨used, page, pageMember, invalid⟩ := sound.filled.victim id placed
      refine ⟨fun other otherMember => ?_, page, pageMember, ?_⟩
      · rw [same other otherMember]
        exact used other otherMember
      · rw [same page pageMember]
        exact invalid
    · intro other page pageMember
      change page ∈ linePages c (shape.cur (activeOf other)) at pageMember
      by_cases here : activeOf other = activeOf ioType
      · rw [here] at pageMember ⊢
        have before := sound.filled.active ioType page pageMember
        change _ ↔ Function.update shape.used (activeOf ioType) _ (activeOf ioType) ≤ _
        rw [Function.update_self, status]
        by_cases taken : page = wpPage (getWp ftl ioType)
        · rw [taken, Function.update_self, rest ioType]
          have last : ¬(wpIdx c (getWp ftl ioType) + 1 ≤ idxOf c (wpPage (getWp ftl ioType))) := Nat.not_succ_le_self _
          simp only [reduceCtorEq, last]
        · rw [Function.update_of_ne taken, before]
          have apart : idxOf c page ≠ shape.used (activeOf ioType) := by
            rw [rest ioType]
            exact fun same => taken (idx_unique c _ curBound page _ pageMember member same)
          omega
      · have otherBound := cur_bound c ftl shape _ stale sound other
        have apart : shape.cur (activeOf other) ≠ shape.cur (activeOf ioType) := by
          intro same
          have placed := cur_place c ftl shape _ stale sound other
          rw [same, cur_place c ftl shape _ stale sound ioType] at placed
          exact here placed.symm
        rw [away _ otherBound apart page pageMember]
        change _ ↔ Function.update shape.used (activeOf ioType) _ (activeOf other) ≤ _
        rw [Function.update_of_ne here]
        exact sound.filled.active other page pageMember

theorem place_page_run (whole : WholeLines c) (sound : Sound c ftl shape (some lpn) stale) (rest : AtRest c ftl shape)
    (bound : lpn < ttPgs c) : placePage c ftl ioType lpn = (advanceWritePointer c (filledFtl c ftl lpn ioType) ioType >>= fun done =>
      .ok (wpPage (getWp ftl ioType), done)) := by
  obtain ⟨inside, line, member, free⟩ := wp_page_facts c ftl shape _ stale sound rest ioType
  have notOut : shape.place (wpPage (getWp ftl ioType)).block.blk ≠ .out := by
    rw [line, cur_place c ftl shape _ stale sound]
    unfold activeOf
    split <;> decide
  have counts : CountSound c { ftl with maptbl := Function.update ftl.maptbl lpn (some (wpPage (getWp ftl ioType))),
                                        rmap := Function.update ftl.rmap (ppa2pgidx c (wpPage (getWp ftl ioType))) (some lpn) }
    shape.place := ⟨sound.counts.block, sound.counts.line⟩
  have valid := mark_page_valid_ok c _ _ whole _ counts inside free notOut
  unfold placePage
  rw [get_new_page_ok ftl ioType (sound.standing ioType).pl]
  dsimp only [bind, Except.bind]
  rw [set_maptbl_ok c ftl lpn _ bound]
  dsimp only
  rw [set_rmap_ok c _ _ _ inside]
  dsimp only
  rw [valid]
  rfl

end Fill

section Retire

variable (c : ConvParams) (lm : LineMgmt) (place : Nat → Place) (free full : List Nat) (status : Page → PageStatus) (id : Nat)

def Settled (value : Place) : Prop :=
  (value = .full ∧ ∀ page ∈ linePages c id, status page = .valid) ∨
    (value = .victim ∧ (∀ page ∈ linePages c id, status page ≠ .free) ∧ ∃ page ∈ linePages c id, status page = .invalid)

theorem retire_line (whole : WholeLines c) (owned : Owned c lm place free full) (loose : Loose (place id))
    (counted : Counted (linePages c id) status (lm.lines id).vpc (lm.lines id).ipc) (used : ∀ page ∈ linePages c id, status page ≠ .free) :
    ∃ retired value fullNext, retireLine c lm id = .ok retired ∧ Settled c status id value ∧
      Owned c retired (Function.update place id value) free fullNext ∧
      ∀ other, (retired.lines other).vpc = (lm.lines other).vpc ∧ (retired.lines other).ipc = (lm.lines other).ipc := by
  have pair := Tally.census_pair_le (linePages c id) status .valid .invalid (by decide)
  have valid := Tally.census_le (linePages c id) status .valid
  have size : (linePages c id).card = pgsPerLine c := by rw [line_pages_card, span_whole c whole]
  unfold retireLine
  dsimp only
  by_cases all : (lm.lines id).vpc = pgsPerLine c
  · rw [if_pos all]
    have none : (lm.lines id).ipc = 0 := by
      rw [counted.vpc] at all
      rw [counted.ipc]
      omega
    rw [nvmev_assert_ok _ none]
    refine ⟨_, .full, full ++ [id], rfl, .inl ⟨rfl, ?_⟩, add_full_owned c lm place free full id owned loose, fun _ => ⟨rfl, rfl⟩⟩
    apply Tally.census_whole
    rw [counted.vpc] at all
    omega
  · rw [if_neg all]
    have invalid : ∃ page ∈ linePages c id, status page = .invalid := by
      by_contra noneInvalid
      apply all
      rw [counted.vpc, Tally.census_all _ _ _ fun page member => ?_, size]
      cases entry : status page with
      | free => exact absurd entry (used page member)
      | invalid => exact absurd ⟨page, member, entry⟩ noneInvalid
      | valid => rfl
    have below : 0 ≤ (lm.lines id).vpc ∧ (lm.lines id).vpc < pgsPerLine c := by
      rw [counted.vpc] at all ⊢
      omega
    have positive : 0 < (lm.lines id).ipc := by
      obtain ⟨page, member, entry⟩ := invalid
      have some := Tally.census_positive (linePages c id) status page member
      rw [entry] at some
      rw [counted.ipc]
      omega
    rw [nvmev_assert_ok _ below, nvmev_assert_ok _ positive]
    exact ⟨_, .victim, full, rfl, .inr ⟨rfl, used, invalid⟩, insert_victim_owned c lm place free full id owned loose,
      insert_victim_counts lm id⟩

end Retire

section Advance

variable (c : ConvParams) (ftl : ConvFtl) (shape : Shape) (hole : Option Nat) (stale : Page → Prop) (ioType : IoType)

structure KeepsCredits (ftl next : ConvFtl) : Prop where
  writeCredits : next.writeCredits = ftl.writeCredits
  creditsToRefill : next.creditsToRefill = ftl.creditsToRefill
  gcMissed : next.gcMissed = ftl.gcMissed
  creditsWrapped : next.creditsWrapped = ftl.creditsWrapped

structure KeepsData (ftl next : ConvFtl) : Prop where
  nand : next.nand = ftl.nand
  maptbl : next.maptbl = ftl.maptbl
  rmap : next.rmap = ftl.rmap
  credits : KeepsCredits ftl next

def stock : Nat := shape.free.length * pgsPerLine c + (pgsPerLine c - shape.used .user) + (pgsPerLine c - shape.used .gc)

theorem active_of_cases : activeOf ioType = .user ∨ activeOf ioType = .gc := by
  unfold activeOf
  split
  · exact .inr rfl
  · exact .inl rfl

theorem get_put_wp (wpp : WritePointer) (other : IoType) :
    getWp (putWp ftl ioType wpp) other = if activeOf other = activeOf ioType then wpp else getWp ftl other := by
  unfold getWp putWp activeOf
  by_cases here : ioType = .gcIo
  · by_cases there : other = .gcIo
    · rw [if_pos there, if_pos here, if_pos there, if_pos here, if_pos rfl]
    · rw [if_neg there, if_pos here, if_neg there, if_pos here, if_neg (by decide), if_neg there]
  · by_cases there : other = .gcIo
    · rw [if_pos there, if_neg here, if_pos there, if_neg here, if_neg (by decide), if_pos there]
    · rw [if_neg there, if_neg here, if_neg there, if_neg here, if_pos rfl]

theorem put_wp_keeps (lm : LineMgmt) (wpp : WritePointer) :
    KeepsData ftl (putWp { ftl with lm := lm } ioType wpp) ∧ (putWp { ftl with lm := lm } ioType wpp).lm = lm := by
  unfold putWp
  split
  · exact ⟨⟨rfl, rfl, rfl, ⟨rfl, rfl, rfl, rfl⟩⟩, rfl⟩
  · exact ⟨⟨rfl, rfl, rfl, ⟨rfl, rfl, rfl, rfl⟩⟩, rfl⟩

theorem keeps_status (next : ConvFtl) (keeps : KeepsData ftl next) : pageStatus next = pageStatus ftl := by
  unfold pageStatus
  rw [keeps.nand]

theorem step_sound (wpp : WritePointer) (sound : Sound c ftl shape hole stale)
    (standing : Standing c wpp (shape.cur (activeOf ioType))) : Sound c (putWp ftl ioType wpp) shape hole stale := by
  obtain ⟨keeps, lm⟩ := put_wp_keeps ftl ioType ftl.lm wpp
  have status := keeps_status ftl _ keeps
  refine ⟨map_frame c ftl _ hole stale keeps.maptbl keeps.rmap status sound.maps, ⟨?_, ?_⟩, ?_, sound.active, ?_, ?_⟩
  · intro block
    rw [status, keeps.nand]
    exact sound.counts.block block
  · intro id bound notOut
    rw [status, lm]
    exact sound.counts.line id bound notOut
  · rw [lm]
    exact sound.owned
  · intro other
    rw [get_put_wp]
    split
    · rename_i same
      rw [same]
      exact standing
    · exact sound.standing other
  · rw [status]
    exact sound.filled

def handOver (value : Place) (id : Nat) (free full : List Nat) : Shape where
  place := Function.update (Function.update shape.place (shape.cur (activeOf ioType)) value) id (activeOf ioType)
  free := free
  full := full
  cur := Function.update shape.cur (activeOf ioType) id
  used := Function.update shape.used (activeOf ioType) 0

theorem hand_over_place (value : Place) (id : Nat) (free full : List Nat) (other : Nat) :
    (handOver shape ioType value id free full).place other =
      if other = id then activeOf ioType else if other = shape.cur (activeOf ioType) then value else shape.place other := by
  unfold handOver
  dsimp only
  by_cases new : other = id
  · rw [new, Function.update_self, if_pos rfl]
  · rw [Function.update_of_ne new, if_neg new]
    by_cases old : other = shape.cur (activeOf ioType)
    · rw [old, Function.update_self, if_pos rfl]
    · rw [Function.update_of_ne old, if_neg old]

theorem hand_over_filled (value : Place) (id : Nat) (free full : List Nat) (status : Page → PageStatus)
    (settled : Settled c status (shape.cur (activeOf ioType)) value) (wasFree : shape.place id = .free)
    (filled : Filled c status shape.place shape.cur shape.used) :
    Filled c status (handOver shape ioType value id free full).place (handOver shape ioType value id free full).cur
      (handOver shape ioType value id free full).used := by
  have other : ∀ line, ∀ stands : Place, stands = .free ∨ stands = .full ∨ stands = .victim →
      (handOver shape ioType value id free full).place line = stands →
        shape.place line = stands ∨ (line = shape.cur (activeOf ioType) ∧ value = stands) := by
    intro line stands listed placed
    rw [hand_over_place] at placed
    split at placed
    · rcases active_of_cases ioType with user | gc
      · rw [user] at placed
        rcases listed with rfl | rfl | rfl <;> cases placed
      · rw [gc] at placed
        rcases listed with rfl | rfl | rfl <;> cases placed
    · split at placed
      · rename_i old
        exact .inr ⟨old, placed⟩
      · exact .inl placed
  refine ⟨?_, ?_, ?_, ?_⟩
  · intro line placed
    rcases other line .free (.inl rfl) placed with before | ⟨_, new⟩
    · exact filled.free line before
    · rcases settled with ⟨isFull, _⟩ | ⟨isVictim, _⟩
      · cases isFull.symm.trans new
      · cases isVictim.symm.trans new
  · intro line placed
    rcases other line .full (.inr (.inl rfl)) placed with before | ⟨old, new⟩
    · exact filled.full line before
    · rcases settled with ⟨_, all⟩ | ⟨isVictim, _⟩
      · rw [old]
        exact all
      · cases isVictim.symm.trans new
  · intro line placed
    rcases other line .victim (.inr (.inr rfl)) placed with before | ⟨old, new⟩
    · exact filled.victim line before
    · rcases settled with ⟨isFull, _⟩ | ⟨_, all⟩
      · cases isFull.symm.trans new
      · rw [old]
        exact all
  · intro otherIo page member
    unfold handOver at member ⊢
    dsimp only at member ⊢
    by_cases here : activeOf otherIo = activeOf ioType
    · rw [here, Function.update_self] at member
      rw [here, Function.update_self]
      exact ⟨fun _ => Nat.zero_le _, fun _ => filled.free id wasFree page member⟩
    · rw [Function.update_of_ne here] at member ⊢
      exact filled.active otherIo page member

theorem hand_over_active (value : Place) (id : Nat) (free full : List Nat)
    (active : ∀ ioType id, shape.place id = activeOf ioType ↔ id = shape.cur (activeOf ioType))
    (listed : value = .full ∨ value = .victim) (wasFree : shape.place id = .free) (otherIo : IoType) (line : Nat) :
    (handOver shape ioType value id free full).place line = activeOf otherIo ↔
      line = (handOver shape ioType value id free full).cur (activeOf otherIo) := by
  have valueApart : value ≠ activeOf otherIo := by
    rcases active_of_cases otherIo with user | gc
    · rw [user]
      rcases listed with rfl | rfl <;> decide
    · rw [gc]
      rcases listed with rfl | rfl <;> decide
  have freeApart : ∀ otherIo, id ≠ shape.cur (activeOf otherIo) := by
    intro otherIo same
    have stands := (active otherIo id).mpr same
    rw [wasFree] at stands
    rcases active_of_cases otherIo with user | gc
    · rw [user] at stands
      cases stands
    · rw [gc] at stands
      cases stands
  rw [hand_over_place]
  change _ ↔ line = Function.update shape.cur (activeOf ioType) id (activeOf otherIo)
  by_cases here : activeOf otherIo = activeOf ioType
  · rw [here, Function.update_self]
    split
    · rename_i new
      exact ⟨fun _ => new, fun _ => rfl⟩
    · rename_i notNew
      split
      · exact ⟨fun same => absurd (same.trans here.symm) valueApart, fun new => absurd new notNew⟩
      · rename_i notOld
        exact ⟨fun stands => absurd ((active ioType line).mp stands) notOld, fun new => absurd new notNew⟩
  · rw [Function.update_of_ne here]
    split
    · rename_i new
      rw [new]
      exact ⟨fun same => absurd same.symm here, fun same => absurd same (freeApart otherIo)⟩
    · split
      · rename_i old
        rw [old]
        refine ⟨fun same => absurd same valueApart, fun same => ?_⟩
        have stands := (active otherIo _).mpr same
        rw [(active ioType _).mpr rfl] at stands
        exact absurd stands.symm here
      · exact active otherIo line

theorem hand_over_out (value : Place) (id : Nat) (free full : List Nat)
    (active : ∀ ioType id, shape.place id = activeOf ioType ↔ id = shape.cur (activeOf ioType))
    (listed : value = .full ∨ value = .victim) (wasFree : shape.place id = .free) (line : Nat) :
    (handOver shape ioType value id free full).place line = .out ↔ shape.place line = .out := by
  have activeApart : activeOf ioType ≠ .out := by
    rcases active_of_cases ioType with user | gc
    · rw [user]
      decide
    · rw [gc]
      decide
  rw [hand_over_place]
  split
  · rename_i new
    rw [new, wasFree]
    exact ⟨fun same => absurd same activeApart, fun same => nomatch same⟩
  · split
    · rename_i old
      rw [old, (active ioType _).mpr rfl]
      refine ⟨fun same => ?_, fun same => absurd same activeApart⟩
      rcases listed with rfl | rfl <;> cases same
    · exact Iff.rfl

theorem hand_over_stock (value : Place) (id : Nat) (free full : List Nat) (head : shape.free = id :: free)
    (usedUp : shape.used (activeOf ioType) = pgsPerLine c) : stock c (handOver shape ioType value id free full) = stock c shape := by
  unfold stock handOver
  dsimp only
  rw [head, List.length_cons, Nat.add_mul, Nat.one_mul]
  rcases active_of_cases ioType with user | gc
  · rw [user] at usedUp ⊢
    rw [Function.update_self, Function.update_of_ne (by decide), usedUp]
    omega
  · rw [gc] at usedUp ⊢
    rw [Function.update_self, Function.update_of_ne (by decide), usedUp]
    omega

theorem hand_over_sound (sound : Sound c ftl shape hole stale) (value : Place) (id : Nat) (free full : List Nat)
    (lm : LineMgmt) (wpp : WritePointer) (settled : Settled c (pageStatus ftl) (shape.cur (activeOf ioType)) value)
    (wasFree : shape.place id = .free) (owned : Owned c lm (handOver shape ioType value id free full).place free full)
    (counts : ∀ other, (lm.lines other).vpc = (ftl.lm.lines other).vpc ∧ (lm.lines other).ipc = (ftl.lm.lines other).ipc)
    (standing : Standing c wpp id) :
    Sound c (putWp { ftl with lm := lm } ioType wpp) (handOver shape ioType value id free full) hole stale := by
  obtain ⟨keeps, sameLm⟩ := put_wp_keeps ftl ioType lm wpp
  have status : pageStatus (putWp { ftl with lm := lm } ioType wpp) = pageStatus ftl := keeps_status _ _ keeps
  have listed : value = .full ∨ value = .victim := settled.imp And.left And.left
  refine ⟨map_frame c ftl _ hole stale keeps.maptbl keeps.rmap status sound.maps, ⟨?_, ?_⟩, ?_, ?_, ?_, ?_⟩
  · intro block
    rw [status, keeps.nand]
    exact sound.counts.block block
  · intro line bound notOut
    rw [status, sameLm, (counts line).1, (counts line).2]
    exact sound.counts.line line bound
      fun out => notOut ((hand_over_out shape ioType value id free full sound.active listed wasFree line).mpr out)
  · rw [sameLm]
    exact owned
  · exact hand_over_active shape ioType value id free full sound.active listed wasFree
  · intro other
    rw [get_put_wp]
    change Standing c _ (Function.update shape.cur (activeOf ioType) id (activeOf other))
    split
    · rename_i same
      rw [same, Function.update_self]
      exact standing
    · rename_i apart
      rw [Function.update_of_ne apart]
      exact sound.standing other
  · rw [status]
    exact hand_over_filled c shape ioType value id free full _ settled wasFree sound.filled

theorem advance_sound (whole : WholeLines c) (sound : Sound c ftl shape hole stale)
    (here : shape.used (activeOf ioType) = wpIdx c (getWp ftl ioType) + 1)
    (others : ∀ other, activeOf other ≠ activeOf ioType → shape.used (activeOf other) = wpIdx c (getWp ftl other)) :
    (∃ next after, advanceWritePointer c ftl ioType = .ok next ∧ Sound c next after hole stale ∧ AtRest c next after ∧
      KeepsData ftl next ∧ (∀ id, after.place id = .out ↔ shape.place id = .out) ∧ stock c after = stock c shape) ∨
    (advanceWritePointer c ftl ioType = .error .nullDeref ∧ shape.free = [] ∧ shape.used (activeOf ioType) = pgsPerLine c) := by
  have standing := sound.standing ioType
  unfold advanceWritePointer
  dsimp only
  rcases step_write_pointer c (getWp ftl ioType) _ standing with ⟨next, stepped, nextStanding, idx⟩ | ⟨ended, span⟩
  · rw [stepped]
    refine .inl ⟨putWp ftl ioType next, shape, rfl, step_sound c ftl shape hole stale ioType next sound nextStanding, ?_,
      (put_wp_keeps ftl ioType ftl.lm next).1, fun _ => Iff.rfl, rfl⟩
    intro other
    rw [get_put_wp]
    split
    · rename_i same
      rw [same, here, idx]
    · rename_i apart
      exact others other apart
  · rw [ended]
    dsimp only [bind, Except.bind]
    rw [standing.curline]
    dsimp only
    have usedUp : shape.used (activeOf ioType) = pgsPerLine c := by rw [here, span, span_whole c whole]
    have curBound := cur_bound c ftl shape hole stale sound ioType
    have curPlace := cur_place c ftl shape hole stale sound ioType
    have loose : Loose (shape.place (shape.cur (activeOf ioType))) := by
      rw [curPlace]
      exact active_loose ioType
    have notOut : shape.place (shape.cur (activeOf ioType)) ≠ .out := by
      rw [curPlace]
      rcases active_of_cases ioType with user | gc
      · rw [user]
        decide
      · rw [gc]
        decide
    have used : ∀ page ∈ linePages c (shape.cur (activeOf ioType)), pageStatus ftl page ≠ .free := by
      intro page member free
      have after := (sound.filled.active ioType page member).mp free
      obtain ⟨inside, _⟩ := (mem_line_pages c _ curBound page).mp member
      have before := page_idx_bound c _ _ _ inside.ch inside.lun inside.pg
      rw [usedUp, ← span_whole c whole] at after
      exact absurd before (Nat.not_lt.mpr after)
    obtain ⟨retired, value, full, retires, settled, owned, counts⟩ :=
      retire_line c ftl.lm shape.place shape.free shape.full (pageStatus ftl) _ whole sound.owned loose
        (sound.counts.line _ curBound notOut) used
    rw [retires]
    dsimp only
    have blkBound : (getWp ftl ioType).blk < c.blksPerPl := by
      rw [standing.blk]
      exact curBound
    rw [check_addr_ok _ _ blkBound]
    dsimp only
    cases freeList : shape.free with
    | nil =>
        rw [freeList] at owned
        rw [no_free_line c retired _ full owned]
        exact .inr ⟨rfl, rfl, usedUp⟩
    | cons id free =>
        rw [freeList] at owned
        have wasFree := (sound.owned.inFree id).mp (by rw [freeList]; exact List.mem_cons_self ..)
        have idBound := placed_below c _ _ _ _ sound.owned id _ wasFree (by decide)
        obtain ⟨taken, takes, lines, takenOwned⟩ := next_free_line c retired _ free full id (activeOf ioType) owned (active_loose ioType)
        rw [takes]
        dsimp only
        rw [check_addr_ok _ _ idBound]
        dsimp only
        rw [nvmev_assert_ok _ standing.pl]
        refine .inl ⟨_, handOver shape ioType value id free full, rfl, ?_, ?_, ?_, ?_, ?_⟩
        · refine hand_over_sound c ftl shape hole stale ioType sound value id free full taken _ settled wasFree takenOwned ?_ ?_
          · rw [lines]
            exact counts
          · have positive := pgs_per_blk_positive c
            have inside := standing
            exact ⟨rfl, Nat.lt_of_le_of_lt (Nat.zero_le _) inside.ch, Nat.lt_of_le_of_lt (Nat.zero_le _) inside.lun, inside.pl, rfl, positive⟩
        · intro other
          rw [get_put_wp]
          change Function.update shape.used (activeOf ioType) 0 (activeOf other) = _
          split
          · rename_i same
            rw [same, Function.update_self]
            unfold wpIdx pageIdx
            simp
          · rename_i apart
            rw [Function.update_of_ne apart]
            exact others other apart
        · exact (put_wp_keeps ftl ioType taken _).1
        · exact hand_over_out shape ioType value id free full sound.active (settled.imp And.left And.left) wasFree
        · exact hand_over_stock c shape ioType value id free full freeList usedUp

end Advance

section Placed

variable (c : ConvParams) (ftl : ConvFtl) (shape : Shape) (lpn : Nat) (stale : Page → Prop) (ioType : IoType)

structure Placed (next : ConvFtl) (after : Shape) : Prop where
  sound : Sound c next after none stale
  rest : AtRest c next after
  credits : KeepsCredits ftl next
  maptbl : next.maptbl = Function.update ftl.maptbl lpn (some (wpPage (getWp ftl ioType)))
  status : pageStatus next = Function.update (pageStatus ftl) (wpPage (getWp ftl ioType)) .valid
  out : ∀ id, after.place id = .out ↔ shape.place id = .out
  stock : stock c after + 1 = stock c shape

theorem use_one_stock (below : shape.used (activeOf ioType) < pgsPerLine c) : stock c (useOne shape ioType) + 1 = stock c shape := by
  unfold stock useOne
  dsimp only
  rcases active_of_cases ioType with user | gc
  · rw [user] at below ⊢
    rw [Function.update_self, Function.update_of_ne (by decide)]
    omega
  · rw [gc] at below ⊢
    rw [Function.update_self, Function.update_of_ne (by decide)]
    omega

theorem used_below (hole : Option Nat) (whole : WholeLines c) (sound : Sound c ftl shape hole stale) (rest : AtRest c ftl shape) :
    shape.used (activeOf ioType) < pgsPerLine c := by
  have standing := sound.standing ioType
  rw [rest ioType, ← span_whole c whole]
  exact page_idx_bound c _ _ _ standing.ch standing.lun standing.pg

theorem place_page_sound (whole : WholeLines c) (sound : Sound c ftl shape (some lpn) stale) (rest : AtRest c ftl shape)
    (bound : lpn < ttPgs c) (fresh : ¬stale (wpPage (getWp ftl ioType))) :
    (∃ next after, placePage c ftl ioType lpn = .ok (wpPage (getWp ftl ioType), next) ∧
      Placed c ftl shape lpn stale ioType next after) ∨
    (placePage c ftl ioType lpn = .error .nullDeref ∧ shape.free = [] ∧ shape.used (activeOf ioType) + 1 = pgsPerLine c) := by
  rw [place_page_run c ftl shape lpn stale ioType whole sound rest bound]
  have filled := filled_sound c ftl shape lpn stale ioType sound rest bound fresh
  have below := used_below c ftl shape stale ioType _ whole sound rest
  have usedHere : (useOne shape ioType).used (activeOf ioType) = shape.used (activeOf ioType) + 1 := Function.update_self ..
  have here : (useOne shape ioType).used (activeOf ioType) = wpIdx c (getWp (filledFtl c ftl lpn ioType) ioType) + 1 := by
    rw [usedHere, rest ioType]
    rfl
  have others : ∀ other, activeOf other ≠ activeOf ioType →
      (useOne shape ioType).used (activeOf other) = wpIdx c (getWp (filledFtl c ftl lpn ioType) other) := by
    intro other apart
    refine (Function.update_of_ne apart _ _).trans ?_
    exact rest other
  rcases advance_sound c _ _ none stale ioType whole filled here others with
    ⟨next, after, advanced, nextSound, nextRest, keeps, out, stockSame⟩ | ⟨stopped, noFree, usedUp⟩
  · rw [advanced]
    refine .inl ⟨next, after, rfl, nextSound, nextRest, ?_, ?_, ?_, out, ?_⟩
    · exact ⟨keeps.credits.writeCredits, keeps.credits.creditsToRefill, keeps.credits.gcMissed, keeps.credits.creditsWrapped⟩
    · exact keeps.maptbl
    · exact (keeps_status _ next keeps).trans (filled_status c ftl lpn ioType)
    · rw [stockSame]
      exact use_one_stock c shape ioType below
  · rw [stopped]
    exact .inr ⟨rfl, noFree, usedHere.symm.trans usedUp⟩

end Placed

end ConZone.Conv
