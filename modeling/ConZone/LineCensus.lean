import ConZone.LineWalk
import ConZone.ReverseMap
import ConZone.Tally
import Mathlib.Data.Finset.Prod

set_option autoImplicit false

namespace ConZone

section Pages

variable (p : Params)

instance (page : Page) : Decidable (OwnedPage p page) :=
  decidable_of_iff (page.block.plane.ch < p.spp.nchs ∧ page.block.plane.lun < p.spp.lunsPerCh ∧ page.block.plane.pl < p.spp.plsPerLun ∧
      zmsFirstOwnedBlk p ≤ page.block.blk ∧ page.block.blk < zmsFirstOwnedBlk p + ownedRows p ∧ page.pg < usedPgs p.spp page.blk)
    ⟨fun ⟨ch, lun, pl, first, last, pg⟩ => ⟨⟨ch, lun, pl, first, last⟩, pg⟩,
      fun ⟨⟨ch, lun, pl, first, last⟩, pg⟩ => ⟨ch, lun, pl, first, last, pg⟩⟩

def ownedPages : Finset Page :=
  ((Finset.range p.spp.nchs ×ˢ Finset.range p.spp.lunsPerCh ×ˢ Finset.range p.spp.plsPerLun ×ˢ
      Finset.range (zmsFirstOwnedBlk p + ownedRows p) ×ˢ Finset.range (max p.spp.pslcPgsPerBlk p.spp.pgsPerBlk)).image
    fun place => mkPage place.1 place.2.1 place.2.2.1 place.2.2.2.1 place.2.2.2.2).filter (OwnedPage p)

def pagesIn (ref : LineRef) : Finset Page := (ownedPages p).filter fun page => getLine p page = ref

def pagesOf (block : Block) : Finset Page := (ownedPages p).filter fun page => page.block = block

theorem used_pgs_bound (blk : Nat) : usedPgs p.spp blk ≤ max p.spp.pslcPgsPerBlk p.spp.pgsPerBlk := by
  unfold usedPgs
  split
  · exact Nat.le_max_left _ _
  · exact Nat.le_max_right _ _

theorem mem_owned_pages (page : Page) : page ∈ ownedPages p ↔ OwnedPage p page := by
  unfold ownedPages
  rw [Finset.mem_filter, and_iff_right_iff_imp]
  intro owned
  have pg := Nat.lt_of_lt_of_le owned.pg (used_pgs_bound p page.blk)
  refine Finset.mem_image.mpr ⟨(page.ch, page.lun, page.pl, page.blk, page.pg), ?_, rfl⟩
  simp only [Finset.mem_product, Finset.mem_range]
  exact ⟨owned.block.ch, owned.block.lun, owned.block.pl, owned.block.last, pg⟩

theorem mem_pages_in (ref : LineRef) (page : Page) : page ∈ pagesIn p ref ↔ OwnedPage p page ∧ getLine p page = ref := by
  unfold pagesIn
  rw [Finset.mem_filter, mem_owned_pages]

theorem mem_pages_of (block : Block) (page : Page) : page ∈ pagesOf p block ↔ OwnedPage p page ∧ page.block = block := by
  unfold pagesOf
  rw [Finset.mem_filter, mem_owned_pages]

theorem pages_of_card (block : Block) (owned : OwnedBlock p block) : (pagesOf p block).card = usedPgs p.spp block.blk := by
  have all : pagesOf p block = (Finset.range (usedPgs p.spp block.blk)).image fun pg => (⟨block, pg⟩ : Page) := by
    ext page
    rw [mem_pages_of, Finset.mem_image]
    constructor
    · rintro ⟨inside, rfl⟩
      exact ⟨page.pg, Finset.mem_range.mpr inside.pg, rfl⟩
    · rintro ⟨pg, bound, rfl⟩
      exact ⟨⟨owned, Finset.mem_range.mp bound⟩, rfl⟩
  rw [all, Finset.card_image_of_injective _ fun pg other same => congrArg Page.pg same, Finset.card_range]

end Pages

section Places

variable (p : Params) (rows : RowGeometry p.spp)

theorem get_line_pg (block : Block) (pg other : Nat) : getLine p ⟨block, pg⟩ = getLine p ⟨block, other⟩ := rfl

include rows in
theorem owned_line (page : Page) (owned : OwnedPage p page) :
    getLine p page = if lmidOf p page.block < interleaveSline p then .sub (lmidOf p page.block) (slotOf p page.block)
      else .line (lmidOf p page.block) :=
  get_line_of_block p rows.toGroupRows page.block page.pg owned.block.ch

include rows in
theorem step_place (page next : Page) (owned : OwnedPage p page) (stepped : lineStep p page page = some next) :
    placeIn p next = placeIn p page + 1 := by
  have geometry := rows.toGeometry
  have digits := owned_digits p page owned
  have line := step_line p rows page next owned stepped
  unfold placeIn
  rw [line]
  unfold lineStep at stepped
  cases superblock : isSuperblock (getLine p page) with
  | true =>
      rw [superblock, if_pos rfl] at stepped
      have whole := rows.flashpgs page.blk
      have inside := place_of_inside p geometry.toGroupRows rows.flash page digits.ch digits.pl whole digits.pg
      have walk := next_place p geometry.toGroupRows rows.flash (page.lun / rowsPerLine p.spp) page.blk (rowPlace p page) whole inside
      have same := page_at_place p geometry.toGroupRows rows.flash page digits.ch digits.pl
      unfold rowBase at same
      rw [same, stepped] at walk
      simp only [if_true]
      by_cases more : rowPlace p page + 1 < rowPages p page.blk
      · rw [if_pos more] at walk
        rw [Option.some.inj walk]
        exact place_of_page_at p geometry.toGroupRows rows.flash _ _ _
      · rw [if_neg more] at walk
        cases walk
  | false =>
      rw [superblock, if_neg Bool.false_ne_true] at stepped
      unfold nextpageNormal at stepped
      split at stepped
      · rw [← Option.some.inj stepped]
        rfl
      · cases stepped

include rows in
theorem walk_place (count : Nat) (page there : Page) (owned : OwnedPage p page) (medium : Medium p)
    (walked : Walk.advance (lineStep p page) count page = some there) :
    OwnedPage p there ∧ getLine p there = getLine p page ∧ placeIn p there = placeIn p page + count := by
  induction count generalizing there with
  | zero =>
      rw [← Option.some.inj walked]
      exact ⟨owned, rfl, rfl⟩
  | succ count ih =>
      rw [Walk.advance_succ, Option.bind_eq_some_iff] at walked
      obtain ⟨before, reached, stepped⟩ := walked
      obtain ⟨inside, line, place⟩ := ih before reached
      rw [← line_step_same p page before line] at stepped
      refine ⟨step_owned p medium before there inside stepped, ?_, ?_⟩
      · rw [step_line p rows before there inside stepped, line]
      · rw [step_place p rows before there inside stepped, place, Nat.add_assoc]

include rows in
theorem place_unique (page other : Page) (owned : OwnedPage p page) (otherOwned : OwnedPage p other)
    (line : getLine p page = getLine p other) (place : placeIn p page = placeIn p other) : page = other := by
  have geometry := rows.toGeometry
  have first := owned_line p rows page owned
  have second := owned_line p rows other otherOwned
  unfold placeIn at place
  rw [line] at place
  by_cases split : lmidOf p page.block < interleaveSline p
  · rw [if_pos split] at first
    by_cases otherSplit : lmidOf p other.block < interleaveSline p
    · rw [if_pos otherSplit] at second
      rw [← line, first] at second place
      obtain ⟨lmid, slot⟩ := LineRef.sub.inj second
      have block := slot_determines p geometry page.block other.block owned.block otherOwned.block lmid slot
      obtain ⟨pageBlock, pagePg⟩ := page
      obtain ⟨otherBlock, otherPg⟩ := other
      dsimp only at block
      have pg : pagePg = otherPg := place
      rw [block, pg]
    · rw [if_neg otherSplit, ← line, first] at second
      cases second
  · rw [if_neg split] at first
    by_cases otherSplit : lmidOf p other.block < interleaveSline p
    · rw [if_pos otherSplit, ← line, first] at second
      cases second
    · rw [if_neg otherSplit] at second
      rw [← line, first] at second place
      have lmid := LineRef.line.inj second
      obtain ⟨blk, group⟩ := (line_of_lmid p geometry page.block owned.block _).mp lmid
      obtain ⟨otherBlk, otherGroup⟩ := (line_of_lmid p geometry other.block otherOwned.block _).mp rfl
      have here := page_at_place p geometry.toGroupRows rows.flash page owned.block.ch owned.block.pl
      have there := page_at_place p geometry.toGroupRows rows.flash other otherOwned.block.ch otherOwned.block.pl
      have rowPlaces : rowPlace p page = rowPlace p other := place
      have base : rowBase p page = rowBase p other := by
        unfold rowBase
        rw [show page.lun / rowsPerLine p.spp = other.lun / rowsPerLine p.spp from group.trans otherGroup.symm]
      rw [← here, ← there, base, rowPlaces, show page.blk = other.blk from blk.trans otherBlk.symm]

variable (medium : Medium p) (sizes : UnitSizes p) (flat : p.spp.plsPerLun = 1)

include rows medium flat in
theorem first_page_in_line (ref : LineRef) (listed : ref ∈ lineRefs p) : getLine p (getFirstPage p ref) = ref := by
  have geometry := rows.toGeometry
  have owned := first_page_owned p medium ref (line_refs_known p ref listed)
  obtain ⟨kind, top⟩ := first_page_line p rows ref listed owned
  have line := owned_line p rows _ owned
  cases ref with
  | line id =>
      cases found : getLine p (getFirstPage p (.line id)) with
      | line other =>
          rw [found] at top
          exact congrArg LineRef.line top
      | sub => rw [found] at kind; cases kind
  | sub parent id =>
      cases found : getLine p (getFirstPage p (.sub parent id)) with
      | line => rw [found] at kind; cases kind
      | sub other slot =>
          rw [found] at top line
          have same : other = parent := top
          have bound := ((mem_line_refs p (.sub parent id)).mp listed).2.2
          rw [geometry.blocks, ← geometry.group, flat, Nat.mul_one] at bound
          split at line
          · obtain ⟨_, slotSame⟩ := LineRef.sub.inj line
            rw [same, slotSame]
            congr 1
            rw [first_page_slot p geometry.toGroupRows, flat, Nat.mul_one, Nat.mod_eq_of_lt bound, Nat.mod_one, Nat.add_zero]
          · cases line

include rows medium sizes flat in
theorem pages_below_card (ref : LineRef) (listed : ref ∈ lineRefs p) (bound : Nat) (inLine : bound ≤ pgsPerLineOf p ref) :
    ((pagesIn p ref).filter fun page => placeIn p page < bound).card = bound := by
  have owned := first_page_owned p medium ref (line_refs_known p ref listed)
  have line := first_page_in_line p rows medium flat ref listed
  have start := first_page_place p rows ref listed owned
  rw [first_page_size p rows medium sizes ref listed] at inLine
  refine Finset.card_nbij (placeIn p) (t := Finset.range bound) ?_ ?_ ?_ |>.trans (Finset.card_range _)
  · intro page member
    exact Finset.mem_range.mpr (Finset.mem_filter.mp member).2
  · intro page member other otherMember same
    obtain ⟨inside, pageLine⟩ := (mem_pages_in p ref page).mp (Finset.mem_filter.mp member).1
    obtain ⟨otherInside, otherLine⟩ := (mem_pages_in p ref other).mp (Finset.mem_filter.mp otherMember).1
    exact place_unique p rows page other inside otherInside (pageLine.trans otherLine.symm) same
  · intro place member
    have inside := Finset.mem_range.mp member
    obtain ⟨there, walked, _⟩ := walk_in_line p rows _ owned place (by rw [start]; omega)
    obtain ⟨reached, same, placed⟩ := walk_place p rows place _ there owned medium walked
    rw [start, Nat.zero_add] at placed
    refine ⟨there, Finset.mem_filter.mpr ⟨(mem_pages_in p ref there).mpr ⟨reached, same.trans line⟩, ?_⟩, placed⟩
    rw [placed]
    exact inside

include rows sizes in
theorem page_in_line (ref : LineRef) (page : Page) (member : page ∈ pagesIn p ref) : placeIn p page < pgsPerLineOf p ref := by
  obtain ⟨inside, same⟩ := (mem_pages_in p ref page).mp member
  have bound := place_in_line p rows page inside
  rwa [← sizes.size page inside, same] at bound

include rows medium sizes flat in
theorem pages_in_card (ref : LineRef) (listed : ref ∈ lineRefs p) : (pagesIn p ref).card = pgsPerLineOf p ref := by
  have all := pages_below_card p rows medium sizes flat ref listed _ (Nat.le_refl _)
  rwa [Finset.filter_true_of_mem fun page member => page_in_line p rows sizes ref page member] at all

end Places

end ConZone
