import ConZone.Conv
import ConZone.Radix
import ConZone.Tally
import Mathlib.Data.Finset.Prod

set_option autoImplicit false

namespace ConZone.Conv

-- A line takes the blocks of all LUNs, as the write pointer goes through them.
def WholeLines (c : ConvParams) : Prop := c.lineGroups = 1

section Numbering

variable (c : ConvParams)

structure InDevice (page : Page) : Prop where
  ch : page.block.plane.ch < c.nchs
  lun : page.block.plane.lun < c.lunsPerCh
  pl : page.block.plane.pl = 0
  blk : page.block.blk < c.blksPerPl
  pg : page.pg < pgsPerBlk c

theorem oneshot_positive : 0 < pgsPerOneshotpg c := Nat.pos_of_mul_pos_left c.pagesPositive

theorem pgs_per_blk_positive : 0 < pgsPerBlk c := c.pagesPositive

-- The pages of a line in all LUNs.
def spanPages : Nat := c.nchs * c.lunsPerCh * pgsPerBlk c

theorem span_groups : spanPages c = c.lineGroups * pgsPerLine c := by
  unfold spanPages pgsPerLine
  rw [c.groupsWhole, Nat.mul_assoc]

theorem span_whole (whole : WholeLines c) : spanPages c = pgsPerLine c := by
  rw [span_groups, show c.lineGroups = 1 from whole, Nat.one_mul]

theorem lines_whole (whole : WholeLines c) : ttLines c = c.blksPerPl := by
  unfold ttLines
  rw [show c.lineGroups = 1 from whole, Nat.mul_one]

def pageIdx (ch lun pg : Nat) : Nat :=
  ((pg / pgsPerOneshotpg c * c.lunsPerCh + lun) * c.nchs + ch) * pgsPerOneshotpg c + pg % pgsPerOneshotpg c

theorem page_idx_bound (ch lun pg : Nat) (chBound : ch < c.nchs) (lunBound : lun < c.lunsPerCh) (pgBound : pg < pgsPerBlk c) :
    pageIdx c ch lun pg < spanPages c := by
  have high := Radix.digit_bound pg c.oneshotpgsPerBlk (pgsPerOneshotpg c) pgBound
  have low := Nat.mod_lt pg (oneshot_positive c)
  have first := Radix.pair_bound _ lun _ c.lunsPerCh high lunBound
  have second := Radix.pair_bound _ ch _ c.nchs first chBound
  have third := Radix.pair_bound _ (pg % pgsPerOneshotpg c) _ (pgsPerOneshotpg c) second low
  have span : spanPages c = c.oneshotpgsPerBlk * c.lunsPerCh * c.nchs * pgsPerOneshotpg c := by
    unfold spanPages pgsPerBlk
    ring
  rw [span]
  exact third

theorem page_idx_unique (ch lun pg otherCh otherLun otherPg : Nat) (chBound : ch < c.nchs) (lunBound : lun < c.lunsPerCh)
    (otherChBound : otherCh < c.nchs) (otherLunBound : otherLun < c.lunsPerCh)
    (same : pageIdx c ch lun pg = pageIdx c otherCh otherLun otherPg) : ch = otherCh ∧ lun = otherLun ∧ pg = otherPg := by
  have positive := oneshot_positive c
  obtain ⟨high, low⟩ := Radix.pair_unique _ _ _ _ _ (Nat.mod_lt pg positive) (Nat.mod_lt otherPg positive) same
  obtain ⟨high, channel⟩ := Radix.pair_unique _ _ _ _ _ chBound otherChBound high
  obtain ⟨high, lunSame⟩ := Radix.pair_unique _ _ _ _ _ lunBound otherLunBound high
  refine ⟨channel, lunSame, ?_⟩
  rw [← Radix.digits pg (pgsPerOneshotpg c), ← Radix.digits otherPg (pgsPerOneshotpg c), high, low]

theorem pgidx_digits (page : Page) (inside : InDevice c page) : ppa2pgidx c page =
    ((page.block.plane.ch * c.lunsPerCh + page.block.plane.lun) * c.blksPerPl + page.block.blk) * pgsPerBlk c + page.pg := by
  unfold ppa2pgidx pgsPerCh pgsPerLun pgsPerPl
  rw [inside.pl]
  ring

theorem pgidx_bound (page : Page) (inside : InDevice c page) : ppa2pgidx c page < ttPgs c := by
  have first := Radix.pair_bound _ _ _ c.lunsPerCh inside.ch inside.lun
  have second := Radix.pair_bound _ _ _ c.blksPerPl first inside.blk
  have third := Radix.pair_bound _ _ _ (pgsPerBlk c) second inside.pg
  have total : ttPgs c = c.nchs * c.lunsPerCh * c.blksPerPl * pgsPerBlk c := by
    unfold ttPgs pgsPerCh pgsPerLun pgsPerPl
    ring
  rw [pgidx_digits c page inside, total]
  exact third

theorem pgidx_unique (page other : Page) (inside : InDevice c page) (otherInside : InDevice c other)
    (same : ppa2pgidx c page = ppa2pgidx c other) : page = other := by
  rw [pgidx_digits c page inside, pgidx_digits c other otherInside] at same
  obtain ⟨same, pg⟩ := Radix.pair_unique _ _ _ _ _ inside.pg otherInside.pg same
  obtain ⟨same, blk⟩ := Radix.pair_unique _ _ _ _ _ inside.blk otherInside.blk same
  obtain ⟨ch, lun⟩ := Radix.pair_unique _ _ _ _ _ inside.lun otherInside.lun same
  obtain ⟨⟨⟨pageCh, pageLun, pagePl⟩, pageBlk⟩, pagePg⟩ := page
  obtain ⟨⟨⟨othCh, othLun, othPl⟩, othBlk⟩, othPg⟩ := other
  have pl : pagePl = othPl := inside.pl.trans otherInside.pl.symm
  dsimp only at pg blk ch lun
  rw [pg, blk, ch, lun, pl]

end Numbering

section Pages

variable (c : ConvParams)

def blockPages (block : Block) : Finset Page := (Finset.range (pgsPerBlk c)).image fun pg => ⟨block, pg⟩

def linePages (id : Nat) : Finset Page :=
  (Finset.range c.nchs ×ˢ Finset.range c.lunsPerCh ×ˢ Finset.range (pgsPerBlk c)).image
    fun place => ⟨⟨⟨place.1, place.2.1, 0⟩, id⟩, place.2.2⟩

theorem mem_block_pages (block : Block) (page : Page) : page ∈ blockPages c block ↔ page.block = block ∧ page.pg < pgsPerBlk c := by
  unfold blockPages
  rw [Finset.mem_image]
  constructor
  · rintro ⟨pg, bound, rfl⟩
    exact ⟨rfl, Finset.mem_range.mp bound⟩
  · rintro ⟨rfl, bound⟩
    exact ⟨page.pg, Finset.mem_range.mpr bound, rfl⟩

theorem mem_line_pages (id : Nat) (bound : id < c.blksPerPl) (page : Page) :
    page ∈ linePages c id ↔ InDevice c page ∧ page.block.blk = id := by
  unfold linePages
  rw [Finset.mem_image]
  constructor
  · rintro ⟨⟨ch, lun, pg⟩, place, rfl⟩
    simp only [Finset.mem_product, Finset.mem_range] at place
    exact ⟨⟨place.1, place.2.1, rfl, bound, place.2.2⟩, rfl⟩
  · rintro ⟨inside, rfl⟩
    refine ⟨(page.block.plane.ch, page.block.plane.lun, page.pg), ?_, ?_⟩
    · simp only [Finset.mem_product, Finset.mem_range]
      exact ⟨inside.ch, inside.lun, inside.pg⟩
    · obtain ⟨⟨⟨ch, lun, pl⟩, blk⟩, pg⟩ := page
      have flat : pl = 0 := inside.pl
      rw [flat]

theorem line_pages_card (id : Nat) : (linePages c id).card = spanPages c := by
  unfold linePages
  rw [Finset.card_image_of_injective]
  · simp only [Finset.card_product, Finset.card_range]
    unfold spanPages
    ring
  · rintro ⟨ch, lun, pg⟩ ⟨otherCh, otherLun, otherPg⟩ same
    simp only [Page.mk.injEq, Block.mk.injEq, Plane.mk.injEq] at same
    obtain ⟨⟨⟨rfl, rfl, _⟩, _⟩, rfl⟩ := same
    rfl

theorem block_pages_card (block : Block) : (blockPages c block).card = pgsPerBlk c := by
  unfold blockPages
  rw [Finset.card_image_of_injective, Finset.card_range]
  intro pg other same
  exact congrArg Page.pg same

end Pages

section Pointers

variable (c : ConvParams)

structure Standing (wpp : WritePointer) (id : Nat) : Prop where
  curline : wpp.curline = some id
  ch : wpp.ch < c.nchs
  lun : wpp.lun < c.lunsPerCh
  pl : wpp.pl = 0
  blk : wpp.blk = id
  pg : wpp.pg < pgsPerBlk c

def wpPage (wpp : WritePointer) : Page := ⟨⟨⟨wpp.ch, wpp.lun, wpp.pl⟩, wpp.blk⟩, wpp.pg⟩

def wpIdx (wpp : WritePointer) : Nat := pageIdx c wpp.ch wpp.lun wpp.pg

def idxOf (page : Page) : Nat := pageIdx c page.block.plane.ch page.block.plane.lun page.pg

theorem standing_page (wpp : WritePointer) (id : Nat) (bound : id < c.blksPerPl) (standing : Standing c wpp id) :
    InDevice c (wpPage wpp) ∧ (wpPage wpp).block.blk = id :=
  ⟨⟨standing.ch, standing.lun, standing.pl, by rw [← standing.blk] at bound; exact bound, standing.pg⟩, standing.blk⟩

theorem check_addr_ok (a max : Nat) (bound : a < max) : checkAddr a max = .ok () := if_pos bound

theorem step_write_pointer (wpp : WritePointer) (id : Nat) (standing : Standing c wpp id) :
    (∃ next, stepWritePointer c wpp = .ok (some next) ∧ Standing c next id ∧ wpIdx c next = wpIdx c wpp + 1) ∨
      (stepWritePointer c wpp = .ok none ∧ wpIdx c wpp + 1 = spanPages c) := by
  have positive := oneshot_positive c
  unfold stepWritePointer
  rw [check_addr_ok _ _ standing.pg, check_addr_ok _ _ standing.ch, check_addr_ok _ _ standing.lun]
  simp only [bind, Except.bind, pure, Except.pure]
  unfold wpIdx pageIdx
  by_cases inner : wpp.pg % pgsPerOneshotpg c + 1 = pgsPerOneshotpg c
  · obtain ⟨carried, cleared⟩ := Radix.succ_carry _ _ inner
    have back : wpp.pg + 1 - pgsPerOneshotpg c = wpp.pg / pgsPerOneshotpg c * pgsPerOneshotpg c + 0 := by
      have parts := Radix.digits wpp.pg (pgsPerOneshotpg c)
      omega
    have high : (wpp.pg + 1 - pgsPerOneshotpg c) / pgsPerOneshotpg c = wpp.pg / pgsPerOneshotpg c := by
      rw [back, Radix.div_digit _ _ _ positive]
    have low : (wpp.pg + 1 - pgsPerOneshotpg c) % pgsPerOneshotpg c = 0 := by
      rw [back, Radix.mod_digit _ _ _ positive]
    have short : wpp.pg + 1 - pgsPerOneshotpg c < pgsPerBlk c := by
      have bound := standing.pg
      omega
    rw [if_neg (not_not.mpr cleared)]
    split
    · rename_i more
      refine .inl ⟨_, rfl, ⟨standing.curline, ?_, standing.lun, standing.pl, standing.blk, ?_⟩, ?_⟩
      · have bound := standing.ch
        dsimp only
        omega
      · exact short
      · dsimp only
        rw [high, low, ← Nat.add_assoc, Nat.add_mul, Nat.one_mul]
        omega
    · rename_i lastCh
      have chEnd : wpp.ch + 1 = c.nchs := not_not.mp lastCh
      split
      · rename_i more
        refine .inl ⟨_, rfl, ⟨standing.curline, ?_, ?_, standing.pl, standing.blk, ?_⟩, ?_⟩
        · have bound := standing.ch
          dsimp only
          omega
        · have bound := standing.lun
          dsimp only
          omega
        · exact short
        · dsimp only
          rw [high, low, ← Nat.add_assoc]
          have turn : (wpp.pg / pgsPerOneshotpg c * c.lunsPerCh + wpp.lun + 1) * c.nchs + 0 =
              (wpp.pg / pgsPerOneshotpg c * c.lunsPerCh + wpp.lun) * c.nchs + wpp.ch + 1 := by
            rw [Nat.add_mul _ 1, Nat.one_mul]
            omega
          rw [turn, Nat.add_mul _ 1, Nat.one_mul]
          omega
      · rename_i lastLun
        have lunEnd : wpp.lun + 1 = c.lunsPerCh := not_not.mp lastLun
        have forth : wpp.pg + 1 - pgsPerOneshotpg c + pgsPerOneshotpg c = wpp.pg + 1 := by
          have parts := Nat.mod_le wpp.pg (pgsPerOneshotpg c)
          omega
        have turn : (wpp.pg / pgsPerOneshotpg c + 1) * c.lunsPerCh * c.nchs =
            (wpp.pg / pgsPerOneshotpg c * c.lunsPerCh + wpp.lun) * c.nchs + wpp.ch + 1 := by
          have inner : (wpp.pg / pgsPerOneshotpg c + 1) * c.lunsPerCh = wpp.pg / pgsPerOneshotpg c * c.lunsPerCh + wpp.lun + 1 := by
            rw [Nat.add_mul, Nat.one_mul]
            omega
          rw [inner, Nat.add_mul _ 1, Nat.one_mul]
          omega
        have whole : ((wpp.pg / pgsPerOneshotpg c * c.lunsPerCh + wpp.lun) * c.nchs + wpp.ch) * pgsPerOneshotpg c +
            wpp.pg % pgsPerOneshotpg c + 1 = (wpp.pg / pgsPerOneshotpg c + 1) * c.lunsPerCh * c.nchs * pgsPerOneshotpg c := by
          rw [turn, Nat.add_mul _ 1, Nat.one_mul]
          omega
        rw [forth]
        split
        · rename_i more
          refine .inl ⟨_, rfl, ⟨standing.curline, ?_, ?_, standing.pl, standing.blk, ?_⟩, ?_⟩
          · have bound := standing.ch
            dsimp only
            omega
          · have bound := standing.lun
            dsimp only
            omega
          · have bound := standing.pg
            dsimp only
            omega
          · dsimp only
            rw [carried, cleared, whole]
            rfl
        · rename_i lastPg
          have pgEnd : wpp.pg + 1 = pgsPerBlk c := not_not.mp lastPg
          refine .inr ⟨rfl, ?_⟩
          have rounds : wpp.pg / pgsPerOneshotpg c + 1 = c.oneshotpgsPerBlk := by
            rw [← carried, pgEnd]
            exact Nat.mul_div_cancel _ positive
          rw [whole, rounds]
          unfold spanPages pgsPerBlk
          ring
  · obtain ⟨same, next⟩ := Radix.succ_inner _ _ inner positive
    have open' : (wpp.pg + 1) % pgsPerOneshotpg c ≠ 0 := by omega
    rw [if_pos open']
    refine .inl ⟨_, rfl, ⟨standing.curline, standing.ch, standing.lun, standing.pl, standing.blk, ?_⟩, ?_⟩
    · have bound := standing.pg
      have notLast : wpp.pg + 1 ≠ pgsPerBlk c := by
        intro last
        rw [last] at open'
        exact open' (Nat.mul_mod_left _ _)
      dsimp only
      omega
    · dsimp only
      rw [same, next]
      omega

end Pointers

end ConZone.Conv
