import ConZone.PageIndex
import ConZone.Walk

set_option autoImplicit false

namespace ConZone

section Places

variable (p : Params)

-- The place of a page among those of its superblock line, in the order in which
-- they are visited, and the page at a place of the LUN rows from base on.
def rowPlace (page : Page) : Nat :=
  (((page.pg / p.spp.pgsPerFlashpg * rowsPerLine p.spp + page.lun % rowsPerLine p.spp) * p.spp.nchs + page.ch) * p.spp.plsPerLun
    + page.pl) * p.spp.pgsPerFlashpg + page.pg % p.spp.pgsPerFlashpg

def pageAt (base blk place : Nat) : Page :=
  let flashPages := place / p.spp.pgsPerFlashpg
  let planes := flashPages / p.spp.plsPerLun
  let channels := planes / p.spp.nchs
  mkPage (planes % p.spp.nchs) (base + channels % rowsPerLine p.spp) (flashPages % p.spp.plsPerLun) blk
    (channels / rowsPerLine p.spp * p.spp.pgsPerFlashpg + place % p.spp.pgsPerFlashpg)

def rowBase (page : Page) : Nat := page.lun / rowsPerLine p.spp * rowsPerLine p.spp

def rowPages (blk : Nat) : Nat := usedPgs p.spp blk * (rowsPerLine p.spp * p.spp.nchs * p.spp.plsPerLun)

theorem page_at_line (id place : Nat) :
    pageAt p (id % p.spp.lineGroups * rowsPerLine p.spp) (lmid2Blkid p (.line id)) place = linePage p id place := rfl

variable (geometry : GroupRows p.spp) (flash : 0 < p.spp.pgsPerFlashpg)

include geometry flash in
theorem page_at_place (page : Page) (ch : page.ch < p.spp.nchs) (pl : page.pl < p.spp.plsPerLun) :
    pageAt p (rowBase p page) page.blk (rowPlace p page) = page := by
  have low := Nat.mod_lt page.pg flash
  have row := Nat.mod_lt page.lun geometry.rows
  unfold pageAt rowPlace rowBase
  dsimp only
  rw [Radix.div_digit _ _ _ low, Radix.mod_digit _ _ _ low, Radix.div_digit _ _ _ pl, Radix.mod_digit _ _ _ pl,
    Radix.div_digit _ _ _ ch, Radix.mod_digit _ _ _ ch, Radix.div_digit _ _ _ row, Radix.mod_digit _ _ _ row,
    Radix.digits, Radix.digits]
  rfl

include geometry flash in
theorem place_of_page_at (group blk place : Nat) :
    rowPlace p (pageAt p (group * rowsPerLine p.spp) blk place) = place := by
  have low := Nat.mod_lt place flash
  have row := Nat.mod_lt (place / p.spp.pgsPerFlashpg / p.spp.plsPerLun / p.spp.nchs) geometry.rows
  unfold rowPlace pageAt
  simp only [mkPage, Page.ch, Page.lun, Page.pl]
  rw [Radix.div_digit _ _ _ low, Radix.mod_digit _ _ _ low, Radix.mod_digit _ _ _ row, Radix.digits, Radix.digits,
    Radix.digits, Radix.digits]

include flash in
theorem page_at_pg (base blk place : Nat) :
    (pageAt p base blk place).pg / p.spp.pgsPerFlashpg =
        place / p.spp.pgsPerFlashpg / p.spp.plsPerLun / p.spp.nchs / rowsPerLine p.spp ∧
      (pageAt p base blk place).pg % p.spp.pgsPerFlashpg = place % p.spp.pgsPerFlashpg := by
  have low := Nat.mod_lt place flash
  exact ⟨Radix.div_digit _ _ _ low, Radix.mod_digit _ _ _ low⟩

theorem row_pages_digits (blk : Nat) (whole : p.spp.pgsPerFlashpg ∣ usedPgs p.spp blk) :
    rowPages p blk =
      usedPgs p.spp blk / p.spp.pgsPerFlashpg * rowsPerLine p.spp * p.spp.nchs * p.spp.plsPerLun * p.spp.pgsPerFlashpg := by
  unfold rowPages
  conv_lhs => rw [← Nat.div_mul_cancel whole]
  ring

theorem place_digit_bounds (blk place : Nat) (whole : p.spp.pgsPerFlashpg ∣ usedPgs p.spp blk) (inside : place < rowPages p blk) :
    place / p.spp.pgsPerFlashpg / p.spp.plsPerLun / p.spp.nchs / rowsPerLine p.spp < usedPgs p.spp blk / p.spp.pgsPerFlashpg := by
  rw [row_pages_digits p blk whole] at inside
  have planes := Radix.digit_bound _ _ _ inside
  have channels := Radix.digit_bound _ _ _ planes
  have rows := Radix.digit_bound _ _ _ channels
  exact Radix.digit_bound _ _ _ rows

include flash in
theorem page_at_inside (base blk place : Nat) (whole : p.spp.pgsPerFlashpg ∣ usedPgs p.spp blk) (inside : place < rowPages p blk) :
    (pageAt p base blk place).pg < usedPgs p.spp blk := by
  have high := place_digit_bounds p blk place whole inside
  have bound := Radix.pair_bound _ _ _ _ high (Nat.mod_lt place flash)
  rw [Nat.div_mul_cancel whole] at bound
  exact bound

include geometry flash in
theorem place_of_inside (page : Page) (ch : page.ch < p.spp.nchs) (pl : page.pl < p.spp.plsPerLun)
    (whole : p.spp.pgsPerFlashpg ∣ usedPgs p.spp page.blk) (pg : page.pg < usedPgs p.spp page.blk) :
    rowPlace p page < rowPages p page.blk := by
  have high : page.pg / p.spp.pgsPerFlashpg < usedPgs p.spp page.blk / p.spp.pgsPerFlashpg := by
    rw [← Nat.div_mul_cancel whole] at pg
    exact Radix.digit_bound _ _ _ pg
  rw [row_pages_digits p page.blk whole]
  have rows := Radix.pair_bound _ _ _ _ high (Nat.mod_lt page.lun geometry.rows)
  have channels := Radix.pair_bound _ _ _ _ rows ch
  have planes := Radix.pair_bound _ _ _ _ channels pl
  exact Radix.pair_bound _ _ _ _ planes (Nat.mod_lt page.pg flash)

end Places

section Steps

variable (p : Params)

theorem next_in_flashpage (ch lun pl blk high low : Nat) (digit : low + 1 < p.spp.pgsPerFlashpg) :
    nextpageInterleave p (mkPage ch lun pl blk (high * p.spp.pgsPerFlashpg + low)) =
      some (mkPage ch lun pl blk (high * p.spp.pgsPerFlashpg + (low + 1))) := by
  have next : (high * p.spp.pgsPerFlashpg + low + 1) % p.spp.pgsPerFlashpg = low + 1 := Radix.mod_digit high (low + 1) _ digit
  unfold nextpageInterleave
  exact if_pos (by rw [show (mkPage ch lun pl blk (high * p.spp.pgsPerFlashpg + low)).pg + 1 = high * p.spp.pgsPerFlashpg + low + 1 from rfl, next]; omega)

-- Behind the last page of a flash page the walk goes on with the next plane, the
-- next channel, the next LUN of the group or the next flash page of the blocks.
theorem next_flashpage (ch group row pl blk high low : Nat) (inRows : row < rowsPerLine p.spp) (last : low + 1 = p.spp.pgsPerFlashpg) :
    nextpageInterleave p (mkPage ch (group * rowsPerLine p.spp + row) pl blk (high * p.spp.pgsPerFlashpg + low)) =
      if pl + 1 ≠ p.spp.plsPerLun then
        some (mkPage ch (group * rowsPerLine p.spp + row) (pl + 1) blk (high * p.spp.pgsPerFlashpg))
      else if ch + 1 ≠ p.spp.nchs then
        some (mkPage (ch + 1) (group * rowsPerLine p.spp + row) 0 blk (high * p.spp.pgsPerFlashpg))
      else if row + 1 ≠ rowsPerLine p.spp then
        some (mkPage 0 (group * rowsPerLine p.spp + (row + 1)) 0 blk (high * p.spp.pgsPerFlashpg))
      else if (high + 1) * p.spp.pgsPerFlashpg ≠ usedPgs p.spp blk then
        some (mkPage 0 (group * rowsPerLine p.spp) 0 blk ((high + 1) * p.spp.pgsPerFlashpg))
      else none := by
  have whole : high * p.spp.pgsPerFlashpg + low + 1 = (high + 1) * p.spp.pgsPerFlashpg := by
    rw [Nat.add_mul, Nat.one_mul]
    omega
  have back : high * p.spp.pgsPerFlashpg + low + 1 - p.spp.pgsPerFlashpg = high * p.spp.pgsPerFlashpg := by omega
  have forth : high * p.spp.pgsPerFlashpg + p.spp.pgsPerFlashpg = (high + 1) * p.spp.pgsPerFlashpg := by
    rw [Nat.add_mul, Nat.one_mul]
  have base : (group * rowsPerLine p.spp + row) / rowsPerLine p.spp = group := Radix.div_digit _ _ _ inRows
  have inner : group * rowsPerLine p.spp + row + 1 ≠ group * rowsPerLine p.spp + rowsPerLine p.spp ↔ row + 1 ≠ rowsPerLine p.spp := by
    omega
  unfold nextpageInterleave
  simp only [mkPage, Page.ch, Page.lun, Page.pl, Page.blk, back, base, inner, forth]
  rw [if_neg (by rw [whole, Nat.mul_mod_left]; exact not_not.mpr rfl)]
  rfl

variable (geometry : GroupRows p.spp) (flash : 0 < p.spp.pgsPerFlashpg)

include geometry flash in
theorem next_place (group blk place : Nat) (whole : p.spp.pgsPerFlashpg ∣ usedPgs p.spp blk) (inside : place < rowPages p blk) :
    nextpageInterleave p (pageAt p (group * rowsPerLine p.spp) blk place) =
      if place + 1 < rowPages p blk then some (pageAt p (group * rowsPerLine p.spp) blk (place + 1)) else none := by
  rw [row_pages_digits p blk whole] at inside ⊢
  have planes := Radix.digit_bound _ _ _ inside
  have channels := Radix.digit_bound _ _ _ planes
  have rows := Radix.digit_bound _ _ _ channels
  have row := Nat.mod_lt (place / p.spp.pgsPerFlashpg / p.spp.plsPerLun / p.spp.nchs) geometry.rows
  have ends := Radix.succ_bound _ _ _ inside flash
  have planeEnds := Radix.succ_bound _ _ _ planes geometry.planes
  have channelEnds := Radix.succ_bound _ _ _ channels geometry.channels
  have rowEnds := Radix.succ_bound _ _ _ rows geometry.rows
  unfold pageAt
  dsimp only
  by_cases lowCarry : place % p.spp.pgsPerFlashpg + 1 = p.spp.pgsPerFlashpg
  · obtain ⟨lowUp, lowZero⟩ := Radix.succ_carry _ _ lowCarry
    rw [next_flashpage p _ _ _ _ _ _ _ row lowCarry, lowUp, lowZero]
    simp only [Nat.add_zero]
    by_cases plCarry : place / p.spp.pgsPerFlashpg % p.spp.plsPerLun + 1 = p.spp.plsPerLun
    · obtain ⟨plUp, plZero⟩ := Radix.succ_carry _ _ plCarry
      rw [if_neg (not_not.mpr plCarry), plUp, plZero]
      by_cases chCarry : place / p.spp.pgsPerFlashpg / p.spp.plsPerLun % p.spp.nchs + 1 = p.spp.nchs
      · obtain ⟨chUp, chZero⟩ := Radix.succ_carry _ _ chCarry
        rw [if_neg (not_not.mpr chCarry), chUp, chZero]
        by_cases rowCarry : place / p.spp.pgsPerFlashpg / p.spp.plsPerLun / p.spp.nchs % rowsPerLine p.spp + 1 = rowsPerLine p.spp
        · obtain ⟨rowUp, rowZero⟩ := Radix.succ_carry _ _ rowCarry
          have rowsEnd : (place / p.spp.pgsPerFlashpg / p.spp.plsPerLun / p.spp.nchs / rowsPerLine p.spp + 1) * p.spp.pgsPerFlashpg =
              usedPgs p.spp blk ↔
              place / p.spp.pgsPerFlashpg / p.spp.plsPerLun / p.spp.nchs / rowsPerLine p.spp + 1 = usedPgs p.spp blk / p.spp.pgsPerFlashpg := by
            conv_lhs => rw [← Nat.div_mul_cancel whole]
            exact Nat.mul_left_inj (by omega)
          have high := Radix.digit_bound _ _ _ rows
          rw [if_neg (not_not.mpr rowCarry), rowUp, rowZero]
          by_cases top : place / p.spp.pgsPerFlashpg / p.spp.plsPerLun / p.spp.nchs / rowsPerLine p.spp + 1 =
              usedPgs p.spp blk / p.spp.pgsPerFlashpg
          · rw [if_neg (not_not.mpr (rowsEnd.mpr top)), if_neg]
            simp only [ends, planeEnds, channelEnds, rowEnds, lowCarry, plCarry, chCarry, rowCarry, top, ne_eq, not_true_eq_false,
              false_or, Nat.lt_irrefl, not_false_eq_true]
          · have more := ends.mpr (.inr (planeEnds.mpr (.inr (channelEnds.mpr (.inr (rowEnds.mpr (.inr (by omega))))))))
            simp only [if_pos (fun same => top (rowsEnd.mp same)), if_pos more, Nat.add_zero]
        · obtain ⟨rowUp, rowNext⟩ := Radix.succ_inner _ _ rowCarry geometry.rows
          have more := ends.mpr (.inr (planeEnds.mpr (.inr (channelEnds.mpr (.inr (rowEnds.mpr (.inl rowCarry)))))))
          rw [if_pos rowCarry, if_pos more, rowUp, rowNext]
      · obtain ⟨chUp, chNext⟩ := Radix.succ_inner _ _ chCarry geometry.channels
        have more := ends.mpr (.inr (planeEnds.mpr (.inr (channelEnds.mpr (.inl chCarry)))))
        rw [if_pos chCarry, if_pos more, chUp, chNext]
    · obtain ⟨plUp, plNext⟩ := Radix.succ_inner _ _ plCarry geometry.planes
      have more := ends.mpr (.inr (planeEnds.mpr (.inl plCarry)))
      rw [if_pos plCarry, if_pos more, plUp, plNext]
  · obtain ⟨lowUp, lowNext⟩ := Radix.succ_inner _ _ lowCarry flash
    have low := Nat.mod_lt place flash
    rw [next_in_flashpage p _ _ _ _ _ _ (by omega), if_pos (ends.mpr (.inl lowCarry)), lowUp, lowNext]

def stripeSize : Nat := p.spp.pgsPerFlashpg * p.spp.plsPerLun * p.spp.nchs * rowsPerLine p.spp

theorem stripe_high (place : Nat) :
    place / p.spp.pgsPerFlashpg / p.spp.plsPerLun / p.spp.nchs / rowsPerLine p.spp = place / stripeSize p := by
  unfold stripeSize
  simp only [Nat.div_div_eq_div_mul, Nat.mul_assoc]

theorem stripe_low (place : Nat) :
    place % stripeSize p % p.spp.pgsPerFlashpg = place % p.spp.pgsPerFlashpg ∧
      place % stripeSize p / p.spp.pgsPerFlashpg % p.spp.plsPerLun = place / p.spp.pgsPerFlashpg % p.spp.plsPerLun ∧
      place % stripeSize p / p.spp.pgsPerFlashpg / p.spp.plsPerLun % p.spp.nchs =
        place / p.spp.pgsPerFlashpg / p.spp.plsPerLun % p.spp.nchs ∧
      place % stripeSize p / p.spp.pgsPerFlashpg / p.spp.plsPerLun / p.spp.nchs =
        place / p.spp.pgsPerFlashpg / p.spp.plsPerLun / p.spp.nchs % rowsPerLine p.spp := by
  have flashes : place % stripeSize p / p.spp.pgsPerFlashpg =
      place / p.spp.pgsPerFlashpg % (p.spp.plsPerLun * (p.spp.nchs * rowsPerLine p.spp)) := by
    unfold stripeSize
    rw [Nat.mul_assoc, Nat.mul_assoc, Nat.mod_mul_right_div_self]
  have planes : place % stripeSize p / p.spp.pgsPerFlashpg / p.spp.plsPerLun =
      place / p.spp.pgsPerFlashpg / p.spp.plsPerLun % (p.spp.nchs * rowsPerLine p.spp) := by
    rw [flashes, Nat.mod_mul_right_div_self]
  refine ⟨?_, ?_, ?_, ?_⟩
  · unfold stripeSize
    rw [Nat.mul_assoc, Nat.mul_assoc, Nat.mod_mul_right_mod]
  · rw [flashes, Nat.mod_mul_right_mod]
  · rw [planes, Nat.mod_mul_right_mod]
  · rw [planes, Nat.mod_mul_right_div_self]

theorem stripe_index (place : Nat) :
    place % p.spp.pgsPerFlashpg + place / p.spp.pgsPerFlashpg % p.spp.plsPerLun * p.spp.pgsPerFlashpg
        + place / p.spp.pgsPerFlashpg / p.spp.plsPerLun % p.spp.nchs * p.spp.plsPerLun * p.spp.pgsPerFlashpg
        + place / p.spp.pgsPerFlashpg / p.spp.plsPerLun / p.spp.nchs % rowsPerLine p.spp * p.spp.nchs * p.spp.plsPerLun
          * p.spp.pgsPerFlashpg =
      place % stripeSize p := by
  obtain ⟨low, plane, channel, row⟩ := stripe_low p place
  rw [← low, ← plane, ← channel, ← row]
  generalize place % stripeSize p = rem
  have flashes := Radix.digits rem p.spp.pgsPerFlashpg
  have planes := Radix.digits (rem / p.spp.pgsPerFlashpg) p.spp.plsPerLun
  have channels := Radix.digits (rem / p.spp.pgsPerFlashpg / p.spp.plsPerLun) p.spp.nchs
  conv_rhs => rw [← flashes, ← planes, ← channels]
  ring

theorem row_pages_stripes (blk : Nat) (whole : p.spp.pgsPerFlashpg ∣ usedPgs p.spp blk) :
    rowPages p blk = usedPgs p.spp blk / p.spp.pgsPerFlashpg * stripeSize p := by
  rw [row_pages_digits p blk whole]
  unfold stripeSize
  ring

include geometry flash in
theorem stripe_positive : 0 < stripeSize p :=
  Nat.mul_pos (Nat.mul_pos (Nat.mul_pos flash geometry.planes) geometry.channels) geometry.rows

include geometry flash in
theorem advanced_place (group blk place steps : Nat) (whole : p.spp.pgsPerFlashpg ∣ usedPgs p.spp blk)
    (inside : place < rowPages p blk)
    (superblock : isSuperblock (getLine p (pageAt p (group * rowsPerLine p.spp) blk place)) = true) :
    getAdvancedPpaFast p (pageAt p (group * rowsPerLine p.spp) blk place) steps =
      if place + steps < rowPages p blk then some (pageAt p (group * rowsPerLine p.spp) blk (place + steps)) else none := by
  have row := Nat.mod_lt (place / p.spp.pgsPerFlashpg / p.spp.plsPerLun / p.spp.nchs) geometry.rows
  obtain ⟨high, low⟩ := page_at_pg p flash (group * rowsPerLine p.spp) blk place
  have base : (pageAt p (group * rowsPerLine p.spp) blk place).lun / rowsPerLine p.spp = group := Radix.div_digit _ _ _ row
  have offset : (pageAt p (group * rowsPerLine p.spp) blk place).lun - group * rowsPerLine p.spp =
      place / p.spp.pgsPerFlashpg / p.spp.plsPerLun / p.spp.nchs % rowsPerLine p.spp := Nat.add_sub_cancel_left _ _
  have startPl : (pageAt p (group * rowsPerLine p.spp) blk place).pl = place / p.spp.pgsPerFlashpg % p.spp.plsPerLun := rfl
  have startCh : (pageAt p (group * rowsPerLine p.spp) blk place).ch =
      place / p.spp.pgsPerFlashpg / p.spp.plsPerLun % p.spp.nchs := rfl
  have startBlk : (pageAt p (group * rowsPerLine p.spp) blk place).blk = blk := rfl
  have sizes : p.spp.pgsPerFlashpg * p.spp.plsPerLun * p.spp.nchs * rowsPerLine p.spp = stripeSize p := rfl
  have positive := stripe_positive p geometry flash
  have index := stripe_index p place
  have turned : place / stripeSize p + (place % stripeSize p + steps) / stripeSize p = (place + steps) / stripeSize p := by
    conv_rhs => rw [← Nat.div_add_mod place (stripeSize p), Nat.add_assoc, Nat.mul_add_div positive]
  have rest : (place % stripeSize p + steps) % stripeSize p = (place + steps) % stripeSize p := Nat.mod_add_mod _ _ _
  have room : usedPgs p.spp blk ≤ (place + steps) / stripeSize p * p.spp.pgsPerFlashpg ↔ ¬place + steps < rowPages p blk := by
    rw [row_pages_stripes p blk whole, Nat.not_lt, ← Nat.le_div_iff_mul_le positive]
    conv_lhs => rw [← Nat.div_mul_cancel whole]
    exact Nat.mul_le_mul_right_iff flash
  obtain ⟨lowDigit, plane, channel, rowDigit⟩ := stripe_low p (place + steps)
  unfold getAdvancedPpaFast
  by_cases still : steps = 0
  · simp [still, inside]
  · rw [if_neg still, superblock]
    dsimp only
    rw [base, offset, high, low, sizes]
    simp only [Bool.not_true, Bool.false_eq_true, if_false, startPl, startCh, startBlk, index, stripe_high, turned, rest, room,
      lowDigit, plane, channel, rowDigit]
    by_cases more : place + steps < rowPages p blk
    · have bound := page_at_inside p flash (group * rowsPerLine p.spp) blk (place + steps) whole more
      have digits : (pageAt p (group * rowsPerLine p.spp) blk (place + steps)).pg =
          (place + steps) / stripeSize p * p.spp.pgsPerFlashpg + (place + steps) % p.spp.pgsPerFlashpg := by
        rw [← stripe_high]
        rfl
      rw [digits] at bound
      rw [if_neg (not_not.mpr more), if_neg (Nat.not_le.mpr bound), if_pos more, ← stripe_high]
      rfl
    · rw [if_pos more, if_neg more]

include geometry flash in
theorem row_enumerated (group blk : Nat) (whole : p.spp.pgsPerFlashpg ∣ usedPgs p.spp blk) :
    Walk.Enumerates (nextpageInterleave p) (pageAt p (group * rowsPerLine p.spp) blk) (rowPages p blk) := by
  constructor
  · intro place inside
    rw [next_place p geometry flash group blk place whole (by omega), if_pos inside]
  · intro place last
    rw [next_place p geometry flash group blk place whole (by omega), if_neg (by omega)]

theorem block_enumerated (ch lun pl blk : Nat) :
    Walk.Enumerates (nextpageNormal p) (mkPage ch lun pl blk) (usedPgs p.spp blk) := by
  constructor
  · intro pg inside
    exact if_pos (Nat.ne_of_lt inside)
  · intro pg last
    exact if_neg (not_not.mpr last)

end Steps

-- Line groups are whole rows of LUNs and blocks whole flash pages.
structure WalkGeometry (spp : SsdParams) : Prop extends GroupRows spp where
  flash : 0 < spp.pgsPerFlashpg
  flashpgs : ∀ blk, spp.pgsPerFlashpg ∣ usedPgs spp blk

-- In addition DIES_PER_ZONE divides the number of LUNs.
structure RowGeometry (spp : SsdParams) : Prop extends Geometry spp where
  flash : 0 < spp.pgsPerFlashpg
  flashpgs : ∀ blk, spp.pgsPerFlashpg ∣ usedPgs spp blk

theorem RowGeometry.toWalkGeometry {spp : SsdParams} (rows : RowGeometry spp) : WalkGeometry spp :=
  ⟨rows.toGroupRows, rows.flash, rows.flashpgs⟩

-- pgs_per_line of a superblock line, as ssd_init_params multiplies it out:
-- blks_per_line times the pages in use of one of its blocks.
structure LineSizes (p : Params) : Prop where
  used : ∀ id, id < p.zpp.ttLines → 0 < usedPgs p.spp (lmid2Blkid p (.line id))
  size : ∀ id, id < p.zpp.ttLines → pgsPerLineOf p (.line id) = p.spp.blksPerLine * usedPgs p.spp (lmid2Blkid p (.line id))

theorem config_row_geometry (config : DualConfig) : RowGeometry (ssdInitParams config) := by
  refine ⟨config_geometry config, config_flash_positive config, ?_⟩
  intro blk
  have whole : ∀ loc, config.flashPageSize / pgsz ∣ mediaPgsPerBlk (ssdInitParams config) loc := by
    intro loc
    rw [config_media_pgs_per_blk]
    exact Nat.dvd_mul_right _ _
  unfold usedPgs
  split
  · exact whole .pslc
  · exact whole .normal

theorem dual_line_sizes (config : DualConfig) (loc : Loc) : LineSizes (dualParams config loc) := by
  constructor
  · intro id known
    obtain ⟨first, last⟩ := line_blk_range _ (dual_whole_rows config loc) id known
    exact (dual_medium config loc).used _ first last
  · intro id known
    obtain ⟨first, last⟩ := line_blk_range _ (dual_whole_rows config loc) id known
    have used := dual_used_pgs config loc (lmid2Blkid (dualParams config loc) (.line id)) first last
    rw [dual_pgs_per_line config loc (.line id) known, show (dualParams config loc).spp = ssdInitParams config from rfl, used]
    exact media_line_blocks config loc

structure PageDigits (spp : SsdParams) (page : Page) : Prop where
  ch : page.ch < spp.nchs
  pl : page.pl < spp.plsPerLun
  pg : page.pg < usedPgs spp page.blk

section Lines

variable (p : Params) (rows : WalkGeometry p.spp)

include rows in
theorem advanced_ppa_walk (page : Page) (digits : PageDigits p.spp page) (steps : Nat) :
    getAdvancedPpaFast p page steps =
      Walk.advance (if isSuperblock (getLine p page) then nextpageInterleave p else nextpageNormal p) steps page := by
  have geometry := rows.toGroupRows
  have whole := rows.flashpgs page.blk
  cases superblock : isSuperblock (getLine p page) with
  | true =>
      have inside := place_of_inside p geometry rows.flash page digits.ch digits.pl whole digits.pg
      have same := page_at_place p geometry rows.flash page digits.ch digits.pl
      have fast := advanced_place p geometry rows.flash (page.lun / rowsPerLine p.spp) page.blk (rowPlace p page) steps whole inside
      have slow := Walk.advance_place _ _ _ (row_enumerated p geometry rows.flash (page.lun / rowsPerLine p.spp) page.blk whole)
        steps (rowPlace p page) inside
      unfold rowBase at same
      rw [same] at fast slow
      rw [if_pos rfl, slow]
      exact fast superblock
  | false =>
      have slow := Walk.advance_place _ _ _ (block_enumerated p page.ch page.lun page.pl page.blk) steps page.pg digits.pg
      rw [if_neg Bool.false_ne_true, show page = mkPage page.ch page.lun page.pl page.blk page.pg from rfl, slow]
      unfold getAdvancedPpaFast
      rw [show mkPage page.ch page.lun page.pl page.blk page.pg = page from rfl, superblock]
      by_cases still : steps = 0
      · rw [if_pos still, still, Nat.add_zero, if_pos digits.pg]
        rfl
      · rw [if_neg still, Bool.not_false, if_pos rfl]
        by_cases more : page.pg + steps < usedPgs p.spp page.blk
        · rw [if_neg (Nat.not_le.mpr more), if_pos more]
        · rw [if_pos (Nat.le_of_not_lt more), if_neg more]

-- The pages of a superblock line: its block in every channel, every plane and
-- every LUN of its group.
structure InLine (id : Nat) (page : Page) : Prop extends PageDigits p.spp page where
  lun : page.lun / rowsPerLine p.spp = id % p.spp.lineGroups
  blk : page.blk = lmid2Blkid p (.line id)

def nextOf (lines : LineRef → Line) : Ppa → Option Ppa
  | .mapped page map => some (nextpage p lines page map false)
  | _ => none

theorem superblock_visits (lines : LineRef → Line) (map : MapType) (start : Page) (pages : List Page)
    (superblocks : ∀ page ∈ pages, isSuperblock (getLine p page) = true) (visited : Walk.Visits (nextpageInterleave p) start pages) :
    Walk.Visits (nextOf p lines) (.mapped start map) (pages.map (fun page => .mapped page map) ++ [.unmapped]) := by
  induction visited with
  | last start ends =>
      have superblock := superblocks start List.mem_cons_self
      have stepped : nextpage p lines start map false = .unmapped := by simp [nextpage, superblock, ends]
      exact .more _ _ _ (congrArg some stepped) (.last _ rfl)
  | more start following rest next visited ih =>
      have superblock := superblocks start List.mem_cons_self
      have stepped : nextpage p lines start map false = .mapped following map := by simp [nextpage, superblock, next]
      exact .more _ _ _ (congrArg some stepped) (ih fun page member => superblocks page (List.mem_cons_of_mem _ member))

def linePages (id : Nat) : List Page := (List.range (rowPages p (lmid2Blkid p (.line id)))).map (linePage p id)

include rows in
theorem mem_line_pages (id : Nat) (page : Page) : page ∈ linePages p id ↔ InLine p id page := by
  have geometry := rows.toGroupRows
  unfold linePages
  rw [List.mem_map]
  constructor
  · rintro ⟨place, member, rfl⟩
    have inside := List.mem_range.mp member
    have pg := page_at_inside p rows.flash (id % p.spp.lineGroups * rowsPerLine p.spp) _ place (rows.flashpgs _) inside
    exact ⟨⟨Nat.mod_lt _ geometry.channels, Nat.mod_lt _ geometry.planes, pg⟩, Radix.div_digit _ _ _ (Nat.mod_lt _ geometry.rows), rfl⟩
  · intro own
    have same := page_at_place p geometry rows.flash page own.ch own.pl
    have inside := place_of_inside p geometry rows.flash page own.ch own.pl (rows.flashpgs _) own.pg
    unfold rowBase at same
    rw [own.lun, own.blk] at same
    rw [own.blk] at inside
    exact ⟨rowPlace p page, List.mem_range.mpr inside, same⟩

include rows in
theorem line_pages_nodup (id : Nat) : (linePages p id).Nodup := by
  refine List.Nodup.map_on ?_ List.nodup_range
  intro place _ other _ same
  have placed := place_of_page_at p rows.toGroupRows rows.flash (id % p.spp.lineGroups) (lmid2Blkid p (.line id))
  rw [← placed place, page_at_line, same, ← page_at_line, placed other]

include rows in
theorem in_line_get_line (id : Nat) (superblock : interleaveSline p ≤ id) (page : Page) (own : InLine p id page) :
    getLine p page = .line id := by
  have lmid : lmidOf p page.block = id := by
    have blk : page.block.blk = lmid2Blkid p (.line id) := own.blk
    have lun : page.block.plane.lun / rowsPerLine p.spp = id % p.spp.lineGroups := own.lun
    unfold lmidOf
    rw [blk, lun]
    unfold lmid2Blkid topId
    rw [Nat.add_sub_cancel]
    exact Radix.digits id _
  have line := get_line_of_block p rows.toGroupRows page.block page.pg own.ch
  rw [lmid, if_neg (by omega)] at line
  exact line

-- What the traversal of a superblock line goes through, with the number of its
-- pages.
structure Traverses (lines : LineRef → Line) (map : MapType) (id : Nat) (pages : List Page) (size : Nat) : Prop where
  visits : Walk.Visits (nextOf p lines) (.mapped (getFirstPage p (.line id)) map) (pages.map (fun page => .mapped page map) ++ [.unmapped])
  once : pages.Nodup
  all : ∀ page, page ∈ pages ↔ InLine p id page
  back : ∀ page ∈ pages, getLine p page = .line id
  size : pages.length = size

include rows in
theorem line_pages_covered (id : Nat) (superblock : interleaveSline p ≤ id) (used : 0 < usedPgs p.spp (lmid2Blkid p (.line id)))
    (lines : LineRef → Line) (map : MapType) :
    Traverses p lines map id (linePages p id) (rowPages p (lmid2Blkid p (.line id))) := by
  have geometry := rows.toGroupRows
  have members := mem_line_pages p rows id
  have back : ∀ page ∈ linePages p id, getLine p page = .line id := fun page member =>
    in_line_get_line p rows id superblock page ((members page).mp member)
  have start : pageAt p (id % p.spp.lineGroups * rowsPerLine p.spp) (lmid2Blkid p (.line id)) 0 = getFirstPage p (.line id) := by
    rw [get_first_page_line p geometry]
    simp [pageAt]
  have blocks : 0 < rowsPerLine p.spp * p.spp.nchs * p.spp.plsPerLun :=
    Nat.mul_pos (Nat.mul_pos geometry.rows geometry.channels) geometry.planes
  have some : 0 < rowPages p (lmid2Blkid p (.line id)) := Nat.mul_pos used blocks
  have visited : Walk.Visits (nextpageInterleave p) (getFirstPage p (.line id)) (linePages p id) := by
    have walk := Walk.visits_places _ _ _
      (row_enumerated p geometry rows.flash (id % p.spp.lineGroups) (lmid2Blkid p (.line id)) (rows.flashpgs _))
      0 (rowPages p (lmid2Blkid p (.line id)) - 1) (by omega)
    rw [start, Nat.sub_add_cancel some, ← List.range_eq_range'] at walk
    exact walk
  refine ⟨superblock_visits p lines map _ _ (fun page member => by rw [back page member]; rfl) visited, line_pages_nodup p rows id,
    members, back, ?_⟩
  unfold linePages
  rw [List.length_map, List.length_range]

theorem covers_size (lines : LineRef → Line) (map : MapType) (id : Nat) (first second : List Page) (firstSize secondSize : Nat)
    (one : Traverses p lines map id first firstSize) (other : Traverses p lines map id second secondSize) : firstSize = secondSize := by
  have same : first.Perm second := (List.perm_ext_iff_of_nodup one.once other.once).mpr fun page =>
    (one.all page).trans (other.all page).symm
  rw [← one.size, ← other.size, same.length_eq]

-- A build with one zoned namespace on four channels of three LUNs, DIES_PER_ZONE 8
-- and blocks of 24 pages: its one group has all twelve LUNs, a line eight blocks.
def twelveLuns : Params where
  spp :=
    { nchs := 4, lunsPerCh := 3, plsPerLun := 1, cellMode := 3, blksPerPl := 8, pslcBlks := 4, metaPslcBlks := 0, metaNormalBlks := 0,
      pgsPerFlashpg := 4, pgsPerOneshotpg := 12, pgsPerBlk := 24, pgsPerLine := 8 * 24, pslcPgsPerOneshotpg := 4, pslcPgsPerBlk := 8,
      pslcPgsPerLine := 8 * 8, blksPerLine := 8, ttLuns := 12, lineGroups := 12 / 8 }
  zpp :=
    { nsType := .zoned, nsid := 0, nrZones := 3, zoneSize := 256 * pgsz, zoneCapacity := 192 * pgsz, pgsPerZone := 192,
      pgsPerChunk := 16, nrWb := 1, zoneWbSize := 96 * pgsz, ttLines := 8, pslcLines := 4, pgsPerLine := 8 * 24,
      pslcPgsPerLine := 8 * 8, ttLpns := 3 * 256, peerTtLpns := 0, ttPpns := 8 * 192, gcThresLinesHigh := 2, enableGcDelay := true,
      preRead := 0, sizeAligned := by decide, capacityAligned := by decide, capacityPositive := by decide, capacityFits := by decide,
      zonesFit := by decide, spaceFits := by decide }

theorem twelve_luns_geometry : WalkGeometry twelveLuns.spp := by
  refine ⟨⟨by decide, by decide, by decide, by decide, by decide⟩, by decide, ?_⟩
  intro blk
  unfold usedPgs
  split
  · decide
  · decide

theorem twelve_luns_sizes : LineSizes twelveLuns := ⟨by decide, by decide⟩

end Lines

end ConZone
