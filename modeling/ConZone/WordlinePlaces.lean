import ConZone.LineWalk
import ConZone.PageIndex
import ConZone.StripedBatches

set_option autoImplicit false

namespace ConZone

-- The blocks whose flash pages take turns in a line: those of a superblock, and
-- the only one of a line that is split.
def blocksInTurn (p : Params) : Nat := if interleaveSline p = 0 then p.spp.blksPerLine else 1

def wordlineFlashpgs (p : Params) (loc : Loc) : Nat := oneshotOf p loc / p.spp.pgsPerFlashpg

-- count pages from a place of a line on pass no more than a one-shot page of
-- pages from one end of a wordline to the next.
def FullBatches (p : Params) (loc : Loc) (first count : Nat) : Prop :=
  Batches.Held p.spp.pgsPerFlashpg (blocksInTurn p) (wordlineFlashpgs p loc) first count

instance (p : Params) (loc : Loc) (first count : Nat) : Decidable (FullBatches p loc first count) :=
  inferInstanceAs (Decidable (Batches.Held ..))

section Dual

variable (config : DualConfig) (loc : Loc)

theorem dual_oneshot_of : oneshotOf (dualParams config loc) loc = mediaOneshot config loc := by
  unfold mediaOneshot
  cases loc with
  | pslc => exact (Nat.mul_one _).symm
  | normal => exact config_oneshot_pages config

theorem dual_wordline_flashpgs : wordlineFlashpgs (dualParams config loc) loc = if loc = .pslc then 1 else config.cellMode := by
  have flash : 0 < config.flashPageSize / pgsz := config_flash_positive config
  unfold wordlineFlashpgs
  rw [dual_oneshot_of]
  exact Nat.mul_div_cancel_left _ flash

theorem dual_wordline_positive : 0 < wordlineFlashpgs (dualParams config loc) loc := by
  have cell := config.cellPositive
  rw [dual_wordline_flashpgs]
  split <;> omega

theorem dual_wordline_pages : wordlineFlashpgs (dualParams config loc) loc * (dualParams config loc).spp.pgsPerFlashpg =
    oneshotOf (dualParams config loc) loc := by
  rw [dual_wordline_flashpgs, dual_oneshot_of, Nat.mul_comm]
  rfl

theorem dual_blocks_positive : 0 < blocksInTurn (dualParams config loc) := by
  unfold blocksInTurn
  split
  · exact Nat.mul_pos config.diesPositive config.planesPositive
  · exact Nat.one_pos

theorem dual_lines_alike (page : Page) (owned : OwnedPage (dualParams config loc) page) :
    isSuperblock (getLine (dualParams config loc) page) = true ↔ interleaveSline (dualParams config loc) = 0 := by
  have rows : 0 < ownedRows (dualParams config loc) := (dual_medium config loc).some
  have groups := config_groups_positive config
  have lines : 0 < dualTtLines config loc := by
    have whole := (dual_medium config loc).lines
    change dualTtLines config loc = _ at whole
    rw [whole]
    exact Nat.mul_pos rows groups
  rw [dual_line_of config loc page owned, dual_interleave]
  split
  · exact iff_of_false nofun (Nat.ne_of_gt lines)
  · exact iff_of_true rfl rfl

-- A page's place in its line: the flash pages of its block below its own, each
-- with one of every block of the line.
theorem place_digits (page : Page) (owned : OwnedPage (dualParams config loc) page) :
    placeIn (dualParams config loc) page / (blocksInTurn (dualParams config loc) * (dualParams config loc).spp.pgsPerFlashpg) =
        page.pg / (dualParams config loc).spp.pgsPerFlashpg ∧
      placeIn (dualParams config loc) page % (dualParams config loc).spp.pgsPerFlashpg =
        page.pg % (dualParams config loc).spp.pgsPerFlashpg := by
  have alike := dual_lines_alike config loc page owned
  have geometry : RowGeometry (dualParams config loc).spp := config_row_geometry config
  have low := Nat.mod_lt page.pg geometry.flash
  unfold placeIn blocksInTurn
  split
  · rename_i whole
    have pl : page.pl < (dualParams config loc).spp.plsPerLun := owned.block.pl
    have ch : page.ch < (dualParams config loc).spp.nchs := owned.block.ch
    have row := Nat.mod_lt page.lun geometry.rows
    rw [if_pos (alike.mp whole), geometry.blocks, Nat.mul_comm (_ * _), ← Nat.div_div_eq_div_mul, Nat.mul_comm (_ * _),
      ← Nat.div_div_eq_div_mul, Nat.mul_comm (rowsPerLine _), ← Nat.div_div_eq_div_mul]
    unfold rowPlace
    rw [Radix.div_digit _ _ _ low, Radix.div_digit _ _ _ pl, Radix.div_digit _ _ _ ch,
      Radix.div_digit _ _ _ row, Radix.mod_digit _ _ _ low]
    exact ⟨rfl, rfl⟩
  · rename_i split
    rw [if_neg fun whole => split (alike.mpr whole), Nat.one_mul]
    exact ⟨rfl, rfl⟩

theorem last_in_wordline_iff (page : Page) (owned : OwnedPage (dualParams config loc) page) :
    isLastPgInWordline (dualParams config loc) page = true ↔
      Batches.EndsCell (dualParams config loc).spp.pgsPerFlashpg (blocksInTurn (dualParams config loc))
        (wordlineFlashpgs (dualParams config loc) loc) (placeIn (dualParams config loc) page) := by
  have flash : 0 < (dualParams config loc).spp.pgsPerFlashpg := config_flash_positive config
  have height := dual_wordline_positive config loc
  obtain ⟨high, low⟩ := place_digits config loc page owned
  rw [Batches.ends_cell_iff _ _ _ flash (dual_blocks_positive config loc) height, high, low]
  unfold isLastPgInWordline
  rw [dual_oneshot config loc page owned, ← dual_oneshot_of config loc, ← dual_wordline_pages config loc, beq_iff_eq,
    Nat.mul_comm (wordlineFlashpgs _ _), Nat.mod_mul]
  have digit := Nat.mod_lt page.pg flash
  have flashpg := Nat.mod_lt (page.pg / (dualParams config loc).spp.pgsPerFlashpg) height
  obtain ⟨above, same⟩ : ∃ above, wordlineFlashpgs (dualParams config loc) loc = above + 1 := ⟨_, (Nat.succ_pred_eq_of_pos height).symm⟩
  rw [same] at flashpg ⊢
  have last : (dualParams config loc).spp.pgsPerFlashpg * (above + 1) - 1 =
      above * (dualParams config loc).spp.pgsPerFlashpg + ((dualParams config loc).spp.pgsPerFlashpg - 1) := by
    rw [Nat.mul_add, Nat.mul_one, Nat.mul_comm above]
    omega
  rw [last, Nat.add_comm (page.pg % _), Nat.mul_comm _ (_ % (above + 1))]
  refine ⟨fun there => ?_, fun ⟨top, full⟩ => ?_⟩
  · obtain ⟨top, full⟩ := Radix.pair_unique _ _ _ _ _ digit (by omega) there
    omega
  · rw [show page.pg / (dualParams config loc).spp.pgsPerFlashpg % (above + 1) = above by omega]
    omega

end Dual

end ConZone
