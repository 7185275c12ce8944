import ConZone.MediaStart
import ConZone.ReverseMap
import ConZone.SharedCache

set_option autoImplicit false

namespace ConZone

-- The dual builds whose page numbers name their pages and whose LUNs have one
-- plane; a TLC namespace is on cells of more than one bit, and a zone of it
-- fills a line.
structure PlainConfig (config : DualConfig) (loc : Loc) : Prop where
  flat : config.plnsPerLun = 1
  single : (ssdInitParams config).lineGroups = 1
  lines : 4 ≤ dualTtLines config loc ∨ lineBlocks config = 1
  cells : loc = .normal → config.cellMode ≠ 1

section Configs

variable (config : DualConfig) (loc : Loc)

theorem dual_zoned_space : ZonedSpace (dualParams config loc) :=
  ⟨rfl, dual_tt_lpns config loc, dual_zone_pages_positive config loc⟩

theorem dual_buffers : 0 < (dualParams config loc).zpp.nrWb := Nat.lt_of_lt_of_le Nat.one_pos (Nat.le_max_left 1 _)

theorem dual_init_loc (ref : LineRef) (listed : ref ∈ lineRefs (dualParams config loc)) : initLoc (dualParams config loc) ref = loc := by
  have known : topId ref < dualTtLines config loc := line_refs_known _ ref listed
  unfold initLoc
  cases loc with
  | pslc => exact if_pos known
  | normal => exact if_neg (Nat.not_lt_zero _)

theorem dual_blk_pages (page : Page) (owned : OwnedPage (dualParams config loc) page) : page.pg < (ssdInitParams config).pgsPerBlk := by
  have used := owned.pg
  rw [show (dualParams config loc).spp = ssdInitParams config from rfl,
    dual_used_pgs config loc page.blk owned.block.first owned.block.last] at used
  refine Nat.lt_of_lt_of_le used ?_
  unfold mediaPgsPerBlk
  split
  · rw [config_pslc_pgs_per_blk, config_pgs_per_blk]
    exact Nat.mul_le_mul_right _ (Nat.le_mul_of_pos_right _ config.cellPositive)
  · exact Nat.le_refl _

theorem line_refs_length (p : Params) : (lineRefs p).length ≤ p.zpp.ttLines * max 1 p.spp.blksPerLine := by
  unfold lineRefs
  rw [List.length_flatMap]
  refine (List.sum_le_card_nsmul _ (max 1 p.spp.blksPerLine) ?_).trans ?_
  · intro size member
    obtain ⟨id, _, same⟩ := List.mem_map.mp member
    rw [← same]
    split
    · rw [List.length_map, List.length_range]
      exact Nat.le_max_right _ _
    · exact Nat.le_max_left 1 _
  · rw [List.length_map, List.length_range]
    exact Nat.le_refl _

theorem dual_few_lines (flat : config.plnsPerLun = 1) (single : (ssdInitParams config).lineGroups = 1) :
    (lineRefs (dualParams config loc)).length < 2 ^ 32 := by
  have rows := dual_tt_lines_rows config loc
  rw [single, Nat.mul_one] at rows
  have few : dualTtLines config loc ≤ 2 ^ 16 := by
    have slc := config.slcEnough
    have tlc := config.tlcPresent
    have total := config.blocksFit
    have media : dualTtLines config loc = mediaRows (ssdInitParams config) loc * (ssdInitParams config).lineGroups := rfl
    rw [media, single, Nat.mul_one]
    unfold mediaRows
    simp only [ssdInitParams, tlc, ↓reduceIte]
    split <;> omega
  have blocks : (ssdInitParams config).blksPerLine < 2 ^ 16 := by
    have channels := config.channelsFit
    have luns := config.lunsFit
    change config.diesPerZone * config.plnsPerLun < 2 ^ 16
    rw [flat, Nat.mul_one]
    have whole := Nat.le_of_dvd (Nat.mul_pos config.channelsPositive config.lunsPositive) config.groupsWhole
    calc config.diesPerZone ≤ config.nandChannels * config.lunsPerNandCh := whole
      _ ≤ (2 ^ 8 - 1) * (2 ^ 8 - 1) := Nat.mul_le_mul (by omega) (by omega)
      _ < 2 ^ 16 := by decide
  calc (lineRefs (dualParams config loc)).length
      ≤ dualTtLines config loc * max 1 (ssdInitParams config).blksPerLine := line_refs_length (dualParams config loc)
    _ ≤ 2 ^ 16 * (2 ^ 16 - 1) := Nat.mul_le_mul few (by omega)
    _ < 2 ^ 32 := by decide

variable (plain : PlainConfig config loc)

include plain in
theorem plain_numbering : FaithfulNumbering (dualParams config loc) := by
  refine single_group_faithful config loc plain.single ?_
  rcases plain.lines with many | one
  · exact .inl many
  · exact .inr (.inr one)

include plain in
theorem plain_regular : Regular (dualParams config loc) loc where
  medium := dual_medium config loc
  rows := config_row_geometry config
  sizes := dual_unit_sizes config loc
  erased := dual_blk_pages config loc
  flat := plain.flat
  location := by
    intro page owned
    rw [dual_page_location config loc page owned]
    split
    · rename_i single
      cases loc with
      | pslc => rfl
      | normal => exact absurd single (plain.cells rfl)
    · rfl
  numbering := plain_numbering config loc plain
  few := dual_few_lines config loc plain.flat plain.single
  dual := by cases loc <;> rfl

theorem plain_tlc_namespace (plain : PlainConfig config .normal) : TlcNamespace (dualParams config .normal) where
  space := dual_zoned_space config .normal
  tlc := rfl
  unit := by
    intro ref listed
    rw [dual_pgs_per_zone]
    have kind := (mem_line_refs _ ref).mp listed
    cases ref with
    | line id =>
        unfold pgsPerLineOf
        exact if_neg (Nat.not_lt_zero id)
    | sub parent id =>
        have empty : ¬parent < (dualParams config .normal).zpp.pslcLines := Nat.not_lt_zero _
        rcases plain.lines with many | one
        · obtain ⟨_, split, _⟩ := kind
          have whole : interleaveSline (dualParams config .normal) = 0 := by
            unfold interleaveSline
            rw [dual_pgs_per_zone]
            have dual : zmsIsDualNs (dualParams config .normal).zpp.nsType = true := rfl
            have lines : (dualParams config .normal).zpp.ttLines = dualTtLines config .normal := rfl
            have slc : (dualParams config .normal).zpp.pslcLines = 0 := rfl
            simp only [dual, if_true, lines, slc]
            rw [if_neg (by omega), if_pos (by decide)]
          rw [whole] at split
          omega
        · have size : (dualParams config .normal).zpp.pgsPerLine = lineBlocks config * (ssdInitParams config).pgsPerBlk := rfl
          rw [size, one, Nat.one_mul]
          unfold pgsPerLineOf
          exact if_neg empty

end Configs

end ConZone
