import ConZone.PageIndex
import ConZone.FailedWrite

set_option autoImplicit false

namespace ConZone

-- ppa_2_pgidx numbers the pages of a namespace within its reverse map, so that
-- an entry is never dropped and never another page's.
structure FaithfulNumbering (p : Params) : Prop where
  inside : PagesInRange p
  injective : ∀ page other, OwnedPage p page → OwnedPage p other → ppa2Pgidx p page = ppa2Pgidx p other → page = other
  kept : ∀ ftl lpn page, OwnedPage p page → getRmapEnt p (setRmapEnt p ftl lpn page) page = lpn
  apart : ∀ ftl lpn page other, OwnedPage p page → OwnedPage p other → other ≠ page →
    getRmapEnt p (setRmapEnt p ftl lpn page) other = getRmapEnt p ftl other

theorem get_set_rmap (p : Params) (ftl : ZmsFtl) (lpn : Option Nat) (page other : Page) (inside : ppa2Pgidx p page < p.zpp.ttPpns) :
    getRmapEnt p (setRmapEnt p ftl lpn page) other =
      if ppa2Pgidx p other = ppa2Pgidx p page then lpn else getRmapEnt p ftl other := by
  unfold getRmapEnt setRmapEnt
  rw [if_pos inside]
  by_cases same : ppa2Pgidx p other = ppa2Pgidx p page
  · rw [if_pos same, same, if_pos inside]
    exact Function.update_self _ _ _
  · rw [if_neg same]
    dsimp only
    rw [Function.update_of_ne same]

theorem faithful_of_injective (p : Params) (inside : PagesInRange p)
    (injective : ∀ page other, OwnedPage p page → OwnedPage p other → ppa2Pgidx p page = ppa2Pgidx p other → page = other) :
    FaithfulNumbering p := by
  refine ⟨inside, injective, ?_, ?_⟩
  · intro ftl lpn page owned
    rw [get_set_rmap p ftl lpn page page (inside page owned), if_pos rfl]
  · intro ftl lpn page other owned otherOwned apart
    rw [get_set_rmap p ftl lpn page other (inside page owned), if_neg]
    exact fun same => apart (injective other page otherOwned owned same)

section Dual

variable (config : DualConfig) (loc : Loc)

def lineBlocks : Nat := config.diesPerZone * config.plnsPerLun

theorem line_blocks_positive : 0 < lineBlocks config := Nat.mul_pos config.diesPositive config.planesPositive

theorem row_planes_groups : rowPlanes config = (ssdInitParams config).lineGroups * lineBlocks config := by
  have groups := config_groups config
  unfold rowPlanes lineBlocks
  rw [← Nat.mul_assoc, ← groups]
  change _ = config.lunsPerNandCh * config.nandChannels * config.plnsPerLun
  ring

theorem media_blk_positive : 0 < mediaPgsPerBlk (ssdInitParams config) loc := by
  rw [media_pgs_oneshots]
  exact Nat.mul_pos (media_oneshot_positive config loc) (config_oneshots_positive config)

theorem media_line_pages : mediaPgsPerLine (ssdInitParams config) loc = lineBlocks config * mediaPgsPerBlk (ssdInitParams config) loc :=
  media_line_blocks config loc

def linePgs : Nat :=
  if dualTtLines config loc < 4 then mediaPgsPerBlk (ssdInitParams config) loc else mediaPgsPerLine (ssdInitParams config) loc

theorem page_index_lines (page : Page) (owned : OwnedPage (dualParams config loc) page) :
    ppa2Pgidx (dualParams config loc) page =
      lmidOf (dualParams config loc) page.block * linePgs config loc + pageOffset config loc page := by
  have known := get_line_known _ (dual_medium config loc) page owned
  rw [page_index_split config loc page owned, dual_pgs_per_line config loc _ known, dual_line_of config loc page owned]
  unfold linePgs
  split
  · rfl
  · rfl

theorem page_offset_injective (page other : Page) (owned : OwnedPage (dualParams config loc) page)
    (otherOwned : OwnedPage (dualParams config loc) other) (same : pageOffset config loc page = pageOffset config loc other) :
    page.pg = other.pg ∧ page.block.plane = other.block.plane := by
  have positive := media_oneshot_positive config loc
  have ch : page.ch < config.nandChannels := owned.block.ch
  have otherCh : other.ch < config.nandChannels := otherOwned.block.ch
  have pl : page.pl < config.plnsPerLun := owned.block.pl
  have otherPl : other.pl < config.plnsPerLun := otherOwned.block.pl
  unfold pageOffset at same
  have low := congrArg (· % mediaOneshot config loc) same
  have high := congrArg (· / mediaOneshot config loc) same
  simp only [Radix.mod_digit _ _ _ (Nat.mod_lt _ positive)] at low
  simp only [Radix.div_digit _ _ _ (Nat.mod_lt _ positive)] at high
  have place := congrArg (· % rowPlanes config) high
  have shot := congrArg (· / rowPlanes config) high
  simp only [Radix.mod_digit _ _ _ (parallel_idx_bound config loc page owned),
    Radix.mod_digit _ _ _ (parallel_idx_bound config loc other otherOwned)] at place
  simp only [Radix.div_digit _ _ _ (parallel_idx_bound config loc page owned),
    Radix.div_digit _ _ _ (parallel_idx_bound config loc other otherOwned)] at shot
  have pg : page.pg = other.pg := by
    rw [← Radix.digits page.pg (mediaOneshot config loc), ← Radix.digits other.pg (mediaOneshot config loc), shot, low]
  have split : ∀ spot : Page, parallelIdx config spot = (spot.lun * config.nandChannels + spot.ch) * config.plnsPerLun + spot.pl := by
    intro spot
    unfold parallelIdx
    ring
  rw [split page, split other] at place
  have planes := congrArg (· % config.plnsPerLun) place
  have dies := congrArg (· / config.plnsPerLun) place
  simp only [Radix.mod_digit _ _ _ pl, Radix.mod_digit _ _ _ otherPl] at planes
  simp only [Radix.div_digit _ _ _ pl, Radix.div_digit _ _ _ otherPl] at dies
  have channels := congrArg (· % config.nandChannels) dies
  have luns := congrArg (· / config.nandChannels) dies
  simp only [Radix.mod_digit _ _ _ ch, Radix.mod_digit _ _ _ otherCh] at channels
  simp only [Radix.div_digit _ _ _ ch, Radix.div_digit _ _ _ otherCh] at luns
  refine ⟨pg, ?_⟩
  obtain ⟨⟨⟨pageCh, pageLun, pagePl⟩, pageBlk⟩, pagePg⟩ := page
  obtain ⟨⟨⟨secondCh, secondLun, secondPl⟩, secondBlk⟩, secondPg⟩ := other
  simp only [Page.ch, Page.lun, Page.pl] at planes channels luns
  rw [planes, channels, luns]

theorem dual_tt_lines_rows : dualTtLines config loc = ownedRows (dualParams config loc) * (ssdInitParams config).lineGroups :=
  (dual_whole_rows config loc).lines

theorem single_group_lmid (single : (ssdInitParams config).lineGroups = 1) (page : Page) (owned : OwnedPage (dualParams config loc) page) :
    lmidOf (dualParams config loc) page.block = page.blk - zmsFirstOwnedBlk (dualParams config loc) := by
  have group := lun_group_bound (dualParams config loc) (config_geometry config) page.block.plane.lun owned.block.lun
  have groups : (dualParams config loc).spp.lineGroups = 1 := single
  unfold lmidOf
  rw [groups] at group ⊢
  rw [Nat.mul_one, Nat.lt_one_iff.mp group, Nat.add_zero]
  rfl

theorem single_group_faithful (single : (ssdInitParams config).lineGroups = 1)
    (room : 4 ≤ dualTtLines config loc ∨ dualTtLines config loc = 1 ∨ lineBlocks config = 1) :
    FaithfulNumbering (dualParams config loc) := by
  apply faithful_of_injective _ (single_group_in_range config loc single)
  intro page other owned otherOwned same
  have planes := row_planes_groups config
  rw [single, Nat.one_mul] at planes
  have pageBound := page_offset_bound config loc page owned
  have otherBound := page_offset_bound config loc other otherOwned
  rw [planes, Nat.mul_comm] at pageBound otherBound
  rw [page_index_lines config loc page owned, page_index_lines config loc other otherOwned] at same
  have pageLine : lmidOf (dualParams config loc) page.block < dualTtLines config loc := by
    have known : topId (getLine (dualParams config loc) page) < dualTtLines config loc :=
      get_line_known _ (dual_medium config loc) page owned
    rw [dual_line_of config loc page owned] at known
    split at known <;> exact known
  have otherLine : lmidOf (dualParams config loc) other.block < dualTtLines config loc := by
    have known : topId (getLine (dualParams config loc) other) < dualTtLines config loc :=
      get_line_known _ (dual_medium config loc) other otherOwned
    rw [dual_line_of config loc other otherOwned] at known
    split at known <;> exact known
  have apart : lmidOf (dualParams config loc) page.block = lmidOf (dualParams config loc) other.block ∧
      pageOffset config loc page = pageOffset config loc other := by
    by_cases one : dualTtLines config loc = 1
    · have lines : lmidOf (dualParams config loc) page.block = lmidOf (dualParams config loc) other.block := by omega
      rw [lines] at same
      exact ⟨lines, by omega⟩
    · have width : lineBlocks config * mediaPgsPerBlk (ssdInitParams config) loc = linePgs config loc := by
        unfold linePgs
        split
        · rename_i few
          have single : lineBlocks config = 1 := by omega
          rw [single, Nat.one_mul]
        · exact (media_line_pages config loc).symm
      rw [width] at pageBound otherBound
      have lines := congrArg (· / linePgs config loc) same
      have offsets := congrArg (· % linePgs config loc) same
      simp only [Radix.div_digit _ _ _ pageBound, Radix.div_digit _ _ _ otherBound] at lines
      simp only [Radix.mod_digit _ _ _ pageBound, Radix.mod_digit _ _ _ otherBound] at offsets
      exact ⟨lines, offsets⟩
  obtain ⟨lines, offsets⟩ := apart
  obtain ⟨pg, plane⟩ := page_offset_injective config loc page other owned otherOwned offsets
  rw [single_group_lmid config loc single page owned, single_group_lmid config loc single other otherOwned] at lines
  have first : zmsFirstOwnedBlk (dualParams config loc) ≤ page.blk := owned.block.first
  have otherFirst : zmsFirstOwnedBlk (dualParams config loc) ≤ other.blk := otherOwned.block.first
  have blk : page.blk = other.blk := by omega
  obtain ⟨⟨pagePlane, pageBlk⟩, pagePg⟩ := page
  obtain ⟨⟨secondPlane, secondBlk⟩, secondPg⟩ := other
  simp only [Page.blk] at blk
  simp only at pg plane
  rw [blk, pg, plane]

def lastPage : Page :=
  ⟨⟨⟨config.nandChannels - 1, config.lunsPerNandCh - 1, config.plnsPerLun - 1⟩,
    zmsFirstOwnedBlk (dualParams config loc) + ownedRows (dualParams config loc) - 1⟩, mediaPgsPerBlk (ssdInitParams config) loc - 1⟩

theorem last_page_owned : OwnedPage (dualParams config loc) (lastPage config loc) := by
  have channels := config.channelsPositive
  have luns := config.lunsPositive
  have planes := config.planesPositive
  have rows : 0 < ownedRows (dualParams config loc) := (dual_medium config loc).some
  have pages := media_blk_positive config loc
  have first : zmsFirstOwnedBlk (dualParams config loc) ≤ (lastPage config loc).blk := by
    change _ ≤ zmsFirstOwnedBlk (dualParams config loc) + ownedRows (dualParams config loc) - 1
    omega
  have last : (lastPage config loc).blk < zmsFirstOwnedBlk (dualParams config loc) + ownedRows (dualParams config loc) := by
    change zmsFirstOwnedBlk (dualParams config loc) + ownedRows (dualParams config loc) - 1 < _
    omega
  refine ⟨⟨?_, ?_, ?_, first, last⟩, ?_⟩
  · change config.nandChannels - 1 < config.nandChannels
    omega
  · change config.lunsPerNandCh - 1 < config.lunsPerNandCh
    omega
  · change config.plnsPerLun - 1 < config.plnsPerLun
    omega
  · rw [show (dualParams config loc).spp = ssdInitParams config from rfl, dual_used_pgs config loc _ first last]
    change mediaPgsPerBlk (ssdInitParams config) loc - 1 < _
    omega

theorem last_page_lmid : lmidOf (dualParams config loc) (lastPage config loc).block = dualTtLines config loc - 1 := by
  have rows : 0 < ownedRows (dualParams config loc) := (dual_medium config loc).some
  have groups := config_groups_positive config
  have geometry := config_geometry config
  have luns : config.lunsPerNandCh = (ssdInitParams config).lineGroups * rowsPerLine (ssdInitParams config) := geometry.luns
  have group : (config.lunsPerNandCh - 1) / rowsPerLine (ssdInitParams config) = (ssdInitParams config).lineGroups - 1 := by
    have positive : 0 < rowsPerLine (ssdInitParams config) := geometry.rows
    rw [luns, Radix.last_digits _ _ groups positive, Radix.div_digit _ _ _ (by omega)]
  have blk : zmsFirstOwnedBlk (dualParams config loc) + ownedRows (dualParams config loc) - 1 - zmsFirstOwnedBlk (dualParams config loc) =
      ownedRows (dualParams config loc) - 1 := by omega
  unfold lmidOf
  change (zmsFirstOwnedBlk (dualParams config loc) + ownedRows (dualParams config loc) - 1 - zmsFirstOwnedBlk (dualParams config loc)) *
    (ssdInitParams config).lineGroups + (config.lunsPerNandCh - 1) / rowsPerLine (ssdInitParams config) = _
  rw [blk, group, dual_tt_lines_rows, Radix.last_digits _ _ rows groups]

theorem last_page_offset :
    pageOffset config loc (lastPage config loc) = mediaPgsPerBlk (ssdInitParams config) loc * rowPlanes config - 1 := by
  have shot := media_oneshot_positive config loc
  have shots := config_oneshots_positive config
  have channels := config.channelsPositive
  have luns := config.lunsPositive
  have planes := config.planesPositive
  have pages := media_pgs_oneshots config loc
  have split : mediaPgsPerBlk (ssdInitParams config) loc - 1 =
      (oneshots config - 1) * mediaOneshot config loc + (mediaOneshot config loc - 1) := by
    rw [pages, Nat.mul_comm]
    exact Radix.last_digits _ _ shots shot
  have high : (lastPage config loc).pg / mediaOneshot config loc = oneshots config - 1 := by
    change (mediaPgsPerBlk (ssdInitParams config) loc - 1) / _ = _
    rw [split, Radix.div_digit _ _ _ (by omega)]
  have low : (lastPage config loc).pg % mediaOneshot config loc = mediaOneshot config loc - 1 := by
    change (mediaPgsPerBlk (ssdInitParams config) loc - 1) % _ = _
    rw [split, Radix.mod_digit _ _ _ (by omega)]
  have place : parallelIdx config (lastPage config loc) + 1 = rowPlanes config := by
    change (config.lunsPerNandCh - 1) * (config.nandChannels * config.plnsPerLun) + (config.nandChannels - 1) * config.plnsPerLun +
      (config.plnsPerLun - 1) + 1 = _
    unfold rowPlanes
    obtain ⟨lun, lunEq⟩ := Nat.exists_eq_add_of_le' luns
    obtain ⟨channel, channelEq⟩ := Nat.exists_eq_add_of_le' channels
    obtain ⟨plane, planeEq⟩ := Nat.exists_eq_add_of_le' planes
    rw [lunEq, channelEq, planeEq]
    simp only [Nat.add_sub_cancel]
    ring
  unfold pageOffset
  rw [high, low]
  have total : ((oneshots config - 1) * rowPlanes config + parallelIdx config (lastPage config loc)) * mediaOneshot config loc +
      (mediaOneshot config loc - 1) + 1 = mediaPgsPerBlk (ssdInitParams config) loc * rowPlanes config := by
    obtain ⟨shotsBefore, shotsEq⟩ := Nat.exists_eq_add_of_le' shots
    obtain ⟨pagesBefore, pagesEq⟩ := Nat.exists_eq_add_of_le' shot
    rw [pages, shotsEq, pagesEq, ← place]
    simp only [Nat.add_sub_cancel]
    ring
  omega

-- With several line groups the stride over all planes of the device leads out of
-- the table.
theorem several_groups_out_of_range (several : 2 ≤ (ssdInitParams config).lineGroups) : ¬PagesInRange (dualParams config loc) := by
  intro inside
  have bound := inside _ (last_page_owned config loc)
  rw [page_index_lines config loc _ (last_page_owned config loc), last_page_lmid, last_page_offset, row_planes_groups] at bound
  change _ < dualTtLines config loc * mediaPgsPerLine (ssdInitParams config) loc at bound
  have pages := media_blk_positive config loc
  have blocks := line_blocks_positive config
  have lines := media_line_pages config loc
  have linePositive : 0 < mediaPgsPerLine (ssdInitParams config) loc := config_media_pgs_positive config loc
  have total : mediaPgsPerBlk (ssdInitParams config) loc * ((ssdInitParams config).lineGroups * lineBlocks config) =
      (ssdInitParams config).lineGroups * mediaPgsPerLine (ssdInitParams config) loc := by
    rw [lines]
    ring
  rw [total] at bound
  unfold linePgs at bound
  split at bound
  · rename_i few
    -- fewer than four lines in several groups: a single row
    have rowed := dual_tt_lines_rows config loc
    have rows : 0 < ownedRows (dualParams config loc) := (dual_medium config loc).some
    have one : ownedRows (dualParams config loc) = 1 := by
      by_contra more
      have two : 2 * 2 ≤ ownedRows (dualParams config loc) * (ssdInitParams config).lineGroups := Nat.mul_le_mul (by omega) several
      omega
    rw [one, Nat.one_mul] at rowed
    rw [rowed] at bound
    have row : 0 < ((ssdInitParams config).lineGroups - 1) * mediaPgsPerBlk (ssdInitParams config) loc := Nat.mul_pos (by omega) pages
    omega
  · have rows : 1 ≤ dualTtLines config loc := by
      rename_i many
      omega
    have more : 2 * mediaPgsPerLine (ssdInitParams config) loc ≤
        (ssdInitParams config).lineGroups * mediaPgsPerLine (ssdInitParams config) loc := Nat.mul_le_mul_right _ several
    have last := Radix.last_digits _ _ rows linePositive
    omega

def firstRowPage (place shot : Nat) : Page :=
  ⟨⟨⟨place / config.plnsPerLun % config.nandChannels, place / config.plnsPerLun / config.nandChannels, place % config.plnsPerLun⟩,
    zmsFirstOwnedBlk (dualParams config loc)⟩, shot * mediaOneshot config loc⟩

theorem first_row_owned (place shot : Nat) (inside : place < rowPlanes config) (shots : shot < oneshots config) :
    OwnedPage (dualParams config loc) (firstRowPage config loc place shot) := by
  have rows : 0 < ownedRows (dualParams config loc) := (dual_medium config loc).some
  have planes := config.planesPositive
  have channels := config.channelsPositive
  have first : zmsFirstOwnedBlk (dualParams config loc) ≤ (firstRowPage config loc place shot).blk := Nat.le_refl _
  have last : (firstRowPage config loc place shot).blk < zmsFirstOwnedBlk (dualParams config loc) + ownedRows (dualParams config loc) := by
    change zmsFirstOwnedBlk (dualParams config loc) < _
    omega
  refine ⟨⟨Nat.mod_lt _ channels, ?_, Nat.mod_lt _ planes, first, last⟩, ?_⟩
  · have die : place / config.plnsPerLun < config.lunsPerNandCh * config.nandChannels := by
      apply Radix.digit_bound
      rwa [Nat.mul_comm config.lunsPerNandCh]
    exact Radix.digit_bound _ _ _ die
  · rw [show (dualParams config loc).spp = ssdInitParams config from rfl, dual_used_pgs config loc _ first last, media_pgs_oneshots,
      Nat.mul_comm]
    exact Nat.mul_lt_mul_of_pos_right shots (media_oneshot_positive config loc)

theorem first_row_offset (place shot : Nat) :
    pageOffset config loc (firstRowPage config loc place shot) = (shot * rowPlanes config + place) * mediaOneshot config loc := by
  have positive := media_oneshot_positive config loc
  have digits : parallelIdx config (firstRowPage config loc place shot) = place := by
    have low := Radix.digits place config.plnsPerLun
    have high := Radix.digits (place / config.plnsPerLun) config.nandChannels
    change place / config.plnsPerLun / config.nandChannels * (config.nandChannels * config.plnsPerLun) +
      place / config.plnsPerLun % config.nandChannels * config.plnsPerLun + place % config.plnsPerLun = place
    calc place / config.plnsPerLun / config.nandChannels * (config.nandChannels * config.plnsPerLun) +
          place / config.plnsPerLun % config.nandChannels * config.plnsPerLun + place % config.plnsPerLun
        = (place / config.plnsPerLun / config.nandChannels * config.nandChannels +
            place / config.plnsPerLun % config.nandChannels) * config.plnsPerLun + place % config.plnsPerLun := by ring
      _ = place := by rw [high, low]
  have pg : (firstRowPage config loc place shot).pg = shot * mediaOneshot config loc := rfl
  unfold pageOffset
  rw [digits, pg, Nat.mul_div_cancel _ positive, Nat.mul_mod_left, Nat.add_zero]

-- Lines split into blocks number from one block's pages further each, while the
-- pages of a row are spread over all its blocks.
theorem split_lines_overlap (single : (ssdInitParams config).lineGroups = 1) (few : dualTtLines config loc < 4)
    (several : 2 ≤ dualTtLines config loc) (blocks : 2 ≤ lineBlocks config) : ¬FaithfulNumbering (dualParams config loc) := by
  intro faithful
  have rowed := dual_tt_lines_rows config loc
  rw [single, Nat.mul_one] at rowed
  have planes := row_planes_groups config
  rw [single, Nat.one_mul] at planes
  have shots := config_oneshots_positive config
  have positive := media_oneshot_positive config loc
  have wide : 0 < rowPlanes config := by omega
  let first := firstRowPage config loc (oneshots config % rowPlanes config) (oneshots config / rowPlanes config)
  let second : Page := ⟨⟨⟨0, 0, 0⟩, zmsFirstOwnedBlk (dualParams config loc) + 1⟩, 0⟩
  have firstOwned : OwnedPage (dualParams config loc) first := by
    apply first_row_owned config loc _ _ (Nat.mod_lt _ wide)
    exact Nat.div_lt_self shots (by omega)
  have inRow : zmsFirstOwnedBlk (dualParams config loc) + 1 < zmsFirstOwnedBlk (dualParams config loc) + ownedRows (dualParams config loc) := by
    omega
  have secondOwned : OwnedPage (dualParams config loc) second := by
    refine ⟨⟨config.channelsPositive, config.lunsPositive, config.planesPositive, Nat.le_add_right _ 1, inRow⟩, ?_⟩
    exact (dual_medium config loc).used _ (Nat.le_add_right _ 1) inRow
  have firstLine : lmidOf (dualParams config loc) first.block = 0 := by
    rw [single_group_lmid config loc single first firstOwned]
    exact Nat.sub_self _
  have secondLine : lmidOf (dualParams config loc) second.block = 1 := by
    rw [single_group_lmid config loc single second secondOwned]
    exact Nat.add_sub_cancel_left _ _
  have size : linePgs config loc = oneshots config * mediaOneshot config loc := by
    rw [linePgs, if_pos few, media_pgs_oneshots, Nat.mul_comm]
  have firstIndex : ppa2Pgidx (dualParams config loc) first = oneshots config * mediaOneshot config loc := by
    rw [page_index_lines config loc first firstOwned, firstLine, first_row_offset, Radix.digits]
    omega
  have secondIndex : ppa2Pgidx (dualParams config loc) second = oneshots config * mediaOneshot config loc := by
    have offset : pageOffset config loc second = 0 := by
      unfold pageOffset parallelIdx
      simp [second, Page.lun, Page.ch, Page.pl]
    rw [page_index_lines config loc second secondOwned, secondLine, offset, size]
    omega
  have same := faithful.injective first second firstOwned secondOwned (firstIndex.trans secondIndex.symm)
  have blk := congrArg Page.blk same
  change zmsFirstOwnedBlk (dualParams config loc) = zmsFirstOwnedBlk (dualParams config loc) + 1 at blk
  omega

-- The stride counts the planes of the whole device, the line base only the pages
-- of one line. They agree when one group holds all LUNs, unless a namespace of
-- two or three lines splits these into several blocks each.
theorem numbering_faithful_iff :
    FaithfulNumbering (dualParams config loc) ↔
      (ssdInitParams config).lineGroups = 1 ∧ (4 ≤ dualTtLines config loc ∨ dualTtLines config loc = 1 ∨ lineBlocks config = 1) := by
  have groups := config_groups_positive config
  have blocks := line_blocks_positive config
  have lines : 0 < dualTtLines config loc := by
    rw [dual_tt_lines_rows]
    exact Nat.mul_pos (dual_medium config loc).some groups
  constructor
  · intro faithful
    have single : (ssdInitParams config).lineGroups = 1 := by
      by_contra more
      exact several_groups_out_of_range config loc (by omega) faithful.inside
    refine ⟨single, ?_⟩
    by_contra crowded
    exact split_lines_overlap config loc single (by omega) (by omega) (by omega) faithful
  · rintro ⟨single, room⟩
    exact single_group_faithful config loc single room

end Dual

-- Two dies that are a line group each.
theorem two_groups_unfaithful : ¬∀ config loc, FaithfulNumbering (dualParams config loc) := by
  intro claim
  exact several_groups_out_of_range twoGroupConfig .pslc (by decide) (claim twoGroupConfig .pslc).inside

end ConZone
