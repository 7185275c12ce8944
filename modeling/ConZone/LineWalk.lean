import ConZone.Bounded
import ConZone.Traversal

set_option autoImplicit false

namespace ConZone

section Walking

variable (p : Params)

-- One page on inside the line of a page, the place of a page in its line, and
-- the pages its line has.
def lineStep (page : Page) : Page → Option Page := if isSuperblock (getLine p page) then nextpageInterleave p else nextpageNormal p

def placeIn (page : Page) : Nat := if isSuperblock (getLine p page) then rowPlace p page else page.pg

def lineSize (page : Page) : Nat := if isSuperblock (getLine p page) then rowPages p page.blk else usedPgs p.spp page.blk

theorem line_step_same (page other : Page) (same : getLine p other = getLine p page) : lineStep p other = lineStep p page := by
  unfold lineStep
  rw [same]

theorem next_differs (start page next : Page) (stepped : lineStep p start page = some next) : next ≠ page := by
  unfold lineStep at stepped
  split at stepped
  · unfold nextpageInterleave at stepped
    dsimp only at stepped
    intro same
    subst same
    split at stepped
    · have pg := congrArg Page.pg (Option.some.inj stepped)
      exact Nat.succ_ne_self _ pg
    · split at stepped
      · have pl := congrArg Page.pl (Option.some.inj stepped)
        exact Nat.succ_ne_self _ pl
      · split at stepped
        · have ch := congrArg Page.ch (Option.some.inj stepped)
          exact Nat.succ_ne_self _ ch
        · split at stepped
          · have lun := congrArg Page.lun (Option.some.inj stepped)
            exact Nat.succ_ne_self _ lun
          · split at stepped
            · rename_i ends _ _ _ _
              have pg : next.pg + 1 - p.spp.pgsPerFlashpg + p.spp.pgsPerFlashpg = next.pg := congrArg Page.pg (Option.some.inj stepped)
              omega
            · cases stepped
  · unfold nextpageNormal at stepped
    intro same
    subst same
    split at stepped
    · have pg := congrArg Page.pg (Option.some.inj stepped)
      exact Nat.succ_ne_self _ pg
    · cases stepped

variable (rows : RowGeometry p.spp)

theorem owned_digits (page : Page) (owned : OwnedPage p page) : PageDigits p.spp page :=
  ⟨owned.block.ch, owned.block.pl, owned.pg⟩

include rows in
theorem walk_in_line (page : Page) (owned : OwnedPage p page) (count : Nat) (inside : placeIn p page + count < lineSize p page) :
    ∃ there, Walk.advance (lineStep p page) count page = some there ∧ getLine p there = getLine p page := by
  have geometry := rows.toGeometry
  have whole := rows.flashpgs page.blk
  have digits := owned_digits p page owned
  have line := get_line_of_block p geometry.toGroupRows page.block page.pg digits.ch
  cases superblock : isSuperblock (getLine p page) with
  | true =>
      have here := place_of_inside p geometry.toGroupRows rows.flash page digits.ch digits.pl whole digits.pg
      have same := page_at_place p geometry.toGroupRows rows.flash page digits.ch digits.pl
      have walked := Walk.advance_place _ _ _ (row_enumerated p geometry.toGroupRows rows.flash (page.lun / rowsPerLine p.spp) page.blk whole)
        count (rowPlace p page) here
      unfold rowBase at same
      unfold placeIn lineSize at inside
      simp only [superblock, if_true] at inside
      rw [same, if_pos inside] at walked
      unfold lineStep
      rw [superblock, if_pos rfl]
      refine ⟨_, walked, ?_⟩
      have row := Nat.mod_lt ((rowPlace p page + count) / p.spp.pgsPerFlashpg / p.spp.plsPerLun / p.spp.nchs) geometry.rows
      have group : (pageAt p (page.lun / rowsPerLine p.spp * rowsPerLine p.spp) page.blk (rowPlace p page + count)).lun / rowsPerLine p.spp =
          page.lun / rowsPerLine p.spp := Radix.div_digit _ _ _ row
      have ch : (pageAt p (page.lun / rowsPerLine p.spp * rowsPerLine p.spp) page.blk (rowPlace p page + count)).ch < p.spp.nchs :=
        Nat.mod_lt _ geometry.channels
      have lmid : lmidOf p (pageAt p (page.lun / rowsPerLine p.spp * rowsPerLine p.spp) page.blk (rowPlace p page + count)).block =
          lmidOf p page.block := by
        unfold lmidOf
        exact congrArg _ group
      have there := get_line_of_block p geometry.toGroupRows _
        (pageAt p (page.lun / rowsPerLine p.spp * rowsPerLine p.spp) page.blk (rowPlace p page + count)).pg ch
      rw [lmid] at there
      have alone : ¬lmidOf p page.block < interleaveSline p := by
        intro below
        rw [if_pos below] at line
        rw [show (⟨page.block, page.pg⟩ : Page) = page from rfl] at line
        rw [line] at superblock
        cases superblock
      rw [if_neg alone] at line there
      exact there.trans line.symm
  | false =>
      have walked := Walk.advance_place _ _ _ (block_enumerated p page.ch page.lun page.pl page.blk) count page.pg digits.pg
      unfold placeIn lineSize at inside
      simp only [superblock, Bool.false_eq_true, if_false] at inside
      rw [if_pos inside] at walked
      unfold lineStep
      rw [superblock, if_neg Bool.false_ne_true]
      exact ⟨_, walked, rfl⟩

include rows in
theorem walk_past_line (page : Page) (owned : OwnedPage p page) (count : Nat) (past : lineSize p page ≤ placeIn p page + count) :
    Walk.advance (lineStep p page) count page = none := by
  have geometry := rows.toGeometry
  have whole := rows.flashpgs page.blk
  have digits := owned_digits p page owned
  cases superblock : isSuperblock (getLine p page) with
  | true =>
      have here := place_of_inside p geometry.toGroupRows rows.flash page digits.ch digits.pl whole digits.pg
      have same := page_at_place p geometry.toGroupRows rows.flash page digits.ch digits.pl
      have walked := Walk.advance_place _ _ _ (row_enumerated p geometry.toGroupRows rows.flash (page.lun / rowsPerLine p.spp) page.blk whole)
        count (rowPlace p page) here
      unfold rowBase at same
      unfold placeIn lineSize at past
      simp only [superblock, if_true] at past
      rw [same, if_neg (Nat.not_lt.mpr past)] at walked
      unfold lineStep
      rw [superblock, if_pos rfl]
      exact walked
  | false =>
      have walked := Walk.advance_place _ _ _ (block_enumerated p page.ch page.lun page.pl page.blk) count page.pg digits.pg
      unfold placeIn lineSize at past
      simp only [superblock, Bool.false_eq_true, if_false] at past
      rw [if_neg (Nat.not_lt.mpr past)] at walked
      unfold lineStep
      rw [superblock, if_neg Bool.false_ne_true]
      exact walked

include rows in
theorem place_in_line (page : Page) (owned : OwnedPage p page) : placeIn p page < lineSize p page := by
  have digits := owned_digits p page owned
  unfold placeIn lineSize
  split
  · exact place_of_inside p rows.toGroupRows rows.flash page digits.ch digits.pl (rows.flashpgs _) digits.pg
  · exact digits.pg

end Walking

-- pgs_per_line of a line is the number of its pages.
structure UnitSizes (p : Params) : Prop where
  size : ∀ page, OwnedPage p page → pgsPerLineOf p (getLine p page) = lineSize p page

section FirstPages

variable (p : Params) (rows : RowGeometry p.spp)

include rows in
theorem first_page_lmid (ref : LineRef) : lmidOf p (getFirstPage p ref).block = topId ref := by
  have geometry := rows.toGeometry
  have blk : ∀ id, lmid2Blkid p (.line id) - zmsFirstOwnedBlk p = id / p.spp.lineGroups := fun _ => Nat.add_sub_cancel _ _
  cases ref with
  | line id =>
      rw [get_first_page_line p geometry.toGroupRows]
      unfold lmidOf
      rw [show (mkPage 0 (id % p.spp.lineGroups * rowsPerLine p.spp) 0 (lmid2Blkid p (.line id)) 0).block.blk =
        lmid2Blkid p (.line id) from rfl, blk id]
      change _ + id % p.spp.lineGroups * rowsPerLine p.spp / rowsPerLine p.spp = id
      rw [Nat.mul_div_cancel _ geometry.rows]
      exact Radix.digits id _
  | sub parent id =>
      rw [get_first_page_sub p geometry.toGroupRows]
      have row := subline_row p geometry.toGroupRows id
      unfold lmidOf
      change (lmid2Blkid p (.line parent) - zmsFirstOwnedBlk p) * p.spp.lineGroups +
        (parent % p.spp.lineGroups * rowsPerLine p.spp + id % lunsPerGroup p.spp / p.spp.nchs) / rowsPerLine p.spp = parent
      rw [blk parent, Radix.div_digit _ _ _ row]
      exact Radix.digits parent _

include rows in
theorem first_page_line (ref : LineRef) (listed : ref ∈ lineRefs p) (owned : OwnedPage p (getFirstPage p ref)) :
    isSuperblock (getLine p (getFirstPage p ref)) = isSuperblock ref ∧ topId (getLine p (getFirstPage p ref)) = topId ref := by
  have line := get_line_of_block p rows.toGroupRows (getFirstPage p ref).block (getFirstPage p ref).pg owned.block.ch
  rw [first_page_lmid p rows ref] at line
  rw [show (⟨(getFirstPage p ref).block, (getFirstPage p ref).pg⟩ : Page) = getFirstPage p ref from rfl] at line
  unfold lineRefs at listed
  rw [List.mem_flatMap] at listed
  obtain ⟨id, _, member⟩ := listed
  split at member
  · rename_i below
    obtain ⟨slot, _, rfl⟩ := List.mem_map.mp member
    rw [if_pos (show topId (.sub id slot) < interleaveSline p from below)] at line
    rw [line]
    exact ⟨rfl, rfl⟩
  · rename_i above
    rw [List.mem_singleton] at member
    subst member
    rw [if_neg (show ¬topId (.line id) < interleaveSline p from above)] at line
    rw [line]
    exact ⟨rfl, rfl⟩

theorem same_size (first second : LineRef) (kind : isSuperblock first = isSuperblock second) (top : topId first = topId second) :
    pgsPerLineOf p first = pgsPerLineOf p second := by
  cases first with
  | line id =>
      cases second with
      | line other => exact congrArg (fun id => pgsPerLineOf p (.line id)) top
      | sub => cases kind
  | sub parent id =>
      cases second with
      | line => cases kind
      | sub other slot => exact congrArg (fun id => pgsPerLineOf p (.sub id 0)) top

include rows in
theorem first_page_place (ref : LineRef) (listed : ref ∈ lineRefs p) (owned : OwnedPage p (getFirstPage p ref)) :
    placeIn p (getFirstPage p ref) = 0 := by
  have geometry := rows.toGeometry
  have kind := (first_page_line p rows ref listed owned).1
  unfold placeIn
  rw [kind]
  cases ref with
  | line id =>
      have start := place_of_page_at p geometry.toGroupRows rows.flash (id % p.spp.lineGroups) (lmid2Blkid p (.line id)) 0
      have first : pageAt p (id % p.spp.lineGroups * rowsPerLine p.spp) (lmid2Blkid p (.line id)) 0 = getFirstPage p (.line id) := by
        rw [get_first_page_line p geometry.toGroupRows]
        simp [pageAt]
      rw [← first]
      exact start
  | sub parent id => rfl

variable (medium : Medium p) (sizes : UnitSizes p)

include medium rows sizes in
theorem first_page_size (ref : LineRef) (listed : ref ∈ lineRefs p) : pgsPerLineOf p ref = lineSize p (getFirstPage p ref) := by
  have owned := first_page_owned p medium ref (line_refs_known p ref listed)
  obtain ⟨kind, top⟩ := first_page_line p rows ref listed owned
  rw [← sizes.size _ owned]
  exact same_size p _ _ kind.symm top.symm

end FirstPages

structure Spot where
  line : LineRef
  page : Page
  free : List LineRef

def forward (p : Params) (spot : Spot) : Option Spot :=
  match lineStep p spot.page spot.page with
  | some next => some { spot with page := next }
  | none =>
      match spot.free with
      | [] => none
      | ref :: rest => some ⟨ref, getFirstPage p ref, rest⟩

structure SpotPlaced (p : Params) (spot : Spot) : Prop where
  owned : OwnedPage p spot.page
  kind : isSuperblock spot.line = isSuperblock (getLine p spot.page)
  listed : ∀ ref ∈ spot.free, ref ∈ lineRefs p
  distinct : (spot.line :: spot.free).Nodup

section Spots

variable (p : Params) (rows : RowGeometry p.spp) (medium : Medium p)

include medium in
theorem step_owned (page next : Page) (owned : OwnedPage p page) (stepped : lineStep p page page = some next) :
    OwnedPage p next := by
  unfold lineStep at stepped
  split at stepped
  · exact nextpage_interleave_owned p medium page next owned stepped
  · exact nextpage_normal_owned p page next owned stepped

include rows in
theorem step_line (page next : Page) (owned : OwnedPage p page) (stepped : lineStep p page page = some next) :
    getLine p next = getLine p page := by
  have one : Walk.advance (lineStep p page) 1 page = some next := by simp [Walk.advance, stepped]
  have inside : placeIn p page + 1 < lineSize p page := by
    by_contra past
    rw [walk_past_line p rows page owned 1 (by omega)] at one
    cases one
  obtain ⟨there, walked, same⟩ := walk_in_line p rows page owned 1 inside
  rw [one] at walked
  cases walked
  exact same

include rows medium in
theorem entered_placed (ref : LineRef) (rest : List LineRef) (listed : ∀ other ∈ ref :: rest, other ∈ lineRefs p)
    (distinct : (ref :: rest).Nodup) : SpotPlaced p ⟨ref, getFirstPage p ref, rest⟩ := by
  have member := listed ref (List.mem_cons_self ..)
  have owned := first_page_owned p medium ref (line_refs_known p ref member)
  exact ⟨owned, (first_page_line p rows ref member owned).1.symm, fun other inRest => listed other (List.mem_cons_of_mem _ inRest), distinct⟩

include rows medium in
theorem forward_placed (spot next : Spot) (placed : SpotPlaced p spot) (moved : forward p spot = some next) : SpotPlaced p next := by
  unfold forward at moved
  split at moved
  · rename_i page stepped
    cases moved
    refine ⟨step_owned p medium _ _ placed.owned stepped, ?_, placed.listed, placed.distinct⟩
    rw [step_line p rows _ _ placed.owned stepped]
    exact placed.kind
  · split at moved
    · cases moved
    · rename_i ref rest free
      cases moved
      have listed := placed.listed
      have distinct := (List.nodup_cons.mp placed.distinct).2
      rw [free] at listed distinct
      exact entered_placed p rows medium ref rest listed distinct

theorem forward_differs (spot next : Spot) (placed : SpotPlaced p spot) (moved : forward p spot = some next) :
    (next.line, next.page) ≠ (spot.line, spot.page) := by
  unfold forward at moved
  intro same
  obtain ⟨line, page⟩ := Prod.mk.inj same
  split at moved
  · rename_i there stepped
    cases moved
    exact next_differs p spot.page spot.page there stepped page
  · split at moved
    · cases moved
    · rename_i ref rest free
      cases moved
      have outside := (List.nodup_cons.mp placed.distinct).1
      rw [free] at outside
      exact outside (by rw [← show ref = spot.line from line]; exact List.mem_cons_self ..)

include rows medium in
theorem advance_placed (count : Nat) (spot last : Spot) (placed : SpotPlaced p spot) (reached : Walk.advance (forward p) count spot = some last) :
    SpotPlaced p last :=
  (Walk.advance_simulates (forward p) (forward p) (SpotPlaced p) id
    (fun spot next placed moved => ⟨forward_placed p rows medium spot next placed moved, moved⟩) count spot last placed reached).1

include rows medium in
theorem line_followed {β : Type} (other : β → Option β) (image : Page → β) (start : Page) (owned : OwnedPage p start)
    (follows : ∀ page next, getLine p page = getLine p start → lineStep p page page = some next →
      other (image page) = some (image next))
    (count : Nat) (there : Page) (walked : Walk.advance (lineStep p start) count start = some there) :
    Walk.advance other count (image start) = some (image there) := by
  refine (Walk.advance_simulates (lineStep p start) other (fun page => OwnedPage p page ∧ getLine p page = getLine p start) image ?_
    count start there ⟨owned, rfl⟩ walked).2
  rintro page next ⟨pageOwned, same⟩ stepped
  rw [← line_step_same p start page same] at stepped
  refine ⟨⟨step_owned p medium page next pageOwned stepped, ?_⟩, follows page next same stepped⟩
  rw [step_line p rows page next pageOwned stepped, same]

include rows medium in
theorem forward_in_line (count : Nat) (spot : Spot) (placed : SpotPlaced p spot) (there : Page)
    (walked : Walk.advance (lineStep p spot.page) count spot.page = some there) :
    Walk.advance (forward p) count spot = some { spot with page := there } := by
  refine line_followed p rows medium (forward p) (fun page => { spot with page := page }) spot.page placed.owned ?_ count there walked
  intro page next _ stepped
  unfold forward
  dsimp only
  rw [stepped]

include rows medium in
theorem forward_past_line (spot : Spot) (placed : SpotPlaced p spot) (count : Nat)
    (ends : placeIn p spot.page + count = lineSize p spot.page) :
    Walk.advance (forward p) count spot =
      match spot.free with
      | [] => none
      | ref :: rest => some ⟨ref, getFirstPage p ref, rest⟩ := by
  have inside := place_in_line p rows spot.page placed.owned
  obtain ⟨before, rfl⟩ := Nat.exists_eq_add_one_of_ne_zero (show count ≠ 0 by omega)
  obtain ⟨there, walked, same⟩ := walk_in_line p rows spot.page placed.owned before (by omega)
  have past := walk_past_line p rows spot.page placed.owned (before + 1) (by omega)
  rw [Walk.advance_succ, walked, Option.bind_some, ← line_step_same p spot.page there same] at past
  rw [Walk.advance_succ, forward_in_line p rows medium before spot placed there walked, Option.bind_some]
  unfold forward
  dsimp only
  rw [past]

include rows in
theorem line_path (page : Page) (owned : OwnedPage p page) (count : Nat) (fits : placeIn p page + count ≤ lineSize p page) :
    (Walk.path (lineStep p page) count page).length = count ∧ (Walk.path (lineStep p page) count page).Nodup ∧
      ∀ there ∈ Walk.path (lineStep p page) count page, getLine p there = getLine p page := by
  refine ⟨?_, ?_, ?_⟩
  · refine Walk.path_length _ count page fun index under => ?_
    obtain ⟨there, walked, _⟩ := walk_in_line p rows page owned index (by omega)
    exact ⟨there, walked⟩
  · exact Walk.path_distinct _ count (lineSize p page) page (walk_past_line p rows page owned _ (Nat.le_add_left ..))
  · intro there member
    obtain ⟨index, reached⟩ := List.mem_iff_getElem?.mp member
    rw [Walk.path_get] at reached
    split at reached
    · rename_i under
      obtain ⟨other, walked, same⟩ := walk_in_line p rows page owned index (by omega)
      rw [walked] at reached
      cases reached
      exact same
    · cases reached

end Spots

theorem dual_unit_sizes (config : DualConfig) (loc : Loc) : UnitSizes (dualParams config loc) := by
  constructor
  intro page owned
  have known := get_line_known _ (dual_medium config loc) page owned
  have used := dual_used_pgs config loc page.blk owned.block.first owned.block.last
  rw [dual_pgs_per_line config loc _ known]
  unfold lineSize
  split
  · unfold rowPages
    rw [show (dualParams config loc).spp = ssdInitParams config from rfl, ← (config_geometry config).blocks, used,
      media_line_blocks config loc]
    exact Nat.mul_comm _ _
  · exact used.symm

end ConZone
