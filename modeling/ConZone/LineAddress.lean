import ConZone.LineWalk
import ConZone.ReverseMap

set_option autoImplicit false

namespace ConZone

-- A line or subline owns the blocks of the pages that the traversal from its
-- first page reaches.
def Owns (p : Params) (ref : LineRef) (block : Block) : Prop :=
  ∃ count page, Walk.advance (lineStep p (getFirstPage p ref)) count (getFirstPage p ref) = some page ∧ page.block = block

structure InRows (p : Params) (block : Block) : Prop where
  ch : block.plane.ch < p.spp.nchs
  lun : block.plane.lun < p.spp.lunsPerCh
  pl : block.plane.pl < p.spp.plsPerLun
  first : zmsFirstOwnedBlk p ≤ block.blk
  last : (block.blk - zmsFirstOwnedBlk p) * p.spp.lineGroups < p.zpp.ttLines

structure LineGeometry (p : Params) : Prop extends RowGeometry p.spp where
  used : ∀ id, id < p.zpp.ttLines → 0 < usedPgs p.spp (lmid2Blkid p (.line id))

structure LineAddressing (p : Params) : Prop where
  roundTrip : ∀ ref ∈ lineRefs p, getLine p (getFirstPage p ref) = ref
  apart : ∀ ref ∈ lineRefs p, ∀ other ∈ lineRefs p, ref ≠ other → ∀ block, Owns p ref block → ¬Owns p other block
  inRows : ∀ ref ∈ lineRefs p, ∀ block, Owns p ref block → InRows p block
  belongs : ∀ ref ∈ lineRefs p, ∀ page, Owns p ref page.block →
    ∃! line, line ∈ lineRefs p ∧ getLine p page = line ∧ Owns p line page.block

theorem dual_line_geometry (config : DualConfig) (loc : Loc) : LineGeometry (dualParams config loc) :=
  ⟨config_row_geometry config, (dual_line_sizes config loc).used⟩

section FirstPages

variable (p : Params) (geometry : Geometry p.spp)

include geometry in
theorem first_page_injective (parent other id second : Nat) (bound : id < p.spp.blksPerLine) (secondBound : second < p.spp.blksPerLine)
    (same : (getFirstPage p (.sub parent id)).block = (getFirstPage p (.sub other second)).block) : id = second := by
  have slots := congrArg (slotOf p) same
  have plane : ∀ slot, slot < p.spp.blksPerLine → slot / lunsPerGroup p.spp < p.spp.plsPerLun := by
    intro slot inside
    rw [geometry.blocks, ← geometry.group, Nat.mul_comm] at inside
    exact Radix.digit_bound slot _ _ inside
  rw [first_page_slot p geometry.toGroupRows, first_page_slot p geometry.toGroupRows, Nat.mod_eq_of_lt (plane id bound),
    Nat.mod_eq_of_lt (plane second secondBound)] at slots
  obtain ⟨dies, planes⟩ := Radix.pair_unique _ _ _ _ _ (plane id bound) (plane second secondBound) slots
  rw [← Radix.digits id (lunsPerGroup p.spp), dies, planes, Radix.digits]

end FirstPages

section Owning

variable (p : Params) (sound : LineGeometry p)

include sound in
theorem get_line_first_page (ref : LineRef) (listed : ref ∈ lineRefs p) :
    getLine p (getFirstPage p ref) =
      if isSuperblock ref then ref else .sub (topId ref) (slotOf p (getFirstPage p ref).block) := by
  have geometry := sound.toGeometry
  have line := get_line_of_block p geometry.toGroupRows (getFirstPage p ref).block (getFirstPage p ref).pg (first_page_ch p geometry.toGroupRows ref)
  have lmid := first_page_lmid p sound.toRowGeometry ref
  rw [lmid] at line
  have kind := (mem_line_refs p ref).mp listed
  cases ref with
  | line id => exact line.trans (if_neg (Nat.not_lt.mpr kind.2))
  | sub parent id => exact line.trans (if_pos kind.2.1)

include sound in
theorem first_page_step (ref : LineRef) (listed : ref ∈ lineRefs p) :
    lineStep p (getFirstPage p ref) = if isSuperblock ref then nextpageInterleave p else nextpageNormal p := by
  have kind : isSuperblock (getLine p (getFirstPage p ref)) = isSuperblock ref := by
    rw [get_line_first_page p sound ref listed]
    cases ref <;> rfl
  unfold lineStep
  rw [kind]

include sound in
theorem owns_line (id : Nat) (listed : .line id ∈ lineRefs p) (block : Block) :
    Owns p (.line id) block ↔
      block.plane.ch < p.spp.nchs ∧ block.plane.pl < p.spp.plsPerLun ∧ block.plane.lun / rowsPerLine p.spp = id % p.spp.lineGroups ∧
        block.blk = lmid2Blkid p (.line id) := by
  have rows := sound.toRowGeometry
  have geometry := rows.toGeometry
  have known := ((mem_line_refs p _).mp listed).1
  have used := sound.used id known
  have positive : 0 < rowPages p (lmid2Blkid p (.line id)) := by
    refine Nat.mul_pos used ?_
    exact Nat.mul_pos (Nat.mul_pos geometry.rows geometry.channels) geometry.planes
  have start : linePage p id 0 = getFirstPage p (.line id) := by
    rw [get_first_page_line p geometry.toGroupRows]
    simp [linePage]
  have walk := fun count => Walk.advance_place _ _ _
    (row_enumerated p geometry.toGroupRows rows.flash (id % p.spp.lineGroups) (lmid2Blkid p (.line id)) (rows.flashpgs _)) count 0 positive
  simp only [page_at_line, start, Nat.zero_add] at walk
  unfold Owns
  rw [first_page_step p sound _ listed]
  simp only [isSuperblock, if_true, walk]
  constructor
  · rintro ⟨count, page, reached, rfl⟩
    split at reached
    · rename_i inside
      have own := (mem_line_pages p rows.toWalkGeometry id page).mp
        (List.mem_map.mpr ⟨count, List.mem_range.mpr inside, Option.some.inj reached⟩)
      exact ⟨own.ch, own.pl, own.lun, own.blk⟩
    · cases reached
  · rintro ⟨ch, pl, lun, blk⟩
    have own : InLine p id ⟨block, 0⟩ := by
      refine ⟨⟨ch, pl, ?_⟩, lun, blk⟩
      change 0 < usedPgs p.spp block.blk
      rw [blk]
      exact used
    obtain ⟨place, inside, there⟩ := List.mem_map.mp ((mem_line_pages p rows.toWalkGeometry id _).mpr own)
    exact ⟨place, ⟨block, 0⟩, by rw [if_pos (List.mem_range.mp inside), there], rfl⟩

include sound in
theorem owns_sub (parent id : Nat) (listed : .sub parent id ∈ lineRefs p) (block : Block) :
    Owns p (.sub parent id) block ↔ block = (getFirstPage p (.sub parent id)).block := by
  have stays : ∀ count page, Walk.advance (nextpageNormal p) count (getFirstPage p (.sub parent id)) = some page →
      page.block = (getFirstPage p (.sub parent id)).block := by
    intro count page reached
    refine (Walk.advance_simulates _ (fun here : Block => some here) (fun here => here.block = (getFirstPage p (.sub parent id)).block)
      Page.block ?_ count _ _ rfl reached).1
    intro place following kept stepped
    unfold nextpageNormal at stepped
    split at stepped
    · have same : following.block = place.block := by
        rw [← Option.some.inj stepped]
        rfl
      rw [same]
      exact ⟨kept, rfl⟩
    · cases stepped
  unfold Owns
  rw [first_page_step p sound _ listed]
  simp only [isSuperblock, Bool.false_eq_true, if_false]
  constructor
  · rintro ⟨count, page, reached, rfl⟩
    exact stays count page reached
  · rintro rfl
    exact ⟨0, _, rfl, rfl⟩

include sound in
theorem owned_lmid (ref : LineRef) (listed : ref ∈ lineRefs p) (block : Block) (own : Owns p ref block) :
    lmidOf p block = topId ref ∧ block.plane.ch < p.spp.nchs ∧ block.plane.pl < p.spp.plsPerLun ∧
      block.plane.lun / rowsPerLine p.spp = topId ref % p.spp.lineGroups ∧ block.blk = lmid2Blkid p (.line (topId ref)) := by
  have geometry := sound.toGeometry
  cases ref with
  | line id =>
      obtain ⟨ch, pl, lun, blk⟩ := (owns_line p sound id listed block).mp own
      refine ⟨?_, ch, pl, lun, blk⟩
      unfold lmidOf
      rw [blk, lun]
      unfold lmid2Blkid
      rw [Nat.add_sub_cancel]
      exact Radix.digits id _
  | sub parent id =>
      have first := (owns_sub p sound parent id listed block).mp own
      rw [first]
      refine ⟨first_page_lmid p sound.toRowGeometry _, first_page_ch p geometry.toGroupRows _, ?_⟩
      rw [get_first_page_sub p geometry.toGroupRows]
      exact ⟨Nat.mod_lt _ geometry.planes, Radix.div_digit _ _ _ (subline_row p geometry.toGroupRows id), rfl⟩

include sound in
theorem owned_in_rows (ref : LineRef) (listed : ref ∈ lineRefs p) (block : Block) (own : Owns p ref block) : InRows p block := by
  have geometry := sound.toGeometry
  obtain ⟨_, ch, pl, lun, blk⟩ := owned_lmid p sound ref listed block own
  have known := line_refs_known p ref listed
  refine ⟨ch, ?_, pl, ?_, ?_⟩
  · rw [geometry.luns, ← Radix.digits block.plane.lun (rowsPerLine p.spp), lun]
    exact Radix.pair_bound _ _ _ _ (Nat.mod_lt _ geometry.groups) (Nat.mod_lt _ geometry.rows)
  · rw [blk]
    exact Nat.le_add_left _ _
  · rw [blk]
    unfold lmid2Blkid
    rw [Nat.add_sub_cancel]
    exact Nat.lt_of_le_of_lt (Nat.div_mul_le_self _ _) known

include sound in
theorem owned_once (ref other : LineRef) (listed : ref ∈ lineRefs p) (otherListed : other ∈ lineRefs p) (block : Block)
    (own : Owns p ref block) (otherOwn : Owns p other block) : ref = other := by
  have first := (owned_lmid p sound ref listed block own).1
  have second := (owned_lmid p sound other otherListed block otherOwn).1
  have top : topId ref = topId other := first.symm.trans second
  have kind := (mem_line_refs p ref).mp listed
  have otherKind := (mem_line_refs p other).mp otherListed
  cases ref with
  | line id =>
      cases other with
      | line again => exact congrArg LineRef.line top
      | sub parent slot =>
          have same : id = parent := top
          have whole := kind.2
          have split := otherKind.2.1
          omega
  | sub parent slot =>
      cases other with
      | line id =>
          have same : parent = id := top
          have split := kind.2.1
          have whole := otherKind.2
          omega
      | sub again next =>
          have here := (owns_sub p sound parent slot listed block).mp own
          have there := (owns_sub p sound again next otherListed block).mp otherOwn
          have slots := first_page_injective p sound.toGeometry parent again slot next kind.2.2 otherKind.2.2 (here.symm.trans there)
          rw [show parent = again from top, slots]

include sound in
theorem owned_decodes (roundTrip : ∀ ref ∈ lineRefs p, getLine p (getFirstPage p ref) = ref) (ref : LineRef) (listed : ref ∈ lineRefs p)
    (page : Page) (own : Owns p ref page.block) : getLine p page = ref := by
  obtain ⟨lmid, ch, _⟩ := owned_lmid p sound ref listed page.block own
  cases ref with
  | line id =>
      have line := get_line_of_block p sound.toGroupRows page.block page.pg ch
      rw [lmid] at line
      exact line.trans (if_neg (Nat.not_lt.mpr ((mem_line_refs p (.line id)).mp listed).2))
  | sub parent id =>
      have first := (owns_sub p sound parent id listed page.block).mp own
      have line : getLine p page = getLine p ⟨page.block, (getFirstPage p (.sub parent id)).pg⟩ := rfl
      rw [line, first]
      exact roundTrip _ listed

theorem interleave_bound : interleaveSline p ≤ p.zpp.ttLines ∨ 4 ≤ p.zpp.ttLines := by
  unfold interleaveSline
  generalize (if zmsIsDualNs p.zpp.nsType then p.zpp.pgsPerLine else p.spp.pgsPerLine) = media
  dsimp only
  split
  · exact .inl (Nat.le_refl _)
  · rename_i many
    exact .inr (by omega)

include sound in
theorem line_addressing_iff :
    LineAddressing p ↔ interleaveSline p = 0 ∨ p.spp.plsPerLun = 1 ∨ lunsPerGroup p.spp = 1 := by
  have geometry := sound.toGeometry
  have dies := luns_per_group_positive p geometry.toGroupRows
  have planes := geometry.planes
  constructor
  · intro addressing
    by_contra split
    have bound := interleave_bound p
    have size : p.spp.blksPerLine = lunsPerGroup p.spp * p.spp.plsPerLun := by rw [geometry.blocks, geometry.group]
    have two : 2 * 2 ≤ lunsPerGroup p.spp * p.spp.plsPerLun := Nat.mul_le_mul (by omega) (by omega)
    have listed : LineRef.sub 0 1 ∈ lineRefs p := (mem_line_refs p _).mpr ⟨by omega, by omega, by omega⟩
    have trip := addressing.roundTrip _ listed
    rw [get_line_first_page p sound _ listed] at trip
    have slot := (LineRef.sub.inj trip).2
    rw [first_page_slot p geometry.toGroupRows, Nat.mod_eq_of_lt (by omega), Nat.div_eq_of_lt (by omega), Nat.zero_mod, Nat.one_mul] at slot
    omega
  · intro flat
    have roundTrip : ∀ ref ∈ lineRefs p, getLine p (getFirstPage p ref) = ref := by
      intro ref listed
      rw [get_line_first_page p sound ref listed]
      have kind := (mem_line_refs p ref).mp listed
      cases ref with
      | line id => rfl
      | sub parent id =>
          have below := kind.2.1
          have bound := kind.2.2
          rw [geometry.blocks, ← geometry.group] at bound
          have slot : id % lunsPerGroup p.spp * p.spp.plsPerLun + id / lunsPerGroup p.spp % p.spp.plsPerLun = id := by
            rcases flat with whole | plane | die
            · omega
            · rw [plane, Nat.mul_one] at bound ⊢
              rw [Nat.mod_one, Nat.add_zero, Nat.mod_eq_of_lt bound]
            · rw [die, Nat.one_mul] at bound
              rw [die, Nat.mod_one, Nat.zero_mul, Nat.zero_add, Nat.div_one, Nat.mod_eq_of_lt bound]
          rw [first_page_slot p geometry.toGroupRows, slot]
          rfl
    refine ⟨roundTrip, ?_, owned_in_rows p sound, ?_⟩
    · intro ref listed other otherListed differ block own otherOwn
      exact differ (owned_once p sound ref other listed otherListed block own otherOwn)
    · intro ref listed page own
      refine ⟨ref, ⟨listed, owned_decodes p sound roundTrip ref listed page own, own⟩, ?_⟩
      rintro line ⟨_, decoded, _⟩
      exact decoded.symm.trans (owned_decodes p sound roundTrip ref listed page own)

end Owning

def splitConfig : DualConfig :=
  { twoPlaneConfig with slcInitBlks := 4, blksPerPln := 5, slcEnough := sampleConfig.slcEnough, tlcPresent := by decide, blocksFit := by decide }

theorem second_subline_decodes_elsewhere :
    LineRef.sub 0 1 ∈ lineRefs (dualParams splitConfig .normal) ∧
      getLine (dualParams splitConfig .normal) (getFirstPage (dualParams splitConfig .normal) (.sub 0 1)) = .sub 0 2 := by decide

theorem line_addressing_fails : ¬LineAddressing (dualParams splitConfig .normal) := by
  intro addressing
  have trip := addressing.roundTrip (.sub 0 1) second_subline_decodes_elsewhere.1
  rw [second_subline_decodes_elsewhere.2] at trip
  cases trip

theorem line_addressing_sample : LineAddressing (dualParams sampleConfig .normal) :=
  (line_addressing_iff _ (dual_line_geometry sampleConfig .normal)).mpr (by decide)

end ConZone
