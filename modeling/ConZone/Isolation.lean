import ConZone.Dual
import ConZone.OnlyLines
import ConZone.Upkeep

set_option autoImplicit false

namespace ConZone

def ForeignKept (p : Params) (before after : ZmsFtl) : Prop :=
  ∀ block, ¬OwnedBlock p block → after.nand block = before.nand block

theorem foreign_kept_trans (p : Params) (first second third : ZmsFtl) (left : ForeignKept p first second)
    (right : ForeignKept p second third) : ForeignKept p first third :=
  fun block foreign => (right block foreign).trans (left block foreign)

theorem same_nand_kept (p : Params) (before after : ZmsFtl) (same : after.nand = before.nand) : ForeignKept p before after :=
  fun block _ => congrFun same block

theorem only_lines_nand (before after : ZmsFtl) (only : OnlyLines before after) : after.nand = before.nand := by
  obtain ⟨_, _, _, _, _, same⟩ := only
  rw [same]

theorem quiet_nand (before after : ZmsFtl) (quiet : Quiet before after) : after.nand = before.nand :=
  congrArg (fun side => side.1) quiet.media

section Primitives

variable (p : Params) (medium : Medium p)

theorem put_block_foreign (ftl : ZmsFtl) (block : Block) (state : NandBlock) (owned : OwnedBlock p block) :
    ForeignKept p ftl (putBlock ftl block state) := by
  intro other foreign
  have apart : other ≠ block := by
    intro same
    rw [same] at foreign
    exact foreign owned
  exact Function.update_of_ne apart _ _

theorem set_maptbl_nand (ftl : ZmsFtl) (lpn : Nat) (ppa : Ppa) : (setMaptblEnt p ftl lpn ppa).nand = ftl.nand := by
  by_cases inside : lpn < p.zpp.ttLpns
  · rw [setMaptblEnt, if_pos inside]
  · rw [setMaptblEnt, if_neg inside]

theorem set_rmap_nand (ftl : ZmsFtl) (lpn : Option Nat) (page : Page) : (setRmapEnt p ftl lpn page).nand = ftl.nand := by
  by_cases inside : ppa2Pgidx p page < p.zpp.ttPpns
  · rw [setRmapEnt, if_pos inside]
  · rw [setRmapEnt, if_neg inside]

theorem note_filled_line_nand (ftl : ZmsFtl) (ref : LineRef) (loc : Loc) (ioType : IoType) :
    (noteFilledLine p ftl ref loc ioType).nand = ftl.nand := by
  unfold noteFilledLine
  dsimp only
  split <;> rfl

theorem mark_page_valid_foreign (ftl : ZmsFtl) (page : Page) (owned : OwnedBlock p page.block) :
    ForeignKept p ftl (markPageValid p ftl page) := by
  simp only [markPageValid]
  split
  · exact same_nand_kept p ftl ftl rfl
  · split
    · exact put_block_foreign p ftl page.block _ owned
    · split
      · exact put_block_foreign p ftl page.block _ owned
      · exact put_block_foreign p ftl page.block _ owned

theorem mark_page_invalid_foreign (ftl : ZmsFtl) (page : Page) (owned : OwnedBlock p page.block) :
    ForeignKept p ftl (markPageInvalid p ftl page) :=
  put_block_foreign p ftl page.block _ owned

theorem drop_mapping_foreign (ftl : ZmsFtl) (lpn : Nat) (page : Page) (owned : OwnedBlock p page.block) :
    ForeignKept p ftl (dropMapping p ftl lpn page) := by
  apply foreign_kept_trans p _ _ _ (mark_page_invalid_foreign p ftl page owned)
  exact same_nand_kept p _ _ (set_rmap_nand p (markPageInvalid p ftl page) none page)

theorem marked_page_foreign (ftl : ZmsFtl) (lpn : Nat) (page : Page) (map : MapType) (owned : OwnedBlock p page.block) :
    ForeignKept p ftl (setRmapEnt p (markPageValid p (setMaptblEnt p ftl lpn (.mapped page map)) page) (some lpn) page) := by
  apply foreign_kept_trans p _ _ _ (same_nand_kept p ftl _ (set_maptbl_nand p ftl lpn (.mapped page map)))
  apply foreign_kept_trans p _ _ _ (mark_page_valid_foreign p _ page owned)
  exact same_nand_kept p _ _ (set_rmap_nand p _ (some lpn) page)

include medium in
theorem update_mapping_foreign (ftl next : ZmsFtl) (lpn : Nat) (loc : Loc) (ioType : IoType) (bounded : Bounded p ftl)
    (ran : updateMappingIfReserved p ftl lpn loc ioType = some next) : ForeignKept p ftl next := by
  unfold updateMappingIfReserved at ran
  split at ran
  · rename_i prev map before
    have prevOwned := get_maptbl_owned p ftl _ prev map bounded before
    split at ran
    · cases ran
    · split at ran
      · rename_i page map visited
        have owned := nextpage_owned p medium ftl prev page _ map true bounded prevOwned visited
        cases ran
        apply foreign_kept_trans p _ _ _ (marked_page_foreign p ftl lpn page map owned.block)
        have refined := quiet_nand _ _ (refine_map_gran_quiet p lpn loc mapType (noteFilledLine p (decLineRpc p
          (setRmapEnt p (markPageValid p (setMaptblEnt p ftl lpn (.mapped page map)) page) (some lpn) page) page)
          (getLine p page) loc ioType))
        exact same_nand_kept p _ _ (refined.trans (note_filled_line_nand p _ _ loc ioType))
      · cases ran
  · cases ran

theorem reserve_unit_nand (ftl next : ZmsFtl) (slpn pgs : Nat) (ran : reserveUnit p ftl slpn pgs = .ok next) :
    next.nand = ftl.nand := by
  unfold reserveUnit at ran
  split at ran
  · cases ran
    rfl
  · cases ran

theorem take_first_page_foreign (ftl : ZmsFtl) (slpn : Nat) (page : Page) (owned : OwnedBlock p page.block) :
    ForeignKept p ftl (takeFirstPage p ftl slpn page) := by
  apply foreign_kept_trans p _ _ _ (marked_page_foreign p ftl slpn page .pageMap owned)
  exact same_nand_kept p _ _ (quiet_nand _ _ (set_map_gran_quiet p _ .pageMap slpn))

include medium in
theorem reserve_mapping_foreign (ftl next : ZmsFtl) (lpn : Nat) (loc : Loc) (ioType : IoType) (bounded : Bounded p ftl)
    (ran : reserveMapping p ftl lpn loc ioType = .ok next) : ForeignKept p ftl next := by
  obtain ⟨reserved, page, opened, looped, advanced, last, entries, taken, reserving, advancing, checked⟩ :=
    reserve_mapping_runs p ftl next lpn loc ioType ran
  have unit := reserve_unit_bounded p ftl reserved _ _ bounded entries
  obtain ⟨_, owned, _, _⟩ := get_new_page_bounded p medium reserved opened ioType loc page unit taken
  have first := (only_lines_nand _ _ (get_new_page_lines p reserved opened ioType loc page taken)).trans
    (reserve_unit_nand p ftl reserved _ _ entries)
  have noted := note_filled_line_nand p (takeFirstPage p opened (unitStart p lpn loc) page) (getLine p page) loc ioType
  have loop := only_lines_nand _ _ (reserve_loop_lines p ioType loc _ _ looped reserving)
  have moved := only_lines_nand _ _ (advance_write_pointer_lines p looped advanced ioType loc advancing)
  have again := only_lines_nand _ _ (get_new_page_lines p advanced next ioType loc last checked)
  apply foreign_kept_trans p _ _ _ (same_nand_kept p ftl opened first)
  apply foreign_kept_trans p _ _ _ (take_first_page_foreign p opened (unitStart p lpn loc) page owned.block)
  exact same_nand_kept p _ _ (((again.trans moved).trans loop).trans noted)

include medium in
theorem update_or_reserve_mapping_foreign (ftl next : ZmsFtl) (lpn : Nat) (loc : Loc) (ioType : IoType) (bounded : Bounded p ftl)
    (ran : updateOrReserveMapping p ftl lpn loc ioType = .ok next) : ForeignKept p ftl next := by
  unfold updateOrReserveMapping at ran
  split at ran
  · rename_i updated taken
    cases ran
    exact update_mapping_foreign p medium ftl next lpn loc ioType bounded taken
  · split at ran
    · cases ran
      exact same_nand_kept p ftl ftl rfl
    · exact reserve_mapping_foreign p medium ftl next lpn loc ioType bounded ran

include medium in
theorem erased_block_owned (ref : LineRef) (known : KnownRef p ref) (block : Block) (member : block ∈ erasedBlocks p ref) :
    OwnedBlock p block := by
  have geometry := medium.geometry
  cases ref with
  | line id =>
      obtain ⟨ch, group, pl, blk⟩ := (mem_erased_line p geometry id block).mp member
      obtain ⟨first, last⟩ := line_blk_range p medium.toWholeRows id known
      have inside := Nat.mod_lt id geometry.groups
      have planes := geometry.planes
      have lun : block.plane.lun < p.spp.lunsPerCh := by
        rw [geometry.luns, ← Radix.digits block.plane.lun (rowsPerLine p.spp), group]
        exact Radix.pair_bound _ _ _ _ inside (Nat.mod_lt _ geometry.rows)
      exact ⟨ch, lun, by omega, by omega, by omega⟩
  | sub parent id =>
      rw [List.mem_singleton.mp (member : block ∈ [(getFirstPage p (.sub parent id)).block])]
      exact (first_page_owned p medium (.sub parent id) known).block

include medium in
theorem erase_line_foreign (ftl : ZmsFtl) (ref : LineRef) (ioType : IoType) (known : KnownRef p ref) :
    ForeignKept p ftl (eraseLine p ftl ref ioType) := by
  intro block foreign
  obtain ⟨_, missed⟩ := erase_blocks_nand p ioType (erasedBlocks p ref) ftl (erased_blocks_nodup p ref)
  rw [erase_line_nand]
  exact missed block fun member => foreign (erased_block_owned p medium ref known block member)

theorem select_victim_nand (ftl next : ZmsFtl) (force : Bool) (loc : Loc) (victim : LineRef)
    (selected : selectVictimLine p ftl force loc = some (victim, next)) : next.nand = ftl.nand := by
  unfold selectVictimLine at selected
  split at selected
  · cases selected
  · split at selected
    · cases selected
    · cases selected
      rfl

-- From where a command starts, the FTL keeps to the blocks of its namespace.
structure Confined (start ftl : ZmsFtl) : Prop where
  bounded : Bounded p ftl
  foreign : ForeignKept p start ftl

include medium in
theorem confined_rules (start : ZmsFtl) : MediumRules p (Confined p start) where
  bounded := fun _ confined => confined.bounded
  media := by
    intro before after media confined
    refine ⟨media_bounded p before after media confined.bounded, ?_⟩
    have same : after.nand = before.nand := congrArg (fun side => side.1) media
    exact foreign_kept_trans p _ _ _ confined.foreign (same_nand_kept p before after same)
  maps := by
    intro ftl next lpn loc ioType confined ran
    refine ⟨update_or_reserve_mapping_bounded p medium ftl next lpn loc ioType confined.bounded ran, ?_⟩
    have mapped := update_or_reserve_mapping_foreign p medium ftl next lpn loc ioType confined.bounded ran
    exact foreign_kept_trans p _ _ _ confined.foreign mapped
  drops := by
    intro ftl lpn page map confined mapped
    have owned := get_maptbl_owned p ftl lpn page map confined.bounded mapped
    refine ⟨drop_mapping_bounded p ftl lpn page confined.bounded (get_line_known p medium page owned), ?_⟩
    exact foreign_kept_trans p _ _ _ confined.foreign (drop_mapping_foreign p ftl lpn page owned.block)
  erases := by
    intro ftl ref ioType confined known
    refine ⟨erase_line_bounded p medium ftl ref ioType confined.bounded known, ?_⟩
    exact foreign_kept_trans p _ _ _ confined.foreign (erase_line_foreign p medium ftl ref ioType known)
  selects := by
    intro ftl next force loc victim confined selected
    refine ⟨(select_victim_bounded p ftl next force loc victim confined.bounded selected).1, ?_⟩
    have same := select_victim_nand p ftl next force loc victim selected
    exact foreign_kept_trans p _ _ _ confined.foreign (same_nand_kept p ftl next same)

include medium in
theorem step_confined (ftl next : ZmsFtl) (event : Event) (bounded : Bounded p ftl) (taken : Step p ftl event next) :
    Confined p ftl next :=
  step_kept p medium (Confined p ftl) (confined_rules p medium ftl) ftl next event
    ⟨bounded, same_nand_kept p ftl ftl rfl⟩ taken

end Primitives

section Namespaces

variable (config : DualConfig)

theorem share_ssd_bounded (p : Params) (source own : ZmsFtl) (bounded : Bounded p own) : Bounded p (shareSsd source own) :=
  ⟨bounded.lines, bounded.current, bounded.page, bounded.place, bounded.mapped⟩

theorem dual_reachable_bounded (allowed : DualFtl → Loc × Event → Prop) (dual : DualFtl)
    (reached : DualReachable config allowed dual) (loc : Loc) : Bounded (dualParams config loc) (dual loc) := by
  refine TransitionSystem.reach_invariant (dualSystem config) allowed
    (fun dual => ∀ loc, Bounded (dualParams config loc) (dual loc)) ⟨?_, ?_⟩ dual reached loc
  · intro state init loc
    obtain ⟨clock, same⟩ := init
    rw [same]
    exact realize_bounded _ (dual_medium config loc) clock
  · intro state after event kept _ taken loc
    cases taken with
    | run actor event next ran =>
        by_cases here : loc = actor
        · subst here
          rw [ran_on_self]
          exact (step_confined _ (dual_medium config loc) _ next event (kept loc) ran).bounded
        · rw [ran_on_other state actor loc next here]
          exact share_ssd_bounded _ next _ (kept loc)

theorem owned_blocks_apart (first second : Loc) (apart : first ≠ second) (block : Block)
    (owned : OwnedBlock (dualParams config first) block) : ¬OwnedBlock (dualParams config second) block := by
  intro other
  have left := dual_blk_medium config first block.blk owned.first owned.last
  have right := dual_blk_medium config second block.blk other.first other.last
  cases first with
  | pslc =>
      cases second with
      | pslc => exact apart rfl
      | normal => exact nomatch right.mp (left.mpr rfl)
  | normal =>
      cases second with
      | pslc => exact nomatch left.mp (right.mpr rfl)
      | normal => exact apart rfl

structure Undisturbed (p : Params) (before after : ZmsFtl) : Prop where
  own : after = shareSsd after before
  blocks : ∀ block, OwnedBlock p block → after.nand block = before.nand block

theorem other_undisturbed (dual : DualFtl) (loc other : Loc) (event : Event) (next : DualFtl)
    (bounded : Bounded (dualParams config loc) (dual loc)) (shares : SharesSsd (dual loc) (dual other)) (apart : other ≠ loc)
    (taken : DualStep config dual (loc, event) next) : Undisturbed (dualParams config other) (dual other) (next other) := by
  cases taken with
  | run _ _ last ran =>
      have confined := step_confined _ (dual_medium config loc) (dual loc) last event bounded ran
      rw [ran_on_other dual loc other last apart]
      refine ⟨rfl, ?_⟩
      intro block owned
      have kept := confined.foreign block (owned_blocks_apart config other loc apart block owned)
      rw [shares.nand] at kept
      exact kept

-- The PPAs of a namespace lie in the block rows of its medium.
def MapsOwnRows (loc : Loc) (ftl : ZmsFtl) : Prop :=
  ∀ lpn page map, ftl.maptbl lpn = .mapped page map →
    match loc with
    | .pslc => page.blk < (dualParams config .pslc).spp.pslcBlks
    | .normal => (dualParams config .normal).spp.pslcBlks ≤ page.blk

theorem bounded_maps_own_rows (loc : Loc) (ftl : ZmsFtl) (bounded : Bounded (dualParams config loc) ftl) :
    MapsOwnRows config loc ftl := by
  intro lpn page map mapped
  have owned := (bounded.mapped lpn page map mapped).block
  have medium := dual_blk_medium config loc page.blk owned.first owned.last
  cases loc with
  | pslc => exact medium.mpr rfl
  | normal => exact Nat.le_of_not_lt fun below => nomatch medium.mp below

theorem namespaces_do_not_interfere (allowed : DualFtl → Loc × Event → Prop) (dual : DualFtl)
    (reached : DualReachable config allowed dual) :
    (∀ loc, MapsOwnRows config loc (dual loc)) ∧
      ∀ loc event next, DualStep config dual (loc, event) next → ∀ other, other ≠ loc →
        Undisturbed (dualParams config other) (dual other) (next other) := by
  have bounded := dual_reachable_bounded config allowed dual reached
  refine ⟨fun loc => bounded_maps_own_rows config loc (dual loc) (bounded loc), ?_⟩
  intro loc event next taken other apart
  have shares := dual_shares config allowed dual reached loc other
  exact other_undisturbed config dual loc other event next (bounded loc) shares apart taken

end Namespaces

-- Both namespaces hold data when zone 0 of the SLC namespace is reset.
theorem reset_leaves_other_namespace :
    ∃ dual next : DualFtl, mappedPpa ((dual .pslc).maptbl 0) = true ∧ (next .pslc).maptbl 0 = .unmapped ∧
      mappedPpa ((dual .normal).maptbl 0) = true ∧ MapsOwnRows sampleConfig .normal (dual .normal) ∧
        Undisturbed (dualParams sampleConfig .normal) (dual .normal) (next .normal) := by
  obtain ⟨dual, reached, checked⟩ := dual_run_check sampleConfig
    [(.pslc, writeEvent 0 32), (.normal, writeEvent 0 32)] (fun _ => 0)
    (fun dual : DualFtl => mappedPpa ((dual .pslc).maptbl 0) && mappedPpa ((dual .normal).maptbl 0) &&
      (stepEvent (dualParams sampleConfig .pslc) (dual .pslc) (resetEvent 0)).any fun next : ZmsFtl => decide (next.maptbl 0 = .unmapped))
    (by decide +kernel)
  simp only [Bool.and_eq_true, Option.any_eq_true, decide_eq_true_eq] at checked
  obtain ⟨⟨slc, tlc⟩, next, stepped, cleared⟩ := checked
  obtain ⟨rows, undisturbed⟩ := namespaces_do_not_interfere sampleConfig anyEvent dual reached
  refine ⟨dual, ranOn dual .pslc next, slc, ?_, tlc, rows .normal, ?_⟩
  · rw [ran_on_self]
    exact cleared
  · exact undisturbed .pslc (resetEvent 0) _ (.run dual .pslc _ next (step_event_step _ _ _ _ stepped)) .normal (by decide)

end ConZone
