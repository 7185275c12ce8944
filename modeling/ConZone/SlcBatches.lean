import ConZone.CallBatches
import ConZone.MediaPointers
import ConZone.SlcCollect

set_option autoImplicit false

namespace ConZone

section Digits

variable (p : Params) (rows : RowGeometry p.spp)

-- The page a pointer gives out next is the place-th of its flash page; a pointer
-- without a line begins a new one.
def DigitAhead (p : Params) (place : Nat) (pointer : WritePointer) : Prop :=
  (pointer.curline = none → place % p.spp.pgsPerFlashpg = 0) ∧
    (pointer.curline ≠ none → pointer.pg % p.spp.pgsPerFlashpg = place % p.spp.pgsPerFlashpg)

theorem digit_begun (pointer : WritePointer) : DigitAhead p (if pointer.curline = none then 0 else pointer.pg) pointer := by
  refine ⟨fun closed => ?_, fun opened => ?_⟩
  · rw [if_pos closed, Nat.zero_mod]
  · rw [if_neg opened]

theorem first_page_digit (place : Nat) (ref : LineRef) (zero : place % p.spp.pgsPerFlashpg = 0) :
    (getFirstPage p ref).pg % p.spp.pgsPerFlashpg = place % p.spp.pgsPerFlashpg := by
  have first : (getFirstPage p ref).pg = 0 := by
    unfold getFirstPage
    cases ref <;> rfl
  rw [first, zero, Nat.zero_mod]

theorem back_digit (pg flash : Nat) (whole : (pg + 1) % flash = 0) : (pg + 1 - flash) % flash = 0 := by
  rw [← Nat.mod_eq_sub_mod (Nat.le_of_dvd (Nat.succ_pos pg) (Nat.dvd_of_mod_eq_zero whole)), whole]

theorem step_digit (cur : LineRef) (page next : Page)
    (stepped : (if isSuperblock cur then nextpageInterleave p page else nextpageNormal p page) = some next) :
    next.pg % p.spp.pgsPerFlashpg = (page.pg + 1) % p.spp.pgsPerFlashpg := by
  split at stepped
  · unfold nextpageInterleave at stepped
    dsimp only at stepped
    split at stepped
    · rw [← Option.some.inj stepped]
      rfl
    · rename_i ends
      have whole : (page.pg + 1) % p.spp.pgsPerFlashpg = 0 := not_not.mp ends
      have back := back_digit page.pg p.spp.pgsPerFlashpg whole
      rw [whole]
      split at stepped
      · rw [← Option.some.inj stepped]
        exact back
      · split at stepped
        · rw [← Option.some.inj stepped]
          exact back
        · split at stepped
          · rw [← Option.some.inj stepped]
            exact back
          · split at stepped
            · rw [← Option.some.inj stepped]
              exact (Nat.add_mod_right _ _).trans back
            · cases stepped
  · unfold nextpageNormal at stepped
    split at stepped
    · rw [← Option.some.inj stepped]
      rfl
    · cases stepped

include rows in
theorem end_digit (cur : LineRef) (page : Page)
    (ended : (if isSuperblock cur then nextpageInterleave p page else nextpageNormal p page) = none) :
    (page.pg + 1) % p.spp.pgsPerFlashpg = 0 := by
  split at ended
  · unfold nextpageInterleave at ended
    dsimp only at ended
    split at ended
    · cases ended
    · rename_i ends
      exact not_not.mp ends
  · unfold nextpageNormal at ended
    split at ended
    · cases ended
    · rename_i last
      rw [not_not.mp last]
      exact Nat.mod_eq_zero_of_dvd (rows.flashpgs page.blk)

variable (ioType : IoType) (loc : Loc)

theorem opened_digit (ftl next : ZmsFtl) (page : Page) (place : Nat) (ahead : DigitAhead p place (ftl.wps (zmsGetWp ioType loc)))
    (ran : getNewPage p ftl ioType loc = .ok (page, next)) :
    DigitAhead p place (next.wps (zmsGetWp ioType loc)) ∧ page.pg % p.spp.pgsPerFlashpg = place % p.spp.pgsPerFlashpg := by
  obtain ⟨opened, opening, rest⟩ := bind_ok _ _ _ ran
  have current : getCurrentPage p opened (zmsGetWp ioType loc) = (page, next) := pure_ok _ _ rest
  have wps : next.wps = opened.wps := by rw [← get_current_page_wps p (zmsGetWp ioType loc) opened, current]
  have spot : page = wpPage (opened.wps (zmsGetWp ioType loc)) := by
    unfold getCurrentPage at current
    dsimp only at current
    split at current <;> exact (Prod.mk.inj current).1.symm
  rw [wps, spot]
  unfold openWritePointer at opening
  split at opening
  · rename_i closed
    unfold initWritePointer at opening
    obtain ⟨⟨line, middle⟩, taken, opening⟩ := bind_ok _ _ _ opening
    cases line with
    | none => cases opening
    | some line =>
        have first := first_page_digit p place line (ahead.1 closed)
        rw [← pure_ok _ _ opening, put_wp_pointer, if_pos rfl]
        exact ⟨⟨nofun, fun _ => first⟩, first⟩
  · rename_i pointed
    rw [← Except.ok.inj opening]
    exact ⟨ahead, ahead.2 pointed⟩

theorem next_digit (first second flash : Nat) (same : first % flash = second % flash) : (first + 1) % flash = (second + 1) % flash := by
  rw [Nat.add_mod, same, ← Nat.add_mod]

include rows in
theorem advance_digit (ftl next : ZmsFtl) (place : Nat) (ahead : DigitAhead p place (ftl.wps (zmsGetWp ioType loc)))
    (pointed : (ftl.wps (zmsGetWp ioType loc)).curline ≠ none) (ran : advanceWritePointer p ftl ioType loc = .ok next) :
    DigitAhead p (place + 1) (next.wps (zmsGetWp ioType loc)) := by
  have digit := next_digit _ _ _ (ahead.2 pointed)
  unfold advanceWritePointer at ran
  dsimp only at ran
  have wps := get_current_page_wps p (zmsGetWp ioType loc) ftl
  have spot : (getCurrentPage p ftl (zmsGetWp ioType loc)).1.pg = (ftl.wps (zmsGetWp ioType loc)).pg := by
    unfold getCurrentPage
    dsimp only
    split <;> rfl
  generalize getCurrentPage p ftl (zmsGetWp ioType loc) = found at ran wps spot
  obtain ⟨page, middle⟩ := found
  dsimp only at ran wps spot
  rw [← spot] at digit
  split at ran
  · rename_i closed
    exact absurd closed pointed
  · rename_i cur current
    split at ran
    · rename_i following stepped
      have step := step_digit p cur page following stepped
      rw [← Except.ok.inj ran]
      unfold updateWritePointer
      rw [put_wp_pointer, if_pos rfl, wps]
      exact ⟨fun none => absurd none pointed, fun _ => step.trans digit⟩
    · rename_i ended
      have zero := (end_digit p rows cur page ended).symm.trans digit
      unfold getNewWp at ran
      rw [wps, current] at ran
      obtain ⟨⟨line, popped⟩, taken, ran⟩ := bind_ok _ _ _ ran
      cases line with
      | none =>
          rw [← pure_ok _ _ ran, put_wp_pointer, if_pos rfl]
          exact ⟨fun _ => zero.symm, fun some => absurd rfl some⟩
      | some line =>
          have first := first_page_digit p (place + 1) line zero.symm
          have bumped : ∀ ftl : ZmsFtl, (bumpZoneWrites ftl (zmsGetWp ioType loc)).wps = ftl.wps := by
            intro ftl
            unfold bumpZoneWrites
            split <;> rfl
          rw [← pure_ok _ _ ran, bumped]
          unfold updateWritePointer
          rw [put_wp_pointer, if_pos rfl, put_wp_pointer, if_pos rfl]
          exact ⟨nofun, fun _ => first⟩

end Digits

section Slc

variable (p : Params) (ns : SlcNamespace p) (rows : RowGeometry p.spp)

include ns rows in
theorem slc_reserve_digit (ftl next : ZmsFtl) (lpn place : Nat) (ioType : IoType) (ahead : DigitAhead p place (ftl.wps (zmsGetWp ioType .pslc)))
    (ran : reserveMapping p ftl lpn .pslc ioType = .ok next) :
    DigitAhead p (place + 1) (next.wps (zmsGetWp ioType .pslc)) ∧
      ∃ page, OnPage p next lpn page ∧ page.pg % p.spp.pgsPerFlashpg = place % p.spp.pgsPerFlashpg := by
  obtain ⟨inside, page, opened, advanced, last, taken, advancing, checked⟩ := slc_reserve_runs p ns ftl next lpn ioType ran
  obtain ⟨openedAhead, digit⟩ := opened_digit p ioType .pslc (reserveEntries ftl lpn 1) opened page place ahead taken
  have pointed := get_new_page_points p ioType .pslc _ opened page taken
  have wps : (takeFirstPage p opened lpn page).wps = opened.wps := by
    unfold takeFirstPage
    rw [quiet_wps _ _ (set_map_gran_quiet p _ .pageMap _), set_rmap_wps, mark_page_valid_wps, set_maptbl_wps]
  rw [← wps] at openedAhead pointed
  have advancedAhead := advance_digit p rows ioType .pslc _ advanced place openedAhead pointed advancing
  have finished := (opened_digit p ioType .pslc advanced next last (place + 1) advancedAhead checked).1
  refine ⟨finished, page, ⟨inside, ?_⟩, digit⟩
  have table : next.maptbl = (takeFirstPage p opened lpn page).maptbl := by
    obtain ⟨_, _, _, _, _, moved⟩ := advance_write_pointer_lines p _ advanced ioType .pslc advancing
    obtain ⟨_, _, _, _, _, checked⟩ := get_new_page_lines p advanced next ioType .pslc last checked
    rw [checked, moved]
  rw [table, take_first_page_table p opened lpn page inside, if_pos rfl]

end Slc

section Shown

variable (config : DualConfig)

-- Every flash page of pSLC is a wordline.
theorem slc_shown (place : Nat) (write : PageWrite) (page : Page) (there : write.place = some page)
    (owned : OwnedPage (dualParams config .pslc) page)
    (digit : page.pg % (dualParams config .pslc).spp.pgsPerFlashpg = place % (dualParams config .pslc).spp.pgsPerFlashpg) :
    ShownAt config .pslc place write := by
  have flash : 0 < (dualParams config .pslc).spp.pgsPerFlashpg := config_flash_positive config
  have height : wordlineFlashpgs (dualParams config .pslc) .pslc = 1 := by rw [dual_wordline_flashpgs, if_pos rfl]
  have low := (place_digits config .pslc page owned).2
  refine ⟨page, there, (last_in_wordline_iff config .pslc page owned).trans ?_⟩
  rw [Batches.ends_cell_iff _ _ _ flash (dual_blocks_positive config .pslc) (dual_wordline_positive config .pslc),
    Batches.ends_cell_iff _ _ _ flash (dual_blocks_positive config .pslc) (dual_wordline_positive config .pslc), height, Nat.mod_one, Nat.mod_one,
    low, digit]

structure SlcCalm (ioType : IoType) (place : Nat) (rest : List Nat) (ftl : ZmsFtl) : Prop where
  calm : Calm (dualParams config .pslc) .pslc ioType rest ftl
  ahead : DigitAhead (dualParams config .pslc) place (ftl.wps (zmsGetWp ioType .pslc))

theorem slc_calm_kept (ioType : IoType) (place : Nat) (rest : List Nat) (before after : ZmsFtl) (media : mediaSide after = mediaSide before)
    (same : gathered after = gathered before) (ready : SlcCalm config ioType place rest before) : SlcCalm config ioType place rest after := by
  refine ⟨calm_kept _ .pslc ioType rest before after (media_bounded _ before after media ready.calm.bounded) same ready.calm, ?_⟩
  rw [show after.wps = before.wps from congrArg MediaSide.wps media]
  exact ready.ahead

theorem slc_calm_follow (collect : ZmsFtl → Loc → Exec ZmsFtl) (collected : ZmsFtl → Loc → List (List PageWrite))
    (prepare : ZmsFtl → Nat → ZmsFtl) (prepares : Prepares (dualParams config .pslc) prepare) (ioType : IoType) (start elpn : Nat)
    (fine : List PageWrite → Prop) :
    PagesFollow (dualParams config .pslc) collect collected prepare ioType .pslc start elpn (SlcCalm config ioType) (ShownAt config .pslc) fine := by
  intro place lpn rest ftl next toWritePgs time ready ran clear
  have medium := dual_medium config .pslc
  have calm := calm_kept _ .pslc ioType (lpn :: rest) ftl _ (prepares.bounded ftl lpn ready.calm.bounded) (prepares.gathered ftl lpn) ready.calm
  obtain ⟨written, mapping, wrote⟩ := nand_write_calm _ medium collect collected .pslc ioType rest _ next start lpn toWritePgs elpn time calm
    clear ran
  have step := update_or_reserve_mapping_step _ _ written lpn .pslc ioType mapping
  rw [slc_update_or_reserve, any_full_loc _ .pslc (media_step_clear _ _ step wrote.clear), if_neg Bool.false_ne_true] at mapping
  have ahead := ready.ahead
  rw [← prepares.wps ftl lpn] at ahead
  obtain ⟨after, page, there, digit⟩ := slc_reserve_digit _ (dual_slc_namespace config) (config_row_geometry config) _ written lpn place ioType
    ahead mapping
  refine ⟨⟨wrote.calm, ?_⟩, ?_, ?_⟩
  · rw [show next.wps = written.wps from congrArg MediaSide.wps wrote.media]
    exact after
  · intro write member
    rw [wrote.own, List.mem_singleton] at member
    rw [member]
    have spot := on_page_place _ written lpn page .pslc wrote.clear there
    refine slc_shown config place _ page spot ?_ digit
    unfold placeOf at spot
    split at spot
    · rename_i other map entry
      split at spot
      · cases spot
      · rw [← Option.some.inj spot]
        exact get_maptbl_owned _ written lpn other map wrote.bounded entry
    · cases spot
  · intro writes member
    rw [wrote.inner] at member
    exact absurd member List.not_mem_nil

end Shown

end ConZone
