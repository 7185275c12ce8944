import ConZone.MediaMoves

set_option autoImplicit false

namespace ConZone

def otherWps (name : WpName) (ftl : ZmsFtl) (other : WpName) : Option WritePointer := if other = name then none else some (ftl.wps other)

section Moving

variable (p : Params) (name : WpName) (ioType : IoType) (loc : Loc)

theorem other_wps_congr (before after : ZmsFtl) (same : after.wps = before.wps) : otherWps name after = otherWps name before := by
  unfold otherWps
  rw [same]

theorem put_wp_others (ftl : ZmsFtl) (pointer : WritePointer) : otherWps name (putWp ftl name pointer) = otherWps name ftl := by
  funext other
  unfold otherWps
  rw [put_wp_pointer]
  by_cases same : other = name
  · rw [if_pos same, if_pos same]
  · rw [if_neg same, if_neg same, if_neg same]

theorem get_next_free_line_wps (ftl next : ZmsFtl) (line : Option LineRef) (ran : getNextFreeLine ftl loc = .ok (line, next)) :
    next.wps = ftl.wps := by
  unfold getNextFreeLine at ran
  split at ran
  · rw [← (Prod.mk.inj (Except.ok.inj ran)).2]
    cases loc <;> rfl
  · rw [← (Prod.mk.inj (Except.ok.inj ran)).2]
  · cases ran

theorem get_current_page_wps (ftl : ZmsFtl) : (getCurrentPage p ftl name).2.wps = ftl.wps := by
  unfold getCurrentPage
  dsimp only
  split
  · cases getPageLocation p (wpPage (ftl.wps name)) <;> rfl
  · rfl

theorem get_current_page_others (ftl : ZmsFtl) : otherWps name (getCurrentPage p ftl name).2 = otherWps name ftl :=
  other_wps_congr name ftl _ (get_current_page_wps p name ftl)

theorem get_new_wp_others (ftl next : ZmsFtl) (ran : getNewWp p ftl name = .ok next) : otherWps name next = otherWps name ftl := by
  unfold getNewWp at ran
  split at ran
  · cases ran
  · obtain ⟨⟨line, middle⟩, taken, rest⟩ := bind_ok _ _ _ ran
    have popped := other_wps_congr name _ middle (get_next_free_line_wps _ _ middle line taken)
    cases line with
    | none =>
        rw [← pure_ok _ _ rest]
        exact (put_wp_others name middle _).trans popped
    | some line =>
        rw [← pure_ok _ _ rest]
        have bumped : ∀ ftl : ZmsFtl, otherWps name (bumpZoneWrites ftl name) = otherWps name ftl := by
          intro ftl
          refine other_wps_congr name ftl _ ?_
          unfold bumpZoneWrites
          split <;> rfl
        rw [bumped]
        exact (put_wp_others name _ _).trans ((put_wp_others name middle _).trans popped)

theorem open_write_pointer_others (ftl next : ZmsFtl) (ran : openWritePointer p ftl ioType loc = .ok next) :
    otherWps (zmsGetWp ioType loc) next = otherWps (zmsGetWp ioType loc) ftl := by
  unfold openWritePointer at ran
  split at ran
  · obtain ⟨⟨line, middle⟩, taken, rest⟩ := bind_ok _ _ _ ran
    cases line with
    | none => cases rest
    | some line =>
        rw [← pure_ok _ _ rest]
        exact (put_wp_others _ middle _).trans (other_wps_congr _ ftl middle (get_next_free_line_wps loc ftl middle _ taken))
  · rw [← Except.ok.inj ran]

theorem get_new_page_others (ftl next : ZmsFtl) (page : Page) (ran : getNewPage p ftl ioType loc = .ok (page, next)) :
    otherWps (zmsGetWp ioType loc) next = otherWps (zmsGetWp ioType loc) ftl := by
  obtain ⟨opened, opening, rest⟩ := bind_ok _ _ _ ran
  have current := get_current_page_others p (zmsGetWp ioType loc) opened
  rw [pure_ok _ _ rest] at current
  exact current.trans (open_write_pointer_others p ioType loc ftl opened opening)

theorem get_new_page_points (ftl next : ZmsFtl) (page : Page) (ran : getNewPage p ftl ioType loc = .ok (page, next)) :
    (next.wps (zmsGetWp ioType loc)).curline ≠ none := by
  unfold getNewPage at ran
  obtain ⟨opened, opening, rest⟩ := bind_ok _ _ _ ran
  have stands : (opened.wps (zmsGetWp ioType loc)).curline ≠ none := by
    unfold openWritePointer at opening
    split at opening
    · unfold initWritePointer at opening
      obtain ⟨⟨line, middle⟩, _, placed⟩ := bind_ok _ _ _ opening
      cases line with
      | none => cases placed
      | some line =>
          rw [← pure_ok _ _ placed, put_wp_pointer, if_pos rfl]
          exact Option.some_ne_none line
    · rename_i stood
      rw [← Except.ok.inj opening]
      exact stood
  have same := get_current_page_wps p (zmsGetWp ioType loc) opened
  rw [pure_ok _ _ rest] at same
  rw [show next.wps = opened.wps from same]
  exact stands

theorem advance_write_pointer_others (ftl next : ZmsFtl) (ran : advanceWritePointer p ftl ioType loc = .ok next) :
    otherWps (zmsGetWp ioType loc) next = otherWps (zmsGetWp ioType loc) ftl := by
  unfold advanceWritePointer at ran
  dsimp only at ran
  have current := get_current_page_others p (zmsGetWp ioType loc) ftl
  generalize getCurrentPage p ftl (zmsGetWp ioType loc) = found at ran current
  split at ran
  · rw [← Except.ok.inj ran]
  · split at ran
    · rw [← Except.ok.inj ran]
      exact (put_wp_others _ found.2 _).trans current
    · exact (get_new_wp_others p _ found.2 next ran).trans current

theorem cross_line_others (r next : Reservation) (found : Bool) (ran : crossLine p ioType loc r = .ok (next, found)) :
    otherWps (zmsGetWp ioType loc) next.ftl = otherWps (zmsGetWp ioType loc) r.ftl := by
  obtain ⟨middle, moved, rest⟩ := bind_ok _ _ _ ran
  refine Eq.trans ?_ (get_new_wp_others p _ r.ftl middle moved)
  dsimp only at rest
  split at rest
  · rw [← (Prod.mk.inj (pure_ok _ _ rest)).1]
  · obtain ⟨⟨page, last⟩, taken, rest⟩ := bind_ok _ _ _ rest
    rw [← (Prod.mk.inj (pure_ok _ _ rest)).1]
    have after := get_new_page_others p ioType loc _ last page taken
    exact after

theorem reserve_in_line_others (r next : Reservation) (free : Nat) (found : Bool)
    (ran : reserveInLine p ioType loc r free = .ok (next, found)) :
    otherWps (zmsGetWp ioType loc) next.ftl = otherWps (zmsGetWp ioType loc) r.ftl := by
  unfold reserveInLine at ran
  dsimp only at ran
  split at ran
  · rw [← (Prod.mk.inj (pure_ok _ _ ran)).1]
    exact put_wp_others _ _ _
  · have after := cross_line_others p ioType loc _ next found ran
    exact after

theorem reserve_step_others (r next : Reservation) (found : Bool) (ran : reserveStep p ioType loc r = .ok (next, found)) :
    otherWps (zmsGetWp ioType loc) next.ftl = otherWps (zmsGetWp ioType loc) r.ftl := by
  unfold reserveStep at ran
  dsimp only at ran
  split at ran
  · obtain ⟨⟨middle, reached⟩, crossed, rest⟩ := bind_ok _ _ _ ran
    refine Eq.trans ?_ (cross_line_others p ioType loc r middle reached crossed)
    cases reached with
    | true => exact reserve_in_line_others p ioType loc middle next _ found rest
    | false => rw [← (Prod.mk.inj (pure_ok _ _ rest)).1]
  · exact reserve_in_line_others p ioType loc r next _ found ran

theorem reserve_loop_others (fuel : Nat) (r : Reservation) (next : ZmsFtl) (ran : reserveLoop p ioType loc fuel r = .ok next) :
    otherWps (zmsGetWp ioType loc) next = otherWps (zmsGetWp ioType loc) r.ftl := by
  induction fuel generalizing r with
  | zero =>
      unfold reserveLoop at ran
      split at ran
      · rw [← Except.ok.inj ran]
      · cases ran
  | succ fuel ih =>
      unfold reserveLoop at ran
      split at ran
      · rw [← Except.ok.inj ran]
      · obtain ⟨⟨middle, found⟩, stepped, rest⟩ := bind_ok _ _ _ ran
        refine Eq.trans ?_ (reserve_step_others p ioType loc r middle found stepped)
        cases found with
        | true => exact ih middle rest
        | false => rw [← pure_ok _ _ rest]

theorem mark_page_valid_wps (ftl : ZmsFtl) (page : Page) : (markPageValid p ftl page).wps = ftl.wps := by
  unfold markPageValid
  dsimp only
  split
  · rfl
  · split
    · rfl
    · split <;> rfl

theorem set_maptbl_wps (ftl : ZmsFtl) (lpn : Nat) (ppa : Ppa) : (setMaptblEnt p ftl lpn ppa).wps = ftl.wps := by
  unfold setMaptblEnt
  split <;> rfl

theorem set_rmap_wps (ftl : ZmsFtl) (lpn : Option Nat) (page : Page) : (setRmapEnt p ftl lpn page).wps = ftl.wps := by
  unfold setRmapEnt
  split <;> rfl

theorem drop_mapping_wps (ftl : ZmsFtl) (lpn : Nat) (page : Page) : (dropMapping p ftl lpn page).wps = ftl.wps :=
  set_rmap_wps p (markPageInvalid p ftl page) none page

theorem select_victim_wps (ftl next : ZmsFtl) (force : Bool) (loc : Loc) (victim : LineRef)
    (selected : selectVictimLine p ftl force loc = some (victim, next)) : next.wps = ftl.wps := by
  unfold selectVictimLine at selected
  split at selected
  · cases selected
  · split at selected
    · cases selected
    · rw [← (Prod.mk.inj (Option.some.inj selected)).2]

theorem note_filled_line_wps (ftl : ZmsFtl) (ref : LineRef) : (noteFilledLine p ftl ref loc ioType).wps = ftl.wps := by
  unfold noteFilledLine
  dsimp only
  split <;> rfl

theorem quiet_wps (before after : ZmsFtl) (quiet : Quiet before after) : after.wps = before.wps := congrArg MediaSide.wps quiet.media

theorem first_page_taken_wps (ftl : ZmsFtl) (lpn : Nat) (page : Page) : (firstPageTaken p ftl lpn loc ioType page).wps = ftl.wps := by
  unfold firstPageTaken takeFirstPage
  rw [note_filled_line_wps, quiet_wps _ _ (set_map_gran_quiet p _ .pageMap _), set_rmap_wps, mark_page_valid_wps, set_maptbl_wps]

theorem update_mapping_wps (ftl next : ZmsFtl) (lpn : Nat) (ran : updateMappingIfReserved p ftl lpn loc ioType = some next) :
    next.wps = ftl.wps := by
  unfold updateMappingIfReserved at ran
  split at ran
  · split at ran
    · cases ran
    · split at ran
      · rw [← Option.some.inj ran, quiet_wps _ _ (refine_map_gran_quiet p lpn loc mapType _), note_filled_line_wps]
        exact (set_rmap_wps p _ _ _).trans ((mark_page_valid_wps p _ _).trans (set_maptbl_wps p ftl _ _))
      · cases ran
  · cases ran

theorem reserve_mapping_others (ftl next : ZmsFtl) (lpn : Nat) (ran : reserveMapping p ftl lpn loc ioType = .ok next) :
    otherWps (zmsGetWp ioType loc) next = otherWps (zmsGetWp ioType loc) ftl := by
  obtain ⟨reserved, page, opened, looped, advanced, last, entries, taken, reserving, advancing, checked⟩ :=
    reserve_mapping_runs p ftl next lpn loc ioType ran
  have unit : otherWps (zmsGetWp ioType loc) reserved = otherWps (zmsGetWp ioType loc) ftl := by
    unfold reserveUnit at entries
    split at entries
    · rw [← Except.ok.inj entries]
      rfl
    · cases entries
  calc otherWps (zmsGetWp ioType loc) next
      = otherWps (zmsGetWp ioType loc) advanced := get_new_page_others p ioType loc advanced next last checked
    _ = otherWps (zmsGetWp ioType loc) looped := advance_write_pointer_others p ioType loc looped advanced advancing
    _ = otherWps (zmsGetWp ioType loc) (firstPageTaken p opened lpn loc ioType page) := reserve_loop_others p ioType loc _ _ looped reserving
    _ = otherWps (zmsGetWp ioType loc) opened := other_wps_congr _ opened _ (first_page_taken_wps p ioType loc opened lpn page)
    _ = otherWps (zmsGetWp ioType loc) reserved := get_new_page_others p ioType loc reserved opened page taken
    _ = otherWps (zmsGetWp ioType loc) ftl := unit

theorem update_or_reserve_others (ftl next : ZmsFtl) (lpn : Nat) (ran : updateOrReserveMapping p ftl lpn loc ioType = .ok next) :
    otherWps (zmsGetWp ioType loc) next = otherWps (zmsGetWp ioType loc) ftl := by
  unfold updateOrReserveMapping at ran
  split at ran
  · rename_i updated
    rw [← Except.ok.inj ran]
    exact other_wps_congr _ ftl _ (update_mapping_wps p ioType loc ftl _ lpn updated)
  · split at ran
    · rw [← Except.ok.inj ran]
    · exact reserve_mapping_others p ioType loc ftl next lpn ran

end Moving

end ConZone
