import ConZone.Frame

set_option autoImplicit false

namespace ConZone

-- The write pointers and what they move along: line records, the line lists,
-- the full flags and the counters. The page allocator works on nothing else.
def OnlyLines (before after : ZmsFtl) : Prop :=
  ∃ lm wps device pslc stats,
    after = { before with lm := lm, wps := wps, deviceFull := device, pslcFull := pslc, stats := stats }

theorem only_lines_refl (ftl : ZmsFtl) : OnlyLines ftl ftl :=
  ⟨ftl.lm, ftl.wps, ftl.deviceFull, ftl.pslcFull, ftl.stats, rfl⟩

theorem only_lines_trans (first second third : ZmsFtl) (left : OnlyLines first second) (right : OnlyLines second third) :
    OnlyLines first third := by
  obtain ⟨_, _, _, _, _, middle⟩ := left
  obtain ⟨lm, wps, device, pslc, stats, last⟩ := right
  refine ⟨lm, wps, device, pslc, stats, ?_⟩
  rw [last, middle]

theorem set_full_lines (ftl : ZmsFtl) (loc : Loc) : OnlyLines ftl (setFull ftl loc) := by
  cases loc with
  | normal => exact ⟨ftl.lm, ftl.wps, true, ftl.pslcFull, ftl.stats, rfl⟩
  | pslc => exact ⟨ftl.lm, ftl.wps, ftl.deviceFull, true, ftl.stats, rfl⟩

theorem put_line_lines (ftl : ZmsFtl) (ref : LineRef) (line : Line) : OnlyLines ftl (putLine ftl ref line) :=
  ⟨_, ftl.wps, ftl.deviceFull, ftl.pslcFull, ftl.stats, rfl⟩

theorem put_wp_lines (ftl : ZmsFtl) (name : WpName) (pointer : WritePointer) : OnlyLines ftl (putWp ftl name pointer) :=
  ⟨ftl.lm, _, ftl.deviceFull, ftl.pslcFull, ftl.stats, rfl⟩

theorem set_lm_lines (ftl : ZmsFtl) (lm : LineMgmt) : OnlyLines ftl { ftl with lm := lm } :=
  ⟨lm, ftl.wps, ftl.deviceFull, ftl.pslcFull, ftl.stats, rfl⟩

theorem get_next_free_line_lines (ftl next : ZmsFtl) (loc : Loc) (line : Option LineRef)
    (ran : getNextFreeLine ftl loc = .ok (line, next)) : OnlyLines ftl next := by
  unfold getNextFreeLine at ran
  split at ran
  · cases ran
    exact set_full_lines ftl loc
  · cases ran
    exact set_lm_lines ftl _
  · cases ran

section Allocator

variable (p : Params)

theorem bump_zone_writes_lines (ftl : ZmsFtl) (name : WpName) : OnlyLines ftl (bumpZoneWrites ftl name) := by
  by_cases user : name = .wp
  · rw [bumpZoneWrites, if_pos user]
    exact ⟨ftl.lm, ftl.wps, ftl.deviceFull, ftl.pslcFull, _, rfl⟩
  · rw [bumpZoneWrites, if_neg user]
    exact only_lines_refl ftl

theorem get_current_page_lines (ftl : ZmsFtl) (name : WpName) : OnlyLines ftl (getCurrentPage p ftl name).2 := by
  by_cases past : p.zpp.ttPpns ≤ ppa2Pgidx p (wpPage (ftl.wps name))
  · simpa [getCurrentPage, past] using set_full_lines ftl _
  · simpa [getCurrentPage, past] using only_lines_refl ftl

theorem get_new_wp_lines (ftl next : ZmsFtl) (name : WpName) (ran : getNewWp p ftl name = .ok next) : OnlyLines ftl next := by
  unfold getNewWp at ran
  cases current : (ftl.wps name).curline with
  | none => simp [current] at ran
  | some cur =>
      rw [current] at ran
      obtain ⟨⟨line, middle⟩, taken, rest⟩ := bind_ok _ _ _ ran
      have popped := get_next_free_line_lines _ middle _ line taken
      apply only_lines_trans _ _ _ (set_lm_lines ftl _)
      apply only_lines_trans _ _ _ popped
      dsimp only at rest
      cases line with
      | none =>
          cases pure_ok _ _ rest
          exact put_wp_lines middle name _
      | some line =>
          cases pure_ok _ _ rest
          apply only_lines_trans _ _ _ (put_wp_lines middle name { middle.wps name with curline := some line })
          apply only_lines_trans _ _ _ (put_wp_lines _ name _)
          exact bump_zone_writes_lines _ name

theorem open_write_pointer_lines (ftl next : ZmsFtl) (ioType : IoType) (loc : Loc)
    (ran : openWritePointer p ftl ioType loc = .ok next) : OnlyLines ftl next := by
  by_cases absent : (ftl.wps (zmsGetWp ioType loc)).curline = none
  · rw [openWritePointer, if_pos absent] at ran
    obtain ⟨⟨line, middle⟩, taken, rest⟩ := bind_ok _ _ _ ran
    apply only_lines_trans _ _ _ (get_next_free_line_lines ftl middle loc line taken)
    cases line with
    | none => cases rest
    | some line =>
        cases pure_ok _ _ rest
        exact put_wp_lines middle _ _
  · rw [openWritePointer, if_neg absent] at ran
    cases ran
    exact only_lines_refl ftl

theorem get_new_page_lines (ftl next : ZmsFtl) (ioType : IoType) (loc : Loc) (page : Page)
    (ran : getNewPage p ftl ioType loc = .ok (page, next)) : OnlyLines ftl next := by
  obtain ⟨middle, ready, rest⟩ := bind_ok _ _ _ ran
  have current := get_current_page_lines p middle (zmsGetWp ioType loc)
  rw [pure_ok _ _ rest] at current
  exact only_lines_trans _ _ _ (open_write_pointer_lines p ftl middle ioType loc ready) current

theorem advance_write_pointer_lines (ftl next : ZmsFtl) (ioType : IoType) (loc : Loc)
    (ran : advanceWritePointer p ftl ioType loc = .ok next) : OnlyLines ftl next := by
  unfold advanceWritePointer at ran
  dsimp only at ran
  cases current : (ftl.wps (zmsGetWp ioType loc)).curline with
  | none =>
      rw [current] at ran
      cases ran
      exact only_lines_refl ftl
  | some cur =>
      rw [current] at ran
      have looked := get_current_page_lines p ftl (zmsGetWp ioType loc)
      generalize getCurrentPage p ftl (zmsGetWp ioType loc) = taken at ran looked
      obtain ⟨page, middle⟩ := taken
      apply only_lines_trans _ _ _ looked
      dsimp only at ran ⊢
      cases following : if isSuperblock cur then nextpageInterleave p page else nextpageNormal p page with
      | none =>
          rw [following] at ran
          exact get_new_wp_lines p middle next _ ran
      | some page =>
          rw [following] at ran
          cases ran
          exact put_wp_lines middle _ _

theorem cross_line_lines (ioType : IoType) (loc : Loc) (r next : Reservation) (found : Bool)
    (ran : crossLine p ioType loc r = .ok (next, found)) : OnlyLines r.ftl next.ftl := by
  obtain ⟨middle, moved, rest⟩ := bind_ok _ _ _ ran
  apply only_lines_trans _ _ _ (get_new_wp_lines p _ _ _ moved)
  cases current : (middle.wps (zmsGetWp ioType loc)).curline with
  | none =>
      rw [current] at rest
      cases pure_ok _ _ rest
      exact only_lines_refl middle
  | some line =>
      rw [current] at rest
      obtain ⟨⟨page, last⟩, taken, rest⟩ := bind_ok _ _ _ rest
      cases pure_ok _ _ rest
      exact only_lines_trans _ _ _ (put_line_lines middle _ _) (get_new_page_lines p _ _ ioType loc page taken)

theorem reserve_in_line_lines (ioType : IoType) (loc : Loc) (r next : Reservation) (free : Nat) (found : Bool)
    (ran : reserveInLine p ioType loc r free = .ok (next, found)) : OnlyLines r.ftl next.ftl := by
  unfold reserveInLine at ran
  dsimp only at ran
  cases advanced : getAdvancedPpaFast p r.page (min r.remaining free) with
  | none =>
      rw [advanced] at ran
      have crossed := cross_line_lines p ioType loc _ next found ran
      exact only_lines_trans _ _ _ (put_line_lines r.ftl _ _) crossed
  | some page =>
      rw [advanced] at ran
      cases pure_ok _ _ ran
      exact only_lines_trans _ _ _ (put_line_lines r.ftl _ _) (put_wp_lines _ _ _)

theorem reserve_step_lines (ioType : IoType) (loc : Loc) (r next : Reservation) (found : Bool)
    (ran : reserveStep p ioType loc r = .ok (next, found)) : OnlyLines r.ftl next.ftl := by
  unfold reserveStep at ran
  dsimp only at ran
  by_cases spent : freeInLine p r.ftl r.current ≤ 0
  · rw [if_pos spent] at ran
    obtain ⟨⟨middle, reached⟩, crossed, rest⟩ := bind_ok _ _ _ ran
    apply only_lines_trans _ _ _ (cross_line_lines p ioType loc r middle reached crossed)
    cases reached with
    | true => exact reserve_in_line_lines p ioType loc middle next _ found rest
    | false =>
        cases pure_ok _ _ rest
        exact only_lines_refl middle.ftl
  · rw [if_neg spent] at ran
    exact reserve_in_line_lines p ioType loc r next _ found ran

theorem reserve_loop_lines (ioType : IoType) (loc : Loc) (fuel : Nat) (r : Reservation) (next : ZmsFtl)
    (ran : reserveLoop p ioType loc fuel r = .ok next) : OnlyLines r.ftl next := by
  induction fuel generalizing r with
  | zero =>
      by_cases finished : r.remaining = 0
      · simp only [reserveLoop, finished, if_true] at ran
        cases ran
        exact only_lines_refl r.ftl
      · simp [reserveLoop, finished] at ran
  | succ fuel ih =>
      by_cases finished : r.remaining = 0
      · simp only [reserveLoop, finished, if_true] at ran
        cases ran
        exact only_lines_refl r.ftl
      · rw [reserveLoop, if_neg finished] at ran
        obtain ⟨⟨middle, found⟩, stepped, rest⟩ := bind_ok _ _ _ ran
        apply only_lines_trans _ _ _ (reserve_step_lines p ioType loc r middle found stepped)
        cases found with
        | true => exact ih middle rest
        | false =>
            cases pure_ok _ _ rest
            exact only_lines_refl middle.ftl

end Allocator

end ConZone
