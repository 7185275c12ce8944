import ConZone.Gc
import ConZone.LineWalk

set_option autoImplicit false

namespace ConZone

def tally (line : Line) : Int × Int × Int × Option LineRef := (line.vpc, line.ipc, line.rpc, line.rsvNextline)

def SameTallies (before after : ZmsFtl) : Prop := ∀ ref, tally (after.lm.lines ref) = tally (before.lm.lines ref)

def usedInLine (line : Line) : Int := line.vpc + line.ipc + line.rpc

structure FreeLines (links : IntrusiveList.Links ListNode) (loc : Loc) (cur : LineRef) (free : List LineRef) : Prop where
  ring : IntrusiveList.Ring links (.free loc) (free.map .line)
  full : ∃ full : List LineRef, IntrusiveList.Ring links (.full loc) (full.map .line) ∧ (cur :: (free ++ full)).Nodup

structure Stands (ftl : ZmsFtl) (name : WpName) (loc : Loc) (spot : Spot) : Prop where
  curline : (ftl.wps name).curline = some spot.line
  medium : (ftl.wps name).loc = loc
  page : wpPage (ftl.wps name) = spot.page
  lists : FreeLines ftl.lm.links loc spot.line spot.free

section Lists

theorem tallies_refl (ftl : ZmsFtl) : SameTallies ftl ftl := fun _ => rfl

theorem tally_used (before after : Line) (same : tally after = tally before) : usedInLine after = usedInLine before := by
  obtain ⟨vpc, rest⟩ := Prod.mk.inj same
  obtain ⟨ipc, rest⟩ := Prod.mk.inj rest
  unfold usedInLine
  rw [vpc, ipc, (Prod.mk.inj rest).1]

theorem line_unlisted (head : ListNode) (heads : ∀ ref, head ≠ .line ref) (refs : List LineRef) (ref : LineRef) (outside : ref ∉ refs) :
    ListNode.line ref ∉ head :: refs.map ListNode.line := by
  intro member
  rcases List.mem_cons.mp member with atHead | listed
  · exact heads ref atHead.symm
  · obtain ⟨other, otherMember, same⟩ := List.mem_map.mp listed
    exact outside (by rw [← ListNode.line.inj same]; exact otherMember)

theorem lists_disjoint (loc : Loc) (free full : List LineRef) (apart : (free ++ full).Nodup) :
    ∀ node ∈ ListNode.free loc :: free.map .line, node ∉ ListNode.full loc :: full.map .line := by
  intro node inFree
  rcases List.mem_cons.mp inFree with atHead | listed
  · rw [atHead]
    simp
  · obtain ⟨ref, member, rfl⟩ := List.mem_map.mp listed
    refine line_unlisted _ (fun _ same => by cases same) full ref ?_
    intro inFull
    exact (List.nodup_append.mp apart).2.2 ref member ref inFull rfl

theorem put_victim_tallies (lm : LineMgmt) (loc : Loc) (ref other : LineRef) :
    tally ((insertVictim lm loc ref).lines other) = tally (lm.lines other) := rfl

variable (p : Params)

theorem retire_tallies (lm : LineMgmt) (loc : Loc) (cur other : LineRef) :
    tally ((retireCurline p lm loc cur).lines other) = tally (lm.lines other) := by
  unfold retireCurline
  split
  · rfl
  · exact put_victim_tallies lm loc cur other

theorem retire_lists (lm : LineMgmt) (loc : Loc) (cur : LineRef) (free : List LineRef) (lists : FreeLines lm.links loc cur free) :
    IntrusiveList.Ring (retireCurline p lm loc cur).links (.free loc) (free.map .line) ∧
      ∃ full : List LineRef, IntrusiveList.Ring (retireCurline p lm loc cur).links (.full loc) (full.map .line) ∧ (free ++ full).Nodup := by
  obtain ⟨ring, full, fullRing, distinct⟩ := lists
  obtain ⟨outside, apart⟩ := List.nodup_cons.mp distinct
  rw [List.mem_append, not_or] at outside
  unfold retireCurline
  split
  · refine ⟨?_, full ++ [cur], ?_, ?_⟩
    · exact IntrusiveList.ring_add_tail_frame lm.links _ _ _ _ _ ring fullRing
        (line_unlisted _ (fun _ same => by cases same) free cur outside.1) (lists_disjoint loc free full apart)
    · rw [List.map_append]
      exact IntrusiveList.ring_add_tail lm.links _ _ _ fullRing (line_unlisted _ (fun _ same => by cases same) full cur outside.2)
    · rw [← List.append_assoc, List.nodup_append]
      refine ⟨apart, List.nodup_singleton cur, ?_⟩
      intro ref member other last
      rw [List.mem_singleton.mp last]
      rintro rfl
      exact (List.mem_append.mp member).elim outside.1 outside.2
  · exact ⟨ring, full, fullRing, apart⟩

theorem bump_keeps (ftl : ZmsFtl) (name : WpName) :
    (bumpZoneWrites ftl name).lm = ftl.lm ∧ (bumpZoneWrites ftl name).wps = ftl.wps ∧ (bumpZoneWrites ftl name).nand = ftl.nand := by
  have media := bump_zone_writes_media ftl name
  exact ⟨congrArg MediaSide.lm media, congrArg MediaSide.wps media, congrArg MediaSide.nand media⟩

theorem set_full_media (ftl : ZmsFtl) (loc : Loc) : (setFull ftl loc).lm = ftl.lm ∧ (setFull ftl loc).nand = ftl.nand := by
  cases loc <;> exact ⟨rfl, rfl⟩

theorem get_new_wp_takes (ftl : ZmsFtl) (name : WpName) (loc : Loc) (cur ref : LineRef) (page : Page) (free : List LineRef)
    (stands : Stands ftl name loc ⟨cur, page, ref :: free⟩) :
    ∃ next, getNewWp p ftl name = .ok next ∧ Stands next name loc ⟨ref, getFirstPage p ref, free⟩ ∧ SameTallies ftl next ∧
      next.nand = ftl.nand := by
  obtain ⟨curline, medium, _, lists⟩ := stands
  subst medium
  obtain ⟨ring, full, fullRing, distinct⟩ := retire_lists p ftl.lm (ftl.wps name).loc cur (ref :: free) lists
  have first := IntrusiveList.ring_first_entry _ _ _ ring
  let middle : ZmsFtl := { ftl with lm := delFree (retireCurline p ftl.lm (ftl.wps name).loc cur) (ftl.wps name).loc ref }
  have taken : getNextFreeLine { ftl with lm := retireCurline p ftl.lm (ftl.wps name).loc cur } (ftl.wps name).loc = .ok (some ref, middle) := by
    unfold getNextFreeLine
    dsimp only
    rw [first]
    rfl
  have ran : getNewWp p ftl name = .ok (bumpZoneWrites (updateWritePointer (putWp middle name
      { middle.wps name with curline := some ref }) name (getFirstPage p ref)) name) := by
    unfold getNewWp
    rw [curline]
    dsimp only
    rw [taken]
    rfl
  have apart := lists_disjoint (ftl.wps name).loc (ref :: free) full distinct
  obtain ⟨lm, wps, nand⟩ := bump_keeps (updateWritePointer (putWp middle name
    { middle.wps name with curline := some ref }) name (getFirstPage p ref)) name
  refine ⟨_, ran, ⟨?_, ?_, ?_, ?_⟩, ?_, nand⟩
  · rw [wps]
    simp [updateWritePointer, putWp]
  · rw [wps]
    simp [updateWritePointer, putWp, middle]
  · rw [wps]
    simp [updateWritePointer, putWp, wpPage]
  · rw [lm]
    refine ⟨IntrusiveList.ring_del_init _ _ _ [] _ ring, full, ?_, distinct⟩
    exact IntrusiveList.ring_del_init_frame _ _ _ _ _ _ fullRing ring (by simp) fun node inFull inFree => apart node inFree inFull
  · intro other
    rw [lm]
    exact retire_tallies p ftl.lm (ftl.wps name).loc cur other

theorem get_new_wp_runs_out (ftl : ZmsFtl) (name : WpName) (loc : Loc) (cur : LineRef) (page : Page)
    (stands : Stands ftl name loc ⟨cur, page, []⟩) :
    ∃ next, getNewWp p ftl name = .ok next ∧ (next.wps name).curline = none ∧
      IntrusiveList.Ring next.lm.links (.free loc) [] := by
  obtain ⟨curline, medium, _, lists⟩ := stands
  subst medium
  obtain ⟨ring, _⟩ := retire_lists p ftl.lm (ftl.wps name).loc cur [] lists
  have first := IntrusiveList.ring_first_entry _ _ _ ring
  let middle : ZmsFtl := setFull { ftl with lm := retireCurline p ftl.lm (ftl.wps name).loc cur } (ftl.wps name).loc
  have taken : getNextFreeLine { ftl with lm := retireCurline p ftl.lm (ftl.wps name).loc cur } (ftl.wps name).loc = .ok (none, middle) := by
    unfold getNextFreeLine
    dsimp only
    rw [first]
    rfl
  have ran : getNewWp p ftl name = .ok (putWp middle name { middle.wps name with curline := none }) := by
    unfold getNewWp
    rw [curline]
    dsimp only
    rw [taken]
    rfl
  refine ⟨_, ran, ?_, ?_⟩
  · simp [putWp]
  · have lm : (putWp middle name { middle.wps name with curline := none }).lm = retireCurline p ftl.lm (ftl.wps name).loc cur :=
      (set_full_media _ _).1
    rw [lm]
    exact ring

theorem get_current_page_keeps (ftl : ZmsFtl) (name : WpName) :
    (getCurrentPage p ftl name).1 = wpPage (ftl.wps name) ∧ (getCurrentPage p ftl name).2.lm = ftl.lm ∧
      (getCurrentPage p ftl name).2.wps = ftl.wps ∧ (getCurrentPage p ftl name).2.nand = ftl.nand := by
  unfold getCurrentPage
  dsimp only
  split
  · cases getPageLocation p (wpPage (ftl.wps name)) <;> exact ⟨rfl, rfl, rfl, rfl⟩
  · exact ⟨rfl, rfl, rfl, rfl⟩

theorem get_new_page_keeps (ftl : ZmsFtl) (ioType : IoType) (loc : Loc) (cur : LineRef)
    (curline : (ftl.wps (zmsGetWp ioType loc)).curline = some cur) :
    ∃ next, getNewPage p ftl ioType loc = .ok (wpPage (ftl.wps (zmsGetWp ioType loc)), next) ∧ next.lm = ftl.lm ∧
      next.wps = ftl.wps ∧ next.nand = ftl.nand := by
  obtain ⟨page, lm, wps, nand⟩ := get_current_page_keeps p ftl (zmsGetWp ioType loc)
  refine ⟨_, ?_, lm, wps, nand⟩
  unfold getNewPage openWritePointer
  rw [curline, if_neg (fun unset => by cases unset), ← page]
  rfl

theorem get_new_page_fails (ftl : ZmsFtl) (ioType : IoType) (loc : Loc)
    (curline : (ftl.wps (zmsGetWp ioType loc)).curline = none) (ring : IntrusiveList.Ring ftl.lm.links (.free loc) []) :
    getNewPage p ftl ioType loc = .error .bugOn := by
  have first := IntrusiveList.ring_first_entry _ _ _ ring
  unfold getNewPage openWritePointer initWritePointer getNextFreeLine
  rw [curline, first]
  rfl

theorem stands_congr (before after : ZmsFtl) (name : WpName) (loc : Loc) (spot : Spot) (links : after.lm.links = before.lm.links)
    (wps : after.wps = before.wps) (stands : Stands before name loc spot) : Stands after name loc spot := by
  obtain ⟨curline, medium, here, lists⟩ := stands
  refine ⟨?_, ?_, ?_, ?_⟩
  · rw [wps, curline]
  · rw [wps, medium]
  · rw [wps, here]
  · rw [links]
    exact lists

theorem stands_moved (ftl : ZmsFtl) (name : WpName) (loc : Loc) (spot : Spot) (there : Page) (stands : Stands ftl name loc spot) :
    Stands (updateWritePointer ftl name there) name loc { spot with page := there } := by
  obtain ⟨curline, medium, here, lists⟩ := stands
  refine ⟨?_, ?_, ?_, lists⟩
  · simp [updateWritePointer, putWp, curline]
  · simp [updateWritePointer, putWp, medium]
  · simp [updateWritePointer, putWp, wpPage]

end Lists

section Pointer

variable (p : Params) (ioType : IoType) (loc : Loc)

theorem line_step_kind (spot : Spot) (placed : SpotPlaced p spot) :
    (if isSuperblock spot.line then nextpageInterleave p spot.page else nextpageNormal p spot.page) = lineStep p spot.page spot.page := by
  unfold lineStep
  rw [placed.kind]
  cases isSuperblock (getLine p spot.page) <;> rfl

theorem advance_pointer_forward (ftl : ZmsFtl) (spot next : Spot) (placed : SpotPlaced p spot)
    (stands : Stands ftl (zmsGetWp ioType loc) loc spot) (moved : forward p spot = some next) :
    ∃ after, advanceWritePointer p ftl ioType loc = .ok after ∧ Stands after (zmsGetWp ioType loc) loc next ∧ SameTallies ftl after ∧
      after.nand = ftl.nand := by
  obtain ⟨page, lm, wps, nand⟩ := get_current_page_keeps p ftl (zmsGetWp ioType loc)
  have kept := stands_congr ftl (getCurrentPage p ftl (zmsGetWp ioType loc)).2 _ loc spot (by rw [lm]) wps stands
  unfold advanceWritePointer
  dsimp only
  rw [stands.curline]
  dsimp only
  rw [page, stands.page, line_step_kind p spot placed]
  unfold forward at moved
  cases stepped : lineStep p spot.page spot.page with
  | some there =>
      rw [stepped] at moved
      cases moved
      refine ⟨_, rfl, stands_moved _ _ loc spot there kept, ?_, nand⟩
      intro ref
      change tally ((getCurrentPage p ftl (zmsGetWp ioType loc)).2.lm.lines ref) = _
      rw [lm]
  | none =>
      rw [stepped] at moved
      dsimp only at moved
      cases free : spot.free with
      | nil => rw [free] at moved; cases moved
      | cons ref rest =>
          rw [free] at moved
          cases moved
          obtain ⟨after, ran, taken, same, afterNand⟩ := get_new_wp_takes p _ _ loc spot.line ref spot.page rest
            (by rw [← free]; exact kept)
          refine ⟨after, ran, taken, ?_, afterNand.trans nand⟩
          intro other
          rw [same other, lm]

theorem advance_pointer_stuck (ftl : ZmsFtl) (spot : Spot) (placed : SpotPlaced p spot)
    (stands : Stands ftl (zmsGetWp ioType loc) loc spot) (stuck : forward p spot = none) :
    ∃ after, advanceWritePointer p ftl ioType loc = .ok after ∧ getNewPage p after ioType loc = .error .bugOn := by
  obtain ⟨page, lm, wps, nand⟩ := get_current_page_keeps p ftl (zmsGetWp ioType loc)
  have kept := stands_congr ftl (getCurrentPage p ftl (zmsGetWp ioType loc)).2 _ loc spot (by rw [lm]) wps stands
  unfold advanceWritePointer
  dsimp only
  rw [stands.curline]
  dsimp only
  rw [page, stands.page, line_step_kind p spot placed]
  unfold forward at stuck
  cases stepped : lineStep p spot.page spot.page with
  | some there => rw [stepped] at stuck; cases stuck
  | none =>
      rw [stepped] at stuck
      dsimp only at stuck
      cases free : spot.free with
      | cons ref rest => rw [free] at stuck; cases stuck
      | nil =>
          obtain ⟨after, ran, curline, ring⟩ := get_new_wp_runs_out p _ _ loc spot.line spot.page (by rw [← free]; exact kept)
          exact ⟨after, ran, get_new_page_fails p after ioType loc curline ring⟩

theorem get_new_page_stands (ftl : ZmsFtl) (spot : Spot) (stands : Stands ftl (zmsGetWp ioType loc) loc spot) :
    ∃ next, getNewPage p ftl ioType loc = .ok (spot.page, next) ∧ Stands next (zmsGetWp ioType loc) loc spot ∧ next.lm = ftl.lm ∧
      next.nand = ftl.nand := by
  obtain ⟨next, ran, lm, wps, nand⟩ := get_new_page_keeps p ftl ioType loc spot.line stands.curline
  rw [stands.page] at ran
  exact ⟨next, ran, stands_congr ftl next _ loc spot (by rw [lm]) wps stands, lm, nand⟩

end Pointer

section Crossing

variable (p : Params) (ioType : IoType) (loc : Loc)

theorem cross_line_takes (r : Reservation) (cur ref : LineRef) (page : Page) (rest : List LineRef)
    (stands : Stands r.ftl (zmsGetWp ioType loc) loc ⟨cur, page, ref :: rest⟩) :
    ∃ next, crossLine p ioType loc r = .ok (⟨next, getFirstPage p ref, ref, r.current, r.remaining⟩, true) ∧
      Stands next (zmsGetWp ioType loc) loc ⟨ref, getFirstPage p ref, rest⟩ ∧
      ∀ other, usedInLine (next.lm.lines other) = usedInLine (r.ftl.lm.lines other) := by
  obtain ⟨middle, moved, taken, same, _⟩ := get_new_wp_takes p r.ftl _ loc cur ref page rest stands
  have linked : Stands (setRsvNextline middle r.prev r.current) (zmsGetWp ioType loc) loc ⟨ref, getFirstPage p ref, rest⟩ :=
    stands_congr middle _ _ loc _ rfl rfl taken
  obtain ⟨next, ran, there, lm, _⟩ := get_new_page_stands p ioType loc _ _ linked
  refine ⟨next, ?_, there, ?_⟩
  · unfold crossLine
    dsimp only
    rw [moved]
    dsimp only [Bind.bind, Except.bind]
    rw [taken.curline]
    dsimp only
    rw [ran]
    rfl
  · intro other
    rw [lm, ← tally_used _ _ (same other)]
    change usedInLine ((putLine middle r.prev _).lm.lines other) = _
    by_cases here : other = r.prev
    · rw [here]
      simp [putLine, usedInLine]
    · simp [putLine, Function.update_of_ne here]

structure FreshLine (r : Reservation) (spot : Spot) : Prop where
  stands : Stands r.ftl (zmsGetWp ioType loc) loc spot
  placed : SpotPlaced p spot
  line : r.current = spot.line
  page : r.page = spot.page
  first : placeIn p spot.page = 0
  size : pgsPerLineOf p spot.line = lineSize p spot.page
  clean : ∀ ref ∈ spot.line :: spot.free, usedInLine (r.ftl.lm.lines ref) = 0

variable (rows : RowGeometry p.spp) (medium : Medium p) (sizes : UnitSizes p)

include rows medium sizes in
theorem cross_line_fresh (r : Reservation) (spot : Spot) (ref : LineRef) (rest : List LineRef)
    (stands : Stands r.ftl (zmsGetWp ioType loc) loc spot) (placed : SpotPlaced p spot) (free : spot.free = ref :: rest)
    (clean : ∀ other ∈ spot.free, usedInLine (r.ftl.lm.lines other) = 0) :
    ∃ next, crossLine p ioType loc r = .ok (next, true) ∧ FreshLine p ioType loc next ⟨ref, getFirstPage p ref, rest⟩ ∧
      next.remaining = r.remaining := by
  obtain ⟨next, ran, taken, same⟩ := cross_line_takes p ioType loc r spot.line ref spot.page rest (by rw [← free]; exact stands)
  have listed := placed.listed
  have distinct := (List.nodup_cons.mp placed.distinct).2
  rw [free] at listed distinct clean
  have member := listed ref (List.mem_cons_self ..)
  have entered := entered_placed p rows medium ref rest listed distinct
  refine ⟨_, ran, ⟨taken, entered, rfl, rfl, ?_, ?_, ?_⟩, rfl⟩
  · exact first_page_place p rows ref member entered.owned
  · exact first_page_size p rows medium sizes ref member
  · intro other inList
    rw [same other]
    exact clean other inList

theorem fresh_free (r : Reservation) (spot : Spot) (fresh : FreshLine p ioType loc r spot) :
    freeInLine p r.ftl r.current = (lineSize p spot.page : Int) := by
  have clean := fresh.clean spot.line (List.mem_cons_self ..)
  unfold usedInLine at clean
  unfold freeInLine
  rw [fresh.line, fresh.size, clean, sub_zero]

theorem reserve_loop_round (fuel : Nat) (r next : Reservation) (more : r.remaining ≠ 0)
    (ran : reserveStep p ioType loc r = .ok (next, true)) :
    reserveLoop p ioType loc (fuel + 1) r = reserveLoop p ioType loc fuel next := by
  rw [reserveLoop, if_neg more, ran]
  rfl

theorem reserve_loop_done (fuel : Nat) (r : Reservation) (done : r.remaining = 0) : reserveLoop p ioType loc fuel r = .ok r.ftl := by
  cases fuel <;> rw [reserveLoop, if_pos done]

theorem reserve_loop_crosses (fuel : Nat) (r next : Reservation) (spot : Spot) (full : freeInLine p r.ftl r.current ≤ 0)
    (ran : crossLine p ioType loc r = .ok (next, true)) (fresh : FreshLine p ioType loc next spot)
    (positive : 0 < lineSize p spot.page) (more : r.remaining ≠ 0) (same : next.remaining = r.remaining) :
    reserveLoop p ioType loc (fuel + 1) r = reserveLoop p ioType loc (fuel + 1) next := by
  have here : reserveStep p ioType loc r = reserveInLine p ioType loc next (pgsPerLineOf p next.current) := by
    unfold reserveStep
    dsimp only
    rw [if_pos full, ran]
    rfl
  have there : reserveStep p ioType loc next = reserveInLine p ioType loc next (pgsPerLineOf p next.current) := by
    have free := fresh_free p ioType loc next spot fresh
    unfold reserveStep
    dsimp only
    rw [free, if_neg (by omega), fresh.line, fresh.size]
    rfl
  rw [reserveLoop, reserveLoop, if_neg more, if_neg (by rw [same]; exact more), here, there]

def countReserved (r : Reservation) (step : Nat) : ZmsFtl :=
  putLine r.ftl r.current { r.ftl.lm.lines r.current with rpc := (r.ftl.lm.lines r.current).rpc + step }

theorem used_counted (r : Reservation) (step : Nat) (ref : LineRef) :
    usedInLine ((countReserved r step).lm.lines ref) = usedInLine (r.ftl.lm.lines ref) + if ref = r.current then (step : Int) else 0 := by
  by_cases here : ref = r.current
  · rw [here, if_pos rfl]
    simp [countReserved, putLine, usedInLine, add_assoc]
  · rw [if_neg here, add_zero]
    simp [countReserved, putLine, Function.update_of_ne here]

include rows in
theorem reserve_inside (r : Reservation) (spot : Spot) (free : Nat) (stands : Stands r.ftl (zmsGetWp ioType loc) loc spot)
    (placed : SpotPlaced p spot) (page : r.page = spot.page) (inside : placeIn p spot.page + min r.remaining free < lineSize p spot.page) :
    ∃ next there, reserveInLine p ioType loc r free = .ok (⟨next, there, r.current, r.prev, r.remaining - min r.remaining free⟩, true) ∧
      Walk.advance (lineStep p spot.page) (min r.remaining free) spot.page = some there ∧ getLine p there = getLine p spot.page ∧
      Stands next (zmsGetWp ioType loc) loc { spot with page := there } ∧ next.lm = (countReserved r (min r.remaining free)).lm ∧
      next.nand = r.ftl.nand := by
  obtain ⟨there, walked, same⟩ := walk_in_line p rows spot.page placed.owned _ inside
  have fast := advanced_ppa_walk p rows.toWalkGeometry spot.page (owned_digits p _ placed.owned) (min r.remaining free)
  change _ = Walk.advance (lineStep p spot.page) _ _ at fast
  rw [walked, ← page] at fast
  refine ⟨updateWritePointer (countReserved r (min r.remaining free)) (zmsGetWp ioType loc) there, there, ?_, walked, same, ?_, rfl, rfl⟩
  · unfold reserveInLine
    dsimp only
    rw [fast]
    rfl
  · exact stands_moved _ _ loc spot there (stands_congr r.ftl _ _ loc spot rfl rfl stands)

include rows in
theorem reserve_whole (r : Reservation) (spot : Spot) (fresh : FreshLine p ioType loc r spot) (fill : lineSize p spot.page ≤ r.remaining) :
    reserveInLine p ioType loc r (lineSize p spot.page) =
      crossLine p ioType loc ⟨countReserved r (lineSize p spot.page), r.page, r.current, r.prev, r.remaining - lineSize p spot.page⟩ := by
  have fast := advanced_ppa_walk p rows.toWalkGeometry spot.page (owned_digits p _ fresh.placed.owned) (lineSize p spot.page)
  change _ = Walk.advance (lineStep p spot.page) _ _ at fast
  rw [walk_past_line p rows spot.page fresh.placed.owned _ (Nat.le_add_left ..)] at fast
  have ends : getAdvancedPpaFast p r.page (lineSize p spot.page) = none := by
    rw [fresh.page]
    exact fast
  unfold reserveInLine
  dsimp only
  rw [Nat.min_eq_right fill, ends]
  rfl

include rows medium sizes in
theorem fresh_loop (fuel : Nat) (r : Reservation) (spot last : Spot) (fresh : FreshLine p ioType loc r spot)
    (fits : r.remaining ≤ fuel) (reached : Walk.advance (forward p) r.remaining spot = some last) :
    ∃ next, reserveLoop p ioType loc fuel r = .ok next ∧ Stands next (zmsGetWp ioType loc) loc last := by
  induction fuel generalizing r spot with
  | zero =>
      have done : r.remaining = 0 := by omega
      rw [done] at reached
      cases reached
      exact ⟨_, reserve_loop_done p ioType loc 0 r done, fresh.stands⟩
  | succ fuel ih =>
      by_cases done : r.remaining = 0
      · rw [done] at reached
        cases reached
        exact ⟨_, reserve_loop_done p ioType loc _ r done, fresh.stands⟩
      have positive := place_in_line p rows spot.page fresh.placed.owned
      rw [fresh.first] at positive
      have free := fresh_free p ioType loc r spot fresh
      have step : reserveStep p ioType loc r = reserveInLine p ioType loc r (lineSize p spot.page) := by
        unfold reserveStep
        dsimp only
        rw [free, if_neg (by omega)]
        rfl
      rcases Nat.lt_or_ge r.remaining (lineSize p spot.page) with inside | fill
      · obtain ⟨next, there, ran, walked, _, stands, _⟩ := reserve_inside p ioType loc rows r spot (lineSize p spot.page)
          fresh.stands fresh.placed fresh.page (by rw [fresh.first, Nat.min_eq_left inside.le, Nat.zero_add]; exact inside)
        rw [Nat.min_eq_left inside.le] at ran walked
        rw [forward_in_line p rows medium _ spot fresh.placed there walked] at reached
        cases reached
        rw [reserve_loop_round p ioType loc fuel r _ done (step.trans ran)]
        exact ⟨next, reserve_loop_done p ioType loc fuel _ (Nat.sub_self _), stands⟩
      · obtain ⟨more, split⟩ := Nat.exists_eq_add_of_le fill
        rw [split, Walk.advance_add, forward_past_line p rows medium spot fresh.placed _ (by rw [fresh.first, Nat.zero_add])] at reached
        cases lines : spot.free with
        | nil => rw [lines] at reached; cases reached
        | cons ref rest =>
            rw [lines] at reached
            have outside := (List.nodup_cons.mp fresh.placed.distinct).1
            obtain ⟨next, ran, entered, left⟩ := cross_line_fresh p ioType loc rows medium sizes
              ⟨countReserved r (lineSize p spot.page), r.page, r.current, r.prev, r.remaining - lineSize p spot.page⟩ spot ref rest
              (stands_congr r.ftl _ _ loc spot rfl rfl fresh.stands) fresh.placed lines (by
                intro other member
                rw [used_counted, if_neg (by rw [fresh.line]; rintro rfl; exact outside member), add_zero]
                exact fresh.clean other (List.mem_cons_of_mem _ member))
            dsimp only at left
            have crossed := step.trans ((reserve_whole p ioType loc rows r spot fresh fill).trans ran)
            rw [reserve_loop_round p ioType loc fuel r next done crossed]
            refine ih next _ entered (by omega) ?_
            rw [left, split, Nat.add_sub_cancel_left]
            exact reached

include rows medium sizes in
-- A full line is left for the first free one, and the pages left are reserved
-- there: the pointer passes one page more.
theorem full_loop (fuel : Nat) (r : Reservation) (spot last : Spot) (stands : Stands r.ftl (zmsGetWp ioType loc) loc spot)
    (placed : SpotPlaced p spot) (full : freeInLine p r.ftl r.current ≤ 0) (ends : lineStep p spot.page spot.page = none)
    (clean : ∀ ref ∈ spot.free, usedInLine (r.ftl.lm.lines ref) = 0) (more : r.remaining ≠ 0) (fits : r.remaining ≤ fuel)
    (reached : Walk.advance (forward p) (r.remaining + 1) spot = some last) :
    ∃ next, reserveLoop p ioType loc fuel r = .ok next ∧ Stands next (zmsGetWp ioType loc) loc last := by
  obtain ⟨fuel, rfl⟩ := Nat.exists_eq_add_one_of_ne_zero (show fuel ≠ 0 by omega)
  simp only [Walk.advance] at reached
  unfold forward at reached
  rw [ends] at reached
  dsimp only at reached
  cases lines : spot.free with
  | nil => rw [lines] at reached; cases reached
  | cons ref rest =>
      rw [lines] at reached
      obtain ⟨next, ran, entered, left⟩ := cross_line_fresh p ioType loc rows medium sizes r spot ref rest stands placed lines clean
      have positive := place_in_line p rows _ entered.placed.owned
      rw [reserve_loop_crosses p ioType loc fuel r next _ full ran entered (by omega) more left]
      refine fresh_loop p ioType loc rows medium sizes _ next _ last entered (by omega) ?_
      rw [left]
      exact reached

structure FirstLine (r : Reservation) (spot : Spot) : Prop where
  stands : Stands r.ftl (zmsGetWp ioType loc) loc spot
  placed : SpotPlaced p spot
  line : r.current = getLine p spot.page
  page : r.page = spot.page
  used : usedInLine (r.ftl.lm.lines r.current) = placeIn p spot.page + 1

include sizes in
theorem first_line_free (r : Reservation) (spot : Spot) (first : FirstLine p ioType loc r spot) :
    freeInLine p r.ftl r.current = (lineSize p spot.page : Int) - (placeIn p spot.page + 1) := by
  have used := first.used
  unfold usedInLine at used
  unfold freeInLine
  rw [used, first.line, sizes.size _ first.placed.owned]

include rows sizes in
theorem fitting_loop (fuel : Nat) (r : Reservation) (spot : Spot) (first : FirstLine p ioType loc r spot) (fits : r.remaining ≤ fuel)
    (inside : placeIn p spot.page + 1 + r.remaining ≤ lineSize p spot.page) :
    ∃ next there, reserveLoop p ioType loc fuel r = .ok next ∧
      Walk.advance (lineStep p spot.page) r.remaining spot.page = some there ∧
      Stands next (zmsGetWp ioType loc) loc { spot with page := there } ∧
      next.lm.lines = (countReserved r r.remaining).lm.lines ∧ next.nand = r.ftl.nand := by
  by_cases done : r.remaining = 0
  · refine ⟨r.ftl, spot.page, reserve_loop_done p ioType loc fuel r done, ?_, first.stands, ?_, rfl⟩
    · rw [done]
      rfl
    · rw [done]
      simp [countReserved, putLine]
  · obtain ⟨fuel, rfl⟩ := Nat.exists_eq_add_one_of_ne_zero (show fuel ≠ 0 by omega)
    have free := first_line_free p ioType loc sizes r spot first
    have all : min r.remaining (freeInLine p r.ftl r.current).toNat = r.remaining := by omega
    obtain ⟨next, there, ran, walked, _, stands, lm, nand⟩ := reserve_inside p ioType loc rows r spot
      (freeInLine p r.ftl r.current).toNat first.stands first.placed first.page (by omega)
    rw [all] at ran walked lm
    have step : reserveStep p ioType loc r = .ok (⟨next, there, r.current, r.prev, r.remaining - r.remaining⟩, true) := by
      unfold reserveStep
      dsimp only
      rw [if_neg (by omega)]
      exact ran
    refine ⟨next, there, ?_, walked, stands, by rw [lm], nand⟩
    rw [reserve_loop_round p ioType loc fuel r _ done step]
    exact reserve_loop_done p ioType loc fuel _ (Nat.sub_self _)

include rows medium sizes in
theorem crossing_loop (fuel : Nat) (r : Reservation) (spot last : Spot) (first : FirstLine p ioType loc r spot) (fits : r.remaining ≤ fuel)
    (beyond : lineSize p spot.page < placeIn p spot.page + 1 + r.remaining)
    (clean : ∀ ref ∈ spot.free, usedInLine (r.ftl.lm.lines ref) = 0) (apart : getLine p spot.page ∉ spot.free)
    (reached : Walk.advance (forward p) (r.remaining + 1) spot = some last) :
    ∃ next, reserveLoop p ioType loc fuel r = .ok next ∧ Stands next (zmsGetWp ioType loc) loc last := by
  have here := place_in_line p rows spot.page first.placed.owned
  have free := first_line_free p ioType loc sizes r spot first
  have more : r.remaining ≠ 0 := by omega
  by_cases full : placeIn p spot.page + 1 = lineSize p spot.page
  · refine full_loop p ioType loc rows medium sizes fuel r spot last first.stands first.placed (by omega) ?_ clean more fits reached
    have past := walk_past_line p rows spot.page first.placed.owned 1 (by omega)
    simpa [Walk.advance] using past
  · obtain ⟨fuel, rfl⟩ := Nat.exists_eq_add_one_of_ne_zero (show fuel ≠ 0 by omega)
    obtain ⟨room, size⟩ := Nat.exists_eq_add_of_le (show placeIn p spot.page + 1 ≤ lineSize p spot.page by omega)
    have whole : (freeInLine p r.ftl r.current).toNat = room := by omega
    have filled : min r.remaining room = room := by omega
    obtain ⟨next, there, ran, walked, same, stands, lm, _⟩ := reserve_inside p ioType loc rows r spot room first.stands
      first.placed first.page (by omega)
    rw [filled] at ran walked lm
    have step : reserveStep p ioType loc r = .ok (⟨next, there, r.current, r.prev, r.remaining - room⟩, true) := by
      unfold reserveStep
      dsimp only
      rw [if_neg (by omega), whole]
      exact ran
    have moved := forward_in_line p rows medium room spot first.placed there walked
    rw [reserve_loop_round p ioType loc fuel r _ more step]
    refine full_loop p ioType loc rows medium sizes fuel _ { spot with page := there } last stands
      (advance_placed p rows medium room spot _ first.placed moved) ?_ ?_ ?_ ?_ ?_ ?_
    · have counted := used_counted r room r.current
      rw [← lm, if_pos rfl, first.used] at counted
      unfold usedInLine at counted
      unfold freeInLine
      dsimp only
      rw [counted, first.line, sizes.size _ first.placed.owned]
      omega
    · have past := walk_past_line p rows spot.page first.placed.owned (room + 1) (by omega)
      rw [Walk.advance_succ, walked, Option.bind_some, ← line_step_same p spot.page there same] at past
      exact past
    · intro ref member
      dsimp only
      rw [lm, used_counted, if_neg (by rw [first.line]; rintro rfl; exact apart member), add_zero]
      exact clean ref member
    · dsimp only
      omega
    · dsimp only
      omega
    · dsimp only
      rw [show r.remaining + 1 = room + (r.remaining - room + 1) by omega, Walk.advance_add, moved, Option.bind_some] at reached
      exact reached

end Crossing

section FirstPage

variable (p : Params)

theorem set_maptbl_media (ftl : ZmsFtl) (lpn : Nat) (ppa : Ppa) :
    (setMaptblEnt p ftl lpn ppa).lm = ftl.lm ∧ (setMaptblEnt p ftl lpn ppa).wps = ftl.wps ∧ (setMaptblEnt p ftl lpn ppa).nand = ftl.nand := by
  unfold setMaptblEnt
  split <;> exact ⟨rfl, rfl, rfl⟩

theorem set_rmap_media (ftl : ZmsFtl) (lpn : Option Nat) (page : Page) :
    (setRmapEnt p ftl lpn page).lm = ftl.lm ∧ (setRmapEnt p ftl lpn page).wps = ftl.wps := by
  unfold setRmapEnt
  split <;> exact ⟨rfl, rfl⟩

theorem set_map_gran_lists (ftl : ZmsFtl) (gran : MapType) (lpn : Nat) :
    (setMapGran p ftl gran lpn).lm = ftl.lm ∧ (setMapGran p ftl gran lpn).wps = ftl.wps := by
  have quiet := (set_map_gran_quiet p ftl gran lpn).media
  exact ⟨congrArg MediaSide.lm quiet, congrArg MediaSide.wps quiet⟩

theorem note_filled_lists (ftl : ZmsFtl) (ref : LineRef) (loc : Loc) (ioType : IoType) :
    SameTallies ftl (noteFilledLine p ftl ref loc ioType) ∧ (noteFilledLine p ftl ref loc ioType).lm.links = ftl.lm.links ∧
      (noteFilledLine p ftl ref loc ioType).wps = ftl.wps := by
  unfold noteFilledLine
  dsimp only
  split
  · refine ⟨?_, rfl, rfl⟩
    intro other
    by_cases here : other = ref
    · rw [here]
      simp [tally]
    · simp [tally, Function.update_of_ne here]
  · exact ⟨tallies_refl ftl, rfl, rfl⟩

-- A page that can be marked valid: free, with room in its block's and its line's count.
structure Markable (ftl : ZmsFtl) (page : Page) : Prop where
  owned : OwnedPage p page
  free : pageStatus ftl page = .free
  block : 0 ≤ (ftl.nand page.block).vpc ∧ (ftl.nand page.block).vpc < usedPgs p.spp page.blk
  line : 0 ≤ (ftl.lm.lines (getLine p page)).vpc ∧ (ftl.lm.lines (getLine p page)).vpc < pgsPerLineOf p (getLine p page)

def countValid (lm : LineMgmt) (ref : LineRef) : LineMgmt :=
  { lm with lines := Function.update lm.lines ref { lm.lines ref with vpc := (lm.lines ref).vpc + 1 } }

theorem mark_page_counts (ftl : ZmsFtl) (page : Page) (markable : Markable p ftl page) :
    (markPageValid p ftl page).lm = countValid ftl.lm (getLine p page) ∧ (markPageValid p ftl page).wps = ftl.wps := by
  have pg := markable.owned.pg
  have free : (ftl.nand page.block).status page.pg = .free := markable.free
  unfold markPageValid
  dsimp only
  rw [if_neg (by rw [free]; simp [pg]), if_neg (fun outside => outside markable.block), if_neg (fun outside => outside markable.line)]
  exact ⟨rfl, rfl⟩

theorem take_first_page_counts (ftl : ZmsFtl) (slpn : Nat) (page : Page) (markable : Markable p ftl page) :
    (takeFirstPage p ftl slpn page).lm = countValid ftl.lm (getLine p page) ∧ (takeFirstPage p ftl slpn page).wps = ftl.wps := by
  obtain ⟨mapLm, mapWps, mapNand⟩ := set_maptbl_media p ftl slpn (.mapped page .pageMap)
  obtain ⟨owned, free, block, line⟩ := markable
  have marked := mark_page_counts p (setMaptblEnt p ftl slpn (.mapped page .pageMap)) page (by
    refine ⟨owned, ?_, ?_, ?_⟩
    · unfold pageStatus
      rw [mapNand]
      exact free
    · rw [mapNand]
      exact block
    · rw [mapLm]
      exact line)
  unfold takeFirstPage
  dsimp only
  rw [(set_map_gran_lists p _ _ _).1, (set_map_gran_lists p _ _ _).2, (set_rmap_media p _ _ _).1, (set_rmap_media p _ _ _).2, marked.1, marked.2,
    mapLm, mapWps]
  exact ⟨rfl, rfl⟩

end FirstPage

end ConZone
