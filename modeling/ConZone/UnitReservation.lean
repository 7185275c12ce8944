import ConZone.UnitPath

set_option autoImplicit false

namespace ConZone

-- The pages of a unit in the order in which they are given out: nextpage with rsv set.
def followRsv (p : Params) (lines : LineRef → Line) (page : Page) : Option Page :=
  match nextpage p lines page .pageMap true with
  | .mapped next _ => some next
  | _ => none

-- What the reservation of a unit has to leave behind: its pages are the ones
-- the write pointer was to pass, and the pointer stands behind the last of them.
structure ReservesPath (p : Params) (name : WpName) (before after : ZmsFtl) (spot : Spot) (pages : List Page) : Prop where
  path : ∀ index, index < pages.length → pages[index]? = Walk.advance (followRsv p after.lm.lines) index spot.page ∧
    pages[index]? = (Walk.advance (forward p) index spot).map Spot.page
  distinct : pages.Nodup
  unused : ∀ page ∈ pages, pageStatus before page = .free
  counted : ∀ ref, (after.lm.lines ref).rpc =
    (before.lm.lines ref).rpc + (pages.tail.filter fun page => getLine p page == ref).length
  pointer : ∃ last, Walk.advance (forward p) pages.length spot = some last ∧ (after.wps name).curline = some last.line ∧
    wpPage (after.wps name) = last.page
  chain : ∃ lines, Walk.Visits (fun ref => (after.lm.lines ref).rsvNextline) (getLine p spot.page) lines ∧
    ∃ erased, eraseLinkedLines p lines.length after (some (getLine p spot.page)) = .ok erased

def UnitReserved (p : Params) (ftl start : ZmsFtl) (lpn : Nat) (loc : Loc) (ioType : IoType) (spot : Spot) : Prop :=
  ∃ next pages, reserveMapping p ftl lpn loc ioType = .ok next ∧ pages.length = unitPgs p loc ∧
    ReservesPath p (zmsGetWp ioType loc) start next spot pages

-- The write pointer stands in a line whose counters say how far it has come,
-- and the pages ahead of it are free.
structure PointerReady (p : Params) (ftl : ZmsFtl) (ioType : IoType) (loc : Loc) (spot : Spot) : Prop where
  stands : Stands ftl (zmsGetWp ioType loc) loc spot
  placed : SpotPlaced p spot
  ahead : ∀ index there, Walk.advance (forward p) index spot = some there → pageStatus ftl there.page = .free
  block : 0 ≤ (ftl.nand spot.page.block).vpc ∧ (ftl.nand spot.page.block).vpc < usedPgs p.spp spot.page.blk
  counts : 0 ≤ (ftl.lm.lines (getLine p spot.page)).vpc ∧ 0 ≤ (ftl.lm.lines (getLine p spot.page)).ipc ∧
    0 ≤ (ftl.lm.lines (getLine p spot.page)).rpc
  used : usedInLine (ftl.lm.lines (getLine p spot.page)) = placeIn p spot.page
  link : (ftl.lm.lines (getLine p spot.page)).rsvNextline = none

-- None of the free lines has been used or is the line of the write pointer's page.
def UnusedAhead (p : Params) (ftl : ZmsFtl) (spot : Spot) : Prop :=
  ∀ ref ∈ spot.free, usedInLine (ftl.lm.lines ref) = 0 ∧ ref ≠ getLine p spot.page

section Entering

variable (p : Params) (ioType : IoType) (loc : Loc)

theorem opened_entries (ftl start : ZmsFtl) (slpn pgs : Nat) (opened : openWritePointer p ftl ioType loc = .ok start) :
    openWritePointer p (reserveEntries ftl slpn pgs) ioType loc = .ok (reserveEntries start slpn pgs) := by
  unfold openWritePointer at opened ⊢
  by_cases closed : (ftl.wps (zmsGetWp ioType loc)).curline = none
  · have entries : ((reserveEntries ftl slpn pgs).wps (zmsGetWp ioType loc)).curline = none := closed
    rw [if_pos closed] at opened
    rw [if_pos entries]
    unfold initWritePointer getNextFreeLine at opened ⊢
    have links : (reserveEntries ftl slpn pgs).lm.links = ftl.lm.links := rfl
    rw [links]
    cases first : IntrusiveList.listFirstEntryOrNull ftl.lm.links (.free loc) with
    | none =>
        rw [first] at opened
        cases opened
    | some node =>
        rw [first] at opened
        cases node with
        | line ref =>
            cases opened
            rfl
        | free other => cases opened
        | full other => cases opened
  · have entries : ¬((reserveEntries ftl slpn pgs).wps (zmsGetWp ioType loc)).curline = none := closed
    rw [if_neg closed] at opened
    rw [if_neg entries]
    cases opened
    rfl

theorem unit_page_taken (ftl start : ZmsFtl) (slpn pgs : Nat) (spot : Spot) (opened : openWritePointer p ftl ioType loc = .ok start)
    (stands : Stands start (zmsGetWp ioType loc) loc spot) :
    ∃ taken, getNewPage p (reserveEntries ftl slpn pgs) ioType loc = .ok (spot.page, taken) ∧ taken.lm = start.lm ∧
      taken.wps = start.wps ∧ taken.nand = start.nand := by
  obtain ⟨page, lm, wps, nand⟩ := get_current_page_keeps p (reserveEntries start slpn pgs) (zmsGetWp ioType loc)
  refine ⟨_, ?_, lm, wps, nand⟩
  unfold getNewPage
  rw [opened_entries p ioType loc ftl start slpn pgs opened]
  have here : wpPage ((reserveEntries start slpn pgs).wps (zmsGetWp ioType loc)) = spot.page := stands.page
  rw [here] at page
  rw [← page]
  rfl

theorem unit_entered (ftl start : ZmsFtl) (lpn : Nat) (spot : Spot) (opened : openWritePointer p ftl ioType loc = .ok start)
    (ready : PointerReady p start ioType loc spot) (size : pgsPerLineOf p (getLine p spot.page) = lineSize p spot.page)
    (room : placeIn p spot.page < lineSize p spot.page) :
    ∃ taken, getNewPage p (reserveEntries ftl (unitStart p lpn loc) (unitPgs p loc)) ioType loc = .ok (spot.page, taken) ∧
      FirstLine p ioType loc ⟨firstPageTaken p taken lpn loc ioType spot.page, spot.page, getLine p spot.page, getLine p spot.page,
        unitPgs p loc - 1⟩ spot ∧
      ∀ ref, tally ((firstPageTaken p taken lpn loc ioType spot.page).lm.lines ref) =
        tally ((countValid start.lm (getLine p spot.page)).lines ref) := by
  obtain ⟨taken, ran, lm, wps, nand⟩ := unit_page_taken p ioType loc ftl start (unitStart p lpn loc) (unitPgs p loc) spot opened ready.stands
  obtain ⟨vpc, ipc, rpc⟩ := ready.counts
  have used := ready.used
  have markable : Markable p taken spot.page := by
    refine ⟨ready.placed.owned, ?_, ?_, ?_⟩
    · unfold pageStatus
      rw [nand]
      exact ready.ahead 0 spot rfl
    · rw [nand]
      exact ready.block
    · rw [lm, size]
      unfold usedInLine at used
      omega
  obtain ⟨counted, pointers⟩ := take_first_page_counts p taken (unitStart p lpn loc) spot.page markable
  obtain ⟨tallies, links, kept⟩ := note_filled_lists p (takeFirstPage p taken (unitStart p lpn loc) spot.page) (getLine p spot.page) loc ioType
  have lines : ∀ ref, tally ((firstPageTaken p taken lpn loc ioType spot.page).lm.lines ref) =
      tally ((countValid start.lm (getLine p spot.page)).lines ref) := by
    intro ref
    refine (tallies ref).trans ?_
    rw [counted, lm]
  refine ⟨taken, ran, ⟨?_, ready.placed, rfl, rfl, ?_⟩, lines⟩
  · refine stands_congr start _ _ loc spot ?_ ?_ ready.stands
    · refine links.trans ?_
      rw [counted, lm]
      rfl
    · refine kept.trans ?_
      rw [pointers, wps]
  · rw [tally_used _ _ (lines _)]
    dsimp only
    rw [← used]
    simp [countValid, usedInLine]
    omega

end Entering

section Fitting

variable (p : Params) (rows : RowGeometry p.spp) (medium : Medium p) (sizes : UnitSizes p)

include rows medium in
theorem follow_in_line (lines : LineRef → Line) (page there : Page) (owned : OwnedPage p page) (count : Nat)
    (walked : Walk.advance (lineStep p page) count page = some there) :
    Walk.advance (followRsv p lines) count page = some there := by
  refine line_followed p rows medium (followRsv p lines) id page owned ?_ count there walked
  intro here next _ stepped
  unfold followRsv nextpage
  have step : (if isSuperblock (getLine p here) then nextpageInterleave p here else nextpageNormal p here) = some next := by
    rw [← stepped]
    unfold lineStep
    cases isSuperblock (getLine p here) <;> rfl
  dsimp only [id]
  rw [step]

include rows medium in
theorem unit_path (ftl after : ZmsFtl) (ioType : IoType) (loc : Loc) (spot : Spot) (ready : PointerReady p ftl ioType loc spot) (pgs : Nat)
    (fits : placeIn p spot.page + pgs ≤ lineSize p spot.page) :
    (∀ index, index < pgs → (Walk.path (lineStep p spot.page) pgs spot.page)[index]? =
        Walk.advance (followRsv p after.lm.lines) index spot.page ∧
      (Walk.path (lineStep p spot.page) pgs spot.page)[index]? = (Walk.advance (forward p) index spot).map Spot.page) ∧
      ∀ page ∈ Walk.path (lineStep p spot.page) pgs spot.page, pageStatus ftl page = .free := by
  have along : ∀ index, index < pgs → ∃ there, Walk.advance (lineStep p spot.page) index spot.page = some there := by
    intro index under
    obtain ⟨there, walked, _⟩ := walk_in_line p rows spot.page ready.placed.owned index (by omega)
    exact ⟨there, walked⟩
  constructor
  · intro index under
    obtain ⟨there, walked⟩ := along index under
    rw [Walk.path_get, if_pos under, walked, follow_in_line p rows medium _ _ _ ready.placed.owned index walked,
      forward_in_line p rows medium index spot ready.placed there walked]
    exact ⟨rfl, rfl⟩
  · intro page member
    obtain ⟨index, reached⟩ := List.mem_iff_getElem?.mp member
    rw [Walk.path_get] at reached
    split at reached
    · exact ready.ahead index _ (forward_in_line p rows medium index spot ready.placed page reached)
    · cases reached

theorem chain_of_one (ftl : ZmsFtl) (ref : LineRef) (alone : (ftl.lm.lines ref).rsvNextline = none) :
    ∃ lines, Walk.Visits (fun ref => (ftl.lm.lines ref).rsvNextline) ref lines ∧
      ∃ erased, eraseLinkedLines p lines.length ftl (some ref) = .ok erased := by
  refine ⟨[ref], Walk.Visits.last ref alone, if invalidLine p ftl ref then eraseLine p ftl ref .userIo else ftl, ?_⟩
  change eraseLinkedLines p 1 ftl (some ref) = _
  rw [eraseLinkedLines, alone, eraseLinkedLines]

variable (ftl start : ZmsFtl) (lpn : Nat) (loc : Loc) (ioType : IoType) (spot : Spot)
variable (opened : openWritePointer p ftl ioType loc = .ok start) (ready : PointerReady p start ioType loc spot)
variable (inside : unitStart p lpn loc + unitPgs p loc ≤ p.zpp.ttLpns) (positive : 0 < unitPgs p loc)
variable (enough : (Walk.advance (forward p) (unitPgs p loc) spot).isSome)

theorem tally_rpc (before after : Line) (same : tally after = tally before) :
    after.rpc = before.rpc ∧ after.rsvNextline = before.rsvNextline := by
  obtain ⟨_, rest⟩ := Prod.mk.inj same
  obtain ⟨_, rest⟩ := Prod.mk.inj rest
  exact Prod.mk.inj rest

theorem count_reserved_rpc (r : Reservation) (step : Nat) (ref : LineRef) :
    ((countReserved r step).lm.lines ref).rpc = (r.ftl.lm.lines ref).rpc + (if ref = r.current then step else 0 : Nat) ∧
      ((countReserved r step).lm.lines ref).rsvNextline = (r.ftl.lm.lines ref).rsvNextline := by
  by_cases here : ref = r.current
  · rw [here, if_pos rfl]
    simp [countReserved, putLine]
  · rw [if_neg here]
    simp [countReserved, putLine, Function.update_of_ne here]

theorem count_valid_rpc (lm : LineMgmt) (ref other : LineRef) :
    ((countValid lm ref).lines other).rpc = (lm.lines other).rpc ∧
      ((countValid lm ref).lines other).rsvNextline = (lm.lines other).rsvNextline := by
  by_cases here : other = ref
  · rw [here]
    simp [countValid]
  · simp [countValid, Function.update_of_ne here]

theorem reserved_in_line (line ref : LineRef) (pages : List Page) (inLine : ∀ page ∈ pages, getLine p page = line) :
    (pages.filter fun page => getLine p page == ref).length = if ref = line then pages.length else 0 := by
  split
  · rename_i here
    rw [List.filter_eq_self.mpr fun page member => beq_iff_eq.mpr ((inLine page member).trans here.symm)]
  · rename_i apart
    rw [List.filter_eq_nil_iff.mpr fun page member same => apart ((beq_iff_eq.mp same).symm.trans (inLine page member))]
    rfl

include rows medium sizes opened ready inside positive enough in
theorem unit_fits (fits : placeIn p spot.page + unitPgs p loc ≤ lineSize p spot.page) :
    UnitReserved p ftl start lpn loc ioType spot := by
  have owned := ready.placed.owned
  obtain ⟨taken, entered, first, lines⟩ := unit_entered p ioType loc ftl start lpn spot opened ready (sizes.size _ owned)
    (place_in_line p rows spot.page owned)
  obtain ⟨looped, there, reserving, walked, stands, counted, nand⟩ := fitting_loop p ioType loc rows sizes (unitPgs p loc - 1) _ spot first
    le_rfl (by dsimp only; omega)
  dsimp only at walked counted
  have moved := forward_in_line p rows medium _ spot ready.placed there walked
  obtain ⟨last, reached⟩ := Option.isSome_iff_exists.mp enough
  have next : forward p { spot with page := there } = some last := by
    rw [show unitPgs p loc = unitPgs p loc - 1 + 1 by omega, Walk.advance_succ, moved, Option.bind_some] at reached
    exact reached
  obtain ⟨advanced, advancing, ahead, same, _⟩ := advance_pointer_forward p ioType loc looped _ last
    (advance_placed p rows medium _ spot _ ready.placed moved) stands next
  obtain ⟨final, checked, behind, lm, _⟩ := get_new_page_stands p ioType loc advanced last ahead
  have tallies : ∀ ref, tally (final.lm.lines ref) = tally (looped.lm.lines ref) := by
    intro ref
    rw [lm, same ref]
  obtain ⟨length, distinct, inLine⟩ := line_path p rows spot.page owned (unitPgs p loc) fits
  obtain ⟨path, unused⟩ := unit_path p rows medium start final ioType loc spot ready (unitPgs p loc) fits
  refine ⟨final, Walk.path (lineStep p spot.page) (unitPgs p loc) spot.page, ?_, length, ?_, distinct, unused, ?_, ?_, ?_⟩
  · unfold reserveMapping
    dsimp only
    change (reserveUnit p ftl (unitStart p lpn loc) (unitPgs p loc) >>= _) = _
    rw [reserveUnit, if_pos inside]
    change (getNewPage p (reserveEntries ftl (unitStart p lpn loc) (unitPgs p loc)) ioType loc >>= _) = _
    rw [entered]
    change (reserveLoop p ioType loc (unitPgs p loc - 1) ⟨firstPageTaken p taken lpn loc ioType spot.page, spot.page, getLine p spot.page,
      getLine p spot.page, unitPgs p loc - 1⟩ >>= _) = _
    rw [reserving]
    change (advanceWritePointer p looped ioType loc >>= _) = _
    rw [advancing]
    change (getNewPage p advanced ioType loc >>= _) = _
    rw [checked]
    rfl
  · rw [length]
    exact path
  · intro ref
    rw [(tally_rpc _ _ (tallies ref)).1, counted, (count_reserved_rpc _ _ ref).1, (tally_rpc _ _ (lines ref)).1,
      (count_valid_rpc start.lm _ ref).1, add_right_inj]
    rw [reserved_in_line p (getLine p spot.page) ref _ fun page member => inLine page (List.mem_of_mem_tail member), List.length_tail, length]
  · rw [length]
    exact ⟨last, reached, behind.curline, behind.page⟩
  · refine chain_of_one p final _ ?_
    rw [(tally_rpc _ _ (tallies _)).2, counted, (count_reserved_rpc _ _ _).2, (tally_rpc _ _ (lines _)).2, (count_valid_rpc start.lm _ _).2]
    exact ready.link

include rows medium sizes opened ready inside positive enough in
theorem unit_beyond (unused : UnusedAhead p start spot) (beyond : lineSize p spot.page < placeIn p spot.page + unitPgs p loc) :
    ¬UnitReserved p ftl start lpn loc ioType spot := by
  have owned := ready.placed.owned
  rintro ⟨next, pages, ran, length, reserves⟩
  obtain ⟨taken, entered, first, lines⟩ := unit_entered p ioType loc ftl start lpn spot opened ready (sizes.size _ owned)
    (place_in_line p rows spot.page owned)
  obtain ⟨last, reached⟩ := Option.isSome_iff_exists.mp enough
  have clean : ∀ ref ∈ spot.free,
      usedInLine ((firstPageTaken p taken lpn loc ioType spot.page).lm.lines ref) = 0 := by
    intro ref member
    obtain ⟨zero, apart⟩ := unused ref member
    rw [tally_used _ _ (lines ref)]
    simp only [countValid, Function.update_of_ne apart]
    exact zero
  obtain ⟨stopped, reserving, far⟩ := crossing_loop p ioType loc rows medium sizes (unitPgs p loc - 1) _ spot last first le_rfl
    (by dsimp only; omega) clean (fun member => (unused _ member).2 rfl) (by
      dsimp only
      rw [Nat.sub_add_cancel positive]
      exact reached)
  have placed := advance_placed p rows medium _ spot last ready.placed reached
  obtain ⟨reserved, page, middle, looped, advanced, checkedPage, entries, gotPage, loopRan, advancing, checked⟩ :=
    reserve_mapping_runs p ftl next lpn loc ioType ran
  rw [reserveUnit, if_pos inside] at entries
  cases entries
  rw [entered] at gotPage
  cases gotPage
  rw [reserving] at loopRan
  cases loopRan
  cases moved : forward p last with
  | none =>
      obtain ⟨after, stuck, fails⟩ := advance_pointer_stuck p ioType loc stopped last placed far moved
      rw [advancing] at stuck
      cases stuck
      rw [fails] at checked
      cases checked
  | some further =>
      obtain ⟨after, advance, ahead, _, _⟩ := advance_pointer_forward p ioType loc stopped last further placed far moved
      rw [advancing] at advance
      cases advance
      obtain ⟨final, lastChecked, behind, _, _⟩ := get_new_page_stands p ioType loc advanced further ahead
      rw [checked] at lastChecked
      cases lastChecked
      -- The pointer stands one page behind where the unit ends.
      obtain ⟨expected, there, curline, pointer⟩ := reserves.pointer
      rw [length, reached] at there
      cases there
      rw [behind.curline] at curline
      rw [behind.page] at pointer
      exact forward_differs p last further placed moved (Prod.ext (Option.some.inj curline) pointer)

end Fitting

section Realized

variable (p : Params)

theorem line_refs_distinct : (lineRefs p).Nodup := by
  refine List.nodup_flatMap.mpr ⟨?_, ?_⟩
  · intro id _
    split
    · exact List.nodup_range.map fun _ _ same => (LineRef.sub.inj same).2
    · exact List.nodup_singleton _
  · refine List.nodup_range.imp ?_
    intro first second apart
    have top : ∀ id ref, ref ∈ (if id < interleaveSline p then (List.range p.spp.blksPerLine).map (LineRef.sub id) else [.line id]) →
        topId ref = id := by
      intro id ref member
      split at member
      · obtain ⟨slot, _, rfl⟩ := List.mem_map.mp member
        rfl
      · rw [List.mem_singleton.mp member]
        rfl
    intro ref left right
    exact apart ((top first ref left).symm.trans (top second ref right))

structure FreshLists (lm : LineMgmt) (refs : List LineRef) : Prop where
  free : ∀ loc, IntrusiveList.Ring lm.links (.free loc) ((refs.filter fun ref => initLoc p ref == loc).map .line)
  full : ∀ loc, IntrusiveList.Ring lm.links (.full loc) []

theorem add_free_fresh (lm : LineMgmt) (refs : List LineRef) (ref : LineRef) (outside : ref ∉ refs) (fresh : FreshLists p lm refs) :
    FreshLists p (addFree lm (initLoc p ref) ref) (refs ++ [ref]) := by
  have unlisted : ∀ loc, ref ∉ refs.filter fun ref => initLoc p ref == loc :=
    fun loc member => outside (List.mem_of_mem_filter member)
  have apart : ∀ node loc, node ∈ ListNode.free loc :: (refs.filter fun ref => initLoc p ref == loc).map .line → loc ≠ initLoc p ref →
      node ∉ ListNode.free (initLoc p ref) :: (refs.filter fun other => initLoc p other == initLoc p ref).map .line := by
    intro node loc member differs inOther
    rcases List.mem_cons.mp member with rfl | listed
    · rcases List.mem_cons.mp inOther with same | there
      · exact differs (ListNode.free.inj same)
      · obtain ⟨_, _, same⟩ := List.mem_map.mp there
        cases same
    · obtain ⟨here, inHere, rfl⟩ := List.mem_map.mp listed
      rcases List.mem_cons.mp inOther with same | there
      · cases same
      · obtain ⟨other, inThere, same⟩ := List.mem_map.mp there
        cases ListNode.line.inj same
        have first := (List.mem_filter.mp inHere).2
        have second := (List.mem_filter.mp inThere).2
        exact differs ((beq_iff_eq.mp first).symm.trans (beq_iff_eq.mp second))
  refine ⟨fun loc => ?_, fun loc => ?_⟩
  · by_cases here : initLoc p ref = loc
    · subst here
      rw [List.filter_append, List.map_append]
      have last : [ref].filter (fun other => initLoc p other == initLoc p ref) = [ref] := by simp
      rw [last]
      exact IntrusiveList.ring_add_tail lm.links _ _ _ (fresh.free _) (line_unlisted _ (fun _ same => by cases same) _ ref (unlisted _))
    · rw [List.filter_append]
      have last : [ref].filter (fun other => initLoc p other == loc) = [] := by simp [here]
      rw [last, List.append_nil]
      exact IntrusiveList.ring_add_tail_frame lm.links _ _ _ _ _ (fresh.free loc) (fresh.free _)
        (line_unlisted _ (fun _ same => by cases same) _ ref (unlisted loc)) fun node member => apart node loc member fun same => here same.symm
  · refine IntrusiveList.ring_add_tail_frame lm.links _ _ _ _ _ (fresh.full loc) (fresh.free _) ?_ ?_
    · simp
    · intro node member
      rw [List.mem_singleton] at member
      rw [member]
      simp

theorem add_all_fresh (rest : List LineRef) (lm : LineMgmt) (refs : List LineRef) (distinct : (refs ++ rest).Nodup)
    (fresh : FreshLists p lm refs) :
    FreshLists p (rest.foldl (fun lm ref => addFree lm (initLoc p ref) ref) lm) (refs ++ rest) ∧
      (rest.foldl (fun lm ref => addFree lm (initLoc p ref) ref) lm).lines = lm.lines := by
  induction rest generalizing lm refs with
  | nil =>
      rw [List.append_nil]
      exact ⟨fresh, rfl⟩
  | cons ref rest ih =>
      have outside : ref ∉ refs := fun member => (List.nodup_append.mp distinct).2.2 ref member ref (List.mem_cons_self ..) rfl
      obtain ⟨lists, lines⟩ := ih (addFree lm (initLoc p ref) ref) (refs ++ [ref]) (by simpa using distinct)
        (add_free_fresh p lm refs ref outside fresh)
      refine ⟨?_, lines⟩
      rw [List.append_assoc] at lists
      exact lists

theorem init_lines_fresh : FreshLists p (initLines p) (lineRefs p) ∧ (initLines p).lines = fun _ => initLine :=
  add_all_fresh p (lineRefs p) emptyLineMgmt [] (line_refs_distinct p)
    ⟨fun _ => IntrusiveList.ring_empty _ _ rfl rfl, fun _ => IntrusiveList.ring_empty _ _ rfl rfl⟩

variable (rows : RowGeometry p.spp) (medium : Medium p)

include rows medium in
theorem realized_ready (clock : Nat → Nat) (ioType : IoType) (loc : Loc) (ref : LineRef) (rest : List LineRef)
    (lines : (lineRefs p).filter (fun ref => initLoc p ref == loc) = ref :: rest) :
    ∃ start, openWritePointer p (zmsRealizeFtl p clock) ioType loc = .ok start ∧
      PointerReady p start ioType loc ⟨ref, getFirstPage p ref, rest⟩ ∧ ∀ other, usedInLine (start.lm.lines other) = 0 := by
  obtain ⟨⟨free, full⟩, init⟩ := init_lines_fresh p
  have ring := free loc
  rw [lines] at ring
  have listed : ∀ other ∈ ref :: rest, other ∈ lineRefs p := by
    rw [← lines]
    exact fun other member => List.mem_of_mem_filter member
  have distinct : (ref :: rest).Nodup := by
    rw [← lines]
    exact (line_refs_distinct p).filter _
  have placed := entered_placed p rows medium ref rest listed distinct
  have first := IntrusiveList.ring_first_entry _ _ _ ring
  refine ⟨putWp { zmsRealizeFtl p clock with lm := delFree (initLines p) loc ref } (zmsGetWp ioType loc)
    ⟨some ref, loc, (getFirstPage p ref).block, (getFirstPage p ref).pg⟩, ?_, ⟨⟨?_, ?_, ?_, ?_⟩, placed, ?_, ?_, ?_, ?_, ?_⟩, ?_⟩
  · unfold openWritePointer
    rw [if_pos (show ((zmsRealizeFtl p clock).wps (zmsGetWp ioType loc)).curline = none from rfl)]
    unfold initWritePointer getNextFreeLine
    rw [show (zmsRealizeFtl p clock).lm.links = (initLines p).links from rfl, first]
    rfl
  · simp [putWp]
  · simp [putWp]
  · simp [putWp, wpPage]
  · refine ⟨IntrusiveList.ring_del_init _ _ _ [] _ ring, [], ?_, ?_⟩
    · exact IntrusiveList.ring_del_init_frame _ _ _ _ _ _ (full loc) ring (by simp) fun node inFull inFree => by
        rw [List.map_nil, List.mem_singleton] at inFull
        rw [inFull] at inFree
        simp at inFree
    · rw [List.append_nil]
      exact distinct
  · intro _ _ _
    rfl
  · refine ⟨le_rfl, ?_⟩
    change (0 : Int) < usedPgs p.spp (getFirstPage p ref).blk
    exact_mod_cast Nat.zero_lt_of_lt placed.owned.pg
  · change 0 ≤ ((initLines p).lines _).vpc ∧ 0 ≤ ((initLines p).lines _).ipc ∧ 0 ≤ ((initLines p).lines _).rpc
    rw [init]
    exact ⟨le_rfl, le_rfl, le_rfl⟩
  · change usedInLine ((initLines p).lines _) = _
    rw [init, first_page_place p rows ref (listed ref (List.mem_cons_self ..)) placed.owned]
    rfl
  · change ((initLines p).lines _).rsvNextline = none
    rw [init]
    rfl
  · intro other
    change usedInLine ((initLines p).lines other) = 0
    rw [init]
    rfl

end Realized

theorem two_zones_fit : 2 < 2 ^ 32 := by decide

-- A zoned namespace on the flash of the sample configuration with zones of two
-- lines: 24 pages on lines of 12.
def twoLineZone : Params where
  spp := ssdInitParams sampleConfig
  zpp :=
    { nsType := .zoned, nsid := 0, nrZones := 2, zoneSize := 24 * pgsz, zoneCapacity := 24 * pgsz, pgsPerZone := 24, pgsPerChunk := 1,
      nrWb := 1, zoneWbSize := 2 * pgsz, ttLines := 8, pslcLines := 4, pgsPerLine := 12, pslcPgsPerLine := 4, ttLpns := 48,
      peerTtLpns := 0, ttPpns := 96, gcThresLinesHigh := 2, enableGcDelay := true, preRead := 0,
      sizeAligned := Nat.dvd_mul_left _ _, capacityAligned := by decide, capacityPositive := by decide, capacityFits := Nat.le_refl _,
      zonesFit := two_zones_fit, spaceFits := by decide }

theorem two_line_zone_shape : RowGeometry twoLineZone.spp ∧ Medium twoLineZone ∧ UnitSizes twoLineZone := by
  have rows := config_row_geometry sampleConfig
  refine ⟨rows, ⟨⟨rows.toGeometry, by decide⟩, by decide, rows.flash, ?_, fun blk _ _ => rows.flashpgs blk⟩, ⟨?_⟩⟩
  · intro blk _ _
    unfold usedPgs
    split <;> decide
  · intro page owned
    have sizes : ∀ lun < 2, ∀ blk < 8, pgsPerLineOf twoLineZone (getLine twoLineZone (mkPage 0 lun 0 blk 0)) =
        lineSize twoLineZone (mkPage 0 lun 0 blk 0) := by decide
    obtain ⟨⟨⟨ch, lun, pl⟩, blk⟩, pg⟩ := page
    obtain rfl : ch = 0 := Nat.lt_one_iff.mp owned.block.ch
    obtain rfl : pl = 0 := Nat.lt_one_iff.mp owned.block.pl
    exact sizes lun owned.block.lun blk owned.block.last

end ConZone
