import ConZone.Upkeep
import ConZone.PageIndex

set_option autoImplicit false

namespace ConZone

def fullFlags (ftl : ZmsFtl) : Bool × Bool := (ftl.deviceFull, ftl.pslcFull)

theorem any_full_flags (before after : ZmsFtl) (same : fullFlags after = fullFlags before) : anyFull after = anyFull before := by
  obtain ⟨device, pslc⟩ := Prod.mk.inj same
  unfold anyFull
  rw [device, pslc]

-- No line to go on with: the next page asked for is a failed assertion.
structure Stuck (ftl : ZmsFtl) (ioType : IoType) (loc : Loc) : Prop where
  closed : (ftl.wps (zmsGetWp ioType loc)).curline = none
  noLine : IntrusiveList.listFirstEntryOrNull ftl.lm.links (.free loc) = none

theorem stuck_no_page (p : Params) (ftl : ZmsFtl) (ioType : IoType) (loc : Loc) (stuck : Stuck ftl ioType loc) :
    getNewPage p ftl ioType loc = .error .bugOn := by
  have line : getNextFreeLine ftl loc = .ok (none, setFull ftl loc) := by
    unfold getNextFreeLine
    rw [stuck.noLine]
  unfold getNewPage openWritePointer
  rw [if_pos stuck.closed]
  unfold initWritePointer
  rw [line]
  rfl

theorem mark_page_valid_flags (p : Params) (ftl : ZmsFtl) (page : Page) : fullFlags (markPageValid p ftl page) = fullFlags ftl := by
  unfold markPageValid
  dsimp only
  split
  · rfl
  · split
    · rfl
    · split <;> rfl

theorem set_maptbl_flags (p : Params) (ftl : ZmsFtl) (lpn : Nat) (ppa : Ppa) :
    fullFlags (setMaptblEnt p ftl lpn ppa) = fullFlags ftl := by
  unfold setMaptblEnt
  split <;> rfl

theorem set_rmap_flags (p : Params) (ftl : ZmsFtl) (lpn : Option Nat) (page : Page) :
    fullFlags (setRmapEnt p ftl lpn page) = fullFlags ftl := by
  unfold setRmapEnt
  split <;> rfl

theorem quiet_flags (before after : ZmsFtl) (quiet : Quiet before after) : fullFlags after = fullFlags before := by
  obtain ⟨device, pslc⟩ := quiet_full before after quiet
  unfold fullFlags
  rw [device, pslc]

theorem note_filled_line_flags (p : Params) (ftl : ZmsFtl) (ref : LineRef) (loc : Loc) (ioType : IoType) :
    fullFlags (noteFilledLine p ftl ref loc ioType) = fullFlags ftl := by
  unfold noteFilledLine
  dsimp only
  split <;> rfl

theorem take_first_page_flags (p : Params) (ftl : ZmsFtl) (slpn : Nat) (page : Page) :
    fullFlags (takeFirstPage p ftl slpn page) = fullFlags ftl := by
  unfold takeFirstPage
  dsimp only
  rw [quiet_flags _ _ (set_map_gran_quiet p _ .pageMap slpn), set_rmap_flags, mark_page_valid_flags, set_maptbl_flags]

section InRange

variable (p : Params) (medium : Medium p) (inRange : PagesInRange p)

include inRange in
theorem get_current_page_in_range (ftl : ZmsFtl) (name : WpName) (bounded : Bounded p ftl)
    (opened : (ftl.wps name).curline ≠ none) : getCurrentPage p ftl name = (wpPage (ftl.wps name), ftl) := by
  have inside := inRange _ (bounded.page name opened)
  unfold getCurrentPage
  exact if_neg (Nat.not_le_of_lt inside)

include medium inRange in
theorem get_new_page_flags (ftl next : ZmsFtl) (ioType : IoType) (loc : Loc) (page : Page) (bounded : Bounded p ftl)
    (ran : getNewPage p ftl ioType loc = .ok (page, next)) : fullFlags next = fullFlags ftl := by
  unfold getNewPage at ran
  obtain ⟨middle, ready, rest⟩ := bind_ok _ _ _ ran
  obtain ⟨opened, pointed⟩ := open_write_pointer_bounded p medium ftl middle ioType loc bounded ready
  rw [get_current_page_in_range p inRange middle _ opened pointed] at rest
  rw [← (Prod.mk.inj (pure_ok _ _ rest)).2]
  unfold openWritePointer at ready
  split at ready
  · unfold initWritePointer at ready
    obtain ⟨⟨line, popped⟩, taken, ready⟩ := bind_ok _ _ _ ready
    dsimp only at ready
    cases line with
    | none => cases ready
    | some line =>
        rw [← pure_ok _ _ ready]
        unfold getNextFreeLine at taken
        split at taken
        · cases taken
        · rw [← (Prod.mk.inj (Except.ok.inj taken)).2]
          rfl
        · cases taken
  · rw [← Except.ok.inj ready]

theorem get_new_wp_flags (ftl next : ZmsFtl) (ioType : IoType) (loc : Loc) (bounded : Bounded p ftl)
    (ran : getNewWp p ftl (zmsGetWp ioType loc) = .ok next) :
    (fullFlags next = fullFlags ftl ∧ (next.wps (zmsGetWp ioType loc)).curline ≠ none) ∨ Stuck next ioType loc := by
  unfold getNewWp at ran
  split at ran
  · cases ran
  · rename_i cur current
    obtain ⟨⟨line, middle⟩, taken, rest⟩ := bind_ok _ _ _ ran
    have opened : (ftl.wps (zmsGetWp ioType loc)).curline ≠ none := by
      rw [current]
      exact fun absent => nomatch absent
    have place := bounded.place _ opened
    rw [zms_get_wp_loc] at place
    rw [place] at taken
    unfold getNextFreeLine at taken
    dsimp only at rest
    split at taken
    · rename_i noLine
      obtain ⟨gone, after⟩ := Prod.mk.inj (Except.ok.inj taken)
      rw [← gone] at rest
      rw [← pure_ok _ _ rest, ← after]
      refine .inr ⟨?_, ?_⟩
      · simp [putWp]
      · have links : ∀ before : ZmsFtl, (setFull before loc).lm = before.lm := by
          intro before
          cases loc <;> rfl
        change IntrusiveList.listFirstEntryOrNull (setFull _ loc).lm.links (.free loc) = none
        rw [links]
        exact noLine
    · obtain ⟨found, after⟩ := Prod.mk.inj (Except.ok.inj taken)
      rw [← found] at rest
      rw [← pure_ok _ _ rest, ← after]
      left
      unfold bumpZoneWrites
      constructor
      · split <;> rfl
      · split <;> simp [updateWritePointer, putWp]
    · cases taken

include medium inRange in
theorem cross_line_flags (ioType : IoType) (loc : Loc) (r next : Reservation) (found : Bool) (bounded : BoundedReservation p r)
    (ran : crossLine p ioType loc r = .ok (next, found)) :
    if found then fullFlags next.ftl = fullFlags r.ftl else Stuck next.ftl ioType loc := by
  unfold crossLine at ran
  obtain ⟨middle, moved, rest⟩ := bind_ok _ _ _ ran
  have left := get_new_wp_bounded p medium r.ftl middle _ bounded.ftl moved
  have flags := get_new_wp_flags p r.ftl middle ioType loc bounded.ftl moved
  dsimp only at rest
  split at rest
  · rename_i closed
    obtain ⟨same, reached⟩ := Prod.mk.inj (pure_ok _ _ rest)
    rw [← same, ← reached]
    rcases flags with ⟨_, opened⟩ | stuck
    · exact absurd closed opened
    · exact stuck
  · rename_i line current
    obtain ⟨⟨page, last⟩, taken, rest⟩ := bind_ok _ _ _ rest
    obtain ⟨same, reached⟩ := Prod.mk.inj (pure_ok _ _ rest)
    rw [← same, ← reached]
    have linked : Bounded p (setRsvNextline middle r.prev r.current) := by
      refine put_line_bounded p middle _ _ left ?_
      intro other same
      rw [← Option.some.inj same]
      exact bounded.current
    have after := get_new_page_flags p medium inRange _ last ioType loc page linked taken
    rcases flags with ⟨kept, _⟩ | stuck
    · exact after.trans kept
    · rw [stuck.closed] at current
      cases current

include medium inRange in
theorem reserve_in_line_flags (ioType : IoType) (loc : Loc) (r next : Reservation) (free : Nat) (found : Bool)
    (bounded : BoundedReservation p r) (ran : reserveInLine p ioType loc r free = .ok (next, found)) :
    if found then fullFlags next.ftl = fullFlags r.ftl else Stuck next.ftl ioType loc := by
  unfold reserveInLine at ran
  dsimp only at ran
  split at ran
  · obtain ⟨same, reached⟩ := Prod.mk.inj (pure_ok _ _ ran)
    rw [← same, ← reached]
    rfl
  · have line := put_line_bounded p r.ftl r.current { r.ftl.lm.lines r.current with
      rpc := (r.ftl.lm.lines r.current).rpc + (min r.remaining free : Nat) } bounded.ftl (bounded.ftl.lines.nexts r.current)
    have counted : BoundedReservation p { r with
        ftl := putLine r.ftl r.current { r.ftl.lm.lines r.current with
          rpc := (r.ftl.lm.lines r.current).rpc + (min r.remaining free : Nat) },
        remaining := r.remaining - min r.remaining free } :=
      ⟨line, bounded.page, bounded.current, bounded.prev⟩
    have crossed := cross_line_flags p medium inRange ioType loc _ next found counted ran
    exact crossed

include medium inRange in
theorem reserve_step_flags (ioType : IoType) (loc : Loc) (r next : Reservation) (found : Bool) (bounded : BoundedReservation p r)
    (ran : reserveStep p ioType loc r = .ok (next, found)) :
    if found then fullFlags next.ftl = fullFlags r.ftl else Stuck next.ftl ioType loc := by
  unfold reserveStep at ran
  dsimp only at ran
  split at ran
  · obtain ⟨⟨middle, reached⟩, crossed, rest⟩ := bind_ok _ _ _ ran
    have across := cross_line_bounded p medium ioType loc r middle reached bounded crossed
    have flags := cross_line_flags p medium inRange ioType loc r middle reached bounded crossed
    dsimp only at rest
    cases reached with
    | true =>
        have last := reserve_in_line_flags p medium inRange ioType loc middle next _ found across rest
        cases found with
        | true => exact Eq.trans last flags
        | false => exact last
    | false =>
        obtain ⟨same, reached⟩ := Prod.mk.inj (pure_ok _ _ rest)
        rw [← same, ← reached]
        exact flags
  · exact reserve_in_line_flags p medium inRange ioType loc r next _ found bounded ran

include medium inRange in
theorem reserve_loop_flags (ioType : IoType) (loc : Loc) (fuel : Nat) (r : Reservation) (next : ZmsFtl)
    (bounded : BoundedReservation p r) (ran : reserveLoop p ioType loc fuel r = .ok next) :
    fullFlags next = fullFlags r.ftl ∨ Stuck next ioType loc := by
  induction fuel generalizing r with
  | zero =>
      unfold reserveLoop at ran
      split at ran
      · rw [← Except.ok.inj ran]
        exact .inl rfl
      · cases ran
  | succ fuel ih =>
      unfold reserveLoop at ran
      split at ran
      · rw [← Except.ok.inj ran]
        exact .inl rfl
      · obtain ⟨⟨middle, found⟩, stepped, rest⟩ := bind_ok _ _ _ ran
        have after := reserve_step_bounded p medium ioType loc r middle found bounded stepped
        have flags := reserve_step_flags p medium inRange ioType loc r middle found bounded stepped
        cases found with
        | true =>
            rcases ih middle after rest with same | stuck
            · exact .inl (same.trans flags)
            · exact .inr stuck
        | false =>
            rw [← pure_ok _ _ rest]
            exact .inr flags

include inRange in
theorem advance_write_pointer_flags (ftl next : ZmsFtl) (ioType : IoType) (loc : Loc) (bounded : Bounded p ftl)
    (ran : advanceWritePointer p ftl ioType loc = .ok next) :
    fullFlags next = fullFlags ftl ∨ Stuck next ioType loc := by
  unfold advanceWritePointer at ran
  dsimp only at ran
  split at ran
  · rw [← Except.ok.inj ran]
    exact .inl rfl
  · rename_i cur current
    have opened : (ftl.wps (zmsGetWp ioType loc)).curline ≠ none := by
      rw [current]
      exact fun absent => nomatch absent
    rw [get_current_page_in_range p inRange ftl _ bounded opened] at ran
    dsimp only at ran
    split at ran
    · rw [← Except.ok.inj ran]
      exact .inl rfl
    · rcases get_new_wp_flags p ftl next ioType loc bounded ran with ⟨same, _⟩ | stuck
      · exact .inl same
      · exact .inr stuck

theorem advance_stuck (ftl next : ZmsFtl) (ioType : IoType) (loc : Loc) (stuck : Stuck ftl ioType loc)
    (ran : advanceWritePointer p ftl ioType loc = .ok next) : Stuck next ioType loc := by
  unfold advanceWritePointer at ran
  dsimp only at ran
  rw [stuck.closed] at ran
  rw [← Except.ok.inj ran]
  exact stuck

include medium inRange in
theorem reserve_mapping_flags (ftl next : ZmsFtl) (lpn : Nat) (loc : Loc) (ioType : IoType) (bounded : Bounded p ftl)
    (ran : reserveMapping p ftl lpn loc ioType = .ok next) : fullFlags next = fullFlags ftl := by
  obtain ⟨reserved, page, opened, looped, advanced, last, entries, taken, reserving, advancing, checked⟩ :=
    reserve_mapping_runs p ftl next lpn loc ioType ran
  have unit := reserve_unit_bounded p ftl reserved _ _ bounded entries
  have unitFlags : fullFlags reserved = fullFlags ftl := by
    unfold reserveUnit at entries
    split at entries
    · rw [← Except.ok.inj entries]
      rfl
    · cases entries
  obtain ⟨after, owned, _, _⟩ := get_new_page_bounded p medium reserved opened ioType loc page unit taken
  have openedFlags := get_new_page_flags p medium inRange reserved opened ioType loc page unit taken
  have known := get_line_known p medium page owned
  have first := note_filled_line_bounded p _ (getLine p page) loc ioType
    (take_first_page_bounded p opened (unitStart p lpn loc) page after owned)
  have firstFlags : fullFlags (firstPageTaken p opened lpn loc ioType page) = fullFlags ftl := by
    unfold firstPageTaken
    rw [note_filled_line_flags, take_first_page_flags, openedFlags, unitFlags]
  have loop := reserve_loop_bounded p medium ioType loc _ _ looped ⟨first, owned, known, known⟩ reserving
  have moved := advance_write_pointer_bounded p medium looped advanced ioType loc loop advancing
  have final := get_new_page_flags p medium inRange advanced next ioType loc last moved checked
  have never : ¬Stuck advanced ioType loc := by
    intro stuck
    rw [stuck_no_page p advanced ioType loc stuck] at checked
    cases checked
  rcases reserve_loop_flags p medium inRange ioType loc _ _ looped ⟨first, owned, known, known⟩ reserving with loopFlags | stuck
  · rcases advance_write_pointer_flags p inRange looped advanced ioType loc loop advancing with moveFlags | stuck
    · exact final.trans (moveFlags.trans (loopFlags.trans firstFlags))
    · exact absurd stuck never
  · exact absurd (advance_stuck p looped advanced ioType loc stuck advancing) never

theorem update_mapping_flags (ftl next : ZmsFtl) (lpn : Nat) (loc : Loc) (ioType : IoType)
    (ran : updateMappingIfReserved p ftl lpn loc ioType = some next) : fullFlags next = fullFlags ftl := by
  unfold updateMappingIfReserved at ran
  split at ran
  · split at ran
    · cases ran
    · split at ran
      · rename_i page map visited
        rw [← Option.some.inj ran]
        rw [quiet_flags _ _ (refine_map_gran_quiet p lpn loc mapType _), note_filled_line_flags]
        change fullFlags (setRmapEnt p _ _ _) = fullFlags ftl
        rw [set_rmap_flags, mark_page_valid_flags, set_maptbl_flags]
      · cases ran
  · cases ran

end InRange

theorem erase_line_flags (p : Params) (ftl : ZmsFtl) (ref : LineRef) (ioType : IoType) :
    fullFlags (eraseLine p ftl ref ioType) = fullFlags ftl := by
  have blocks : ∀ (blocks : List Block) (before : ZmsFtl), fullFlags (blocks.foldl (eraseBlock p ioType) before) = fullFlags before := by
    intro blocks
    induction blocks with
    | nil => exact fun _ => rfl
    | cons block rest ih =>
        intro before
        rw [List.foldl_cons, ih]
        unfold eraseBlock
        dsimp only
        split <;> rfl
  unfold eraseLine
  rw [← blocks (erasedBlocks p ref) ftl]
  generalize (erasedBlocks p ref).foldl (eraseBlock p ioType) ftl = erased
  unfold markLineFree
  dsimp only
  generalize clearLine _ ref = cleared
  have placed : fullFlags (if !isActiveLine erased ref then { erased with lm := addFree cleared (getLineLocation p ref) ref }
      else resetWp { erased with lm := cleared } ref) = fullFlags erased := by
    split
    · rfl
    · unfold resetWp
      split <;> rfl
  generalize (if !isActiveLine erased ref then _ else _ : ZmsFtl) = moved at placed ⊢
  split <;> exact placed

theorem select_victim_flags (p : Params) (ftl next : ZmsFtl) (force : Bool) (loc : Loc) (victim : LineRef)
    (selected : selectVictimLine p ftl force loc = some (victim, next)) : fullFlags next = fullFlags ftl := by
  unfold selectVictimLine at selected
  split at selected
  · cases selected
  · split at selected
    · cases selected
    · rw [← (Prod.mk.inj (Option.some.inj selected)).2]
      rfl

structure Roomy (p : Params) (ftl : ZmsFtl) : Prop where
  bounded : Bounded p ftl
  clear : anyFull ftl = false

theorem roomy_rules (p : Params) (medium : Medium p) (inRange : PagesInRange p) : MediumRules p (Roomy p) where
  bounded := fun _ roomy => roomy.bounded
  media := by
    intro before after media roomy
    refine ⟨media_bounded p before after media roomy.bounded, ?_⟩
    rw [any_full_flags before after (Prod.ext (congrArg MediaSide.deviceFull media) (congrArg MediaSide.pslcFull media))]
    exact roomy.clear
  maps := by
    intro ftl next lpn loc ioType roomy ran
    refine ⟨update_or_reserve_mapping_bounded p medium ftl next lpn loc ioType roomy.bounded ran, ?_⟩
    have same : fullFlags next = fullFlags ftl := by
      unfold updateOrReserveMapping at ran
      split at ran
      · rename_i updated ran'
        rw [← Except.ok.inj ran]
        exact update_mapping_flags p ftl updated lpn loc ioType ran'
      · split at ran
        · rw [← Except.ok.inj ran]
        · exact reserve_mapping_flags p medium inRange ftl next lpn loc ioType roomy.bounded ran
    rw [any_full_flags ftl next same]
    exact roomy.clear
  drops := by
    intro ftl lpn page map roomy mapped
    refine ⟨(bounded_rules p medium).drops ftl lpn page map roomy.bounded mapped, ?_⟩
    have same : fullFlags (dropMapping p ftl lpn page) = fullFlags ftl := set_rmap_flags p (markPageInvalid p ftl page) none page
    rw [any_full_flags ftl _ same]
    exact roomy.clear
  erases := by
    intro ftl ref ioType roomy known
    refine ⟨erase_line_bounded p medium ftl ref ioType roomy.bounded known, ?_⟩
    rw [any_full_flags ftl _ (erase_line_flags p ftl ref ioType)]
    exact roomy.clear
  selects := by
    intro ftl next force loc victim roomy selected
    refine ⟨(select_victim_bounded p ftl next force loc victim roomy.bounded selected).1, ?_⟩
    rw [any_full_flags ftl next (select_victim_flags p ftl next force loc victim selected)]
    exact roomy.clear

theorem reachable_roomy (p : Params) (medium : Medium p) (inRange : PagesInRange p) (allowed : ZmsFtl → Event → Prop)
    (ftl : ZmsFtl) (reached : Reachable p allowed ftl) : Roomy p ftl :=
  reachable_kept p medium (Roomy p) (roomy_rules p medium inRange) allowed
    (fun clock => ⟨realize_bounded p medium clock, rfl⟩) ftl reached

end ConZone
