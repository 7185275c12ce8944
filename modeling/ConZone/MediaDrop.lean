import ConZone.MediaPages

set_option autoImplicit false

namespace ConZone

open Tally

section Dropping

variable (p : Params) (loc : Loc) (regular : Regular p loc) (ftl : ZmsFtl) (lpn : Nat) (page : Page)

theorem dec_vpc_tally (lm : LineMgmt) (ref other : LineRef) :
    tally ((decVpc lm loc ref).lines other) =
      if other = ref then ((lm.lines ref).vpc - 1, (lm.lines ref).ipc, (lm.lines ref).rpc, (lm.lines ref).rsvNextline) else tally (lm.lines other) := by
  unfold decVpc
  dsimp only
  by_cases same : other = ref
  · rw [if_pos same, same, Function.update_self]
    split <;> rfl
  · rw [if_neg same, Function.update_of_ne same]
    split <;> rfl

theorem drop_tally (other : LineRef) :
    tally ((dropMapping p ftl lpn page).lm.lines other) =
      if other = getLine p page then ((ftl.lm.lines other).vpc - 1, (ftl.lm.lines other).ipc + 1, (ftl.lm.lines other).rpc,
        (ftl.lm.lines other).rsvNextline) else tally (ftl.lm.lines other) := by
  have lines : (dropMapping p ftl lpn page).lm = (markPageInvalid p ftl page).lm := (set_rmap_media p _ none page).1
  have moved : tally ((markPageInvalid p ftl page).lm.lines other) =
      tally ((decVpc (putLine ftl (getLine p page) { ftl.lm.lines (getLine p page) with ipc := (ftl.lm.lines (getLine p page)).ipc + 1 }).lm
        (getPageLocation p page) (getLine p page)).lines other) := by
    unfold markPageInvalid
    dsimp only
    split <;> rfl
  rw [lines, moved, dec_vpc_tally]
  by_cases same : other = getLine p page
  · rw [if_pos same, if_pos same, same]
    simp [putLine]
  · rw [if_neg same, if_neg same]
    simp [putLine, Function.update_of_ne same]

theorem drop_nand : (dropMapping p ftl lpn page).nand = Function.update ftl.nand page.block
    { ftl.nand page.block with status := Function.update (ftl.nand page.block).status page.pg .invalid,
                               ipc := (ftl.nand page.block).ipc + 1, vpc := (ftl.nand page.block).vpc - 1 } := by
  unfold dropMapping unmapLpn setRmapEnt markPageInvalid
  dsimp only
  split <;> rfl

theorem drop_status : pageStatus (dropMapping p ftl lpn page) = Function.update (pageStatus ftl) page .invalid := by
  have painted := put_status ftl page .invalid
    { ftl.nand page.block with status := Function.update (ftl.nand page.block).status page.pg .invalid,
                               ipc := (ftl.nand page.block).ipc + 1, vpc := (ftl.nand page.block).vpc - 1 } rfl
  rw [← painted]
  funext other
  unfold pageStatus
  rw [drop_nand]
  rfl

theorem drop_on_page (other : Nat) (there : Page) :
    OnPage p (dropMapping p ftl lpn page) other there ↔ other ≠ lpn ∧ OnPage p ftl other there := by
  have table : (dropMapping p ftl lpn page).maptbl = Function.update ftl.maptbl lpn .unmapped := by
    unfold dropMapping unmapLpn setRmapEnt
    dsimp only
    split <;> rfl
  unfold OnPage
  rw [table, bare_update]
  by_cases same : other = lpn
  · rw [if_pos same]
    refine iff_of_false ?_ fun held => held.1 same
    rintro ⟨_, entry⟩
    cases entry
  · rw [if_neg same]
    exact (and_iff_right same).symm

include regular in
theorem drop_rmap (other : Page) (owned : OwnedPage p page) (otherOwned : OwnedPage p other) (apart : other ≠ page) :
    getRmapEnt p (dropMapping p ftl lpn page) other = getRmapEnt p ftl other := by
  have kept := regular.numbering.apart (markPageInvalid p ftl page) none page other owned otherOwned apart
  exact kept

variable (prog : LineRef → Nat) (pages : PagesSound p ftl prog) (held : OnPage p ftl lpn page)

include pages held in
theorem held_alone (other : Nat) (also : OnPage p ftl other page) : other = lpn := by
  have first := (pages.named lpn page held).2
  have second := (pages.named other page also).2
  rw [first] at second
  exact (Option.some.inj second).symm

theorem held_once (there : Page) (held : OnPage p ftl lpn page) (also : OnPage p ftl lpn there) : there = page := by
  have same := also.2
  rw [held.2] at same
  exact (Ppa.mapped.inj same).1.symm

include regular pages held in
theorem drop_pages : PagesSound p (dropMapping p ftl lpn page) prog := by
  have status := drop_status p ftl lpn page
  have onPage := drop_on_page p ftl lpn page
  have owned := (pages.named lpn page held).1
  have valid := (pages.valid page owned).mpr ⟨lpn, held⟩
  refine ⟨?_, ?_, ?_, ?_⟩
  · intro other otherOwned ahead
    have free := pages.blank other otherOwned ahead
    have apart : other ≠ page := by
      rintro rfl
      rw [free] at valid
      cases valid
    rw [status, Function.update_of_ne apart]
    exact free
  · intro other otherOwned behind
    rw [status]
    by_cases same : other = page
    · rw [same, Function.update_self]
      decide
    · rw [Function.update_of_ne same]
      exact pages.used other otherOwned behind
  · intro other otherOwned
    rw [status]
    by_cases same : other = page
    · rw [same, Function.update_self]
      refine iff_of_false (by decide) ?_
      rintro ⟨holder, there⟩
      obtain ⟨apart, before⟩ := (onPage holder page).mp there
      exact apart (held_alone p ftl lpn page prog pages held holder before)
    · rw [Function.update_of_ne same, pages.valid other otherOwned]
      refine exists_congr fun holder => ?_
      rw [onPage]
      refine (and_iff_right_of_imp ?_).symm
      rintro there rfl
      exact same (held_once p ftl holder page other held there)
  · intro other there after
    obtain ⟨apart, before⟩ := (onPage other there).mp after
    obtain ⟨thereOwned, named⟩ := pages.named other there before
    refine ⟨thereOwned, ?_⟩
    rw [drop_rmap p loc regular ftl lpn page there owned thereOwned]
    · exact named
    · rintro rfl
      exact apart (held_alone p ftl lpn there prog pages held other before)

include pages held in
theorem drop_counts (counts : CountsSound p ftl) : CountsSound p (dropMapping p ftl lpn page) := by
  have owned := (pages.named lpn page held).1
  have valid := (pages.valid page owned).mpr ⟨lpn, held⟩
  have status := drop_status p ftl lpn page
  have tallies := drop_tally p ftl lpn page
  have nand := drop_nand p ftl lpn page
  have lines := line_census p ftl _ page owned .invalid status
  have blocks := block_census p ftl _ page owned .invalid status
  have vpc : ∀ ref, ((dropMapping p ftl lpn page).lm.lines ref).vpc =
      (ftl.lm.lines ref).vpc - if ref = getLine p page then 1 else 0 := by
    intro ref
    have same := congrArg Prod.fst (tallies ref)
    split at same
    · rename_i here
      rw [if_pos here]
      exact same
    · rename_i here
      rw [if_neg here, Int.sub_zero]
      exact same
  have ipc : ∀ ref, ((dropMapping p ftl lpn page).lm.lines ref).ipc =
      (ftl.lm.lines ref).ipc + if ref = getLine p page then 1 else 0 := by
    intro ref
    have same := congrArg (fun counts => counts.2.1) (tallies ref)
    split at same
    · rename_i here
      rw [if_pos here]
      exact same
    · rename_i here
      rw [if_neg here, Int.add_zero]
      exact same
  refine ⟨?_, ?_, ?_, ?_⟩
  · intro ref listed
    rw [lines, ← counts.vpc ref listed, vpc, valid]
    by_cases here : getLine p page = ref
    · simp [here]
      omega
    · simp [here, Ne.symm here]
  · intro ref listed
    rw [lines, ← counts.ipc ref listed, ipc, valid]
    by_cases here : getLine p page = ref
    · simp [here]
    · simp [here, Ne.symm here]
  · intro block blockOwned
    rw [blocks, ← counts.blkVpc block blockOwned, nand, valid]
    by_cases here : page.block = block
    · simp [here]
      omega
    · simp [here, Function.update_of_ne (Ne.symm here)]
  · intro block blockOwned
    rw [blocks, ← counts.blkIpc block blockOwned, nand, valid]
    by_cases here : page.block = block
    · simp [here]
    · simp [here, Function.update_of_ne (Ne.symm here)]

def dropHome (home : LineRef → Home) (ref : LineRef) : LineRef → Home :=
  if home ref = .full then Function.update home ref .victim else home

theorem drop_home_other (home : LineRef → Home) (ref other : LineRef) (apart : other ≠ ref) : dropHome home ref other = home other := by
  unfold dropHome
  split
  · exact Function.update_of_ne apart _ _
  · rfl

theorem drop_home_here (home : LineRef → Home) (ref : LineRef) :
    dropHome home ref ref = if home ref = .full then .victim else home ref := by
  unfold dropHome
  split
  · exact Function.update_self ..
  · rfl

theorem drop_home_iff (home : LineRef → Home) (ref other : LineRef) (value : Home) (full : value ≠ .full) (victim : value ≠ .victim) :
    dropHome home ref other = value ↔ home other = value := by
  by_cases same : other = ref
  · rw [same, drop_home_here]
    split
    · rename_i here
      rw [here]
      exact iff_of_false (Ne.symm victim) (Ne.symm full)
    · rfl
  · rw [drop_home_other home ref other same]

variable (home : LineRef → Home) (free full : List LineRef)

include regular in
-- The containers follow the invalidation, when the line's count of valid pages
-- tells whether it is in the full list.
theorem drop_housed (owned : OwnedPage p page) (housed : Housed p loc ftl.lm home free full)
    (told : (ftl.lm.lines (getLine p page)).vpc = pgsPerLineOf p (getLine p page) ↔ home (getLine p page) = .full) :
    ∃ full, Housed p loc (dropMapping p ftl lpn page).lm (dropHome home (getLine p page)) free full := by
  have location := regular.location page owned
  have lines : (dropMapping p ftl lpn page).lm = (markPageInvalid p ftl page).lm := (set_rmap_media p _ none page).1
  have counted : Housed p loc (putLine ftl (getLine p page)
      { ftl.lm.lines (getLine p page) with ipc := (ftl.lm.lines (getLine p page)).ipc + 1 }).lm home free full := by
    refine housed_lines p loc ftl.lm home free full _ (fun other => ?_) housed
    by_cases same : other = getLine p page
    · rw [same, Function.update_self]
    · rw [Function.update_of_ne same]
  have fewer := dec_vpc_housed p loc _ home free full (getLine p page) counted
  rw [lines]
  unfold markPageInvalid
  dsimp only
  rw [location]
  unfold dropHome
  by_cases here : home (getLine p page) = .full
  · rw [if_pos (told.mpr here), if_pos here]
    obtain ⟨left, right, split⟩ := List.append_of_mem ((fewer.stored.inSecond (getLine p page)).mpr here)
    rw [split] at fewer
    have removed := del_full_housed p loc regular.few _ home free (getLine p page) .out left right fewer out_outside (by decide)
    have queued := insert_victim_housed p loc regular.few _ _ free _ (getLine p page) removed
      (by rw [Function.update_self]; exact out_outside) (by rw [Function.update_self]; decide)
    rw [Function.update_idem] at queued
    exact ⟨_, queued⟩
  · rw [if_neg (fun all => here (told.mp all)), if_neg here]
    exact ⟨_, fewer⟩

variable (sound : MediaSound p loc ftl home prog fun _ => 0) (settled : (ftl.lm.lines (getLine p page)).rpc = 0)

include regular held sound settled in
theorem drop_told : (ftl.lm.lines (getLine p page)).vpc = pgsPerLineOf p (getLine p page) ↔ home (getLine p page) = .full := by
  obtain ⟨pages, counts, homes⟩ := sound
  obtain ⟨owned, _⟩ := pages.named lpn page held
  have listed := owned_listed p loc regular page owned
  have size := line_size_positive p loc regular _ listed
  have valid := (pages.valid page owned).mpr ⟨lpn, held⟩
  have behind : placeIn p page < prog (getLine p page) := by
    by_contra ahead
    rw [pages.blank page owned (by omega)] at valid
    cases valid
  have within : ∀ bound : prog (getLine p page) ≤ pgsPerLineOf p (getLine p page),
      (ftl.lm.lines (getLine p page)).vpc + (ftl.lm.lines (getLine p page)).ipc = prog (getLine p page) := by
    intro bound
    have programmed := programmed_counts p loc regular ftl prog pages _ listed bound
    rw [counts.vpc _ listed, counts.ipc _ listed]
    omega
  constructor
  · intro all
    cases there : home (getLine p page) with
    | full => rfl
    | free =>
        have none := (homes.empty _ there).1
        omega
    | victim =>
        have spent := homes.spent _ (.inr (.inl there))
        have dirty := homes.dirty _ (.inl there)
        have total := within (by omega)
        omega
    | out =>
        have spent := homes.spent _ (.inr (.inr there))
        have dirty := homes.dirty _ (.inr there)
        have total := within (by omega)
        omega
    | cur name =>
        obtain ⟨pointed, line, stands⟩ := homes.stands name _ there
        have place := owned_place p loc regular _ pointed
        rw [line] at place
        rw [settled] at stands
        have total := within (by omega)
        have invalid := counts.ipc _ listed
        omega
    | beyond =>
        obtain ⟨_, _, housed⟩ := homes.housed
        exact absurd there ((housed.bound _).mpr listed)
  · intro there
    have spent := homes.spent _ (.inl there)
    have clean := (homes.clean _ there).1
    have total := within (by omega)
    omega

include regular held sound settled in
theorem drop_homes : HomesSound p loc (dropMapping p ftl lpn page) (dropHome home (getLine p page)) prog fun _ => 0 := by
  have told := drop_told p loc regular ftl lpn page prog held home sound settled
  obtain ⟨pages, counts, homes⟩ := sound
  obtain ⟨owned, _⟩ := pages.named lpn page held
  have listed := owned_listed p loc regular page owned
  have tallies := drop_tally p ftl lpn page
  have others : ∀ ref, ref ≠ getLine p page → (tally ((dropMapping p ftl lpn page).lm.lines ref)).2 = (tally (ftl.lm.lines ref)).2 :=
    fun ref apart => congrArg Prod.snd ((tallies ref).trans (if_neg apart))
  have rpc : ∀ ref, ((dropMapping p ftl lpn page).lm.lines ref).rpc = (ftl.lm.lines ref).rpc := by
    intro ref
    have same := congrArg (fun counts => counts.2.2.1) (tallies ref)
    split at same <;> exact same
  have here := (tallies (getLine p page)).trans (if_pos rfl)
  have ipc : ((dropMapping p ftl lpn page).lm.lines (getLine p page)).ipc = (ftl.lm.lines (getLine p page)).ipc + 1 :=
    congrArg (fun counts => counts.2.1) here
  have linked : ((dropMapping p ftl lpn page).lm.lines (getLine p page)).rsvNextline = (ftl.lm.lines (getLine p page)).rsvNextline :=
    congrArg (fun counts => counts.2.2.2) here
  have wps : (dropMapping p ftl lpn page).wps = ftl.wps := (set_rmap_media p _ none page).2
  have counted := counts.ipc _ listed
  refine homes_of_parts p loc _ _ prog _ ?_ ?_ ?_
  · obtain ⟨free, full, housed⟩ := homes.housed
    obtain ⟨full, moved⟩ := drop_housed p loc regular ftl lpn page home free full owned housed told
    exact ⟨free, full, moved⟩
  · exact pointing_kept p loc ftl _ home _ prog prog _ homes wps (fun name ref => drop_home_iff home _ ref (.cur name) nofun nofun)
      fun _ ref _ => ⟨rfl, rpc ref⟩
  · refine spending_changed p loc ftl _ home _ prog prog _ homes (getLine p page) (drop_home_other home _) (fun _ _ => rfl) others ?_
    rw [drop_home_here]
    refine ⟨fun free => ?_, fun used => ?_, fun full => ?_, fun _ => ?_, fun _ => ?_, fun known => ?_⟩
    · split at free
      · cases free
      · rw [rpc]
        exact homes.empty _ free
    · rw [rpc]
      apply homes.spent
      split at used
      · rename_i full
        exact .inl full
      · exact used
    · split at full
      · cases full
      · contradiction
    · rw [ipc, counted]
      omega
    · rw [rpc, settled]
      exact ⟨Int.le_refl _, .inr rfl⟩
    · rw [linked]
      exact homes.unlinked _ known

include regular held sound settled in
theorem drop_sound : MediaSound p loc (dropMapping p ftl lpn page) (dropHome home (getLine p page)) prog fun _ => 0 :=
  ⟨drop_pages p loc regular ftl lpn page prog sound.pages held, drop_counts p ftl lpn page prog sound.pages held sound.counts,
    drop_homes p loc regular ftl lpn page prog held home sound settled⟩

end Dropping

end ConZone
