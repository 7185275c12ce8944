import ConZone.SlcReset

set_option autoImplicit false

namespace ConZone

section Reserved

variable (p : Params) (loc : Loc) (regular : Regular p loc) (ftl : ZmsFtl)
variable (home : LineRef → Home) (prog : LineRef → Nat) (lead : WpName → Nat) (sound : MediaSound p loc ftl home prog lead)

section Filling

variable (lpn : Nat) (page : Page) (map : MapType) (inside : lpn < p.zpp.ttLpns) (unmapped : ∀ there, ¬OnPage p ftl lpn there)

def fillPage (p : Params) (ftl : ZmsFtl) (lpn : Nat) (page : Page) (map : MapType) : ZmsFtl := decLineRpc p (assignPage p ftl lpn page map) page

variable (owned : OwnedPage p page) (place : placeIn p page = prog (getLine p page)) (full : home (getLine p page) = .full)
variable (reserved : 0 < (ftl.lm.lines (getLine p page)).rpc)

theorem fill_tally (markable : Markable p ftl page) (inside : lpn < p.zpp.ttLpns) (ref : LineRef) :
    tally ((fillPage p ftl lpn page map).lm.lines ref) =
      if ref = getLine p page then ((ftl.lm.lines ref).vpc + 1, (ftl.lm.lines ref).ipc, (ftl.lm.lines ref).rpc - 1,
        (ftl.lm.lines ref).rsvNextline) else tally (ftl.lm.lines ref) := by
  have lm := (assign_lm p ftl lpn page map inside markable).1
  unfold fillPage decLineRpc putLine
  dsimp only
  rw [lm]
  unfold countValid
  dsimp only
  by_cases same : ref = getLine p page
  · rw [same, Function.update_self, Function.update_self, if_pos rfl]
    rfl
  · rw [Function.update_of_ne same, Function.update_of_ne same, if_neg same]

include regular sound inside unmapped owned place full reserved in
theorem fill_sound : MediaSound p loc (fillPage p ftl lpn page map) home
    (Function.update prog (getLine p page) (prog (getLine p page) + 1)) lead := by
  have free := sound.pages.blank page owned (Nat.le_of_eq place.symm)
  have markable := blank_markable p loc regular ftl sound.counts page owned free
  have pages := assign_pages p loc regular ftl prog lpn page map inside markable sound.pages place unmapped
  have counts := assign_counts p ftl lpn page map inside markable sound.counts
  obtain ⟨lm, wps⟩ := assign_lm p ftl lpn page map inside markable
  have tallies := fill_tally p ftl lpn page map markable inside
  have homes := sound.homes
  have others : ∀ ref, ref ≠ getLine p page → tally ((fillPage p ftl lpn page map).lm.lines ref) = tally (ftl.lm.lines ref) := fun ref apart =>
    (tallies ref).trans (if_neg apart)
  have here := (tallies (getLine p page)).trans (if_pos rfl)
  have rpc : ((fillPage p ftl lpn page map).lm.lines (getLine p page)).rpc = (ftl.lm.lines (getLine p page)).rpc - 1 :=
    congrArg (fun counts => counts.2.2.1) here
  have ipc : ((fillPage p ftl lpn page map).lm.lines (getLine p page)).ipc = (ftl.lm.lines (getLine p page)).ipc :=
    congrArg (fun counts => counts.2.1) here
  have linked : ((fillPage p ftl lpn page map).lm.lines (getLine p page)).rsvNextline = (ftl.lm.lines (getLine p page)).rsvNextline :=
    congrArg (fun counts => counts.2.2.2) here
  have keptWps : (fillPage p ftl lpn page map).wps = ftl.wps := wps
  have spent := homes.spent _ (.inl full)
  have clean := (homes.clean _ full).1
  refine ⟨?_, ?_, homes_of_parts p loc _ home _ lead ?_ ?_ ?_⟩
  · exact pages_congr p (assignPage p ftl lpn page map) (fillPage p ftl lpn page map) rfl (fun _ _ => Iff.rfl) rfl _ pages
  · refine ⟨?_, ?_, counts.blkVpc, counts.blkIpc⟩
    · intro ref known
      rw [show ((fillPage p ftl lpn page map).lm.lines ref).vpc = ((assignPage p ftl lpn page map).lm.lines ref).vpc by
        unfold fillPage decLineRpc putLine
        dsimp only
        by_cases same : ref = getLine p page
        · rw [same, Function.update_self]
        · rw [Function.update_of_ne same]]
      exact counts.vpc ref known
    · intro ref known
      rw [show ((fillPage p ftl lpn page map).lm.lines ref).ipc = ((assignPage p ftl lpn page map).lm.lines ref).ipc by
        unfold fillPage decLineRpc putLine
        dsimp only
        by_cases same : ref = getLine p page
        · rw [same, Function.update_self]
        · rw [Function.update_of_ne same]]
      exact counts.ipc ref known
  · obtain ⟨free, rest, housed⟩ := homes.housed
    refine ⟨free, rest, ?_⟩
    have assigned : Housed p loc (assignPage p ftl lpn page map).lm home free rest := by
      rw [lm]
      refine housed_lines p loc ftl.lm home free rest _ (fun ref => ?_) housed
      by_cases same : ref = getLine p page
      · rw [same, Function.update_self]
      · rw [Function.update_of_ne same]
    refine housed_lines p loc (assignPage p ftl lpn page map).lm home free rest _ (fun ref => ?_) assigned
    by_cases same : ref = getLine p page
    · rw [same, Function.update_self]
    · rw [Function.update_of_ne same]
  · refine pointing_kept p loc ftl _ home home prog _ lead homes keptWps (fun _ _ => Iff.rfl) fun name ref there => ?_
    have apart : ref ≠ getLine p page := by
      rintro rfl
      rw [full] at there
      cases there
    exact ⟨Function.update_of_ne apart _ _, congrArg (fun counts => counts.2.2.1) (others ref apart)⟩
  · refine spending_changed p loc ftl _ home home prog _ lead homes (getLine p page) (fun _ _ => rfl) (fun ref apart => Function.update_of_ne apart _ _)
      (fun ref apart => congrArg Prod.snd (others ref apart)) ?_
    rw [Function.update_self, full]
    refine ⟨nofun, fun _ => ?_, fun _ => ?_, ?_, fun _ => ?_, fun known => ?_⟩
    · rw [rpc]
      push_cast
      omega
    · rw [ipc]
      exact ⟨clean, Nat.succ_pos _⟩
    · rintro (victim | out)
      · cases victim
      · cases out
    · rw [ipc, rpc]
      exact ⟨by omega, .inl clean⟩
    · rw [linked]
      exact homes.unlinked _ known

end Filling

section Ahead

variable (name : WpName) (cur : LineRef) (here : home cur = .cur name) (clean : (ftl.lm.lines cur).ipc = 0)
variable (page : Page) (step : Nat)

def passPages (ftl : ZmsFtl) (name : WpName) (cur : LineRef) (step : Nat) (page : Page) : ZmsFtl :=
  updateWritePointer (putLine ftl cur { ftl.lm.lines cur with rpc := (ftl.lm.lines cur).rpc + step }) name page

include sound here clean in
theorem pass_sound (listed : cur ∈ lineRefs p) (owned : OwnedPage p page) (line : getLine p page = cur)
    (place : placeIn p page = placeIn p (wpPage (ftl.wps name)) + step) :
    MediaSound p loc (passPages ftl name cur step page) home prog lead := by
  obtain ⟨pages, counts, homes⟩ := sound
  have lines : ∀ ref, (passPages ftl name cur step page).lm.lines ref =
      if ref = cur then { ftl.lm.lines cur with rpc := (ftl.lm.lines cur).rpc + step } else ftl.lm.lines ref := by
    intro ref
    by_cases same : ref = cur
    · rw [if_pos same, same]
      exact Function.update_self ..
    · rw [if_neg same]
      exact Function.update_of_ne same _ _
  have others : ∀ ref, ref ≠ cur → (passPages ftl name cur step page).lm.lines ref = ftl.lm.lines ref := fun ref apart =>
    (lines ref).trans (if_neg apart)
  have passed : (passPages ftl name cur step page).lm.lines cur = { ftl.lm.lines cur with rpc := (ftl.lm.lines cur).rpc + step } :=
    (lines cur).trans (if_pos rfl)
  have kept : ∀ ref, ((passPages ftl name cur step page).lm.lines ref).vpc = (ftl.lm.lines ref).vpc ∧
      ((passPages ftl name cur step page).lm.lines ref).ipc = (ftl.lm.lines ref).ipc ∧
      ((passPages ftl name cur step page).lm.lines ref).pos = (ftl.lm.lines ref).pos := by
    intro ref
    rw [lines]
    by_cases same : ref = cur
    · rw [if_pos same, same]
      exact ⟨rfl, rfl, rfl⟩
    · rw [if_neg same]
      exact ⟨rfl, rfl, rfl⟩
  have pointer : ∀ other, (passPages ftl name cur step page).wps other =
      if other = name then { ftl.wps name with block := page.block, pg := page.pg } else ftl.wps other := fun other =>
    update_pointer (putLine ftl cur { ftl.lm.lines cur with rpc := (ftl.lm.lines cur).rpc + step }) name other page
  have moved := pointer name
  rw [if_pos rfl] at moved
  refine ⟨pages_congr p ftl (passPages ftl name cur step page) rfl (fun _ _ => Iff.rfl) rfl prog pages, ?_,
    homes_of_parts p loc _ home prog lead ?_ ?_ ?_⟩
  · refine ⟨?_, ?_, counts.blkVpc, counts.blkIpc⟩
    · intro ref known
      rw [(kept ref).1]
      exact counts.vpc ref known
    · intro ref known
      rw [(kept ref).2.1]
      exact counts.ipc ref known
  · obtain ⟨free, full, housed⟩ := homes.housed
    exact ⟨free, full, housed_lines p loc ftl.lm home free full _ (fun ref => (kept ref).2.2) housed⟩
  · refine pointing_moved p loc ftl _ home prog prog lead lead homes name cur here (fun other apart => ⟨by rw [pointer, if_neg apart], rfl⟩)
      (by rw [moved]) (by rw [moved]) (fun ref apart => ⟨rfl, by rw [others ref apart]⟩) ?_ ?_ ?_
    · rw [moved]
      exact owned
    · rw [moved]
      exact line
    · obtain ⟨_, _, stands⟩ := homes.stands name cur here
      rw [moved, passed]
      change (prog cur : Int) + _ = placeIn p page + lead name
      rw [place]
      push_cast
      omega
  · refine spending_changed p loc ftl _ home home prog prog lead homes cur (fun _ _ => rfl) (fun _ _ => rfl)
      (fun ref apart => by rw [others ref apart]) ?_
    have positive := (homes.reserved cur listed).1
    rw [here, passed]
    refine spending_current p name cur _ _ (fun _ => ⟨?_, .inl clean⟩) (homes.unlinked cur)
    dsimp only
    omega

end Ahead

end Reserved

end ConZone
