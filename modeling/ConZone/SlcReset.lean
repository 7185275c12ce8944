import ConZone.SlcCollect

set_option autoImplicit false

namespace ConZone

section Slc

variable (p : Params) (regular : Regular p .pslc)

include regular in
theorem invalid_line_freeable (ftl : ZmsFtl) (ref : LineRef) (home : LineRef → Home) (prog : LineRef → Nat) (sound : SlcSound p ftl home prog)
    (none : ∀ ref, home ref ≠ .out) (listed : ref ∈ lineRefs p) (invalid : invalidLine p ftl ref = true) : Freeable ftl home ref .userIo := by
  have size := line_size_positive p .pslc regular ref listed
  have settled := sound.settled ref listed
  have all : (ftl.lm.lines ref).ipc + (ftl.lm.lines ref).rpc = pgsPerLineOf p ref := by simpa [invalidLine] using invalid
  obtain ⟨pages, counts, homes⟩ := sound.media
  have total : ∀ bound : prog ref ≤ pgsPerLineOf p ref, (ftl.lm.lines ref).vpc + (ftl.lm.lines ref).ipc = prog ref := by
    intro bound
    have programmed := programmed_counts p .pslc regular ftl prog pages ref listed bound
    rw [counts.vpc ref listed, counts.ipc ref listed]
    omega
  have valid := counts.vpc ref listed
  cases there : home ref with
  | free =>
      have blank := (homes.empty ref there).1
      have counted := total (by omega)
      omega
  | full =>
      have clean := (homes.clean ref there).1
      omega
  | victim =>
      have spent := homes.spent ref (.inr (.inl there))
      have counted := total (by omega)
      exact ⟨.inr ⟨there, by decide⟩, by omega⟩
  | cur name =>
      obtain ⟨pointed, line, stands⟩ := homes.stands name ref there
      have place := owned_place p .pslc regular _ pointed
      rw [line] at place
      have counted := total (by omega)
      omega
  | out => exact absurd there (none ref)
  | beyond =>
      obtain ⟨_, _, housed⟩ := homes.housed
      exact absurd there ((housed.bound ref).mpr listed)

include regular in
theorem slc_erase_linked_lines (fuel : Nat) (ftl next : ZmsFtl) (ref : LineRef) (listed : ref ∈ lineRefs p) (resting : SlcResting p ftl)
    (ran : eraseLinkedLines p fuel ftl (some ref) = .ok next) : SlcResting p next := by
  obtain ⟨home, prog, sound, none⟩ := resting
  cases fuel with
  | zero => exact nomatch ran
  | succ fuel =>
      unfold eraseLinkedLines at ran
      dsimp only at ran
      rw [sound.media.homes.unlinked ref listed] at ran
      have stopped : (if invalidLine p ftl ref = true then eraseLine p ftl ref .userIo else ftl) = next := by
        cases fuel with
        | zero => exact Except.ok.inj ran
        | succ fuel => exact Except.ok.inj ran
      rw [← stopped]
      split
      · rename_i invalid
        have freeable := invalid_line_freeable p regular ftl ref home prog sound none listed invalid
        refine ⟨_, _, slc_erase_sound p regular ftl ref .userIo home prog sound freeable, fun other => ?_⟩
        by_cases same : other = ref
        · rw [same, Function.update_self]
          decide
        · rw [Function.update_of_ne same]
          exact none other
      · exact ⟨home, prog, sound, none⟩

include regular in
theorem slc_reset_page (scan next : ResetScan) (lpn : Nat) (page : Page) (map : MapType) (resting : SlcResting p scan.ftl)
    (first : ∀ ref, scan.firstLine = some ref → ref ∈ lineRefs p) (mapped : getMaptblEnt p scan.ftl lpn = .mapped page map)
    (ran : resetPage p scan lpn page = .ok next) :
    SlcResting p next.ftl ∧ ∀ ref, next.firstLine = some ref → ref ∈ lineRefs p := by
  obtain ⟨home, prog, sound, none⟩ := resting
  have held := mapped_on_page p scan.ftl lpn page map mapped
  have line := owned_listed p .pslc regular page (sound.media.pages.named lpn page held).1
  have dropped : SlcResting p (dropMapping p scan.ftl lpn page) :=
    ⟨_, prog, slc_drop_sound p regular scan.ftl lpn page map home prog sound mapped,
      fun ref here => none ref ((drop_same_out home _ ref).mp here)⟩
  have known : scan.firstLine.getD (getLine p page) ∈ lineRefs p := by
    cases kept : scan.firstLine with
    | none => exact line
    | some ref => exact first ref kept
  unfold resetPage at ran
  dsimp only at ran
  split at ran
  · obtain ⟨erased, erasing, rest⟩ := bind_ok _ _ _ ran
    rw [← pure_ok _ _ rest]
    exact ⟨slc_erase_linked_lines p regular _ _ erased _ known dropped erasing, nofun⟩
  · rw [← Except.ok.inj ran]
    refine ⟨dropped, fun ref same => ?_⟩
    rw [← Option.some.inj same]
    exact known

include regular in
theorem slc_reset_pages (lpns : List Nat) (scan next : ResetScan) (resting : SlcResting p scan.ftl)
    (first : ∀ ref, scan.firstLine = some ref → ref ∈ lineRefs p) (ran : resetPages p lpns scan = .ok next) :
    SlcResting p next.ftl ∧ ∀ ref, next.firstLine = some ref → ref ∈ lineRefs p := by
  induction lpns generalizing scan with
  | nil =>
      rw [← Except.ok.inj ran]
      exact ⟨resting, first⟩
  | cons lpn rest ih =>
      unfold resetPages at ran
      split at ran
      · rename_i page map mapped
        obtain ⟨middle, resetting, rest⟩ := bind_ok _ _ _ ran
        obtain ⟨after, known⟩ := slc_reset_page p regular scan middle lpn page map resting first mapped resetting
        exact ih middle after known rest
      · rw [← Except.ok.inj ran]
        exact ⟨resting, first⟩

include regular in
theorem slc_erase_rest (scan : ResetScan) (next : ZmsFtl) (resting : SlcResting p scan.ftl)
    (first : ∀ ref, scan.firstLine = some ref → ref ∈ lineRefs p) (ran : eraseRest p scan = .ok next) : SlcResting p next := by
  unfold eraseRest at ran
  split at ran
  · rename_i ref kept
    split at ran
    · exact slc_erase_linked_lines p regular _ scan.ftl next ref (first ref kept) resting ran
    · rw [← Except.ok.inj ran]
      exact resting
  · rw [← Except.ok.inj ran]
    exact resting

end Slc

end ConZone
