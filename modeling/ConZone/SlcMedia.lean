import ConZone.MediaErase
import ConZone.Accounting

set_option autoImplicit false

namespace ConZone

-- In an SLC namespace pages are taken one by one: nothing is reserved.
structure SlcSound (p : Params) (ftl : ZmsFtl) (home : LineRef → Home) (prog : LineRef → Nat) : Prop where
  roomy : Roomy p ftl
  media : MediaSound p .pslc ftl home prog fun _ => 0
  settled : ∀ ref ∈ lineRefs p, (ftl.lm.lines ref).rpc = 0

section Slc

variable (p : Params) (ns : SlcNamespace p) (regular : Regular p .pslc)

theorem same_rpc (before after : ZmsFtl) (same : SamePages before after) (ref : LineRef) :
    (after.lm.lines ref).rpc = (before.lm.lines ref).rpc :=
  congrArg (fun counts => counts.2.2.1) (same.tallies ref)

theorem same_on_page (before after : ZmsFtl) (same : SamePages before after) (lpn : Nat) (page : Page) :
    OnPage p after lpn page ↔ OnPage p before lpn page :=
  on_page_congr p before after same.maps.table lpn page

theorem slc_kept (before after : ZmsFtl) (media : mediaSide after = mediaSide before) (home : LineRef → Home) (prog : LineRef → Nat)
    (roomy : Roomy p after) (sound : SlcSound p before home prog) : SlcSound p after home prog := by
  refine ⟨roomy, media_kept p .pslc before after media home prog _ sound.media, fun ref listed => ?_⟩
  rw [show after.lm = before.lm from congrArg MediaSide.lm media]
  exact sound.settled ref listed

variable (ftl next : ZmsFtl) (lpn : Nat) (ioType : IoType) (home : LineRef → Home) (prog : LineRef → Nat)
variable (sound : SlcSound p ftl home prog) (unmapped : ∀ page, ¬OnPage p ftl lpn page)

-- The LPN is on a page outside the lines that are being collected; the others
-- stay where they are.
structure Landed (p : Params) (before after : ZmsFtl) (home : LineRef → Home) (lpn : Nat) : Prop where
  there : ∃ page, OnPage p after lpn page ∧ home (getLine p page) ≠ .out
  others : ∀ other, other ≠ lpn → ∀ page, OnPage p after other page ↔ OnPage p before other page

include ns regular sound unmapped in
theorem slc_reserve_sound (ran : reserveMapping p ftl lpn .pslc ioType = .ok next) :
    ∃ home' prog', SlcSound p next home' prog' ∧ SameOut home home' ∧ Landed p ftl next home lpn := by
  obtain ⟨inside, page, opened, advanced, last, taken, advancing, checked⟩ := slc_reserve_runs p ns ftl next lpn ioType ran
  have roomy : Roomy p next := by
    refine (roomy_rules p regular.medium regular.numbering.inside).maps ftl next lpn .pslc ioType sound.roomy ?_
    rw [slc_update_or_reserve, any_full_loc ftl .pslc sound.roomy.clear, if_neg Bool.false_ne_true]
    exact ran
  have alone : ∀ other, lpn ≤ other → other < lpn + 1 → ∀ there, ¬OnPage p ftl other there := by
    intro other first last there
    rw [show other = lpn by omega]
    exact unmapped there
  have entry := reserve_entries_sound p .pslc ftl home prog _ sound.media lpn 1 alone
  obtain ⟨home', kept, ⟨cur, here⟩, same, takes, pages⟩ := opened_page p .pslc regular _ home prog _ entry ioType opened page rfl taken
  have outs := takes_free_out _ _ _ takes
  have absent : ∀ there, ¬OnPage p opened lpn there := fun there => by
    rw [same_on_page p _ opened pages, reserve_entries_on_page p ftl lpn 1 alone]
    exact unmapped there
  have listed := pointed_listed p .pslc regular opened home' prog _ kept _ cur here
  have settled : ∀ ref ∈ lineRefs p, (opened.lm.lines ref).rpc = 0 := fun ref known => by
    rw [same_rpc _ opened pages]
    exact sound.settled ref known
  obtain ⟨markable, place, line⟩ := pointer_blank p .pslc regular opened home' prog _ kept _ cur here rfl (settled cur listed)
  have assigned := assign_sound p .pslc regular opened home' prog _ kept lpn .pageMap inside absent _ cur here rfl (settled cur listed)
  have onPage := assign_on_page p opened lpn (wpPage (opened.wps (zmsGetWp ioType .pslc))) .pageMap inside markable
  have tallied := (assign_lm p opened lpn (wpPage (opened.wps (zmsGetWp ioType .pslc))) .pageMap inside markable).1
  rw [← same] at assigned line onPage tallied
  have quiet := set_map_gran_quiet p (assignPage p opened lpn page .pageMap) .pageMap lpn
  have first : takeFirstPage p opened lpn page = setMapGran p (assignPage p opened lpn page .pageMap) .pageMap lpn := rfl
  rw [first] at advancing
  have marked := media_kept p .pslc _ _ quiet.media home' _ _ assigned
  obtain ⟨home'', done, later, moved⟩ := advanced_sound p .pslc regular _ home' _ _ marked ioType cur here advanced next last
    (Function.update_self ..) (by rw [Function.update_self]; omega) advancing checked
  rw [Function.update_idem, Function.update_eq_self] at done
  have after : ∀ other there, OnPage p next other there ↔ if other = lpn then there = page else OnPage p ftl other there := by
    intro other there
    rw [same_on_page p _ next moved, on_page_congr p _ _ (quiet_maps _ _ quiet).table, onPage]
    split
    · rfl
    · rw [same_on_page p _ opened pages, reserve_entries_on_page p ftl lpn 1 alone]
  refine ⟨home'', _, ⟨roomy, done, ?_⟩, same_out_trans _ _ _ outs later, ⟨page, ?_, ?_⟩, ?_⟩
  · intro ref known
    rw [same_rpc _ next moved, show (setMapGran p (assignPage p opened lpn page .pageMap) .pageMap lpn).lm =
      (assignPage p opened lpn page .pageMap).lm from congrArg MediaSide.lm quiet.media, tallied]
    unfold countValid
    dsimp only
    by_cases here : ref = getLine p page
    · rw [here, Function.update_self]
      rw [here] at known
      exact settled _ known
    · rw [Function.update_of_ne here]
      exact settled ref known
  · rw [after, if_pos rfl]
  · intro out
    rw [line, ← outs cur, here] at out
    cases out
  · intro other apart there
    rw [after, if_neg apart]

end Slc

end ConZone
