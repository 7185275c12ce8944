import ConZone.CallPlaces
import ConZone.MediaPointers
import ConZone.WordlinePlaces

set_option autoImplicit false

namespace ConZone

section Calm

variable (p : Params) (medium : Medium p)
variable (collect : ZmsFtl → Loc → Exec ZmsFtl) (collected : ZmsFtl → Loc → List (List PageWrite))
variable (loc : Loc) (ioType : IoType)

-- With more write credits left than pages to write no collection falls due.
structure Calm (rest : List Nat) (ftl : ZmsFtl) : Prop where
  bounded : Bounded p ftl
  credits : takesCredit p loc ioType = true → (rest.length : Int) < (ftl.wfc loc).writeCredits

theorem calm_kept (rest : List Nat) (before after : ZmsFtl) (bounded : Bounded p after) (same : gathered after = gathered before)
    (calm : Calm p loc ioType rest before) : Calm p loc ioType rest after := by
  refine ⟨bounded, fun takes => ?_⟩
  rw [gathered_credits _ _ same]
  exact calm.credits takes

structure WroteCalmly (rest : List Nat) (ftl written next : ZmsFtl) (write : PageWrite) (trace : Trace) : Prop where
  clear : anyFull written = false
  bounded : Bounded p written
  media : mediaSide next = mediaSide written
  aggs : next.zoneAggLpns = ftl.zoneAggLpns
  calm : Calm p loc ioType rest next
  own : trace.own = [write]
  inner : trace.inner = []

include medium in
theorem nand_write_calm (rest : List Nat) (ftl next : ZmsFtl) (start lpn toWritePgs elpn time : Nat)
    (calm : Calm p loc ioType (lpn :: rest) ftl) (clear : anyFull next = false)
    (ran : nandWrite collect p ftl start lpn loc ioType toWritePgs elpn = .ok (time, next)) :
    ∃ written, updateOrReserveMapping p ftl lpn loc ioType = .ok written ∧
      WroteCalmly p loc ioType rest ftl written next (pageWrite p ftl written start lpn loc ioType toWritePgs elpn)
        (nandWriteTrace p collected ftl start lpn loc ioType toWritePgs elpn) := by
  obtain ⟨written, mapping, traced⟩ := nand_write_traced p collect collected ftl next start lpn loc ioType toWritePgs elpn time ran
  obtain ⟨mapped, again, own⟩ := nand_write_own p collect collected ioType loc start elpn ftl next lpn toWritePgs time ran
  cases Except.ok.inj (mapping.symm.trans again)
  have same := update_or_reserve_gathered p ftl written lpn loc ioType mapping
  have bounded := (bounded_rules p medium).maps ftl written lpn loc ioType calm.bounded mapping
  rcases traced.settled with ⟨below, inner, credits⟩ | ⟨⟨takes, few⟩, _⟩
  · have media : mediaSide next = mediaSide written := congrArg Prod.fst below
    refine ⟨written, mapping, ?_, bounded, media, ?_, ⟨media_bounded p written next media bounded, fun takes => ?_⟩, own, inner⟩
    · rw [← clear]
      exact any_full_flags next written (Prod.ext (congrArg MediaSide.deviceFull media.symm) (congrArg MediaSide.pslcFull media.symm))
    · exact (congrArg Prod.snd below).trans (gathered_aggs _ _ same)
    · have before := calm.credits takes
      rw [gathered_credits _ _ same] at credits
      rw [List.length_cons] at before
      omega
  · have before := calm.credits takes
    rw [gathered_credits _ _ same] at few
    rw [List.length_cons] at before
    omega

end Calm

section Preparing

variable (p : Params) (medium : Medium p)

-- What the loops do to an LPN before they write it: at most they drop its page.
structure Prepares (prepare : ZmsFtl → Nat → ZmsFtl) : Prop where
  step : ∀ ftl lpn, MediaStep ftl (prepare ftl lpn)
  gathered : ∀ ftl lpn, gathered (prepare ftl lpn) = gathered ftl
  bounded : ∀ ftl lpn, Bounded p ftl → Bounded p (prepare ftl lpn)
  wps : ∀ ftl lpn, (prepare ftl lpn).wps = ftl.wps
  fresh : ∀ ftl lpn, ¬Mapped p ftl lpn → mediaSide (prepare ftl lpn) = mediaSide ftl

theorem count_inplace_prepares : Prepares p (countInplace p) where
  step := fun ftl lpn => quiet_media_step _ _ (count_inplace_step p ftl lpn)
  gathered := count_inplace_gathered p
  bounded := fun ftl lpn bounded => media_bounded p ftl _ (count_inplace_step p ftl lpn).media bounded
  wps := fun ftl lpn => congrArg MediaSide.wps (count_inplace_step p ftl lpn).media
  fresh := fun ftl lpn _ => (count_inplace_step p ftl lpn).media

include medium in
theorem drop_if_mapped_prepares : Prepares p (dropIfMapped p) where
  step := drop_if_mapped_step p
  gathered := drop_if_mapped_gathered p
  bounded := fun ftl lpn bounded => drop_if_mapped_kept p (Bounded p) (bounded_rules p medium) ftl lpn bounded
  wps := by
    intro ftl lpn
    unfold dropIfMapped
    split
    · exact drop_mapping_wps p ftl lpn _
    · rfl
  fresh := by
    intro ftl lpn unmapped
    unfold dropIfMapped
    split
    · rename_i page map mapped
      exact absurd ((mapped_entry p ftl lpn).mpr ⟨page, map, mapped⟩) unmapped
    · rfl

end Preparing

section Places

variable (p : Params)

theorem on_page_place (ftl : ZmsFtl) (lpn : Nat) (page : Page) (loc : Loc) (clear : anyFull ftl = false) (there : OnPage p ftl lpn page) :
    placeOf p ftl lpn loc = some page := by
  obtain ⟨map, entry⟩ := on_page_entry p ftl lpn page there
  unfold placeOf
  rw [entry]
  dsimp only
  rw [any_full_loc ftl loc clear, if_neg Bool.false_ne_true]

end Places

section Batching

variable (p : Params) (loc : Loc) (ready : Nat → List Nat → ZmsFtl → Prop) (fine : List PageWrite → Prop)
variable (place : Nat) (lpns rest : List Nat) (after : ZmsFtl) (trace : Trace)

theorem own_writes (elpn : Nat) (shown : Nat → PageWrite → Prop) (followed : Followed loc elpn ready shown fine place lpns rest after trace)
    (index : Nat) (write : PageWrite) (there : trace.own[index]? = some write) :
    write.loc = loc ∧ ∃ lpn, lpns[index]? = some lpn ∧ write.last = (lpn == elpn) := by
  have same : (trace.own.map fun write => (write.loc, write.last))[index]? = (lpns.map fun lpn => (loc, lpn == elpn))[index]? := by
    rw [followed.lpns]
  rw [List.getElem?_map, List.getElem?_map, there] at same
  cases given : lpns[index]? with
  | none =>
      rw [given] at same
      cases same
  | some lpn =>
      rw [given] at same
      obtain ⟨here, last⟩ := Prod.mk.inj (Option.some.inj same)
      exact ⟨here, lpn, rfl, last⟩

theorem own_locs (elpn : Nat) (shown : Nat → PageWrite → Prop) (followed : Followed loc elpn ready shown fine place lpns rest after trace) :
    ∀ write ∈ trace.own, oneshotPgs p write = oneshotOf p loc := by
  intro write member
  obtain ⟨index, there⟩ := List.getElem?_of_mem member
  unfold oneshotPgs
  rw [(own_writes loc ready fine place lpns rest after trace elpn shown followed index write there).1]

-- A call ends with a program command when its last LPN is on a page.
theorem own_ended (elpn : Nat) (ending : ∀ lpn, lpns.getLast? = some lpn → lpn = elpn) (shown : Nat → PageWrite → Prop)
    (placed : ∀ place write, shown place write → write.place.isSome = true)
    (followed : Followed loc elpn ready shown fine place lpns rest after trace) : Batches.left (programs p) 0 trace.own = 0 := by
  have length := followed_length loc _ ready shown fine place lpns rest after trace followed
  rcases List.eq_nil_or_concat trace.own with none | ⟨init, last, split⟩
  · rw [none]
    rfl
  · have there : trace.own[init.length]? = some last := by simp [split]
    obtain ⟨_, lpn, given, ends⟩ := own_writes loc ready fine place lpns rest after trace _ shown followed init.length last there
    have size : lpns.length = init.length + 1 := by rw [← length, split, List.length_concat]
    have same : lpn = elpn := by
      refine ending lpn ?_
      rw [List.getLast?_eq_getElem?, size, Nat.add_sub_cancel, given]
    rw [split, List.concat_eq_append]
    refine Batches.left_ended _ 0 init last ?_
    have spot := placed _ last (followed.shown init.length last there)
    unfold programs
    cases page : last.place with
    | none =>
        rw [page] at spot
        cases spot
    | some page =>
        dsimp only
        rw [ends, same, beq_self_eq_true, Bool.or_true]

-- A call of no more than a one-shot page of pages has a single batch or less.
theorem short_call_whole (elpn : Nat) (ending : ∀ lpn, lpns.getLast? = some lpn → lpn = elpn) (shown : Nat → PageWrite → Prop)
    (placed : ∀ place write, shown place write → write.place.isSome = true)
    (followed : Followed loc elpn ready shown fine place lpns rest after trace) (short : lpns.length ≤ oneshotOf p loc) : WholeBatches p trace.own := by
  have length := followed_length loc _ ready shown fine place lpns rest after trace followed
  have caps := own_locs p loc ready fine place lpns rest after trace _ shown followed
  have ended := own_ended p loc ready fine place lpns rest after trace elpn ending shown placed followed
  refine (Batches.whole_iff_fits _ _ 0 trace.own).mpr ⟨?_, ended⟩
  exact Batches.fits_short _ _ (oneshotOf p loc) 0 trace.own (fun write member => Nat.le_of_eq (caps write member).symm) (by omega)

end Batching

section Placed

variable (config : DualConfig) (loc : Loc)

-- The write goes to a page, and the page ends a wordline where the place does.
def ShownAt (place : Nat) (write : PageWrite) : Prop :=
  ∃ page, write.place = some page ∧ (isLastPgInWordline (dualParams config loc) page = true ↔
    Batches.EndsCell (dualParams config loc).spp.pgsPerFlashpg (blocksInTurn (dualParams config loc))
      (wordlineFlashpgs (dualParams config loc) loc) place)

theorem shown_placed (place : Nat) (write : PageWrite) (shown : ShownAt config loc place write) : write.place.isSome = true := by
  obtain ⟨page, there, _⟩ := shown
  rw [there]
  rfl

theorem place_shown (write : PageWrite) (page : Page) (there : write.place = some page) (owned : OwnedPage (dualParams config loc) page) :
    ShownAt config loc (placeIn (dualParams config loc) page) write :=
  ⟨page, there, last_in_wordline_iff config loc page owned⟩

variable (ready : Nat → List Nat → ZmsFtl → Prop) (fine : List PageWrite → Prop)
variable (place : Nat) (lpns rest : List Nat) (after : ZmsFtl) (trace : Trace)
variable (elpn : Nat) (ending : ∀ lpn, lpns.getLast? = some lpn → lpn = elpn)
variable (followed : Followed loc elpn ready (ShownAt config loc) fine place lpns rest after trace)

include ending followed in
theorem placed_call_iff (distinct : lpns.Nodup) :
    WholeBatches (dualParams config loc) trace.own ↔ FullBatches (dualParams config loc) loc place lpns.length := by
  have length := followed_length loc _ ready (ShownAt config loc) fine place lpns rest after trace followed
  have caps := own_locs (dualParams config loc) loc ready fine place lpns rest after trace _ (ShownAt config loc) followed
  have flash : 0 < (dualParams config loc).spp.pgsPerFlashpg := config_flash_positive config
  unfold FullBatches
  rw [← length]
  refine Batches.whole_placed_iff _ _ _ flash (dual_blocks_positive config loc) (dual_wordline_positive config loc)
    _ _ trace.own place (fun write member => ?_) fun index write there => ?_
  · rw [caps write member, dual_wordline_pages]
  · obtain ⟨page, spot, ends⟩ := followed.shown index write there
    obtain ⟨_, lpn, given, last⟩ := own_writes loc ready fine place lpns rest after trace _ (ShownAt config loc) followed index write there
    have inside := (List.getElem?_eq_some_iff.mp given).1
    have final : write.last = true ↔ index + 1 = trace.own.length := by
      have ending : lpns[lpns.length - 1]? = some elpn := by
        have there := List.getElem?_eq_getElem (show lpns.length - 1 < lpns.length by omega)
        rw [there]
        exact congrArg some (ending _ (List.getLast?_eq_getElem?.trans there))
      rw [last, length, beq_iff_eq]
      constructor
      · intro same
        rw [← same, ← given] at ending
        have own := (List.getElem?_inj (by omega) distinct).mp ending
        omega
      · intro same
        rw [show lpns.length - 1 = index by omega, given] at ending
        exact Option.some.inj ending
    unfold programs
    rw [spot]
    dsimp only
    rw [Bool.or_eq_true, ends, final]

include ending followed in
-- On pSLC every flash page ends with a program command.
theorem slc_call_whole (slc : loc = .pslc) : WholeBatches (dualParams config loc) trace.own := by
  have caps := own_locs (dualParams config loc) loc ready fine place lpns rest after trace _ (ShownAt config loc) followed
  have ended := own_ended (dualParams config loc) loc ready fine place lpns rest after trace elpn ending _ (shown_placed config loc) followed
  refine (Batches.whole_iff_fits _ _ 0 trace.own).mpr ⟨?_, ended⟩
  refine Batches.fits_cells (dualParams config loc).spp.pgsPerFlashpg (config_flash_positive config) _ _ trace.own 0 place
    (fun write member => ?_) (fun index write there full => ?_) (Nat.zero_le _)
  · rw [caps write member, ← dual_wordline_pages]
    exact Nat.le_mul_of_pos_left _ (dual_wordline_positive config loc)
  · obtain ⟨page, spot, ends⟩ := followed.shown index write there
    have height : wordlineFlashpgs (dualParams config loc) loc = 1 := by rw [dual_wordline_flashpgs, if_pos slc]
    have last : isLastPgInWordline (dualParams config loc) page = true := by
      rw [ends, height]
      refine ⟨?_, full⟩
      unfold Batches.lastStripe
      rw [Nat.sub_self, Nat.zero_mul]
      exact Nat.zero_le _
    unfold programs
    rw [spot]
    dsimp only
    rw [last, Bool.true_or]

end Placed

end ConZone
