import ConZone.AnsweredRuns

set_option autoImplicit false

namespace ConZone

-- The zone is not written to its end, and the append is not dropped as a part
-- of a page that was written in parts before.
def PlaceInZone (p : Params) (ftl : ZmsFtl) (cmd : RwCommand) : Prop :=
  (ftl.zoneDescs (lbaToZone p cmd.slba)).wp < zoneToSlba p (lbaToZone p cmd.slba) + zoneLbas p ∧ ¬partialDropped p ftl cmd

section Append

variable (p : Params) (ftl : ZmsFtl) (req : Request) (cmd : RwCommand) (accounted : Accounted p ftl)
variable (append : cmd.append = true) (inside : lbaToZone p cmd.slba < p.zpp.nrZones)

include accounted append inside in
theorem append_stays_place (stays : AppendStays p ftl req cmd) : anyFull ftl = true ∨ PlaceInZone p ftl cmd := by
  cases full : anyFull ftl with
  | true => exact .inl rfl
  | false =>
      obtain ⟨below, kept, _⟩ := (append_stays_taken p ftl req cmd accounted append inside full).mp stays
      exact .inr ⟨below, kept⟩

include accounted append inside in
theorem append_stays_when (taken : DataTaken p ftl req cmd) (place : anyFull ftl = true ∨ PlaceInZone p ftl cmd) : AppendStays p ftl req cmd := by
  cases full : anyFull ftl with
  | true => exact full_append_stays p ftl req cmd full
  | false =>
      rcases place with up | ⟨below, kept⟩
      · rw [full] at up
        cases up
      · exact (append_stays_taken p ftl req cmd accounted append inside full).mpr ⟨below, kept, taken⟩

include inside in
-- With one line group a full flag never goes up, so that only a failed
-- assertion can end the data loop early.
theorem data_taken_answered (medium : Medium p) (inRange : PagesInRange p) (allowed : ZmsFtl → Event → Prop)
    (reached : Reachable p allowed ftl) (answered : ∃ outcome, zonedWrite p ftl req cmd = .ok outcome) : DataTaken p ftl req cmd := by
  intro index checked accepted
  obtain ⟨outcome, ran⟩ := answered
  cases filled : dataLoop p ftl req cmd index checked with
  | error fault =>
      rw [accepted_goes_on p ftl req cmd index checked inside accepted, filled] at ran
      cases ran
  | ok progress =>
      exact ⟨progress, rfl, data_finds_pages p ftl req cmd medium inRange allowed reached inside index checked progress accepted filled⟩

end Append

section Plain

variable (config : DualConfig) (plain : PlainConfig config .normal) (sizes : WholeBuffers (dualParams config .normal))
variable (ftl : ZmsFtl) (reached : Reachable (dualParams config .normal) (Orderly (dualParams config .normal)) ftl)
variable (req : Request) (cmd : RwCommand) (append : cmd.append = true)

include plain sizes reached append in
theorem tlc_append_answers (inside : lbaToZone (dualParams config .normal) cmd.slba < (dualParams config .normal).zpp.nrZones)
    (whole : WholePages cmd) (place : PlaceInZone (dualParams config .normal) ftl cmd) (spare : Nat)
    (spareInside : spare < (dualParams config .normal).zpp.nrZones) (apart : spare ≠ lbaToZone (dualParams config .normal) cmd.slba)
    (unwritten : (ftl.zoneDescs spare).wp = zoneToSlba (dualParams config .normal) spare) :
    ∃ outcome, zonedWrite (dualParams config .normal) ftl req cmd = .ok outcome := by
  obtain ⟨store, stands, room⟩ := reached_room config .normal plain sizes ftl reached
  have placed := (append_zone_iff _ ftl cmd stands.accounted append inside).mpr place.1
  exact zoned_write_answers _ .normal _ (plain_contract config .normal plain) (dual_zoned_space config .normal) (plain_answers config plain)
    (dual_oneshot_positive config .normal) sizes (dual_buffers config .normal) spare spareInside store.landed store.waiting
    ((unwritten_store _ _ ftl store stands spare spareInside).mpr unwritten) ftl req cmd inside apart.symm ⟨whole, placed⟩ stands.accounted
    stands.settled room

end Plain

def appendMovesNext (ftl : ZmsFtl) : Bool :=
  match zonedWrite (dualParams sampleConfig .pslc) ftl ⟨0, 0⟩ ⟨true, 0, 7, false⟩ with
  | .ok outcome => decide (outcome.done.map Completion.status = some .success) &&
      decide ((outcome.ftl.zoneDescs 1).wp ≠ (ftl.zoneDescs 1).wp)
  | .error _ => false

end ConZone
