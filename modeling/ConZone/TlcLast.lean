import ConZone.TlcRoom

set_option autoImplicit false

namespace ConZone

def Pointed (p : Params) (ftl : ZmsFtl) : Prop := (∃ lpn, Mapped p ftl lpn) → ∃ name, (ftl.wps name).curline ≠ none

section Pointers

variable (p : Params)

theorem pointed_kept (before after : ZmsFtl) (lines : ∀ name, (after.wps name).curline = (before.wps name).curline)
    (maps : ∀ lpn, Mapped p after lpn → Mapped p before lpn) (pointed : Pointed p before) : Pointed p after := by
  rintro ⟨lpn, there⟩
  obtain ⟨name, positive⟩ := pointed ⟨lpn, maps lpn there⟩
  exact ⟨name, by rw [lines]; exact positive⟩

section Placing

variable (ioType : IoType) (loc : Loc)

theorem update_or_reserve_points (ftl next : ZmsFtl) (lpn : Nat) (pointed : Pointed p ftl)
    (ran : updateOrReserveMapping p ftl lpn loc ioType = .ok next) : Pointed p next := by
  unfold updateOrReserveMapping at ran
  split at ran
  · rename_i updated
    rw [← Except.ok.inj ran]
    have wps := update_mapping_wps p ioType loc ftl _ lpn updated
    have before : ∃ other, Mapped p ftl other := by
      unfold updateMappingIfReserved at updated
      split at updated
      · rename_i prev map entry
        exact ⟨_, (mapped_entry p ftl _).mpr ⟨prev, map, entry⟩⟩
      · cases updated
    intro _
    rw [wps]
    exact pointed before
  · split at ran
    · rw [← Except.ok.inj ran]
      exact pointed
    · obtain ⟨_, _, _, _, advanced, last, _, _, _, _, checked⟩ := reserve_mapping_runs p ftl next lpn loc ioType ran
      exact fun _ => ⟨_, get_new_page_points p ioType loc advanced next last checked⟩

end Placing

theorem erase_line_curlines (ftl : ZmsFtl) (ref : LineRef) (ioType : IoType) (name : WpName) :
    ((eraseLine p ftl ref ioType).wps name).curline = (ftl.wps name).curline := by
  have blocks : ∀ (blocks : List Block) (before : ZmsFtl), (blocks.foldl (eraseBlock p ioType) before).wps = before.wps := by
    intro blocks
    induction blocks with
    | nil => exact fun _ => rfl
    | cons block rest ih =>
        intro before
        refine (ih _).trans ?_
        unfold eraseBlock
        dsimp only
        split <;> rfl
  have freed : ∀ before : ZmsFtl, ((markLineFree p before ref ioType).wps name).curline = (before.wps name).curline := by
    intro before
    unfold markLineFree
    dsimp only
    generalize clearLine _ ref = cleared
    have placed : ((if !isActiveLine before ref then { before with lm := addFree cleared (getLineLocation p ref) ref }
        else resetWp { before with lm := cleared } ref : ZmsFtl).wps name).curline = (before.wps name).curline := by
      split
      · rfl
      · unfold resetWp
        split
        · rename_i found _
          rw [put_wp_pointer]
          split
          · rename_i here
            rw [here]
          · rfl
        · rfl
    generalize (if !isActiveLine before ref then _ else _ : ZmsFtl) = moved at placed ⊢
    rw [← placed]
    split <;> rfl
  unfold eraseLine
  rw [freed, blocks]

theorem pointed_rules (medium : Medium p) : MediumRules p (fun ftl => Bounded p ftl ∧ Pointed p ftl) where
  bounded := fun _ both => both.1
  media := by
    rintro before after media ⟨bounded, pointed⟩
    refine ⟨(bounded_rules p medium).media before after media bounded, pointed_kept p before after ?_ ?_ pointed⟩
    · intro name
      rw [show after.wps = before.wps from congrArg MediaSide.wps media]
    · exact fun lpn there => (same_maps_mapped p before after (media_maps before after media) lpn).mp there
  maps := by
    rintro ftl next lpn loc ioType ⟨bounded, pointed⟩ ran
    exact ⟨(bounded_rules p medium).maps ftl next lpn loc ioType bounded ran, update_or_reserve_points p ioType loc ftl next lpn pointed ran⟩
  drops := by
    rintro ftl lpn page map ⟨bounded, pointed⟩ entry
    refine ⟨(bounded_rules p medium).drops ftl lpn page map bounded entry, pointed_kept p ftl _ ?_ ?_ pointed⟩
    · intro name
      rw [drop_mapping_wps]
    · exact fun other there => ((drop_mapping_mapped p ftl lpn page other).mp there).1
  erases := by
    rintro ftl ref ioType ⟨bounded, pointed⟩ known
    refine ⟨(bounded_rules p medium).erases ftl ref ioType bounded known, pointed_kept p ftl _ (erase_line_curlines p ftl ref ioType) ?_ pointed⟩
    exact fun lpn there => (same_maps_mapped p ftl _ (erase_line_maps p ftl ref ioType) lpn).mp there
  selects := by
    rintro ftl next force loc victim ⟨bounded, pointed⟩ selected
    refine ⟨(bounded_rules p medium).selects ftl next force loc victim bounded selected, pointed_kept p ftl next ?_ ?_ pointed⟩
    · intro name
      rw [select_victim_wps p ftl next force loc victim selected]
    · exact fun lpn there => (same_maps_mapped p ftl next (select_victim_maps p ftl next force loc victim selected) lpn).mp there

theorem start_pointed (clock : Nat → Nat) : Pointed p (zmsRealizeFtl p clock) := by
  rintro ⟨lpn, there⟩
  obtain ⟨page, map, entry⟩ := (mapped_entry p _ lpn).mp there
  unfold getMaptblEnt at entry
  split at entry
  · cases entry
  · cases entry

end Pointers

section Lines

variable (p : Params) (ns : TlcNamespace p) (regular : Regular p .normal)
variable (ftl : ZmsFtl) (home : LineRef → Home) (prog : LineRef → Nat) (sound : TlcSound p ftl home prog)

include ns regular sound in
-- The line of the write pointer has no zone, and with no more lines than zones
-- there is a zone without a line.
theorem blank_zone_left (few : (lineRefs p).length ≤ p.zpp.nrZones) (positive : 0 < p.zpp.nrZones) (pointed : Pointed p ftl) :
    ∃ zid, zid < p.zpp.nrZones ∧ ZoneBlank p ftl zid := by
  by_contra empty
  have busy : ∀ zid, zid < p.zpp.nrZones → ∃ ref, UnitOn p ftl prog zid ref := by
    intro zid inside
    rcases sound.units zid inside with blank | unit
    · exact absurd ⟨zid, inside, blank⟩ empty
    · exact unit
  obtain ⟨_, unit⟩ := busy 0 positive
  obtain ⟨page, there, _⟩ := unit.filled 0 unit.begun
  obtain ⟨name, stands⟩ := pointed ⟨_, (mapped_iff_on_page p ftl _).mpr ⟨page, there⟩⟩
  obtain ⟨cur, curline⟩ := Option.ne_none_iff_exists'.mp stands
  have here := (sound.media.homes.pointer name cur).mpr curline
  have curListed : cur ∈ lineRefs p := pointed_listed p .normal regular ftl home prog _ sound.media name cur here
  have away : ∀ zid ref, UnitOn p ftl prog zid ref → ref ≠ cur := by
    rintro zid ref taken rfl
    have full := begun_full p regular ftl home prog sound ref taken.listed taken.begun
    rw [here] at full
    cases full
  have lines : (Finset.range p.zpp.nrZones).card ≤ ((lineRefs p).toFinset.erase cur).card := by
    refine Finset.card_le_card_of_injOn (lineOfZone p ftl) ?_ ?_
    · intro zid member
      obtain ⟨ref, taken⟩ := busy zid (Finset.mem_range.mp member)
      rw [unit_line p ftl prog zid ref taken]
      exact Finset.mem_coe.mpr (Finset.mem_erase.mpr ⟨away zid ref taken, List.mem_toFinset.mpr taken.listed⟩)
    · intro zid member other otherMember same
      obtain ⟨ref, taken⟩ := busy zid (Finset.mem_range.mp member)
      obtain ⟨otherRef, otherTaken⟩ := busy other (Finset.mem_range.mp otherMember)
      rw [unit_line p ftl prog zid ref taken, unit_line p ftl prog other otherRef otherTaken] at same
      rw [← same] at otherTaken
      exact units_alone p ns regular ftl home prog sound other zid ref otherTaken taken
  rw [Finset.card_range, Finset.card_erase_of_mem (List.mem_toFinset.mpr curListed), List.toFinset_card_of_nodup (line_refs_distinct p)] at lines
  omega

end Lines

end ConZone
