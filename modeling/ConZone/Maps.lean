import ConZone.FailedWrite

set_option autoImplicit false

namespace ConZone

structure SameMaps (before after : ZmsFtl) : Prop where
  table : ∀ lpn, barePpa (after.maptbl lpn) = barePpa (before.maptbl lpn)
  rmap : after.rmap = before.rmap

theorem same_maps_refl (ftl : ZmsFtl) : SameMaps ftl ftl := ⟨fun _ => rfl, rfl⟩

theorem same_maps_trans (first second third : ZmsFtl) (left : SameMaps first second) (right : SameMaps second third) :
    SameMaps first third :=
  ⟨fun lpn => (right.table lpn).trans (left.table lpn), right.rmap.trans left.rmap⟩

theorem media_maps (before after : ZmsFtl) (media : mediaSide after = mediaSide before) : SameMaps before after :=
  ⟨fun lpn => congrFun (congrArg MediaSide.maptbl media) lpn, congrArg MediaSide.rmap media⟩

theorem quiet_maps (before after : ZmsFtl) (quiet : Quiet before after) : SameMaps before after :=
  media_maps before after quiet.media

def Mapped (p : Params) (ftl : ZmsFtl) (lpn : Nat) : Prop := mappedPpa (getMaptblEnt p ftl lpn) = true

instance (p : Params) (ftl : ZmsFtl) (lpn : Nat) : Decidable (Mapped p ftl lpn) := inferInstanceAs (Decidable (_ = true))

theorem same_maps_mapped (p : Params) (before after : ZmsFtl) (same : SameMaps before after) (lpn : Nat) :
    Mapped p after lpn ↔ Mapped p before lpn := by
  unfold Mapped getMaptblEnt
  split
  · rw [← mapped_bare, same.table, mapped_bare]
  · exact Iff.rfl

theorem mapped_entry (p : Params) (ftl : ZmsFtl) (lpn : Nat) :
    Mapped p ftl lpn ↔ ∃ page map, getMaptblEnt p ftl lpn = .mapped page map := by
  unfold Mapped
  constructor
  · intro mapped
    cases entry : getMaptblEnt p ftl lpn with
    | unmapped =>
        rw [entry] at mapped
        cases mapped
    | rsv =>
        rw [entry] at mapped
        cases mapped
    | mapped page map => exact ⟨page, map, rfl⟩
  · rintro ⟨page, map, entry⟩
    rw [entry]
    rfl

section Unmoved

variable (p : Params)

theorem set_full_maps (ftl : ZmsFtl) (loc : Loc) : SameMaps ftl (setFull ftl loc) := by
  cases loc <;> exact ⟨fun _ => rfl, rfl⟩

theorem mark_page_valid_maps (ftl : ZmsFtl) (page : Page) : SameMaps ftl (markPageValid p ftl page) := by
  unfold markPageValid
  dsimp only
  split
  · exact same_maps_refl ftl
  · split
    · exact ⟨fun _ => rfl, rfl⟩
    · split <;> exact ⟨fun _ => rfl, rfl⟩

theorem erase_line_maps (ftl : ZmsFtl) (ref : LineRef) (ioType : IoType) : SameMaps ftl (eraseLine p ftl ref ioType) := by
  have blocks : ∀ (blocks : List Block) (before : ZmsFtl), SameMaps before (blocks.foldl (eraseBlock p ioType) before) := by
    intro blocks
    induction blocks with
    | nil => exact same_maps_refl
    | cons block rest ih =>
        intro before
        refine same_maps_trans _ _ _ ?_ (ih (eraseBlock p ioType before block))
        unfold eraseBlock
        dsimp only
        split <;> exact ⟨fun _ => rfl, rfl⟩
  have erased := blocks (erasedBlocks p ref) ftl
  unfold eraseLine
  generalize (erasedBlocks p ref).foldl (eraseBlock p ioType) ftl = middle at erased ⊢
  refine same_maps_trans _ middle _ erased ?_
  unfold markLineFree
  dsimp only
  generalize clearLine _ ref = cleared
  have placed : SameMaps middle (if !isActiveLine middle ref then { middle with lm := addFree cleared (getLineLocation p ref) ref }
      else resetWp { middle with lm := cleared } ref) := by
    split
    · exact ⟨fun _ => rfl, rfl⟩
    · unfold resetWp
      split <;> exact ⟨fun _ => rfl, rfl⟩
  generalize (if !isActiveLine middle ref then _ else _ : ZmsFtl) = moved at placed ⊢
  split <;> exact ⟨placed.table, placed.rmap⟩

theorem select_victim_maps (ftl next : ZmsFtl) (force : Bool) (loc : Loc) (victim : LineRef)
    (selected : selectVictimLine p ftl force loc = some (victim, next)) : SameMaps ftl next := by
  unfold selectVictimLine at selected
  split at selected
  · cases selected
  · split at selected
    · cases selected
    · rw [← (Prod.mk.inj (Option.some.inj selected)).2]
      exact ⟨fun _ => rfl, rfl⟩

theorem erase_linked_lines_maps (fuel : Nat) (ftl next : ZmsFtl) (target : Option LineRef)
    (ran : eraseLinkedLines p fuel ftl target = .ok next) : SameMaps ftl next := by
  induction fuel generalizing ftl target with
  | zero =>
      cases target with
      | none =>
          rw [← Except.ok.inj ran]
          exact same_maps_refl ftl
      | some target => exact nomatch ran
  | succ fuel ih =>
      cases target with
      | none =>
          rw [← Except.ok.inj ran]
          exact same_maps_refl ftl
      | some target =>
          unfold eraseLinkedLines at ran
          refine same_maps_trans _ _ _ ?_ (ih _ _ ran)
          split
          · exact erase_line_maps p ftl target .userIo
          · exact same_maps_refl ftl

end Unmoved

section Entries

variable (p : Params)

theorem set_maptbl_entry (ftl : ZmsFtl) (lpn : Nat) (ppa : Ppa) (inside : lpn < p.zpp.ttLpns) :
    setMaptblEnt p ftl lpn ppa = { ftl with maptbl := Function.update ftl.maptbl lpn ppa } := if_pos inside

theorem drop_mapping_table (ftl : ZmsFtl) (lpn : Nat) (page : Page) :
    (dropMapping p ftl lpn page).maptbl = Function.update ftl.maptbl lpn .unmapped := by
  unfold dropMapping unmapLpn
  have same : (setRmapEnt p (markPageInvalid p ftl page) none page).maptbl = ftl.maptbl := by
    unfold setRmapEnt
    split <;> rfl
  dsimp only
  rw [same]

theorem drop_mapping_mapped (ftl : ZmsFtl) (lpn : Nat) (page : Page) (other : Nat) :
    Mapped p (dropMapping p ftl lpn page) other ↔ Mapped p ftl other ∧ other ≠ lpn := by
  unfold Mapped getMaptblEnt
  rw [drop_mapping_table]
  by_cases same : other = lpn
  · rw [same, Function.update_self]
    split <;> simp [mappedPpa]
  · rw [Function.update_of_ne same]
    split
    · simp [same]
    · simp [mappedPpa]

theorem drop_if_mapped_mapped (ftl : ZmsFtl) (lpn other : Nat) :
    Mapped p (dropIfMapped p ftl lpn) other ↔ Mapped p ftl other ∧ other ≠ lpn := by
  unfold dropIfMapped
  split
  · exact drop_mapping_mapped p ftl lpn _ other
  · rename_i unmapped
    have absent : ¬Mapped p ftl lpn := by
      rw [mapped_entry]
      rintro ⟨page, map, entry⟩
      exact unmapped page map entry
    constructor
    · intro mapped
      refine ⟨mapped, fun same => ?_⟩
      rw [same] at mapped
      exact absent mapped
    · exact fun both => both.1

end Entries

end ConZone
