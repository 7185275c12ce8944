import ConZone.ZoneClear

set_option autoImplicit false

namespace ConZone

open Tally

section Start

variable (p : Params) (loc : Loc)

-- Before the lines are counted in, none is kept anywhere.
def unhoused (p : Params) (ref : LineRef) : Home := if ref ∈ lineRefs p then .out else .beyond

theorem empty_housed : Housed p loc emptyLineMgmt (unhoused p) [] [] := by
  have never : ∀ (label : Home) (ref : LineRef), label ≠ .out → label ≠ .beyond → unhoused p ref ≠ label := by
    intro label ref out beyond
    unfold unhoused
    split
    · exact out.symm
    · exact beyond.symm
  refine ⟨⟨⟨⟨rfl, rfl, trivial⟩, List.nodup_singleton _⟩, ⟨⟨rfl, rfl, trivial⟩, List.nodup_singleton _⟩, ?_, ?_, ?_, fun _ _ => rfl⟩, rfl,
    rfl, rfl, ?_⟩
  · intro ref
    exact iff_of_false List.not_mem_nil (never .free ref (by decide) (by decide))
  · intro ref
    exact iff_of_false List.not_mem_nil (never .full ref (by decide) (by decide))
  · refine ⟨Nat.le_refl 1, fun slot first last => ?_, fun ref queued => absurd queued (never .victim ref (by decide) (by decide))⟩
    change slot < 1 at last
    omega
  · intro ref
    unfold unhoused
    split
    · rename_i listed
      exact iff_of_true (by decide) listed
    · rename_i absent
      exact iff_of_false (fun apart => apart rfl) absent

variable (few : (lineRefs p).length < 2 ^ 32)

include few in
theorem lines_added (refs : List LineRef) (distinct : refs.Nodup) (lm : LineMgmt) (home : LineRef → Home) (free : List LineRef)
    (housed : Housed p loc lm home free []) (out : ∀ ref ∈ refs, home ref = .out) (locs : ∀ ref ∈ refs, initLoc p ref = loc) :
    ∃ home', Housed p loc (refs.foldl (fun lm ref => addFree lm (initLoc p ref) ref) lm) home' (free ++ refs) [] ∧
      (∀ ref, home' ref = if ref ∈ refs then .free else home ref) ∧
      (refs.foldl (fun lm ref => addFree lm (initLoc p ref) ref) lm).lines = lm.lines := by
  induction refs generalizing lm home free with
  | nil => exact ⟨home, by simpa using housed, by simp, rfl⟩
  | cons ref rest ih =>
      obtain ⟨absent, distinct⟩ := List.nodup_cons.mp distinct
      have here := out ref List.mem_cons_self
      have added := add_free_housed p loc few lm home free [] ref housed (by rw [here]; exact out_outside) (by rw [here]; decide)
      obtain ⟨home', all, homes, lines⟩ := ih distinct (addFree lm loc ref) _ (free ++ [ref]) added
        (fun other member => by
          have apart : other ≠ ref := fun same => absent (same ▸ member)
          rw [Function.update_of_ne apart]
          exact out other (List.mem_cons_of_mem ref member))
        (fun other member => locs other (List.mem_cons_of_mem ref member))
      rw [List.foldl_cons, locs ref List.mem_cons_self]
      refine ⟨home', ?_, ?_, lines⟩
      · rwa [List.append_assoc, List.singleton_append] at all
      · intro other
        rw [homes]
        by_cases same : other = ref
        · simp [same]
        · simp [same]

variable (regular : Regular p loc)

include regular in
theorem start_sound (locs : ∀ ref ∈ lineRefs p, initLoc p ref = loc) (clock : Nat → Nat) :
    ∃ home, MediaSound p loc (zmsRealizeFtl p clock) home (fun _ => 0) (fun _ => 0) ∧
      (∀ ref, ((zmsRealizeFtl p clock).lm.lines ref) = initLine) ∧ ∀ ref, home ref = .free ∨ home ref = .beyond := by
  obtain ⟨home, housed, homes, lines⟩ := lines_added p loc regular.few (lineRefs p) (line_refs_distinct p) _ _ [] (empty_housed p loc)
    (fun ref listed => if_pos listed) locs
  have counts : ∀ ref, (zmsRealizeFtl p clock).lm.lines ref = initLine := fun ref => congrFun lines ref
  have places : ∀ ref, home ref = .free ∨ home ref = .beyond := by
    intro ref
    rw [homes]
    split
    · exact .inl rfl
    · rename_i absent
      exact .inr (if_neg absent)
  have blank : ∀ page, pageStatus (zmsRealizeFtl p clock) page = .free := fun _ => rfl
  have absent : ∀ lpn page, ¬OnPage p (zmsRealizeFtl p clock) lpn page := fun lpn page there => nomatch there.2
  have empty : ∀ (pages : Finset Page) (status : PageStatus), status ≠ .free → census pages (pageStatus (zmsRealizeFtl p clock)) status = 0 := by
    intro pages status apart
    unfold census
    rw [Finset.card_eq_zero, Finset.filter_eq_empty_iff]
    intro page _
    rw [blank]
    exact apart.symm
  refine ⟨home, ⟨⟨fun page _ _ => blank page, fun page _ below => absurd below (Nat.not_lt_zero _), ?_, fun lpn page there =>
    absurd there (absent lpn page)⟩, ⟨?_, ?_, ?_, ?_⟩, ⟨⟨lineRefs p, [], housed⟩, ?_, nofun, ?_, ?_, ?_, ?_, ?_, ?_, ?_⟩⟩, counts, places⟩
  · intro page _
    rw [blank]
    exact iff_of_false nofun fun ⟨lpn, there⟩ => absent lpn page there
  · intro ref _
    rw [counts, empty _ .valid nofun]
    rfl
  · intro ref _
    rw [counts, empty _ .invalid nofun]
    rfl
  · intro block _
    rw [empty _ .valid nofun]
    rfl
  · intro block _
    rw [empty _ .invalid nofun]
    rfl
  · intro name ref
    refine iff_of_false (fun cur => ?_) nofun
    rcases places ref with here | here
    · rw [here] at cur
      cases cur
    · rw [here] at cur
      cases cur
  · intro name ref cur
    rcases places ref with here | here
    · rw [here] at cur
      cases cur
    · rw [here] at cur
      cases cur
  · intro ref _
    rw [counts]
    exact ⟨rfl, rfl⟩
  · intro ref spent
    rcases places ref with here | here
    · rw [here] at spent
      simp at spent
    · rw [here] at spent
      simp at spent
  · intro ref full
    rcases places ref with here | here
    · rw [here] at full
      cases full
    · rw [here] at full
      cases full
  · intro ref dirty
    rcases places ref with here | here
    · rw [here] at dirty
      simp at dirty
    · rw [here] at dirty
      simp at dirty
  · intro ref _
    rw [counts]
    exact ⟨Int.le_refl 0, .inl rfl⟩
  · intro ref _
    rw [counts]
    rfl

end Start

section Resting

theorem slc_start (p : Params) (regular : Regular p .pslc) (locs : ∀ ref ∈ lineRefs p, initLoc p ref = .pslc)
    (clock : Nat → Nat) : SlcResting p (zmsRealizeFtl p clock) := by
  obtain ⟨home, sound, counts, places⟩ := start_sound p .pslc regular locs clock
  refine ⟨home, fun _ => 0, ⟨⟨realize_bounded p regular.medium clock, rfl⟩, sound, fun ref _ => ?_⟩, fun ref out => ?_⟩
  · rw [counts]
    rfl
  · rcases places ref with here | here
    · rw [here] at out
      cases out
    · rw [here] at out
      cases out

theorem tlc_start (p : Params) (regular : Regular p .normal) (locs : ∀ ref ∈ lineRefs p, initLoc p ref = .normal)
    (clock : Nat → Nat) : TlcResting p (zmsRealizeFtl p clock) := by
  obtain ⟨home, sound, counts, places⟩ := start_sound p .normal regular locs clock
  refine ⟨home, fun _ => 0, ⟨⟨realize_bounded p regular.medium clock, rfl⟩, sound, fun ref _ => ?_, fun ref _ => ?_, fun ref out => ?_,
    fun ref name there => ?_, fun zid _ => .inl fun i _ there => ?_⟩⟩
  · rw [counts]
    rfl
  · rw [counts]
    exact .inl ⟨rfl, rfl⟩
  · rcases places ref with here | here
    · rw [here] at out
      cases out
    · rw [here] at out
      cases out
  · rcases places ref with here | here
    · rw [here] at there
      cases there
    · rw [here] at there
      cases there
  · obtain ⟨page, map, entry⟩ := (mapped_entry p _ _).mp there
    unfold getMaptblEnt at entry
    split at entry
    · cases entry
    · cases entry

end Resting

end ConZone
