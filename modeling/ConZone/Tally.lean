import Mathlib.Data.Nat.Count
import Mathlib.Data.Finset.Card
import Mathlib.Logic.Function.Basic

set_option autoImplicit false

-- Counting the slots of a table whose entry has a property, while entries change.
namespace Tally

variable {α : Type} (property : α → Prop) [DecidablePred property]

theorem count_congr (table other : Nat → α) (bound : Nat) (same : ∀ slot, slot < bound → other slot = table slot) :
    Nat.count (fun slot => property (other slot)) bound = Nat.count (fun slot => property (table slot)) bound := by
  induction bound with
  | zero => rfl
  | succ bound ih =>
      rw [Nat.count_succ, Nat.count_succ, ih fun slot inside => same slot (by omega), same bound (by omega)]

theorem count_update (table : Nat → α) (slot bound : Nat) (entry : α) (inside : slot < bound) :
    Nat.count (fun index => property (Function.update table slot entry index)) bound + (if property (table slot) then 1 else 0) =
      Nat.count (fun index => property (table index)) bound + (if property entry then 1 else 0) := by
  induction bound with
  | zero => omega
  | succ bound ih =>
      rw [Nat.count_succ, Nat.count_succ]
      by_cases last : slot = bound
      · rw [last, Function.update_self, count_congr property table (Function.update table bound entry) bound
          fun index below => Function.update_of_ne (by omega) entry table]
        omega
      · rw [Function.update_of_ne (Ne.symm last)]
        have counted := ih (by omega)
        omega

theorem count_positive (table : Nat → α) (slot bound : Nat) (inside : slot < bound) (holds : property (table slot)) :
    0 < Nat.count (fun index => property (table index)) bound :=
  Nat.pos_of_ne_zero (Nat.count_ne_iff_exists.mpr ⟨slot, inside, holds⟩)

theorem count_below (table : Nat → α) (slot bound : Nat) (inside : slot < bound) (fails : ¬property (table slot)) :
    Nat.count (fun index => property (table index)) bound < bound := by
  refine Nat.lt_of_le_of_ne (Nat.count_le _) fun all => ?_
  exact fails (Nat.count_iff_forall.mp all slot inside)

section Census

variable {ι β : Type} [DecidableEq β]

def census (items : Finset ι) (kind : ι → β) (value : β) : Nat := (items.filter fun item => kind item = value).card

theorem census_congr (items : Finset ι) (kind other : ι → β) (value : β) (same : ∀ item ∈ items, other item = kind item) :
    census items other value = census items kind value := by
  unfold census
  congr 1
  apply Finset.filter_congr
  intro item member
  rw [same item member]

theorem census_all (items : Finset ι) (kind : ι → β) (value : β) (all : ∀ item ∈ items, kind item = value) :
    census items kind value = items.card := by
  unfold census
  rw [Finset.filter_true_of_mem all]

theorem census_whole (items : Finset ι) (kind : ι → β) (value : β) (whole : census items kind value = items.card) :
    ∀ item ∈ items, kind item = value :=
  Finset.card_filter_eq_iff.mp whole

theorem census_none (items : Finset ι) (kind : ι → β) (value : β) (none : ∀ item ∈ items, kind item ≠ value) :
    census items kind value = 0 := by
  unfold census
  rw [Finset.filter_false_of_mem none, Finset.card_empty]

theorem census_positive (items : Finset ι) (kind : ι → β) (item : ι) (inside : item ∈ items) :
    0 < census items kind (kind item) :=
  Finset.card_pos.mpr ⟨item, Finset.mem_filter.mpr ⟨inside, rfl⟩⟩

theorem census_le (items : Finset ι) (kind : ι → β) (value : β) : census items kind value ≤ items.card := Finset.card_filter_le _ _

variable [DecidableEq ι]

theorem census_pair_le (items : Finset ι) (kind : ι → β) (value other : β) (apart : value ≠ other) :
    census items kind value + census items kind other ≤ items.card := by
  unfold census
  rw [← Finset.card_union_of_disjoint]
  · exact Finset.card_le_card (Finset.union_subset (Finset.filter_subset _ _) (Finset.filter_subset _ _))
  · apply Finset.disjoint_filter.mpr
    intro item _ first second
    exact apart (first.symm.trans second)

theorem census_pair_whole (items : Finset ι) (kind : ι → β) (value other : β) (apart : value ≠ other)
    (either : ∀ item ∈ items, kind item = value ∨ kind item = other) : census items kind value + census items kind other = items.card := by
  unfold census
  rw [← Finset.card_union_of_disjoint, ← Finset.filter_or, Finset.filter_true_of_mem either]
  apply Finset.disjoint_filter.mpr
  intro item _ first second
  exact apart (first.symm.trans second)

theorem census_outside (items : Finset ι) (kind : ι → β) (item : ι) (entry value : β) (outside : item ∉ items) :
    census items (Function.update kind item entry) value = census items kind value := by
  apply census_congr
  intro other member
  apply Function.update_of_ne
  rintro rfl
  exact outside member

theorem census_split (items : Finset ι) (kind : ι → β) (item : ι) (value : β) (inside : item ∈ items) :
    census items kind value = census (items.erase item) kind value + if kind item = value then 1 else 0 := by
  unfold census
  rw [Finset.filter_erase]
  split
  · rename_i counted
    have member : item ∈ items.filter fun item => kind item = value := Finset.mem_filter.mpr ⟨inside, counted⟩
    exact (Finset.card_erase_add_one member).symm
  · rename_i uncounted
    rw [Finset.erase_eq_of_notMem (by simp [uncounted]), Nat.add_zero]

theorem census_update (items : Finset ι) (kind : ι → β) (item : ι) (entry value : β) (inside : item ∈ items) :
    census items (Function.update kind item entry) value + (if kind item = value then 1 else 0) =
      census items kind value + if entry = value then 1 else 0 := by
  have apart := census_outside (items.erase item) kind item entry value (Finset.notMem_erase item items)
  rw [census_split items kind item value inside, census_split items _ item value inside, apart, Function.update_self]
  omega

end Census

end Tally
