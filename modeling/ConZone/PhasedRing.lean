import ConZone.WrapAround
import Mathlib.Logic.Function.Basic

set_option autoImplicit false

-- A ring of slots between one writer and one reader. The reader tells a new
-- item from an old one by a tag that changes from one pass to the next.
namespace PhasedRing

variable {α : Type}

structure Kept (size : Nat) (slots : Nat → α) (items : List α) (start : Nat) : Prop where
  near : items.length ≤ start + size
  placed : ∀ k item, items[k]? = some item → start ≤ k → slots (k % size) = item

-- true on the first pass over the ring and on every other one from there.
def lap (size k : Nat) : Bool := decide (k / size % 2 = 0)

-- The last items are in their slots with the tag of their pass, and a slot that
-- has had none is not tagged.
structure Tagged (size : Nat) (tag : α → Bool) (slots : Nat → α) (items : List α) : Prop where
  kept : Kept size slots items (items.length - size)
  tagged : ∀ k item, items[k]? = some item → tag item = lap size k
  blank : ∀ slot, items.length ≤ slot → slot < size → tag (slots slot) = false

theorem appended_item (items : List α) (item : α) (k : Nat) (other : α) (there : (items ++ [item])[k]? = some other) :
    items[k]? = some other ∨ k = items.length ∧ item = other := by
  rcases Nat.lt_trichotomy k items.length with before | last | past
  · rw [List.getElem?_append_left before] at there
    exact .inl there
  · subst last
    simp at there
    exact .inr ⟨rfl, there⟩
  · rw [List.getElem?_eq_none (by simp; omega)] at there
    cases there

section Slots

variable (size : Nat) (slots : Nat → α) (items : List α) (start : Nat)

theorem kept_start : Kept size slots [] 0 := ⟨by simp, by simp⟩

theorem kept_pass (later : Nat) (kept : Kept size slots items start) (onward : start ≤ later) : Kept size slots items later :=
  ⟨by have near := kept.near; omega, fun k item there reached => kept.placed k item there (by omega)⟩

theorem kept_push (item : α) (kept : Kept size slots items start) (room : items.length < start + size) :
    Kept size (Function.update slots (items.length % size) item) (items ++ [item]) start := by
  refine ⟨by simp; omega, fun k other there reached => ?_⟩
  rcases appended_item items item k other there with old | ⟨last, same⟩
  · have before := (List.getElem?_eq_some_iff.mp old).1
    have apart := WrapAround.positions_apart size k items.length before (by omega)
    rw [Function.update_of_ne apart]
    exact kept.placed k other old reached
  · rw [last, Function.update_self, same]

theorem kept_item (kept : Kept size slots items start) (k : Nat) (reached : start ≤ k) (inside : k < items.length) :
    slots (k % size) = items[k] :=
  kept.placed k items[k] (List.getElem?_eq_getElem inside) reached

end Slots

section Tags

variable (size : Nat) (tag : α → Bool) (slots : Nat → α) (items : List α)

theorem lap_first (slot : Nat) (inside : slot < size) : lap size slot = true := by
  simp [lap, Nat.div_eq_of_lt inside]

theorem lap_changes (k : Nat) (positive : 0 < size) : lap size (k + size) = !lap size k := by
  simp only [lap, Nat.add_div_right k positive]
  rcases Nat.mod_two_eq_zero_or_one (k / size) with even | odd
  · simp [even, Nat.add_mod]
  · simp [odd, Nat.add_mod]

theorem tagged_start (blank : ∀ slot, slot < size → tag (slots slot) = false) : Tagged size tag slots [] :=
  ⟨by simpa using kept_start size slots, by simp, fun slot _ inside => blank slot inside⟩

theorem tagged_push (item : α) (ring : Tagged size tag slots items) (fits : tag item = lap size items.length) :
    Tagged size tag (Function.update slots (items.length % size) item) (items ++ [item]) := by
  have near := ring.kept.near
  refine ⟨?_, fun k other there => ?_, fun slot past inside => ?_⟩
  · rw [List.length_append, List.length_singleton]
    have passed := kept_pass size slots items _ (items.length + 1 - size) ring.kept (by omega)
    exact kept_push size slots items _ item passed (by omega)
  · rcases appended_item items item k other there with old | ⟨last, same⟩
    · exact ring.tagged k other old
    · rw [last, ← same, fits]
  · rw [List.length_append, List.length_singleton] at past
    have apart : slot ≠ items.length % size := by
      rw [Nat.mod_eq_of_lt (show items.length < size by omega)]
      omega
    rw [Function.update_of_ne apart]
    exact ring.blank slot (by omega) inside

variable (taken : Nat)

theorem head_item (ring : Tagged size tag slots items) (near : items.length ≤ taken + size) (waiting : taken < items.length) :
    slots (taken % size) = items[taken] :=
  kept_item size slots items _ ring.kept taken (by omega) waiting

-- The reader looks at the slot after those it has taken: the tag there is that
-- of its own pass just when an item waits.
theorem head_shows (ring : Tagged size tag slots items) (positive : 0 < size) (behind : taken ≤ items.length)
    (near : items.length ≤ taken + size) : tag (slots (taken % size)) = lap size taken ↔ taken < items.length := by
  constructor
  · intro shown
    rcases Nat.lt_or_ge taken items.length with waiting | empty
    · exact waiting
    · have all : taken = items.length := Nat.le_antisymm behind empty
      rcases Nat.lt_or_ge taken size with first | later
      · -- The slot has never been written.
        rw [Nat.mod_eq_of_lt first, ring.blank taken empty first, lap_first size taken first] at shown
        cases shown
      · -- The slot holds the item of one pass before.
        obtain ⟨earlier, split⟩ := Nat.exists_eq_add_of_le' later
        have inside : earlier < items.length := by omega
        have held : slots (taken % size) = items[earlier] := by
          rw [split, Nat.add_mod_right]
          exact kept_item size slots items _ ring.kept earlier (by omega) inside
        rw [held, ring.tagged earlier items[earlier] (List.getElem?_eq_getElem inside), split, lap_changes size earlier positive] at shown
        cases same : lap size earlier <;> rw [same] at shown <;> cases shown
  · intro waiting
    rw [head_item size tag slots items taken ring near waiting]
    exact ring.tagged taken items[taken] (List.getElem?_eq_getElem waiting)

end Tags

end PhasedRing
