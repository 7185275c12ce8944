import ConZone.WrapAround
import Mathlib.Algebra.BigOperators.Intervals
import Mathlib.Data.Nat.Basic

set_option autoImplicit false

-- A ring of credits of which only a window behind the head has been drawn on.
namespace CreditRing

variable (size : Nat)

def slot (base steps : Nat) : Nat := (base + steps) % size

structure Window (full head len : Nat) (credits : Nat → Nat) : Prop where
  headInside : head < size
  lenInside : len ≤ size
  most : ∀ entry, entry < size → credits entry ≤ full
  outside : ∀ steps, len ≤ steps → steps < size → credits (slot size head steps) = full

theorem window_start (full : Nat) (some : 0 < size) : Window size full 0 0 fun _ => full :=
  ⟨some, Nat.zero_le size, fun _ _ => Nat.le_refl full, fun _ _ _ => rfl⟩

def behind (head entry : Nat) : Nat := (entry + size - head) % size

theorem behind_entry (head entry : Nat) (headInside : head < size) (inside : entry < size) :
    behind size head entry < size ∧ slot size head (behind size head entry) = entry := by
  have some : 0 < size := by omega
  have place := WrapAround.ahead size head entry inside
  rw [Nat.mod_eq_of_lt headInside] at place
  exact ⟨Nat.mod_lt _ some, place⟩

theorem behind_slot (head steps : Nat) (headInside : head < size) (inside : steps < size) :
    behind size head (slot size head steps) = steps := by
  unfold behind slot
  by_cases wraps : head + steps < size
  · rw [Nat.mod_eq_of_lt wraps]
    have split : head + steps + size - head = steps + size := by omega
    rw [split, Nat.add_mod_right, Nat.mod_eq_of_lt inside]
  · have below : (head + steps) % size = head + steps - size := by
      rw [Nat.mod_eq_sub_mod (by omega), Nat.mod_eq_of_lt (by omega)]
    rw [below]
    have split : head + steps - size + size - head = steps := by omega
    rw [split, Nat.mod_eq_of_lt inside]

theorem window_entries (full head len : Nat) (credits : Nat → Nat) (window : Window size full head len credits) (entry : Nat)
    (inside : entry < size) (far : len ≤ behind size head entry) : credits entry = full := by
  obtain ⟨near, place⟩ := behind_entry size head entry window.headInside inside
  rw [← place]
  exact window.outside _ far near

theorem window_advance (full head len offs : Nat) (credits filled : Nat → Nat) (window : Window size full head len credits)
    (within : offs ≤ len) (fills : ∀ steps, steps < offs → filled (slot size head steps) = full)
    (keeps : ∀ entry, entry < size → filled entry = full ∨ filled entry = credits entry) :
    Window size full (slot size head offs) (len - offs) filled := by
  have some : 0 < size := Nat.lt_of_le_of_lt (Nat.zero_le head) window.headInside
  have bound := window.lenInside
  refine ⟨Nat.mod_lt _ some, Nat.le_trans (Nat.sub_le len offs) bound, ?_, ?_⟩
  · intro entry inside
    cases keeps entry inside with
    | inl new => exact Nat.le_of_eq new
    | inr old =>
        rw [old]
        exact window.most entry inside
  · intro steps far inside
    have moved : slot size (slot size head offs) steps = slot size head (offs + steps) := by
      unfold slot
      rw [Nat.mod_add_mod, Nat.add_assoc]
    rw [moved]
    by_cases around : offs + steps < size
    · have entry : slot size head (offs + steps) < size := Nat.mod_lt _ some
      cases keeps _ entry with
      | inl new => exact new
      | inr old =>
          rw [old]
          exact window.outside (offs + steps) (by omega) around
    · have again : slot size head (offs + steps) = slot size head (offs + steps - size) := by
        unfold slot
        have split : head + (offs + steps) = head + (offs + steps - size) + size := by omega
        rw [split, Nat.add_mod_right]
      rw [again]
      exact fills _ (by omega)

-- What a request for some units takes from the slots in a row that start at
-- base: all of each slot but the last, and all that is needed unless the room
-- there is ends first.
structure Taken (base room units : Nat) (before after : Nat → Nat) (slots : Nat) : Prop where
  some : 0 < slots
  inside : slots ≤ room
  elsewhere : ∀ entry, (∀ i, i < slots → entry ≠ slot size base i) → after entry = before entry
  emptied : ∀ i, i + 1 < slots → after (slot size base i) = 0
  less : ∀ entry, after entry ≤ before entry
  most : (Finset.range slots).sum (fun i => before (slot size base i) - after (slot size base i)) ≤ units
  exact : slots = room ∨ (Finset.range slots).sum (fun i => before (slot size base i) - after (slot size base i)) = units

theorem taken_last (base room units taken : Nat) (before after : Nat → Nat) (roomy : 0 < room)
    (all : taken = min units (before (slot size base 0))) (drawn : after = Function.update before (slot size base 0) (before (slot size base 0) - taken))
    (ends : units - taken = 0 ∨ room = 1) : Taken size base room units before after 1 := by
  have here : after (slot size base 0) = before (slot size base 0) - taken := by
    rw [drawn, Function.update_self]
  have sum : (Finset.range 1).sum (fun i => before (slot size base i) - after (slot size base i)) = taken := by
    rw [Finset.sum_range_one, here]
    omega
  refine ⟨Nat.one_pos, roomy, ?_, ?_, ?_, ?_, ?_⟩
  · intro entry apart
    rw [drawn, Function.update_of_ne (apart 0 Nat.one_pos)]
  · intro i below
    omega
  · intro entry
    by_cases same : entry = slot size base 0
    · rw [same, here]
      exact Nat.sub_le _ _
    · rw [drawn, Function.update_of_ne same]
  · rw [sum]
    omega
  · rw [sum]
    omega

theorem taken_more (base room units slots : Nat) (before middle after : Nat → Nat) (near : room ≤ size)
    (short : before (slot size base 0) < units) (drawn : middle = Function.update before (slot size base 0) 0)
    (rest : Taken size (base + 1) (room - 1) (units - before (slot size base 0)) middle after slots) :
    Taken size base room units before after (slots + 1) := by
  have bound := rest.inside
  have some := rest.some
  have shift : ∀ i, slot size (base + 1) i = slot size base (i + 1) := by
    intro i
    unfold slot
    congr 1
    omega
  have apart : ∀ i, i < slots → slot size base 0 ≠ slot size base (i + 1) := by
    intro i below
    exact WrapAround.positions_apart size (base + 0) (base + (i + 1)) (by omega) (by omega)
  have first : after (slot size base 0) = 0 := by
    rw [rest.elsewhere (slot size base 0), drawn, Function.update_self]
    intro i below
    rw [shift]
    exact apart i below
  have same : ∀ i, i < slots → middle (slot size base (i + 1)) = before (slot size base (i + 1)) := by
    intro i below
    rw [drawn, Function.update_of_ne (apart i below).symm]
  have sum : (Finset.range (slots + 1)).sum (fun i => before (slot size base i) - after (slot size base i)) =
      (Finset.range slots).sum (fun i => middle (slot size (base + 1) i) - after (slot size (base + 1) i)) + before (slot size base 0) := by
    rw [Finset.sum_range_succ', first, Nat.sub_zero]
    congr 1
    apply Finset.sum_congr rfl
    intro i member
    rw [shift, same i (Finset.mem_range.mp member)]
  refine ⟨Nat.succ_pos slots, by omega, ?_, ?_, ?_, ?_, ?_⟩
  · intro entry elsewhere
    rw [rest.elsewhere entry, drawn, Function.update_of_ne (elsewhere 0 (Nat.succ_pos slots))]
    intro i below
    rw [shift]
    exact elsewhere (i + 1) (by omega)
  · intro i below
    cases i with
    | zero => exact first
    | succ i =>
        rw [← shift]
        exact rest.emptied i (by omega)
  · intro entry
    apply Nat.le_trans (rest.less entry)
    rw [drawn]
    by_cases same : entry = slot size base 0
    · rw [same, Function.update_self]
      exact Nat.zero_le _
    · rw [Function.update_of_ne same]
  · have most := rest.most
    rw [sum]
    omega
  · rw [sum]
    cases rest.exact with
    | inl full => exact .inl (by omega)
    | inr all => exact .inr (by omega)

theorem window_taken (full head len offs units slots : Nat) (before after : Nat → Nat) (window : Window size full head len before)
    (taken : Taken size (head + offs) (size - offs) units before after slots) :
    Window size full head (max len (offs + slots)) after := by
  have bound := window.lenInside
  have inside := taken.inside
  have some := taken.some
  refine ⟨window.headInside, by omega, fun entry below => Nat.le_trans (taken.less entry) (window.most entry below), ?_⟩
  intro steps far below
  rw [taken.elsewhere]
  · exact window.outside steps (by omega) below
  · intro i near
    unfold slot
    exact (WrapAround.positions_apart size (head + offs + i) (head + steps) (by omega) (by omega)).symm

end CreditRing
