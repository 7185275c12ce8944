import Mathlib.Data.Nat.ModEq
import Mathlib.Data.Int.ModEq

set_option autoImplicit false

-- Positions in a ring of slots, told by how many slots have been passed since
-- the start.
namespace WrapAround

section Positions

variable (size : Nat)

theorem next_position (size total : Nat) (some : 0 < size) :
    (if total % size + 1 = size then 0 else total % size + 1) = (total + 1) % size := by
  have inside := Nat.mod_lt total some
  rw [Nat.add_mod]
  by_cases one : size = 1
  · subst one
    simp [Nat.mod_one]
  · rw [Nat.mod_eq_of_lt (by omega : 1 < size)]
    by_cases wraps : total % size + 1 = size
    · rw [if_pos wraps, wraps, Nat.mod_self]
    · rw [if_neg wraps, Nat.mod_eq_of_lt (show total % size + 1 < size by omega)]

theorem distance (front back : Nat) (order : back ≤ front) (near : front < back + size) :
    (if (front % size : Int) - (back % size : Int) < 0 then (front % size : Int) - (back % size : Int) + size
      else (front % size : Int) - (back % size : Int)) = ((front - back : Nat) : Int) := by
  have some : 0 < size := by omega
  have frontInside := Nat.mod_lt front some
  have backInside := Nat.mod_lt back some
  have split : (back % size + (front - back)) % size = front % size := by
    rw [Nat.mod_add_mod]
    congr 1
    omega
  by_cases wraps : back % size + (front - back) < size
  · rw [Nat.mod_eq_of_lt wraps] at split
    split_ifs <;> omega
  · rw [Nat.mod_eq_sub_mod (by omega), Nat.mod_eq_of_lt (by omega)] at split
    split_ifs <;> omega

theorem ahead (total position : Nat) (inside : position < size) :
    (total + (position + size - total % size) % size) % size = position := by
  have some : 0 < size := by omega
  have below := Nat.mod_lt total some
  calc (total + (position + size - total % size) % size) % size
      = (total % size + (position + size - total % size)) % size := by rw [Nat.add_mod_mod, Nat.mod_add_mod]
    _ = (position + size) % size := by congr 1; omega
    _ = position := by rw [Nat.add_mod_right, Nat.mod_eq_of_lt inside]

theorem positions_apart (first second : Nat) (order : first < second) (near : second < first + size) :
    first % size ≠ second % size := by
  intro same
  have divides : size ∣ second - first := (Nat.modEq_iff_dvd' (Nat.le_of_lt order)).mp same
  have longer := Nat.le_of_dvd (by omega) divides
  omega

end Positions

end WrapAround
