import Mathlib.Tactic.Ring
import Mathlib.Data.Nat.ModEq

set_option autoImplicit false

-- Counting in a mixed radix: what adding one does to a digit and to the rest.
namespace Radix

theorem div_digit (high low radix : Nat) (digit : low < radix) : (high * radix + low) / radix = high := by
  rw [Nat.mul_comm, Nat.mul_add_div (by omega), Nat.div_eq_of_lt digit, Nat.add_zero]

theorem mod_digit (high low radix : Nat) (digit : low < radix) : (high * radix + low) % radix = low := by
  rw [Nat.mul_comm, Nat.mul_add_mod, Nat.mod_eq_of_lt digit]

theorem digits (value radix : Nat) : value / radix * radix + value % radix = value := by
  rw [Nat.mul_comm]
  exact Nat.div_add_mod value radix

theorem succ_inner (value radix : Nat) (inner : value % radix + 1 ≠ radix) (positive : 0 < radix) :
    (value + 1) / radix = value / radix ∧ (value + 1) % radix = value % radix + 1 := by
  have bound := Nat.mod_lt value positive
  have split := digits value radix
  have next : value + 1 = value / radix * radix + (value % radix + 1) := by omega
  have digit : value % radix + 1 < radix := by omega
  rw [next]
  exact ⟨div_digit _ _ _ digit, mod_digit _ _ _ digit⟩

theorem succ_carry (value radix : Nat) (carry : value % radix + 1 = radix) :
    (value + 1) / radix = value / radix + 1 ∧ (value + 1) % radix = 0 := by
  have split := digits value radix
  have next : value + 1 = (value / radix + 1) * radix + 0 := by
    rw [Nat.add_mul]
    omega
  have positive : 0 < radix := by omega
  rw [next]
  exact ⟨div_digit _ _ _ positive, mod_digit _ _ _ positive⟩

theorem digit_bound (value high radix : Nat) (bound : value < high * radix) : value / radix < high := by
  exact Nat.div_lt_of_lt_mul (by rwa [Nat.mul_comm] at bound)

theorem pair_bound (high low top radix : Nat) (highBound : high < top) (digit : low < radix) : high * radix + low < top * radix := by
  calc high * radix + low < high * radix + radix := by omega
    _ = (high + 1) * radix := by ring
    _ ≤ top * radix := Nat.mul_le_mul_right _ highBound

theorem pair_unique (high low other lower radix : Nat) (digit : low < radix) (otherDigit : lower < radix)
    (same : high * radix + low = other * radix + lower) : high = other ∧ low = lower := by
  constructor
  · rw [← div_digit high low radix digit, same, div_digit _ _ _ otherDigit]
  · rw [← mod_digit high low radix digit, same, mod_digit _ _ _ otherDigit]

theorem spread_mono (spread : Nat → Nat) (increases : ∀ high other, high < other → spread high < spread other) (value later radix : Nat)
    (positive : 0 < radix) (order : value ≤ later) :
    spread (value / radix) * radix + value % radix ≤ spread (later / radix) * radix + later % radix := by
  rcases Nat.lt_or_eq_of_le (Nat.div_le_div_right (c := radix) order) with less | same
  · have below := pair_bound _ (value % radix) _ radix (increases _ _ less) (Nat.mod_lt value positive)
    omega
  · have lower := digits value radix
    have upper := digits later radix
    rw [same] at lower ⊢
    omega

theorem succ_bound (value count radix : Nat) (inside : value < count * radix) (positive : 0 < radix) :
    value + 1 < count * radix ↔ value % radix + 1 ≠ radix ∨ value / radix + 1 < count := by
  have high := digit_bound value count radix inside
  have low := Nat.mod_lt value positive
  have split := digits value radix
  by_cases carry : value % radix + 1 = radix
  · have next : value + 1 = (value / radix + 1) * radix := by
      rw [Nat.add_mul]
      omega
    rw [next]
    have less := Nat.mul_lt_mul_right (a := radix) (b := value / radix + 1) (c := count) positive
    simp [carry, less]
  · have bound := pair_bound (value / radix) (value % radix + 1) count radix high (by omega)
    have next : value + 1 = value / radix * radix + (value % radix + 1) := by omega
    rw [next]
    simp [carry, bound]

theorem last_digits (count radix : Nat) (some : 0 < count) (positive : 0 < radix) :
    count * radix - 1 = (count - 1) * radix + (radix - 1) := by
  obtain ⟨before, same⟩ := Nat.exists_eq_add_of_le' some
  rw [same, Nat.add_mul, Nat.one_mul, Nat.add_sub_cancel]
  omega

end Radix
