import Mathlib.Algebra.Order.BigOperators.Group.List
import Mathlib.Algebra.Order.Ring.Nat

set_option autoImplicit false

-- Items collected into batches: an item that ends a batch sends off what waits,
-- itself included, but never more than the batch can hold. The rest is lost.
namespace Batches

variable {α : Type} (ends : α → Bool) (cap : α → Nat)

def sent : Nat → List α → Nat
  | _, [] => 0
  | waiting, item :: rest =>
      if ends item then min (waiting + 1) (cap item) + sent 0 rest else sent (waiting + 1) rest

def left : Nat → List α → Nat
  | waiting, [] => waiting
  | waiting, item :: rest => left (if ends item then 0 else waiting + 1) rest

def Whole : Nat → List α → Prop
  | waiting, [] => waiting = 0
  | waiting, item :: rest =>
      if ends item then waiting + 1 ≤ cap item ∧ Whole 0 rest else Whole (waiting + 1) rest

instance decidableWhole : ∀ (waiting : Nat) (items : List α), Decidable (Whole ends cap waiting items)
  | waiting, [] => inferInstanceAs (Decidable (waiting = 0))
  | waiting, item :: rest =>
      have := decidableWhole 0 rest
      have := decidableWhole (waiting + 1) rest
      inferInstanceAs (Decidable (if ends item then waiting + 1 ≤ cap item ∧ Whole ends cap 0 rest else Whole ends cap (waiting + 1) rest))

theorem sent_append (waiting : Nat) (first second : List α) :
    sent ends cap waiting (first ++ second) = sent ends cap waiting first + sent ends cap (left ends waiting first) second := by
  induction first generalizing waiting with
  | nil => simp [sent, left]
  | cons item rest ih =>
      simp only [List.cons_append, sent, left]
      split
      · rw [ih 0, Nat.add_assoc]
      · exact ih (waiting + 1)

theorem left_append (waiting : Nat) (first second : List α) :
    left ends waiting (first ++ second) = left ends (left ends waiting first) second := by
  induction first generalizing waiting with
  | nil => rfl
  | cons item rest ih => exact ih _

theorem sent_le (waiting : Nat) (items : List α) : sent ends cap waiting items ≤ waiting + items.length := by
  induction items generalizing waiting with
  | nil => exact Nat.zero_le _
  | cons item rest ih =>
      simp only [sent, List.length_cons]
      split
      · have later := ih 0
        omega
      · have later := ih (waiting + 1)
        omega

theorem sent_all_iff (waiting : Nat) (items : List α) :
    sent ends cap waiting items = waiting + items.length ↔ Whole ends cap waiting items := by
  induction items generalizing waiting with
  | nil =>
      simp only [sent, Whole, List.length_nil]
      omega
  | cons item rest ih =>
      simp only [sent, Whole, List.length_cons]
      split
      · have later := sent_le ends cap 0 rest
        rw [← ih 0]
        omega
      · rw [← ih (waiting + 1)]
        omega

-- What waits never outgrows a batch.
def Fits : Nat → List α → Prop
  | _, [] => True
  | waiting, item :: rest =>
      if ends item then waiting + 1 ≤ cap item ∧ Fits 0 rest else Fits (waiting + 1) rest

theorem whole_iff_fits (waiting : Nat) (items : List α) :
    Whole ends cap waiting items ↔ Fits ends cap waiting items ∧ left ends waiting items = 0 := by
  induction items generalizing waiting with
  | nil => exact (iff_of_eq (true_and _)).symm
  | cons item rest ih =>
      simp only [Whole, Fits, left]
      split
      · rw [ih, and_assoc]
      · exact ih (waiting + 1)

theorem left_ended (waiting : Nat) (items : List α) (last : α) (ended : ends last = true) :
    left ends waiting (items ++ [last]) = 0 := by
  rw [left_append]
  exact if_pos ended

theorem fits_short (bound waiting : Nat) (items : List α) (caps : ∀ item ∈ items, bound ≤ cap item)
    (short : waiting + items.length ≤ bound) : Fits ends cap waiting items := by
  induction items generalizing waiting with
  | nil => trivial
  | cons item rest ih =>
      have own := caps item List.mem_cons_self
      have others : ∀ other ∈ rest, bound ≤ cap other := fun other member => caps other (List.mem_cons_of_mem _ member)
      rw [List.length_cons] at short
      simp only [Fits]
      split
      · exact ⟨by omega, ih 0 others (by omega)⟩
      · exact ih (waiting + 1) others (by omega)

section Several

variable (batches : List (List α))

theorem sent_sum_le : (batches.map (sent ends cap 0)).sum ≤ (batches.map List.length).sum := by
  apply List.sum_le_sum
  intro items _
  have most := sent_le ends cap 0 items
  rwa [Nat.zero_add] at most

theorem sent_sum_all_iff :
    (batches.map (sent ends cap 0)).sum = (batches.map List.length).sum ↔ ∀ items ∈ batches, Whole ends cap 0 items := by
  induction batches with
  | nil => simp
  | cons items rest ih =>
      have first := sent_le ends cap 0 items
      have others := sent_sum_le ends cap rest
      rw [List.forall_mem_cons, ← sent_all_iff, ← ih]
      simp only [List.map_cons, List.sum_cons]
      omega

end Several

end Batches
