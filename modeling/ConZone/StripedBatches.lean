import ConZone.Batches
import ConZone.Radix

set_option autoImplicit false

-- Places in rows of height stripes, a stripe being width cells of cell places. A
-- batch ends with each cell of a row's last stripe, and holds as many places as
-- the cells one above the other in a row.
namespace Batches

section Stripes

variable (cell width height : Nat)

def lastStripe : Nat := (height - 1) * (width * cell)

def rowLength : Nat := lastStripe cell width height + width * cell

def EndsCell (place : Nat) : Prop :=
  lastStripe cell width height ≤ place % rowLength cell width height ∧ place % cell + 1 = cell

-- None of the batches of count places from first on is too large. The middle case
-- is that even the places of a row before the first end fit a batch.
def Held (first count : Nat) : Prop :=
  count ≤ height * cell ∨ lastStripe cell width height + cell ≤ height * cell ∨
    (lastStripe cell width height + cell ≤ first % rowLength cell width height + height * cell ∧
      first % rowLength cell width height + count ≤ rowLength cell width height + height * cell)

instance (first count : Nat) : Decidable (Held cell width height first count) :=
  inferInstanceAs (Decidable (_ ∨ _ ∨ _ ∧ _))

-- The places up to the next end of a batch, this one included.
def nextEnd (place : Nat) : Nat :=
  if lastStripe cell width height ≤ place then cell - place % cell else lastStripe cell width height - place + cell

-- Held with waiting places already taken.
def HeldAfter (waiting place count : Nat) : Prop :=
  if count = 0 then waiting = 0
  else waiting + count ≤ height * cell ∨
    (waiting + nextEnd cell width height place ≤ height * cell ∧
      (lastStripe cell width height + cell ≤ height * cell ∨ place + count ≤ rowLength cell width height + height * cell))

variable (cells : 0 < cell) (stripes : 0 < width) (rows : 0 < height)

theorem last_stripe_cells : cell ∣ lastStripe cell width height :=
  Dvd.dvd.mul_left (Nat.dvd_mul_left cell width) _

theorem row_length_cells : cell ∣ rowLength cell width height :=
  Nat.dvd_add (last_stripe_cells cell width height) (Nat.dvd_mul_left cell width)

theorem digit_step (place radix : Nat) (positive : 0 < radix) :
    (place + 1) % radix = if place % radix + 1 = radix then 0 else place % radix + 1 := by
  split
  · rename_i carry
    exact (Radix.succ_carry place radix carry).2
  · rename_i inner
    exact (Radix.succ_inner place radix inner positive).2

include cells in
theorem next_end_positive (place : Nat) : 0 < nextEnd cell width height place := by
  have digit := Nat.mod_lt place cells
  unfold nextEnd
  split
  · omega
  · omega

-- A multiple of the cell size has its predecessor at the end of a cell.
include cells in
theorem cell_end (place edge : Nat) (whole : cell ∣ edge) (next : place + 1 = edge) : place % cell + 1 = cell := by
  have zero : (place + 1) % cell = 0 := by
    rw [next]
    exact Nat.mod_eq_zero_of_dvd whole
  rw [digit_step place cell cells] at zero
  split at zero
  · rename_i carry
    exact carry
  · omega

include cells in
theorem held_after_last (waiting place : Nat) : HeldAfter cell width height waiting place 1 ↔ waiting + 1 ≤ height * cell := by
  have next := next_end_positive cell width height cells place
  unfold HeldAfter
  rw [if_neg Nat.one_ne_zero]
  refine or_iff_left_of_imp fun later => ?_
  have fits := later.1
  omega

include stripes in
theorem last_stripe_below : lastStripe cell width height + cell ≤ rowLength cell width height :=
  Nat.add_le_add_left (Nat.le_mul_of_pos_left cell stripes) _

include cells stripes in
-- Where no batch ends, the next place is in the same row.
theorem held_after_inner (waiting place count : Nat) (inside : place < rowLength cell width height) (more : count ≠ 0)
    (inner : ¬(lastStripe cell width height ≤ place ∧ place % cell + 1 = cell)) :
    place + 1 < rowLength cell width height ∧
      (HeldAfter cell width height waiting place (count + 1) ↔ HeldAfter cell width height (waiting + 1) (place + 1) count) := by
  have digit := Nat.mod_lt place cells
  have step := digit_step place cell cells
  have row := last_stripe_below cell width height stripes
  have behind : place + 1 < rowLength cell width height := by
    by_contra out
    exact inner ⟨by omega, cell_end cell cells place _ (row_length_cells cell width height) (by omega)⟩
  have next : nextEnd cell width height place = nextEnd cell width height (place + 1) + 1 := by
    unfold nextEnd
    by_cases last : lastStripe cell width height ≤ place
    · rw [if_neg fun full => inner ⟨last, full⟩] at step
      rw [if_pos last, if_pos (by omega), step]
      have unended : place % cell + 1 ≠ cell := fun full => inner ⟨last, full⟩
      omega
    · rw [if_neg last]
      by_cases enters : lastStripe cell width height ≤ place + 1
      · rw [if_pos (cell_end cell cells place _ (last_stripe_cells cell width height) (by omega))] at step
        rw [if_pos enters, step]
        omega
      · rw [if_neg enters]
        omega
  refine ⟨behind, ?_⟩
  unfold HeldAfter
  rw [if_neg (Nat.succ_ne_zero count), if_neg more, next]
  have same : waiting + 1 + count = waiting + (count + 1) := by omega
  have later : waiting + 1 + nextEnd cell width height (place + 1) = waiting + (nextEnd cell width height (place + 1) + 1) := by omega
  have places : place + 1 + count = place + (count + 1) := by omega
  rw [same, later, places]

include cells rows in
-- Behind the end of a batch nothing waits. The next place is in the last stripe
-- still, or begins the next row.
theorem held_after_end (waiting place count : Nat) (inside : place < rowLength cell width height) (more : count ≠ 0)
    (last : lastStripe cell width height ≤ place) (full : place % cell + 1 = cell) :
    HeldAfter cell width height waiting place (count + 1) ↔ waiting + 1 ≤ height * cell ∧
      HeldAfter cell width height 0 (if place + 1 = rowLength cell width height then 0 else place + 1) count := by
  have held : cell ≤ height * cell := Nat.le_mul_of_pos_left cell rows
  have step := digit_step place cell cells
  rw [if_pos full] at step
  have own : nextEnd cell width height place = 1 := by
    unfold nextEnd
    rw [if_pos last]
    omega
  unfold HeldAfter
  rw [if_neg (Nat.succ_ne_zero count), if_neg more, own]
  split
  · rename_i ends
    have start : nextEnd cell width height 0 = lastStripe cell width height + cell := by
      unfold nextEnd
      split
      · rw [Nat.zero_mod]
        omega
      · omega
    rw [start]
    omega
  · have ahead : nextEnd cell width height (place + 1) = cell := by
      unfold nextEnd
      rw [if_pos (by omega), step]
      rfl
    rw [ahead]
    omega

include cells stripes rows in
theorem ends_cell_iff (place : Nat) :
    EndsCell cell width height place ↔ place / (width * cell) % height + 1 = height ∧ place % cell + 1 = cell := by
  have stripe : 0 < width * cell := Nat.mul_pos stripes cells
  have row : rowLength cell width height = width * cell * height := by
    unfold rowLength lastStripe
    obtain ⟨above, same⟩ : ∃ above, height = above + 1 := ⟨height - 1, by omega⟩
    rw [same, Nat.add_sub_cancel]
    ring
  have inner := Nat.mod_lt place stripe
  have outer := Nat.mod_lt (place / (width * cell)) rows
  have digits : place % rowLength cell width height = place / (width * cell) % height * (width * cell) + place % (width * cell) := by
    rw [row, Nat.mod_mul, Nat.add_comm, Nat.mul_comm (width * cell)]
  unfold EndsCell
  rw [digits]
  refine and_congr_left' ⟨fun last => ?_, fun last => ?_⟩
  · have top : height - 1 < place / (width * cell) % height + 1 := by
      by_contra below
      have less := Radix.pair_bound _ _ (height - 1) _ (show place / (width * cell) % height < height - 1 by omega) inner
      unfold lastStripe at last
      omega
    omega
  · have top : place / (width * cell) % height = height - 1 := by omega
    rw [top]
    exact Nat.le_add_right _ _

include cells rows in
theorem held_iff (first count : Nat) :
    HeldAfter cell width height 0 (first % rowLength cell width height) count ↔ Held cell width height first count := by
  have held : cell ≤ height * cell := Nat.le_mul_of_pos_left cell rows
  have next : nextEnd cell width height (first % rowLength cell width height) ≤ height * cell ↔
      lastStripe cell width height + cell ≤ first % rowLength cell width height + height * cell := by
    unfold nextEnd
    split
    · omega
    · omega
  unfold HeldAfter Held
  rw [Nat.zero_add, Nat.zero_add, next]
  split
  · rename_i none
    rw [none]
    exact iff_of_true rfl (.inl (Nat.zero_le _))
  · omega

variable {α : Type} (ends : α → Bool) (cap : α → Nat)

include cells in
-- Where a batch ends with every cell, what waits is never more than the places of
-- the cell that have passed.
theorem fits_cells (items : List α) (waiting place : Nat) (caps : ∀ item ∈ items, cell ≤ cap item)
    (ended : ∀ index item, items[index]? = some item → (place + index) % cell + 1 = cell → ends item = true)
    (behind : waiting ≤ place % cell) : Fits ends cap waiting items := by
  induction items generalizing waiting place with
  | nil => trivial
  | cons item rest ih =>
      have below := Nat.mod_lt place cells
      have own := caps item List.mem_cons_self
      have others : ∀ other ∈ rest, cell ≤ cap other := fun other member => caps other (List.mem_cons_of_mem _ member)
      have later : ∀ index other, rest[index]? = some other → (place + 1 + index) % cell + 1 = cell → ends other = true := by
        intro index other there
        rw [show place + 1 + index = place + (index + 1) by omega]
        exact ended (index + 1) other there
      simp only [Fits]
      split
      · exact ⟨by omega, ih 0 (place + 1) others later (Nat.zero_le _)⟩
      · rename_i between
        refine ih (waiting + 1) (place + 1) others later ?_
        rw [digit_step place cell cells]
        split
        · rename_i full
          exact absurd (ended 0 item rfl full) between
        · omega

include cells stripes rows in
-- By induction on the items, each at the place behind the last one's.
theorem whole_after_iff (items : List α) (waiting first : Nat) (caps : ∀ item ∈ items, cap item = height * cell)
    (placed : ∀ index item, items[index]? = some item → (ends item = true ↔ EndsCell cell width height (first + index) ∨ index + 1 = items.length)) :
    Whole ends cap waiting items ↔ HeldAfter cell width height waiting (first % rowLength cell width height) items.length := by
  induction items generalizing waiting first with
  | nil =>
      unfold HeldAfter
      rw [List.length_nil, if_pos rfl]
      rfl
  | cons item rest ih =>
      have row := last_stripe_below cell width height stripes
      have inside := Nat.mod_lt first (show 0 < rowLength cell width height by omega)
      have cellPlace : first % rowLength cell width height % cell = first % cell :=
        Nat.mod_mod_of_dvd first (row_length_cells cell width height)
      have own := placed 0 item rfl
      have later := fun waiting => ih waiting (first + 1) (fun other member => caps other (List.mem_cons_of_mem _ member)) fun index other there => by
        have shown := placed (index + 1) other there
        rw [List.length_cons, Nat.add_right_cancel_iff] at shown
        rw [show first + 1 + index = first + (index + 1) by omega]
        exact shown
      rw [Nat.add_zero, Nat.zero_add, List.length_cons] at own
      rw [List.length_cons]
      unfold Whole
      rw [caps item List.mem_cons_self]
      by_cases single : rest.length = 0
      · rw [if_pos (own.mpr (.inr (by omega))), later 0, single, held_after_last cell width height cells]
        exact and_iff_left rfl
      · have step := digit_step first (rowLength cell width height) (by omega)
        by_cases ended : EndsCell cell width height first
        · rw [if_pos (own.mpr (.inl ended)), later 0, step]
          obtain ⟨last, full⟩ := ended
          exact (held_after_end cell width height cells rows waiting _ rest.length inside single last (by rw [cellPlace]; exact full)).symm
        · have between : ¬ends item = true := fun ends => (own.mp ends).elim ended fun last => single (by omega)
          have inner := held_after_inner cell width height cells stripes waiting _ rest.length inside single
            (fun both => ended ⟨both.1, by rw [← cellPlace]; exact both.2⟩)
          rw [if_neg between, later (waiting + 1), step, if_neg (Nat.ne_of_lt inner.1)]
          exact inner.2.symm

include cells stripes rows in
theorem whole_placed_iff (items : List α) (first : Nat) (caps : ∀ item ∈ items, cap item = height * cell)
    (placed : ∀ index item, items[index]? = some item → (ends item = true ↔ EndsCell cell width height (first + index) ∨ index + 1 = items.length)) :
    Whole ends cap 0 items ↔ Held cell width height first items.length :=
  (whole_after_iff cell width height cells stripes rows ends cap items 0 first caps placed).trans
    (held_iff cell width height cells rows first items.length)

end Stripes

end Batches
