import ConZone.State

set_option autoImplicit false

namespace ConZone

def smallLength : Nat := 1024
def largeLength : Nat := 4096

-- small_nbits, small_bitmap, small_last_pos and small_capacity, or their large twins.
structure Bitmap where
  nbits : Nat
  map : Nat → Bool
  lastPos : Nat
  capacity : Nat

structure BitmapAllocator where
  small : Bitmap
  large : Bitmap
  devSize : Nat
  totalWritten : Nat

-- The bits of the static arrays of 600000 and 300000 longs.
def smallBitmapBits : Nat := 600000 * 64
def largeBitmapBits : Nat := 300000 * 64

def staticAllocator : BitmapAllocator := ⟨⟨0, fun _ => false, 0, 0⟩, ⟨0, fun _ => false, 0, 0⟩, 0, 0⟩

def bitmapZero (bitmap : Bitmap) (nbits : Nat) : Bitmap :=
  { bitmap with nbits := nbits, map := fun bit => if bit < nbits then false else bitmap.map bit }

def bitmapAllocatorInit (state : BitmapAllocator) (size : Nat) : BitmapAllocator :=
  { state with devSize := size, small := bitmapZero state.small (size / 2 / smallLength),
               large := bitmapZero state.large (size / 2 / largeLength) }

abbrev FindZero := (Nat → Bool) → Nat → Nat → Nat

def takeCell (bitmap : Bitmap) (off : Nat) : Bitmap :=
  { bitmap with map := Function.update bitmap.map off true, lastPos := if bitmap.nbits < off + 1 then 0 else off + 1,
                capacity := bitmap.capacity + 1 }

-- One class of bitmap_allocate: bitmap_set takes the bit the search gives, whatever it is.
def allocateCell (find : FindZero) (arrayBits : Nat) (bitmap : Bitmap) : Exec (Nat × Bitmap) :=
  let off := find bitmap.map bitmap.nbits bitmap.lastPos
  if arrayBits ≤ off then .error .outOfBounds else .ok (off, takeCell bitmap off)

def bitmapAllocate (find : FindZero) (state : BitmapAllocator) (length : Nat) : Exec (Nat × BitmapAllocator) :=
  let state := { state with totalWritten := u64 (state.totalWritten + length) }
  if smallLength < length then do
    let (off, large) ← allocateCell find largeBitmapBits state.large
    pure (state.devSize / 2 + off * largeLength, { state with large := large })
  else do
    let (off, small) ← allocateCell find smallBitmapBits state.small
    pure (off * smallLength, { state with small := small })

def bitmapAllocateAll (find : FindZero) : List Nat → BitmapAllocator → Exec (List (Nat × Nat))
  | [], _ => .ok []
  | length :: rest, state => do
      let (offset, state) ← bitmapAllocate find state length
      let regions ← bitmapAllocateAll find rest state
      pure ((offset, length) :: regions)

-- What is asked of bitmap_find_next_zero_area for a single bit.
structure FindsZero (find : FindZero) : Prop where
  found : ∀ map size start bit, start ≤ bit → bit < size → map bit = false → (∀ before, start ≤ before → before < bit → map before = true) →
    find map size start = bit
  absent : ∀ map size start, (∀ bit, start ≤ bit → bit < size → map bit = true) → size ≤ find map size start

def findNextZeroBit (map : Nat → Bool) (size start : Nat) : Nat :=
  ((List.range' start (size - start)).find? fun bit => !map bit).getD size

-- The kernel's search asked for one bit without an alignment. Where there is
-- none it gives the end of the area it would have taken.
def bitmapFindNextZeroArea (map : Nat → Bool) (size start : Nat) : Nat :=
  let index := findNextZeroBit map size start
  if size < index + 1 then index + 1 else index

section Searching

variable (map : Nat → Bool) (size start : Nat)

theorem find_next_zero_found (bit : Nat) (reached : start ≤ bit) (inside : bit < size) (zero : map bit = false)
    (first : ∀ before, start ≤ before → before < bit → map before = true) : findNextZeroBit map size start = bit := by
  have split : List.range' start (size - start) =
      List.range' start (bit - start) ++ bit :: List.range' (bit + 1) (size - (bit + 1)) := by
    rw [show size - start = bit - start + (size - (bit + 1) + 1) by omega, ← List.range'_append_1, List.range'_succ,
      Nat.add_sub_cancel' reached]
  have noneZero : (List.range' start (bit - start)).find? (fun bit => !map bit) = none := by
    rw [List.find?_eq_none]
    intro before member
    have bounds := List.mem_range'_1.mp member
    simp [first before bounds.1 (by omega)]
  simp [findNextZeroBit, split, noneZero, zero]

theorem find_next_zero_absent (all : ∀ bit, start ≤ bit → bit < size → map bit = true) : findNextZeroBit map size start = size := by
  have noneZero : (List.range' start (size - start)).find? (fun bit => !map bit) = none := by
    rw [List.find?_eq_none]
    intro bit member
    have bounds := List.mem_range'_1.mp member
    simp [all bit bounds.1 (by omega)]
  simp [findNextZeroBit, noneZero]

theorem find_area_absent (all : ∀ bit, start ≤ bit → bit < size → map bit = true) :
    bitmapFindNextZeroArea map size start = size + 1 := by
  simp [bitmapFindNextZeroArea, find_next_zero_absent map size start all]

end Searching

theorem find_area_finds : FindsZero bitmapFindNextZeroArea where
  found := by
    intro map size start bit reached inside zero first
    simp [bitmapFindNextZeroArea, find_next_zero_found map size start bit reached inside zero first]
    omega
  absent := by
    intro map size start all
    rw [find_area_absent map size start all]
    exact Nat.le_succ size

structure HandedOut (bitmap : Bitmap) (cells count : Nat) : Prop where
  size : bitmap.nbits = cells
  cursor : bitmap.lastPos = count
  room : count ≤ cells
  taken : ∀ bit, bit < cells → bitmap.map bit = decide (bit < count)

section Cells

variable (find : FindZero) (arrayBits : Nat) (bitmap : Bitmap) (cells count : Nat) (handed : HandedOut bitmap cells count)

include handed in
theorem cell_taken (room : count < cells) : HandedOut (takeCell bitmap count) cells (count + 1) := by
  refine ⟨handed.size, ?_, room, ?_⟩
  · simp only [takeCell, handed.size]
    rw [if_neg (by omega)]
  · intro bit inside
    by_cases last : bit = count
    · simp [takeCell, last]
    · simp only [takeCell, Function.update_of_ne last, handed.taken bit inside, decide_eq_decide]
      omega

include handed in
theorem next_cell (finds : FindsZero find) (fits : cells ≤ arrayBits) (room : count < cells) :
    allocateCell find arrayBits bitmap = .ok (count, takeCell bitmap count) := by
  have off : find bitmap.map bitmap.nbits bitmap.lastPos = count := by
    rw [handed.size, handed.cursor]
    refine finds.found _ _ _ count (Nat.le_refl _) room ?_ (by omega)
    simp [handed.taken count room]
  simp only [allocateCell, off]
  rw [if_neg (by omega)]

include handed in
-- After the last cell the search is used without a check.
theorem past_last_cell (exhausted : count = cells) (off : Nat) (next : Bitmap)
    (ran : allocateCell bitmapFindNextZeroArea arrayBits bitmap = .ok (off, next)) : off = cells + 1 := by
  have absent : bitmapFindNextZeroArea bitmap.map bitmap.nbits bitmap.lastPos = cells + 1 := by
    rw [handed.size]
    refine find_area_absent _ _ _ fun bit _ inside => ?_
    simp [handed.taken bit inside, exhausted, inside]
  unfold allocateCell at ran
  dsimp only at ran
  rw [absent] at ran
  split at ran
  · cases ran
  · exact (Prod.mk.inj (Except.ok.inj ran)).1.symm

end Cells

def isLarge (length : Nat) : Bool := decide (smallLength < length)

def InHalf (size offset length : Nat) : Prop :=
  if smallLength < length then size / 2 ≤ offset ∧ offset < size else offset < size / 2

structure RegionsApart (size : Nat) (regions : List (Nat × Nat)) : Prop where
  inside : ∀ region ∈ regions, region.1 + region.2 ≤ size
  apart : regions.Pairwise fun first second => first.1 + first.2 ≤ second.1 ∨ second.1 + second.2 ≤ first.1
  halves : ∀ region ∈ regions, InHalf size region.1 region.2

structure BitmapsFit (size : Nat) : Prop where
  small : size / 2 / smallLength ≤ smallBitmapBits
  large : size / 2 / largeLength ≤ largeBitmapBits

def CellsLast (size : Nat) (lengths : List Nat) : Prop :=
  lengths.countP (fun length => !isLarge length) ≤ size / 2 / smallLength ∧ lengths.countP isLarge ≤ size / 2 / largeLength

section Allocating

variable (size : Nat) (fits : BitmapsFit size)

structure Issued (state : BitmapAllocator) (smalls larges : Nat) : Prop where
  device : state.devSize = size
  small : HandedOut state.small (size / 2 / smallLength) smalls
  large : HandedOut state.large (size / 2 / largeLength) larges

theorem init_handed : Issued size (bitmapAllocatorInit staticAllocator size) 0 0 := by
  refine ⟨rfl, ⟨rfl, rfl, Nat.zero_le _, ?_⟩, ⟨rfl, rfl, Nat.zero_le _, ?_⟩⟩
  · intro bit inside
    simp [bitmapAllocatorInit, bitmapZero, staticAllocator]
  · intro bit inside
    simp [bitmapAllocatorInit, bitmapZero, staticAllocator]

variable (find : FindZero) (finds : FindsZero find) (state : BitmapAllocator) (smalls larges : Nat) (handed : Issued size state smalls larges)

include fits finds handed in
theorem allocate_small (length : Nat) (small : ¬smallLength < length) (room : smalls < size / 2 / smallLength) :
    ∃ next, bitmapAllocate find state length = .ok (smalls * smallLength, next) ∧ Issued size next (smalls + 1) larges := by
  have ran := next_cell find smallBitmapBits state.small _ smalls handed.small finds fits.small room
  have taken := cell_taken state.small _ smalls handed.small room
  refine ⟨{ state with totalWritten := u64 (state.totalWritten + length), small := takeCell state.small smalls }, ?_,
    handed.device, taken, handed.large⟩
  simp only [bitmapAllocate, if_neg small, ran]
  rfl

include fits finds handed in
theorem allocate_large (length : Nat) (large : smallLength < length) (room : larges < size / 2 / largeLength) :
    ∃ next, bitmapAllocate find state length = .ok (size / 2 + larges * largeLength, next) ∧ Issued size next smalls (larges + 1) := by
  have ran := next_cell find largeBitmapBits state.large _ larges handed.large finds fits.large room
  have taken := cell_taken state.large _ larges handed.large room
  refine ⟨{ state with totalWritten := u64 (state.totalWritten + length), large := takeCell state.large larges }, ?_,
    handed.device, handed.small, taken⟩
  simp only [bitmapAllocate, if_pos large, ran, ← handed.device]
  rfl

def InCells (region : Nat × Nat) : Prop :=
  ∃ cell, if smallLength < region.2 then
      larges ≤ cell ∧ cell < size / 2 / largeLength ∧ region.1 = size / 2 + cell * largeLength ∧ region.2 ≤ largeLength
    else smalls ≤ cell ∧ cell < size / 2 / smallLength ∧ region.1 = cell * smallLength

theorem in_cells_bounds (region : Nat × Nat) (placed : InCells size smalls larges region) :
    region.1 + region.2 ≤ size ∧ InHalf size region.1 region.2 := by
  obtain ⟨cell, placed⟩ := placed
  unfold InHalf
  split at placed
  · rename_i large
    rw [if_pos large]
    simp only [largeLength] at placed
    omega
  · rename_i small
    rw [if_neg small]
    simp only [smallLength] at placed small
    omega

theorem in_cells_earlier (smaller larger : Nat) (region : Nat × Nat) (fewer : smalls ≤ smaller) (less : larges ≤ larger)
    (placed : InCells size smaller larger region) : InCells size smalls larges region := by
  obtain ⟨cell, placed⟩ := placed
  refine ⟨cell, ?_⟩
  split at placed
  · rename_i large
    rw [if_pos large]
    omega
  · rename_i small
    rw [if_neg small]
    omega

theorem small_apart (length : Nat) (small : ¬smallLength < length) (room : smalls < size / 2 / smallLength) (later : Nat × Nat)
    (placed : InCells size (smalls + 1) larges later) :
    smalls * smallLength + length ≤ later.1 ∨ later.1 + later.2 ≤ smalls * smallLength := by
  obtain ⟨cell, placed⟩ := placed
  split at placed <;> simp only [smallLength, largeLength] at * <;> omega

theorem large_apart (length : Nat) (allowed : length ≤ largeLength) (later : Nat × Nat)
    (placed : InCells size smalls (larges + 1) later) :
    size / 2 + larges * largeLength + length ≤ later.1 ∨ later.1 + later.2 ≤ size / 2 + larges * largeLength := by
  obtain ⟨cell, placed⟩ := placed
  split at placed <;> simp only [smallLength, largeLength] at * <;> omega

end Allocating

section Sequences

variable (size : Nat) (fits : BitmapsFit size) (find : FindZero)

include fits in
theorem cells_handed_out (finds : FindsZero find) (lengths : List Nat) (allowed : ∀ length ∈ lengths, length ≤ largeLength)
    (state : BitmapAllocator) (smalls larges : Nat) (handed : Issued size state smalls larges)
    (smallRoom : smalls + lengths.countP (fun length => !isLarge length) ≤ size / 2 / smallLength)
    (largeRoom : larges + lengths.countP isLarge ≤ size / 2 / largeLength) :
    ∃ regions, bitmapAllocateAll find lengths state = .ok regions ∧ (∀ region ∈ regions, InCells size smalls larges region) ∧
      regions.Pairwise fun first second => first.1 + first.2 ≤ second.1 ∨ second.1 + second.2 ≤ first.1 := by
  induction lengths generalizing state smalls larges with
  | nil => exact ⟨[], rfl, by simp, List.Pairwise.nil⟩
  | cons length rest ih =>
      have here := allowed length List.mem_cons_self
      by_cases large : smallLength < length
      · have sizeClass : isLarge length = true := decide_eq_true large
        simp only [List.countP_cons, sizeClass, Bool.not_true, Bool.false_eq_true, if_false, if_true] at smallRoom largeRoom
        obtain ⟨next, ran, after⟩ := allocate_large size fits find finds state smalls larges handed length large (by omega)
        obtain ⟨regions, restRan, placed, apart⟩ := ih (fun other member => allowed other (List.mem_cons_of_mem _ member)) next smalls
          (larges + 1) after smallRoom (by omega)
        refine ⟨(size / 2 + larges * largeLength, length) :: regions, ?_, ?_, List.pairwise_cons.mpr ⟨?_, apart⟩⟩
        · simp only [bitmapAllocateAll, ran, restRan, bind, Except.bind, pure, Except.pure]
        · intro region member
          rcases List.mem_cons.mp member with rfl | later
          · exact ⟨larges, by rw [if_pos large]; exact ⟨Nat.le_refl _, by omega, rfl, here⟩⟩
          · exact in_cells_earlier size smalls larges _ _ region (Nat.le_refl _) (Nat.le_succ _) (placed region later)
        · exact fun later member => large_apart size smalls larges length here later (placed later member)
      · have sizeClass : isLarge length = false := decide_eq_false large
        simp only [List.countP_cons, sizeClass, Bool.not_false, Bool.false_eq_true, if_false, if_true] at smallRoom largeRoom
        obtain ⟨next, ran, after⟩ := allocate_small size fits find finds state smalls larges handed length large (by omega)
        obtain ⟨regions, restRan, placed, apart⟩ := ih (fun other member => allowed other (List.mem_cons_of_mem _ member)) next (smalls + 1)
          larges after (by omega) largeRoom
        refine ⟨(smalls * smallLength, length) :: regions, ?_, ?_, List.pairwise_cons.mpr ⟨?_, apart⟩⟩
        · simp only [bitmapAllocateAll, ran, restRan, bind, Except.bind, pure, Except.pure]
        · intro region member
          rcases List.mem_cons.mp member with rfl | later
          · exact ⟨smalls, by rw [if_neg large]; exact ⟨Nat.le_refl _, by omega, rfl⟩⟩
          · exact in_cells_earlier size smalls larges _ _ region (Nat.le_succ _) (Nat.le_refl _) (placed region later)
        · exact fun later member => small_apart size smalls larges length large (by omega) later (placed later member)

theorem small_past_last (state next : BitmapAllocator) (larges length offset : Nat) (small : ¬smallLength < length)
    (handed : Issued size state (size / 2 / smallLength) larges)
    (ran : bitmapAllocate bitmapFindNextZeroArea state length = .ok (offset, next)) : ¬InHalf size offset length := by
  simp only [bitmapAllocate, if_neg small] at ran
  obtain ⟨⟨off, cells⟩, taken, rest⟩ := bind_ok _ _ _ ran
  have past := past_last_cell _ _ _ _ handed.small rfl off cells taken
  have same := (Prod.mk.inj (pure_ok _ _ rest)).1
  rw [past] at same
  unfold InHalf
  rw [if_neg small, ← same]
  simp only [smallLength]
  omega

theorem large_past_last (state next : BitmapAllocator) (smalls length offset : Nat) (large : smallLength < length)
    (handed : Issued size state smalls (size / 2 / largeLength))
    (ran : bitmapAllocate bitmapFindNextZeroArea state length = .ok (offset, next)) : ¬InHalf size offset length := by
  simp only [bitmapAllocate, if_pos large] at ran
  obtain ⟨⟨off, cells⟩, taken, rest⟩ := bind_ok _ _ _ ran
  have past := past_last_cell _ _ _ _ handed.large rfl off cells taken
  have same := (Prod.mk.inj (pure_ok _ _ rest)).1
  rw [past, handed.device] at same
  unfold InHalf
  rw [if_pos large, ← same]
  simp only [largeLength]
  omega

include fits in
theorem cells_last (lengths : List Nat) (state : BitmapAllocator) (smalls larges : Nat) (handed : Issued size state smalls larges)
    (regions : List (Nat × Nat)) (ran : bitmapAllocateAll bitmapFindNextZeroArea lengths state = .ok regions)
    (halves : ∀ region ∈ regions, InHalf size region.1 region.2) :
    smalls + lengths.countP (fun length => !isLarge length) ≤ size / 2 / smallLength ∧
      larges + lengths.countP isLarge ≤ size / 2 / largeLength := by
  induction lengths generalizing state smalls larges regions with
  | nil => exact ⟨handed.small.room, handed.large.room⟩
  | cons length rest ih =>
      unfold bitmapAllocateAll at ran
      obtain ⟨⟨offset, next⟩, allocated, ran⟩ := bind_ok _ _ _ ran
      obtain ⟨others, later, ran⟩ := bind_ok _ _ _ ran
      have same := pure_ok _ _ ran
      have here := halves (offset, length) (by rw [← same]; exact List.mem_cons_self)
      have behind : ∀ region ∈ others, InHalf size region.1 region.2 :=
        fun region member => halves region (by rw [← same]; exact List.mem_cons_of_mem _ member)
      by_cases large : smallLength < length
      · have sizeClass : isLarge length = true := decide_eq_true large
        have room : larges < size / 2 / largeLength := by
          refine Nat.lt_of_le_of_ne handed.large.room fun all => ?_
          rw [all] at handed
          exact large_past_last size state next smalls length offset large handed allocated here
        obtain ⟨after, stepRan, advanced⟩ := allocate_large size fits _ find_area_finds state smalls larges handed length large room
        rw [stepRan] at allocated
        cases allocated
        have counted := ih _ smalls (larges + 1) advanced others later behind
        simp only [List.countP_cons, sizeClass, Bool.not_true, Bool.false_eq_true, if_false, if_true]
        omega
      · have sizeClass : isLarge length = false := decide_eq_false large
        have room : smalls < size / 2 / smallLength := by
          refine Nat.lt_of_le_of_ne handed.small.room fun all => ?_
          rw [all] at handed
          exact small_past_last size state next larges length offset large handed allocated here
        obtain ⟨after, stepRan, advanced⟩ := allocate_small size fits _ find_area_finds state smalls larges handed length large room
        rw [stepRan] at allocated
        cases allocated
        have counted := ih _ (smalls + 1) larges advanced others later behind
        simp only [List.countP_cons, sizeClass, Bool.not_false, Bool.false_eq_true, if_false, if_true]
        omega

end Sequences

def AllocatesApart (find : FindZero) (size : Nat) (lengths : List Nat) : Prop :=
  ∃ regions, bitmapAllocateAll find lengths (bitmapAllocatorInit staticAllocator size) = .ok regions ∧ RegionsApart size regions

-- Any search for a free bit keeps the regions apart as long as each class has
-- cells left; the kernel's search does so only that long.
theorem bitmap_regions_apart_iff (size : Nat) (fits : BitmapsFit size) (lengths : List Nat)
    (allowed : ∀ length ∈ lengths, length ≤ largeLength) :
    (∀ find, FindsZero find → CellsLast size lengths → AllocatesApart find size lengths) ∧
      (AllocatesApart bitmapFindNextZeroArea size lengths ↔ CellsLast size lengths) := by
  have enough : ∀ find, FindsZero find → CellsLast size lengths → AllocatesApart find size lengths := by
    intro find finds last
    obtain ⟨regions, ran, placed, apart⟩ := cells_handed_out size fits find finds lengths allowed _ 0 0 (init_handed size)
      (by rw [Nat.zero_add]; exact last.1) (by rw [Nat.zero_add]; exact last.2)
    refine ⟨regions, ran, ?_, apart, ?_⟩
    · exact fun region member => (in_cells_bounds size 0 0 region (placed region member)).1
    · exact fun region member => (in_cells_bounds size 0 0 region (placed region member)).2
  refine ⟨enough, ?_, enough _ find_area_finds⟩
  rintro ⟨regions, ran, apart⟩
  have last := cells_last size fits lengths _ 0 0 (init_handed size) regions ran apart.halves
  rw [Nat.zero_add, Nat.zero_add] at last
  exact last

theorem bitmap_regions_apart_sample :
    AllocatesApart bitmapFindNextZeroArea (2 * 8192) [2000, 0, 1024, 4096] :=
  (bitmap_regions_apart_iff (2 * 8192) ⟨by decide, by decide⟩ [2000, 0, 1024, 4096] (by decide)).2.mpr ⟨by decide, by decide⟩

-- Two large cells are handed out, the third call returns the end of the device and more.
theorem third_large_region_outside :
    ¬∀ (size : Nat) (lengths : List Nat), BitmapsFit size → (∀ length ∈ lengths, length ≤ largeLength) →
      AllocatesApart bitmapFindNextZeroArea size lengths := by
  intro claim
  obtain ⟨regions, ran, apart⟩ := claim (2 * 8192) [2000, 2000, 2000] ⟨by decide, by decide⟩ (by decide)
  have allocated : bitmapAllocateAll bitmapFindNextZeroArea [2000, 2000, 2000] (bitmapAllocatorInit staticAllocator (2 * 8192)) =
      .ok [(8192, 2000), (12288, 2000), (20480, 2000)] := by rfl
  rw [allocated] at ran
  cases ran
  exact absurd (apart.inside (20480, 2000) (by simp)) (by decide)

end ConZone
