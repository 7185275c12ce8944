import Mathlib.Logic.Function.Basic
import Mathlib.Data.Set.Basic
import Mathlib.Data.Set.Insert
import Mathlib.Data.Finset.Card

set_option autoImplicit false

-- A binary heap of objects that each remember their own slot. Slot 0 is unused
-- and `size` counts it, so the elements are in the slots from 1 to `size - 1`.
namespace IndexedHeap

structure Heap (ε : Type) where
  d : Nat → ε
  size : Nat
  pos : ε → Nat

section Operations

variable {ε : Type} [DecidableEq ε]

def cmppri (next curr : Nat) : Bool := decide (curr < next)

def setSlot (heap : Heap ε) (slot : Nat) (node : ε) : Heap ε :=
  { heap with d := Function.update heap.d slot node, pos := Function.update heap.pos node slot }

def bubbleUpFrom (pri : ε → Nat) (moving : ε) : Nat → Heap ε → Nat → Heap ε
  | 0, heap, slot => setSlot heap slot moving
  | fuel + 1, heap, slot =>
      if 1 < slot && cmppri (pri (heap.d (slot / 2))) (pri moving) then
        bubbleUpFrom pri moving fuel (setSlot heap slot (heap.d (slot / 2))) (slot / 2)
      else setSlot heap slot moving

def bubbleUp (pri : ε → Nat) (heap : Heap ε) (slot : Nat) : Heap ε :=
  bubbleUpFrom pri (heap.d slot) slot heap slot

def maxchild (pri : ε → Nat) (heap : Heap ε) (slot : Nat) : Nat :=
  let child := 2 * slot
  if heap.size ≤ child then 0
  else if child + 1 < heap.size && cmppri (pri (heap.d child)) (pri (heap.d (child + 1))) then child + 1
  else child

def percolateDownFrom (pri : ε → Nat) (moving : ε) : Nat → Heap ε → Nat → Heap ε
  | 0, heap, slot => setSlot heap slot moving
  | fuel + 1, heap, slot =>
      let child := maxchild pri heap slot
      if child != 0 && cmppri (pri moving) (pri (heap.d child)) then
        percolateDownFrom pri moving fuel (setSlot heap slot (heap.d child)) child
      else setSlot heap slot moving

def percolateDown (pri : ε → Nat) (heap : Heap ε) (slot : Nat) : Heap ε :=
  percolateDownFrom pri (heap.d slot) heap.size heap slot

def pqueueInsert (pri : ε → Nat) (heap : Heap ε) (node : ε) : Heap ε :=
  bubbleUp pri { heap with d := Function.update heap.d heap.size node, size := heap.size + 1 } heap.size

def pqueueChangePriority (pri : ε → Nat) (heap : Heap ε) (newPri : Nat) (node : ε) : Heap ε :=
  let changed := Function.update pri node newPri
  if cmppri (pri node) newPri then bubbleUp changed heap (heap.pos node)
  else percolateDown changed heap (heap.pos node)

def pqueueRemove (pri : ε → Nat) (heap : Heap ε) (node : ε) : Heap ε :=
  let slot := heap.pos node
  let last := heap.d (heap.size - 1)
  let shrunk := { heap with d := Function.update heap.d slot last, size := heap.size - 1 }
  if cmppri (pri node) (pri last) then bubbleUp pri shrunk slot else percolateDown pri shrunk slot

def pqueuePeek (heap : Heap ε) : Option ε :=
  if heap.size = 1 then none else some (heap.d 1)

def pqueuePop (pri : ε → Nat) (heap : Heap ε) : Heap ε :=
  if heap.size = 1 then heap
  else percolateDown pri { heap with d := Function.update heap.d 1 (heap.d (heap.size - 1)), size := heap.size - 1 } 1

end Operations

section Representation

variable {ε : Type}

structure Holds (heap : Heap ε) (members : Set ε) : Prop where
  unused : 1 ≤ heap.size
  listed : ∀ slot, 1 ≤ slot → slot < heap.size → heap.d slot ∈ members ∧ heap.pos (heap.d slot) = slot
  placed : ∀ node ∈ members, 1 ≤ heap.pos node ∧ heap.pos node < heap.size ∧ heap.d (heap.pos node) = node

-- While a node sifts, its slot is a hole: the content there is stale and the
-- node is a member without a place.
structure Sifting (heap : Heap ε) (hole : Nat) (moving : ε) (members : Set ε) : Prop where
  inRange : 1 ≤ hole ∧ hole < heap.size
  moves : moving ∈ members
  listed : ∀ slot, 1 ≤ slot → slot < heap.size → slot ≠ hole →
    heap.d slot ∈ members ∧ heap.d slot ≠ moving ∧ heap.pos (heap.d slot) = slot
  placed : ∀ node ∈ members, node ≠ moving →
    1 ≤ heap.pos node ∧ heap.pos node < heap.size ∧ heap.pos node ≠ hole ∧ heap.d (heap.pos node) = node

structure SameOutside (heap other : Heap ε) (members : Set ε) : Prop where
  size : other.size = heap.size
  pos : ∀ node, node ∉ members → other.pos node = heap.pos node

theorem holds_empty (heap : Heap ε) (empty : heap.size = 1) : Holds heap ∅ :=
  ⟨by omega, fun slot first bound => by omega, fun node member => member.elim⟩

theorem holds_sifting (heap : Heap ε) (members : Set ε) (node : ε) (holds : Holds heap members)
    (member : node ∈ members) : Sifting heap (heap.pos node) node members := by
  obtain ⟨first, bound, found⟩ := holds.placed node member
  refine ⟨⟨first, bound⟩, member, ?_, ?_⟩
  · intro slot lower upper apart
    obtain ⟨inside, atSlot⟩ := holds.listed slot lower upper
    exact ⟨inside, fun same => apart (by rw [← same, atSlot]), atSlot⟩
  · intro other inside apart
    obtain ⟨lower, upper, foundOther⟩ := holds.placed other inside
    exact ⟨lower, upper, fun same => apart (by rw [← foundOther, same, found]), foundOther⟩

theorem same_outside_trans (heap middle other : Heap ε) (members : Set ε)
    (first : SameOutside heap middle members) (second : SameOutside middle other members) :
    SameOutside heap other members :=
  ⟨second.size.trans first.size, fun node outside => (second.pos node outside).trans (first.pos node outside)⟩

theorem peek_none (heap : Heap ε) (members : Set ε) (holds : Holds heap members) :
    pqueuePeek heap = none ↔ members = ∅ := by
  by_cases one : heap.size = 1
  · have empty : members = ∅ := by
      ext node
      refine ⟨fun member => ?_, fun absurd => absurd.elim⟩
      obtain ⟨lower, upper, _⟩ := holds.placed node member
      omega
    simp [pqueuePeek, one, empty]
  · have unused := holds.unused
    have root := (holds.listed 1 (by omega) (by omega)).1
    simp only [pqueuePeek, one, ↓reduceIte, reduceCtorEq, false_iff]
    intro empty
    rw [empty] at root
    exact root

theorem peek_mem (heap : Heap ε) (members : Set ε) (node : ε) (holds : Holds heap members)
    (peeked : pqueuePeek heap = some node) : node ∈ members ∧ heap.size ≠ 1 ∧ heap.d 1 = node := by
  by_cases one : heap.size = 1
  · simp [pqueuePeek, one] at peeked
  · have same : heap.d 1 = node := by simpa [pqueuePeek, one] using peeked
    have unused := holds.unused
    have root := (holds.listed 1 (by omega) (by omega)).1
    exact ⟨same ▸ root, one, same⟩

theorem holds_size (heap : Heap ε) (members : Set ε) (nodes : Finset ε) (holds : Holds heap members)
    (inside : ∀ node ∈ members, node ∈ nodes) : heap.size ≤ nodes.card + 1 := by
  have fits : (Finset.range (heap.size - 1)).card ≤ nodes.card := by
    apply Finset.card_le_card_of_injOn fun slot => heap.d (slot + 1)
    · intro slot used
      have below := Finset.mem_range.mp (Finset.mem_coe.mp used)
      exact inside _ (holds.listed (slot + 1) (by omega) (by omega)).1
    · intro slot used other otherUsed same
      have below := Finset.mem_range.mp (Finset.mem_coe.mp used)
      have otherBelow := Finset.mem_range.mp (Finset.mem_coe.mp otherUsed)
      have found := (holds.listed (slot + 1) (by omega) (by omega)).2
      have otherFound := (holds.listed (other + 1) (by omega) (by omega)).2
      dsimp only at same
      rw [same] at found
      omega
  rw [Finset.card_range] at fits
  omega

theorem maxchild_range (pri : ε → Nat) (heap : Heap ε) (slot : Nat) (child : maxchild pri heap slot ≠ 0) :
    slot * 2 ≤ maxchild pri heap slot ∧ maxchild pri heap slot < heap.size := by
  unfold maxchild at child ⊢
  simp only at child ⊢
  split at child
  · exact absurd rfl child
  · rename_i bound
    rw [if_neg bound]
    split
    · rename_i right
      rw [Bool.and_eq_true, decide_eq_true_eq] at right
      omega
    · omega

theorem shrink_sifting (heap : Heap ε) (members : Set ε) (node : ε) (holds : Holds heap members)
    (member : node ∈ members) (inner : heap.pos node ≠ heap.size - 1) :
    Sifting { heap with d := Function.update heap.d (heap.pos node) (heap.d (heap.size - 1)), size := heap.size - 1 }
      (heap.pos node) (heap.d (heap.size - 1)) (members \ {node}) := by
  obtain ⟨first, bound, found⟩ := holds.placed node member
  have unused := holds.unused
  obtain ⟨lastIn, atLast⟩ := holds.listed (heap.size - 1) (by omega) (by omega)
  have lastApart : heap.d (heap.size - 1) ≠ node := fun same => inner (by rw [← same, atLast])
  refine ⟨⟨first, by simp only; omega⟩, ⟨lastIn, lastApart⟩, ?_, ?_⟩
  · intro slot lower upper apart
    simp only at upper
    obtain ⟨inside, atSlot⟩ := holds.listed slot lower (by omega)
    have notNode : heap.d slot ≠ node := fun same => apart (by rw [← same, atSlot])
    have notLast : heap.d slot ≠ heap.d (heap.size - 1) := fun same => by
      rw [same, atLast] at atSlot; omega
    simp [apart, inside, notNode, notLast, atSlot]
  · intro other inside apart
    obtain ⟨lower, upper, foundOther⟩ := holds.placed other inside.1
    have notHole : heap.pos other ≠ heap.pos node := fun same => inside.2 (by
      rw [← foundOther, same, found]; rfl)
    have notLast : heap.pos other ≠ heap.size - 1 := fun same => apart (by rw [← foundOther, same])
    simp only [ne_eq, notHole, not_false_eq_true, Function.update_of_ne, foundOther]
    exact ⟨lower, by omega, trivial, trivial⟩

end Representation

section Preservation

variable {ε : Type} [DecidableEq ε]

theorem sifting_finish (heap : Heap ε) (hole : Nat) (moving : ε) (members : Set ε)
    (sifting : Sifting heap hole moving members) :
    Holds (setSlot heap hole moving) members ∧ SameOutside heap (setSlot heap hole moving) members := by
  obtain ⟨lower, upper⟩ := sifting.inRange
  refine ⟨⟨?_, ?_, ?_⟩, rfl, ?_⟩
  · simp only [setSlot]; omega
  · intro slot first bound
    by_cases same : slot = hole
    · simp [setSlot, same, sifting.moves]
    · obtain ⟨inside, apart, atSlot⟩ := sifting.listed slot first bound same
      simp [setSlot, same, inside, apart, atSlot]
  · intro node member
    by_cases same : node = moving
    · simp [setSlot, same, lower, upper]
    · obtain ⟨first, bound, apart, found⟩ := sifting.placed node member same
      simp [setSlot, same, apart, first, bound, found]
  · intro node outside
    have apart : node ≠ moving := fun same => outside (same ▸ sifting.moves)
    simp [setSlot, apart]

theorem sifting_move (heap : Heap ε) (hole next : Nat) (moving : ε) (members : Set ε)
    (sifting : Sifting heap hole moving members) (first : 1 ≤ next) (bound : next < heap.size) (apart : next ≠ hole) :
    Sifting (setSlot heap hole (heap.d next)) next moving members ∧
      SameOutside heap (setSlot heap hole (heap.d next)) members := by
  obtain ⟨inside, notMoving, atNext⟩ := sifting.listed next first bound apart
  refine ⟨⟨⟨first, bound⟩, sifting.moves, ?_, ?_⟩, rfl, ?_⟩
  · intro slot lower upper away
    by_cases same : slot = hole
    · simp [setSlot, same, inside, notMoving]
    · obtain ⟨slotIn, slotApart, atSlot⟩ := sifting.listed slot lower upper same
      have distinct : heap.d slot ≠ heap.d next := fun equal => away (by rw [← atSlot, equal, atNext])
      simp [setSlot, same, slotIn, slotApart, distinct, atSlot]
  · intro node member nodeApart
    obtain ⟨lower, upper, notHole, found⟩ := sifting.placed node member nodeApart
    by_cases same : node = heap.d next
    · rw [same]
      simp [setSlot, sifting.inRange, apart.symm]
    · have away : heap.pos node ≠ next := fun equal => same (by rw [← equal, found])
      simp [setSlot, same, lower, upper, away, notHole, found]
  · intro node outside
    have distinct : node ≠ heap.d next := fun same => outside (same ▸ inside)
    simp [setSlot, distinct]

theorem bubble_up_from_holds (pri : ε → Nat) (moving : ε) (members : Set ε) (fuel : Nat) (heap : Heap ε) (hole : Nat)
    (sifting : Sifting heap hole moving members) :
    Holds (bubbleUpFrom pri moving fuel heap hole) members ∧
      SameOutside heap (bubbleUpFrom pri moving fuel heap hole) members := by
  induction fuel generalizing heap hole with
  | zero => exact sifting_finish heap hole moving members sifting
  | succ fuel ih =>
      rw [bubbleUpFrom]
      split
      · rename_i up
        rw [Bool.and_eq_true, decide_eq_true_eq] at up
        have range := sifting.inRange
        obtain ⟨moved, same⟩ := sifting_move heap hole (hole / 2) moving members sifting
          (by omega) (by omega) (by omega)
        obtain ⟨holds, kept⟩ := ih _ _ moved
        exact ⟨holds, same_outside_trans _ _ _ members same kept⟩
      · exact sifting_finish heap hole moving members sifting

theorem percolate_down_from_holds (pri : ε → Nat) (moving : ε) (members : Set ε) (fuel : Nat) (heap : Heap ε)
    (hole : Nat) (sifting : Sifting heap hole moving members) :
    Holds (percolateDownFrom pri moving fuel heap hole) members ∧
      SameOutside heap (percolateDownFrom pri moving fuel heap hole) members := by
  induction fuel generalizing heap hole with
  | zero => exact sifting_finish heap hole moving members sifting
  | succ fuel ih =>
      rw [percolateDownFrom]
      split
      · rename_i down
        rw [Bool.and_eq_true, bne_iff_ne] at down
        have range := sifting.inRange
        have child := maxchild_range pri heap hole down.1
        obtain ⟨moved, same⟩ := sifting_move heap hole (maxchild pri heap hole) moving members sifting
          (by omega) child.2 (by omega)
        obtain ⟨holds, kept⟩ := ih _ _ moved
        exact ⟨holds, same_outside_trans _ _ _ members same kept⟩
      · exact sifting_finish heap hole moving members sifting

theorem insert_holds (pri : ε → Nat) (heap : Heap ε) (members : Set ε) (node : ε) (holds : Holds heap members)
    (fresh : node ∉ members) :
    Holds (pqueueInsert pri heap node) (insert node members) ∧ (pqueueInsert pri heap node).size = heap.size + 1 ∧
      ∀ other, other ∉ insert node members → (pqueueInsert pri heap node).pos other = heap.pos other := by
  have unused := holds.unused
  have sifting : Sifting { heap with d := Function.update heap.d heap.size node, size := heap.size + 1 } heap.size node
      (insert node members) := by
    refine ⟨⟨unused, Nat.lt_succ_self _⟩, Set.mem_insert _ _, ?_, ?_⟩
    · intro slot lower upper apart
      obtain ⟨inside, atSlot⟩ := holds.listed slot lower (by simp only at upper; omega)
      have distinct : heap.d slot ≠ node := fun same => fresh (same ▸ inside)
      simp [apart, inside, distinct, atSlot]
    · intro other member apart
      have inside : other ∈ members := (Set.mem_insert_iff.mp member).resolve_left apart
      obtain ⟨lower, upper, found⟩ := holds.placed other inside
      have away : heap.pos other ≠ heap.size := by omega
      simp only [ne_eq, away, not_false_eq_true, Function.update_of_ne, found]
      exact ⟨lower, by omega, trivial, trivial⟩
  have done := bubble_up_from_holds pri node (insert node members) heap.size _ heap.size sifting
  unfold pqueueInsert bubbleUp
  simp only [Function.update_self]
  exact ⟨done.1, done.2.size, done.2.pos⟩

theorem change_priority_holds (pri : ε → Nat) (heap : Heap ε) (members : Set ε) (newPri : Nat) (node : ε)
    (holds : Holds heap members) (member : node ∈ members) :
    Holds (pqueueChangePriority pri heap newPri node) members ∧
      SameOutside heap (pqueueChangePriority pri heap newPri node) members := by
  have sifting := holds_sifting heap members node holds member
  have found := (holds.placed node member).2.2
  unfold pqueueChangePriority bubbleUp percolateDown
  simp only [found]
  split
  · exact bubble_up_from_holds _ node members _ heap _ sifting
  · exact percolate_down_from_holds _ node members _ heap _ sifting

-- Removing the last slot leaves nothing to sift: the node is written back to
-- its own slot, which the smaller size no longer covers.
theorem percolate_down_past_end (pri : ε → Nat) (moving : ε) (fuel : Nat) (heap : Heap ε) (slot : Nat)
    (past : heap.size ≤ slot) : percolateDownFrom pri moving fuel heap slot = setSlot heap slot moving := by
  cases fuel with
  | zero => rfl
  | succ fuel =>
      have none : maxchild pri heap slot = 0 := by
        unfold maxchild
        simp only
        rw [if_pos (by omega)]
      rw [percolateDownFrom]
      simp [none]

theorem shrink_last_holds (heap : Heap ε) (members : Set ε) (node : ε) (holds : Holds heap members)
    (member : node ∈ members) (last : heap.pos node = heap.size - 1) :
    Holds (setSlot { heap with d := Function.update heap.d (heap.pos node) node, size := heap.size - 1 } (heap.pos node) node)
      (members \ {node}) := by
  obtain ⟨first, bound, found⟩ := holds.placed node member
  refine ⟨by simp only [setSlot]; omega, ?_, ?_⟩
  · intro slot lower upper
    simp only [setSlot] at upper
    obtain ⟨inside, atSlot⟩ := holds.listed slot lower (by omega)
    have apart : slot ≠ heap.pos node := by omega
    have distinct : heap.d slot ≠ node := fun same => apart (by rw [← same, atSlot])
    simp [setSlot, apart, inside, distinct, atSlot]
  · intro other inside
    obtain ⟨lower, upper, foundOther⟩ := holds.placed other inside.1
    have distinct : other ≠ node := inside.2
    have notHole : heap.pos other ≠ heap.pos node := fun same => distinct (by rw [← foundOther, same, found])
    simp only [setSlot, ne_eq, distinct, not_false_eq_true, Function.update_of_ne, notHole, foundOther]
    exact ⟨lower, by omega, trivial⟩

theorem remove_holds (pri : ε → Nat) (heap : Heap ε) (members : Set ε) (node : ε) (holds : Holds heap members)
    (member : node ∈ members) :
    Holds (pqueueRemove pri heap node) (members \ {node}) ∧ (pqueueRemove pri heap node).size = heap.size - 1 ∧
      ∀ other, other ∉ members → (pqueueRemove pri heap node).pos other = heap.pos other := by
  obtain ⟨first, bound, found⟩ := holds.placed node member
  by_cases last : heap.pos node = heap.size - 1
  · have same : heap.d (heap.size - 1) = node := by rw [← last, found]
    have removed : pqueueRemove pri heap node =
        setSlot { heap with d := Function.update heap.d (heap.pos node) node, size := heap.size - 1 } (heap.pos node) node := by
      unfold pqueueRemove percolateDown
      simp only [same, cmppri, Nat.lt_irrefl, decide_false, Bool.false_eq_true, ↓reduceIte, Function.update_self]
      exact percolate_down_past_end _ _ _ _ _ (by simp only; omega)
    rw [removed]
    refine ⟨shrink_last_holds heap members node holds member last, rfl, ?_⟩
    intro other outside
    simp [setSlot]
  · have sifting := shrink_sifting heap members node holds member last
    unfold pqueueRemove bubbleUp percolateDown
    simp only [Function.update_self]
    split
    · have done := bubble_up_from_holds pri _ _ (heap.pos node) _ _ sifting
      exact ⟨done.1, done.2.size, fun other outside => done.2.pos other (fun inside => outside inside.1)⟩
    · have done := percolate_down_from_holds pri _ _ (heap.size - 1) _ _ sifting
      exact ⟨done.1, done.2.size, fun other outside => done.2.pos other (fun inside => outside inside.1)⟩

theorem pop_holds (pri : ε → Nat) (heap : Heap ε) (members : Set ε) (holds : Holds heap members)
    (occupied : heap.size ≠ 1) :
    Holds (pqueuePop pri heap) (members \ {heap.d 1}) ∧ (pqueuePop pri heap).size = heap.size - 1 ∧
      ∀ other, other ∉ members → (pqueuePop pri heap).pos other = heap.pos other := by
  have unused := holds.unused
  obtain ⟨member, atRoot⟩ := holds.listed 1 (by omega) (by omega)
  have popped : pqueuePop pri heap = percolateDown pri
      { heap with d := Function.update heap.d (heap.pos (heap.d 1)) (heap.d (heap.size - 1)), size := heap.size - 1 }
      (heap.pos (heap.d 1)) := by
    rw [pqueuePop, if_neg occupied, atRoot]
  rw [popped]
  by_cases last : heap.pos (heap.d 1) = heap.size - 1
  · have same : heap.d (heap.size - 1) = heap.d 1 := by rw [← last, atRoot]
    unfold percolateDown
    rw [same, percolate_down_past_end _ _ _ _ _ (by simp only; omega)]
    simp only [Function.update_self]
    refine ⟨shrink_last_holds heap members _ holds member last, rfl, ?_⟩
    intro other outside
    simp [setSlot]
  · have sifting := shrink_sifting heap members _ holds member last
    have done := percolate_down_from_holds pri _ _ (heap.size - 1) _ _ sifting
    unfold percolateDown
    simp only [Function.update_self]
    exact ⟨done.1, done.2.size, fun other outside => done.2.pos other (fun inside => outside inside.1)⟩

theorem forget_holds (heap : Heap ε) (members : Set ε) (node : ε) (slot : Nat) (holds : Holds heap members) (outside : node ∉ members) :
    Holds { heap with pos := Function.update heap.pos node slot } members := by
  refine ⟨holds.unused, ?_, ?_⟩
  · intro index lower upper
    obtain ⟨inside, atIndex⟩ := holds.listed index lower upper
    have apart : heap.d index ≠ node := fun same => outside (same ▸ inside)
    dsimp only
    rw [Function.update_of_ne apart]
    exact ⟨inside, atIndex⟩
  · intro other member
    have apart : other ≠ node := fun same => outside (same ▸ member)
    dsimp only
    rw [Function.update_of_ne apart]
    exact holds.placed other member

end Preservation

section Contents

variable {ε : Type} [DecidableEq ε] (property : ε → Prop)

-- Whatever holds of the content of every slot, used or not, keeps holding: the
-- operations only move contents around.
def AllSlots (heap : Heap ε) : Prop := ∀ slot, property (heap.d slot)

omit [DecidableEq ε] in
theorem update_slots (d : Nat → ε) (slot : Nat) (node : ε) (all : ∀ index, property (d index)) (moving : property node) :
    ∀ index, property (Function.update d slot node index) := by
  intro index
  by_cases same : index = slot
  · rw [same, Function.update_self]
    exact moving
  · rw [Function.update_of_ne same]
    exact all index

theorem bubble_up_from_slots (pri : ε → Nat) (moving : ε) (fuel : Nat) (heap : Heap ε) (hole : Nat)
    (all : AllSlots property heap) (holds : property moving) : AllSlots property (bubbleUpFrom pri moving fuel heap hole) := by
  induction fuel generalizing heap hole with
  | zero => exact update_slots property heap.d hole moving all holds
  | succ fuel ih =>
      unfold bubbleUpFrom
      split
      · exact ih _ _ (update_slots property heap.d hole _ all (all _))
      · exact update_slots property heap.d hole moving all holds

theorem percolate_down_from_slots (pri : ε → Nat) (moving : ε) (fuel : Nat) (heap : Heap ε) (hole : Nat)
    (all : AllSlots property heap) (holds : property moving) :
    AllSlots property (percolateDownFrom pri moving fuel heap hole) := by
  induction fuel generalizing heap hole with
  | zero => exact update_slots property heap.d hole moving all holds
  | succ fuel ih =>
      unfold percolateDownFrom
      dsimp only
      split
      · exact ih _ _ (update_slots property heap.d hole _ all (all _))
      · exact update_slots property heap.d hole moving all holds

theorem insert_slots (pri : ε → Nat) (heap : Heap ε) (node : ε) (all : AllSlots property heap) (holds : property node) :
    AllSlots property (pqueueInsert pri heap node) := by
  have grown := update_slots property heap.d heap.size node all holds
  exact bubble_up_from_slots property pri _ _ _ _ grown (grown _)

theorem change_priority_slots (pri : ε → Nat) (heap : Heap ε) (newPri : Nat) (node : ε) (all : AllSlots property heap) :
    AllSlots property (pqueueChangePriority pri heap newPri node) := by
  unfold pqueueChangePriority
  dsimp only
  split
  · exact bubble_up_from_slots property _ _ _ _ _ all (all _)
  · exact percolate_down_from_slots property _ _ _ _ _ all (all _)

theorem remove_slots (pri : ε → Nat) (heap : Heap ε) (node : ε) (all : AllSlots property heap) :
    AllSlots property (pqueueRemove pri heap node) := by
  unfold pqueueRemove
  dsimp only
  have moved := update_slots property heap.d (heap.pos node) _ all (all (heap.size - 1))
  split
  · exact bubble_up_from_slots property _ _ _ _ _ moved (moved _)
  · exact percolate_down_from_slots property _ _ _ _ _ moved (moved _)

theorem pop_slots (pri : ε → Nat) (heap : Heap ε) (all : AllSlots property heap) : AllSlots property (pqueuePop pri heap) := by
  unfold pqueuePop
  split
  · exact all
  · have moved := update_slots property heap.d 1 _ all (all (heap.size - 1))
    exact percolate_down_from_slots property _ _ _ _ _ moved (moved 1)

omit [DecidableEq ε] in
theorem peek_slot (heap : Heap ε) (node : ε) (all : AllSlots property heap) (peeked : pqueuePeek heap = some node) :
    property node := by
  unfold pqueuePeek at peeked
  split at peeked
  · cases peeked
  · rw [← Option.some.inj peeked]
    exact all 1

end Contents

end IndexedHeap
