import ConZone.IntrusiveList
import ConZone.IndexedHeap

set_option autoImplicit false

-- Items that are kept on one of two intrusive lists, in an indexed heap or
-- outside of all three, and the moves between these places.
namespace Depot

open IntrusiveList IndexedHeap

section Moves

variable {ε κ : Type} [DecidableEq ε] (place : ε → κ) (item : ε) (next value : κ)

theorem move_keeps (apart : next ≠ value) (before : place item ≠ value) (other : ε) :
    Function.update place item next other = value ↔ place other = value := by
  by_cases same : other = item
  · rw [same, Function.update_self]
    exact ⟨fun moved => absurd moved apart, fun stood => absurd stood before⟩
  · rw [Function.update_of_ne same]

theorem move_enters (other : ε) : Function.update place item value other = value ↔ other = item ∨ place other = value := by
  by_cases same : other = item
  · simp [same]
  · simp [same]

theorem move_leaves (apart : next ≠ value) (other : ε) :
    Function.update place item next other = value ↔ other ≠ item ∧ place other = value := by
  by_cases same : other = item
  · simp [same, apart]
  · simp [same]

theorem move_keeps_set (apart : next ≠ value) (before : place item ≠ value) :
    {other | Function.update place item next other = value} = {other | place other = value} := by
  ext other
  exact move_keeps place item next value apart before other

end Moves

structure Labels (κ : Type) where
  first : κ
  second : κ
  queue : κ
  lists : first ≠ second
  firstQueue : first ≠ queue
  secondQueue : second ≠ queue

structure Heads (ε ν : Type) where
  node : ε → ν
  first : ν
  second : ν
  injective : Function.Injective node
  firstHead : ∀ item, first ≠ node item
  secondHead : ∀ item, second ≠ node item
  apart : first ≠ second

variable {ε ν κ : Type} [DecidableEq ε] [DecidableEq ν] (labels : Labels κ) (heads : Heads ε ν)

structure Stored (links : Links ν) (heap : Heap ε) (place : ε → κ) (firsts seconds : List ε) : Prop where
  firstRing : Ring links heads.first (firsts.map heads.node)
  secondRing : Ring links heads.second (seconds.map heads.node)
  inFirst : ∀ item, item ∈ firsts ↔ place item = labels.first
  inSecond : ∀ item, item ∈ seconds ↔ place item = labels.second
  queued : Holds heap {item | place item = labels.queue}
  unqueued : ∀ item, place item ≠ labels.queue → heap.pos item = 0

structure Outside (value : κ) : Prop where
  first : value ≠ labels.first
  second : value ≠ labels.second
  queue : value ≠ labels.queue

section Lists

omit [DecidableEq ε] [DecidableEq ν] in
theorem unlisted (head : ν) (members : List ε) (item : ε) (apart : ∀ other, head ≠ heads.node other) (outside : item ∉ members) :
    heads.node item ∉ head :: members.map heads.node := by
  intro member
  rcases List.mem_cons.mp member with atHead | listed
  · exact apart item atHead.symm
  · obtain ⟨other, inside, same⟩ := List.mem_map.mp listed
    exact outside (heads.injective same ▸ inside)

variable (links : Links ν) (heap : Heap ε) (place : ε → κ) (firsts seconds : List ε)

omit [DecidableEq ε] [DecidableEq ν] in
theorem rings_apart (stored : Stored labels heads links heap place firsts seconds) :
    ∀ node ∈ heads.first :: firsts.map heads.node, node ∉ heads.second :: seconds.map heads.node := by
  intro node inFirst
  rcases List.mem_cons.mp inFirst with atHead | listed
  · rw [atHead]
    intro member
    rcases List.mem_cons.mp member with same | other
    · exact heads.apart same
    · obtain ⟨item, _, same⟩ := List.mem_map.mp other
      exact heads.firstHead item same.symm
  · obtain ⟨item, inside, same⟩ := List.mem_map.mp listed
    rw [← same]
    refine unlisted heads heads.second seconds item heads.secondHead fun inSecond => ?_
    exact labels.lists (((stored.inFirst item).mp inside).symm.trans ((stored.inSecond item).mp inSecond))

omit [DecidableEq ε] [DecidableEq ν] in
theorem firsts_nodup (stored : Stored labels heads links heap place firsts seconds) : firsts.Nodup :=
  List.Nodup.of_map _ (List.nodup_cons.mp stored.firstRing.distinct).2

omit [DecidableEq ε] [DecidableEq ν] in
theorem seconds_nodup (stored : Stored labels heads links heap place firsts seconds) : seconds.Nodup :=
  List.Nodup.of_map _ (List.nodup_cons.mp stored.secondRing.distinct).2

theorem take_first (item : ε) (value : κ) (stored : Stored labels heads links heap place (item :: firsts) seconds)
    (outside : Outside labels value) :
    Stored labels heads (listDelInit links (heads.node item)) heap (Function.update place item value) firsts seconds := by
  have here := (stored.inFirst item).mp (List.mem_cons_self ..)
  have fresh := (List.nodup_cons.mp (firsts_nodup labels heads links heap place _ seconds stored)).1
  refine ⟨?_, ?_, ?_, ?_, ?_, ?_⟩
  · exact ring_del_init links heads.first (heads.node item) [] (firsts.map heads.node) stored.firstRing
  · refine ring_del_init_frame links heads.second heads.first (heads.node item) _ _ stored.secondRing stored.firstRing (by simp) ?_
    exact fun node inSecond inFirst => rings_apart labels heads links heap place _ seconds stored node inFirst inSecond
  · intro other
    rw [move_leaves place item value labels.first outside.first, ← stored.inFirst other, List.mem_cons]
    constructor
    · intro member
      exact ⟨fun same => fresh (same ▸ member), .inr member⟩
    · rintro ⟨apart, either⟩
      exact either.resolve_left apart
  · intro other
    rw [move_keeps place item value labels.second outside.second (by rw [here]; exact labels.lists)]
    exact stored.inSecond other
  · rw [move_keeps_set place item value labels.queue outside.queue (by rw [here]; exact labels.firstQueue)]
    exact stored.queued
  · intro other away
    rw [ne_eq, move_keeps place item value labels.queue outside.queue (by rw [here]; exact labels.firstQueue)] at away
    exact stored.unqueued other away

theorem add_first (item : ε) (stored : Stored labels heads links heap place firsts seconds) (outside : Outside labels (place item)) :
    Stored labels heads (listAddTail links (heads.node item) heads.first) heap (Function.update place item labels.first)
      (firsts ++ [item]) seconds := by
  have notFirst : item ∉ firsts := fun member => outside.first ((stored.inFirst item).mp member)
  have notSecond : item ∉ seconds := fun member => outside.second ((stored.inSecond item).mp member)
  refine ⟨?_, ?_, ?_, ?_, ?_, ?_⟩
  · rw [List.map_append]
    exact ring_add_tail links heads.first (heads.node item) _ stored.firstRing (unlisted heads _ firsts item heads.firstHead notFirst)
  · refine ring_add_tail_frame links heads.second heads.first (heads.node item) _ _ stored.secondRing stored.firstRing
      (unlisted heads _ seconds item heads.secondHead notSecond) ?_
    exact fun node inSecond inFirst => rings_apart labels heads links heap place firsts seconds stored node inFirst inSecond
  · intro other
    rw [move_enters place item labels.first, ← stored.inFirst other, List.mem_append, List.mem_singleton, or_comm]
  · intro other
    rw [move_keeps place item labels.first labels.second labels.lists outside.second]
    exact stored.inSecond other
  · rw [move_keeps_set place item labels.first labels.queue labels.firstQueue outside.queue]
    exact stored.queued
  · intro other away
    rw [ne_eq, move_keeps place item labels.first labels.queue labels.firstQueue outside.queue] at away
    exact stored.unqueued other away

theorem add_second (item : ε) (stored : Stored labels heads links heap place firsts seconds) (outside : Outside labels (place item)) :
    Stored labels heads (listAddTail links (heads.node item) heads.second) heap (Function.update place item labels.second)
      firsts (seconds ++ [item]) := by
  have notFirst : item ∉ firsts := fun member => outside.first ((stored.inFirst item).mp member)
  have notSecond : item ∉ seconds := fun member => outside.second ((stored.inSecond item).mp member)
  refine ⟨?_, ?_, ?_, ?_, ?_, ?_⟩
  · exact ring_add_tail_frame links heads.first heads.second (heads.node item) _ _ stored.firstRing stored.secondRing
      (unlisted heads _ firsts item heads.firstHead notFirst) (rings_apart labels heads links heap place firsts seconds stored)
  · rw [List.map_append]
    exact ring_add_tail links heads.second (heads.node item) _ stored.secondRing (unlisted heads _ seconds item heads.secondHead notSecond)
  · intro other
    rw [move_keeps place item labels.second labels.first labels.lists.symm outside.first]
    exact stored.inFirst other
  · intro other
    rw [move_enters place item labels.second, ← stored.inSecond other, List.mem_append, List.mem_singleton, or_comm]
  · rw [move_keeps_set place item labels.second labels.queue labels.secondQueue outside.queue]
    exact stored.queued
  · intro other away
    rw [ne_eq, move_keeps place item labels.second labels.queue labels.secondQueue outside.queue] at away
    exact stored.unqueued other away

theorem remove_second (item : ε) (value : κ) (left right : List ε)
    (stored : Stored labels heads links heap place firsts (left ++ item :: right)) (outside : Outside labels value) :
    Stored labels heads (listDelInit links (heads.node item)) heap (Function.update place item value) firsts (left ++ right) := by
  have here := (stored.inSecond item).mp (by simp)
  have nodup := List.nodup_middle.mp (seconds_nodup labels heads links heap place firsts _ stored)
  have absent := (List.nodup_cons.mp nodup).1
  refine ⟨?_, ?_, ?_, ?_, ?_, ?_⟩
  · exact ring_del_init_frame links heads.first heads.second (heads.node item) _ _ stored.firstRing stored.secondRing (by simp)
      (rings_apart labels heads links heap place firsts _ stored)
  · have ring := stored.secondRing
    rw [List.map_append, List.map_cons] at ring
    rw [List.map_append]
    exact ring_del_init links heads.second (heads.node item) _ _ ring
  · intro other
    rw [move_keeps place item value labels.first outside.first (by rw [here]; exact labels.lists.symm)]
    exact stored.inFirst other
  · intro other
    rw [move_leaves place item value labels.second outside.second, ← stored.inSecond other]
    constructor
    · intro member
      refine ⟨fun same => absent (same ▸ member), ?_⟩
      simpa using (List.mem_append.mp member).imp_right Or.inr
    · rintro ⟨apart, member⟩
      simpa [apart] using member
  · rw [move_keeps_set place item value labels.queue outside.queue (by rw [here]; exact labels.secondQueue)]
    exact stored.queued
  · intro other away
    rw [ne_eq, move_keeps place item value labels.queue outside.queue (by rw [here]; exact labels.secondQueue)] at away
    exact stored.unqueued other away

end Lists

section Queue

variable (links : Links ν) (heap : Heap ε) (place : ε → κ) (firsts seconds : List ε)

omit [DecidableEq ε] [DecidableEq ν] in
theorem queue_kept (other : Heap ε) (stored : Stored labels heads links heap place firsts seconds)
    (holds : Holds other {item | place item = labels.queue}) (same : SameOutside heap other {item | place item = labels.queue}) :
    Stored labels heads links other place firsts seconds :=
  ⟨stored.firstRing, stored.secondRing, stored.inFirst, stored.inSecond, holds,
    fun item away => (same.pos item away).trans (stored.unqueued item away)⟩

omit [DecidableEq ν] in
theorem enqueue (pri : ε → Nat) (item : ε) (stored : Stored labels heads links heap place firsts seconds)
    (outside : Outside labels (place item)) :
    Stored labels heads links (pqueueInsert pri heap item) (Function.update place item labels.queue) firsts seconds ∧
      (pqueueInsert pri heap item).size = heap.size + 1 := by
  obtain ⟨holds, size, kept⟩ := insert_holds pri heap _ item stored.queued outside.queue
  have members : {other | Function.update place item labels.queue other = labels.queue} = insert item {other | place other = labels.queue} := by
    ext other
    exact move_enters place item labels.queue other
  refine ⟨⟨stored.firstRing, stored.secondRing, ?_, ?_, ?_, ?_⟩, size⟩
  · intro other
    rw [move_keeps place item labels.queue labels.first labels.firstQueue.symm outside.first]
    exact stored.inFirst other
  · intro other
    rw [move_keeps place item labels.queue labels.second labels.secondQueue.symm outside.second]
    exact stored.inSecond other
  · rw [members]
    exact holds
  · intro other away
    have absent : other ∉ insert item {other | place other = labels.queue} := by
      rw [← members]
      exact away
    exact (kept other absent).trans (stored.unqueued other fun queued => absent (Set.mem_insert_of_mem _ queued))

omit [DecidableEq ν] in
theorem dequeued (item : ε) (value : κ) (after : Heap ε) (stored : Stored labels heads links heap place firsts seconds)
    (here : place item = labels.queue) (outside : Outside labels value)
    (holds : Holds after ({other | place other = labels.queue} \ {item}))
    (kept : ∀ other, place other ≠ labels.queue → after.pos other = heap.pos other) :
    Stored labels heads links { after with pos := Function.update after.pos item 0 } (Function.update place item value) firsts seconds := by
  have members : {other | Function.update place item value other = labels.queue} = {other | place other = labels.queue} \ {item} := by
    ext other
    exact (move_leaves place item value labels.queue outside.queue other).trans and_comm
  refine ⟨stored.firstRing, stored.secondRing, ?_, ?_, ?_, ?_⟩
  · intro other
    rw [move_keeps place item value labels.first outside.first (by rw [here]; exact labels.firstQueue.symm)]
    exact stored.inFirst other
  · intro other
    rw [move_keeps place item value labels.second outside.second (by rw [here]; exact labels.secondQueue.symm)]
    exact stored.inSecond other
  · rw [members]
    exact forget_holds after _ item 0 holds fun inside => inside.2 rfl
  · intro other away
    rw [ne_eq, move_leaves place item value labels.queue outside.queue] at away
    by_cases same : other = item
    · simp [same]
    · have unqueued : place other ≠ labels.queue := fun queued => away ⟨same, queued⟩
      dsimp only
      rw [Function.update_of_ne same, kept other unqueued]
      exact stored.unqueued other unqueued

end Queue

end Depot
