import ConZone.ConvSound

set_option autoImplicit false

namespace ConZone.Conv

def Loose (place : Place) : Prop := place = .user ∨ place = .gc ∨ place = .out

theorem loose_apart (value : Place) (loose : Loose value) : value ≠ .free ∧ value ≠ .full ∧ value ≠ .victim ∧ value ≠ .beyond := by
  rcases loose with rfl | rfl | rfl <;> decide

section Places

variable (place : Nat → Place) (id : Nat) (next value : Place)

theorem move_keeps (apart : next ≠ value) (before : place id ≠ value) (other : Nat) :
    Function.update place id next other = value ↔ place other = value := by
  by_cases same : other = id
  · rw [same, Function.update_self]
    exact ⟨fun moved => absurd moved apart, fun stood => absurd stood before⟩
  · rw [Function.update_of_ne same]

theorem move_enters (other : Nat) : Function.update place id value other = value ↔ other = id ∨ place other = value := by
  by_cases same : other = id
  · rw [same, Function.update_self]
    exact ⟨fun _ => .inl rfl, fun _ => rfl⟩
  · rw [Function.update_of_ne same]
    exact ⟨.inr, fun either => either.resolve_left same⟩

theorem move_leaves (apart : next ≠ value) (other : Nat) :
    Function.update place id next other = value ↔ other ≠ id ∧ place other = value := by
  by_cases same : other = id
  · rw [same, Function.update_self]
    exact ⟨fun moved => absurd moved apart, fun left => absurd rfl left.1⟩
  · rw [Function.update_of_ne same]
    exact ⟨fun stood => ⟨same, stood⟩, fun left => left.2⟩

end Places

section Lists

variable (c : ConvParams)

theorem lines_below : c.blksPerPl < 2 ^ 32 := by
  have groups : 0 < c.lineGroups := by
    apply Nat.pos_of_ne_zero
    intro none
    have whole := c.groupsWhole
    have positive := c.lunsPositive
    rw [whole, none, Nat.zero_mul] at positive
    exact absurd positive (Nat.lt_irrefl 0)
  exact Nat.lt_of_le_of_lt (Nat.le_mul_of_pos_right _ groups) c.linesFit

theorem inc_cnt (count bound : Nat) (below : count < bound) (small : bound < 2 ^ 32) : incCnt count = count + 1 := by
  unfold incCnt u32
  omega

theorem dec_cnt (count : Nat) (small : count + 1 < 2 ^ 32) : decCnt (count + 1) = count := by
  unfold decCnt u32
  omega

theorem ring_nodup (links : IntrusiveList.Links ListNode) (head : ListNode) (ids : List Nat)
    (ring : IntrusiveList.Ring links head (ids.map .line)) : ids.Nodup :=
  List.Nodup.of_map _ (List.nodup_cons.mp ring.distinct).2

theorem nodup_length (ids : List Nat) (bound : Nat) (nodup : ids.Nodup) (below : ∀ id ∈ ids, id < bound) : ids.length ≤ bound := by
  have inside : ids.toFinset ⊆ Finset.range bound := by
    intro id member
    exact Finset.mem_range.mpr (below id (List.mem_toFinset.mp member))
  have fits := Finset.card_le_card inside
  rw [List.toFinset_card_of_nodup nodup, Finset.card_range] at fits
  exact fits

variable (lm : LineMgmt) (place : Nat → Place) (free full : List Nat)

theorem placed_below (owned : Owned c lm place free full) (id : Nat) (value : Place) (placed : place id = value)
    (apart : value ≠ .beyond) : id < c.blksPerPl :=
  (owned.bound id).mp (by rw [placed]; exact apart)

theorem free_length (owned : Owned c lm place free full) : free.length ≤ c.blksPerPl :=
  nodup_length free _ (ring_nodup _ _ _ owned.freeRing)
    fun id member => placed_below c lm place free full owned id _ ((owned.inFree id).mp member) (by decide)

theorem full_length (owned : Owned c lm place free full) : full.length ≤ c.blksPerPl :=
  nodup_length full _ (ring_nodup _ _ _ owned.fullRing)
    fun id member => placed_below c lm place free full owned id _ ((owned.inFull id).mp member) (by decide)

theorem list_room (ids : List Nat) (bound id : Nat) (nodup : ids.Nodup) (below : ∀ other ∈ ids, other < bound) (inside : id < bound)
    (outside : id ∉ ids) : ids.length < bound :=
  nodup_length (id :: ids) bound (List.nodup_cons.mpr ⟨outside, nodup⟩) fun other member => by
    rcases List.mem_cons.mp member with rfl | listed
    · exact inside
    · exact below other listed

theorem victim_room (owned : Owned c lm place free full) (id : Nat) (inside : id < c.blksPerPl) (outside : place id ≠ .victim) :
    lm.victimLineCnt < c.blksPerPl := by
  have fits := IndexedHeap.holds_size (victimHeap lm) _ ((Finset.range c.blksPerPl).erase id) owned.heap fun other member =>
    Finset.mem_erase.mpr ⟨fun same => outside (by rw [← same]; exact member),
      Finset.mem_range.mpr (placed_below c lm place free full owned other _ member (by decide))⟩
  rw [Finset.card_erase_of_mem (Finset.mem_range.mpr inside), Finset.card_range] at fits
  have counted := owned.victimCnt
  change lm.victimLineSize ≤ _ at fits
  omega

theorem lists_apart (owned : Owned c lm place free full) :
    ∀ node ∈ ListNode.full :: full.map .line, node ∉ ListNode.free :: free.map .line := by
  intro node inFull inFree
  rcases List.mem_cons.mp inFull with rfl | listed
  · rcases List.mem_cons.mp inFree with absurd | other
    · cases absurd
    · obtain ⟨id, _, same⟩ := List.mem_map.mp other
      cases same
  · obtain ⟨id, member, rfl⟩ := List.mem_map.mp listed
    rcases List.mem_cons.mp inFree with absurd | other
    · cases absurd
    · obtain ⟨twin, twinMember, same⟩ := List.mem_map.mp other
      have line : twin = id := ListNode.line.inj same
      rw [line] at twinMember
      have asFree := (owned.inFree id).mp twinMember
      have asFull := (owned.inFull id).mp member
      rw [asFree] at asFull
      cases asFull

theorem unlisted (ids : List Nat) (head : ListNode) (id : Nat) (line : ∀ other, head ≠ .line other) (outside : id ∉ ids) :
    ListNode.line id ∉ head :: ids.map ListNode.line := by
  intro member
  rcases List.mem_cons.mp member with atHead | listed
  · exact line id atHead.symm
  · obtain ⟨other, otherMember, same⟩ := List.mem_map.mp listed
    exact outside (by rw [← ListNode.line.inj same]; exact otherMember)

end Lists

section Operations

variable (c : ConvParams) (lm : LineMgmt) (place : Nat → Place) (free full : List Nat)

theorem no_free_line (owned : Owned c lm place [] full) : getNextFreeLine lm = .ok (none, lm) := by
  unfold getNextFreeLine
  rw [IntrusiveList.ring_first_entry _ _ _ owned.freeRing]
  rfl

theorem next_free_line (id : Nat) (next : Place) (owned : Owned c lm place (id :: free) full) (loose : Loose next) :
    ∃ taken, getNextFreeLine lm = .ok (some id, taken) ∧ taken.lines = lm.lines ∧
      Owned c taken (Function.update place id next) free full := by
  have wasFree := (owned.inFree id).mp (List.mem_cons_self ..)
  have nodup := ring_nodup _ _ _ owned.freeRing
  have length := free_length c lm place _ full owned
  have small := lines_below c
  refine ⟨{ lm with links := IntrusiveList.listDelInit lm.links (.line id), freeLineCnt := decCnt lm.freeLineCnt }, ?_, rfl, ?_⟩
  · unfold getNextFreeLine
    rw [IntrusiveList.ring_first_entry _ _ _ owned.freeRing]
    rfl
  have apart := loose_apart next loose
  refine ⟨?_, ?_, ?_, ?_, ?_, ?_, ?_, owned.fullCnt, owned.victimCnt, ?_⟩
  · exact IntrusiveList.ring_del_init lm.links .free (.line id) [] (free.map .line) owned.freeRing
  · exact IntrusiveList.ring_del_init_frame lm.links .full .free (.line id) _ _ owned.fullRing owned.freeRing
      (by simp) (lists_apart c lm place _ full owned)
  · intro other
    rw [move_leaves place id next .free apart.1, ← owned.inFree other, List.mem_cons]
    constructor
    · intro member
      exact ⟨fun same => (List.nodup_cons.mp nodup).1 (same ▸ member), .inr member⟩
    · rintro ⟨notId, either⟩
      exact either.resolve_left notId
  · intro other
    rw [move_keeps place id next .full apart.2.1 (by rw [wasFree]; decide)]
    exact owned.inFull other
  · have same : {other | Function.update place id next other = .victim} = {other | place other = .victim} := by
      ext other
      exact move_keeps place id next .victim apart.2.2.1 (by rw [wasFree]; decide) other
    rw [same]
    exact owned.heap
  · intro other notVictim
    rw [ne_eq, move_keeps place id next .victim apart.2.2.1 (by rw [wasFree]; decide)] at notVictim
    exact owned.unplaced other notVictim
  · dsimp only
    rw [owned.freeCnt, List.length_cons]
    rw [List.length_cons] at length
    exact dec_cnt _ (by omega)
  · intro other
    rw [ne_eq, move_keeps place id next .beyond apart.2.2.2 (by rw [wasFree]; decide)]
    exact owned.bound other

theorem put_line_owned (id : Nat) (line : Line) (owned : Owned c lm place free full) (pos : line.pos = (lm.lines id).pos) :
    Owned c (putLine lm id line) place free full := by
  have samePos : ∀ other, ((putLine lm id line).lines other).pos = (lm.lines other).pos := by
    intro other
    unfold putLine
    dsimp only
    by_cases same : other = id
    · rw [same, Function.update_self]
      exact pos
    · rw [Function.update_of_ne same]
  have sameHeap : victimHeap (putLine lm id line) = victimHeap lm := by
    unfold victimHeap
    exact congrArg _ (funext samePos)
  refine ⟨owned.freeRing, owned.fullRing, owned.inFree, owned.inFull, ?_, ?_, owned.freeCnt, owned.fullCnt, owned.victimCnt, owned.bound⟩
  · rw [sameHeap]
    exact owned.heap
  · intro other notVictim
    rw [samePos]
    exact owned.unplaced other notVictim

theorem put_heap_owned (heap : IndexedHeap.Heap Nat) (owned : Owned c lm place free full)
    (holds : IndexedHeap.Holds heap {id | place id = .victim})
    (same : IndexedHeap.SameOutside (victimHeap lm) heap {id | place id = .victim}) : Owned c (putVictimHeap lm heap) place free full := by
  refine ⟨owned.freeRing, owned.fullRing, owned.inFree, owned.inFull, holds, ?_, owned.freeCnt, owned.fullCnt, ?_, owned.bound⟩
  · intro other notVictim
    exact (same.pos other notVictim).trans (owned.unplaced other notVictim)
  · exact same.size.trans owned.victimCnt

theorem add_full_owned (id : Nat) (owned : Owned c lm place free full) (loose : Loose (place id)) :
    Owned c (addFull lm id) (Function.update place id .full) free (full ++ [id]) := by
  obtain ⟨notFree, notFull, notVictim, notBeyond⟩ := loose_apart _ loose
  have inside := (owned.bound id).mp notBeyond
  have outsideFree : id ∉ free := fun member => notFree ((owned.inFree id).mp member)
  have outsideFull : id ∉ full := fun member => notFull ((owned.inFull id).mp member)
  have room := list_room full _ id (ring_nodup _ _ _ owned.fullRing)
    (fun other member => placed_below c lm place free full owned other _ ((owned.inFull other).mp member) (by decide)) inside outsideFull
  refine ⟨?_, ?_, ?_, ?_, ?_, ?_, owned.freeCnt, ?_, owned.victimCnt, ?_⟩
  · refine IntrusiveList.ring_add_tail_frame lm.links .free .full (.line id) _ _ owned.freeRing owned.fullRing
      (unlisted free .free id (fun _ => by simp) outsideFree) ?_
    exact fun node inFree inFull => lists_apart c lm place free full owned node inFull inFree
  · rw [List.map_append]
    exact IntrusiveList.ring_add_tail lm.links .full (.line id) _ owned.fullRing (unlisted full .full id (fun _ => by simp) outsideFull)
  · intro other
    rw [move_keeps place id .full .free (by decide) notFree]
    exact owned.inFree other
  · intro other
    rw [move_enters place id .full, ← owned.inFull other, List.mem_append, List.mem_singleton, or_comm]
  · have same : {other | Function.update place id .full other = .victim} = {other | place other = .victim} := by
      ext other
      exact move_keeps place id .full .victim (by decide) notVictim other
    rw [same]
    exact owned.heap
  · intro other unqueued
    rw [ne_eq, move_keeps place id .full .victim (by decide) notVictim] at unqueued
    exact owned.unplaced other unqueued
  · have counted := inc_cnt full.length _ room (lines_below c)
    rw [List.length_append, List.length_singleton, ← counted, ← owned.fullCnt]
    rfl
  · intro other
    rw [ne_eq, move_keeps place id .full .beyond (by decide) notBeyond]
    exact owned.bound other

theorem add_free_owned (id : Nat) (owned : Owned c lm place free full) (loose : Loose (place id)) :
    Owned c (addFree lm id) (Function.update place id .free) (free ++ [id]) full := by
  obtain ⟨notFree, notFull, notVictim, notBeyond⟩ := loose_apart _ loose
  have inside := (owned.bound id).mp notBeyond
  have outsideFree : id ∉ free := fun member => notFree ((owned.inFree id).mp member)
  have outsideFull : id ∉ full := fun member => notFull ((owned.inFull id).mp member)
  have room := list_room free _ id (ring_nodup _ _ _ owned.freeRing)
    (fun other member => placed_below c lm place free full owned other _ ((owned.inFree other).mp member) (by decide)) inside outsideFree
  refine ⟨?_, ?_, ?_, ?_, ?_, ?_, ?_, owned.fullCnt, owned.victimCnt, ?_⟩
  · rw [List.map_append]
    exact IntrusiveList.ring_add_tail lm.links .free (.line id) _ owned.freeRing (unlisted free .free id (fun _ => by simp) outsideFree)
  · exact IntrusiveList.ring_add_tail_frame lm.links .full .free (.line id) _ _ owned.fullRing owned.freeRing
      (unlisted full .full id (fun _ => by simp) outsideFull) (lists_apart c lm place free full owned)
  · intro other
    rw [move_enters place id .free, ← owned.inFree other, List.mem_append, List.mem_singleton, or_comm]
  · intro other
    rw [move_keeps place id .free .full (by decide) notFull]
    exact owned.inFull other
  · have same : {other | Function.update place id .free other = .victim} = {other | place other = .victim} := by
      ext other
      exact move_keeps place id .free .victim (by decide) notVictim other
    rw [same]
    exact owned.heap
  · intro other unqueued
    rw [ne_eq, move_keeps place id .free .victim (by decide) notVictim] at unqueued
    exact owned.unplaced other unqueued
  · have counted := inc_cnt free.length _ room (lines_below c)
    rw [List.length_append, List.length_singleton, ← counted, ← owned.freeCnt]
    rfl
  · intro other
    rw [ne_eq, move_keeps place id .free .beyond (by decide) notBeyond]
    exact owned.bound other

theorem insert_victim_owned (id : Nat) (owned : Owned c lm place free full) (loose : Loose (place id)) :
    Owned c (insertVictim lm id) (Function.update place id .victim) free full := by
  obtain ⟨notFree, notFull, notVictim, notBeyond⟩ := loose_apart _ loose
  have inside := (owned.bound id).mp notBeyond
  have room := victim_room c lm place free full owned id inside notVictim
  obtain ⟨holds, size, kept⟩ := IndexedHeap.insert_holds (victimLineGetPri lm) (victimHeap lm) _ id owned.heap notVictim
  have members : {other | Function.update place id .victim other = .victim} = insert id {other | place other = .victim} := by
    ext other
    exact move_enters place id .victim other
  refine ⟨owned.freeRing, owned.fullRing, ?_, ?_, ?_, ?_, owned.freeCnt, owned.fullCnt, ?_, ?_⟩
  · intro other
    rw [move_keeps place id .victim .free (by decide) notFree]
    exact owned.inFree other
  · intro other
    rw [move_keeps place id .victim .full (by decide) notFull]
    exact owned.inFull other
  · rw [members]
    exact holds
  · intro other unqueued
    have outside : other ∉ insert id {other | place other = .victim} := by
      rw [← members]
      exact unqueued
    refine (kept other outside).trans (owned.unplaced other ?_)
    exact fun queued => outside (Set.mem_insert_of_mem _ queued)
  · have counted := inc_cnt lm.victimLineCnt _ room (lines_below c)
    change (IndexedHeap.pqueueInsert (victimLineGetPri lm) (victimHeap lm) id).size = incCnt lm.victimLineCnt + 1
    rw [counted, size, ← owned.victimCnt]
    rfl
  · intro other
    rw [ne_eq, move_keeps place id .victim .beyond (by decide) notBeyond]
    exact owned.bound other

theorem del_full_owned (id : Nat) (owned : Owned c lm place free full) (wasFull : place id = .full) :
    ∃ left right, full = left ++ id :: right ∧ Owned c (delFull lm id) (Function.update place id .out) free (left ++ right) := by
  have nodup := ring_nodup _ _ _ owned.fullRing
  have length := full_length c lm place free full owned
  have small := lines_below c
  obtain ⟨left, right, rfl⟩ := List.append_of_mem ((owned.inFull id).mpr wasFull)
  have absent : id ∉ left ++ right := (List.nodup_middle.mp nodup |> List.nodup_cons.mp).1
  refine ⟨left, right, rfl, ?_, ?_, ?_, ?_, ?_, ?_, owned.freeCnt, ?_, owned.victimCnt, ?_⟩
  · refine IntrusiveList.ring_del_init_frame lm.links .free .full (.line id) _ _ owned.freeRing owned.fullRing (by simp) ?_
    exact fun node inFree inFull => lists_apart c lm place free _ owned node inFull inFree
  · have ring := owned.fullRing
    rw [List.map_append, List.map_cons] at ring
    rw [List.map_append]
    exact IntrusiveList.ring_del_init lm.links .full (.line id) _ _ ring
  · intro other
    rw [move_keeps place id .out .free (by decide) (by rw [wasFull]; decide)]
    exact owned.inFree other
  · intro other
    rw [move_leaves place id .out .full (by decide), ← owned.inFull other, List.mem_append, List.mem_append, List.mem_cons]
    constructor
    · intro member
      refine ⟨fun same => absent (same ▸ List.mem_append.mpr member), ?_⟩
      exact member.imp_right .inr
    · rintro ⟨notId, inLeft | same | inRight⟩
      · exact .inl inLeft
      · exact absurd same notId
      · exact .inr inRight
  · have same : {other | Function.update place id .out other = .victim} = {other | place other = .victim} := by
      ext other
      exact move_keeps place id .out .victim (by decide) (by rw [wasFull]; decide) other
    rw [same]
    exact owned.heap
  · intro other unqueued
    rw [ne_eq, move_keeps place id .out .victim (by decide) (by rw [wasFull]; decide)] at unqueued
    exact owned.unplaced other unqueued
  · have count := owned.fullCnt
    rw [List.length_append, List.length_cons] at length count
    rw [List.length_append]
    change decCnt lm.fullLineCnt = _
    rw [count, ← Nat.add_assoc]
    exact dec_cnt _ (by omega)
  · intro other
    rw [ne_eq, move_keeps place id .out .beyond (by decide) (by rw [wasFull]; decide)]
    exact owned.bound other

theorem dec_vpc_owned (id : Nat) (owned : Owned c lm place free full) : Owned c (decVpc lm id) place free full := by
  unfold decVpc
  dsimp only
  split
  · rename_i queued
    have isVictim : place id = .victim := by
      by_contra unqueued
      exact queued (owned.unplaced id unqueued)
    obtain ⟨holds, same⟩ := IndexedHeap.change_priority_holds (victimLineGetPri lm) (victimHeap lm) _
      (((lm.lines id).vpc - 1) % 2 ^ 64).toNat id owned.heap isVictim
    exact put_line_owned c _ place free full id _ (put_heap_owned c lm place free full _ owned holds same) rfl
  · exact put_line_owned c lm place free full id _ owned rfl

theorem pop_owned (id : Nat) (owned : Owned c lm place free full) (peeked : IndexedHeap.pqueuePeek (victimHeap lm) = some id) :
    place id = .victim ∧
      ∀ popped, popped = putVictimHeap lm (IndexedHeap.pqueuePop (victimLineGetPri lm) (victimHeap lm)) →
        Owned c { putLine popped id { popped.lines id with pos := 0 } with victimLineCnt := decCnt popped.victimLineCnt }
          (Function.update place id .out) free full := by
  obtain ⟨isVictim, occupied, root⟩ := IndexedHeap.peek_mem _ _ _ owned.heap peeked
  have wasVictim : place id = .victim := isVictim
  refine ⟨wasVictim, ?_⟩
  rintro popped rfl
  obtain ⟨holds, size, kept⟩ := IndexedHeap.pop_holds (victimLineGetPri lm) (victimHeap lm) _ owned.heap occupied
  rw [root] at holds
  have members : {other | Function.update place id .out other = .victim} = {other | place other = .victim} \ {id} := by
    ext other
    exact (move_leaves place id .out .victim (by decide) other).trans and_comm
  have cleared : ∀ other, ((putLine (putVictimHeap lm (IndexedHeap.pqueuePop (victimLineGetPri lm) (victimHeap lm))) id
      { (putVictimHeap lm (IndexedHeap.pqueuePop (victimLineGetPri lm) (victimHeap lm))).lines id with pos := 0 }).lines other).pos =
        Function.update (IndexedHeap.pqueuePop (victimLineGetPri lm) (victimHeap lm)).pos id 0 other := by
    intro other
    unfold putLine
    dsimp only
    by_cases same : other = id
    · rw [same, Function.update_self, Function.update_self]
    · rw [Function.update_of_ne same, Function.update_of_ne same]
      rfl
  have fits := IndexedHeap.holds_size (victimHeap lm) _ (Finset.range c.blksPerPl) owned.heap fun other member =>
    Finset.mem_range.mpr (placed_below c lm place free full owned other _ member (by decide))
  rw [Finset.card_range] at fits
  have small := lines_below c
  have unused := owned.heap.unused
  have counted := owned.victimCnt
  change lm.victimLineSize ≤ _ at fits
  change 1 ≤ lm.victimLineSize at unused
  change lm.victimLineSize ≠ 1 at occupied
  refine ⟨owned.freeRing, owned.fullRing, ?_, ?_, ?_, ?_, owned.freeCnt, owned.fullCnt, ?_, ?_⟩
  · intro other
    rw [move_keeps place id .out .free (by decide) (by rw [wasVictim]; decide)]
    exact owned.inFree other
  · intro other
    rw [move_keeps place id .out .full (by decide) (by rw [wasVictim]; decide)]
    exact owned.inFull other
  · have forgotten := IndexedHeap.forget_holds _ _ id 0 holds fun inside => inside.2 rfl
    rw [← funext cleared] at forgotten
    rw [members]
    exact forgotten
  · intro other unqueued
    rw [ne_eq, move_leaves place id .out .victim (by decide)] at unqueued
    refine (cleared other).trans ?_
    by_cases same : other = id
    · rw [same, Function.update_self]
    · rw [Function.update_of_ne same]
      have notVictim : place other ≠ .victim := fun queued => unqueued ⟨same, queued⟩
      exact (kept other notVictim).trans (owned.unplaced other notVictim)
  · change (IndexedHeap.pqueuePop (victimLineGetPri lm) (victimHeap lm)).size = decCnt lm.victimLineCnt + 1
    rw [size]
    change lm.victimLineSize - 1 = _
    obtain ⟨rest, more⟩ : ∃ rest, lm.victimLineCnt = rest + 1 := ⟨lm.victimLineCnt - 1, by omega⟩
    rw [more, dec_cnt rest (by omega)]
    omega
  · intro other
    rw [ne_eq, move_keeps place id .out .beyond (by decide) (by rw [wasVictim]; decide)]
    exact owned.bound other

end Operations

section Counts

variable (lm : LineMgmt) (id other : Nat)

theorem insert_victim_counts : ((insertVictim lm id).lines other).vpc = (lm.lines other).vpc ∧
    ((insertVictim lm id).lines other).ipc = (lm.lines other).ipc := ⟨rfl, rfl⟩

theorem dec_vpc_counts : ((decVpc lm id).lines other).ipc = (lm.lines other).ipc ∧
    ((decVpc lm id).lines other).vpc = if other = id then (lm.lines other).vpc - 1 else (lm.lines other).vpc := by
  have queue : ∀ queued : LineMgmt, (∀ line, (queued.lines line).vpc = (lm.lines line).vpc ∧ (queued.lines line).ipc = (lm.lines line).ipc) →
      ((putLine queued id { queued.lines id with vpc := (lm.lines id).vpc - 1 }).lines other).ipc = (lm.lines other).ipc ∧
        ((putLine queued id { queued.lines id with vpc := (lm.lines id).vpc - 1 }).lines other).vpc =
          if other = id then (lm.lines other).vpc - 1 else (lm.lines other).vpc := by
    intro queued same
    unfold putLine
    dsimp only
    by_cases here : other = id
    · rw [here, Function.update_self, if_pos rfl]
      exact ⟨(same id).2, rfl⟩
    · rw [Function.update_of_ne here, if_neg here]
      exact ⟨(same other).2, (same other).1⟩
  unfold decVpc
  dsimp only
  split
  · exact queue _ fun line => ⟨rfl, rfl⟩
  · exact queue _ fun line => ⟨rfl, rfl⟩

def bumpIpc : LineMgmt := putLine lm id { lm.lines id with ipc := (lm.lines id).ipc + 1 }

theorem bump_dec_counts :
    ((decVpc (bumpIpc lm id) id).lines other).vpc = (if other = id then (lm.lines other).vpc - 1 else (lm.lines other).vpc) ∧
    ((decVpc (bumpIpc lm id) id).lines other).ipc = (if other = id then (lm.lines other).ipc + 1 else (lm.lines other).ipc) := by
  obtain ⟨ipc, vpc⟩ := dec_vpc_counts (bumpIpc lm id) id other
  rw [ipc, vpc]
  unfold bumpIpc putLine
  dsimp only
  by_cases here : other = id
  · rw [here, Function.update_self, if_pos rfl, if_pos rfl]
    exact ⟨rfl, rfl⟩
  · rw [Function.update_of_ne here, if_neg here, if_neg here]
    exact ⟨rfl, rfl⟩

end Counts

end ConZone.Conv
