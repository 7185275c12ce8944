import ConZone.L2pSlots
import ConZone.Device
import ConZone.Recency

set_option autoImplicit false

namespace ConZone

section Search

variable (cache : L2pCache) (slot : Nat)

def residentEnt (index : Int) : Bool := (cache.mapping slot index).resident

-- The search passes over resident entries and stops at the first other one.
theorem evict_idx_first (passed left right : List Int) (victim start : Int) (fuel : Nat)
    (chained : Chain.Chained (-1) (slotThread cache slot) (left ++ (passed ++ victim :: right)))
    (kept : ∀ index ∈ passed, residentEnt cache slot index = true) (free : residentEnt cache slot victim = false)
    (starts : (passed ++ [victim]).head? = some start) (enough : passed.length ≤ fuel) :
    evictIdx cache slot fuel start = victim := by
  induction passed generalizing left start fuel with
  | nil =>
      have same : start = victim := (Option.some.inj starts).symm
      rw [same]
      cases fuel with
      | zero => rfl
      | succ fuel =>
          unfold evictIdx
          exact if_neg fun stepped => by rw [residentEnt] at free; rw [free] at stepped; exact Bool.false_ne_true stepped.2
  | cons first rest ih =>
      have same : start = first := (Option.some.inj starts).symm
      cases fuel with
      | zero => exact absurd enough (Nat.not_succ_le_zero _)
      | succ fuel =>
          have inner : first ≠ cache.tail slot := by
            intro last
            have ends := chained.last
            rw [show (slotThread cache slot).tail = first from last.symm] at ends
            have distinct := (List.nodup_append.mp chained.distinct).2.1
            rw [List.cons_append, List.nodup_cons] at distinct
            have behind : first ∈ rest ++ victim :: right := by
              have tail : (left ++ (first :: rest ++ victim :: right)).getLast? = (rest ++ victim :: right).getLast? := by
                simp [List.getLast?_append, List.getLast?_cons]
              rw [tail] at ends
              exact List.mem_of_getLast? ends
            exact distinct.1 behind
          have forward := Chain.chained_next (-1) (slotThread cache slot) left (rest ++ victim :: right) first chained
          have onward := ih (left ++ [first]) ((rest ++ victim :: right).head?.getD (-1)) fuel (by simpa using chained)
            (fun index member => kept index (List.mem_cons_of_mem _ member))
            (by cases rest <;> rfl) (Nat.le_of_succ_le_succ enough)
          rw [same]
          unfold evictIdx
          rw [if_pos ⟨inner, kept first List.mem_cons_self⟩]
          rw [show (cache.mapping slot first).next = (rest ++ victim :: right).head?.getD (-1) from forward]
          exact onward

theorem evict_idx_resident (order : List Int) (listed : SlotOrder cache slot order) (some : order ≠ [])
    (kept : ∀ index ∈ order, residentEnt cache slot index = true) (fuel : Nat) (enough : order.length ≤ fuel) :
    evictIdx cache slot fuel (cache.head slot) = cache.tail slot := by
  cases order with
  | nil => exact absurd rfl some
  | cons first rest =>
      have head : first = cache.head slot := by simpa [slotThread] using listed.chained.first
      rw [List.length_cons] at enough
      obtain ⟨member, found⟩ := evict_idx_found cache slot fuel [] rest first listed.chained (by omega)
      rw [← head]
      rcases found with last | free
      · exact last
      · have resident := kept _ member
        rw [residentEnt, free] at resident
        exact absurd resident Bool.false_ne_true

theorem slot_order_tail (left right : List Int) (index : Int) (listed : SlotOrder cache slot (left ++ index :: right)) :
    index = cache.tail slot ↔ right = [] := by
  constructor
  · intro last
    rcases List.eq_nil_or_concat right with empty | ⟨front, final, ends⟩
    · exact empty
    · have tail := listed.chained.last
      have distinct := listed.chained.distinct
      have closing : (left ++ index :: (front ++ [final])).getLast? = some final := by
        rw [← List.cons_append, ← List.append_assoc, List.getLast?_concat]
      rw [ends, List.concat_eq_append, closing] at tail
      have same : final = index := (Option.some.inj tail).trans last.symm
      rw [List.nodup_middle, List.nodup_cons, ends, same] at distinct
      exact absurd (by simp) distinct.1
  · rintro rfl
    simpa [slotThread] using listed.chained.last

theorem to_tail (left right : List Int) (index : Int) (listed : SlotOrder cache slot (left ++ index :: right)) :
    SlotOrder (if index = cache.tail slot then cache else moveToTail cache slot index) slot (left ++ right ++ [index]) ∧
      SameEntries cache (if index = cache.tail slot then cache else moveToTail cache slot index) ∧
      ∀ other, other ≠ slot →
        slotThread (if index = cache.tail slot then cache else moveToTail cache slot index) other = slotThread cache other := by
  have atTail := slot_order_tail cache slot left right index listed
  by_cases last : index = cache.tail slot
  · rw [if_pos last, atTail.mp last, List.append_nil]
    rw [atTail.mp last] at listed
    exact ⟨listed, same_entries_refl cache, fun _ _ => rfl⟩
  · rw [if_neg last]
    exact ⟨move_to_tail_listed cache slot left right index listed (fun empty => last (atTail.mpr empty)),
      move_to_tail_same cache slot index, move_to_tail_other cache slot index⟩

theorem access_moves (la : Nat) (left right : List Int) (index : Int)
    (listed : SlotOrder cache (la % l2pSlots) (left ++ index :: right)) :
    SlotOrder (l2pAccess cache la index) (la % l2pSlots) (left ++ right ++ [index]) ∧ SameEntries cache (l2pAccess cache la index) ∧
      ∀ other, other ≠ la % l2pSlots → slotThread (l2pAccess cache la index) other = slotThread cache other := by
  have some : index ≠ -1 := by
    rintro rfl
    exact listed.chained.proper (by simp)
  have moved : l2pAccess cache la index =
      if index = cache.tail (la % l2pSlots) then cache else moveToTail cache (la % l2pSlots) index := by
    unfold l2pAccess
    simp only [some, false_or]
  rw [moved]
  exact to_tail cache (la % l2pSlots) left right index listed

end Search

section Insertion

variable (p : Params) (cache : L2pCache) (la : Nat) (gran : MapType) (res : Bool)

theorem insert_full (full : cache.slotLen (la % l2pSlots) = l2pSlotSize) : l2pInsert p cache la gran res = l2pReplace p cache la gran res := by
  simp [l2pInsert, full]

theorem full_order_some (order : List Int) (listed : SlotOrder cache (la % l2pSlots) order)
    (full : cache.slotLen (la % l2pSlots) = l2pSlotSize) : order ≠ [] ∧ order.length ≤ l2pSlotSize := by
  have length := slot_order_length cache _ order listed
  rw [full] at length
  refine ⟨?_, Nat.le_of_eq length⟩
  rintro rfl
  exact absurd length (by decide)

theorem replace_refuses (order : List Int) (listed : SlotOrder cache (la % l2pSlots) order)
    (full : cache.slotLen (la % l2pSlots) = l2pSlotSize)
    (kept : ∀ index ∈ order, residentEnt cache (la % l2pSlots) index = true) : l2pInsert p cache la gran res = (-1, cache) := by
  obtain ⟨some, enough⟩ := full_order_some cache la order listed full
  have tail := evict_idx_resident cache (la % l2pSlots) order listed some kept l2pSlotSize enough
  have last := kept _ (Chain.chained_tail_mem (-1) _ order listed.chained)
  rw [insert_full p cache la gran res full]
  unfold l2pReplace
  dsimp only
  rw [tail]
  exact if_pos ⟨rfl, last⟩

structure Evicted (victim : Int) (after : L2pCache) : Prop where
  entry : ∃ ent : L2pCacheEnt, after.mapping (la % l2pSlots) victim =
    { ent with nsid := p.zpp.nsid, lpn := some la, granularity := gran, resident := res }
  others : ∀ other, other ≠ la % l2pSlots → slotThread after other = slotThread cache other
  slotLen : after.slotLen = cache.slotLen

theorem replace_evicts (left right : List Int) (victim : Int) (listed : SlotOrder cache (la % l2pSlots) (left ++ victim :: right))
    (full : cache.slotLen (la % l2pSlots) = l2pSlotSize) (kept : ∀ index ∈ left, residentEnt cache (la % l2pSlots) index = true)
    (free : residentEnt cache (la % l2pSlots) victim = false) :
    (l2pInsert p cache la gran res).1 = victim ∧
      SlotOrder (l2pInsert p cache la gran res).2 (la % l2pSlots) (left ++ right ++ [victim]) ∧
      Evicted p cache la gran res victim (l2pInsert p cache la gran res).2 := by
  obtain ⟨_, enough⟩ := full_order_some cache la _ listed full
  have head : (left ++ [victim]).head? = some (cache.head (la % l2pSlots)) := by
    have first := listed.chained.first
    cases left with
    | nil => exact first
    | cons start rest => exact first
  have found := evict_idx_first cache (la % l2pSlots) left [] right victim _ l2pSlotSize listed.chained kept free head
    (by simp only [List.length_append] at enough; omega)
  generalize hash : la % l2pSlots = slot at *
  have moved := to_tail cache slot left right victim listed
  rw [insert_full p cache la gran res (by rw [hash]; exact full)]
  unfold l2pReplace
  dsimp only
  rw [hash, found]
  have replaced : ¬(victim = cache.tail slot ∧ (cache.mapping slot victim).resident = true) := by
    rintro ⟨_, resident⟩
    rw [residentEnt, resident] at free
    exact absurd free.symm Bool.false_ne_true
  rw [if_neg replaced]
  dsimp only
  generalize (if victim = cache.tail slot then cache else moveToTail cache slot victim) = middle at moved ⊢
  obtain ⟨order, same, others⟩ := moved
  have cleared : ∀ before : L2pCache, before.slotLen = middle.slotLen → (∀ other, slotThread before other = slotThread middle other) →
      SlotOrder (fillEnt p before slot victim la gran res) slot (left ++ right ++ [victim]) ∧
        Evicted p cache la gran res victim (fillEnt p before slot victim la gran res) := by
    intro before length threads
    have thread := fill_ent_thread p before slot victim la gran res
    refine ⟨?_, ?_, ?_, ?_⟩
    · exact slot_order_other middle _ slot _ order ((thread slot).trans (threads slot)) (congrFun length slot)
    · refine ⟨before.mapping slot victim, ?_⟩
      rw [hash]
      unfold fillEnt
      rw [put_ent_mapping, if_pos ⟨rfl, rfl⟩]
    · intro other apart
      rw [hash] at apart
      exact (thread other).trans ((threads other).trans (others other apart))
    · exact length.trans same.slotLen
  refine ⟨rfl, ?_⟩
  cases (middle.mapping slot victim).lpn with
  | none => exact cleared middle rfl fun _ => rfl
  | some lpn =>
      exact cleared _ (set_idx_rest p middle _ lpn (-1)).2.1 fun other => set_idx_thread p middle _ lpn (-1) other

theorem insert_room (room : cache.slotLen (la % l2pSlots) ≠ l2pSlotSize) :
    l2pInsert p cache la gran res = ((cache.slotLen (la % l2pSlots) : Int), appended p cache (la % l2pSlots) la gran res) := by
  simp only [l2pInsert, room, if_false]
  rfl

structure Replaces (order : List Int) : Prop where
  refuses : (l2pInsert p cache la gran res).1 = -1 ↔ ∀ index ∈ order, residentEnt cache (la % l2pSlots) index = true
  unchanged : (l2pInsert p cache la gran res).1 = -1 → (l2pInsert p cache la gran res).2 = cache
  evicts : ∀ left victim right, order = left ++ victim :: right →
    (∀ index ∈ left, residentEnt cache (la % l2pSlots) index = true) → residentEnt cache (la % l2pSlots) victim = false →
    (l2pInsert p cache la gran res).1 = victim ∧
      SlotOrder (l2pInsert p cache la gran res).2 (la % l2pSlots) (left ++ right ++ [victim]) ∧
      Evicted p cache la gran res victim (l2pInsert p cache la gran res).2

theorem first_free (order : List Int) (slot : Nat) : (∀ index ∈ order, residentEnt cache slot index = true) ∨
    ∃ left victim right, order = left ++ victim :: right ∧ (∀ index ∈ left, residentEnt cache slot index = true) ∧
      residentEnt cache slot victim = false := by
  induction order with
  | nil => exact .inl fun _ absent => absurd absent List.not_mem_nil
  | cons first rest ih =>
      cases resident : residentEnt cache slot first with
      | false => exact .inr ⟨[], first, rest, rfl, fun _ absent => absurd absent List.not_mem_nil, resident⟩
      | true =>
          rcases ih with all | ⟨left, victim, right, split, kept, free⟩
          · exact .inl (List.forall_mem_cons.mpr ⟨resident, all⟩)
          · exact .inr ⟨first :: left, victim, right, by rw [split]; rfl, List.forall_mem_cons.mpr ⟨resident, kept⟩, free⟩

theorem insert_replaces (order : List Int) (listed : SlotOrder cache (la % l2pSlots) order)
    (full : cache.slotLen (la % l2pSlots) = l2pSlotSize) : Replaces p cache la gran res order := by
  have evicts : ∀ left victim right, order = left ++ victim :: right →
      (∀ index ∈ left, residentEnt cache (la % l2pSlots) index = true) → residentEnt cache (la % l2pSlots) victim = false →
      (l2pInsert p cache la gran res).1 = victim ∧
        SlotOrder (l2pInsert p cache la gran res).2 (la % l2pSlots) (left ++ right ++ [victim]) ∧
        Evicted p cache la gran res victim (l2pInsert p cache la gran res).2 := by
    intro left victim right split kept free
    rw [split] at listed
    exact replace_evicts p cache la gran res left right victim listed full kept free
  have refuses := replace_refuses p cache la gran res order listed full
  rcases first_free cache order (la % l2pSlots) with all | ⟨left, victim, right, split, kept, free⟩
  · exact ⟨⟨fun _ => all, fun _ => by rw [refuses all]⟩, fun _ => by rw [refuses all], evicts⟩
  · have taken := (evicts left victim right split kept free).1
    have some : (l2pInsert p cache la gran res).1 ≠ -1 := by
      rw [taken]
      rintro rfl
      exact listed.chained.proper (by rw [split]; simp)
    refine ⟨⟨fun none => absurd none some, fun all => ?_⟩, fun none => absurd none some, evicts⟩
    have resident := all victim (by rw [split]; simp)
    rw [free] at resident
    exact absurd resident Bool.false_ne_true

end Insertion

section Runs

def stampNow (stamps : Nat → Int → Nat) (slot : Nat) (index : Int) (now : Nat) : Nat → Int → Nat :=
  Function.update stamps slot (Function.update (stamps slot) index now)

-- The runs of the cache, with the time each entry was last inserted or
-- accessed. What else the functions do to it leaves the links alone.
inductive Ran : L2pCache → (Nat → Int → Nat) → Nat → Prop where
  | start : Ran ssdInitL2pcache (fun _ _ => 0) 0
  | insert (p : Params) (cache : L2pCache) (stamps : Nat → Int → Nat) (now la : Nat) (gran : MapType) (res : Bool)
      (before : Ran cache stamps now) :
      Ran (l2pInsert p cache la gran res).2 (stampNow stamps (la % l2pSlots) (l2pInsert p cache la gran res).1 now) (now + 1)
  | access (cache : L2pCache) (stamps : Nat → Int → Nat) (now la : Nat) (index : Int) (before : Ran cache stamps now)
      (used : UsedIndex cache (la % l2pSlots) index) :
      Ran (l2pAccess cache la index) (stampNow stamps (la % l2pSlots) index now) (now + 1)
  | relabel (cache after : L2pCache) (stamps : Nat → Int → Nat) (now : Nat) (before : Ran cache stamps now)
      (threads : ∀ slot, slotThread after slot = slotThread cache slot) (slotLen : after.slotLen = cache.slotLen) :
      Ran after stamps now

structure SlotAged (cache : L2pCache) (stamps : Nat → Int → Nat) (now slot : Nat) (order : List Int) : Prop where
  aged : Recency.Aged (stamps slot) now order
  size : cache.slotLen slot ≤ l2pSlotSize
  empty : cache.slotLen slot = 0 → order = [] ∧ cache.head slot = 0 ∧ cache.tail slot = 0
  listed : cache.slotLen slot ≠ 0 → SlotOrder cache slot order

def AllAged (cache : L2pCache) (stamps : Nat → Int → Nat) (now : Nat) : Prop := ∀ slot, ∃ order, SlotAged cache stamps now slot order

variable (cache : L2pCache) (stamps : Nat → Int → Nat) (now : Nat)

theorem slot_aged_same (after : L2pCache) (later slot : Nat) (other : Nat → Int → Nat) (order : List Int)
    (before : SlotAged cache stamps now slot order) (thread : slotThread after slot = slotThread cache slot)
    (length : after.slotLen slot = cache.slotLen slot) (stamp : other slot = stamps slot) (time : now ≤ later) :
    SlotAged after other later slot order := by
  have head : after.head slot = cache.head slot := congrArg Chain.Thread.head thread
  have tail : after.tail slot = cache.tail slot := congrArg Chain.Thread.tail thread
  refine ⟨?_, ?_, ?_, ?_⟩
  · rw [stamp]
    exact Recency.aged_later _ _ _ later before.aged time
  · rw [length]
    exact before.size
  · rw [length, head, tail]
    exact before.empty
  · rw [length]
    exact fun some => slot_order_other cache after slot order (before.listed some) thread length

theorem all_aged_step (after : L2pCache) (slot : Nat) (index : Int) (order : List Int) (all : AllAged cache stamps now)
    (others : ∀ other, other ≠ slot → slotThread after other = slotThread cache other ∧ after.slotLen other = cache.slotLen other)
    (here : SlotAged after (stampNow stamps slot index now) (now + 1) slot order) :
    AllAged after (stampNow stamps slot index now) (now + 1) := by
  intro other
  by_cases same : other = slot
  · exact ⟨order, same ▸ here⟩
  · obtain ⟨old, aged⟩ := all other
    obtain ⟨thread, length⟩ := others other same
    exact ⟨old, slot_aged_same cache stamps now after (now + 1) other _ old aged thread length
      (Function.update_of_ne same _ _) (Nat.le_succ now)⟩

theorem insert_aged (p : Params) (la : Nat) (gran : MapType) (res : Bool) (all : AllAged cache stamps now) :
    AllAged (l2pInsert p cache la gran res).2 (stampNow stamps (la % l2pSlots) (l2pInsert p cache la gran res).1 now) (now + 1) := by
  obtain ⟨order, before⟩ := all (la % l2pSlots)
  have stamped : ∀ index, stampNow stamps (la % l2pSlots) index now (la % l2pSlots) =
      Function.update (stamps (la % l2pSlots)) index now := fun index => Function.update_self _ _ _
  by_cases full : cache.slotLen (la % l2pSlots) = l2pSlotSize
  · have listed := before.listed (by rw [full]; decide)
    have replaces := insert_replaces p cache la gran res order listed full
    rcases first_free cache order (la % l2pSlots) with kept | ⟨left, victim, right, split, kept, free⟩
    · have refused := replaces.refuses.mpr kept
      have same := replaces.unchanged refused
      refine all_aged_step cache stamps now _ _ _ order all (fun _ _ => by rw [same]; exact ⟨rfl, rfl⟩) ?_
      rw [refused, same]
      refine ⟨?_, before.size, before.empty, before.listed⟩
      rw [stamped]
      exact Recency.aged_later _ _ _ _ (Recency.aged_apart _ _ _ _ _ before.aged listed.chained.proper) (Nat.le_succ now)
    · obtain ⟨taken, reordered, evicted⟩ := replaces.evicts left victim right split kept free
      have length := congrFun evicted.slotLen (la % l2pSlots)
      refine all_aged_step cache stamps now _ _ _ (left ++ right ++ [victim]) all
        (fun other apart => ⟨evicted.others other apart, congrFun evicted.slotLen other⟩) ?_
      refine ⟨?_, ?_, ?_, fun _ => reordered⟩
      · rw [stamped, taken]
        have aged := before.aged
        rw [split] at aged
        exact Recency.aged_touch _ _ left right victim aged
      · rw [length]
        exact before.size
      · intro none
        rw [length, full] at none
        exact absurd none (by decide)
  · have room := insert_room p cache la gran res full
    have length := appended_len p cache (la % l2pSlots) la gran res
    have here : (appended p cache (la % l2pSlots) la gran res).slotLen (la % l2pSlots) = cache.slotLen (la % l2pSlots) + 1 := by
      rw [length, Function.update_self]
    have size : cache.slotLen (la % l2pSlots) + 1 ≤ l2pSlotSize := Nat.lt_of_le_of_ne before.size full
    have others : ∀ other, other ≠ la % l2pSlots →
        slotThread (appended p cache (la % l2pSlots) la gran res) other = slotThread cache other ∧
          (appended p cache (la % l2pSlots) la gran res).slotLen other = cache.slotLen other := by
      intro other apart
      refine ⟨appended_other p cache _ la gran res other apart, ?_⟩
      rw [length, Function.update_of_ne apart]
    rw [room]
    by_cases empty : cache.slotLen (la % l2pSlots) = 0
    · obtain ⟨none, head, tail⟩ := before.empty empty
      refine all_aged_step cache stamps now _ _ _ [0] all others ⟨?_, by rw [here]; exact size, fun zero => absurd (here.symm.trans zero) (Nat.succ_ne_zero _),
        fun _ => appended_first p cache _ la gran res empty head tail⟩
      have aged := before.aged
      rw [none] at aged
      rw [stamped, empty]
      exact Recency.aged_renew _ _ [] 0 aged List.not_mem_nil
    · have listed := before.listed empty
      have fresh : (cache.slotLen (la % l2pSlots) : Int) ∉ order := by
        rw [slot_order_mem cache _ order listed]
        intro used
        have upper := used.2
        omega
      refine all_aged_step cache stamps now _ _ _ (order ++ [(cache.slotLen (la % l2pSlots) : Int)]) all others
        ⟨?_, by rw [here]; exact size, fun zero => absurd (here.symm.trans zero) (Nat.succ_ne_zero _), fun _ => appended_listed p cache _ la gran res order empty listed⟩
      rw [stamped]
      exact Recency.aged_renew _ _ order _ before.aged fresh

theorem access_aged (la : Nat) (index : Int) (all : AllAged cache stamps now) (used : UsedIndex cache (la % l2pSlots) index) :
    AllAged (l2pAccess cache la index) (stampNow stamps (la % l2pSlots) index now) (now + 1) := by
  obtain ⟨order, before⟩ := all (la % l2pSlots)
  have some : cache.slotLen (la % l2pSlots) ≠ 0 := by
    have lower := used.1
    have upper := used.2
    omega
  have listed := before.listed some
  obtain ⟨left, right, split⟩ := List.append_of_mem ((slot_order_mem cache _ order listed index).mpr used)
  have aged := before.aged
  rw [split] at listed aged
  obtain ⟨moved, same, others⟩ := access_moves cache la left right index listed
  have length := congrFun same.slotLen (la % l2pSlots)
  refine all_aged_step cache stamps now _ _ index (left ++ right ++ [index]) all
    (fun other apart => ⟨others other apart, congrFun same.slotLen other⟩) ⟨?_, ?_, fun zero => absurd (length.symm.trans zero) some,
      fun _ => moved⟩
  · rw [show stampNow stamps (la % l2pSlots) index now (la % l2pSlots) = Function.update (stamps (la % l2pSlots)) index now from
      Function.update_self _ _ _]
    exact Recency.aged_touch _ _ left right index aged
  · rw [length]
    exact before.size

theorem ran_aged (ran : Ran cache stamps now) : AllAged cache stamps now := by
  induction ran with
  | start =>
      intro slot
      exact ⟨[], ⟨List.Pairwise.nil, fun _ absent => absurd absent List.not_mem_nil⟩, Nat.zero_le _, fun _ => ⟨rfl, rfl, rfl⟩,
        fun some => absurd rfl some⟩
  | insert p cache stamps now la gran res _ ih => exact insert_aged cache stamps now p la gran res ih
  | access cache stamps now la index _ used ih => exact access_aged cache stamps now la index ih used
  | relabel cache after stamps now _ threads slotLen ih =>
      intro slot
      obtain ⟨order, before⟩ := ih slot
      exact ⟨order, slot_aged_same cache stamps now after now slot stamps order before (threads slot) (congrFun slotLen slot) rfl
        (Nat.le_refl now)⟩

-- The victim is the entry whose last use is longest ago, residents left out.
theorem victim_oldest (ran : Ran cache stamps now) (p : Params) (la : Nat) (gran : MapType) (res : Bool)
    (full : cache.slotLen (la % l2pSlots) = l2pSlotSize) (entry : Int) (used : UsedIndex cache (la % l2pSlots) entry)
    (free : residentEnt cache (la % l2pSlots) entry = false) :
    (l2pInsert p cache la gran res).1 ≠ -1 ∧ residentEnt cache (la % l2pSlots) (l2pInsert p cache la gran res).1 = false ∧
      stamps (la % l2pSlots) (l2pInsert p cache la gran res).1 ≤ stamps (la % l2pSlots) entry := by
  obtain ⟨order, before⟩ := ran_aged cache stamps now ran (la % l2pSlots)
  have listed := before.listed (by rw [full]; decide)
  have replaces := insert_replaces p cache la gran res order listed full
  have member := (slot_order_mem cache _ order listed entry).mpr used
  have notResident : ∀ others : List Int, (∀ index ∈ others, residentEnt cache (la % l2pSlots) index = true) → entry ∉ others := by
    intro others kept absent
    have resident := kept entry absent
    rw [free] at resident
    exact Bool.false_ne_true resident
  rcases first_free cache order (la % l2pSlots) with kept | ⟨left, victim, right, split, kept, victimFree⟩
  · exact absurd member (notResident order kept)
  · have aged := before.aged
    rw [split] at aged member
    have taken := (replaces.evicts left victim right split kept victimFree).1
    refine ⟨fun none => ?_, by rw [taken]; exact victimFree, ?_⟩
    · exact notResident order (replaces.refuses.mp none) (by rw [split]; exact member)
    · rw [taken]
      exact Recency.aged_oldest _ _ left right victim entry aged member (notResident left kept)

theorem l2p_replacement_lru :
    (∀ (p : Params) (cache : L2pCache) (la : Nat) (gran : MapType) (res : Bool) (order : List Int),
      SlotOrder cache (la % l2pSlots) order → cache.slotLen (la % l2pSlots) = l2pSlotSize → Replaces p cache la gran res order) ∧
    (∀ (cache : L2pCache) (la : Nat) (left right : List Int) (index : Int), SlotOrder cache (la % l2pSlots) (left ++ index :: right) →
      SlotOrder (l2pAccess cache la index) (la % l2pSlots) (left ++ right ++ [index])) ∧
    ∀ (cache : L2pCache) (stamps : Nat → Int → Nat) (now : Nat), Ran cache stamps now →
      ∀ (p : Params) (la : Nat) (gran : MapType) (res : Bool) (entry : Int), cache.slotLen (la % l2pSlots) = l2pSlotSize →
        UsedIndex cache (la % l2pSlots) entry → residentEnt cache (la % l2pSlots) entry = false →
        (l2pInsert p cache la gran res).1 ≠ -1 ∧ residentEnt cache (la % l2pSlots) (l2pInsert p cache la gran res).1 = false ∧
          stamps (la % l2pSlots) (l2pInsert p cache la gran res).1 ≤ stamps (la % l2pSlots) entry :=
  ⟨fun p cache la gran res order listed full => insert_replaces p cache la gran res order listed full,
    fun cache la left right index listed => (access_moves cache la left right index listed).1,
    fun cache stamps now ran p la gran res entry full used free => victim_oldest cache stamps now ran p la gran res full entry used free⟩

theorem fill_slot (p : Params) (count : Nat) (bound : count ≤ l2pSlotSize) :
    ∃ cache stamps now, Ran cache stamps now ∧ cache.slotLen 0 = count := by
  induction count with
  | zero => exact ⟨_, _, _, .start, rfl⟩
  | succ count ih =>
      obtain ⟨cache, stamps, now, ran, length⟩ := ih (by omega)
      have more := Ran.insert p cache stamps now 0 .pageMap false ran
      rw [insert_room p cache 0 .pageMap false (by rw [show 0 % l2pSlots = 0 from rfl, length]; omega)] at more
      refine ⟨_, _, _, more, ?_⟩
      rw [appended_len, show 0 % l2pSlots = 0 from rfl, Function.update_self, length]

theorem l2p_replacement_lru_sample :
    ∃ cache stamps now order, Ran cache stamps now ∧ Replaces (dualParams sampleConfig .pslc) cache 0 .pageMap false order ∧
      stamps 0 (l2pInsert (dualParams sampleConfig .pslc) cache 0 .pageMap false).1 ≤ stamps 0 7 ∧
      ∃ left right, SlotOrder (l2pAccess cache 0 7) 0 (left ++ right ++ [7]) := by
  obtain ⟨replaces, accesses, oldest⟩ := l2p_replacement_lru
  obtain ⟨cache, stamps, now, ran, length⟩ := fill_slot (dualParams sampleConfig .pslc) l2pSlotSize (Nat.le_refl _)
  have free := Ran.relabel cache { cache with mapping := fun slot index => { cache.mapping slot index with resident := false } }
    stamps now ran (fun _ => rfl) rfl
  generalize same : { cache with mapping := fun slot index => { cache.mapping slot index with resident := false } } = after at free
  have full : after.slotLen (0 % l2pSlots) = l2pSlotSize := by rw [← same]; exact length
  have notResident : residentEnt after (0 % l2pSlots) 7 = false := by rw [← same]; rfl
  have used : UsedIndex after (0 % l2pSlots) 7 := ⟨by decide, by rw [full]; decide⟩
  obtain ⟨order, before⟩ := ran_aged after stamps now free (0 % l2pSlots)
  have listed := before.listed (by rw [full]; decide)
  obtain ⟨left, right, split⟩ := List.append_of_mem ((slot_order_mem after _ order listed 7).mpr used)
  refine ⟨after, stamps, now, order, free, replaces _ after 0 .pageMap false order listed full,
    (oldest after stamps now free (dualParams sampleConfig .pslc) 0 .pageMap false 7 full used notResident).2.2, left, right, ?_⟩
  exact accesses after 0 left right 7 (by rw [← split]; exact listed)

end Runs

end ConZone
