import ConZone.Chain
import ConZone.Mapping

set_option autoImplicit false

namespace ConZone

-- The LRU list of a slot, seen as a chain of entry indexes that ends in -1.
def slotThread (cache : L2pCache) (slot : Nat) : Chain.Thread Int :=
  ⟨⟨fun index => (cache.mapping slot index).next, fun index => (cache.mapping slot index).last⟩, cache.head slot, cache.tail slot⟩

def UsedIndex (cache : L2pCache) (slot : Nat) (index : Int) : Prop := 0 ≤ index ∧ index < cache.slotLen slot

def slotIndexes (count : Nat) : List Int := (List.range count).map Int.ofNat

-- The LRU order of a slot, from its head on.
structure SlotOrder (cache : L2pCache) (slot : Nat) (order : List Int) : Prop where
  chained : Chain.Chained (-1) (slotThread cache slot) order
  used : order.Perm (slotIndexes (cache.slotLen slot))

-- What ties the entries of the slots to the index tables. limit bounds the LPNs
-- of each of the two namespaces that share the cache.
structure CacheRep (limit : Nat → Nat) (cache : L2pCache) : Prop where
  size : ∀ slot, cache.slotLen slot ≤ l2pSlotSize
  empty : ∀ slot, cache.slotLen slot = 0 → cache.head slot = 0 ∧ cache.tail slot = 0
  order : ∀ slot, 0 < cache.slotLen slot → ∃ order, SlotOrder cache slot order
  hashed : ∀ slot index, UsedIndex cache slot index → ∃ lpn, (cache.mapping slot index).lpn = some lpn ∧
    lpn % l2pSlots = slot ∧ (cache.mapping slot index).nsid < 2 ∧ lpn < limit (cache.mapping slot index).nsid ∧
    cache.idx (cache.mapping slot index).nsid lpn = index
  backed : ∀ nsid lpn, cache.idx nsid lpn ≠ -1 → UsedIndex cache (lpn % l2pSlots) (cache.idx nsid lpn) ∧
    (cache.mapping (lpn % l2pSlots) (cache.idx nsid lpn)).nsid = nsid ∧
    (cache.mapping (lpn % l2pSlots) (cache.idx nsid lpn)).lpn = some lpn

section Orders

variable (cache : L2pCache) (slot : Nat) (order : List Int)

theorem slot_order_mem (listed : SlotOrder cache slot order) (index : Int) : index ∈ order ↔ UsedIndex cache slot index := by
  rw [listed.used.mem_iff, slotIndexes, List.mem_map]
  constructor
  · rintro ⟨entry, inside, same⟩
    rw [List.mem_range] at inside
    rw [← same]
    exact ⟨Int.natCast_nonneg entry, by simpa using inside⟩
  · rintro ⟨lower, upper⟩
    exact ⟨index.toNat, by rw [List.mem_range]; omega, Int.toNat_of_nonneg lower⟩

theorem slot_order_length (listed : SlotOrder cache slot order) : order.length = cache.slotLen slot := by
  rw [listed.used.length_eq, slotIndexes, List.length_map, List.length_range]

-- The victim search ends on an entry of the list that is not resident, or at
-- the tail, before it has made as many steps as the list has entries.
theorem evict_idx_found (fuel : Nat) (left right : List Int) (index : Int)
    (chained : Chain.Chained (-1) (slotThread cache slot) (left ++ index :: right)) (enough : right.length ≤ fuel) :
    evictIdx cache slot fuel index ∈ left ++ index :: right ∧
      (evictIdx cache slot fuel index = cache.tail slot ∨
        (cache.mapping slot (evictIdx cache slot fuel index)).resident = false) := by
  induction fuel generalizing left right index with
  | zero =>
      have alone : right = [] := List.length_eq_zero_iff.mp (Nat.le_zero.mp enough)
      subst alone
      have last : index = cache.tail slot := by simpa [slotThread] using chained.last
      exact ⟨by simp [evictIdx], .inl last⟩
  | succ fuel ih =>
      unfold evictIdx
      split
      · rename_i stepped
        have forward := Chain.chained_next (-1) (slotThread cache slot) left right index chained
        cases right with
        | nil =>
            have last : index = cache.tail slot := by simpa [slotThread] using chained.last
            exact absurd last stepped.1
        | cons after right =>
            have next : (cache.mapping slot index).next = after := by simpa [slotThread] using forward
            rw [next]
            have onward := ih (left ++ [index]) right after (by simpa using chained) (by simpa using enough)
            simpa using onward
      · rename_i stays
        refine ⟨by simp, ?_⟩
        by_cases last : index = cache.tail slot
        · exact .inl last
        · exact .inr (by simpa [last] using stays)

end Orders

section Moves

structure SameEntries (before after : L2pCache) : Prop where
  nsid : ∀ slot index, (after.mapping slot index).nsid = (before.mapping slot index).nsid
  lpn : ∀ slot index, (after.mapping slot index).lpn = (before.mapping slot index).lpn
  granularity : ∀ slot index, (after.mapping slot index).granularity = (before.mapping slot index).granularity
  resident : ∀ slot index, (after.mapping slot index).resident = (before.mapping slot index).resident
  idx : after.idx = before.idx
  slotLen : after.slotLen = before.slotLen

theorem same_entries_refl (cache : L2pCache) : SameEntries cache cache :=
  ⟨fun _ _ => rfl, fun _ _ => rfl, fun _ _ => rfl, fun _ _ => rfl, rfl, rfl⟩

theorem same_entries_trans (first second third : L2pCache) (left : SameEntries first second) (right : SameEntries second third) :
    SameEntries first third :=
  ⟨fun slot index => (right.nsid slot index).trans (left.nsid slot index),
    fun slot index => (right.lpn slot index).trans (left.lpn slot index),
    fun slot index => (right.granularity slot index).trans (left.granularity slot index),
    fun slot index => (right.resident slot index).trans (left.resident slot index),
    right.idx.trans left.idx, right.slotLen.trans left.slotLen⟩

variable (cache : L2pCache) (slot : Nat) (index : Int)

theorem put_ent_mapping (ent : L2pCacheEnt) (other : Nat) (entry : Int) :
    (putEnt cache slot index ent).mapping other entry =
      if other = slot ∧ entry = index then ent else cache.mapping other entry := by
  by_cases inSlot : other = slot
  · subst inSlot
    by_cases same : entry = index
    · simp [putEnt, same]
    · simp [putEnt, same]
  · simp [putEnt, inSlot]

theorem put_links_same (next last : Int) :
    SameEntries cache (putEnt cache slot index { cache.mapping slot index with next := next, last := last }) := by
  refine ⟨?_, ?_, ?_, ?_, rfl, rfl⟩
  all_goals
    intro other entry
    rw [put_ent_mapping]
    split
    · rename_i here
      rw [here.1, here.2]
    · rfl

theorem put_ent_thread_other (ent : L2pCacheEnt) (other : Nat) (apart : other ≠ slot) :
    slotThread (putEnt cache slot index ent) other = slotThread cache other := by
  simp [slotThread, putEnt, apart]

theorem put_ent_thread (ent : L2pCacheEnt) :
    slotThread (putEnt cache slot index ent) slot =
      { slotThread cache slot with
        links := ⟨Function.update (slotThread cache slot).links.next index ent.next,
          Function.update (slotThread cache slot).links.prev index ent.last⟩ } := by
  have next : (fun entry => ((putEnt cache slot index ent).mapping slot entry).next) =
      Function.update (fun entry => (cache.mapping slot entry).next) index ent.next := by
    funext entry
    rw [put_ent_mapping]
    by_cases same : entry = index
    · simp [same]
    · simp [same]
  have last : (fun entry => ((putEnt cache slot index ent).mapping slot entry).last) =
      Function.update (fun entry => (cache.mapping slot entry).last) index ent.last := by
    funext entry
    rw [put_ent_mapping]
    by_cases same : entry = index
    · simp [same]
    · simp [same]
  simp only [slotThread]
  rw [next, last]
  rfl

theorem put_last_thread (last : Int) :
    slotThread (putEnt cache slot index { cache.mapping slot index with last := last }) slot =
      { slotThread cache slot with
        links := { (slotThread cache slot).links with prev := Function.update (slotThread cache slot).links.prev index last } } := by
  rw [put_ent_thread]
  simp [slotThread]

theorem put_next_thread (next : Int) :
    slotThread (putEnt cache slot index { cache.mapping slot index with next := next }) slot =
      { slotThread cache slot with
        links := { (slotThread cache slot).links with next := Function.update (slotThread cache slot).links.next index next } } := by
  rw [put_ent_thread]
  simp [slotThread]

theorem put_head_thread (head : Int) :
    slotThread { cache with head := Function.update cache.head slot head } slot = { slotThread cache slot with head := head } := by
  simp [slotThread]

theorem put_tail_thread (tail : Int) :
    slotThread { cache with tail := Function.update cache.tail slot tail } slot = { slotThread cache slot with tail := tail } := by
  simp [slotThread]

theorem unlink_ent_thread : slotThread (unlinkEnt cache slot index) slot = Chain.unlink (-1) (slotThread cache slot) index := by
  unfold unlinkEnt Chain.unlink
  dsimp only
  by_cases atHead : index = cache.head slot
  · rw [if_pos atHead, if_pos (show index = (slotThread cache slot).head from atHead)]
    rw [put_head_thread, put_last_thread]
    rfl
  · rw [if_neg atHead, if_neg (show ¬index = (slotThread cache slot).head from atHead)]
    have first := put_next_thread cache slot (cache.mapping slot index).last (cache.mapping slot index).next
    generalize putEnt cache slot (cache.mapping slot index).last _ = middle at first ⊢
    rw [put_last_thread, first]
    rfl

theorem unlink_ent_same : SameEntries cache (unlinkEnt cache slot index) := by
  unfold unlinkEnt
  dsimp only
  split
  · have put := put_links_same cache slot (cache.mapping slot index).next
      (cache.mapping slot (cache.mapping slot index).next).next (-1)
    exact ⟨put.nsid, put.lpn, put.granularity, put.resident, put.idx, put.slotLen⟩
  · have first := put_links_same cache slot (cache.mapping slot index).last (cache.mapping slot index).next
      (cache.mapping slot (cache.mapping slot index).last).last
    generalize putEnt cache slot (cache.mapping slot index).last _ = middle at first ⊢
    exact same_entries_trans _ _ _ first (put_links_same middle slot (cache.mapping slot index).next
      (middle.mapping slot (cache.mapping slot index).next).next (cache.mapping slot index).last)

theorem unlink_ent_other (other : Nat) (apart : other ≠ slot) :
    slotThread (unlinkEnt cache slot index) other = slotThread cache other := by
  unfold unlinkEnt
  dsimp only
  split
  · simp [slotThread, putEnt, apart]
  · rw [put_ent_thread_other _ _ _ _ other apart, put_ent_thread_other _ _ _ _ other apart]

theorem unlink_ent_tail : (unlinkEnt cache slot index).tail = cache.tail := by
  unfold unlinkEnt
  dsimp only
  split <;> rfl

theorem move_to_tail_same : SameEntries cache (moveToTail cache slot index) := by
  unfold moveToTail
  dsimp only
  have unlinked := unlink_ent_same cache slot index
  generalize unlinkEnt cache slot index = middle at unlinked
  have linked := put_links_same middle slot index (-1) (cache.tail slot)
  generalize putEnt middle slot index _ = placed at linked
  have closed := put_links_same placed slot (cache.tail slot) index (placed.mapping slot (cache.tail slot)).last
  have all := same_entries_trans _ _ _ (same_entries_trans _ _ _ unlinked linked) closed
  exact ⟨all.nsid, all.lpn, all.granularity, all.resident, all.idx, all.slotLen⟩

theorem move_to_tail_other (other : Nat) (apart : other ≠ slot) :
    slotThread (moveToTail cache slot index) other = slotThread cache other := by
  unfold moveToTail
  dsimp only
  have unlinked := unlink_ent_other cache slot index other apart
  generalize unlinkEnt cache slot index = middle at unlinked
  rw [← unlinked]
  simp [slotThread, putEnt, apart]

theorem move_to_tail_thread :
    slotThread (moveToTail cache slot index) slot =
      Chain.append (-1) (Chain.unlink (-1) (slotThread cache slot) index) index := by
  have unlinked := unlink_ent_thread cache slot index
  have tail := unlink_ent_tail cache slot index
  unfold moveToTail Chain.append
  dsimp only
  rw [← unlinked]
  generalize unlinkEnt cache slot index = middle at tail
  rw [← tail]
  have placed := put_ent_thread middle slot index { middle.mapping slot index with last := middle.tail slot, next := -1 }
  generalize putEnt middle slot index _ = next at placed
  have closed := put_next_thread next slot (middle.tail slot) index
  generalize putEnt next slot (middle.tail slot) _ = last at closed
  rw [put_tail_thread, closed, placed]
  rfl

end Moves

section Representation

variable (limit : Nat → Nat) (cache : L2pCache)

theorem used_index_nil (slot : Nat) (index : Int) (used : UsedIndex cache slot index) : index ≠ -1 := by
  have lower := used.1
  omega

theorem rep_relinked (after : L2pCache) (rep : CacheRep limit cache) (same : SameEntries cache after)
    (empty : ∀ slot, cache.slotLen slot = 0 → after.head slot = cache.head slot ∧ after.tail slot = cache.tail slot)
    (order : ∀ slot, 0 < cache.slotLen slot → ∃ order, SlotOrder after slot order) : CacheRep limit after := by
  have used : ∀ slot index, UsedIndex after slot index ↔ UsedIndex cache slot index := by
    intro slot index
    simp [UsedIndex, same.slotLen]
  constructor
  · intro slot
    rw [same.slotLen]
    exact rep.size slot
  · intro slot none
    rw [same.slotLen] at none
    rw [(empty slot none).1, (empty slot none).2]
    exact rep.empty slot none
  · intro slot some
    rw [same.slotLen] at some
    exact order slot some
  · intro slot index inside
    rw [same.lpn, same.nsid, same.idx]
    exact rep.hashed slot index ((used slot index).mp inside)
  · intro nsid lpn cached
    rw [same.idx] at cached ⊢
    rw [same.lpn, same.nsid, used]
    exact rep.backed nsid lpn cached

theorem slot_order_other (after : L2pCache) (slot : Nat) (order : List Int) (listed : SlotOrder cache slot order)
    (thread : slotThread after slot = slotThread cache slot) (length : after.slotLen slot = cache.slotLen slot) :
    SlotOrder after slot order := by
  refine ⟨?_, ?_⟩
  · rw [thread]
    exact listed.chained
  · rw [length]
    exact listed.used

theorem move_to_tail_listed (slot : Nat) (left right : List Int) (index : Int) (listed : SlotOrder cache slot (left ++ index :: right))
    (more : right ≠ []) : SlotOrder (moveToTail cache slot index) slot (left ++ right ++ [index]) := by
  have distinct := listed.chained.distinct
  have proper := listed.chained.proper
  rw [List.nodup_middle, List.nodup_cons] at distinct
  have some : index ≠ -1 := by
    rintro rfl
    exact proper (by simp)
  refine ⟨?_, ?_⟩
  · rw [move_to_tail_thread]
    exact Chain.append_chained (-1) _ _ index (Chain.unlink_chained (-1) _ left right index listed.chained more) distinct.1 some
  · rw [(move_to_tail_same cache slot index).slotLen]
    refine List.Perm.trans ?_ listed.used
    exact (List.perm_append_singleton index (left ++ right)).trans List.perm_middle.symm

theorem move_to_tail_order (slot : Nat) (index : Int) (order : List Int) (listed : SlotOrder cache slot order)
    (used : UsedIndex cache slot index) (inner : index ≠ cache.tail slot) :
    ∃ after, SlotOrder (moveToTail cache slot index) slot after := by
  have inside := (slot_order_mem cache slot order listed index).mpr used
  obtain ⟨left, right, split⟩ := List.append_of_mem inside
  subst split
  refine ⟨left ++ right ++ [index], move_to_tail_listed cache slot left right index listed ?_⟩
  rintro rfl
  have last : index = cache.tail slot := by simpa [slotThread] using listed.chained.last
  exact inner last

theorem move_to_tail_rep (slot : Nat) (index : Int) (rep : CacheRep limit cache) (used : UsedIndex cache slot index)
    (inner : index ≠ cache.tail slot) : CacheRep limit (moveToTail cache slot index) := by
  have same := move_to_tail_same cache slot index
  have positive : 0 < cache.slotLen slot := by
    have lower := used.1
    have upper := used.2
    omega
  refine rep_relinked limit cache _ rep same ?_ ?_
  · intro other none
    have apart : other ≠ slot := by
      rintro rfl
      omega
    have thread := move_to_tail_other cache slot index other apart
    exact ⟨congrArg Chain.Thread.head thread, congrArg Chain.Thread.tail thread⟩
  · intro other some
    obtain ⟨order, listed⟩ := rep.order other some
    by_cases here : other = slot
    · subst here
      exact move_to_tail_order cache other index order listed used inner
    · exact ⟨order, slot_order_other cache _ other order listed (move_to_tail_other cache slot index other here)
        (by rw [same.slotLen])⟩

theorem l2p_access_rep (la : Nat) (index : Int) (rep : CacheRep limit cache)
    (used : index ≠ -1 → UsedIndex cache (la % l2pSlots) index) : CacheRep limit (l2pAccess cache la index) := by
  unfold l2pAccess
  dsimp only
  split
  · exact rep
  · rename_i moved
    rw [not_or] at moved
    exact move_to_tail_rep limit cache (la % l2pSlots) index rep (used moved.1) moved.2

theorem put_data_rep (slot : Nat) (index : Int) (gran : MapType) (res : Bool) (rep : CacheRep limit cache) :
    CacheRep limit (putEnt cache slot index { cache.mapping slot index with granularity := gran, resident := res }) := by
  have nsid : ∀ other entry, ((putEnt cache slot index
      { cache.mapping slot index with granularity := gran, resident := res }).mapping other entry).nsid =
        (cache.mapping other entry).nsid := by
    intro other entry
    rw [put_ent_mapping]
    split
    · rename_i here
      rw [here.1, here.2]
    · rfl
  have lpn : ∀ other entry, ((putEnt cache slot index
      { cache.mapping slot index with granularity := gran, resident := res }).mapping other entry).lpn =
        (cache.mapping other entry).lpn := by
    intro other entry
    rw [put_ent_mapping]
    split
    · rename_i here
      rw [here.1, here.2]
    · rfl
  refine ⟨rep.size, rep.empty, ?_, ?_, ?_⟩
  · intro other some
    obtain ⟨order, listed⟩ := rep.order other some
    refine ⟨order, slot_order_other cache _ other order listed ?_ rfl⟩
    by_cases here : other = slot
    · subst here
      rw [put_ent_thread]
      simp [slotThread]
    · exact put_ent_thread_other cache slot index _ other here
  · intro other entry used
    rw [nsid, lpn]
    exact rep.hashed other entry used
  · intro ns la cached
    rw [nsid, lpn]
    exact rep.backed ns la cached

end Representation

section Insertion

variable (p : Params) (limit : Nat → Nat) (limits : ∀ nsid, nsid < 2 → nsTtLpns p nsid = limit nsid) (own : p.zpp.nsid < 2)

theorem set_idx_read (cache : L2pCache) (nsid lpn : Nat) (index : Int) (inside : lpn < nsTtLpns p nsid) (ns la : Nat) :
    (setL2pcacheidx p cache nsid lpn index).idx ns la = if ns = nsid ∧ la = lpn then index else cache.idx ns la := by
  unfold setL2pcacheidx
  rw [if_pos inside]
  by_cases here : ns = nsid
  · subst here
    by_cases same : la = lpn
    · simp [same]
    · simp [same]
  · simp [here]

theorem set_idx_rest (cache : L2pCache) (nsid lpn : Nat) (index : Int) :
    (setL2pcacheidx p cache nsid lpn index).mapping = cache.mapping ∧
      (setL2pcacheidx p cache nsid lpn index).slotLen = cache.slotLen ∧
      (setL2pcacheidx p cache nsid lpn index).head = cache.head ∧ (setL2pcacheidx p cache nsid lpn index).tail = cache.tail := by
  unfold setL2pcacheidx
  split <;> exact ⟨rfl, rfl, rfl, rfl⟩

theorem set_idx_thread (cache : L2pCache) (nsid lpn : Nat) (index : Int) (slot : Nat) :
    slotThread (setL2pcacheidx p cache nsid lpn index) slot = slotThread cache slot := by
  obtain ⟨mapping, _, head, tail⟩ := set_idx_rest p cache nsid lpn index
  simp [slotThread, mapping, head, tail]

theorem fill_ent_thread (cache : L2pCache) (slot : Nat) (index : Int) (la : Nat) (gran : MapType) (res : Bool) (other : Nat) :
    slotThread (fillEnt p cache slot index la gran res) other = slotThread cache other := by
  unfold fillEnt
  by_cases here : other = slot
  · subst here
    rw [put_ent_thread]
    simp [slotThread]
  · exact put_ent_thread_other cache slot index _ other here

include limits own in
theorem hand_over_rep (cache : L2pCache) (slot : Nat) (index : Int) (la : Nat) (gran : MapType) (res : Bool)
    (rep : CacheRep limit cache) (used : UsedIndex cache slot index) (hash : la % l2pSlots = slot)
    (inside : la < limit p.zpp.nsid) (absent : cache.idx p.zpp.nsid la = -1) (lpn : Nat)
    (held : (cache.mapping slot index).lpn = some lpn) :
    CacheRep limit (setL2pcacheidx p (fillEnt p (setL2pcacheidx p cache (cache.mapping slot index).nsid lpn (-1))
      slot index la gran res) p.zpp.nsid la index) := by
  obtain ⟨old, sameLpn, oldHash, oldNs, oldInside, oldIdx⟩ := rep.hashed slot index used
  have sameOld : old = lpn := Option.some.inj (sameLpn.symm.trans held)
  subst sameOld
  have nil := used_index_nil cache slot index used
  generalize ent : cache.mapping slot index = old' at *
  have cleared : ∀ ns l, (setL2pcacheidx p cache old'.nsid old (-1)).idx ns l =
      if ns = old'.nsid ∧ l = old then -1 else cache.idx ns l :=
    set_idx_read p cache old'.nsid old (-1) (by rw [limits _ oldNs]; exact oldInside)
  obtain ⟨mapping, slotLen, head, tail⟩ := set_idx_rest p cache old'.nsid old (-1)
  have thread := set_idx_thread p cache old'.nsid old (-1)
  generalize setL2pcacheidx p cache old'.nsid old (-1) = middle at cleared mapping slotLen head tail thread
  have filled := fill_ent_thread p middle slot index la gran res
  have entry : ∀ other i, (fillEnt p middle slot index la gran res).mapping other i =
      if other = slot ∧ i = index then
        { middle.mapping slot index with nsid := p.zpp.nsid, lpn := some la, granularity := gran, resident := res }
      else middle.mapping other i := put_ent_mapping middle slot index _
  have filledIdx : (fillEnt p middle slot index la gran res).idx = middle.idx := rfl
  have filledLen : (fillEnt p middle slot index la gran res).slotLen = middle.slotLen := rfl
  have filledHead : (fillEnt p middle slot index la gran res).head = middle.head := rfl
  have filledTail : (fillEnt p middle slot index la gran res).tail = middle.tail := rfl
  generalize fillEnt p middle slot index la gran res = placed at filled entry filledIdx filledLen filledHead filledTail
  have written := set_idx_read p placed p.zpp.nsid la index (by rw [limits _ own]; exact inside)
  obtain ⟨lastMapping, lastLen, lastHead, lastTail⟩ := set_idx_rest p placed p.zpp.nsid la index
  have lastThread := set_idx_thread p placed p.zpp.nsid la index
  generalize setL2pcacheidx p placed p.zpp.nsid la index = after at written lastMapping lastLen lastHead lastTail lastThread
  have length : after.slotLen = cache.slotLen := lastLen.trans (filledLen.trans slotLen)
  have usedSame : ∀ other i, UsedIndex after other i ↔ UsedIndex cache other i := by
    intro other i
    simp [UsedIndex, length]
  have read : ∀ ns l, after.idx ns l =
      if ns = p.zpp.nsid ∧ l = la then index else if ns = old'.nsid ∧ l = old then -1 else cache.idx ns l := by
    intro ns l
    rw [written, filledIdx, cleared]
  have look : ∀ other i, after.mapping other i =
      if other = slot ∧ i = index then
        { cache.mapping slot index with nsid := p.zpp.nsid, lpn := some la, granularity := gran, resident := res }
      else cache.mapping other i := by
    intro other i
    rw [lastMapping, entry, mapping]
  refine ⟨?_, ?_, ?_, ?_, ?_⟩
  · intro other
    rw [length]
    exact rep.size other
  · intro other none
    rw [length] at none
    rw [lastHead, lastTail, filledHead, filledTail, head, tail]
    exact rep.empty other none
  · intro other some
    rw [length] at some
    obtain ⟨order, listed⟩ := rep.order other some
    exact ⟨order, slot_order_other cache after other order listed
      ((lastThread other).trans ((filled other).trans (thread other))) (by rw [length])⟩
  · intro other i usedAfter
    rw [usedSame] at usedAfter
    by_cases here : other = slot ∧ i = index
    · refine ⟨la, ?_⟩
      rw [look, if_pos here]
      dsimp only
      rw [read, if_pos ⟨rfl, rfl⟩, here.1, here.2]
      exact ⟨rfl, hash, own, inside, rfl⟩
    · obtain ⟨l, sameL, hashL, nsL, insideL, idxL⟩ := rep.hashed other i usedAfter
      refine ⟨l, ?_⟩
      rw [look, if_neg here, read]
      have fresh : ¬((cache.mapping other i).nsid = p.zpp.nsid ∧ l = la) := by
        rintro ⟨ns, rfl⟩
        rw [ns, absent] at idxL
        exact used_index_nil cache other i usedAfter idxL.symm
      have kept : ¬((cache.mapping other i).nsid = old'.nsid ∧ l = old) := by
        rintro ⟨ns, rfl⟩
        rw [ns, oldIdx] at idxL
        exact here ⟨hashL.symm.trans oldHash, idxL.symm⟩
      rw [if_neg fresh, if_neg kept]
      exact ⟨sameL, hashL, nsL, insideL, idxL⟩
  · intro ns l cached
    rw [read] at cached ⊢
    rw [usedSame, look]
    by_cases new : ns = p.zpp.nsid ∧ l = la
    · rw [if_pos new, new.2, hash, if_pos ⟨rfl, rfl⟩]
      exact ⟨used, new.1.symm, rfl⟩
    · rw [if_neg new] at cached ⊢
      by_cases dropped : ns = old'.nsid ∧ l = old
      · rw [if_pos dropped] at cached
        exact absurd rfl cached
      · rw [if_neg dropped] at cached ⊢
        obtain ⟨usedL, nsL, lpnL⟩ := rep.backed ns l cached
        have kept : ¬(l % l2pSlots = slot ∧ cache.idx ns l = index) := by
          rintro ⟨sameSlot, sameIndex⟩
          rw [sameSlot, sameIndex, ent] at nsL lpnL
          exact dropped ⟨nsL.symm, (Option.some.inj (lpnL.symm.trans held))⟩
        rw [if_neg kept]
        exact ⟨usedL, nsL, lpnL⟩

def appended (cache : L2pCache) (slot : Nat) (la : Nat) (gran : MapType) (res : Bool) : L2pCache :=
  let index := cache.slotLen slot
  let tail := cache.tail slot
  let cache := fillEnt p cache slot index la gran res
  let cache :=
    if index = 0 then putEnt cache slot index { cache.mapping slot index with next := -1, last := -1 }
    else
      let cache := putEnt cache slot index { cache.mapping slot index with next := -1, last := tail }
      let cache := putEnt cache slot tail { cache.mapping slot tail with next := index }
      { cache with tail := Function.update cache.tail slot index }
  { cache with slotLen := Function.update cache.slotLen slot (index + 1) }

theorem appended_same (cache : L2pCache) (slot la : Nat) (gran : MapType) (res : Bool) :
    SameEntries (fillEnt p cache slot (cache.slotLen slot) la gran res)
      { appended p cache slot la gran res with slotLen := cache.slotLen } := by
  unfold appended
  dsimp only
  have filledTail : (fillEnt p cache slot (cache.slotLen slot) la gran res).slotLen = cache.slotLen := rfl
  generalize fillEnt p cache slot (cache.slotLen slot) la gran res = placed at filledTail
  split
  · have put := put_links_same placed slot (cache.slotLen slot) (-1) (-1)
    exact ⟨put.nsid, put.lpn, put.granularity, put.resident, put.idx, filledTail.symm⟩
  · have first := put_links_same placed slot (cache.slotLen slot) (-1) (cache.tail slot)
    generalize putEnt placed slot (cache.slotLen slot) _ = middle at first
    have second := put_links_same middle slot (cache.tail slot) (cache.slotLen slot) (middle.mapping slot (cache.tail slot)).last
    have both := same_entries_trans _ _ _ first second
    exact ⟨both.nsid, both.lpn, both.granularity, both.resident, both.idx, filledTail.symm⟩

theorem appended_len (cache : L2pCache) (slot la : Nat) (gran : MapType) (res : Bool) :
    (appended p cache slot la gran res).slotLen = Function.update cache.slotLen slot (cache.slotLen slot + 1) := by
  unfold appended
  dsimp only
  split <;> rfl

theorem appended_other (cache : L2pCache) (slot la : Nat) (gran : MapType) (res : Bool) (other : Nat) (apart : other ≠ slot) :
    slotThread (appended p cache slot la gran res) other = slotThread cache other := by
  have filled := fill_ent_thread p cache slot (cache.slotLen slot) la gran res other
  unfold appended
  dsimp only
  generalize fillEnt p cache slot (cache.slotLen slot) la gran res = placed at filled
  rw [← filled]
  split
  · simp [slotThread, putEnt, apart]
  · simp [slotThread, putEnt, apart]

theorem appended_thread (cache : L2pCache) (slot la : Nat) (gran : MapType) (res : Bool) (more : cache.slotLen slot ≠ 0) :
    slotThread (appended p cache slot la gran res) slot = Chain.append (-1) (slotThread cache slot) (cache.slotLen slot) := by
  have filled := fill_ent_thread p cache slot (cache.slotLen slot) la gran res slot
  have tail : (fillEnt p cache slot (cache.slotLen slot) la gran res).tail = cache.tail := rfl
  unfold appended Chain.append
  dsimp only
  rw [if_neg more]
  generalize fillEnt p cache slot (cache.slotLen slot) la gran res = placed at filled tail
  have linked := put_ent_thread placed slot (cache.slotLen slot)
    { placed.mapping slot (cache.slotLen slot) with next := -1, last := cache.tail slot }
  generalize putEnt placed slot (cache.slotLen slot) _ = middle at linked
  have closed := put_next_thread middle slot (cache.tail slot) (cache.slotLen slot)
  generalize putEnt middle slot (cache.tail slot) _ = last at closed
  have moved := put_tail_thread last slot (cache.slotLen slot)
  rw [closed, linked, filled] at moved
  exact moved

theorem slot_indexes_succ (count : Nat) : slotIndexes (count + 1) = slotIndexes count ++ [(count : Int)] := by
  simp [slotIndexes, List.range_succ]

theorem appended_first (cache : L2pCache) (slot la : Nat) (gran : MapType) (res : Bool) (empty : cache.slotLen slot = 0)
    (head : cache.head slot = 0) (tail : cache.tail slot = 0) : SlotOrder (appended p cache slot la gran res) slot [0] := by
  have filled := fill_ent_thread p cache slot (cache.slotLen slot) la gran res slot
  have thread : slotThread (appended p cache slot la gran res) slot =
      { slotThread cache slot with
        links := ⟨Function.update (slotThread cache slot).links.next 0 (-1),
          Function.update (slotThread cache slot).links.prev 0 (-1)⟩ } := by
    unfold appended
    dsimp only
    rw [empty, if_pos (by rfl)]
    rw [empty] at filled
    rw [← filled]
    exact put_ent_thread (fillEnt p cache slot 0 la gran res) slot 0
      { (fillEnt p cache slot 0 la gran res).mapping slot 0 with next := -1, last := -1 }
  refine ⟨?_, ?_⟩
  · rw [thread]
    have one := Chain.chained_singleton (-1 : Int)
      { slotThread cache slot with
        links := ⟨Function.update (slotThread cache slot).links.next 0 (-1),
          Function.update (slotThread cache slot).links.prev 0 (-1)⟩ } (head.trans tail.symm)
      (by simp [slotThread, head]) (by simp [slotThread, head]) (by simp [slotThread, tail])
    simpa [slotThread, head] using one
  · rw [appended_len, Function.update_self, empty]
    simp [slotIndexes]

theorem appended_listed (cache : L2pCache) (slot la : Nat) (gran : MapType) (res : Bool) (order : List Int)
    (some : cache.slotLen slot ≠ 0) (listed : SlotOrder cache slot order) :
    SlotOrder (appended p cache slot la gran res) slot (order ++ [(cache.slotLen slot : Int)]) := by
  refine ⟨?_, ?_⟩
  · rw [appended_thread p cache slot la gran res some]
    refine Chain.append_chained (-1) _ order _ listed.chained ?_ (by omega)
    rw [slot_order_mem cache slot order listed]
    intro used
    have upper := used.2
    omega
  · rw [appended_len, Function.update_self, slot_indexes_succ]
    exact listed.used.append_right _

theorem appended_order (cache : L2pCache) (slot la : Nat) (gran : MapType) (res : Bool) (rep : CacheRep limit cache) :
    ∃ order, SlotOrder (appended p cache slot la gran res) slot order := by
  by_cases empty : cache.slotLen slot = 0
  · obtain ⟨head, tail⟩ := rep.empty slot empty
    exact ⟨[0], appended_first p cache slot la gran res empty head tail⟩
  · obtain ⟨order, listed⟩ := rep.order slot (Nat.pos_of_ne_zero empty)
    exact ⟨_, appended_listed p cache slot la gran res order empty listed⟩

include limits own in
theorem appended_rep (cache : L2pCache) (la : Nat) (gran : MapType) (res : Bool) (rep : CacheRep limit cache)
    (room : cache.slotLen (la % l2pSlots) < l2pSlotSize) (inside : la < limit p.zpp.nsid)
    (absent : cache.idx p.zpp.nsid la = -1) :
    CacheRep limit (setL2pcacheidx p (appended p cache (la % l2pSlots) la gran res) p.zpp.nsid la
      (cache.slotLen (la % l2pSlots))) := by
  have grown := appended_len p cache (la % l2pSlots) la gran res
  have same := appended_same p cache (la % l2pSlots) la gran res
  have order := appended_order p limit cache (la % l2pSlots) la gran res rep
  have others := appended_other p cache (la % l2pSlots) la gran res
  generalize hash : la % l2pSlots = slot at *
  have entry : ∀ other i, (fillEnt p cache slot (cache.slotLen slot) la gran res).mapping other i =
      if other = slot ∧ i = cache.slotLen slot then
        { cache.mapping slot (cache.slotLen slot) with nsid := p.zpp.nsid, lpn := some la, granularity := gran, resident := res }
      else cache.mapping other i := put_ent_mapping cache slot (cache.slotLen slot) _
  have filledIdx : (fillEnt p cache slot (cache.slotLen slot) la gran res).idx = cache.idx := rfl
  have nsid := same.nsid
  have lpn := same.lpn
  have idx := same.idx.trans filledIdx
  dsimp only at nsid lpn idx
  simp only [entry] at nsid lpn
  generalize appended p cache slot la gran res = grownCache at *
  have written := set_idx_read p grownCache p.zpp.nsid la (cache.slotLen slot) (by rw [limits _ own]; exact inside)
  obtain ⟨lastMapping, lastLen, lastHead, lastTail⟩ := set_idx_rest p grownCache p.zpp.nsid la (cache.slotLen slot)
  have lastThread := set_idx_thread p grownCache p.zpp.nsid la (cache.slotLen slot)
  generalize setL2pcacheidx p grownCache p.zpp.nsid la (cache.slotLen slot) = after at written lastMapping lastLen lastHead lastTail lastThread
  have length : ∀ other, after.slotLen other = if other = slot then cache.slotLen slot + 1 else cache.slotLen other := by
    intro other
    rw [lastLen, grown]
    by_cases here : other = slot
    · simp [here]
    · simp [here]
  have read : ∀ ns l, after.idx ns l = if ns = p.zpp.nsid ∧ l = la then (cache.slotLen slot : Int) else cache.idx ns l := by
    intro ns l
    rw [written, idx]
  have older : ∀ other i, UsedIndex cache other i → UsedIndex after other i ∧ ¬(other = slot ∧ i = cache.slotLen slot) := by
    intro other i used
    obtain ⟨lower, upper⟩ := used
    refine ⟨⟨lower, ?_⟩, ?_⟩
    · rw [length]
      split
      · rename_i here
        subst here
        omega
      · exact upper
    · rintro ⟨rfl, rfl⟩
      omega
  refine ⟨?_, ?_, ?_, ?_, ?_⟩
  · intro other
    rw [length]
    split
    · omega
    · exact rep.size other
  · intro other none
    rw [length] at none
    split at none
    · omega
    · rename_i apart
      have thread := (lastThread other).trans (others other apart)
      have head : after.head other = cache.head other := congrArg Chain.Thread.head thread
      have tail : after.tail other = cache.tail other := congrArg Chain.Thread.tail thread
      rw [head, tail]
      exact rep.empty other none
  · intro other some
    by_cases here : other = slot
    · subst here
      obtain ⟨sorted, listed⟩ := order
      exact ⟨sorted, slot_order_other grownCache after other sorted listed (lastThread other) (by rw [lastLen])⟩
    · rw [length, if_neg here] at some
      obtain ⟨sorted, listed⟩ := rep.order other some
      exact ⟨sorted, slot_order_other cache after other sorted listed ((lastThread other).trans (others other here))
        (by rw [length, if_neg here])⟩
  · intro other i used
    rw [lastMapping, nsid, lpn]
    by_cases here : other = slot ∧ i = cache.slotLen slot
    · refine ⟨la, ?_⟩
      rw [if_pos here]
      dsimp only
      rw [read, if_pos ⟨rfl, rfl⟩, here.1, here.2]
      exact ⟨rfl, hash, own, inside, rfl⟩
    · have usedBefore : UsedIndex cache other i := by
        obtain ⟨lower, upper⟩ := used
        refine ⟨lower, ?_⟩
        rw [length] at upper
        by_cases inSlot : other = slot
        · subst inSlot
          rw [if_pos rfl] at upper
          have apart : i ≠ cache.slotLen other := fun same => here ⟨rfl, same⟩
          omega
        · rw [if_neg inSlot] at upper
          exact upper
      obtain ⟨l, sameL, hashL, nsL, insideL, idxL⟩ := rep.hashed other i usedBefore
      refine ⟨l, ?_⟩
      rw [if_neg here, read]
      have fresh : ¬((cache.mapping other i).nsid = p.zpp.nsid ∧ l = la) := by
        rintro ⟨ns, rfl⟩
        rw [ns, absent] at idxL
        exact used_index_nil cache other i usedBefore idxL.symm
      rw [if_neg fresh]
      exact ⟨sameL, hashL, nsL, insideL, idxL⟩
  · intro ns l cached
    rw [read] at cached ⊢
    rw [lastMapping, nsid, lpn]
    by_cases new : ns = p.zpp.nsid ∧ l = la
    · rw [if_pos new, new.2, hash, if_pos ⟨rfl, rfl⟩]
      refine ⟨⟨by omega, ?_⟩, new.1.symm, rfl⟩
      rw [length, if_pos rfl]
      omega
    · rw [if_neg new] at cached ⊢
      obtain ⟨usedL, nsL, lpnL⟩ := rep.backed ns l cached
      obtain ⟨usedAfter, apart⟩ := older _ _ usedL
      rw [if_neg apart]
      exact ⟨usedAfter, nsL, lpnL⟩

theorem set_idx_absent (cache : L2pCache) (nsid lpn : Nat) (absent : cache.idx nsid lpn = -1) :
    setL2pcacheidx p cache nsid lpn (-1) = cache := by
  unfold setL2pcacheidx
  split
  · rw [← absent, Function.update_eq_self, Function.update_eq_self]
  · rfl

include limits own in
theorem l2p_replace_rep (cache : L2pCache) (la : Nat) (gran : MapType) (res : Bool) (rep : CacheRep limit cache)
    (full : cache.slotLen (la % l2pSlots) = l2pSlotSize) (inside : la < limit p.zpp.nsid)
    (absent : cache.idx p.zpp.nsid la = -1) :
    CacheRep limit (setL2pcacheidx p (l2pReplace p cache la gran res).2 p.zpp.nsid la (l2pReplace p cache la gran res).1) := by
  have positive : 0 < cache.slotLen (la % l2pSlots) := by
    rw [full]
    decide
  obtain ⟨order, listed⟩ := rep.order (la % l2pSlots) positive
  have length := slot_order_length cache _ order listed
  have used : UsedIndex cache (la % l2pSlots) (evictIdx cache (la % l2pSlots) l2pSlotSize (cache.head (la % l2pSlots))) := by
    cases order with
    | nil =>
        rw [List.length_nil] at length
        omega
    | cons first rest =>
        have head : first = cache.head (la % l2pSlots) := by simpa [slotThread] using listed.chained.first
        rw [← head, ← slot_order_mem cache _ _ listed]
        refine (evict_idx_found cache _ l2pSlotSize [] rest first listed.chained ?_).1
        rw [List.length_cons] at length
        omega
  unfold l2pReplace
  dsimp only
  generalize evictIdx cache (la % l2pSlots) l2pSlotSize (cache.head (la % l2pSlots)) = index at used
  split
  · rw [set_idx_absent p cache p.zpp.nsid la absent]
    exact rep
  · dsimp only
    have moved : CacheRep limit (if index = cache.tail (la % l2pSlots) then cache else moveToTail cache (la % l2pSlots) index) ∧
        SameEntries cache (if index = cache.tail (la % l2pSlots) then cache else moveToTail cache (la % l2pSlots) index) := by
      split
      · exact ⟨rep, same_entries_refl cache⟩
      · rename_i inner
        exact ⟨move_to_tail_rep limit cache _ index rep used inner, move_to_tail_same cache _ index⟩
    generalize (if index = cache.tail (la % l2pSlots) then cache else moveToTail cache (la % l2pSlots) index) = middle at moved ⊢
    obtain ⟨movedRep, same⟩ := moved
    have usedAfter : UsedIndex middle (la % l2pSlots) index := by
      simpa [UsedIndex, same.slotLen] using used
    obtain ⟨lpn, held, _⟩ := movedRep.hashed (la % l2pSlots) index usedAfter
    rw [held]
    exact hand_over_rep p limit limits own middle (la % l2pSlots) index la gran res movedRep usedAfter rfl inside
      (by rw [same.idx]; exact absent) lpn held

include limits own in
theorem l2p_insert_rep (cache : L2pCache) (la : Nat) (gran : MapType) (res : Bool) (rep : CacheRep limit cache)
    (inside : la < limit p.zpp.nsid) (absent : cache.idx p.zpp.nsid la = -1) :
    CacheRep limit (setL2pcacheidx p (l2pInsert p cache la gran res).2 p.zpp.nsid la (l2pInsert p cache la gran res).1) := by
  by_cases full : cache.slotLen (la % l2pSlots) = l2pSlotSize
  · have replaced : l2pInsert p cache la gran res = l2pReplace p cache la gran res := by simp [l2pInsert, full]
    rw [replaced]
    exact l2p_replace_rep p limit limits own cache la gran res rep full inside absent
  · have grown : l2pInsert p cache la gran res =
        ((cache.slotLen (la % l2pSlots) : Int), appended p cache (la % l2pSlots) la gran res) := by
      simp only [l2pInsert, full, if_false]
      rfl
    rw [grown]
    have room := Nat.lt_of_le_of_ne (rep.size (la % l2pSlots)) full
    exact appended_rep p limit limits own cache la gran res rep room inside absent

include limits own in
theorem recorded_used (cache : L2pCache) (la : Nat) (index : Int) (inside : la < limit p.zpp.nsid)
    (rep : CacheRep limit (setL2pcacheidx p cache p.zpp.nsid la index)) :
    index ≠ -1 → UsedIndex (setL2pcacheidx p cache p.zpp.nsid la index) (la % l2pSlots) index := by
  intro some
  have read := set_idx_read p cache p.zpp.nsid la index (by rw [limits _ own]; exact inside) p.zpp.nsid la
  rw [if_pos ⟨rfl, rfl⟩] at read
  have backed := rep.backed p.zpp.nsid la (by rw [read]; exact some)
  rw [read] at backed
  exact backed.1

end Insertion

end ConZone
