import ConZone.Depot
import ConZone.LineCensus
import ConZone.UnitReservation

set_option autoImplicit false

namespace ConZone

-- Where a line of the namespace is kept: in a list or the queue, behind a write
-- pointer, or nowhere while it is collected.
inductive Home where
  | free
  | full
  | victim
  | cur (name : WpName)
  | out
  | beyond
  deriving DecidableEq

def homeLabels : Depot.Labels Home := ⟨.free, .full, .victim, by decide, by decide, by decide⟩

def lineHeads (loc : Loc) : Depot.Heads LineRef ListNode where
  node := .line
  first := .free loc
  second := .full loc
  injective := fun _ _ same => ListNode.line.inj same
  firstHead := fun _ => ListNode.noConfusion
  secondHead := fun _ => ListNode.noConfusion
  apart := ListNode.noConfusion

structure Housed (p : Params) (loc : Loc) (lm : LineMgmt) (home : LineRef → Home) (free full : List LineRef) : Prop where
  stored : Depot.Stored homeLabels (lineHeads loc) lm.links (victimHeap lm loc) home free full
  freeCnt : lm.freeLineCnt loc = free.length
  fullCnt : lm.fullLineCnt loc = full.length
  victimCnt : (lm.victimLinePq loc).size = lm.victimLineCnt loc + 1
  bound : ∀ ref, home ref ≠ .beyond ↔ ref ∈ lineRefs p

theorem cur_outside (name : WpName) : Depot.Outside homeLabels (.cur name) := ⟨nofun, nofun, nofun⟩

theorem out_outside : Depot.Outside homeLabels .out := ⟨nofun, nofun, nofun⟩

section Counts

theorem inc_cnt (counts : Loc → Nat) (loc : Loc) (bound : Nat) (below : counts loc < bound) (small : bound < 2 ^ 32) :
    incCnt counts loc loc = counts loc + 1 := by
  unfold incCnt u32
  rw [Function.update_self]
  omega

theorem dec_cnt (counts : Loc → Nat) (loc : Loc) (rest : Nat) (positive : counts loc = rest + 1) (small : rest + 1 < 2 ^ 32) :
    decCnt counts loc loc = rest := by
  unfold decCnt u32
  rw [Function.update_self, positive]
  omega

theorem nodup_below (refs bound : List LineRef) (nodup : refs.Nodup) (inside : ∀ ref ∈ refs, ref ∈ bound) : refs.length ≤ bound.length :=
  (nodup.subperm inside).length_le

end Counts

section Homes

variable (p : Params) (loc : Loc) (few : (lineRefs p).length < 2 ^ 32)
variable (lm : LineMgmt) (home : LineRef → Home) (free full : List LineRef)

theorem housed_known (housed : Housed p loc lm home free full) (ref : LineRef) (value : Home) (here : home ref = value)
    (apart : value ≠ .beyond) : ref ∈ lineRefs p :=
  (housed.bound ref).mp (by rw [here]; exact apart)

theorem move_bound (housed : Housed p loc lm home free full) (ref : LineRef) (value : Home) (inside : home ref ≠ .beyond)
    (apart : value ≠ .beyond) (other : LineRef) : Function.update home ref value other ≠ .beyond ↔ other ∈ lineRefs p := by
  rw [← housed.bound other, ne_eq, Depot.move_keeps home ref value .beyond apart inside]

theorem free_room (housed : Housed p loc lm home free full) (ref : LineRef) (inside : home ref ≠ .beyond) (outside : home ref ≠ .free) :
    free.length < (lineRefs p).length := by
  have nodup := Depot.firsts_nodup _ _ _ _ _ _ _ housed.stored
  refine nodup_below (ref :: free) _ (List.nodup_cons.mpr ⟨fun member => outside ((housed.stored.inFirst ref).mp member), nodup⟩) ?_
  intro other member
  rcases List.mem_cons.mp member with rfl | listed
  · exact (housed.bound other).mp inside
  · exact housed_known p loc lm home free full housed other .free ((housed.stored.inFirst other).mp listed) (by decide)

theorem full_room (housed : Housed p loc lm home free full) (ref : LineRef) (inside : home ref ≠ .beyond) (outside : home ref ≠ .full) :
    full.length < (lineRefs p).length := by
  have nodup := Depot.seconds_nodup _ _ _ _ _ _ _ housed.stored
  refine nodup_below (ref :: full) _ (List.nodup_cons.mpr ⟨fun member => outside ((housed.stored.inSecond ref).mp member), nodup⟩) ?_
  intro other member
  rcases List.mem_cons.mp member with rfl | listed
  · exact (housed.bound other).mp inside
  · exact housed_known p loc lm home free full housed other .full ((housed.stored.inSecond other).mp listed) (by decide)

theorem free_bound (housed : Housed p loc lm home free full) : free.length ≤ (lineRefs p).length :=
  nodup_below free _ (Depot.firsts_nodup _ _ _ _ _ _ _ housed.stored) fun ref listed =>
    housed_known p loc lm home free full housed ref .free ((housed.stored.inFirst ref).mp listed) (by decide)

theorem full_bound (housed : Housed p loc lm home free full) : full.length ≤ (lineRefs p).length :=
  nodup_below full _ (Depot.seconds_nodup _ _ _ _ _ _ _ housed.stored) fun ref listed =>
    housed_known p loc lm home free full housed ref .full ((housed.stored.inSecond ref).mp listed) (by decide)

theorem victim_room (housed : Housed p loc lm home free full) (ref : LineRef) (inside : home ref ≠ .beyond) (outside : home ref ≠ .victim) :
    lm.victimLineCnt loc < (lineRefs p).length := by
  have known := (housed.bound ref).mp inside
  have fits := IndexedHeap.holds_size (victimHeap lm loc) _ ((lineRefs p).toFinset.erase ref) housed.stored.queued fun other member => by
    refine Finset.mem_erase.mpr ⟨fun same => outside (same ▸ member), List.mem_toFinset.mpr ?_⟩
    exact housed_known p loc lm home free full housed other .victim member (by decide)
  rw [Finset.card_erase_of_mem (List.mem_toFinset.mpr known), List.toFinset_card_of_nodup (line_refs_distinct p)] at fits
  have counted := housed.victimCnt
  change (lm.victimLinePq loc).size ≤ _ at fits
  have positive := List.length_pos_of_mem known
  omega

theorem victim_bound (housed : Housed p loc lm home free full) : lm.victimLineCnt loc ≤ (lineRefs p).length := by
  have fits := IndexedHeap.holds_size (victimHeap lm loc) _ (lineRefs p).toFinset housed.stored.queued fun other member =>
    List.mem_toFinset.mpr (housed_known p loc lm home free full housed other .victim member (by decide))
  rw [List.toFinset_card_of_nodup (line_refs_distinct p)] at fits
  have counted := housed.victimCnt
  change (lm.victimLinePq loc).size ≤ _ at fits
  omega

theorem housed_lines (lines : LineRef → Line) (same : ∀ ref, (lines ref).pos = (lm.lines ref).pos) (housed : Housed p loc lm home free full) :
    Housed p loc { lm with lines := lines } home free full := by
  have heap : victimHeap { lm with lines := lines } loc = victimHeap lm loc := by
    unfold victimHeap
    rw [funext same]
  refine ⟨?_, housed.freeCnt, housed.fullCnt, housed.victimCnt, housed.bound⟩
  rw [heap]
  exact housed.stored

theorem victim_heap_put (heap : IndexedHeap.Heap LineRef) : victimHeap (putVictimHeap lm loc heap) loc = heap := by
  simp [victimHeap, putVictimHeap]

include few in
theorem add_free_housed (ref : LineRef) (housed : Housed p loc lm home free full) (outside : Depot.Outside homeLabels (home ref))
    (inside : home ref ≠ .beyond) :
    Housed p loc (addFree lm loc ref) (Function.update home ref .free) (free ++ [ref]) full := by
  have room := free_room p loc lm home free full housed ref inside outside.first
  refine ⟨Depot.add_first homeLabels (lineHeads loc) lm.links _ home free full ref housed.stored outside, ?_, housed.fullCnt, housed.victimCnt,
    move_bound p loc lm home free full housed ref .free inside (by decide)⟩
  have counted := inc_cnt lm.freeLineCnt loc _ (by rw [housed.freeCnt]; exact room) few
  rw [List.length_append, List.length_singleton, ← housed.freeCnt]
  exact counted

include few in
theorem add_full_housed (ref : LineRef) (housed : Housed p loc lm home free full) (outside : Depot.Outside homeLabels (home ref))
    (inside : home ref ≠ .beyond) :
    Housed p loc (addFull lm loc ref) (Function.update home ref .full) free (full ++ [ref]) := by
  have room := full_room p loc lm home free full housed ref inside outside.second
  refine ⟨Depot.add_second homeLabels (lineHeads loc) lm.links _ home free full ref housed.stored outside, housed.freeCnt, ?_, housed.victimCnt,
    move_bound p loc lm home free full housed ref .full inside (by decide)⟩
  have counted := inc_cnt lm.fullLineCnt loc _ (by rw [housed.fullCnt]; exact room) few
  rw [List.length_append, List.length_singleton, ← housed.fullCnt]
  exact counted

include few in
theorem del_free_housed (ref : LineRef) (value : Home) (housed : Housed p loc lm home (ref :: free) full)
    (outside : Depot.Outside homeLabels value) (inside : value ≠ .beyond) :
    Housed p loc (delFree lm loc ref) (Function.update home ref value) free full := by
  have here := (housed.stored.inFirst ref).mp (List.mem_cons_self ..)
  have known : home ref ≠ .beyond := by rw [here]; decide
  have length := free_bound p loc lm home _ full housed
  refine ⟨Depot.take_first homeLabels (lineHeads loc) lm.links _ home free full ref value housed.stored outside, ?_, housed.fullCnt,
    housed.victimCnt, move_bound p loc lm home _ full housed ref value known inside⟩
  refine dec_cnt lm.freeLineCnt loc _ (housed.freeCnt.trans (List.length_cons ..)) ?_
  rw [List.length_cons] at length
  omega

include few in
theorem del_full_housed (ref : LineRef) (value : Home) (left right : List LineRef)
    (housed : Housed p loc lm home free (left ++ ref :: right)) (outside : Depot.Outside homeLabels value) (inside : value ≠ .beyond) :
    Housed p loc (delFull lm loc ref) (Function.update home ref value) free (left ++ right) := by
  have here := (housed.stored.inSecond ref).mp (by simp)
  have known : home ref ≠ .beyond := by rw [here]; decide
  have length := full_bound p loc lm home free _ housed
  refine ⟨Depot.remove_second homeLabels (lineHeads loc) lm.links _ home free ref value left right housed.stored outside, housed.freeCnt, ?_,
    housed.victimCnt, move_bound p loc lm home free _ housed ref value known inside⟩
  have count := housed.fullCnt
  rw [List.length_append, List.length_cons] at length count
  refine dec_cnt lm.fullLineCnt loc _ ?_ ?_
  · rw [List.length_append, count, ← Nat.add_assoc]
  · rw [List.length_append]
    omega

include few in
theorem insert_victim_housed (ref : LineRef) (housed : Housed p loc lm home free full) (outside : Depot.Outside homeLabels (home ref))
    (inside : home ref ≠ .beyond) :
    Housed p loc (insertVictim lm loc ref) (Function.update home ref .victim) free full := by
  have room := victim_room p loc lm home free full housed ref inside outside.queue
  obtain ⟨stored, size⟩ := Depot.enqueue homeLabels (lineHeads loc) lm.links (victimHeap lm loc) home free full (victimPri lm) ref
    housed.stored outside
  refine ⟨?_, housed.freeCnt, housed.fullCnt, ?_, move_bound p loc lm home free full housed ref .victim inside (by decide)⟩
  · have heap : victimHeap (insertVictim lm loc ref) loc = IndexedHeap.pqueueInsert (victimPri lm) (victimHeap lm loc) ref :=
      victim_heap_put loc lm _
    rw [heap]
    exact stored
  · have counted := inc_cnt lm.victimLineCnt loc _ room few
    have queue : ((insertVictim lm loc ref).victimLinePq loc).size = (lm.victimLinePq loc).size + 1 := by
      rw [← show (victimHeap lm loc).size + 1 = (lm.victimLinePq loc).size + 1 from rfl, ← size]
      simp [insertVictim, putVictimHeap]
    rw [queue, housed.victimCnt, ← counted]
    rfl

theorem dec_vpc_housed (ref : LineRef) (housed : Housed p loc lm home free full) : Housed p loc (decVpc lm loc ref) home free full := by
  have kept : ∀ (other : LineMgmt) (vpc : Int), Housed p loc other home free full →
      Housed p loc { other with lines := Function.update other.lines ref { other.lines ref with vpc := vpc } } home free full := by
    intro other vpc before
    refine housed_lines p loc other home free full _ (fun line => ?_) before
    by_cases here : line = ref
    · simp [here]
    · simp [here]
  unfold decVpc
  dsimp only
  split
  · rename_i queued
    have isVictim : home ref = .victim := by
      by_contra away
      exact queued (housed.stored.unqueued ref away)
    obtain ⟨holds, same⟩ := IndexedHeap.change_priority_holds (victimPri lm) (victimHeap lm loc) _
      (((lm.lines ref).vpc - 1) % 2 ^ 64).toNat ref housed.stored.queued isVictim
    refine kept _ _ ⟨?_, housed.freeCnt, housed.fullCnt, ?_, housed.bound⟩
    · rw [victim_heap_put]
      exact Depot.queue_kept homeLabels (lineHeads loc) lm.links (victimHeap lm loc) home free full _ housed.stored holds same
    · refine Eq.trans ?_ housed.victimCnt
      rw [← show (victimHeap lm loc).size = (lm.victimLinePq loc).size from rfl, ← same.size]
      simp [putVictimHeap]
  · exact kept lm _ housed

include few in
theorem leave_queue_housed (ref : LineRef) (after : IndexedHeap.Heap LineRef) (housed : Housed p loc lm home free full)
    (here : home ref = .victim) (size : after.size = (victimHeap lm loc).size - 1)
    (holds : IndexedHeap.Holds after ({other | home other = .victim} \ {ref}))
    (kept : ∀ other, home other ≠ .victim → after.pos other = (victimHeap lm loc).pos other) :
    Housed p loc
      { putVictimHeap lm loc after with
        lines := Function.update (putVictimHeap lm loc after).lines ref { (putVictimHeap lm loc after).lines ref with pos := 0 },
        victimLineCnt := decCnt (putVictimHeap lm loc after).victimLineCnt loc }
      (Function.update home ref .out) free full := by
  have stored := Depot.dequeued homeLabels (lineHeads loc) lm.links (victimHeap lm loc) home free full ref .out after housed.stored here
    out_outside holds kept
  have known : home ref ≠ .beyond := by rw [here]; decide
  obtain ⟨first, below, _⟩ := housed.stored.queued.placed ref here
  have bound := victim_bound p loc lm home free full housed
  have counted := housed.victimCnt
  change _ < (lm.victimLinePq loc).size at below
  have positions : (fun other => (Function.update (putVictimHeap lm loc after).lines ref
      { (putVictimHeap lm loc after).lines ref with pos := 0 } other).pos) = Function.update after.pos ref 0 := by
    funext other
    by_cases same : other = ref
    · simp [same]
    · simp [same, putVictimHeap]
  refine ⟨?_, housed.freeCnt, housed.fullCnt, ?_, move_bound p loc lm home free full housed ref .out known (by decide)⟩
  · unfold victimHeap
    dsimp only
    rw [positions]
    simpa [putVictimHeap] using stored
  · have rest := dec_cnt lm.victimLineCnt loc (lm.victimLineCnt loc - 1) (by omega) (by omega)
    have queue : (Function.update lm.victimLinePq loc ⟨after.d, after.size⟩ loc).size = (lm.victimLinePq loc).size - 1 := by
      rw [Function.update_self]
      exact size
    change (Function.update lm.victimLinePq loc ⟨after.d, after.size⟩ loc).size = decCnt lm.victimLineCnt loc loc + 1
    rw [queue, rest]
    omega

end Homes

end ConZone
