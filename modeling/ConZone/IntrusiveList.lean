import Mathlib.Logic.Function.Basic
import Mathlib.Data.List.Nodup

set_option autoImplicit false

-- Circular doubly linked lists whose links live inside the listed objects, as
-- in the kernel's list.h. A ring is a head node and its members in order.
namespace IntrusiveList

structure Links (ν : Type) where
  next : ν → ν
  prev : ν → ν

section Operations

variable {ν : Type} [DecidableEq ν]

def listAddTail (links : Links ν) (entry head : ν) : Links ν :=
  let last := links.prev head
  { next := Function.update (Function.update links.next entry head) last entry,
    prev := Function.update (Function.update links.prev head entry) entry last }

def listDelInit (links : Links ν) (entry : ν) : Links ν :=
  let before := links.prev entry
  let after := links.next entry
  { next := Function.update (Function.update links.next before after) entry entry,
    prev := Function.update (Function.update links.prev after before) entry entry }

def listFirstEntryOrNull (links : Links ν) (head : ν) : Option ν :=
  if links.next head = head then none else some (links.next head)

def selfLinked : Links ν := ⟨id, id⟩

end Operations

section Representation

variable {ν : Type}

def Linked (links : Links ν) : List ν → Prop
  | first :: second :: rest => links.next first = second ∧ links.prev second = first ∧ Linked links (second :: rest)
  | _ => True

structure Ring (links : Links ν) (head : ν) (members : List ν) : Prop where
  linked : Linked links (head :: (members ++ [head]))
  distinct : (head :: members).Nodup

theorem linked_append (links : Links ν) (left right : List ν) (middle : ν) :
    Linked links (left ++ middle :: right) ↔ Linked links (left ++ [middle]) ∧ Linked links (middle :: right) := by
  induction left with
  | nil => simp [Linked]
  | cons first rest ih =>
      cases rest with
      | nil => simp [Linked, and_assoc]
      | cons second tail => simpa [Linked, and_assoc] using fun _ _ => ih

theorem linked_congr (links other : Links ν) (nodes : List ν)
    (next : ∀ node ∈ nodes.dropLast, other.next node = links.next node)
    (prev : ∀ node ∈ nodes.tail, other.prev node = links.prev node) (linked : Linked links nodes) :
    Linked other nodes := by
  induction nodes with
  | nil => trivial
  | cons first rest ih =>
      cases rest with
      | nil => trivial
      | cons second tail =>
          obtain ⟨forward, backward, linkedTail⟩ := linked
          refine ⟨?_, ?_, ih ?_ ?_ linkedTail⟩
          · rw [next first (by simp), forward]
          · rw [prev second (by simp), backward]
          · exact fun node member => next node (by simp [member])
          · exact fun node member => prev node (by simpa using List.mem_of_mem_tail member)

theorem linked_pair (links : Links ν) (left right : List ν) (first second : ν)
    (linked : Linked links (left ++ first :: second :: right)) :
    links.next first = second ∧ links.prev second = first := by
  have pair := ((linked_append links left (second :: right) first).mp linked).2
  exact ⟨pair.1, pair.2.1⟩

theorem ring_empty (links : Links ν) (head : ν) (next : links.next head = head) (prev : links.prev head = head) :
    Ring links head [] :=
  ⟨⟨next, prev, trivial⟩, by simp⟩

theorem ring_frame (links other : Links ν) (head : ν) (members : List ν) (ring : Ring links head members)
    (next : ∀ node ∈ head :: members, other.next node = links.next node)
    (prev : ∀ node ∈ head :: members, other.prev node = links.prev node) : Ring other head members := by
  refine ⟨linked_congr links other _ ?_ ?_ ring.linked, ring.distinct⟩
  · intro node member
    rw [List.dropLast_cons_of_ne_nil (by simp), List.dropLast_concat] at member
    exact next node member
  · intro node member
    rw [List.tail_cons, List.mem_append] at member
    rcases member with inside | atHead
    · exact prev node (by simp [inside])
    · rw [List.mem_singleton] at atHead
      exact prev node (by simp [atHead])

theorem ring_next_mem (links : Links ν) (head : ν) (members : List ν) (ring : Ring links head members)
    (node : ν) (member : node ∈ head :: members) : links.next node ∈ head :: members := by
  obtain ⟨left, right, split⟩ := List.append_of_mem member
  have linked := ring.linked
  rw [← List.cons_append, split, List.append_assoc, List.cons_append] at linked
  cases right with
  | nil =>
      have pair := linked_pair links left [] node head (by simpa using linked)
      rw [pair.1]; simp
  | cons second rest =>
      have pair := linked_pair links left (rest ++ [head]) node second (by simpa using linked)
      rw [pair.1, split]; simp

theorem ring_prev_mem (links : Links ν) (head : ν) (members : List ν) (ring : Ring links head members)
    (node : ν) (member : node ∈ head :: members) : links.prev node ∈ head :: members := by
  have inTail : node ∈ members ++ [head] := by
    rcases List.mem_cons.mp member with atHead | inside
    · simp [atHead]
    · simp [inside]
  obtain ⟨left, right, split⟩ := List.append_of_mem inTail
  have linked := ring.linked
  rw [split] at linked
  have lasts : head :: left ≠ [] := by simp
  obtain ⟨front, last, ends⟩ : ∃ front last, head :: left = front ++ [last] :=
    ⟨_, _, (List.dropLast_append_getLast lasts).symm⟩
  rw [← List.cons_append, ends, List.append_assoc, List.singleton_append] at linked
  have pair := linked_pair links front right last node linked
  have present : last ∈ head :: left := by rw [ends]; simp
  rcases List.mem_cons.mp present with atHead | inside
  · rw [pair.2, atHead]; simp
  · have inMembers : last ∈ members ++ [head] := by rw [split]; simp [inside]
    rw [pair.2]
    simpa [or_comm] using inMembers

theorem ring_first (links : Links ν) (head first : ν) (rest : List ν) (ring : Ring links head (first :: rest)) :
    links.next head = first :=
  ring.linked.1

end Representation

section Preservation

variable {ν : Type} [DecidableEq ν]

theorem ring_first_entry (links : Links ν) (head : ν) (members : List ν) (ring : Ring links head members) :
    listFirstEntryOrNull links head = members.head? := by
  cases members with
  | nil => simp [listFirstEntryOrNull, ring.linked.1]
  | cons first rest =>
      have fresh : first ≠ head := fun same => by
        have distinct := ring.distinct
        simp [same] at distinct
      simp [listFirstEntryOrNull, ring_first links head first rest ring, fresh]

theorem ring_add_tail (links : Links ν) (head entry : ν) (members : List ν) (ring : Ring links head members)
    (fresh : entry ∉ head :: members) : Ring (listAddTail links entry head) head (members ++ [entry]) := by
  obtain ⟨front, last, ends⟩ : ∃ front last, head :: members = front ++ [last] :=
    ⟨_, _, (List.dropLast_append_getLast (List.cons_ne_nil head members)).symm⟩
  have linked := ring.linked
  rw [← List.cons_append, ends, List.append_assoc, List.singleton_append] at linked
  have closing := linked_pair links front [] last head linked
  have linkedFront := ((linked_append links front [head] last).mp linked).1
  have distinct := ring.distinct
  rw [ends] at distinct fresh
  rw [List.nodup_append] at distinct
  have lastFresh : entry ≠ last := fun same => fresh (by simp [same])
  have headIn : head ∈ front ++ [last] := by rw [← ends]; simp
  have headFresh : entry ≠ head := fun same => fresh (same ▸ headIn)
  have tailIn : ∀ node ∈ (front ++ [last]).tail, node ∈ members := fun node member => by
    rw [← ends] at member; simpa using member
  refine ⟨?_, ?_⟩
  · have shape : head :: (members ++ [entry] ++ [head]) = front ++ last :: [entry, head] := by
      rw [List.append_assoc, ← List.cons_append, ends]; simp
    rw [shape, linked_append]
    refine ⟨linked_congr links _ _ ?_ ?_ linkedFront, ?_⟩
    · intro node member
      rw [List.dropLast_concat] at member
      have notLast : node ≠ last := fun same => distinct.2.2 node member last (by simp) same
      have notEntry : node ≠ entry := fun same => fresh (by simp [← same, member])
      simp [listAddTail, closing.2, notLast, notEntry]
    · intro node member
      have inside := tailIn node member
      have notHead : node ≠ head := fun same => by
        have nodup := ring.distinct
        rw [List.nodup_cons] at nodup
        exact nodup.1 (same ▸ inside)
      have notEntry : node ≠ entry := fun same => fresh (by rw [← ends, ← same]; simp [inside])
      simp [listAddTail, notHead, notEntry]
    · refine ⟨?_, ?_, ?_, ?_, trivial⟩
      · simp [listAddTail, closing.2]
      · simp [listAddTail, closing.2]
      · simp [listAddTail, closing.2, lastFresh]
      · simp [listAddTail, headFresh.symm]
  · rw [← ends] at fresh
    rw [← List.cons_append, List.nodup_append]
    refine ⟨ring.distinct, by simp, ?_⟩
    intro node inside other atEntry same
    rw [List.mem_singleton] at atEntry
    exact fresh (atEntry ▸ same ▸ inside)

theorem ring_add_tail_frame (links : Links ν) (head other entry : ν) (members others : List ν)
    (ring : Ring links head members) (otherRing : Ring links other others)
    (fresh : entry ∉ head :: members) (apart : ∀ node ∈ head :: members, node ∉ other :: others) :
    Ring (listAddTail links entry other) head members := by
  have lastIn := ring_prev_mem links other others otherRing other (by simp)
  refine ring_frame links _ head members ring ?_ ?_
  · intro node member
    have notEntry : node ≠ entry := fun same => fresh (same ▸ member)
    have notLast : node ≠ links.prev other := fun same => apart node member (same ▸ lastIn)
    simp [listAddTail, notEntry, notLast]
  · intro node member
    have notEntry : node ≠ entry := fun same => fresh (same ▸ member)
    have notHead : node ≠ other := fun same => apart node member (by simp [same])
    simp [listAddTail, notEntry, notHead]

theorem ring_del_init (links : Links ν) (head entry : ν) (left right : List ν)
    (ring : Ring links head (left ++ entry :: right)) : Ring (listDelInit links entry) head (left ++ right) := by
  obtain ⟨front, before, ends⟩ : ∃ front before, head :: left = front ++ [before] :=
    ⟨_, _, (List.dropLast_append_getLast (List.cons_ne_nil head left)).symm⟩
  obtain ⟨after, back, starts⟩ : ∃ after back, right ++ [head] = after :: back := by
    cases right with
    | nil => exact ⟨head, [], rfl⟩
    | cons first rest => exact ⟨first, rest ++ [head], rfl⟩
  have linked := ring.linked
  have shape : head :: (left ++ entry :: right ++ [head]) = front ++ before :: entry :: after :: back := by
    rw [List.append_assoc, List.cons_append, starts, ← List.cons_append, ends]; simp
  rw [shape] at linked
  have pairBefore := linked_pair links front (after :: back) before entry linked
  have pairAfter := linked_pair links (front ++ [before]) back entry after (by simpa using linked)
  have linkedFront := ((linked_append links front _ before).mp linked).1
  have linkedBack := ((linked_append links (front ++ [before, entry]) back after).mp (by simpa using linked)).2
  have distinct := ring.distinct
  have whole : head :: (left ++ entry :: right) = front ++ before :: entry :: right := by
    rw [← List.cons_append, ends]; simp
  rw [whole] at distinct
  have apartFront : ∀ node ∈ front, node ≠ before ∧ node ≠ entry := by
    intro node member
    rw [List.nodup_append] at distinct
    exact ⟨distinct.2.2 node member before (by simp), distinct.2.2 node member entry (by simp)⟩
  have nodupSplit := List.nodup_append.mp distinct
  have apartEntry : before ≠ entry ∧ before ∉ right ∧ entry ∉ right := by
    have tailNodup := nodupSplit.2.1
    simp only [List.nodup_cons, List.mem_cons, not_or] at tailNodup
    exact ⟨tailNodup.1.1, tailNodup.1.2, tailNodup.2.1⟩
  have headIn : head ∈ front ++ [before] := by rw [← ends]; simp
  have headNotRight : head ∉ right ∧ head ≠ entry := by
    have nodup := ring.distinct
    rw [List.nodup_cons] at nodup
    exact ⟨fun member => nodup.1 (by simp [member]), fun same => nodup.1 (by simp [same])⟩
  refine ⟨?_, ?_⟩
  · have target : head :: (left ++ right ++ [head]) = front ++ before :: after :: back := by
      rw [List.append_assoc, starts, ← List.cons_append, ends]; simp
    rw [target, linked_append]
    refine ⟨linked_congr links _ _ ?_ ?_ linkedFront, ?_, ?_, linked_congr links _ _ ?_ ?_ linkedBack⟩
    · intro node member
      rw [List.dropLast_concat] at member
      simp [listDelInit, pairBefore.2, apartFront node member]
    · intro node member
      rw [← ends, List.tail_cons] at member
      have notEntry : node ≠ entry := fun same => by
        have nodup := (List.nodup_cons.mp ring.distinct).2
        rw [List.nodup_append] at nodup
        exact nodup.2.2 node member entry (by simp) same
      have notAfter : node ≠ after := fun same => by
        have afterIn : after ∈ right ++ [head] := by rw [starts]; simp
        rcases List.mem_append.mp afterIn with inside | atHead
        · have nodup := (List.nodup_cons.mp ring.distinct).2
          rw [List.nodup_append] at nodup
          exact nodup.2.2 node member after (by simp [inside]) same
        · rw [List.mem_singleton] at atHead
          exact (List.nodup_cons.mp ring.distinct).1 (by simp [← atHead, ← same, member])
      simp [listDelInit, pairAfter.1, notEntry, notAfter]
    · simp [listDelInit, pairBefore.2, pairAfter.1, apartEntry.1]
    · have notEntry : after ≠ entry := fun same => by
        have afterIn : after ∈ right ++ [head] := by rw [starts]; simp
        rcases List.mem_append.mp afterIn with inside | atHead
        · exact apartEntry.2.2 (same ▸ inside)
        · rw [List.mem_singleton] at atHead
          exact headNotRight.2 (atHead ▸ same)
      simp [listDelInit, pairBefore.2, pairAfter.1, notEntry]
    · intro node member
      have inRight : node ∈ right := by
        rw [← starts, List.dropLast_concat] at member
        exact member
      have notEntry : node ≠ entry := fun same => apartEntry.2.2 (same ▸ inRight)
      have notBefore : node ≠ before := fun same => apartEntry.2.1 (same ▸ inRight)
      simp [listDelInit, pairBefore.2, notEntry, notBefore]
    · intro node member
      rw [List.tail_cons] at member
      have notAfter : node ≠ after := fun same => by
        have nodup : (after :: back).Nodup := by
          rw [← starts, List.nodup_append]
          refine ⟨?_, by simp, ?_⟩
          · have tailNodup := nodupSplit.2.1
            simp only [List.nodup_cons] at tailNodup
            exact tailNodup.2.2
          · intro node inside other atHead same
            rw [List.mem_singleton] at atHead
            exact headNotRight.1 (atHead ▸ same ▸ inside)
        exact (List.nodup_cons.mp nodup).1 (same ▸ member)
      have notEntry : node ≠ entry := fun same => by
        have inTail : node ∈ right ++ [head] := by rw [starts]; simp [member]
        rcases List.mem_append.mp inTail with inside | atHead
        · exact apartEntry.2.2 (same ▸ inside)
        · rw [List.mem_singleton] at atHead
          exact headNotRight.2 (atHead ▸ same)
      simp [listDelInit, pairAfter.1, notAfter, notEntry]
  · have nodup := ring.distinct
    rw [← List.cons_append] at nodup ⊢
    exact nodup.sublist (List.Sublist.append_left (List.sublist_cons_self entry right) (head :: left))

theorem ring_del_init_frame (links : Links ν) (head other entry : ν) (members others : List ν)
    (ring : Ring links head members) (otherRing : Ring links other others) (member : entry ∈ other :: others)
    (apart : ∀ node ∈ head :: members, node ∉ other :: others) : Ring (listDelInit links entry) head members := by
  have beforeIn := ring_prev_mem links other others otherRing entry member
  have afterIn := ring_next_mem links other others otherRing entry member
  refine ring_frame links _ head members ring ?_ ?_
  · intro node inside
    have notEntry : node ≠ entry := fun same => apart node inside (same ▸ member)
    have notBefore : node ≠ links.prev entry := fun same => apart node inside (same ▸ beforeIn)
    simp [listDelInit, notEntry, notBefore]
  · intro node inside
    have notEntry : node ≠ entry := fun same => apart node inside (same ▸ member)
    have notAfter : node ≠ links.next entry := fun same => apart node inside (same ▸ afterIn)
    simp [listDelInit, notEntry, notAfter]

end Preservation

section Contents

variable {ν : Type} [DecidableEq ν] (property : ν → Prop)

structure ClosedUnder (links : Links ν) : Prop where
  next : ∀ node, property node → property (links.next node)
  prev : ∀ node, property node → property (links.prev node)

theorem update_closed (step : ν → ν) (slot target : ν) (closed : ∀ node, property node → property (step node))
    (holds : property target) : ∀ node, property node → property (Function.update step slot target node) := by
  intro node holdsNode
  by_cases same : node = slot
  · rw [same, Function.update_self]
    exact holds
  · rw [Function.update_of_ne same]
    exact closed node holdsNode

theorem add_tail_closed (links : Links ν) (entry head : ν) (closed : ClosedUnder property links)
    (entryHolds : property entry) (headHolds : property head) : ClosedUnder property (listAddTail links entry head) := by
  have last := closed.prev head headHolds
  exact ⟨update_closed property _ _ _ (update_closed property _ _ _ closed.next headHolds) entryHolds,
    update_closed property _ _ _ (update_closed property _ _ _ closed.prev entryHolds) last⟩

theorem del_init_closed (links : Links ν) (entry : ν) (closed : ClosedUnder property links) (entryHolds : property entry) :
    ClosedUnder property (listDelInit links entry) := by
  have before := closed.prev entry entryHolds
  have after := closed.next entry entryHolds
  exact ⟨update_closed property _ _ _ (update_closed property _ _ _ closed.next after) entryHolds,
    update_closed property _ _ _ (update_closed property _ _ _ closed.prev before) entryHolds⟩

theorem first_entry_closed (links : Links ν) (head first : ν) (closed : ClosedUnder property links) (headHolds : property head)
    (found : listFirstEntryOrNull links head = some first) : property first := by
  unfold listFirstEntryOrNull at found
  split at found
  · cases found
  · rw [← Option.some.inj found]
    exact closed.next head headHolds

end Contents

end IntrusiveList
