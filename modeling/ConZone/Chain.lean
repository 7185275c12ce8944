import ConZone.IntrusiveList

set_option autoImplicit false

-- Doubly linked lists with a head and a tail that end in a nil mark, threaded
-- through the nodes. A chain is such a list with its members in order.
namespace Chain

open IntrusiveList

structure Thread (ν : Type) where
  links : Links ν
  head : ν
  tail : ν

section Operations

variable {ν : Type} [DecidableEq ν]

def unlink (nil : ν) (thread : Thread ν) (node : ν) : Thread ν :=
  let before := thread.links.prev node
  let after := thread.links.next node
  if node = thread.head then
    { thread with links := { thread.links with prev := Function.update thread.links.prev after nil }, head := after }
  else
    { thread with links := { next := Function.update thread.links.next before after,
                             prev := Function.update thread.links.prev after before } }

def append (nil : ν) (thread : Thread ν) (node : ν) : Thread ν :=
  { thread with links := { next := Function.update (Function.update thread.links.next node nil) thread.tail node,
                           prev := Function.update thread.links.prev node thread.tail },
                tail := node }

end Operations

section Representation

variable {ν : Type}

structure Chained (nil : ν) (thread : Thread ν) (members : List ν) : Prop where
  linked : Linked thread.links members
  distinct : members.Nodup
  proper : nil ∉ members
  first : members.head? = some thread.head
  last : members.getLast? = some thread.tail
  starts : thread.links.prev thread.head = nil
  ends : thread.links.next thread.tail = nil

def walk (links : Links ν) : Nat → ν → List ν
  | 0, _ => []
  | count + 1, node => node :: walk links count (links.next node)

theorem walk_linked (links : Links ν) (first : ν) (rest : List ν) (linked : Linked links (first :: rest)) :
    walk links (rest.length + 1) first = first :: rest := by
  induction rest generalizing first with
  | nil => rfl
  | cons second rest ih =>
      obtain ⟨forward, _, linked⟩ := linked
      have onward := ih second linked
      simp only [List.length_cons, walk] at onward ⊢
      rw [forward, onward]

theorem chained_walk (nil : ν) (thread : Thread ν) (members : List ν) (chained : Chained nil thread members) :
    walk thread.links members.length thread.head = members := by
  cases members with
  | nil => simp [walk]
  | cons first rest =>
      have same : first = thread.head := by simpa using chained.first
      rw [← same, List.length_cons, walk_linked thread.links first rest chained.linked]

theorem chained_head_mem (nil : ν) (thread : Thread ν) (members : List ν) (chained : Chained nil thread members) :
    thread.head ∈ members :=
  List.mem_of_mem_head? chained.first

theorem chained_tail_mem (nil : ν) (thread : Thread ν) (members : List ν) (chained : Chained nil thread members) :
    thread.tail ∈ members :=
  List.mem_of_getLast? chained.last

theorem chained_singleton (nil : ν) (thread : Thread ν) (one : thread.head = thread.tail) (proper : nil ≠ thread.head)
    (starts : thread.links.prev thread.head = nil) (ends : thread.links.next thread.tail = nil) :
    Chained nil thread [thread.head] :=
  ⟨trivial, by simp, by simpa using proper, rfl, by simp [one], starts, ends⟩

theorem chained_next (nil : ν) (thread : Thread ν) (left right : List ν) (node : ν)
    (chained : Chained nil thread (left ++ node :: right)) : thread.links.next node = right.head?.getD nil := by
  cases right with
  | nil =>
      have last : node = thread.tail := by simpa using chained.last
      rw [last, chained.ends]
      rfl
  | cons after right => exact (linked_pair thread.links left right node after chained.linked).1

theorem chained_prev (nil : ν) (thread : Thread ν) (left right : List ν) (node : ν)
    (chained : Chained nil thread (left ++ node :: right)) : thread.links.prev node = left.getLast?.getD nil := by
  rcases List.eq_nil_or_concat left with empty | ⟨front, before, ends⟩
  · subst empty
    have first : node = thread.head := by simpa using chained.first
    rw [first, chained.starts]
    rfl
  · rw [List.concat_eq_append] at ends
    subst ends
    have linked := chained.linked
    rw [List.append_assoc, List.singleton_append] at linked
    rw [(linked_pair thread.links front right before node linked).2]
    simp

theorem chained_inverse (nil : ν) (thread : Thread ν) (members : List ν) (chained : Chained nil thread members)
    (before after : ν) (beforeIn : before ∈ members) (afterIn : after ∈ members) :
    thread.links.next before = after ↔ thread.links.prev after = before := by
  constructor
  · intro forward
    obtain ⟨left, right, split⟩ := List.append_of_mem beforeIn
    subst split
    rw [chained_next nil thread left right before chained] at forward
    cases right with
    | nil =>
        have absent := chained.proper
        rw [show nil = after from forward] at absent
        exact absurd afterIn absent
    | cons second right =>
        have same : second = after := by simpa using forward
        subst same
        exact (linked_pair thread.links left right before second chained.linked).2
  · intro backward
    obtain ⟨left, right, split⟩ := List.append_of_mem afterIn
    subst split
    rw [chained_prev nil thread left right after chained] at backward
    rcases List.eq_nil_or_concat left with empty | ⟨front, second, ends⟩
    · subst empty
      have absent := chained.proper
      rw [show nil = before from backward] at absent
      exact absurd beforeIn absent
    · rw [List.concat_eq_append] at ends
      subst ends
      have same : second = before := by simpa using backward
      subst same
      have linked := chained.linked
      rw [List.append_assoc, List.singleton_append] at linked
      exact (linked_pair thread.links front right second after linked).1

end Representation

section Preservation

variable {ν : Type} [DecidableEq ν]

theorem unlink_head (nil : ν) (thread : Thread ν) (after : ν) (right : List ν)
    (chained : Chained nil thread (thread.head :: after :: right)) :
    Chained nil (unlink nil thread thread.head) (after :: right) := by
  have forward := chained_next nil thread [] (after :: right) thread.head chained
  have second : thread.links.next thread.head = after := by simpa using forward
  have distinct := chained.distinct
  rw [List.nodup_cons] at distinct
  have fresh : after ∉ right := (List.nodup_cons.mp distinct.2).1
  have tail := chained.last
  rw [List.getLast?_cons_cons] at tail
  have shape : unlink nil thread thread.head =
      { thread with links := { thread.links with prev := Function.update thread.links.prev after nil }, head := after } := by
    simp [unlink, second]
  rw [shape]
  refine ⟨?_, distinct.2, fun inside => chained.proper (List.mem_cons_of_mem _ inside), rfl, tail, by simp, chained.ends⟩
  refine linked_congr thread.links _ _ (fun _ _ => rfl) ?_ chained.linked.2.2
  intro node inside
  have apart : node ≠ after := fun same => fresh (same ▸ inside)
  simp [apart]

theorem unlink_inner (nil : ν) (thread : Thread ν) (front right : List ν) (before node after : ν)
    (chained : Chained nil thread (front ++ before :: node :: after :: right)) :
    Chained nil (unlink nil thread node) (front ++ before :: after :: right) := by
  have distinct := chained.distinct
  rw [List.nodup_append] at distinct
  obtain ⟨_, inner, disjoint⟩ := distinct
  have beforeFresh := (List.nodup_cons.mp inner).1
  have nodeFresh := (List.nodup_cons.mp (List.nodup_cons.mp inner).2).1
  have afterFresh := (List.nodup_cons.mp (List.nodup_cons.mp (List.nodup_cons.mp inner).2).2).1
  have backward := (linked_pair thread.links front (after :: right) before node chained.linked).2
  have tailLinked := ((linked_append thread.links front (node :: after :: right) before).mp chained.linked).2
  have frontLinked := ((linked_append thread.links front (node :: after :: right) before).mp chained.linked).1
  have forward : thread.links.next node = after := tailLinked.2.2.1
  have inner' : node ≠ thread.head := by
    intro same
    have first := chained.first
    cases front with
    | nil =>
        have head : before = thread.head := by simpa using first
        simp [head, same] at beforeFresh
    | cons other front =>
        have head : other = thread.head := by simpa using first
        exact disjoint other (by simp) node (by simp) (head.trans same.symm)
  have shape : unlink nil thread node =
      { thread with links := { next := Function.update thread.links.next before after,
                               prev := Function.update thread.links.prev after before } } := by
    simp [unlink, inner', backward, forward]
  rw [shape]
  have afterOut : ∀ other ∈ front, other ≠ after := fun other inside => disjoint other inside after (by simp)
  have beforeOut : ∀ other ∈ front, other ≠ before := fun other inside => disjoint other inside before (by simp)
  refine ⟨?_, ?_, ?_, ?_, ?_, ?_, ?_⟩
  · rw [linked_append]
    refine ⟨linked_congr thread.links _ _ ?_ ?_ frontLinked, ?_, ?_, ?_⟩
    · intro other inside
      rw [List.dropLast_concat] at inside
      simp [beforeOut other inside]
    · intro other inside
      have apart : other ≠ after := by
        rcases List.mem_append.mp (List.mem_of_mem_tail inside) with inFront | isBefore
        · exact afterOut other inFront
        · rw [List.mem_singleton] at isBefore
          subst isBefore
          intro same
          simp [same] at beforeFresh
      simp [apart]
    · simp
    · simp
    · refine linked_congr thread.links _ _ ?_ ?_ tailLinked.2.2.2.2
      · intro other inside
        have apart : other ≠ before := fun same =>
          beforeFresh (same ▸ List.mem_cons_of_mem _ (List.dropLast_subset _ inside))
        simp [apart]
      · intro other inside
        have apart : other ≠ after := fun same => afterFresh (same ▸ inside)
        simp [apart]
  · refine List.Sublist.nodup ?_ chained.distinct
    exact List.Sublist.append_left (List.Sublist.cons_cons _ (List.sublist_cons_self _ _)) front
  · intro inside
    refine chained.proper ?_
    simp only [List.mem_append, List.mem_cons] at inside ⊢
    tauto
  · have first := chained.first
    cases front with
    | nil => simpa using first
    | cons other front => simpa using first
  · have last := chained.last
    simpa using last
  · have apart : thread.head ≠ after := by
      intro same
      have first := chained.first
      cases front with
      | nil =>
          have head : before = thread.head := by simpa using first
          simp [head, same] at beforeFresh
      | cons other front =>
          have head : other = thread.head := by simpa using first
          exact afterOut other (by simp) (head.trans same)
    simp [apart, chained.starts]
  · have apart : thread.tail ≠ before := by
      intro same
      have last : thread.tail ∈ after :: right := by
        have last := chained.last
        rw [List.getLast?_append_cons, List.getLast?_cons_cons, List.getLast?_cons_cons] at last
        exact List.mem_of_getLast? last
      rw [same] at last
      exact beforeFresh (List.mem_cons_of_mem _ last)
    simp [apart, chained.ends]

theorem unlink_chained (nil : ν) (thread : Thread ν) (left right : List ν) (node : ν)
    (chained : Chained nil thread (left ++ node :: right)) (more : right ≠ []) :
    Chained nil (unlink nil thread node) (left ++ right) := by
  cases right with
  | nil => exact absurd rfl more
  | cons after right =>
      rcases List.eq_nil_or_concat left with empty | ⟨front, before, ends⟩
      · subst empty
        have head : node = thread.head := by simpa using chained.first
        subst head
        exact unlink_head nil thread after right chained
      · rw [List.concat_eq_append] at ends
        subst ends
        rw [List.append_assoc, List.singleton_append] at chained ⊢
        exact unlink_inner nil thread front right before node after chained

theorem append_chained (nil : ν) (thread : Thread ν) (members : List ν) (node : ν) (chained : Chained nil thread members)
    (fresh : node ∉ members) (proper : node ≠ nil) : Chained nil (append nil thread node) (members ++ [node]) := by
  have tailIn := chained_tail_mem nil thread members chained
  have apart : node ≠ thread.tail := fun same => fresh (same ▸ tailIn)
  have headIn := chained_head_mem nil thread members chained
  have headApart : thread.head ≠ node := fun same => fresh (same ▸ headIn)
  obtain ⟨front, ends⟩ : ∃ front, members = front ++ [thread.tail] := List.getLast?_eq_some_iff.mp chained.last
  have distinct := chained.distinct
  have linked := chained.linked
  refine ⟨?_, ?_, ?_, ?_, by simp [append], ?_, ?_⟩
  · rw [ends] at distinct linked fresh ⊢
    rw [List.append_assoc, List.singleton_append, linked_append]
    refine ⟨linked_congr thread.links _ _ ?_ ?_ linked, by simp [append], by simp [append], trivial⟩
    · intro other inside
      rw [List.dropLast_concat] at inside
      have notTail : other ≠ thread.tail := by
        rintro rfl
        exact (List.nodup_append.mp distinct).2.2 _ inside _ (by simp) rfl
      have notNode : other ≠ node := by
        rintro rfl
        simp [inside] at fresh
      simp [append, notTail, notNode]
    · intro other inside
      have notNode : other ≠ node := by
        rintro rfl
        exact fresh (List.mem_of_mem_tail inside)
      simp [append, notNode]
  · rw [List.nodup_append]
    refine ⟨distinct, by simp, ?_⟩
    intro other inside last isLast
    rw [List.mem_singleton] at isLast
    rintro rfl
    exact fresh (isLast ▸ inside)
  · intro inside
    rcases List.mem_append.mp inside with old | new
    · exact chained.proper old
    · exact proper (List.mem_singleton.mp new).symm
  · have first := chained.first
    cases members with
    | nil => cases first
    | cons first' rest => simpa [append] using first
  · simp [append, headApart, chained.starts]
  · simp [append, apart]

end Preservation

end Chain
