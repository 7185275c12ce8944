import Mathlib.Data.List.Nodup
import Mathlib.Logic.Function.Basic

set_option autoImplicit false

-- A stream of items is cut into groups: each item has a slot, a slot collects
-- one group at a time, and an item that does not join the group its slot is
-- collecting closes that group and starts the next one.
namespace Grouping

variable {α : Type}

structure Groups (α : Type) where
  closed : List (List α)
  opened : Nat → List α

def empty : Groups α := ⟨[], fun _ => []⟩

section Rounds

variable (slot : α → Nat) (joins : α → α → Bool)

def add (groups : Groups α) (item : α) : Groups α :=
  match groups.opened (slot item) with
  | [] => { groups with opened := Function.update groups.opened (slot item) [item] }
  | first :: rest =>
      if joins item first then
        { groups with opened := Function.update groups.opened (slot item) (first :: (rest ++ [item])) }
      else
        ⟨groups.closed ++ [first :: rest], Function.update groups.opened (slot item) [item]⟩

def finish (count : Nat) (groups : Groups α) : List (List α) :=
  groups.closed ++ ((List.range count).map groups.opened).filter fun group => !group.isEmpty

def group (count : Nat) (items : List α) : List (List α) := finish count (items.foldl (add slot joins) empty)

def members (count : Nat) (groups : Groups α) : List α := groups.closed.flatten ++ (List.range count).flatMap groups.opened

theorem finish_flatten (count : Nat) (groups : Groups α) : (finish count groups).flatten = members count groups := by
  unfold finish members
  rw [List.flatten_append, List.flatten_filter_not_isEmpty, List.flatMap]

theorem opened_apart (count index : Nat) (opened : Nat → List α) (inside : index < count) :
    ((List.range count).flatMap opened).Perm (opened index ++ ((List.range count).erase index).flatMap opened) := by
  have front := (List.perm_cons_erase (List.mem_range.mpr inside)).flatMap_right opened
  rwa [List.flatMap_cons] at front

theorem opened_update (count index : Nat) (opened : Nat → List α) (collected : List α) (inside : index < count) :
    ((List.range count).flatMap (Function.update opened index collected)).Perm
      (collected ++ ((List.range count).erase index).flatMap opened) := by
  have apart := opened_apart count index (Function.update opened index collected) inside
  have others : ((List.range count).erase index).flatMap (Function.update opened index collected) =
      ((List.range count).erase index).flatMap opened := by
    apply List.flatMap_congr
    intro other member
    have away : other ≠ index := ((List.nodup_range.mem_erase_iff).mp member).1
    exact Function.update_of_ne away _ _
  rwa [Function.update_self, others] at apart

theorem add_members (count : Nat) (groups : Groups α) (item : α) (inside : slot item < count) :
    (members count (add slot joins groups item)).Perm (members count groups ++ [item]) := by
  have before := opened_apart count (slot item) groups.opened inside
  unfold add members
  cases collected : groups.opened (slot item) with
  | nil =>
      rw [collected, List.nil_append] at before
      have after := opened_update count (slot item) groups.opened [item] inside
      rw [List.append_assoc]
      apply List.Perm.append_left
      exact after.trans (List.perm_append_comm.trans (before.symm.append_right _))
  | cons first rest =>
      rw [collected] at before
      dsimp only
      split
      · have after := opened_update count (slot item) groups.opened (first :: (rest ++ [item])) inside
        rw [List.append_assoc]
        apply List.Perm.append_left
        refine after.trans (List.Perm.trans ?_ (before.symm.append_right _))
        rw [← List.cons_append, List.append_assoc, List.append_assoc]
        exact List.Perm.append_left _ List.perm_append_comm
      · have after := opened_update count (slot item) groups.opened [item] inside
        dsimp only
        rw [List.flatten_append, List.flatten_singleton, List.append_assoc, List.append_assoc]
        apply List.Perm.append_left
        refine ((after.trans List.perm_append_comm).append_left _).trans ?_
        rw [← List.append_assoc]
        exact before.symm.append_right _

theorem group_perm (count : Nat) (items : List α) (inside : ∀ item ∈ items, slot item < count) :
    (group slot joins count items).flatten.Perm items := by
  have rounds : ∀ (rest : List α) (groups : Groups α), (∀ item ∈ rest, slot item < count) →
      (members count (rest.foldl (add slot joins) groups)).Perm (members count groups ++ rest) := by
    intro rest
    induction rest with
    | nil => intro groups _; simp
    | cons item rest ih =>
        intro groups bounds
        have step := add_members slot joins count groups item (bounds item List.mem_cons_self)
        have later := ih (add slot joins groups item) fun other member => bounds other (List.mem_cons_of_mem _ member)
        rw [List.foldl_cons]
        refine later.trans ?_
        rw [← List.singleton_append, ← List.append_assoc]
        exact step.append_right _
  have total := rounds items empty inside
  unfold group
  rw [finish_flatten]
  have nothing : members count (empty : Groups α) = [] := List.flatMap_eq_nil_iff.mpr fun _ _ => rfl
  rwa [nothing] at total

def Joined (batch : List α) : Prop := ∃ first rest, batch = first :: rest ∧ ∀ item ∈ rest, joins item first = true

structure AllJoined (groups : Groups α) : Prop where
  closed : ∀ batch ∈ groups.closed, Joined joins batch
  opened : ∀ index, groups.opened index ≠ [] → Joined joins (groups.opened index)

theorem add_joined (groups : Groups α) (item : α) (joined : AllJoined joins groups) : AllJoined joins (add slot joins groups item) := by
  have updated : ∀ collected, Joined joins collected → ∀ index,
      Function.update groups.opened (slot item) collected index ≠ [] →
        Joined joins (Function.update groups.opened (slot item) collected index) := by
    intro collected fresh index some
    by_cases same : index = slot item
    · rw [same, Function.update_self]
      exact fresh
    · rw [Function.update_of_ne same] at some ⊢
      exact joined.opened index some
  have alone : Joined joins [item] := ⟨item, [], rfl, fun _ member => absurd member List.not_mem_nil⟩
  unfold add
  cases collected : groups.opened (slot item) with
  | nil => exact ⟨joined.closed, updated [item] alone⟩
  | cons first rest =>
      have before := joined.opened (slot item) (by simp [collected])
      rw [collected] at before
      obtain ⟨_, _, same, together⟩ := before
      cases same
      dsimp only
      split
      · rename_i fits
        refine ⟨joined.closed, updated _ ⟨first, rest ++ [item], rfl, ?_⟩⟩
        intro other member
        rcases List.mem_append.mp member with old | new
        · exact together other old
        · rwa [List.mem_singleton.mp new]
      · refine ⟨?_, updated [item] alone⟩
        intro batch member
        rcases List.mem_append.mp member with old | new
        · exact joined.closed batch old
        · exact ⟨first, rest, List.mem_singleton.mp new, together⟩

theorem group_joined (count : Nat) (items : List α) (batch : List α) (member : batch ∈ group slot joins count items) :
    Joined joins batch := by
  have rounds : ∀ (rest : List α) (groups : Groups α), AllJoined joins groups → AllJoined joins (rest.foldl (add slot joins) groups) := by
    intro rest
    induction rest with
    | nil => exact fun _ joined => joined
    | cons item rest ih => exact fun groups joined => ih _ (add_joined slot joins groups item joined)
  have joined := rounds items empty ⟨fun _ absent => absurd absent List.not_mem_nil, fun _ some => absurd rfl some⟩
  unfold group finish at member
  rcases List.mem_append.mp member with closed | opened
  · exact joined.closed batch closed
  · obtain ⟨taken, some⟩ := List.mem_filter.mp opened
    obtain ⟨index, _, same⟩ := List.mem_map.mp taken
    rw [← same] at some ⊢
    exact joined.opened index (by simpa using some)

end Rounds

end Grouping
