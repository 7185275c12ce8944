import Mathlib.Data.List.Nodup
import Mathlib.Logic.Function.Basic

set_option autoImplicit false

-- Entries in the order of the times they were last used, the oldest first.
namespace Recency

section Orders

variable {ι : Type} (stamp : ι → Nat) (now : Nat)

structure Aged (order : List ι) : Prop where
  sorted : order.Pairwise fun earlier later => stamp earlier < stamp later
  past : ∀ entry ∈ order, stamp entry < now

theorem aged_nodup (order : List ι) (aged : Aged stamp now order) : order.Nodup :=
  aged.sorted.imp fun less same => by rw [same] at less; omega

theorem aged_later (order : List ι) (later : Nat) (aged : Aged stamp now order) (after : now ≤ later) : Aged stamp later order :=
  ⟨aged.sorted, fun entry member => Nat.lt_of_lt_of_le (aged.past entry member) after⟩

theorem aged_apart [DecidableEq ι] (order : List ι) (entry : ι) (time : Nat) (aged : Aged stamp now order) (apart : entry ∉ order) :
    Aged (Function.update stamp entry time) now order := by
  have kept : ∀ other ∈ order, Function.update stamp entry time other = stamp other := by
    intro other member
    have away : other ≠ entry := fun same => apart (same ▸ member)
    exact Function.update_of_ne away _ _
  constructor
  · refine aged.sorted.imp_of_mem ?_
    intro first second firstIn secondIn less
    rwa [kept first firstIn, kept second secondIn]
  · intro other member
    rw [kept other member]
    exact aged.past other member

theorem aged_renew [DecidableEq ι] (order : List ι) (entry : ι) (aged : Aged stamp now order) (fresh : entry ∉ order) :
    Aged (Function.update stamp entry now) (now + 1) (order ++ [entry]) := by
  have older := aged_apart stamp now order entry now aged fresh
  constructor
  · rw [List.pairwise_append]
    refine ⟨older.sorted, List.pairwise_singleton _ _, ?_⟩
    intro other member last same
    rw [List.mem_singleton.mp same, Function.update_self]
    exact older.past other member
  · intro other member
    rcases List.mem_append.mp member with old | new
    · have past := older.past other old
      omega
    · rw [List.mem_singleton.mp new, Function.update_self]
      omega

theorem aged_remove (left right : List ι) (entry : ι) (aged : Aged stamp now (left ++ entry :: right)) :
    Aged stamp now (left ++ right) ∧ entry ∉ left ++ right := by
  have kept : (left ++ right).Sublist (left ++ entry :: right) := (List.sublist_cons_self entry right).append_left left
  have distinct := aged_nodup stamp now _ aged
  rw [List.nodup_middle, List.nodup_cons] at distinct
  exact ⟨⟨aged.sorted.sublist kept, fun other member => aged.past other (kept.subset member)⟩, distinct.1⟩

theorem aged_touch [DecidableEq ι] (left right : List ι) (entry : ι) (aged : Aged stamp now (left ++ entry :: right)) :
    Aged (Function.update stamp entry now) (now + 1) (left ++ right ++ [entry]) := by
  obtain ⟨rest, fresh⟩ := aged_remove stamp now left right entry aged
  exact aged_renew stamp now _ entry rest fresh

theorem aged_oldest (left right : List ι) (victim entry : ι) (aged : Aged stamp now (left ++ victim :: right))
    (member : entry ∈ left ++ victim :: right) (passed : entry ∉ left) : stamp victim ≤ stamp entry := by
  rcases List.mem_append.mp member with before | after
  · exact absurd before passed
  · rcases List.mem_cons.mp after with same | later
    · exact Nat.le_of_eq (congrArg stamp same.symm)
    · have behind := (List.pairwise_append.mp aged.sorted).2.1
      exact Nat.le_of_lt ((List.pairwise_cons.mp behind).1 entry later)

end Orders

end Recency
