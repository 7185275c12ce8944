import Mathlib.Logic.Function.Basic
import Mathlib.Data.List.Basic

set_option autoImplicit false

-- Singly linked segments: the nodes met from first on by following next, up to
-- where it gives stop.
namespace Segment

variable {ν : Type}

def Path (next : ν → ν) (stop : ν) : ν → List ν → Prop
  | first, [] => first = stop
  | first, node :: rest => first = node ∧ Path next stop (next node) rest

theorem path_append (next : ν → ν) (stop first : ν) (left right : List ν) :
    Path next stop first (left ++ right) ↔ ∃ middle, Path next middle first left ∧ Path next stop middle right := by
  induction left generalizing first with
  | nil => simp [Path]
  | cons node rest ih => simp [Path, ih, and_assoc]

theorem path_head (next : ν → ν) (stop first : ν) (members : List ν) (path : Path next stop first members) :
    first = members.head?.getD stop := by
  cases members with
  | nil => exact path
  | cons node rest => exact path.1

theorem path_next (next : ν → ν) (stop first node : ν) (left right : List ν) (path : Path next stop first (left ++ node :: right)) :
    next node = right.head?.getD stop := by
  obtain ⟨middle, _, _, rest⟩ := (path_append next stop first left (node :: right)).mp path
  exact path_head next stop _ right rest

theorem path_congr (next other : ν → ν) (stop first : ν) (members : List ν)
    (same : ∀ node ∈ members, other node = next node) (path : Path next stop first members) : Path other stop first members := by
  induction members generalizing first with
  | nil => exact path
  | cons node rest ih =>
      refine ⟨path.1, ?_⟩
      rw [same node List.mem_cons_self]
      exact ih (next node) (fun later member => same later (List.mem_cons_of_mem node member)) path.2

theorem path_redirect (next other : ν → ν) (stop target first last : ν) (front : List ν) (path : Path next stop first (front ++ [last]))
    (points : other last = target) (same : ∀ node ∈ front, other node = next node) : Path other target first (front ++ [last]) := by
  obtain ⟨middle, before, here, _⟩ := (path_append next stop first front [last]).mp path
  apply (path_append other target first front [last]).mpr
  exact ⟨middle, path_congr next other middle first front same before, here, points⟩

theorem path_insert (next other : ν → ν) (stop first node entry : ν) (left right : List ν)
    (path : Path next stop first (left ++ node :: right)) (points : other node = entry) (takes : other entry = next node)
    (before : ∀ member ∈ left, other member = next member) (after : ∀ member ∈ right, other member = next member) :
    Path other stop first (left ++ node :: entry :: right) := by
  obtain ⟨middle, front, here, rest⟩ := (path_append next stop first left (node :: right)).mp path
  apply (path_append other stop first left (node :: entry :: right)).mpr
  refine ⟨middle, path_congr next other middle first left before front, here, points, ?_⟩
  rw [takes]
  exact path_congr next other stop _ right after rest

theorem path_cut (next : ν → ν) (stop first last : ν) (front right : List ν) (path : Path next stop first (front ++ [last] ++ right)) :
    Path next (next last) first (front ++ [last]) ∧ Path next stop (next last) right := by
  obtain ⟨middle, before, after⟩ := (path_append next stop first (front ++ [last]) right).mp path
  have leaves : next last = middle := path_next next middle first last front [] before
  rw [leaves]
  exact ⟨before, after⟩

end Segment
