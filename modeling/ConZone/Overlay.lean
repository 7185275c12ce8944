import Mathlib.Logic.Function.Basic
import Mathlib.Tactic.ByContra

set_option autoImplicit false

-- A store that operations change at addresses of their own. An operation in
-- flight touches some addresses and may give some of them new values, all at
-- once and at some time before it is over. Operations in flight at one time
-- touch different addresses, so the store can be read as if each of them
-- happened when it is over.
namespace Overlay

variable {α β κ : Type}

def overlay (effect : α → Option β) (base : α → β) : α → β := fun address => (effect address).getD (base address)

theorem overlay_some (effect : α → Option β) (base : α → β) (address : α) (value : β) (given : effect address = some value) :
    overlay effect base address = value := by
  simp [overlay, given]

theorem overlay_none (effect : α → Option β) (base : α → β) (address : α) (kept : effect address = none) :
    overlay effect base address = base address := by
  simp [overlay, kept]

structure Op (α β : Type) where
  touches : α → Prop
  effect : α → Option β
  applied : Bool
  within : ∀ address, effect address ≠ none → touches address

structure Settled (ops : κ → Option (Op α β)) (content store : α → β) : Prop where
  apart : ∀ key other op otherOp address, key ≠ other → ops key = some op → ops other = some otherOp →
    op.touches address → ¬otherOp.touches address
  kept : ∀ address, (∀ key op, ops key = some op → op.applied = true → op.effect address = none) →
    store address = content address
  given : ∀ key op address value, ops key = some op → op.applied = true → op.effect address = some value →
    store address = value

section Rules

variable [DecidableEq κ] (ops : κ → Option (Op α β)) (content store : α → β)

theorem settled_read (settled : Settled ops content store) (key : κ) (op : Op α β) (address : α) (flying : ops key = some op)
    (touched : op.touches address) (own : op.applied = true → op.effect address = none) : store address = content address := by
  apply settled.kept
  intro other otherOp otherFlying applied
  by_cases same : other = key
  · subst same
    rw [flying] at otherFlying
    cases otherFlying
    exact own applied
  · by_contra changed
    exact settled.apart other key otherOp op address same otherFlying flying (otherOp.within address changed) touched

theorem settled_start (settled : Settled ops content store) (key : κ) (op : Op α β) (free : ops key = none)
    (fresh : op.applied = false) (apart : ∀ other otherOp address, ops other = some otherOp → op.touches address → ¬otherOp.touches address) :
    Settled (Function.update ops key (some op)) content store := by
  constructor
  · intro first second firstOp secondOp address different firstFlying secondFlying touched
    by_cases firstNew : first = key
    · subst firstNew
      rw [Function.update_self] at firstFlying
      cases firstFlying
      rw [Function.update_of_ne (Ne.symm different)] at secondFlying
      exact apart second secondOp address secondFlying touched
    · rw [Function.update_of_ne firstNew] at firstFlying
      by_cases secondNew : second = key
      · subst secondNew
        rw [Function.update_self] at secondFlying
        cases secondFlying
        exact fun both => apart first firstOp address firstFlying both touched
      · rw [Function.update_of_ne secondNew] at secondFlying
        exact settled.apart first second firstOp secondOp address different firstFlying secondFlying touched
  · intro address none
    apply settled.kept
    intro other otherOp flying applied
    apply none other otherOp _ applied
    rw [Function.update_of_ne]
    · exact flying
    · rintro rfl
      rw [free] at flying
      cases flying
  · intro other otherOp address value flying applied changed
    by_cases new : other = key
    · subst new
      rw [Function.update_self] at flying
      cases flying
      rw [fresh] at applied
      cases applied
    · rw [Function.update_of_ne new] at flying
      exact settled.given other otherOp address value flying applied changed

theorem settled_apply (settled : Settled ops content store) (key : κ) (op done : Op α β) (flying : ops key = some op)
    (touches : done.touches = op.touches) (effect : done.effect = op.effect)
    (applied : done.applied = true) : Settled (Function.update ops key (some done)) content (overlay op.effect store) := by
  have others : ∀ other otherOp, Function.update ops key (some done) other = some otherOp → other ≠ key → ops other = some otherOp := by
    intro other otherOp there different
    rwa [Function.update_of_ne different] at there
  constructor
  · intro first second firstOp secondOp address different firstFlying secondFlying touched
    by_cases firstOwn : first = key
    · subst firstOwn
      rw [Function.update_self] at firstFlying
      cases firstFlying
      rw [touches] at touched
      exact settled.apart first second op secondOp address different flying (others second secondOp secondFlying (Ne.symm different)) touched
    · by_cases secondOwn : second = key
      · subst secondOwn
        rw [Function.update_self] at secondFlying
        cases secondFlying
        rw [touches]
        exact settled.apart first second firstOp op address different (others first firstOp firstFlying firstOwn) flying touched
      · exact settled.apart first second firstOp secondOp address different (others first firstOp firstFlying firstOwn)
          (others second secondOp secondFlying secondOwn) touched
  · intro address none
    have own : op.effect address = .none := by
      rw [← effect]
      exact none key done (Function.update_self ..) applied
    rw [overlay_none op.effect store address own]
    apply settled.kept
    intro other otherOp otherFlying otherApplied
    by_cases same : other = key
    · subst same
      rw [flying] at otherFlying
      cases otherFlying
      exact own
    · exact none other otherOp (by rw [Function.update_of_ne same]; exact otherFlying) otherApplied
  · intro other otherOp address value otherFlying otherApplied changed
    by_cases same : other = key
    · subst same
      rw [Function.update_self] at otherFlying
      cases otherFlying
      rw [effect] at changed
      exact overlay_some op.effect store address value changed
    · have flies := others other otherOp otherFlying same
      have untouched : op.effect address = none := by
        by_contra touched
        exact settled.apart other key otherOp op address same flies flying
          (otherOp.within address (by rw [changed]; simp)) (op.within address touched)
      rw [overlay_none op.effect store address untouched]
      exact settled.given other otherOp address value flies otherApplied changed

theorem settled_finish (settled : Settled ops content store) (key : κ) (op : Op α β) (flying : ops key = some op) :
    Settled (Function.update ops key none) (if op.applied then overlay op.effect content else content) store := by
  have others : ∀ other otherOp, Function.update ops key none other = some otherOp → other ≠ key ∧ ops other = some otherOp := by
    intro other otherOp there
    by_cases same : other = key
    · subst same
      rw [Function.update_self] at there
      cases there
    · rw [Function.update_of_ne same] at there
      exact ⟨same, there⟩
  constructor
  · intro first second firstOp secondOp address different firstFlying secondFlying touched
    exact settled.apart first second firstOp secondOp address different (others first firstOp firstFlying).2
      (others second secondOp secondFlying).2 touched
  · intro address none
    by_cases applied : op.applied = true
    · rw [if_pos applied]
      cases changed : op.effect address with
      | some value =>
          rw [overlay_some op.effect content address value changed]
          exact settled.given key op address value flying applied changed
      | none =>
          rw [overlay_none op.effect content address changed]
          apply settled.kept
          intro other otherOp otherFlying otherApplied
          by_cases same : other = key
          · subst same
            rw [flying] at otherFlying
            cases otherFlying
            exact changed
          · exact none other otherOp (by rw [Function.update_of_ne same]; exact otherFlying) otherApplied
    · rw [if_neg applied]
      apply settled.kept
      intro other otherOp otherFlying otherApplied
      by_cases same : other = key
      · subst same
        rw [flying] at otherFlying
        cases otherFlying
        exact absurd otherApplied applied
      · exact none other otherOp (by rw [Function.update_of_ne same]; exact otherFlying) otherApplied
  · intro other otherOp address value otherFlying applied changed
    exact settled.given other otherOp address value (others other otherOp otherFlying).2 applied changed

end Rules

end Overlay
