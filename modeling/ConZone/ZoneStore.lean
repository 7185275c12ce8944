import ConZone.Run
import Mathlib.Logic.Function.Basic

set_option autoImplicit false

-- A store of append-only zones with pages in flight: what is appended to a zone
-- comes after all it holds, reaches the medium in that order, at the latest
-- with a flush, and stays there until its zone is reset.
namespace ZoneStore

structure Store where
  landed : Nat → Nat
  waiting : Nat → Nat

def Store.written (store : Store) (zid : Nat) : Nat := store.landed zid + store.waiting zid

def without (chosen : Nat → Bool) (pages : Nat → Nat) (zid : Nat) : Nat := if chosen zid = true then 0 else pages zid

theorem without_none (pages : Nat → Nat) : without (fun _ => false) pages = pages := rfl

theorem without_one (zid : Nat) (pages : Nat → Nat) : without (fun other => other == zid) pages = Function.update pages zid 0 := by
  funext other
  unfold without
  by_cases here : other = zid
  · simp [here]
  · simp [here]

theorem without_both (first second : Nat → Bool) (pages : Nat → Nat) :
    without second (without first pages) = without (fun zid => first zid || second zid) pages := by
  funext zid
  unfold without
  by_cases early : first zid = true
  · simp [early]
  · simp [early]

inductive Op where
  | append (zid pgs : Nat)
  | flush
  | reset (chosen : Nat → Bool)
  | other

-- An append may push pages of any zone to the medium, its own and others.
inductive Step (size : Nat) (store : Store) : Op → Store → Prop where
  | append (zid pgs : Nat) (next : Store) (grows : ∀ zone, store.landed zone ≤ next.landed zone)
      (takes : ∀ zone, next.written zone = store.written zone + (if zone = zid then pgs else 0))
      (fits : next.written zid ≤ size) : Step size store (.append zid pgs) next
  | flush : Step size store .flush ⟨store.written, fun _ => 0⟩
  | reset (chosen : Nat → Bool) : Step size store (.reset chosen) ⟨without chosen store.landed, without chosen store.waiting⟩
  | other : Step size store .other store

def system (size : Nat) : TransitionSystem.System Store Op := ⟨fun store => store = ⟨fun _ => 0, fun _ => 0⟩, Step size⟩

def Spares (zid : Nat) : Op → Prop
  | .reset chosen => chosen zid = false
  | _ => True

variable (size : Nat)

theorem step_spares (store next : Store) (op : Op) (zid : Nat) (spares : Spares zid op) (taken : Step size store op next) :
    store.landed zid ≤ next.landed zid ∧ store.written zid ≤ next.written zid := by
  cases taken with
  | append zone pgs _ grows takes fits =>
      refine ⟨grows zid, ?_⟩
      rw [takes]
      exact Nat.le_add_right _ _
  | flush => exact ⟨Nat.le_add_right _ _, Nat.le_refl _⟩
  | reset chosen =>
      have kept : chosen zid = false := spares
      have same : ∀ pages, without chosen pages zid = pages zid := by
        intro pages
        unfold without
        rw [kept, if_neg Bool.false_ne_true]
      unfold Store.written
      dsimp only
      rw [same, same]
      exact ⟨Nat.le_refl _, Nat.le_refl _⟩
  | other => exact ⟨Nat.le_refl _, Nat.le_refl _⟩

theorem run_spares (first last : Store) (zid : Nat)
    (onward : TransitionSystem.Reach ⟨fun store => store = first, Step size⟩ (fun _ op => Spares zid op) last) :
    first.landed zid ≤ last.landed zid := by
  induction onward with
  | start store init =>
      have same : store = first := init
      exact Nat.le_of_eq (congrArg (fun state => state.landed zid) same.symm)
  | next store next op _ spares taken ih => exact Nat.le_trans ih (step_spares size store next op zid spares taken).1

theorem flushed_stays (store flushed last : Store) (zid : Nat) (taken : Step size store .flush flushed)
    (onward : TransitionSystem.Reach ⟨fun first => first = flushed, Step size⟩ (fun _ op => Spares zid op) last) :
    store.written zid ≤ last.landed zid := by
  have stays := run_spares size flushed last zid onward
  cases taken with
  | flush => exact stays

end ZoneStore
