import Mathlib.Data.List.Nodup
import Mathlib.Data.List.Range
import Mathlib.Data.Nat.Find
import Mathlib.Data.Finset.Card
import Mathlib.Data.Finset.Range

set_option autoImplicit false

-- Walks along a partial successor function, and the walks that go through a
-- numbered sequence of places.
namespace Walk

section Walks

variable {α : Type} (next : α → Option α)

def advance : Nat → α → Option α
  | 0, place => some place
  | count + 1, place => (next place).bind (advance count)

inductive Visits : α → List α → Prop where
  | last (start : α) (ends : next start = none) : Visits start [start]
  | more (start following : α) (rest : List α) (step : next start = some following) (visited : Visits following rest) :
      Visits start (start :: rest)

theorem advance_add (first second : Nat) (place : α) :
    advance next (first + second) place = (advance next first place).bind (advance next second) := by
  induction first generalizing place with
  | zero => simp [advance]
  | succ first ih =>
      rw [Nat.succ_add]
      simp only [advance]
      cases next place with
      | none => rfl
      | some following => exact ih following

theorem advance_succ (count : Nat) (place : α) : advance next (count + 1) place = (advance next count place).bind next := by
  rw [advance_add]
  congr 1
  funext following
  simp only [advance]
  cases next following <;> rfl

theorem advance_simulates {β : Type} (other : β → Option β) (holds : α → Prop) (image : α → β)
    (follows : ∀ place following, holds place → next place = some following → holds following ∧ other (image place) = some (image following))
    (count : Nat) (place last : α) (start : holds place) (reached : advance next count place = some last) :
    holds last ∧ advance other count (image place) = some (image last) := by
  induction count generalizing place with
  | zero =>
      cases reached
      exact ⟨start, rfl⟩
  | succ count ih =>
      simp only [advance] at reached ⊢
      cases step : next place with
      | none => rw [step] at reached; cases reached
      | some following =>
          obtain ⟨kept, moved⟩ := follows place following start step
          rw [step] at reached
          rw [moved]
          exact ih following kept reached

def path : Nat → α → List α
  | 0, _ => []
  | count + 1, place => place :: ((next place).map (path count)).getD []

theorem path_get (count index : Nat) (place : α) :
    (path next count place)[index]? = if index < count then advance next index place else none := by
  induction count generalizing index place with
  | zero => simp [path]
  | succ count ih =>
      cases index with
      | zero => simp [path, advance]
      | succ index =>
          simp only [path, List.getElem?_cons_succ, advance]
          cases next place with
          | none => simp
          | some following => simpa using ih index following

theorem path_length (count : Nat) (place : α) (walked : ∀ index, index < count → ∃ there, advance next index place = some there) :
    (path next count place).length = count := by
  have past : (path next count place)[count]? = none := by
    rw [path_get, if_neg (Nat.lt_irrefl count)]
  refine Nat.le_antisymm (List.getElem?_eq_none_iff.mp past) ?_
  cases count with
  | zero => exact Nat.zero_le _
  | succ count =>
      obtain ⟨there, reached⟩ := walked count (Nat.lt_succ_self count)
      have inside : (path next (count + 1) place)[count]? = some there := by
        rw [path_get, if_pos (Nat.lt_succ_self count), reached]
      exact (List.getElem?_eq_some_iff.mp inside).1

theorem advance_ends_later (place : α) (count more : Nat) (ends : advance next count place = none) :
    advance next (count + more) place = none := by
  rw [advance_add, ends]
  rfl

theorem first_end (count : Nat) (place : α) (ends : advance next count place = none) :
    ∃ stop, advance next stop place = none ∧ ∀ steps, steps < stop → advance next steps place ≠ none := by
  classical
  have ending : ∃ steps, advance next steps place = none := ⟨count, ends⟩
  exact ⟨Nat.find ending, Nat.find_spec ending, fun steps under => Nat.find_min ending under⟩

theorem path_distinct (count last : Nat) (place : α) (ends : advance next last place = none) : (path next count place).Nodup := by
  obtain ⟨stop, least, before⟩ := first_end next last place ends
  rw [List.nodup_iff_getElem?_ne_getElem?]
  intro first second order inside same
  obtain ⟨there, reached⟩ : ∃ there, (path next count place)[second]? = some there := ⟨_, List.getElem?_eq_getElem inside⟩
  rw [reached, path_get] at same
  rw [path_get] at reached
  split at reached
  · split at same
    · have under : second < stop := by
        by_contra past
        have later := advance_ends_later next place stop (second - stop) least
        rw [Nat.add_sub_cancel' (by omega), reached] at later
        cases later
      have stopped : advance next (second + (stop - second)) place = none := by rw [Nat.add_sub_cancel' under.le, least]
      rw [advance_add, reached, ← same, ← advance_add] at stopped
      exact before (first + (stop - second)) (by omega) stopped
    · cases same
  · cases reached

end Walks

section Changes

variable {α : Type} (next later : α → Option α)

def Ends (start : α) : Prop := ∃ stop, advance next stop start = none

theorem advance_before (count index : Nat) (start last : α) (reached : advance next count start = some last) (before : index ≤ count) :
    ∃ there, advance next index start = some there := by
  cases found : advance next index start with
  | some there => exact ⟨there, rfl⟩
  | none =>
      have past := advance_ends_later next start index (count - index) found
      rw [Nat.add_sub_cancel' before, reached] at past
      cases past

theorem ends_within (next : Nat → Option Nat) (bound start : Nat) (inside : start < bound)
    (bounded : ∀ place following, next place = some following → following < bound) (ends : Ends next start) :
    advance next bound start = none := by
  cases found : advance next bound start with
  | none => rfl
  | some last =>
      obtain ⟨stop, ended⟩ := ends
      have distinct := path_distinct next (bound + 1) stop start ended
      have length : (path next (bound + 1) start).length = bound + 1 :=
        path_length next (bound + 1) start fun index below =>
          advance_before next bound index start last found (Nat.lt_succ_iff.mp below)
      have places : (path next (bound + 1) start).toFinset ⊆ Finset.range bound := by
        intro place member
        rw [List.mem_toFinset, List.mem_iff_getElem?] at member
        obtain ⟨index, reaches⟩ := member
        rw [path_get] at reaches
        split at reaches
        · rw [Finset.mem_range]
          cases index with
          | zero =>
              rw [← Option.some.inj reaches]
              exact inside
          | succ index =>
              rw [advance_succ, Option.bind_eq_some_iff] at reaches
              obtain ⟨before, _, step⟩ := reaches
              exact bounded before place step
        · cases reaches
      have few := Finset.card_le_card places
      rw [List.toFinset_card_of_nodup distinct, length, Finset.card_range] at few
      omega

structure Enters (fresh : α) : Prop where
  last : later fresh = none
  step : ∀ place, later place = next place ∨ (next place = none ∧ later place = some fresh)

section Entering

variable (fresh : α) (enters : Enters next later fresh)

include enters in
theorem advance_enters (count : Nat) (start last : α) (reached : advance next count start = some last) :
    advance later count start = some last := by
  refine (advance_simulates next later (fun _ => True) id ?_ count start last trivial reached).2
  intro place following _ step
  rcases enters.step place with same | ⟨ended, _⟩
  · exact ⟨trivial, same.trans step⟩
  · rw [ended] at step
    cases step

include enters in
theorem advance_entered (count : Nat) (start last : α) (reached : advance later count start = some last) :
    advance next count start = some last ∨ last = fresh := by
  induction count generalizing last with
  | zero => exact .inl reached
  | succ count ih =>
      rw [advance_succ, Option.bind_eq_some_iff] at reached
      obtain ⟨before, there, step⟩ := reached
      rcases ih before there with kept | entered
      · rcases enters.step before with same | ⟨_, entered⟩
        · refine .inl ?_
          rw [advance_succ, kept, ← step, same]
          rfl
        · rw [entered] at step
          exact .inr (Option.some.inj step).symm
      · rw [entered, enters.last] at step
        cases step

include enters in
theorem ends_enters (start : α) (ends : Ends next start) : Ends later start := by
  obtain ⟨stop, ended⟩ := ends
  refine ⟨stop + 1, ?_⟩
  cases found : advance later stop start with
  | none => exact advance_ends_later later start stop 1 found
  | some last =>
      rcases advance_entered next later fresh enters stop start last found with kept | entered
      · rw [ended] at kept
        cases kept
      · rw [advance_succ, found, entered]
        exact enters.last

end Entering

def Cuts : Prop := ∀ place, later place = next place ∨ later place = none

section Cutting

variable (cuts : Cuts next later)

include cuts in
theorem advance_cut (count : Nat) (start last : α) (reached : advance later count start = some last) :
    advance next count start = some last := by
  refine (advance_simulates later next (fun _ => True) id ?_ count start last trivial reached).2
  intro place following _ step
  rcases cuts place with same | ended
  · exact ⟨trivial, same.symm.trans step⟩
  · rw [ended] at step
    cases step

include cuts in
theorem ends_cut (start : α) (ends : Ends next start) : Ends later start := by
  obtain ⟨stop, ended⟩ := ends
  refine ⟨stop, ?_⟩
  cases found : advance later stop start with
  | none => rfl
  | some last =>
      have kept := advance_cut next later cuts stop start last found
      rw [ended] at kept
      cases kept

theorem advance_spared (count : Nat) (start last : α) (reached : advance next count start = some last)
    (spared : ∀ index there, index < count → advance next index start = some there → later there = next there) :
    advance later count start = some last := by
  induction count generalizing last with
  | zero => exact reached
  | succ count ih =>
      rw [advance_succ, Option.bind_eq_some_iff] at reached
      obtain ⟨before, there, step⟩ := reached
      have kept := ih before there fun index place below => spared index place (Nat.lt_succ_of_lt below)
      rw [advance_succ, kept, ← step, ← spared count before (Nat.lt_succ_self count) there]
      rfl

end Cutting

end Changes

section Sequences

variable {α : Type} (next : α → Option α) (place : Nat → α) (size : Nat)

structure Enumerates : Prop where
  step : ∀ index, index + 1 < size → next (place index) = some (place (index + 1))
  last : ∀ index, index + 1 = size → next (place index) = none

variable (enumerates : Enumerates next place size)

include enumerates in
theorem advance_place (count index : Nat) (inside : index < size) :
    advance next count (place index) = if index + count < size then some (place (index + count)) else none := by
  induction count generalizing index with
  | zero => simp [advance, inside]
  | succ count ih =>
      simp only [advance]
      by_cases more : index + 1 < size
      · rw [enumerates.step index more, Option.bind_some, ih (index + 1) more, Nat.add_right_comm, Nat.add_assoc]
      · have ends : index + 1 = size := by omega
        rw [enumerates.last index ends, Option.bind_none, if_neg (by omega)]

include enumerates in
theorem visits_places (index count : Nat) (ends : index + (count + 1) = size) :
    Visits next (place index) ((List.range' index (count + 1)).map place) := by
  induction count generalizing index with
  | zero => exact Visits.last _ (enumerates.last index ends)
  | succ count ih =>
      rw [List.range'_succ, List.map_cons]
      exact Visits.more _ _ _ (enumerates.step index (by omega)) (ih (index + 1) (by omega))

end Sequences

end Walk
