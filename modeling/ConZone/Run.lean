set_option autoImplicit false

-- Labelled transition systems: what holds in every state that runs reach, when
-- every step of the run meets a condition on the state it starts from.
namespace TransitionSystem

structure System (σ ε : Type) where
  init : σ → Prop
  step : σ → ε → σ → Prop

inductive Reach {σ ε : Type} (system : System σ ε) (allowed : σ → ε → Prop) : σ → Prop where
  | start (state : σ) (init : system.init state) : Reach system allowed state
  | next (state next : σ) (event : ε) (reached : Reach system allowed state) (permitted : allowed state event)
      (taken : system.step state event next) : Reach system allowed next

variable {σ ε : Type}

structure Invariant (system : System σ ε) (allowed : σ → ε → Prop) (property : σ → Prop) : Prop where
  starts : ∀ state, system.init state → property state
  keeps : ∀ state next event, property state → allowed state event → system.step state event next → property next

theorem reach_invariant (system : System σ ε) (allowed : σ → ε → Prop) (property : σ → Prop)
    (invariant : Invariant system allowed property) (state : σ) (reached : Reach system allowed state) : property state := by
  induction reached with
  | start state init => exact invariant.starts state init
  | next state next event _ permitted taken ih => exact invariant.keeps state next event ih permitted taken

theorem reach_mono (system : System σ ε) (allowed wider : σ → ε → Prop)
    (weaker : ∀ state event, allowed state event → wider state event) (state : σ) (reached : Reach system allowed state) :
    Reach system wider state := by
  induction reached with
  | start state init => exact .start state init
  | next state next event _ permitted taken ih => exact .next state next event ih (weaker state event permitted) taken

theorem reach_onward (system : System σ ε) (allowed : σ → ε → Prop) (middle last : σ) (reached : Reach system allowed middle)
    (onward : Reach ⟨fun first => first = middle, system.step⟩ allowed last) : Reach system allowed last := by
  induction onward with
  | start state init =>
      have same : state = middle := init
      rw [same]
      exact reached
  | next state next event _ permitted taken ih => exact .next state next event ih permitted taken

theorem reach_within (system : System σ ε) (allowed other : σ → ε → Prop) (property : σ → Prop)
    (invariant : Invariant system allowed property)
    (enough : ∀ state event, property state → allowed state event → other state event) (state : σ) (reached : Reach system allowed state) :
    Reach system other state := by
  induction reached with
  | start state init => exact .start state init
  | next state next event before permitted taken ih =>
      have kept := reach_invariant system allowed property invariant state before
      exact .next state next event ih (enough state event kept permitted) taken

section Simulation

variable {τ δ : Type}

-- One system follows another: each of its steps is shown as a step of the
-- other, from any state that stands for the one it starts from.
structure Simulation (lower : System σ ε) (allowed : σ → ε → Prop) (upper : System τ δ) (stands : σ → τ → Prop)
    (shown : σ → ε → δ) : Prop where
  starts : ∀ state, lower.init state → ∃ image, upper.init image ∧ stands state image
  steps : ∀ state next event image, stands state image → allowed state event → lower.step state event next →
    ∃ image', upper.step image (shown state event) image' ∧ stands next image'

variable (lower : System σ ε) (allowed : σ → ε → Prop) (upper : System τ δ) (stands : σ → τ → Prop) (shown : σ → ε → δ)
variable (simulation : Simulation lower allowed upper stands shown)

include simulation in
theorem simulation_onward (meets : δ → Prop) (first last : σ) (image : τ) (related : stands first image)
    (onward : Reach ⟨fun state => state = first, lower.step⟩ (fun state event => allowed state event ∧ meets (shown state event)) last) :
    ∃ lastImage, Reach ⟨fun state => state = image, upper.step⟩ (fun _ op => meets op) lastImage ∧ stands last lastImage := by
  induction onward with
  | start state init =>
      have same : state = first := init
      rw [same]
      exact ⟨image, .start image rfl, related⟩
  | next state next event _ permitted taken ih =>
      obtain ⟨middle, reached, stood⟩ := ih
      obtain ⟨after, stepped, stands⟩ := simulation.steps state next event middle stood permitted.1 taken
      exact ⟨after, .next middle after _ reached permitted.2 stepped, stands⟩

include simulation in
theorem simulation_reach (state : σ) (reached : Reach lower allowed state) :
    ∃ image, Reach upper (fun _ _ => True) image ∧ stands state image := by
  induction reached with
  | start state init =>
      obtain ⟨image, first, stands⟩ := simulation.starts state init
      exact ⟨image, .start image first, stands⟩
  | next state next event _ permitted taken ih =>
      obtain ⟨image, reached, stood⟩ := ih
      obtain ⟨after, stepped, stands⟩ := simulation.steps state next event image stood permitted taken
      exact ⟨after, .next image after _ reached trivial stepped, stands⟩

end Simulation

end TransitionSystem
