import ConZone.Device

set_option autoImplicit false

namespace ConZone

-- The two namespaces of the dual build, each under the medium it owns. They
-- work on one struct ssd: its blocks, planes and channels, and the L2P cache.
abbrev DualFtl := Loc → ZmsFtl

def shareSsd (source own : ZmsFtl) : ZmsFtl :=
  { own with nand := source.nand, timing := source.timing, l2p := source.l2p }

def ranOn (dual : DualFtl) (loc : Loc) (next : ZmsFtl) : DualFtl := fun other =>
  if other = loc then next else shareSsd next (dual other)

inductive DualStep (config : DualConfig) : DualFtl → Loc × Event → DualFtl → Prop where
  | run (dual : DualFtl) (loc : Loc) (event : Event) (next : ZmsFtl)
      (taken : Step (dualParams config loc) (dual loc) event next) :
      DualStep config dual (loc, event) (ranOn dual loc next)

def dualRealize (config : DualConfig) (clock : Nat → Nat) : DualFtl := fun loc => zmsRealizeFtl (dualParams config loc) clock

def dualSystem (config : DualConfig) : TransitionSystem.System DualFtl (Loc × Event) :=
  ⟨fun dual => ∃ clock, dual = dualRealize config clock, DualStep config⟩

def DualReachable (config : DualConfig) (allowed : DualFtl → Loc × Event → Prop) (dual : DualFtl) : Prop :=
  TransitionSystem.Reach (dualSystem config) allowed dual

def anyEvent {σ ε : Type} (_ : σ) (_ : ε) : Prop := True

structure SharesSsd (first second : ZmsFtl) : Prop where
  nand : first.nand = second.nand
  timing : first.timing = second.timing
  l2p : first.l2p = second.l2p

section Runs

variable (config : DualConfig)

@[simp] theorem ran_on_self (dual : DualFtl) (loc : Loc) (next : ZmsFtl) : ranOn dual loc next loc = next := if_pos rfl

theorem ran_on_other (dual : DualFtl) (loc other : Loc) (next : ZmsFtl) (apart : other ≠ loc) :
    ranOn dual loc next other = shareSsd next (dual other) := if_neg apart

theorem ran_on_shares (dual : DualFtl) (loc other : Loc) (next : ZmsFtl) : SharesSsd (ranOn dual loc next other) next := by
  by_cases here : other = loc
  · subst here
    rw [ran_on_self]
    exact ⟨rfl, rfl, rfl⟩
  · rw [ran_on_other dual loc other next here]
    exact ⟨rfl, rfl, rfl⟩

theorem dual_shares (allowed : DualFtl → Loc × Event → Prop) (dual : DualFtl) (reached : DualReachable config allowed dual)
    (first second : Loc) : SharesSsd (dual first) (dual second) := by
  induction reached with
  | start dual init =>
      obtain ⟨clock, same⟩ := init
      rw [same]
      exact ⟨rfl, rfl, rfl⟩
  | next before after event reached permitted taken ih =>
      cases taken with
      | run loc event next ran =>
          have left := ran_on_shares before loc first next
          have right := ran_on_shares before loc second next
          exact ⟨left.nand.trans right.nand.symm, left.timing.trans right.timing.symm, left.l2p.trans right.l2p.symm⟩

end Runs

def dualRun (config : DualConfig) : List (Loc × Event) → DualFtl → Option DualFtl
  | [], dual => some dual
  | (loc, event) :: rest, dual =>
      (stepEvent (dualParams config loc) (dual loc) event).bind fun next => dualRun config rest (ranOn dual loc next)

theorem dual_run_reach (config : DualConfig) (events : List (Loc × Event)) (dual last : DualFtl)
    (reached : DualReachable config anyEvent dual) (ran : dualRun config events dual = some last) :
    DualReachable config anyEvent last := by
  induction events generalizing dual with
  | nil =>
      cases ran
      exact reached
  | cons entry rest ih =>
      obtain ⟨loc, event⟩ := entry
      simp only [dualRun, Option.bind_eq_some_iff] at ran
      obtain ⟨next, stepped, ran⟩ := ran
      refine ih _ ?_ ran
      exact .next dual _ (loc, event) reached trivial (.run dual loc event next (step_event_step _ _ _ _ stepped))

theorem dual_run_check (config : DualConfig) (events : List (Loc × Event)) (clock : Nat → Nat) (check : DualFtl → Bool)
    (ran : (dualRun config events (dualRealize config clock)).any check = true) :
    ∃ dual, DualReachable config anyEvent dual ∧ check dual = true := by
  rw [Option.any_eq_true] at ran
  obtain ⟨last, ran, checked⟩ := ran
  exact ⟨last, dual_run_reach config events _ last (.start _ ⟨clock, rfl⟩) ran, checked⟩

end ConZone
