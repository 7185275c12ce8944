import ConZone.Calls
import ConZone.Dual

set_option autoImplicit false

namespace ConZone

inductive DualCall (config : DualConfig) : DualFtl → Loc × Op → DualFtl → Prop where
  | run (dual : DualFtl) (loc : Loc) (op : Op) (next : ZmsFtl)
      (called : Call (dualParams config loc) (dual loc) op (.ok next)) : DualCall config dual (loc, op) (ranOn dual loc next)

def callSystem (config : DualConfig) : TransitionSystem.System DualFtl (Loc × Op) :=
  ⟨fun dual => ∃ clock, dual = dualRealize config clock, DualCall config⟩

-- A condition on the primitives of each namespace, for single calls and for
-- commands, which are made of them.
abbrev CallCondition := Params → ZmsFtl → Op → Prop

def callMeets (config : DualConfig) (meets : CallCondition) (dual : DualFtl) (entry : Loc × Op) : Prop :=
  meets (dualParams config entry.1) (dual entry.1) entry.2

def commandMeets (config : DualConfig) (meets : CallCondition) (dual : DualFtl) (entry : Loc × Event) : Prop :=
  Calls (dualParams config entry.1) (meets (dualParams config entry.1)) (dual entry.1)
    (eventRun (dualParams config entry.1) (dual entry.1) entry.2)

section Runs

variable (config : DualConfig) (meets : CallCondition)

theorem ran_on_again (dual : DualFtl) (loc : Loc) (middle next : ZmsFtl) :
    ranOn (ranOn dual loc middle) loc next = ranOn dual loc next := by
  funext other
  by_cases here : other = loc
  · subst here
    rw [ran_on_self, ran_on_self]
  · rw [ran_on_other _ loc other next here, ran_on_other _ loc other next here, ran_on_other dual loc other middle here]
    rfl

theorem ran_on_idle (dual : DualFtl) (loc : Loc) (shares : ∀ other, SharesSsd (dual loc) (dual other)) :
    ranOn dual loc (dual loc) = dual := by
  funext other
  by_cases here : other = loc
  · subst here
    rw [ran_on_self]
  · rw [ran_on_other dual loc other _ here]
    unfold shareSsd
    rw [(shares other).nand, (shares other).timing, (shares other).l2p]

theorem calls_reach (dual : DualFtl) (loc : Loc) (next : ZmsFtl) (shares : ∀ other, SharesSsd (dual loc) (dual other))
    (reached : TransitionSystem.Reach (callSystem config) (callMeets config meets) dual)
    (run : Calls (dualParams config loc) (meets (dualParams config loc)) (dual loc) (.ok next)) :
    TransitionSystem.Reach (callSystem config) (callMeets config meets) (ranOn dual loc next) := by
  generalize ran : (Except.ok next : Exec ZmsFtl) = result at run
  induction run generalizing next with
  | done =>
      cases ran
      rw [ran_on_idle dual loc shares]
      exact reached
  | call middle op result _ met called ih =>
      subst ran
      have before := ih middle rfl
      have here := ran_on_self dual loc middle
      rw [← ran_on_again dual loc middle next]
      refine .next _ _ (loc, op) before ?_ (.run _ loc op next ?_)
      · unfold callMeets
        rw [here]
        exact met
      · rw [here]
        exact called
  | stop => cases ran

theorem commands_reach (dual : DualFtl) (reached : DualReachable config (commandMeets config meets) dual) :
    TransitionSystem.Reach (callSystem config) (callMeets config meets) dual := by
  induction reached with
  | start dual init => exact .start dual init
  | next before after entry reached permitted taken ih =>
      cases taken with
      | run loc event next ran =>
          have shares := fun other => dual_shares config _ before reached loc other
          unfold commandMeets at permitted
          rw [step_event_run _ _ _ _ ran] at permitted
          exact calls_reach config meets before loc next shares ih permitted

end Runs

end ConZone
