import FlatAsync.CoroMembers
import FlatAsync.RunnerCoroutines

/-!
# The members of the helpers of runners

`CoroHelper::Start` lets go of the closure of a suspended body before its stack is
unwound.  A runner starts its helper once, and is deleted when its body has ended.
This file goes through the lives of the helpers of all runners, statement by statement,
and shows that no stack is ever unwound in them.
-/

namespace FlatAsync

namespace System

/-- What the calls of a step are for the members of the helper of runner `r`: `Start`
and the destructor are executed to their ends. -/
def memberCalls (r : RunnerId) (s : System) (action : Action) : List HelperAction :=
  (s.coroCalls action).flatMap fun call =>
    match call with
    | .start _ c => if c = r then [.start, .effect, .effect, .effect, .effect] else []
    | .resume _ c => if c = r then [.resume] else []
    | .destroy _ c => if c = r then [.destroy, .effect, .effect, .effect] else []
    | .yield t | .yieldCoro t => if (s.threads t).pc.coro = some r then [.yield] else []
    | .finish t => if (s.threads t).pc.coro = some r then [.finish] else []
    | .throw t => if (s.threads t).pc.coro = some r then [.throw] else []
    | .unwound _ => []

end System

namespace HelperState

/-- `Start` and the destructor are called on helpers whose coroutine is not suspended. -/
def Rested (h : HelperState) : HelperAction → Prop
  | .start | .destroy => h.coro ≠ .suspended
  | .resume | .effect | .yield | .finish | .throw | .unwound => True

/-- The step may be taken, on a rested helper where this matters. -/
def Fresh (h : HelperState) (action : HelperAction) : Prop :=
  h.Guard action ∧ h.Rested action

def At (h : HelperState) : CoroPhase → Prop
  | .empty => h.control = .outside ∧ h.coro = .none
  | .running => h.control = .body
  | .suspended => h.control = .outside ∧ h.coro = .suspended
  | .finished => h.control = .outside ∧ h.coro = .complete
  | .destroyed => h.control = .destroyed

variable {h : HelperState} {phase : CoroPhase}

def Goes (h : HelperState) (actions : List HelperAction) (phase : CoroPhase) : Prop :=
  helperSystem.EveryStep Fresh h actions ∧ (helperSystem.run h actions).At phase

theorem Goes.nowhere (place : h.At phase) : h.Goes [] phase :=
  ⟨trivial, place⟩

/-- `Start` on a helper without a coroutine has nothing to unwind. -/
theorem Goes.start (place : h.At .empty) :
    h.Goes [.start, .effect, .effect, .effect, .effect] .running := by
  obtain ⟨handler, ptrYield, coro, frames, control, given⟩ := h
  obtain ⟨rfl, rfl⟩ : control = .outside ∧ coro = .none := place
  exact ⟨⟨⟨rfl, nofun⟩, ⟨rfl, trivial⟩, ⟨rfl, trivial⟩, ⟨rfl, trivial⟩, ⟨rfl, trivial⟩, trivial⟩,
    rfl⟩

theorem Goes.destroy (place : h.At .finished) :
    h.Goes [.destroy, .effect, .effect, .effect] .destroyed := by
  obtain ⟨handler, ptrYield, coro, frames, control, given⟩ := h
  obtain ⟨rfl, rfl⟩ : control = .outside ∧ coro = .complete := place
  exact ⟨⟨⟨rfl, nofun⟩, ⟨rfl, trivial⟩, ⟨rfl, trivial⟩, ⟨rfl, trivial⟩, trivial⟩, rfl⟩

theorem Goes.resume (place : h.At .suspended) (placed : h.Placed) : h.Goes [.resume] .running := by
  have yields : h.ptrYield = true := placed.yields (.inr place)
  refine ⟨⟨⟨.inl place.1, trivial⟩, trivial⟩, ?_⟩
  change (h.step .resume).control = .body
  simp [HelperState.step, HelperState.resume, place.2, yields]

theorem Goes.yield (place : h.At .running) (placed : h.Placed) : h.Goes [.yield] .suspended := by
  have inside : h.control = .body := place
  have yields : h.ptrYield = true := placed.yields (.inl inside)
  refine ⟨⟨⟨.inl inside, trivial⟩, trivial⟩, ?_⟩
  change (h.step .yield).control = .outside ∧ (h.step .yield).coro = .suspended
  simp [HelperState.step, HelperState.yield, inside, yields]

theorem Goes.finish (place : h.At .running) : h.Goes [.finish] .finished :=
  ⟨⟨⟨place, trivial⟩, trivial⟩, rfl, rfl⟩

theorem Placed.everyStep {actions : List HelperAction} (placed : h.Placed)
    (fresh : helperSystem.EveryStep Fresh h actions) : (helperSystem.run h actions).Placed := by
  induction actions generalizing h with
  | nil => exact placed
  | cons action actions ih => exact ih (placed.step fresh.1.1) fresh.2

/-- No stack is ever unwound. -/
structure Undisturbed (h : HelperState) : Prop where
  placed : h.Placed
  rested : h.control.isCode = true → h.coro ≠ .suspended
  calm : h.control.isUnwinding = false
  gone : h.control = .destroyed → h.frames = []

private theorem goOn_not_unwinding {rest : List Effect} :
    (Control.goOn rest).isUnwinding = false := by
  cases rest <;> rfl

private theorem goOn_ne_destroyed {rest : List Effect} : Control.goOn rest ≠ .destroyed := by
  cases rest <;> nofun

namespace Undisturbed

theorem perform (undisturbed : h.Undisturbed) {effect : Effect} {rest : List Effect}
    (control : h.control = .code (effect :: rest)) (placed : (h.perform rest effect).Placed) :
    (h.perform rest effect).Undisturbed := by
  have idle : h.coro ≠ .suspended := undisturbed.rested (by simp [control, Control.isCode])
  refine ⟨placed, ?_, ?_, ?_⟩
  · cases effect with
    | assignHandler | clearYield | makeCoro | destroyHandler => exact fun _ => idle
    | resetCoro => simp [HelperState.perform]
  · cases effect with
    | assignHandler | clearYield => exact goOn_not_unwinding
    | makeCoro | destroyHandler => rfl
    | resetCoro =>
        rw [Placed.reset_other idle]
        exact goOn_not_unwinding
  · cases effect with
    | assignHandler | clearYield => exact fun gone => absurd gone goOn_ne_destroyed
    | makeCoro => simp [HelperState.perform]
    | resetCoro =>
        rw [Placed.reset_other idle]
        exact fun gone => absurd gone goOn_ne_destroyed
    | destroyHandler =>
        intro _
        cases undisturbed.placed with
        | bare _ frames => exact frames
        | outside place | starting place | assigned place | cleared place | reset place
        | running place | restarting place | destroying place | silenced place
        | unwinding place | destroyed place =>
            simp [control, startCode, destructorCode] at place

theorem step {action : HelperAction} (undisturbed : h.Undisturbed) (fresh : h.Fresh action) :
    (h.step action).Undisturbed := by
  have placed := undisturbed.placed.step fresh.1
  cases action with
  | start | destroy => exact ⟨placed, fun _ => fresh.2, rfl, nofun⟩
  | finish | throw => exact ⟨placed, nofun, rfl, nofun⟩
  | unwound => exact absurd (fresh.1.symm.trans undisturbed.calm) nofun
  | effect =>
      cases control : h.control with
      | code rest =>
          cases rest with
          | nil =>
              have same : h.step .effect = h := by
                simp [HelperState.step, HelperState.effect, control]
              rwa [same]
          | cons effect rest =>
              rw [step_effect control] at placed ⊢
              exact undisturbed.perform control placed
      | outside | body | unwinding | destroyed =>
          have code : h.control.isCode = true := fresh.1
          simp [control, Control.isCode] at code
  | resume =>
      by_cases suspended : h.coro = .suspended
      · have outside : h.control = .outside := by
          rcases fresh.1 with outside | ⟨-, none⟩
          · exact outside
          · rw [suspended] at none
            cases none
        have inside := (Goes.resume ⟨outside, suspended⟩ undisturbed.placed).2
        have body : (h.step .resume).control = .body := inside
        exact ⟨placed, by simp [body, Control.isCode], by simp [body, Control.isUnwinding],
          by simp [body]⟩
      · have same : h.step .resume = h := by
          simp [HelperState.step, HelperState.resume, suspended]
        rwa [same]
  | yield =>
      have inside : h.control = .body := by
        rcases fresh.1 with inside | unwinds
        · exact inside
        · exact absurd (unwinds.symm.trans undisturbed.calm) nofun
      have outside : (h.step .yield).control = .outside :=
        (Goes.yield inside undisturbed.placed).2.1
      exact ⟨placed, by simp [outside, Control.isCode], by simp [outside, Control.isUnwinding],
        by simp [outside]⟩

theorem initial : Undisturbed {} :=
  ⟨.initial, nofun, rfl, nofun⟩

/-- Between its `Start` and its end the closure of a body is in `handler_`. -/
theorem own (undisturbed : h.Undisturbed) (between : h.control.isCode = false) : h.Own := by
  cases undisturbed.placed with
  | outside _ _ own | destroying _ _ own | silenced _ _ own => exact own
  | running _ runs own | unwinding _ runs own => exact runs.own own
  | bare _ frames => exact own_of_bare frames
  | destroyed control => exact own_of_bare (undisturbed.gone control)
  | restarting control =>
      have calm := undisturbed.calm
      simp [control, Control.isUnwinding] at calm
  | starting control | assigned control | cleared control | reset control =>
      simp [control, Control.isCode, startCode] at between

theorem bare (undisturbed : h.Undisturbed) (code : h.control.isCode = true) : h.frames = [] := by
  have idle : h.coro ≠ .suspended := undisturbed.rested code
  cases undisturbed.placed with
  | starting _ place | assigned _ place | cleared _ place | destroying _ place
  | silenced _ place => exact place.bare idle
  | reset _ _ _ frames | bare _ frames => exact frames
  | outside control | running control | restarting control | unwinding control
  | destroyed control => simp [control, Control.isCode] at code

end Undisturbed

/-- No stack is ever unwound: a body runs to its end, and from its `Start` to there its
closure is in `handler_`, while `Start` and the destructor find no stack. -/
structure Sheltered (h : HelperState) : Prop where
  calm : h.control.isUnwinding = false
  own : h.control.isCode = false → h.Own
  bare : h.control.isCode = true → h.frames = []

theorem Undisturbed.sheltered (undisturbed : h.Undisturbed) : h.Sheltered :=
  ⟨undisturbed.calm, undisturbed.own, undisturbed.bare⟩

end HelperState

/-- The helper of a runner is where the runner takes it to be. -/
structure Housed (r : RunnerId) (s : System) (h : HelperState) : Prop where
  life : LifeInvariant s
  placed : h.Placed
  place : h.At (s.runners r).coroPhase

namespace Housed

open HelperState

variable {r : RunnerId} {s : System} {h : HelperState} {action : Action}

/-- A step makes at most one call on the helper of `r`, and one for which the helper is
in the right place. -/
theorem calls (housed : Housed r s h) (guard : s.Guard action) :
    h.Goes (s.memberCalls r action) ((s.step action).runners r).coroPhase := by
  have effect := s.coroEffect housed.life.phases guard
  have place := housed.place
  unfold System.memberCalls
  generalize s.coroCalls action = calls at effect ⊢
  cases effect with
  | quiet runners threads =>
      rw [runners r]
      exact .nowhere place
  | started t c frame outside empty inside running =>
      by_cases own : c = r
      · subst own
        rw [running]
        rw [empty] at place
        simpa using Goes.start place
      · rw [frame.runners r (Ne.symm own)]
        simpa [own] using Goes.nowhere place
  | resumed t c frame outside suspended inside running =>
      by_cases own : c = r
      · subst own
        rw [running]
        rw [suspended] at place
        simpa using Goes.resume place housed.placed
      · rw [frame.runners r (Ne.symm own)]
        simpa [own] using Goes.nowhere place
  | yielded t c frame inside running outside suspended =>
      by_cases own : c = r
      · subst own
        rw [suspended]
        rw [running] at place
        simpa [inside] using Goes.yield place housed.placed
      · rw [frame.runners r (Ne.symm own)]
        simpa [inside, own] using Goes.nowhere place
  | finished t c frame inside running outside ended =>
      by_cases own : c = r
      · subst own
        rw [ended]
        rw [running] at place
        simpa [inside] using Goes.finish place
      · rw [frame.runners r (Ne.symm own)]
        simpa [inside, own] using Goes.nowhere place
  | destroyed t c frame outside ended still gone =>
      by_cases own : c = r
      · subst own
        rw [gone]
        rw [ended] at place
        simpa using Goes.destroy place
      · rw [frame.runners r (Ne.symm own)]
        simpa [own] using Goes.nowhere place

end Housed

/-- In every run of the runners the members of each helper are used as follows: no
stack is unwound, each body runs inside of the closure in `handler_`, and `Start` and the
destructor are called when nothing is left of a body. -/
theorem runners_house_helpers {actions : List Action} (legal : runnerSystem.Legal {} actions)
    (contract : runnerSystem.EveryStep ProceedContract {} actions) (r : RunnerId) :
    helperSystem.Legal {} (runnerSystem.trace (System.memberCalls r) {} actions) ∧
      helperSystem.EveryState HelperState.Sheltered {}
        (runnerSystem.trace (System.memberCalls r) {} actions) := by
  have follows : helperSystem.EveryStep HelperState.Fresh {}
      (runnerSystem.trace (System.memberCalls r) {} actions) ∧
        Housed r (runnerSystem.run {} actions)
          (helperSystem.run {} (runnerSystem.trace (System.memberCalls r) {} actions)) := by
    refine ActionSystem.everyStep_trace ?_
      ⟨LifeInvariant.initial, HelperState.Placed.initial, rfl, rfl⟩ legal contract
    intro s h action housed enabled met
    have made := housed.calls enabled.2
    exact ⟨made.1, housed.life.step enabled met, housed.placed.everyStep made.1, made.2⟩
  have lawful : helperSystem.Legal {} (runnerSystem.trace (System.memberCalls r) {} actions) :=
    follows.1.imp fun h action fresh => fresh.1
  have undisturbed : helperSystem.EveryState HelperState.Undisturbed {}
      (runnerSystem.trace (System.memberCalls r) {} actions) :=
    ActionSystem.everyState_of_invariant
      (fun h action undisturbed _ fresh => undisturbed.step fresh)
      HelperState.Undisturbed.initial lawful follows.1
  exact ⟨lawful, undisturbed.imp fun h undisturbed => undisturbed.sheltered⟩

theorem runners_house_helpers_movedTask :
    helperSystem.Legal {} (runnerSystem.trace (System.memberCalls 0) {} movedTask) ∧
      helperSystem.EveryState HelperState.Sheltered {}
        (runnerSystem.trace (System.memberCalls 0) {} movedTask) :=
  runners_house_helpers (by decide) (by decide) 0

end FlatAsync
