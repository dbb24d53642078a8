import FlatAsync.RunnerSteps
import FlatAsync.StatusEvents

/-!
# Guards against events

An `AsyncOpStateGuard` forbids events in its constructor and allows them again
in its destructor.  The runner keeps one flag, so the destructor of an inner
guard allows events although an outer one is still alive.

This file says how each step changes the flag and the scope objects of a runner,
and derives that events are forbidden exactly inside guards as long as no guard
is destroyed inside another one.
-/

namespace FlatAsync

def AsyncRunner.Guarded (runner : AsyncRunner) : Prop :=
  .opStateGuard ∈ runner.scopes

instance (runner : AsyncRunner) : Decidable runner.Guarded :=
  inferInstanceAs (Decidable (_ ∈ _))

/-- Events are allowed exactly where no guard is alive. -/
def EventsMatchGuards (s : System) : Prop :=
  ∀ r, (s.runners r).isEventsAllowed = true ↔ ¬ (s.runners r).Guarded

/-- The step throws a status exception in the body of `r`, or out of one of its
destructors. -/
def Delivers (s : System) (action : Action) (r : RunnerId) : Prop :=
  action.runner = some r ∧ (∀ t, action ≠ .raise t r) ∧
    ((s.runners r).unwinding < ((s.step action).runners r).unwinding ∨
      (s.step action).terminated ≠ s.terminated)

/-- No status exception is thrown while a guard is alive. -/
def GuardsShield (s : System) (action : Action) : Prop :=
  ∀ r, (s.runners r).Guarded → ((s.step action).runners r).Guarded → ¬ Delivers s action r

/-- Bodies use guards only, and not `DisableEvents` or `EnableEvents`. -/
def GuardsOnly (_ : System) : Action → Prop
  | .disableEvents .. | .enableEvents .. => False
  | _ => True

instance (s : System) : ∀ action, Decidable (GuardsOnly s action)
  | .disableEvents .. | .enableEvents .. => inferInstanceAs (Decidable False)
  | .runAsync .. | .runAsyncHere .. | .currentScheduler .. | .dispatch .. | .enter ..
  | .handleEvents .. | .defer .. | .switchTo .. | .enterGuard .. | .enterAccess ..
  | .leaveScope .. | .raise .. | .catchException .. | .finish .. | .onExit ..
  | .callProceed .. | .returnHandler .. | .detach .. | .proceed .. | .setStatus ..
  | .reset .. => inferInstanceAs (Decidable True)

/-- The innermost scope object is not a guard inside another guard. -/
def SoleGuard : List Scope → Prop
  | .opStateGuard :: outer => .opStateGuard ∉ outer
  | _ => True

instance : ∀ scopes, Decidable (SoleGuard scopes)
  | .opStateGuard :: outer => inferInstanceAs (Decidable (_ ∉ outer))
  | [] | .access _ :: _ => inferInstanceAs (Decidable True)

/-- A guard that is destroyed is the only one of its body. -/
def GuardsApart (s : System) : Action → Prop
  | .leaveScope _ r => SoleGuard (s.runners r).scopes
  | _ => True

instance (s : System) : ∀ action, Decidable (GuardsApart s action)
  | .leaveScope _ r => inferInstanceAs (Decidable (SoleGuard (s.runners r).scopes))
  | .disableEvents .. | .enableEvents .. | .runAsync .. | .runAsyncHere .. | .currentScheduler ..
  | .dispatch .. | .enter .. | .handleEvents .. | .defer .. | .switchTo .. | .enterGuard ..
  | .enterAccess .. | .raise .. | .catchException .. | .finish .. | .onExit .. | .callProceed ..
  | .returnHandler .. | .detach .. | .proceed .. | .setStatus .. | .reset .. =>
      inferInstanceAs (Decidable True)

/-! ### The flag and the scope objects -/

/-- Two versions of a runner with the same flag and the same scope objects. -/
structure AsyncRunner.SameScopes (new old : AsyncRunner) : Prop where
  flag : new.isEventsAllowed = old.isEventsAllowed
  scopes : new.scopes = old.scopes

/-- How the flag and the scope objects of a runner may change in one step.  A
guard goes only when the step leaves a scope. -/
inductive ScopeStep (leaving : Prop) (old new : AsyncRunner) : Prop
  | same (same : new.SameScopes old)
  | created (flag : new.isEventsAllowed = true) (scopes : new.scopes = [])
  | guarded (flag : new.isEventsAllowed = false)
      (scopes : new.scopes = .opStateGuard :: old.scopes)
  | unguarded (leaves : leaving) (flag : new.isEventsAllowed = true)
      (scopes : old.scopes = .opStateGuard :: new.scopes)
  | entered (source : SchedulerId) (flag : new.isEventsAllowed = old.isEventsAllowed)
      (scopes : new.scopes = .access source :: old.scopes)
  | left (source : SchedulerId) (flag : new.isEventsAllowed = old.isEventsAllowed)
      (scopes : old.scopes = .access source :: new.scopes)

namespace System

variable {s : System} {t : ThreadId} {r : RunnerId} {site : CallSite}

theorem leaveScope_guard {outer : List Scope}
    (scopes : (s.runners r).scopes = .opStateGuard :: outer) :
    ((s.leaveScope t r).runners r).isEventsAllowed = true ∧
      ((s.leaveScope t r).runners r).scopes = outer := by
  simp only [leaveScope, scopes, destroyGuard]
  split <;> simp [allowEvents]

/-- Every step changes the flag and the scope objects of a runner in one of
these ways. -/
theorem step_scopeStep {action : Action} (guards : GuardsOnly s action) (r : RunnerId) :
    ScopeStep (∃ t, action = .leaveScope t r) (s.runners r) ((s.step action).runners r) := by
  have change := s.step_runner action r
  generalize (s.step action).runners r = new at change ⊢
  cases change with
  | created scheduler creates => exact .created rfl rfl
  | disabled | notDisabled | enabled | enabledThrows => exact guards.elim
  | escapes t suspended => exact .same ⟨by simp [AsyncRunner.woken], by simp [AsyncRunner.woken]⟩
  | returns t suspended =>
      rcases AsyncRunner.returned_scopes with same | ⟨source, dst, -, entered⟩
      · exact .same ⟨AsyncRunner.returned_isEventsAllowed, same⟩
      · exact .entered source AsyncRunner.returned_isEventsAllowed entered
  | switched t switch | accessed t switch =>
      rcases switch.scopes with same | ⟨source, dst, -, entered⟩
      · exact .same ⟨switch.isEventsAllowed, same⟩
      · exact .entered source switch.isEventsAllowed entered
  | guarded t => exact .guarded rfl rfl
  | leftGuard t scopes => exact .unguarded ⟨t, rfl⟩ rfl scopes
  | leftAccess t scopes switch =>
      rcases switch.scopes with same | ⟨source, dst, inCtor, -⟩
      · exact .left _ switch.isEventsAllowed (by rw [scopes, same])
      · cases inCtor
  | _ => exact .same ⟨rfl, rfl⟩

end System

namespace EventsMatchGuards

variable {s : System} {action : Action} {t : ThreadId} {r : RunnerId}

theorem initial : EventsMatchGuards {} := by
  intro r
  simp [AsyncRunner.Guarded]

/-- The flag goes on matching the guards when a guard that is destroyed was the
only one. -/
theorem step (honest : EventsMatchGuards s) (guards : GuardsOnly s action)
    (apart : GuardsApart s action) : EventsMatchGuards (s.step action) := by
  intro r
  have before := honest r
  unfold AsyncRunner.Guarded at before ⊢
  cases System.step_scopeStep guards r with
  | same same => rw [same.flag, same.scopes, before]
  | created flag scopes => simp [flag, scopes]
  | guarded flag scopes => simp [flag, scopes]
  | entered source flag scopes => simp [flag, scopes, before]
  | left source flag scopes =>
      rw [flag, before, scopes]
      simp
  | unguarded leaves flag scopes =>
      obtain ⟨t, rfl⟩ := leaves
      have sole : .opStateGuard ∉ ((s.step (.leaveScope t r)).runners r).scopes := by
        simpa [GuardsApart, SoleGuard, scopes] using apart
      simp [flag, sole]

/-- A guard that is destroyed inside another one lifts the ban of both. -/
theorem broken (nested : ¬ GuardsApart s action) : ¬ EventsMatchGuards (s.step action) := by
  intro honest
  cases action with
  | leaveScope t r =>
      cases scopes : (s.runners r).scopes with
      | nil => simp [GuardsApart, SoleGuard, scopes] at nested
      | cons scope outer =>
          cases scope with
          | access source => simp [GuardsApart, SoleGuard, scopes] at nested
          | opStateGuard =>
              have inside : .opStateGuard ∈ outer := by
                simpa [GuardsApart, SoleGuard, scopes] using nested
              obtain ⟨flag, rest⟩ := System.leaveScope_guard (t := t) scopes
              apply (honest r).mp flag
              unfold AsyncRunner.Guarded
              rw [System.step, rest]
              exact inside
  | _ => exact nested trivial

/-- No destructor finds an event in the extent of a guard: that of the only guard
does not leave a guarded body. -/
theorem destructorUndisturbed (own : action.runner = some r)
    (forbidden : (s.runners r).isEventsAllowed = false) (apart : GuardsApart s action)
    (after : ((s.step action).runners r).Guarded) : DestructorUndisturbed s action := by
  have calm (t : ThreadId) : ¬ s.EventPending t r := by
    rintro ⟨allowed, -⟩
    simp [forbidden] at allowed
  cases action with
  | enter t q kind =>
      obtain rfl := Option.some.inj own
      cases kind with
      | start => trivial
      | proceed =>
          simp only [DestructorUndisturbed]
          unfold ArrivesQuietly
          split
          · exact calm t
          · trivial
  | leaveScope t q =>
      obtain rfl := Option.some.inj own
      simp only [DestructorUndisturbed]
      cases scopes : (s.runners q).scopes with
      | nil => trivial
      | cons scope outer =>
          cases scope with
          | access source => exact .inr (calm t)
          | opStateGuard =>
              unfold AsyncRunner.Guarded at after
              rw [System.step, (System.leaveScope_guard scopes).2] at after
              rw [GuardsApart, scopes] at apart
              exact absurd after apart
  | _ => trivial

/-- `HandleEvents` throws nothing while a guard is alive. -/
theorem shield (honest : EventsMatchGuards s) (running : s.terminated = false)
    (guards : GuardsOnly s action) (apart : GuardsApart s action) : GuardsShield s action := by
  intro r before after
  have forbidden : (s.runners r).isEventsAllowed = false := by
    simpa [before] using honest r
  rintro ⟨own, raises, throws | ends⟩
  · have enables : ∀ t, action ≠ .enableEvents t r := by
      rintro t rfl
      exact guards
    have unwinding := (s.step_runner action r).unwinding_le forbidden enables raises
    omega
  · apply ends
    rw [running]
    exact (System.step_terminated running action).mpr
      (destructorUndisturbed own forbidden apart after)

end EventsMatchGuards

/-- In every run of bodies that use guards, events are allowed exactly where no
guard is alive, and nothing is thrown in the extent of a guard, exactly when no
guard is destroyed inside another one. -/
theorem events_match_guards_iff {actions : List Action}
    (legal : runnerSystem.Legal {} actions)
    (guards : runnerSystem.EveryStep GuardsOnly {} actions) :
    (runnerSystem.EveryState EventsMatchGuards {} actions ∧
        runnerSystem.EveryStep GuardsShield {} actions) ↔
      runnerSystem.EveryStep GuardsApart {} actions := by
  have preserved : ∀ state action, EventsMatchGuards state → runnerSystem.enabled state action →
      GuardsOnly state action → GuardsApart state action →
        EventsMatchGuards (runnerSystem.next state action) :=
    fun _ _ honest _ guards apart => honest.step guards apart
  have broken : ∀ state action, EventsMatchGuards state → runnerSystem.enabled state action →
      GuardsOnly state action → ¬ GuardsApart state action →
        ¬ EventsMatchGuards (runnerSystem.next state action) :=
    fun _ _ _ _ _ nested => EventsMatchGuards.broken nested
  have matching : runnerSystem.EveryState EventsMatchGuards {} actions ↔
      runnerSystem.EveryStep GuardsApart {} actions :=
    ActionSystem.everyState_iff_everyStep (fun _ honest => honest) preserved broken
      EventsMatchGuards.initial legal guards
  constructor
  · exact fun both => matching.mp both.1
  · intro apart
    refine ⟨matching.mpr apart, ?_⟩
    apply ActionSystem.everyStep_of_invariant
      (fun state action honest enabled both =>
        preserved state action honest enabled both.1 both.2)
      (fun _ _ honest enabled both => honest.shield enabled.1 both.1 both.2)
      EventsMatchGuards.initial legal (guards.and apart)

/-- A task that calls, inside a guard, a function with a guard of its own and is
cancelled after that function has returned. -/
def cancelledInOuterGuard : List Action :=
  [.runAsync 0 1, .dispatch 0 ⟨.start, 0, 1⟩, .enter 0 0 .start, .enterGuard 0 0,
    .enterGuard 0 0, .leaveScope 0 0, .setStatus 0 .cancelled, .handleEvents 0 0]

/-- The last call of `cancelledInOuterGuard` throws although the outer guard is
alive. -/
theorem guards_shield_fails_cancelledInOuterGuard :
    runnerSystem.Legal {} cancelledInOuterGuard ∧
      runnerSystem.EveryStep GuardsOnly {} cancelledInOuterGuard ∧
        ¬ runnerSystem.EveryStep GuardsShield {} cancelledInOuterGuard ∧
          ¬ runnerSystem.EveryState EventsMatchGuards {} cancelledInOuterGuard := by
  refine ⟨by decide, by decide, fun shielded => ?_, fun honest => ?_⟩
  · obtain ⟨-, -, -, -, -, -, -, last, -⟩ := shielded
    apply last 0 (by decide) (by decide)
    exact ⟨rfl, fun t => by simp, .inl (by decide)⟩
  · exact (honest.last 0).mp (by decide) (by decide)

/-- A task that is cancelled while it is suspended inside a guard and resets its
status before the guard is destroyed. -/
def suspendedInGuard : List Action :=
  [.runAsync 0 1, .dispatch 0 ⟨.start, 0, 1⟩, .enter 0 0 .start, .enterGuard 0 0,
    .defer 0 0, .onExit 0 0, .setStatus 0 .cancelled, .proceed 0, .returnHandler 0 0,
    .detach 0, .dispatch 0 ⟨.proceed, 0, 1⟩, .enter 0 0 .proceed, .handleEvents 0 0,
    .reset 0, .leaveScope 0 0, .handleEvents 0 0]

theorem events_match_guards_suspendedInGuard :
    runnerSystem.EveryState EventsMatchGuards {} suspendedInGuard ∧
      runnerSystem.EveryStep GuardsShield {} suspendedInGuard :=
  (events_match_guards_iff (by decide) (by decide)).mpr (by decide)

end FlatAsync
