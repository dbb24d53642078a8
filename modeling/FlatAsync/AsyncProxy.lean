import FlatAsync.ExecutionContext
import FlatAsync.RunnerSteps

/-!
# Calls through an `AsyncProxy`

`AsyncProxy<T>()->method(...)` makes an access object, whose constructor
switches to the scheduler of `T`, calls the method and destroys the object,
whose destructor switches back.  The expression can be left in four ways: the
constructor throws before the move or after it, or the destructor returns at
once or after a suspension.

This file shows in which runs the task is back on its scheduler after each of
them.
-/

namespace FlatAsync

/-- Runner `r` is on `scheduler`: the thread that executes it was dispatched by
`scheduler`, and `scheduler_` says so. -/
structure System.RunsOn (s : System) (t : ThreadId) (r : RunnerId) (scheduler : SchedulerId) :
    Prop where
  actual : (s.threads t).dispatchedBy = scheduler
  believed : (s.runners r).scheduler = scheduler

/-- The step throws an exception in the body of `r`. -/
def System.Throws (s : System) (action : Action) (r : RunnerId) : Prop :=
  (s.runners r).unwinding < ((s.step action).runners r).unwinding

instance (s : System) (action : Action) (r : RunnerId) : Decidable (s.Throws action r) :=
  inferInstanceAs (Decidable (_ < _))

/-- With this step runner `r` leaves, on thread `t`, the expression of an access
object that was made on `source`. -/
inductive LeavesAccess (s : System) : Action → ThreadId → RunnerId → SchedulerId → Prop
  | failedCtor {t : ThreadId} {r : RunnerId} {dst : SchedulerId}
      (throws : s.Throws (.enterAccess t r dst) r) :
      LeavesAccess s (.enterAccess t r dst) t r (s.runners r).scheduler
  | failedMove {t : ThreadId} {r : RunnerId} {source dst : SchedulerId}
      (suspended : (s.runners r).coroHelper = .suspended (.accessCtor source dst))
      (throws : s.Throws (.enter t r .proceed) r) :
      LeavesAccess s (.enter t r .proceed) t r source
  | destroyed {t : ThreadId} {r : RunnerId} {source : SchedulerId} {outer : List Scope}
      (scopes : (s.runners r).scopes = .access source :: outer)
      (returns : ((s.step (.leaveScope t r)).threads t).pc = .body r) :
      LeavesAccess s (.leaveScope t r) t r source
  | returned {t : ThreadId} {r : RunnerId} {source : SchedulerId}
      (suspended : (s.runners r).coroHelper = .suspended (.accessDtor source)) :
      LeavesAccess s (.enter t r .proceed) t r source

/-- A task that leaves a call through a proxy is on the scheduler it was on
before the call. -/
def AccessReturns (s : System) (action : Action) : Prop :=
  ∀ t r source, LeavesAccess s action t r source → (s.step action).terminated = false →
    (s.step action).RunsOn t r source

/-- The coroutine is suspended in the constructor of an access object. -/
def CoroHelper.inAccessCtor : CoroHelper → Bool
  | .suspended (.accessCtor ..) => true
  | .suspended .defer | .suspended (.switchTo _) | .suspended (.accessDtor _) | .empty
  | .running | .finished => false

/-- No event is pending where a task arrives in the constructor of an access
object. -/
def ArrivalUndisturbed (s : System) : Action → Prop
  | .enter t r .proceed =>
      (s.runners r).coroHelper.inAccessCtor = true → ¬ s.EventPending t r
  | _ => True

instance (s : System) : ∀ action, Decidable (ArrivalUndisturbed s action)
  | .enter _ _ .proceed => inferInstanceAs (Decidable (_ → _))
  | .enter _ _ .start | .handleEvents .. | .disableEvents .. | .enableEvents .. | .defer ..
  | .switchTo .. | .enterGuard .. | .enterAccess .. | .leaveScope .. | .raise ..
  | .catchException .. | .finish .. | .onExit .. | .callProceed .. | .returnHandler ..
  | .detach .. | .proceed .. | .setStatus .. | .reset .. | .runAsync .. | .runAsyncHere ..
  | .currentScheduler .. | .dispatch .. => inferInstanceAs (Decidable True)

/-- No event is pending where a task starts to switch to another scheduler, nor
where it arrives in the constructor of an access object. -/
def ProxyUndisturbed (s : System) (action : Action) : Prop :=
  SwitchUndisturbed s action ∧ ArrivalUndisturbed s action

instance (s : System) (action : Action) : Decidable (ProxyUndisturbed s action) :=
  inferInstanceAs (Decidable (_ ∧ _))

/-- A constructor of an access object that is suspended moves its task. -/
def AccessMoves (s : System) : Prop :=
  ∀ r source dst, (s.runners r).coroHelper = .suspended (.accessCtor source dst) → source ≠ dst

namespace System

variable {s : System} {t : ThreadId} {r : RunnerId} {site : CallSite} {dst : SchedulerId}

private theorem handleEvents_wake : (s.wake t r).handleEvents t r = s.handleEvents t r := by
  simp [handleEvents, wake]

private theorem handleEvents_eq_none : s.handleEvents t r = none ↔ ¬ s.EventPending t r := by
  rw [← handleEvents_isSome]
  simp

/-- Whatever a switch meets, it leaves `scheduler_` at its destination. -/
theorem switchTo_scheduler : ((s.switchTo t r site dst).runners r).scheduler = dst := by
  unfold switchTo
  split
  next same => cases site <;> simp [returnFrom, same]
  next moves =>
    unfold defer
    split
    · cases site <;> simp [escape, raise, setScheduler]
    · simp [yield, setScheduler]

end System

namespace AccessMoves

variable {s : System} {action : Action}

theorem initial : AccessMoves {} := by
  intro r source dst suspended
  cases suspended

/-- Only the constructor of an access object is suspended in itself, and then for
another scheduler than the one it has started on. -/
theorem step (moves : AccessMoves s) : AccessMoves (s.step action) := by
  intro r source dst suspended
  have change := s.step_runner action r
  generalize (s.step action).runners r = new at change suspended
  cases change with
  | created | started | finished | deferred => cases suspended
  | returns t stopped => simp [AsyncRunner.woken] at suspended
  | escapes t stopped => simp [AsyncRunner.woken] at suspended
  | switched t switch | leftAccess t scopes switch =>
      rcases switch.coroHelper with kept | ⟨-, stopped⟩
      · exact moves r source dst (kept.symm.trans suspended)
      · cases stopped.symm.trans suspended
  | accessed t switch =>
      rcases switch.coroHelper with kept | ⟨elsewhere, stopped⟩
      · exact moves r source dst (kept.symm.trans suspended)
      · cases stopped.symm.trans suspended
        exact elsewhere.symm
  | _ => exact moves r source dst suspended

end AccessMoves

/-- The invariant of the runs in which proxies are not disturbed. -/
structure ProxyInvariant (s : System) : Prop where
  context : ContextInvariant s
  moves : AccessMoves s

namespace ProxyInvariant

variable {s : System} {action : Action} {t : ThreadId} {r : RunnerId}

theorem initial : ProxyInvariant {} := ⟨ContextInvariant.initial, AccessMoves.initial⟩

theorem step (proxies : ProxyInvariant s) (enabled : s.Enabled action)
    (contract : ProceedContract s action) (calm : SwitchUndisturbed s action) :
    ProxyInvariant (s.step action) :=
  ⟨proxies.context.step enabled contract calm, proxies.moves.step⟩

/-- Without events the constructor of an access object throws nothing. -/
theorem ctor_silent {dst : SchedulerId}
    (calm : dst = (s.runners r).scheduler ∨ ¬ s.EventPending t r) :
    ¬ s.Throws (.enterAccess t r dst) r := by
  unfold System.Throws
  simp only [System.step]
  rcases calm with same | calm
  · rw [System.switchTo_same same]
    simp [System.returnFrom]
  · by_cases same : dst = (s.runners r).scheduler
    · rw [System.switchTo_same same]
      simp [System.returnFrom]
    · rw [System.switchTo_calm same calm]
      simp [System.yield, System.setScheduler]

theorem resume_eq {site : CallSite} (suspended : (s.runners r).coroHelper = .suspended site) :
    s.step (.enter t r .proceed) =
      if s.EventPending t r then (s.wake t r).escape t r site
      else (s.wake t r).returnFrom r site := by
  simp only [System.step, System.resume, suspended, System.afterYield, System.handleEvents_wake]
  split
  next status event =>
    rw [if_pos (System.handleEvents_isSome.mp (by simp [event]))]
  next calm => rw [if_neg (System.handleEvents_eq_none.mp calm)]

theorem arrival (proxies : ProxyInvariant s) (enabled : s.Enabled action)
    (returns : AccessReturns s action) : ArrivalUndisturbed s action := by
  cases action with
  | enter t r kind =>
      cases kind with
      | start => trivial
      | proceed =>
          intro inCtor event
          cases stopped : (s.runners r).coroHelper with
          | suspended site =>
              cases site with
              | accessCtor source dst =>
                  have thrown := resume_eq (t := t) stopped
                  rw [if_pos event] at thrown
                  have left : LeavesAccess s (.enter t r .proceed) t r source := by
                    apply LeavesAccess.failedMove stopped
                    unfold System.Throws
                    rw [thrown]
                    simp [System.escape, System.raise, System.wake]
                  have home := (returns t r source left (by
                    rw [thrown]
                    simpa [System.escape, System.raise, System.wake] using enabled.1)).believed
                  have target := (proxies.context.located enabled.1).target r _ dst stopped rfl
                  apply proxies.moves r source dst stopped
                  rw [thrown] at home
                  rw [← target, ← home]
                  simp [System.escape, System.raise, System.wake]
              | defer | switchTo | accessDtor => simp [stopped, CoroHelper.inAccessCtor] at inCtor
          | empty | running | finished => simp [stopped, CoroHelper.inAccessCtor] at inCtor
  | _ => trivial

theorem returns (proxies : ProxyInvariant s) (enabled : s.Enabled action)
    (contract : ProceedContract s action) (calm : ProxyUndisturbed s action) :
    AccessReturns s action := by
  intro t r source left running
  have after : ContextInvariant (s.step action) := proxies.context.step enabled contract calm.1
  cases left with
  | failedCtor throws => exact absurd throws (ctor_silent calm.1)
  | failedMove suspended throws =>
      have quiet : ¬ s.EventPending t r := calm.2 (by simp [suspended, CoroHelper.inAccessCtor])
      unfold System.Throws at throws
      rw [resume_eq suspended, if_neg quiet] at throws
      simp [System.returnFrom, System.wake] at throws
  | destroyed scopes returns =>
      have believed : ((s.step (.leaveScope t r)).runners r).scheduler = source := by
        simp only [System.step, System.leaveScope, scopes]
        exact System.switchTo_scheduler
      exact ⟨(after.agrees.body running t r returns).trans believed, believed⟩
  | returned suspended =>
      have quiet : ¬ s.EventPending t r := by
        intro event
        rw [resume_eq suspended, if_pos event] at running
        simp [System.escape] at running
      rw [resume_eq suspended, if_neg quiet]
      have arrived := proxies.context.agrees.arrives enabled.1 t r _ source enabled.2 suspended rfl
      have believed := (proxies.context.located enabled.1).target r _ source suspended rfl
      constructor
      · simpa [System.returnFrom, System.wake] using arrived
      · simpa [System.returnFrom, System.wake] using believed

end ProxyInvariant

/-- In every run, tasks are where `scheduler_` says and every call through a
proxy that is left, normally or by an exception, brings its task back to the
scheduler it was on, exactly when no event is pending where a task starts to
switch to another scheduler or arrives in the constructor of an access object. -/
theorem access_returns_iff {actions : List Action}
    (legal : runnerSystem.Legal {} actions)
    (contract : runnerSystem.EveryStep ProceedContract {} actions) :
    (runnerSystem.EveryState ContextAgrees {} actions ∧
        runnerSystem.EveryStep AccessReturns {} actions) ↔
      runnerSystem.EveryStep ProxyUndisturbed {} actions := by
  have preserved : ∀ state action, ProxyInvariant state → runnerSystem.enabled state action →
      ProceedContract state action → SwitchUndisturbed state action →
        ProxyInvariant (runnerSystem.next state action) :=
    fun _ _ proxies enabled contract calm => proxies.step enabled contract calm
  constructor
  · rintro ⟨agreement, returns⟩
    have calm := (ContextInvariant.everyState_iff legal contract).mp agreement
    apply ActionSystem.everyStep_of_invariant
      (fun state action proxies enabled all =>
        preserved state action proxies enabled all.1 all.2.1)
      (fun _ _ proxies enabled all => ⟨all.2.1, proxies.arrival enabled all.2.2⟩)
      ProxyInvariant.initial legal (contract.and (calm.and returns))
  · intro calm
    refine ⟨(ContextInvariant.everyState_iff legal contract).mpr (calm.imp fun _ _ => And.left), ?_⟩
    apply ActionSystem.everyStep_of_invariant
      (fun state action proxies enabled both =>
        preserved state action proxies enabled both.1 both.2.1)
      (fun _ _ proxies enabled both => proxies.returns enabled both.1 both.2)
      ProxyInvariant.initial legal (contract.and calm)

/-- A task on scheduler 1 that is cancelled while the constructor of an access
object takes it to scheduler 2, and catches what the constructor throws. -/
def cancelledProxy : List Action :=
  [.runAsync 0 1, .dispatch 0 ⟨.start, 0, 1⟩, .enter 0 0 .start, .enterAccess 0 0 2,
    .onExit 0 0, .callProceed 0 0, .detach 0, .setStatus 0 .cancelled,
    .dispatch 1 ⟨.proceed, 0, 2⟩, .enter 1 0 .proceed, .catchException 1 0]

/-- The task of `cancelledProxy` stays on scheduler 2. -/
theorem access_returns_fails_cancelledProxy :
    runnerSystem.Legal {} cancelledProxy ∧
      runnerSystem.EveryStep ProceedContract {} cancelledProxy ∧
        ¬ runnerSystem.EveryStep AccessReturns {} cancelledProxy ∧
          ((runnerSystem.run {} cancelledProxy).runners 0).scheduler = 2 := by
  refine ⟨by decide, by decide, fun returns => ?_, by decide⟩
  obtain ⟨-, -, -, -, -, -, -, -, -, arrival, -⟩ := returns
  have left := arrival 1 0 1
    (.failedMove (show _ = CoroHelper.suspended (.accessCtor 1 2) by decide) (by decide))
    (by decide)
  exact absurd left.believed (by decide)

/-- A task on scheduler 1 whose call through a proxy throws on scheduler 2; it
is brought back and catches the exception on scheduler 1. -/
def throwingMethod : List Action :=
  [.runAsync 0 1, .dispatch 0 ⟨.start, 0, 1⟩, .enter 0 0 .start, .enterAccess 0 0 2,
    .onExit 0 0, .callProceed 0 0, .detach 0, .dispatch 1 ⟨.proceed, 0, 2⟩,
    .enter 1 0 .proceed, .raise 1 0, .leaveScope 1 0, .onExit 1 0, .callProceed 1 0,
    .detach 1, .dispatch 0 ⟨.proceed, 0, 1⟩, .enter 0 0 .proceed, .catchException 0 0]

theorem access_returns_throwingMethod :
    runnerSystem.EveryState ContextAgrees {} throwingMethod ∧
      runnerSystem.EveryStep AccessReturns {} throwingMethod :=
  (access_returns_iff (by decide) (by decide)).mpr (by decide)

end FlatAsync
