import FlatAsync.AsyncRunnerLifeCycle

/-!
# The execution context of a task

`scheduler_` is what a runner believes about the queue its code runs from.
`SwitchTo` changes the belief first and moves afterwards, with a test for
events in between.  This file shows that belief and fact agree in every state
of a run exactly when no such test finds an event before the move.
-/

namespace FlatAsync

/-- Belief and fact agree: code of a task runs on a thread that was
dispatched by the task's scheduler, and a `SwitchTo` that was suspended comes
back on its destination. -/
structure ContextAgrees (s : System) : Prop where
  body : s.terminated = false → ∀ t r, (s.threads t).pc = .body r →
    (s.threads t).dispatchedBy = (s.runners r).scheduler
  arrives : s.terminated = false → ∀ t r site dst, (s.threads t).pc = .entered r .proceed →
    (s.runners r).coroHelper = .suspended site → site.target = some dst →
      (s.threads t).dispatchedBy = dst

/-- Agreement at every place where a scheduler is remembered. -/
structure AllLocated (s : System) : Prop where
  closures : ∀ closure ∈ s.posted, closure.scheduler = (s.runners closure.runner).scheduler
  threads : ∀ t r, (s.threads t).WorksFor r →
    (s.threads t).dispatchedBy = (s.runners r).scheduler
  target : ∀ r site dst, (s.runners r).coroHelper = .suspended site →
    site.target = some dst → (s.runners r).scheduler = dst

namespace AllLocated

variable {s : System} {t : ThreadId} {r : RunnerId}

/-- Updates that move no task: each closure, each working thread and each
suspended switch was there before, on the same scheduler. -/
theorem keep (located : AllLocated s) {after : System}
    (schedulers : ∀ r, (after.runners r).scheduler = (s.runners r).scheduler)
    (closures : ∀ closure ∈ after.posted,
      closure ∈ s.posted ∨ closure.scheduler = (s.runners closure.runner).scheduler)
    (threads : ∀ t r, (after.threads t).WorksFor r → (s.threads t).WorksFor r ∧
      (after.threads t).dispatchedBy = (s.threads t).dispatchedBy)
    (suspended : ∀ r site dst, (after.runners r).coroHelper = .suspended site →
      site.target = some dst → (s.runners r).coroHelper = .suspended site) :
    AllLocated after where
  closures closure waiting := by
    rw [schedulers]
    rcases closures closure waiting with old | new
    · exact located.closures closure old
    · exact new
  threads t r works := by
    obtain ⟨before, same⟩ := threads t r works
    rw [schedulers, same]
    exact located.threads t r before
  target r site dst stopped moves := by
    rw [schedulers]
    exact located.target r site dst (suspended r site dst stopped moves) moves

/-- A runner is updated without moving it or suspending it in a switch, and a
thread goes on working for whom it worked. -/
theorem update (located : AllLocated s) {runner : AsyncRunner} {thread : Thread}
    (scheduler : runner.scheduler = (s.runners r).scheduler)
    (suspended : ∀ site dst, runner.coroHelper = .suspended site → site.target = some dst →
      (s.runners r).coroHelper = .suspended site)
    (works : ∀ other, thread.WorksFor other → (s.threads t).WorksFor other ∧
      thread.dispatchedBy = (s.threads t).dispatchedBy) :
    AllLocated ((s.setRunner r runner).setThread t thread) := by
  apply located.keep
  · intro other
    by_cases same : other = r
    · subst other; simpa using scheduler
    · simp [same]
  · exact fun closure waiting => .inl waiting
  · intro other
    by_cases same : other = t
    · subst other; simpa using works
    · simp [same]
  · intro other
    by_cases same : other = r
    · subst other; simpa using suspended
    · simp +contextual [same]

theorem setRunner (located : AllLocated s) {runner : AsyncRunner}
    (scheduler : runner.scheduler = (s.runners r).scheduler)
    (coroHelper : runner.coroHelper = (s.runners r).coroHelper) :
    AllLocated (s.setRunner r runner) := by
  have updated : AllLocated ((s.setRunner r runner).setThread 0 (s.threads 0)) :=
    located.update scheduler (fun site dst stopped _ => coroHelper ▸ stopped)
      (fun _ works => ⟨works, rfl⟩)
  simpa [System.setThread, System.setRunner] using updated

theorem setThread (located : AllLocated s) {thread : Thread}
    (works : ∀ other, thread.WorksFor other → (s.threads t).WorksFor other ∧
      thread.dispatchedBy = (s.threads t).dispatchedBy) :
    AllLocated (s.setThread t thread) := by
  have updated : AllLocated ((s.setRunner 0 (s.runners 0)).setThread t thread) :=
    located.update rfl (fun site dst stopped _ => stopped) works
  simpa [System.setThread, System.setRunner] using updated

theorem proceed (located : AllLocated s) : AllLocated (s.proceed r) := by
  have answered : AllLocated (s.setRunner r { s.runners r with answer := .nobody }) :=
    located.setRunner rfl rfl
  refine answered.keep (fun _ => rfl) ?_ (fun _ _ works => ⟨works, rfl⟩)
    (fun _ _ _ stopped _ => stopped)
  intro closure waiting
  simp only [System.proceed, System.schedule, List.mem_append, List.mem_singleton] at waiting
  rcases waiting with old | rfl
  · exact .inl old
  · exact .inr rfl

end AllLocated

/-- The invariant of the runs in which no switch fails before it has moved. -/
structure ContextInvariant (s : System) : Prop where
  life : LifeInvariant s
  located : s.terminated = false → AllLocated s

namespace ContextInvariant

variable {s : System} {t : ThreadId} {r : RunnerId}

theorem agrees (context : ContextInvariant s) : ContextAgrees s where
  body running t r pc := (context.located running).threads t r (.inl pc)
  arrives running t r site dst pc stopped moves := by
    rw [(context.located running).threads t r (.inr ⟨_, pc⟩)]
    exact (context.located running).target r site dst stopped moves

theorem create (context : ContextInvariant s) (fresh : (s.runners r).stage = .unborn)
    (scheduler : SchedulerId) : ContextInvariant (s.create r scheduler) := by
  refine ⟨LifeInvariant.rules.create context.life fresh scheduler, fun running => ?_⟩
  have located := context.located running
  obtain ⟨unposted, unplayed⟩ := context.life.phases.unreferenced_of_unborn fresh
  constructor
  · intro closure waiting
    simp only [System.create, System.schedule, System.setRunner_posted, List.mem_append,
      List.mem_singleton] at waiting
    rcases waiting with old | rfl
    · simpa [System.create, System.schedule, unposted closure old] using
        located.closures closure old
    · simp [System.create, System.schedule]
  · intro t other works
    have different : other ≠ r := by
      rintro rfl
      have plays := works.role
      change (((s.threads t).pc).role other).isSome at plays
      simp [unplayed t] at plays
    simpa [System.create, System.schedule, different] using located.threads t other works
  · intro other site dst stopped moves
    by_cases same : other = r
    · subst same
      simp [System.create, System.schedule] at stopped
    · simp only [System.create, System.schedule, System.setRunner_runners,
        Function.update_of_ne same] at stopped ⊢
      exact located.target other site dst stopped moves

theorem onEnter (context : ContextInvariant s) (idle : (s.threads t).pc = .idle)
    {closure : Closure} (waiting : closure ∈ s.posted) :
    ContextInvariant (s.onEnter t closure) := by
  refine ⟨LifeInvariant.rules.onEnter context.life idle waiting trivial, fun running => ?_⟩
  have located := context.located running
  constructor
  · exact fun other member => located.closures other (List.mem_of_mem_erase member)
  · intro thread other works
    by_cases same : thread = t
    · subst same
      rcases works with body | ⟨kind, entered⟩
      · simp [System.onEnter] at body
      · have target : closure.runner = other := by
          simp only [System.onEnter, System.setThread_threads, Function.update_self,
            Pc.entered.injEq] at entered
          exact entered.1
        subst target
        simpa [System.onEnter] using located.closures closure waiting
    · simp only [System.onEnter, System.setThread_threads, Function.update_of_ne same] at works
      simpa [System.onEnter, same] using located.threads thread other works
  · exact located.target

/-- The move of `SwitchTo`: the runner is held by the thread that changes its
scheduler, so nothing else remembers the old one. -/
theorem switchAway (context : ContextInvariant s) (runs : (s.threads t).pc = .body r)
    {site : CallSite} {dst : SchedulerId} (target : site.target = some dst) :
    ContextInvariant ((s.setScheduler r dst).yield t r site .proceedHandler) := by
  refine ⟨LifeInvariant.rules.switchAway context.life runs target, fun running => ?_⟩
  have located := context.located running
  have plays : (s.threads t).pc.role r = some .body := by simp [runs, Pc.role]
  constructor
  · intro closure waiting
    have different := context.life.phases.not_posted_of_role plays waiting
    simpa [System.yield, System.setScheduler, different] using
      located.closures closure waiting
  · intro thread other works
    by_cases same : thread = t
    · subst same
      simp [System.yield, Thread.WorksFor] at works
    · have before : (s.threads thread).WorksFor other := by
        simpa [System.yield, System.setScheduler, same] using works
      have different : other ≠ r := by
        rintro rfl
        exact same (context.life.phases.role_unique plays before.role)
      simpa [System.yield, System.setScheduler, same, different] using
        located.threads thread other before
  · intro other otherSite otherDst stopped moves
    by_cases same : other = r
    · subst same
      simp only [System.yield, System.moveTo_runners, System.setRunner_runners,
        Function.update_self, CoroHelper.suspended.injEq] at stopped
      subst stopped
      have dstEq : dst = otherDst := by simpa [target] using moves
      simpa [System.yield, System.setScheduler] using dstEq
    · simp only [System.yield, System.setScheduler, System.moveTo_runners,
        System.setRunner_runners, Function.update_of_ne same] at stopped ⊢
      exact located.target other otherSite otherDst stopped moves

/-- The invariant survives every step except a switch that fails in the body
or in the constructor of an access object. -/
theorem rules :
    StepRules (fun site => ∃ source, site = .accessDtor source) (fun _ _ => True)
      ContextInvariant where
  setRunner context same :=
    ⟨LifeInvariant.rules.setRunner context.life same,
      fun running => (context.located running).setRunner same.scheduler same.coroHelper⟩
  raise context runs :=
    ⟨LifeInvariant.rules.raise context.life runs, fun running =>
      (context.located running).update rfl (fun _ _ stopped _ => stopped)
        fun _ works => ⟨works, rfl⟩⟩
  catchException context runs thrown :=
    ⟨LifeInvariant.rules.catchException context.life runs thrown, fun running =>
      (context.located running).update rfl (fun _ _ stopped _ => stopped)
        fun _ works => ⟨works, rfl⟩⟩
  terminate context :=
    ⟨LifeInvariant.rules.terminate context.life, fun running => by simp at running⟩
  create context fresh scheduler := context.create fresh scheduler
  onEnter context idle waiting _ := context.onEnter idle waiting
  start context entered :=
    ⟨LifeInvariant.rules.start context.life entered, fun running =>
      (context.located running).update rfl (by simp) fun other works => by
        rcases works with body | ⟨kind, again⟩
        · cases body
          exact ⟨.inr ⟨_, entered⟩, rfl⟩
        · cases again⟩
  wake context entered suspended :=
    ⟨LifeInvariant.rules.wake context.life entered suspended, fun running =>
      (context.located running).update rfl (by simp) fun other works => by
        rcases works with body | ⟨kind, again⟩
        · cases body
          exact ⟨.inr ⟨_, entered⟩, rfl⟩
        · cases again⟩
  notSuspended context entered stuck :=
    ⟨LifeInvariant.rules.notSuspended context.life entered stuck, fun running =>
      (context.located running).setThread fun other works =>
        absurd works (Thread.not_worksFor (by simp) (by simp))⟩
  yield {s t r} context runs _ :=
    ⟨LifeInvariant.rules.yield context.life runs trivial, fun running =>
      (context.located running).update rfl
        (fun site dst stopped moves => by
          cases stopped
          simp [CallSite.target] at moves)
        fun other works => absurd works (Thread.not_worksFor (by simp) (by simp))⟩
  switchAway context runs target := context.switchAway runs target
  failedSwitch {s t r site dst} context runs tolerated := by
    have life : LifeInvariant ((s.setScheduler r dst).escape t r site) :=
      LifeInvariant.rules.failedSwitch context.life runs trivial
    obtain ⟨source, rfl⟩ := tolerated
    exact ⟨life, fun running => by simp [System.escape] at running⟩
  finish context runs _ :=
    ⟨LifeInvariant.rules.finish context.life runs trivial, fun running =>
      (context.located running).update rfl (by simp) fun other works =>
        absurd works (Thread.not_worksFor (by simp) (by simp))⟩
  takeHandler context exits stored _ :=
    ⟨LifeInvariant.rules.takeHandler context.life exits stored trivial, fun running =>
      (context.located running).update rfl (fun _ _ stopped _ => stopped) fun other works =>
        absurd works (Thread.not_worksFor (by simp) (by simp))⟩
  delete context exits missing _ :=
    ⟨LifeInvariant.rules.delete context.life exits missing trivial, fun running =>
      (context.located running).update rfl (fun _ _ stopped _ => stopped) fun other works =>
        absurd works (Thread.not_worksFor (by simp) (by simp))⟩
  callProceed context switches :=
    ⟨LifeInvariant.rules.callProceed context.life switches, fun running =>
      (context.located running).proceed.setThread fun other works =>
        absurd works (Thread.not_worksFor (by simp) (by simp))⟩
  returnHandler context defers :=
    ⟨LifeInvariant.rules.returnHandler context.life defers, fun running =>
      (context.located running).setThread fun other works =>
        absurd works (Thread.not_worksFor (by simp) (by simp))⟩
  detach context leaves :=
    ⟨LifeInvariant.rules.detach context.life leaves, fun running =>
      (context.located running).setThread fun other works =>
        absurd works (Thread.not_worksFor (by simp) (by simp))⟩
  proceed context holds _ :=
    ⟨LifeInvariant.rules.proceed context.life holds trivial, fun running =>
      (context.located running).proceed⟩

theorem initial : ContextInvariant {} :=
  ⟨LifeInvariant.initial, fun _ =>
    { closures := by simp
      threads := fun t r works => by rcases works with pc | ⟨kind, pc⟩ <;> cases pc
      target := by simp }⟩

end ContextInvariant

/-! ### Switches -/

/-- No event is pending where a body, or the constructor of an access object,
switches to another scheduler. -/
def SwitchUndisturbed (s : System) : Action → Prop
  | .switchTo t r dst | .enterAccess t r dst =>
      dst = (s.runners r).scheduler ∨ ¬ s.EventPending t r
  | _ => True

instance (s : System) : ∀ action, Decidable (SwitchUndisturbed s action)
  | .switchTo .. | .enterAccess .. => inferInstanceAs (Decidable (_ ∨ _))
  | .runAsync .. | .runAsyncHere .. | .currentScheduler .. | .dispatch .. | .enter ..
  | .handleEvents .. | .disableEvents .. | .enableEvents .. | .defer .. | .enterGuard ..
  | .leaveScope .. | .raise .. | .catchException .. | .finish .. | .onExit .. | .callProceed ..
  | .returnHandler ..
  | .detach .. | .proceed .. | .setStatus .. | .reset .. => inferInstanceAs (Decidable True)

/-- What a body may expect of a `SwitchTo` whose call ends before the coroutine
yields: when it returns, the code is on the destination; when it throws,
`scheduler_` is what it was. -/
def SwitchContract (s : System) (action : Action) : Prop :=
  match action with
  | .switchTo t r dst | .enterAccess t r dst =>
      ((s.step action).threads t).pc = .body r →
        if ((s.step action).runners r).unwinding = (s.runners r).unwinding then
          ((s.step action).threads t).dispatchedBy = dst
        else
          ((s.step action).runners r).scheduler = (s.runners r).scheduler
  | _ => True

namespace System

variable {s : System} {t : ThreadId} {r : RunnerId} {site : CallSite} {dst : SchedulerId}

theorem switchTo_same (same : dst = (s.runners r).scheduler) :
    s.switchTo t r site dst = s.returnFrom r site := by
  simp [switchTo, same]

theorem switchTo_calm (moves : dst ≠ (s.runners r).scheduler) (calm : ¬ s.EventPending t r) :
    s.switchTo t r site dst = (s.setScheduler r dst).yield t r site .proceedHandler := by
  have nothing : s.handleEvents t r = none := by
    simpa [← handleEvents_isSome] using calm
  simp [switchTo, moves, defer, handleEvents_setScheduler, nothing]

private theorem switchTo_failed (moves : dst ≠ (s.runners r).scheduler)
    (event : s.EventPending t r) :
    s.switchTo t r site dst = (s.setScheduler r dst).escape t r site := by
  obtain ⟨status, thrown⟩ := Option.isSome_iff_exists.mp (handleEvents_isSome.mpr event)
  simp [switchTo, moves, defer, handleEvents_setScheduler, thrown]

end System

namespace ContextInvariant

variable {s : System} {t : ThreadId} {r : RunnerId}

theorem step (context : ContextInvariant s) {action : Action} (enabled : s.Enabled action)
    (contract : ProceedContract s action) (calm : SwitchUndisturbed s action) :
    ContextInvariant (s.step action) := by
  refine rules.step context enabled contract ?_ trivial
  intro site fails
  cases action with
  | switchTo t r dst | enterAccess t r dst =>
      obtain ⟨-, moves, event⟩ := fails
      rcases calm with same | calm
      · exact absurd same moves
      · exact absurd (System.handleEvents_isSome.mp event) calm
  | leaveScope t r => exact fails
  | _ => exact fails.elim

/-- The code that runs after a switch has failed is still on the old scheduler,
whatever `scheduler_` says. -/
theorem failed_switch (context : ContextInvariant s) (running : s.terminated = false)
    (runs : (s.threads t).pc = .body r) {site : CallSite} {dst : SchedulerId}
    (throws : ∀ system : System, system.escape t r site = system.raise t r)
    (moves : dst ≠ (s.runners r).scheduler) (event : s.EventPending t r) :
    ¬ ContextAgrees (s.switchTo t r site dst) := by
  intro agreement
  rw [System.switchTo_failed moves event, throws] at agreement
  have believed := agreement.body
    (by simpa [System.raise, System.setScheduler] using running) t r
    (by simpa [System.raise, System.setScheduler] using runs)
  have actual := context.agrees.body running t r runs
  apply moves
  simpa [System.raise, System.setScheduler, actual] using believed.symm

theorem broken (context : ContextInvariant s) {action : Action}
    (enabled : s.Enabled action) (disturbed : ¬ SwitchUndisturbed s action) :
    ¬ ContextAgrees (s.step action) := by
  cases action with
  | switchTo t r dst =>
      simp only [SwitchUndisturbed, not_or, not_not] at disturbed
      exact context.failed_switch enabled.1 enabled.2 (fun _ => rfl) disturbed.1 disturbed.2
  | enterAccess t r dst =>
      simp only [SwitchUndisturbed, not_or, not_not] at disturbed
      exact context.failed_switch enabled.1 enabled.2 (fun _ => rfl) disturbed.1 disturbed.2
  | _ => exact absurd trivial disturbed

theorem switch (context : ContextInvariant s) (running : s.terminated = false)
    (runs : (s.threads t).pc = .body r) {site : CallSite} {dst : SchedulerId}
    (returns : (s.returnFrom r site).threads = s.threads ∧
      ((s.returnFrom r site).runners r).unwinding = (s.runners r).unwinding)
    (calm : dst = (s.runners r).scheduler ∨ ¬ s.EventPending t r)
    (here : ((s.switchTo t r site dst).threads t).pc = .body r) :
    ((s.switchTo t r site dst).runners r).unwinding = (s.runners r).unwinding ∧
      ((s.switchTo t r site dst).threads t).dispatchedBy = dst := by
  by_cases same : dst = (s.runners r).scheduler
  · rw [System.switchTo_same same]
    refine ⟨returns.2, ?_⟩
    rw [returns.1, same]
    exact context.agrees.body running t r runs
  · rw [System.switchTo_calm same (calm.resolve_left same)] at here
    simp [System.yield] at here

theorem switchContract (context : ContextInvariant s) {action : Action}
    (enabled : s.Enabled action) (calm : SwitchUndisturbed s action) :
    SwitchContract s action := by
  cases action with
  | switchTo t r dst =>
      intro here
      obtain ⟨returned, arrived⟩ := context.switch enabled.1 enabled.2 ⟨rfl, rfl⟩ calm here
      exact (if_pos returned).mpr arrived
  | enterAccess t r dst =>
      intro here
      obtain ⟨returned, arrived⟩ := context.switch enabled.1 enabled.2
        ⟨rfl, by simp [System.returnFrom]⟩ calm here
      exact (if_pos returned).mpr arrived
  | _ => trivial

/-- Belief and fact agree throughout a run exactly when no switch is disturbed. -/
theorem everyState_iff {actions : List Action} (legal : runnerSystem.Legal {} actions)
    (contract : runnerSystem.EveryStep ProceedContract {} actions) :
    runnerSystem.EveryState ContextAgrees {} actions ↔
      runnerSystem.EveryStep SwitchUndisturbed {} actions :=
  ActionSystem.everyState_iff_everyStep (fun _ => agrees)
    (fun _ _ context enabled contract calm => context.step enabled contract calm)
    (fun _ _ context enabled _ disturbed => context.broken enabled disturbed)
    initial legal contract

end ContextInvariant

/-- In every run, belief and fact about the scheduler of every task agree in
every state, and every `SwitchTo` keeps its contract, exactly when no event is
pending where a task starts to switch to another scheduler. -/
theorem context_agrees_iff {actions : List Action}
    (legal : runnerSystem.Legal {} actions)
    (contract : runnerSystem.EveryStep ProceedContract {} actions) :
    (runnerSystem.EveryState ContextAgrees {} actions ∧
        runnerSystem.EveryStep SwitchContract {} actions) ↔
      runnerSystem.EveryStep SwitchUndisturbed {} actions := by
  have agreement := ContextInvariant.everyState_iff legal contract
  constructor
  · exact fun both => agreement.mp both.1
  · intro calm
    refine ⟨agreement.mpr calm, ?_⟩
    exact ActionSystem.everyStep_of_invariant
      (fun _ _ (context : ContextInvariant _) enabled both =>
        context.step enabled both.1 both.2)
      (fun _ _ context enabled both => context.switchContract enabled both.2)
      ContextInvariant.initial legal (contract.and calm)

/-- A task that is cancelled before it switches from scheduler 1 to 2, and
catches what `SwitchTo` throws. -/
def cancelledSwitch : List Action :=
  [.runAsync 0 1, .dispatch 0 ⟨.start, 0, 1⟩, .enter 0 0 .start, .setStatus 0 .cancelled,
    .switchTo 0 0 2, .catchException 0 0]

/-- The task of `cancelledSwitch` is dispatched by scheduler 1 and believes to
run on scheduler 2. -/
theorem context_disagrees_cancelledSwitch :
    runnerSystem.Legal {} cancelledSwitch ∧
      runnerSystem.EveryStep ProceedContract {} cancelledSwitch ∧
        ¬ runnerSystem.EveryState ContextAgrees {} cancelledSwitch := by
  refine ⟨by decide, by decide, fun agreement => ?_⟩
  have believed := agreement.last.body (by decide) 0 0 (by decide)
  exact absurd believed (by decide)

/-- A task that switches from scheduler 1 to 2 and is cancelled on the way. -/
def quietSwitch : List Action :=
  [.runAsync 0 1, .dispatch 0 ⟨.start, 0, 1⟩, .enter 0 0 .start, .switchTo 0 0 2,
    .onExit 0 0, .callProceed 0 0, .detach 0, .setStatus 0 .cancelled,
    .dispatch 1 ⟨.proceed, 0, 2⟩, .enter 1 0 .proceed, .catchException 1 0]

theorem context_agrees_quietSwitch :
    runnerSystem.EveryState ContextAgrees {} quietSwitch ∧
      runnerSystem.EveryStep SwitchContract {} quietSwitch :=
  (context_agrees_iff (by decide) (by decide)).mpr (by decide)

end FlatAsync
