import FlatAsync.AsyncRunnerLifeCycle

/-!
# The delivery of status events

`Cancel` and `Timedout` set the status of a task; `HandleEvents` turns the
status into an exception when the task calls the library next.  Its only
protection is the test of `std::uncaught_exception`, which speaks about the
thread and not about the task, and which says nothing in a destructor that
runs at the normal end of a scope.  This file settles what that test achieves.
-/

namespace FlatAsync

/-! ### Destructors -/

/-- The destructor of the innermost scope object finds no event to deliver.
`EnableEvents` lifts the ban on events before it looks for one. -/
def LeavesQuietly (s : System) (t : ThreadId) (r : RunnerId) : List Scope → Prop
  | [] => True
  | .opStateGuard :: _ => (s.threads t).uncaught ≠ 0 ∨ (s.runners r).opState = .normal
  | .access source :: _ => source = (s.runners r).scheduler ∨ ¬ s.EventPending t r

instance (s : System) (t : ThreadId) (r : RunnerId) :
    ∀ scopes, Decidable (LeavesQuietly s t r scopes)
  | [] => inferInstanceAs (Decidable True)
  | .opStateGuard :: _ | .access _ :: _ => inferInstanceAs (Decidable (_ ∨ _))

/-- A coroutine suspended in the destructor of an access object comes back
without an event to deliver. -/
def ArrivesQuietly (s : System) (t : ThreadId) (r : RunnerId) : CoroHelper → Prop
  | .suspended (.accessDtor _) => ¬ s.EventPending t r
  | _ => True

instance (s : System) (t : ThreadId) (r : RunnerId) :
    ∀ coroHelper, Decidable (ArrivesQuietly s t r coroHelper)
  | .suspended (.accessDtor _) => inferInstanceAs (Decidable (¬ _))
  | .suspended .defer | .suspended (.switchTo _) | .suspended (.accessCtor ..)
  | .empty | .running | .finished => inferInstanceAs (Decidable True)

/-- No destructor of the library delivers an event in this step. -/
def DestructorUndisturbed (s : System) : Action → Prop
  | .leaveScope t r => LeavesQuietly s t r (s.runners r).scopes
  | .enter t r .proceed => ArrivesQuietly s t r (s.runners r).coroHelper
  | _ => True

instance (s : System) : ∀ action, Decidable (DestructorUndisturbed s action)
  | .leaveScope t r => inferInstanceAs (Decidable (LeavesQuietly s t r _))
  | .enter t r .proceed => inferInstanceAs (Decidable (ArrivesQuietly s t r _))
  | .enter _ _ .start | .runAsync .. | .runAsyncHere .. | .currentScheduler ..
  | .dispatch .. | .handleEvents .. | .disableEvents .. | .enableEvents .. | .defer ..
  | .switchTo .. | .enterGuard .. | .enterAccess .. | .raise .. | .catchException ..
  | .finish .. | .onExit .. | .callProceed .. | .returnHandler .. | .detach ..
  | .proceed .. | .setStatus .. | .reset .. => inferInstanceAs (Decidable True)

namespace System

variable {s : System} {t : ThreadId} {r : RunnerId} {site : CallSite}

private theorem escape_terminated (running : s.terminated = false) :
    (s.escape t r site).terminated = false ↔ ∀ source, site ≠ .accessDtor source := by
  cases site with
  | accessDtor source => simp [escape]
  | defer | switchTo dst | accessCtor source dst => simpa [escape, raise] using running

private theorem returnFrom_terminated : (s.returnFrom r site).terminated = s.terminated := by
  cases site <;> rfl

private theorem defer_terminated (running : s.terminated = false) {handler : DeferHandler} :
    (s.defer t r site handler).terminated = false ↔
      ∀ source, site = .accessDtor source → ¬ s.EventPending t r := by
  unfold defer
  rw [← handleEvents_isSome]
  split
  next found => simp [escape_terminated running, found]
  next found => simp [yield, running, found]

private theorem afterYield_terminated (running : s.terminated = false) :
    (s.afterYield t r site).terminated = false ↔
      ∀ source, site = .accessDtor source → ¬ s.EventPending t r := by
  unfold afterYield
  rw [← handleEvents_isSome]
  split
  next found => simp [escape_terminated running, found]
  next found => simp [returnFrom_terminated, running, found]

theorem switchTo_terminated (running : s.terminated = false) {dst : SchedulerId} :
    (s.switchTo t r site dst).terminated = false ↔
      ∀ source, site = .accessDtor source →
        dst = (s.runners r).scheduler ∨ ¬ s.EventPending t r := by
  unfold switchTo
  split
  next same => simp [returnFrom_terminated, running, same]
  next moves =>
    have pending : (s.setScheduler r dst).EventPending t r ↔ s.EventPending t r := by
      rw [← handleEvents_isSome, handleEvents_setScheduler, handleEvents_isSome]
    rw [defer_terminated (by exact running), pending]
    simp [moves]

private theorem destroyGuard_terminated (running : s.terminated = false) :
    (s.destroyGuard t r).terminated = false ↔
      (s.threads t).uncaught ≠ 0 ∨ (s.runners r).opState = .normal := by
  have pending : ((s.allowEvents r).handleEvents t r).isSome ↔
      (s.threads t).uncaught = 0 ∧ (s.runners r).opState ≠ .normal := by
    rw [handleEvents_isSome]
    simp [EventPending, allowEvents]
  have disturbed : ¬ ((s.threads t).uncaught ≠ 0 ∨ (s.runners r).opState = .normal) ↔
      ((s.allowEvents r).handleEvents t r).isSome := by
    rw [pending, not_or, not_not]
  rw [← not_iff_not, disturbed]
  unfold destroyGuard
  split
  next found => simp [found]
  next found =>
    have alive : (s.allowEvents r).terminated = false := running
    simp [found, alive]

/-- A step terminates the program exactly when it delivers an event in a
destructor. -/
theorem step_terminated (running : s.terminated = false) (action : Action) :
    (s.step action).terminated = false ↔ DestructorUndisturbed s action := by
  cases action with
  | leaveScope t r =>
      simp only [step, leaveScope, DestructorUndisturbed, LeavesQuietly]
      cases scopes : (s.runners r).scopes with
      | nil => simpa using running
      | cons scope rest =>
          cases scope with
          | opStateGuard =>
              rw [destroyGuard_terminated (by exact running)]
              simp
          | access source =>
              rw [switchTo_terminated (by exact running)]
              simp [EventPending]
  | enter t r kind =>
      cases kind with
      | start => simpa [step, start, DestructorUndisturbed] using running
      | proceed =>
          simp only [step, resume, DestructorUndisturbed, ArrivesQuietly]
          cases state : (s.runners r).coroHelper with
          | empty | running | finished => simpa using running
          | suspended site =>
              have pending : (s.wake t r).EventPending t r ↔ s.EventPending t r := by
                simp [EventPending, wake]
              rw [afterYield_terminated (by exact running), pending]
              cases site <;> simp
  | handleEvents t r =>
      simp only [step, DestructorUndisturbed, iff_true]
      split
      · exact running
      · exact running
  | disableEvents t r =>
      simp only [step, disableEvents, DestructorUndisturbed, iff_true]
      split <;> exact running
  | enableEvents t r =>
      simp only [step, enableEvents, DestructorUndisturbed, iff_true]
      split <;> exact running
  | enterGuard t r =>
      simp only [step, makeGuard, DestructorUndisturbed, iff_true]
      split <;> exact running
  | defer t r =>
      simp only [step, DestructorUndisturbed, iff_true]
      rw [defer_terminated running]
      simp
  | switchTo t r dst =>
      simp only [step, DestructorUndisturbed, iff_true]
      rw [switchTo_terminated running]
      simp
  | enterAccess t r destination =>
      simp only [step, DestructorUndisturbed, iff_true]
      rw [switchTo_terminated running]
      simp
  | onExit t r =>
      simp only [step, onExit, DestructorUndisturbed, iff_true]
      split <;> exact running
  | setStatus r status =>
      simp only [step, setStatus, DestructorUndisturbed, iff_true]
      split <;> exact running
  | runAsync | runAsyncHere | currentScheduler | dispatch | raise | catchException | finish
  | callProceed | returnHandler | detach | proceed | reset => exact iff_of_true running trivial

end System

/-- A run is never ended by `std::terminate` exactly when no destructor of a
guard or of an access object finds an event to deliver. -/
theorem never_terminated_iff {actions : List Action}
    (legal : runnerSystem.Legal {} actions) :
    runnerSystem.EveryState (fun s => s.terminated = false) {} actions ↔
      runnerSystem.EveryStep DestructorUndisturbed {} actions :=
  ActionSystem.everyState_iff_everyStep (fun _ (running : System.terminated _ = false) => running)
    (fun _ action running _ _ calm => (System.step_terminated running action).mpr calm)
    (fun _ action running _ _ disturbed alive =>
      disturbed ((System.step_terminated running action).mp alive))
    rfl legal legal

/-- A task that is cancelled inside the scope of an `AsyncOpStateGuard`. -/
def cancelledInGuard : List Action :=
  [.runAsync 0 1, .dispatch 0 ⟨.start, 0, 1⟩, .enter 0 0 .start, .enterGuard 0 0,
    .setStatus 0 .cancelled, .leaveScope 0 0]

theorem terminated_cancelledInGuard :
    runnerSystem.Legal {} cancelledInGuard ∧
      ¬ runnerSystem.EveryState (fun s => s.terminated = false) {} cancelledInGuard := by
  refine ⟨by decide, fun running => ?_⟩
  exact absurd running.last (by decide)

/-- A task that is cancelled during the method call through an access object,
whose method throws. -/
def unwoundAccess : List Action :=
  [.runAsync 0 1, .dispatch 0 ⟨.start, 0, 1⟩, .enter 0 0 .start, .enterAccess 0 0 2,
    .onExit 0 0, .callProceed 0 0, .detach 0, .dispatch 1 ⟨.proceed, 0, 2⟩,
    .enter 1 0 .proceed, .setStatus 0 .cancelled, .handleEvents 1 0, .leaveScope 1 0]

theorem never_terminated_unwoundAccess :
    runnerSystem.EveryState (fun s => s.terminated = false) {} unwoundAccess :=
  (never_terminated_iff (by decide)).mpr (by decide)

/-! ### Other tasks on the same thread -/

/-- Wherever a task may call `HandleEvents`, with events allowed or not, the
call throws exactly when they are allowed, the status of this task is not
`Normal` and this task is not unwinding. -/
def EventsAreOwn (s : System) : Prop :=
  ∀ t r, (s.threads t).WorksFor r → ∀ allowed,
    ((s.setRunner r { s.runners r with isEventsAllowed := allowed }).handleEvents t r).isSome ↔
      allowed = true ∧ (s.runners r).opState ≠ .normal ∧ (s.runners r).unwinding = 0

/-- A thread that takes a closure counts exactly the exceptions that the task
of the closure has in flight. -/
def DispatchesOwnCount (s : System) : Action → Prop
  | .dispatch t closure => (s.threads t).uncaught = (s.runners closure.runner).unwinding
  | _ => True

instance (s : System) : ∀ action, Decidable (DispatchesOwnCount s action)
  | .dispatch .. => inferInstanceAs (Decidable (_ = _))
  | .runAsync .. | .runAsyncHere .. | .currentScheduler .. | .enter .. | .handleEvents ..
  | .disableEvents .. | .enableEvents .. | .defer .. | .switchTo .. | .enterGuard ..
  | .enterAccess .. | .leaveScope .. | .raise .. | .catchException .. | .finish ..
  | .onExit .. | .callProceed .. | .returnHandler .. | .detach .. | .proceed ..
  | .setStatus .. | .reset .. => inferInstanceAs (Decidable True)

/-- The count of a thread that works for a task is the count of the task. -/
def CountsAgree (s : System) : Prop :=
  ∀ t r, (s.threads t).WorksFor r → (s.threads t).uncaught = (s.runners r).unwinding

namespace CountsAgree

variable {s : System} {t : ThreadId} {r : RunnerId}

theorem eventsAreOwn (agree : CountsAgree s) : EventsAreOwn s := by
  intro t r works allowed
  have count := agree t r works
  rw [System.handleEvents_isSome]
  simp only [System.EventPending, System.setRunner_runners, Function.update_self,
    System.setRunner_threads, count, Int.natCast_eq_zero]
  tauto

theorem keep (agree : CountsAgree s) {after : System}
    (unwinding : ∀ r, (after.runners r).unwinding = (s.runners r).unwinding)
    (threads : ∀ t r, (after.threads t).WorksFor r → (s.threads t).WorksFor r ∧
      (after.threads t).uncaught = (s.threads t).uncaught) : CountsAgree after := by
  intro t r works
  obtain ⟨before, same⟩ := threads t r works
  rw [unwinding, same]
  exact agree t r before

theorem update (agree : CountsAgree s) {runner : AsyncRunner} {thread : Thread}
    (unwinding : runner.unwinding = (s.runners r).unwinding)
    (works : ∀ other, thread.WorksFor other → (s.threads t).WorksFor other ∧
      thread.uncaught = (s.threads t).uncaught) :
    CountsAgree ((s.setRunner r runner).setThread t thread) := by
  apply agree.keep
  · intro other
    by_cases same : other = r
    · subst other; simpa using unwinding
    · simp [same]
  · intro other
    by_cases same : other = t
    · subst other; simpa using works
    · simp [same]

theorem setRunner (agree : CountsAgree s) {runner : AsyncRunner}
    (unwinding : runner.unwinding = (s.runners r).unwinding) :
    CountsAgree (s.setRunner r runner) := by
  have updated : CountsAgree ((s.setRunner r runner).setThread 0 (s.threads 0)) :=
    agree.update unwinding (fun _ works => ⟨works, rfl⟩)
  simpa [System.setThread, System.setRunner] using updated

theorem setThread (agree : CountsAgree s) {thread : Thread}
    (works : ∀ other, thread.WorksFor other → (s.threads t).WorksFor other ∧
      thread.uncaught = (s.threads t).uncaught) :
    CountsAgree (s.setThread t thread) := by
  have updated : CountsAgree ((s.setRunner 0 (s.runners 0)).setThread t thread) :=
    agree.update rfl works
  simpa [System.setThread, System.setRunner] using updated

theorem proceed (agree : CountsAgree s) : CountsAgree (s.proceed r) := by
  have answered : CountsAgree (s.setRunner r { s.runners r with answer := .nobody }) :=
    agree.setRunner rfl
  exact answered

/-- The task that a thread executes throws or catches: nobody else works for
it, and the thread works for nobody else. -/
theorem count (agree : CountsAgree s) (phases : AllPhases s)
    (runs : (s.threads t).pc = .body r) {unwinding : Nat} {uncaught : Int}
    (same : uncaught = unwinding) :
    CountsAgree ((s.setRunner r { s.runners r with unwinding := unwinding }).setThread t
      { s.threads t with uncaught := uncaught }) := by
  have plays : (s.threads t).pc.role r = some .body := by simp [runs, Pc.role]
  intro thread other works
  by_cases here : thread = t
  · subst here
    have mine : other = r := by
      rcases works with body | ⟨kind, entered⟩
      · simpa [runs, eq_comm] using body
      · simp [runs] at entered
    subst mine
    simpa using same
  · have before : (s.threads thread).WorksFor other := by simpa [here] using works
    have different : other ≠ r := by
      rintro rfl
      exact here (phases.role_unique plays before.role)
    simpa [here, different] using agree thread other before

end CountsAgree

/-- The invariant of the runs in which threads count for the tasks they
take. -/
structure CountInvariant (s : System) : Prop where
  life : LifeInvariant s
  agree : CountsAgree s

namespace CountInvariant

variable {s : System} {t : ThreadId} {r : RunnerId}

theorem create (counts : CountInvariant s) (fresh : (s.runners r).stage = .unborn)
    (scheduler : SchedulerId) : CountInvariant (s.create r scheduler) := by
  refine ⟨LifeInvariant.rules.create counts.life fresh scheduler, fun t other works => ?_⟩
  obtain ⟨-, unplayed⟩ := counts.life.phases.unreferenced_of_unborn fresh
  have different : other ≠ r := by
    rintro rfl
    have plays := works.role
    change (((s.threads t).pc).role other).isSome at plays
    simp [unplayed t] at plays
  simpa [System.create, System.schedule, different] using counts.agree t other works

theorem onEnter (counts : CountInvariant s) (idle : (s.threads t).pc = .idle)
    {closure : Closure} (waiting : closure ∈ s.posted)
    (own : DispatchesOwnCount s (.dispatch t closure)) :
    CountInvariant (s.onEnter t closure) := by
  refine ⟨LifeInvariant.rules.onEnter counts.life idle waiting trivial, ?_⟩
  intro thread other works
  by_cases same : thread = t
  · subst same
    rcases works with body | ⟨kind, entered⟩
    · simp [System.onEnter] at body
    · have target : closure.runner = other := by
        simp only [System.onEnter, System.setThread_threads, Function.update_self,
          Pc.entered.injEq] at entered
        exact entered.1
      subst target
      simpa [System.onEnter] using (show _ = _ from own)
  · simp only [System.onEnter, System.setThread_threads, Function.update_of_ne same] at works
    simpa [System.onEnter, same] using counts.agree thread other works

theorem yield (counts : CountsAgree s) {site : CallSite} {handler : DeferHandler} :
    CountsAgree (s.yield t r site handler) :=
  counts.update rfl fun _ works => absurd works (Thread.not_worksFor (by simp) (by simp))

theorem raise (counts : CountInvariant s) (runs : (s.threads t).pc = .body r) :
    CountInvariant (s.raise t r) := by
  refine ⟨LifeInvariant.rules.raise counts.life runs, counts.agree.count counts.life.phases
    runs ?_⟩
  have count := counts.agree t r (.inl runs)
  push_cast
  rw [count]

theorem rules : StepRules (fun _ => True) DispatchesOwnCount CountInvariant where
  setRunner counts same :=
    ⟨LifeInvariant.rules.setRunner counts.life same, counts.agree.setRunner same.unwinding⟩
  raise counts runs := counts.raise runs
  catchException {s t r} counts runs thrown := by
    refine ⟨LifeInvariant.rules.catchException counts.life runs thrown,
      counts.agree.count counts.life.phases runs ?_⟩
    have count := counts.agree t r (.inl runs)
    omega
  terminate counts := ⟨LifeInvariant.rules.terminate counts.life, counts.agree⟩
  create counts fresh scheduler := counts.create fresh scheduler
  onEnter counts idle waiting own := counts.onEnter idle waiting own
  start counts entered :=
    ⟨LifeInvariant.rules.start counts.life entered, counts.agree.update rfl fun other works => by
      rcases works with body | ⟨kind, again⟩
      · cases body
        exact ⟨.inr ⟨_, entered⟩, rfl⟩
      · cases again⟩
  wake counts entered suspended :=
    ⟨LifeInvariant.rules.wake counts.life entered suspended,
      counts.agree.update rfl fun other works => by
        rcases works with body | ⟨kind, again⟩
        · cases body
          exact ⟨.inr ⟨_, entered⟩, rfl⟩
        · cases again⟩
  notSuspended counts entered stuck :=
    ⟨LifeInvariant.rules.notSuspended counts.life entered stuck,
      counts.agree.setThread fun _ works =>
        absurd works (Thread.not_worksFor (by simp) (by simp))⟩
  yield counts runs _ :=
    ⟨LifeInvariant.rules.yield counts.life runs trivial, yield counts.agree⟩
  switchAway {s t r site dst} counts runs target := by
    have moved : CountsAgree (s.setScheduler r dst) := counts.agree.setRunner rfl
    exact ⟨LifeInvariant.rules.switchAway counts.life runs target, yield moved⟩
  failedSwitch {s t r site dst} counts runs _ := by
    have life : LifeInvariant ((s.setScheduler r dst).escape t r site) :=
      LifeInvariant.rules.failedSwitch counts.life runs trivial
    have moved : CountInvariant (s.setScheduler r dst) :=
      ⟨⟨counts.life.phases.setRunner _ (by constructor <;> rfl), counts.life.attached⟩,
        counts.agree.setRunner rfl⟩
    cases site with
    | defer | switchTo dst | accessCtor source dst => exact moved.raise runs
    | accessDtor source => exact ⟨life, moved.agree⟩
  finish counts runs _ :=
    ⟨LifeInvariant.rules.finish counts.life runs trivial, counts.agree.update rfl fun _ works =>
      absurd works (Thread.not_worksFor (by simp) (by simp))⟩
  takeHandler counts exits stored _ :=
    ⟨LifeInvariant.rules.takeHandler counts.life exits stored trivial,
      counts.agree.update rfl fun _ works =>
        absurd works (Thread.not_worksFor (by simp) (by simp))⟩
  delete counts exits missing _ :=
    ⟨LifeInvariant.rules.delete counts.life exits missing trivial,
      counts.agree.update rfl fun _ works =>
        absurd works (Thread.not_worksFor (by simp) (by simp))⟩
  callProceed counts switches :=
    ⟨LifeInvariant.rules.callProceed counts.life switches,
      counts.agree.proceed.setThread fun _ works =>
        absurd works (Thread.not_worksFor (by simp) (by simp))⟩
  returnHandler counts defers :=
    ⟨LifeInvariant.rules.returnHandler counts.life defers,
      counts.agree.setThread fun _ works =>
        absurd works (Thread.not_worksFor (by simp) (by simp))⟩
  detach counts leaves :=
    ⟨LifeInvariant.rules.detach counts.life leaves,
      counts.agree.setThread fun _ works =>
        absurd works (Thread.not_worksFor (by simp) (by simp))⟩
  proceed counts holds _ :=
    ⟨LifeInvariant.rules.proceed counts.life holds trivial, counts.agree.proceed⟩

theorem initial : CountInvariant {} :=
  ⟨LifeInvariant.initial, fun t r works => by rcases works with pc | ⟨kind, pc⟩ <;> cases pc⟩

theorem step (counts : CountInvariant s) {action : Action} (enabled : s.Enabled action)
    (contract : ProceedContract s action) (own : DispatchesOwnCount s action) :
    CountInvariant (s.step action) :=
  rules.step counts enabled contract (fun _ _ => trivial) own

end CountInvariant

/-- In every run in which each thread that takes a closure counts exactly the
exceptions in flight in the task of that closure, the events of a task depend
on no other task. -/
theorem events_are_own {actions : List Action}
    (legal : runnerSystem.Legal {} actions)
    (contract : runnerSystem.EveryStep ProceedContract {} actions)
    (own : runnerSystem.EveryStep DispatchesOwnCount {} actions) :
    runnerSystem.EveryState EventsAreOwn {} actions := by
  have invariant : runnerSystem.EveryState CountInvariant {} actions :=
    ActionSystem.everyState_of_invariant
      (fun _ _ counts enabled both => counts.step enabled both.1 both.2)
      CountInvariant.initial legal (contract.and own)
  exact invariant.imp fun _ counts => counts.agree.eventsAreOwn

/-- Task 0 throws under an access object, whose destructor suspends it on
thread 0.  Task 1 is started on the same thread and cancelled. -/
def suspendedUnwinding : List Action :=
  [.runAsync 0 1, .dispatch 0 ⟨.start, 0, 1⟩, .enter 0 0 .start, .enterAccess 0 0 2,
    .onExit 0 0, .callProceed 0 0, .detach 0, .dispatch 0 ⟨.proceed, 0, 2⟩,
    .enter 0 0 .proceed, .raise 0 0, .leaveScope 0 0, .onExit 0 0, .callProceed 0 0,
    .detach 0, .runAsync 1 1, .dispatch 0 ⟨.start, 1, 1⟩, .enter 0 1 .start,
    .setStatus 1 .cancelled]

/-- Task 1 of `suspendedUnwinding` does not learn that it was cancelled. -/
theorem events_not_own_suspendedUnwinding :
    runnerSystem.Legal {} suspendedUnwinding ∧
      runnerSystem.EveryStep ProceedContract {} suspendedUnwinding ∧
        ¬ runnerSystem.EveryState EventsAreOwn {} suspendedUnwinding := by
  refine ⟨by decide, by decide, fun own => ?_⟩
  have delivered := own.last 0 1 (.inl (by decide)) true
  exact absurd (delivered.mpr (by decide)) (by decide)

/-- The same two tasks, where task 0 catches its exception before its access
object is destroyed. -/
def caughtBeforeAccess : List Action :=
  [.runAsync 0 1, .dispatch 0 ⟨.start, 0, 1⟩, .enter 0 0 .start, .enterAccess 0 0 2,
    .onExit 0 0, .callProceed 0 0, .detach 0, .dispatch 0 ⟨.proceed, 0, 2⟩,
    .enter 0 0 .proceed, .raise 0 0, .catchException 0 0, .leaveScope 0 0, .onExit 0 0,
    .callProceed 0 0, .detach 0, .runAsync 1 1, .dispatch 0 ⟨.start, 1, 1⟩,
    .enter 0 1 .start, .setStatus 1 .cancelled, .handleEvents 0 1]

theorem events_are_own_caughtBeforeAccess :
    runnerSystem.EveryState EventsAreOwn {} caughtBeforeAccess :=
  events_are_own (by decide) (by decide) (by decide)

end FlatAsync
