import FlatAsync.ThreadPool

/-!
# The end of a thread pool

The destructor of a `ThreadPool` sets `stopped_` under the mutex, stops the
service outside of it and joins the workers.  A worker that restarted the
service after that would stay in `run` for ever.  This file shows that none
does: every worker sees `stopped_` in its next locked section and leaves.
-/

namespace FlatAsync

/-- From the critical section of the destructor on a step leaves no work and
resets no service, and a worker that comes to the mutex leaves its loop.  Before
it nobody leaves. -/
structure ShutsDown (s : ThreadPool) (action : PoolAction) : Prop where
  stays : s.stopped = true → (s.step action).stopped = true
  noWork : (s.step action).stopped = true → (s.step action).work = false
  noReset : s.stopped = true → s.serviceStopped = true →
    (s.step action).serviceStopped = true
  leaves : s.stopped = true → ∀ w, action = .loopSection w →
    (s.step action).workers w = .exited
  remains : s.stopped = false → ∀ w, s.workers w ≠ .exited →
    (s.step action).workers w ≠ .exited

namespace ThreadPool

variable {s : ThreadPool} {action : PoolAction} {w : WorkerId} {k : WaitId}

/-! ### One step -/

theorem step_workers (action : PoolAction) :
    (s.step action).workers =
      match action with
      | .startHandler w h => Function.update s.workers w (.inRun (some h))
      | .finishHandler w _ => Function.update s.workers w (.inRun none)
      | .returnFromRun w => Function.update s.workers w .beforeLock
      | .loopSection w =>
          Function.update s.workers w (if s.stopped then .exited else .inRun none)
      | _ => s.workers := by
  cases action with
  | finishHandler w h => simp [step, finishHandler, stopIfIdle_eq, setWorker]
  | destroyLock => simp [step, destroyLock, resetWork_eq]
  | loopSection w =>
      cases stopped : s.stopped <;> cases work : s.work <;>
        simp [step, loopSection, setWorker, stopped, work]
  | lockWait k =>
      cases found : s.waits k <;> simp [step, lockWait, setWait, found, resetWork_eq]
  | wakeWait k =>
      cases found : s.waits k <;> cases work : s.work <;>
        simp [step, wakeWait, setWait, found, work]
  | schedule | startHandler | returnFromRun | callWait | destroyStop => rfl

theorem step_stopped (action : PoolAction) :
    (s.step action).stopped = (s.stopped || action == .destroyLock) := by
  cases action with
  | finishHandler w h => simp [step, finishHandler, stopIfIdle_eq, setWorker]
  | destroyLock => simp [step, destroyLock, resetWork_eq]
  | loopSection w =>
      cases stopped : s.stopped <;> cases work : s.work <;>
        simp [step, loopSection, setWorker, stopped, work]
  | lockWait k =>
      cases found : s.waits k <;> simp [step, lockWait, setWait, found, resetWork_eq]
  | wakeWait k =>
      cases found : s.waits k <;> cases work : s.work <;>
        simp [step, wakeWait, setWait, found, work]
  | schedule | startHandler | returnFromRun | callWait | destroyStop =>
      simp [step, schedule, startHandler, callWait, destroyStop, setWorker, setWait]

/-- A worker that finds `stopped_` set does not touch `work_`. -/
theorem step_work (stopped : s.stopped = true) (work : s.work = false) (action : PoolAction) :
    (s.step action).work = false := by
  cases action with
  | finishHandler w h => simpa [step, finishHandler, stopIfIdle_eq, setWorker] using work
  | destroyLock => simp [step, destroyLock, resetWork_eq]
  | loopSection w => simpa [step, loopSection, stopped, setWorker] using work
  | lockWait k =>
      cases found : s.waits k <;> simp [step, lockWait, setWait, found, resetWork_eq, work]
  | wakeWait k =>
      cases found : s.waits k <;> simp [step, wakeWait, found, work]
  | schedule | startHandler | returnFromRun | callWait | destroyStop => exact work

theorem step_serviceStopped (stopped : s.stopped = true) (ended : s.serviceStopped = true)
    (action : PoolAction) : (s.step action).serviceStopped = true := by
  cases action with
  | finishHandler w h => simp [step, finishHandler, stopIfIdle_eq, setWorker, ended]
  | destroyLock => simp [step, destroyLock, resetWork_eq, ended]
  | loopSection w => simpa [step, loopSection, stopped, setWorker] using ended
  | lockWait k =>
      cases found : s.waits k <;>
        simp [step, lockWait, setWait, found, resetWork_eq, ended]
  | wakeWait k =>
      cases found : s.waits k <;> cases work : s.work <;>
        simp [step, wakeWait, setWait, found, work, ended]
  | destroyStop => rfl
  | schedule | startHandler | returnFromRun | callWait => exact ended

/-- While the destructor has not been there, only its own critical section
leaves the pool stopped, and this section takes the work away. -/
theorem step_released (released : s.stopped = true → s.work = false) (action : PoolAction)
    (stopped : (s.step action).stopped = true) : (s.step action).work = false := by
  cases before : s.stopped with
  | true => exact step_work before (released before) action
  | false =>
      have lock : action = .destroyLock := by simpa [step_stopped, before] using stopped
      simp [lock, step, destroyLock, resetWork_eq]

theorem shutsDown (released : s.stopped = true → s.work = false) (action : PoolAction) :
    ShutsDown s action where
  stays stopped := by simp [step_stopped, stopped]
  noWork := step_released released action
  noReset stopped ended := step_serviceStopped stopped ended action
  leaves stopped w section_ := by simp [section_, step_workers, stopped]
  remains running w inside := by
    rw [step_workers]
    cases action with
    | startHandler v h | finishHandler v h | returnFromRun v | loopSection v =>
        by_cases same : w = v
        · simp [same, running]
        · simpa [same] using inside
    | schedule | callWait | lockWait | wakeWait | destroyLock | destroyStop => exact inside

theorem step_threadCount (action : PoolAction) :
    (s.step action).threadCount = s.threadCount := by
  cases action with
  | finishHandler w h => simp [step, finishHandler, stopIfIdle_eq, setWorker]
  | destroyLock => simp [step, destroyLock, resetWork_eq]
  | loopSection w =>
      cases stopped : s.stopped <;> cases work : s.work <;>
        simp [step, loopSection, setWorker, stopped, work]
  | lockWait k =>
      cases found : s.waits k <;> simp [step, lockWait, setWait, found, resetWork_eq]
  | wakeWait k =>
      cases found : s.waits k <;> cases work : s.work <;>
        simp [step, wakeWait, setWait, found, work]
  | schedule | startHandler | returnFromRun | callWait | destroyStop => rfl

/-! ### The last passes -/

/-- What a worker has left behind of its last pass. -/
def leftRun (s : ThreadPool) (w : WorkerId) : Nat :=
  match s.workers w with
  | .inRun _ => 0
  | .beforeLock | .exited => 1

def leftLoop (s : ThreadPool) (w : WorkerId) : Nat :=
  match s.workers w with
  | .inRun _ | .beforeLock => 0
  | .exited => 1

private theorem leftRun_le (s : ThreadPool) (w : WorkerId) : s.leftRun w ≤ 1 := by
  unfold leftRun
  split <;> omega

private theorem leftLoop_le (s : ThreadPool) (w : WorkerId) : s.leftLoop w ≤ 1 := by
  unfold leftLoop
  split <;> omega

/-- In a pool that is being destroyed a worker that has come out of `run` does
not go back. -/
theorem step_leftRun (stopped : s.stopped = true) (enabled : s.Enabled action) :
    (s.step action).leftRun w = s.leftRun w + (decide (action = .returnFromRun w)).toNat := by
  unfold leftRun
  rw [step_workers]
  cases action with
  | startHandler v h | finishHandler v h | returnFromRun v | loopSection v =>
      by_cases same : w = v
      · simp_all [Enabled]
      · simp [same, Ne.symm same]
  | schedule | callWait | lockWait | wakeWait | destroyLock | destroyStop => simp

private theorem step_leftLoop (stopped : s.stopped = true) (enabled : s.Enabled action) :
    (s.step action).leftLoop w = s.leftLoop w + (decide (action = .loopSection w)).toNat := by
  unfold leftLoop
  rw [step_workers]
  cases action with
  | startHandler v h | finishHandler v h | returnFromRun v | loopSection v =>
      by_cases same : w = v
      · simp_all [Enabled]
      · simp [same, Ne.symm same]
  | schedule | callWait | lockWait | wakeWait | destroyLock | destroyStop => simp

/-- A worker finds a step to take, whatever the others do. -/
def CanGoOn (s : ThreadPool) (w : WorkerId) : Prop :=
  (∃ h, s.Enabled (.finishHandler w h)) ∨ s.Enabled (.returnFromRun w) ∨
    s.Enabled (.loopSection w)

theorem goes_on (ended : s.serviceStopped = true) (inside : w < s.threadCount)
    (running : s.workers w ≠ .exited) : s.CanGoOn w := by
  cases place : s.workers w with
  | inRun handler =>
      cases handler with
      | none => exact .inr (.inl ⟨inside, place, ended⟩)
      | some h => exact .inl ⟨h, inside, place⟩
  | beforeLock => exact .inr (.inr ⟨inside, place⟩)
  | exited => exact absurd place running

end ThreadPool

/-! ### Whole runs -/

/-- The invariant of the destructor: its critical section takes the work away,
and nobody is out of the loop before it. -/
structure ThreadPool.Closing (s : ThreadPool) : Prop where
  released : s.stopped = true → s.work = false
  noneLeft : s.stopped = false → ∀ w, s.workers w ≠ .exited

namespace ThreadPool.Closing

variable {s : ThreadPool}

theorem initial (threadCount : Nat) : Closing { threadCount := threadCount } := by
  constructor <;> simp

theorem step (closing : s.Closing) (action : PoolAction) : (s.step action).Closing := by
  have shuts := ThreadPool.shutsDown closing.released action
  constructor
  · exact shuts.noWork
  · intro running w
    have before : s.stopped = false := by
      cases stopped : s.stopped with
      | false => rfl
      | true => simp [shuts.stays stopped] at running
    exact shuts.remains before w (closing.noneLeft before w)

end ThreadPool.Closing

namespace ThreadPool

variable {s : ThreadPool} {actions : List PoolAction} {w : WorkerId}

theorem everyState_closing (closing : s.Closing) (legal : poolSystem.Legal s actions) :
    poolSystem.EveryState Closing s actions :=
  ActionSystem.everyState_of_invariant (fun _ action inv _ _ => Closing.step inv action) closing
    legal legal

theorem everyStep_shutsDown (closing : s.Closing) (legal : poolSystem.Legal s actions) :
    poolSystem.EveryStep ShutsDown s actions :=
  ActionSystem.everyStep_of_invariant (fun _ action (inv : Closing _) _ _ => inv.step action)
    (fun _ action inv _ _ => shutsDown inv.released action) closing legal legal

/-- The state of a pool whose destructor has been in its critical section. -/
def Stopping (s : ThreadPool) : Prop := s.stopped = true

theorem Stopping.step (stopping : s.Stopping) (action : PoolAction) :
    (s.step action).Stopping := by
  unfold Stopping at stopping ⊢
  rw [step_stopped, stopping, Bool.true_or]

/-- After the critical section of the destructor a worker returns from `run` at
most once. -/
theorem Stopping.countP_returnFromRun_le (stopping : s.Stopping)
    (legal : poolSystem.Legal s actions) :
    actions.countP (fun action => action = .returnFromRun w) ≤ 1 := by
  have passes := ActionSystem.countP_of_invariant (leftRun · w)
    (fun action => action = .returnFromRun w)
    (fun state action (stopping : state.Stopping) _ _ => stopping.step action)
    (fun _ action stopping enabled _ => step_leftRun stopping enabled) stopping legal legal
  have bound := (poolSystem.run s actions).leftRun_le w
  omega

theorem Stopping.countP_loopSection_le (stopping : s.Stopping)
    (legal : poolSystem.Legal s actions) :
    actions.countP (fun action => action = .loopSection w) ≤ 1 := by
  have passes := ActionSystem.countP_of_invariant (leftLoop · w)
    (fun action => action = .loopSection w)
    (fun state action (stopping : state.Stopping) _ _ => stopping.step action)
    (fun _ action stopping enabled _ => step_leftLoop stopping enabled) stopping legal legal
  have bound := (poolSystem.run s actions).leftLoop_le w
  omega

theorem run_threadCount : (poolSystem.run s actions).threadCount = s.threadCount := by
  induction actions generalizing s with
  | nil => rfl
  | cons action actions ih => exact ih.trans (step_threadCount action)

theorem Stopping.run_serviceStopped (stopping : s.Stopping) (ended : s.serviceStopped = true) :
    (poolSystem.run s actions).serviceStopped = true := by
  induction actions generalizing s with
  | nil => exact ended
  | cons action actions ih =>
      exact ih (stopping.step action) (step_serviceStopped stopping ended action)

theorem Stopping.run (stopping : s.Stopping) : (poolSystem.run s actions).Stopping := by
  induction actions generalizing s with
  | nil => exact stopping
  | cons action actions ih => exact ih (stopping.step action)

/-- Once the service has been stopped for good it is stopped at the end of the
run. -/
theorem Stopping.ended_of_destroyStop (stopping : s.Stopping) (stop : .destroyStop ∈ actions) :
    (poolSystem.run s actions).serviceStopped = true := by
  obtain ⟨before, after, split⟩ := List.append_of_mem stop
  rw [split, ActionSystem.run_append]
  have here : (poolSystem.run s before).Stopping := stopping.run
  exact (here.step .destroyStop).run_serviceStopped rfl

end ThreadPool

/-- After the critical section of the destructor each worker makes at most one
more pass, and after the final stop of the service it is never without a step as
long as it is in its loop. -/
def LastPass (s : ThreadPool) (after : List PoolAction) (w : WorkerId) : Prop :=
  after.countP (fun action => action = .returnFromRun w) ≤ 1 ∧
    after.countP (fun action => action = .loopSection w) ≤ 1 ∧
    (.destroyStop ∈ after → (poolSystem.run s after).workers w ≠ .exited →
      (poolSystem.run s after).CanGoOn w)

/-- In every run of a pool no worker leaves its loop before the destructor has
been in its critical section.  From then on the work stays away, nobody resets
the stopped service, and each worker leaves at its next visit to the mutex,
which is its last. -/
theorem pool_shuts_down {threadCount : Nat} {actions : List PoolAction}
    (legal : poolSystem.Legal { threadCount := threadCount } actions) :
    poolSystem.EveryStep ShutsDown { threadCount := threadCount } actions ∧
      poolSystem.EveryState (fun s => s.stopped = false → ∀ w, s.workers w ≠ .exited)
        { threadCount := threadCount } actions ∧
      ∀ before after, actions = before ++ .destroyLock :: after → ∀ w < threadCount,
        LastPass ((poolSystem.run { threadCount := threadCount } before).step .destroyLock)
          after w := by
  have closing := ThreadPool.Closing.initial threadCount
  refine ⟨ThreadPool.everyStep_shutsDown closing legal, ?_, ?_⟩
  · exact (ThreadPool.everyState_closing closing legal).imp fun _ inv => inv.noneLeft
  · intro before after split w inside
    rw [split] at legal
    have rest := (ActionSystem.everyStep_append.mp legal).2.2
    have stopping : ((poolSystem.run { threadCount := threadCount } before).step
        .destroyLock).Stopping := by
      simp [ThreadPool.Stopping, ThreadPool.step_stopped]
    refine ⟨stopping.countP_returnFromRun_le rest, stopping.countP_loopSection_le rest, ?_⟩
    intro stop running
    apply ThreadPool.goes_on (stopping.ended_of_destroyStop stop) _ running
    rw [ThreadPool.run_threadCount, ThreadPool.step_threadCount, ThreadPool.run_threadCount]
    exact inside

/-- A `Wait` is under way and a handler is running when the pool is destroyed:
one worker is between `run` and the mutex, the other in the handler. -/
def destroyedBusy : List PoolAction :=
  [.schedule 7, .startHandler 1 7, .callWait 0, .lockWait 0, .finishHandler 1 7,
    .returnFromRun 0, .returnFromRun 1, .loopSection 0, .schedule 8, .startHandler 0 8,
    .destroyLock, .loopSection 1, .finishHandler 0 8, .destroyStop, .returnFromRun 0,
    .loopSection 0]

theorem pool_shuts_down_destroyedBusy :
    poolSystem.EveryStep ShutsDown { threadCount := 2 } destroyedBusy ∧
      poolSystem.EveryState (fun s => s.stopped = false → ∀ w, s.workers w ≠ .exited)
        { threadCount := 2 } destroyedBusy ∧
      ∀ before after, destroyedBusy = before ++ .destroyLock :: after → ∀ w < 2,
        LastPass ((poolSystem.run { threadCount := 2 } before).step .destroyLock) after w :=
  pool_shuts_down (by decide)

end FlatAsync
