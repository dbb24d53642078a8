import FlatAsync.ActionSystem
import Mathlib.Logic.Function.Basic
import Mathlib.Data.List.Basic

/-!
# The thread pool

The workers of a `ThreadPool` serve an asio service until it runs out of work.
`Wait` takes the pool's own piece of work away, so that the service stops once
the posted handlers are done, and blocks until some worker has put a new piece
in its place.

This file embeds the pool with its mutex-protected sections as atomic steps and
settles what `Wait` waits for.  Of asio it is assumed that the service stops
when its outstanding work reaches zero, that no handler is started while it is
stopped, and that a worker inside `run` may then return.
-/

namespace FlatAsync

abbrev WorkerId := Nat
abbrev HandlerId := Nat
abbrev WaitId := Nat

/-- A worker is inside `run`, with a handler or without; or on the way from
`run` to the mutex; or out of its loop. -/
inductive Worker
  | inRun (handler : Option HandlerId)
  | beforeLock
  | exited
  deriving DecidableEq, Repr

inductive WaitPhase
  | called
  | blocked
  | returned
  deriving DecidableEq, Repr

/-- A call of `Wait` and the handlers that were posted before it. -/
structure WaitCall where
  phase : WaitPhase := .called
  mark : List HandlerId
  deriving DecidableEq, Repr

/-- A pool.  `work` tells whether `work_` is set, `stopped` is `stopped_`, and
`serviceStopped` is the state of the asio service, whose handlers are either
`unfinished` (those not started yet are in `queue`) or `finished`. -/
structure ThreadPool where
  threadCount : Nat
  workers : WorkerId → Worker := fun _ => .inRun none
  work : Bool := true
  stopped : Bool := false
  serviceStopped : Bool := false
  posted : List HandlerId := []
  queue : List HandlerId := []
  unfinished : List HandlerId := []
  finished : List HandlerId := []
  waits : WaitId → Option WaitCall := fun _ => none

namespace ThreadPool

/-- The count asio keeps: unfinished handlers and work objects. -/
def outstandingWork (s : ThreadPool) : Nat :=
  s.unfinished.length + s.work.toNat

def stopIfIdle (s : ThreadPool) : ThreadPool :=
  if s.outstandingWork = 0 then { s with serviceStopped := true } else s

/-- `work_.reset()` -/
def resetWork (s : ThreadPool) : ThreadPool :=
  if s.work then stopIfIdle { s with work := false } else s

def setWorker (s : ThreadPool) (w : WorkerId) (worker : Worker) : ThreadPool :=
  { s with workers := Function.update s.workers w worker }

def setWait (s : ThreadPool) (k : WaitId) (call : WaitCall) : ThreadPool :=
  { s with waits := Function.update s.waits k (some call) }

/-- `ThreadPool::Schedule` -/
def schedule (s : ThreadPool) (h : HandlerId) : ThreadPool :=
  { s with
    posted := s.posted ++ [h]
    queue := s.queue ++ [h]
    unfinished := s.unfinished ++ [h] }

/-- A worker inside `run` takes a handler. -/
def startHandler (s : ThreadPool) (w : WorkerId) (h : HandlerId) : ThreadPool :=
  { s.setWorker w (.inRun (some h)) with queue := s.queue.erase h }

/-- A handler returns. -/
def finishHandler (s : ThreadPool) (w : WorkerId) (h : HandlerId) : ThreadPool :=
  stopIfIdle
    { s.setWorker w (.inRun none) with
      unfinished := s.unfinished.erase h
      finished := s.finished ++ [h] }

/-- The rest of the worker's loop body after `run` has returned, under the
mutex. -/
def loopSection (s : ThreadPool) (w : WorkerId) : ThreadPool :=
  if s.stopped then
    s.setWorker w .exited
  else if s.work then
    s.setWorker w (.inRun none)
  else
    { s.setWorker w (.inRun none) with work := true, serviceStopped := false }

/-- `Wait` is called. -/
def callWait (s : ThreadPool) (k : WaitId) : ThreadPool :=
  s.setWait k { mark := s.posted }

/-- `Wait` takes the mutex, releases the work and blocks. -/
def lockWait (s : ThreadPool) (k : WaitId) : ThreadPool :=
  match s.waits k with
  | some call => s.resetWork.setWait k { call with phase := .blocked }
  | none => s

/-- A blocked `Wait` wakes up, notified or not, and looks at `work_`. -/
def wakeWait (s : ThreadPool) (k : WaitId) : ThreadPool :=
  match s.waits k with
  | some call => if s.work then s.setWait k { call with phase := .returned } else s
  | none => s

/-- The section of the destructor under the mutex. -/
def destroyLock (s : ThreadPool) : ThreadPool :=
  resetWork { s with stopped := true }

/-- The destructor stops the service. -/
def destroyStop (s : ThreadPool) : ThreadPool :=
  { s with serviceStopped := true }

section Fields

variable {s : ThreadPool}

/-- `stopIfIdle` writes nothing but the mark of the service. -/
theorem stopIfIdle_eq : s.stopIfIdle =
    { s with serviceStopped := s.serviceStopped || decide (s.outstandingWork = 0) } := by
  unfold stopIfIdle
  split
  next idle => simp [idle]
  next busy => simp [busy]

/-- Without the work object the service stops when no handler is unfinished. -/
theorem resetWork_eq : s.resetWork =
    { s with
      work := false
      serviceStopped := s.serviceStopped || (s.work && s.unfinished.isEmpty) } := by
  unfold resetWork
  split
  next held => cases s.unfinished <;> simp [stopIfIdle_eq, outstandingWork, held]
  next absent =>
    have work : s.work = false := by simpa using absent
    rw [work, Bool.false_and, Bool.or_false, ← work]

end Fields

end ThreadPool

/-- The steps of a pool.  Handlers are posted by anybody, handlers included. -/
inductive PoolAction
  | schedule (handler : HandlerId)
  | startHandler (worker : WorkerId) (handler : HandlerId)
  | finishHandler (worker : WorkerId) (handler : HandlerId)
  | returnFromRun (worker : WorkerId)
  | loopSection (worker : WorkerId)
  | callWait (wait : WaitId)
  | lockWait (wait : WaitId)
  | wakeWait (wait : WaitId)
  | destroyLock
  | destroyStop
  deriving DecidableEq, Repr

namespace ThreadPool

def Enabled (s : ThreadPool) : PoolAction → Prop
  | .schedule h => h ∉ s.posted
  | .startHandler w h =>
      w < s.threadCount ∧ s.workers w = .inRun none ∧ s.serviceStopped = false ∧ h ∈ s.queue
  | .finishHandler w h => w < s.threadCount ∧ s.workers w = .inRun (some h)
  | .returnFromRun w =>
      w < s.threadCount ∧ s.workers w = .inRun none ∧ s.serviceStopped = true
  | .loopSection w => w < s.threadCount ∧ s.workers w = .beforeLock
  | .callWait k => s.waits k = none
  | .lockWait k => (s.waits k).map WaitCall.phase = some .called
  | .wakeWait k => (s.waits k).map WaitCall.phase = some .blocked
  | .destroyLock => s.stopped = false
  | .destroyStop => s.stopped = true

instance (s : ThreadPool) : ∀ action, Decidable (s.Enabled action)
  | .schedule _ => inferInstanceAs (Decidable (¬ _))
  | .startHandler .. | .finishHandler .. | .returnFromRun .. | .loopSection .. =>
      inferInstanceAs (Decidable (_ ∧ _))
  | .callWait .. | .lockWait .. | .wakeWait .. | .destroyLock | .destroyStop =>
      inferInstanceAs (Decidable (_ = _))

def step (s : ThreadPool) : PoolAction → ThreadPool
  | .schedule h => s.schedule h
  | .startHandler w h => s.startHandler w h
  | .finishHandler w h => s.finishHandler w h
  | .returnFromRun w => s.setWorker w .beforeLock
  | .loopSection w => s.loopSection w
  | .callWait k => s.callWait k
  | .lockWait k => s.lockWait k
  | .wakeWait k => s.wakeWait k
  | .destroyLock => s.destroyLock
  | .destroyStop => s.destroyStop

end ThreadPool

/-- A pool with any number of workers and of calls of `Wait`. -/
def poolSystem : ActionSystem ThreadPool PoolAction where
  enabled := ThreadPool.Enabled
  next := ThreadPool.step

instance (s : ThreadPool) (action : PoolAction) : Decidable (poolSystem.enabled s action) :=
  inferInstanceAs (Decidable (s.Enabled action))

/-! ### What `Wait` waits for -/

def WaitCall.Done (call : WaitCall) (s : ThreadPool) : Prop :=
  ∀ h ∈ call.mark, h ∈ s.finished

instance (call : WaitCall) (s : ThreadPool) : Decidable (call.Done s) :=
  inferInstanceAs (Decidable (∀ h ∈ call.mark, h ∈ s.finished))

/-- Every `Wait` that has returned has waited for the handlers posted before
it. -/
def WaitsHonoured (s : ThreadPool) : Prop :=
  ∀ k call, s.waits k = some call → call.phase = .returned → call.Done s

namespace ThreadPool

/-- No worker is on its way from `run` to the mutex, and none can start on that
way before the work runs out. -/
def Fresh (s : ThreadPool) : Prop :=
  s.serviceStopped = false ∧ ∀ w < s.threadCount, s.workers w ≠ .beforeLock

instance (s : ThreadPool) : Decidable s.Fresh := inferInstanceAs (Decidable (_ ∧ _))

end ThreadPool

/-- A `Wait` that takes the mutex has nothing to wait for, or finds the workers
in a fresh cycle, or finds a pool that is being destroyed. -/
def WaitCall.Meets (s : ThreadPool) : Option WaitCall → Prop
  | some call => call.Done s ∨ s.Fresh ∨ s.stopped = true
  | none => True

instance (s : ThreadPool) : ∀ call, Decidable (WaitCall.Meets s call)
  | some _ => inferInstanceAs (Decidable (_ ∨ _))
  | none => inferInstanceAs (Decidable True)

def WaitsInFreshCycle (s : ThreadPool) : PoolAction → Prop
  | .lockWait k => WaitCall.Meets s (s.waits k)
  | _ => True

instance (s : ThreadPool) : ∀ action, Decidable (WaitsInFreshCycle s action)
  | .lockWait k => inferInstanceAs (Decidable (WaitCall.Meets s (s.waits k)))
  | .schedule .. | .startHandler .. | .finishHandler .. | .returnFromRun .. | .loopSection ..
  | .callWait .. | .wakeWait .. | .destroyLock | .destroyStop =>
      inferInstanceAs (Decidable True)

/-- What a blocked `Wait` relies on. -/
def WaitCall.Settled (call : WaitCall) (s : ThreadPool) : Prop :=
  call.Done s ∨ (s.work = false ∧ s.Fresh) ∨ s.stopped = true

/-- The promise for a call of `Wait` in each of its phases. -/
def WaitCall.Kept (call : WaitCall) (s : ThreadPool) : Prop :=
  match call.phase with
  | .called => True
  | .blocked => call.Settled s
  | .returned => call.Done s

/-- The invariant behind `Wait`. -/
structure PoolInvariant (s : ThreadPool) : Prop where
  accounted : ∀ h ∈ s.posted, h ∈ s.unfinished ∨ h ∈ s.finished
  destroyed : s.stopped = true → s.work = false
  marked : ∀ k call, s.waits k = some call → ∀ h ∈ call.mark, h ∈ s.posted
  kept : ∀ k call, s.waits k = some call → call.Kept s

namespace WaitCall

variable {call : WaitCall} {s after : ThreadPool}

/-- Steps that finish handlers at most and leave the cycle fresh keep the
promise. -/
theorem Kept.mono (kept : call.Kept s) (finished : ∀ h ∈ s.finished, h ∈ after.finished)
    (fresh : s.work = false → s.Fresh → call.Done after ∨ (after.work = false ∧ after.Fresh))
    (stopped : s.stopped = true → after.stopped = true) : call.Kept after := by
  have done : call.Done s → call.Done after := fun done h member => finished h (done h member)
  unfold Kept at kept ⊢
  cases phase : call.phase with
  | called => trivial
  | returned =>
      rw [phase] at kept
      exact done kept
  | blocked =>
      rw [phase] at kept
      rcases kept with all | ⟨work, cycle⟩ | destroying
      · exact .inl (done all)
      · rcases fresh work cycle with all | both
        · exact .inl all
        · exact .inr (.inl both)
      · exact .inr (.inr (stopped destroying))

end WaitCall

namespace PoolInvariant

variable {s : ThreadPool} {w : WorkerId} {h : HandlerId} {k : WaitId}

theorem waitsHonoured (pool : PoolInvariant s) : WaitsHonoured s := by
  intro k call found returned
  have kept := pool.kept k call found
  simpa [WaitCall.Kept, returned] using kept

/-- With no handler unfinished every call of `Wait` has what it waits for. -/
theorem done_of_idle (pool : PoolInvariant s) (idle : s.unfinished = []) {call : WaitCall}
    (found : s.waits k = some call) : call.Done s := by
  intro h member
  rcases pool.accounted h (pool.marked k call found h member) with waiting | finished
  · simp [idle] at waiting
  · exact finished

theorem stopIfIdle (pool : PoolInvariant s) : PoolInvariant s.stopIfIdle := by
  unfold ThreadPool.stopIfIdle
  split
  next none =>
    have idle : s.unfinished = [] := by
      have count : s.unfinished.length = 0 := by
        simp only [ThreadPool.outstandingWork] at none
        omega
      simpa using count
    refine { pool with kept := fun k call found => ?_ }
    exact (pool.kept k call found).mono (fun _ member => member)
      (fun _ _ => .inl (pool.done_of_idle idle found)) (fun stopped => stopped)
  · exact pool

/-- Taking the work away stops the service only if nothing is left to do. -/
theorem resetWork (pool : PoolInvariant s) :
    PoolInvariant s.resetWork ∧ (s.Fresh → s.resetWork.unfinished = [] ∨ s.resetWork.Fresh) := by
  unfold ThreadPool.resetWork
  split
  · have released : PoolInvariant { s with work := false } := by
      refine { pool with destroyed := fun _ => rfl, kept := fun k call found => ?_ }
      exact (pool.kept k call found).mono (fun _ member => member)
        (fun _ fresh => .inr ⟨rfl, fresh⟩) (fun stopped => stopped)
    refine ⟨released.stopIfIdle, fun fresh => ?_⟩
    unfold ThreadPool.stopIfIdle
    split
    next none =>
      left
      simpa [ThreadPool.outstandingWork] using none
    · exact .inr fresh
  · exact ⟨pool, fun fresh => .inr fresh⟩

/-- A call of `Wait` is entered or changes its phase. -/
theorem setWait (pool : PoolInvariant s) {call : WaitCall}
    (marked : ∀ h ∈ call.mark, h ∈ s.posted) (kept : call.Kept s) :
    PoolInvariant (s.setWait k call) where
  accounted := pool.accounted
  destroyed := pool.destroyed
  marked other otherCall found := by
    by_cases same : other = k
    · subst same
      have equal : call = otherCall := by simpa [ThreadPool.setWait] using found
      exact equal ▸ marked
    · exact pool.marked other otherCall (by simpa [ThreadPool.setWait, same] using found)
  kept other otherCall found := by
    by_cases same : other = k
    · subst same
      have equal : call = otherCall := by simpa [ThreadPool.setWait] using found
      exact equal ▸ kept
    · exact pool.kept other otherCall (by simpa [ThreadPool.setWait, same] using found)

theorem setWorker (pool : PoolInvariant s) {worker : Worker} (moves : worker ≠ .beforeLock) :
    PoolInvariant (s.setWorker w worker) := by
  refine { pool with kept := fun k call found => ?_ }
  refine (pool.kept k call found).mono (fun _ member => member) ?_ (fun stopped => stopped)
  intro work fresh
  refine .inr ⟨work, fresh.1, fun other inside => ?_⟩
  by_cases same : other = w
  · subst same
    simpa [ThreadPool.setWorker] using moves
  · simpa [ThreadPool.setWorker, same] using fresh.2 other inside

theorem schedule (pool : PoolInvariant s) : PoolInvariant (s.schedule h) where
  accounted other member := by
    simp only [ThreadPool.schedule, List.mem_append, List.mem_singleton] at member ⊢
    rcases member with old | rfl
    · rcases pool.accounted other old with waiting | finished
      · exact .inl (.inl waiting)
      · exact .inr finished
    · exact .inl (.inr rfl)
  destroyed := pool.destroyed
  marked k call found other member :=
    List.mem_append_left _ (pool.marked k call found other member)
  kept k call found :=
    (pool.kept k call found).mono (fun _ member => member) (fun work fresh => .inr ⟨work, fresh⟩)
      (fun stopped => stopped)

theorem finishHandler (pool : PoolInvariant s) : PoolInvariant (s.finishHandler w h) := by
  apply PoolInvariant.stopIfIdle
  have moved : PoolInvariant (s.setWorker w (.inRun none)) := pool.setWorker (by simp)
  constructor
  · intro other member
    by_cases same : other = h
    · exact .inr (List.mem_append_right _ (by simpa using same))
    · rcases pool.accounted other member with waiting | finished
      · exact .inl ((List.mem_erase_of_ne same).mpr waiting)
      · exact .inr (List.mem_append_left _ finished)
  · exact moved.destroyed
  · exact moved.marked
  · intro k call found
    exact (moved.kept k call found).mono (fun _ member => List.mem_append_left _ member)
      (fun work fresh => .inr ⟨work, fresh⟩) (fun stopped => stopped)

/-- A worker leaves `run` only after the service has stopped, so that no fresh
cycle is spoilt. -/
theorem returnFromRun (pool : PoolInvariant s) (stopped : s.serviceStopped = true) :
    PoolInvariant (s.setWorker w .beforeLock) := by
  refine { pool with kept := fun k call found => ?_ }
  refine (pool.kept k call found).mono (fun _ member => member) ?_ (fun stopped => stopped)
  intro _ fresh
  have running := fresh.1
  simp [stopped] at running

/-- A worker that puts the work back is late for every `Wait` that is still
blocked. -/
theorem loopSection (pool : PoolInvariant s) (inside : w < s.threadCount)
    (late : s.workers w = .beforeLock) : PoolInvariant (s.loopSection w) := by
  unfold ThreadPool.loopSection
  split
  · exact pool.setWorker (by simp)
  next alive =>
    split
    · exact pool.setWorker (by simp)
    · have moved : PoolInvariant (s.setWorker w (.inRun none)) := pool.setWorker (by simp)
      refine { moved with destroyed := fun stopped => absurd stopped alive,
                          kept := fun k call found => ?_ }
      refine (pool.kept k call found).mono (fun _ member => member) ?_ (fun stopped => stopped)
      exact fun _ fresh => absurd late (fresh.2 w inside)

theorem lockWait (pool : PoolInvariant s) (clean : WaitCall.Meets s (s.waits k)) :
    PoolInvariant (s.lockWait k) := by
  unfold ThreadPool.lockWait
  cases found : s.waits k with
  | none => exact pool
  | some call =>
      rw [found] at clean
      obtain ⟨released, cycle⟩ := pool.resetWork
      have absent : s.resetWork.work = false := by rw [ThreadPool.resetWork_eq]
      have here : s.resetWork.waits k = some call := by rw [ThreadPool.resetWork_eq, found]
      refine released.setWait (released.marked k call here) ?_
      change WaitCall.Settled _ _
      rcases clean with done | fresh | destroying
      · left
        intro h member
        rw [ThreadPool.resetWork_eq]
        exact done h member
      · rcases cycle fresh with idle | still
        · exact .inl fun h member => released.done_of_idle idle here h member
        · exact .inr (.inl ⟨absent, still⟩)
      · rw [ThreadPool.resetWork_eq]
        exact .inr (.inr destroying)

/-- A `Wait` that wakes up and finds work has what it waited for. -/
theorem wakeWait (pool : PoolInvariant s)
    (blocked : (s.waits k).map WaitCall.phase = some .blocked) :
    PoolInvariant (s.wakeWait k) := by
  unfold ThreadPool.wakeWait
  cases found : s.waits k with
  | none => exact pool
  | some call =>
      dsimp only
      split
      next work =>
        refine pool.setWait (pool.marked k call found) ?_
        have phase : call.phase = .blocked := by simpa [found] using blocked
        have settled := pool.kept k call found
        simp only [WaitCall.Kept, phase] at settled
        rcases settled with done | ⟨absent, -⟩ | destroying
        · exact done
        · simp [work] at absent
        · simp [pool.destroyed destroying] at work
      · exact pool

theorem destroyLock (pool : PoolInvariant s) : PoolInvariant s.destroyLock := by
  have commutes : s.destroyLock = { s.resetWork with stopped := true } := by
    simp only [ThreadPool.destroyLock, ThreadPool.resetWork_eq]
  have absent : s.resetWork.work = false := by rw [ThreadPool.resetWork_eq]
  obtain ⟨released, -⟩ := pool.resetWork
  rw [commutes]
  refine { released with destroyed := fun _ => absent, kept := fun k call found => ?_ }
  exact (released.kept k call found).mono (fun _ member => member)
    (fun work fresh => .inr ⟨work, fresh⟩) (fun _ => rfl)

theorem destroyStop (pool : PoolInvariant s) (destroying : s.stopped = true) :
    PoolInvariant s.destroyStop := by
  refine { pool with kept := fun k call found => ?_ }
  have kept := pool.kept k call found
  unfold WaitCall.Kept at kept ⊢
  cases phase : call.phase with
  | called => trivial
  | blocked => exact .inr (.inr destroying)
  | returned =>
      rw [phase] at kept
      exact kept

theorem initial (threadCount : Nat) : PoolInvariant { threadCount := threadCount } := by
  constructor <;> simp

theorem step (pool : PoolInvariant s) {action : PoolAction} (enabled : s.Enabled action)
    (clean : WaitsInFreshCycle s action) : PoolInvariant (s.step action) := by
  cases action with
  | schedule h => exact pool.schedule
  | startHandler w h =>
      have moved : PoolInvariant (s.setWorker w (.inRun (some h))) := pool.setWorker (by simp)
      exact { moved with }
  | finishHandler w h => exact pool.finishHandler
  | returnFromRun w => exact pool.returnFromRun enabled.2.2
  | loopSection w => exact pool.loopSection enabled.1 enabled.2
  | callWait k => exact pool.setWait (fun _ member => member) trivial
  | lockWait k => exact pool.lockWait clean
  | wakeWait k => exact pool.wakeWait enabled
  | destroyLock => exact pool.destroyLock
  | destroyStop => exact pool.destroyStop enabled

end PoolInvariant

/-- In every run in which each `Wait`, when it takes the mutex, has nothing to
wait for or finds no worker that still belongs to an earlier cycle, every
`Wait` that returns has waited for the handlers posted before it. -/
theorem waits_honoured {threadCount : Nat} {actions : List PoolAction}
    (legal : poolSystem.Legal { threadCount := threadCount } actions)
    (clean : poolSystem.EveryStep WaitsInFreshCycle { threadCount := threadCount } actions) :
    poolSystem.EveryState WaitsHonoured { threadCount := threadCount } actions := by
  have invariant :
      poolSystem.EveryState PoolInvariant { threadCount := threadCount } actions :=
    ActionSystem.everyState_of_invariant
      (fun _ _ pool enabled clean => pool.step enabled clean)
      (PoolInvariant.initial threadCount) legal clean
  exact invariant.imp fun _ pool => pool.waitsHonoured

/-- Two workers come out of a first `Wait`.  The second takes the mutex only
during the next `Wait`, while handler 7 is still in the queue. -/
def lateWorker : List PoolAction :=
  [.callWait 0, .lockWait 0, .returnFromRun 0, .returnFromRun 1, .loopSection 0, .wakeWait 0,
    .schedule 7, .callWait 1, .lockWait 1, .loopSection 1, .wakeWait 1]

/-- The second `Wait` of `lateWorker` returns before handler 7 has started. -/
theorem waits_not_honoured_lateWorker :
    poolSystem.Legal { threadCount := 2 } lateWorker ∧
      ¬ poolSystem.EveryState WaitsHonoured { threadCount := 2 } lateWorker := by
  refine ⟨by decide, fun honoured => ?_⟩
  have waited := honoured.last 1 ⟨.returned, [7]⟩ (by decide) rfl
  exact absurd waited (by decide)

/-- The same two calls of `Wait`, where both workers are back in `run` before
the second. -/
def punctualWorkers : List PoolAction :=
  [.callWait 0, .lockWait 0, .returnFromRun 0, .returnFromRun 1, .loopSection 0,
    .loopSection 1, .wakeWait 0, .schedule 7, .callWait 1, .lockWait 1, .startHandler 1 7,
    .wakeWait 1, .finishHandler 1 7, .returnFromRun 0, .loopSection 0, .wakeWait 1]

theorem waits_honoured_punctualWorkers :
    poolSystem.EveryState WaitsHonoured { threadCount := 2 } punctualWorkers :=
  waits_honoured (by decide) (by decide)

end FlatAsync
