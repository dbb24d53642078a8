import FlatAsync.AsyncRunner

/-!
# Timeouts

A `Timeout` starts a wait on a timer of the timeout service; the completion
handler of the wait holds a copy of the operation state of the task and sets it
to `Timedout`.  The destructor cancels the timer, which aborts the wait only as
long as it has not expired: a completion that is already queued runs as if
nothing had happened.

This file puts timers next to the runner system and shows in which runs a
`Timeout` that has been left can change nothing any more.
-/

namespace FlatAsync

abbrev TimerId := Nat

inductive WaitResult
  | success
  | operationAborted
  deriving DecidableEq, Repr

/-- The wait of a timer: not expired, its completion in the queue of the timeout
service, its completion in the hands of a thread of the service, or over. -/
inductive Wait
  | pending
  | queued (error : WaitResult)
  | executing (error : WaitResult)
  | handled
  deriving DecidableEq, Repr

def Wait.expired : Wait → Bool
  | .queued .success | .executing .success => true
  | .queued .operationAborted | .executing .operationAborted | .pending | .handled => false

/-- `deadline_timer::cancel_one`: only a wait that has not expired is aborted. -/
def Wait.cancelOne : Wait → Wait
  | .pending => .queued .operationAborted
  | .queued error => .queued error
  | .executing error => .executing error
  | .handled => .handled

/-- A `Timeout` object and the wait it has started, which outlives it.
`opState` names the runner whose operation state the completion handler has
captured. -/
structure Timer where
  opState : RunnerId := 0
  stage : Stage := .unborn
  wait : Wait := .pending
  deriving DecidableEq, Repr

structure TimeoutState where
  system : System := {}
  timers : TimerId → Timer := fun _ => {}

/-- `runner` is any step of the runner system.  The last three are steps of the
timeout service: a wait expires and its completion is queued, a thread takes the
completion from the queue, and the completion handler runs. -/
inductive TimeoutAction
  | runner (action : Action)
  | makeTimeout (thread : ThreadId) (runner : RunnerId) (timer : TimerId)
  | destroyTimeout (thread : ThreadId) (timer : TimerId)
  | expire (timer : TimerId)
  | execute (timer : TimerId) (error : WaitResult)
  | complete (timer : TimerId) (error : WaitResult)
  deriving DecidableEq, Repr

namespace TimeoutState

def setTimer (s : TimeoutState) (k : TimerId) (timer : Timer) : TimeoutState :=
  { s with timers := Function.update s.timers k timer }

def setWait (s : TimeoutState) (k : TimerId) (wait : Wait) : TimeoutState :=
  s.setTimer k { s.timers k with wait := wait }

section Simp

variable (s : TimeoutState) (k : TimerId) (timer : Timer) (wait : Wait)

@[simp] theorem setTimer_system : (s.setTimer k timer).system = s.system := rfl
@[simp] theorem setTimer_timers :
    (s.setTimer k timer).timers = Function.update s.timers k timer := rfl
@[simp] theorem setWait_system : (s.setWait k wait).system = s.system := rfl
@[simp] theorem setWait_timers : (s.setWait k wait).timers =
    Function.update s.timers k { s.timers k with wait := wait } := rfl

end Simp

/-- `Timeout::Timeout` -/
def makeTimeout (s : TimeoutState) (r : RunnerId) (k : TimerId) : TimeoutState :=
  s.setTimer k { opState := r, stage := .alive, wait := .pending }

/-- `Timeout::~Timeout` -/
def destroyTimeout (s : TimeoutState) (k : TimerId) : TimeoutState :=
  s.setTimer k { s.timers k with stage := .deleted, wait := (s.timers k).wait.cancelOne }

/-- The completion handler that `Timeout::Timeout` gives to the timer. -/
def onTimeout (s : TimeoutState) (k : TimerId) : WaitResult → TimeoutState
  | .success => { s with system := s.system.setStatus (s.timers k).opState .timedout }
  | .operationAborted => s

/-- A body makes a `Timeout` for its own task, and the same task destroys it. -/
def Guard (s : TimeoutState) : TimeoutAction → Prop
  | .runner action => s.system.Guard action
  | .makeTimeout t r k => (s.system.threads t).pc = .body r ∧ (s.timers k).stage = .unborn
  | .destroyTimeout t k =>
      (s.system.threads t).pc = .body (s.timers k).opState ∧ (s.timers k).stage = .alive
  | .expire k => (s.timers k).stage ≠ .unborn ∧ (s.timers k).wait = .pending
  | .execute k error => (s.timers k).wait = .queued error
  | .complete k error => (s.timers k).wait = .executing error

instance (s : TimeoutState) : ∀ action, Decidable (s.Guard action)
  | .runner action => inferInstanceAs (Decidable (s.system.Guard action))
  | .makeTimeout .. | .destroyTimeout .. | .expire _ => inferInstanceAs (Decidable (_ ∧ _))
  | .execute .. | .complete .. => inferInstanceAs (Decidable (_ = _))

def Enabled (s : TimeoutState) (action : TimeoutAction) : Prop :=
  s.system.terminated = false ∧ s.Guard action

instance (s : TimeoutState) (action : TimeoutAction) : Decidable (s.Enabled action) :=
  inferInstanceAs (Decidable (_ ∧ _))

def step (s : TimeoutState) : TimeoutAction → TimeoutState
  | .runner action => { s with system := s.system.step action }
  | .makeTimeout _ r k => s.makeTimeout r k
  | .destroyTimeout _ k => s.destroyTimeout k
  | .expire k => s.setWait k (.queued .success)
  | .execute k error => s.setWait k (.executing error)
  | .complete k error => (s.onTimeout k error).setWait k .handled

end TimeoutState

def timeoutSystem : ActionSystem TimeoutState TimeoutAction where
  enabled := TimeoutState.Enabled
  next := TimeoutState.step

instance (s : TimeoutState) (action : TimeoutAction) : Decidable (timeoutSystem.enabled s action) :=
  inferInstanceAs (Decidable (s.Enabled action))

/-- If the step is the completion of timer `k`, it leaves all tasks and their
operation states as they are. -/
def CompletesQuietly (k : TimerId) (s : TimeoutState) (action : TimeoutAction) : Prop :=
  (∃ error, action = .complete k error) → (s.step action).system = s.system

/-- However the run goes on from here, the completion of timer `k` changes
nothing. -/
def NeverFires (s : TimeoutState) (k : TimerId) : Prop :=
  ∀ future, timeoutSystem.Legal s future → timeoutSystem.EveryStep (CompletesQuietly k) s future

/-- A `Timeout` that has been left never fires. -/
def LeftTimeoutsSilent (s : TimeoutState) : Prop :=
  ∀ k, (s.timers k).stage = .deleted → NeverFires s k

/-- When a `Timeout` is left, its wait has not expired or its completion has
already run. -/
def LeavesInTime (s : TimeoutState) : TimeoutAction → Prop
  | .destroyTimeout _ k => (s.timers k).wait.expired = false
  | _ => True

instance (s : TimeoutState) : ∀ action, Decidable (LeavesInTime s action)
  | .destroyTimeout .. => inferInstanceAs (Decidable (_ = _))
  | .runner _ | .makeTimeout .. | .expire _ | .execute .. | .complete .. =>
      inferInstanceAs (Decidable True)

/-- The wait of a timer that has been left is aborted or over. -/
structure Settled (s : TimeoutState) (k : TimerId) : Prop where
  left : (s.timers k).stage = .deleted
  notPending : (s.timers k).wait ≠ .pending
  notExpired : (s.timers k).wait.expired = false

namespace Settled

variable {s : TimeoutState} {k : TimerId} {action : TimeoutAction}

theorem step (settled : Settled s k) (enabled : s.Enabled action) : Settled (s.step action) k := by
  obtain ⟨left, notPending, notExpired⟩ := settled
  have guard := enabled.2
  cases action with
  | runner action => exact ⟨left, notPending, notExpired⟩
  | makeTimeout t r other =>
      have different : k ≠ other := by
        rintro rfl
        exact absurd (left.symm.trans guard.2) nofun
      constructor <;> simpa [TimeoutState.step, TimeoutState.makeTimeout, different]
  | destroyTimeout t other =>
      have different : k ≠ other := by
        rintro rfl
        exact absurd (left.symm.trans guard.2) nofun
      constructor <;> simpa [TimeoutState.step, TimeoutState.destroyTimeout, different]
  | expire other =>
      have different : k ≠ other := by
        rintro rfl
        exact notPending guard.2
      constructor <;> simpa [TimeoutState.step, different]
  | execute other error =>
      by_cases same : k = other
      · subst same
        have queued : (s.timers k).wait = .queued error := guard
        rw [queued] at notExpired
        constructor
        · simpa [TimeoutState.step] using left
        · simp [TimeoutState.step]
        · cases error with
          | success => cases notExpired
          | operationAborted => simp [TimeoutState.step, Wait.expired]
      · constructor <;> simpa [TimeoutState.step, same]
  | complete other error =>
      by_cases same : k = other
      · subst same
        constructor
        · cases error <;> simpa [TimeoutState.step, TimeoutState.onTimeout] using left
        · simp [TimeoutState.step]
        · simp [TimeoutState.step, Wait.expired]
      · cases error <;> constructor <;> simpa [TimeoutState.step, TimeoutState.onTimeout, same]

theorem quiet (settled : Settled s k) (enabled : s.Enabled action) :
    CompletesQuietly k s action := by
  rintro ⟨error, rfl⟩
  have executing : (s.timers k).wait = .executing error := enabled.2
  have notExpired := settled.notExpired
  rw [executing] at notExpired
  cases error with
  | success => cases notExpired
  | operationAborted => rfl

theorem neverFires (settled : Settled s k) : NeverFires s k := by
  intro future legal
  have anyStep : timeoutSystem.EveryStep (fun _ _ => True) s future :=
    ActionSystem.everyStep_of_forall fun _ _ => trivial
  exact ActionSystem.everyStep_of_invariant
    (fun _ _ (settled : Settled _ k) enabled _ => settled.step enabled)
    (fun _ _ settled enabled _ => settled.quiet enabled) settled legal anyStep

end Settled

def AllSettled (s : TimeoutState) : Prop :=
  ∀ k, (s.timers k).stage = .deleted → Settled s k

namespace AllSettled

variable {s : TimeoutState} {action : TimeoutAction}

theorem initial : AllSettled {} := by
  intro k left
  cases left

theorem silent (settled : AllSettled s) : LeftTimeoutsSilent s :=
  fun k left => (settled k left).neverFires

theorem left_step {k : TimerId} (left : ((s.step action).timers k).stage = .deleted) :
    (s.timers k).stage = .deleted ∨ ∃ t, action = .destroyTimeout t k := by
  cases action with
  | runner action => exact .inl left
  | makeTimeout t r other =>
      by_cases same : k = other
      · subst same
        simp [TimeoutState.step, TimeoutState.makeTimeout] at left
      · exact .inl (by simpa [TimeoutState.step, TimeoutState.makeTimeout, same] using left)
  | destroyTimeout t other =>
      by_cases same : k = other
      · exact .inr ⟨t, by rw [same]⟩
      · exact .inl (by simpa [TimeoutState.step, TimeoutState.destroyTimeout, same] using left)
  | expire other | execute other error =>
      by_cases same : k = other
      · subst same
        exact .inl (by simpa [TimeoutState.step] using left)
      · exact .inl (by simpa [TimeoutState.step, same] using left)
  | complete other error =>
      by_cases same : k = other
      · subst same
        exact .inl (by cases error <;> simpa [TimeoutState.step, TimeoutState.onTimeout] using left)
      · exact .inl
          (by cases error <;> simpa [TimeoutState.step, TimeoutState.onTimeout, same] using left)

theorem step (settled : AllSettled s) (enabled : s.Enabled action)
    (inTime : LeavesInTime s action) : AllSettled (s.step action) := by
  intro k left
  rcases left_step left with before | ⟨t, rfl⟩
  · exact (settled k before).step enabled
  · have notExpired : (s.timers k).wait.expired = false := inTime
    refine ⟨left, ?_, ?_⟩
    · cases wait : (s.timers k).wait <;>
        simp [TimeoutState.step, TimeoutState.destroyTimeout, wait, Wait.cancelOne]
    · cases wait : (s.timers k).wait with
      | pending | handled =>
          simp [TimeoutState.step, TimeoutState.destroyTimeout, wait, Wait.cancelOne, Wait.expired]
      | queued error | executing error =>
          rw [wait] at notExpired
          simpa [TimeoutState.step, TimeoutState.destroyTimeout, wait, Wait.cancelOne]
            using notExpired

/-- The completion of an expired wait sets the status of a task that has just
reset it. -/
theorem fires {k : TimerId} (running : s.system.terminated = false)
    (executing : (s.timers k).wait = .executing .success) : ¬ NeverFires s k := by
  intro never
  let r := (s.timers k).opState
  have legal : timeoutSystem.Legal s [.runner (.reset r), .complete k .success] :=
    ⟨⟨running, trivial⟩, ⟨running, executing⟩, trivial⟩
  obtain ⟨-, quiet, -⟩ := never _ legal
  have same := congrArg (fun system => (system.runners r).opState) (quiet ⟨_, rfl⟩)
  simp [timeoutSystem, TimeoutState.step, TimeoutState.onTimeout, System.step, System.setStatus,
    System.resetStatus, r] at same

theorem not_neverFires {k : TimerId} (running : s.system.terminated = false)
    (expired : (s.timers k).wait.expired = true) : ¬ NeverFires s k := by
  cases wait : (s.timers k).wait with
  | pending | handled => simp [wait, Wait.expired] at expired
  | queued error =>
      cases error with
      | operationAborted => simp [wait, Wait.expired] at expired
      | success =>
          intro never
          have executing :
              ((s.step (.execute k .success)).timers k).wait = .executing .success := by
            simp [TimeoutState.step]
          have goesOn : (s.step (.execute k .success)).system.terminated = false := running
          apply fires goesOn executing
          intro future legal
          exact (never (.execute k .success :: future) ⟨⟨running, wait⟩, legal⟩).2
  | executing error =>
      cases error with
      | operationAborted => simp [wait, Wait.expired] at expired
      | success => exact fires running wait

theorem broken (enabled : s.Enabled action) (late : ¬ LeavesInTime s action) :
    ¬ LeftTimeoutsSilent (s.step action) := by
  intro silent
  cases action with
  | destroyTimeout t k =>
      have expired : (s.timers k).wait.expired = true := by
        simpa [LeavesInTime] using late
      have still : (s.timers k).wait.cancelOne = (s.timers k).wait := by
        cases wait : (s.timers k).wait with
        | pending => simp [wait, Wait.expired] at expired
        | queued | executing | handled => rfl
      have left : ((s.step (.destroyTimeout t k)).timers k).stage = .deleted := by
        simp [TimeoutState.step, TimeoutState.destroyTimeout]
      have queued : ((s.step (.destroyTimeout t k)).timers k).wait.expired = true := by
        simpa [TimeoutState.step, TimeoutState.destroyTimeout, still] using expired
      have goesOn : (s.step (.destroyTimeout t k)).system.terminated = false := enabled.1
      exact not_neverFires goesOn queued (silent k left)
  | _ => exact late trivial

end AllSettled

/-- In every run, with any number of timeouts, a `Timeout` that has been left
never fires exactly when each of them is left before its wait expires or after
its completion has run. -/
theorem left_timeouts_silent_iff {actions : List TimeoutAction}
    (legal : timeoutSystem.Legal {} actions) :
    timeoutSystem.EveryState LeftTimeoutsSilent {} actions ↔
      timeoutSystem.EveryStep LeavesInTime {} actions := by
  have anyStep : timeoutSystem.EveryStep (fun _ _ => True) {} actions :=
    ActionSystem.everyStep_of_forall fun _ _ => trivial
  have preserved : ∀ state action, AllSettled state → timeoutSystem.enabled state action → True →
      LeavesInTime state action → AllSettled (timeoutSystem.next state action) :=
    fun _ _ settled enabled _ inTime => settled.step enabled inTime
  have broken : ∀ state action, AllSettled state → timeoutSystem.enabled state action → True →
      ¬ LeavesInTime state action → ¬ LeftTimeoutsSilent (timeoutSystem.next state action) :=
    fun _ _ _ enabled _ late => AllSettled.broken enabled late
  exact ActionSystem.everyState_iff_everyStep (fun _ settled => AllSettled.silent settled)
    preserved broken AllSettled.initial legal anyStep

/-- A task that makes a `Timeout` and leaves it when its completion is already
queued.  The completion runs, and the next call of the task throws. -/
def leftTooLate : List TimeoutAction :=
  [.runner (.runAsync 0 1), .runner (.dispatch 0 ⟨.start, 0, 1⟩), .runner (.enter 0 0 .start),
    .makeTimeout 0 0 0, .expire 0, .destroyTimeout 0 0, .execute 0 .success,
    .complete 0 .success, .runner (.handleEvents 0 0)]

/-- In `leftTooLate` the completion of the left `Timeout` changes the status of
the task, and an exception is in flight outside the scope of the `Timeout`. -/
theorem left_timeout_fires_leftTooLate :
    timeoutSystem.Legal {} leftTooLate ∧
      ¬ timeoutSystem.EveryState LeftTimeoutsSilent {} leftTooLate ∧
        ((timeoutSystem.run {} leftTooLate).system.runners 0).opState = .timedout ∧
          ((timeoutSystem.run {} leftTooLate).system.runners 0).unwinding = 1 := by
  refine ⟨by decide, fun silent => ?_, by decide, by decide⟩
  obtain ⟨-, -, -, -, -, -, destroyed, -⟩ := silent
  exact AllSettled.not_neverFires (k := 0) (by decide) (by decide) (destroyed 0 (by decide))

/-- A task with two nested timeouts: the inner one is left before its wait
expires, the outer one after its completion has run. -/
def leftInTime : List TimeoutAction :=
  [.runner (.runAsync 0 1), .runner (.dispatch 0 ⟨.start, 0, 1⟩), .runner (.enter 0 0 .start),
    .makeTimeout 0 0 0, .makeTimeout 0 0 1, .destroyTimeout 0 1, .expire 0,
    .execute 1 .operationAborted, .execute 0 .success, .complete 0 .success,
    .runner (.handleEvents 0 0), .destroyTimeout 0 0, .complete 1 .operationAborted]

theorem left_timeouts_silent_leftInTime :
    timeoutSystem.EveryState LeftTimeoutsSilent {} leftInTime :=
  (left_timeouts_silent_iff (by decide)).mpr (by decide)

end FlatAsync
