import FlatAsync.ExecutionContext

/-!
# Sequential schedulers

A `SequentialScheduler` posts to a strand of asio.  The strand serialises the
closures that runners post to it and knows nothing of tasks.  This file shows
that tasks are serialised too: the code of a task runs from the strand of the
task's scheduler, as long as no `SwitchTo` throws before it has moved.
-/

namespace FlatAsync

/-- What asio promises about the schedulers that are strands: a thread takes a
closure from a strand only when no thread executes another closure of it. -/
def StrandContract (sequential : SchedulerId → Bool) (s : System) : Action → Prop
  | .dispatch _ closure =>
      sequential closure.scheduler = true →
        ∀ t, (s.threads t).pc ≠ .idle → (s.threads t).dispatchedBy ≠ closure.scheduler
  | _ => True

/-- User code of tasks whose `scheduler_` is the same strand runs on one thread
at a time. -/
def MutuallyExclusive (sequential : SchedulerId → Bool) (s : System) : Prop :=
  s.terminated = false → ∀ t other r another, (s.threads t).pc = .body r →
    (s.threads other).pc = .body another →
      (s.runners r).scheduler = (s.runners another).scheduler →
        sequential (s.runners r).scheduler = true → t = other

/-- A strand has one closure under execution at most. -/
def OneAtATime (sequential : SchedulerId → Bool) (s : System) : Prop :=
  ∀ t other, (s.threads t).pc ≠ .idle → (s.threads other).pc ≠ .idle →
    (s.threads t).dispatchedBy = (s.threads other).dispatchedBy →
      sequential (s.threads t).dispatchedBy = true → t = other

namespace OneAtATime

variable {sequential : SchedulerId → Bool} {s : System} {t : ThreadId} {r : RunnerId}

theorem keep (single : OneAtATime sequential s) {after : System}
    (threads : ∀ t, (after.threads t).pc ≠ .idle → (s.threads t).pc ≠ .idle ∧
      (after.threads t).dispatchedBy = (s.threads t).dispatchedBy) :
    OneAtATime sequential after := by
  intro t other works also same strand
  obtain ⟨worked, from_⟩ := threads t works
  obtain ⟨alsoWorked, alsoFrom⟩ := threads other also
  rw [from_, alsoFrom] at same
  rw [from_] at strand
  exact single t other worked alsoWorked same strand

theorem setThread (single : OneAtATime sequential s) {thread : Thread}
    (works : thread.pc ≠ .idle → (s.threads t).pc ≠ .idle)
    (dispatched : thread.dispatchedBy = (s.threads t).dispatchedBy) :
    OneAtATime sequential (s.setThread t thread) := by
  refine single.keep fun other busy => ?_
  by_cases same : other = t
  · subst same
    exact ⟨works (by simpa using busy), by simpa using dispatched⟩
  · simpa [same] using busy

theorem move (single : OneAtATime sequential s) (runner : AsyncRunner) (pc : Pc)
    (works : (s.threads t).pc ≠ .idle) :
    OneAtATime sequential ((s.setRunner r runner).moveTo t pc) := by
  have updated : OneAtATime sequential (s.setRunner r runner) :=
    single.keep fun _ busy => ⟨busy, rfl⟩
  exact updated.setThread (fun _ => works) rfl

/-- A thread takes a closure from a strand that nobody is working for. -/
theorem onEnter (single : OneAtATime sequential s) {closure : Closure}
    (alone : sequential closure.scheduler = true →
      ∀ t, (s.threads t).pc ≠ .idle → (s.threads t).dispatchedBy ≠ closure.scheduler) :
    OneAtATime sequential (s.onEnter t closure) := by
  have taker : ((s.onEnter t closure).threads t).dispatchedBy = closure.scheduler := by
    simp [System.onEnter]
  have others {other : ThreadId} (different : other ≠ t) :
      (s.onEnter t closure).threads other = s.threads other := by
    simp [System.onEnter, different]
  intro first second works also same strand
  by_cases here : first = t
  · by_cases there : second = t
    · rw [here, there]
    · rw [here, taker] at same strand
      rw [others there] at also same
      exact absurd same.symm (alone strand second also)
  · rw [others here] at works same strand
    by_cases there : second = t
    · rw [there, taker] at same
      exact absurd same (alone (same ▸ strand) first works)
    · rw [others there] at also same
      exact single first second works also same strand

theorem rules : StepRules (fun _ => True) (StrandContract sequential) (OneAtATime sequential) where
  setRunner single _ := single.keep fun _ busy => ⟨busy, rfl⟩
  raise single runs :=
    (single.keep fun _ busy => ⟨busy, rfl⟩).setThread (fun _ => by simp [runs]) rfl
  catchException single runs _ :=
    (single.keep fun _ busy => ⟨busy, rfl⟩).setThread (fun _ => by simp [runs]) rfl
  terminate single := single.keep fun _ busy => ⟨busy, rfl⟩
  create single _ _ := single.keep fun _ busy => ⟨busy, rfl⟩
  onEnter single _ _ alone := single.onEnter alone
  start single entered := single.move _ _ (by simp [entered])
  wake single entered _ := single.move _ _ (by simp [entered])
  notSuspended single entered _ := single.setThread (fun _ => by simp [entered]) rfl
  yield single runs _ := single.move _ _ (by simp [runs])
  switchAway {s t r site dst} single runs _ := by
    have moved : OneAtATime sequential (s.setScheduler r dst) :=
      single.keep fun _ busy => ⟨busy, rfl⟩
    exact moved.move _ _ (by simp [System.setScheduler, runs])
  failedSwitch {s t r site dst} single runs _ := by
    have moved : OneAtATime sequential (s.setScheduler r dst) :=
      single.keep fun _ busy => ⟨busy, rfl⟩
    cases site with
    | defer | switchTo dst | accessCtor source dst =>
        exact (moved.keep fun _ busy => ⟨busy, rfl⟩).setThread
          (fun _ => by simp [System.setScheduler, runs]) rfl
    | accessDtor source => exact moved.keep fun _ busy => ⟨busy, rfl⟩
  finish single runs _ := single.move _ _ (by simp [runs])
  takeHandler single exits _ _ := single.move _ _ (by simp [exits])
  delete single exits _ _ := single.move _ _ (by simp [exits])
  callProceed {s t r} single switches := by
    have answered : OneAtATime sequential (s.proceed r) :=
      single.keep fun _ busy => ⟨busy, rfl⟩
    exact answered.setThread (fun _ => by simp [System.proceed, System.schedule, switches]) rfl
  returnHandler single defers := single.setThread (fun _ => by simp [defers]) rfl
  detach single _ := single.setThread (by simp) rfl
  proceed single _ _ := single.keep fun _ busy => ⟨busy, rfl⟩

theorem initial : OneAtATime sequential {} :=
  fun _ _ works => absurd rfl works

/-- Tasks are where their schedulers are, so that tasks of one strand share its
closure. -/
theorem mutuallyExclusive (single : OneAtATime sequential s) (agrees : ContextAgrees s) :
    MutuallyExclusive sequential s := by
  intro running t other r another runs alsoRuns same strand
  have here := agrees.body running t r runs
  have there := agrees.body running other another alsoRuns
  refine single t other (by simp [runs]) (by simp [alsoRuns]) ?_ ?_
  · rw [here, there, same]
  · rw [here]
    exact strand

end OneAtATime

/-- In every run in which no `SwitchTo` throws before it has moved, the user
code of tasks that belong to one strand never runs on two threads at once. -/
theorem tasks_mutually_exclusive {sequential : SchedulerId → Bool} {actions : List Action}
    (legal : runnerSystem.Legal {} actions)
    (contract : runnerSystem.EveryStep ProceedContract {} actions)
    (strands : runnerSystem.EveryStep (StrandContract sequential) {} actions)
    (calm : runnerSystem.EveryStep SwitchUndisturbed {} actions) :
    runnerSystem.EveryState (MutuallyExclusive sequential) {} actions := by
  have both : runnerSystem.EveryState
      (fun s => ContextInvariant s ∧ OneAtATime sequential s) {} actions :=
    ActionSystem.everyState_of_invariant
      (fun _ _ both enabled met => ⟨both.1.step enabled met.1 met.2.2,
        OneAtATime.rules.step both.2 enabled met.1 (fun _ _ => trivial) met.2.1⟩)
      ⟨ContextInvariant.initial, OneAtATime.initial⟩ legal (contract.and (strands.and calm))
  exact both.imp fun _ both => both.2.mutuallyExclusive both.1.agrees

/-- Scheduler 1 is a strand.  Task 1 starts on the pool of scheduler 2 and
switches to the strand while task 0 runs there; it arrives when task 0 is
gone. -/
def lateArrival : List Action :=
  [.runAsync 0 1, .runAsync 1 2, .dispatch 0 ⟨.start, 0, 1⟩, .enter 0 0 .start,
    .dispatch 1 ⟨.start, 1, 2⟩, .enter 1 1 .start, .switchTo 1 1 1, .onExit 1 1,
    .callProceed 1 1, .detach 1, .finish 0 0, .onExit 0 0, .detach 0,
    .dispatch 1 ⟨.proceed, 1, 1⟩, .enter 1 1 .proceed]

theorem tasks_mutually_exclusive_lateArrival :
    runnerSystem.EveryState (MutuallyExclusive (· = 1)) {} lateArrival := by
  refine tasks_mutually_exclusive (by decide) (by decide) ?_ (by decide)
  refine ⟨trivial, trivial, fun _ t works => ?_, trivial, fun strand => ?_, trivial, trivial,
    trivial, trivial, trivial, trivial, trivial, trivial, fun _ t works => ?_, trivial, trivial⟩
  · exact absurd rfl works
  · cases strand
  · match t with
    | 0 | 1 => exact absurd rfl works
    | t + 2 => exact absurd rfl works

end FlatAsync
