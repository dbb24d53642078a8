import FlatAsync.JoinInvariant

/-!
# The current runner of a thread

`thrd_ptr_async_runner` keeps pointing at a runner while its defer handler
runs, although the runner may by then be resumed by another thread.  This file
shows when the calls made in that time still find the runner they expect: a
launch loop of `RunAsyncWait` is protected by its own copy of the token, the
loops of the two `any` functions and the callables of users are not.
-/

namespace FlatAsync

variable {T : Type}

/-- The runner thread `t` points to is alive, and no other thread executes
it. -/
def System.PointsFresh (s : System) (t : ThreadId) : Prop :=
  ∀ r, (s.threads t).asyncRunner = some r →
    (s.runners r).stage = .alive ∧ ∀ other, s.Executes other r → other = t

/-- A call that dereferences the pointer of its thread finds a runner that is
alive and executed by nobody else. -/
def ReadsFresh (s : JoinState T) (action : JoinAction T) : Prop :=
  ∀ step t, s.runnerAction action = some step → step.reader = some t → s.system.PointsFresh t

namespace JoinInvariant

variable {s : JoinState T} {t : ThreadId} {r : RunnerId} {j : JoinId}

private theorem pointsFresh_idle (inv : JoinInvariant True s)
    (idle : (s.system.threads t).pc = .idle) :
    s.system.PointsFresh t := by
  intro r points
  have none : (s.system.threads t).asyncRunner = none := by
    simpa [Thread.Attached, idle] using inv.life.attached t
  simp [none] at points

theorem pointsFresh_body (inv : JoinInvariant True s) (runs : (s.system.threads t).pc = .body r) :
    s.system.PointsFresh t := by
  intro other points
  have attached : (s.system.threads t).asyncRunner = some r := by
    simpa [Thread.Attached, runs] using inv.life.attached t
  have equal : r = other := by simpa [attached] using points
  subst equal
  have plays : (s.system.threads t).pc.role r = some .body := by simp [runs, Pc.role]
  obtain ⟨-, alive, -⟩ := (inv.life.phases r).held_of_role (t := t) plays
  exact ⟨alive, fun another executes => inv.life.phases.role_unique plays executes.role⟩

private theorem pointsFresh_untouched (inv : JoinInvariant True s)
    (handles : (s.system.threads t).pc = .deferring r .callable)
    (untouched : s.system.Untouched r) : s.system.PointsFresh t := by
  intro other points
  have attached : (s.system.threads t).asyncRunner = some r := by
    simpa [Thread.Attached, handles] using inv.life.attached t
  have equal : r = other := by simpa [attached] using points
  subst equal
  refine ⟨untouched.1, fun another executes => ?_⟩
  have plays := executes.role
  simp [untouched.2 another] at plays

/-- A launch loop with a handler left finds its own runner.  The loop of
`RunAsyncWait` still holds a copy of the token, so that nobody can have called
the proceed handler; for the other loops the condition on the run does it. -/
theorem pointsFresh_loop (inv : JoinInvariant True s) (handler : s.HandlerOf t j)
    (left : (s.table.joins j).launched < (s.table.joins j).handlers) :
    s.system.PointsFresh t := by
  obtain ⟨pc, code, looping⟩ := handler
  apply inv.pointsFresh_untouched pc
  by_cases kind : (s.table.joins j).kind = .wait
  · have unclaimed : (s.table.joins j).claimed = false := by simp [Join.claimed, kind, looping]
    have begun : (s.table.joins j).phase = .begun :=
      (inv.handling ⟨pc, code, looping⟩).resolve_right (inv.ledger.unclaimed j unclaimed).1
    exact inv.life.phases.unheld_of_answer (inv.fits.begun j begun).1
  · apply inv.fits.untouched trivial t _ pc
    · simp only [JoinTable.callsLeft, code, looping, if_true]
      omega
    · simp [JoinTable.waitLoop, code, kind]

private theorem pointsFresh_user (inv : JoinInvariant True s) (handler : s.userHandler t = true) :
    s.system.PointsFresh t := by
  unfold JoinState.userHandler at handler
  split at handler
  next r calls pc code =>
    apply inv.pointsFresh_untouched pc
    apply inv.fits.untouched trivial t r pc
    · simpa [JoinTable.callsLeft, code] using handler
    · simp [JoinTable.waitLoop, code]
  · cases handler

/-- Code outside the callables reads the pointer of an idle thread or of a body. -/
theorem pointsFresh_code (inv : JoinInvariant True s) (code : s.userCode t = true)
    (mayCall : (s.system.threads t).pc.mayCall = true) : s.system.PointsFresh t := by
  cases pc : (s.system.threads t).pc with
  | idle => exact inv.pointsFresh_idle pc
  | body r => exact inv.pointsFresh_body pc
  | deferring r handler => simp [JoinState.userCode, pc] at code
  | entered r kind | exiting r | leaving => simp [pc, Pc.mayCall] at mayCall

theorem readsFresh (inv : JoinInvariant True s) {action : JoinAction T} (enabled : s.Enabled action) :
    ReadsFresh s action := by
  intro step t isStep reads
  have guard := enabled.2.1
  have permitted := enabled.2.2.1
  rw [isStep] at permitted
  cases action with
  | runner action =>
      cases isStep
      cases step with
      | runAsyncHere thread created =>
          cases reads
          exact inv.pointsFresh_code guard permitted.2
      | currentScheduler thread =>
          cases reads
          exact inv.pointsFresh_code guard permitted
      | handleEvents | disableEvents | enableEvents | switchTo | enterGuard | enterAccess =>
          cases reads
          exact inv.pointsFresh_body permitted
      | leaveScope thread runner =>
          cases reads
          exact inv.pointsFresh_body permitted.1
      | defer => exact absurd guard id
      | runAsync | dispatch | enter | raise | catchException | finish | onExit | callProceed
      | returnHandler | detach | proceed | setStatus | reset => cases reads
  | defer thread runner calls =>
      cases isStep
      cases reads
      exact inv.pointsFresh_body guard.1
  | userCall thread created =>
      cases created <;> cases isStep <;> cases reads <;> exact inv.pointsFresh_user guard
  | join thread runner join kind handlers =>
      cases isStep
      cases reads
      exact inv.pointsFresh_body guard.1.1
  | launch thread join created =>
      cases isStep
      cases reads
      exact inv.pointsFresh_loop guard.1 guard.2
  | makeWaiter thread runner join =>
      cases isStep
      cases reads
      exact inv.pointsFresh_body guard.1.1
  | waiterRunAsync thread runner join created =>
      cases isStep
      cases reads
      exact inv.pointsFresh_body guard.1.1
  | waiterWait thread runner join =>
      by_cases unique : (s.table.joins join).holders = []
      · simp [JoinState.runnerAction, unique] at isStep
      · simp only [JoinState.runnerAction, unique, if_false, Option.some.injEq] at isStep
        subst isStep
        cases reads
        exact inv.pointsFresh_body guard.1.1
  | childThrows thread runner =>
      cases isStep
      cases reads
  | callProceed thread join =>
      cases isStep
      cases reads
  | endLoop | dropWaiter | childReturns | increment => cases isStep

end JoinInvariant

/-- In every run in which no continuation of a task is taken up while a
callable of the task, other than the launch loop of `RunAsyncWait`, has calls
of the library left, every call that dereferences the runner pointer of its
thread finds a runner that is alive and executed by no other thread. -/
theorem current_runner_fresh {actions : List (JoinAction T)}
    (legal : (joinSystem T).Legal {} actions)
    (contract : (joinSystem T).EveryStep UserContract {} actions)
    (punctual : (joinSystem T).EveryStep NotOvertaken {} actions) :
    (joinSystem T).EveryStep ReadsFresh {} actions :=
  ActionSystem.everyStep_of_invariant
    (fun _ _ (inv : JoinInvariant True _) enabled both => inv.step enabled both.1 fun _ => both.2)
    (fun _ _ inv enabled _ => inv.readsFresh enabled)
    JoinInvariant.initial legal (contract.and punctual)

/-- Task 0 calls `RunAsyncAnyWait` with two handlers.  The first one, task 1,
runs on thread 1 and ends before thread 0 has launched the second; thread 2
resumes, ends and deletes task 0. -/
def overtakenLoop : List (JoinAction Nat) :=
  [.runner (.runAsync 0 1), .runner (.dispatch 0 ⟨.start, 0, 1⟩),
    .runner (.enter 0 0 .start), .join 0 0 0 .anyWait 2, .runner (.onExit 0 0), .launch 0 0 1,
    .runner (.dispatch 1 ⟨.start, 1, 1⟩), .runner (.enter 1 1 .start), .childReturns 1 1 none,
    .increment 1 0 0, .callProceed 1 0, .runner (.dispatch 2 ⟨.proceed, 0, 1⟩),
    .runner (.enter 2 0 .proceed), .runner (.finish 2 0), .runner (.onExit 2 0), .launch 0 0 2]

/-- The second `RunAsync` of the loop in `overtakenLoop` reads a deleted
runner. -/
theorem current_runner_stale_overtakenLoop :
    (joinSystem Nat).Legal {} overtakenLoop ∧
      (joinSystem Nat).EveryStep UserContract {} overtakenLoop ∧
        ¬ (joinSystem Nat).EveryStep ReadsFresh {} overtakenLoop := by
  refine ⟨by decide, by decide, fun fresh => ?_⟩
  obtain ⟨-, -, -, -, -, -, -, -, -, -, -, -, -, -, -, last, -⟩ := fresh
  have alive := (last (.runAsyncHere 0 2) 0 rfl rfl 0 (by decide)).1
  exact absurd alive (by decide)

/-- Task 0 waits with `RunAsyncWait` for task 1, which ends while thread 0 is
still in the launch loop. -/
def earlyChild : List (JoinAction Nat) :=
  [.runner (.runAsync 0 1), .runner (.dispatch 0 ⟨.start, 0, 1⟩),
    .runner (.enter 0 0 .start), .join 0 0 0 .wait 2, .runner (.onExit 0 0), .launch 0 0 1,
    .runner (.dispatch 1 ⟨.start, 1, 1⟩), .runner (.enter 1 1 .start), .childReturns 1 1 none,
    .runner (.finish 1 1), .runner (.onExit 1 1), .launch 0 0 2, .endLoop 0 0]

theorem current_runner_fresh_earlyChild :
    (joinSystem Nat).EveryStep ReadsFresh {} earlyChild := by
  refine current_runner_fresh (by decide) (by decide) ?_
  refine ⟨trivial, ?_, trivial, trivial, trivial, trivial, ?_, trivial, trivial, trivial,
    trivial, trivial, trivial, trivial⟩
  · intro t handles
    have idle : Pc.idle = .deferring 0 .callable := handles
    cases idle
  · intro t handles
    cases t with
    | zero => exact absurd handles (by decide)
    | succ t =>
        have idle : Pc.idle = .deferring 1 .callable := handles
        cases idle

end FlatAsync
