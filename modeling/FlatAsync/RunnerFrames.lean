import FlatAsync.AsyncRunnerLifeCycle
import FlatAsync.Joins

/-!
# What a step of the runner system leaves alone

A step is taken by one thread and is about one runner.  This file shows that all
other threads and runners stay as they are, and that a suspended coroutine stays
suspended until it is entered.
-/

namespace FlatAsync

def Action.runner : Action → Option RunnerId
  | .runAsync created _ | .runAsyncHere _ created => some created
  | .currentScheduler _ | .dispatch .. | .returnHandler .. | .detach _ => none
  | .enter _ r _ | .handleEvents _ r | .disableEvents _ r | .enableEvents _ r | .defer _ r
  | .switchTo _ r _ | .enterGuard _ r | .enterAccess _ r _ | .leaveScope _ r | .raise _ r
  | .catchException _ r | .finish _ r | .onExit _ r | .callProceed _ r | .proceed r
  | .setStatus r _ | .reset r => some r

namespace System

/-- Of the threads only `t`, and of the runners only `r`, differ between two
states. -/
structure ActsOn (t : ThreadId) (r : RunnerId) (s after : System) : Prop where
  threads : ∀ other, other ≠ t → after.threads other = s.threads other
  runners : ∀ other, other ≠ r → after.runners other = s.runners other

variable {s middle after : System} {t : ThreadId} {r : RunnerId}

namespace ActsOn

theorem refl (s : System) : ActsOn t r s s := ⟨fun _ _ => rfl, fun _ _ => rfl⟩

theorem trans (first : ActsOn t r s middle) (second : ActsOn t r middle after) :
    ActsOn t r s after where
  threads other elsewhere := (second.threads other elsewhere).trans (first.threads other elsewhere)
  runners other elsewhere := (second.runners other elsewhere).trans (first.runners other elsewhere)

theorem setRunner (s : System) (runner : AsyncRunner) : ActsOn t r s (s.setRunner r runner) where
  threads _ _ := rfl
  runners other elsewhere := by simp [elsewhere]

theorem setThread (s : System) (thread : Thread) : ActsOn t r s (s.setThread t thread) where
  threads other elsewhere := by simp [elsewhere]
  runners _ _ := rfl

theorem moveTo (s : System) (pc : Pc) : ActsOn t r s (s.moveTo t pc) := setThread s _

theorem schedule (s : System) (kind : ClosureKind) : ActsOn t r s (s.schedule r kind) :=
  ⟨fun _ _ => rfl, fun _ _ => rfl⟩

theorem terminate (s : System) : ActsOn t r s { s with terminated := true } :=
  ⟨fun _ _ => rfl, fun _ _ => rfl⟩

end ActsOn

theorem create_actsOn (s : System) (t : ThreadId) (scheduler : SchedulerId) :
    ActsOn t r s (s.create r scheduler) :=
  (ActsOn.setRunner s _).trans (ActsOn.schedule _ _)

theorem proceed_actsOn (s : System) (t : ThreadId) : ActsOn t r s (s.proceed r) :=
  (ActsOn.setRunner s _).trans (ActsOn.schedule _ _)

theorem raise_actsOn (s : System) : ActsOn t r s (s.raise t r) :=
  (ActsOn.setRunner s _).trans (ActsOn.setThread _ _)

private theorem escape_actsOn (s : System) (site : CallSite) :
    ActsOn t r s (s.escape t r site) := by
  cases site with
  | defer | switchTo dst | accessCtor source dst => exact raise_actsOn s
  | accessDtor source => exact ActsOn.terminate s

private theorem returnFrom_actsOn (s : System) (site : CallSite) :
    ActsOn t r s (s.returnFrom r site) := by
  cases site with
  | defer | switchTo dst | accessDtor source => exact ActsOn.refl s
  | accessCtor source dst => exact ActsOn.setRunner s _

private theorem defer_actsOn (s : System) (site : CallSite) (handler : DeferHandler) :
    ActsOn t r s (s.defer t r site handler) := by
  unfold System.defer
  split
  · exact escape_actsOn s site
  · exact (ActsOn.setRunner s _).trans (ActsOn.moveTo _ _)

private theorem switchTo_actsOn (s : System) (site : CallSite) (dst : SchedulerId) :
    ActsOn t r s (s.switchTo t r site dst) := by
  unfold System.switchTo
  split
  · exact returnFrom_actsOn s site
  · exact (ActsOn.setRunner s _).trans (defer_actsOn _ site .proceedHandler)

private theorem resume_actsOn (s : System) : ActsOn t r s (s.resume t r) := by
  unfold System.resume
  split
  next site _ =>
    have woken : ActsOn t r s (s.wake t r) :=
      (ActsOn.setRunner s _).trans (ActsOn.moveTo _ _)
    refine woken.trans ?_
    unfold System.afterYield
    split
    · exact escape_actsOn _ site
    · exact returnFrom_actsOn _ site
  · exact ActsOn.moveTo s _

private theorem disableEvents_actsOn (s : System) : ActsOn t r s (s.disableEvents t r) := by
  unfold System.disableEvents
  split
  · exact raise_actsOn s
  · exact ActsOn.setRunner s _

private theorem enableEvents_actsOn (s : System) : ActsOn t r s (s.enableEvents t r) := by
  unfold System.enableEvents
  split
  · exact (ActsOn.setRunner s _).trans (raise_actsOn _)
  · exact ActsOn.setRunner s _

private theorem makeGuard_actsOn (s : System) : ActsOn t r s (s.makeGuard t r) := by
  unfold System.makeGuard
  split
  · exact raise_actsOn s
  · exact ActsOn.setRunner s _

private theorem destroyGuard_actsOn (s : System) : ActsOn t r s (s.destroyGuard t r) := by
  unfold System.destroyGuard
  split
  · exact (ActsOn.setRunner s _).trans (ActsOn.terminate _)
  · exact ActsOn.setRunner s _

private theorem leaveScope_actsOn (s : System) : ActsOn t r s (s.leaveScope t r) := by
  unfold System.leaveScope
  split
  · exact ActsOn.refl s
  · exact (ActsOn.setRunner s _).trans (destroyGuard_actsOn _)
  · exact (ActsOn.setRunner s _).trans (switchTo_actsOn _ _ _)

private theorem onExit_actsOn (s : System) : ActsOn t r s (s.onExit t r) := by
  unfold System.onExit
  split
  · exact (ActsOn.setRunner s _).trans (ActsOn.moveTo _ _)
  · exact (ActsOn.setRunner s _).trans (ActsOn.moveTo _ _)

/-- A step acts on its own thread and its own runner.  An action without a
thread, or without a runner, acts on whatever thread, or runner, one likes. -/
theorem step_actsOn (s : System) {action : Action} (thread : ∀ own, action.thread = some own → own = t)
    (runner : ∀ own, action.runner = some own → own = r) : ActsOn t r s (s.step action) := by
  cases action with
  | runAsync created scheduler =>
      obtain rfl := runner _ rfl
      exact create_actsOn s t scheduler
  | runAsyncHere u created =>
      obtain rfl := runner _ rfl
      exact create_actsOn s t _
  | currentScheduler u => exact ActsOn.refl s
  | dispatch u closure =>
      obtain rfl := thread _ rfl
      exact { ActsOn.setThread s _ with }
  | enter u q kind =>
      obtain rfl := thread _ rfl
      obtain rfl := runner _ rfl
      cases kind with
      | start => exact (ActsOn.setRunner s _).trans (ActsOn.moveTo _ _)
      | proceed => exact resume_actsOn s
  | handleEvents u q =>
      obtain rfl := thread _ rfl
      obtain rfl := runner _ rfl
      simp only [step]
      split
      · exact raise_actsOn s
      · exact ActsOn.refl s
  | disableEvents u q =>
      obtain rfl := thread _ rfl
      obtain rfl := runner _ rfl
      exact disableEvents_actsOn s
  | enableEvents u q =>
      obtain rfl := thread _ rfl
      obtain rfl := runner _ rfl
      exact enableEvents_actsOn s
  | defer u q =>
      obtain rfl := thread _ rfl
      obtain rfl := runner _ rfl
      exact defer_actsOn s _ _
  | switchTo u q dst | enterAccess u q dst =>
      obtain rfl := thread _ rfl
      obtain rfl := runner _ rfl
      exact switchTo_actsOn s _ _
  | enterGuard u q =>
      obtain rfl := thread _ rfl
      obtain rfl := runner _ rfl
      exact makeGuard_actsOn s
  | leaveScope u q =>
      obtain rfl := thread _ rfl
      obtain rfl := runner _ rfl
      exact leaveScope_actsOn s
  | raise u q =>
      obtain rfl := thread _ rfl
      obtain rfl := runner _ rfl
      exact raise_actsOn s
  | catchException u q =>
      obtain rfl := thread _ rfl
      obtain rfl := runner _ rfl
      exact (ActsOn.setRunner s _).trans (ActsOn.setThread _ _)
  | finish u q =>
      obtain rfl := thread _ rfl
      obtain rfl := runner _ rfl
      exact (ActsOn.setRunner s _).trans (ActsOn.moveTo _ _)
  | onExit u q =>
      obtain rfl := thread _ rfl
      obtain rfl := runner _ rfl
      exact onExit_actsOn s
  | callProceed u q =>
      obtain rfl := thread _ rfl
      obtain rfl := runner _ rfl
      exact (proceed_actsOn s u).trans (ActsOn.moveTo _ _)
  | returnHandler u q =>
      obtain rfl := thread _ rfl
      exact ActsOn.moveTo s _
  | detach u =>
      obtain rfl := thread _ rfl
      exact ActsOn.setThread s _
  | proceed q =>
      obtain rfl := runner _ rfl
      exact proceed_actsOn s t
  | setStatus q status =>
      obtain rfl := runner _ rfl
      simp only [step, setStatus]
      split
      · exact ActsOn.setRunner s _
      · exact ActsOn.refl s
  | reset q =>
      obtain rfl := runner _ rfl
      exact ActsOn.setRunner s _

/-- A step acts on the thread that takes it and on the runner it is about. -/
theorem step_actsOn_own (s : System) (action : Action) (anyThread : ThreadId)
    (anyRunner : RunnerId) :
    ActsOn (action.thread.getD anyThread) (action.runner.getD anyRunner) s (s.step action) :=
  step_actsOn s (fun own found => by simp [found]) (fun own found => by simp [found])

theorem step_threads (s : System) {action : Action} (elsewhere : action.thread ≠ some t) :
    (s.step action).threads t = s.threads t := by
  refine (step_actsOn_own s action (t + 1) 0).threads t fun here => elsewhere ?_
  cases own : action.thread with
  | none => simp [own] at here
  | some u => simp [own] at here; rw [here]

theorem idle_step {action : Action} (guard : s.Guard action) (idle : (s.threads t).pc = .idle)
    (other : ∀ closure, action ≠ .dispatch t closure) :
    ((s.step action).threads t).pc = .idle := by
  by_cases own : action.thread = some t
  · cases action with
    | runAsync | proceed | setStatus | reset => cases own
    | dispatch u closure =>
        obtain rfl := Option.some.inj own
        exact absurd rfl (other closure)
    | runAsyncHere u | currentScheduler u =>
        obtain rfl := Option.some.inj own
        exact idle
    | leaveScope u q | catchException u q =>
        obtain rfl := Option.some.inj own
        cases idle.symm.trans guard.1
    | finish u q =>
        obtain rfl := Option.some.inj own
        cases idle.symm.trans guard.1
    | enter u q | handleEvents u q | disableEvents u q | enableEvents u q | defer u q
    | switchTo u q | enterGuard u q | enterAccess u q | raise u q | onExit u q | callProceed u q
    | returnHandler u q | detach u =>
        obtain rfl := Option.some.inj own
        cases idle.symm.trans guard
  · rw [s.step_threads own]
    exact idle

theorem step_runners (s : System) {action : Action} (elsewhere : action.runner ≠ some r) :
    (s.step action).runners r = s.runners r := by
  refine (step_actsOn_own s action 0 (r + 1)).runners r fun here => elsewhere ?_
  cases own : action.runner with
  | none => simp [own] at here
  | some q => simp [own] at here; rw [here]

theorem running_of_body (phases : AllPhases s) (runs : (s.threads t).pc = .body r) :
    (s.runners r).coroHelper = .running := by
  have plays : (s.threads t).pc.role r = some .body := by simp [Pc.role, runs]
  obtain ⟨-, -, fits⟩ := (phases r).held_of_role (t := t) plays
  exact fits.1

theorem suspended_step (phases : AllPhases s) {action : Action} (guard : s.Guard action)
    (alive : (s.runners r).stage = .alive) {site : CallSite}
    (suspended : (s.runners r).coroHelper = .suspended site)
    (stays : ∀ t kind, action ≠ .enter t r kind) :
    ((s.step action).runners r).stage = .alive ∧
      ((s.step action).runners r).coroHelper = .suspended site := by
  by_cases own : action.runner = some r
  · have idle (t : ThreadId) : (s.threads t).pc ≠ .body r := fun runs => by
      simp [running_of_body phases runs] at suspended
    cases action with
    | runAsync created scheduler =>
        obtain rfl := Option.some.inj own
        exact absurd (alive.symm.trans guard) nofun
    | runAsyncHere u created =>
        obtain rfl := Option.some.inj own
        exact absurd (alive.symm.trans guard.1) nofun
    | currentScheduler | dispatch | returnHandler | detach => cases own
    | enter u q kind =>
        obtain rfl := Option.some.inj own
        exact absurd rfl (stays u kind)
    | handleEvents u q | disableEvents u q | enableEvents u q | defer u q | switchTo u q dst
    | enterGuard u q | enterAccess u q dst | raise u q =>
        obtain rfl := Option.some.inj own
        exact absurd guard (idle u)
    | leaveScope u q | catchException u q | finish u q =>
        obtain rfl := Option.some.inj own
        exact absurd guard.1 (idle u)
    | onExit u q =>
        obtain rfl := Option.some.inj own
        have stored : (s.runners q).deferHandler ≠ none := fun missing => by
          rcases (phases.exiting guard).2.2 with ⟨-, handler, -⟩ | ⟨finished, -⟩
          · simp [missing] at handler
          · simp [finished] at suspended
        obtain ⟨handler, found⟩ := Option.ne_none_iff_exists'.mp stored
        simpa [step, onExit, found, takeHandler] using And.intro alive suspended
    | callProceed u q | proceed q =>
        obtain rfl := Option.some.inj own
        simpa [step, proceed, schedule] using And.intro alive suspended
    | setStatus q status =>
        obtain rfl := Option.some.inj own
        simp only [step, setStatus]
        split
        · simpa using And.intro alive suspended
        · exact ⟨alive, suspended⟩
    | reset q =>
        obtain rfl := Option.some.inj own
        simpa [step, resetStatus] using And.intro alive suspended
  · rw [step_runners s own]
    exact ⟨alive, suspended⟩

end System

namespace JoinState

variable {T : Type} (s : JoinState T) {action : JoinAction T} {t : ThreadId} {r : RunnerId}

/-- The step of the runner system in a step of a join is taken by the same
thread. -/
theorem thread_runnerAction {step : Action} (part : s.runnerAction action = some step) :
    step.thread = thread action := by
  cases action with
  | userCall t created => cases created <;> obtain rfl := Option.some.inj part <;> rfl
  | waiterWait t r j =>
      simp only [runnerAction] at part
      split at part
      · cases part
      · obtain rfl := Option.some.inj part
        rfl
  | runner | defer | join | launch | makeWaiter | waiterRunAsync | childThrows | callProceed =>
      obtain rfl := Option.some.inj part
      rfl
  | endLoop | dropWaiter | childReturns | increment => cases part

theorem step_threads (elsewhere : thread action ≠ some t) :
    (s.step action).system.threads t = s.system.threads t := by
  simp only [step]
  split
  next part found =>
    exact s.system.step_threads (s.thread_runnerAction found ▸ elsewhere)
  · rfl

end JoinState

end FlatAsync
