import FlatAsync.CoroHelper
import FlatAsync.RunnerSteps

/-!
# The coroutines of runners

Each runner owns a `CoroHelper` and calls it in few places: the guard of the first
closure starts it, the guards of the others resume it, `Defer` yields through the free
function, and the destructor of the runner destroys it.  This file reads off these
calls from the steps of the runner system and shows that they are calls of the
coroutine system in which every `Yield` suspends the coroutine of the task that makes
it.
-/

namespace FlatAsync

inductive CoroPhase
  | empty
  | running
  | suspended
  | finished
  | destroyed
  deriving DecidableEq, Repr

def Coroutine.phase : Coroutine → CoroPhase
  | .empty => .empty
  | .active _ => .running
  | .suspended => .suspended
  | .finished => .finished
  | .destroyed => .destroyed

/-- The member `coro_helper_` of a runner. -/
def AsyncRunner.coroPhase (runner : AsyncRunner) : CoroPhase :=
  match runner.stage with
  | .unborn => .empty
  | .deleted => .destroyed
  | .alive =>
      match runner.coroHelper with
      | .empty => .empty
      | .running => .running
      | .suspended _ => .suspended
      | .finished => .finished

def Pc.coro : Pc → Option RunnerId
  | .body r => some r
  | .idle | .entered .. | .exiting _ | .deferring .. | .leaving => none

section Simp

variable (r : RunnerId)

@[simp] theorem Pc.coro_idle : Pc.idle.coro = none := rfl
@[simp] theorem Pc.coro_entered (kind : ClosureKind) : (Pc.entered r kind).coro = none := rfl
@[simp] theorem Pc.coro_body : (Pc.body r).coro = some r := rfl
@[simp] theorem Pc.coro_exiting : (Pc.exiting r).coro = none := rfl
@[simp] theorem Pc.coro_deferring (handler : DeferHandler) :
    (Pc.deferring r handler).coro = none := rfl
@[simp] theorem Pc.coro_leaving : Pc.leaving.coro = none := rfl

end Simp

namespace System

variable {s after : System} {t : ThreadId} {r : RunnerId} {site : CallSite}

def coroCalls (s : System) (action : Action) : List CoroAction :=
  match action with
  | .enter t r .start => [.start t r]
  | .enter t r .proceed => [.resume t r]
  | .defer t r | .switchTo t r _ | .enterAccess t r _ | .leaveScope t r =>
      if ((s.step action).runners r).coroPhase = .suspended then [.yield t] else []
  | .finish t _ => [.finish t]
  | .onExit t r => if (s.runners r).deferHandler = none then [.destroy t r] else []
  | .runAsync .. | .runAsyncHere .. | .currentScheduler _ | .dispatch .. | .handleEvents ..
  | .disableEvents .. | .enableEvents .. | .enterGuard .. | .raise .. | .catchException ..
  | .callProceed .. | .returnHandler .. | .detach _ | .proceed _ | .setStatus .. | .reset _ => []

/-! ### The calls of a step -/

/-- No other runner and no other thread gets to another coroutine. -/
structure CoroFrame (t : ThreadId) (r : RunnerId) (s after : System) : Prop where
  runners : ∀ other, other ≠ r → (after.runners other).coroPhase = (s.runners other).coroPhase
  threads : ∀ other, other ≠ t → (after.threads other).pc.coro = (s.threads other).pc.coro

/-- The calls of a step, where they are made and what they do. -/
inductive CoroEffect (s after : System) : List CoroAction → Prop
  | quiet (runners : ∀ r, (after.runners r).coroPhase = (s.runners r).coroPhase)
      (threads : ∀ t, (after.threads t).pc.coro = (s.threads t).pc.coro) : CoroEffect s after []
  | started (t : ThreadId) (r : RunnerId) (frame : CoroFrame t r s after)
      (outside : (s.threads t).pc.coro = none) (empty : (s.runners r).coroPhase = .empty)
      (inside : (after.threads t).pc.coro = some r)
      (running : (after.runners r).coroPhase = .running) : CoroEffect s after [.start t r]
  | resumed (t : ThreadId) (r : RunnerId) (frame : CoroFrame t r s after)
      (outside : (s.threads t).pc.coro = none) (suspended : (s.runners r).coroPhase = .suspended)
      (inside : (after.threads t).pc.coro = some r)
      (running : (after.runners r).coroPhase = .running) : CoroEffect s after [.resume t r]
  | yielded (t : ThreadId) (r : RunnerId) (frame : CoroFrame t r s after)
      (inside : (s.threads t).pc.coro = some r) (running : (s.runners r).coroPhase = .running)
      (outside : (after.threads t).pc.coro = none)
      (suspended : (after.runners r).coroPhase = .suspended) : CoroEffect s after [.yield t]
  | finished (t : ThreadId) (r : RunnerId) (frame : CoroFrame t r s after)
      (inside : (s.threads t).pc.coro = some r) (running : (s.runners r).coroPhase = .running)
      (outside : (after.threads t).pc.coro = none)
      (ended : (after.runners r).coroPhase = .finished) : CoroEffect s after [.finish t]
  | destroyed (t : ThreadId) (r : RunnerId) (frame : CoroFrame t r s after)
      (outside : (s.threads t).pc.coro = none) (ended : (s.runners r).coroPhase = .finished)
      (still : (after.threads t).pc.coro = none)
      (gone : (after.runners r).coroPhase = .destroyed) : CoroEffect s after [.destroy t r]

theorem CoroFrame.of_actsOn (acts : ActsOn t r s after) : CoroFrame t r s after where
  runners other different := by rw [acts.runners other different]
  threads other different := by rw [acts.threads other different]

/-- A step that changes neither the coroutine of its runner nor the place of its
thread. -/
theorem CoroEffect.of_actsOn (acts : ActsOn t r s after)
    (runner : (after.runners r).coroPhase = (s.runners r).coroPhase)
    (thread : (after.threads t).pc.coro = (s.threads t).pc.coro) : CoroEffect s after [] := by
  constructor
  · intro other
    by_cases own : other = r
    · rw [own, runner]
    · rw [acts.runners other own]
  · intro other
    by_cases own : other = t
    · rw [own, thread]
    · rw [acts.threads other own]

inductive BodyGoesOn (t : ThreadId) (r : RunnerId) (s after : System) : Prop
  | stays (phase : (after.runners r).coroPhase = (s.runners r).coroPhase)
      (pc : (after.threads t).pc = (s.threads t).pc)
  | leaves (phase : (after.runners r).coroPhase = .suspended)
      (pc : (after.threads t).pc = .exiting r)

theorem escape_goesOn : (((s.escape t r site).runners r).coroPhase = (s.runners r).coroPhase) ∧
    ((s.escape t r site).threads t).pc = (s.threads t).pc := by
  cases site <;> simp [escape, raise, AsyncRunner.coroPhase]

theorem returnFrom_goesOn :
    (((s.returnFrom r site).runners r).coroPhase = (s.runners r).coroPhase) ∧
      ((s.returnFrom r site).threads t).pc = (s.threads t).pc := by
  cases site <;> simp [returnFrom, AsyncRunner.coroPhase]

private theorem defer_goesOn {handler : DeferHandler} (alive : (s.runners r).stage = .alive) :
    BodyGoesOn t r s (s.defer t r site handler) := by
  unfold defer
  split
  · exact .stays escape_goesOn.1 escape_goesOn.2
  · exact .leaves (by simp [yield, AsyncRunner.coroPhase, alive]) (by simp [yield])

theorem switchTo_goesOn {dst : SchedulerId} (alive : (s.runners r).stage = .alive) :
    BodyGoesOn t r s (s.switchTo t r site dst) := by
  unfold switchTo
  split
  · exact .stays (returnFrom_goesOn (t := t)).1 (returnFrom_goesOn (t := t)).2
  · have moved : ((s.setScheduler r dst).runners r).coroPhase = (s.runners r).coroPhase := by
      simp [setScheduler, AsyncRunner.coroPhase]
    have goesOn : BodyGoesOn t r (s.setScheduler r dst)
        ((s.setScheduler r dst).defer t r site .proceedHandler) :=
      defer_goesOn (by simpa [setScheduler] using alive)
    cases goesOn with
    | stays phase pc => exact .stays (phase.trans moved) pc
    | leaves phase pc => exact .leaves phase pc

private theorem leaveScope_goesOn (alive : (s.runners r).stage = .alive) :
    BodyGoesOn t r s (s.leaveScope t r) := by
  unfold leaveScope
  split
  · exact .stays rfl rfl
  next scopes _ =>
    apply BodyGoesOn.stays
    · simp only [destroyGuard]
      split <;> simp [allowEvents, AsyncRunner.coroPhase]
    · simp only [destroyGuard]
      split <;> rfl
  next source scopes _ =>
    have popped : ((s.setRunner r { s.runners r with scopes := scopes }).runners r).coroPhase =
        (s.runners r).coroPhase := by
      simp [AsyncRunner.coroPhase]
    have goesOn : BodyGoesOn t r (s.setRunner r { s.runners r with scopes := scopes })
        ((s.setRunner r { s.runners r with scopes := scopes }).switchTo t r (.accessDtor source)
          source) :=
      switchTo_goesOn (by simpa using alive)
    cases goesOn with
    | stays phase pc => exact .stays (phase.trans popped) pc
    | leaves phase pc => exact .leaves phase pc

/-- A body that goes on has made no call on its helper, or it has yielded. -/
theorem CoroEffect.of_goesOn (acts : ActsOn t r s after) (inside : (s.threads t).pc = .body r)
    (running : (s.runners r).coroPhase = .running) (goesOn : BodyGoesOn t r s after) :
    CoroEffect s after (if (after.runners r).coroPhase = .suspended then [.yield t] else []) := by
  cases goesOn with
  | stays phase pc =>
      rw [phase, running, if_neg (by decide)]
      exact .of_actsOn acts phase (by rw [pc])
  | leaves phase pc =>
      rw [if_pos phase]
      exact .yielded t r (.of_actsOn acts) (by rw [inside]; rfl) running (by rw [pc]; rfl) phase

theorem coroPhase_of_body (phases : AllPhases s) (runs : (s.threads t).pc = .body r) :
    (s.runners r).stage = .alive ∧ (s.runners r).coroPhase = .running := by
  have plays : (s.threads t).pc.role r = some .body := by simp [runs, Pc.role]
  obtain ⟨-, alive, fits⟩ := (phases r).held_of_role (t := t) plays
  have running : (s.runners r).coroHelper = .running := fits.1
  have stage : (s.runners r).stage = .alive := alive
  exact ⟨stage, by simp [AsyncRunner.coroPhase, stage, running]⟩

theorem coroEffect_create (fresh : (s.runners r).stage = .unborn) (dst : SchedulerId) :
    CoroEffect s (s.create r dst) [] := by
  refine .of_actsOn (create_actsOn s 0 dst) ?_ rfl
  simp [create, schedule, AsyncRunner.coroPhase, fresh]

theorem raise_goesOn : ((s.raise t r).runners r).coroPhase = (s.runners r).coroPhase ∧
    ((s.raise t r).threads t).pc = (s.threads t).pc := by
  simp [raise, AsyncRunner.coroPhase]

theorem stays_of_events (s : System) {action : Action} (events : action = .handleEvents t r ∨
      action = .disableEvents t r ∨ action = .enableEvents t r ∨ action = .enterGuard t r ∨
        action = .raise t r) :
    ((s.step action).runners r).coroPhase = (s.runners r).coroPhase ∧
      ((s.step action).threads t).pc = (s.threads t).pc := by
  rcases events with rfl | rfl | rfl | rfl | rfl
  · simp only [step]
    split
    · exact raise_goesOn
    · exact ⟨rfl, rfl⟩
  · simp only [step, disableEvents]
    split
    · exact raise_goesOn
    · simp [AsyncRunner.coroPhase]
  · have allowed : ((s.allowEvents r).runners r).coroPhase = (s.runners r).coroPhase := by
      simp [allowEvents, AsyncRunner.coroPhase]
    simp only [step, enableEvents]
    split
    · exact ⟨raise_goesOn.1.trans allowed, raise_goesOn.2⟩
    · exact ⟨allowed, rfl⟩
  · simp only [step, makeGuard]
    split
    · exact raise_goesOn
    · simp [AsyncRunner.coroPhase]
  · exact raise_goesOn

/-- A suspended coroutine is entered again, and an event that it finds is thrown in its
body. -/
theorem resume_enters (alive : (s.runners r).stage = .alive)
    (suspended : (s.runners r).coroHelper = .suspended site) :
    ((s.resume t r).runners r).coroPhase = .running ∧
      ((s.resume t r).threads t).pc = .body r := by
  have woken : ((s.wake t r).runners r).coroPhase = .running := by
    simp [wake, AsyncRunner.coroPhase, alive]
  have inside : ((s.wake t r).threads t).pc = .body r := by
    simp [wake]
  simp only [resume, suspended, afterYield]
  split
  · exact ⟨escape_goesOn.1.trans woken, escape_goesOn.2.trans inside⟩
  · exact ⟨(returnFrom_goesOn (t := t)).1.trans woken,
      (returnFrom_goesOn (t := t)).2.trans inside⟩

theorem coroEffect (phases : AllPhases s) {action : Action} (guard : s.Guard action) :
    CoroEffect s (s.step action) (s.coroCalls action) := by
  have acts := s.step_actsOn_own action
  cases action with
  | runAsync created dst => exact coroEffect_create guard dst
  | runAsyncHere u created => exact coroEffect_create guard.1 _
  | currentScheduler u => exact .quiet (fun _ => rfl) (fun _ => rfl)
  | dispatch u closure =>
      refine .of_actsOn (t := u) (r := 0) (acts 0 0) rfl ?_
      simp [step, onEnter, guard.1]
  | enter u q kind =>
      have entered : (s.threads u).pc = .entered q kind := guard
      have plays : (s.threads u).pc.role q = some (.entered kind) := by
        simp [entered, Pc.role]
      obtain ⟨-, alive, fits⟩ := (phases q).held_of_role (t := u) plays
      have stage : (s.runners q).stage = .alive := alive
      have outside : (s.threads u).pc.coro = none := by simp [entered]
      cases kind with
      | start =>
          have empty : (s.runners q).coroHelper = .empty := fits.1
          refine .started u q (.of_actsOn (acts 0 0)) outside ?_ ?_ ?_
          · simp [AsyncRunner.coroPhase, stage, empty]
          · simp [step, start]
          · simp [step, start, AsyncRunner.coroPhase, stage]
      | proceed =>
          obtain ⟨site, suspended⟩ := fits.1
          have waits : (s.runners q).coroHelper = .suspended site := suspended
          obtain ⟨running, inside⟩ := resume_enters (t := u) stage waits
          refine .resumed u q (.of_actsOn (acts 0 0)) outside ?_ ?_ running
          · simp [AsyncRunner.coroPhase, stage, waits]
          · change ((s.resume u q).threads u).pc.coro = some q
            simp [inside]
  | handleEvents u q =>
      have same := s.stays_of_events (t := u) (r := q) (.inl rfl)
      exact .of_actsOn (acts 0 0) same.1 (congrArg Pc.coro same.2)
  | disableEvents u q =>
      have same := s.stays_of_events (t := u) (r := q) (.inr (.inl rfl))
      exact .of_actsOn (acts 0 0) same.1 (congrArg Pc.coro same.2)
  | enableEvents u q =>
      have same := s.stays_of_events (t := u) (r := q) (.inr (.inr (.inl rfl)))
      exact .of_actsOn (acts 0 0) same.1 (congrArg Pc.coro same.2)
  | enterGuard u q =>
      have same := s.stays_of_events (t := u) (r := q) (.inr (.inr (.inr (.inl rfl))))
      exact .of_actsOn (acts 0 0) same.1 (congrArg Pc.coro same.2)
  | raise u q =>
      have same := s.stays_of_events (t := u) (r := q) (.inr (.inr (.inr (.inr rfl))))
      exact .of_actsOn (acts 0 0) same.1 (congrArg Pc.coro same.2)
  | catchException u q =>
      refine .of_actsOn (t := u) (r := q) (acts 0 0) ?_ ?_ <;>
        simp [step, System.catchException, AsyncRunner.coroPhase]
  | defer u q =>
      have body := coroPhase_of_body phases guard
      exact .of_goesOn (acts 0 0) guard body.2 (defer_goesOn body.1)
  | switchTo u q dst =>
      have body := coroPhase_of_body phases guard
      exact .of_goesOn (acts 0 0) guard body.2 (switchTo_goesOn body.1)
  | enterAccess u q dst =>
      have body := coroPhase_of_body phases guard
      exact .of_goesOn (acts 0 0) guard body.2 (switchTo_goesOn body.1)
  | leaveScope u q =>
      have body := coroPhase_of_body phases guard.1
      exact .of_goesOn (acts 0 0) guard.1 body.2 (leaveScope_goesOn body.1)
  | finish u q =>
      have body := coroPhase_of_body phases guard.1
      refine .finished u q (.of_actsOn (acts 0 0)) (by simp [guard.1]) body.2 ?_ ?_
      · simp [step, finish]
      · simp [step, finish, AsyncRunner.coroPhase, body.1]
  | onExit u q =>
      have exits : (s.threads u).pc = .exiting q := guard
      obtain ⟨alive, -, ends⟩ := phases.exiting exits
      cases stored : (s.runners q).deferHandler with
      | some handler =>
          have calls : s.coroCalls (.onExit u q) = [] := by simp [coroCalls, stored]
          rw [calls]
          refine .of_actsOn (t := u) (r := q) (acts 0 0) ?_ ?_
          · simp [step, onExit, stored, System.takeHandler, AsyncRunner.coroPhase]
          · simp [step, onExit, stored, System.takeHandler, exits]
      | none =>
          have finished : (s.runners q).coroHelper = .finished := by
            rcases ends with ⟨-, handler, -⟩ | ⟨finished, -⟩
            · simp [stored] at handler
            · exact finished
          have calls : s.coroCalls (.onExit u q) = [.destroy u q] := by simp [coroCalls, stored]
          rw [calls]
          refine .destroyed u q (.of_actsOn (acts 0 0)) (by simp [exits]) ?_ ?_ ?_
          · simp [AsyncRunner.coroPhase, alive, finished]
          · simp [step, onExit, stored, delete]
          · simp [step, onExit, stored, delete, AsyncRunner.coroPhase]
  | callProceed u q =>
      have defers : (s.threads u).pc = .deferring q .proceedHandler := guard
      refine .of_actsOn (t := u) (r := q) (acts 0 0) ?_ ?_
      · simp [step, System.proceed, schedule, AsyncRunner.coroPhase]
      · simp [step, defers]
  | returnHandler u q =>
      have defers : (s.threads u).pc = .deferring q .callable := guard
      refine .of_actsOn (t := u) (r := 0) (acts 0 0) rfl ?_
      simp [step, defers]
  | detach u =>
      have leaves : (s.threads u).pc = .leaving := guard
      refine .of_actsOn (t := u) (r := 0) (acts 0 0) rfl ?_
      simp [step, detach, leaves]
  | proceed q =>
      refine .of_actsOn (t := 0) (r := q) (acts 0 0) ?_ rfl
      simp [step, System.proceed, schedule, AsyncRunner.coroPhase]
  | setStatus q status =>
      refine .of_actsOn (t := 0) (r := q) (acts 0 0) ?_ ?_
      · simp only [step, setStatus]
        split <;> simp [AsyncRunner.coroPhase]
      · simp only [step, setStatus]
        split <;> rfl
  | reset q =>
      refine .of_actsOn (t := 0) (r := q) (acts 0 0) ?_ rfl
      simp [step, resetStatus, AsyncRunner.coroPhase]

end System

/-! ### The calls of a run -/

/-- The coroutines are as the runners have left them, and a thread is in the coroutine
of the task whose body it executes and in no other. -/
structure Mirrors (s : System) (c : CoroState) : Prop where
  coros : ∀ r, (c.coros r).phase = (s.runners r).coroPhase
  inside : ∀ t r, (s.threads t).pc.coro = some r → (c.threads t).pointer = some r ∧
    ∃ call, (c.threads t).stack = [call] ∧ call.kind.runsBody = true ∧ call.coro = r
  outside : ∀ t, (s.threads t).pc.coro = none → (c.threads t).stack = []
  sound : c.undefined = false

/-- The call is one that may be made, and a `Yield` suspends the coroutine it is called
in. -/
def WellMade (c : CoroState) (call : CoroAction) : Prop :=
  c.Enabled call ∧ YieldSuspends c call

namespace Coroutine

variable {coro : Coroutine}

private theorem eq_of_empty (phase : coro.phase = .empty) : coro = .empty := by
  cases coro <;> simp [Coroutine.phase] at phase ⊢

private theorem eq_of_suspended (phase : coro.phase = .suspended) : coro = .suspended := by
  cases coro <;> simp [Coroutine.phase] at phase ⊢

private theorem eq_of_finished (phase : coro.phase = .finished) : coro = .finished := by
  cases coro <;> simp [Coroutine.phase] at phase ⊢

end Coroutine

namespace Mirrors

variable {s after : System} {c : CoroState} {t : ThreadId} {r : RunnerId}

/-- What a call on the coroutine of `r` by thread `t` has to establish. -/
theorem put (mirrors : Mirrors s c) (frame : System.CoroFrame t r s after)
    {thread : CoroThread} {coro : Coroutine} (phase : coro.phase = (after.runners r).coroPhase)
    (inside : ∀ q, (after.threads t).pc.coro = some q → thread.pointer = some q ∧
      ∃ call, thread.stack = [call] ∧ call.kind.runsBody = true ∧ call.coro = q)
    (outside : (after.threads t).pc.coro = none → thread.stack = []) :
    Mirrors after (c.put t thread r coro) where
  coros other := by
    by_cases own : other = r
    · simp [own, phase]
    · simp [own, frame.runners other own, mirrors.coros other]
  inside u q here := by
    by_cases own : u = t
    · subst own
      simpa using inside q here
    · rw [frame.threads u own] at here
      simpa [own] using mirrors.inside u q here
  outside u here := by
    by_cases own : u = t
    · subst own
      simpa using outside here
    · rw [frame.threads u own] at here
      simpa [own] using mirrors.outside u here
  sound := mirrors.sound

theorem start (mirrors : Mirrors s c) (frame : System.CoroFrame t r s after)
    (outside : (s.threads t).pc.coro = none) (empty : (s.runners r).coroPhase = .empty)
    (inside : (after.threads t).pc.coro = some r)
    (running : (after.runners r).coroPhase = .running) :
    WellMade c (.start t r) ∧ Mirrors after (c.start t r) := by
  have coro : c.coros r = .empty := Coroutine.eq_of_empty ((mirrors.coros r).trans empty)
  have enabled : c.Enabled (.start t r) :=
    ⟨mirrors.sound, by simp [coro], by simp [coro], by simp [coro]⟩
  refine ⟨⟨enabled, nofun⟩, ?_⟩
  simp only [CoroState.start, coro]
  refine mirrors.put frame running.symm ?_ (by simp [inside])
  intro q here
  obtain rfl : r = q := by simpa [inside] using here
  exact ⟨rfl, _, by rw [mirrors.outside t outside], rfl, rfl⟩

theorem resume (mirrors : Mirrors s c) (frame : System.CoroFrame t r s after)
    (outside : (s.threads t).pc.coro = none) (suspended : (s.runners r).coroPhase = .suspended)
    (inside : (after.threads t).pc.coro = some r)
    (running : (after.runners r).coroPhase = .running) :
    WellMade c (.resume t r) ∧ Mirrors after (c.resume t r) := by
  have coro : c.coros r = .suspended :=
    Coroutine.eq_of_suspended ((mirrors.coros r).trans suspended)
  have enabled : c.Enabled (.resume t r) := ⟨mirrors.sound, by simp [coro], by simp [coro]⟩
  refine ⟨⟨enabled, nofun⟩, ?_⟩
  simp only [CoroState.resume, coro]
  refine mirrors.put frame running.symm ?_ (by simp [inside])
  intro q here
  obtain rfl : r = q := by simpa [inside] using here
  exact ⟨rfl, _, by rw [mirrors.outside t outside], rfl, rfl⟩

/-- The free function `Yield` finds the coroutine of the task behind the pointer. -/
theorem yield (mirrors : Mirrors s c) (frame : System.CoroFrame t r s after)
    (inside : (s.threads t).pc.coro = some r) (outside : (after.threads t).pc.coro = none)
    (suspended : (after.runners r).coroPhase = .suspended) :
    WellMade c (.yield t) ∧ Mirrors after (c.yield t) := by
  obtain ⟨pointer, call, stack, runs, rfl⟩ := mirrors.inside t r inside
  have enabled : c.Enabled (.yield t) :=
    ⟨mirrors.sound, by simp [CoroState.Guard, CoroState.inBody, CoroState.kind, stack, runs]⟩
  have leaves : ∃ before, c.yield t = c.leave t call [] before .suspended := by
    simp only [CoroState.yield, pointer, stack, List.head?_cons, Option.map_some, if_true,
      CoroState.yieldCoro]
    split
    · exact ⟨_, rfl⟩
    all_goals exact ⟨_, rfl⟩
  obtain ⟨before, leaves⟩ := leaves
  refine ⟨⟨enabled, ?_⟩, ?_⟩
  · intro u other rest same top
    obtain rfl : t = u := by simpa using same
    obtain ⟨rfl, rfl⟩ : call = other ∧ [] = rest := by simpa [stack] using top
    change (c.yield t).coros call.coro = .suspended ∧ ((c.yield t).threads t).stack = []
    simp [leaves, CoroState.leave]
  · rw [leaves]
    exact mirrors.put frame suspended.symm (by simp [outside]) (fun _ => rfl)

theorem finish (mirrors : Mirrors s c) (frame : System.CoroFrame t r s after)
    (inside : (s.threads t).pc.coro = some r) (outside : (after.threads t).pc.coro = none)
    (ended : (after.runners r).coroPhase = .finished) :
    WellMade c (.finish t) ∧ Mirrors after (c.finish t) := by
  obtain ⟨-, call, stack, runs, rfl⟩ := mirrors.inside t r inside
  have enabled : c.Enabled (.finish t) :=
    ⟨mirrors.sound, by simp [CoroState.Guard, CoroState.inBody, CoroState.kind, stack, runs]⟩
  refine ⟨⟨enabled, by simp [YieldSuspends]⟩, ?_⟩
  simp only [CoroState.finish, stack]
  split
  all_goals exact mirrors.put frame ended.symm (by simp [outside]) (fun _ => rfl)

theorem destroy (mirrors : Mirrors s c) (frame : System.CoroFrame t r s after)
    (outside : (s.threads t).pc.coro = none) (ended : (s.runners r).coroPhase = .finished)
    (still : (after.threads t).pc.coro = none)
    (gone : (after.runners r).coroPhase = .destroyed) :
    WellMade c (.destroy t r) ∧ Mirrors after (c.destroy t r) := by
  have coro : c.coros r = .finished := Coroutine.eq_of_finished ((mirrors.coros r).trans ended)
  have enabled : c.Enabled (.destroy t r) :=
    ⟨mirrors.sound, by simp [coro], by simp [coro], by simp [coro]⟩
  refine ⟨⟨enabled, nofun⟩, ?_⟩
  simp only [CoroState.destroy, coro]
  exact mirrors.put frame gone.symm (by simp [still]) (fun _ => mirrors.outside t outside)

theorem step (mirrors : Mirrors s c) {calls : List CoroAction}
    (effect : System.CoroEffect s after calls) :
    coroSystem.EveryStep WellMade c calls ∧ Mirrors after (coroSystem.run c calls) := by
  cases effect with
  | quiet runners threads =>
      refine ⟨trivial, ?_, ?_, ?_, mirrors.sound⟩
      · exact fun r => (mirrors.coros r).trans (runners r).symm
      · exact fun t r here => mirrors.inside t r (threads t ▸ here)
      · exact fun t here => mirrors.outside t (threads t ▸ here)
  | started t r frame outside empty inside running =>
      have made := mirrors.start frame outside empty inside running
      exact ⟨⟨made.1, trivial⟩, made.2⟩
  | resumed t r frame outside suspended inside running =>
      have made := mirrors.resume frame outside suspended inside running
      exact ⟨⟨made.1, trivial⟩, made.2⟩
  | yielded t r frame inside running outside suspended =>
      have made := mirrors.yield frame inside outside suspended
      exact ⟨⟨made.1, trivial⟩, made.2⟩
  | finished t r frame inside running outside ended =>
      have made := mirrors.finish frame inside outside ended
      exact ⟨⟨made.1, trivial⟩, made.2⟩
  | destroyed t r frame outside ended still gone =>
      have made := mirrors.destroy frame outside ended still gone
      exact ⟨⟨made.1, trivial⟩, made.2⟩

theorem initial : Mirrors {} {} :=
  ⟨fun _ => rfl, fun _ _ here => (nomatch here), fun _ _ => rfl, rfl⟩

end Mirrors

/-- The runners beside the coroutines that their calls have made. -/
structure Accompanied (s : System) (c : CoroState) : Prop where
  life : LifeInvariant s
  mirrors : Mirrors s c

/-- In every run of the runners the calls on their coroutines are calls that may be
made, each `Yield` suspends the coroutine of the task that makes it, and the coroutines
are as the runners take them to be. -/
theorem runners_keep_discipline {actions : List Action} (legal : runnerSystem.Legal {} actions)
    (contract : runnerSystem.EveryStep ProceedContract {} actions) :
    coroSystem.EveryStep WellMade {} (runnerSystem.trace System.coroCalls {} actions) ∧
      Mirrors (runnerSystem.run {} actions)
        (coroSystem.run {} (runnerSystem.trace System.coroCalls {} actions)) := by
  have follows : coroSystem.EveryStep WellMade {} (runnerSystem.trace System.coroCalls {} actions) ∧
      Accompanied (runnerSystem.run {} actions)
        (coroSystem.run {} (runnerSystem.trace System.coroCalls {} actions)) := by
    refine ActionSystem.everyStep_trace ?_ ⟨LifeInvariant.initial, Mirrors.initial⟩ legal contract
    intro s c action both enabled met
    have made := both.mirrors.step (s.coroEffect both.life.phases enabled.2)
    exact ⟨made.1, both.life.step enabled met, made.2⟩
  exact ⟨follows.1, follows.2.mirrors⟩

/-- A task yields twice and is resumed on another thread, while a second task runs and
ends. -/
def movedTask : List Action :=
  [.runAsync 0 1, .runAsync 1 1, .dispatch 0 ⟨.start, 0, 1⟩, .enter 0 0 .start, .defer 0 0,
    .onExit 0 0, .returnHandler 0 0, .detach 0, .dispatch 0 ⟨.start, 1, 1⟩, .proceed 0,
    .dispatch 1 ⟨.proceed, 0, 1⟩, .enter 1 0 .proceed, .enter 0 1 .start, .defer 1 0, .onExit 1 0,
    .proceed 0, .returnHandler 1 0, .detach 1, .finish 0 1, .onExit 0 1, .detach 0,
    .dispatch 1 ⟨.proceed, 0, 1⟩, .enter 1 0 .proceed, .finish 1 0, .onExit 1 0, .detach 1]

theorem runners_keep_discipline_movedTask :
    coroSystem.EveryStep WellMade {} (runnerSystem.trace System.coroCalls {} movedTask) ∧
      Mirrors (runnerSystem.run {} movedTask)
        (coroSystem.run {} (runnerSystem.trace System.coroCalls {} movedTask)) :=
  runners_keep_discipline (by decide) (by decide)

end FlatAsync
