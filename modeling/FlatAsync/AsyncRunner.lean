import FlatAsync.ActionSystem
import Mathlib.Logic.Function.Basic

/-!
# The asynchronous runner

`RunAsync` turns a handler into an `AsyncRunner`: an object on the heap that
owns a coroutine and posts closures to schedulers.  A worker thread that takes
a closure attaches the runner to itself (`OnEnter`), starts or resumes the
coroutine and, when control comes back, either hands the suspended coroutine's
defer handler its turn or deletes the runner (`OnExit`).

This file embeds these steps one by one, for any number of runners, threads
and schedulers.  The body of a task is arbitrary: at each point of a body the
next library call is chosen by the action.  Each function below carries the
name of the member function it models.
-/

namespace FlatAsync

abbrev RunnerId := Nat
abbrev ThreadId := Nat
abbrev SchedulerId := Nat

inductive AsyncOpStatus
  | normal
  | cancelled
  | timedout
  deriving DecidableEq, Repr

/-- The operation given to `Defer`.  `SwitchTo` passes the runner's own
`ProceedHandler()`; every other caller passes a callable of its own. -/
inductive DeferHandler
  | proceedHandler
  | callable
  deriving DecidableEq, Repr

/-- The call a coroutine is stopped in: `Defer` or `SwitchTo` called by the
task body, or the `SwitchTo` in the constructor or the destructor of an
`AsyncProxy` access object. -/
inductive CallSite
  | defer
  | switchTo (dst : SchedulerId)
  | accessCtor (source dst : SchedulerId)
  | accessDtor (source : SchedulerId)
  deriving DecidableEq, Repr

def CallSite.target : CallSite → Option SchedulerId
  | .defer => none
  | .switchTo dst | .accessCtor _ dst => some dst
  | .accessDtor source => some source

inductive CoroHelper
  | empty
  | running
  | suspended (site : CallSite)
  | finished
  deriving DecidableEq, Repr

/-- The scope objects of the library that a body can hold: an
`AsyncOpStateGuard`, or an `AsyncProxyBase` with the scheduler to return to. -/
inductive Scope
  | opStateGuard
  | access (source : SchedulerId)
  deriving DecidableEq, Repr

inductive Stage
  | unborn
  | alive
  | deleted
  deriving DecidableEq, Repr

/-- Who may still answer the present suspension of a runner: nobody (the defer
handler has not begun, or `Proceed` was already called), the defer handler
that `SwitchTo` installed, or the holders of the handler that `ProceedHandler`
returned. -/
inductive Answer
  | nobody
  | deferHandler
  | holders
  deriving DecidableEq, Repr

def DeferHandler.answer : DeferHandler → Answer
  | .proceedHandler => .deferHandler
  | .callable => .holders

/-- A runner.  `opState` to `coroHelper` are its members; `scopes` and
`unwinding` (the number of exceptions in flight in the body) describe the
stack of its coroutine; `answer`, `yields` and `resumes` only record what
happened and no function reads them. -/
structure AsyncRunner where
  opState : AsyncOpStatus := .normal
  isEventsAllowed : Bool := true
  scheduler : SchedulerId := 0
  deferHandler : Option DeferHandler := none
  coroHelper : CoroHelper := .empty
  scopes : List Scope := []
  unwinding : Nat := 0
  stage : Stage := .unborn
  answer : Answer := .nobody
  yields : Nat := 0
  resumes : Nat := 0
  deriving DecidableEq, Repr

inductive ClosureKind
  | start
  | proceed
  deriving DecidableEq, Repr

/-- A closure waiting in the queue of a scheduler: the one posted by
`AsyncRunner::Start` or one posted by `AsyncRunner::Proceed`. -/
structure Closure where
  kind : ClosureKind
  runner : RunnerId
  scheduler : SchedulerId
  deriving DecidableEq, Repr

/-- What a worker thread is executing: nothing, the `Start` or `Resume` call
on the guard it has just made, the body of a task, `OnExit` before the test
of `defer_handler_`, a defer handler, or the rest of `OnExit`. -/
inductive Pc
  | idle
  | entered (runner : RunnerId) (kind : ClosureKind)
  | body (runner : RunnerId)
  | exiting (runner : RunnerId)
  | deferring (runner : RunnerId) (handler : DeferHandler)
  | leaving
  deriving DecidableEq, Repr

/-- Code that may call `RunAsync(handler)` or `GetCurrentThreadScheduler`: a
thread without a runner, a task body, or a defer handler other than the one
`SwitchTo` installs. -/
def Pc.mayCall : Pc → Bool
  | .idle | .body _ | .deferring _ .callable => true
  | .entered .. | .exiting _ | .deferring _ .proceedHandler | .leaving => false

/-- A worker thread.  `asyncRunner` is `thrd_ptr_async_runner`, `uncaught` the
count behind `std::uncaught_exception`; `dispatchedBy` records the scheduler
whose queue the present closure came from. -/
structure Thread where
  pc : Pc := .idle
  asyncRunner : Option RunnerId := none
  uncaught : Int := 0
  dispatchedBy : SchedulerId := 0
  deriving DecidableEq, Repr

structure System where
  runners : RunnerId → AsyncRunner := fun _ => {}
  threads : ThreadId → Thread := fun _ => {}
  posted : List Closure := []
  terminated : Bool := false

namespace System

def setRunner (s : System) (r : RunnerId) (runner : AsyncRunner) : System :=
  { s with runners := Function.update s.runners r runner }

def setThread (s : System) (t : ThreadId) (thread : Thread) : System :=
  { s with threads := Function.update s.threads t thread }

def moveTo (s : System) (t : ThreadId) (pc : Pc) : System :=
  s.setThread t { s.threads t with pc := pc }

section Simp

variable (s : System) (r : RunnerId) (t : ThreadId)
variable (runner : AsyncRunner) (thread : Thread) (pc : Pc)

@[simp] theorem setRunner_runners :
    (s.setRunner r runner).runners = Function.update s.runners r runner := rfl
@[simp] theorem setRunner_threads : (s.setRunner r runner).threads = s.threads := rfl
@[simp] theorem setRunner_posted : (s.setRunner r runner).posted = s.posted := rfl
@[simp] theorem setRunner_terminated :
    (s.setRunner r runner).terminated = s.terminated := rfl

@[simp] theorem setThread_threads :
    (s.setThread t thread).threads = Function.update s.threads t thread := rfl
@[simp] theorem setThread_runners : (s.setThread t thread).runners = s.runners := rfl
@[simp] theorem setThread_posted : (s.setThread t thread).posted = s.posted := rfl
@[simp] theorem setThread_terminated :
    (s.setThread t thread).terminated = s.terminated := rfl

@[simp] theorem moveTo_threads :
    (s.moveTo t pc).threads =
      Function.update s.threads t { s.threads t with pc := pc } := rfl
@[simp] theorem moveTo_runners : (s.moveTo t pc).runners = s.runners := rfl
@[simp] theorem moveTo_posted : (s.moveTo t pc).posted = s.posted := rfl
@[simp] theorem moveTo_terminated : (s.moveTo t pc).terminated = s.terminated := rfl

end Simp

/-! ### Creating runners and posting closures -/

/-- `AsyncRunner::Schedule` -/
def schedule (s : System) (r : RunnerId) (kind : ClosureKind) : System :=
  { s with posted := s.posted ++ [⟨kind, r, (s.runners r).scheduler⟩] }

/-- `AsyncRunner::Proceed` -/
def proceed (s : System) (r : RunnerId) : System :=
  (s.setRunner r { s.runners r with answer := .nobody }).schedule r .proceed

/-- `AsyncRunner::Create`: the constructor followed by `AsyncRunner::Start`. -/
def create (s : System) (r : RunnerId) (scheduler : SchedulerId) : System :=
  (s.setRunner r { scheduler := scheduler, stage := .alive }).schedule r .start

/-- The scheduler that `GetDefaultSchedulerAccessorInstance()` refers to. -/
def defaultScheduler : SchedulerId := 0

/-- The scheduler `RunAsync(handler)` uses on thread `t`. -/
def currentScheduler (s : System) (t : ThreadId) : SchedulerId :=
  match (s.threads t).asyncRunner with
  | some r => (s.runners r).scheduler
  | none => defaultScheduler

/-! ### Events and exceptions -/

/-- `AsyncRunner::HandleEvents`: the status carried by the exception it
throws, if it throws. -/
def handleEvents (s : System) (t : ThreadId) (r : RunnerId) :
    Option AsyncOpStatus :=
  if (s.runners r).isEventsAllowed = false then
    none
  else if (s.threads t).uncaught ≠ 0 then
    none
  else if (s.runners r).opState = .normal then
    none
  else
    some (s.runners r).opState

/-- Runner `r` has a status other than `Normal` and, on thread `t`, nothing
holds its delivery back. -/
def EventPending (s : System) (t : ThreadId) (r : RunnerId) : Prop :=
  (s.runners r).isEventsAllowed = true ∧ (s.threads t).uncaught = 0 ∧
    (s.runners r).opState ≠ .normal

instance (s : System) (t : ThreadId) (r : RunnerId) : Decidable (s.EventPending t r) :=
  inferInstanceAs (Decidable (_ ∧ _))

theorem handleEvents_isSome {s : System} {t : ThreadId} {r : RunnerId} :
    (s.handleEvents t r).isSome ↔ s.EventPending t r := by
  unfold handleEvents EventPending
  split
  next forbidden => simp [forbidden]
  next allowed =>
    split
    next unwinds => simp [unwinds]
    next calm =>
      split
      next normal => simp [normal]
      next event => simp_all

/-- An exception is thrown in the body of `r`, which thread `t` executes. -/
def raise (s : System) (t : ThreadId) (r : RunnerId) : System :=
  (s.setRunner r { s.runners r with unwinding := (s.runners r).unwinding + 1 }).setThread t
    { s.threads t with uncaught := (s.threads t).uncaught + 1 }

/-- A handler of the body catches the exception thrown last. -/
def catchException (s : System) (t : ThreadId) (r : RunnerId) : System :=
  (s.setRunner r { s.runners r with unwinding := (s.runners r).unwinding - 1 }).setThread t
    { s.threads t with uncaught := (s.threads t).uncaught - 1 }

/-- An exception leaves the call `site`.  The destructor of an access object is
`noexcept`. -/
def escape (s : System) (t : ThreadId) (r : RunnerId) : CallSite → System
  | .defer | .switchTo _ | .accessCtor .. => s.raise t r
  | .accessDtor _ => { s with terminated := true }

/-- The call `site` returns normally. -/
def returnFrom (s : System) (r : RunnerId) : CallSite → System
  | .accessCtor source _ =>
      s.setRunner r
        { s.runners r with scopes := .access source :: (s.runners r).scopes }
  | .defer | .switchTo _ | .accessDtor _ => s

/-! ### Suspending and resuming -/

/-- The middle of `AsyncRunner::Defer`: the handler is stored and the coroutine
yields. -/
def yield (s : System) (t : ThreadId) (r : RunnerId) (site : CallSite)
    (handler : DeferHandler) : System :=
  (s.setRunner r
    { s.runners r with
      deferHandler := some handler
      coroHelper := .suspended site
      yields := (s.runners r).yields + 1 }).moveTo t (.exiting r)

/-- `AsyncRunner::Defer` up to its `Yield()`. -/
def defer (s : System) (t : ThreadId) (r : RunnerId) (site : CallSite)
    (handler : DeferHandler) : System :=
  match s.handleEvents t r with
  | some _ => s.escape t r site
  | none => s.yield t r site handler

def setScheduler (s : System) (r : RunnerId) (dst : SchedulerId) : System :=
  s.setRunner r { s.runners r with scheduler := dst }

/-- `AsyncRunner::SwitchTo` up to the `Yield()` of its `Defer`. -/
def switchTo (s : System) (t : ThreadId) (r : RunnerId) (site : CallSite)
    (dst : SchedulerId) : System :=
  if dst = (s.runners r).scheduler then
    s.returnFrom r site
  else
    (s.setScheduler r dst).defer t r site .proceedHandler

/-- The part of `AsyncRunner::Defer` after its `Yield()`. -/
def afterYield (s : System) (t : ThreadId) (r : RunnerId) (site : CallSite) :
    System :=
  match s.handleEvents t r with
  | some _ => s.escape t r site
  | none => s.returnFrom r site

/-- `CoroHelper::Start` on a new runner. -/
def start (s : System) (t : ThreadId) (r : RunnerId) : System :=
  (s.setRunner r { s.runners r with coroHelper := .running }).moveTo t (.body r)

/-- The coroutine is entered again. -/
def wake (s : System) (t : ThreadId) (r : RunnerId) : System :=
  (s.setRunner r
    { s.runners r with
      coroHelper := .running
      resumes := (s.runners r).resumes + 1 }).moveTo t (.body r)

/-- `CoroHelper::Resume`, which does nothing unless the coroutine is
suspended. -/
def resume (s : System) (t : ThreadId) (r : RunnerId) : System :=
  match (s.runners r).coroHelper with
  | .suspended site => (s.wake t r).afterYield t r site
  | _ => s.moveTo t (.exiting r)

/-- The body ends and control leaves the coroutine. -/
def finish (s : System) (t : ThreadId) (r : RunnerId) : System :=
  (s.setRunner r { s.runners r with coroHelper := .finished }).moveTo t (.exiting r)

/-! ### Scope objects -/

/-- `AsyncRunner::DisableEvents` -/
def disableEvents (s : System) (t : ThreadId) (r : RunnerId) : System :=
  match s.handleEvents t r with
  | some _ => s.raise t r
  | none => s.setRunner r { s.runners r with isEventsAllowed := false }

def allowEvents (s : System) (r : RunnerId) : System :=
  s.setRunner r { s.runners r with isEventsAllowed := true }

/-- `AsyncRunner::EnableEvents`, called by the body. -/
def enableEvents (s : System) (t : ThreadId) (r : RunnerId) : System :=
  match (s.allowEvents r).handleEvents t r with
  | some _ => (s.allowEvents r).raise t r
  | none => s.allowEvents r

/-- The constructor of `AsyncOpStateGuard`: a guard whose `DisableEvents` throws
does not come into being. -/
def makeGuard (s : System) (t : ThreadId) (r : RunnerId) : System :=
  match s.handleEvents t r with
  | some _ => s.raise t r
  | none =>
      s.setRunner r
        { s.runners r with
          isEventsAllowed := false
          scopes := .opStateGuard :: (s.runners r).scopes }

/-- The destructor of `AsyncOpStateGuard`, which is `noexcept` and calls
`EnableEvents`. -/
def destroyGuard (s : System) (t : ThreadId) (r : RunnerId) : System :=
  match (s.allowEvents r).handleEvents t r with
  | some _ => { s.allowEvents r with terminated := true }
  | none => s.allowEvents r

/-- The innermost scope object of the body is destroyed. -/
def leaveScope (s : System) (t : ThreadId) (r : RunnerId) : System :=
  match (s.runners r).scopes with
  | [] => s
  | .opStateGuard :: scopes =>
      (s.setRunner r { s.runners r with scopes := scopes }).destroyGuard t r
  | .access source :: scopes =>
      (s.setRunner r { s.runners r with scopes := scopes }).switchTo t r (.accessDtor source)
        source

/-! ### Entering and leaving a runner -/

/-- Thread `t` takes `closure` from its queue and calls `OnEnter`. -/
def onEnter (s : System) (t : ThreadId) (closure : Closure) : System :=
  { s.setThread t
      { s.threads t with
        pc := .entered closure.runner closure.kind
        asyncRunner := some closure.runner
        dispatchedBy := closure.scheduler } with
    posted := s.posted.erase closure }

/-- `OnExit` moves the defer handler out of the runner and calls it. -/
def takeHandler (s : System) (t : ThreadId) (r : RunnerId) (handler : DeferHandler) :
    System :=
  (s.setRunner r
    { s.runners r with
      deferHandler := none
      answer := handler.answer }).moveTo t (.deferring r handler)

/-- `OnExit` deletes the runner. -/
def delete (s : System) (t : ThreadId) (r : RunnerId) : System :=
  (s.setRunner r { s.runners r with stage := .deleted }).moveTo t .leaving

/-- `AsyncRunner::OnExit` up to the call of the defer handler or the end of
the deletion. -/
def onExit (s : System) (t : ThreadId) (r : RunnerId) : System :=
  match (s.runners r).deferHandler with
  | some handler => s.takeHandler t r handler
  | none => s.delete t r

/-- The last statement of `AsyncRunner::OnExit`. -/
def detach (s : System) (t : ThreadId) : System :=
  s.setThread t { s.threads t with pc := .idle, asyncRunner := none }

/-- `AsyncOpState::SetStatus` on the state of runner `r`, as `Cancel` and
`Timedout` call it. -/
def setStatus (s : System) (r : RunnerId) (status : AsyncOpStatus) : System :=
  if (s.runners r).opState = .normal then
    s.setRunner r { s.runners r with opState := status }
  else
    s

/-- `AsyncOpState::Reset` on the state of runner `r`. -/
def resetStatus (s : System) (r : RunnerId) : System :=
  s.setRunner r { s.runners r with opState := .normal }

end System

/-- The steps of the system.  A body may call the library in any order, and so
may a defer handler; `proceed`, `setStatus`, `reset` and `runAsync` can come
from any thread, worker or not.  `runAsyncHere` is `RunAsync` without a
scheduler and `currentScheduler` is `GetCurrentThreadScheduler`. -/
inductive Action
  | runAsync (created : RunnerId) (scheduler : SchedulerId)
  | runAsyncHere (thread : ThreadId) (created : RunnerId)
  | currentScheduler (thread : ThreadId)
  | dispatch (thread : ThreadId) (closure : Closure)
  | enter (thread : ThreadId) (runner : RunnerId) (kind : ClosureKind)
  | handleEvents (thread : ThreadId) (runner : RunnerId)
  | disableEvents (thread : ThreadId) (runner : RunnerId)
  | enableEvents (thread : ThreadId) (runner : RunnerId)
  | defer (thread : ThreadId) (runner : RunnerId)
  | switchTo (thread : ThreadId) (runner : RunnerId) (dst : SchedulerId)
  | enterGuard (thread : ThreadId) (runner : RunnerId)
  | enterAccess (thread : ThreadId) (runner : RunnerId) (destination : SchedulerId)
  | leaveScope (thread : ThreadId) (runner : RunnerId)
  | raise (thread : ThreadId) (runner : RunnerId)
  | catchException (thread : ThreadId) (runner : RunnerId)
  | finish (thread : ThreadId) (runner : RunnerId)
  | onExit (thread : ThreadId) (runner : RunnerId)
  | callProceed (thread : ThreadId) (runner : RunnerId)
  | returnHandler (thread : ThreadId) (runner : RunnerId)
  | detach (thread : ThreadId)
  | proceed (runner : RunnerId)
  | setStatus (runner : RunnerId) (status : AsyncOpStatus)
  | reset (runner : RunnerId)
  deriving DecidableEq, Repr

namespace System

/-- Where the code of the system allows each action.  A new runner gets an
address that was never used, and a body ends once it holds no scope object and
no exception is in flight. -/
def Guard (s : System) : Action → Prop
  | .runAsync created _ => (s.runners created).stage = .unborn
  | .runAsyncHere t created =>
      (s.runners created).stage = .unborn ∧ (s.threads t).pc.mayCall = true
  | .currentScheduler t => (s.threads t).pc.mayCall = true
  | .dispatch t closure => (s.threads t).pc = .idle ∧ closure ∈ s.posted
  | .enter t r kind => (s.threads t).pc = .entered r kind
  | .handleEvents t r | .disableEvents t r | .enableEvents t r | .defer t r
  | .switchTo t r _ | .enterGuard t r | .enterAccess t r _ | .raise t r =>
      (s.threads t).pc = .body r
  | .leaveScope t r => (s.threads t).pc = .body r ∧ (s.runners r).scopes ≠ []
  | .catchException t r => (s.threads t).pc = .body r ∧ 0 < (s.runners r).unwinding
  | .finish t r =>
      (s.threads t).pc = .body r ∧ (s.runners r).scopes = [] ∧
        (s.runners r).unwinding = 0
  | .onExit t r => (s.threads t).pc = .exiting r
  | .callProceed t r => (s.threads t).pc = .deferring r .proceedHandler
  | .returnHandler t r => (s.threads t).pc = .deferring r .callable
  | .detach t => (s.threads t).pc = .leaving
  | .proceed _ | .reset _ => True
  | .setStatus _ status => status ≠ .normal

instance (s : System) : ∀ action, Decidable (s.Guard action)
  | .runAsync .. | .enter .. | .handleEvents .. | .disableEvents .. | .enableEvents ..
  | .defer .. | .switchTo .. | .enterGuard .. | .enterAccess .. | .raise .. | .onExit ..
  | .callProceed ..
  | .returnHandler .. | .detach .. | .currentScheduler .. =>
      inferInstanceAs (Decidable (_ = _))
  | .runAsyncHere .. | .dispatch .. | .leaveScope .. | .catchException .. | .finish .. =>
      inferInstanceAs (Decidable (_ ∧ _))
  | .proceed _ | .reset _ => inferInstanceAs (Decidable True)
  | .setStatus .. => inferInstanceAs (Decidable (_ ≠ _))

/-- No step follows `std::terminate`. -/
def Enabled (s : System) (action : Action) : Prop :=
  s.terminated = false ∧ s.Guard action

instance (s : System) (action : Action) : Decidable (s.Enabled action) :=
  inferInstanceAs (Decidable (_ ∧ _))

def step (s : System) : Action → System
  | .runAsync created scheduler => s.create created scheduler
  | .runAsyncHere t created => s.create created (s.currentScheduler t)
  | .currentScheduler _ => s
  | .dispatch t closure => s.onEnter t closure
  | .enter t r .start => s.start t r
  | .enter t r .proceed => s.resume t r
  | .handleEvents t r =>
      match s.handleEvents t r with
      | some _ => s.raise t r
      | none => s
  | .disableEvents t r => s.disableEvents t r
  | .enableEvents t r => s.enableEvents t r
  | .defer t r => s.defer t r .defer .callable
  | .switchTo t r dst => s.switchTo t r (.switchTo dst) dst
  | .enterGuard t r => s.makeGuard t r
  | .enterAccess t r destination =>
      s.switchTo t r (.accessCtor (s.runners r).scheduler destination) destination
  | .leaveScope t r => s.leaveScope t r
  | .raise t r => s.raise t r
  | .catchException t r => s.catchException t r
  | .finish t r => s.finish t r
  | .onExit t r => s.onExit t r
  | .callProceed t r => (s.proceed r).moveTo t .leaving
  | .returnHandler t _ => s.moveTo t .leaving
  | .detach t => s.detach t
  | .proceed r => s.proceed r
  | .setStatus r status => s.setStatus r status
  | .reset r => s.resetStatus r

end System

def runnerSystem : ActionSystem System Action where
  enabled := System.Enabled
  next := System.step

instance (s : System) (action : Action) : Decidable (runnerSystem.enabled s action) :=
  inferInstanceAs (Decidable (s.Enabled action))

/-- How a handler returned by `ProceedHandler` is to be used: at most once for
each suspension, and only after the defer handler of that suspension has
begun. -/
def ProceedContract (s : System) : Action → Prop
  | .proceed r => (s.runners r).answer = .holders
  | _ => True

instance (s : System) (action : Action) : Decidable (ProceedContract s action) :=
  match action with
  | .proceed _ => inferInstanceAs (Decidable (_ = _))
  | .runAsync .. | .runAsyncHere .. | .currentScheduler .. | .dispatch .. | .enter ..
  | .handleEvents .. | .disableEvents .. | .enableEvents .. | .defer .. | .switchTo ..
  | .enterGuard .. | .enterAccess .. | .leaveScope .. | .raise .. | .catchException ..
  | .finish .. | .onExit .. | .callProceed .. | .returnHandler .. | .detach ..
  | .setStatus .. | .reset .. =>
      inferInstanceAs (Decidable True)

end FlatAsync
