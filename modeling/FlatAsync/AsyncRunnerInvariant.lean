import FlatAsync.AsyncRunner

/-!
# Invariants of the runner system

The step function of the runner system branches on the events a task finds and
on the scope objects it holds.  This file does that case analysis once: a
property closed under the elementary updates collected in `StepRules` is kept
by every step.
-/

namespace FlatAsync

/-- Two versions of a runner that differ at most in the status, the permission
of events and the scope objects of the body. -/
structure AsyncRunner.SameControl (runner old : AsyncRunner) : Prop where
  scheduler : runner.scheduler = old.scheduler
  unwinding : runner.unwinding = old.unwinding
  stage : runner.stage = old.stage
  coroHelper : runner.coroHelper = old.coroHelper
  deferHandler : runner.deferHandler = old.deferHandler
  answer : runner.answer = old.answer
  yields : runner.yields = old.yields
  resumes : runner.resumes = old.resumes

/-- The elementary updates of the runner system.  An invariant may lean on
`tolerates` to exclude failed switches at some call sites, and on `assumed` for
the steps after which control changes hands. -/
structure StepRules (tolerates : CallSite → Prop) (assumed : System → Action → Prop)
    (invariant : System → Prop) : Prop where
  setRunner : ∀ {s r runner}, invariant s →
    AsyncRunner.SameControl runner (s.runners r) → invariant (s.setRunner r runner)
  raise : ∀ {s t r}, invariant s → (s.threads t).pc = .body r → invariant (s.raise t r)
  catchException : ∀ {s t r}, invariant s → (s.threads t).pc = .body r →
    0 < (s.runners r).unwinding → invariant (s.catchException t r)
  terminate : ∀ {s}, invariant s → invariant { s with terminated := true }
  create : ∀ {s r}, invariant s → (s.runners r).stage = .unborn →
    ∀ scheduler, invariant (s.create r scheduler)
  onEnter : ∀ {s t closure}, invariant s → (s.threads t).pc = .idle →
    closure ∈ s.posted → assumed s (.dispatch t closure) → invariant (s.onEnter t closure)
  start : ∀ {s t r}, invariant s → (s.threads t).pc = .entered r .start →
    invariant (s.start t r)
  wake : ∀ {s t r site}, invariant s → (s.threads t).pc = .entered r .proceed →
    (s.runners r).coroHelper = .suspended site → invariant (s.wake t r)
  notSuspended : ∀ {s t r}, invariant s → (s.threads t).pc = .entered r .proceed →
    (∀ site, (s.runners r).coroHelper ≠ .suspended site) →
      invariant (s.moveTo t (.exiting r))
  yield : ∀ {s t r}, invariant s → (s.threads t).pc = .body r → assumed s (.defer t r) →
    invariant (s.yield t r .defer .callable)
  switchAway : ∀ {s t r site dst}, invariant s → (s.threads t).pc = .body r →
    site.target = some dst →
      invariant ((s.setScheduler r dst).yield t r site .proceedHandler)
  failedSwitch : ∀ {s t r site dst}, invariant s → (s.threads t).pc = .body r →
    tolerates site → invariant ((s.setScheduler r dst).escape t r site)
  finish : ∀ {s t r}, invariant s → (s.threads t).pc = .body r → assumed s (.finish t r) →
    invariant (s.finish t r)
  takeHandler : ∀ {s t r handler}, invariant s → (s.threads t).pc = .exiting r →
    (s.runners r).deferHandler = some handler → assumed s (.onExit t r) →
      invariant (s.takeHandler t r handler)
  delete : ∀ {s t r}, invariant s → (s.threads t).pc = .exiting r →
    (s.runners r).deferHandler = none → assumed s (.onExit t r) → invariant (s.delete t r)
  callProceed : ∀ {s t r}, invariant s →
    (s.threads t).pc = .deferring r .proceedHandler →
      invariant ((s.proceed r).moveTo t .leaving)
  returnHandler : ∀ {s t r}, invariant s →
    (s.threads t).pc = .deferring r .callable → invariant (s.moveTo t .leaving)
  detach : ∀ {s t}, invariant s → (s.threads t).pc = .leaving →
    invariant (s.detach t)
  proceed : ∀ {s r}, invariant s → (s.runners r).answer = .holders →
    assumed s (.proceed r) → invariant (s.proceed r)

theorem System.handleEvents_setScheduler (s : System) (t : ThreadId) (r : RunnerId)
    (dst : SchedulerId) : (s.setScheduler r dst).handleEvents t r = s.handleEvents t r := by
  simp [System.handleEvents, System.setScheduler]

/-- The call sites at which a step may find an event before it leaves the old
scheduler. -/
def Action.FailsAt (s : System) : Action → CallSite → Prop
  | .switchTo t r dst, site =>
      site = .switchTo dst ∧ dst ≠ (s.runners r).scheduler ∧ (s.handleEvents t r).isSome
  | .enterAccess t r dst, site =>
      site = .accessCtor (s.runners r).scheduler dst ∧
        dst ≠ (s.runners r).scheduler ∧ (s.handleEvents t r).isSome
  | .leaveScope .., site => ∃ source, site = .accessDtor source
  | _, _ => False

namespace StepRules

variable {tolerates : CallSite → Prop} {assumed : System → Action → Prop}
variable {invariant : System → Prop} (rules : StepRules tolerates assumed invariant)
variable {s : System} {t : ThreadId} {r : RunnerId}

include rules

theorem escape (holds : invariant s) (runs : (s.threads t).pc = .body r)
    (site : CallSite) : invariant (s.escape t r site) := by
  cases site with
  | defer | switchTo dst | accessCtor source dst => exact rules.raise holds runs
  | accessDtor source => exact rules.terminate holds

theorem returnFrom (holds : invariant s) (site : CallSite) :
    invariant (s.returnFrom r site) := by
  cases site with
  | defer | switchTo dst | accessDtor source => exact holds
  | accessCtor source dst => exact rules.setRunner holds (by constructor <;> rfl)

theorem afterYield (holds : invariant s) (runs : (s.threads t).pc = .body r)
    (site : CallSite) : invariant (s.afterYield t r site) := by
  unfold System.afterYield
  split
  · exact rules.escape holds runs site
  · exact rules.returnFrom holds site

theorem resume (holds : invariant s) (entered : (s.threads t).pc = .entered r .proceed) :
    invariant (s.resume t r) := by
  unfold System.resume
  split
  next site suspended =>
    exact rules.afterYield (rules.wake holds entered suspended) (by simp [System.wake]) site
  next running => exact rules.notSuspended holds entered running

theorem defer (holds : invariant s) (runs : (s.threads t).pc = .body r)
    (assumption : assumed s (.defer t r)) : invariant (s.defer t r .defer .callable) := by
  unfold System.defer
  split
  · exact rules.escape holds runs _
  · exact rules.yield holds runs assumption

theorem switchTo (holds : invariant s) (runs : (s.threads t).pc = .body r)
    {site : CallSite} {dst : SchedulerId} (target : site.target = some dst)
    (tolerated : dst ≠ (s.runners r).scheduler → (s.handleEvents t r).isSome →
      tolerates site) :
    invariant (s.switchTo t r site dst) := by
  unfold System.switchTo
  split
  · exact rules.returnFrom holds site
  next moves =>
    unfold System.defer
    rw [System.handleEvents_setScheduler]
    split
    next event => exact rules.failedSwitch holds runs (tolerated moves (by simp [event]))
    · exact rules.switchAway holds runs target

theorem disableEvents (holds : invariant s) (runs : (s.threads t).pc = .body r) :
    invariant (s.disableEvents t r) := by
  unfold System.disableEvents
  split
  · exact rules.raise holds runs
  · exact rules.setRunner holds (by constructor <;> rfl)

theorem allowEvents (holds : invariant s) : invariant (s.allowEvents r) :=
  rules.setRunner holds (by constructor <;> rfl)

theorem enableEvents (holds : invariant s) (runs : (s.threads t).pc = .body r) :
    invariant (s.enableEvents t r) := by
  unfold System.enableEvents
  split
  · exact rules.raise (rules.allowEvents holds) runs
  · exact rules.allowEvents holds

theorem makeGuard (holds : invariant s) (runs : (s.threads t).pc = .body r) :
    invariant (s.makeGuard t r) := by
  unfold System.makeGuard
  split
  · exact rules.raise holds runs
  · exact rules.setRunner holds (by constructor <;> rfl)

theorem destroyGuard (holds : invariant s) : invariant (s.destroyGuard t r) := by
  unfold System.destroyGuard
  split
  · exact rules.terminate (rules.allowEvents holds)
  · exact rules.allowEvents holds

theorem leaveScope (holds : invariant s) (runs : (s.threads t).pc = .body r)
    (tolerated : ∀ source, tolerates (.accessDtor source)) :
    invariant (s.leaveScope t r) := by
  unfold System.leaveScope
  split
  · exact holds
  · exact rules.destroyGuard (rules.setRunner holds (by constructor <;> rfl))
  next source scopes _ =>
    have popped : invariant (s.setRunner r { s.runners r with scopes := scopes }) :=
      rules.setRunner holds (by constructor <;> rfl)
    exact rules.switchTo popped runs rfl (fun _ _ => tolerated source)

theorem onExit (holds : invariant s) (exits : (s.threads t).pc = .exiting r)
    (assumption : assumed s (.onExit t r)) : invariant (s.onExit t r) := by
  unfold System.onExit
  split
  next handler stored => exact rules.takeHandler holds exits stored assumption
  next missing => exact rules.delete holds exits missing assumption

/-- A property closed under the elementary updates is kept by every step that
respects the use of proceed handlers, fails to switch only where the property
tolerates it and takes only closures it admits. -/
theorem step (holds : invariant s) {action : Action} (enabled : s.Enabled action)
    (contract : ProceedContract s action)
    (tolerated : ∀ site, action.FailsAt s site → tolerates site)
    (assumption : assumed s action) :
    invariant (s.step action) := by
  have guard := enabled.2
  cases action with
  | runAsync created scheduler => exact rules.create holds guard scheduler
  | runAsyncHere t created => exact rules.create holds guard.1 _
  | currentScheduler t => exact holds
  | dispatch t closure =>
      exact rules.onEnter holds guard.1 guard.2 assumption
  | enter t r kind =>
      cases kind with
      | start => exact rules.start holds guard
      | proceed => exact rules.resume holds guard
  | handleEvents t r =>
      simp only [System.step]
      split
      · exact rules.raise holds guard
      · exact holds
  | disableEvents t r => exact rules.disableEvents holds guard
  | enableEvents t r => exact rules.enableEvents holds guard
  | defer t r => exact rules.defer holds guard assumption
  | switchTo t r dst =>
      exact rules.switchTo holds guard rfl
        (fun moves event => tolerated _ ⟨rfl, moves, event⟩)
  | enterGuard t r => exact rules.makeGuard holds guard
  | enterAccess t r destination =>
      exact rules.switchTo holds guard rfl
        (fun moves event => tolerated _ ⟨rfl, moves, event⟩)
  | leaveScope t r =>
      exact rules.leaveScope holds guard.1 (fun source => tolerated _ ⟨source, rfl⟩)
  | raise t r => exact rules.raise holds guard
  | catchException t r => exact rules.catchException holds guard.1 guard.2
  | finish t r => exact rules.finish holds guard.1 assumption
  | onExit t r => exact rules.onExit holds guard assumption
  | callProceed t r => exact rules.callProceed holds guard
  | returnHandler t r => exact rules.returnHandler holds guard
  | detach t => exact rules.detach holds guard
  | proceed r => exact rules.proceed holds contract assumption
  | setStatus r status =>
      change invariant (s.setStatus r status)
      unfold System.setStatus
      split
      · exact rules.setRunner holds (by constructor <;> rfl)
      · exact holds
  | reset r => exact rules.setRunner holds (by constructor <;> rfl)

end StepRules

end FlatAsync
