import FlatAsync.RunnerFrames

/-!
# What a step can make of a runner

Every member function of a runner writes few of its fields.  This file says, once
for each piece of code, which record a step leaves behind; what the steps
preserve of a runner follows from it by cases.
-/

namespace FlatAsync

def Action.creates : Action → Option RunnerId
  | .runAsync created _ | .runAsyncHere _ created => some created
  | _ => none

def Action.maySuspend : Action → Bool
  | .defer .. | .switchTo .. | .enterAccess .. | .leaveScope .. => true
  | _ => false

/-! ### Calls of the library and the record of the runner -/

namespace AsyncRunner

def raised (runner : AsyncRunner) : AsyncRunner :=
  { runner with unwinding := runner.unwinding + 1 }

/-- An exception leaves the call `site`. -/
def escaped (runner : AsyncRunner) : CallSite → AsyncRunner
  | .defer | .switchTo _ | .accessCtor .. => runner.raised
  | .accessDtor _ => runner

/-- The call `site` returns. -/
def returned (runner : AsyncRunner) : CallSite → AsyncRunner
  | .accessCtor source _ => { runner with scopes := .access source :: runner.scopes }
  | .defer | .switchTo _ | .accessDtor _ => runner

/-- The coroutine yields in the call `site`. -/
def yielded (runner : AsyncRunner) (site : CallSite) (handler : DeferHandler) : AsyncRunner :=
  { runner with
    deferHandler := some handler
    coroHelper := .suspended site
    yields := runner.yields + 1 }

def woken (runner : AsyncRunner) : AsyncRunner :=
  { runner with coroHelper := .running, resumes := runner.resumes + 1 }

section Simp

variable {runner : AsyncRunner} {site : CallSite}

@[simp] theorem escaped_isEventsAllowed :
    (runner.escaped site).isEventsAllowed = runner.isEventsAllowed := by
  cases site <;> rfl

@[simp] theorem escaped_scheduler : (runner.escaped site).scheduler = runner.scheduler := by
  cases site <;> rfl

@[simp] theorem escaped_coroHelper : (runner.escaped site).coroHelper = runner.coroHelper := by
  cases site <;> rfl

@[simp] theorem escaped_scopes : (runner.escaped site).scopes = runner.scopes := by
  cases site <;> rfl

@[simp] theorem escaped_stage : (runner.escaped site).stage = runner.stage := by
  cases site <;> rfl

@[simp] theorem escaped_yields : (runner.escaped site).yields = runner.yields := by
  cases site <;> rfl

@[simp] theorem returned_isEventsAllowed :
    (runner.returned site).isEventsAllowed = runner.isEventsAllowed := by
  cases site <;> rfl

@[simp] theorem returned_scheduler : (runner.returned site).scheduler = runner.scheduler := by
  cases site <;> rfl

@[simp] theorem returned_coroHelper : (runner.returned site).coroHelper = runner.coroHelper := by
  cases site <;> rfl

@[simp] theorem returned_unwinding : (runner.returned site).unwinding = runner.unwinding := by
  cases site <;> rfl

@[simp] theorem returned_stage : (runner.returned site).stage = runner.stage := by
  cases site <;> rfl

@[simp] theorem returned_yields : (runner.returned site).yields = runner.yields := by
  cases site <;> rfl

end Simp

/-- Only the constructor of an access object leaves a new scope object. -/
theorem returned_scopes {runner : AsyncRunner} {site : CallSite} :
    (runner.returned site).scopes = runner.scopes ∨
      ∃ source dst, site = .accessCtor source dst ∧
        (runner.returned site).scopes = .access source :: runner.scopes := by
  cases site with
  | accessCtor source dst => exact .inr ⟨source, dst, rfl, rfl⟩
  | defer | switchTo | accessDtor => exact .inl rfl

/-- What `SwitchTo`, called in `site` with the destination `dst`, can make of a
runner. -/
inductive SwitchStep (old : AsyncRunner) (site : CallSite) (dst : SchedulerId) :
    AsyncRunner → Prop
  | stays (here : dst = old.scheduler) : SwitchStep old site dst (old.returned site)
  | throws (moves : dst ≠ old.scheduler) (allowed : old.isEventsAllowed = true) :
      SwitchStep old site dst (({ old with scheduler := dst } : AsyncRunner).escaped site)
  | yields (moves : dst ≠ old.scheduler) :
      SwitchStep old site dst
        (({ old with scheduler := dst } : AsyncRunner).yielded site .proceedHandler)

namespace SwitchStep

variable {old new : AsyncRunner} {site : CallSite} {dst : SchedulerId}

theorem stage (switch : SwitchStep old site dst new) : new.stage = old.stage := by
  cases switch <;> simp [yielded]

/-- A switch suspends the coroutine in its own call and for another scheduler
only. -/
theorem coroHelper (switch : SwitchStep old site dst new) :
    new.coroHelper = old.coroHelper ∨
      dst ≠ old.scheduler ∧ new.coroHelper = .suspended site := by
  cases switch with
  | stays here => exact .inl returned_coroHelper
  | throws moves allowed => exact .inl escaped_coroHelper
  | yields moves => exact .inr ⟨moves, rfl⟩

theorem isEventsAllowed (switch : SwitchStep old site dst new) :
    new.isEventsAllowed = old.isEventsAllowed := by
  cases switch <;> simp [yielded]

theorem scopes (switch : SwitchStep old site dst new) :
    new.scopes = old.scopes ∨
      ∃ source other, site = .accessCtor source other ∧
        new.scopes = .access source :: old.scopes := by
  cases switch with
  | stays here => exact returned_scopes
  | throws moves allowed => exact .inl escaped_scopes
  | yields moves => exact .inl rfl

theorem yields_le (switch : SwitchStep old site dst new) : old.yields ≤ new.yields := by
  cases switch <;> simp [yielded]

theorem unwinding (switch : SwitchStep old site dst new)
    (forbidden : old.isEventsAllowed = false) : new.unwinding = old.unwinding := by
  cases switch with
  | stays here => exact returned_unwinding
  | throws moves allowed => simp [forbidden] at allowed
  | yields moves => rfl

end SwitchStep

/-- What an action can make of runner `r`.  An event is thrown only where the
runner allows events. -/
inductive RunnerStep (r : RunnerId) (old : AsyncRunner) : Action → AsyncRunner → Prop
  | other {action : Action} (elsewhere : action.runner ≠ some r) : RunnerStep r old action old
  | created {action : Action} (scheduler : SchedulerId) (creates : action.creates = some r) :
      RunnerStep r old action { scheduler := scheduler, stage := .alive }
  | started (t : ThreadId) :
      RunnerStep r old (.enter t r .start) { old with coroHelper := .running }
  | notResumed (t : ThreadId) : RunnerStep r old (.enter t r .proceed) old
  | returns {site : CallSite} (t : ThreadId) (suspended : old.coroHelper = .suspended site) :
      RunnerStep r old (.enter t r .proceed) (old.woken.returned site)
  | escapes {site : CallSite} (t : ThreadId) (suspended : old.coroHelper = .suspended site)
      (allowed : old.isEventsAllowed = true) :
      RunnerStep r old (.enter t r .proceed) (old.woken.escaped site)
  | noEvent (t : ThreadId) : RunnerStep r old (.handleEvents t r) old
  | event (t : ThreadId) (allowed : old.isEventsAllowed = true) :
      RunnerStep r old (.handleEvents t r) old.raised
  | disabled (t : ThreadId) :
      RunnerStep r old (.disableEvents t r) { old with isEventsAllowed := false }
  | notDisabled (t : ThreadId) (allowed : old.isEventsAllowed = true) :
      RunnerStep r old (.disableEvents t r) old.raised
  | enabled (t : ThreadId) :
      RunnerStep r old (.enableEvents t r) { old with isEventsAllowed := true }
  | enabledThrows (t : ThreadId) :
      RunnerStep r old (.enableEvents t r)
        ({ old with isEventsAllowed := true } : AsyncRunner).raised
  | deferred (t : ThreadId) : RunnerStep r old (.defer t r) (old.yielded .defer .callable)
  | notDeferred (t : ThreadId) (allowed : old.isEventsAllowed = true) :
      RunnerStep r old (.defer t r) old.raised
  | switched {dst : SchedulerId} {new : AsyncRunner} (t : ThreadId)
      (switch : SwitchStep old (.switchTo dst) dst new) : RunnerStep r old (.switchTo t r dst) new
  | guarded (t : ThreadId) :
      RunnerStep r old (.enterGuard t r)
        { old with isEventsAllowed := false, scopes := .opStateGuard :: old.scopes }
  | notGuarded (t : ThreadId) (allowed : old.isEventsAllowed = true) :
      RunnerStep r old (.enterGuard t r) old.raised
  | accessed {dst : SchedulerId} {new : AsyncRunner} (t : ThreadId)
      (switch : SwitchStep old (.accessCtor old.scheduler dst) dst new) :
      RunnerStep r old (.enterAccess t r dst) new
  | noScope (t : ThreadId) (scopes : old.scopes = []) : RunnerStep r old (.leaveScope t r) old
  | leftGuard {outer : List Scope} (t : ThreadId) (scopes : old.scopes = .opStateGuard :: outer) :
      RunnerStep r old (.leaveScope t r) { old with isEventsAllowed := true, scopes := outer }
  | leftAccess {source : SchedulerId} {outer : List Scope} {new : AsyncRunner} (t : ThreadId)
      (scopes : old.scopes = .access source :: outer)
      (switch : SwitchStep { old with scopes := outer } (.accessDtor source) source new) :
      RunnerStep r old (.leaveScope t r) new
  | thrown (t : ThreadId) : RunnerStep r old (.raise t r) old.raised
  | caught (t : ThreadId) :
      RunnerStep r old (.catchException t r) { old with unwinding := old.unwinding - 1 }
  | finished (t : ThreadId) : RunnerStep r old (.finish t r) { old with coroHelper := .finished }
  | handlerTaken {handler : DeferHandler} (t : ThreadId)
      (stored : old.deferHandler = some handler) :
      RunnerStep r old (.onExit t r) { old with deferHandler := none, answer := handler.answer }
  | deleted (t : ThreadId) (missing : old.deferHandler = none) :
      RunnerStep r old (.onExit t r) { old with stage := .deleted }
  | handlerProceeds (t : ThreadId) :
      RunnerStep r old (.callProceed t r) { old with answer := .nobody }
  | proceeds : RunnerStep r old (.proceed r) { old with answer := .nobody }
  | statusSet (status : AsyncOpStatus) :
      RunnerStep r old (.setStatus r status) { old with opState := status }
  | statusKept (status : AsyncOpStatus) : RunnerStep r old (.setStatus r status) old
  | reset : RunnerStep r old (.reset r) { old with opState := .normal }

/-- Where events are forbidden and remain so, the library throws nothing in the
body. -/
theorem RunnerStep.unwinding_le {r : RunnerId} {old new : AsyncRunner} {action : Action}
    (step : RunnerStep r old action new) (forbidden : old.isEventsAllowed = false)
    (enables : ∀ t, action ≠ .enableEvents t r) (raises : ∀ t, action ≠ .raise t r) :
    new.unwinding ≤ old.unwinding := by
  cases step with
  | event t allowed | notDisabled t allowed | notDeferred t allowed | notGuarded t allowed
  | escapes t suspended allowed => simp [forbidden] at allowed
  | enabledThrows t => exact absurd rfl (enables t)
  | thrown t => exact absurd rfl (raises t)
  | switched t switch | accessed t switch | leftAccess t scopes switch =>
      exact Nat.le_of_eq (switch.unwinding forbidden)
  | returns t suspended => exact Nat.le_of_eq returned_unwinding
  | created scheduler creates => exact Nat.zero_le _
  | caught t => exact Nat.sub_le _ _
  | _ => exact Nat.le_refl _

theorem RunnerStep.stage_ne_unborn {r : RunnerId} {old new : AsyncRunner} {action : Action}
    (step : RunnerStep r old action new) (born : old.stage ≠ .unborn) :
    new.stage ≠ .unborn := by
  cases step with
  | created | deleted => exact Stage.noConfusion
  | returns t suspended => simpa [woken] using born
  | escapes t suspended allowed => simpa [woken] using born
  | switched t switch | accessed t switch | leftAccess t scopes switch =>
      rw [switch.stage]
      exact born
  | _ => exact born

theorem RunnerStep.yields_le {r : RunnerId} {old new : AsyncRunner} {action : Action}
    (step : RunnerStep r old action new) (kept : action.creates ≠ some r) :
    old.yields ≤ new.yields := by
  cases step with
  | created scheduler creates => exact absurd creates kept
  | returns t suspended => simp [woken]
  | escapes t suspended allowed => simp [woken]
  | switched t switch | accessed t switch | leftAccess t scopes switch =>
      exact switch.yields_le
  | deferred t => exact Nat.le_succ _
  | _ => exact Nat.le_refl _

theorem RunnerStep.yields_eq {r : RunnerId} {old new : AsyncRunner} {action : Action}
    (step : RunnerStep r old action new) (kept : action.creates ≠ some r)
    (calm : action.maySuspend = false) : new.yields = old.yields := by
  cases step with
  | created scheduler creates => exact absurd creates kept
  | returns t suspended => simp [woken]
  | escapes t suspended allowed => simp [woken]
  | deferred | switched | accessed | leftAccess => cases calm
  | _ => rfl

/-- A runner changes its scheduler in a `SwitchTo` only. -/
theorem RunnerStep.scheduler_eq {r : RunnerId} {old new : AsyncRunner} {action : Action}
    (step : RunnerStep r old action new) (kept : action.creates ≠ some r)
    (switches : ∀ t dst, action ≠ .switchTo t r dst)
    (accesses : ∀ t dst, action ≠ .enterAccess t r dst)
    (leaves : ∀ t, action ≠ .leaveScope t r) : new.scheduler = old.scheduler := by
  cases step with
  | created scheduler creates => exact absurd creates kept
  | returns t suspended => simp [woken]
  | escapes t suspended allowed => simp [woken]
  | switched t switch => exact absurd rfl (switches t _)
  | accessed t switch => exact absurd rfl (accesses t _)
  | noScope t | leftGuard t | leftAccess t => exact absurd rfl (leaves t)
  | _ => rfl

end AsyncRunner

namespace System

variable {s : System} {t : ThreadId} {r : RunnerId} {site : CallSite}

theorem allowed_of_event {status : AsyncOpStatus} (event : s.handleEvents t r = some status) :
    (s.runners r).isEventsAllowed = true := by
  have pending : s.EventPending t r := handleEvents_isSome.mp (by simp [event])
  exact pending.1

theorem raise_runner : (s.raise t r).runners r = (s.runners r).raised := by
  simp [System.raise, AsyncRunner.raised]

private theorem escape_runner : (s.escape t r site).runners r = (s.runners r).escaped site := by
  cases site with
  | defer | switchTo dst | accessCtor source dst => exact raise_runner
  | accessDtor source => rfl

private theorem returnFrom_runner :
    (s.returnFrom r site).runners r = (s.runners r).returned site := by
  cases site with
  | defer | switchTo dst | accessDtor source => rfl
  | accessCtor source dst => simp [returnFrom, AsyncRunner.returned]

private theorem defer_runner {handler : DeferHandler} :
    (s.runners r).isEventsAllowed = true ∧
        (s.defer t r site handler).runners r = (s.runners r).escaped site ∨
      (s.defer t r site handler).runners r = (s.runners r).yielded site handler := by
  unfold defer
  split
  next status event => exact .inl ⟨allowed_of_event event, escape_runner⟩
  next => exact .inr (by simp [yield, AsyncRunner.yielded])

theorem switchTo_runner {dst : SchedulerId} {old : AsyncRunner} (record : s.runners r = old) :
    old.SwitchStep site dst ((s.switchTo t r site dst).runners r) := by
  subst record
  unfold switchTo
  split
  next here =>
    rw [returnFrom_runner]
    exact .stays here
  next moves =>
    have moved : (s.setScheduler r dst).runners r = { s.runners r with scheduler := dst } := by
      simp [setScheduler]
    rcases defer_runner with ⟨allowed, throws⟩ | yields
    · rw [moved] at allowed
      rw [throws, moved]
      exact .throws moves allowed
    · rw [yields, moved]
      exact .yields moves

private theorem resume_runner :
    AsyncRunner.RunnerStep r (s.runners r) (.enter t r .proceed) ((s.resume t r).runners r) := by
  unfold resume
  split
  next site suspended =>
    have woken : (s.wake t r).runners r = (s.runners r).woken := by
      simp [wake, AsyncRunner.woken]
    unfold afterYield
    split
    next status event =>
      have allowed := allowed_of_event event
      rw [woken] at allowed
      rw [escape_runner, woken]
      exact .escapes t suspended allowed
    next =>
      rw [returnFrom_runner, woken]
      exact .returns t suspended
  · exact .notResumed t

private theorem leaveScope_runner :
    AsyncRunner.RunnerStep r (s.runners r) (.leaveScope t r) ((s.leaveScope t r).runners r) := by
  unfold leaveScope
  split
  next scopes => exact .noScope t scopes
  next outer scopes =>
    have allowed : ((s.setRunner r { s.runners r with scopes := outer }).destroyGuard t r).runners
        r = { s.runners r with isEventsAllowed := true, scopes := outer } := by
      unfold destroyGuard
      split <;> simp [allowEvents]
    rw [allowed]
    exact .leftGuard t scopes
  next source outer scopes =>
    apply AsyncRunner.RunnerStep.leftAccess t scopes
    exact switchTo_runner (by simp)

theorem step_runner (s : System) (action : Action) (r : RunnerId) :
    (s.runners r).RunnerStep r action ((s.step action).runners r) := by
  by_cases own : action.runner = some r
  · cases action with
    | currentScheduler | dispatch | returnHandler | detach => cases own
    | runAsync created scheduler =>
        obtain rfl := Option.some.inj own
        simpa [step, create, schedule] using .created scheduler rfl
    | runAsyncHere t created =>
        obtain rfl := Option.some.inj own
        simpa [step, create, schedule] using .created (s.currentScheduler t) rfl
    | enter t q kind =>
        obtain rfl := Option.some.inj own
        cases kind with
        | start => simpa [step, start] using .started t
        | proceed => exact resume_runner
    | handleEvents t q =>
        obtain rfl := Option.some.inj own
        simp only [step]
        split
        next status event =>
          rw [raise_runner]
          exact .event t (allowed_of_event event)
        next => exact .noEvent t
    | disableEvents t q =>
        obtain rfl := Option.some.inj own
        simp only [step, disableEvents]
        split
        next status event =>
          rw [raise_runner]
          exact .notDisabled t (allowed_of_event event)
        next => simpa using .disabled t
    | enableEvents t q =>
        obtain rfl := Option.some.inj own
        have allowed : (s.allowEvents q).runners q =
            { s.runners q with isEventsAllowed := true } := by
          simp [allowEvents]
        simp only [step, enableEvents]
        split
        · rw [raise_runner, allowed]
          exact .enabledThrows t
        · rw [allowed]
          exact .enabled t
    | defer t q =>
        obtain rfl := Option.some.inj own
        rcases defer_runner with ⟨allowed, throws⟩ | yields
        · rw [step, throws]
          exact .notDeferred t allowed
        · rw [step, yields]
          exact .deferred t
    | switchTo t q dst =>
        obtain rfl := Option.some.inj own
        exact .switched t (switchTo_runner rfl)
    | enterGuard t q =>
        obtain rfl := Option.some.inj own
        simp only [step, makeGuard]
        split
        next status event =>
          rw [raise_runner]
          exact .notGuarded t (allowed_of_event event)
        next => simpa using .guarded t
    | enterAccess t q dst =>
        obtain rfl := Option.some.inj own
        exact .accessed t (switchTo_runner rfl)
    | leaveScope t q =>
        obtain rfl := Option.some.inj own
        exact leaveScope_runner
    | raise t q =>
        obtain rfl := Option.some.inj own
        rw [step, raise_runner]
        exact .thrown t
    | catchException t q =>
        obtain rfl := Option.some.inj own
        simpa [step, System.catchException] using .caught t
    | finish t q =>
        obtain rfl := Option.some.inj own
        simpa [step, System.finish] using .finished t
    | onExit t q =>
        obtain rfl := Option.some.inj own
        simp only [step, onExit]
        split
        next handler stored => simpa [takeHandler] using .handlerTaken t stored
        next missing => simpa [delete] using .deleted t missing
    | callProceed t q =>
        obtain rfl := Option.some.inj own
        simpa [step, System.proceed, schedule] using .handlerProceeds t
    | proceed q =>
        obtain rfl := Option.some.inj own
        simpa [step, System.proceed, schedule] using .proceeds
    | setStatus q status =>
        obtain rfl := Option.some.inj own
        simp only [step, setStatus]
        split
        · simpa using .statusSet status
        · exact .statusKept status
    | reset q =>
        obtain rfl := Option.some.inj own
        simpa [step, resetStatus] using .reset
  · rw [step_runners s own]
    exact .other own

theorem unborn_of_creates {action : Action} (guard : s.Guard action)
    (creates : action.creates = some r) : (s.runners r).stage = .unborn := by
  cases action with
  | runAsync q dst =>
      obtain rfl := Option.some.inj creates
      exact guard
  | runAsyncHere t q =>
      obtain rfl := Option.some.inj creates
      exact guard.1
  | _ => cases creates

theorem runner_of_creates (s : System) {action : Action} (creates : action.creates = some r) :
    ∃ scheduler, (s.step action).runners r = { scheduler := scheduler, stage := .alive } := by
  cases action with
  | runAsync q dst =>
      obtain rfl := Option.some.inj creates
      exact ⟨dst, by simp [step, create, schedule]⟩
  | runAsyncHere t q =>
      obtain rfl := Option.some.inj creates
      exact ⟨s.currentScheduler t, by simp [step, create, schedule]⟩
  | _ => cases creates

/-- What an action can make of the coroutine of runner `r`. -/
inductive CoroStep (r : RunnerId) (action : Action) : CoroHelper → CoroHelper → Prop
  | kept (coro : CoroHelper) (notStart : ∀ t, action ≠ .enter t r .start)
      (notFinish : ∀ t, action ≠ .finish t r) : CoroStep r action coro coro
  | started (t : ThreadId) (starts : action = .enter t r .start) :
      CoroStep r action .empty .running
  | resumed (t : ThreadId) (site : CallSite) (resumes : action = .enter t r .proceed) :
      CoroStep r action (.suspended site) .running
  | yielded (site : CallSite) (notStart : ∀ t, action ≠ .enter t r .start)
      (notFinish : ∀ t, action ≠ .finish t r) : CoroStep r action .running (.suspended site)
  | finished (t : ThreadId) (finishes : action = .finish t r) :
      CoroStep r action .running .finished

/-- A coroutine is started by the first closure of its runner, suspended by its body
and finished with it. -/
theorem step_coroHelper (phases : AllPhases s) {action : Action} (guard : s.Guard action)
    (born : (s.runners r).stage ≠ .unborn) :
    CoroStep r action (s.runners r).coroHelper ((s.step action).runners r).coroHelper := by
  have change := s.step_runner action r
  generalize (s.step action).runners r = new at change ⊢
  cases change with
  | other elsewhere =>
      apply CoroStep.kept
      · rintro t rfl
        exact elsewhere rfl
      · rintro t rfl
        exact elsewhere rfl
  | created scheduler creates => exact absurd (unborn_of_creates guard creates) born
  | started t =>
      rw [phases.empty_of_entered guard]
      exact .started t rfl
  | returns t suspended =>
      rw [suspended, AsyncRunner.returned_coroHelper]
      exact .resumed t _ rfl
  | escapes t suspended allowed =>
      rw [suspended, AsyncRunner.escaped_coroHelper]
      exact .resumed t _ rfl
  | deferred t =>
      rw [running_of_body phases guard]
      exact .yielded .defer (by simp) (by simp)
  | switched t switch | accessed t switch =>
      have running := running_of_body phases guard
      rcases switch.coroHelper with kept | ⟨-, suspended⟩
      · rw [kept]
        exact .kept _ (by simp) (by simp)
      · rw [running, suspended]
        exact .yielded _ (by simp) (by simp)
  | leftAccess t scopes switch =>
      have running := running_of_body phases guard.1
      rcases switch.coroHelper with kept | ⟨-, suspended⟩
      · rw [kept]
        exact .kept _ (by simp) (by simp)
      · rw [running, suspended]
        exact .yielded _ (by simp) (by simp)
  | finished t =>
      rw [running_of_body phases guard.1]
      exact .finished t rfl
  | _ => exact .kept _ (by simp) (by simp)

/-- A coroutine is started where a thread enters its runner for the first time, and
nowhere else. -/
theorem step_started (phases : AllPhases s) {action : Action} (guard : s.Guard action)
    (born : (s.runners r).stage ≠ .unborn) :
    ((s.step action).runners r).coroHelper ≠ .empty ↔
      (s.runners r).coroHelper ≠ .empty ∨ ∃ t, action = .enter t r .start := by
  have change := s.step_coroHelper phases guard born
  generalize (s.runners r).coroHelper = old at change ⊢
  generalize ((s.step action).runners r).coroHelper = new at change ⊢
  cases change with
  | kept coro notStart notFinish => simp [notStart]
  | started t starts => simp [starts]
  | resumed | yielded | finished => simp

theorem step_finished (phases : AllPhases s) {action : Action} (guard : s.Guard action)
    (born : (s.runners r).stage ≠ .unborn) :
    ((s.step action).runners r).coroHelper = .finished ↔
      (s.runners r).coroHelper = .finished ∨ ∃ t, action = .finish t r := by
  have change := s.step_coroHelper phases guard born
  generalize (s.runners r).coroHelper = old at change ⊢
  generalize ((s.step action).runners r).coroHelper = new at change ⊢
  cases change with
  | kept _ notStart notFinish | yielded _ notStart notFinish => simp [notFinish]
  | started t starts => simp [starts]
  | resumed t site resumes => simp [resumes]
  | finished t finishes => simp [finishes]

end System

end FlatAsync
