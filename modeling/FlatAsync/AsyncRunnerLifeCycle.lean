import FlatAsync.AsyncRunnerInvariant
import Mathlib.Data.List.Basic

/-!
# The life cycle of a runner

At every moment exactly one party may move a runner: a closure in some queue,
one thread, the defer handler of `SwitchTo`, or the holders of its proceed
handler.  This file states that as an invariant of each runner's *view* (the
runner, the closures posted for it, the part each thread plays for it) and
shows that every step keeps it, as long as proceed handlers are used once for
each suspension.
-/

namespace FlatAsync

/-! ### Views -/

/-- The part a thread plays for a runner whose next move is up to it. -/
inductive Role
  | entered (kind : ClosureKind)
  | body
  | exiting
  | switching
  deriving DecidableEq, Repr

def Pc.role (pc : Pc) (r : RunnerId) : Option Role :=
  match pc with
  | .entered runner kind => if runner = r then some (.entered kind) else none
  | .body runner => if runner = r then some .body else none
  | .exiting runner => if runner = r then some .exiting else none
  | .deferring runner .proceedHandler =>
      if runner = r then some .switching else none
  | .idle | .deferring _ .callable | .leaving => none

theorem Pc.role_of_ne {pc : Pc} {r other : RunnerId} {role : Role}
    (plays : pc.role r = some role) (different : other ≠ r) :
    pc.role other = none := by
  cases pc with
  | idle | leaving => rfl
  | entered runner kind | body runner | exiting runner =>
      have same : runner = r := by
        by_contra distinct
        simp [Pc.role, distinct] at plays
      simp [Pc.role, same, Ne.symm different]
  | deferring runner handler =>
      cases handler with
      | callable => rfl
      | proceedHandler =>
          have same : runner = r := by
            by_contra distinct
            simp [Pc.role, distinct] at plays
          simp [Pc.role, same, Ne.symm different]

theorem Pc.body_of_role {pc : Pc} {r : RunnerId} (plays : pc.role r = some .body) :
    pc = .body r := by
  cases pc with
  | body runner =>
      have same : runner = r := by
        by_contra distinct
        simp [Pc.role, distinct] at plays
      rw [same]
  | idle | leaving => cases plays
  | entered runner kind | exiting runner => simp [Pc.role] at plays
  | deferring runner handler => cases handler <;> simp [Pc.role] at plays

structure View where
  runner : AsyncRunner
  closures : List Closure
  roles : ThreadId → Option Role

namespace System

def view (s : System) (r : RunnerId) : View where
  runner := s.runners r
  closures := s.posted.filter (·.runner = r)
  roles := fun t => (s.threads t).pc.role r

variable (s : System) (r other : RunnerId) (t : ThreadId)

theorem view_setRunner_self (runner : AsyncRunner) :
    (s.setRunner r runner).view r = { s.view r with runner := runner } := by
  simp [view]

theorem view_setRunner_of_ne (runner : AsyncRunner) (different : other ≠ r) :
    (s.setRunner r runner).view other = s.view other := by
  simp [view, different]

private theorem view_setThread (thread : Thread) :
    (s.setThread t thread).view r =
      { s.view r with
        roles := Function.update (s.view r).roles t (thread.pc.role r) } := by
  simp only [view, setThread_runners, setThread_posted, setThread_threads, View.mk.injEq,
    true_and]
  funext other
  by_cases same : other = t
  · subst other; simp
  · simp [same]

private theorem view_moveTo (pc : Pc) :
    (s.moveTo t pc).view r =
      { s.view r with roles := Function.update (s.view r).roles t (pc.role r) } :=
  s.view_setThread r t _

/-- A thread that keeps its role for a runner leaves the view of it alone. -/
theorem view_setThread_of_role (thread : Thread)
    (sameRole : thread.pc.role r = (s.threads t).pc.role r) :
    (s.setThread t thread).view r = s.view r := by
  rw [view_setThread, sameRole]
  have unchanged : (s.threads t).pc.role r = (s.view r).roles t := rfl
  rw [unchanged, Function.update_eq_self]

theorem view_schedule_self (kind : ClosureKind) :
    (s.schedule r kind).view r =
      { s.view r with
        closures := (s.view r).closures ++ [⟨kind, r, (s.runners r).scheduler⟩] } := by
  simp [view, schedule]

theorem view_schedule_of_ne (kind : ClosureKind) (different : other ≠ r) :
    (s.schedule r kind).view other = s.view other := by
  simp [view, schedule, Ne.symm different]

end System

theorem filter_erase_of_not {α : Type*} [DecidableEq α] (keep : α → Bool)
    {removed : α} (drops : keep removed = false) (items : List α) :
    (items.erase removed).filter keep = items.filter keep := by
  induction items with
  | nil => rfl
  | cons item items ih =>
      by_cases same : item = removed
      · subst same
        simp [drops]
      · rw [List.erase_cons_tail (by simpa using same), List.filter_cons, List.filter_cons, ih]

private theorem filter_erase_of_singleton {α : Type*} [DecidableEq α] (keep : α → Bool)
    {removed : α} {items : List α} (only : items.filter keep = [removed]) :
    (items.erase removed).filter keep = [] := by
  have kept : removed ∈ items.filter keep := by simp [only]
  have present := (List.mem_filter.mp kept).1
  have split := (List.perm_cons_erase present).filter keep
  rw [only, List.filter_cons_of_pos (List.mem_filter.mp kept).2] at split
  have sameLength := split.length_eq
  simpa using sameLength

namespace System

private theorem view_onEnter_of_ne (s : System) (t : ThreadId) (closure : Closure)
    {other : RunnerId} (different : other ≠ closure.runner)
    (idle : (s.threads t).pc = .idle) :
    (s.onEnter t closure).view other = s.view other := by
  have posted : ((s.posted.erase closure).filter (·.runner = other)) =
      s.posted.filter (·.runner = other) :=
    filter_erase_of_not _ (by simpa using Ne.symm different) _
  simp only [view, onEnter, setThread_runners, setThread_threads, posted, View.mk.injEq,
    true_and]
  funext thread
  by_cases same : thread = t
  · subst thread; simp [Pc.role, idle, Ne.symm different]
  · simp [same]

private theorem view_onEnter_self (s : System) (t : ThreadId) (closure : Closure)
    (only : (s.view closure.runner).closures = [closure]) :
    (s.onEnter t closure).view closure.runner =
      { s.view closure.runner with
        closures := []
        roles := Function.update (s.view closure.runner).roles t
          (some (.entered closure.kind)) } := by
  have posted :=
    filter_erase_of_singleton (fun c : Closure => decide (c.runner = closure.runner)) only
  simp only [view, onEnter, setThread_runners, setThread_threads, posted, View.mk.injEq,
    true_and]
  funext thread
  by_cases same : thread = t
  · subst thread; simp [Pc.role]
  · simp [same]

end System

/-! ### Phases -/

/-- The state of a runner whose next move is up to a thread with this role. -/
def Role.Fits : Role → AsyncRunner → Prop
  | .entered .start, runner =>
      runner.coroHelper = .empty ∧ runner.deferHandler = none ∧
        runner.answer = .nobody ∧ runner.yields = runner.resumes
  | .entered .proceed, runner =>
      (∃ site, runner.coroHelper = .suspended site) ∧ runner.deferHandler = none ∧
        runner.answer = .nobody ∧ runner.yields = runner.resumes + 1
  | .body, runner =>
      runner.coroHelper = .running ∧ runner.deferHandler = none ∧
        runner.answer = .nobody ∧ runner.yields = runner.resumes
  | .exiting, runner =>
      runner.answer = .nobody ∧
        (((∃ site, runner.coroHelper = .suspended site) ∧
            runner.deferHandler.isSome ∧ runner.yields = runner.resumes + 1) ∨
          (runner.coroHelper = .finished ∧ runner.deferHandler = none ∧
            runner.yields = runner.resumes))
  | .switching, runner =>
      (∃ site, runner.coroHelper = .suspended site) ∧ runner.deferHandler = none ∧
        runner.answer = .deferHandler ∧ runner.yields = runner.resumes + 1

/-- Two versions of a runner that differ at most in the status, the scheduler
and the stack of the body, on which no phase depends. -/
structure AsyncRunner.SameLife (runner old : AsyncRunner) : Prop where
  stage : runner.stage = old.stage
  coroHelper : runner.coroHelper = old.coroHelper
  deferHandler : runner.deferHandler = old.deferHandler
  answer : runner.answer = old.answer
  yields : runner.yields = old.yields
  resumes : runner.resumes = old.resumes

/-- The phases of a life: not created; waiting in a queue; in the hands of one
thread; suspended until a holder of its proceed handler calls it; deleted. -/
inductive Phase (r : RunnerId) : View → Prop
  | unborn (runner : AsyncRunner) (stage : runner.stage = .unborn)
      (answer : runner.answer = .nobody) (count : runner.yields = runner.resumes) :
      Phase r ⟨runner, [], fun _ => none⟩
  | posted (runner : AsyncRunner) (kind : ClosureKind) (scheduler : SchedulerId)
      (stage : runner.stage = .alive) (fits : (Role.entered kind).Fits runner) :
      Phase r ⟨runner, [⟨kind, r, scheduler⟩], fun _ => none⟩
  | held (runner : AsyncRunner) (t : ThreadId) (role : Role)
      (stage : runner.stage = .alive) (fits : role.Fits runner) :
      Phase r ⟨runner, [], Function.update (fun _ => none) t (some role)⟩
  | parked (runner : AsyncRunner) (stage : runner.stage = .alive)
      (suspended : ∃ site, runner.coroHelper = .suspended site)
      (taken : runner.deferHandler = none) (answer : runner.answer = .holders)
      (count : runner.yields = runner.resumes + 1) : Phase r ⟨runner, [], fun _ => none⟩
  | deleted (runner : AsyncRunner) (stage : runner.stage = .deleted)
      (ended : runner.coroHelper = .finished) (answer : runner.answer = .nobody)
      (count : runner.yields = runner.resumes) : Phase r ⟨runner, [], fun _ => none⟩

namespace Phase

variable {r : RunnerId} {view : View}

theorem held_of_role {t : ThreadId} {role : Role} (phase : Phase r view)
    (plays : view.roles t = some role) :
    view = ⟨view.runner, [], Function.update (fun _ => none) t (some role)⟩ ∧
      view.runner.stage = .alive ∧ role.Fits view.runner := by
  cases phase with
  | held runner thread other stage fits =>
      by_cases same : t = thread
      · subst same
        have roleEq : other = role := by simpa using plays
        subst roleEq
        exact ⟨rfl, stage, fits⟩
      · simp [same] at plays
  | unborn | posted | parked | deleted => simp at plays

theorem posted_of_mem {closure : Closure} (phase : Phase r view)
    (waiting : closure ∈ view.closures) :
    view = ⟨view.runner, [closure], fun _ => none⟩ ∧
      view.runner.stage = .alive ∧ (Role.entered closure.kind).Fits view.runner := by
  cases phase with
  | posted runner kind scheduler stage fits =>
      have same : closure = ⟨kind, r, scheduler⟩ := by simpa using waiting
      subst same
      exact ⟨rfl, stage, fits⟩
  | unborn | held | parked | deleted => simp at waiting

theorem parked_of_answer (phase : Phase r view)
    (unanswered : view.runner.answer = .holders) :
    view = ⟨view.runner, [], fun _ => none⟩ ∧ view.runner.stage = .alive ∧
      (∃ site, view.runner.coroHelper = .suspended site) ∧
      view.runner.deferHandler = none ∧
      view.runner.yields = view.runner.resumes + 1 := by
  cases phase with
  | parked runner stage suspended taken answer count =>
      exact ⟨rfl, stage, suspended, taken, count⟩
  | unborn runner stage answer count => simp [answer] at unanswered
  | deleted runner stage ended answer count => simp [answer] at unanswered
  | posted runner kind scheduler stage fits =>
      cases kind <;> simp [Role.Fits] at fits unanswered <;> simp [fits] at unanswered
  | held runner t role stage fits =>
      cases role with
      | entered kind =>
          cases kind <;> simp [Role.Fits] at fits unanswered <;> simp [fits] at unanswered
      | body | exiting | switching =>
          simp only [Role.Fits] at fits
          simp [fits] at unanswered

private theorem unborn_of_stage (phase : Phase r view)
    (stage : view.runner.stage = .unborn) :
    view = ⟨view.runner, [], fun _ => none⟩ ∧ view.runner.answer = .nobody := by
  cases phase with
  | unborn runner stage answer count => exact ⟨rfl, answer⟩
  | posted runner kind scheduler alive | held runner t role alive
  | parked runner alive | deleted runner alive => simp [alive] at stage

theorem role_of_running (phase : Phase r view) (born : view.runner.stage ≠ .unborn)
    (running : view.runner.coroHelper = .running) : ∃ t, view.roles t = some .body := by
  have awake (suspended : ∃ site, view.runner.coroHelper = .suspended site) : False := by
    obtain ⟨site, suspended⟩ := suspended
    simp [suspended] at running
  cases phase with
  | unborn runner stage answer count => exact absurd stage born
  | posted runner kind scheduler stage fits =>
      cases kind with
      | start => simp [fits.1] at running
      | proceed => exact (awake fits.1).elim
  | held runner t role stage fits =>
      cases role with
      | body => exact ⟨t, by simp⟩
      | entered kind =>
          cases kind with
          | start => simp [fits.1] at running
          | proceed => exact (awake fits.1).elim
      | exiting =>
          rcases fits.2 with ⟨suspended, -⟩ | ⟨ended, -⟩
          · exact (awake suspended).elim
          · simp [ended] at running
      | switching => exact (awake fits.1).elim
  | parked runner stage suspended taken answer count => exact (awake suspended).elim
  | deleted runner stage ended answer count => simp [ended] at running

theorem yields_of_suspended (phase : Phase r view) (born : view.runner.stage ≠ .unborn)
    {site : CallSite} (suspended : view.runner.coroHelper = .suspended site) :
    0 < view.runner.yields := by
  cases phase with
  | unborn runner stage answer count => exact absurd stage born
  | posted runner kind scheduler stage fits =>
      cases kind with
      | start => simp [fits.1] at suspended
      | proceed => exact fits.2.2.2 ▸ Nat.succ_pos _
  | held runner t role stage fits =>
      cases role with
      | body => simp [fits.1] at suspended
      | entered kind =>
          cases kind with
          | start => simp [fits.1] at suspended
          | proceed => exact fits.2.2.2 ▸ Nat.succ_pos _
      | exiting =>
          rcases fits.2 with ⟨-, -, count⟩ | ⟨ended, -⟩
          · exact count ▸ Nat.succ_pos _
          · simp [ended] at suspended
      | switching => exact fits.2.2.2 ▸ Nat.succ_pos _
  | parked runner stage stopped taken answer count => exact count ▸ Nat.succ_pos _
  | deleted runner stage ended answer count => simp [ended] at suspended

/-- A task that was created, and for which nothing is left to do, is over. -/
theorem finished_of_settled (phase : Phase r view) (born : view.runner.stage ≠ .unborn)
    (unposted : view.closures = []) (unheld : ∀ t, view.roles t = none)
    (unparked : view.runner.answer ≠ .holders) : view.runner.coroHelper = .finished := by
  cases phase with
  | unborn runner stage answer count => exact absurd stage born
  | posted runner kind scheduler stage fits => simp at unposted
  | held runner t role stage fits => simpa using unheld t
  | parked runner stage suspended taken answer count => exact absurd answer unparked
  | deleted runner stage ended answer count => exact ended

private theorem congr_runner (phase : Phase r view) {runner : AsyncRunner}
    (same : runner.SameLife view.runner) : Phase r { view with runner := runner } := by
  have fitsCongr : ∀ role : Role, role.Fits view.runner → role.Fits runner := by
    intro role fits
    cases role with
    | entered kind =>
        cases kind <;>
          simpa only [Role.Fits, same.coroHelper, same.deferHandler, same.answer, same.yields,
            same.resumes] using fits
    | body | exiting | switching =>
        simpa only [Role.Fits, same.coroHelper, same.deferHandler, same.answer, same.yields,
          same.resumes] using fits
  cases phase with
  | unborn old stage answer count =>
      exact .unborn runner (same.stage.trans stage) (same.answer.trans answer)
        (by simpa only [same.yields, same.resumes] using count)
  | posted old kind scheduler stage fits =>
      exact .posted runner kind scheduler (same.stage.trans stage) (fitsCongr _ fits)
  | held old t role stage fits =>
      exact .held runner t role (same.stage.trans stage) (fitsCongr _ fits)
  | parked old stage suspended taken answer count =>
      exact .parked runner (same.stage.trans stage)
        (by simpa only [same.coroHelper] using suspended)
        (same.deferHandler.trans taken) (same.answer.trans answer)
        (by simpa only [same.yields, same.resumes] using count)
  | deleted old stage ended answer count =>
      exact .deleted runner (same.stage.trans stage) (same.coroHelper.trans ended)
        (same.answer.trans answer) (by simpa only [same.yields, same.resumes] using count)

end Phase

/-! ### Steps -/

def AllPhases (s : System) : Prop :=
  ∀ r, Phase r (s.view r)

namespace AllPhases

variable {s : System} {t : ThreadId} {r : RunnerId} {role : Role}

theorem setRunner (phases : AllPhases s) (runner : AsyncRunner)
    (same : runner.SameLife (s.runners r)) : AllPhases (s.setRunner r runner) := by
  intro other
  by_cases equal : other = r
  · subst other
    rw [System.view_setRunner_self]
    exact (phases r).congr_runner same
  · rw [System.view_setRunner_of_ne _ _ _ _ equal]
    exact phases other

/-- The thread that holds a runner moves on, whatever the phase it leaves the
runner in. -/
theorem move (phases : AllPhases s) (plays : (s.threads t).pc.role r = some role)
    {runner : AsyncRunner} {pc : Pc}
    (leaves : ∀ other, other ≠ r → pc.role other = none)
    (phase : Phase r
      ⟨runner, [], Function.update (fun _ => none) t (pc.role r)⟩) :
    AllPhases ((s.setRunner r runner).moveTo t pc) := by
  intro other
  by_cases same : other = r
  · subst same
    obtain ⟨viewEq, -, -⟩ := (phases other).held_of_role (t := t) plays
    rw [System.view_moveTo, System.view_setRunner_self, viewEq]
    simpa using phase
  · rw [System.moveTo, System.view_setThread_of_role, System.view_setRunner_of_ne _ _ _ _ same]
    · exact phases other
    · simp only [System.setRunner_threads]
      rw [leaves other same, Pc.role_of_ne plays same]

theorem yield (phases : AllPhases s) (runs : (s.threads t).pc = .body r)
    (site : CallSite) (handler : DeferHandler) :
    AllPhases (s.yield t r site handler) := by
  have plays : (s.threads t).pc.role r = some .body := by simp [runs, Pc.role]
  obtain ⟨-, stage, fits⟩ := (phases r).held_of_role (t := t) plays
  apply phases.move plays
  · intro other different
    simp [Pc.role, Ne.symm different]
  · simp only [Pc.role, if_true]
    refine .held _ t .exiting stage ⟨fits.2.2.1, Or.inl ⟨⟨site, rfl⟩, rfl, ?_⟩⟩
    exact congrArg (· + 1) fits.2.2.2

theorem create (phases : AllPhases s) (fresh : (s.runners r).stage = .unborn)
    (scheduler : SchedulerId) : AllPhases (s.create r scheduler) := by
  intro other
  by_cases same : other = r
  · subst same
    obtain ⟨viewEq, -⟩ := (phases other).unborn_of_stage fresh
    rw [System.create, System.view_schedule_self, System.view_setRunner_self, viewEq]
    exact .posted _ .start _ rfl ⟨rfl, rfl, rfl, rfl⟩
  · rw [System.create, System.view_schedule_of_ne _ _ _ _ same,
      System.view_setRunner_of_ne _ _ _ _ same]
    exact phases other

theorem onEnter (phases : AllPhases s) (idle : (s.threads t).pc = .idle)
    {closure : Closure} (waiting : closure ∈ s.posted) :
    AllPhases (s.onEnter t closure) := by
  intro other
  by_cases same : other = closure.runner
  · subst other
    obtain ⟨viewEq, stage, fits⟩ := (phases closure.runner).posted_of_mem
      (List.mem_filter.mpr ⟨waiting, by simp⟩)
    have only : (s.view closure.runner).closures = [closure] := by rw [viewEq]
    rw [System.view_onEnter_self _ _ _ only, viewEq]
    exact .held _ t (.entered closure.kind) stage fits
  · rw [System.view_onEnter_of_ne _ _ _ same idle]
    exact phases other

theorem start (phases : AllPhases s)
    (entered : (s.threads t).pc = .entered r .start) : AllPhases (s.start t r) := by
  have plays : (s.threads t).pc.role r = some (.entered .start) := by
    simp [entered, Pc.role]
  obtain ⟨-, stage, fits⟩ := (phases r).held_of_role (t := t) plays
  apply phases.move plays
  · intro other different
    simp [Pc.role, Ne.symm different]
  · simp only [Pc.role, if_true]
    exact .held _ t .body stage ⟨rfl, fits.2⟩

theorem wake (phases : AllPhases s)
    (entered : (s.threads t).pc = .entered r .proceed) : AllPhases (s.wake t r) := by
  have plays : (s.threads t).pc.role r = some (.entered .proceed) := by
    simp [entered, Pc.role]
  obtain ⟨-, stage, -, taken, answer, count⟩ := (phases r).held_of_role (t := t) plays
  apply phases.move plays
  · intro other different
    simp [Pc.role, Ne.symm different]
  · simp only [Pc.role, if_true]
    exact .held _ t .body stage ⟨rfl, taken, answer, count⟩

/-- `Start` finds a coroutine that was never started. -/
theorem empty_of_entered (phases : AllPhases s)
    (entered : (s.threads t).pc = .entered r .start) :
    (s.runners r).coroHelper = .empty := by
  have plays : (s.threads t).pc.role r = some (.entered .start) := by
    simp [entered, Pc.role]
  obtain ⟨-, -, empty, -⟩ := (phases r).held_of_role (t := t) plays
  exact empty

/-- `Resume` never finds a coroutine that is not suspended. -/
theorem suspended_of_entered (phases : AllPhases s)
    (entered : (s.threads t).pc = .entered r .proceed) :
    ∃ site, (s.runners r).coroHelper = .suspended site := by
  have plays : (s.threads t).pc.role r = some (.entered .proceed) := by
    simp [entered, Pc.role]
  obtain ⟨-, -, suspended, -⟩ := (phases r).held_of_role (t := t) plays
  exact suspended

theorem finish (phases : AllPhases s) (runs : (s.threads t).pc = .body r) :
    AllPhases (s.finish t r) := by
  have plays : (s.threads t).pc.role r = some .body := by simp [runs, Pc.role]
  obtain ⟨-, stage, running, taken, answer, count⟩ := (phases r).held_of_role (t := t) plays
  apply phases.move plays
  · intro other different
    simp [Pc.role, Ne.symm different]
  · simp only [Pc.role, if_true]
    exact .held _ t .exiting stage ⟨answer, Or.inr ⟨rfl, taken, count⟩⟩

/-- At `OnExit` a runner with a defer handler is suspended, one without has
ended. -/
theorem exiting (phases : AllPhases s) (exits : (s.threads t).pc = .exiting r) :
    (s.runners r).stage = .alive ∧ (s.runners r).answer = .nobody ∧
      (((∃ site, (s.runners r).coroHelper = .suspended site) ∧
          (s.runners r).deferHandler.isSome ∧
            (s.runners r).yields = (s.runners r).resumes + 1) ∨
        ((s.runners r).coroHelper = .finished ∧ (s.runners r).deferHandler = none ∧
          (s.runners r).yields = (s.runners r).resumes)) := by
  have plays : (s.threads t).pc.role r = some .exiting := by simp [exits, Pc.role]
  obtain ⟨-, stage, fits⟩ := (phases r).held_of_role (t := t) plays
  exact ⟨stage, fits⟩

theorem takeHandler (phases : AllPhases s) (exits : (s.threads t).pc = .exiting r)
    {handler : DeferHandler} (stored : (s.runners r).deferHandler = some handler) :
    AllPhases (s.takeHandler t r handler) := by
  obtain ⟨stage, -, outcome⟩ := phases.exiting exits
  obtain ⟨suspended, -, count⟩ : (∃ site, (s.runners r).coroHelper = .suspended site) ∧
      (s.runners r).deferHandler.isSome ∧
        (s.runners r).yields = (s.runners r).resumes + 1 := by
    rcases outcome with yielded | ended
    · exact yielded
    · simp [stored] at ended
  have plays : (s.threads t).pc.role r = some .exiting := by simp [exits, Pc.role]
  apply phases.move plays
  · intro other different
    cases handler <;> simp [Pc.role, Ne.symm different]
  · cases handler with
    | proceedHandler =>
        simp only [Pc.role, if_true]
        exact .held _ t .switching stage ⟨suspended, rfl, rfl, count⟩
    | callable =>
        simp only [Pc.role, Function.update_eq_self]
        exact .parked _ stage suspended rfl rfl count

theorem delete (phases : AllPhases s) (exits : (s.threads t).pc = .exiting r)
    (missing : (s.runners r).deferHandler = none) : AllPhases (s.delete t r) := by
  obtain ⟨-, answer, outcome⟩ := phases.exiting exits
  obtain ⟨ended, -, count⟩ : (s.runners r).coroHelper = .finished ∧
      (s.runners r).deferHandler = none ∧
        (s.runners r).yields = (s.runners r).resumes := by
    rcases outcome with yielded | ended
    · simp [missing] at yielded
    · exact ended
  have plays : (s.threads t).pc.role r = some .exiting := by simp [exits, Pc.role]
  apply phases.move plays
  · intro other _
    rfl
  · simp only [Pc.role, Function.update_eq_self]
    exact .deleted _ rfl ended answer count

/-- The defer handler of `SwitchTo` posts the continuation. -/
theorem callProceed (phases : AllPhases s)
    (switches : (s.threads t).pc = .deferring r .proceedHandler) :
    AllPhases ((s.proceed r).moveTo t .leaving) := by
  have plays : (s.threads t).pc.role r = some .switching := by simp [switches, Pc.role]
  obtain ⟨viewEq, stage, suspended, taken, -, count⟩ :=
    (phases r).held_of_role (t := t) plays
  intro other
  by_cases same : other = r
  · subst other
    rw [System.view_moveTo, System.proceed, System.view_schedule_self,
      System.view_setRunner_self, viewEq]
    simp only [Pc.role, Function.update_idem, Function.update_eq_self, List.nil_append]
    exact .posted _ .proceed _ stage ⟨suspended, taken, rfl, count⟩
  · rw [System.moveTo, System.view_setThread_of_role, System.proceed,
      System.view_schedule_of_ne _ _ _ _ same, System.view_setRunner_of_ne _ _ _ _ same]
    · exact phases other
    · change Pc.leaving.role other = (s.threads t).pc.role other
      rw [Pc.role_of_ne plays same]
      rfl

theorem setThread (phases : AllPhases s) (thread : Thread)
    (sameRoles : ∀ other, thread.pc.role other = (s.threads t).pc.role other) :
    AllPhases (s.setThread t thread) := by
  intro other
  rw [System.view_setThread_of_role _ _ _ _ (sameRoles other)]
  exact phases other

theorem proceed (phases : AllPhases s) (holds : (s.runners r).answer = .holders) :
    AllPhases (s.proceed r) := by
  obtain ⟨viewEq, stage, suspended, taken, count⟩ := (phases r).parked_of_answer holds
  intro other
  by_cases same : other = r
  · subst other
    rw [System.proceed, System.view_schedule_self, System.view_setRunner_self, viewEq]
    exact .posted _ .proceed _ stage ⟨suspended, taken, rfl, count⟩
  · rw [System.proceed, System.view_schedule_of_ne _ _ _ _ same,
      System.view_setRunner_of_ne _ _ _ _ same]
    exact phases other

theorem initial : AllPhases {} := by
  intro r
  exact .unborn _ rfl rfl rfl

theorem role_unique (phases : AllPhases s) {other : ThreadId}
    (plays : (s.threads t).pc.role r = some role)
    (also : ((s.threads other).pc.role r).isSome) : other = t := by
  by_contra different
  obtain ⟨viewEq, -, -⟩ := (phases r).held_of_role (t := t) plays
  have noRole : (s.view r).roles other = none := by
    rw [viewEq]
    simp [different]
  change ((s.view r).roles other).isSome at also
  simp [noRole] at also

theorem answer_of_role (phases : AllPhases s) (plays : (s.threads t).pc.role r = some role) :
    (s.runners r).answer ≠ .holders := by
  intro holds
  obtain ⟨viewEq, -⟩ := (phases r).parked_of_answer holds
  have noRole : (s.view r).roles t = none := by rw [viewEq]
  change (s.threads t).pc.role r = none at noRole
  simp [plays] at noRole

/-- A defer handler is stored only between a yield and `OnExit`. -/
theorem deferHandler_of_role (phases : AllPhases s)
    (plays : (s.threads t).pc.role r = some role) (inside : role ≠ .exiting) :
    (s.runners r).deferHandler = none := by
  obtain ⟨-, -, fits⟩ := (phases r).held_of_role (t := t) plays
  cases role with
  | entered kind => cases kind <;> exact fits.2.1
  | body | switching => exact fits.2.1
  | exiting => exact absurd rfl inside

/-- A runner that waits for the holders of its proceed handler is alive and in
no thread's hands. -/
theorem unheld_of_answer (phases : AllPhases s) (holds : (s.runners r).answer = .holders) :
    (s.runners r).stage = .alive ∧ ∀ t, (s.threads t).pc.role r = none := by
  obtain ⟨viewEq, stage, -⟩ := (phases r).parked_of_answer holds
  refine ⟨stage, fun t => ?_⟩
  change (s.view r).roles t = none
  rw [viewEq]

theorem not_posted_of_role (phases : AllPhases s)
    (plays : (s.threads t).pc.role r = some role) {closure : Closure}
    (waiting : closure ∈ s.posted) : closure.runner ≠ r := by
  rintro rfl
  obtain ⟨viewEq, -, -⟩ := (phases closure.runner).held_of_role (t := t) plays
  have member : closure ∈ (s.view closure.runner).closures :=
    List.mem_filter.mpr ⟨waiting, by simp⟩
  rw [viewEq] at member
  simp at member

theorem unreferenced_of_unborn (phases : AllPhases s)
    (fresh : (s.runners r).stage = .unborn) :
    (∀ closure ∈ s.posted, closure.runner ≠ r) ∧
      ∀ t, (s.threads t).pc.role r = none := by
  obtain ⟨viewEq, -⟩ := (phases r).unborn_of_stage fresh
  constructor
  · rintro closure waiting rfl
    have member : closure ∈ (s.view closure.runner).closures :=
      List.mem_filter.mpr ⟨waiting, by simp⟩
    rw [viewEq] at member
    simp at member
  · intro t
    change (s.view r).roles t = none
    rw [viewEq]

end AllPhases

/-! ### Attached threads -/

/-- `thrd_ptr_async_runner` is null on an idle thread and refers to the runner
whose closure the thread executes from `OnEnter` to the end of the defer
handler.  In the rest of `OnExit` it may dangle. -/
def Thread.Attached (thread : Thread) : Prop :=
  match thread.pc with
  | .idle => thread.asyncRunner = none
  | .entered r _ | .body r | .exiting r | .deferring r _ => thread.asyncRunner = some r
  | .leaving => True

def AllAttached (s : System) : Prop :=
  ∀ t, (s.threads t).Attached

namespace AllAttached

variable {s : System} {t : ThreadId} {r : RunnerId}

theorem setThread (attached : AllAttached s) {thread : Thread}
    (new : thread.Attached) : AllAttached (s.setThread t thread) := by
  intro other
  by_cases same : other = t
  · subst other; simpa using new
  · simpa [same] using attached other

/-- A thread attached to a runner stays attached while it works for it. -/
theorem move (attached : AllAttached s) (runner : AsyncRunner) {pc : Pc}
    (points : (s.threads t).asyncRunner = some r)
    (works : pc = .body r ∨ pc = .exiting r ∨ (∃ handler, pc = .deferring r handler) ∨
      pc = .leaving) :
    AllAttached ((s.setRunner r runner).moveTo t pc) := by
  apply AllAttached.setThread (s := s.setRunner r runner) attached
  rcases works with rfl | rfl | ⟨handler, rfl⟩ | rfl
  · exact points
  · exact points
  · exact points
  · trivial

theorem points_of_pc (attached : AllAttached s)
    (works : (∃ kind, (s.threads t).pc = .entered r kind) ∨ (s.threads t).pc = .body r ∨
      (s.threads t).pc = .exiting r ∨ ∃ handler, (s.threads t).pc = .deferring r handler) :
    (s.threads t).asyncRunner = some r := by
  have here := attached t
  rcases works with ⟨kind, pc⟩ | pc | pc | ⟨handler, pc⟩ <;>
    simpa [Thread.Attached, pc] using here

end AllAttached

structure LifeInvariant (s : System) : Prop where
  phases : AllPhases s
  attached : AllAttached s

/-- Exceptions change the stack of a task and a count of the thread, on which
the life cycle does not depend. -/
theorem LifeInvariant.restack {s : System} {t : ThreadId} {r : RunnerId}
    (life : LifeInvariant s) {runner : AsyncRunner} {thread : Thread}
    (same : runner.SameLife (s.runners r)) (pc : thread.pc = (s.threads t).pc)
    (asyncRunner : thread.asyncRunner = (s.threads t).asyncRunner) :
    LifeInvariant ((s.setRunner r runner).setThread t thread) := by
  constructor
  · exact (life.phases.setRunner _ same).setThread _ (fun other => by rw [pc]; rfl)
  · apply AllAttached.setThread (s := s.setRunner r runner) life.attached
    simpa [Thread.Attached, pc, asyncRunner] using life.attached t

/-- The life-cycle invariant holds whatever happens at a failed switch. -/
theorem LifeInvariant.rules :
    StepRules (fun _ => True) (fun _ _ => True) LifeInvariant where
  setRunner life same :=
    ⟨life.phases.setRunner _ (by constructor <;> simp [same.stage, same.coroHelper,
      same.deferHandler, same.answer, same.yields, same.resumes]), life.attached⟩
  raise life _ := life.restack (by constructor <;> rfl) rfl rfl
  catchException life _ _ := life.restack (by constructor <;> rfl) rfl rfl
  terminate life := ⟨life.phases, life.attached⟩
  create life fresh scheduler := ⟨life.phases.create fresh scheduler, life.attached⟩
  onEnter life idle waiting _ := ⟨life.phases.onEnter idle waiting, life.attached.setThread rfl⟩
  start life entered :=
    ⟨life.phases.start entered,
      life.attached.move _ (life.attached.points_of_pc (.inl ⟨_, entered⟩)) (.inl rfl)⟩
  wake life entered _ :=
    ⟨life.phases.wake entered,
      life.attached.move _ (life.attached.points_of_pc (.inl ⟨_, entered⟩)) (.inl rfl)⟩
  notSuspended life entered running := by
    obtain ⟨site, suspended⟩ := life.phases.suspended_of_entered entered
    exact absurd suspended (running site)
  yield life runs _ :=
    ⟨life.phases.yield runs _ _,
      life.attached.move _ (life.attached.points_of_pc (.inr (.inl runs))) (.inr (.inl rfl))⟩
  switchAway {s t r site dst} life runs _ := by
    have moved : AllPhases (s.setScheduler r dst) :=
      life.phases.setRunner _ (by constructor <;> rfl)
    exact ⟨moved.yield runs _ _,
      AllAttached.move (s := s.setScheduler r dst) life.attached _
        (life.attached.points_of_pc (.inr (.inl runs))) (.inr (.inl rfl))⟩
  failedSwitch {s t r site dst} life runs _ := by
    have moved : AllPhases (s.setScheduler r dst) :=
      life.phases.setRunner _ (by constructor <;> rfl)
    have raised : LifeInvariant ((s.setScheduler r dst).raise t r) :=
      LifeInvariant.restack ⟨moved, life.attached⟩ (by constructor <;> rfl) rfl rfl
    cases site with
    | defer | switchTo dst | accessCtor source dst => exact raised
    | accessDtor source => exact ⟨moved, life.attached⟩
  finish life runs _ :=
    ⟨life.phases.finish runs,
      life.attached.move _ (life.attached.points_of_pc (.inr (.inl runs))) (.inr (.inl rfl))⟩
  takeHandler life exits stored _ :=
    ⟨life.phases.takeHandler exits stored,
      life.attached.move _ (life.attached.points_of_pc (.inr (.inr (.inl exits))))
        (.inr (.inr (.inl ⟨_, rfl⟩)))⟩
  delete life exits missing _ :=
    ⟨life.phases.delete exits missing,
      life.attached.move _ (life.attached.points_of_pc (.inr (.inr (.inl exits))))
        (.inr (.inr (.inr rfl)))⟩
  callProceed {s t r} life switches :=
    ⟨life.phases.callProceed switches,
      AllAttached.setThread (s := s.proceed r) life.attached trivial⟩
  returnHandler life defers :=
    ⟨life.phases.setThread _ (fun other => by rw [defers]; rfl), life.attached.setThread trivial⟩
  detach life leaves :=
    ⟨life.phases.setThread _ (fun other => by rw [leaves]; rfl), life.attached.setThread rfl⟩
  proceed life holds _ := ⟨life.phases.proceed holds, life.attached⟩

theorem LifeInvariant.initial : LifeInvariant {} :=
  ⟨AllPhases.initial, fun _ => rfl⟩

theorem LifeInvariant.step {s : System} (life : LifeInvariant s) {action : Action}
    (enabled : s.Enabled action) (contract : ProceedContract s action) :
    LifeInvariant (s.step action) :=
  LifeInvariant.rules.step life enabled contract (fun _ _ => trivial) trivial

/-! ### The life cycle -/

/-- The thread has entered runner `r` or executes its body. -/
def Thread.WorksFor (thread : Thread) (r : RunnerId) : Prop :=
  thread.pc = .body r ∨ ∃ kind, thread.pc = .entered r kind

theorem Thread.WorksFor.role {thread : Thread} {r : RunnerId}
    (works : thread.WorksFor r) : (thread.pc.role r).isSome := by
  rcases works with pc | ⟨kind, pc⟩ <;> simp [Pc.role, pc]

theorem Thread.not_worksFor {thread : Thread} {r : RunnerId}
    (elsewhere : ∀ r, thread.pc ≠ .body r) (outside : ∀ r kind, thread.pc ≠ .entered r kind) :
    ¬ thread.WorksFor r := by
  rintro (body | ⟨kind, entered⟩)
  · exact elsewhere r body
  · exact outside r kind entered

/-- Thread `t` is between `OnEnter` and the test in `OnExit` for runner `r`. -/
def System.Executes (s : System) (t : ThreadId) (r : RunnerId) : Prop :=
  (∃ kind, (s.threads t).pc = .entered r kind) ∨ (s.threads t).pc = .body r ∨
    (s.threads t).pc = .exiting r

theorem System.Executes.role {s : System} {t : ThreadId} {r : RunnerId}
    (executes : s.Executes t r) : ((s.threads t).pc.role r).isSome := by
  rcases executes with ⟨kind, pc⟩ | pc | pc <;> simp [Pc.role, pc]

/-- What the runner system promises in a state, about that state and the steps
possible in it. -/
structure LifeCycle (s : System) : Prop where
  /-- `Resume` finds the coroutine suspended, with the defer handler of the
  suspension taken out, and no other thread executes the runner. -/
  resume_suspended : ∀ t r, s.Enabled (.enter t r .proceed) →
    (∃ site, (s.runners r).coroHelper = .suspended site) ∧
      (s.runners r).deferHandler = none ∧
        ∀ other, s.Executes other r → other = t
  /-- `Resume` answers a suspension that has not been answered. -/
  resume_answers : ∀ t r, s.Enabled (.enter t r .proceed) →
    (s.runners r).yields = (s.runners r).resumes + 1
  resumes_le_yields : ∀ r, (s.runners r).resumes ≤ (s.runners r).yields
  /-- The assertion in `OnEnter` holds. -/
  onEnter_assert : ∀ t closure, s.Enabled (.dispatch t closure) →
    (s.threads t).asyncRunner = none
  /-- `OnExit` deletes a runner that was not deleted, and whose body has
  ended. -/
  delete_once : ∀ t r, s.Enabled (.onExit t r) → (s.runners r).deferHandler = none →
    (s.runners r).stage = .alive ∧ (s.runners r).coroHelper = .finished
  deleted_ended : ∀ r, (s.runners r).stage = .deleted →
    (s.runners r).coroHelper = .finished
  /-- No closure in a queue and no thread still refers to a deleted runner. -/
  posted_alive : ∀ closure ∈ s.posted, (s.runners closure.runner).stage = .alive
  executed_alive : ∀ t r, s.Executes t r → (s.runners r).stage = .alive

theorem Phase.resumes_le_yields {r : RunnerId} {view : View} (phase : Phase r view) :
    view.runner.resumes ≤ view.runner.yields := by
  cases phase with
  | unborn runner stage answer count => dsimp only; omega
  | posted runner kind scheduler stage fits =>
      cases kind <;> simp only [Role.Fits] at fits <;> dsimp only <;> omega
  | held runner t role stage fits =>
      cases role with
      | entered kind => cases kind <;> simp only [Role.Fits] at fits <;> dsimp only <;> omega
      | body | switching => simp only [Role.Fits] at fits; dsimp only; omega
      | exiting =>
          simp only [Role.Fits] at fits
          dsimp only
          omega
  | parked runner stage suspended taken answer count => dsimp only; omega
  | deleted runner stage ended answer count => dsimp only; omega

theorem Phase.ended_of_deleted {r : RunnerId} {view : View} (phase : Phase r view)
    (deleted : view.runner.stage = .deleted) :
    view.runner.coroHelper = .finished := by
  cases phase with
  | deleted runner stage ended => exact ended
  | unborn runner stage | posted runner kind scheduler stage | held runner t role stage
  | parked runner stage => simp [stage] at deleted

theorem LifeCycle.of_invariant {s : System} (life : LifeInvariant s) : LifeCycle s where
  resume_suspended t r enabled := by
    have plays : (s.threads t).pc.role r = some (.entered .proceed) := by
      simp [show (s.threads t).pc = .entered r .proceed from enabled.2, Pc.role]
    obtain ⟨-, -, suspended, taken, -⟩ := (life.phases r).held_of_role (t := t) plays
    exact ⟨suspended, taken, fun other executes => life.phases.role_unique plays executes.role⟩
  resume_answers t r enabled := by
    have plays : (s.threads t).pc.role r = some (.entered .proceed) := by
      simp [show (s.threads t).pc = .entered r .proceed from enabled.2, Pc.role]
    obtain ⟨-, -, -, -, -, count⟩ := (life.phases r).held_of_role (t := t) plays
    exact count
  resumes_le_yields r := (life.phases r).resumes_le_yields
  onEnter_assert t closure enabled := by
    have idle : (s.threads t).pc = .idle := enabled.2.1
    simpa [Thread.Attached, idle] using life.attached t
  delete_once t r enabled missing := by
    have plays : (s.threads t).pc.role r = some .exiting := by
      simp [show (s.threads t).pc = .exiting r from enabled.2, Pc.role]
    obtain ⟨-, stage, -, outcome⟩ := (life.phases r).held_of_role (t := t) plays
    rcases outcome with yielded | ended
    · have handler : (s.runners r).deferHandler.isSome := yielded.2.1
      simp [missing] at handler
    · exact ⟨stage, ended.1⟩
  deleted_ended r := (life.phases r).ended_of_deleted
  posted_alive closure waiting :=
    ((life.phases closure.runner).posted_of_mem
      (List.mem_filter.mpr ⟨waiting, by simp⟩)).2.1
  executed_alive t r executes := by
    obtain ⟨role, plays⟩ := Option.isSome_iff_exists.mp executes.role
    exact ((life.phases r).held_of_role (t := t) plays).2.1

/-- In every run of any number of tasks on any number of threads whose proceed
handlers are called at most once for each suspension, after its defer handler
has begun, every state keeps the life cycle of every runner. -/
theorem runner_life_cycle {actions : List Action}
    (legal : runnerSystem.Legal {} actions)
    (contract : runnerSystem.EveryStep ProceedContract {} actions) :
    runnerSystem.EveryState LifeCycle {} actions := by
  have invariant : runnerSystem.EveryState LifeInvariant {} actions :=
    ActionSystem.everyState_of_invariant
      (fun _ _ invariant enabled contract => invariant.step enabled contract)
      LifeInvariant.initial legal contract
  exact invariant.imp fun _ life => .of_invariant life

/-- A task that suspends is picked up by a second thread while the first one
is still inside its defer handler. -/
def overtakenHandler : List Action :=
  [.runAsync 0 1, .dispatch 0 ⟨.start, 0, 1⟩, .enter 0 0 .start, .defer 0 0,
    .onExit 0 0, .proceed 0, .dispatch 1 ⟨.proceed, 0, 1⟩, .enter 1 0 .proceed,
    .finish 1 0, .onExit 1 0, .detach 1, .returnHandler 0 0, .detach 0]

theorem runner_life_cycle_overtakenHandler :
    runnerSystem.EveryState LifeCycle {} overtakenHandler :=
  runner_life_cycle (by decide) (by decide)

end FlatAsync
