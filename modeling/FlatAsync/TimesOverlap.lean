import FlatAsync.TimesOrder

/-!
# Invocations that overlap

Where a handler is to run more than once, a scheduler that can execute two closures
at a time starts the second invocation beside the first, and on any scheduler the
second starts while the first is suspended.  This file builds these runs for every
`n`, which makes the condition of the previous file exact.
-/

namespace FlatAsync

namespace TimesCall

variable {call : TimesCall} {s : TimesState} {action : TimesAction} {t : ThreadId} {r : RunnerId}

def Reaches (call : TimesCall) (s : TimesState) : Prop :=
  ∃ actions, call.Run actions ∧ (timesSystem call).run {} actions = s

namespace Reaches

theorem initial (call : TimesCall) : call.Reaches {} := by
  refine ⟨[], ⟨trivial, trivial, fun _ r member => ?_⟩, rfl⟩
  simp [TimesState.invocations] at member

theorem stays (reaches : call.Reaches s) (calm : call.suspends = false) : s.Stays call := by
  obtain ⟨actions, run, rfl⟩ := reaches
  exact (run.stays calm).last

theorem next (reaches : call.Reaches s) (enabled : s.Enabled call action)
    (contract : call.Contract s action)
    (stays : call.suspends = false → (s.step call action).Stays call) :
    call.Reaches (s.step call action) := by
  obtain ⟨actions, run, rfl⟩ := reaches
  refine ⟨actions ++ [action], ⟨?_, ?_, fun calm => ?_⟩, ?_⟩
  · exact ActionSystem.everyStep_append.mpr ⟨run.legal, enabled, trivial⟩
  · exact ActionSystem.everyStep_append.mpr ⟨run.contract, contract, trivial⟩
  · exact ActionSystem.everyState_append.mpr
      ⟨run.stays calm, (run.stays calm).last, stays calm⟩
  · rw [ActionSystem.run_append]
    rfl

theorem calmStep (reaches : call.Reaches s) (enabled : s.Enabled call action)
    (contract : call.Contract s action) (calm : action.action.maySuspend = false) :
    call.Reaches (s.step call action) := by
  apply reaches.next enabled contract
  intro still r member
  change ((s.system.step action.action).runners r).yields = 0
  by_cases creates : action.action.creates = some r
  · obtain ⟨home, created⟩ := s.system.runner_of_creates creates
    rw [created]
  · have old := (TimesState.invocations_step member).resolve_right fun adds => creates adds.creates
    rw [(s.system.step_runner action.action r).yields_eq creates calm]
    exact reaches.stays still r old

end Reaches

/-! ### Moves -/

/-- The scheduler of the call has room for one more closure. -/
def Room (call : TimesCall) (s : TimesState) : Prop :=
  ∀ busy : Finset ThreadId,
    (∀ t ∈ busy, (s.system.threads t).pc ≠ .idle ∧
      (s.system.threads t).dispatchedBy = call.scheduler) → busy.card < call.capacity

theorem room_of_idle (idle : ∀ t, (s.system.threads t).pc = .idle) : call.Room s := by
  intro busy works
  have nobody : busy = ∅ := by
    apply Finset.eq_empty_of_forall_notMem
    exact fun t member => (works t member).1 (idle t)
  rw [nobody]
  exact call.capacity_pos

private theorem room_of_one (two : 1 < call.capacity)
    (idle : ∀ other, other ≠ t → (s.system.threads other).pc = .idle) : call.Room s := by
  intro busy works
  have most : busy.card ≤ 1 := by
    apply Finset.card_le_one_iff_subset_singleton.mpr
    refine ⟨t, fun other member => ?_⟩
    by_contra different
    exact (works other member).1 (idle other (by simpa using different))
  omega

/-- Between two states thread `t` has taken up the task `r` and started its body. -/
structure TakesUp (call : TimesCall) (s : TimesState) (t : ThreadId) (r : RunnerId)
    (home : SchedulerId) (after : TimesState) : Prop where
  terminated : after.system.terminated = false
  posted : after.system.posted = s.system.posted.erase ⟨.start, r, home⟩
  runners : after.system.runners = Function.update s.system.runners r
    { s.system.runners r with coroHelper := .running }
  threads : after.system.threads = Function.update s.system.threads t
    { s.system.threads t with pc := .body r, asyncRunner := some r, dispatchedBy := home }
  launcher : after.launcher = s.launcher
  children : after.children = s.children
  begun : after.begun = s.begun ++ s.begins call (.enter t r .start)
  ended : after.ended = s.ended

/-- Between two states the body of `r` has ended and thread `t` has left the task. -/
structure Ends (call : TimesCall) (s : TimesState) (t : ThreadId) (r : RunnerId)
    (after : TimesState) : Prop where
  terminated : after.system.terminated = false
  posted : after.system.posted = s.system.posted
  runners : after.system.runners = Function.update s.system.runners r
    { s.system.runners r with coroHelper := .finished, stage := .deleted }
  threads : after.system.threads = Function.update s.system.threads t
    { s.system.threads t with pc := .idle, asyncRunner := none }
  launcher : after.launcher = s.launcher
  children : after.children = s.children
  begun : after.begun = s.begun
  ended : after.ended = s.ended ++ s.ends call (.finish t r)

theorem unlooped (outside : ∀ r, (s.system.threads t).pc ≠ .body r) :
    ∀ u ∈ some t, ¬ s.Loops call u := by
  intro u own
  obtain rfl := Option.some.inj own
  rintro ⟨-, r, -, runs⟩
  exact outside r runs

private theorem step_silent {action : Action} (launches : s.launches call (.runner action) = [])
    (begins : s.begins call action = []) (ends : s.ends call action = []) :
    s.step call (.runner action) = { s with system := s.system.step action } := by
  simp [TimesState.step, TimesAction.action, launches, begins, ends]

namespace Reaches

theorem silentStep (reaches : call.Reaches s) (action : Action)
    (enabled : s.system.Enabled action) (loop : s.LoopGuard call action)
    (contract : call.Contract s (.runner action)) (calm : action.maySuspend = false)
    (launches : s.launches call (.runner action) = [])
    (begins : s.begins call action = []) (ends : s.ends call action = []) :
    call.Reaches { s with system := s.system.step action } := by
  rw [← step_silent launches begins ends]
  exact reaches.calmStep ⟨enabled, loop⟩ contract calm

theorem takeUp (reaches : call.Reaches s) (t : ThreadId) (r : RunnerId) (home : SchedulerId)
    (running : s.system.terminated = false) (idle : (s.system.threads t).pc = .idle)
    (waiting : ⟨.start, r, home⟩ ∈ s.system.posted) (room : call.Room s) :
    ∃ after, call.Reaches after ∧ call.TakesUp s t r home after := by
  have dispatched := reaches.silentStep (.dispatch t ⟨.start, r, home⟩)
    ⟨running, idle, waiting⟩ (unlooped (by simp [idle])) ⟨trivial, fun _ => room⟩ rfl rfl rfl rfl
  have entered : ((s.system.onEnter t ⟨.start, r, home⟩).threads t).pc = .entered r .start := by
    simp [System.onEnter]
  have started : call.Reaches
      (TimesState.step call { s with system := s.system.onEnter t ⟨.start, r, home⟩ }
        (.runner (.enter t r .start))) := by
    apply dispatched.calmStep
    · exact ⟨⟨running, entered⟩, unlooped fun q runs => by cases entered.symm.trans runs⟩
    · exact ⟨trivial, trivial⟩
    · rfl
  refine ⟨_, started, ?_⟩
  constructor
  case terminated => exact running
  case posted => rfl
  case runners => rfl
  case threads =>
    simp [TimesState.step, TimesAction.action, System.step, System.start, System.onEnter]
  case launcher => rfl
  case children => simp [TimesState.step, TimesState.launches]
  case begun => rfl
  case ended => simp [TimesState.step, TimesState.ends, TimesAction.action]

/-- The body of a task ends, and `OnExit` deletes its runner. -/
theorem finish (reaches : call.Reaches s) (running : s.system.terminated = false)
    (runs : (s.system.threads t).pc = .body r) (scopes : (s.system.runners r).scopes = [])
    (unwinding : (s.system.runners r).unwinding = 0)
    (missing : (s.system.runners r).deferHandler = none)
    (exhausted : s.Loops call t → s.children.length = call.n) :
    ∃ after, call.Reaches after ∧ call.Ends s t r after := by
  have finished : call.Reaches (s.step call (.runner (.finish t r))) := by
    apply reaches.calmStep
    · exact ⟨⟨running, runs, scopes, unwinding⟩, exhausted⟩
    · exact ⟨trivial, trivial⟩
    · rfl
  have exits : ((s.system.finish t r).threads t).pc = .exiting r := by simp [System.finish]
  have deletes : (s.system.finish t r).onExit t r = (s.system.finish t r).delete t r := by
    simp [System.onExit, System.finish, missing]
  have leaves : (((s.system.finish t r).onExit t r).threads t).pc = .leaving := by
    simp [deletes, System.delete]
  have left := finished.silentStep (.onExit t r) ⟨running, exits⟩
    (unlooped fun q runs => by cases exits.symm.trans runs) ⟨trivial, trivial⟩ rfl rfl rfl rfl
  have alive : ((s.system.finish t r).onExit t r).terminated = false := by
    rw [deletes]
    exact running
  have detached := left.silentStep (.detach t) ⟨alive, leaves⟩
    (unlooped fun q runs => by cases leaves.symm.trans runs) ⟨trivial, trivial⟩ rfl rfl rfl rfl
  refine ⟨_, detached, ?_⟩
  constructor
  case terminated => exact alive
  case posted =>
    change (((s.system.finish t r).onExit t r).detach t).posted = s.system.posted
    rw [deletes]
    rfl
  case runners =>
    change (((s.system.finish t r).onExit t r).detach t).runners = _
    rw [deletes]
    simp [System.detach, System.delete, System.finish]
  case threads =>
    change (((s.system.finish t r).onExit t r).detach t).threads = _
    rw [deletes]
    simp [System.detach, System.delete, System.finish]
  case launcher => rfl
  case children => simp [TimesState.step, TimesState.launches]
  case begun => simp [TimesState.step, TimesState.begins, TimesAction.action]
  case ended => rfl

end Reaches

/-- Between two states thread `t` has left a task that suspends itself. -/
structure Suspends (call : TimesCall) (s : TimesState) (t : ThreadId) (after : TimesState) :
    Prop where
  terminated : after.system.terminated = false
  posted : after.system.posted = s.system.posted
  threads : after.system.threads = Function.update s.system.threads t
    { s.system.threads t with pc := .idle, asyncRunner := none }
  invocations : after.invocations call = s.invocations call
  begun : after.begun = s.begun
  ended : after.ended = s.ended

/-- The body of a task calls `Defer` with no event pending. -/
theorem Reaches.suspend (reaches : call.Reaches s) (suspends : call.suspends = true)
    (running : s.system.terminated = false) (runs : (s.system.threads t).pc = .body r)
    (calm : ¬ s.system.EventPending t r) (unlooping : ¬ s.Loops call t) :
    ∃ after, call.Reaches after ∧ call.Suspends s t after := by
  have nothing : s.system.handleEvents t r = none := by
    simpa [← System.handleEvents_isSome] using calm
  have yields : s.system.step (.defer t r) = s.system.yield t r .defer .callable := by
    simp [System.step, System.defer, nothing]
  have deferred : call.Reaches { s with system := s.system.yield t r .defer .callable } := by
    have defers : call.Reaches (s.step call (.runner (.defer t r))) := by
      apply reaches.next
      · refine ⟨⟨running, runs⟩, fun u own => ?_⟩
        obtain rfl := Option.some.inj own
        exact unlooping
      · exact ⟨trivial, trivial⟩
      · intro still
        simp [suspends] at still
    rw [step_silent rfl rfl rfl, yields] at defers
    exact defers
  have exits : ((s.system.yield t r .defer .callable).threads t).pc = .exiting r := by
    simp [System.yield]
  have taken := deferred.silentStep (.onExit t r) ⟨running, exits⟩
    (unlooped fun q runs => by cases exits.symm.trans runs) ⟨trivial, trivial⟩ rfl rfl rfl rfl
  have takes : (s.system.yield t r .defer .callable).step (.onExit t r) =
      (s.system.yield t r .defer .callable).takeHandler t r .callable := by
    simp [System.step, System.onExit, System.yield]
  simp only [takes] at taken
  have defers : (((s.system.yield t r .defer .callable).takeHandler t r .callable).threads t).pc =
      .deferring r .callable := by
    simp [System.takeHandler]
  have returned := taken.silentStep (.returnHandler t r) ⟨running, defers⟩
    (unlooped fun q runs => by cases defers.symm.trans runs) ⟨trivial, trivial⟩ rfl rfl rfl rfl
  have leaves : ((((s.system.yield t r .defer .callable).takeHandler t r .callable).moveTo t
      .leaving).threads t).pc = .leaving := by
    simp
  have detached := returned.silentStep (.detach t) ⟨running, leaves⟩
    (unlooped fun q runs => by cases leaves.symm.trans runs) ⟨trivial, trivial⟩ rfl rfl rfl rfl
  refine ⟨_, detached, ?_⟩
  constructor
  case terminated => exact running
  case posted => rfl
  case threads => simp [System.step, System.detach, System.takeHandler, System.yield]
  case invocations => rfl
  case begun => rfl
  case ended => rfl

/-! ### The launch of `n` tasks -/

/-- Thread 0 executes the loop of the launcher, which is runner 1 and has created the
runners from 2 on. -/
structure Launching (call : TimesCall) (s : TimesState) : Prop where
  terminated : s.system.terminated = false
  loop : (s.system.threads 0).pc = .body 1
  attached : (s.system.threads 0).asyncRunner = some 1
  idle : ∀ t, t ≠ 0 → (s.system.threads t).pc = .idle
  launcher : s.launcher = some 1
  home : s.system.runners 1 =
    { scheduler := call.scheduler, stage := .alive, coroHelper := .running }
  waiting : ∀ r ∈ s.children, ⟨.start, r, call.scheduler⟩ ∈ s.system.posted ∧
    s.system.runners r = { scheduler := call.scheduler, stage := .alive }
  fresh : ∀ r, s.children.length + 2 ≤ r → (s.system.runners r).stage = .unborn
  children : s.children = List.range' 2 s.children.length
  begun : s.begun = []
  ended : s.ended = []

theorem Launching.step (launching : call.Launching s) (reaches : call.Reaches s)
    (many : call.n ≠ 1) (more : s.children.length < call.n) :
    ∃ after, call.Reaches after ∧ call.Launching after ∧
      after.children.length = s.children.length + 1 := by
  have loops : s.Loops call 0 := ⟨many, 1, launching.launcher, launching.loop⟩
  have unborn := launching.fresh (s.children.length + 2) (Nat.le_refl _)
  have launched : call.Reaches
      (s.step call (.runner (.runAsyncHere 0 (s.children.length + 2)))) := by
    apply reaches.calmStep
    · refine ⟨⟨launching.terminated, unborn, ?_⟩, fun _ => more⟩
      simp [launching.loop, Pc.mayCall]
    · exact ⟨trivial, trivial⟩
    · rfl
  have here : s.system.currentScheduler 0 = call.scheduler := by
    simp [System.currentScheduler, launching.attached, launching.home]
  have created : s.system.step (.runAsyncHere 0 (s.children.length + 2)) =
      s.system.create (s.children.length + 2) call.scheduler := by
    rw [← here]
    rfl
  have children : (s.step call (.runner (.runAsyncHere 0 (s.children.length + 2)))).children =
      s.children ++ [s.children.length + 2] := by
    simp [TimesState.step, TimesState.launches, loops]
  have length : (s.step call
      (.runner (.runAsyncHere 0 (s.children.length + 2)))).children.length =
        s.children.length + 1 := by
    simp [children]
  have other (r : Nat) (before : r < s.children.length + 2) :
      ((s.system.create (s.children.length + 2) call.scheduler).runners r) =
        s.system.runners r := by
    simp [System.create, System.schedule, before.ne]
  refine ⟨_, launched, ?_, length⟩
  constructor
  case terminated => exact launching.terminated
  case loop => exact launching.loop
  case attached => exact launching.attached
  case idle => exact launching.idle
  case launcher => exact launching.launcher
  case home =>
    change (s.system.step (.runAsyncHere 0 (s.children.length + 2))).runners 1 = _
    rw [created, other 1 (by omega)]
    exact launching.home
  case waiting =>
    intro r member
    change _ ∈ (s.system.step (.runAsyncHere 0 (s.children.length + 2))).posted ∧
      (s.system.step (.runAsyncHere 0 (s.children.length + 2))).runners r = _
    rw [created]
    rw [children, List.mem_append, List.mem_singleton] at member
    rcases member with old | rfl
    · have before : (r : Nat) < s.children.length + 2 := by
        rw [launching.children, List.mem_range'_1] at old
        rw [Nat.add_comm]
        exact old.2
      obtain ⟨posted, runner⟩ := launching.waiting r old
      rw [other r before]
      exact ⟨List.mem_append_left _ posted, runner⟩
    · simp [System.create, System.schedule]
  case fresh =>
    intro r after
    rw [length] at after
    change ((s.system.step (.runAsyncHere 0 (s.children.length + 2))).runners r).stage = _
    have different : r ≠ s.children.length + 2 := by omega
    rw [created]
    simpa [System.create, System.schedule, different] using launching.fresh r (by omega)
  case children =>
    rw [length, List.range'_concat, ← launching.children, children]
    simp [Nat.add_comm]
  case begun => exact (List.append_nil _).trans launching.begun
  case ended => exact (List.append_nil _).trans launching.ended

/-- All threads are idle and the tasks in `tasks` wait to be taken up; the handler has
not been invoked yet. -/
structure Ready (call : TimesCall) (s : TimesState) (tasks : List RunnerId) : Prop where
  terminated : s.system.terminated = false
  idle : ∀ t, (s.system.threads t).pc = .idle
  waiting : ∀ r ∈ tasks, ⟨.start, r, call.scheduler⟩ ∈ s.system.posted ∧
    s.system.runners r = { scheduler := call.scheduler, stage := .alive }
  begun : s.begun = []
  ended : s.ended = []

/-- Runner 0 calls `RunAsyncTimes` on the scheduler of the call and ends. -/
theorem exists_called (call : TimesCall) : ∃ s, call.Reaches s ∧ call.Ready s [1] ∧
    s.launcher = some 1 ∧ s.children = [] ∧
      ∀ r, 2 ≤ r → (s.system.runners r).stage = .unborn := by
  have created := (Reaches.initial call).silentStep (.runAsync 0 call.scheduler) ⟨rfl, rfl⟩
    (by simp [TimesState.LoopGuard, Action.thread]) ⟨trivial, trivial⟩ rfl rfl rfl rfl
  obtain ⟨first, reaches, took⟩ := created.takeUp 0 0 call.scheduler rfl rfl
    (by simp [System.step, System.create, System.schedule]) (room_of_idle fun t => rfl)
  have runs : (first.system.threads 0).pc = .body 0 := by simp [took.threads]
  have runner : first.system.runners = Function.update (fun _ => {}) 0
      { scheduler := call.scheduler, stage := .alive, coroHelper := .running } := by
    simp [took.runners, System.step, System.create, System.schedule]
  have posted : first.system.posted = [] := by
    simp [took.posted, System.step, System.create, System.schedule]
  have here : first.system.currentScheduler 0 = call.scheduler := by
    simp [System.currentScheduler, took.threads, runner]
  have called : call.Reaches (first.step call (.runAsyncTimes 0 1)) := by
    apply reaches.calmStep
    · refine ⟨⟨took.terminated, ?_, ?_⟩, took.launcher, here⟩
      · simp [runner]
      · simp [runs, Pc.mayCall]
    · exact ⟨trivial, trivial⟩
    · rfl
  have system : (first.step call (.runAsyncTimes 0 1)).system =
      first.system.create 1 call.scheduler := by
    rw [← here]
    rfl
  have unlooped : ¬ (first.step call (.runAsyncTimes 0 1)).Loops call 0 := by
    rintro ⟨-, q, member, loops⟩
    obtain rfl : 1 = q := Option.some.inj member
    cases runs.symm.trans loops
  have task : (first.system.create 1 call.scheduler).runners 0 =
      { scheduler := call.scheduler, stage := .alive, coroHelper := .running } := by
    simp [System.create, System.schedule, runner]
  obtain ⟨s, reached, ends⟩ := called.finish took.terminated runs (by rw [system, task])
    (by rw [system, task]) (by rw [system, task]) fun loops => absurd loops unlooped
  refine ⟨s, reached, ?_, ends.launcher, ?_, ?_⟩
  · constructor
    case terminated => exact ends.terminated
    case idle =>
      intro t
      by_cases here : t = 0
      · simp [ends.threads, here]
      · rw [ends.threads, Function.update_of_ne here, system]
        simp [System.create, System.schedule, took.threads, here, System.step]
    case waiting =>
      intro r member
      obtain rfl := List.mem_singleton.mp member
      rw [ends.posted, ends.runners, system]
      simp [System.create, System.schedule]
    case begun =>
      rw [ends.begun]
      simp [TimesState.step, TimesState.begins, TimesAction.action, took.begun,
        TimesState.invocations]
    case ended =>
      rw [ends.ended]
      simp [TimesState.step, TimesState.ends, TimesAction.action, took.ended,
        TimesState.invocations, took.children, TimesState.launches]
  · rw [ends.children]
    simp [TimesState.step, TimesState.launches, took.children]
  · intro r above
    have different : r ≠ 0 := by
      rintro rfl
      cases above
    have other : r ≠ 1 := by
      rintro rfl
      cases above with
      | step less => cases less
    rw [ends.runners, system]
    simp [System.create, System.schedule, runner, different, other]

private theorem exists_launching (many : call.n ≠ 1) :
    ∃ s, call.Reaches s ∧ call.Launching s ∧ s.children = [] := by
  obtain ⟨s, reaches, ready, launcher, children, fresh⟩ := exists_called call
  obtain ⟨posted, home⟩ := ready.waiting 1 (by simp)
  obtain ⟨after, reached, took⟩ := reaches.takeUp 0 1 call.scheduler ready.terminated
    (ready.idle 0) posted (room_of_idle ready.idle)
  refine ⟨after, reached, ?_, took.children.trans children⟩
  constructor
  case terminated => exact took.terminated
  case loop => simp [took.threads]
  case attached => simp [took.threads]
  case idle =>
    intro t other
    simpa [took.threads, other] using ready.idle t
  case launcher => exact took.launcher.trans launcher
  case home => simp [took.runners, home]
  case waiting => simp [took.children, children]
  case fresh =>
    intro r above
    have upper : 2 ≤ r := Nat.le_trans (Nat.le_add_left 2 _) above
    have different : r ≠ 1 := Nat.ne_of_gt upper
    simpa [took.runners, different] using fresh r upper
  case children => simp [took.children, children]
  case begun =>
    simp [took.begun, ready.begun, TimesState.begins, TimesState.invocations, many, children]
  case ended => exact took.ended.trans ready.ended

theorem exists_launched (many : call.n ≠ 1) :
    ∃ s, call.Reaches s ∧ call.Launching s ∧ s.children.length = call.n := by
  have launched (k : Nat) (bounded : k ≤ call.n) :
      ∃ s, call.Reaches s ∧ call.Launching s ∧ s.children.length = k := by
    induction k with
    | zero =>
        obtain ⟨s, reaches, launching, none⟩ := exists_launching many
        exact ⟨s, reaches, launching, by simp [none]⟩
    | succ k ih =>
        obtain ⟨s, reaches, launching, length⟩ := ih (by omega)
        obtain ⟨after, reached, more, longer⟩ := launching.step reaches many (by omega)
        exact ⟨after, reached, more, by omega⟩
  exact launched call.n (Nat.le_refl _)

/-- The launcher has ended, and its children wait while all threads are idle. -/
theorem exists_ready (many : call.n ≠ 1) : ∃ s, call.Reaches s ∧ s.launcher = some 1 ∧
    call.Ready s (s.invocations call) ∧ 2 ∈ s.invocations call ∧ 3 ∈ s.invocations call := by
  obtain ⟨s, reaches, launching, whole⟩ := exists_launched many
  obtain ⟨after, reached, ends⟩ := reaches.finish launching.terminated launching.loop
    (by simp [launching.home]) (by simp [launching.home]) (by simp [launching.home])
    (fun _ => whole)
  have invocations : after.invocations call = s.children := by
    simp [TimesState.invocations, many, ends.children]
  have mem_children (r : Nat) : r ∈ s.children ↔ 2 ≤ r ∧ r < 2 + call.n := by
    rw [launching.children, whole, List.mem_range'_1]
  refine ⟨after, reached, ends.launcher.trans launching.launcher, ?_, ?_, ?_⟩
  · constructor
    case terminated => exact ends.terminated
    case idle =>
      intro t
      by_cases here : t = 0
      · simp [ends.threads, here]
      · simpa [ends.threads, here] using launching.idle t here
    case waiting =>
      intro r member
      rw [invocations] at member
      obtain ⟨posted, runner⟩ := launching.waiting r member
      have different : r ≠ 1 := by
        rintro rfl
        rw [launching.home] at runner
        cases runner
      rw [ends.posted, ends.runners, Function.update_of_ne different]
      exact ⟨posted, runner⟩
    case begun => exact ends.begun.trans launching.begun
    case ended =>
      have outside : 1 ∉ s.invocations call := by
        simp [TimesState.invocations, many, mem_children]
      simp [ends.ended, launching.ended, TimesState.ends, outside]
  · have positive := call.n_pos
    rw [invocations, mem_children]
    omega
  · have positive := call.n_pos
    rw [invocations, mem_children]
    omega

/-! ### The overlap -/

theorem not_inTurn {first second : RunnerId} (begun : s.begun = [first, second])
    (ended : s.ended = []) : ¬ s.InTurn := by
  rintro (same | ⟨r, order⟩)
  · simp [begun, ended] at same
  · simp [begun, ended] at order

theorem exists_parallel (many : call.n ≠ 1) (two : 1 < call.capacity) :
    ∃ s, call.Reaches s ∧ ¬ s.InTurn := by
  obtain ⟨s, reaches, -, ready, second, third⟩ := exists_ready many
  obtain ⟨posted, -⟩ := ready.waiting 2 second
  obtain ⟨also, -⟩ := ready.waiting 3 third
  obtain ⟨middle, reached, took⟩ := reaches.takeUp 0 2 call.scheduler ready.terminated
    (ready.idle 0) posted (room_of_idle ready.idle)
  have idle (t : ThreadId) (other : t ≠ 0) : (middle.system.threads t).pc = .idle := by
    simpa [took.threads, other] using ready.idle t
  have waits : ⟨.start, 3, call.scheduler⟩ ∈ middle.system.posted := by
    rw [took.posted]
    exact (List.mem_erase_of_ne (by simp)).mpr also
  obtain ⟨after, overlaps, later⟩ := reached.takeUp 1 3 call.scheduler took.terminated
    (idle 1 (by simp)) waits (room_of_one two idle)
  have same : middle.invocations call = s.invocations call := by
    simp [TimesState.invocations, took.launcher, took.children]
  have begun : after.begun = [2, 3] := by
    simp [later.begun, took.begun, ready.begun, TimesState.begins, same, second, third]
  have ended : after.ended = [] := by rw [later.ended, took.ended, ready.ended]
  exact ⟨after, overlaps, not_inTurn begun ended⟩

theorem exists_suspended (many : call.n ≠ 1) (suspends : call.suspends = true) :
    ∃ s, call.Reaches s ∧ ¬ s.InTurn := by
  obtain ⟨s, reaches, launcher, ready, second, third⟩ := exists_ready many
  obtain ⟨posted, home⟩ := ready.waiting 2 second
  obtain ⟨also, -⟩ := ready.waiting 3 third
  obtain ⟨first, started, took⟩ := reaches.takeUp 0 2 call.scheduler ready.terminated
    (ready.idle 0) posted (room_of_idle ready.idle)
  have runs : (first.system.threads 0).pc = .body 2 := by simp [took.threads]
  have calm : ¬ first.system.EventPending 0 2 := by
    simp [System.EventPending, took.runners, home]
  have unlooping : ¬ first.Loops call 0 := by
    rintro ⟨-, q, member, loops⟩
    obtain rfl : 2 = q := by simpa [runs] using loops
    cases (took.launcher.trans launcher).symm.trans member
  obtain ⟨middle, parked, left⟩ := started.suspend suspends took.terminated runs calm unlooping
  have idle (t : ThreadId) : (middle.system.threads t).pc = .idle := by
    by_cases here : t = 0
    · simp [left.threads, here]
    · simpa [left.threads, took.threads, here] using ready.idle t
  have waits : ⟨.start, 3, call.scheduler⟩ ∈ middle.system.posted := by
    rw [left.posted, took.posted]
    exact (List.mem_erase_of_ne (by simp)).mpr also
  obtain ⟨after, overlaps, later⟩ := parked.takeUp 0 3 call.scheduler left.terminated
    (idle 0) waits (room_of_idle idle)
  have same : middle.invocations call = s.invocations call := by
    rw [left.invocations]
    simp [TimesState.invocations, took.launcher, took.children]
  have begun : after.begun = [2, 3] := by
    simp [later.begun, left.begun, took.begun, ready.begun, TimesState.begins, same, second,
      third]
  have ended : after.ended = [] := by rw [later.ended, left.ended, took.ended, ready.ended]
  exact ⟨after, overlaps, not_inTurn begun ended⟩

end TimesCall

/-- `RunAsyncTimes` runs its handler `n` times, one by one, in every run of the system
exactly when `n` is 1, or the scheduler executes one closure at a time and the handler
never gives up its thread. -/
theorem runs_times_iff (call : TimesCall) :
    (∀ actions, call.Run actions →
        (timesSystem call).EveryState (TimesState.RunsTimes call) {} actions) ↔
      call.n = 1 ∨ call.capacity = 1 ∧ call.suspends = false := by
  constructor
  · intro always
    have inTurn (s : TimesState) (reaches : call.Reaches s) : s.InTurn := by
      obtain ⟨actions, run, rfl⟩ := reaches
      exact (always actions run).last.inTurn
    by_contra disturbed
    rw [not_or, not_and_or] at disturbed
    obtain ⟨many, wide | suspends⟩ := disturbed
    · have positive := call.capacity_pos
      obtain ⟨s, reaches, overlap⟩ := TimesCall.exists_parallel many (by omega)
      exact overlap (inTurn s reaches)
    · obtain ⟨s, reaches, overlap⟩ := TimesCall.exists_suspended many (by simpa using suspends)
      exact overlap (inTurn s reaches)
  · exact fun calm actions run => run.runsTimes calm

/-- A handler that may suspend is to run twice on a strand. -/
def twiceOnStrand : TimesCall where
  n := 2
  scheduler := 0
  capacity := 1
  suspends := true
  n_pos := by decide
  capacity_pos := by decide

/-- The first invocation calls `Defer`, and the strand starts the second. -/
def secondWhileSuspended : List TimesAction :=
  [.runAsyncTimes 0 0, .runner (.dispatch 0 ⟨.start, 0, 0⟩), .runner (.enter 0 0 .start),
    .runner (.runAsyncHere 0 1), .runner (.runAsyncHere 0 2), .runner (.finish 0 0),
    .runner (.onExit 0 0), .runner (.detach 0), .runner (.dispatch 0 ⟨.start, 1, 0⟩),
    .runner (.enter 0 1 .start), .runner (.defer 0 1), .runner (.onExit 0 1),
    .runner (.returnHandler 0 1), .runner (.detach 0), .runner (.dispatch 0 ⟨.start, 2, 0⟩),
    .runner (.enter 0 2 .start)]

theorem runs_times_not_secondWhileSuspended :
    twiceOnStrand.Run secondWhileSuspended ∧
      ¬ (timesSystem twiceOnStrand).EveryState (TimesState.RunsTimes twiceOnStrand) {}
        secondWhileSuspended := by
  refine ⟨⟨by decide, ?_, nofun⟩, fun states => TimesCall.not_inTurn rfl rfl states.last.inTurn⟩
  · refine ⟨⟨trivial, trivial⟩, ⟨trivial, fun _ => TimesCall.room_of_idle fun t => ?_⟩,
      ⟨trivial, trivial⟩, ⟨trivial, trivial⟩, ⟨trivial, trivial⟩, ⟨trivial, trivial⟩,
      ⟨trivial, trivial⟩, ⟨trivial, trivial⟩,
      ⟨trivial, fun _ => TimesCall.room_of_idle fun t => ?_⟩, ⟨trivial, trivial⟩,
      ⟨trivial, trivial⟩, ⟨trivial, trivial⟩, ⟨trivial, trivial⟩, ⟨trivial, trivial⟩,
      ⟨trivial, fun _ => TimesCall.room_of_idle fun t => ?_⟩, ⟨trivial, trivial⟩, trivial⟩
    · rfl
    · cases t <;> rfl
    · cases t <;> rfl
end FlatAsync
