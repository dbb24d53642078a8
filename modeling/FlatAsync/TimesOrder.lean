import FlatAsync.AnchoredTasks
import FlatAsync.RunAsyncTimes
import FlatAsync.SequentialScheduler

/-!
# The order of the invocations

The tasks that `RunAsyncTimes` creates are all posted before the first of them is
executed, or while it is.  This file shows when their invocations of the handler
come one by one nevertheless: when there is only one, or when the scheduler
executes one closure at a time and the handler never gives up its thread.
-/

namespace FlatAsync

namespace TimesState

variable {call : TimesCall} {s : TimesState} {action : TimesAction} {r : RunnerId}

/-- What holds in a call whose scheduler executes one closure at a time: the tasks
of the call are where their scheduler is, and as long as none of the invocations has
given up its thread they come in turn. -/
structure Sequenced (call : TimesCall) (s : TimesState) : Prop where
  counted : Counted call s
  single : OneAtATime (· = call.scheduler) s.system
  anchored : ∀ r ∈ s.tasks, Anchored call.scheduler r s.system
  home : call.n ≠ 1 → ∀ r, s.launcher = some r →
    (s.system.runners r).scheduler = call.scheduler
  inTurn : s.Stays call → s.InTurn

theorem strandContract (one : call.capacity = 1) (contract : call.CapacityContract s action) :
    StrandContract (· = call.scheduler) s.system action.action := by
  cases action with
  | runAsyncTimes => trivial
  | runner action =>
      cases action with
      | dispatch t closure =>
          intro home other works same
          have own : closure.scheduler = call.scheduler := by simpa using home
          have room := contract own {other} (by simpa [works] using same.trans own)
          simp [one] at room
      | _ => trivial

namespace Sequenced

theorem initial : Sequenced call {} where
  counted := Counted.initial
  single := OneAtATime.initial
  anchored := by simp [tasks]
  home := by simp
  inTurn _ := .inl rfl

theorem created (sequenced : Sequenced call s) (enabled : s.Enabled call action)
    (adds : s.Adds call action r) :
    s.system.step action.action = s.system.create r call.scheduler := by
  rcases adds with ⟨t, rfl⟩ | ⟨t, ⟨many, launcher, member, runs⟩, rfl⟩
  · have here : s.system.currentScheduler t = call.scheduler := enabled.2.2
    rw [← here]
    rfl
  · have attached := sequenced.counted.life.attached.points_of_pc (.inr (.inl runs))
    have here : s.system.currentScheduler t = call.scheduler := by
      simp [System.currentScheduler, attached, sequenced.home many launcher member]
    rw [← here]
    rfl

/-- An invocation that goes on is executed by a thread of the scheduler. -/
theorem executed (sequenced : Sequenced call s) (stays : s.Stays call) (begun : r ∈ s.begun)
    (unended : r ∉ s.ended) :
    ∃ t, (s.system.threads t).pc = .body r ∧
      (s.system.threads t).dispatchedBy = call.scheduler := by
  have counted := sequenced.counted
  obtain ⟨invokes, started⟩ := (counted.mem_begun r).mp begun
  have unfinished : (s.system.runners r).coroHelper ≠ .finished := fun finished =>
    unended ((counted.mem_ended r).mpr ⟨invokes, finished⟩)
  have anchored := sequenced.anchored r (task_of_invocation invokes)
  have never := stays r invokes
  have running : (s.system.runners r).coroHelper = .running := by
    cases coro : (s.system.runners r).coroHelper with
    | empty => exact absurd coro started
    | running => rfl
    | suspended site =>
        have yielded := (counted.life.phases r).yields_of_suspended anchored.born coro
        change 0 < (s.system.runners r).yields at yielded
        omega
    | finished => exact absurd coro unfinished
  obtain ⟨t, plays⟩ := (counted.life.phases r).role_of_running anchored.born running
  have runs : (s.system.threads t).pc = .body r := Pc.body_of_role plays
  exact ⟨t, runs, anchored.threads never t (.inl runs)⟩

/-- An invocation begins only when the others have ended: the one that goes on would
hold the only thread that may be at work for the scheduler. -/
theorem over_of_entered (sequenced : Sequenced call s) (stays : s.Stays call)
    {t : ThreadId} (invokes : r ∈ s.invocations call)
    (entered : (s.system.threads t).pc = .entered r .start) : s.begun = s.ended := by
  rcases sequenced.inTurn stays with ended | ⟨q, order⟩
  · exact ended
  · have nodup := sequenced.counted.begun_nodup
    rw [order, List.nodup_append_comm, List.singleton_append, List.nodup_cons] at nodup
    obtain ⟨u, runs, dispatched⟩ := sequenced.executed stays (by simp [order]) nodup.1
    have here : (s.system.threads t).dispatchedBy = call.scheduler :=
      (sequenced.anchored r (task_of_invocation invokes)).threads (stays r invokes) t
        (.inr ⟨.start, entered⟩)
    have same : t = u := by
      apply sequenced.single t u
      · simp [entered]
      · simp [runs]
      · exact here.trans dispatched.symm
      · simp [here]
    rw [same, runs] at entered
    cases entered

private theorem last_of_body (sequenced : Sequenced call s) (stays : s.Stays call) {t : ThreadId}
    (invokes : r ∈ s.invocations call) (runs : (s.system.threads t).pc = .body r) :
    s.begun = s.ended ++ [r] := by
  have counted := sequenced.counted
  have running := System.running_of_body counted.life.phases runs
  have begun : r ∈ s.begun := by simp [counted.mem_begun, invokes, running]
  have unended : r ∉ s.ended := by simp [counted.mem_ended, running]
  rcases sequenced.inTurn stays with ended | ⟨q, order⟩
  · exact absurd (ended ▸ begun) unended
  · have same : r = q := by
      rw [order, List.mem_append, List.mem_singleton] at begun
      exact begun.resolve_left unended
    rw [order, same]

/-- The launcher of several tasks does not move: its body only runs the loop. -/
theorem scheduler_kept (sequenced : Sequenced call s) (enabled : s.Enabled call action)
    (many : call.n ≠ 1) (launcher : s.launcher = some r) :
    ((s.system.step action.action).runners r).scheduler = (s.system.runners r).scheduler := by
  have born := sequenced.counted.born r (mem_tasks.mpr (.inl launcher))
  have guard := enabled.1.2
  have loop {step : Action} {t : ThreadId} (takes : action.action = step)
      (own : step.thread = some t) (runs : (s.system.threads t).pc = .body r) :
      (∃ q, step = .runAsyncHere t q) ∨ ∃ q, step = .finish t q := by
    rw [← takes] at own ⊢
    exact (loop_step enabled ⟨many, r, launcher, runs⟩ own).imp_right fun ⟨q, ends, _⟩ => ⟨q, ends⟩
  apply (s.system.step_runner action.action r).scheduler_eq
  · exact fun creates => born (System.unborn_of_creates guard creates)
  · intro t dst switches
    rw [switches] at guard
    rcases loop switches rfl guard with ⟨q, here⟩ | ⟨q, here⟩ <;> cases here
  · intro t dst accesses
    rw [accesses] at guard
    rcases loop accesses rfl guard with ⟨q, here⟩ | ⟨q, here⟩ <;> cases here
  · intro t leaves
    rw [leaves] at guard
    rcases loop leaves rfl guard.1 with ⟨q, here⟩ | ⟨q, here⟩ <;> cases here

theorem step (sequenced : Sequenced call s) (enabled : s.Enabled call action)
    (contract : call.Contract s action) (one : call.capacity = 1) :
    Sequenced call (s.step call action) := by
  have counted := sequenced.counted
  have phases := counted.life.phases
  have guard := enabled.1.2
  constructor
  case counted => exact counted.step enabled contract.1
  case single =>
    exact OneAtATime.rules.step sequenced.single enabled.1 contract.1 (fun _ _ => trivial)
      (strandContract one contract.2)
  case anchored =>
    intro r member
    rcases tasks_step member with old | new
    · exact (Anchored.rules.step ⟨counted.life, sequenced.anchored r old⟩ enabled.1 contract.1
        (fun _ _ => trivial) trivial).2
    · change Anchored call.scheduler r (s.system.step action.action)
      rw [sequenced.created enabled new]
      exact Anchored.create counted.life (System.unborn_of_creates guard new.creates)
  case home =>
    intro many r launcher
    change ((s.system.step action.action).runners r).scheduler = call.scheduler
    rcases launcher_step launcher with old | new
    · rw [← sequenced.home many r old]
      exact sequenced.scheduler_kept enabled many old
    · rw [sequenced.created enabled new]
      simp [System.create, System.schedule]
  case inTurn =>
    intro stays
    have before : s.Stays call := by
      intro r member
      have now := stays r (invocations_kept enabled member)
      have grows := (s.system.step_runner action.action r).yields_le fun creates =>
        counted.not_task enabled creates (task_of_invocation member)
      exact Nat.le_zero.mp (now ▸ grows)
    change s.begun ++ s.begins call action.action = s.ended ++ s.ends call action.action ∨
      ∃ r, s.begun ++ s.begins call action.action =
        (s.ended ++ s.ends call action.action) ++ [r]
    rcases s.begins_cases call action.action with none | ⟨t, r, invokes, starts, one⟩
    · rcases s.ends_cases call action.action with also | ⟨t, r, invokes, finishes, one⟩
      · simpa [none, also, InTurn] using sequenced.inTurn before
      · rw [finishes] at guard
        left
        rw [none, one, List.append_nil]
        exact sequenced.last_of_body before invokes guard.1
    · have ends : s.ends call action.action = [] := by
        rw [starts]
        rfl
      rw [starts] at guard
      right
      refine ⟨r, ?_⟩
      rw [one, ends, List.append_nil, sequenced.over_of_entered before invokes guard]

end Sequenced

end TimesState

namespace TimesCall.Run

variable {call : TimesCall} {actions : List TimesAction}

/-- On every scheduler the handler is invoked `n` times. -/
theorem counted (run : call.Run actions) :
    (timesSystem call).EveryState (TimesState.Counted call) {} actions :=
  ActionSystem.everyState_of_invariant
    (fun _ _ counted enabled contract => counted.step enabled contract.1)
    TimesState.Counted.initial run.legal run.contract

theorem sequenced (run : call.Run actions) (one : call.capacity = 1) :
    (timesSystem call).EveryState (TimesState.Sequenced call) {} actions :=
  ActionSystem.everyState_of_invariant
    (fun _ _ sequenced enabled contract => sequenced.step enabled contract one)
    TimesState.Sequenced.initial run.legal run.contract

/-- The invocations come one by one if there is only one of them, or if the
scheduler executes one closure at a time and the handler never gives up its thread. -/
theorem inTurn (run : call.Run actions)
    (calm : call.n = 1 ∨ call.capacity = 1 ∧ call.suspends = false) :
    (timesSystem call).EveryState TimesState.InTurn {} actions := by
  rcases calm with once | ⟨one, stays⟩
  · exact run.counted.imp fun _ counted => counted.inTurn_once once
  · exact ((run.sequenced one).and (run.stays stays)).imp fun _ both => both.1.inTurn both.2

theorem runsTimes (run : call.Run actions)
    (calm : call.n = 1 ∨ call.capacity = 1 ∧ call.suspends = false) :
    (timesSystem call).EveryState (TimesState.RunsTimes call) {} actions :=
  (run.counted.and (run.inTurn calm)).imp fun _ both =>
    { inTurn := both.2
      atMost := both.1.begun_length_le
      complete := both.1.ended_length }

end TimesCall.Run

end FlatAsync
