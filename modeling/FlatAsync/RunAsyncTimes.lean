import FlatAsync.RunnerSteps
import Mathlib.Data.Finset.Card

/-!
# Running a handler many times

`RunAsyncTimes` creates one task.  Its body is the handler if the handler is to
be run once, and a loop that calls `RunAsync` for every run otherwise.  This
file follows one such call among any number of tasks and records which tasks
have invoked the handler and which invocations have ended.

The handler is invoked `n` times on every scheduler.
-/

namespace FlatAsync

/-- A call of `RunAsyncTimes`.  `scheduler` is the scheduler of the calling code
and `capacity` the number of its closures that can be executed at a time: one
for a strand, the number of threads for a pool.  `suspends` tells whether the
handler may give up its thread before it ends. -/
structure TimesCall where
  n : Nat
  scheduler : SchedulerId
  capacity : Nat
  suspends : Bool
  n_pos : 0 < n
  capacity_pos : 0 < capacity

/-- `launcher` is the task that `RunAsyncTimes` creates and `children` lists
those its loop has created; `begun` and `ended` record the tasks whose
invocation of the handler has begun and has ended. -/
structure TimesState where
  system : System := {}
  launcher : Option RunnerId := none
  children : List RunnerId := []
  begun : List RunnerId := []
  ended : List RunnerId := []

/-- `runAsyncTimes` is the call under observation, made by a thread; `runner` is
any step of the runner system. -/
inductive TimesAction
  | runAsyncTimes (thread : ThreadId) (created : RunnerId)
  | runner (action : Action)
  deriving DecidableEq, Repr

/-- The step of the runner system in a step: `RunAsyncTimes` calls `RunAsync`. -/
def TimesAction.action : TimesAction → Action
  | .runAsyncTimes t created => .runAsyncHere t created
  | .runner action => action

namespace TimesState

variable (call : TimesCall) (s : TimesState)

def tasks : List RunnerId :=
  s.launcher.toList ++ s.children

def invocations : List RunnerId :=
  if call.n = 1 then s.launcher.toList else s.children

/-- Thread `t` executes the loop of the launcher. -/
def Loops (t : ThreadId) : Prop :=
  call.n ≠ 1 ∧ ∃ r ∈ s.launcher, (s.system.threads t).pc = .body r

instance (t : ThreadId) : Decidable (s.Loops call t) :=
  inferInstanceAs (Decidable (_ ∧ _))

/-- The loop calls `RunAsync` while `i < n` and nothing else. -/
def LoopGuard : Action → Prop
  | .runAsyncHere t _ => s.Loops call t → s.children.length < call.n
  | .finish t _ => s.Loops call t → s.children.length = call.n
  | action => ∀ t ∈ action.thread, ¬ s.Loops call t

instance : ∀ action, Decidable (s.LoopGuard call action)
  | .runAsyncHere .. | .finish .. => inferInstanceAs (Decidable (_ → _))
  | .runAsync .. | .currentScheduler .. | .dispatch .. | .enter .. | .handleEvents ..
  | .disableEvents .. | .enableEvents .. | .defer .. | .switchTo .. | .enterGuard ..
  | .enterAccess .. | .leaveScope .. | .raise .. | .catchException .. | .onExit ..
  | .callProceed .. | .returnHandler .. | .detach .. | .proceed .. | .setStatus ..
  | .reset .. => inferInstanceAs (Decidable (∀ t ∈ _, _))

def Enabled (action : TimesAction) : Prop :=
  s.system.Enabled action.action ∧
    match action with
    | .runAsyncTimes t _ =>
        s.launcher = none ∧ s.system.currentScheduler t = call.scheduler
    | .runner action => s.LoopGuard call action

instance : ∀ action, Decidable (s.Enabled call action)
  | .runAsyncTimes .. => inferInstanceAs (Decidable (_ ∧ _ ∧ _))
  | .runner _ => inferInstanceAs (Decidable (_ ∧ _))

def launches : TimesAction → List RunnerId
  | .runner (.runAsyncHere t created) => if s.Loops call t then [created] else []
  | _ => []

/-- The task in which a step begins to invoke the handler. -/
def begins : Action → List RunnerId
  | .enter _ r .start => if r ∈ s.invocations call then [r] else []
  | _ => []

/-- The task in which a step ends the invocation of the handler, normally or by
a `std::exception` that the closure of the task has caught. -/
def ends : Action → List RunnerId
  | .finish _ r => if r ∈ s.invocations call then [r] else []
  | _ => []

def step (action : TimesAction) : TimesState where
  system := s.system.step action.action
  launcher :=
    match action with
    | .runAsyncTimes _ created => some created
    | .runner _ => s.launcher
  children := s.children ++ s.launches call action
  begun := s.begun ++ s.begins call action.action
  ended := s.ended ++ s.ends call action.action

/-- The handler has not given up the thread in any of its invocations. -/
def Stays : Prop :=
  ∀ r ∈ s.invocations call, (s.system.runners r).yields = 0

/-- The invocations have ended in the order they began in, and at most one of
them goes on. -/
def InTurn : Prop :=
  s.begun = s.ended ∨ ∃ r, s.begun = s.ended ++ [r]

/-- Nothing is left to do for a task: no closure is posted for it, no thread
executes it and nobody is to call its proceed handler. -/
def Settled (r : RunnerId) : Prop :=
  (∀ closure ∈ s.system.posted, closure.runner ≠ r) ∧
    (∀ t, (s.system.threads t).pc.role r = none) ∧ (s.system.runners r).answer ≠ .holders

/-- The handler runs `n` times, one by one: never more often, and no less often
once nothing is left to do for the tasks of the call. -/
structure RunsTimes : Prop where
  inTurn : s.InTurn
  atMost : s.begun.length ≤ call.n
  complete : s.launcher.isSome → (∀ r ∈ s.tasks, s.Settled r) → s.ended.length = call.n

end TimesState

/-- One call of `RunAsyncTimes` among any number of tasks. -/
def timesSystem (call : TimesCall) : ActionSystem TimesState TimesAction where
  enabled s := s.Enabled call
  next s := s.step call

instance (call : TimesCall) (s : TimesState) (action : TimesAction) :
    Decidable ((timesSystem call).enabled s action) :=
  inferInstanceAs (Decidable (s.Enabled call action))

namespace TimesCall

variable (call : TimesCall)

/-- What asio promises about the scheduler of the call: a closure is taken up
only while fewer threads than its capacity are at work for it. -/
def CapacityContract (s : TimesState) : TimesAction → Prop
  | .runner (.dispatch _ closure) =>
      closure.scheduler = call.scheduler →
        ∀ busy : Finset ThreadId,
          (∀ t ∈ busy, (s.system.threads t).pc ≠ .idle ∧
            (s.system.threads t).dispatchedBy = call.scheduler) →
          busy.card < call.capacity
  | _ => True

def Contract (s : TimesState) (action : TimesAction) : Prop :=
  ProceedContract s.system action.action ∧ call.CapacityContract s action

/-- A run of the call with its handler on its scheduler. -/
structure Run (actions : List TimesAction) : Prop where
  legal : (timesSystem call).Legal {} actions
  contract : (timesSystem call).EveryStep call.Contract {} actions
  stays : call.suspends = false →
    (timesSystem call).EveryState (TimesState.Stays call) {} actions

end TimesCall

/-! ### The tasks of the call -/

namespace TimesState

variable {call : TimesCall} {s : TimesState} {action : TimesAction} {r : RunnerId}

theorem mem_tasks : r ∈ s.tasks ↔ s.launcher = some r ∨ r ∈ s.children := by
  simp [tasks]

theorem task_of_invocation (invokes : r ∈ s.invocations call) : r ∈ s.tasks := by
  rw [mem_tasks]
  unfold invocations at invokes
  split at invokes
  · exact .inl (by simpa using invokes)
  · exact .inr invokes

theorem begins_cases (call : TimesCall) (s : TimesState) (action : Action) :
    s.begins call action = [] ∨
      ∃ t r, r ∈ s.invocations call ∧ action = .enter t r .start ∧ s.begins call action = [r] := by
  unfold begins
  split
  next t r =>
    split
    next invokes => exact .inr ⟨t, r, invokes, rfl, rfl⟩
    next => exact .inl rfl
  next => exact .inl rfl

theorem ends_cases (call : TimesCall) (s : TimesState) (action : Action) :
    s.ends call action = [] ∨
      ∃ t r, r ∈ s.invocations call ∧ action = .finish t r ∧ s.ends call action = [r] := by
  unfold ends
  split
  next t r =>
    split
    next invokes => exact .inr ⟨t, r, invokes, rfl, rfl⟩
    next => exact .inl rfl
  next => exact .inl rfl

theorem launches_cases (call : TimesCall) (s : TimesState) (action : TimesAction) :
    s.launches call action = [] ∨
      ∃ t r, s.Loops call t ∧ action = .runner (.runAsyncHere t r) ∧
        s.launches call action = [r] := by
  unfold launches
  split
  next t r =>
    split
    next loops => exact .inr ⟨t, r, loops, rfl, rfl⟩
    next => exact .inl rfl
  next => exact .inl rfl

private theorem mem_begins {action : Action} :
    r ∈ s.begins call action ↔ r ∈ s.invocations call ∧ ∃ t, action = .enter t r .start := by
  constructor
  · intro begins
    rcases s.begins_cases call action with none | ⟨t, q, invokes, rfl, one⟩
    · simp [none] at begins
    · obtain rfl : r = q := by simpa [one] using begins
      exact ⟨invokes, t, rfl⟩
  · rintro ⟨invokes, t, rfl⟩
    simp [TimesState.begins, invokes]

private theorem mem_ends {action : Action} :
    r ∈ s.ends call action ↔ r ∈ s.invocations call ∧ ∃ t, action = .finish t r := by
  constructor
  · intro ends
    rcases s.ends_cases call action with none | ⟨t, q, invokes, rfl, one⟩
    · simp [none] at ends
    · obtain rfl : r = q := by simpa [one] using ends
      exact ⟨invokes, t, rfl⟩
  · rintro ⟨invokes, t, rfl⟩
    simp [TimesState.ends, invokes]

def Adds (call : TimesCall) (s : TimesState) (action : TimesAction) (r : RunnerId) : Prop :=
  (∃ t, action = .runAsyncTimes t r) ∨
    ∃ t, s.Loops call t ∧ action = .runner (.runAsyncHere t r)

theorem Adds.creates (adds : s.Adds call action r) : action.action.creates = some r := by
  rcases adds with ⟨t, rfl⟩ | ⟨t, -, rfl⟩ <;> rfl

theorem launcher_step (launcher : (s.step call action).launcher = some r) :
    s.launcher = some r ∨ s.Adds call action r := by
  cases action with
  | runAsyncTimes t created =>
      obtain rfl := Option.some.inj launcher
      exact .inr (.inl ⟨t, rfl⟩)
  | runner action => exact .inl launcher

theorem child_step (child : r ∈ (s.step call action).children) :
    r ∈ s.children ∨ s.Adds call action r := by
  rcases List.mem_append.mp child with old | new
  · exact .inl old
  · rcases s.launches_cases call action with none | ⟨t, q, loops, rfl, one⟩
    · simp [none] at new
    · obtain rfl : r = q := by simpa [one] using new
      exact .inr (.inr ⟨t, loops, rfl⟩)

theorem tasks_step (member : r ∈ (s.step call action).tasks) :
    r ∈ s.tasks ∨ s.Adds call action r := by
  simp only [mem_tasks] at member ⊢
  rcases member with launcher | child
  · exact (launcher_step launcher).imp_left .inl
  · exact (child_step child).imp_left .inr

theorem invocations_step (member : r ∈ (s.step call action).invocations call) :
    r ∈ s.invocations call ∨ s.Adds call action r := by
  unfold invocations at member ⊢
  split at member
  next once =>
    rw [if_pos once]
    simp only [Option.mem_toList] at member ⊢
    exact launcher_step member
  next many =>
    rw [if_neg many]
    exact child_step member

/-- The loop of the launcher creates children until there are `n` of them. -/
theorem loop_step (enabled : s.Enabled call action) {t : ThreadId} (loops : s.Loops call t)
    (own : action.action.thread = some t) :
    (∃ q, action.action = .runAsyncHere t q) ∨
      ∃ q, action.action = .finish t q ∧ s.children.length = call.n := by
  cases action with
  | runAsyncTimes u q =>
      obtain rfl := Option.some.inj own
      exact .inl ⟨q, rfl⟩
  | runner action =>
      cases action with
      | runAsyncHere u q =>
          obtain rfl := Option.some.inj own
          exact .inl ⟨q, rfl⟩
      | finish u q =>
          obtain rfl := Option.some.inj own
          exact .inr ⟨q, rfl, enabled.2 loops⟩
      | _ => exact absurd loops (enabled.2 t own)

private theorem launcher_kept (enabled : s.Enabled call action) (launcher : s.launcher = some r) :
    (s.step call action).launcher = some r := by
  cases action with
  | runAsyncTimes t created =>
      have uncalled : s.launcher = none := enabled.2.1
      simp [uncalled] at launcher
  | runner action => exact launcher

theorem invocations_kept (enabled : s.Enabled call action)
    (member : r ∈ s.invocations call) : r ∈ (s.step call action).invocations call := by
  unfold invocations at member ⊢
  split at member
  next once =>
    rw [if_pos once]
    simp only [Option.mem_toList] at member ⊢
    exact launcher_kept enabled member
  next many =>
    rw [if_neg many]
    exact List.mem_append_left _ member

private theorem empty_of_creates (creates : action.action.creates = some r) :
    ((s.system.step action.action).runners r).coroHelper = .empty := by
  obtain ⟨home, created⟩ := s.system.runner_of_creates creates
  rw [created]

/-- A record lists the invocations whose coroutine is in one of the states `P`. It
stays right in a step that records those that get there. -/
theorem recorded_step {P : CoroHelper → Prop} {Gets : Prop} {old added : List RunnerId}
    (enabled : s.Enabled call action) (outside : ¬ P .empty)
    (recorded : r ∈ old ↔ r ∈ s.invocations call ∧ P (s.system.runners r).coroHelper)
    (records : r ∈ added ↔ r ∈ s.invocations call ∧ Gets)
    (gets : r ∈ s.invocations call →
      (P ((s.system.step action.action).runners r).coroHelper ↔
        P (s.system.runners r).coroHelper ∨ Gets)) :
    r ∈ old ++ added ↔ r ∈ (s.step call action).invocations call ∧
      P ((s.system.step action.action).runners r).coroHelper := by
  rw [List.mem_append, recorded, records, ← and_or_left]
  by_cases member : r ∈ s.invocations call
  · simp only [member, invocations_kept enabled member, gets member]
  · constructor
    · exact fun before => absurd before.1 member
    · rintro ⟨new, there⟩
      have creates := ((invocations_step new).resolve_left member).creates
      exact absurd (empty_of_creates creates ▸ there) outside

/-! ### The count -/

/-- The records of the call agree with the life of its tasks: an invocation has
begun when the coroutine of its task was started, and has ended when the coroutine
has finished. -/
structure Counted (call : TimesCall) (s : TimesState) : Prop where
  life : LifeInvariant s.system
  born : ∀ r ∈ s.tasks, (s.system.runners r).stage ≠ .unborn
  nodup : s.children.Nodup
  length_le : s.children.length ≤ call.n
  complete : call.n ≠ 1 → ∀ r, s.launcher = some r →
    (s.system.runners r).coroHelper = .finished → s.children.length = call.n
  mem_begun : ∀ r, r ∈ s.begun ↔
    r ∈ s.invocations call ∧ (s.system.runners r).coroHelper ≠ .empty
  mem_ended : ∀ r, r ∈ s.ended ↔
    r ∈ s.invocations call ∧ (s.system.runners r).coroHelper = .finished
  begun_nodup : s.begun.Nodup
  ended_nodup : s.ended.Nodup

namespace Counted

theorem initial : Counted call {} where
  life := LifeInvariant.initial
  born := by simp [tasks]
  nodup := List.nodup_nil
  length_le := Nat.zero_le _
  complete := by simp
  mem_begun := by simp [invocations]
  mem_ended := by simp [invocations]
  begun_nodup := List.nodup_nil
  ended_nodup := List.nodup_nil

theorem not_task (counted : Counted call s) (enabled : s.Enabled call action)
    (creates : action.action.creates = some r) : r ∉ s.tasks := by
  intro member
  exact counted.born r member (System.unborn_of_creates enabled.1.2 creates)

/-- No thread is inside the loop once the coroutine of the launcher has finished. -/
theorem not_loops (counted : Counted call s) (launcher : s.launcher = some r)
    (finished : (s.system.runners r).coroHelper = .finished) (t : ThreadId) :
    ¬ s.Loops call t := by
  rintro ⟨-, q, member, runs⟩
  obtain rfl : r = q := Option.some.inj (launcher.symm.trans member)
  simp [System.running_of_body counted.life.phases runs] at finished

theorem complete_step (counted : Counted call s) (enabled : s.Enabled call action)
    (many : call.n ≠ 1) (launcher : (s.step call action).launcher = some r)
    (ended : ((s.system.step action.action).runners r).coroHelper = .finished) :
    (s.children ++ s.launches call action).length = call.n := by
  have old : s.launcher = some r := by
    apply (launcher_step launcher).resolve_right
    intro adds
    simp [empty_of_creates adds.creates] at ended
  have born := counted.born r (mem_tasks.mpr (.inl old))
  rcases (System.step_finished counted.life.phases enabled.1.2 born).mp ended with
    before | ⟨t, ends⟩
  · rcases s.launches_cases call action with none | ⟨t, q, loops, -⟩
    · simpa [none] using counted.complete many r old before
    · exact absurd loops (counted.not_loops old before t)
  · obtain rfl : action = .runner (.finish t r) := by
      cases action with
      | runAsyncTimes => cases ends
      | runner action => exact congrArg TimesAction.runner ends
    have whole : s.children.length = call.n := enabled.2 ⟨many, r, old, enabled.1.2.1⟩
    simpa [launches] using whole

theorem step (counted : Counted call s) (enabled : s.Enabled call action)
    (contract : ProceedContract s.system action.action) : Counted call (s.step call action) := by
  have phases := counted.life.phases
  have guard := enabled.1.2
  constructor
  case life => exact counted.life.step enabled.1 contract
  case born =>
    intro r member
    rcases tasks_step member with old | new
    · exact (s.system.step_runner action.action r).stage_ne_unborn (counted.born r old)
    · obtain ⟨home, created⟩ := s.system.runner_of_creates new.creates
      change ((s.system.step action.action).runners r).stage ≠ .unborn
      simp [created]
  case nodup =>
    change (s.children ++ s.launches call action).Nodup
    rcases s.launches_cases call action with none | ⟨t, r, -, rfl, one⟩
    · simpa [none] using counted.nodup
    · have new : r ∉ s.tasks := counted.not_task enabled rfl
      rw [one, ← List.concat_eq_append]
      exact counted.nodup.concat fun old => new (mem_tasks.mpr (.inr old))
  case length_le =>
    change (s.children ++ s.launches call action).length ≤ call.n
    rcases s.launches_cases call action with none | ⟨t, r, loops, rfl, one⟩
    · simpa [none] using counted.length_le
    · have more : s.children.length < call.n := enabled.2 loops
      rw [one, List.length_append, List.length_singleton]
      exact more
  case complete =>
    intro many r launcher ended
    exact counted.complete_step enabled many launcher ended
  case mem_begun =>
    intro r
    apply recorded_step (P := (· ≠ .empty)) enabled (by simp) (counted.mem_begun r) mem_begins
    intro member
    exact System.step_started phases guard (counted.born r (task_of_invocation member))
  case mem_ended =>
    intro r
    apply recorded_step (P := (· = .finished)) enabled (by simp) (counted.mem_ended r) mem_ends
    intro member
    exact System.step_finished phases guard (counted.born r (task_of_invocation member))
  case begun_nodup =>
    change (s.begun ++ s.begins call action.action).Nodup
    rcases s.begins_cases call action.action with none | ⟨t, r, -, starts, one⟩
    · simpa [none] using counted.begun_nodup
    · have new : r ∉ s.begun := by
        rw [starts] at guard
        simp [counted.mem_begun, phases.empty_of_entered guard]
      rw [one, ← List.concat_eq_append]
      exact counted.begun_nodup.concat new
  case ended_nodup =>
    change (s.ended ++ s.ends call action.action).Nodup
    rcases s.ends_cases call action.action with none | ⟨t, r, -, finishes, one⟩
    · simpa [none] using counted.ended_nodup
    · have new : r ∉ s.ended := by
        rw [finishes] at guard
        simp [counted.mem_ended, System.running_of_body phases guard.1]
      rw [one, ← List.concat_eq_append]
      exact counted.ended_nodup.concat new

theorem invocations_nodup (counted : Counted call s) : (s.invocations call).Nodup := by
  unfold invocations
  split
  · cases s.launcher <;> simp
  · exact counted.nodup

theorem invocations_length_le (counted : Counted call s) :
    (s.invocations call).length ≤ call.n := by
  unfold invocations
  split
  next once =>
    rw [once]
    cases s.launcher <;> simp
  next many => exact counted.length_le

theorem begun_length_le (counted : Counted call s) : s.begun.length ≤ call.n := by
  have invoked : s.begun ⊆ s.invocations call := fun r begun =>
    ((counted.mem_begun r).mp begun).1
  have fewer := (List.subperm_of_subset counted.begun_nodup invoked).length_le
  exact fewer.trans counted.invocations_length_le

/-- When nothing is left to do for the tasks of a call, the handler has been invoked
`n` times and all invocations have ended. -/
theorem ended_length (counted : Counted call s) (called : s.launcher.isSome)
    (settled : ∀ r ∈ s.tasks, s.Settled r) : s.ended.length = call.n := by
  have finished (r : RunnerId) (task : r ∈ s.tasks) :
      (s.system.runners r).coroHelper = .finished := by
    obtain ⟨unposted, unheld, unparked⟩ := settled r task
    apply (counted.life.phases r).finished_of_settled (counted.born r task) _ unheld unparked
    simpa [System.view] using unposted
  have whole : (s.invocations call).length = call.n := by
    obtain ⟨launcher, member⟩ := Option.isSome_iff_exists.mp called
    unfold invocations
    split
    next once => simp [once, member]
    next many =>
      exact counted.complete many launcher member (finished launcher (by simp [mem_tasks, member]))
  have same : s.ended.Perm (s.invocations call) := by
    apply (List.perm_ext_iff_of_nodup counted.ended_nodup counted.invocations_nodup).mpr
    intro r
    rw [counted.mem_ended]
    constructor
    · exact And.left
    · exact fun invokes => ⟨invokes, finished r (task_of_invocation invokes)⟩
  rw [same.length_eq, whole]

theorem inTurn_once (counted : Counted call s) (once : call.n = 1) : s.InTurn := by
  have ended_begun : s.ended ⊆ s.begun := by
    intro r ended
    obtain ⟨invokes, finished⟩ := (counted.mem_ended r).mp ended
    exact (counted.mem_begun r).mpr ⟨invokes, by simp [finished]⟩
  have fewer := (List.subperm_of_subset counted.ended_nodup ended_begun).length_le
  have most := counted.begun_length_le
  rw [once] at most
  rcases Nat.eq_zero_or_pos s.ended.length with none | some
  · have nothing : s.ended = [] := List.eq_nil_of_length_eq_zero none
    rcases Nat.eq_zero_or_pos s.begun.length with also | one
    · left
      rw [nothing, List.eq_nil_of_length_eq_zero also]
    · obtain ⟨r, begun⟩ := List.length_eq_one_iff.mp (le_antisymm most one)
      exact .inr ⟨r, by rw [begun, nothing, List.nil_append]⟩
  · left
    have same := (List.subperm_of_subset counted.ended_nodup ended_begun).perm_of_length_le
      (most.trans some)
    obtain ⟨r, begun⟩ := List.length_eq_one_iff.mp (le_antisymm most (some.trans_le fewer))
    rw [begun] at same ⊢
    exact (List.perm_singleton.mp same).symm

end Counted

end TimesState

end FlatAsync
