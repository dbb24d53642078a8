import FlatAsync.ListenPort
import FlatAsync.RunnerFrames
import FlatAsync.TcpSocket

/-!
# Calls of `DeferIo`

A task that reads, writes, connects or resolves a name calls `DeferIo`.  Its completion
handler refers to variables on the stack of the task: `error` in `DeferIo`, and the buffer or
the end points of its caller.  The operation completes at any time and on any thread.

This file embeds `DeferIo`, its handlers and `Resolver::Resolve` on the runner system, for
tasks on any schedulers and threads, and shows that no handler ever refers to a stack frame
that is gone.
-/

namespace FlatAsync

/-- What an operation passes to its handler, and the bytes that it has put into the buffer. -/
structure IoOutcome (Address : Type) where
  error : ErrorType := .success
  data : Buffer := []
  endPoints : List (EndPoint Address) := []
  deriving DecidableEq, Repr

/-- The variable of a caller of `DeferIo` that is written to: none in `Write` and `Connect`,
the buffer of `ReadExact` and `ReadPartial`, that of `ReadUntil`, or `result` in
`Resolver::Resolve`. -/
inductive IoVariable (Address : Type)
  | nothing
  | buffer (bytes : Buffer)
  | streambuf (bytes : Buffer)
  | endPoints (result : List (EndPoint Address))
  deriving DecidableEq, Repr

/-- A closure that a call of `DeferIo` has given away: in `defer_handler_`, called by `OnExit`
on a thread, with an operation that is under way, or as a completion handler that has
written and will call `proceed`. -/
inductive IoStage
  | stored
  | called (thread : ThreadId)
  | underWay
  | written
  deriving DecidableEq, Repr

structure IoOperation where
  call : Nat
  stage : IoStage := .stored
  deriving DecidableEq, Repr

/-- The stack frame of the `call`-th call of a task, with `before` to record what was in the
variable of the caller. -/
structure IoFrame (Address : Type) where
  call : Nat
  before : IoVariable Address
  error : ErrorType := .success
  value : IoVariable Address
  deriving DecidableEq, Repr

structure IoReturn (Address : Type) where
  call : Nat
  before : IoVariable Address
  error : ErrorType
  value : IoVariable Address
  deriving DecidableEq, Repr

/-- The calls of a task: their number, the frame of the present one, the closures that they
have given away, and a record of what was delivered and returned. -/
structure IoTask (Address : Type) where
  calls : Nat := 0
  frame : Option (IoFrame Address) := none
  operations : List IoOperation := []
  delivered : List (Nat × IoOutcome Address) := []
  returned : List (IoReturn Address) := []
  deriving DecidableEq, Repr

structure IoState (Address : Type) where
  system : System := {}
  tasks : RunnerId → IoTask Address := fun _ => {}
  undefined : Bool := false

/-- The steps of runners; and a task that calls `DeferIo`, a defer handler that starts its
operation, an operation that completes, and a completion handler that calls `proceed`. -/
inductive IoAction (Address : Type)
  | runner (action : Action)
  | deferIo (thread : ThreadId) (runner : RunnerId) (before : IoVariable Address)
  | initiate (thread : ThreadId) (runner : RunnerId) (call : Nat)
  | complete (runner : RunnerId) (call : Nat) (outcome : IoOutcome Address)
  | proceed (runner : RunnerId) (call : Nat)
  deriving DecidableEq, Repr

variable {Address : Type}

/-- What the handlers make of the variable.  Bytes go to the beginning of a buffer, which
`BufferIoHandler` resizes if there is no error; a `streambuf` grows. -/
def IoVariable.write (outcome : IoOutcome Address) : IoVariable Address → IoVariable Address
  | .nothing => .nothing
  | .buffer bytes =>
      let filled := outcome.data ++ bytes.drop outcome.data.length
      .buffer (if outcome.error = .success then filled.take outcome.data.length else filled)
  | .streambuf bytes => .streambuf (bytes ++ outcome.data)
  | .endPoints result =>
      .endPoints (if outcome.error = .success then outcome.endPoints else result)

def IoOperation.isCalledBy (thread : ThreadId) (operation : IoOperation) : Bool :=
  operation.stage = .called thread

/-- The operation at the first of two stages moves to the second one. -/
def IoOperation.advance (moving next operation : IoOperation) : IoOperation :=
  if operation = moving then next else operation

namespace IoTask

variable (task : IoTask Address)

def Refers (call : Nat) : Prop :=
  ∃ frame ∈ task.frame, frame.call = call

instance (call : Nat) : Decidable (task.Refers call) :=
  inferInstanceAs (Decidable (∃ frame ∈ task.frame, frame.call = call))

/-- `DeferIo` up to the `Yield()` of its `Defer`. -/
def begin (before : IoVariable Address) : IoTask Address :=
  { task with
    calls := task.calls + 1
    frame := some { call := task.calls, before := before, value := before }
    operations := task.operations ++ [{ call := task.calls }] }

/-- `OnExit` on that thread takes the stored handler. -/
def callStored (thread : ThreadId) : IoTask Address :=
  { task with
    operations := task.operations.map fun operation =>
      if operation.stage = .stored then { operation with stage := .called thread }
      else operation }

/-- The handler starts its operation. -/
def initiate (thread : ThreadId) (call : Nat) : IoTask Address :=
  { task with
    operations := task.operations.map
      (IoOperation.advance ⟨call, .called thread⟩ ⟨call, .underWay⟩) }

/-- The completion handler writes. -/
def complete (call : Nat) (outcome : IoOutcome Address) : IoTask Address :=
  { task with
    frame := task.frame.map fun frame =>
      { frame with error := outcome.error, value := frame.value.write outcome }
    operations := task.operations.map (IoOperation.advance ⟨call, .underWay⟩ ⟨call, .written⟩)
    delivered := task.delivered ++ [(call, outcome)] }

/-- The completion handler has called `proceed`. -/
def proceed (call : Nat) : IoTask Address :=
  { task with operations := task.operations.erase ⟨call, .written⟩ }

/-- The coroutine goes on: `DeferIo` returns, or `HandleEvents` throws. -/
def resume (throws : Bool) : IoTask Address :=
  match task.frame with
  | some frame =>
      { task with
        frame := none
        returned :=
          if throws then task.returned
          else task.returned ++ [⟨frame.call, frame.before, frame.error, frame.value⟩] }
  | none => task

end IoTask

namespace IoState

variable (s : IoState Address)

def setTask (r : RunnerId) (task : IoTask Address) : IoState Address :=
  { s with tasks := Function.update s.tasks r task }

def tasksAfter : Action → RunnerId → IoTask Address
  | .onExit t r => Function.update s.tasks r ((s.tasks r).callStored t)
  | .enter t r .proceed =>
      Function.update s.tasks r ((s.tasks r).resume (s.system.handleEvents t r).isSome)
  | _ => s.tasks

def step : IoAction Address → IoState Address
  | .runner action => { s with system := s.system.step action, tasks := s.tasksAfter action }
  | .deferIo t r before =>
      match s.system.handleEvents t r with
      | some _ => { s with system := s.system.step (.defer t r) }
      | none =>
          { s with system := s.system.step (.defer t r) }.setTask r ((s.tasks r).begin before)
  | .initiate t r call =>
      if (s.tasks r).Refers call then s.setTask r ((s.tasks r).initiate t call)
      else { s with undefined := true }
  | .complete r call outcome =>
      if (s.tasks r).Refers call then s.setTask r ((s.tasks r).complete call outcome)
      else { s with undefined := true }
  | .proceed r call =>
      if (s.system.runners r).stage = .alive then
        { s with system := s.system.step (.proceed r) }.setTask r ((s.tasks r).proceed call)
      else { s with undefined := true }

/-- A defer handler does not return before it has started its operation. -/
def mayReturn : Action → Bool
  | .returnHandler t r => !(s.tasks r).operations.any (IoOperation.isCalledBy t)
  | _ => true

def Guard : IoAction Address → Prop
  | .runner action => s.system.Guard action ∧ s.mayReturn action = true
  | .deferIo t r _ => s.system.Guard (.defer t r)
  | .initiate t r call =>
      (s.system.threads t).pc = .deferring r .callable ∧
        ⟨call, .called t⟩ ∈ (s.tasks r).operations
  | .complete r call _ => ⟨call, .underWay⟩ ∈ (s.tasks r).operations
  | .proceed r call => ⟨call, .written⟩ ∈ (s.tasks r).operations

instance : ∀ action, Decidable (s.Guard action)
  | .runner _ | .initiate .. => inferInstanceAs (Decidable (_ ∧ _))
  | .deferIo t r _ => inferInstanceAs (Decidable (s.system.Guard (.defer t r)))
  | .complete .. | .proceed .. => inferInstanceAs (Decidable (_ ∈ _))

/-- No step follows undefined behaviour or `std::terminate`. -/
def Enabled (action : IoAction Address) : Prop :=
  s.undefined = false ∧ s.system.terminated = false ∧ s.Guard action

instance (action : IoAction Address) : Decidable (s.Enabled action) :=
  inferInstanceAs (Decidable (_ ∧ _))

def runnerCalls : IoAction Address → List Action
  | .runner action => [action]
  | .deferIo t r _ => [.defer t r]
  | .initiate .. | .complete .. => []
  | .proceed r _ => [.proceed r]

end IoState

/-- Any number of tasks that call `DeferIo`. -/
def ioSystem (Address : Type) : ActionSystem (IoState Address) (IoAction Address) where
  enabled := IoState.Enabled
  next := IoState.step

instance (s : IoState Address) (action : IoAction Address) :
    Decidable ((ioSystem Address).enabled s action) :=
  inferInstanceAs (Decidable (s.Enabled action))

def runnerTrace (actions : List (IoAction Address)) : List Action :=
  (ioSystem Address).trace (fun _ => IoState.runnerCalls) {} actions

def Action.proceeds : Action → Option RunnerId
  | .proceed r => some r
  | _ => none

/-- The proceed handlers of other suspensions are used as the runners ask for, and none of
them answers a call of `DeferIo`. -/
def IoContract (s : IoState Address) : IoAction Address → Prop
  | .runner action =>
      ∀ r ∈ action.proceeds, (s.system.runners r).answer = .holders ∧ (s.tasks r).frame = none
  | .deferIo .. | .initiate .. | .complete .. | .proceed .. => True

instance (s : IoState Address) : ∀ action, Decidable (IoContract s action)
  | .runner action =>
      inferInstanceAs (Decidable (∀ r ∈ action.proceeds,
        (s.system.runners r).answer = .holders ∧ (s.tasks r).frame = none))
  | .deferIo .. | .initiate .. | .complete .. | .proceed .. => inferInstanceAs (Decidable True)

/-! ### Frames and closures -/

/-- The coroutine waits in a call of `DeferIo`. -/
structure AsyncRunner.WaitsInDefer (runner : AsyncRunner) : Prop where
  alive : runner.stage = .alive
  suspended : runner.coroHelper = .suspended .defer

/-- Before `OnExit` the runner has the handler, and then the closures hold the one that
answers. -/
def IoStage.Fits (runner : AsyncRunner) : IoStage → Prop
  | .stored => runner.deferHandler = some .callable
  | .called _ | .underWay | .written => runner.answer = .holders

structure IoFrame.Untouched (delivered : List (Nat × IoOutcome Address))
    (frame : IoFrame Address) : Prop where
  value : frame.value = frame.before
  undelivered : frame.call ∉ delivered.map Prod.fst

/-- The variables are as the outcome of the call's own operation makes them. -/
def OwnOutcome (delivered : List (Nat × IoOutcome Address)) (call : Nat)
    (before : IoVariable Address) (error : ErrorType) (value : IoVariable Address) : Prop :=
  ∃ outcome, (call, outcome) ∈ delivered ∧ error = outcome.error ∧ value = before.write outcome

def IoFrame.Filled (delivered : List (Nat × IoOutcome Address)) (frame : IoFrame Address) : Prop :=
  OwnOutcome delivered frame.call frame.before frame.error frame.value

def IoStage.Shows (delivered : List (Nat × IoOutcome Address)) (frame : IoFrame Address) :
    IoStage → Prop
  | .stored | .called _ | .underWay => frame.Untouched delivered
  | .written => frame.Filled delivered

/-- A task is in no call, or one closure refers to the frame of its call, or the call has been
answered and the task will go on. -/
inductive IoPhase (runner : AsyncRunner) (task : IoTask Address) : Prop
  | outside (left : task.frame = none) (operations : task.operations = [])
  | pending (frame : IoFrame Address) (stage : IoStage) (here : task.frame = some frame)
      (operations : task.operations = [⟨frame.call, stage⟩]) (waits : runner.WaitsInDefer)
      (fits : stage.Fits runner) (content : stage.Shows task.delivered frame)
  | answered (frame : IoFrame Address) (here : task.frame = some frame)
      (operations : task.operations = []) (waits : runner.WaitsInDefer)
      (taken : runner.deferHandler = none) (answer : runner.answer = .nobody)
      (filled : frame.Filled task.delivered)

/-- Each call is delivered to once at most and returns what has been delivered to it. -/
structure IoTask.Recorded (task : IoTask Address) : Prop where
  latest : ∀ frame ∈ task.frame, frame.call + 1 = task.calls
  past : ∀ entry ∈ task.delivered, entry.1 < task.calls
  once : (task.delivered.map Prod.fst).Nodup
  returned : ∀ result ∈ task.returned, result.call < task.calls ∧
    ∀ frame ∈ task.frame, result.call ≠ frame.call
  distinct : (task.returned.map IoReturn.call).Nodup
  own : ∀ result ∈ task.returned,
    OwnOutcome task.delivered result.call result.before result.error result.value

section Records

variable {task : IoTask Address} {frame : IoFrame Address} {call : Nat}
variable {before value : IoVariable Address} {error : ErrorType} {outcome : IoOutcome Address}
variable {delivered : List (Nat × IoOutcome Address)}

theorem OwnOutcome.append (own : OwnOutcome delivered call before error value)
    (entry : Nat × IoOutcome Address) :
    OwnOutcome (delivered ++ [entry]) call before error value := by
  obtain ⟨outcome, member, result⟩ := own
  exact ⟨outcome, List.mem_append_left _ member, result⟩

namespace IoTask.Recorded

theorem begin (recorded : task.Recorded) : (task.begin before).Recorded where
  latest frame here := by
    obtain rfl := Option.some.inj here
    rfl
  past entry member := Nat.lt_succ_of_lt (recorded.past entry member)
  once := recorded.once
  returned result member := by
    have early := (recorded.returned result member).1
    refine ⟨Nat.lt_succ_of_lt early, fun frame here => ?_⟩
    obtain rfl := Option.some.inj here
    exact Nat.ne_of_lt early
  distinct := recorded.distinct
  own := recorded.own

theorem setOperations (recorded : task.Recorded) (operations : List IoOperation) :
    { task with operations := operations }.Recorded :=
  ⟨recorded.latest, recorded.past, recorded.once, recorded.returned, recorded.distinct,
    recorded.own⟩

theorem complete (recorded : task.Recorded) (here : task.frame = some frame)
    (untouched : frame.Untouched task.delivered) : (task.complete frame.call outcome).Recorded where
  latest other found := by
    obtain rfl : _ = other := by simpa [IoTask.complete, here] using found
    exact recorded.latest frame here
  past entry member := by
    rcases List.mem_append.mp member with old | new
    · exact recorded.past entry old
    · obtain rfl := List.mem_singleton.mp new
      exact Nat.lt_of_succ_le (recorded.latest frame here).le
  once := by
    simp only [IoTask.complete, List.map_append, List.map_cons, List.map_nil]
    exact recorded.once.append (List.nodup_singleton _)
      (List.disjoint_singleton.mpr untouched.undelivered)
  returned result member := by
    obtain ⟨early, other⟩ := recorded.returned result member
    refine ⟨early, fun changed found => ?_⟩
    obtain rfl : _ = changed := by simpa [IoTask.complete, here] using found
    exact other frame here
  distinct := recorded.distinct
  own result member := (recorded.own result member).append _

theorem resume (recorded : task.Recorded) (throws : Bool) (here : task.frame = some frame)
    (filled : frame.Filled task.delivered) : (task.resume throws).Recorded := by
  have latest := recorded.latest frame here
  simp only [IoTask.resume, here]
  refine ⟨fun _ none => by simp at none, recorded.past, recorded.once, ?_, ?_, ?_⟩
  · intro result member
    refine ⟨?_, fun _ none => by simp at none⟩
    cases throws with
    | true => exact (recorded.returned result member).1
    | false =>
        rcases List.mem_append.mp member with old | new
        · exact (recorded.returned result old).1
        · obtain rfl := List.mem_singleton.mp new
          dsimp only
          omega
  · cases throws with
    | true => exact recorded.distinct
    | false =>
        simp only [Bool.false_eq_true, if_false, List.map_append, List.map_cons, List.map_nil]
        refine recorded.distinct.append (List.nodup_singleton _) ?_
        rw [List.disjoint_singleton]
        intro member
        obtain ⟨result, old, same⟩ := List.mem_map.mp member
        exact (recorded.returned result old).2 frame here same
  · intro result member
    cases throws with
    | true => exact recorded.own result member
    | false =>
        rcases List.mem_append.mp member with old | new
        · exact recorded.own result old
        · obtain rfl := List.mem_singleton.mp new
          exact filled

end IoTask.Recorded

structure IoTask.Sound (runner : AsyncRunner) (task : IoTask Address) : Prop where
  phase : IoPhase runner task
  recorded : task.Recorded

namespace IoTask.Sound

variable {runner changed : AsyncRunner} {stage : IoStage} {thread : ThreadId}

theorem initially (runner : AsyncRunner) : IoTask.Sound runner ({} : IoTask Address) where
  phase := .outside rfl rfl
  recorded := by
    constructor <;> simp

theorem keep (sound : task.Sound runner) (same : changed.SameLife runner) :
    task.Sound changed := by
  refine ⟨?_, sound.recorded⟩
  have waits (waits : runner.WaitsInDefer) : changed.WaitsInDefer :=
    ⟨same.stage.trans waits.alive, same.coroHelper.trans waits.suspended⟩
  cases sound.phase with
  | outside left operations => exact .outside left operations
  | pending frame stage here operations waiting fits content =>
      refine .pending frame stage here operations (waits waiting) ?_ content
      cases stage with
      | stored => exact same.deferHandler.trans fits
      | called | underWay | written => exact same.answer.trans fits
  | answered frame here operations waiting taken answer filled =>
      exact .answered frame here operations (waits waiting) (same.deferHandler.trans taken)
        (same.answer.trans answer) filled

theorem unswitched (sound : task.Sound runner) (waiting : task.frame ≠ none) :
    runner.WaitsInDefer ∧ ¬ (runner.deferHandler = none ∧ runner.answer = .deferHandler) := by
  cases sound.phase with
  | outside left operations => exact absurd left waiting
  | pending frame stage here operations waits fits content =>
      refine ⟨waits, fun ⟨taken, answer⟩ => ?_⟩
      cases stage with
      | stored => exact absurd (taken.symm.trans fits) (by simp)
      | called | underWay | written => exact absurd (answer.symm.trans fits) (by simp)
  | answered frame here operations waits taken answer filled =>
      exact ⟨waits, fun ⟨_, switches⟩ => absurd (answer.symm.trans switches) (by simp)⟩

theorem left (sound : task.Sound runner) (left : task.frame = none) : task.Sound changed := by
  refine ⟨?_, sound.recorded⟩
  cases sound.phase with
  | outside left operations => exact .outside left operations
  | pending frame stage here | answered frame here => simp [left] at here

private theorem left_of_running (sound : task.Sound runner) (running : ¬ runner.WaitsInDefer) :
    task.frame = none ∧ task.operations = [] := by
  cases sound.phase with
  | outside left operations => exact ⟨left, operations⟩
  | pending frame stage here operations waits | answered frame here operations waits =>
      exact absurd waits running

theorem begin (sound : task.Sound runner) (running : ¬ runner.WaitsInDefer)
    (waits : changed.WaitsInDefer) (stored : changed.deferHandler = some .callable) :
    (task.begin before).Sound changed := by
  obtain ⟨-, none⟩ := sound.left_of_running running
  refine ⟨.pending _ .stored rfl (by simp [IoTask.begin, none]) waits stored ⟨rfl, ?_⟩,
    sound.recorded.begin⟩
  intro member
  obtain ⟨entry, old, same⟩ := List.mem_map.mp member
  have early := sound.recorded.past entry old
  dsimp only at same
  omega

/-- The closure that is pending refers to a frame that is on the stack. -/
theorem pending_of_mem (sound : task.Sound runner) (member : ⟨call, stage⟩ ∈ task.operations) :
    ∃ frame, task.frame = some frame ∧ frame.call = call ∧
      task.operations = [⟨call, stage⟩] ∧ runner.WaitsInDefer ∧ stage.Fits runner ∧
        stage.Shows task.delivered frame := by
  cases sound.phase with
  | outside left operations | answered frame here operations => simp [operations] at member
  | pending frame found here operations waits fits content =>
      rw [operations, List.mem_singleton, IoOperation.mk.injEq] at member
      obtain ⟨rfl, rfl⟩ := member
      exact ⟨frame, here, rfl, operations, waits, fits, content⟩

/-- `OnExit` finds the handler of the call that waits. -/
theorem stored (sound : task.Sound runner) (waiting : task.frame ≠ none)
    (stored : runner.deferHandler.isSome = true) (answer : runner.answer = .nobody) :
    ∃ frame, task.frame = some frame ∧ task.operations = [⟨frame.call, .stored⟩] ∧
      runner.deferHandler = some .callable ∧ frame.Untouched task.delivered := by
  cases sound.phase with
  | outside left operations => exact absurd left waiting
  | answered frame here operations waits taken => simp [taken] at stored
  | pending frame stage here operations waits fits content =>
      cases stage with
      | stored => exact ⟨frame, here, operations, fits, content⟩
      | called | underWay | written => exact absurd (answer.symm.trans fits) (by simp)

theorem callStored {frame : IoFrame Address} (sound : task.Sound runner)
    (here : task.frame = some frame) (operations : task.operations = [⟨frame.call, .stored⟩])
    (untouched : frame.Untouched task.delivered) (waits : changed.WaitsInDefer)
    (answer : changed.answer = .holders) : (task.callStored thread).Sound changed := by
  refine ⟨.pending frame (.called thread) here ?_ waits answer untouched,
    sound.recorded.setOperations _⟩
  simp [IoTask.callStored, operations]

theorem initiate (sound : task.Sound runner) (member : ⟨call, .called thread⟩ ∈ task.operations) :
    (task.initiate thread call).Sound runner := by
  obtain ⟨frame, here, rfl, operations, waits, fits, content⟩ := sound.pending_of_mem member
  refine ⟨.pending frame .underWay here ?_ waits fits content, sound.recorded.setOperations _⟩
  simp [IoTask.initiate, operations, IoOperation.advance]

theorem complete (sound : task.Sound runner) (member : ⟨call, .underWay⟩ ∈ task.operations) :
    (task.complete call outcome).Sound runner := by
  obtain ⟨frame, here, rfl, operations, waits, fits, content⟩ := sound.pending_of_mem member
  refine ⟨.pending _ .written (congrArg (Option.map _) here) ?_ waits fits ?_,
    sound.recorded.complete here content⟩
  · simp [IoTask.complete, operations, IoOperation.advance]
  · exact ⟨outcome, List.mem_append_right _ (List.mem_singleton_self _), rfl,
      congrArg (IoVariable.write outcome) content.value⟩

theorem proceed (sound : task.Sound runner) (member : ⟨call, .written⟩ ∈ task.operations)
    (waits : changed.WaitsInDefer) (taken : changed.deferHandler = none)
    (answer : changed.answer = .nobody) : (task.proceed call).Sound changed := by
  obtain ⟨frame, here, rfl, operations, -, -, content⟩ := sound.pending_of_mem member
  refine ⟨.answered frame here ?_ waits taken answer content, sound.recorded.setOperations _⟩
  simp [IoTask.proceed, operations]

theorem resume (sound : task.Sound runner) (taken : runner.deferHandler = none)
    (answer : runner.answer = .nobody) (throws : Bool) : (task.resume throws).Sound changed := by
  cases sound.phase with
  | outside left operations =>
      have same : task.resume throws = task := by simp [IoTask.resume, left]
      rw [same]
      exact sound.left left
  | pending frame stage here operations waits fits content =>
      cases stage with
      | stored => exact absurd (fits.symm.trans taken) (by simp)
      | called | underWay | written => exact absurd (fits.symm.trans answer) (by simp)
  | answered frame here operations waits taken answer filled =>
      refine ⟨.outside ?_ ?_, sound.recorded.resume throws here filled⟩
      · simp [IoTask.resume, here]
      · simpa [IoTask.resume, here] using operations

end IoTask.Sound

end Records

/-- A coroutine that has been answered is posted, or a thread has entered it. -/
theorem Phase.posted_of_answered {r : RunnerId} {view : View} (phase : Phase r view)
    (waits : view.runner.WaitsInDefer) (taken : view.runner.deferHandler = none)
    (answer : view.runner.answer = .nobody) :
    (∃ dst, ⟨.proceed, r, dst⟩ ∈ view.closures) ∨
      ∃ t, view.roles t = some (.entered .proceed) := by
  obtain ⟨alive, suspended⟩ := waits
  cases phase with
  | unborn runner stage => simp [stage] at alive
  | deleted runner stage => simp [stage] at alive
  | parked runner stage waiting taken holders => simp [holders] at answer
  | posted runner kind scheduler stage fits =>
      cases kind with
      | start => simp [fits.1] at suspended
      | proceed => exact .inl ⟨scheduler, List.mem_singleton_self _⟩
  | held runner t role stage fits =>
      cases role with
      | entered kind =>
          cases kind with
          | start => simp [fits.1] at suspended
          | proceed => exact .inr ⟨t, by simp⟩
      | body => simp [fits.1] at suspended
      | switching => simp [fits.2.2.1] at answer
      | exiting =>
          rcases fits.2 with ⟨-, stored, -⟩ | ⟨ended, -⟩
          · rw [taken] at stored
            cases stored
          · simp [ended] at suspended

theorem Pc.entered_of_role {pc : Pc} {r : RunnerId} {kind : ClosureKind}
    (plays : pc.role r = some (.entered kind)) : pc = .entered r kind := by
  cases pc with
  | entered runner own =>
      by_cases same : runner = r
      · subst same
        obtain rfl : own = kind := by simpa [Pc.role] using plays
        rfl
      · simp [Pc.role, same] at plays
  | idle | leaving => cases plays
  | body runner | exiting runner => simp [Pc.role] at plays
  | deferring runner handler => cases handler <;> simp [Pc.role] at plays

/-! ### Steps -/

structure IoState.Sound (s : IoState Address) : Prop where
  life : LifeInvariant s.system
  tasks : ∀ r, (s.tasks r).Sound (s.system.runners r)
  defined : s.undefined = false

section Steps

variable {s : IoState Address} {action : Action} {t : ThreadId} {r : RunnerId} {call : Nat}

/-- The steps about a runner that waits in `DeferIo`: a thread enters it or leaves it, its
proceed handler is called, or nothing changes in its life. -/
theorem System.waiting_step {s : System} (life : LifeInvariant s) (guard : s.Guard action)
    (waits : (s.runners r).WaitsInDefer) (own : action.runner = some r) :
    (∃ t, action = .enter t r .proceed) ∨ (∃ t, action = .onExit t r) ∨ action = .proceed r ∨
      ((s.runners r).deferHandler = none ∧ (s.runners r).answer = .deferHandler) ∨
        (((s.step action).runners r).SameLife (s.runners r) ∧
          (∀ t, action ≠ .enter t r .proceed) ∧ ∀ t, action ≠ .onExit t r) := by
  have idle (t : ThreadId) : (s.threads t).pc ≠ .body r := fun runs => by
    have running := System.running_of_body life.phases runs
    rw [waits.suspended] at running
    cases running
  have born : (s.runners r).stage ≠ .unborn := by
    rw [waits.alive]
    simp
  cases action with
  | runAsync created scheduler =>
      obtain rfl := Option.some.inj own
      exact absurd guard born
  | runAsyncHere u created =>
      obtain rfl := Option.some.inj own
      exact absurd guard.1 born
  | currentScheduler | dispatch | returnHandler | detach => cases own
  | enter u q kind =>
      obtain rfl := Option.some.inj own
      cases kind with
      | start =>
          have empty := life.phases.empty_of_entered guard
          rw [waits.suspended] at empty
          cases empty
      | proceed => exact .inl ⟨u, rfl⟩
  | handleEvents u q | disableEvents u q | enableEvents u q | defer u q | switchTo u q dst
  | enterGuard u q | enterAccess u q dst | raise u q =>
      obtain rfl := Option.some.inj own
      exact absurd guard (idle u)
  | leaveScope u q | catchException u q | finish u q =>
      obtain rfl := Option.some.inj own
      exact absurd guard.1 (idle u)
  | onExit u q =>
      obtain rfl := Option.some.inj own
      exact .inr (.inl ⟨u, rfl⟩)
  | callProceed u q =>
      obtain rfl := Option.some.inj own
      have switches : (s.threads u).pc = .deferring q .proceedHandler := guard
      have plays : (s.threads u).pc.role q = some .switching := by simp [Pc.role, switches]
      obtain ⟨-, -, -, taken, answer, -⟩ := (life.phases q).held_of_role (t := u) plays
      exact .inr (.inr (.inr (.inl ⟨taken, answer⟩)))
  | proceed q =>
      obtain rfl := Option.some.inj own
      exact .inr (.inr (.inl rfl))
  | setStatus q status =>
      obtain rfl := Option.some.inj own
      refine .inr (.inr (.inr (.inr ?_)))
      refine ⟨?_, by simp, by simp⟩
      simp only [System.step, System.setStatus]
      split <;> constructor <;> simp
  | reset q =>
      obtain rfl := Option.some.inj own
      refine .inr (.inr (.inr (.inr ?_)))
      refine ⟨?_, by simp, by simp⟩
      simp only [System.step, System.resetStatus]
      constructor <;> simp

namespace IoState

theorem Sound.initially : ({} : IoState Address).Sound where
  life := LifeInvariant.initial
  tasks _ := IoTask.Sound.initially _
  defined := rfl

private theorem tasksAfter_left (sound : s.Sound) (left : (s.tasks r).frame = none) :
    s.tasksAfter action r = s.tasks r := by
  have none : (s.tasks r).operations = [] := by
    cases (sound.tasks r).phase with
    | outside left operations => exact operations
    | pending frame stage here | answered frame here => simp [left] at here
  unfold tasksAfter
  split
  next t q =>
    by_cases own : r = q
    · subst own
      rw [Function.update_self, IoTask.callStored, none, List.map_nil, ← none]
    · rw [Function.update_of_ne own]
  next t q =>
    by_cases own : r = q
    · subst own
      rw [Function.update_self, IoTask.resume, left]
    · rw [Function.update_of_ne own]
  next => rfl

private theorem tasksAfter_other (unentered : ∀ t, action ≠ .enter t r .proceed)
    (unleft : ∀ t, action ≠ .onExit t r) : s.tasksAfter action r = s.tasks r := by
  unfold tasksAfter
  split
  next t q =>
    rw [Function.update_of_ne]
    rintro rfl
    exact unleft t rfl
  next t q =>
    rw [Function.update_of_ne]
    rintro rfl
    exact unentered t rfl
  next => rfl

theorem Sound.tasks_runner (sound : s.Sound) (guard : s.system.Guard action)
    (contract : IoContract s (.runner action)) (r : RunnerId) :
    (s.tasksAfter action r).Sound ((s.system.step action).runners r) := by
  by_cases left : (s.tasks r).frame = none
  · rw [tasksAfter_left sound left]
    exact (sound.tasks r).left left
  by_cases elsewhere : action.runner = some r
  swap
  · have untouched : s.tasksAfter action r = s.tasks r := by
      refine tasksAfter_other (fun t => ?_) fun t => ?_
      all_goals
        rintro rfl
        exact elsewhere rfl
    rw [untouched, s.system.step_runners elsewhere]
    exact sound.tasks r
  obtain ⟨waits, unswitched⟩ := (sound.tasks r).unswitched left
  rcases System.waiting_step sound.life guard waits elsewhere with
    ⟨t, rfl⟩ | ⟨t, rfl⟩ | rfl | switches | ⟨same, unentered, unleft⟩
  · have plays : (s.system.threads t).pc.role r = some (.entered .proceed) := by
      simp [show (s.system.threads t).pc = .entered r .proceed from guard, Pc.role]
    obtain ⟨-, -, -, taken, answer, -⟩ :=
      (sound.life.phases r).held_of_role (t := t) plays
    simp only [tasksAfter, Function.update_self]
    exact (sound.tasks r).resume taken answer _
  · obtain ⟨-, answer, ⟨-, stored, -⟩ | ⟨finished, -⟩⟩ := sound.life.phases.exiting guard
    · obtain ⟨frame, here, operations, found, untouched⟩ :=
        (sound.tasks r).stored left stored answer
      simp only [tasksAfter, Function.update_self, System.step, System.onExit, found,
        System.takeHandler, System.moveTo_runners, System.setRunner_runners]
      exact (sound.tasks r).callStored here operations untouched ⟨waits.alive, waits.suspended⟩ rfl
    · rw [waits.suspended] at finished
      cases finished
  · exact absurd (contract r rfl).2 left
  · exact absurd switches unswitched
  · rw [tasksAfter_other unentered unleft]
    exact (sound.tasks r).keep same

theorem Sound.runner (sound : s.Sound) (enabled : s.system.Enabled action)
    (contract : IoContract s (.runner action)) : (s.step (.runner action)).Sound where
  life := by
    refine sound.life.step enabled ?_
    cases action with
    | proceed r => exact (contract r rfl).1
    | _ => trivial
  tasks := sound.tasks_runner enabled.2 contract
  defined := sound.defined

theorem Sound.setTask (sound : s.Sound) {after : System} {task : IoTask Address}
    (life : LifeInvariant after) (runners : ∀ q, q ≠ r → after.runners q = s.system.runners q)
    (own : task.Sound (after.runners r)) : ({ s with system := after }.setTask r task).Sound where
  life := life
  tasks q := by
    by_cases same : q = r
    · subst same
      simpa [IoState.setTask] using own
    · simpa [IoState.setTask, same, runners q same] using sound.tasks q
  defined := sound.defined

theorem Sound.deferIo (sound : s.Sound) {before : IoVariable Address}
    (enabled : s.system.Enabled (.defer t r)) : (s.step (.deferIo t r before)).Sound := by
  have life := sound.life.step enabled trivial
  simp only [IoState.step]
  split
  · exact sound.runner enabled (by simp [IoContract, Action.proceeds])
  next calm =>
    have runs : (s.system.threads t).pc = .body r := enabled.2
    have running := System.running_of_body sound.life.phases runs
    have plays : (s.system.threads t).pc.role r = some .body := by simp [runs, Pc.role]
    obtain ⟨-, alive, -⟩ := (sound.life.phases r).held_of_role (t := t) plays
    have yields : ((s.system.step (.defer t r)).runners r) =
        { s.system.runners r with
          deferHandler := some .callable
          coroHelper := .suspended .defer
          yields := (s.system.runners r).yields + 1 } := by
      simp [System.step, System.defer, calm, System.yield]
    refine sound.setTask life (fun q other => ?_) ?_
    · exact s.system.step_runners fun same => other (Option.some.inj same).symm
    · rw [yields]
      refine (sound.tasks r).begin (fun waits => ?_) ⟨alive, rfl⟩ rfl
      rw [waits.suspended] at running
      cases running

theorem Sound.setTask_only (sound : s.Sound) {task : IoTask Address}
    (own : task.Sound (s.system.runners r)) : (s.setTask r task).Sound :=
  sound.setTask sound.life (fun _ _ => rfl) own

theorem refers_of_mem (sound : s.Sound) {stage : IoStage}
    (member : ⟨call, stage⟩ ∈ (s.tasks r).operations) : (s.tasks r).Refers call := by
  obtain ⟨frame, here, own, -⟩ := (sound.tasks r).pending_of_mem member
  exact ⟨frame, here, own⟩

theorem Sound.proceed (sound : s.Sound) (running : s.system.terminated = false)
    (member : ⟨call, .written⟩ ∈ (s.tasks r).operations) : (s.step (.proceed r call)).Sound := by
  obtain ⟨frame, here, -, -, waits, answer, -⟩ := (sound.tasks r).pending_of_mem member
  have holds : (s.system.runners r).answer = .holders := answer
  obtain ⟨-, -, -, taken, -⟩ := (sound.life.phases r).parked_of_answer holds
  have life : LifeInvariant (s.system.step (.proceed r)) :=
    sound.life.step ⟨running, trivial⟩ holds
  simp only [IoState.step, if_pos waits.alive]
  refine sound.setTask life (fun q other => ?_) ?_
  · exact s.system.step_runners fun same => other (Option.some.inj same).symm
  · have answered : ((s.system.step (.proceed r)).runners r) =
        { s.system.runners r with answer := .nobody } := by
      simp [System.step, System.proceed, System.schedule]
    rw [answered]
    exact (sound.tasks r).proceed member ⟨waits.alive, waits.suspended⟩ taken rfl

theorem Sound.step {action : IoAction Address} (sound : s.Sound) (enabled : s.Enabled action)
    (contract : IoContract s action) : (s.step action).Sound := by
  obtain ⟨-, running, guard⟩ := enabled
  cases action with
  | runner action => exact sound.runner ⟨running, guard.1⟩ contract
  | deferIo t r before => exact sound.deferIo ⟨running, guard⟩
  | initiate t r call =>
      simp only [IoState.step, if_pos (refers_of_mem sound guard.2)]
      exact sound.setTask_only ((sound.tasks r).initiate guard.2)
  | complete r call outcome =>
      simp only [IoState.step, if_pos (refers_of_mem sound guard)]
      exact sound.setTask_only ((sound.tasks r).complete guard)
  | proceed r call => exact sound.proceed running guard

theorem Sound.follows {action : IoAction Address} (sound : s.Sound) (enabled : s.Enabled action)
    (contract : IoContract s action) :
    runnerSystem.EveryStep (fun s action => s.Enabled action ∧ ProceedContract s action) s.system
        (runnerCalls action) ∧
      (s.step action).system = runnerSystem.run s.system (runnerCalls action) := by
  obtain ⟨-, running, guard⟩ := enabled
  cases action with
  | runner action =>
      refine ⟨⟨⟨⟨running, guard.1⟩, ?_⟩, trivial⟩, rfl⟩
      cases action with
      | proceed r => exact (contract r rfl).1
      | _ => trivial
  | deferIo t r before =>
      refine ⟨⟨⟨⟨running, guard⟩, trivial⟩, trivial⟩, ?_⟩
      simp only [IoState.step]
      split <;> rfl
  | initiate t r call =>
      refine ⟨trivial, ?_⟩
      rw [IoState.step, if_pos (refers_of_mem sound guard.2)]
      rfl
  | complete r call outcome =>
      refine ⟨trivial, ?_⟩
      rw [IoState.step, if_pos (refers_of_mem sound guard)]
      rfl
  | proceed r call =>
      obtain ⟨frame, -, -, -, waits, answer, -⟩ := (sound.tasks r).pending_of_mem guard
      refine ⟨⟨⟨⟨running, trivial⟩, answer⟩, trivial⟩, ?_⟩
      rw [IoState.step, if_pos waits.alive]
      rfl

/-- A closure of a call refers to the frame of a coroutine that waits in this call and that no
thread executes.  No call is delivered to twice, and each one that returns does so with the
outcome of its own operation.  A task that waits has such a closure or will be entered. -/
structure Safe (s : IoState Address) : Prop where
  defined : s.undefined = false
  alive : ∀ r, ∀ operation ∈ (s.tasks r).operations,
    (s.tasks r).Refers operation.call ∧ (s.tasks r).operations = [operation] ∧
      (s.system.runners r).WaitsInDefer ∧ ∀ t, (s.system.threads t).pc ≠ .body r
  once : ∀ r, ((s.tasks r).delivered.map Prod.fst).Nodup
  own : ∀ r, ((s.tasks r).returned.map IoReturn.call).Nodup ∧ ∀ result ∈ (s.tasks r).returned,
    OwnOutcome (s.tasks r).delivered result.call result.before result.error result.value
  waits : ∀ r, (s.tasks r).frame ≠ none →
    (s.tasks r).operations ≠ [] ∨ (∃ dst, ⟨.proceed, r, dst⟩ ∈ s.system.posted) ∨
      ∃ t, (s.system.threads t).pc = .entered r .proceed

theorem Sound.safe (sound : s.Sound) : s.Safe where
  defined := sound.defined
  alive r operation member := by
    obtain ⟨frame, here, own, alone, waits, -⟩ := (sound.tasks r).pending_of_mem member
    refine ⟨⟨frame, here, own⟩, alone, waits, fun t runs => ?_⟩
    have running := System.running_of_body sound.life.phases runs
    rw [waits.suspended] at running
    cases running
  once r := (sound.tasks r).recorded.once
  own r := ⟨(sound.tasks r).recorded.distinct, (sound.tasks r).recorded.own⟩
  waits r waiting := by
    cases (sound.tasks r).phase with
    | outside left operations => exact absurd left waiting
    | pending frame stage here operations => exact .inl (by simp [operations])
    | answered frame here operations waits taken answer filled =>
        right
        rcases (sound.life.phases r).posted_of_answered waits taken answer with
          ⟨dst, member⟩ | ⟨t, plays⟩
        · exact .inl ⟨dst, (List.mem_filter.mp member).1⟩
        · exact .inr ⟨t, Pc.entered_of_role plays⟩

end IoState

end Steps

/-- Whatever the tasks, the threads and the operations do, a completion handler of `DeferIo`
finds the frame that it refers to, each call returns what its own operation has delivered,
and `DeferIo` uses its proceed handlers as the runners ask for. -/
theorem io_calls_safe {actions : List (IoAction Address)}
    (legal : (ioSystem Address).Legal {} actions)
    (contract : (ioSystem Address).EveryStep IoContract {} actions) :
    (ioSystem Address).EveryState IoState.Safe {} actions ∧
      runnerSystem.Legal {} (runnerTrace actions) ∧
        runnerSystem.EveryStep ProceedContract {} (runnerTrace actions) ∧
          runnerSystem.run {} (runnerTrace actions) =
            ((ioSystem Address).run {} actions).system := by
  have kept (s : IoState Address) (action : IoAction Address) (sound : s.Sound)
      (enabled : s.Enabled action) (met : IoContract s action) : (s.step action).Sound :=
    sound.step enabled met
  have states : (ioSystem Address).EveryState IoState.Sound {} actions :=
    ActionSystem.everyState_of_invariant kept IoState.Sound.initially legal contract
  have follows (s : IoState Address) (image : System) (action : IoAction Address)
      (related : s.Sound ∧ image = s.system) (enabled : s.Enabled action)
      (met : IoContract s action) :
      runnerSystem.EveryStep (fun s action => s.Enabled action ∧ ProceedContract s action) image
          (IoState.runnerCalls action) ∧
        (s.step action).Sound ∧
          runnerSystem.run image (IoState.runnerCalls action) = (s.step action).system := by
    obtain ⟨sound, rfl⟩ := related
    obtain ⟨steps, reached⟩ := sound.follows enabled met
    exact ⟨steps, sound.step enabled met, reached.symm⟩
  obtain ⟨steps, -, reached⟩ :=
    ActionSystem.everyStep_trace follows ⟨IoState.Sound.initially, rfl⟩ legal contract
  exact ⟨states.imp fun s sound => sound.safe, steps.imp fun _ _ both => both.1,
    steps.imp fun _ _ both => both.2, reached⟩

/-- Two tasks on two threads: a name is resolved while the first thread is still in the defer
handler, and a read that has been cancelled ends with an exception. -/
def resolvedAndRead : List (IoAction Nat) :=
  List.flatten
    [[.runner (.runAsync 0 1), .runner (.runAsync 1 1), .runner (.dispatch 0 ⟨.start, 0, 1⟩),
        .runner (.enter 0 0 .start), .deferIo 0 0 (.endPoints [])],
      [.runner (.dispatch 1 ⟨.start, 1, 1⟩), .runner (.enter 1 1 .start),
        .deferIo 1 1 (.buffer [0, 0, 0])],
      [.runner (.onExit 0 0), .initiate 0 0 0, .complete 0 0 { endPoints := [⟨7, 80⟩] },
        .proceed 0 0],
      [.runner (.onExit 1 1), .initiate 1 1 0, .runner (.setStatus 1 .cancelled),
        .runner (.returnHandler 1 1), .runner (.detach 1)],
      [.runner (.dispatch 1 ⟨.proceed, 0, 1⟩), .runner (.enter 1 0 .proceed),
        .runner (.finish 1 0), .runner (.onExit 1 0), .runner (.detach 1)],
      [.complete 1 0 { error := .eof, data := [5] }, .runner (.returnHandler 0 0),
        .runner (.detach 0), .proceed 1 0],
      [.runner (.dispatch 0 ⟨.proceed, 1, 1⟩), .runner (.enter 0 1 .proceed),
        .runner (.catchException 0 1), .runner (.finish 0 1), .runner (.onExit 0 1),
        .runner (.detach 0)]]

theorem io_calls_safe_resolvedAndRead :
    (ioSystem Nat).EveryState IoState.Safe {} resolvedAndRead ∧
      runnerSystem.Legal {} (runnerTrace resolvedAndRead) ∧
        runnerSystem.EveryStep ProceedContract {} (runnerTrace resolvedAndRead) ∧
          runnerSystem.run {} (runnerTrace resolvedAndRead) =
            ((ioSystem Nat).run {} resolvedAndRead).system :=
  io_calls_safe (by decide) (by decide)

example : (((ioSystem Nat).run {} resolvedAndRead).tasks 0).returned =
    [⟨0, .endPoints [], .success, .endPoints [⟨7, 80⟩]⟩] := by
  decide

end FlatAsync
