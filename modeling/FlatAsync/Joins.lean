import FlatAsync.AsyncRunner

/-!
# Waiting for other tasks

`RunAsyncWait`, `RunAsyncAnyWait`, `RunAsyncAnyResult` and `Waiter` are built
from `Defer` and `RunAsync`.  A call launches some handlers as tasks of their
own and suspends; the proceed handler of the caller is reached through shared
state: a token whose last copy calls it when it is released, or a counter whose
first increment does.

This file puts that shared state beside the runner system.  A step of a join is
at most one step of the runner system and an update of the table below.
-/

namespace FlatAsync

abbrev JoinId := Nat

inductive JoinKind
  | wait
  | anyWait
  | anyResult
  | waiter
  deriving DecidableEq, Repr

/-- Where a join is in its life.  A `Waiter` is `idle` until `Wait` is called;
a join is `stored` while its defer handler lies in the runner, and `begun` from
the start of that handler until the proceed handler is called. -/
inductive JoinPhase
  | unused
  | idle
  | stored
  | begun
  | answered
  deriving DecidableEq, Repr

/-- The state shared by the caller `owner` and the tasks it launched.
`looping` tells whether the launch loop, or the `Waiter`, still holds its own
copy, and `holders` lists the tasks whose closures hold one.  `proceed` is
`waiter->proceed_ != nullptr`; `counter`, `index` and `result` are the
variables of the two `any` functions. -/
structure Join (T : Type) where
  kind : JoinKind := .wait
  owner : RunnerId := 0
  handlers : Nat := 0
  launched : Nat := 0
  looping : Bool := false
  holders : List RunnerId := []
  proceed : Bool := true
  counter : Nat := 0
  index : Option Nat := none
  result : Option T := none
  phase : JoinPhase := .unused
  deriving DecidableEq, Repr

namespace Join

variable {T : Type} (join : Join T)

/-- `Counter::TryProceed` of `RunAsyncAnyResult`, up to the call of `proceed`. -/
def tryProceed (result : Option T) : Join T :=
  if join.counter = 0 then { join with counter := 1, result := result }
  else { join with counter := join.counter + 1 }

/-- The increment at the end of a child of `RunAsyncAnyWait`, up to the call of
`proceed`. -/
def tryIndex (index : Nat) : Join T :=
  if join.counter = 0 then { join with counter := 1, index := some index }
  else { join with counter := join.counter + 1 }

/-- A handler has returned `value`: a closure of `RunAsyncAnyResult` passes it to
`TryProceed`. -/
def afterReturn (value : Option T) : Join T :=
  match join.kind, value with
  | .anyResult, some value => join.tryProceed (some value)
  | .anyResult, none | .wait, _ | .anyWait, _ | .waiter, _ => join

/-- The return of `value` leads to a call of `proceed`. -/
def returnProceeds (value : Option T) : Bool :=
  join.kind = .anyResult && value.isSome && join.counter = 0

def Released : Prop := join.looping = false ∧ join.holders = []

instance : Decidable join.Released := inferInstanceAs (Decidable (_ ∧ _))

/-- A copy has been released: the destructor of `Counter` runs with the last
one. -/
def afterRelease : Join T :=
  if join.Released ∧ join.kind = .anyResult then join.tryProceed none else join

/-- The release of a copy leads to a call of `proceed`. -/
def releaseProceeds : Bool :=
  join.Released && match join.kind with
    | .wait => true
    | .waiter => join.proceed
    | .anyResult => join.counter = 0
    | .anyWait => false

end Join

/-- The code of a callable given to `Defer`: one of the user that still calls
the library `calls` times, or that of a join. -/
inductive HandlerCode
  | user (calls : Nat)
  | join (join : JoinId)
  deriving DecidableEq, Repr

/-- A task launched by a join, as the handler number `index`.  `ended` tells
whether the handler has returned or thrown. -/
structure Child where
  join : JoinId
  index : Nat
  ended : Bool := false
  deriving DecidableEq, Repr

/-- `stored` and `running` are the codes of the callables in `defer_handler_`
and on the threads; `suspension` is the join a runner is suspended in, if any;
`counting` is the join, with the number of the handler, whose counter a thread
is about to increment, and `owes` the join whose proceed handler it is about to
call. -/
structure JoinTable (T : Type) where
  joins : JoinId → Join T := fun _ => {}
  stored : RunnerId → HandlerCode := fun _ => .user 0
  running : ThreadId → HandlerCode := fun _ => .user 0
  suspension : RunnerId → Option JoinId := fun _ => none
  child : RunnerId → Option Child := fun _ => none
  counting : ThreadId → Option (JoinId × Nat) := fun _ => none
  owes : ThreadId → Option JoinId := fun _ => none

variable {T : Type}

namespace JoinTable

variable (table : JoinTable T) (t : ThreadId) (r : RunnerId) (j : JoinId)

def setJoin (join : Join T) : JoinTable T :=
  { table with joins := Function.update table.joins j join }

def setChild (child : Child) : JoinTable T :=
  { table with child := Function.update table.child r (some child) }

def setCounting (counts : Option (JoinId × Nat)) : JoinTable T :=
  { table with counting := Function.update table.counting t counts }

def owe : JoinTable T :=
  { table with owes := Function.update table.owes t (some j) }

section Simp

variable (join : Join T) (child : Child) (counts : Option (JoinId × Nat))

@[simp] theorem setJoin_joins :
    (table.setJoin j join).joins = Function.update table.joins j join := rfl
@[simp] theorem setJoin_child : (table.setJoin j join).child = table.child := rfl
@[simp] theorem setJoin_counting : (table.setJoin j join).counting = table.counting := rfl
@[simp] theorem setJoin_owes : (table.setJoin j join).owes = table.owes := rfl
@[simp] theorem setJoin_setJoin (other : Join T) :
    (table.setJoin j other).setJoin j join = table.setJoin j join := by
  simp [setJoin]

@[simp] theorem setChild_joins : (table.setChild r child).joins = table.joins := rfl
@[simp] theorem setChild_child :
    (table.setChild r child).child = Function.update table.child r (some child) := rfl
@[simp] theorem setChild_counting : (table.setChild r child).counting = table.counting := rfl
@[simp] theorem setChild_owes : (table.setChild r child).owes = table.owes := rfl

@[simp] theorem setCounting_joins : (table.setCounting t counts).joins = table.joins := rfl
@[simp] theorem setCounting_child : (table.setCounting t counts).child = table.child := rfl
@[simp] theorem setCounting_counting :
    (table.setCounting t counts).counting = Function.update table.counting t counts := rfl
@[simp] theorem setCounting_owes : (table.setCounting t counts).owes = table.owes := rfl

@[simp] theorem owe_joins : (table.owe t j).joins = table.joins := rfl
@[simp] theorem owe_child : (table.owe t j).child = table.child := rfl
@[simp] theorem owe_counting : (table.owe t j).counting = table.counting := rfl
@[simp] theorem owe_owes :
    (table.owe t j).owes = Function.update table.owes t (some j) := rfl

end Simp

/-- The calls of the library that the callable on thread `t` has still to
make. -/
def callsLeft : Nat :=
  match table.running t with
  | .user calls => calls
  | .join j =>
      if (table.joins j).looping then (table.joins j).handlers - (table.joins j).launched else 0

/-- Join `j` becomes `join`, and thread `t` is to call the proceed handler if
`proceeds`. -/
def settle (join : Join T) (proceeds : Bool) : JoinTable T :=
  if proceeds then (table.setJoin j join).owe t j else table.setJoin j join

@[simp] theorem settle_self : table.settle t j (table.joins j) false = table := by
  simp [settle, setJoin]

def tryProceed (result : Option T) : JoinTable T :=
  table.settle t j ((table.joins j).tryProceed result) ((table.joins j).counter = 0)

def tryIndex (index : Nat) : JoinTable T :=
  table.settle t j ((table.joins j).tryIndex index) ((table.joins j).counter = 0)

/-- A copy of the shared pointer has been released on thread `t`. -/
def releaseIfLast : JoinTable T :=
  table.settle t j (table.joins j).afterRelease (table.joins j).releaseProceeds

/-- The launch loop or the `Waiter` releases its copy. -/
def releaseLoop : JoinTable T :=
  (table.setJoin j { table.joins j with looping := false }).releaseIfLast t j

/-- The closure of runner `r` is destroyed with the runner. -/
def releaseChild : JoinTable T :=
  match table.child r with
  | some child =>
      (table.setJoin child.join
        { table.joins child.join with
          holders := (table.joins child.join).holders.erase r }).releaseIfLast t child.join
  | none => table

/-- A new join, whose shared state has one copy. -/
def newJoin (kind : JoinKind) (handlers : Nat) : JoinTable T :=
  table.setJoin j
    { kind := kind, owner := r, handlers := handlers, looping := true, phase := .idle }

/-- `RunAsync` with a closure that copies the shared pointer. -/
def launch (created : RunnerId) : JoinTable T :=
  (table.setJoin j
      { table.joins j with
        launched := (table.joins j).launched + 1
        holders := created :: (table.joins j).holders }).setChild created
    { join := j, index := (table.joins j).launched }

/-- A callable is stored in `defer_handler_`, and the runner yields. -/
def deferUser (calls : Nat) : JoinTable T :=
  { table with
    stored := Function.update table.stored r (.user calls)
    suspension := Function.update table.suspension r none }

def deferJoin : JoinTable T :=
  { table.setJoin j { table.joins j with phase := .stored } with
    stored := Function.update table.stored r (.join j)
    suspension := Function.update table.suspension r (some j) }

/-- Thread `t` begins the callable stored in runner `r`. -/
def beginHandler : JoinTable T :=
  match table.stored r with
  | .user calls => { table with running := Function.update table.running t (.user calls) }
  | .join j =>
      { table.setJoin j { table.joins j with phase := .begun } with
        running := Function.update table.running t (.join j) }

/-- The handler of child `r` returns `value`.  A closure of `RunAsyncAnyWait` has
still to increment the counter. -/
def childReturns (child : Child) (value : Option T) : JoinTable T :=
  let join := table.joins child.join
  let returned := (table.setChild r { child with ended := true }).settle t child.join
    (join.afterReturn value) (join.returnProceeds value)
  if join.kind = .anyWait then returned.setCounting t (some (child.join, child.index))
  else returned

/-- The closure of `RunAsyncAnyWait` goes on after the call of its handler. -/
def increment (index : Nat) : JoinTable T :=
  (table.setCounting t none).tryIndex t j index

/-- Thread `t` has called the proceed handler it owed. -/
def pay : JoinTable T :=
  { table.setJoin j { table.joins j with phase := .answered } with
    owes := Function.update table.owes t none }

end JoinTable

structure JoinState (T : Type) where
  system : System := {}
  table : JoinTable T := {}

/-- The steps of joins.  `runner` steps belong to the runner system; `defer` is
a `Defer` of the user whose callable calls the library `calls` times, and
`userCall` such a call, which creates a task or only reads the runner;
`endLoop` ends a launch loop or the callable of `Waiter::Wait`; `increment` is
the increment by a child of `RunAsyncAnyWait` whose handler has returned, and
`callProceed` the call of a proceed handler that a release or an increment has
led to. -/
inductive JoinAction (T : Type)
  | runner (action : Action)
  | defer (thread : ThreadId) (runner : RunnerId) (calls : Nat)
  | userCall (thread : ThreadId) (created : Option RunnerId)
  | join (thread : ThreadId) (runner : RunnerId) (join : JoinId) (kind : JoinKind)
      (handlers : Nat)
  | launch (thread : ThreadId) (join : JoinId) (created : RunnerId)
  | endLoop (thread : ThreadId) (join : JoinId)
  | makeWaiter (thread : ThreadId) (runner : RunnerId) (join : JoinId)
  | waiterRunAsync (thread : ThreadId) (runner : RunnerId) (join : JoinId)
      (created : RunnerId)
  | waiterWait (thread : ThreadId) (runner : RunnerId) (join : JoinId)
  | dropWaiter (thread : ThreadId) (runner : RunnerId) (join : JoinId)
  | childReturns (thread : ThreadId) (runner : RunnerId) (value : Option T)
  | childThrows (thread : ThreadId) (runner : RunnerId)
  | increment (thread : ThreadId) (join : JoinId) (index : Nat)
  | callProceed (thread : ThreadId) (join : JoinId)
  deriving Repr

/-- The thread an action is executed by, if it must be a worker. -/
def Action.thread : Action → Option ThreadId
  | .runAsync .. | .proceed _ | .setStatus .. | .reset _ => none
  | .runAsyncHere t _ | .currentScheduler t | .dispatch t _ | .enter t _ _
  | .handleEvents t _ | .disableEvents t _ | .enableEvents t _ | .defer t _ | .switchTo t _ _
  | .enterGuard t _ | .enterAccess t _ _ | .leaveScope t _ | .raise t _
  | .catchException t _ | .finish t _ | .onExit t _ | .callProceed t _ | .returnHandler t _
  | .detach t => some t

/-- The thread whose `thrd_ptr_async_runner` a call dereferences. -/
def Action.reader : Action → Option ThreadId
  | .runAsyncHere t _ | .currentScheduler t | .handleEvents t _ | .disableEvents t _
  | .enableEvents t _ | .defer t _ | .switchTo t _ _ | .enterGuard t _ | .enterAccess t _ _
  | .leaveScope t _ => some t
  | .runAsync .. | .dispatch .. | .enter .. | .raise .. | .catchException .. | .finish ..
  | .onExit .. | .callProceed .. | .returnHandler .. | .detach .. | .proceed ..
  | .setStatus .. | .reset .. => none

namespace JoinState

variable (s : JoinState T)

def ended (r : RunnerId) : Bool :=
  match s.table.child r with
  | some child => child.ended
  | none => false

/-- Thread `t` is outside the callables, and a body it executes is code of the
user: it is not the rest of a closure whose handler has ended. -/
def userCode (t : ThreadId) : Bool :=
  match (s.system.threads t).pc with
  | .body r => !s.ended r
  | .deferring .. => false
  | .idle | .entered .. | .exiting _ | .leaving => true

/-- The callable on thread `t` has nothing left to do. -/
def handlerDone (t : ThreadId) : Bool :=
  match s.table.running t with
  | .user calls => calls = 0
  | .join j => !(s.table.joins j).looping

/-- Thread `t` executes a callable of the user that has calls left. -/
def userHandler (t : ThreadId) : Bool :=
  match (s.system.threads t).pc, s.table.running t with
  | .deferring _ .callable, .user calls => 0 < calls
  | _, _ => false

/-- Where joins leave a step of the runner system to the user's code. -/
def Leaves : Action → Prop
  | .defer .. => False
  | .finish _ r => s.table.child r = none ∨ s.ended r = true
  | .returnHandler t _ => s.handlerDone t = true
  | .runAsyncHere t _ | .currentScheduler t | .handleEvents t _ | .disableEvents t _
  | .enableEvents t _ | .switchTo t _ _ | .enterGuard t _ | .enterAccess t _ _
  | .leaveScope t _ | .raise t _ | .catchException t _ => s.userCode t = true
  | .runAsync .. | .dispatch .. | .enter .. | .onExit .. | .callProceed .. | .detach ..
  | .proceed .. | .setStatus .. | .reset .. => True

instance : ∀ action, Decidable (s.Leaves action)
  | .defer .. => inferInstanceAs (Decidable False)
  | .finish .. => inferInstanceAs (Decidable (_ ∨ _))
  | .returnHandler .. | .runAsyncHere .. | .currentScheduler .. | .handleEvents ..
  | .disableEvents .. | .enableEvents .. | .switchTo .. | .enterGuard .. | .enterAccess ..
  | .leaveScope .. | .raise .. | .catchException .. => inferInstanceAs (Decidable (_ = _))
  | .runAsync .. | .dispatch .. | .enter .. | .onExit .. | .callProceed .. | .detach ..
  | .proceed .. | .setStatus .. | .reset .. => inferInstanceAs (Decidable True)

/-- The step of the runner system that is part of a step of a join. -/
def runnerAction : JoinAction T → Option Action
  | .runner action => some action
  | .defer t r _ => some (.defer t r)
  | .join t r _ _ _ => some (.defer t r)
  | .userCall t none => some (.currentScheduler t)
  | .userCall t (some created) => some (.runAsyncHere t created)
  | .launch t _ created => some (.runAsyncHere t created)
  | .makeWaiter t _ _ => some (.currentScheduler t)
  | .waiterRunAsync t _ _ created => some (.runAsyncHere t created)
  | .waiterWait t r j => if (s.table.joins j).holders = [] then none else some (.defer t r)
  | .childThrows t r => some (.catchException t r)
  | .callProceed _ j => some (.proceed (s.table.joins j).owner)
  | .endLoop .. | .dropWaiter .. | .childReturns .. | .increment .. => none

/-- The thread that takes a step of a join other than one it is bound to take. -/
def thread : JoinAction T → Option ThreadId
  | .runner action => action.thread
  | .increment .. | .callProceed .. => none
  | .defer t _ _ | .userCall t _ | .join t _ _ _ _ | .launch t _ _ | .endLoop t _
  | .makeWaiter t _ _ | .waiterRunAsync t _ _ _ | .waiterWait t _ _ | .dropWaiter t _ _
  | .childReturns t _ _ | .childThrows t _ => some t

/-- The body on thread `t` is code of the user that belongs to runner `r`. -/
def BodyOf (t : ThreadId) (r : RunnerId) : Prop :=
  (s.system.threads t).pc = .body r ∧ s.ended r = false

/-- Thread `t` executes the defer handler of join `j`. -/
def HandlerOf (t : ThreadId) (j : JoinId) : Prop :=
  (s.system.threads t).pc = .deferring (s.table.joins j).owner .callable ∧
    s.table.running t = .join j ∧ (s.table.joins j).looping = true

/-- Runner `r` uses its own `Waiter`, whose token is that of join `j`. -/
def WaiterOf (r : RunnerId) (j : JoinId) : Prop :=
  (s.table.joins j).kind = .waiter ∧ (s.table.joins j).owner = r ∧
    (s.table.joins j).phase = .idle ∧ (s.table.joins j).looping = true

/-- Runner `r` is a child whose handler has not ended. -/
def ChildRuns (r : RunnerId) : Prop :=
  (s.table.child r).isSome ∧ s.ended r = false

def Guard : JoinAction T → Prop
  | .runner action => s.Leaves action
  | .defer t r _ => s.BodyOf t r
  | .userCall t _ => s.userHandler t = true
  | .join t r j kind handlers =>
      s.BodyOf t r ∧ (s.table.joins j).phase = .unused ∧ kind ≠ .waiter ∧
        (kind = .anyWait → 0 < handlers)
  | .launch t j _ =>
      s.HandlerOf t j ∧ (s.table.joins j).launched < (s.table.joins j).handlers
  | .endLoop t j => s.HandlerOf t j ∧ (s.table.joins j).handlers ≤ (s.table.joins j).launched
  | .makeWaiter t r j => s.BodyOf t r ∧ (s.table.joins j).phase = .unused
  | .waiterRunAsync t r j _ | .waiterWait t r j | .dropWaiter t r j =>
      s.BodyOf t r ∧ s.WaiterOf r j
  | .childReturns t r _ =>
      s.BodyOf t r ∧ s.ChildRuns r ∧ (s.system.runners r).scopes = [] ∧
        (s.system.runners r).unwinding = 0
  | .childThrows t r =>
      s.BodyOf t r ∧ s.ChildRuns r ∧ (s.system.runners r).scopes = [] ∧
        (s.system.runners r).unwinding = 1
  | .increment t j index => s.table.counting t = some (j, index) ∧ s.table.owes t = none
  | .callProceed t j => s.table.owes t = some j

instance (t : ThreadId) (r : RunnerId) : Decidable (s.BodyOf t r) :=
  inferInstanceAs (Decidable (_ ∧ _))

instance (t : ThreadId) (j : JoinId) : Decidable (s.HandlerOf t j) :=
  inferInstanceAs (Decidable (_ ∧ _))

instance (r : RunnerId) (j : JoinId) : Decidable (s.WaiterOf r j) :=
  inferInstanceAs (Decidable (_ ∧ _))

instance (r : RunnerId) : Decidable (s.ChildRuns r) :=
  inferInstanceAs (Decidable (_ ∧ _))

instance : ∀ action, Decidable (s.Guard action)
  | .runner action => inferInstanceAs (Decidable (s.Leaves action))
  | .defer .. => inferInstanceAs (Decidable (s.BodyOf _ _))
  | .userCall .. | .callProceed .. => inferInstanceAs (Decidable (_ = _))
  | .join .. | .launch .. | .endLoop .. | .makeWaiter .. | .waiterRunAsync ..
  | .waiterWait .. | .dropWaiter .. | .childReturns .. | .childThrows .. | .increment .. =>
      inferInstanceAs (Decidable (_ ∧ _))

/-- The runner system allows the step that is part of a step of a join. -/
def Permits : Option Action → Prop
  | some step => s.system.Guard step
  | none => True

instance : ∀ step, Decidable (s.Permits step)
  | some step => inferInstanceAs (Decidable (s.system.Guard step))
  | none => inferInstanceAs (Decidable True)

/-- A thread that is about to increment a counter or to call a proceed handler
does nothing else. -/
def Owing : Option ThreadId → Prop
  | some t => s.table.counting t ≠ none ∨ s.table.owes t ≠ none
  | none => False

instance : ∀ thread, Decidable (s.Owing thread)
  | some _ => inferInstanceAs (Decidable (_ ∨ _))
  | none => inferInstanceAs (Decidable False)

def Enabled (action : JoinAction T) : Prop :=
  s.system.terminated = false ∧ s.Guard action ∧ s.Permits (s.runnerAction action) ∧
    ¬ s.Owing (thread action)

instance (action : JoinAction T) : Decidable (s.Enabled action) :=
  inferInstanceAs (Decidable (_ ∧ _))

/-- The effect of a step of the runner system on the table. -/
def afterRunner : Action → JoinTable T
  | .onExit t r =>
      match (s.system.runners r).deferHandler with
      | some .callable => s.table.beginHandler t r
      | some .proceedHandler => s.table
      | none => s.table.releaseChild t r
  | _ => s.table

/-- A `Defer` that finds an event does not store its callable. -/
def ifCalm (t : ThreadId) (r : RunnerId) (table : JoinTable T) : JoinTable T :=
  match s.system.handleEvents t r with
  | some _ => s.table
  | none => table

def afterTable : JoinAction T → JoinTable T
  | .runner action => s.afterRunner action
  | .defer t r calls => s.ifCalm t r (s.table.deferUser r calls)
  | .join t r j kind handlers =>
      s.ifCalm t r ((s.table.newJoin r j kind handlers).deferJoin r j)
  | .userCall t _ =>
      { s.table with
        running := Function.update s.table.running t (.user (s.table.callsLeft t - 1)) }
  | .launch _ j created | .waiterRunAsync _ _ j created => s.table.launch j created
  | .endLoop t j => s.table.releaseLoop t j
  | .makeWaiter _ r j => s.table.newJoin r j .waiter 0
  | .waiterWait t r j =>
      if (s.table.joins j).holders = [] then
        s.table
      else
        s.ifCalm t r (s.table.deferJoin r j)
  | .dropWaiter t _ j =>
      (s.table.setJoin j { s.table.joins j with proceed := false }).releaseLoop t j
  | .childReturns t r value =>
      match s.table.child r with
      | some child => s.table.childReturns t r child value
      | none => s.table
  | .childThrows _ r =>
      match s.table.child r with
      | some child => s.table.setChild r { child with ended := true }
      | none => s.table
  | .increment t j index => s.table.increment t j index
  | .callProceed t j => s.table.pay t j

def step (action : JoinAction T) : JoinState T where
  system :=
    match s.runnerAction action with
    | some step => s.system.step step
    | none => s.system
  table := s.afterTable action

end JoinState

def joinSystem (T : Type) : ActionSystem (JoinState T) (JoinAction T) where
  enabled := JoinState.Enabled
  next := JoinState.step

instance (s : JoinState T) (action : JoinAction T) :
    Decidable ((joinSystem T).enabled s action) :=
  inferInstanceAs (Decidable (s.Enabled action))

/-- How a handler that a user obtained from `ProceedHandler` is to be used: at
most once for each `Defer` of the user, after the callable has begun. -/
def UserContract (s : JoinState T) : JoinAction T → Prop
  | .runner (.proceed r) =>
      (s.system.runners r).answer = .holders ∧ s.table.suspension r = none
  | _ => True

instance (s : JoinState T) (action : JoinAction T) : Decidable (UserContract s action) :=
  match action with
  | .runner (.proceed _) => inferInstanceAs (Decidable (_ ∧ _))
  | .runner (.runAsync ..) | .runner (.runAsyncHere ..) | .runner (.currentScheduler ..)
  | .runner (.dispatch ..) | .runner (.enter ..) | .runner (.handleEvents ..)
  | .runner (.disableEvents ..) | .runner (.enableEvents ..) | .runner (.defer ..)
  | .runner (.switchTo ..) | .runner (.enterGuard ..) | .runner (.enterAccess ..)
  | .runner (.leaveScope ..) | .runner (.raise ..) | .runner (.catchException ..)
  | .runner (.finish ..) | .runner (.onExit ..) | .runner (.callProceed ..)
  | .runner (.returnHandler ..) | .runner (.detach ..) | .runner (.setStatus ..)
  | .runner (.reset ..) | .defer .. | .userCall .. | .join .. | .launch .. | .endLoop ..
  | .makeWaiter .. | .waiterRunAsync .. | .waiterWait .. | .dropWaiter .. | .childReturns ..
  | .childThrows .. | .increment .. | .callProceed .. => inferInstanceAs (Decidable True)

end FlatAsync
