import FlatAsync.EnumStream
import FlatAsync.ListenPort
import FlatAsync.WaitAll

/-!
# The process

`main` parses the command line and lets `EngineLauncher` run: `Init` makes the thread
pools, attaches them to the accessors and makes the engine, `DoRun` starts the engine,
registers a handler of SIGINT and SIGTERM and waits for all tasks, and `DeInit`, called
by a guard, takes everything down again.  Meanwhile the threads of the pools execute
tasks and the handler of the signal.

This file puts the statements of the main thread beside the tasks, and shows what is
left at the end and which objects the other threads find.
-/

namespace FlatAsync

/-- `SingleAccessor`: the object that `ptr_single_` points to. -/
structure SingleAccessor (T : Type) where
  ptrSingle : Option T := none
  deriving DecidableEq, Repr

namespace SingleAccessor

variable {T : Type}

/-- `SingleAccessor::Attach` -/
def attach (_ : SingleAccessor T) (single : T) : SingleAccessor T where
  ptrSingle := some single

/-- `SingleAccessor::Detach` -/
def detach (_ : SingleAccessor T) : SingleAccessor T where
  ptrSingle := none

/-- `SingleAccessor::GetIsAttached` -/
def getIsAttached (accessor : SingleAccessor T) : Bool :=
  accessor.ptrSingle.isSome

/-- `SingleAccessor::GetRef`, without a value where its assertion fails. -/
def getRef (accessor : SingleAccessor T) : Option T :=
  accessor.ptrSingle

end SingleAccessor

/-- `thread_pool_main_` and `thread_pool_net_` -/
inductive PoolName
  | main
  | net
  deriving DecidableEq, Repr

/-- The accessors that `EngineLauncher` attaches. -/
inductive AccessorName
  | defaultIoService
  | defaultScheduler
  | networkService
  | networkScheduler
  deriving DecidableEq, Repr

namespace AccessorName

def all : List AccessorName :=
  [.defaultIoService, .defaultScheduler, .networkService, .networkScheduler]

def pool : AccessorName → PoolName
  | .defaultIoService | .defaultScheduler => .main
  | .networkService | .networkScheduler => .net

end AccessorName

/-- The statements that the main thread executes.  `exit` returns the value of an error
from `main`. -/
inductive Statement
  | makePool (pool : PoolName)
  | attach (accessor : AccessorName)
  | makeEngine
  | initEngine
  | makeScopeGuard
  | startEngine
  | makeSignals
  | asyncWait
  | waitAll
  | destroySignals
  | resetEngine
  | detach (accessor : AccessorName)
  | resetPool (pool : PoolName)
  | exit (error : GeneralError)
  deriving DecidableEq, Repr

namespace Statement

/-- `EngineLauncher::Init` -/
def init : List Statement :=
  [.makePool .main, .makePool .net, .attach .defaultIoService, .attach .defaultScheduler,
    .attach .networkService, .attach .networkScheduler, .makeEngine, .initEngine]

/-- `EngineLauncher::DeInit` -/
def deInit : List Statement :=
  [.resetEngine, .detach .networkService, .detach .networkScheduler, .detach .defaultIoService,
    .detach .defaultScheduler, .resetPool .net, .resetPool .main]

/-- `EngineLauncher::~EngineLauncher`, which destroys the last member first. -/
def destroyLauncher : List Statement :=
  [.resetPool .net, .resetPool .main, .resetEngine]

/-- What follows `WaitAll` in `EngineLauncher::DoRun`, `EngineLauncher::Run` and `main`. -/
def leave : List Statement :=
  .destroySignals :: (deInit ++ (destroyLauncher ++ [.exit .success]))

/-- `EngineLauncher::DoRun` and what follows it. -/
def serve : List Statement :=
  .startEngine :: .makeSignals :: .asyncWait :: .waitAll :: leave

/-- `EngineLauncher::Run` without `--help` and `--version`, and the end of `main`. -/
def run : List Statement :=
  (init ++ [.makeScopeGuard]) ++ serve

/-- The statement allocates or asks the system for something and may fail. -/
def mayThrow : Statement → Bool
  | .makePool _ | .makeEngine | .startEngine | .makeSignals | .asyncWait => true
  | _ => false

end Statement

/-- What `EngineLauncher` and the accessors hold.  `engine` is `initiated_` of the engine,
and `guarded` tells whether `scope_guard` has come into being. -/
structure Resources where
  pools : PoolName → Bool := fun _ => false
  accessors : AccessorName → SingleAccessor PoolName := fun _ => {}
  engine : Option Bool := none
  guarded : Bool := false

namespace Resources

variable (held : Resources)

/-- The assertions on the way of the main thread: `GetRef` of the accessor that the engine
and the signals are made with, and those of `Engine`. -/
def Asserts : Statement → Prop
  | .makeEngine | .makeSignals => (held.accessors .defaultIoService).getIsAttached = true
  | .initEngine => held.engine = some false
  | .startEngine => held.engine = some true
  | _ => True

instance : DecidablePred held.Asserts
  | .makeEngine | .makeSignals | .initEngine | .startEngine => inferInstanceAs (Decidable (_ = _))
  | .makePool _ | .attach _ | .makeScopeGuard | .asyncWait | .waitAll | .destroySignals
  | .resetEngine | .detach _ | .resetPool _ | .exit _ => inferInstanceAs (Decidable True)

/-- What a statement of the main thread does to them. -/
def after : Statement → Resources
  | .makePool pool => { held with pools := Function.update held.pools pool true }
  | .attach accessor =>
      { held with
        accessors := Function.update held.accessors accessor
          ((held.accessors accessor).attach accessor.pool) }
  | .makeEngine => { held with engine := some false }
  | .initEngine => { held with engine := held.engine.map fun _ => true }
  | .makeScopeGuard => { held with guarded := true }
  | .resetEngine => { held with engine := none }
  | .detach accessor =>
      { held with
        accessors := Function.update held.accessors accessor (held.accessors accessor).detach }
  | .resetPool pool => { held with pools := Function.update held.pools pool false }
  | .startEngine | .makeSignals | .asyncWait | .waitAll | .destroySignals | .exit _ => held

/-- The engine is there and has been initiated, with both pools, and each accessor leads to
its pool. -/
structure Alive : Prop where
  pools : ∀ pool, held.pools pool = true
  accessors : ∀ accessor, (held.accessors accessor).getRef = some accessor.pool
  engine : held.engine = some true

/-- Nothing is left: no engine and no pool, and no accessor is attached if the launcher
got through `Init`. -/
structure Gone : Prop where
  pools : ∀ pool, held.pools pool = false
  accessors : held.guarded = true → ∀ accessor, (held.accessors accessor).getIsAttached = false
  engine : held.engine = none

end Resources

/-- The wait for a signal.  A wait that is over has queued its handler, which is told
whether the wait has been aborted. -/
inductive SignalWait
  | unset
  | made
  | armed
  | queued (aborted : Bool)
  | handling (thread : ThreadId)
  | done
  deriving DecidableEq, Repr

/-- The process.  `statements` is what the main thread has left to do, `stopped` is
`stopped_` of the engine, and `hardware` is `std::thread::hardware_concurrency`. -/
structure Process where
  config : StartupConfig := {}
  hardware : Nat := 0
  statements : List Statement
  held : Resources := {}
  engineConfig : Option EngineConfig := none
  stopped : Bool := false
  signals : SignalWait := .unset
  counted : CountedState := {}
  exitCode : Option GeneralError := none
  asserted : Bool := false
  undefined : Bool := false

/-- `main_sequential_scheduler_` -/
def mainSequentialScheduler : SchedulerId := 0

/-- The steps of the process: the next statement of the main thread, which may create a
runner or throw; a signal; the handler of the signal on a thread, and its call of
`Engine::Stop`, which may create a runner; and the steps of the tasks. -/
inductive ProcessAction
  | main (created : RunnerId)
  | throw
  | signal
  | beginHandler (thread : ThreadId)
  | stopEngine (thread : ThreadId) (created : RunnerId)
  | tasks (action : CountedAction)
  deriving DecidableEq, Repr

/-- The command line asks for the help or the version only. -/
def StartupConfig.Informs (config : StartupConfig) : Prop :=
  config.isShowHelp = true ∨ config.isShowVersion = true

instance (config : StartupConfig) : Decidable config.Informs :=
  inferInstanceAs (Decidable (_ ∨ _))

/-- `main` after the command line has been parsed. -/
def Parsed.process (parsed : Parsed) (hardware : Nat) : Process where
  config := parsed.config
  hardware := hardware
  statements :=
    if parsed.accepted = false then [.exit .wrongCommandLine]
    else if parsed.config.Informs then Statement.destroyLauncher ++ [.exit .success]
    else Statement.run

namespace Process

variable (s : Process)

/-- `thread_pool_size` in `EngineLauncher::Init` -/
def threadPoolSize : Nat :=
  if 2 ≤ s.hardware then s.hardware else 2

def threads : PoolName → List ThreadId
  | .main => List.range s.threadPoolSize
  | .net => (List.range s.threadPoolSize).map (· + s.threadPoolSize)

/-- The thread executes neither a task nor the handler of the signal. -/
def AtRest (t : ThreadId) : Prop :=
  (s.counted.system.threads t).pc = .idle ∧ s.counted.destroying t = none ∧
    s.signals ≠ .handling t

instance (t : ThreadId) : Decidable (s.AtRest t) :=
  inferInstanceAs (Decidable (_ ∧ _))

def Employed (t : ThreadId) : Prop :=
  (s.held.pools .main = true ∧ t ∈ s.threads .main) ∨
    (s.held.pools .net = true ∧ t ∈ s.threads .net)

instance (t : ThreadId) : Decidable (s.Employed t) :=
  inferInstanceAs (Decidable (_ ∨ _))

/-- `RunAsync` on the main sequential scheduler. -/
def runAsync (created : RunnerId) : Process :=
  { s with
    counted :=
      (s.counted.construct created).step (.runner (.runAsync created mainSequentialScheduler)) }

/-- What an exception does on its way to `main`: the destructors of the signals, of the
guard and of the launcher. -/
def unwinding : List Statement :=
  (if s.signals = .unset then [] else [.destroySignals]) ++
    ((if s.held.guarded = true then Statement.deInit else []) ++ Statement.destroyLauncher)

/-- A statement of the main thread, on what the launcher does not hold. -/
def perform (created : RunnerId) : Statement → Process
  | .makeEngine => { s with engineConfig := some s.config.engineConfig, stopped := false }
  | .startEngine => s.runAsync created
  | .makeSignals => { s with signals := .made }
  | .asyncWait => { s with signals := .armed }
  | .destroySignals => { s with signals := if s.signals = .armed then .queued true else s.signals }
  | .resetEngine => { s with engineConfig := none }
  | .exit error => { s with exitCode := some error }
  | _ => s

/-- The next statement.  `WaitAll` goes on when it reads 0. -/
def goOn (created : RunnerId) : Process :=
  match s.statements with
  | [] => s
  | statement :: rest =>
      if s.held.Asserts statement then
        if statement = .waitAll ∧ s.counted.count ≠ 0 then s
        else { s.perform created statement with
          statements := rest
          held := s.held.after statement }
      else { s with asserted := true }

/-- `Engine::Stop`, called by the handler of the signal. -/
def stopEngine (created : RunnerId) : Process :=
  match s.held.engine with
  | none => { s with undefined := true }
  | some false => { s with asserted := true }
  | some true =>
      if s.stopped = true then { s with signals := .done }
      else { s with signals := .done, stopped := true }.runAsync created

/-- What the process does not allow to the tasks: a runner is made by code of a task, and
a closure is taken up by a thread of a pool that has nothing else to do. -/
def Permits : CountedAction → Prop
  | .construct _ => ∃ t ∈ s.threads .main ++ s.threads .net,
      (s.counted.system.threads t).pc.runner.isSome = true
  | .runner (.dispatch t _) => s.Employed t ∧ s.AtRest t
  | .runner _ | .destroyMembers _ => True
  | .waitAll => False

instance : DecidablePred s.Permits
  | .construct _ => inferInstanceAs (Decidable (∃ t ∈ _, _))
  | .waitAll => inferInstanceAs (Decidable False)
  | .destroyMembers _ => inferInstanceAs (Decidable True)
  | .runner (.dispatch ..) => inferInstanceAs (Decidable (_ ∧ _))
  | .runner (.runAsync ..) | .runner (.runAsyncHere ..) | .runner (.currentScheduler _)
  | .runner (.enter ..) | .runner (.handleEvents ..) | .runner (.disableEvents ..)
  | .runner (.enableEvents ..) | .runner (.defer ..) | .runner (.switchTo ..)
  | .runner (.enterGuard ..) | .runner (.enterAccess ..) | .runner (.leaveScope ..)
  | .runner (.raise ..) | .runner (.catchException ..) | .runner (.finish ..)
  | .runner (.onExit ..) | .runner (.callProceed ..) | .runner (.returnHandler ..)
  | .runner (.detach _) | .runner (.proceed _) | .runner (.setStatus ..) | .runner (.reset _) =>
      inferInstanceAs (Decidable True)

/-- A runner that is created has an address of its own, and the destructor of a pool waits
for its threads. -/
def Ready (created : RunnerId) : Statement → Prop
  | .startEngine => created ∉ s.counted.created
  | .resetPool pool => s.held.pools pool = true → ∀ t ∈ s.threads pool, s.AtRest t
  | _ => True

instance (created : RunnerId) : DecidablePred (s.Ready created)
  | .startEngine => inferInstanceAs (Decidable (_ ∉ _))
  | .resetPool _ => inferInstanceAs (Decidable (_ → _))
  | .makePool _ | .attach _ | .makeEngine | .initEngine | .makeScopeGuard | .makeSignals
  | .asyncWait | .waitAll | .destroySignals | .resetEngine | .detach _ | .exit _ =>
      inferInstanceAs (Decidable True)

def Guard : ProcessAction → Prop
  | .main created =>
      s.statements ≠ [] ∧ ∀ statement ∈ s.statements.head?, s.Ready created statement
  | .throw => s.statements.head?.any Statement.mayThrow = true
  | .signal => s.signals = .armed
  | .beginHandler t => (s.signals = .queued false ∨ s.signals = .queued true) ∧
      s.held.pools .main = true ∧ t ∈ s.threads .main ∧ s.AtRest t
  | .stopEngine t created => s.signals = .handling t ∧ created ∉ s.counted.created
  | .tasks action => s.counted.Guard action ∧ s.Permits action

instance : DecidablePred s.Guard
  | .main _ | .beginHandler _ | .stopEngine .. | .tasks _ =>
      inferInstanceAs (Decidable (_ ∧ _))
  | .throw | .signal => inferInstanceAs (Decidable (_ = _))

/-- The process goes on until `main` has returned or something has gone wrong. -/
def Enabled (action : ProcessAction) : Prop :=
  (s.exitCode = none ∧ s.asserted = false ∧ s.undefined = false ∧
    s.counted.system.terminated = false) ∧ s.Guard action

instance : DecidablePred s.Enabled :=
  fun _ => inferInstanceAs (Decidable (_ ∧ _))

def step : ProcessAction → Process
  | .main created => s.goOn created
  | .throw => { s with statements := s.unwinding ++ [.exit .internalError] }
  | .signal => { s with signals := .queued false }
  | .beginHandler t =>
      { s with signals := if s.signals = .queued true then .done else .handling t }
  | .stopEngine _ created => s.stopEngine created
  | .tasks action => { s with counted := s.counted.step action }

end Process

/-- The main thread with its tasks and a user who sends a signal. -/
def processSystem : ActionSystem Process ProcessAction where
  enabled := Process.Enabled
  next := Process.step

instance (s : Process) (action : ProcessAction) : Decidable (processSystem.enabled s action) :=
  inferInstanceAs (Decidable (s.Enabled action))

end FlatAsync
