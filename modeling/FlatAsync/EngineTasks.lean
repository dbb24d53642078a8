import FlatAsync.Engine
import Mathlib.Data.Multiset.Filter

/-!
# The engine and its main scheduler

`Engine::Start` and `Engine::Stop` post a task to the main sequential scheduler
and return.  The tasks create the server, which replaces an earlier one, and stop
it; the server posts its own tasks to the same scheduler.  `stopped_` changes when
`Stop` is called, `tcp_server_` when a task of `Start` runs.

This file puts the tasks of `Engine` and those of its servers on one strand.  The
servers are numbered, so that their tasks can be told from those of a server that
has been replaced.
-/

namespace FlatAsync

/-- `MAX_CONNECTIONS_COUNT` -/
def maxConnectionsCount : Nat := 100

/-- The object behind `tcp_server_`.  `generation` numbers the objects. -/
structure ServerObject where
  generation : Nat
  state : TcpServer.State

/-- The tasks on the main scheduler: those of `Engine::Start` and `Engine::Stop`,
and those of the servers. -/
inductive MainTask
  | start
  | stop
  | server (generation : Nat) (task : TcpServer.Task)
  deriving DecidableEq, Repr

structure MainOperation where
  generation : Nat
  operation : TcpServer.Operation
  deriving DecidableEq, Repr

structure MainFrame where
  generation : Nat
  frame : TcpServer.Frame
  deriving DecidableEq, Repr

/-- `created` counts the servers that have come into being and `stops` lists those
whose `Stop` has been called; both only record what happened. -/
structure MainState where
  tcpServer : Option ServerObject := none
  created : Nat := 0
  stops : List Nat := []
  undefined : Bool := false

abbrev MainEntry := Entry MainTask MainOperation Completion

abbrev MainWork := Item MainTask MainOperation Completion MainFrame

abbrev MainStretch := Segment MainState MainTask MainOperation Completion MainFrame

abbrev MainMove := Move MainTask MainOperation Completion MainFrame TcpServer.Choice TcpServer.Call

abbrev MainAction := StrandAction MainTask Completion TcpServer.Choice TcpServer.Call

abbrev MainStrand := Strand MainState MainTask MainOperation Completion MainFrame

def serverItem (generation : Nat) : MainWork → Option TcpServer.Work
  | .queued (.task .start) | .queued (.task .stop) => none
  | .queued (.task (.server owner task)) =>
      if owner = generation then some (.queued (.task task)) else none
  | .queued (.resume operation result) =>
      if operation.generation = generation then
        some (.queued (.resume operation.operation result))
      else none
  | .waiting operation result =>
      if operation.generation = generation then some (.waiting operation.operation result)
      else none
  | .running frame => if frame.generation = generation then some (.running frame.frame) else none

def serverItems (generation : Nat) (items : Multiset MainWork) : Multiset TcpServer.Work :=
  items.filterMap (serverItem generation)

namespace MainState

variable (s : MainState)

def generation : Option Nat :=
  s.tcpServer.map ServerObject.generation

def undefinedBehaviour : MainStretch where
  state := { s with undefined := true }

/-- The operations of the acceptor of a server that is destroyed are aborted. -/
def abortReplaced (operation : MainOperation) : Option Completion :=
  if s.generation = some operation.generation then
    TcpServer.State.abortAccept operation.operation
  else none

/-- A server with its capacity, on which `Start` has been called. -/
def startedServer : TcpServer.State × List TcpServer.Task :=
  (TcpServer.initial maxConnectionsCount).state.start

/-- The lambda in `Engine::Start` -/
def startServer : MainStretch where
  state :=
    { s with tcpServer := some ⟨s.created, startedServer.1⟩, created := s.created + 1 }
  posts := startedServer.2.map (.server s.created)
  settles := s.abortReplaced

/-- The lambda in `Engine::Stop`, which calls `TcpServer::Stop`. -/
def stopServer : MainStretch :=
  match s.tcpServer with
  | some server =>
      { state := { s with stops := s.stops ++ [server.generation] }
        posts := [.server server.generation .stop] }
  | none => s.undefinedBehaviour

/-- A stretch of code of the present server. -/
def embed (generation : Nat) (segment : TcpServer.Stretch) : MainStretch where
  state :=
    { s with
      tcpServer := some ⟨generation, segment.state⟩
      undefined := segment.state.undefined }
  posts := segment.posts.map (.server generation)
  settles operation :=
    if operation.generation = generation then segment.settles operation.operation else none
  after :=
    match segment.after with
    | .finish => .finish
    | .run frame => .run ⟨generation, frame⟩
    | .suspend operation => .suspend ⟨generation, operation⟩

/-- The code of a server refers to the server by `this`. -/
def onServer (generation : Nat) (code : TcpServer.State → TcpServer.Stretch) : MainStretch :=
  match s.tcpServer with
  | some server =>
      if server.generation = generation then s.embed generation (code server.state)
      else s.undefinedBehaviour
  | none => s.undefinedBehaviour

def begin (choice : TcpServer.Choice) (rest : Multiset MainWork) : MainEntry → MainStretch
  | .task .start => s.startServer
  | .task .stop => s.stopServer
  | .task (.server generation task) =>
      s.onServer generation fun server =>
        server.begin choice (serverItems generation rest) (.task task)
  | .resume operation result =>
      s.onServer operation.generation fun server =>
        server.begin choice (serverItems operation.generation rest)
          (.resume operation.operation result)

def act (frame : MainFrame) (call : TcpServer.Call) : MainStretch :=
  s.onServer frame.generation fun server => server.act frame.frame call

/-- What is left of a server that has been replaced may complete in any way. -/
def mayComplete (operation : MainOperation) (completion : Completion) : Prop :=
  match s.tcpServer with
  | some server =>
      server.generation = operation.generation →
        TcpServer.State.mayComplete operation.operation completion
  | none => True

instance (operation : MainOperation) (completion : Completion) :
    Decidable (s.mayComplete operation completion) :=
  match here : s.tcpServer with
  | some server =>
      decidable_of_iff (server.generation = operation.generation →
        TcpServer.State.mayComplete operation.operation completion) (by simp [mayComplete, here])
  | none => isTrue (by simp [mayComplete, here])

end MainState

def mainProgram : Program MainState MainTask MainOperation Completion MainFrame TcpServer.Choice
    TcpServer.Call where
  defined s := s.undefined = false
  mayPost _ := False
  mayComplete := MainState.mayComplete
  completed s _ _ := s
  begin choice s rest := s.begin choice rest
  act := MainState.act

instance : DecidablePred mainProgram.defined :=
  fun s => inferInstanceAs (Decidable (s.undefined = false))

instance : DecidablePred mainProgram.mayPost :=
  fun _ => inferInstanceAs (Decidable False)

instance (s : MainState) (operation : MainOperation) (completion : Completion) :
    Decidable (mainProgram.mayComplete s operation completion) :=
  inferInstanceAs (Decidable (s.mayComplete operation completion))

def TcpServer.Call.sparesServer : TcpServer.Call → Bool
  | .start | .stop | .runAsync => false
  | .stopClient _ | .call .. | .await | .leave | .throw => true

/-- The subscribers to the signals of a server are those of `Engine`, which also
runs the subscribers to its own signals there. -/
def SubscriberMove (_ : MainState) (_ : Multiset MainWork) : MainMove → Prop
  | .act frame call => TcpServer.EngineCode frame.frame call ∧ call.sparesServer = true
  | .post _ | .complete .. | .deliver .. | .begin .. => True

instance (s : MainState) (rest : Multiset MainWork) : ∀ move, Decidable (SubscriberMove s rest move)
  | .act .. => inferInstanceAs (Decidable (_ ∧ _))
  | .post _ | .complete .. | .deliver .. | .begin .. => inferInstanceAs (Decidable True)

/-- An engine.  `starts` counts the calls of `Start`, and `requests` has for each
call of `Stop` that has returned true the number of calls of `Start` before it. -/
structure Engine where
  initiated : Bool := false
  stopped : Bool := false
  main : MainStrand := { state := {} }
  starts : Nat := 0
  requests : List Nat := []

inductive EngineCall
  | init
  | start
  | stop
  deriving DecidableEq, Repr

/-- The steps of an engine: a call, from any thread, or a step of the main
scheduler. -/
inductive EngineAction
  | call (call : EngineCall)
  | main (action : MainAction)
  deriving DecidableEq, Repr

namespace Engine

variable (s : Engine)

/-- `RunAsync` on the main scheduler. -/
def runAsync (task : MainTask) : Engine :=
  { s with main := { s.main with queue := s.main.queue ++ [.task task] } }

/-- `Engine::Init` -/
def init : Bool × Engine :=
  (true, { s with initiated := true })

/-- `Engine::Start` -/
def start : Bool × Engine :=
  (true, s.runAsync .start)

/-- `Engine::Stop` -/
def stop : Bool × Engine :=
  if s.stopped then (true, s) else (true, { s with stopped := true }.runAsync .stop)

def call : EngineCall → Engine
  | .init => s.init.2
  | .start => { s.start.2 with starts := s.starts + 1 }
  | .stop => { s.stop.2 with requests := if s.stop.1 then s.starts :: s.requests else s.requests }

def Asserts : EngineCall → Prop
  | .init => s.initiated = false
  | .start | .stop => s.initiated = true

instance : ∀ call, Decidable (s.Asserts call)
  | .init | .start | .stop => inferInstanceAs (Decidable (_ = _))

def Enabled : EngineAction → Prop
  | .call call => s.main.state.undefined = false ∧ s.Asserts call
  | .main action => mainProgram.Enabled s.main action ∧ s.main.During SubscriberMove action

instance : ∀ action, Decidable (s.Enabled action)
  | .call _ | .main _ => inferInstanceAs (Decidable (_ ∧ _))

def step : EngineAction → Engine
  | .call call => s.call call
  | .main action => { s with main := mainProgram.step s.main action }

end Engine

def engineSystem : ActionSystem Engine EngineAction where
  enabled := Engine.Enabled
  next := Engine.step

instance (s : Engine) (action : EngineAction) : Decidable (engineSystem.enabled s action) :=
  inferInstanceAs (Decidable (s.Enabled action))

end FlatAsync
