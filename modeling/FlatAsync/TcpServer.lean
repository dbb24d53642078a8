import FlatAsync.TcpSocket
import Mathlib.Logic.Function.Basic

/-!
# The TCP server

`TcpServer` and its `Acceptor` on a sequential scheduler.  This file embeds the
functions of both as the stretches of code they consist of: what `Start`,
`Stop`, `OnAccepted` and the lambdas they post do, which operations they wait
for, and where the subscribers' code runs in between.

Objects that the code refers to after their end are made visible.  A null
`acceptor_`, an acceptor that has been replaced and a socket that nobody owns
any more lead to undefined behaviour, where a run ends.
-/

namespace FlatAsync

namespace TcpServer

/-- The identity of a `TcpSocket` object. -/
abbrev SocketId := Nat

/-- The object behind `acceptor_`, the `generation`-th one. -/
structure Acceptor where
  generation : Nat := 0
  isOpen : Bool := true
  listening : Bool := true
  deriving DecidableEq, Repr

/-- What the server tells its subscribers and sends to its clients, with the
socket that each event is about.  `stopping` marks a `Stop` that takes
effect. -/
inductive Event
  | listening
  | connected (socket : SocketId) (id : TcpServerId)
  | data (socket : SocketId) (id : TcpServerId) (payload : Buffer)
  | disconnected (socket : SocketId) (id : TcpServerId)
  | stopping
  | stopped
  | written (socket : SocketId) (buffer : Buffer)
  deriving DecidableEq, Repr

/-- The tasks on the strand: those of users, those that the socket functions
post, and the lambdas of the server.  `release` is the lambda posted by the
subscriber to a socket's `on_disconnected_`, `rearm` the last one in
`OnAccepted`. -/
inductive Task
  | user
  | start
  | listening
  | accepted (socket : SocketId)
  | connected (socket : SocketId)
  | socket (socket : SocketId) (task : SocketTask)
  | release (socket : SocketId)
  | rearm
  | stop
  | stopClient (id : TcpServerId)
  deriving DecidableEq, Repr

/-- Where user code runs: in a task of its own or in a subscriber. -/
inductive Handler
  | task
  | listening
  | connected (socket : SocketId) (id : TcpServerId)
  | data (socket : SocketId) (id : TcpServerId) (payload : Buffer)
  | disconnected (socket : SocketId) (id : TcpServerId)
  | stopped
  deriving DecidableEq, Repr

/-- Running user code and the number of calls it has made. -/
structure Frame where
  handler : Handler
  calls : Nat := 0
  deriving DecidableEq, Repr

/-- What a coroutine waits for: `Acceptor::Accept`, the read of a socket's
loop, a call of user code on a socket, or something else. -/
inductive Operation
  | accept (generation : Nat)
  | receive (socket : SocketId)
  | call (socket : SocketId) (call : SocketCall) (frame : Frame)
  | await (frame : Frame)
  deriving DecidableEq, Repr

/-- What user code does.  `call` is `ReadExact`, `ReadPartial`, `ReadUntil` or
`Write` of the server. -/
inductive Call
  | start
  | stop
  | stopClient (id : TcpServerId)
  | call (id : TcpServerId) (call : SocketCall)
  | runAsync
  | await
  | leave
  | throw
  deriving DecidableEq, Repr

/-- What is not determined by the state when a task begins: whether the
constructor of an acceptor can open and listen, and what is left in the memory
of a parameter whose function has returned. -/
structure Choice where
  opens : Bool := true
  listens : Bool := true
  expired : TcpServerId := 0
  deriving DecidableEq, Repr

structure State where
  isRunning : Bool := false
  acceptor : Option Acceptor := none
  clientConnections : List (Option SocketId)
  sockets : SocketId → TcpSocket := fun _ => {}
  created : Nat := 0
  events : List Event := []
  undefined : Bool := false

abbrev Work := Item Task Operation Completion Frame

abbrev Stretch := Segment State Task Operation Completion Frame

abbrev ServerMove := Move Task Operation Completion Frame Choice Call

abbrev ServerAction := StrandAction Task Completion Choice Call

abbrev Server := Strand State Task Operation Completion Frame

def Frame.next (frame : Frame) : Frame :=
  { frame with calls := frame.calls + 1 }

def Frame.owns (socket : SocketId) (frame : Frame) : Bool :=
  match frame.handler with
  | .data owner _ _ => owner = socket
  | .task | .listening | .connected .. | .disconnected .. | .stopped => false

/-- The shared pointers to a socket that the pending work holds.  The lambdas
`connected` and `release` refer to it without owning it. -/
def owns (socket : SocketId) : Work → Bool
  | .queued (.task (.accepted owned)) | .queued (.task (.socket owned _)) => owned = socket
  | .queued (.resume (.receive owned) _) | .waiting (.receive owned) _ => owned = socket
  | .queued (.resume (.call owned _ frame) _) | .waiting (.call owned _ frame) _ =>
      owned = socket || frame.owns socket
  | .queued (.resume (.await frame) _) | .waiting (.await frame) _ => frame.owns socket
  | .running frame => frame.owns socket
  | _ => false

def getSocketIndex (id : Nat) : Nat :=
  if id < 1 then 0 else id - 1

namespace State

variable (s : State)

def log (event : Event) : State :=
  { s with events := s.events ++ [event] }

def setSocket (socket : SocketId) (value : TcpSocket) : State :=
  { s with sockets := Function.update s.sockets socket value }

def setSlot (index : Nat) (slot : Option SocketId) : State :=
  { s with clientConnections := s.clientConnections.set index slot }

def undefinedBehaviour : Stretch where
  state := { s with undefined := true }

def Alive (rest : Multiset Work) (socket : SocketId) : Prop :=
  some socket ∈ s.clientConnections ∨ 0 < Item.count (owns socket) rest

instance (rest : Multiset Work) (socket : SocketId) : Decidable (s.Alive rest socket) :=
  inferInstanceAs (Decidable (_ ∨ _))

/-- `GetConnectedCount` -/
def getConnectedCount : Nat :=
  s.clientConnections.countP Option.isSome

/-- `GetNewConnectionIndex` -/
def getNewConnectionIndex : Option Nat :=
  s.clientConnections.findIdx? Option.isNone

/-- `GetSocket` -/
def getSocket (id : Nat) : Option SocketId :=
  if id < 1 then none
  else if s.clientConnections.length ≤ getSocketIndex id then none
  else s.clientConnections[getSocketIndex id]?.join

/-! ### Accepting -/

/-- `Acceptor::Accept`, called through `acceptor_`. -/
def doAccept : Stretch :=
  match s.acceptor with
  | some acceptor => { state := s, after := .suspend (.accept acceptor.generation) }
  | none => s.undefinedBehaviour

/-- `TcpSocket::Create` for an accepted connection. -/
def createSocket (isOpen : Bool) : State :=
  { s.setSocket s.created { isOpen := isOpen } with created := s.created + 1 }

/-- The rest of `Acceptor::DoAccept` after `Accept` has waited. -/
def afterAccept (generation : Nat) (completion : Completion) : Stretch :=
  let created := s.createSocket (completion.error = .success)
  match s.acceptor with
  | some acceptor =>
      if acceptor.generation = generation then
        if acceptor.isOpen then { state := created, posts := [.accepted s.created] }
        else { state := created }
      else s.undefinedBehaviour
  | none => s.undefinedBehaviour

/-- An accepted socket takes a free slot: the socket gets its id and its
subscribers. -/
def register (index : Nat) (socket : SocketId) : State :=
  (s.setSlot index (some socket)).setSocket socket { s.sockets socket with id := index + 1 }

/-- What `OnAccepted` does with a free slot. -/
def connect (index : Nat) (socket : SocketId) : Stretch where
  state := s.register index socket
  posts := .connected socket :: ((s.sockets socket).start.map (.socket socket) ++ [.rearm])

/-- `TcpServer::OnAccepted` -/
def onAccepted (socket : SocketId) : Stretch :=
  if s.isRunning then
    match s.getNewConnectionIndex with
    | none => { state := s, posts := (s.sockets socket).stop.map (.socket socket) }
    | some index => s.connect index socket
  else { state := s }

/-! ### Starting and stopping -/

/-- `TcpServer::Start` -/
def start : State × List Task :=
  if s.isRunning then (s, []) else ({ s with isRunning := true }, [.start])

def nextGeneration : Nat :=
  match s.acceptor with
  | some acceptor => acceptor.generation + 1
  | none => 0

/-- The operations of a closed or destroyed acceptor are aborted. -/
def abortAccept : Operation → Option Completion
  | .accept _ => some .aborted
  | .receive _ | .call .. | .await _ => none

/-- The lambda in `Start`.  Options cannot be set on an acceptor that has not
been opened, so that its constructor throws. -/
def startListening (choice : Choice) : Stretch :=
  if s.isRunning then
    if choice.opens then
      { state :=
          { s with acceptor := some { generation := s.nextGeneration, listening := choice.listens } }
        posts := [.listening]
        settles := abortAccept
        after := .suspend (.accept s.nextGeneration) }
    else { state := s }
  else { state := s }

/-- `RaiseOnClosed` -/
def raiseOnClosed : State × After Operation Frame :=
  if s.getConnectedCount = 0 then (s.log .stopped, .run { handler := .stopped })
  else (s, .finish)

/-- `item->Stop()` for all occupied slots. -/
def stopAll : List Task :=
  s.clientConnections.flatMap fun slot =>
    match slot with
    | some socket => (s.sockets socket).stop.map (.socket socket)
    | none => []

/-- The lambda in `Stop` -/
def stopServer : Stretch :=
  if s.isRunning then
    match s.acceptor with
    | some acceptor =>
        let closed := { s with
          isRunning := false
          acceptor := some { acceptor with isOpen := false } }.log .stopping
        { state := closed.raiseOnClosed.1
          posts := s.stopAll
          settles := abortAccept
          after := closed.raiseOnClosed.2 }
    | none => s.undefinedBehaviour
  else { state := s }

/-- The lambda in `StopClient`, which reads the id from a parameter that is
gone. -/
def stopSocket (expired : TcpServerId) : Stretch :=
  match s.getSocket expired with
  | some socket => { state := s, posts := (s.sockets socket).stop.map (.socket socket) }
  | none => { state := s }

/-! ### Connections -/

/-- The subscriber to `on_connected_` of the server is called. -/
def raiseConnected (rest : Multiset Work) (socket : SocketId) : Stretch :=
  if s.Alive rest socket then
    { state := s.log (.connected socket (s.sockets socket).id)
      after := .run { handler := .connected socket (s.sockets socket).id } }
  else s.undefinedBehaviour

/-- The lambda in the subscriber to `on_disconnected_` of a socket, up to the
server's own subscribers. -/
def raiseDisconnected (rest : Multiset Work) (socket : SocketId) : Stretch :=
  if s.Alive rest socket then
    { state := s.log (.disconnected socket (s.sockets socket).id)
      after := .run { handler := .disconnected socket (s.sockets socket).id } }
  else s.undefinedBehaviour

/-- The rest of that lambda. -/
def releaseSocket (id : TcpServerId) : Stretch :=
  if getSocketIndex id < s.clientConnections.length then
    let released := s.setSlot (getSocketIndex id) none
    if released.isRunning then { state := released }
    else { state := released.raiseOnClosed.1, after := released.raiseOnClosed.2 }
  else s.undefinedBehaviour

/-- A socket has noticed the end of its connection in its read loop. -/
def disconnect (socket : SocketId) : List Task :=
  if (s.sockets socket).stopped then [] else [.release socket]

/-- The rest of the lambda in `TcpSocket::Start` after `ReadPartial` has
returned. -/
def afterRead (socket : SocketId) (posts : List Task) (buffer : Buffer) (error : ErrorType) :
    Stretch :=
  match error.readOutcome buffer with
  | .disconnected => { state := s, posts := posts ++ s.disconnect socket }
  | .failed =>
      { state := s
        posts :=
          posts ++ (s.sockets socket).stop.map (.socket socket) ++ s.disconnect socket }
  | .data buffer =>
      { state := s.log (.data socket (s.sockets socket).id buffer)
        posts := posts
        after := .run { handler := .data socket (s.sockets socket).id buffer } }

/-- A coroutine goes on after an operation on a socket. -/
def notice (socket : SocketId) : State :=
  s.setSocket socket (s.sockets socket).afterOperation.1

def noticePosts (socket : SocketId) : List Task :=
  (s.sockets socket).afterOperation.2.map (.socket socket)

/-- The operations on a socket that is closed are aborted. -/
def abortOn (socket : SocketId) : Operation → Option Completion
  | .receive other | .call other _ _ => if other = socket then some .aborted else none
  | .accept _ | .await _ => none

/-- The tasks of a socket. -/
def socketTask (socket : SocketId) : SocketTask → Stretch
  | .receive =>
      if (s.sockets socket).isOpen then { state := s, after := .suspend (.receive socket) }
      else s.afterRead socket [] zeroBuffer .success
  | .start => { state := s, posts := (s.sockets socket).start.map (.socket socket) }
  | .close =>
      { state := s.setSocket socket (s.sockets socket).close
        settles := abortOn socket }
  | .disconnected => { state := s, posts := [.release socket] }

/-! ### The program -/

def begin (choice : Choice) (rest : Multiset Work) : Entry Task Operation Completion → Stretch
  | .task .user => { state := s, after := .run { handler := .task } }
  | .task .start => s.startListening choice
  | .task .listening =>
      { state := s.log .listening, after := .run { handler := .listening } }
  | .task (.accepted socket) => s.onAccepted socket
  | .task (.connected socket) => s.raiseConnected rest socket
  | .task (.socket socket task) => s.socketTask socket task
  | .task (.release socket) => s.raiseDisconnected rest socket
  | .task .rearm => if s.isRunning then s.doAccept else { state := s }
  | .task .stop => s.stopServer
  | .task (.stopClient _) => s.stopSocket choice.expired
  | .resume (.accept generation) completion => s.afterAccept generation completion
  | .resume (.receive socket) completion =>
      (s.notice socket).afterRead socket (s.noticePosts socket)
        (bufferIoHandler zeroBuffer completion) completion.error
  | .resume (.call socket _ frame) _ =>
      { state := s.notice socket, posts := s.noticePosts socket, after := .run frame }
  | .resume (.await frame) _ => { state := s, after := .run frame }

/-- What follows when user code returns. -/
def returned : Handler → Stretch
  | .data socket _ _ => { state := s, posts := [.socket socket .start] }
  | .disconnected _ id => s.releaseSocket id
  | .task | .listening | .connected .. | .stopped => { state := s }

/-- `GetSocket` and then the call on the socket. -/
def callSocket (frame : Frame) (id : TcpServerId) (call : SocketCall) : Stretch :=
  match s.getSocket id with
  | none => { state := s, after := .run frame }
  | some socket =>
      if (s.sockets socket).skips call then { state := s, after := .run frame }
      else
        { state :=
            match call with
            | .write buffer => s.log (.written socket buffer)
            | _ => s
          after := .suspend (.call socket call frame) }

def act (frame : Frame) : Call → Stretch
  | .start => { state := s.start.1, posts := s.start.2, after := .run frame.next }
  | .stop => { state := s, posts := [.stop], after := .run frame.next }
  | .stopClient id => { state := s, posts := [.stopClient id], after := .run frame.next }
  | .call id call => s.callSocket frame.next id call
  | .runAsync => { state := s, posts := [.user], after := .run frame.next }
  | .await => { state := s, after := .suspend (.await frame.next) }
  | .leave => s.returned frame.handler
  | .throw => { state := s }

/-- A successful `async_read_some` gives at least one byte. -/
def mayComplete : Operation → Completion → Prop
  | .receive _, completion =>
      completion.error = .success →
        0 < completion.data.length ∧ completion.data.length ≤ maxBuffer
  | .accept _, _ | .call .., _ | .await _, _ => True

instance : ∀ operation completion, Decidable (mayComplete operation completion)
  | .receive _, completion =>
      inferInstanceAs (Decidable (completion.error = .success →
        0 < completion.data.length ∧ completion.data.length ≤ maxBuffer))
  | .accept _, _ | .call .., _ | .await _, _ => inferInstanceAs (Decidable True)

end State

/-! ### What the stretches of code leave alone -/

section Frame

variable {s : State} {socket : SocketId} {posts : List Task} {buffer : Buffer}
variable {error : ErrorType} {frame : Frame} {id : Nat} {call : SocketCall}

namespace State

/-- `GetSocket` finds what is in the slot of a 1-based id. -/
theorem getSocket_eq_some : s.getSocket id = some socket ↔
    1 ≤ id ∧ s.clientConnections[id - 1]? = some (some socket) := by
  unfold getSocket getSocketIndex
  by_cases zero : id < 1
  · simp only [zero, if_true]
    constructor
    · simp
    · intro found
      omega
  · by_cases outside : s.clientConnections.length ≤ id - 1
    · simp [zero, outside]
    · simp only [zero, outside, if_false, Option.join_eq_some_iff]
      exact ⟨fun found => ⟨by omega, found⟩, fun found => found.2⟩

theorem mem_of_getSocket (found : s.getSocket id = some socket) :
    some socket ∈ s.clientConnections :=
  List.mem_of_getElem? (getSocket_eq_some.mp found).2

theorem raiseOnClosed_state (s : State) :
    ∃ events, s.raiseOnClosed.1 = { s with events := events } := by
  unfold raiseOnClosed
  split
  · exact ⟨_, rfl⟩
  · exact ⟨s.events, rfl⟩

theorem afterRead_state (s : State) (socket : SocketId) (posts : List Task) (buffer : Buffer)
    (error : ErrorType) :
    ∃ events, (s.afterRead socket posts buffer error).state = { s with events := events } := by
  unfold afterRead
  split
  · exact ⟨s.events, rfl⟩
  · exact ⟨s.events, rfl⟩
  · exact ⟨_, rfl⟩

theorem callSocket_state (s : State) (frame : Frame) (id : TcpServerId) (call : SocketCall) :
    ∃ events, (s.callSocket frame id call).state = { s with events := events } := by
  unfold callSocket
  split
  · exact ⟨s.events, rfl⟩
  · split
    · exact ⟨s.events, rfl⟩
    · cases call <;> exact ⟨_, rfl⟩

/-- A lambda that has called its subscribers frees a slot, or its id is out of
range. -/
theorem releaseSocket_state (s : State) (id : TcpServerId) :
    (∃ events, (s.releaseSocket id).state =
        { s.setSlot (getSocketIndex id) none with events := events }) ∨
      (s.releaseSocket id).state = { s with undefined := true } := by
  unfold releaseSocket
  split
  · left
    dsimp only
    split
    · exact ⟨s.events, rfl⟩
    · exact (s.setSlot (getSocketIndex id) none).raiseOnClosed_state
  · exact .inr rfl

/-- A `Stop` that takes effect closes the acceptor. -/
theorem stopServer_state (s : State) :
    (∃ acceptor events, s.isRunning = true ∧ s.acceptor = some acceptor ∧ s.stopServer.state =
        { s with
          isRunning := false
          acceptor := some { acceptor with isOpen := false }
          events := events }) ∨
      ∃ undefined, s.stopServer.state = { s with undefined := undefined } := by
  unfold stopServer
  split
  next running =>
    split
    next acceptor here =>
      left
      obtain ⟨events, same⟩ := raiseOnClosed_state
        (log { s with
          isRunning := false
          acceptor := some { acceptor with isOpen := false } } .stopping)
      exact ⟨acceptor, events, running, here, same⟩
    next => exact .inr ⟨true, rfl⟩
  next => exact .inr ⟨s.undefined, rfl⟩

end State

/-! ### What they add to the pending work -/

section Yield

variable (select : Work → Bool)

namespace State

@[simp]
theorem countP_noticePosts (choose : Task → Bool) : (s.noticePosts socket).countP choose =
    ((s.sockets socket).closedUnnoticed && choose (.socket socket .disconnected)).toNat := by
  simp [noticePosts]

@[simp]
theorem countP_disconnect (choose : Task → Bool) : (s.disconnect socket).countP choose =
    (!(s.sockets socket).stopped && choose (.release socket)).toNat := by
  unfold disconnect
  cases (s.sockets socket).stopped <;> cases chosen : choose (.release socket) <;> simp [chosen]

theorem raiseOnClosed_count : Item.count select s.raiseOnClosed.2.items =
    if s.getConnectedCount = 0 then (select (.running { handler := .stopped })).toNat else 0 := by
  unfold raiseOnClosed
  split <;> simp

theorem afterRead_yield : (s.afterRead socket posts buffer error).yield select =
    posts.countP (fun task => select (.queued (.task task))) +
      match error.readOutcome buffer with
      | .disconnected =>
          (!(s.sockets socket).stopped && select (.queued (.task (.release socket)))).toNat
      | .failed =>
          ((s.sockets socket).isOpen &&
              select (.queued (.task (.socket socket .close)))).toNat +
            (!(s.sockets socket).stopped && select (.queued (.task (.release socket)))).toNat
      | .data payload =>
          (select (.running { handler := .data socket (s.sockets socket).id payload })).toNat := by
  unfold afterRead
  split <;> simp [Segment.yield, Nat.add_comm, Nat.add_assoc]

theorem callSocket_yield : (s.callSocket frame id call).yield select =
    match s.getSocket id with
    | none => (select (.running frame)).toNat
    | some socket =>
        if (s.sockets socket).skips call then (select (.running frame)).toNat
        else (select (.waiting (.call socket call frame) none)).toNat := by
  unfold callSocket
  split
  · simp [Segment.yield]
  · split <;> simp [Segment.yield]

/-- `Stop` posts the close tasks of open sockets that have a slot. -/
theorem mem_stopAll {task : Task} (posted : task ∈ s.stopAll) :
    ∃ socket, some socket ∈ s.clientConnections ∧ (s.sockets socket).isOpen = true ∧
      task = .socket socket .close := by
  simp only [stopAll, List.mem_flatMap] at posted
  obtain ⟨slot, member, posted⟩ := posted
  cases slot with
  | none => simp at posted
  | some socket =>
      simp only [TcpSocket.stop] at posted
      split at posted
      next opened => exact ⟨socket, member, opened, by simpa using posted⟩
      next => simp at posted

theorem countP_stopAll {choose : Task → Bool}
    (none : ∀ socket, some socket ∈ s.clientConnections →
      choose (.socket socket .close) = false) : s.stopAll.countP choose = 0 := by
  rw [List.countP_eq_zero]
  intro task posted chosen
  obtain ⟨socket, member, -, rfl⟩ := mem_stopAll posted
  simp [none socket member] at chosen

theorem stopServer_yield : s.stopServer.yield select =
    if s.isRunning = true ∧ s.acceptor.isSome = true then
      s.stopAll.countP (fun task => select (.queued (.task task))) +
        if s.getConnectedCount = 0 then (select (.running { handler := .stopped })).toNat else 0
    else 0 := by
  unfold stopServer
  cases running : s.isRunning with
  | false => simp [Segment.yield]
  | true =>
      cases s.acceptor with
      | none => simp [Segment.yield, undefinedBehaviour]
      | some acceptor =>
          simp [Segment.yield, raiseOnClosed_count, log, getConnectedCount, Nat.add_comm]

theorem releaseSocket_yield : (s.releaseSocket id).yield select =
    if getSocketIndex id < s.clientConnections.length ∧ s.isRunning = false ∧
        (s.setSlot (getSocketIndex id) none).getConnectedCount = 0 then
      (select (.running { handler := .stopped })).toNat
    else 0 := by
  unfold releaseSocket
  by_cases inside : getSocketIndex id < s.clientConnections.length
  · cases running : s.isRunning with
    | true => simp [Segment.yield, inside, setSlot, running]
    | false => simp [Segment.yield, inside, setSlot, running, raiseOnClosed_count]
  · simp [Segment.yield, inside, undefinedBehaviour]

end State

end Yield

end Frame

def program : Program State Task Operation Completion Frame Choice Call where
  defined s := s.undefined = false
  mayPost task := task = .user
  mayComplete _ := State.mayComplete
  completed s _ _ := s
  begin choice s rest := s.begin choice rest
  act := State.act

instance : DecidablePred program.defined :=
  fun s => inferInstanceAs (Decidable (s.undefined = false))

instance : DecidablePred program.mayPost :=
  fun task => inferInstanceAs (Decidable (task = .user))

instance (s : State) (operation : Operation) (completion : Completion) :
    Decidable (program.mayComplete s operation completion) :=
  inferInstanceAs (Decidable (State.mayComplete operation completion))

def initial (maxConnections : Nat) : Strand State Task Operation Completion Frame where
  state := { clientConnections := List.replicate maxConnections none }

end TcpServer

end FlatAsync
