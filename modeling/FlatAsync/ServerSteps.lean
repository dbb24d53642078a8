import FlatAsync.TcpServer

/-!
# What a move can make of a server

Most code of a server writes nothing, or one thing.  This file says, once for each
piece of code, which state a move leaves behind and which tasks it posts; what the
moves preserve of a server follows from it by cases.  So does the reason for each event
that a move adds to the record.
-/

namespace FlatAsync

namespace TcpServer

inductive StateStep (s : State) : ServerMove → State → Prop
  | same {move : ServerMove} : StateStep s move s
  | undefined {move : ServerMove} : StateStep s move { s with undefined := true }
  | opened (choice : Choice) (running : s.isRunning = true) (acceptor : Acceptor) :
      StateStep s (.begin choice (.task .start)) { s with acceptor := some acceptor }
  | listening (choice : Choice) : StateStep s (.begin choice (.task .listening)) (s.log .listening)
  | created (choice : Choice) (generation : Nat) (completion : Completion) (success : Bool) :
      StateStep s (.begin choice (.resume (.accept generation) completion))
        (s.createSocket success)
  | registered {index : Nat} (choice : Choice) (socket : SocketId) (running : s.isRunning = true)
      (found : s.getNewConnectionIndex = some index) :
      StateStep s (.begin choice (.task (.accepted socket))) (s.register index socket)
  | connected (choice : Choice) (socket : SocketId) :
      StateStep s (.begin choice (.task (.connected socket)))
        (s.log (.connected socket (s.sockets socket).id))
  | disconnected (choice : Choice) (socket : SocketId) :
      StateStep s (.begin choice (.task (.release socket)))
        (s.log (.disconnected socket (s.sockets socket).id))
  | overrun (choice : Choice) (socket : SocketId) (payload : Buffer) :
      StateStep s (.begin choice (.task (.socket socket .receive)))
        (s.log (.data socket (s.sockets socket).id payload))
  | closed (choice : Choice) (socket : SocketId) :
      StateStep s (.begin choice (.task (.socket socket .close)))
        (s.setSocket socket (s.sockets socket).close)
  | noticed (choice : Choice) (socket : SocketId) (completion : Completion) :
      StateStep s (.begin choice (.resume (.receive socket) completion)) (s.notice socket)
  | read (choice : Choice) (socket : SocketId) (completion : Completion) (payload : Buffer)
      (success : completion.error = .success) :
      StateStep s (.begin choice (.resume (.receive socket) completion))
        ((s.notice socket).log (.data socket ((s.notice socket).sockets socket).id payload))
  | answered (choice : Choice) (socket : SocketId) (call : SocketCall) (frame : Frame)
      (completion : Completion) :
      StateStep s (.begin choice (.resume (.call socket call frame) completion)) (s.notice socket)
  | stops {acceptor : Acceptor} (choice : Choice) (running : s.isRunning = true)
      (present : s.acceptor = some acceptor) :
      StateStep s (.begin choice (.task .stop))
        (State.log { s with
          isRunning := false
          acceptor := some { acceptor with isOpen := false } } .stopping).raiseOnClosed.1
  | started (frame : Frame) (idle : s.isRunning = false) :
      StateStep s (.act frame .start) { s with isRunning := true }
  | written {id : TcpServerId} {socket : SocketId} (frame : Frame) (buffer : Buffer)
      (found : s.getSocket id = some socket) :
      StateStep s (.act frame (.call id (.write buffer))) (s.log (.written socket buffer))
  | freed {frame : Frame} {socket : SocketId} {id : TcpServerId}
      (handler : frame.handler = .disconnected socket id) (running : s.isRunning = true) :
      StateStep s (.act frame .leave) (s.setSlot (getSocketIndex id) none)
  | freedLast {frame : Frame} {socket : SocketId} {id : TcpServerId}
      (handler : frame.handler = .disconnected socket id) (idle : s.isRunning = false) :
      StateStep s (.act frame .leave) (s.setSlot (getSocketIndex id) none).raiseOnClosed.1

namespace StateStep

variable {s : State} {rest : Multiset Work} {choice : Choice}

theorem beginTask (task : Task) :
    StateStep s (.begin choice (.task task)) (s.begin choice rest (.task task)).state := by
  cases task with
  | user => exact .same
  | listening => exact .listening choice
  | start =>
      simp only [State.begin, State.startListening]
      split
      next running =>
        split
        · exact .opened choice running _
        · exact .same
      next => exact .same
  | accepted socket =>
      simp only [State.begin, State.onAccepted]
      split
      next running =>
        split
        · exact .same
        next index found => exact .registered choice socket running found
      next => exact .same
  | connected socket =>
      simp only [State.begin, State.raiseConnected]
      split
      · exact .connected choice socket
      · exact .undefined
  | release socket =>
      simp only [State.begin, State.raiseDisconnected]
      split
      · exact .disconnected choice socket
      · exact .undefined
  | socket socket task =>
      cases task with
      | receive =>
          simp only [State.begin, State.socketTask]
          split
          · exact .same
          · exact .overrun choice socket zeroBuffer
      | close => exact .closed choice socket
      | start | disconnected => exact .same
  | rearm =>
      simp only [State.begin, State.doAccept]
      split
      · split
        · exact .same
        · exact .undefined
      · exact .same
  | stop =>
      simp only [State.begin, State.stopServer]
      split
      next running =>
        split
        next acceptor present => exact .stops choice running present
        next => exact .undefined
      next => exact .same
  | stopClient id =>
      simp only [State.begin, State.stopSocket]
      split <;> exact .same

theorem beginResume (operation : Operation) (completion : Completion) :
    StateStep s (.begin choice (.resume operation completion))
      (s.begin choice rest (.resume operation completion)).state := by
  cases operation with
  | accept generation =>
      simp only [State.begin, State.afterAccept]
      split
      · split
        · split <;> exact .created choice generation completion _
        · exact .undefined
      · exact .undefined
  | receive socket =>
      simp only [State.begin, State.afterRead]
      cases error : completion.error with
      | success => exact .read choice socket completion _ error
      | eof | connectionReset | operationAborted | other =>
          exact .noticed choice socket completion
  | call socket call frame => exact .answered choice socket call frame completion
  | await frame => exact .same

theorem act (frame : Frame) (call : Call) :
    StateStep s (.act frame call) (s.act frame call).state := by
  cases call with
  | start =>
      simp only [State.act, State.start]
      split
      · exact .same
      next idle => exact .started frame (Bool.eq_false_of_not_eq_true idle)
  | call id call =>
      simp only [State.act, State.callSocket]
      split
      · exact .same
      next socket found =>
        split
        · exact .same
        · cases call with
          | write buffer => exact .written frame buffer found
          | readExact | readPartial | readUntil => exact .same
  | leave =>
      simp only [State.act]
      cases handler : frame.handler with
      | disconnected socket id =>
          simp only [State.returned, State.releaseSocket]
          split
          · split
            next running => exact .freed handler running
            next idle => exact .freedLast handler (Bool.eq_false_of_not_eq_true idle)
          · exact .undefined
      | data | task | listening | connected | stopped => exact .same
  | stop | stopClient | runAsync | await | throw => exact .same

end StateStep

theorem stateStep (s : State) (rest : Multiset Work) (move : ServerMove) :
    StateStep s move (program.stateAfter s rest move) := by
  cases move with
  | post | complete | deliver => exact .same
  | begin choice entry =>
      cases entry with
      | task task => exact StateStep.beginTask task
      | resume operation completion => exact StateStep.beginResume operation completion
  | act frame call => exact StateStep.act frame call

inductive TaskStep (s : State) : ServerMove → Task → Prop
  | user (frame : Frame) : TaskStep s (.act frame .runAsync) .user
  | start (frame : Frame) (idle : s.isRunning = false) : TaskStep s (.act frame .start) .start
  | stop (frame : Frame) : TaskStep s (.act frame .stop) .stop
  | stopClient (frame : Frame) (id : TcpServerId) :
      TaskStep s (.act frame (.stopClient id)) (.stopClient id)
  | listening (choice : Choice) (running : s.isRunning = true) (opens : choice.opens = true) :
      TaskStep s (.begin choice (.task .start)) .listening
  | accepted (choice : Choice) (generation : Nat) (completion : Completion) :
      TaskStep s (.begin choice (.resume (.accept generation) completion)) (.accepted s.created)
  | connected {index : Nat} (choice : Choice) (socket : SocketId) (running : s.isRunning = true)
      (found : s.getNewConnectionIndex = some index) :
      TaskStep s (.begin choice (.task (.accepted socket))) (.connected socket)
  | rearm {index : Nat} (choice : Choice) (socket : SocketId) (running : s.isRunning = true)
      (found : s.getNewConnectionIndex = some index) :
      TaskStep s (.begin choice (.task (.accepted socket))) .rearm
  | socket {move : ServerMove} (socket : SocketId) (task : SocketTask) :
      TaskStep s move (.socket socket task)
  | release {move : ServerMove} (socket : SocketId) : TaskStep s move (.release socket)

namespace TaskStep

variable {s : State} {rest : Multiset Work} {choice : Choice} {move : ServerMove} {task : Task}

theorem ofSocket {socket : SocketId} {tasks : List SocketTask}
    (posted : task ∈ tasks.map (.socket socket)) : TaskStep s move task := by
  obtain ⟨own, -, rfl⟩ := List.mem_map.mp posted
  exact .socket socket own

theorem afterRead {after : State} {socket : SocketId} {posts : List Task} {buffer : Buffer}
    {error : ErrorType} (before : ∀ task ∈ posts, TaskStep s move task)
    (posted : task ∈ (after.afterRead socket posts buffer error).posts) :
    TaskStep s move task := by
  have disconnects (posted : task ∈ after.disconnect socket) : TaskStep s move task := by
    unfold State.disconnect at posted
    split at posted
    · simp at posted
    · obtain rfl : task = .release socket := by simpa using posted
      exact .release socket
  unfold State.afterRead at posted
  split at posted
  · rcases List.mem_append.mp posted with posted | posted
    · exact before task posted
    · exact disconnects posted
  · rcases List.mem_append.mp posted with posted | posted
    · rcases List.mem_append.mp posted with posted | posted
      · exact before task posted
      · exact ofSocket posted
    · exact disconnects posted
  · exact before task posted

theorem beginTask {entry : Task}
    (posted : task ∈ (s.begin choice rest (.task entry)).posts) :
    TaskStep s (.begin choice (.task entry)) task := by
  cases entry with
  | user | listening => simp [State.begin] at posted
  | start =>
      simp only [State.begin, State.startListening] at posted
      split at posted
      next running =>
        split at posted
        next opens =>
          obtain rfl : task = .listening := by simpa using posted
          exact .listening choice running opens
        · simp at posted
      next => simp at posted
  | accepted socket =>
      simp only [State.begin, State.onAccepted] at posted
      split at posted
      next running =>
        split at posted
        · exact ofSocket posted
        next index found =>
          simp only [State.connect, List.mem_cons, List.mem_append] at posted
          rcases posted with rfl | posted | posted
          · exact .connected choice socket running found
          · exact ofSocket posted
          · obtain rfl : task = .rearm := by simpa using posted
            exact .rearm choice socket running found
      next => simp at posted
  | connected socket =>
      simp only [State.begin, State.raiseConnected] at posted
      split at posted <;> simp [State.undefinedBehaviour] at posted
  | release socket =>
      simp only [State.begin, State.raiseDisconnected] at posted
      split at posted <;> simp [State.undefinedBehaviour] at posted
  | socket socket own =>
      cases own with
      | receive =>
          simp only [State.begin, State.socketTask] at posted
          split at posted
          · simp at posted
          · exact afterRead (by simp) posted
      | start => exact ofSocket posted
      | close => simp [State.begin, State.socketTask] at posted
      | disconnected =>
          obtain rfl : task = .release socket := by
            simpa [State.begin, State.socketTask] using posted
          exact .release socket
  | rearm =>
      simp only [State.begin, State.doAccept] at posted
      split at posted
      · split at posted <;> simp [State.undefinedBehaviour] at posted
      · simp at posted
  | stop =>
      simp only [State.begin, State.stopServer] at posted
      split at posted
      · split at posted
        · obtain ⟨socket, -, -, rfl⟩ := State.mem_stopAll posted
          exact .socket socket .close
        · simp [State.undefinedBehaviour] at posted
      · simp at posted
  | stopClient id =>
      simp only [State.begin, State.stopSocket] at posted
      split at posted
      · exact ofSocket posted
      · simp at posted

theorem beginResume {operation : Operation} {completion : Completion}
    (posted : task ∈ (s.begin choice rest (.resume operation completion)).posts) :
    TaskStep s (.begin choice (.resume operation completion)) task := by
  cases operation with
  | accept generation =>
      simp only [State.begin, State.afterAccept] at posted
      split at posted
      · split at posted
        · split at posted
          · obtain rfl : task = .accepted s.created := by simpa using posted
            exact .accepted choice generation completion
          · simp at posted
        · simp [State.undefinedBehaviour] at posted
      · simp [State.undefinedBehaviour] at posted
  | receive socket => exact afterRead (fun _ => ofSocket) posted
  | call socket call frame => exact ofSocket posted
  | await frame => simp [State.begin] at posted

theorem act {frame : Frame} {call : Call} (posted : task ∈ (s.act frame call).posts) :
    TaskStep s (.act frame call) task := by
  cases call with
  | start =>
      simp only [State.act, State.start] at posted
      split at posted
      · simp at posted
      next idle =>
        obtain rfl : task = .start := by simpa using posted
        exact .start frame (Bool.eq_false_of_not_eq_true idle)
  | stop =>
      obtain rfl : task = .stop := by simpa [State.act] using posted
      exact .stop frame
  | stopClient id =>
      obtain rfl : task = .stopClient id := by simpa [State.act] using posted
      exact .stopClient frame id
  | runAsync =>
      obtain rfl : task = .user := by simpa [State.act] using posted
      exact .user frame
  | call id call =>
      simp only [State.act, State.callSocket] at posted
      split at posted
      · simp at posted
      · split at posted <;> simp at posted
  | leave =>
      simp only [State.act] at posted
      cases handler : frame.handler with
      | data socket id payload =>
          obtain rfl : task = .socket socket .start := by
            simpa [handler, State.returned] using posted
          exact .socket socket .start
      | disconnected socket id =>
          simp only [handler, State.returned, State.releaseSocket] at posted
          split at posted
          · split at posted <;> simp at posted
          · simp [State.undefinedBehaviour] at posted
      | task | listening | connected | stopped => simp [handler, State.returned] at posted
  | await | throw => simp [State.act] at posted

end TaskStep

theorem taskStep {s : State} {rest : Multiset Work} {move : ServerMove} {task : Task}
    (posted : task ∈ program.posts s rest move) : TaskStep s move task := by
  cases move with
  | post | complete | deliver => simp [Program.posts] at posted
  | begin choice entry =>
      cases entry with
      | task own => exact TaskStep.beginTask posted
      | resume operation completion => exact TaskStep.beginResume posted
  | act frame call => exact TaskStep.act posted

/-! ### What a server reports -/

theorem notice_ids {s : State} {socket : SocketId} (owner : SocketId) :
    ((s.notice owner).sockets socket).id = (s.sockets socket).id := by
  by_cases same : socket = owner
  · subst same
    simp [State.notice, State.setSocket]
  · simp [State.notice, State.setSocket, same]

/-- What a move that adds the event to the record has found. -/
def Cause (s : State) : ServerMove → Event → Prop
  | move, .listening => ∃ choice, move = .begin choice (.task .listening)
  | move, .connected socket id =>
      id = (s.sockets socket).id ∧ ∃ choice, move = .begin choice (.task (.connected socket))
  | move, .data socket id _ =>
      id = (s.sockets socket).id ∧
        ((∃ choice, move = .begin choice (.task (.socket socket .receive))) ∨
          ∃ choice completion, move = .begin choice (.resume (.receive socket) completion) ∧
            completion.error = .success)
  | move, .disconnected socket id =>
      id = (s.sockets socket).id ∧ ∃ choice, move = .begin choice (.task (.release socket))
  | move, .stopping => s.isRunning = true ∧ ∃ choice, move = .begin choice (.task .stop)
  | move, .stopped =>
      s.isRunning = false ∧ ∃ frame socket id, move = .act frame .leave ∧
        frame.handler = .disconnected socket id ∧
          (s.setSlot (getSocketIndex id) none).getConnectedCount = 0
  | move, .written socket buffer =>
      ∃ frame id, move = .act frame (.call id (.write buffer)) ∧ s.getSocket id = some socket

/-- The events that a move adds: none, one, or both of those of a server that is
stopped without clients. -/
def Logged (s : State) (move : ServerMove) (events : List Event) : Prop :=
  events = [] ∨ (∃ event, events = [event] ∧ Cause s move event) ∨
    events = [.stopping, .stopped] ∧ Cause s move .stopping ∧ s.getConnectedCount = 0

theorem Logged.single {s : State} {move : ServerMove} {event : Event}
    (cause : Cause s move event) : Logged s move [event] :=
  .inr (.inl ⟨event, rfl, cause⟩)

theorem logged_move (s : State) (rest : Multiset Work) (move : ServerMove) :
    ∃ logged, (program.stateAfter s rest move).events = s.events ++ logged ∧
      Logged s move logged := by
  have change := stateStep s rest move
  generalize program.stateAfter s rest move = after at change ⊢
  cases change with
  | listening choice => exact ⟨[_], rfl, .single ⟨choice, rfl⟩⟩
  | connected choice socket => exact ⟨[_], rfl, .single ⟨rfl, choice, rfl⟩⟩
  | disconnected choice socket => exact ⟨[_], rfl, .single ⟨rfl, choice, rfl⟩⟩
  | overrun choice socket payload => exact ⟨[_], rfl, .single ⟨rfl, .inl ⟨choice, rfl⟩⟩⟩
  | read choice socket completion payload success =>
      exact ⟨[_], rfl, .single ⟨notice_ids socket, .inr ⟨choice, completion, rfl, success⟩⟩⟩
  | written frame buffer found => exact ⟨[_], rfl, .single ⟨frame, _, rfl, found⟩⟩
  | stops choice running present =>
      unfold State.raiseOnClosed
      split
      next empty =>
        exact ⟨[.stopping, .stopped], by simp [State.log],
          .inr (.inr ⟨rfl, ⟨running, choice, rfl⟩, empty⟩)⟩
      next => exact ⟨[_], rfl, .single ⟨running, choice, rfl⟩⟩
  | freedLast handler idle =>
      unfold State.raiseOnClosed
      split
      next empty => exact ⟨[_], rfl, .single ⟨idle, _, _, _, rfl, handler, empty⟩⟩
      next => exact ⟨[], (List.append_nil _).symm, .inl rfl⟩
  | _ => exact ⟨[], (List.append_nil _).symm, .inl rfl⟩

end TcpServer

end FlatAsync
