import FlatAsync.Connection
import FlatAsync.ServerSockets
import FlatAsync.ServerSteps

/-!
# The connections of a server

Each socket of a server gives a `Connection`: the socket itself, whether a slot
holds it, how often `on_disconnected_` was raised for it, and what work is
pending for it.  Every move of the server is a step of each of its connections,
so that what the steps of a connection preserve holds in every run of a server.
-/

namespace FlatAsync

namespace TcpServer

namespace Place

def task (socket : SocketId) : Place → Task → Bool
  | accepted, .accepted owner | connected, .connected owner | receive, .socket owner .receive
  | start, .socket owner .start | disconnected, .socket owner .disconnected
  | close, .socket owner .close | release, .release owner => owner = socket
  | _, _ => false

def handler (socket : SocketId) : Place → Handler → Bool
  | data, .data owner _ _ | freeing, .disconnected owner _ => owner = socket
  | _, _ => false

def operation (socket : SocketId) : Place → Operation → Option Completion → Bool
  | reading, .receive owner, none => owner = socket
  | read, .receive owner, some completion => owner = socket ∧ completion.error = .success
  | failed, .receive owner, some completion => owner = socket ∧ completion.error ≠ .success
  | calling, .call owner _ _, _ => owner = socket
  | place, .call _ _ frame, _ | place, .await frame, _ => place.handler socket frame.handler
  | _, _, _ => false

def selects (socket : SocketId) (place : Place) : Work → Bool
  | .queued (.task task) => place.task socket task
  | .queued (.resume operation completion) => place.operation socket operation (some completion)
  | .waiting operation result => place.operation socket operation result
  | .running frame => place.handler socket frame.handler

section Selects

variable {place : Place} {socket : SocketId} {task : Task} {operation : Operation}
variable {completion : Completion} {result : Option Completion} {frame : Frame}

@[simp]
theorem selects_task : place.selects socket (.queued (.task task)) = place.task socket task :=
  rfl

@[simp]
theorem selects_resume : place.selects socket (.queued (.resume operation completion)) =
    place.operation socket operation (some completion) :=
  rfl

@[simp]
theorem selects_waiting : place.selects socket (.waiting operation result) =
    place.operation socket operation result :=
  rfl

@[simp]
theorem selects_running :
    place.selects socket (.running frame) = place.handler socket frame.handler :=
  rfl

@[simp]
theorem handler_other {handler : Handler} (noData : place ≠ .data) (noFreeing : place ≠ .freeing) :
    place.handler socket handler = false := by
  cases place <;> cases handler <;> first | rfl | contradiction

theorem operation_result (other : operation ≠ .receive socket) :
    place.operation socket operation result = place.operation socket operation none := by
  cases operation with
  | receive owner =>
      have ne : owner ≠ socket := fun same => other (same ▸ rfl)
      cases place <;> cases result <;> simp [Place.operation, ne]
  | accept | call | await => cases place <;> rfl

end Selects

end Place

def Event.reports (socket : SocketId) : Event → Bool
  | .disconnected owner _ => owner = socket
  | _ => false

/-- How often `on_disconnected_` was raised for the socket. -/
def State.raised (s : State) (socket : SocketId) : Nat :=
  s.events.countP (Event.reports socket)

def State.connection (s : State) (items : Multiset Work) (socket : SocketId) : Connection where
  socket := s.sockets socket
  slot := some socket ∈ s.clientConnections
  raised := s.raised socket
  work place := Item.count (place.selects socket) items

/-- The socket a move is about, if it is one of the moments that matter. -/
def State.moment (s : State) : ServerMove → Option (SocketId × Moment)
  | .begin _ (.resume (.accept generation) completion) =>
      match s.acceptor with
      | some acceptor =>
          if acceptor.generation = generation ∧ acceptor.isOpen = true then
            some (s.created, .accepts (completion.error = .success))
          else none
      | none => none
  | .begin _ (.resume (.call socket _ _) _) => some (socket, .returns)
  | .begin _ (.task (.socket socket .receive)) => some (socket, .reads)
  | .begin _ (.task (.socket socket .start)) => some (socket, .restarts)
  | .begin _ (.task (.release socket)) => some (socket, .raises)
  | .act frame .throw =>
      match frame.handler with
      | .data socket _ _ => some (socket, .dataThrows)
      | .disconnected socket _ => some (socket, .disconnectedThrows)
      | .task | .listening | .connected .. | .stopped => none
  | _ => none

def State.momentOf (s : State) (socket : SocketId) (move : ServerMove) : Option Moment :=
  match s.moment move with
  | some (owner, moment) => if owner = socket then some moment else none
  | none => none

/-- A condition on connections, at the moments that matter, as a condition on
moves. -/
def Meets (condition : Moment → Connection → Prop) (s : State) (rest : Multiset Work)
    (move : ServerMove) : Prop :=
  match s.moment move with
  | some (socket, moment) => condition moment (s.connection (move.consumed + rest) socket)
  | none => True

instance (condition : Moment → Connection → Prop)
    [∀ moment c, Decidable (condition moment c)] (s : State) (rest : Multiset Work)
    (move : ServerMove) : Decidable (Meets condition s rest move) :=
  match here : s.moment move with
  | some (socket, moment) =>
      decidable_of_iff (condition moment (s.connection (move.consumed + rest) socket))
        (by simp [Meets, here])
  | none => isTrue (by simp [Meets, here])

/-! ### Ids in subscribers -/

/-- A subscriber that was called for a socket has got its id. -/
def Handler.Named (s : State) : Handler → Prop
  | .data socket id _ | .disconnected socket id => id = (s.sockets socket).id ∧ id ≠ 0
  | .task | .listening | .connected .. | .stopped => True

def frame? : Work → Option Frame
  | .queued (.resume (.call _ _ frame) _) | .waiting (.call _ _ frame) _
  | .queued (.resume (.await frame) _) | .waiting (.await frame) _ | .running frame => some frame
  | _ => none

def Named (s : State) (items : Multiset Work) : Prop :=
  ∀ item ∈ items, ∀ frame, frame? item = some frame → frame.handler.Named s

theorem frame?_settle (settles : Operation → Option Completion) (item : Work) :
    frame? (item.settle settles) = frame? item := by
  cases item with
  | queued => rfl
  | running => rfl
  | waiting operation result =>
      cases result with
      | some => rfl
      | none => cases operation <;> rfl

theorem Handler.Named.mono {s after : State} {handler : Handler} (named : handler.Named s)
    (ids : ∀ socket, (s.sockets socket).id ≠ 0 →
      (after.sockets socket).id = (s.sockets socket).id) : handler.Named after := by
  cases handler with
  | data socket id payload =>
      obtain ⟨rfl, registered⟩ := named
      exact ⟨(ids socket registered).symm, registered⟩
  | disconnected socket id =>
      obtain ⟨rfl, registered⟩ := named
      exact ⟨(ids socket registered).symm, registered⟩
  | task | listening | connected | stopped => trivial

section Ids

variable {s : State} {rest : Multiset Work} {socket : SocketId}

private theorem createSocket_ids {success : Bool} (sound : Sound s rest)
    (registered : (s.sockets socket).id ≠ 0) :
    ((s.createSocket success).sockets socket).id = (s.sockets socket).id := by
  have old := sound.created_of_registered registered
  have ne : socket ≠ s.created := fun same => absurd (same ▸ old) (Nat.lt_irrefl _)
  simp [State.createSocket, State.setSocket, ne]

theorem ids_step {move : ServerMove} (sound : Sound s (move.consumed + rest))
    (registered : (s.sockets socket).id ≠ 0) :
    ((program.stateAfter s rest move).sockets socket).id = (s.sockets socket).id := by
  have change := stateStep s rest move
  generalize program.stateAfter s rest move = after at change ⊢
  cases change with
  | created choice generation completion success => exact createSocket_ids sound registered
  | registered choice owner running found =>
      have ne : socket ≠ owner := by
        rintro rfl
        have zero := ((sound.each socket).accepted
          (Item.count_pos_of_mem (Multiset.mem_cons_self _ _) (by simp [Role.task]))).1
        exact registered zero
      simp [State.register, State.setSocket, State.setSlot, ne]
  | closed choice owner =>
      by_cases same : socket = owner
      · subst same
        simp [State.setSocket, TcpSocket.close]
      · simp [State.setSocket, same]
  | noticed choice owner | read choice owner | answered choice owner => exact notice_ids owner
  | stops | freedLast =>
      obtain ⟨events, same⟩ := State.raiseOnClosed_state _
      rw [same]
      rfl
  | _ => rfl

end Ids

namespace Named

variable {s : State} {item : Work} {rest : Multiset Work} {segment : Stretch}
variable {entry : Entry Task Operation Completion} {choice : Choice} {frame : Frame}
variable {call : Call} {socket : SocketId}

/-- Code that registers no socket twice and calls subscribers with the right
ids. -/
theorem perform (named : Named s (item ::ₘ rest))
    (ids : ∀ socket, (s.sockets socket).id ≠ 0 →
      (segment.state.sockets socket).id = (s.sockets socket).id)
    (after : Named segment.state segment.after.items) :
    Named segment.state (segment.outstanding rest) := by
  intro other member frame runs
  rcases Segment.mem_outstanding.mp member with produced | ⟨task, -, rfl⟩ | ⟨kept, old, rfl⟩
  · exact after other produced frame runs
  · simp [frame?] at runs
  · rw [frame?_settle] at runs
    exact (named kept (Multiset.mem_cons_of_mem old) frame runs).mono ids

theorem single (named : ∀ frame, frame? item = some frame → frame.handler.Named s) :
    Named s {item} := by
  intro other member frame runs
  obtain rfl := Multiset.mem_singleton.mp member
  exact named frame runs

theorem finish : Named s (After.finish : After Operation Frame).items := by
  intro other member
  simp at member

theorem run (named : frame.handler.Named s) :
    Named s (After.run frame : After Operation Frame).items := by
  refine single fun frame' runs => ?_
  obtain rfl : frame = frame' := by simpa [frame?] using runs
  exact named

theorem suspended {operation : Operation}
    (waits : frame? (.waiting operation none) = some frame) (named : frame.handler.Named s) :
    Named s (After.suspend operation : After Operation Frame).items := by
  refine single fun frame' runs => ?_
  obtain rfl := Option.some.inj (waits.symm.trans runs)
  exact named

theorem suspend {operation : Operation} (waits : frame? (.waiting operation none) = none) :
    Named s (After.suspend operation : After Operation Frame).items := by
  refine single fun frame runs => ?_
  simp [waits] at runs

theorem afterRead {entry : Entry Task Operation Completion} {posts : List Task} {buffer : Buffer}
    {error : ErrorType} {after : State} (named : Named s (.queued entry ::ₘ rest))
    (ids : ∀ socket, (after.sockets socket).id = (s.sockets socket).id)
    (registered : (s.sockets socket).id ≠ 0) :
    Named (after.afterRead socket posts buffer error).state
      ((after.afterRead socket posts buffer error).outstanding rest) := by
  obtain ⟨events, same⟩ := after.afterRead_state socket posts buffer error
  refine named.perform (fun owner _ => by rw [same]; exact ids owner) ?_
  unfold State.afterRead
  split
  · exact finish
  · exact finish
  · exact run ⟨rfl, by rw [ids]; exact registered⟩

theorem begin (named : Named s (.queued entry ::ₘ rest))
    (sound : Sound s (.queued entry ::ₘ rest)) :
    Named (s.begin choice rest entry).state ((s.begin choice rest entry).outstanding rest) := by
  have ids (socket : SocketId) (registered : (s.sockets socket).id ≠ 0) :
      ((s.begin choice rest entry).state.sockets socket).id = (s.sockets socket).id :=
    ids_step (show Sound s (Move.consumed (.begin choice entry) + rest) from sound) registered
  cases entry with
  | task task =>
      cases task with
      | user | listening =>
          exact named.perform ids (run trivial)
      | start =>
          refine named.perform ids ?_
          simp only [State.begin, State.startListening]
          split
          · split
            · exact suspend rfl
            · exact finish
          · exact finish
      | accepted owner =>
          refine named.perform ids ?_
          simp only [State.begin, State.onAccepted]
          split
          · split <;> exact finish
          · exact finish
      | connected owner =>
          refine named.perform ids ?_
          simp only [State.begin, State.raiseConnected]
          split
          · exact run trivial
          · exact finish
      | release owner =>
          have registered : (s.sockets owner).id ≠ 0 :=
            sound.registered_of_work (.inr (.inl (Item.count_pos_of_mem
              (Multiset.mem_cons_self _ _) (by simp [Role.task]))))
          refine named.perform ids ?_
          simp only [State.begin, State.raiseDisconnected]
          split
          · exact run ⟨rfl, registered⟩
          · exact finish
      | socket owner task =>
          cases task with
          | receive =>
              have registered : (s.sockets owner).id ≠ 0 :=
                sound.registered_of_work (.inl (Item.count_pos_of_mem
                  (Multiset.mem_cons_self _ _) (by simp [Role.task])))
              simp only [State.begin, State.socketTask]
              split
              · exact named.perform (fun _ _ => rfl) (suspend rfl)
              · exact named.afterRead (fun _ => rfl) registered
          | start | disconnected | close => exact named.perform ids finish
      | rearm =>
          refine named.perform ids ?_
          simp only [State.begin, State.doAccept]
          split
          · split
            · exact suspend rfl
            · exact finish
          · exact finish
      | stop =>
          refine named.perform ids ?_
          simp only [State.begin, State.stopServer]
          split
          · split
            · simp only [State.raiseOnClosed]
              split
              · exact run trivial
              · exact finish
            · exact finish
          · exact finish
      | stopClient id =>
          refine named.perform ids ?_
          simp only [State.begin, State.stopSocket]
          split <;> exact finish
  | resume operation completion =>
      cases operation with
      | accept generation =>
          refine named.perform ids ?_
          simp only [State.begin, State.afterAccept]
          split
          · split
            · split <;> exact finish
            · exact finish
          · exact finish
      | receive owner =>
          have registered : (s.sockets owner).id ≠ 0 :=
            sound.registered_of_work (.inl (Item.count_pos_of_mem
              (Multiset.mem_cons_self _ _) (by simp [Role.operation])))
          exact named.afterRead (fun _ => notice_ids owner) registered
      | call owner _ frame =>
          have same := named _ (Multiset.mem_cons_self _ _) frame rfl
          exact named.perform ids (run (same.mono ids))
      | await frame =>
          have same := named _ (Multiset.mem_cons_self _ _) frame rfl
          exact named.perform ids (run same)

theorem act (named : Named s (.running frame ::ₘ rest))
    (sound : Sound s (.running frame ::ₘ rest)) :
    Named (s.act frame call).state ((s.act frame call).outstanding rest) := by
  have ids (socket : SocketId) (registered : (s.sockets socket).id ≠ 0) :
      ((s.act frame call).state.sockets socket).id = (s.sockets socket).id :=
    ids_step (show Sound s (Move.consumed (.act frame call) + rest) from sound) registered
  have same := named _ (Multiset.mem_cons_self _ _) frame rfl
  refine named.perform ids ?_
  have kept : frame.handler.Named (s.act frame call).state := same.mono ids
  cases call with
  | start | stop | stopClient | runAsync => exact run kept
  | await => exact suspended rfl kept
  | call id call =>
      have ends : (s.callSocket frame.next id call).after = .run frame.next ∨
          ∃ socket, (s.callSocket frame.next id call).after =
            .suspend (.call socket call frame.next) := by
        unfold State.callSocket
        split
        · exact .inl rfl
        · split
          · exact .inl rfl
          · exact .inr ⟨_, rfl⟩
      change Named _ (s.callSocket frame.next id call).after.items
      rcases ends with ends | ⟨socket, ends⟩
      · rw [ends]
        exact run kept
      · rw [ends]
        exact suspended rfl kept
  | leave =>
      simp only [State.act]
      cases frame.handler with
      | disconnected owner id =>
          simp only [State.returned, State.releaseSocket, State.raiseOnClosed]
          split
          · split
            · exact finish
            · split
              · exact run trivial
              · exact finish
          · exact finish
      | data | task | listening | connected | stopped => exact finish
  | throw => exact finish

end Named

theorem preserves_named : program.Preserves
    (fun s items => Sound s items ∧ Named s items) fun _ _ _ => True := by
  intro s rest move ⟨sound, named⟩ allowed _
  refine ⟨preserves_sound s rest move sound allowed trivial, ?_⟩
  cases move with
  | post task =>
      intro item member frame runs
      rcases Multiset.mem_cons.mp member with rfl | old
      · simp [frame?] at runs
      · exact named item (by simpa [Move.consumed] using old) frame runs
  | complete operation completion | deliver operation completion =>
      intro item member frame runs
      rcases Multiset.mem_cons.mp member with rfl | old
      · refine named _ (Multiset.mem_cons_self _ _) frame ?_
        cases operation <;> exact runs
      · exact named item (Multiset.mem_cons_of_mem old) frame runs
  | begin choice entry => exact named.begin sound
  | act frame call => exact named.act sound

end TcpServer

end FlatAsync
