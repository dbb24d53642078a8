import FlatAsync.ServerConnections

/-!
# Moves of a server as steps of its connections

Every move of a server is a step of each of its connections: the one that the
move is about, or a step that changes nothing.  The only exception is a slot
that is freed under another connection with the same id.
-/

namespace FlatAsync

namespace TcpServer

/-- The subscribers to a disconnect return, and the slot that is freed holds
another socket, of the same id. -/
def Evicts (s : State) (socket : SocketId) (move : ServerMove) : Prop :=
  ∃ frame owner id, move = .act frame .leave ∧ frame.handler = .disconnected owner id ∧
    owner ≠ socket ∧ s.clientConnections[getSocketIndex id]? = some (some socket)

section Slots

variable {s : State} {socket : SocketId} {index : Nat}

theorem mem_set_none {slots : List (Option SocketId)} :
    some socket ∈ slots.set index none ↔
      ∃ place, place ≠ index ∧ slots[place]? = some (some socket) := by
  rw [List.mem_iff_getElem?]
  constructor
  · rintro ⟨place, here⟩
    rw [List.getElem?_set] at here
    split at here
    · split at here <;> simp at here
    · exact ⟨place, Ne.symm ‹_›, here⟩
  · rintro ⟨place, ne, here⟩
    exact ⟨place, by rw [List.getElem?_set, if_neg (Ne.symm ne), here]⟩

private theorem mem_set_none_of_ne {slots : List (Option SocketId)}
    (other : slots[index]? ≠ some (some socket)) :
    some socket ∈ slots.set index none ↔ some socket ∈ slots := by
  rw [mem_set_none, List.mem_iff_getElem?]
  constructor
  · rintro ⟨place, -, here⟩
    exact ⟨place, here⟩
  · rintro ⟨place, here⟩
    exact ⟨place, fun same => other (same ▸ here), here⟩

theorem free_of_index (found : s.getNewConnectionIndex = some index) :
    s.clientConnections[index]? = some none := by
  obtain ⟨inside, free, -⟩ := List.findIdx?_eq_some_iff_getElem.mp found
  rw [List.getElem?_eq_getElem inside]
  simpa using free

private theorem mem_set_some {slots : List (Option SocketId)} {owner : SocketId}
    (ne : socket ≠ owner)
    (free : slots[index]? = some none) :
    some socket ∈ slots.set index (some owner) ↔ some socket ∈ slots := by
  rw [List.mem_iff_getElem?, List.mem_iff_getElem?]
  constructor
  · rintro ⟨place, here⟩
    rw [List.getElem?_set] at here
    split at here
    · split at here
      · simp [Ne.symm ne] at here
      · simp at here
    · exact ⟨place, here⟩
  · rintro ⟨place, here⟩
    refine ⟨place, ?_⟩
    rw [List.getElem?_set, if_neg, here]
    rintro rfl
    simp [free] at here

theorem slot_iff {items : Multiset Work} (sound : Sound s items) :
    some socket ∈ s.clientConnections ↔
      (s.sockets socket).id ≠ 0 ∧
        s.clientConnections[(s.sockets socket).id - 1]? = some (some socket) := by
  constructor
  · intro slot
    obtain ⟨index, here⟩ := List.mem_iff_getElem?.mp slot
    have id := sound.ids index socket here
    rw [id]
    exact ⟨Nat.succ_ne_zero index, by simpa using here⟩
  · exact fun here => List.mem_of_getElem? here.2

end Slots

section Raised

variable {s : State} {socket owner : SocketId} {event : Event}

@[simp]
theorem raised_log : (s.log event).raised socket = s.raised socket + (event.reports socket).toNat := by
  cases reported : event.reports socket <;> simp [State.raised, State.log, reported]

@[simp]
theorem raised_setSocket {value : TcpSocket} :
    (s.setSocket owner value).raised socket = s.raised socket :=
  rfl

@[simp]
theorem raised_setSlot {index : Nat} {slot : Option SocketId} :
    (s.setSlot index slot).raised socket = s.raised socket :=
  rfl

@[simp]
theorem raised_raiseOnClosed : s.raiseOnClosed.1.raised socket = s.raised socket := by
  unfold State.raiseOnClosed
  split
  · simp [Event.reports]
  · rfl

@[simp]
theorem raised_afterRead {posts : List Task} {buffer : Buffer} {error : ErrorType} :
    (s.afterRead owner posts buffer error).state.raised socket = s.raised socket := by
  unfold State.afterRead
  split
  · rfl
  · rfl
  · simp [Event.reports]

@[simp]
theorem raised_callSocket {frame : Frame} {id : TcpServerId} {call : SocketCall} :
    (s.callSocket frame id call).state.raised socket = s.raised socket := by
  unfold State.callSocket
  split
  · rfl
  · split
    · rfl
    · cases call <;> simp [Event.reports]

@[simp]
theorem raised_releaseSocket {id : TcpServerId} :
    (s.releaseSocket id).state.raised socket = s.raised socket := by
  unfold State.releaseSocket
  split
  · dsimp only
    split <;> simp
  · rfl

@[simp]
theorem raised_stopServer : s.stopServer.state.raised socket = s.raised socket := by
  unfold State.stopServer
  split
  · split
    · simp only [raised_raiseOnClosed, raised_log]
      simp [Event.reports, State.raised]
    · rfl
  · rfl

end Raised

section Settle

variable {socket : SocketId} {place : Place} {settles : Operation → Option Completion}
variable {items : Multiset Work}

/-- Results that are given to other operations move no work of the socket. -/
theorem count_settle_of_none (other : settles (.receive socket) = none) :
    Item.count (place.selects socket) (items.map (Item.settle settles)) =
      Item.count (place.selects socket) items := by
  induction items using Multiset.induction_on with
  | empty => rfl
  | cons item items ih =>
      have same : place.selects socket (item.settle settles) = place.selects socket item := by
        cases item with
        | queued | running => rfl
        | waiting operation result =>
            cases result with
            | some => rfl
            | none =>
                by_cases own : operation = .receive socket
                · subst own
                  simp [Item.settle, other]
                · exact Place.operation_result own
      simp [ih, same]

private theorem selects_settle_abortOn (item : Work) :
    (place.selects socket (item.settle (State.abortOn socket))).toNat =
      Place.aborted (fun place => (place.selects socket item).toNat) place := by
  cases item with
  | queued entry =>
      cases entry with
      | task task => cases task <;> cases place <;> rfl
      | resume operation completion =>
          cases operation <;> cases place <;> simp [Item.settle, Place.aborted, Place.operation]
  | running frame => cases place <;> simp [Item.settle, Place.aborted, Place.handler]
  | waiting operation result =>
      cases result with
      | some completion =>
          cases operation <;> cases place <;> simp [Item.settle, Place.aborted, Place.operation]
      | none =>
          by_cases own : operation = .receive socket
          · subst own
            cases place <;>
              simp [Item.settle, State.abortOn, Place.aborted, Place.operation, Completion.aborted]
          · have same (place : Place) : place.selects socket
                ((Item.waiting operation none : Work).settle (State.abortOn socket)) =
                  place.operation socket operation none :=
              Place.operation_result own
            have elsewhere : Place.reading.operation socket operation none = false := by
              cases operation with
              | receive owner =>
                  have ne : owner ≠ socket := fun same => own (same ▸ rfl)
                  simp [Place.operation, ne]
              | accept | call | await => rfl
            rw [same]
            cases place <;> simp [Place.aborted, elsewhere]

private theorem count_settle_abortOn :
    Item.count (place.selects socket) (items.map (Item.settle (State.abortOn socket))) =
      Place.aborted (fun place => Item.count (place.selects socket) items) place := by
  induction items using Multiset.induction_on with
  | empty => cases place <;> rfl
  | cons item items ih =>
      rw [Multiset.map_cons, Item.count_cons, ih, selects_settle_abortOn]
      cases place <;> simp [Place.aborted]
      omega

end Settle

namespace State

variable {s after : State} {items : Multiset Work} {socket : SocketId} {place : Place}

@[simp]
theorem connection_socket : (s.connection items socket).socket = s.sockets socket :=
  rfl

@[simp]
theorem connection_slot :
    (s.connection items socket).slot = decide (some socket ∈ s.clientConnections) :=
  rfl

@[simp]
theorem connection_raised : (s.connection items socket).raised = s.raised socket :=
  rfl

@[simp]
theorem connection_work :
    (s.connection items socket).work place = Item.count (place.selects socket) items :=
  rfl

end State

section Steps

variable {s : State} {item : Work} {rest : Multiset Work} {segment : Stretch}
variable {socket owner : SocketId} {place : Place} {d : Connection}

def Occupies (item : Work) (socket : SocketId) (place : Place) : Prop :=
  ∀ other : Place, other.selects socket item = decide (place = other)

def Foreign (item : Work) (socket : SocketId) : Prop :=
  ∀ place : Place, place.selects socket item = false

theorem connection_of_occupies (place : Place) (occupies : Occupies item socket place) :
    s.connection (item ::ₘ rest) socket = (s.connection rest socket).put place := by
  refine Connection.ext rfl rfl rfl fun other => ?_
  rw [State.connection_work, Item.count_cons, occupies other]
  cases here : decide (place = other) <;> simp_all

theorem connection_of_foreign (foreign : Foreign item socket) :
    s.connection (item ::ₘ rest) socket = s.connection rest socket := by
  refine Connection.ext rfl rfl rfl fun other => ?_
  simp [foreign other]

/-- The connection after a stretch of code that aborts none of its reads. -/
theorem connection_outstanding (value : segment.state.sockets socket = d.socket)
    (slot : decide (some socket ∈ segment.state.clientConnections) = d.slot)
    (raised : segment.state.raised socket = d.raised)
    (settles : segment.settles (.receive socket) = none)
    (work : ∀ place : Place, segment.yield (place.selects socket) +
      Item.count (place.selects socket) rest = d.work place) :
    segment.state.connection (segment.outstanding rest) socket = d := by
  refine Connection.ext value slot raised fun place => ?_
  rw [State.connection_work, Segment.count_outstanding_settle, count_settle_of_none settles, work]

theorem Connection.Step.quiet (value : segment.state.sockets socket = s.sockets socket)
    (slot : some socket ∈ segment.state.clientConnections ↔ some socket ∈ s.clientConnections)
    (raised : segment.state.raised socket = s.raised socket)
    (settles : segment.settles (.receive socket) = none)
    (work : ∀ place : Place,
      segment.yield (place.selects socket) = (place.selects socket item).toNat) :
    Connection.Step (s.connection (item ::ₘ rest) socket) none
      (segment.state.connection (segment.outstanding rest) socket) := by
  have same : segment.state.connection (segment.outstanding rest) socket =
      s.connection (item ::ₘ rest) socket := by
    refine connection_outstanding value (by simpa using slot) raised settles fun place => ?_
    simp [work, Nat.add_comm]
  rw [same]
  exact .other

end Steps

/-! ### The entries of the queue -/

section Begin

variable {s : State} {rest : Multiset Work} {segment : Stretch} {choice : Choice}
variable {socket owner : SocketId}

/-- `OnAccepted` registers, refuses or drops the socket. -/
theorem step_accepted (sound : Sound s (.queued (.task (.accepted owner)) ::ₘ rest)) :
    Connection.Step (s.connection (.queued (.task (.accepted owner)) ::ₘ rest) socket) none
      ((s.onAccepted owner).state.connection ((s.onAccepted owner).outstanding rest) socket) := by
  by_cases same : owner = socket
  · subst same
    have before : s.connection (.queued (.task (.accepted owner)) ::ₘ rest) owner =
        (s.connection rest owner).put .accepted :=
      connection_of_occupies .accepted fun place => by cases place <;> simp [Place.task]
    obtain ⟨unregistered, -⟩ := (sound.each owner).accepted
      (Item.count_pos_of_mem (Multiset.mem_cons_self _ _) (by simp [Role.task]))
    rw [before]
    unfold State.onAccepted
    split
    · split
      next =>
        rw [connection_outstanding (d := (s.connection rest owner).add .close
          (s.sockets owner).isOpen.toNat) rfl rfl rfl rfl]
        · exact .refused
        · intro place
          cases place <;> simp [Segment.yield, Place.task, Nat.add_comm]
      next index found =>
        have slot : (s.connection rest owner).slot = false := by
          have outside : some owner ∉ s.clientConnections := fun slot =>
            sound.registered_of_slot slot unregistered
          simpa using outside
        rw [connection_outstanding (d := (((s.connection rest owner).register (index + 1)).put
          .connected).add .receive (s.sockets owner).isOpen.toNat)]
        · exact .registered unregistered slot
        · simp [State.connect, State.register, State.setSocket, Connection.register]
        · have taken : some owner ∈ s.clientConnections.set index (some owner) := by
            have inside := (List.getElem?_eq_some_iff.mp (free_of_index found)).1
            exact List.mem_iff_getElem?.mpr ⟨index, by simp [inside]⟩
          exact decide_eq_true taken
        · rfl
        · rfl
        · intro place
          cases place <;>
            simp [State.connect, Segment.yield, Place.task, Connection.register, Nat.add_comm]
    · rw [connection_outstanding (d := s.connection rest owner) rfl rfl rfl rfl]
      · exact .dropped
      · intro place
        simp [Segment.yield]
  · unfold State.onAccepted
    split
    · split
      next =>
        refine .quiet rfl .rfl rfl rfl fun place => ?_
        cases place <;> simp [Segment.yield, Place.task, same]
      next index found =>
        refine .quiet ?_ ?_ rfl rfl fun place => ?_
        · simp [State.connect, State.register, State.setSocket, State.setSlot, Ne.symm same]
        · exact mem_set_some (Ne.symm same) (free_of_index found)
        · cases place <;> simp [State.connect, Segment.yield, Place.task, same]
    · refine .quiet rfl .rfl rfl rfl fun place => ?_
      cases place <;> simp [Segment.yield, Place.task, same]

private theorem step_socketTask {task : SocketTask} :
    Connection.Step (s.connection (.queued (.task (.socket owner task)) ::ₘ rest) socket)
      (s.momentOf socket (.begin choice (.task (.socket owner task))))
      ((s.socketTask owner task).state.connection ((s.socketTask owner task).outstanding rest)
        socket) := by
  by_cases same : owner = socket
  · subst same
    cases task with
    | receive =>
        rw [connection_of_occupies .receive fun place => by
          cases place <;> simp [Place.task]]
        unfold State.socketTask
        dsimp only
        split
        next opened =>
          rw [connection_outstanding (d := (s.connection rest owner).put .reading) rfl rfl rfl rfl]
          · simpa [State.momentOf, State.moment] using .reads opened
          · intro place
            cases place <;> simp [Segment.yield, Place.operation, Nat.add_comm]
        next closed =>
          rw [connection_outstanding (d := (s.connection rest owner).put .data) rfl rfl
            raised_afterRead rfl]
          · simpa [State.momentOf, State.moment] using
              .skips (Bool.eq_false_of_not_eq_true closed)
          · intro place
            rw [State.afterRead_yield]
            cases place <;>
              simp [ErrorType.readOutcome, Place.handler, Nat.add_comm]
    | start =>
        rw [connection_of_occupies .start fun place => by
          cases place <;> simp [Place.task]]
        rw [connection_outstanding (d := (s.connection rest owner).add .receive
          (s.sockets owner).isOpen.toNat) rfl rfl rfl rfl]
        · simpa [State.momentOf, State.moment] using .restarts
        · intro place
          cases place <;> simp [State.socketTask, Segment.yield, Place.task, Nat.add_comm]
    | close =>
        rw [connection_of_occupies .close fun place => by
          cases place <;> simp [Place.task]]
        have after : (s.socketTask owner .close).state.connection
            ((s.socketTask owner .close).outstanding rest) owner =
              (s.connection rest owner).close := by
          refine Connection.ext ?_ rfl rfl fun place => ?_
          · simp [State.socketTask, State.setSocket, Connection.close]
          · rw [State.connection_work, Segment.count_outstanding_settle]
            exact (Nat.zero_add _).trans count_settle_abortOn
        rw [after]
        exact .closes
    | disconnected =>
        rw [connection_of_occupies .disconnected fun place => by
          cases place <;> simp [Place.task]]
        rw [connection_outstanding (d := (s.connection rest owner).put .release) rfl rfl rfl rfl]
        · exact .disconnected
        · intro place
          cases place <;> simp [State.socketTask, Segment.yield, Place.task, Nat.add_comm]
  · have moment : s.momentOf socket (.begin choice (.task (.socket owner task))) = none := by
      cases task <;> simp [State.momentOf, State.moment, same]
    rw [moment]
    cases task with
    | receive =>
        unfold State.socketTask
        dsimp only
        split
        · refine .quiet rfl .rfl rfl rfl fun place => ?_
          cases place <;> simp [Segment.yield, Place.task, Place.operation, same]
        · refine .quiet rfl .rfl raised_afterRead rfl fun place => ?_
          rw [State.afterRead_yield]
          cases place <;> simp [ErrorType.readOutcome, Place.task, Place.handler, same]
    | start | disconnected =>
        refine .quiet rfl .rfl rfl rfl fun place => ?_
        cases place <;> simp [State.socketTask, Segment.yield, Place.task, same]
    | close =>
        refine .quiet ?_ .rfl rfl ?_ fun place => ?_
        · simp [State.socketTask, State.setSocket, Ne.symm same]
        · simp [State.socketTask, State.abortOn, Ne.symm same]
        · cases place <;> simp [State.socketTask, Segment.yield, Place.task, same]

private theorem step_received {completion : Completion} :
    Connection.Step (s.connection (.queued (.resume (.receive owner) completion) ::ₘ rest) socket)
      none
      ((s.begin choice rest (.resume (.receive owner) completion)).state.connection
        ((s.begin choice rest (.resume (.receive owner) completion)).outstanding rest)
          socket) := by
  obtain ⟨events, state⟩ := (s.notice owner).afterRead_state owner (s.noticePosts owner)
    (bufferIoHandler zeroBuffer completion) completion.error
  have raised : (s.begin choice rest (.resume (.receive owner) completion)).state.raised socket =
      s.raised socket := raised_afterRead
  have settles : (s.begin choice rest (.resume (.receive owner) completion)).settles
      (.receive socket) = none := by
    simp only [State.begin, State.afterRead]
    split <;> rfl
  have yield (place : Place) : ((s.notice owner).afterRead owner (s.noticePosts owner)
      (bufferIoHandler zeroBuffer completion) completion.error).yield (place.selects socket) = _ :=
    State.afterRead_yield (place.selects socket)
  have value : (s.begin choice rest (.resume (.receive owner) completion)).state.sockets socket =
      (s.notice owner).sockets socket := by
    simp only [State.begin, state]
  have slot : some socket ∈ (s.begin choice rest
      (.resume (.receive owner) completion)).state.clientConnections ↔
        some socket ∈ s.clientConnections := by
    simp only [State.begin, state]
    rfl
  by_cases same : owner = socket
  · subst same
    have noticed : (s.notice owner).sockets owner = (s.sockets owner).afterOperation.1 := by
      simp [State.notice, State.setSocket]
    have after (d : Connection) (here : d.socket = (s.sockets owner).afterOperation.1)
        (table : d.slot = decide (some owner ∈ s.clientConnections))
        (reports : d.raised = s.raised owner)
        (work : ∀ place : Place, (s.begin choice rest (.resume (.receive owner) completion)).yield
          (place.selects owner) + Item.count (place.selects owner) rest = d.work place) :
        (s.begin choice rest (.resume (.receive owner) completion)).state.connection
          ((s.begin choice rest (.resume (.receive owner) completion)).outstanding rest) owner =
            d :=
      connection_outstanding (value.trans (noticed.trans here.symm))
        ((decide_eq_decide.mpr slot).trans table.symm) (raised.trans reports.symm) settles work
    cases error : completion.error with
    | success =>
        rw [connection_of_occupies .read fun place => by
          cases place <;> simp [Place.operation, error]]
        rw [after ((s.connection rest owner).notice.put .data) rfl rfl rfl]
        · exact .received
        · intro place
          rw [State.begin, yield, error]
          cases place <;>
            simp [ErrorType.readOutcome, Place.task, Place.handler, Nat.add_comm]
    | eof | connectionReset | operationAborted =>
        rw [connection_of_occupies .failed fun place => by
          cases place <;> simp [Place.operation, error]]
        rw [after (((s.connection rest owner).notice.add .release
          (!(s.connection rest owner).notice.socket.stopped).toNat).add .close 0) rfl rfl rfl]
        · exact .ends (by simp)
        · intro place
          rw [State.begin, yield, error]
          cases place <;> simp [ErrorType.readOutcome, noticed, Place.task, Nat.add_comm]
    | other =>
        rw [connection_of_occupies .failed fun place => by
          cases place <;> simp [Place.operation, error]]
        rw [after (((s.connection rest owner).notice.add .release
          (!(s.connection rest owner).notice.socket.stopped).toNat).add .close
            (s.sockets owner).isOpen.toNat) rfl rfl rfl]
        · exact .ends (by cases opened : (s.sockets owner).isOpen <;> simp [opened])
        · intro place
          rw [State.begin, yield, error]
          cases place <;> simp [ErrorType.readOutcome, noticed, Place.task, Nat.add_comm]
  · refine .quiet ?_ slot raised settles fun place => ?_
    · rw [value]
      simp [State.notice, State.setSocket, Ne.symm same]
    · simp only [State.begin, yield]
      cases error : completion.error <;> cases place <;>
        simp [ErrorType.readOutcome, Place.task, Place.handler, Place.operation, same]

private theorem step_called {call : SocketCall} {frame : Frame} {completion : Completion} :
    Connection.Step
      (s.connection (.queued (.resume (.call owner call frame) completion) ::ₘ rest) socket)
      (s.momentOf socket (.begin choice (.resume (.call owner call frame) completion)))
      ((s.begin choice rest (.resume (.call owner call frame) completion)).state.connection
        ((s.begin choice rest (.resume (.call owner call frame) completion)).outstanding rest)
          socket) := by
  by_cases same : owner = socket
  · subst same
    -- The work that the user code itself is for the socket stays.
    have before : s.connection
        (.queued (.resume (.call owner call frame) completion) ::ₘ rest) owner =
          (s.connection (.running frame ::ₘ rest) owner).put .calling := by
      refine Connection.ext rfl rfl rfl fun place => ?_
      cases place <;> simp [Place.operation]
    rw [before]
    rw [connection_outstanding (d := (s.connection (.running frame ::ₘ rest) owner).notice)]
    · simpa [State.momentOf, State.moment] using .returns
    · simp [State.begin, State.notice, State.setSocket]
    · rfl
    · rfl
    · rfl
    · intro place
      cases place <;> simp [State.begin, Segment.yield, Place.task, Nat.add_comm]
  · have moment : s.momentOf socket
        (.begin choice (.resume (.call owner call frame) completion)) = none := by
      simp [State.momentOf, State.moment, same]
    rw [moment]
    refine .quiet ?_ .rfl rfl rfl fun place => ?_
    · simp [State.begin, State.notice, State.setSocket, Ne.symm same]
    · cases place <;> simp [State.begin, Segment.yield, Place.task, Place.operation, same]

private theorem step_connected (defined : (s.raiseConnected rest owner).state.undefined = false) :
    Connection.Step (s.connection (.queued (.task (.connected owner)) ::ₘ rest) socket) none
      ((s.raiseConnected rest owner).state.connection
        ((s.raiseConnected rest owner).outstanding rest) socket) := by
  unfold State.raiseConnected at defined ⊢
  split at defined
  next alive =>
    rw [if_pos alive]
    by_cases same : owner = socket
    · subst same
      rw [connection_of_occupies .connected fun place => by
        cases place <;> simp [Place.task]]
      rw [connection_outstanding (d := s.connection rest owner) rfl rfl
        (by simp [Event.reports]) rfl]
      · exact .connected
      · intro place
        cases place <;> simp [Segment.yield, Place.handler]
    · refine .quiet rfl .rfl (by simp [Event.reports]) rfl fun place => ?_
      cases place <;> simp [Segment.yield, Place.task, Place.handler, same]
  next => simp [State.undefinedBehaviour] at defined

private theorem step_release (defined : (s.raiseDisconnected rest owner).state.undefined = false) :
    Connection.Step (s.connection (.queued (.task (.release owner)) ::ₘ rest) socket)
      (s.momentOf socket (.begin choice (.task (.release owner))))
      ((s.raiseDisconnected rest owner).state.connection
        ((s.raiseDisconnected rest owner).outstanding rest) socket) := by
  unfold State.raiseDisconnected at defined ⊢
  split at defined
  next alive =>
    rw [if_pos alive]
    by_cases same : owner = socket
    · subst same
      rw [connection_of_occupies .release fun place => by
        cases place <;> simp [Place.task]]
      rw [connection_outstanding (d := { s.connection rest owner with
        raised := s.raised owner + 1 }.put .freeing) rfl rfl (by simp [Event.reports]) rfl]
      · simpa [State.momentOf, State.moment] using .raises
      · intro place
        cases place <;> simp [Segment.yield, Place.handler, Nat.add_comm]
    · have moment : s.momentOf socket (.begin choice (.task (.release owner))) = none := by
        simp [State.momentOf, State.moment, same]
      rw [moment]
      refine .quiet rfl .rfl (by simp [Event.reports, same]) rfl fun place => ?_
      cases place <;> simp [Segment.yield, Place.task, Place.handler, same]
  next => simp [State.undefinedBehaviour] at defined

private theorem step_stops {task : Task} {posts : List Task} {after : State}
    {settles : Operation → Option Completion} {ends : After Operation Frame}
    (foreign : Foreign (.queued (.task task)) socket)
    (same : after.sockets = s.sockets ∧ after.clientConnections = s.clientConnections ∧
      after.raised socket = s.raised socket)
    (settled : settles (.receive socket) = none)
    (silent : ∀ place : Place, Item.count (place.selects socket) ends.items = 0)
    (stops : ∀ task ∈ posts, ∃ owner, some owner ∈ s.clientConnections ∧
      (s.sockets owner).isOpen = true ∧ task = .socket owner .close) :
    Connection.Step (s.connection (.queued (.task task) ::ₘ rest) socket) none
      (after.connection (({ state := after
                            posts := posts
                            settles := settles
                            after := ends } : Stretch).outstanding rest) socket) := by
  let segment : Stretch :=
    { state := after, posts := posts, settles := settles, after := ends }
  change Connection.Step _ none (segment.state.connection (segment.outstanding rest) socket)
  rw [connection_of_foreign foreign]
  rw [connection_outstanding (d := (s.connection rest socket).add .close
    (posts.countP fun task => Place.close.selects socket (.queued (.task task))))
    (congrFun same.1 socket) (by simp [segment, same.2.1]) same.2.2 settled]
  · refine .stops fun some => ?_
    obtain ⟨task, posted, chosen⟩ := List.countP_pos_iff.mp some
    obtain ⟨owner, slot, opened, rfl⟩ := stops task posted
    obtain rfl : owner = socket := by simpa [Place.task] using chosen
    exact ⟨decide_eq_true slot, opened⟩
  · intro place
    have other (ne : place ≠ .close) : ∀ task ∈ posts, place.task socket task = false := by
      intro task posted
      obtain ⟨owner, -, -, rfl⟩ := stops task posted
      cases place <;> simp_all [Place.task]
    by_cases ne : place = .close
    · subst ne
      simp [segment, Segment.yield, silent, Nat.add_comm]
    · simpa [segment, Segment.yield, silent, Ne.symm ne] using other ne

private theorem step_stopServer (defined : s.stopServer.state.undefined = false) :
    Connection.Step (s.connection (.queued (.task .stop) ::ₘ rest) socket) none
      (s.stopServer.state.connection (s.stopServer.outstanding rest) socket) := by
  have foreign : Foreign (.queued (.task .stop)) socket := fun place => by cases place <;> rfl
  unfold State.stopServer at defined ⊢
  split
  next running =>
    split
    next acceptor here =>
      refine step_stops foreign ⟨?_, ?_, ?_⟩ rfl (fun place => ?_) fun task => State.mem_stopAll
      · dsimp only
        obtain ⟨events, same⟩ := State.raiseOnClosed_state _
        rw [same]
        rfl
      · dsimp only
        obtain ⟨events, same⟩ := State.raiseOnClosed_state _
        rw [same]
        rfl
      · simp only [raised_raiseOnClosed, raised_log]
        rfl
      · rw [State.raiseOnClosed_count]
        split
        · cases place <;> rfl
        · rfl
    next none =>
      rw [if_pos running] at defined
      simp [none, State.undefinedBehaviour] at defined
  next =>
    refine .quiet rfl .rfl rfl rfl fun place => ?_
    rw [foreign place]
    simp [Segment.yield]

private theorem step_stopSocket {id expired : TcpServerId} :
    Connection.Step (s.connection (.queued (.task (.stopClient id)) ::ₘ rest) socket) none
      ((s.stopSocket expired).state.connection ((s.stopSocket expired).outstanding rest) socket) := by
  have foreign : Foreign (.queued (.task (.stopClient id))) socket := fun place => by
    cases place <;> rfl
  unfold State.stopSocket
  split
  next owner found =>
    refine step_stops foreign ⟨rfl, rfl, rfl⟩ rfl (fun _ => rfl) fun task posted => ?_
    unfold TcpSocket.stop at posted
    split at posted
    next opened =>
      exact ⟨owner, State.mem_of_getSocket found, opened, by simpa using posted⟩
    next => simp at posted
  next =>
    refine .quiet rfl .rfl rfl rfl fun place => ?_
    rw [foreign place]
    simp [Segment.yield]

theorem State.moment_accept (s : State) (choice : Choice) (generation : Nat)
    (completion : Completion) :
    s.moment (.begin choice (.resume (.accept generation) completion)) = none ∨
      ∃ moment, s.moment (.begin choice (.resume (.accept generation) completion)) =
        some (s.created, moment) := by
  unfold State.moment
  dsimp only
  split
  · split
    · exact .inr ⟨_, rfl⟩
    · exact .inl rfl
  · exact .inl rfl

private theorem accepted_eq_accepting :
    Place.accepted.selects socket = Role.accepting.selects socket := by
  funext item
  cases item with
  | queued entry =>
      cases entry with
      | task task => cases task <;> rfl
      | resume operation => cases operation <;> simp [Place.operation, Role.operation]
  | waiting operation => cases operation <;> simp [Place.operation, Role.operation]
  | running frame => simp

private theorem close_eq_closing : Place.close.selects socket = Role.closing.selects socket := by
  funext item
  cases item with
  | queued entry =>
      cases entry with
      | task task =>
          cases task with
          | socket owner task => cases task <;> rfl
          | user | start | listening | accepted | connected | release | rearm | stop
          | stopClient => rfl
      | resume operation => cases operation <;> simp [Place.operation, Role.operation]
  | waiting operation => cases operation <;> simp [Place.operation, Role.operation]
  | running frame => simp

private theorem step_afterAccept {generation : Nat} {completion : Completion}
    (sound : Sound s (.queued (.resume (.accept generation) completion) ::ₘ rest))
    (defined : (s.afterAccept generation completion).state.undefined = false) :
    Connection.Step
      (s.connection (.queued (.resume (.accept generation) completion) ::ₘ rest) socket)
      (s.momentOf socket (.begin choice (.resume (.accept generation) completion)))
      ((s.afterAccept generation completion).state.connection
        ((s.afterAccept generation completion).outstanding rest) socket) := by
  have foreign : Foreign (.queued (.resume (.accept generation) completion)) socket :=
    fun place => by cases place <;> rfl
  have value (success : Bool) : (s.createSocket success).sockets socket =
      if socket = s.created then { isOpen := success } else s.sockets socket := by
    by_cases own : socket = s.created <;> simp [State.createSocket, State.setSocket, own]
  have others (ne : socket ≠ s.created) :
      s.momentOf socket (.begin choice (.resume (.accept generation) completion)) = none := by
    rcases s.moment_accept choice generation completion with none | ⟨moment, here⟩
    · simp [State.momentOf, none]
    · simp [State.momentOf, here, Ne.symm ne]
  cases here : s.acceptor with
  | none => simp [State.afterAccept, here, State.undefinedBehaviour] at defined
  | some acceptor =>
      by_cases own : acceptor.generation = generation
      · by_cases opened : acceptor.isOpen = true
        · have stretch : s.afterAccept generation completion =
              { state := s.createSocket (completion.error = .success)
                posts := [.accepted s.created] } := by
            simp [State.afterAccept, here, own, opened]
          rw [stretch]
          by_cases new : socket = s.created
          · obtain ⟨fresh, accepting, closing⟩ := sound.fresh socket (Nat.le_of_eq new.symm)
            subst new
            have moment : s.momentOf s.created
                (.begin choice (.resume (.accept generation) completion)) =
                  some (.accepts (completion.error = .success)) := by
              simp [State.momentOf, State.moment, here, own, opened]
            rw [connection_of_foreign foreign, moment]
            rw [connection_outstanding (d := { s.connection rest s.created with
              socket := { isOpen := completion.error = ErrorType.success } }.put .accepted)
              (by simp [value]) rfl rfl rfl]
            · rw [Role.count_cons] at accepting closing
              refine .accepted (c := s.connection rest s.created) fresh ?_ ?_
              · rw [State.connection_work, accepted_eq_accepting]
                exact (Nat.add_eq_zero_iff.mp accepting).1
              · rw [State.connection_work, close_eq_closing]
                exact (Nat.add_eq_zero_iff.mp closing).1
            · intro place
              cases place <;> simp [Segment.yield, Place.task, Nat.add_comm]
          · rw [others new]
            refine .quiet (by simp [value, new]) .rfl rfl rfl fun place => ?_
            rw [foreign place]
            cases place <;> simp [Segment.yield, Place.task, Ne.symm new]
        · have stretch : s.afterAccept generation completion =
              { state := s.createSocket (completion.error = .success) } := by
            simp [State.afterAccept, here, own, opened]
          have moment : s.momentOf socket
              (.begin choice (.resume (.accept generation) completion)) = none := by
            simp [State.momentOf, State.moment, here, opened]
          rw [stretch, moment]
          by_cases new : socket = s.created
          · obtain ⟨fresh, -, -⟩ := sound.fresh socket (Nat.le_of_eq new.symm)
            subst new
            rw [connection_of_foreign foreign]
            rw [connection_outstanding (d := { s.connection rest s.created with
              socket := { isOpen := completion.error = ErrorType.success } })
              (by simp [value]) rfl rfl rfl]
            · exact .ignored (c := s.connection rest s.created) fresh
            · intro place
              simp [Segment.yield]
          · refine .quiet (by simp [value, new]) .rfl rfl rfl fun place => ?_
            rw [foreign place]
            simp [Segment.yield]
      · simp [State.afterAccept, here, own, State.undefinedBehaviour] at defined

theorem step_begin {entry : Entry Task Operation Completion}
    (sound : Sound s (.queued entry ::ₘ rest))
    (defined : (s.begin choice rest entry).state.undefined = false) :
    Connection.Step (s.connection (.queued entry ::ₘ rest) socket)
      (s.momentOf socket (.begin choice entry))
      ((s.begin choice rest entry).state.connection
        ((s.begin choice rest entry).outstanding rest) socket) := by
  cases entry with
  | task task =>
      cases task with
      | user =>
          refine .quiet rfl .rfl rfl rfl fun place => ?_
          cases place <;> simp [State.begin, Segment.yield, Place.task, Place.handler]
      | listening =>
          refine .quiet rfl .rfl (by simp [State.begin, Event.reports]) rfl fun place => ?_
          cases place <;> simp [State.begin, Segment.yield, Place.task, Place.handler]
      | start =>
          simp only [State.begin, State.startListening]
          split
          · split
            · refine .quiet rfl .rfl rfl rfl fun place => ?_
              cases place <;> simp [Segment.yield, Place.task, Place.operation]
            · refine .quiet rfl .rfl rfl rfl fun place => ?_
              cases place <;> simp [Segment.yield, Place.task]
          · refine .quiet rfl .rfl rfl rfl fun place => ?_
            cases place <;> simp [Segment.yield, Place.task]
      | accepted owner => exact step_accepted sound
      | connected owner => exact step_connected defined
      | socket owner task => exact step_socketTask
      | release owner => exact step_release defined
      | rearm =>
          simp only [State.begin, State.doAccept] at defined ⊢
          split
          · split
            · refine .quiet rfl .rfl rfl rfl fun place => ?_
              cases place <;> simp [Segment.yield, Place.task, Place.operation]
            · simp_all [State.undefinedBehaviour]
          · refine .quiet rfl .rfl rfl rfl fun place => ?_
            cases place <;> simp [Segment.yield, Place.task]
      | stop => exact step_stopServer defined
      | stopClient id => exact step_stopSocket
  | resume operation completion =>
      cases operation with
      | accept generation => exact step_afterAccept sound defined
      | receive owner => exact step_received
      | call owner call frame => exact step_called
      | await frame =>
          refine .quiet rfl .rfl rfl rfl fun place => ?_
          cases place <;> simp [State.begin, Segment.yield, Place.operation]

end Begin

/-! ### User code -/

section Act

variable {s : State} {rest : Multiset Work} {frame : Frame} {call : Call} {socket : SocketId}

private theorem step_callSocket {id : TcpServerId} {call : SocketCall} :
    Connection.Step (s.connection (.running frame ::ₘ rest) socket) none
      ((s.callSocket frame.next id call).state.connection
        ((s.callSocket frame.next id call).outstanding rest) socket) := by
  have raised : (s.callSocket frame.next id call).state.raised socket = s.raised socket :=
    raised_callSocket
  obtain ⟨events, state⟩ := s.callSocket_state frame.next id call
  have settles : (s.callSocket frame.next id call).settles (.receive socket) = none := by
    unfold State.callSocket
    split
    · rfl
    · split <;> rfl
  have yield (place : Place) :
      (s.callSocket frame.next id call).yield (place.selects socket) = _ :=
    State.callSocket_yield (place.selects socket)
  have quiet (none : ∀ place : Place,
      (s.callSocket frame.next id call).yield (place.selects socket) =
        (place.handler socket frame.handler).toNat) :
      Connection.Step (s.connection (.running frame ::ₘ rest) socket) .none
        ((s.callSocket frame.next id call).state.connection
          ((s.callSocket frame.next id call).outstanding rest) socket) :=
    .quiet (by rw [state]) (by rw [state]) raised settles none
  cases found : s.getSocket id with
  | none =>
      refine quiet fun place => ?_
      rw [yield, found]
      rfl
  | some owner =>
      cases skips : (s.sockets owner).skips call with
      | true =>
          refine quiet fun place => ?_
          rw [yield, found]
          simp [skips, Frame.next]
      | false =>
          by_cases same : owner = socket
          · subst same
            rw [connection_outstanding (d := (s.connection (.running frame ::ₘ rest) owner).put
              .calling) (by rw [state]; rfl) (by rw [state]; rfl) raised settles]
            · exact .calls (decide_eq_true (State.mem_of_getSocket found))
            · intro place
              rw [yield, found]
              cases place <;> simp [skips, Frame.next, Place.operation, Nat.add_comm]
          · refine quiet fun place => ?_
            rw [yield, found]
            cases place <;> simp [skips, Frame.next, Place.operation, same]

/-- The subscribers to a disconnect return, and the slot of the socket is freed. -/
theorem step_releaseSocket {owner : SocketId} {id : TcpServerId}
    (sound : Sound s (.running frame ::ₘ rest)) (named : Named s (.running frame ::ₘ rest))
    (handler : frame.handler = .disconnected owner id)
    (defined : (s.releaseSocket id).state.undefined = false) :
    Connection.Step (s.connection (.running frame ::ₘ rest) socket) none
        ((s.releaseSocket id).state.connection ((s.releaseSocket id).outstanding rest) socket) ∨
      (owner ≠ socket ∧ s.clientConnections[getSocketIndex id]? = some (some socket)) ∧
        (s.releaseSocket id).state.connection ((s.releaseSocket id).outstanding rest) socket =
          { s.connection (.running frame ::ₘ rest) socket with slot := false } := by
  obtain ⟨own, registered⟩ : id = (s.sockets owner).id ∧ id ≠ 0 := by
    have here := named _ (Multiset.mem_cons_self _ _) frame rfl
    rwa [handler] at here
  have index : getSocketIndex id = id - 1 :=
    if_neg (Nat.not_lt.mpr (Nat.pos_of_ne_zero registered))
  obtain ⟨events, state⟩ : ∃ events, (s.releaseSocket id).state =
      { s.setSlot (getSocketIndex id) none with events := events } := by
    rcases s.releaseSocket_state id with released | lost
    · exact released
    · simp [lost] at defined
  have raised : (s.releaseSocket id).state.raised socket = s.raised socket := raised_releaseSocket
  have settles : (s.releaseSocket id).settles (.receive socket) = none := by
    unfold State.releaseSocket
    dsimp only
    split
    · split <;> rfl
    · rfl
  have yield (place : Place) : (s.releaseSocket id).yield (place.selects socket) = 0 := by
    rw [State.releaseSocket_yield]
    split
    · cases place <;> rfl
    · rfl
  have slots : (s.releaseSocket id).state.clientConnections =
      s.clientConnections.set (id - 1) none := by
    rw [state, ← index]
    rfl
  have emptied (socket : SocketId) (here : (s.sockets socket).id = id) :
      ¬ some socket ∈ (s.releaseSocket id).state.clientConnections := by
    rw [slots, mem_set_none]
    rintro ⟨place, ne, found⟩
    have place' := sound.ids place socket found
    omega
  by_cases same : owner = socket
  · subst same
    left
    rw [connection_of_occupies .freeing fun place => by
      cases place <;> simp [handler, Place.handler]]
    rw [connection_outstanding (d := { s.connection rest owner with slot := false })
      (by rw [state]; rfl) (decide_eq_false (emptied owner own.symm)) raised settles]
    · exact .freed
    · intro place
      simp [yield]
  · have foreign : Foreign (.running frame) socket := fun place => by
      cases place <;> simp [handler, Place.handler, same]
    by_cases evicted : s.clientConnections[getSocketIndex id]? = some (some socket)
    · right
      refine ⟨⟨same, evicted⟩, ?_⟩
      have here : (s.sockets socket).id = id := by
        rw [sound.ids _ socket evicted, index, Nat.sub_add_cancel (Nat.pos_of_ne_zero registered)]
      refine connection_outstanding (by rw [state]; rfl)
        (decide_eq_false (emptied socket here)) raised settles fun place => ?_
      simp [yield, foreign place]
    · left
      refine .quiet (by rw [state]; rfl) ?_ raised settles fun place => ?_
      · rw [slots]
        exact mem_set_none_of_ne (index ▸ evicted)
      · rw [yield, foreign place]
        rfl

/-- Every call of user code is a step of each connection, but for evictions. -/
theorem step_act (sound : Sound s (.running frame ::ₘ rest))
    (named : Named s (.running frame ::ₘ rest))
    (defined : (s.act frame call).state.undefined = false) :
    Connection.Step (s.connection (.running frame ::ₘ rest) socket)
        (s.momentOf socket (.act frame call))
        ((s.act frame call).state.connection ((s.act frame call).outstanding rest) socket) ∨
      Evicts s socket (.act frame call) ∧
        (s.act frame call).state.connection ((s.act frame call).outstanding rest) socket =
          { s.connection (.running frame ::ₘ rest) socket with slot := false } := by
  cases call with
  | start =>
      left
      have same : (s.act frame .start).state.sockets = s.sockets ∧
          (s.act frame .start).state.clientConnections = s.clientConnections ∧
            (s.act frame .start).state.raised socket = s.raised socket := by
        simp only [State.act, State.start]
        split <;> exact ⟨rfl, rfl, rfl⟩
      refine .quiet (by rw [same.1]) (by rw [same.2.1]) same.2.2 rfl fun place => ?_
      simp only [State.act, State.start]
      split <;> cases place <;> simp [Segment.yield, Frame.next, Place.task]
  | stop | stopClient | runAsync | await =>
      left
      refine .quiet rfl .rfl rfl rfl fun place => ?_
      cases place <;> simp [State.act, Segment.yield, Frame.next, Place.task, Place.operation]
  | call id call => exact .inl step_callSocket
  | leave =>
      cases handler : frame.handler with
      | data owner id payload =>
          left
          by_cases same : owner = socket
          · subst same
            rw [connection_of_occupies .data fun place => by
              cases place <;> simp [handler, Place.handler]]
            rw [connection_outstanding (d := (s.connection rest owner).put .start)]
            · exact .handled
            · simp [State.act, handler, State.returned]
            · simp [State.act, handler, State.returned]
            · simp [State.act, handler, State.returned]
            · simp [State.act, handler, State.returned]
            · intro place
              cases place <;>
                simp [State.act, handler, State.returned, Segment.yield, Place.task, Nat.add_comm]
          · refine .quiet ?_ ?_ ?_ ?_ fun place => ?_
            · simp [State.act, handler, State.returned]
            · simp [State.act, handler, State.returned]
            · simp [State.act, handler, State.returned]
            · simp [State.act, handler, State.returned]
            · cases place <;>
                simp [State.act, handler, State.returned, Segment.yield, Place.task, Place.handler,
                  same]
      | disconnected owner id =>
          have released : s.act frame .leave = s.releaseSocket id := by
            simp [State.act, handler, State.returned]
          rw [released] at defined ⊢
          rcases step_releaseSocket sound named handler defined with
            step | ⟨⟨ne, evicted⟩, after⟩
          · exact .inl step
          · exact .inr ⟨⟨frame, owner, id, rfl, handler, ne, evicted⟩, after⟩
      | task | listening | connected | stopped =>
          left
          have idle : s.act frame .leave = { state := s } := by
            simp [State.act, handler, State.returned]
          rw [idle]
          refine .quiet rfl .rfl rfl rfl fun place => ?_
          cases place <;> simp [Segment.yield, handler, Place.handler]
  | throw =>
      left
      have foreign (none : ∀ place : Place, place.handler socket frame.handler = false)
          (moment : s.momentOf socket (.act frame .throw) = Option.none) :
          Connection.Step (s.connection (.running frame ::ₘ rest) socket)
            (s.momentOf socket (.act frame .throw))
            ((s.act frame .throw).state.connection ((s.act frame .throw).outstanding rest)
              socket) := by
        rw [moment]
        refine .quiet rfl .rfl rfl rfl fun place => ?_
        rw [Place.selects_running, none place]
        rfl
      have after : (s.act frame .throw).state.connection ((s.act frame .throw).outstanding rest)
          socket = s.connection rest socket := by
        refine connection_outstanding rfl rfl rfl rfl fun place => ?_
        simp [State.act, Segment.yield]
      cases handler : frame.handler with
      | data owner id payload =>
          by_cases same : owner = socket
          · subst same
            rw [after, connection_of_occupies .data fun place => by
              cases place <;> simp [handler, Place.handler]]
            simpa [State.momentOf, State.moment, handler] using .dataThrows
          · refine foreign (fun place => ?_) ?_
            · cases place <;> simp [handler, Place.handler, same]
            · simp [State.momentOf, State.moment, handler, same]
      | disconnected owner id =>
          by_cases same : owner = socket
          · subst same
            rw [after, connection_of_occupies .freeing fun place => by
              cases place <;> simp [handler, Place.handler]]
            simpa [State.momentOf, State.moment, handler] using .disconnectedThrows
          · refine foreign (fun place => ?_) ?_
            · cases place <;> simp [handler, Place.handler, same]
            · simp [State.momentOf, State.moment, handler, same]
      | task | listening | connected | stopped =>
          refine foreign (fun place => ?_) ?_
          · cases place <;> simp [handler, Place.handler]
          · simp [State.momentOf, State.moment, handler]

end Act

/-- Every move of a server is a step of each of its connections, but for
evictions. -/
theorem connection_step {s : State} {rest : Multiset Work} {move : ServerMove}
    (sound : Sound s (move.consumed + rest)) (named : Named s (move.consumed + rest))
    (allowed : program.Allowed s move)
    (defined : (program.stateAfter s rest move).undefined = false) (socket : SocketId) :
    Connection.Step (s.connection (move.consumed + rest) socket) (s.momentOf socket move)
        ((program.stateAfter s rest move).connection (program.itemsAfter s rest move) socket) ∨
      Evicts s socket move ∧
        (program.stateAfter s rest move).connection (program.itemsAfter s rest move) socket =
          { s.connection (move.consumed + rest) socket with slot := false } := by
  cases move with
  | post task =>
      left
      obtain rfl : task = .user := allowed
      have same : s.connection (.queued (.task .user) ::ₘ rest) socket = s.connection rest socket :=
        connection_of_foreign fun place => by cases place <;> rfl
      have none : s.momentOf socket (.post .user) = none := rfl
      simp only [Program.itemsAfter, Program.stateAfter, same, Move.consumed, zero_add, none]
      exact .other
  | complete operation completion =>
      left
      have none : s.momentOf socket (.complete operation completion) = none := rfl
      rw [none]
      change Connection.Step (s.connection (.waiting operation .none ::ₘ rest) socket) .none
        (s.connection (.waiting operation (some completion) ::ₘ rest) socket)
      by_cases own : operation = .receive socket
      · subst own
        rw [connection_of_occupies .reading fun place => by
          cases place <;> simp [Place.operation]]
        by_cases success : completion.error = .success
        · rw [connection_of_occupies .read fun place => by
            cases place <;> simp [Place.operation, success]]
          exact .succeeds
        · rw [connection_of_occupies .failed fun place => by
            cases place <;> simp [Place.operation, success]]
          exact .fails
      · have same : s.connection (.waiting operation (some completion) ::ₘ rest) socket =
            s.connection (.waiting operation .none ::ₘ rest) socket := by
          refine Connection.ext rfl rfl rfl fun place => ?_
          have same : place.operation socket operation (some completion) =
              place.operation socket operation .none := Place.operation_result own
          simp [same]
        rw [same]
        exact .other
  | deliver operation completion =>
      left
      have none : s.momentOf socket (.deliver operation completion) = none := rfl
      rw [none]
      have same : s.connection (.queued (.resume operation completion) ::ₘ rest) socket =
          s.connection (.waiting operation (some completion) ::ₘ rest) socket :=
        Connection.ext rfl rfl rfl fun place => by simp
      change Connection.Step (s.connection (.waiting operation (some completion) ::ₘ rest) socket)
        .none (s.connection (.queued (.resume operation completion) ::ₘ rest) socket)
      rw [same]
      exact .other
  | begin choice entry => exact .inl (step_begin sound defined)
  | act frame call => exact step_act sound named defined

/-! ### Runs -/

/-- `property` holds of all connections, as long as the behaviour is defined. -/
structure Connections (property : Connection → Prop) (s : State) (items : Multiset Work) :
    Prop where
  sound : Sound s items
  named : Named s items
  each : s.undefined = false → ∀ socket,
    (s.connection items socket).Sound ∧ property (s.connection items socket)

/-- What the steps of a connection preserve at the moments that meet
`condition`, and what evictions preserve, is preserved by the server. -/
theorem preserves_connections {property : Connection → Prop}
    {condition : Moment → Connection → Prop}
    (step : ∀ c moment d, c.Sound → property c → Connection.Step c moment d →
      (∀ here, moment = some here → condition here c) → property d)
    (evicted : ∀ s rest move socket, Connections property s (move.consumed + rest) →
      s.undefined = false → Evicts s socket move →
        property { s.connection (move.consumed + rest) socket with slot := false }) :
    program.Preserves (Connections property)
      fun s rest move => s.undefined = false ∧ Meets condition s rest move := by
  intro s rest move all allowed ⟨defined, met⟩
  obtain ⟨sound, named⟩ :=
    preserves_named s rest move ⟨all.sound, all.named⟩ allowed trivial
  refine ⟨sound, named, fun after socket => ?_⟩
  obtain ⟨before, holds⟩ := all.each defined socket
  rcases connection_step all.sound all.named allowed after socket with made | ⟨evicts, same⟩
  · refine ⟨before.step made, step _ _ _ before holds made fun here moment => ?_⟩
    unfold State.momentOf at moment
    unfold Meets at met
    split at moment
    next owner other found =>
      rw [found] at met
      split at moment
      next own =>
        subst own
        obtain rfl := Option.some.inj moment
        exact met
      next => simp at moment
    next => simp at moment
  · rw [same]
    refine ⟨?_, evicted s rest move socket all defined evicts⟩
    exact ⟨before.stopped, before.reading, fun slot => by simp at slot, before.single,
      before.accepted, before.unclosed, before.unregistered⟩

/-- Two conditions on connections, read as conditions on a step of a strand. -/
theorem Meets.and {first second : Moment → Connection → Prop}
    {s : Strand State Task Operation Completion Frame} {action : ServerAction}
    (one : s.During (Meets first) action) (other : s.During (Meets second) action) :
    s.During (Meets fun moment c => first moment c ∧ second moment c) action := by
  have both := one.and other
  unfold Strand.During at both ⊢
  split at both
  next move rest effect =>
    unfold Meets at both ⊢
    split at both
    next socket moment here => simpa [here] using both
    next => trivial
  next => trivial

theorem defined_of_enabled {s : Server} {action : ServerAction}
    (enabled : program.Enabled s action) : s.state.undefined = false :=
  Program.defined_of_enabled enabled

theorem during_defined {s : Server} {action : ServerAction} (enabled : program.Enabled s action) :
    s.During (fun s _ _ => s.undefined = false) action := by
  unfold Strand.During
  split
  · exact defined_of_enabled enabled
  · trivial

theorem connections_initial {property : Connection → Prop} {maxConnections : Nat}
    (unused : property { socket := {}, slot := false, raised := 0, work := fun _ => 0 }) :
    Connections property (initial maxConnections).state (initial maxConnections).items := by
  have nothing : (initial maxConnections).items = 0 := rfl
  refine ⟨sound_initial _, fun item member => by simp [nothing] at member, fun _ socket => ?_⟩
  have blank : (initial maxConnections).state.connection (initial maxConnections).items socket =
      { socket := {}, slot := false, raised := 0, work := fun _ => 0 } := by
    refine Connection.ext rfl ?_ rfl fun _ => rfl
    simp [initial]
  rw [blank]
  refine ⟨⟨?_, ?_, ?_, ?_, ?_, ?_, ?_⟩, unused⟩ <;> simp [Connection.loop, Connection.disconnects]

/-- What holds of the connections in every run whose moves meet `condition`. -/
theorem everyState_of_connections {property : Connection → Prop}
    {condition : Moment → Connection → Prop} {maxConnections : Nat} {actions : List ServerAction}
    (preserved : program.Preserves (Connections property)
      fun s rest move => s.undefined = false ∧ Meets condition s rest move)
    (unused : property { socket := {}, slot := false, raised := 0, work := fun _ => 0 })
    (legal : program.system.Legal (initial maxConnections) actions)
    (met : program.system.EveryStep (Strand.During (Meets condition)) (initial maxConnections)
      actions) :
    program.system.EveryState (fun s => Connections property s.state s.items)
      (initial maxConnections) actions := by
  refine Strand.everyState_of_bag preserved (connections_initial unused) legal ?_
  exact (legal.and met).imp fun s action both => (during_defined both.1).and both.2

end TcpServer

end FlatAsync
