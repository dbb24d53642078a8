import FlatAsync.ServerOrder
import Mathlib.Data.List.Induction

/-!
# The order of the events of a connection

What the record of a server that reports its connections in order looks like:
each `on_data_` of a connection comes after its `on_connected_` and before its
`on_disconnected_`, and while it is the connection that was announced last under
its id.
-/

namespace FlatAsync

namespace TcpServer

/-- The connection that was announced last under the id. -/
def holder (events : List Event) (id : TcpServerId) : Option SocketId :=
  events.foldl (fun holder event =>
    match event with
    | .connected socket other => if other = id then some socket else holder
    | _ => holder) none

/-- Data comes from announced connections that have not been reported as
disconnected, and never under an id that has been given to another one. -/
def DataInOrder (events : List Event) : Prop :=
  ∀ before after socket id payload, events = before ++ .data socket id payload :: after →
    .connected socket id ∈ before ∧ holder before id = some socket ∧
      ∀ other, .disconnected socket other ∉ before

section Holder

variable {events logged : List Event} {event : Event} {socket : SocketId} {id : TcpServerId}

private theorem holder_connected :
    holder (events ++ [.connected socket id]) id = some socket := by
  simp [holder]

private theorem holder_append (other : ∀ socket, .connected socket id ∉ logged) :
    holder (events ++ logged) id = holder events id := by
  induction logged generalizing events with
  | nil => rw [List.append_nil]
  | cons event logged ih =>
      have here : holder (events ++ [event]) id = holder events id := by
        cases event with
        | connected socket number =>
            have ne : number ≠ id := by
              rintro rfl
              exact other socket (List.mem_cons_self)
            simp [holder, ne]
        | listening | data | disconnected | stopping | stopped | written => simp [holder]
      have rest : holder ((events ++ [event]) ++ logged) id = holder (events ++ [event]) id :=
        ih fun socket member => other socket (List.mem_cons_of_mem event member)
      rw [List.append_assoc, List.singleton_append] at rest
      rw [rest, here]

private theorem mem_of_holder (found : holder events id = some socket) :
    .connected socket id ∈ events := by
  induction events using List.reverseRecOn with
  | nil => simp [holder] at found
  | append_singleton events event ih =>
      by_cases announces : ∃ owner, event = .connected owner id
      · obtain ⟨owner, rfl⟩ := announces
        rw [holder_connected] at found
        obtain rfl := Option.some.inj found
        simp
      · rw [holder_append (by simpa [eq_comm] using announces)] at found
        exact List.mem_append_left _ (ih found)

theorem DataInOrder.append (inOrder : DataInOrder events)
    (added : ∀ socket id payload, event = .data socket id payload →
      .connected socket id ∈ events ∧ holder events id = some socket ∧
        ∀ other, .disconnected socket other ∉ events) : DataInOrder (events ++ [event]) := by
  intro before after socket id payload split
  rcases List.eq_nil_or_concat after with rfl | ⟨later, last, rfl⟩
  · obtain ⟨rfl, same⟩ := List.append_inj' split rfl
    exact added socket id payload (by simpa using same)
  · rw [List.concat_eq_append, ← List.cons_append, ← List.append_assoc] at split
    exact inOrder before later socket id payload (List.append_inj' split rfl).1

end Holder

/-- What the record says about the connections that have not been reported as
disconnected. -/
structure Chronicle (s : State) (items : Multiset Work) : Prop where
  announced : ∀ socket, (s.sockets socket).id ≠ 0 → s.raised socket = 0 →
    0 < Item.count (Place.connected.selects socket) items ∨
      holder s.events (s.sockets socket).id = some socket
  inOrder : DataInOrder s.events
  named : ∀ socket id payload, .data socket id payload ∈ s.events →
    id = (s.sockets socket).id ∧ id ≠ 0

section Chronicle

variable {s : State} {rest : Multiset Work} {move : ServerMove} {socket : SocketId}

/-- A connection that is announced is the one that holds the slot of its id. -/
theorem owner_of_connected {other : SocketId}
    (connections : Connections Connection.Reported s (move.consumed + rest))
    (defined : s.undefined = false) (choice : Choice)
    (announces : move = .begin choice (.task (.connected other)))
    (registered : (s.sockets socket).id ≠ 0) (unreported : s.raised socket = 0)
    (same : (s.sockets socket).id = (s.sockets other).id) : other = socket := by
  have waits : 0 < (s.connection (move.consumed + rest) other).work .connected := by
    subst announces
    exact Item.count_pos_of_mem (Multiset.mem_cons_self _ _) (by simp [Place.task])
  obtain ⟨-, first⟩ := connections.each defined socket
  obtain ⟨-, second⟩ := connections.each defined other
  have here := first.slot registered (.inl unreported)
  have there := second.slot (same ▸ registered) (.inl (second.announced waits).1)
  exact slot_unique connections.sound (of_decide_eq_true there) (of_decide_eq_true here) same.symm

/-- Whoever raises `on_data_` has been announced and not reported. -/
theorem unreported_of_data {id : TcpServerId} {payload : Buffer}
    (connections : Connections Connection.Reported s (move.consumed + rest))
    (defined : s.undefined = false) (inTurn : Meets InTurn s rest move)
    (cause : Cause s move (.data socket id payload)) :
    (s.sockets socket).id ≠ 0 ∧ s.raised socket = 0 ∧
      (s.connection (move.consumed + rest) socket).work .connected = 0 := by
  obtain ⟨sound, reported⟩ := connections.each defined socket
  rcases cause.2 with ⟨choice, rfl⟩ | ⟨choice, completion, rfl, success⟩
  · have reads : 0 < (s.connection (Move.consumed (.begin choice
        (.task (.socket socket .receive)) : ServerMove) + rest) socket).work .receive :=
      Item.count_pos_of_mem (Multiset.mem_cons_self _ _) (by simp [Place.task])
    refine ⟨sound.registered_of_loop (by unfold Connection.loop; omega), ?_, inTurn⟩
    refine Nat.eq_zero_of_not_pos fun ceased => ?_
    have quiet := (reported.quiet ceased).1
    omega
  · have reads : 0 < (s.connection (Move.consumed (.begin choice
        (.resume (.receive socket) completion) : ServerMove) + rest) socket).work .read :=
      Item.count_pos_of_mem (Multiset.mem_cons_self _ _) (by simp [Place.operation, success])
    refine ⟨sound.registered_of_loop (by unfold Connection.loop; omega), ?_, ?_⟩
    · refine Nat.eq_zero_of_not_pos fun ceased => ?_
      have quiet := (reported.quiet ceased).2.2
      omega
    · refine Nat.eq_zero_of_not_pos fun waits => ?_
      have single := (reported.announced waits).2
      simp only [Connection.loop] at single
      omega

theorem Logged.connected {logged : List Event} {id : TcpServerId} (reasons : Logged s move logged)
    (member : .connected socket id ∈ logged) :
    logged = [.connected socket id] ∧ Cause s move (.connected socket id) := by
  rcases reasons with rfl | ⟨event, rfl, cause⟩ | ⟨rfl, -, -⟩
  · simp at member
  · obtain rfl := List.mem_singleton.mp member
    exact ⟨rfl, cause⟩
  · simp at member

/-- A move that announces a connection announces the one that holds its slot. -/
theorem Chronicle.announced_after {s : State} {rest : Multiset Work} {move : ServerMove}
    {logged : List Event} (chronicle : Chronicle s (move.consumed + rest))
    (connections : Connections Connection.Reported s (move.consumed + rest))
    (allowed : program.Allowed s move) (defined : s.undefined = false)
    (after : (program.stateAfter s rest move).undefined = false)
    (events : (program.stateAfter s rest move).events = s.events ++ logged)
    (reasons : Logged s move logged) (socket : SocketId)
    (registered : ((program.stateAfter s rest move).sockets socket).id ≠ 0)
    (unreported : (program.stateAfter s rest move).raised socket = 0) :
    0 < Item.count (Place.connected.selects socket) (program.itemsAfter s rest move) ∨
      holder (program.stateAfter s rest move).events
        ((program.stateAfter s rest move).sockets socket).id = some socket := by
  have step := connections.step allowed defined after socket
  by_cases new : (s.sockets socket).id = 0
  · exact .inl (step.connected_of_registered new registered)
  have id : ((program.stateAfter s rest move).sockets socket).id = (s.sockets socket).id :=
    step.id_of_registered new
  have none : s.raised socket = 0 := Nat.eq_zero_of_le_zero (unreported ▸ step.raised_le)
  rw [id, events]
  by_cases announces : ∃ owner, .connected owner (s.sockets socket).id ∈ logged
  · right
    obtain ⟨owner, member⟩ := announces
    obtain ⟨rfl, same, choice, begins⟩ := reasons.connected member
    obtain rfl := owner_of_connected connections defined choice begins new none same
    exact holder_connected
  · rw [holder_append (not_exists.mp announces)]
    rcases chronicle.announced socket new none with waits | found
    · obtain ⟨item, member, chosen⟩ := Item.count_pos.mp waits
      obtain rfl := Place.eq_of_connected chosen
      rcases program.queued_after member with ⟨choice, rfl⟩ | kept
      · have raised : (s.raiseConnected rest socket).state.events = s.events ++ logged := events
        have known : (s.raiseConnected rest socket).state.undefined = false := after
        unfold State.raiseConnected at raised known
        split at raised
        next alive =>
          have logs := List.append_cancel_left raised
          exact absurd ⟨socket, by simp [← logs]⟩ announces
        next gone => simp [gone, State.undefinedBehaviour] at known
      · exact .inl (Item.count_pos_of_mem kept (by simp [Place.task]))
    · exact .inr found

theorem Chronicle.data_after {s : State} {rest : Multiset Work} {move : ServerMove}
    {logged : List Event} (chronicle : Chronicle s (move.consumed + rest))
    (connections : Connections Connection.Reported s (move.consumed + rest))
    (defined : s.undefined = false) (inTurn : Meets InTurn s rest move)
    (reasons : Logged s move logged) : DataInOrder (s.events ++ logged) := by
  rcases reasons with rfl | ⟨event, rfl, cause⟩ | ⟨rfl, -, -⟩
  · rw [List.append_nil]
    exact chronicle.inOrder
  · refine chronicle.inOrder.append ?_
    rintro socket id payload rfl
    obtain ⟨registered, unreported, announced⟩ :=
      unreported_of_data connections defined inTurn cause
    obtain rfl : id = (s.sockets socket).id := cause.1
    have holds : holder s.events (s.sockets socket).id = some socket := by
      rcases chronicle.announced socket registered unreported with waits | found
      · exact absurd announced waits.ne'
      · exact found
    refine ⟨mem_of_holder holds, holds, fun other member => ?_⟩
    have silent := List.countP_eq_zero.mp unreported _ member
    simp [Event.reports] at silent
  · rw [List.append_cons]
    exact (chronicle.inOrder.append (by simp)).append (by simp)

theorem Chronicle.named_after {s : State} {rest : Multiset Work} {move : ServerMove}
    {logged : List Event} (chronicle : Chronicle s (move.consumed + rest))
    (connections : Connections Connection.Reported s (move.consumed + rest))
    (defined : s.undefined = false) (inTurn : Meets InTurn s rest move)
    (ids : ∀ socket, (s.sockets socket).id ≠ 0 →
      ((program.stateAfter s rest move).sockets socket).id = (s.sockets socket).id)
    (reasons : Logged s move logged) (socket : SocketId) (id : TcpServerId) (payload : Buffer)
    (member : .data socket id payload ∈ s.events ++ logged) :
    id = ((program.stateAfter s rest move).sockets socket).id ∧ id ≠ 0 := by
  have known : id = (s.sockets socket).id ∧ id ≠ 0 := by
    rcases List.mem_append.mp member with old | new
    · exact chronicle.named socket id payload old
    · rcases reasons with rfl | ⟨event, rfl, cause⟩ | ⟨rfl, -, -⟩
      · simp at new
      · obtain rfl := List.mem_singleton.mp new
        obtain rfl : id = (s.sockets socket).id := cause.1
        exact ⟨rfl, (unreported_of_data connections defined inTurn cause).1⟩
      · simp at new
  obtain ⟨rfl, registered⟩ := known
  exact ⟨(ids socket registered).symm, registered⟩

end Chronicle

/-- The record and the connections of a server that reports them in order. -/
def Recorded (s : State) (items : Multiset Work) : Prop :=
  Connections Connection.Reported s items ∧ (s.undefined = false → Chronicle s items)

theorem Meets.imp {condition weaker : Moment → Connection → Prop} {s : State}
    {rest : Multiset Work} {move : ServerMove} (met : Meets condition s rest move)
    (implies : ∀ moment c, condition moment c → weaker moment c) : Meets weaker s rest move := by
  unfold Meets at met ⊢
  split at met
  next socket moment here => simpa [here] using implies _ _ met
  next => simp

theorem preserves_recorded : program.Preserves Recorded Sequenced := by
  intro s rest move ⟨connections, chronicle⟩ allowed ⟨defined, met⟩
  refine ⟨preserves_reported s rest move connections allowed ⟨defined, met⟩, fun after => ?_⟩
  obtain ⟨logged, events, reasons⟩ := logged_move s rest move
  have inTurn : Meets InTurn s rest move := met.imp fun _ _ both => both.2
  refine ⟨(chronicle defined).announced_after connections allowed defined after events reasons,
    ?_, ?_⟩
  · rw [events]
    exact (chronicle defined).data_after connections defined inTurn reasons
  · rw [events]
    exact (chronicle defined).named_after connections defined inTurn
      (fun socket => (connections.step allowed defined after socket).id_of_registered) reasons

theorem recorded_initial (maxConnections : Nat) :
    Recorded (initial maxConnections).state (initial maxConnections).items := by
  refine ⟨connections_initial Connection.reported_unused, fun _ => ⟨?_, ?_, ?_⟩⟩
  · intro socket registered
    exact absurd rfl registered
  · intro before after socket id payload split
    simp [initial] at split
  · intro socket id payload member
    simp [initial] at member

/-- In a run of orderly moves, the record tells the connections in order. -/
theorem everyState_recorded {maxConnections : Nat} {actions : List ServerAction}
    (legal : program.system.Legal (initial maxConnections) actions)
    (orderly : program.system.EveryStep (Strand.During (Meets Orderly)) (initial maxConnections)
      actions) :
    program.system.EveryState (fun s => Recorded s.state s.items) (initial maxConnections)
      actions :=
  Strand.everyState_of_bag preserves_recorded (recorded_initial maxConnections) legal
    (everyStep_sequenced legal orderly)

/-- The events of each connection: its data comes in order and one event at a
time, and the slot of its id holds it when its data is raised. -/
structure EventsInOrder (s : State) (items : Multiset Work) : Prop where
  inOrder : DataInOrder s.events
  single : ∀ socket, Item.count (Place.data.selects socket) items ≤ 1
  addressed : ∀ socket id payload, s.events.getLast? = some (.data socket id payload) →
    s.getSocket id = some socket

theorem Recorded.eventsInOrder {s : State} {items : Multiset Work} (recorded : Recorded s items)
    (defined : s.undefined = false) : EventsInOrder s items := by
  obtain ⟨connections, chronicle⟩ := recorded
  refine ⟨(chronicle defined).inOrder, fun socket => ?_, fun socket id payload last => ?_⟩
  · have single := (connections.each defined socket).1.single
    simp only [Connection.loop, State.connection_work] at single
    omega
  · obtain ⟨events, split⟩ := List.getLast?_eq_some_iff.mp last
    obtain ⟨rfl, registered⟩ :=
      (chronicle defined).named socket id payload (by rw [split]; simp)
    have unreported : s.raised socket = 0 := by
      obtain ⟨-, -, none⟩ := (chronicle defined).inOrder events [] socket _ payload split
      refine List.countP_eq_zero.mpr fun event member reports => ?_
      rw [split] at member
      rcases List.mem_append.mp member with old | new
      · cases event with
        | disconnected owner other =>
            obtain rfl : owner = socket := by simpa [Event.reports] using reports
            exact none other old
        | listening | connected | data | stopping | stopped | written =>
            simp [Event.reports] at reports
      · obtain rfl := List.mem_singleton.mp new
        simp [Event.reports] at reports
    have held := (connections.each defined socket).2.slot registered (.inl unreported)
    have slot := (slot_iff connections.sound).mp (of_decide_eq_true held)
    exact State.getSocket_eq_some.mpr ⟨Nat.one_le_iff_ne_zero.mpr slot.1, slot.2⟩

/-- In a run in which the end of each connection is reported once, and not
before its last read has been handled, the events of each connection come in
order. -/
theorem events_in_order {maxConnections : Nat} {actions : List ServerAction}
    (legal : program.system.Legal (initial maxConnections) actions)
    (orderly : program.system.EveryStep (Strand.During (Meets Orderly)) (initial maxConnections)
      actions) :
    program.system.EveryState (fun s => s.state.undefined = false → EventsInOrder s.state s.items)
      (initial maxConnections) actions :=
  (everyState_recorded legal orderly).imp fun _ recorded => recorded.eventsInOrder

/-- A read is finished, but the strand gets it only after a write of the user
has found the socket closed and the disconnect has been handled. -/
def lateRead : List ServerAction :=
  acceptedConnection ++
    [.complete 0 ⟨.success, [104, 105]⟩, .post .user, .begin {}, .act (.call 1 (.write [106])),
      .post .user, .begin {}, .act .stop, .flush, .act .leave, .begin {}, .flush, .begin {},
      .deliver 2, .begin {}, .flush, .act .leave, .begin {}, .flush, .begin {}, .act .leave,
      .act .leave, .deliver 0, .begin {}]

/-- After `lateRead` the data of a connection has been raised after its
disconnect. -/
theorem events_not_in_order_lateRead :
    program.system.Legal (initial 1) lateRead ∧
      ¬ program.system.EveryState
        (fun s => s.state.undefined = false → EventsInOrder s.state s.items) (initial 1)
        lateRead := by
  refine ⟨by decide, fun holds => ?_⟩
  have last : (program.system.run (initial 1) lateRead).state.events =
      [.listening, .connected 0 1, .written 0 [106], .stopping, .disconnected 0 1, .stopped] ++
        .data 0 1 [104, 105] :: [] := by decide
  obtain ⟨-, -, none⟩ := (holds.last (by decide)).inOrder _ _ _ _ _ last
  exact none 1 (by simp)

/-- A client sends data and goes. -/
def earlyRead : List ServerAction :=
  acceptedConnection ++
    [.complete 0 ⟨.success, [104, 105]⟩, .deliver 0, .begin {}, .act .leave, .flush, .begin {},
      .flush, .begin {}, .complete 1 ⟨.eof, []⟩, .deliver 1, .begin {}, .flush, .begin {},
      .act .leave]

theorem events_in_order_earlyRead :
    program.system.EveryState (fun s => s.state.undefined = false → EventsInOrder s.state s.items)
      (initial 1) earlyRead :=
  events_in_order (by decide) (by decide)

end TcpServer

end FlatAsync
