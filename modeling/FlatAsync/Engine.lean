import FlatAsync.EventOrder
import FlatAsync.ServerSlots
import FlatAsync.StrandHostRuns

/-!
# The echo server

`Engine` answers each payload of a client with the same bytes behind a prefix.
Its subscriber to `on_data_` calls `Write` of the server with the id that it has
been given, and the server looks up the socket by this id.

The calls in flight on a socket are those of its own subscriber, so that nobody
but the read loop notices the end of a connection: the runs of the echo server
are orderly, and the socket that is found is the one that has sent the payload.

In the program the pieces of code are tasks on the threads of a pool, beside other
tasks.  What the runs of the strand keep, the threads keep.
-/

namespace FlatAsync

namespace TcpServer

/-- `SERVER_ECHO_PREFIX` -/
def serverEchoPrefix : Buffer :=
  [101, 99, 104, 111, 58, 32]

/-- The buffer that the subscriber to `on_data_` sends. -/
def sndBuffer (data : Buffer) : Buffer :=
  serverEchoPrefix ++ data

def Call.sparesClients : Call → Bool
  | .start | .stop | .runAsync | .await | .leave | .throw => true
  | .stopClient _ | .call .. => false

/-- The subscribers of `Engine`, its tasks, which start and stop the server, and
the subscribers to its own signals. -/
def EngineCode (frame : Frame) (call : Call) : Prop :=
  match frame.handler with
  | .data _ id data =>
      call = if frame.calls = 0 then .call id (.write (sndBuffer data)) else .leave
  | .connected .. | .disconnected .. => call = .leave
  | .task | .listening | .stopped => call.sparesClients = true

instance (frame : Frame) (call : Call) : Decidable (EngineCode frame call) :=
  match here : frame.handler with
  | .data _ id data =>
      decidable_of_iff
        (call = if frame.calls = 0 then .call id (.write (sndBuffer data)) else .leave)
        (by simp [EngineCode, here])
  | .connected .. | .disconnected .. =>
      decidable_of_iff (call = .leave) (by simp [EngineCode, here])
  | .task | .listening | .stopped =>
      decidable_of_iff (call.sparesClients = true) (by simp [EngineCode, here])

/-- The user code of the server is that of `Engine`. -/
def EngineMove (_ : State) (_ : Multiset Work) : ServerMove → Prop
  | .act frame call => EngineCode frame call
  | .post _ | .complete .. | .deliver .. | .begin .. => True

instance (s : State) (rest : Multiset Work) : ∀ move, Decidable (EngineMove s rest move)
  | .act frame call => inferInstanceAs (Decidable (EngineCode frame call))
  | .post _ | .complete .. | .deliver .. | .begin .. => inferInstanceAs (Decidable True)

/-! ### The connections of the echo server -/

/-- A call returns to the subscriber to `on_data_` of the same connection. -/
def Returning : Moment → Connection → Prop
  | .returns, c => 0 < c.work .data
  | _, _ => True

namespace Connection

/-- When the end of the connection has been noticed, nothing is left to read. -/
def Unread (c : Connection) : Prop :=
  c.socket.stopped = true → c.work .receive = 0 ∧ c.work .read = 0

variable {c d : Connection} {moment : Option Moment}

theorem Unread.step (sound : c.Sound) (unread : c.Unread) (step : Step c moment d)
    (returning : ∀ here, moment = some here → Returning here c) : d.Unread := by
  have single := sound.single
  simp only [loop] at single
  unfold Unread at unread ⊢
  cases step with
  | accepted | ignored => simp
  | @registered c | @restarts c =>
      intro noticed
      have shut : c.socket.isOpen = false := sound.stopped noticed
      have before := unread noticed
      simpa [shut, register] using before
  | succeeds =>
      intro noticed
      have opened : _ = true := sound.reading (by simp)
      have shut : _ = false := sound.stopped noticed
      simp_all
  | received | ends =>
      simp at single ⊢
      omega
  | returns =>
      have reads : 0 < _ := returning _ rfl
      simp at single reads ⊢
      omega
  | closes => simpa [close, TcpSocket.close, Place.aborted] using unread
  | reads | skips => simp_all
  | other | refused | dropped | connected | fails | handled | dataThrows | disconnected | raises
  | freed | disconnectedThrows | calls | stops => simpa using unread

theorem orderly_of_returning (reported : c.Reported) (unread : c.Unread)
    {here : Moment} (returning : Returning here c)
    (due : here = .raises → 0 < c.work .release) : Orderly here c := by
  cases here with
  | returns =>
      have reads : 0 < c.work .data := returning
      exact reported.held.ended.first (by unfold loop; omega)
  | raises =>
      have some := due rfl
      show c.work .read = 0
      cases stopped : c.socket.stopped with
      | true => exact (unread stopped).2
      | false =>
          have ceased := reported.ceased stopped (by unfold disconnects; omega)
          simp only [loop] at ceased
          omega
  | accepts | reads | restarts | dataThrows | disconnectedThrows => trivial

end Connection

/-! ### Subscribers -/

section Subscribers

variable {s : State} {rest : Multiset Work} {choice : Choice}
variable {entry : Entry Task Operation Completion} {frame : Frame} {call : Call}

def Resumes (entry : Entry Task Operation Completion) (frame : Frame) : Prop :=
  (∃ socket call completion, entry = .resume (.call socket call frame) completion) ∨
    ∃ completion, entry = .resume (.await frame) completion

/-- The code waits for an operation of the server itself, or user code goes on,
or a subscriber is called, to `on_data_` with what has been recorded. -/
def BeginsAs (s : State) (entry : Entry Task Operation Completion) (segment : Stretch) : Prop :=
  match segment.after with
  | .finish => True
  | .suspend operation =>
      (∃ generation, operation = .accept generation) ∨ ∃ socket, operation = .receive socket
  | .run frame =>
      Resumes entry frame ∨ frame.calls = 0 ∧ ∀ socket id data,
        frame.handler = .data socket id data →
          segment.state.events = s.events ++ [.data socket id data]

private theorem beginsAs_afterRead {socket : SocketId} {posts : List Task} {buffer : Buffer}
    {error : ErrorType} {before : State} (same : s.events = before.events) :
    BeginsAs before entry (s.afterRead socket posts buffer error) := by
  unfold State.afterRead
  split
  · trivial
  · trivial
  · refine .inr ⟨rfl, fun owner id data called => ?_⟩
    obtain ⟨rfl, rfl, rfl⟩ := Handler.data.inj called
    simp [State.log, same]

theorem beginsAs_begin (s : State) (rest : Multiset Work) (choice : Choice)
    (entry : Entry Task Operation Completion) :
    BeginsAs s entry (s.begin choice rest entry) := by
  cases entry with
  | task task =>
      cases task with
      | user | listening => exact .inr ⟨rfl, fun _ _ _ called => by simp at called⟩
      | start =>
          simp only [State.begin, State.startListening]
          split
          · split
            · exact .inl ⟨_, rfl⟩
            · trivial
          · trivial
      | accepted socket =>
          simp only [State.begin, State.onAccepted]
          split
          · split <;> trivial
          · trivial
      | connected socket =>
          simp only [State.begin, State.raiseConnected]
          split
          · exact .inr ⟨rfl, fun _ _ _ called => by simp at called⟩
          · trivial
      | release socket =>
          simp only [State.begin, State.raiseDisconnected]
          split
          · exact .inr ⟨rfl, fun _ _ _ called => by simp at called⟩
          · trivial
      | socket socket task =>
          cases task with
          | receive =>
              simp only [State.begin, State.socketTask]
              split
              · exact .inr ⟨socket, rfl⟩
              · exact beginsAs_afterRead rfl
          | start | close | disconnected => trivial
      | rearm =>
          simp only [State.begin, State.doAccept]
          split
          · split
            · exact .inl ⟨_, rfl⟩
            · trivial
          · trivial
      | stop =>
          simp only [State.begin, State.stopServer]
          split
          · split
            · simp only [State.raiseOnClosed]
              split
              · exact .inr ⟨rfl, fun _ _ _ called => by simp at called⟩
              · trivial
            · trivial
          · trivial
      | stopClient id =>
          simp only [State.begin, State.stopSocket]
          split <;> trivial
  | resume operation completion =>
      cases operation with
      | accept generation =>
          simp only [State.begin, State.afterAccept]
          split
          · split
            · split <;> trivial
            · trivial
          · trivial
      | receive socket => exact beginsAs_afterRead rfl
      | call socket call frame => exact .inl (.inl ⟨socket, call, completion, rfl⟩)
      | await frame => exact .inl (.inr ⟨completion, rfl⟩)

private theorem after_of_data {socket : SocketId} {id : TcpServerId} {data : Buffer}
    (cause : Cause s (.begin choice entry) (.data socket id data))
    (events : (s.begin choice rest entry).state.events = s.events ++ [.data socket id data]) :
    (s.begin choice rest entry).after = .run { handler := .data socket id data } := by
  have read {before : State} {posts : List Task} {buffer : Buffer} (same : s.events = before.events)
      (logged : (before.afterRead socket posts buffer .success).state.events =
        s.events ++ [.data socket id data]) :
      (before.afterRead socket posts buffer .success).after =
        .run { handler := .data socket id data } := by
    simp only [State.afterRead, ErrorType.readOutcome, State.log, same] at logged ⊢
    have event := List.append_cancel_left logged
    simp_all
  rcases cause.2 with ⟨choice', begins⟩ | ⟨choice', completion, begins, success⟩
  · obtain ⟨rfl, rfl⟩ := Move.begin.inj begins
    simp only [State.begin, State.socketTask] at events ⊢
    split at events
    next => simp at events
    next shut =>
      rw [if_neg shut]
      exact read rfl events
  · obtain ⟨rfl, rfl⟩ := Move.begin.inj begins
    simp only [State.begin, success] at events ⊢
    exact read rfl events

/-- User code that waits has made a call, and only a subscriber to the data of a
socket waits for this socket. -/
def Resting : Work → Prop
  | .queued (.resume (.call socket _ frame) _) | .waiting (.call socket _ frame) _ =>
      frame.calls ≠ 0 ∧ ∃ id data, frame.handler = .data socket id data
  | .queued (.resume (.await frame) _) | .waiting (.await frame) _ => frame.calls ≠ 0
  | _ => True

private theorem resting_settle (settles : Operation → Option Completion) (item : Work) :
    Resting (item.settle settles) ↔ Resting item := by
  cases item with
  | queued | running => exact Iff.rfl
  | waiting operation result =>
      cases result with
      | some => exact Iff.rfl
      | none => cases operation <;> exact Iff.rfl

private theorem calls_of_resumes (resumes : Resumes entry frame)
    (resting : Resting (.queued entry)) : frame.calls ≠ 0 := by
  rcases resumes with ⟨socket, call, completion, rfl⟩ | ⟨completion, rfl⟩
  · exact resting.1
  · exact resting

/-- The subscriber to `on_data_` writes to the socket that the data came from. -/
theorem act_data {socket : SocketId} {id : TcpServerId} {data : Buffer}
    (found : s.getSocket id = some socket) :
    s.act { handler := .data socket id data } (.call id (.write (sndBuffer data))) =
      { state := s.log (.written socket (sndBuffer data))
        after := .suspend (.call socket (.write (sndBuffer data))
          { handler := .data socket id data, calls := 1 }) } := by
  simp [State.act, State.callSocket, found, TcpSocket.skips, Frame.next]

theorem sparesClients_of_other (code : EngineCode frame call)
    (other : ∀ socket id data, frame ≠ { handler := .data socket id data }) :
    call.sparesClients = true := by
  obtain ⟨handler, calls⟩ := frame
  cases handler with
  | data socket id data =>
      have later : calls ≠ 0 := by
        rintro rfl
        exact other socket id data rfl
      obtain rfl : call = .leave := by simpa [EngineCode, later] using code
      rfl
  | connected socket id | disconnected socket id =>
      obtain rfl : call = .leave := code
      rfl
  | task | listening | stopped => exact code

/-- The code waits for nothing of the clients, and it does not call the
subscribers to data. -/
def EndsAs (segment : Stretch) : Prop :=
  match segment.after with
  | .finish => True
  | .suspend operation => Resting (.waiting operation none)
  | .run next => next.calls ≠ 0 ∨ next.handler = .stopped

private theorem endsAs_act (spares : call.sparesClients = true) : EndsAs (s.act frame call) := by
  cases call with
  | start | stop | runAsync => exact .inl (Nat.succ_ne_zero _)
  | await => exact Nat.succ_ne_zero _
  | throw => trivial
  | leave =>
      simp only [State.act]
      cases frame.handler with
      | disconnected socket id =>
          simp only [State.returned, State.releaseSocket]
          split
          · split
            · trivial
            · simp only [State.raiseOnClosed]
              split
              · exact .inr rfl
              · trivial
          · trivial
      | data | task | listening | connected | stopped => trivial
  | stopClient | call => simp [Call.sparesClients] at spares

theorem BeginsAs.recorded {segment : Stretch} {socket : SocketId} {id : TcpServerId}
    {data : Buffer} (begins : BeginsAs s entry segment) (rests : Resting (.queued entry))
    (called : segment.after = .run { handler := .data socket id data }) :
    segment.state.events = s.events ++ [.data socket id data] := by
  unfold BeginsAs at begins
  rw [called] at begins
  rcases begins with resumes | ⟨-, records⟩
  · exact absurd rfl (calls_of_resumes resumes rests)
  · exact records socket id data rfl

private theorem resting_begin {segment : Stretch} (begins : BeginsAs s entry segment) :
    ∀ item ∈ (segment.after.items : Multiset Work), Resting item := by
  intro item member
  unfold BeginsAs at begins
  cases after : segment.after with
  | finish => simp [after] at member
  | run frame =>
      obtain rfl : item = _ := by simpa [after] using member
      trivial
  | suspend operation =>
      obtain rfl : item = _ := by simpa [after] using member
      rw [after] at begins
      rcases begins with ⟨generation, rfl⟩ | ⟨socket, rfl⟩ <;> trivial

private theorem resting_act {segment : Stretch} (ends : EndsAs segment) :
    ∀ item ∈ (segment.after.items : Multiset Work), Resting item := by
  intro item member
  unfold EndsAs at ends
  cases after : segment.after with
  | finish => simp [after] at member
  | run frame =>
      obtain rfl : item = _ := by simpa [after] using member
      trivial
  | suspend operation =>
      obtain rfl : item = _ := by simpa [after] using member
      rwa [after] at ends

end Subscribers

/-! ### Runs of the echo server -/

/-- The frame is a subscriber to data that has not written yet. -/
def awaitingAnswer (current : Option Frame) (socket : SocketId) : List Event :=
  match current with
  | some { handler := .data owner id data, calls := 0 } =>
      if owner = socket then [.data owner id data] else []
  | _ => []

structure EngineInvariant (s : Server) : Prop where
  inOrder : InOrder s
  recorded : Recorded s.state s.items
  unread : Connections Connection.Unread s.state s.items
  resting : ∀ item ∈ s.items, Resting item
  raised : ∀ socket id data, s.current = some { handler := .data socket id data } →
    s.state.events.getLast? = some (.data socket id data)

namespace EngineInvariant

variable {s : Server} {action : ServerAction}

theorem addressed (invariant : EngineInvariant s) (defined : s.state.undefined = false)
    {socket : SocketId} {id : TcpServerId} {data : Buffer}
    (called : s.current = some { handler := .data socket id data }) :
    s.state.getSocket id = some socket :=
  (invariant.recorded.eventsInOrder defined).addressed socket id data
    (invariant.raised socket id data called)

private theorem not_called (invariant : EngineInvariant s) (defined : s.state.undefined = false)
    {frame : Frame} {call : Call} (running : s.current = some frame) (code : EngineCode frame call)
    {socket : SocketId} {id : TcpServerId} {data : Buffer} :
    (s.state.act frame call).after ≠ .run { handler := .data socket id data } := by
  intro called
  by_cases answers : ∃ socket id data, frame = { handler := .data socket id data }
  · obtain ⟨owner, number, payload, rfl⟩ := answers
    obtain rfl : call = .call number (.write (sndBuffer payload)) := code
    rw [act_data (invariant.addressed defined running)] at called
    simp at called
  · have ends : EndsAs (s.state.act frame call) :=
      endsAs_act (sparesClients_of_other code fun socket id data same =>
        answers ⟨socket, id, data, same⟩)
    unfold EndsAs at ends
    rw [called] at ends
    simp at ends

private theorem returning_of_moment (invariant : EngineInvariant s) {move : ServerMove}
    {rest : Multiset Work} {socket : SocketId} {moment : Moment}
    (effect : s.effect action = some (move, rest))
    (here : s.state.moment move = some (socket, moment)) :
    Returning moment (s.state.connection s.items socket) := by
  cases moment with
  | returns =>
      obtain ⟨choice, call, frame, completion, rfl⟩ := moment_returns here
      obtain ⟨entries, first⟩ := Strand.queue_of_begin effect
      have member : .queued (.resume (.call socket call frame) completion) ∈ s.items :=
        Strand.queued_mem_items.mpr (by simp [Strand.pending, first])
      obtain ⟨-, id, data, handler⟩ := invariant.resting _ member
      exact Item.count_pos_of_mem member (by simp [Place.operation, handler, Place.handler])
  | accepts | reads | restarts | raises | dataThrows | disconnectedThrows => trivial

theorem orderly (invariant : EngineInvariant s) (enabled : program.Enabled s action) :
    s.During (Meets Orderly) action := by
  refine during_meets enabled fun move rest socket moment effect here => ?_
  have defined := defined_of_enabled enabled
  refine Connection.orderly_of_returning (invariant.inOrder.connections.each defined socket).2
    (invariant.unread.each defined socket).2 (invariant.returning_of_moment effect here) ?_
  rintro rfl
  obtain ⟨choice, rfl⟩ := moment_raises here
  obtain ⟨entries, first⟩ := Strand.queue_of_begin effect
  have member : .queued (.task (.release socket)) ∈ s.items :=
    Strand.queued_mem_items.mpr (by simp [Strand.pending, first])
  exact Item.count_pos_of_mem member (by simp [Place.task])

theorem unread_step (invariant : EngineInvariant s) (enabled : program.Enabled s action) :
    Connections Connection.Unread (program.step s action).state (program.step s action).items := by
  have preserved : program.Preserves (Connections Connection.Unread) fun s rest move =>
      s.undefined = false ∧ Meets Returning s rest move :=
    preserves_connections (fun _ _ _ sound unread step met => unread.step sound step met)
      fun _ _ _ socket all defined _ => (all.each defined socket).2
  refine Strand.bag_step preserved s action invariant.unread enabled ?_
  exact (during_defined enabled).and (during_meets enabled fun _ _ _ _ =>
    invariant.returning_of_moment)

theorem resting_step (invariant : EngineInvariant s) (enabled : program.Enabled s action)
    (code : s.During EngineMove action) :
    ∀ item ∈ (program.step s action).items, Resting item := by
  have defined := defined_of_enabled enabled
  have simulated := Strand.step_simulates enabled
  unfold Strand.During at code
  cases effect : s.effect action with
  | none =>
      rw [effect] at simulated
      rw [simulated.2]
      exact invariant.resting
  | some made =>
      obtain ⟨move, rest⟩ := made
      rw [effect] at simulated code
      obtain ⟨allowed, before, -, items⟩ := simulated
      rw [items]
      have others : ∀ item ∈ rest, Resting item := fun item member =>
        invariant.resting item (before ▸ Multiset.mem_add.mpr (.inr member))
      have perform {segment : Stretch}
          (ends : ∀ item ∈ (segment.after.items : Multiset Work), Resting item) :
          ∀ item ∈ segment.outstanding rest, Resting item := by
        intro item member
        rcases Segment.mem_outstanding.mp member with produced | ⟨task, -, rfl⟩ | ⟨other, old, rfl⟩
        · exact ends item produced
        · trivial
        · exact (resting_settle _ other).mpr (others other old)
      have same {item : Work} (rests : Resting item) : ∀ other ∈ item ::ₘ rest, Resting other := by
        intro other member
        rcases Multiset.mem_cons.mp member with rfl | old
        · exact rests
        · exact others other old
      have consumed : ∀ item ∈ move.consumed, Resting item := fun item member =>
        invariant.resting item (before ▸ Multiset.mem_add.mpr (.inl member))
      cases move with
      | post task => exact same trivial
      | complete operation completion =>
          have rests := consumed _ (Multiset.mem_singleton_self _)
          exact same (by cases operation <;> exact rests)
      | deliver operation completion =>
          have rests := consumed _ (Multiset.mem_singleton_self _)
          exact same (by cases operation <;> exact rests)
      | begin choice entry => exact perform (resting_begin (beginsAs_begin _ rest choice entry))
      | act frame call =>
          refine perform ?_
          have current := Strand.current_step enabled
          rw [effect] at current
          by_cases called : ∃ socket id data, frame = { handler := .data socket id data }
          · obtain ⟨socket, id, data, rfl⟩ := called
            obtain rfl : call = .call id (.write (sndBuffer data)) := code
            have acts : program.act s.state { handler := .data socket id data }
                (.call id (.write (sndBuffer data))) = _ :=
              act_data (invariant.addressed defined current.1)
            rw [acts]
            intro item member
            obtain rfl : item = _ := by simpa using member
            exact ⟨Nat.one_ne_zero, id, data, rfl⟩
          · exact resting_act (endsAs_act (sparesClients_of_other code fun socket id data same =>
              called ⟨socket, id, data, same⟩))

theorem raised_step (invariant : EngineInvariant s) (enabled : program.Enabled s action)
    (code : s.During EngineMove action) (socket : SocketId) (id : TcpServerId) (data : Buffer)
    (called : (program.step s action).current = some { handler := .data socket id data }) :
    (program.step s action).state.events.getLast? = some (.data socket id data) := by
  have current := Strand.current_step enabled
  have simulated := Strand.step_simulates enabled
  unfold Strand.During at code
  cases effect : s.effect action with
  | none =>
      rw [effect] at current simulated
      rw [simulated.1]
      exact invariant.raised socket id data (current ▸ called)
  | some made =>
      obtain ⟨move, rest⟩ := made
      rw [effect] at current simulated code
      obtain ⟨-, before, state, -⟩ := simulated
      rw [state]
      cases move with
      | post | complete | deliver =>
          exact invariant.raised socket id data (current ▸ called)
      | begin choice entry =>
          have begins := beginsAs_begin s.state rest choice entry
          have rests : Resting (.queued entry) :=
            invariant.resting _ (before ▸ Multiset.mem_cons_self _ _)
          have recorded := begins.recorded rests
            (After.running_eq_some.mp (current.2.symm.trans called))
          exact List.getLast?_eq_some_iff.mpr ⟨_, recorded⟩
      | act frame call =>
          exact absurd (After.running_eq_some.mp (current.2.symm.trans called))
            (invariant.not_called (defined_of_enabled enabled) current.1 code)

theorem step (invariant : EngineInvariant s) (enabled : program.Enabled s action)
    (code : s.During EngineMove action) : EngineInvariant (program.step s action) := by
  have orderly := invariant.orderly enabled
  have sequenced := invariant.inOrder.sequenced enabled orderly
  exact ⟨invariant.inOrder.step enabled orderly,
    Strand.bag_step preserves_recorded s action invariant.recorded enabled sequenced,
    invariant.unread_step enabled, invariant.resting_step enabled code,
    invariant.raised_step enabled code⟩

end EngineInvariant

/-! ### What the clients hear -/

/-- Data of the socket, or a buffer written to it. -/
def Event.about (socket : SocketId) : Event → Bool
  | .data owner _ _ | .written owner _ => owner = socket
  | .listening | .connected .. | .disconnected .. | .stopping | .stopped => false

def exchange (socket : SocketId) (payload : TcpServerId × Buffer) : List Event :=
  [.data socket payload.1 payload.2, .written socket (sndBuffer payload.2)]

/-- The payloads of each client are answered one at a time and in their order,
and nothing else is sent to it. -/
def Echoed (s : Server) : Prop :=
  ∀ socket, ∃ answered : List (TcpServerId × Buffer),
    s.state.events.filter (Event.about socket) =
      answered.flatMap (exchange socket) ++ awaitingAnswer s.current socket

section Talk

variable {s : State} {rest : Multiset Work} {choice : Choice} {socket : SocketId}
variable {entry : Entry Task Operation Completion} {frame : Frame} {call : Call}
variable {logged : List Event}

private theorem awaitingAnswer_of_called {id : TcpServerId} {data : Buffer} {owner : SocketId} :
    awaitingAnswer (some { handler := .data owner id data }) socket =
      [.data owner id data].filter (Event.about socket) := by
  simp [awaitingAnswer, Event.about, List.filter_cons]

theorem awaitingAnswer_eq_nil {current : Option Frame}
    (other : ∀ id data, current ≠ some { handler := .data socket id data }) :
    awaitingAnswer current socket = [] := by
  unfold awaitingAnswer
  split
  next owner id data =>
    split
    next same => exact absurd rfl (same ▸ other id data)
    next => rfl
  next => rfl

/-- A stretch of code in the queue records the data for which it calls the
subscriber. -/
theorem talk_begin (rests : Resting (.queued entry))
    (events : (s.begin choice rest entry).state.events = s.events ++ logged)
    (reasons : Logged s (.begin choice entry) logged) :
    logged.filter (Event.about socket) =
      awaitingAnswer (s.begin choice rest entry).after.running socket := by
  by_cases called : ∃ owner id data,
      (s.begin choice rest entry).after = .run { handler := .data owner id data }
  · obtain ⟨owner, id, data, called⟩ := called
    have recorded := (beginsAs_begin s rest choice entry).recorded rests called
    obtain rfl := List.append_cancel_left (events.symm.trans recorded)
    rw [called]
    exact awaitingAnswer_of_called.symm
  · have silent : logged.filter (Event.about socket) = [] := by
      rcases reasons with rfl | ⟨event, rfl, cause⟩ | ⟨rfl, -, -⟩
      · rfl
      · cases event with
        | data owner id data => exact absurd ⟨owner, id, data, after_of_data cause events⟩ called
        | written owner buffer =>
            obtain ⟨frame, id, begins, -⟩ := cause
            simp at begins
        | listening | connected | disconnected | stopping | stopped => rfl
      · rfl
    rw [silent, awaitingAnswer_eq_nil]
    intro id data running
    exact called ⟨socket, id, data, After.running_eq_some.mp running⟩

private theorem talk_act (spares : call.sparesClients = true)
    (reasons : Logged s (.act frame call) logged) : logged.filter (Event.about socket) = [] := by
  rcases reasons with rfl | ⟨event, rfl, cause⟩ | ⟨rfl, -, -⟩
  · rfl
  · cases event with
    | data owner id data =>
        rcases cause.2 with ⟨choice, acts⟩ | ⟨choice, completion, acts, -⟩ <;> simp at acts
    | written owner buffer =>
        obtain ⟨frame', id, acts, -⟩ := cause
        obtain ⟨rfl, rfl⟩ := Move.act.inj acts
        simp [Call.sparesClients] at spares
    | listening | connected | disconnected | stopping | stopped => rfl
  · rfl

end Talk

theorem Echoed.step {s : Server} {action : ServerAction} (echoed : Echoed s)
    (invariant : EngineInvariant s) (enabled : program.Enabled s action)
    (code : s.During EngineMove action) : Echoed (program.step s action) := by
  have current := Strand.current_step enabled
  have simulated := Strand.step_simulates enabled
  unfold Strand.During at code
  intro socket
  obtain ⟨answered, talk⟩ := echoed socket
  cases effect : s.effect action with
  | none =>
      rw [effect] at current simulated
      rw [simulated.1, show (program.step s action).current = s.current from current]
      exact ⟨answered, talk⟩
  | some made =>
      obtain ⟨move, rest⟩ := made
      rw [effect] at current simulated code
      obtain ⟨-, before, state, -⟩ := simulated
      rw [state]
      cases move with
      | post | complete | deliver =>
          rw [show (program.step s action).current = s.current from current]
          exact ⟨answered, talk⟩
      | begin choice entry =>
          have rests : Resting (.queued entry) :=
            invariant.resting _ (before ▸ Multiset.mem_cons_self _ _)
          obtain ⟨logged, events, reasons⟩ := logged_move s.state rest (.begin choice entry)
          have heard : logged.filter (Event.about socket) =
              awaitingAnswer (s.state.begin choice rest entry).after.running socket :=
            talk_begin rests events reasons
          refine ⟨answered, ?_⟩
          rw [current.1] at talk
          rw [current.2]
          calc (program.stateAfter s.state rest (.begin choice entry)).events.filter
                (Event.about socket)
              = s.state.events.filter (Event.about socket) ++
                  logged.filter (Event.about socket) := by rw [events, List.filter_append]
            _ = answered.flatMap (exchange socket) ++
                  awaitingAnswer (s.state.begin choice rest entry).after.running socket := by
                rw [talk, heard, awaitingAnswer_eq_nil (by simp), List.append_nil]
      | act frame call =>
          have silent : awaitingAnswer (program.step s action).current socket = [] := by
            refine awaitingAnswer_eq_nil fun id data called => ?_
            exact invariant.not_called (defined_of_enabled enabled) current.1 code
              (After.running_eq_some.mp (current.2.symm.trans called))
          rw [silent]
          rw [current.1] at talk
          obtain ⟨logged, events, reasons⟩ := logged_move s.state rest (.act frame call)
          by_cases answers : ∃ owner id data, frame = { handler := .data owner id data }
          · obtain ⟨owner, id, data, rfl⟩ := answers
            obtain rfl : call = .call id (.write (sndBuffer data)) := code
            have written : (program.stateAfter s.state rest (.act { handler := .data owner id data }
                (.call id (.write (sndBuffer data))))).events =
                  s.state.events ++ [.written owner (sndBuffer data)] := by
              have acts : program.act s.state { handler := .data owner id data }
                  (.call id (.write (sndBuffer data))) = _ :=
                act_data (invariant.addressed (defined_of_enabled enabled) current.1)
              simp only [Program.stateAfter, acts]
              rfl
            rw [written, List.filter_append, talk, awaitingAnswer_of_called]
            by_cases own : owner = socket
            · subst own
              exact ⟨answered ++ [(id, data)], by simp [exchange, Event.about]⟩
            · exact ⟨answered, by simp [Event.about, own]⟩
          · have other : ∀ owner id data, frame ≠ { handler := .data owner id data } :=
              fun owner id data same => answers ⟨owner, id, data, same⟩
            refine ⟨answered, ?_⟩
            have unheard : logged.filter (Event.about socket) = [] :=
              talk_act (sparesClients_of_other code other) reasons
            calc (program.stateAfter s.state rest (.act frame call)).events.filter
                  (Event.about socket)
                = s.state.events.filter (Event.about socket) ++
                    logged.filter (Event.about socket) := by rw [events, List.filter_append]
              _ = answered.flatMap (exchange socket) ++ [] := by
                  rw [talk, unheard, awaitingAnswer_eq_nil fun id data same =>
                    other socket id data (Option.some.inj same), List.append_nil]

variable {maxConnections : Nat} {home : SchedulerId}
variable {actions : List (HostAction Task Completion Choice Call)}

end TcpServer

end FlatAsync
