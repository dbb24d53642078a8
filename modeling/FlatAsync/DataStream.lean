import FlatAsync.TcpSocket

/-!
# The data stream of a socket

One `TcpSocket` on a sequential scheduler: its read loop, the tasks of its
users, and a peer whose bytes arrive in chunks.  The bytes that the read loop
takes from the peer should reach the subscribers of `on_data_` as they are.

They do exactly as long as the lambda in `Start` finds the socket open.
`ReadPartial` on a closed socket returns its untouched buffer with a success
code, which the loop takes for data.
-/

namespace FlatAsync

namespace DataStream

/-- A socket with what its read loop has read from the peer so far and the
payloads that were passed to `on_data_`.  Bytes that another task reads for
itself belong to neither. -/
structure State where
  socket : TcpSocket
  received : Buffer := []
  delivered : List Buffer := []
  deriving DecidableEq, Repr

inductive Task
  | user
  | socket (task : SocketTask)
  deriving DecidableEq, Repr

/-- User code runs in a task of its own or in a subscriber. -/
inductive Frame
  | task
  | onData
  | onDisconnected
  deriving DecidableEq, Repr

/-- What a coroutine waits for: the read of the read loop, a call of user code,
or something that has nothing to do with the socket. -/
inductive Operation
  | receive
  | call (call : SocketCall) (frame : Frame)
  | connect (frame : Frame)
  | await (frame : Frame)
  deriving DecidableEq, Repr

/-- What user code does: use the socket, post a task, wait for something else,
return or throw. -/
inductive Call
  | start
  | stop
  | call (call : SocketCall)
  | connect
  | runAsync
  | await
  | leave
  | throw
  deriving DecidableEq, Repr

abbrev Work := Item Task Operation Completion Frame

abbrev Stretch := Segment State Task Operation Completion Frame

namespace State

/-- The rest of the lambda in `Start` after `ReadPartial` has returned, which
has posted `posts`. -/
def afterRead (s : State) (posts : List SocketTask) (buffer : Buffer) (error : ErrorType) :
    Stretch :=
  match error.readOutcome buffer with
  | .disconnected =>
      { state := s
        posts := posts.map .socket
        after := if s.socket.stopped then .finish else .run .onDisconnected }
  | .failed =>
      { state := s
        posts := (posts ++ s.socket.stop).map .socket
        after := if s.socket.stopped then .finish else .run .onDisconnected }
  | .data buffer =>
      { state := { s with delivered := s.delivered ++ [buffer] }
        posts := posts.map .socket
        after := .run .onData }

/-- A coroutine goes on after an operation on the socket. -/
def notice (s : State) : State :=
  { s with socket := s.socket.afterOperation.1 }

def begin (s : State) : Entry Task Operation Completion → Stretch
  | .task .user => { state := s, after := .run .task }
  | .task (.socket .receive) =>
      if s.socket.isOpen then { state := s, after := .suspend .receive }
      else s.afterRead [] zeroBuffer .success
  | .task (.socket .start) => { state := s, posts := s.socket.start.map .socket }
  | .task (.socket .close) =>
      { state := { s with socket := s.socket.close }
        settles := fun operation =>
          match operation with
          | .receive | .call .. | .connect _ => some .aborted
          | .await _ => none }
  | .task (.socket .disconnected) => { state := s, after := .run .onDisconnected }
  | .resume .receive completion =>
      s.notice.afterRead s.socket.afterOperation.2 (bufferIoHandler zeroBuffer completion)
        completion.error
  | .resume (.call _ frame) _ | .resume (.connect frame) _ =>
      { state := s.notice
        posts := s.socket.afterOperation.2.map .socket
        after := .run frame }
  | .resume (.await frame) _ => { state := s, after := .run frame }

/-- What follows when user code returns. -/
def returned (s : State) : Frame → Stretch
  | .onData => { state := s, posts := [.socket .start] }
  | .task | .onDisconnected => { state := s }

def act (s : State) (frame : Frame) : Call → Stretch
  | .start => { state := s, posts := s.socket.start.map .socket, after := .run frame }
  | .stop => { state := s, posts := s.socket.stop.map .socket, after := .run frame }
  | .call call =>
      if s.socket.skips call then { state := s, after := .run frame }
      else { state := s, after := .suspend (.call call frame) }
  | .connect =>
      if s.socket.isOpen then { state := s, after := .run frame }
      else
        { state := { s with socket := s.socket.connect }
          after := .suspend (.connect frame) }
  | .runAsync => { state := s, posts := [.user], after := .run frame }
  | .await => { state := s, after := .suspend (.await frame) }
  | .leave => s.returned frame
  | .throw => { state := s }

/-- A successful `async_read_some` gives at least one byte. -/
def mayComplete : Operation → Completion → Prop
  | .receive, completion =>
      completion.error = .success →
        0 < completion.data.length ∧ completion.data.length ≤ maxBuffer
  | .call .., _ | .connect _, _ | .await _, _ => True

instance : ∀ operation completion, Decidable (mayComplete operation completion)
  | .receive, completion =>
      inferInstanceAs (Decidable (completion.error = .success →
        0 < completion.data.length ∧ completion.data.length ≤ maxBuffer))
  | .call .., _ | .connect _, _ | .await _, _ => inferInstanceAs (Decidable True)

/-- The bytes of a read of the read loop leave the peer's stream when it
completes. -/
def completed (s : State) : Operation → Completion → State
  | .receive, completion => { s with received := s.received ++ completion.taken }
  | .call .., _ | .connect _, _ | .await _, _ => s

end State

def program : Program State Task Operation Completion Frame Unit Call where
  defined _ := True
  mayPost task := task = .user
  mayComplete _ := State.mayComplete
  completed := State.completed
  begin _ s _ := s.begin
  act := State.act

instance : DecidablePred program.defined :=
  fun _ => inferInstanceAs (Decidable True)

instance : DecidablePred program.mayPost :=
  fun task => inferInstanceAs (Decidable (task = .user))

instance (s : State) (operation : Operation) (completion : Completion) :
    Decidable (program.mayComplete s operation completion) :=
  inferInstanceAs (Decidable (State.mayComplete operation completion))

/-! ### What reaches the subscribers -/

/-- The payloads passed to `on_data_` are, put together, the beginning of what
was read from the peer. -/
def Intact (s : State) (_ : Multiset Work) : Prop :=
  s.delivered.flatten <+: s.received

instance (s : State) (items : Multiset Work) : Decidable (Intact s items) :=
  inferInstanceAs (Decidable (_ <+: _))

def Frame.inLoop : Frame → Bool
  | onData => true
  | task | onDisconnected => false

def Operation.inLoop : Operation → Bool
  | receive => true
  | call _ frame | connect frame | await frame => frame.inLoop

def Task.inLoop : Task → Bool
  | socket .receive | socket .start => true
  | user | socket .close | socket .disconnected => false

def inLoop : Work → Bool
  | .queued (.task task) => task.inLoop
  | .queued (.resume operation _) | .waiting operation _ => operation.inLoop
  | .running frame => frame.inLoop

section InLoop

variable {task : Task} {operation : Operation} {result : Option Completion}
variable {completion : Completion} {frame : Frame} {call : SocketCall}

@[simp]
theorem inLoop_task : inLoop (.queued (.task task)) = task.inLoop :=
  rfl

@[simp]
theorem inLoop_resume :
    inLoop (.queued (.resume operation completion)) = operation.inLoop :=
  rfl

@[simp]
theorem inLoop_waiting : inLoop (.waiting operation result) = operation.inLoop :=
  rfl

@[simp]
theorem inLoop_running : inLoop (.running frame) = frame.inLoop :=
  rfl

@[simp]
theorem Operation.inLoop_receive : receive.inLoop = true :=
  rfl

@[simp]
theorem Operation.inLoop_call : (Operation.call call frame).inLoop = frame.inLoop :=
  rfl

@[simp]
theorem Operation.inLoop_connect : (Operation.connect frame).inLoop = frame.inLoop :=
  rfl

@[simp]
theorem Operation.inLoop_await : (await frame).inLoop = frame.inLoop :=
  rfl

end InLoop

/-- The bytes that a read of the loop has taken from the peer and that have not
been delivered yet. -/
def carried : Work → Buffer
  | .queued (.resume .receive completion) | .waiting .receive (some completion) =>
      completion.taken
  | _ => []

/-- `Start` is called only when no read loop is there. -/
def OneLoop (s : State) (rest : Multiset Work) :
    Move Task Operation Completion Frame Unit Call → Prop
  | .act frame .start => s.socket.isOpen = true → Item.count inLoop (.running frame ::ₘ rest) = 0
  | _ => True

instance (s : State) (rest : Multiset Work) : ∀ move, Decidable (OneLoop s rest move)
  | .act frame .start =>
      inferInstanceAs (Decidable
        (s.socket.isOpen = true → Item.count inLoop (.running frame ::ₘ rest) = 0))
  | .act _ .stop | .act _ (.call _) | .act _ .connect | .act _ .runAsync | .act _ .await | .act _ .leave
  | .act _ .throw | .post _ | .complete .. | .deliver .. | .begin .. =>
      inferInstanceAs (Decidable True)

/-- The lambda in `Start` finds the socket open. -/
def ReceivesOpen (s : State) (_ : Multiset Work) :
    Move Task Operation Completion Frame Unit Call → Prop
  | .begin _ (.task (.socket .receive)) => s.socket.isOpen = true
  | _ => True

instance (s : State) (rest : Multiset Work) : ∀ move, Decidable (ReceivesOpen s rest move)
  | .begin _ (.task (.socket .receive)) => inferInstanceAs (Decidable (s.socket.isOpen = true))
  | .begin _ (.task (.socket .start)) | .begin _ (.task (.socket .close))
  | .begin _ (.task (.socket .disconnected)) | .begin _ (.task .user) | .begin _ (.resume ..)
  | .act .. | .post _ | .complete .. | .deliver .. => inferInstanceAs (Decidable True)

/-- The read loop carries what has been read and not yet delivered. -/
structure LoopInvariant (s : State) (items : Multiset Work) : Prop where
  single : Item.count inLoop items ≤ 1
  position : ∀ item ∈ items, inLoop item = true →
    s.received = s.delivered.flatten ++ carried item
  atRest : Item.count inLoop items = 0 → s.received = s.delivered.flatten

theorem blind_inLoop : Item.Blind inLoop :=
  fun _ _ => rfl

private theorem inLoop_settle (settles : Operation → Option Completion) (item : Work) :
    inLoop (item.settle settles) = inLoop item :=
  blind_inLoop.settle settles item

/-- Results that are given to operations before they have read anything. -/
def SettlesEmpty (settles : Operation → Option Completion) : Prop :=
  ∀ completion, settles .receive = some completion → completion.taken = []

private theorem carried_settle {settles : Operation → Option Completion}
    (empty : SettlesEmpty settles)
    (item : Work) : carried (item.settle settles) = carried item := by
  cases item with
  | queued => rfl
  | running => rfl
  | waiting operation result =>
      cases result with
      | some => rfl
      | none =>
          cases operation with
          | call | connect | await => rfl
          | receive =>
              cases given : settles .receive with
              | none => simp [Item.settle, given, carried]
              | some completion => simp [Item.settle, given, carried, empty completion given]

namespace LoopInvariant

variable {s : State} {item : Work} {rest : Multiset Work} {segment : Stretch}

theorem intact (loop : LoopInvariant s rest) : Intact s rest := by
  by_cases idle : Item.count inLoop rest = 0
  · have all := loop.atRest idle
    exact ⟨[], by simp [all]⟩
  · obtain ⟨item, member, inside⟩ := Item.count_pos.mp (Nat.pos_of_ne_zero idle)
    exact ⟨carried item, (loop.position item member inside).symm⟩

/-- A stretch of code that begins no second loop.  The loop itself has delivered
what it carried; other code leaves the stream alone. -/
theorem perform (loop : LoopInvariant s (item ::ₘ rest))
    (single : segment.yield inLoop + Item.count inLoop rest ≤ 1)
    (empty : SettlesEmpty segment.settles)
    (stream : if inLoop item then segment.state.received = segment.state.delivered.flatten
      else segment.state.received = s.received ∧ segment.state.delivered = s.delivered) :
    LoopInvariant segment.state (segment.outstanding rest) := by
  have before := loop.single
  have after : Item.count inLoop (segment.outstanding rest) =
      segment.yield inLoop + Item.count inLoop rest := Segment.count_outstanding blind_inLoop
  rw [Item.count_cons] at before
  unfold Segment.yield at single after
  -- With no loop beside the code that ran, everything read has been delivered.
  have settled (alone : Item.count inLoop rest = 0) :
      segment.state.received = segment.state.delivered.flatten := by
    cases inside : inLoop item with
    | true => simpa [inside] using stream
    | false =>
        have idle := loop.atRest (by simp [alone, inside])
        simp only [inside, Bool.false_eq_true, if_false] at stream
        rw [stream.1, stream.2, idle]
  refine ⟨by omega, ?_, fun none => settled (by omega)⟩
  intro other member inside
  rcases Segment.mem_outstanding.mp member with produced | ⟨task, posted, rfl⟩ | ⟨kept, old, rfl⟩
  · have bare : carried other = [] := by
      cases ends : segment.after with
      | finish => simp [ends] at produced
      | run frame =>
          obtain rfl : other = .running frame := by simpa [ends] using produced
          rfl
      | suspend operation =>
          obtain rfl : other = .waiting operation none := by simpa [ends] using produced
          cases operation <;> rfl
    have counted := Item.count_pos_of_mem produced inside
    simp [bare, settled (by omega)]
  · have counted : 0 < segment.posts.countP fun task => inLoop (.queued (.task task)) :=
      List.countP_pos_iff.mpr ⟨task, posted, inside⟩
    simp [carried, settled (by omega)]
  · rw [inLoop_settle] at inside
    have counted := Item.count_pos_of_mem old inside
    have other : inLoop item = false := by
      cases both : inLoop item with
      | false => rfl
      | true =>
          rw [both] at before
          simp at before
          omega
    simp only [other, Bool.false_eq_true, if_false] at stream
    rw [carried_settle empty, stream.1, stream.2]
    exact loop.position kept (Multiset.mem_cons_of_mem old) inside

/-- An item moves on, and carries what is read meanwhile if it is the loop. -/
theorem exchange (loop : LoopInvariant s (item ::ₘ rest)) {after : State} {other : Work}
    (same : inLoop other = inLoop item) (delivered : after.delivered = s.delivered)
    (received : if inLoop item then
        ∃ more, carried other = carried item ++ more ∧ after.received = s.received ++ more
      else after.received = s.received) :
    LoopInvariant after (other ::ₘ rest) := by
  have single := loop.single
  rw [Item.count_cons] at single
  cases inside : inLoop item with
  | true =>
      simp only [inside, if_true] at received
      obtain ⟨more, carries, stream⟩ := received
      have alone : Item.count inLoop rest = 0 := by
        simp [inside] at single
        omega
      refine ⟨by simp [alone, same, inside], ?_, by simp [same, inside]⟩
      intro kept member loops
      rcases Multiset.mem_cons.mp member with rfl | old
      · rw [stream, loop.position item (Multiset.mem_cons_self _ _) inside, carries, delivered,
          List.append_assoc]
      · simp [Item.count_eq_zero.mp alone kept old] at loops
  | false =>
      simp only [inside, Bool.false_eq_true, if_false] at received
      simp only [inside, Bool.toNat_false, Nat.add_zero] at single
      refine ⟨by simp [same, inside, single], ?_, ?_⟩
      · intro kept member loops
        rcases Multiset.mem_cons.mp member with rfl | old
        · simp [same, inside] at loops
        · rw [received, delivered]
          exact loop.position kept (Multiset.mem_cons_of_mem old) loops
      · intro none
        rw [received, delivered]
        exact loop.atRest (by simpa [same, inside] using none)

end LoopInvariant

namespace State

variable {s : State} {posts : List SocketTask} {buffer : Buffer} {error : ErrorType}

private theorem afterRead_settles (s : State) (posts : List SocketTask) (buffer : Buffer)
    (error : ErrorType) : (s.afterRead posts buffer error).settles = fun _ => none := by
  unfold afterRead
  split <;> rfl

private theorem afterRead_received :
    (s.afterRead posts buffer error).state.received = s.received := by
  unfold afterRead
  split <;> rfl

private theorem afterRead_delivered (s : State) (posts : List SocketTask) (buffer : Buffer)
    (error : ErrorType) : (s.afterRead posts buffer error).state.delivered.flatten =
      s.delivered.flatten ++ if error = .success then buffer else [] := by
  cases error <;> simp [afterRead, ErrorType.readOutcome]

private theorem afterRead_loops (quiet : posts.countP (Task.inLoop ∘ Task.socket) = 0) :
    (s.afterRead posts buffer error).yield inLoop ≤ 1 := by
  unfold afterRead
  split
  · cases s.socket.stopped <;> simp [Segment.yield, quiet, Frame.inLoop]
  · have closes : (Task.socket .close).inLoop = false := rfl
    cases s.socket.stopped <;> simp [Segment.yield, quiet, closes, Frame.inLoop]
  · simp [Segment.yield, quiet, Frame.inLoop]

/-- The early exit of `ReadPartial` counts as data. -/
theorem begin_receive_closed (closed : s.socket.isOpen = false) :
    (s.begin (.task (.socket .receive))).state =
      { s with delivered := s.delivered ++ [zeroBuffer] } := by
  simp [begin, closed, afterRead, ErrorType.readOutcome]

theorem begin_loops (s : State) (entry : Entry Task Operation Completion) :
    (s.begin entry).yield inLoop ≤ (inLoop (.queued entry)).toNat := by
  cases entry with
  | task task =>
      cases task with
      | user => simp [State.begin, Segment.yield, Task.inLoop, Frame.inLoop]
      | socket task =>
          cases task with
          | receive =>
              unfold State.begin
              dsimp only
              split
              · simp [Segment.yield, Task.inLoop]
              · exact afterRead_loops rfl
          | start =>
              cases opened : s.socket.isOpen <;>
                simp [State.begin, Segment.yield, opened, Task.inLoop]
          | close => simp [State.begin, Segment.yield]
          | disconnected => simp [State.begin, Segment.yield, Frame.inLoop]
  | resume operation completion =>
      cases operation with
      | receive => exact afterRead_loops (by simp [Task.inLoop])
      | call call frame => simp [State.begin, Segment.yield, Task.inLoop]
      | connect frame => simp [State.begin, Segment.yield, Task.inLoop]
      | await frame => simp [State.begin, Segment.yield]

/-- Of the calls of user code only `Start` on an open socket begins a loop. -/
theorem act_loops (s : State) (frame : Frame) (call : Call) :
    (s.act frame call).yield inLoop ≤
      frame.inLoop.toNat + (decide (call = .start) && s.socket.isOpen).toNat := by
  cases call with
  | start => simp [State.act, Segment.yield, Task.inLoop]
  | stop => simp [State.act, Segment.yield, Task.inLoop]
  | call | connect =>
      unfold State.act
      dsimp only
      split <;> simp [Segment.yield, Task.inLoop]
  | leave => cases frame <;> simp [State.act, State.returned, Segment.yield, Task.inLoop, Frame.inLoop]
  | runAsync | await | throw => simp [State.act, Segment.yield, Task.inLoop]

end State

namespace LoopInvariant

variable {s : State} {rest : Multiset Work} {entry : Entry Task Operation Completion}
variable {frame : Frame} {call : Call}

theorem begin (loop : LoopInvariant s (.queued entry ::ₘ rest))
    (opened : entry = .task (.socket .receive) → s.socket.isOpen = true) :
    LoopInvariant (s.begin entry).state ((s.begin entry).outstanding rest) := by
  have single := loop.single
  have begun := s.begin_loops entry
  rw [Item.count_cons] at single
  have position := loop.position _ (Multiset.mem_cons_self _ _)
  apply loop.perform (by omega)
  · intro completion given
    cases entry with
    | task task =>
        cases task with
        | user => simp [State.begin] at given
        | socket task =>
            cases task with
            | receive =>
                unfold State.begin at given
                dsimp only at given
                split at given
                · simp at given
                · simp [State.afterRead_settles] at given
            | start => simp [State.begin] at given
            | close =>
                obtain rfl : Completion.aborted = completion := by simpa [State.begin] using given
                rfl
            | disconnected => simp [State.begin] at given
    | resume operation result =>
        cases operation with
        | receive => simp [State.begin, State.afterRead_settles] at given
        | call | connect | await => simp [State.begin] at given
  · cases entry with
    | task task =>
        cases task with
        | user => simp [State.begin, Task.inLoop]
        | socket task =>
            cases task with
            | receive =>
                simpa [State.begin, opened rfl, carried] using position
            | start => simpa [State.begin, carried] using position
            | close => simp [State.begin, Task.inLoop]
            | disconnected => simp [State.begin, Task.inLoop]
    | resume operation result =>
        cases operation with
        | receive =>
            have read := position rfl
            simp only [inLoop, Operation.inLoop, if_true, State.begin, State.afterRead_received,
              State.afterRead_delivered]
            cases error : result.error <;>
              simpa [State.notice, carried, Completion.taken, bufferIoHandler, error] using read
        | call _ frame | connect frame =>
            cases inside : frame.inLoop with
            | true => simpa [State.begin, State.notice, carried, inside] using position
            | false => simp [State.begin, State.notice, inside]
        | await frame =>
            cases inside : frame.inLoop with
            | true => simpa [State.begin, carried, inside] using position
            | false => simp [State.begin, inside]

theorem act (loop : LoopInvariant s (.running frame ::ₘ rest))
    (oneLoop : OneLoop s rest (.act frame call)) :
    LoopInvariant (s.act frame call).state ((s.act frame call).outstanding rest) := by
  have single := loop.single
  have position := loop.position _ (Multiset.mem_cons_self _ _)
  rw [Item.count_cons] at single
  -- No call of user code moves the stream.
  have kept : (s.act frame call).state.received = s.received ∧
      (s.act frame call).state.delivered = s.delivered := by
    cases call with
    | call | connect =>
        unfold State.act
        dsimp only
        split <;> exact ⟨rfl, rfl⟩
    | leave => cases frame <;> exact ⟨rfl, rfl⟩
    | start | stop | runAsync | await | throw => exact ⟨rfl, rfl⟩
  have made := s.act_loops frame call
  apply loop.perform
  · -- Only `Start` begins a loop, and only where there is none.
    cases starts : decide (call = .start) && s.socket.isOpen with
    | false =>
        simp only [starts, Bool.toNat_false, Nat.add_zero] at made
        simp only [inLoop] at single
        omega
    | true =>
        obtain ⟨rfl, opened⟩ : call = .start ∧ s.socket.isOpen = true := by simpa using starts
        obtain ⟨alone, outside⟩ : Item.count inLoop rest = 0 ∧ frame.inLoop = false := by
          simpa using oneLoop opened
        simpa [alone, outside, opened] using made
  · intro completion given
    cases call with
    | call | connect =>
        unfold State.act at given
        dsimp only at given
        split at given <;> simp at given
    | leave => cases frame <;> simp [State.act, State.returned] at given
    | start | stop | runAsync | await | throw => simp [State.act] at given
  · cases inside : inLoop (.running frame) with
    | true =>
        rw [if_pos rfl, kept.1, kept.2]
        simpa [carried] using position inside
    | false => simpa using kept

theorem complete {operation : Operation} {completion : Completion}
    (loop : LoopInvariant s (.waiting operation none ::ₘ rest)) :
    LoopInvariant (s.completed operation completion)
      (.waiting operation (some completion) ::ₘ rest) := by
  cases operation with
  | receive => exact loop.exchange rfl rfl ⟨completion.taken, rfl, rfl⟩
  | call _ frame | connect frame | await frame =>
      refine loop.exchange rfl rfl ?_
      split
      · exact ⟨[], rfl, (List.append_nil _).symm⟩
      · rfl

theorem deliver {operation : Operation} {completion : Completion}
    (loop : LoopInvariant s (.waiting operation (some completion) ::ₘ rest)) :
    LoopInvariant s (.queued (.resume operation completion) ::ₘ rest) := by
  refine loop.exchange rfl rfl ?_
  split
  · refine ⟨[], ?_, (List.append_nil _).symm⟩
    cases operation <;> simp [carried]
  · rfl

theorem post (loop : LoopInvariant s rest) :
    LoopInvariant s (.queued (.task .user) ::ₘ rest) := by
  refine ⟨?_, ?_, fun none => loop.atRest ?_⟩
  · simpa [Task.inLoop] using loop.single
  · intro item member inside
    rcases Multiset.mem_cons.mp member with rfl | old
    · simp [Task.inLoop] at inside
    · exact loop.position item old inside
  · simpa [Task.inLoop] using none

end LoopInvariant

theorem preserves_loopInvariant : program.Preserves LoopInvariant
    fun s rest move => OneLoop s rest move ∧ ReceivesOpen s rest move := by
  intro s rest move loop allowed condition
  obtain ⟨oneLoop, opened⟩ := condition
  cases move with
  | post task =>
      obtain rfl : task = .user := allowed
      rw [Move.consumed, zero_add] at loop
      exact loop.post
  | complete operation completion => exact loop.complete
  | deliver operation completion => exact loop.deliver
  | begin choice entry =>
      refine loop.begin fun receives => ?_
      subst receives
      exact opened
  | act frame call => exact loop.act oneLoop

def initial (socket : TcpSocket) : Strand State Task Operation Completion Frame where
  state := { socket := socket }

theorem loopInvariant_initial (socket : TcpSocket) :
    LoopInvariant (initial socket).state (initial socket).items :=
  ⟨by simp [initial, Strand.items], by simp [initial, Strand.items], fun _ => rfl⟩

/-- In a run with one loop at a time the payloads of `on_data_` are throughout
the beginning of what was read from the peer exactly if the lambda in `Start`
always finds the socket open. -/
theorem stream_intact_iff {socket : TcpSocket}
    {actions : List (StrandAction Task Completion Unit Call)}
    (legal : program.system.Legal (initial socket) actions)
    (oneLoop : program.system.EveryStep (Strand.During OneLoop) (initial socket) actions) :
    program.system.EveryState (fun s => Intact s.state s.items) (initial socket) actions ↔
      program.system.EveryStep (Strand.During ReceivesOpen) (initial socket) actions := by
  refine Strand.everyState_iff_bag (fun s items loop => loop.intact) preserves_loopInvariant ?_
    (loopInvariant_initial socket) legal oneLoop
  intro s rest move loop _ _ closed intact
  cases move with
  | post | complete | deliver | act => exact closed trivial
  | begin choice entry =>
      cases entry with
      | resume => exact closed trivial
      | task task =>
          cases task with
          | user => exact closed trivial
          | socket task =>
              cases task with
              | start | close | disconnected => exact closed trivial
              | receive =>
                  -- Nothing is under way, and yet a payload is delivered.
                  have read := loop.position (.queued (.task (.socket .receive)))
                    (by simp [Move.consumed]) rfl
                  simp only [carried, List.append_nil] at read
                  have shut : s.socket.isOpen = false := Bool.eq_false_of_not_eq_true closed
                  have longer := intact.length_le
                  change (s.begin (.task (.socket .receive))).state.delivered.flatten.length ≤
                    (s.begin (.task (.socket .receive))).state.received.length at longer
                  simp only [State.begin_receive_closed shut, read, List.flatten_append,
                    List.length_append, List.flatten_cons, List.flatten_nil, List.append_nil,
                    length_zeroBuffer, maxBuffer] at longer
                  omega

/-- A user task stops the socket while the data handler's restart of the loop is
queued: `Start` still finds the socket open, the lambda it posts does not. -/
def overtakenReceive : List (StrandAction Task Completion Unit Call) :=
  [.post .user, .begin (), .act .start, .flush, .act .leave, .begin (),
    .complete 0 ⟨.success, [104, 105]⟩, .deliver 0, .post .user, .begin (), .act .leave, .flush,
    .begin (), .act .stop, .flush, .act .leave, .begin (), .flush, .begin (), .begin ()]

/-- After `overtakenReceive` the subscribers have got 1024 bytes that nobody
sent. -/
theorem stream_not_intact_overtakenReceive :
    program.system.Legal (initial { isOpen := true }) overtakenReceive ∧
      program.system.EveryStep (Strand.During OneLoop) (initial { isOpen := true })
        overtakenReceive ∧
      ¬ program.system.EveryState (fun s => Intact s.state s.items)
        (initial { isOpen := true }) overtakenReceive := by
  refine ⟨by decide, by decide, fun intact => ?_⟩
  have all := intact.last
  exact absurd all (by decide)

/-- The same run with the socket left open. -/
def punctualReceive : List (StrandAction Task Completion Unit Call) :=
  [.post .user, .begin (), .act .start, .flush, .act .leave, .begin (),
    .complete 0 ⟨.success, [104, 105]⟩, .deliver 0, .begin (), .act .leave, .flush,
    .begin (), .flush, .begin (), .complete 0 ⟨.eof, []⟩, .deliver 0, .begin ()]

theorem stream_intact_punctualReceive :
    program.system.EveryState (fun s => Intact s.state s.items)
      (initial { isOpen := true }) punctualReceive :=
  (stream_intact_iff (by decide) (by decide)).mpr (by decide)

end DataStream

end FlatAsync
