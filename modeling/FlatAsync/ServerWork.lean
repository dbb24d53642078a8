import FlatAsync.AcceptChain
import FlatAsync.ServerSlots
import FlatAsync.StrandWork

/-!
# The work of a server

The lambdas of `TcpServer` and `TcpSocket` post each other: `OnAccepted` leads to
`DoAccept` and back to `OnAccepted`, the lambda in `TcpSocket::Start` to itself, and the end
of a connection to a chain of its own.

This file shows that none of these circles turns by itself.  Every round waits for
something: an accepted connection, received data, or a subscriber that returns.
-/

namespace FlatAsync

namespace TcpServer

/-! ### The generations of acceptors -/

/-- What a move makes of the acceptor: `Stop` closes it, and the lambda in `Start` replaces
it by the next one. -/
inductive AcceptorStep (s after : State) : Prop
  | same (kept : after.acceptor = s.acceptor)
  | closed {acceptor : Acceptor} (present : s.acceptor = some acceptor)
      (now : after.acceptor = some { acceptor with isOpen := false })
  | opened (listening : Bool)
      (now : after.acceptor = some { generation := s.nextGeneration, listening := listening })

theorem acceptorStep (s : State) (rest : Multiset Work) (move : ServerMove) :
    AcceptorStep s (program.stateAfter s rest move) := by
  by_cases opens : ∃ choice, move = .begin choice (.task .start)
  · obtain ⟨choice, rfl⟩ := opens
    simp only [Program.stateAfter, program, State.begin, State.startListening]
    split
    · split
      · exact .opened choice.listens rfl
      · exact .same rfl
    · exact .same rfl
  · have change := stateStep s rest move
    generalize program.stateAfter s rest move = after at change ⊢
    cases change with
    | opened choice running acceptor => exact absurd ⟨choice, rfl⟩ opens
    | stops choice running present =>
        obtain ⟨events, same⟩ := State.raiseOnClosed_state _
        rw [same]
        exact .closed present rfl
    | freedLast handler idle =>
        obtain ⟨events, same⟩ := State.raiseOnClosed_state _
        rw [same]
        exact .same rfl
    | _ => exact .same rfl

/-- A connection accepted by the acceptor of that generation is handed to `OnAccepted`. -/
def State.admits (s : State) (generation : Nat) : Bool :=
  s.acceptor.any fun acceptor => acceptor.isOpen && acceptor.generation = generation

namespace AcceptorStep

variable {s after : State} {generation : Nat}

private theorem nextGeneration_le (step : AcceptorStep s after) :
    s.nextGeneration ≤ after.nextGeneration := by
  cases step with
  | same kept => simp [State.nextGeneration, kept]
  | closed present now => simp [State.nextGeneration, present, now]
  | opened listening now => simp [State.nextGeneration, now]

/-- No acceptor begins to admit what an earlier one has been asked for. -/
theorem admits (step : AcceptorStep s after) (issued : generation < s.nextGeneration)
    (admitted : after.admits generation = true) : s.admits generation = true := by
  cases step with
  | same kept => simpa [State.admits, kept] using admitted
  | closed present now => simp [State.admits, now] at admitted
  | opened listening now =>
      simp [State.admits, now] at admitted
      omega

end AcceptorStep

/-- Only acceptors that exist or have existed are waited for. -/
def Issued (s : State) : Work → Prop
  | .queued (.resume (.accept generation) _) | .waiting (.accept generation) _ =>
      generation < s.nextGeneration
  | _ => True

theorem Issued.later {s after : State} {item : Work} (issued : Issued s item)
    (le : s.nextGeneration ≤ after.nextGeneration) : Issued after item := by
  cases item with
  | queued entry =>
      cases entry with
      | task => trivial
      | resume operation completion =>
          cases operation with
          | accept generation => exact Nat.lt_of_lt_of_le issued le
          | receive | call | await => trivial
  | waiting operation answer =>
      cases operation with
      | accept generation => exact Nat.lt_of_lt_of_le issued le
      | receive | call | await => trivial
  | running frame => trivial

theorem Issued.settle {s : State} {item : Work} (settles : Operation → Option Completion) :
    Issued s (item.settle settles) ↔ Issued s item := by
  cases item with
  | queued | running => rfl
  | waiting operation answer => cases answer <;> cases operation <;> rfl

/-- The table has its size, and only acceptors that exist or have existed are waited for. -/
structure Provided (maxConnections : Nat) (s : State) (items : Multiset Work) : Prop where
  slots : s.clientConnections.length = maxConnections
  issued : ∀ item ∈ items, Issued s item

theorem Issued.of_not_isLink {s : State} {item : Work} (outside : isLink item = false) :
    Issued s item := by
  cases item with
  | queued entry =>
      cases entry with
      | task => trivial
      | resume operation completion =>
          cases operation with
          | accept generation => simp [isLink] at outside
          | receive | call | await => trivial
  | waiting operation answer =>
      cases operation with
      | accept generation => simp [isLink] at outside
      | receive | call | await => trivial
  | running frame => trivial

theorem Issued.of_yield {s : State} {segment : Stretch} (none : segment.yield isLink = 0)
    {item : Work} (produced : item ∈ segment.after.items) : Issued s item := by
  have links : Item.count isLink segment.after.items = 0 := by
    unfold Segment.yield at none
    omega
  exact .of_not_isLink (Item.count_eq_zero.mp links item produced)

/-- The acceptor that a stretch of code begins to wait for is the one there is. -/
theorem issued_begin {s : State} {rest : Multiset Work} {choice : Choice}
    {entry : Entry Task Operation Completion} {item : Work}
    (produced : item ∈ (s.begin choice rest entry).after.items) :
    Issued (s.begin choice rest entry).state item := by
  have off (off : OffChain entry) : Issued (s.begin choice rest entry).state item :=
    .of_yield (begin_yield_isLink off) produced
  cases entry with
  | task task =>
      cases task with
      | accepted socket =>
          simp only [State.begin, State.onAccepted] at produced
          split at produced
          · split at produced <;> simp [State.connect] at produced
          · simp at produced
      | rearm =>
          simp only [State.begin, State.doAccept] at produced ⊢
          split at produced
          next running =>
            rw [if_pos running]
            split at produced
            next acceptor present =>
              obtain rfl : item = .waiting (.accept acceptor.generation) none := by
                simpa using produced
              simp [Issued, State.nextGeneration, present]
            · simp [State.undefinedBehaviour] at produced
          · simp at produced
      | start =>
          simp only [State.begin, State.startListening] at produced ⊢
          split at produced
          next running =>
            rw [if_pos running]
            split at produced
            next opens =>
              rw [if_pos opens]
              obtain rfl : item = .waiting (.accept s.nextGeneration) none := by
                simpa using produced
              simp [Issued, State.nextGeneration]
            · simp at produced
          · simp at produced
      | user | listening | connected | socket | release | stop | stopClient => exact off trivial
  | resume operation completion =>
      cases operation with
      | accept generation =>
          simp only [State.begin, State.afterAccept] at produced
          split at produced
          · split at produced
            · split at produced <;> simp at produced
            · simp [State.undefinedBehaviour] at produced
          · simp [State.undefinedBehaviour] at produced
      | receive | call | await => exact off trivial

namespace Provided

variable {maxConnections : Nat} {s : State} {rest : Multiset Work} {item : Work}

theorem initially (maxConnections : Nat) :
    Provided maxConnections (initial maxConnections).state (initial maxConnections).items where
  slots := List.length_replicate
  issued item member := by simp [initial, Strand.items] at member

theorem outstanding {segment : Stretch}
    (provided : Provided maxConnections s (item ::ₘ rest))
    (slots : segment.state.clientConnections.length = s.clientConnections.length)
    (later : s.nextGeneration ≤ segment.state.nextGeneration)
    (produced : ∀ item ∈ segment.after.items, Issued segment.state item) :
    Provided maxConnections segment.state (segment.outstanding rest) where
  slots := slots.trans provided.slots
  issued other member := by
    rcases Segment.mem_outstanding.mp member with here | ⟨task, -, rfl⟩ | ⟨before, old, rfl⟩
    · exact produced other here
    · trivial
    · have issued := provided.issued before (Multiset.mem_cons_of_mem old)
      exact (Issued.settle segment.settles).mpr (issued.later later)

end Provided

theorem preserves_provided {maxConnections : Nat} :
    program.Preserves (Provided maxConnections) fun _ _ _ => True := by
  intro s rest move provided _ _
  have slots := (tableChange s rest move).length_eq
  have later := (acceptorStep s rest move).nextGeneration_le
  cases move with
  | post task =>
      rw [Move.consumed, zero_add] at provided
      exact ⟨provided.slots, fun item member =>
        (Multiset.mem_cons.mp member).elim (fun same => same ▸ trivial)
          (provided.issued item)⟩
  | complete operation completion =>
      refine ⟨provided.slots, fun item member => ?_⟩
      rcases Multiset.mem_cons.mp member with rfl | old
      · have own := provided.issued (.waiting operation none) (Multiset.mem_cons_self _ _)
        cases operation <;> exact own
      · exact provided.issued item (Multiset.mem_cons_of_mem old)
  | deliver operation completion =>
      refine ⟨provided.slots, fun item member => ?_⟩
      rcases Multiset.mem_cons.mp member with rfl | old
      · have own := provided.issued (.waiting operation (some completion))
          (Multiset.mem_cons_self _ _)
        cases operation <;> exact own
      · exact provided.issued item (Multiset.mem_cons_of_mem old)
  | begin choice entry =>
      exact Provided.outstanding provided slots later fun item produced => issued_begin produced
  | act frame call =>
      exact Provided.outstanding provided slots later fun item produced =>
        .of_yield act_yield_isLink produced

/-! ### The weights -/

/-- How many steps of the strand a task can lead to: its own, and those of the tasks that it
posts and of the operations that are aborted before they are answered. -/
def taskWeight (maxConnections : Nat) : Task → Nat
  | .user | .listening | .connected _ | .release _ | .socket _ .close => 1
  | .socket _ .disconnected | .stopClient _ | .rearm => 3
  | .start => 5
  | .socket _ .receive => 11
  | .socket _ .start => 13
  | .accepted _ => 19
  | .stop => 1 + 2 * maxConnections

/-- How many steps a coroutine can lead to that goes on after an operation. -/
def State.resumeWeight (s : State) : Operation → Nat
  | .accept generation => if s.admits generation then 21 else 1
  | .receive _ => 9
  | .call .. => 5
  | .await _ => 1

/-- How many steps a piece of outstanding work can lead to, when nothing but aborted
operations is answered and no user code returns.  An accepted connection is not paid for by
the coroutine that waits for it. -/
def weight (maxConnections : Nat) (s : State) : Work → Nat
  | .queued (.task task) => taskWeight maxConnections task
  | .queued (.resume operation _) => s.resumeWeight operation
  | .waiting (.accept _) none => 2
  | .waiting operation _ => s.resumeWeight operation + 1
  | .running _ => 0

variable {maxConnections : Nat} {s after : State} {rest : Multiset Work}

/-- Results that a stretch of code gives to the operations of an acceptor leave no
connection behind that would be handed on. -/
theorem weight_settle_le {item : Work} {settles : Operation → Option Completion}
    (step : AcceptorStep s after) (issued : Issued s item)
    (aborts : ∀ generation, settles (.accept generation) ≠ none →
      generation < s.nextGeneration → after.admits generation = false) :
    weight maxConnections after (item.settle settles) ≤ weight maxConnections s item := by
  have lighter (operation : Operation) (own : Issued s (.waiting operation none)) :
      after.resumeWeight operation ≤ s.resumeWeight operation := by
    cases operation with
    | accept generation =>
        simp only [State.resumeWeight]
        by_cases admitted : after.admits generation = true
        · rw [if_pos admitted, if_pos (step.admits own admitted)]
        · rw [if_neg admitted]
          split <;> omega
    | receive | call | await => exact Nat.le_refl _
  cases item with
  | queued entry =>
      cases entry with
      | task => exact Nat.le_refl _
      | resume operation completion =>
          refine lighter operation ?_
          cases operation <;> exact issued
  | running => exact Nat.le_refl _
  | waiting operation answer =>
      cases answer with
      | some completion =>
          have le := lighter operation (by cases operation <;> exact issued)
          cases operation <;> exact Nat.succ_le_succ le
      | none =>
          cases operation with
          | accept generation =>
              simp only [Item.settle]
              cases settled : settles (.accept generation) with
              | none => exact Nat.le_refl _
              | some completion =>
                  have refused := aborts generation (by simp [settled]) issued
                  simp [weight, State.resumeWeight, refused]
          | receive | call | await =>
              simp only [Item.settle]
              cases settles _ <;> exact Nat.le_refl _

/-! ### What the stretches of code cost -/

/-- What posted tasks cost, each of which has yet to enter the queue. -/
def postCost (maxConnections : Nat) : List Task → Nat
  | [] => 0
  | task :: tasks => taskWeight maxConnections task + 1 + postCost maxConnections tasks

@[simp]
theorem postCost_nil : postCost maxConnections [] = 0 :=
  rfl

@[simp]
theorem postCost_cons {task : Task} {tasks : List Task} :
    postCost maxConnections (task :: tasks) =
      taskWeight maxConnections task + 1 + postCost maxConnections tasks :=
  rfl

@[simp]
theorem postCost_append {first second : List Task} :
    postCost maxConnections (first ++ second) =
      postCost maxConnections first + postCost maxConnections second := by
  induction first with
  | nil => simp
  | cons task tasks ih => simp [ih, Nat.add_assoc]

private theorem total_posted {segment : Stretch} :
    Item.total (weight maxConnections after) segment.posted + segment.posts.length =
      postCost maxConnections segment.posts := by
  unfold Segment.posted
  induction segment.posts with
  | nil => rfl
  | cons task tasks ih =>
      rw [List.map_cons, ← Multiset.cons_coe, Item.total_cons, List.length_cons, postCost_cons,
        ← ih, weight]
      omega

/-- What a piece of code waits for afterwards costs, whatever the acceptor admits. -/
def afterCost : After Operation Frame → Nat
  | .suspend (.accept _) | .suspend (.await _) => 2
  | .suspend (.receive _) => 10
  | .suspend (.call ..) => 6
  | .finish | .run _ => 0

private theorem cost_eq (segment : Stretch) : segment.cost (weight maxConnections after) =
    afterCost segment.after + postCost maxConnections segment.posts := by
  have ends : Item.total (weight maxConnections after) segment.after.items =
      afterCost segment.after := by
    cases segment.after with
    | finish => rfl
    | run frame => simp [weight, afterCost]
    | suspend operation =>
        cases operation <;> simp [weight, afterCost, State.resumeWeight]
  rw [Segment.cost, ends, Nat.add_assoc, total_posted]

section Cost

theorem postCost_stop_le (maxConnections : Nat) (socket : SocketId) (value : TcpSocket) :
    postCost maxConnections (value.stop.map (.socket socket)) ≤ 2 := by
  unfold TcpSocket.stop
  split <;> simp [taskWeight]

private theorem postCost_start_le (maxConnections : Nat) (socket : SocketId) (value : TcpSocket) :
    postCost maxConnections (value.start.map (.socket socket)) ≤ 12 := by
  unfold TcpSocket.start
  split <;> simp [taskWeight]

private theorem postCost_noticePosts_le (maxConnections : Nat) (s : State) (socket : SocketId) :
    postCost maxConnections (s.noticePosts socket) ≤ 4 := by
  unfold State.noticePosts TcpSocket.afterOperation
  split <;> simp [taskWeight]

private theorem postCost_disconnect_le (maxConnections : Nat) (s : State) (socket : SocketId) :
    postCost maxConnections (s.disconnect socket) ≤ 2 := by
  unfold State.disconnect
  split <;> simp [taskWeight]

private theorem postCost_stopAll_le (maxConnections : Nat) (s : State) :
    postCost maxConnections s.stopAll ≤ 2 * s.clientConnections.length := by
  unfold State.stopAll
  induction s.clientConnections with
  | nil => exact Nat.le_refl _
  | cons slot slots ih =>
      rw [List.flatMap_cons, postCost_append, List.length_cons]
      cases slot with
      | none =>
          rw [postCost_nil]
          omega
      | some socket =>
          have own := postCost_stop_le maxConnections socket (s.sockets socket)
          dsimp only
          omega

private theorem raiseOnClosed_cost : afterCost s.raiseOnClosed.2 = 0 := by
  unfold State.raiseOnClosed
  split <;> rfl

private theorem afterRead_cost (maxConnections : Nat) (s : State) (socket : SocketId)
    (posts : List Task) (buffer : Buffer) (error : ErrorType) :
    let segment := s.afterRead socket posts buffer error
    afterCost segment.after + postCost maxConnections segment.posts ≤
      postCost maxConnections posts + 4 := by
  have stopped := postCost_stop_le maxConnections socket (s.sockets socket)
  have left := postCost_disconnect_le maxConnections s socket
  simp only [State.afterRead]
  split
  · simp only [postCost_append, afterCost]
    omega
  · simp only [postCost_append, afterCost]
    omega
  · simp only [afterCost]
    omega

theorem beginTask_cost (choice : Choice) (rest : Multiset Work) (task : Task)
    (slots : s.clientConnections.length = maxConnections) :
    let segment := s.begin choice rest (.task task)
    afterCost segment.after + postCost maxConnections segment.posts + 1 ≤
      taskWeight maxConnections task := by
  cases task with
  | user | listening => simp [State.begin, afterCost, taskWeight]
  | start =>
      simp only [State.begin, State.startListening]
      split
      · split <;> simp [afterCost, taskWeight]
      · simp [afterCost, taskWeight]
  | accepted socket =>
      simp only [State.begin, State.onAccepted]
      split
      · split
        · have stopped := postCost_stop_le maxConnections socket (s.sockets socket)
          simp only [afterCost, taskWeight]
          omega
        · have started := postCost_start_le maxConnections socket (s.sockets socket)
          simp only [State.connect, afterCost, taskWeight, postCost_cons, postCost_append,
            postCost_nil]
          omega
      · simp [afterCost, taskWeight]
  | connected socket =>
      simp only [State.begin, State.raiseConnected]
      split <;> simp [afterCost, taskWeight, State.undefinedBehaviour]
  | release socket =>
      simp only [State.begin, State.raiseDisconnected]
      split <;> simp [afterCost, taskWeight, State.undefinedBehaviour]
  | socket socket task =>
      cases task with
      | receive =>
          simp only [State.begin, State.socketTask]
          split
          · simp [afterCost, taskWeight]
          · have read := afterRead_cost maxConnections s socket [] zeroBuffer .success
            simp only [postCost_nil] at read
            simp only [taskWeight]
            omega
      | start =>
          have started := postCost_start_le maxConnections socket (s.sockets socket)
          simp only [State.begin, State.socketTask, afterCost, taskWeight]
          omega
      | close | disconnected => simp [State.begin, State.socketTask, afterCost, taskWeight]
  | rearm =>
      simp only [State.begin, State.doAccept]
      split
      · split <;> simp [afterCost, taskWeight, State.undefinedBehaviour]
      · simp [afterCost, taskWeight]
  | stop =>
      have stopped := postCost_stopAll_le maxConnections s
      simp only [State.begin, State.stopServer]
      split
      · split
        · simp only [raiseOnClosed_cost, taskWeight]
          omega
        · simp [afterCost, taskWeight, State.undefinedBehaviour]
      · simp [afterCost, taskWeight]
  | stopClient id =>
      simp only [State.begin, State.stopSocket]
      split
      next socket found =>
        have stopped := postCost_stop_le maxConnections socket (s.sockets socket)
        simp only [afterCost, taskWeight]
        omega
      · simp [afterCost, taskWeight]

theorem beginResume_cost (maxConnections : Nat) (s : State) (choice : Choice)
    (rest : Multiset Work) (operation : Operation) (completion : Completion) :
    let segment := s.begin choice rest (.resume operation completion)
    afterCost segment.after + postCost maxConnections segment.posts + 1 ≤
      s.resumeWeight operation := by
  cases operation with
  | accept generation =>
      simp only [State.begin, State.afterAccept]
      cases present : s.acceptor with
      | none => simp [afterCost, State.undefinedBehaviour, State.resumeWeight, State.admits,
          present]
      | some acceptor =>
          by_cases own : acceptor.generation = generation
          · by_cases opened : acceptor.isOpen = true
            · simp [own, opened, afterCost, State.resumeWeight, State.admits, present, taskWeight]
            · simp [own, opened, afterCost, State.resumeWeight, State.admits, present]
          · simp [own, afterCost, State.undefinedBehaviour, State.resumeWeight, State.admits,
              present]
  | receive socket =>
      have noticed := postCost_noticePosts_le maxConnections s socket
      have read := afterRead_cost maxConnections (s.notice socket) socket (s.noticePosts socket)
        (bufferIoHandler zeroBuffer completion) completion.error
      simp only [State.begin, State.resumeWeight] at read ⊢
      omega
  | call socket call frame =>
      have noticed := postCost_noticePosts_le maxConnections s socket
      simp only [State.begin, State.resumeWeight, afterCost]
      omega
  | await frame => simp [State.begin, State.resumeWeight, afterCost]

theorem act_cost (maxConnections : Nat) (s : State) (frame : Frame) (call : Call) :
    let segment := s.act frame call
    afterCost segment.after + postCost maxConnections segment.posts ≤
      2 * maxConnections + 20 := by
  cases call with
  | start =>
      simp only [State.act, State.start]
      split <;> simp [afterCost, taskWeight]
  | call id call =>
      simp only [State.act, State.callSocket]
      split
      · simp [afterCost]
      · split <;> simp [afterCost]
  | leave =>
      simp only [State.act]
      cases frame.handler with
      | data => simp [State.returned, afterCost, taskWeight]
      | disconnected socket id =>
          simp only [State.returned, State.releaseSocket]
          split
          · split
            · simp [afterCost]
            · simp [raiseOnClosed_cost]
          · simp [afterCost, State.undefinedBehaviour]
      | task | listening | connected | stopped => simp [State.returned, afterCost]
  | stop =>
      simp only [State.act, afterCost, postCost_cons, postCost_nil, taskWeight]
      omega
  | stopClient | runAsync | await | throw => simp [State.act, afterCost, taskWeight]

end Cost

/-! ### The bound -/

private theorem raiseOnClosed_admits {generation : Nat} :
    s.raiseOnClosed.1.admits generation = s.admits generation := by
  unfold State.raiseOnClosed
  split <;> rfl

/-- Only the operations of an acceptor that has been closed or replaced are aborted. -/
theorem aborts_begin {choice : Choice} {entry : Entry Task Operation Completion}
    {generation : Nat}
    (settled : (s.begin choice rest entry).settles (.accept generation) ≠ none)
    (issued : generation < s.nextGeneration) :
    (s.begin choice rest entry).state.admits generation = false := by
  cases entry with
  | task task =>
      cases task with
      | start =>
          simp only [State.begin, State.startListening] at settled ⊢
          split at settled
          next running =>
            rw [if_pos running]
            split at settled
            next opens =>
              rw [if_pos opens]
              simp only [State.admits, Option.any_some, Bool.and_eq_false_iff,
                decide_eq_false_iff_not]
              exact .inr (Nat.ne_of_gt issued)
            · simp at settled
          · simp at settled
      | stop =>
          simp only [State.begin, State.stopServer] at settled ⊢
          split at settled
          next running =>
            rw [if_pos running]
            split at settled
            next acceptor present =>
              rw [raiseOnClosed_admits]
              simp [State.admits, State.log]
            · simp [State.undefinedBehaviour] at settled
          · simp at settled
      | accepted socket =>
          simp only [State.begin, State.onAccepted] at settled
          split at settled
          · split at settled <;> simp [State.connect] at settled
          · simp at settled
      | connected socket =>
          simp only [State.begin, State.raiseConnected] at settled
          split at settled <;> simp [State.undefinedBehaviour] at settled
      | release socket =>
          simp only [State.begin, State.raiseDisconnected] at settled
          split at settled <;> simp [State.undefinedBehaviour] at settled
      | socket socket task =>
          cases task with
          | receive =>
              simp only [State.begin, State.socketTask, State.afterRead] at settled
              split at settled
              · simp at settled
              · split at settled <;> simp at settled
          | start | close | disconnected =>
              simp [State.begin, State.socketTask, State.abortOn] at settled
      | rearm =>
          simp only [State.begin, State.doAccept] at settled
          split at settled
          · split at settled <;> simp [State.undefinedBehaviour] at settled
          · simp at settled
      | stopClient id =>
          simp only [State.begin, State.stopSocket] at settled
          split at settled <;> simp at settled
      | user | listening => simp [State.begin] at settled
  | resume operation completion =>
      cases operation with
      | accept other =>
          simp only [State.begin, State.afterAccept] at settled
          split at settled
          · split at settled
            · split at settled <;> simp at settled
            · simp [State.undefinedBehaviour] at settled
          · simp [State.undefinedBehaviour] at settled
      | receive socket =>
          simp only [State.begin, State.afterRead] at settled
          split at settled <;> simp at settled
      | call | await => simp [State.begin] at settled

private theorem act_settles {frame : Frame} {call : Call} {operation : Operation} :
    (s.act frame call).settles operation = none := by
  cases call with
  | call id call =>
      simp only [State.act, State.callSocket]
      split
      · rfl
      · split <;> rfl
  | leave =>
      simp only [State.act]
      cases frame.handler with
      | disconnected socket id =>
          simp only [State.returned, State.releaseSocket]
          split
          · split <;> rfl
          · rfl
      | data | task | listening | connected | stopped => rfl
  | start | stop | stopClient | runAsync | await | throw => rfl

/-- Each step that the strand of a server takes by itself has been paid for. -/
theorem paysFor_weight (maxConnections : Nat) :
    program.PaysFor (weight maxConnections) (2 * maxConnections + 20)
      (Provided maxConnections) := by
  intro s rest move provided allowed
  cases move with
  | post task =>
      obtain rfl : task = .user := allowed
      simp only [Program.stateAfter, Program.itemsAfter, Program.posts, Move.consumed, Move.isOwn,
        Item.total_cons, weight, taskWeight, zero_add, List.length_nil, Bool.toNat_false,
        Bool.not_false, Bool.toNat_true]
      omega
  | complete operation completion =>
      have own : weight maxConnections s (.waiting operation (some completion)) ≤
          weight maxConnections s (.waiting operation none) + 20 := by
        cases operation with
        | accept generation =>
            simp only [weight, State.resumeWeight]
            split <;> omega
        | receive | call | await => exact Nat.le_add_right _ _
      simp only [Program.stateAfter, program, Program.itemsAfter, Program.posts, Move.consumed,
        Move.isOwn, Item.total_cons, Item.total_add, Item.total_singleton, List.length_nil,
        Bool.toNat_false, Bool.not_false, Bool.toNat_true]
      omega
  | deliver operation completion =>
      have own : weight maxConnections s (.queued (.resume operation completion)) + 1 =
          weight maxConnections s (.waiting operation (some completion)) := by
        cases operation <;> rfl
      simp only [Program.stateAfter, Program.itemsAfter, Program.posts, Move.consumed, Move.isOwn,
        Item.total_cons, Item.total_add, Item.total_singleton, List.length_nil, Bool.toNat_true]
      omega
  | begin choice entry =>
      have step := acceptorStep s rest (.begin choice entry)
      have lighter : Item.total (weight maxConnections (s.begin choice rest entry).state)
            ((s.begin choice rest entry).outstanding rest) +
              (s.begin choice rest entry).posts.length ≤
            (s.begin choice rest entry).cost
                (weight maxConnections (s.begin choice rest entry).state) +
              Item.total (weight maxConnections s) rest :=
        Segment.total_outstanding_le fun item member =>
          weight_settle_le step (provided.issued item (Multiset.mem_cons_of_mem member))
            fun generation settled issued => aborts_begin settled issued
      have paid : afterCost (s.begin choice rest entry).after +
          postCost maxConnections (s.begin choice rest entry).posts + 1 ≤
            weight maxConnections s (.queued entry) := by
        cases entry with
        | task task => exact beginTask_cost choice rest task provided.slots
        | resume operation completion =>
            exact beginResume_cost maxConnections s choice rest operation completion
      rw [cost_eq] at lighter
      simp only [Program.stateAfter, program, Program.itemsAfter, Program.posts, Move.consumed,
        Move.isOwn, Item.total_add, Item.total_singleton, Bool.toNat_true, Bool.not_true,
        Bool.toNat_false]
      omega
  | act frame call =>
      have step := acceptorStep s rest (.act frame call)
      have lighter : Item.total (weight maxConnections (s.act frame call).state)
            ((s.act frame call).outstanding rest) + (s.act frame call).posts.length ≤
          (s.act frame call).cost (weight maxConnections (s.act frame call).state) +
            Item.total (weight maxConnections s) rest :=
        Segment.total_outstanding_le fun item member =>
          weight_settle_le step (provided.issued item (Multiset.mem_cons_of_mem member))
            fun generation settled issued => absurd act_settles settled
      have paid := act_cost maxConnections s frame call
      rw [cost_eq] at lighter
      simp only [Program.stateAfter, program, Program.itemsAfter, Program.posts, Move.consumed,
        Move.isOwn, Item.total_add, Item.total_singleton, Bool.toNat_true, Bool.not_false,
        Bool.toNat_false, weight]
      omega

/-- However clients and users behave, the strand of a server takes at most
`2 * maxConnections + 20` steps by itself for each task that is posted from outside, each
operation that is completed and each thing that user code does.  Left alone, it comes to
rest. -/
theorem bounded_work {maxConnections : Nat} {actions : List ServerAction}
    (legal : program.system.Legal (initial maxConnections) actions) :
    actions.countP StrandAction.isOwn ≤
      (2 * maxConnections + 20) * actions.countP (fun action => !action.isOwn) := by
  have anything : program.system.EveryStep (Strand.During fun _ _ _ => True)
      (initial maxConnections) actions :=
    Strand.everyStep_of_forall fun _ _ _ => trivial
  have bound := Strand.own_steps_le preserves_provided (paysFor_weight maxConnections)
    (Provided.initially maxConnections) legal anything
  have start : (initial maxConnections).budget (weight maxConnections) = 0 := rfl
  rw [start, Nat.zero_add] at bound
  exact bound

theorem bounded_work_refusedConnection :
    refusedConnection.countP StrandAction.isOwn ≤
      (2 * 1 + 20) * refusedConnection.countP (fun action => !action.isOwn) :=
  bounded_work (by decide)

end TcpServer

end FlatAsync
