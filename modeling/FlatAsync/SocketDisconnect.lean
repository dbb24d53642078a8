import FlatAsync.DataStream

/-!
# One disconnect for each connection

The end of a connection is noticed by the call that finds the socket closed
after it has waited, or by the read loop when its read fails.  A call marks the
socket as stopped and posts the task that raises `on_disconnected_`; the read
loop raises it on the spot and leaves `stopped_` as it is.

So the event is raised once for a connection as long as no call finds the
socket closed and unmarked after the read loop has raised it.
-/

namespace FlatAsync

namespace DataStream

/-- A socket begins to connect, or raises `on_disconnected_`. -/
inductive SocketEvent
  | connecting
  | disconnected
  deriving DecidableEq, Repr

/-- The event has been raised so often since the last `Connect`. -/
def raisedSinceConnect (seen : List SocketEvent) : Nat :=
  seen.foldl (fun raised event =>
    match event with
    | .connecting => 0
    | .disconnected => raised + 1) 0

/-- The entry raises `on_disconnected_`: the task that is posted for it, or the
read loop in which a read has failed. -/
def State.raises (s : State) : Entry Task Operation Completion → Bool
  | .task (.socket .disconnected) => true
  | .resume .receive completion =>
      (s.begin (.resume .receive completion)).after = .run .onDisconnected
  | _ => false

def State.shows (s : State) : Move Task Operation Completion Frame Unit Call → List SocketEvent
  | .act _ .connect => if s.socket.isOpen then [] else [.connecting]
  | .begin _ entry => if s.raises entry then [.disconnected] else []
  | _ => []

/-- A socket, its users and the record of its disconnects. -/
def recorded : ActionSystem (Strand State Task Operation Completion Frame × List SocketEvent)
    (StrandAction Task Completion Unit Call) :=
  program.system.recorded (Strand.observed State.shows)

instance (s : Strand State Task Operation Completion Frame × List SocketEvent)
    (action : StrandAction Task Completion Unit Call) : Decidable (recorded.enabled s action) :=
  inferInstanceAs (Decidable ((program.system.recorded _).enabled s action))

/-- The task that raises `on_disconnected_` waits in the queue. -/
def isDisconnected : Work → Bool
  | .queued (.task (.socket .disconnected)) => true
  | _ => false

/-- The disconnects since the last `Connect`, those included that are still to
be raised. -/
def disconnects (seen : List SocketEvent) (items : Multiset Work) : Nat :=
  raisedSinceConnect seen + Item.count isDisconnected items

/-- A call that has waited finds the socket closed and unmarked, or `Start` is
called, only when there has been no disconnect since the last `Connect`.
`Connect` is not called while both a disconnect and the read loop of the
previous connection are left. -/
def NoticedOnce (seen : List SocketEvent) (s : State) (rest : Multiset Work) :
    Move Task Operation Completion Frame Unit Call → Prop
  | .begin _ (.resume (.call ..) _) | .begin _ (.resume (.connect _) _) =>
      s.socket.closedUnnoticed = true → disconnects seen rest = 0
  | .act _ .start => s.socket.isOpen = true → disconnects seen rest = 0
  | .act frame .connect =>
      s.socket.isOpen = false →
        Item.count isDisconnected rest = 0 ∨ Item.count inLoop (.running frame ::ₘ rest) = 0
  | _ => True

instance (seen : List SocketEvent) (s : State) (rest : Multiset Work) :
    ∀ move, Decidable (NoticedOnce seen s rest move)
  | .begin _ (.resume (.call ..) _) | .begin _ (.resume (.connect _) _)
  | .act _ .start => inferInstanceAs (Decidable (_ → _))
  | .act _ .connect => inferInstanceAs (Decidable (_ → _ ∨ _))
  | .begin _ (.task _) | .begin _ (.resume .receive _) | .begin _ (.resume (.await _) _)
  | .act _ .stop | .act _ (.call _) | .act _ .runAsync | .act _ .await | .act _ .leave
  | .act _ .throw | .post _ | .complete .. | .deliver .. => inferInstanceAs (Decidable True)

/-- An unmarked socket whose disconnect is raised or due has no read loop. -/
structure DisconnectInvariant (seen : List SocketEvent) (s : State) (items : Multiset Work) :
    Prop where
  once : disconnects seen items ≤ 1
  ceased : s.socket.stopped = false → 0 < disconnects seen items → Item.count inLoop items = 0
  single : Item.count inLoop items ≤ 1
  closed : s.socket.stopped = true → s.socket.isOpen = false

theorem blind_isDisconnected : Item.Blind isDisconnected :=
  fun _ _ => rfl

private theorem stopped_of_noticed {socket : TcpSocket}
    (noticed : socket.closedUnnoticed = false) :
    (socket.stopped || !socket.isOpen) = socket.stopped := by
  cases opened : socket.isOpen <;> cases stopped : socket.stopped <;>
    simp_all [TcpSocket.closedUnnoticed]

section Record

variable {seen : List SocketEvent}

@[simp]
theorem raisedSinceConnect_connecting : raisedSinceConnect (seen ++ [.connecting]) = 0 := by
  simp [raisedSinceConnect]

@[simp]
theorem raisedSinceConnect_disconnected :
    raisedSinceConnect (seen ++ [.disconnected]) = raisedSinceConnect seen + 1 := by
  simp [raisedSinceConnect]

end Record

namespace State

variable {s : State} {completion : Completion}

private theorem received_socket (s : State) (completion : Completion) :
    (s.begin (.resume .receive completion)).state.socket.stopped =
        (s.socket.stopped || !s.socket.isOpen) ∧
      (s.begin (.resume .receive completion)).state.socket.isOpen = s.socket.isOpen := by
  have same : (s.begin (.resume .receive completion)).state.socket =
      s.socket.afterOperation.1 := by
    unfold begin afterRead
    dsimp only
    split <;> rfl
  rw [same]
  exact ⟨TcpSocket.afterOperation_stopped, TcpSocket.afterOperation_isOpen⟩

private theorem received_yield (s : State) (completion : Completion) :
    (s.begin (.resume .receive completion)).yield isDisconnected =
      s.socket.closedUnnoticed.toNat := by
  have posts : s.socket.afterOperation.2.countP (fun task =>
      isDisconnected (.queued (.task (.socket task)))) = s.socket.closedUnnoticed.toNat := by
    simp [isDisconnected]
  unfold begin afterRead
  dsimp only
  split
  · cases s.notice.socket.stopped <;> simp [Segment.yield, Function.comp_def, isDisconnected]
  · cases s.notice.socket.stopped <;> simp [Segment.yield, Function.comp_def, isDisconnected]
  · simp [Segment.yield, Function.comp_def, isDisconnected]

/-- The read loop raises the event of an unmarked socket only, and ends. -/
theorem after_of_raises (raised : s.raises (.resume .receive completion) = true) :
    (s.begin (.resume .receive completion)).after = .run .onDisconnected := by
  simpa [raises] using raised

private theorem unmarked_of_raises (raised : s.raises (.resume .receive completion) = true) :
    (s.begin (.resume .receive completion)).state.socket.stopped = false := by
  have ends := after_of_raises raised
  unfold begin afterRead at ends ⊢
  dsimp only at ends ⊢
  split at ends
  · cases stopped : s.notice.socket.stopped <;> simp_all
  · cases stopped : s.notice.socket.stopped <;> simp_all
  · simp at ends

private theorem yield_of_raises (raised : s.raises (.resume .receive completion) = true) :
    (s.begin (.resume .receive completion)).yield inLoop = 0 := by
  have ends := after_of_raises raised
  have posts : (s.begin (.resume .receive completion)).posts.countP
      (fun task => inLoop (.queued (.task task))) = 0 := by
    unfold begin afterRead
    dsimp only
    split <;> simp [Function.comp_def, Task.inLoop]
  rw [Segment.yield, ends, posts]
  rfl

end State

namespace DisconnectInvariant

variable {seen shown : List SocketEvent} {s : State} {item : Work} {rest : Multiset Work}
variable {segment : Stretch} {entry : Entry Task Operation Completion}
variable {completion : Completion} {frame : Frame} {call : Call}

/-- A stretch of code that raises nothing and posts nothing that does, or takes
up a task that is due. -/
theorem keep (bag : DisconnectInvariant seen s (item ::ₘ rest))
    (stopped : segment.state.socket.stopped = s.socket.stopped)
    (opened : segment.state.socket.isOpen = true → s.socket.isOpen = true)
    (loops : segment.yield inLoop ≤ (inLoop item).toNat)
    (number : raisedSinceConnect (seen ++ shown) + segment.yield isDisconnected =
      raisedSinceConnect seen + (isDisconnected item).toNat) :
    DisconnectInvariant (seen ++ shown) segment.state (segment.outstanding rest) := by
  obtain ⟨once, ceased, single, closed⟩ := bag
  simp only [disconnects, Item.count_cons] at once ceased single
  have due : disconnects (seen ++ shown) (segment.outstanding rest) =
      raisedSinceConnect seen + (Item.count isDisconnected rest + (isDisconnected item).toNat) := by
    rw [disconnects, Segment.count_outstanding blind_isDisconnected]
    omega
  have left : Item.count inLoop (segment.outstanding rest) ≤
      Item.count inLoop rest + (inLoop item).toNat := by
    rw [Segment.count_outstanding blind_inLoop]
    omega
  refine ⟨by omega, fun unmarked some => ?_, by omega, fun marked => ?_⟩
  · have none := ceased (stopped ▸ unmarked) (by omega)
    omega
  · cases open' : segment.state.socket.isOpen with
    | false => rfl
    | true =>
        have shut := closed (stopped ▸ marked)
        rw [opened open'] at shut
        exact shut

/-- The first disconnect of a connection: the socket is marked, or the loop that
raises it is over. -/
theorem first (bag : DisconnectInvariant seen s (item ::ₘ rest))
    (none : disconnects seen rest = 0)
    (loops : segment.yield inLoop ≤ (inLoop item).toNat)
    (number : raisedSinceConnect (seen ++ shown) + segment.yield isDisconnected =
      raisedSinceConnect seen + 1)
    (closed : segment.state.socket.stopped = true → segment.state.socket.isOpen = false)
    (ceased : segment.state.socket.stopped = false →
      segment.yield inLoop + Item.count inLoop rest = 0) :
    DisconnectInvariant (seen ++ shown) segment.state (segment.outstanding rest) := by
  have single := bag.single
  rw [Item.count_cons] at single
  rw [disconnects] at none
  refine ⟨?_, fun unmarked _ => ?_, ?_, closed⟩
  · rw [disconnects, Segment.count_outstanding blind_isDisconnected]
    omega
  · rw [Segment.count_outstanding blind_inLoop]
    exact ceased unmarked
  · rw [Segment.count_outstanding blind_inLoop]
    omega

/-- While the read loop of an unmarked socket is there, nothing has been raised. -/
theorem none_of_loop (bag : DisconnectInvariant seen s (item ::ₘ rest))
    (unmarked : s.socket.stopped = false) (loop : inLoop item = true) :
    disconnects seen rest = 0 := by
  have ceased := bag.ceased unmarked
  simp only [disconnects, Item.count_cons, loop, Bool.toNat_true] at ceased ⊢
  omega

theorem called {operation : Operation}
    (bag : DisconnectInvariant seen s (.queued (.resume operation completion) ::ₘ rest))
    (loops : inLoop (.running frame) = operation.inLoop)
    (noticed : s.socket.closedUnnoticed = true → disconnects seen rest = 0) :
    DisconnectInvariant (seen ++ [])
      s.notice
      (({ state := s.notice
          posts := s.socket.afterOperation.2.map .socket
          after := .run frame } : Stretch).outstanding rest) := by
  let segment : Stretch :=
    { state := s.notice
      posts := s.socket.afterOperation.2.map .socket
      after := .run frame }
  change DisconnectInvariant (seen ++ []) segment.state (segment.outstanding rest)
  have kept : segment.yield inLoop ≤ (inLoop (.queued (.resume operation completion))).toNat := by
    rw [inLoop_resume, ← loops]
    simp [segment, Segment.yield, Task.inLoop]
  have stopped : segment.state.socket.stopped = (s.socket.stopped || !s.socket.isOpen) :=
    TcpSocket.afterOperation_stopped
  have opened : segment.state.socket.isOpen = s.socket.isOpen := TcpSocket.afterOperation_isOpen
  have posts : segment.yield isDisconnected = s.socket.closedUnnoticed.toNat := by
    simp [segment, Segment.yield, isDisconnected, Function.comp_def]
  cases unnoticed : s.socket.closedUnnoticed with
  | false =>
      exact bag.keep (stopped.trans (stopped_of_noticed unnoticed)) (by simp [opened])
        kept (by simp [posts, unnoticed, isDisconnected])
  | true =>
      obtain ⟨shut, unmarked⟩ : s.socket.isOpen = false ∧ s.socket.stopped = false := by
        simpa [TcpSocket.closedUnnoticed] using unnoticed
      refine bag.first (noticed unnoticed) kept (by simp [posts, unnoticed]) ?_ ?_
      · simp [opened, shut]
      · simp [stopped, shut]

theorem received
    (bag : DisconnectInvariant seen s (.queued (.resume .receive completion) ::ₘ rest)) :
    DisconnectInvariant (seen ++ s.shows (.begin () (.resume .receive completion)))
      (s.begin (.resume .receive completion)).state
      ((s.begin (.resume .receive completion)).outstanding rest) := by
  have loops := s.begin_loops (.resume .receive completion)
  have alone : Item.count inLoop rest = 0 := by
    have single := bag.single
    simpa using single
  obtain ⟨stopped, opened⟩ := s.received_socket completion
  have posts := s.received_yield completion
  cases unnoticed : s.socket.closedUnnoticed with
  | true =>
      obtain ⟨shut, unmarked⟩ : s.socket.isOpen = false ∧ s.socket.stopped = false := by
        simpa [TcpSocket.closedUnnoticed] using unnoticed
      have marked : (s.begin (.resume .receive completion)).state.socket.stopped = true := by
        simp [stopped, shut]
      have silent : s.raises (.resume .receive completion) = false :=
        Bool.eq_false_of_not_eq_true fun raised => by
          simp [State.unmarked_of_raises raised] at marked
      refine bag.first (bag.none_of_loop unmarked rfl) loops ?_ ?_ ?_
      · simp [State.shows, silent, posts, unnoticed]
      · simp [opened, shut]
      · simp [marked]
  | false =>
      have kept : (s.begin (.resume .receive completion)).state.socket.stopped =
          s.socket.stopped := by
        rw [stopped]
        exact stopped_of_noticed unnoticed
      cases raised : s.raises (.resume .receive completion) with
      | true =>
          have unmarked := State.unmarked_of_raises raised
          refine bag.first (bag.none_of_loop (kept ▸ unmarked) rfl) loops ?_ ?_ fun _ => ?_
          · simp [State.shows, raised, posts, unnoticed]
          · simp [unmarked]
          · rw [alone, State.yield_of_raises raised]
      | false =>
          refine bag.keep kept (by simp [opened]) loops ?_
          simp [State.shows, raised, posts, unnoticed, isDisconnected]

theorem begin
    (bag : DisconnectInvariant seen s (.queued entry ::ₘ rest))
    (noticed : NoticedOnce seen s rest (.begin () entry)) :
    DisconnectInvariant (seen ++ s.shows (.begin () entry)) (s.begin entry).state
      ((s.begin entry).outstanding rest) := by
  have loops := s.begin_loops entry
  cases entry with
  | task task =>
      cases task with
      | user =>
          apply bag.keep rfl id loops
          simp [State.begin, State.shows, State.raises, Segment.yield, isDisconnected]
      | socket task =>
          cases task with
          | receive =>
              cases opened : s.socket.isOpen with
              | true =>
                  refine bag.keep ?_ ?_ loops ?_ <;>
                    simp [State.begin, opened, State.shows, State.raises, Segment.yield, isDisconnected]
              | false =>
                  have state := State.begin_receive_closed opened
                  refine bag.keep (by rw [state]) (by rw [state]; exact id) loops ?_
                  simp [State.begin, opened, State.afterRead, ErrorType.readOutcome, State.shows,
                    State.raises, Segment.yield, isDisconnected]
          | start =>
              refine bag.keep rfl id loops ?_
              simp [State.begin, State.shows, State.raises, Segment.yield, Function.comp_def,
                isDisconnected]
          | close =>
              refine bag.keep rfl (by simp [State.begin, TcpSocket.close]) loops ?_
              simp [State.begin, State.shows, State.raises, Segment.yield, isDisconnected]
          | disconnected =>
              refine bag.keep rfl id loops ?_
              simp [State.begin, State.shows, State.raises, Segment.yield, isDisconnected]
  | resume operation completion =>
      cases operation with
      | receive => exact bag.received
      | call | connect => exact bag.called rfl noticed
      | await frame =>
          refine bag.keep rfl id loops ?_
          simp [State.begin, State.shows, State.raises, Segment.yield, isDisconnected]

theorem act
    (bag : DisconnectInvariant seen s (.running frame ::ₘ rest))
    (oneLoop : OneLoop s rest (.act frame call)) (noticed : NoticedOnce seen s rest (.act frame call)) :
    DisconnectInvariant (seen ++ s.shows (.act frame call)) (s.act frame call).state
      ((s.act frame call).outstanding rest) := by
  have loops := s.act_loops frame call
  cases call with
  | start =>
      cases opened : s.socket.isOpen with
      | false =>
          refine bag.keep rfl id (by simpa [opened] using loops) ?_
          simp [State.act, opened, State.shows, Segment.yield, Function.comp_def, isDisconnected]
      | true =>
          -- A new loop, on a connection without a disconnect.
          have none := noticed opened
          have alone := oneLoop opened
          have due : (s.act frame .start).yield isDisconnected = 0 := by
            simp [State.act, Segment.yield, Function.comp_def, isDisconnected]
          rw [disconnects] at none
          rw [Item.count_cons] at alone
          simp only [opened, decide_true, Bool.and_self, Bool.toNat_true] at loops
          refine ⟨?_, ?_, ?_, bag.closed⟩
          · rw [disconnects, Segment.count_outstanding blind_isDisconnected, due]
            simp only [State.shows, List.append_nil]
            omega
          · rw [disconnects, Segment.count_outstanding blind_isDisconnected, due]
            simp only [State.shows, List.append_nil]
            omega
          · rw [Segment.count_outstanding blind_inLoop]
            simp only [inLoop] at alone
            omega
  | connect =>
      cases opened : s.socket.isOpen with
      | true =>
          refine bag.keep ?_ ?_ ?_ ?_ <;>
            simp [State.act, opened, State.shows, Segment.yield, isDisconnected]
      | false =>
          have left := noticed opened
          obtain ⟨once, ceased, single, closed⟩ := bag
          simp only [disconnects, Item.count_cons] at once ceased single left
          have number : disconnects (seen ++ s.shows (.act frame .connect))
              ((s.act frame .connect).outstanding rest) = Item.count isDisconnected rest := by
            rw [disconnects, Segment.count_outstanding blind_isDisconnected]
            simp [State.shows, opened, State.act, Segment.yield, isDisconnected]
          have still : Item.count inLoop ((s.act frame .connect).outstanding rest) =
              Item.count inLoop rest + frame.inLoop.toNat := by
            rw [Segment.count_outstanding blind_inLoop]
            simp [State.act, opened, Segment.yield, Nat.add_comm]
          simp only [inLoop] at left single
          refine ⟨by omega, fun _ some => by omega, by omega, fun marked => ?_⟩
          simp [State.act, opened, TcpSocket.connect] at marked
  | stop | runAsync | await | throw =>
      refine bag.keep rfl id (by simpa using loops) ?_
      simp [State.act, State.shows, Segment.yield, Function.comp_def, isDisconnected]
  | call call =>
      cases skips : s.socket.skips call <;>
        refine bag.keep ?_ ?_ (by simpa using loops) ?_ <;>
          simp [State.act, skips, State.shows, Segment.yield, isDisconnected]
  | leave =>
      cases frame <;> refine bag.keep rfl id (by simpa using loops) ?_ <;>
        simp [State.act, State.returned, State.shows, Segment.yield, isDisconnected]

end DisconnectInvariant

private theorem disconnectInvariant_preserved (seen : List SocketEvent) (s : State)
    (rest : Multiset Work) (move : Move Task Operation Completion Frame Unit Call)
    (bag : DisconnectInvariant seen s (move.consumed + rest)) (allowed : program.Allowed s move)
    (condition : OneLoop s rest move ∧ NoticedOnce seen s rest move) :
    DisconnectInvariant (seen ++ s.shows move) (program.stateAfter s rest move)
      (program.itemsAfter s rest move) := by
  cases move with
  | post task =>
      obtain rfl : task = .user := allowed
      rw [Move.consumed, zero_add] at bag
      obtain ⟨once, ceased, single, closed⟩ := bag
      simp only [disconnects] at once ceased
      refine ⟨?_, ?_, ?_, closed⟩
      · simpa [disconnects, State.shows, Program.itemsAfter, isDisconnected] using once
      · intro unmarked
        simpa [disconnects, State.shows, Program.itemsAfter, isDisconnected, Task.inLoop] using
          ceased unmarked
      · simpa [Program.itemsAfter, Task.inLoop] using single
  | complete operation completion =>
      obtain ⟨once, ceased, single, closed⟩ := bag
      simp only [disconnects, Move.consumed, Multiset.singleton_add] at once ceased single
      have same : (s.completed operation completion).socket = s.socket := by
        cases operation <;> rfl
      refine ⟨?_, ?_, ?_, ?_⟩
      · simpa [disconnects, State.shows, Program.itemsAfter, isDisconnected] using once
      · intro unmarked
        simpa [disconnects, State.shows, Program.itemsAfter, isDisconnected] using
          ceased (same ▸ unmarked)
      · simpa [Program.itemsAfter] using single
      · change (s.completed operation completion).socket.stopped = true → _
        rw [same]
        exact fun marked => same ▸ closed marked
  | deliver operation completion =>
      obtain ⟨once, ceased, single, closed⟩ := bag
      simp only [disconnects, Move.consumed, Multiset.singleton_add] at once ceased single
      refine ⟨?_, ?_, ?_, closed⟩
      · simpa [disconnects, State.shows, Program.itemsAfter, isDisconnected] using once
      · intro unmarked
        simpa [disconnects, State.shows, Program.itemsAfter, isDisconnected] using ceased unmarked
      · simpa [Program.itemsAfter] using single
  | begin choice entry => exact bag.begin condition.2
  | act frame call => exact bag.act condition.1 condition.2

/-- In a run with one loop at a time `on_disconnected_` is raised at most once
between two `Connect`s, if the calls that find the socket closed and unmarked, and
those of `Start` on an open socket, come before every other disconnect of the
connection, and no `Connect` leaves both a disconnect and a read loop behind. -/
theorem disconnected_once {opened : Bool}
    {actions : List (StrandAction Task Completion Unit Call)}
    (legal : recorded.Legal (initial { isOpen := opened }, []) actions)
    (oneLoop : recorded.EveryStep (fun s => s.1.During OneLoop) (initial { isOpen := opened }, [])
      actions)
    (noticed : recorded.EveryStep (fun s => s.1.During (NoticedOnce s.2))
      (initial { isOpen := opened }, []) actions) :
    recorded.EveryState (fun s => raisedSinceConnect s.2 ≤ 1) (initial { isOpen := opened }, [])
      actions := by
  have initially : DisconnectInvariant [] (initial { isOpen := opened }).state
      (initial { isOpen := opened }).items :=
    ⟨by simp [disconnects, raisedSinceConnect, initial, Strand.items],
      fun _ _ => by simp [initial, Strand.items], by simp [initial, Strand.items],
      fun marked => by simp [initial] at marked⟩
  have steps := (oneLoop.and noticed).imp fun s action both =>
    Strand.During.and both.1 both.2
  have states := Strand.everyState_of_record disconnectInvariant_preserved initially legal steps
  refine states.imp fun s bag => ?_
  have once := bag.once
  rw [disconnects] at once
  omega

/-- The peer closes the connection while another task writes; then a task stops
the socket. -/
def lateStop : List (StrandAction Task Completion Unit Call) :=
  [.post .user, .begin (), .act .start, .flush, .act .leave, .post .user, .begin (), .begin (),
    .act (.call (.write [104, 105])), .complete 0 ⟨.eof, []⟩, .deliver 0, .begin (), .act .leave,
    .post .user, .begin (), .act .stop, .flush, .act .leave, .begin (), .deliver 0, .begin (),
    .flush, .act .leave, .begin ()]

/-- After `lateStop` the event has been raised twice. -/
theorem disconnected_twice_lateStop :
    recorded.Legal (initial { isOpen := true }, []) lateStop ∧
      recorded.EveryStep (fun s => s.1.During OneLoop) (initial { isOpen := true }, [])
        lateStop ∧
      ¬ recorded.EveryState (fun s => raisedSinceConnect s.2 ≤ 1)
        (initial { isOpen := true }, []) lateStop := by
  refine ⟨by decide, by decide, fun once => ?_⟩
  have all := once.last
  exact absurd all (by decide)

/-- The same run with the stop before the end of the stream. -/
def earlyStop : List (StrandAction Task Completion Unit Call) :=
  [.post .user, .begin (), .act .start, .flush, .act .leave, .post .user, .begin (), .begin (),
    .act (.call (.write [104, 105])), .post .user, .begin (), .act .stop, .flush, .act .leave,
    .begin (), .deliver 1, .begin (), .flush, .act .leave, .begin (), .act .leave, .deliver 0,
    .begin ()]

theorem disconnected_once_earlyStop :
    recorded.EveryState (fun s => raisedSinceConnect s.2 ≤ 1) (initial { isOpen := true }, [])
      earlyStop :=
  disconnected_once (by decide) (by decide) (by decide)

end DataStream

end FlatAsync
