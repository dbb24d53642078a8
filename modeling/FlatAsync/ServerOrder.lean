import FlatAsync.ConnectionSteps
import FlatAsync.AcceptChain

/-!
# The order of a connection's events

The tasks of a connection stand in the queue in the order of its life: the one
that announces it, the first read, and those that report its end.  As long as
only one end is reported, and no finished read is still to be handled when it
is, the events of the connection come in this order, too.
-/

namespace FlatAsync

namespace TcpServer

/-- The end of a connection is reported only once, and when it is, no read of
its data is left to be handled. -/
def Orderly : Moment → Connection → Prop
  | .returns, c => c.socket.closedUnnoticed = true → c.disconnects = 0
  | .raises, c => c.work .read = 0
  | _, _ => True

instance : ∀ moment c, Decidable (Orderly moment c)
  | .returns, c =>
      inferInstanceAs (Decidable (c.socket.closedUnnoticed = true → c.disconnects = 0))
  | .raises, c => inferInstanceAs (Decidable (c.work .read = 0))
  | .accepts _, _ | .reads, _ | .restarts, _ | .dataThrows, _ | .disconnectedThrows, _ =>
      inferInstanceAs (Decidable True)

/-- A call that returns reports the end of the connection only if nobody has. -/
def NoticedOnce : Moment → Connection → Prop
  | .returns, c => c.socket.closedUnnoticed = true → c.disconnects = 0
  | _, _ => True

instance : ∀ moment c, Decidable (NoticedOnce moment c)
  | .returns, c =>
      inferInstanceAs (Decidable (c.socket.closedUnnoticed = true → c.disconnects = 0))
  | .accepts _, _ | .reads, _ | .restarts, _ | .raises, _ | .dataThrows, _
  | .disconnectedThrows, _ => inferInstanceAs (Decidable True)

theorem Orderly.noticedOnce {moment : Moment} {c : Connection} (orderly : Orderly moment c) :
    NoticedOnce moment c := by
  cases moment with
  | returns => exact orderly
  | accepts | reads | restarts | raises | dataThrows | disconnectedThrows => trivial

/-- The first read follows the announcement of the connection, and the report of
its end follows both. -/
def InTurn : Moment → Connection → Prop
  | .reads, c => c.work .connected = 0
  | .raises, c => c.work .connected = 0 ∧ c.work .receive = 0
  | _, _ => True

namespace Connection

/-- The end of the connection is reported once and for good. -/
structure Reported (c : Connection) : Prop where
  once : c.disconnects ≤ 1
  ceased : c.socket.stopped = false → 0 < c.disconnects → c.loop = 0
  freeing : c.work .freeing ≤ c.raised
  slot : c.socket.id ≠ 0 → c.raised = 0 ∨ 0 < c.work .freeing → c.slot = true
  quiet : 0 < c.raised → c.work .receive = 0 ∧ c.work .reading = 0 ∧ c.work .read = 0
  announced : 0 < c.work .connected → c.raised = 0 ∧ c.loop = c.work .receive

variable {c d : Connection} {moment : Option Moment}

/-- The end of the connection is reported no more than once, and the read loop
is over when it reports the end itself. -/
def Ended (c : Connection) : Prop :=
  c.disconnects ≤ 1 ∧ (c.socket.stopped = false → 0 < c.disconnects → c.loop = 0)

/-- The end of the connection is reported once, and until this is done the
connection has its slot. -/
structure Held (c : Connection) : Prop where
  ended : c.Ended
  freeing : c.work .freeing ≤ c.raised
  slot : c.socket.id ≠ 0 → c.raised = 0 ∨ 0 < c.work .freeing → c.slot = true

theorem Reported.held (reported : c.Reported) : c.Held :=
  ⟨⟨reported.once, reported.ceased⟩, reported.freeing, reported.slot⟩

/-- Who goes on in the read loop and finds the socket closed is the first to
report it. -/
theorem Ended.first (ended : c.Ended) (loop : 0 < c.loop)
    (unnoticed : c.socket.closedUnnoticed = true) : c.disconnects = 0 := by
  have stopped : c.socket.stopped = false := by
    cases stopped : c.socket.stopped with
    | false => rfl
    | true => simp [TcpSocket.closedUnnoticed, stopped] at unnoticed
  refine Nat.eq_zero_of_not_pos fun some => ?_
  have ceased := ended.2 stopped some
  omega

theorem Ended.keep (ended : c.Ended) (socket : d.socket.stopped = c.socket.stopped)
    (disconnects : d.disconnects ≤ c.disconnects) (loop : d.loop ≤ c.loop) : d.Ended := by
  refine ⟨disconnects.trans ended.1, fun stopped some => ?_⟩
  have ceased := ended.2 (socket ▸ stopped) (some.trans_le disconnects)
  omega

theorem Ended.notice (ended : c.Ended)
    (first : c.socket.closedUnnoticed = true → c.disconnects = 0) : c.notice.Ended := by
  cases unnoticed : c.socket.closedUnnoticed with
  | false =>
      refine ended.keep ?_ ?_ ?_
      · simp [TcpSocket.afterOperation, unnoticed]
      · simp [disconnects, unnoticed]
      · simp [loop]
  | true =>
      have none := first unnoticed
      refine ⟨?_, fun stopped => ?_⟩
      · simp [disconnects, unnoticed] at none ⊢
        omega
      · simp [TcpSocket.afterOperation, unnoticed] at stopped

private theorem ended_of_none (none : c.disconnects = 0) : c.Ended :=
  ⟨none.trans_le (Nat.zero_le 1), fun _ some => absurd none some.ne'⟩

theorem Ended.step (sound : c.Sound) (ended : c.Ended) (step : Step c moment d)
    (noticed : ∀ here, moment = some here → NoticedOnce here c) : d.Ended := by
  have idle := sound.unregistered
  have single := sound.single
  have first := ended.first
  cases step with
  | @returns c =>
      have before : c.Ended := ended.keep rfl (by simp [disconnects]) (by simp [loop])
      refine before.notice fun unnoticed => ?_
      simpa [disconnects] using noticed _ rfl unnoticed
  | @received c =>
      refine (ended.notice (first (by simp [loop]))).keep rfl ?_ ?_
      · simp [disconnects]
      · simp [loop]
        omega
  | @ends c number =>
      have reads : 0 < (c.put .failed).notice.loop := by
        simp [loop]
      have noticed := ended.notice (first (by simp [loop]))
      cases stopped : c.notice.socket.stopped with
      | true =>
          refine noticed.keep rfl ?_ ?_
          · simp [disconnects]
          · simp [loop]
      | false =>
          have none : (c.put .failed).notice.disconnects = 0 := by
            refine Nat.eq_zero_of_not_pos fun some => ?_
            have ceased := noticed.2 stopped some
            omega
          have grows : ((c.notice.add .release 1).add .close number).disconnects =
              (c.put .failed).notice.disconnects + 1 := by
            simp [disconnects]
            omega
          refine ⟨grows.trans_le (by rw [none]), fun _ _ => ?_⟩
          simp [loop] at single ⊢
          omega
  | accepted new | ignored new =>
      refine ended_of_none ?_
      simpa [disconnects] using (idle (by simp [new])).2.1
  | registered new =>
      refine ended_of_none ?_
      simpa [disconnects, register] using (idle new).2.1
  | @restarts c =>
      have binary := Bool.toNat_le c.socket.isOpen
      refine ended.keep rfl ?_ ?_
      · simp [disconnects]
      · simp [loop]
        omega
  | closes =>
      refine ended.keep rfl ?_ ?_
      · simp [disconnects, close, Place.aborted]
      · simp [loop, close, Place.aborted]
        omega
  | other | refused | dropped | connected | reads | skips | fails | succeeds | handled
  | dataThrows | disconnected | raises | freed | disconnectedThrows | calls | stops =>
      refine ended.keep rfl ?_ ?_
      · simp [disconnects] <;> omega
      · simp [loop] <;> omega

/-- A reported connection is not read from any more, and one that has not been
announced yet has not been read from. -/
def Staged (c : Connection) : Prop :=
  (0 < c.raised → c.work .receive = 0 ∧ c.work .reading = 0 ∧ c.work .read = 0) ∧
    (0 < c.work .connected → c.raised = 0 ∧ c.loop = c.work .receive)

theorem Reported.staged (reported : c.Reported) : c.Staged :=
  ⟨reported.quiet, reported.announced⟩

theorem Reported.raised_of_open (sound : c.Sound) (reported : c.Reported) (loop : 0 < c.loop)
    (opened : c.socket.isOpen = true) : c.raised = 0 := by
  have stopped : c.socket.stopped = false := by
    cases stopped : c.socket.stopped with
    | false => rfl
    | true => simp [sound.stopped stopped] at opened
  refine Nat.eq_zero_of_not_pos fun some => ?_
  have ceased := reported.ceased stopped (by unfold disconnects; omega)
  omega

theorem Reported.reading_of_release (sound : c.Sound) (reported : c.Reported)
    (due : 0 < c.work .release) : c.work .reading = 0 := by
  refine Nat.eq_zero_of_not_pos fun reads => ?_
  have opened := sound.reading reads
  cases stopped : c.socket.stopped with
  | true => simp [sound.stopped stopped] at opened
  | false =>
      have ceased := reported.ceased stopped (by unfold disconnects; omega)
      simp only [loop] at ceased
      omega

theorem Staged.step (sound : c.Sound) (reported : c.Reported) (step : Step c moment d)
    (orderly : ∀ here, moment = some here → Orderly here c)
    (inTurn : ∀ here, moment = some here → InTurn here c) : d.Staged := by
  obtain ⟨quiet, announced⟩ := reported.staged
  have idle := sound.unregistered
  have reading := reported.reading_of_release sound
  have raised := reported.raised_of_open sound
  cases step with
  | accepted new | ignored new =>
      have unused := idle (by simp [new])
      simp [Staged, loop, disconnects] at *
      omega
  | registered new =>
      have unused := idle new
      simp [Staged, loop, disconnects, register] at *
      omega
  | @restarts c =>
      have binary := Bool.toNat_le c.socket.isOpen
      cases opened : c.socket.isOpen with
      | false =>
          simp [Staged, loop] at *
          omega
      | true =>
          have none := raised (by simp [loop]) opened
          simp [Staged, loop] at *
          omega
  | reads | skips =>
      have first : _ = 0 := inTurn _ rfl
      simp [Staged, loop] at *
      omega
  | raises =>
      have first := inTurn _ rfl
      have read := orderly _ rfl
      have idle := reading (by simp)
      simp only [InTurn, Orderly] at first read
      simp [Staged, loop] at *
      omega
  | closes =>
      simp [Staged, loop, close, Place.aborted] at *
      omega
  | other | refused | dropped | connected | fails | succeeds | received | ends | handled
  | dataThrows | disconnected | freed | disconnectedThrows | calls | returns | stops =>
      simp [Staged, loop] at *
      omega

/-- The slot is held until the subscribers to the disconnect have returned. -/
theorem Held.slot_step (held : c.Held) (step : Step c moment d) :
    d.socket.id ≠ 0 → d.raised = 0 ∨ 0 < d.work .freeing → d.slot = true := by
  obtain ⟨⟨once, -⟩, freeing, slot⟩ := held
  cases step with
  | accepted new | ignored new =>
      intro registered
      simp at registered
  | registered => exact fun _ _ => rfl
  | raises | disconnectedThrows =>
      intro registered held
      refine slot registered ?_
      simp [disconnects] at * <;> omega
  | freed =>
      intro registered held
      simp [disconnects] at *
      omega
  | closes => simpa [close, TcpSocket.close, Place.aborted] using slot
  | other | refused | dropped | connected | reads | skips | fails | succeeds | received | ends
  | restarts | handled | dataThrows | disconnected | calls | returns | stops =>
      simpa using slot

theorem Held.step (sound : c.Sound) (held : c.Held) (step : Step c moment d)
    (noticed : ∀ here, moment = some here → NoticedOnce here c) : d.Held :=
  ⟨held.ended.step sound step noticed, step.freeing_le held.freeing, held.slot_step step⟩

theorem Reported.step (sound : c.Sound) (reported : c.Reported) (step : Step c moment d)
    (orderly : ∀ here, moment = some here → Orderly here c ∧ InTurn here c) : d.Reported := by
  obtain ⟨⟨once, ceased⟩, freeing, slot⟩ :=
    reported.held.step sound step fun here moment => (orderly here moment).1.noticedOnce
  obtain ⟨quiet, announced⟩ := Staged.step sound reported step
    (fun here moment => (orderly here moment).1) fun here moment => (orderly here moment).2
  exact ⟨once, ceased, freeing, slot, quiet, announced⟩

theorem reported_unused :
    Reported { socket := {}, slot := false, raised := 0, work := fun _ => 0 } := by
  constructor <;> simp [disconnects, loop]

end Connection

/-! ### Slots -/

section Slots

variable {s : State} {items rest : Multiset Work} {move : ServerMove}
variable {socket other : SocketId}

theorem slot_unique (sound : Sound s items) (here : some socket ∈ s.clientConnections)
    (there : some other ∈ s.clientConnections)
    (same : (s.sockets socket).id = (s.sockets other).id) : socket = other := by
  have first := ((slot_iff sound).mp here).2
  have second := ((slot_iff sound).mp there).2
  rw [same, second] at first
  exact (Option.some.inj (Option.some.inj first)).symm

theorem Connections.imp {property weaker : Connection → Prop} {items : Multiset Work}
    (connections : Connections property s items) (implies : ∀ c, property c → weaker c) :
    Connections weaker s items :=
  ⟨connections.sound, connections.named, fun defined socket =>
    (connections.each defined socket).imp_right (implies _)⟩

theorem slot_of_disconnected {frame : Frame} {owner : SocketId} {id : TcpServerId}
    (connections : Connections Connection.Held s ({.running frame} + rest))
    (defined : s.undefined = false) (handler : frame.handler = .disconnected owner id) :
    id = (s.sockets owner).id ∧ id ≠ 0 ∧
      s.clientConnections[getSocketIndex id]? = some (some owner) := by
  obtain ⟨rfl, registered⟩ : id = (s.sockets owner).id ∧ id ≠ 0 := by
    have named := connections.named (.running frame) (Multiset.mem_cons_self _ _) frame rfl
    rwa [handler] at named
  have frees : 0 < (s.connection ({.running frame} + rest) owner).work
      .freeing := by
    refine Item.count_pos_of_mem (Multiset.mem_cons_self (.running frame) rest) ?_
    simp [handler, Place.handler]
  have held := ((connections.each defined owner).2).slot registered (.inr frees)
  have own := ((slot_iff connections.sound).mp (of_decide_eq_true held)).2
  have positive : ¬ (s.sockets owner).id < 1 :=
    Nat.not_lt.mpr (Nat.one_le_iff_ne_zero.mpr registered)
  exact ⟨rfl, registered, by rwa [getSocketIndex, if_neg positive]⟩

theorem not_evicts (connections : Connections Connection.Held s (move.consumed + rest))
    (defined : s.undefined = false) : ¬ Evicts s socket move := by
  rintro ⟨frame, owner, id, rfl, handler, ne, slot⟩
  obtain ⟨-, -, own⟩ := slot_of_disconnected connections defined handler
  rw [own] at slot
  exact ne (Option.some.inj (Option.some.inj slot))

theorem Connections.step (connections : Connections Connection.Reported s (move.consumed + rest))
    (allowed : program.Allowed s move) (defined : s.undefined = false)
    (after : (program.stateAfter s rest move).undefined = false) (socket : SocketId) :
    Connection.Step (s.connection (move.consumed + rest) socket) (s.momentOf socket move)
      ((program.stateAfter s rest move).connection (program.itemsAfter s rest move) socket) := by
  rcases connection_step connections.sound connections.named allowed after socket with
    step | ⟨evicts, -⟩
  · exact step
  · exact absurd evicts (not_evicts (connections.imp fun _ => Connection.Reported.held) defined)

end Slots

def Sequenced (s : State) (rest : Multiset Work) (move : ServerMove) : Prop :=
  s.undefined = false ∧ Meets (fun moment c => Orderly moment c ∧ InTurn moment c) s rest move

theorem preserves_reported : program.Preserves (Connections Connection.Reported)
    Sequenced :=
  preserves_connections (fun _ _ _ sound reported step met => reported.step sound step met)
    fun _ _ _ _ connections defined evicts =>
      absurd evicts (not_evicts (connections.imp fun _ => Connection.Reported.held) defined)

/-! ### The queue -/

/-- Where an entry stands in the life of its connection. -/
def stage : Entry Task Operation Completion → Option (SocketId × Nat)
  | .task (.connected socket) => some (socket, 0)
  | .task (.socket socket .receive) => some (socket, 1)
  | .task (.socket socket .disconnected) | .task (.release socket) => some (socket, 2)
  | _ => none

/-- Entries of one connection stand in the order of its life. -/
def Precedes (earlier later : Entry Task Operation Completion) : Prop :=
  ∀ socket first second, stage earlier = some (socket, first) →
    stage later = some (socket, second) → first ≤ second

section Queue

variable {s : State} {rest : Multiset Work} {choice : Choice} {socket : SocketId}
variable {entry other : Entry Task Operation Completion} {frame : Frame} {call : Call}
variable {task : Task}

theorem Place.eq_of_connected {item : Work} (chosen : Place.connected.selects socket item = true) :
    item = .queued (.task (.connected socket)) := by
  cases item with
  | queued entry =>
      cases entry with
      | task task => cases task <;> simp_all [Place.task]
      | resume operation completion => cases operation <;> simp [Place.operation] at chosen
  | waiting operation result => cases operation <;> simp [Place.operation] at chosen
  | running frame => simp at chosen

theorem Place.eq_of_receive {item : Work} (chosen : Place.receive.selects socket item = true) :
    item = .queued (.task (.socket socket .receive)) := by
  cases item with
  | queued entry =>
      cases entry with
      | task task =>
          cases task with
          | socket owner task => cases task <;> simp_all [Place.task]
          | user | start | listening | accepted | connected | release | rearm | stop
          | stopClient => simp [Place.task] at chosen
      | resume operation completion => cases operation <;> simp [Place.operation] at chosen
  | waiting operation result => cases operation <;> simp [Place.operation] at chosen
  | running frame => simp at chosen

private theorem stage_le {number : Nat} (staged : stage entry = some (socket, number)) :
    number ≤ 2 := by
  unfold stage at staged
  split at staged <;> simp at staged <;> omega

def Late (entry : Entry Task Operation Completion) : Prop :=
  ∀ socket number, stage entry = some (socket, number) → number = 2

theorem Late.precedes (late : Late entry) : Precedes other entry := by
  intro socket first second staged last
  rw [late socket second last]
  exact stage_le staged

theorem late_of_none (none : stage entry = none) : Late entry := by
  intro socket number staged
  simp [none] at staged

theorem late_stop {value : TcpSocket} (posted : task ∈ value.stop.map (Task.socket socket)) :
    Late (.task task) := by
  unfold TcpSocket.stop at posted
  split at posted
  · obtain rfl : task = _ := by simpa using posted
    exact late_of_none rfl
  · simp at posted

private theorem late_noticePosts (posted : task ∈ s.noticePosts socket) : Late (.task task) := by
  rw [Sound.mem_noticePosts posted]
  intro owner number staged
  simpa using (Prod.ext_iff.mp (Option.some.inj staged)).2.symm

private theorem late_afterRead {posts : List Task} {buffer : Buffer} {error : ErrorType}
    (late : ∀ task ∈ posts, Late (.task task))
    (posted : task ∈ (s.afterRead socket posts buffer error).posts) : Late (.task task) := by
  have released (posted : task ∈ s.disconnect socket) : Late (.task task) := by
    unfold State.disconnect at posted
    split at posted
    · simp at posted
    · obtain rfl : task = _ := by simpa using posted
      intro owner number staged
      simpa using (Prod.ext_iff.mp (Option.some.inj staged)).2.symm
  unfold State.afterRead at posted
  split at posted
  · rcases List.mem_append.mp posted with old | new
    · exact late task old
    · exact released new
  · rcases List.mem_append.mp posted with before | new
    · rcases List.mem_append.mp before with old | stops
      · exact late task old
      · exact late_stop stops
    · exact released new
  · exact late task posted

/-- What a stretch of code in the queue posts: late tasks, or those of a
connection that has just been accepted, or those of a read loop that goes on. -/
theorem posts_begin (s : State) (rest : Multiset Work) (choice : Choice)
    (entry : Entry Task Operation Completion) :
    (∀ task ∈ (s.begin choice rest entry).posts, Late (.task task)) ∨
      (∃ socket, entry = .task (.accepted socket) ∧ (s.begin choice rest entry).posts =
        .connected socket :: ((s.sockets socket).start.map (.socket socket) ++ [.rearm])) ∨
      ∃ socket, entry = .task (.socket socket .start) ∧ (s.sockets socket).isOpen = true ∧
        (s.begin choice rest entry).posts = [.socket socket .receive] := by
  have nothing {segment : Stretch} (none : segment.posts = []) :
      ∀ task ∈ segment.posts, Late (.task task) := by
    simp [none]
  have single {segment : Stretch} {task : Task} (only : segment.posts = [task])
      (late : Late (.task task)) : ∀ task ∈ segment.posts, Late (.task task) := by
    simpa [only] using late
  cases entry with
  | task task =>
      cases task with
      | user | listening => exact .inl (nothing rfl)
      | start =>
          left
          simp only [State.begin, State.startListening]
          split
          · split
            · exact single rfl (late_of_none rfl)
            · exact nothing rfl
          · exact nothing rfl
      | accepted socket =>
          simp only [State.begin, State.onAccepted]
          split
          · split
            · exact .inl fun task => late_stop
            · exact .inr (.inl ⟨socket, rfl, rfl⟩)
          · exact .inl (nothing rfl)
      | connected socket =>
          left
          simp only [State.begin, State.raiseConnected]
          split <;> exact nothing rfl
      | release socket =>
          left
          simp only [State.begin, State.raiseDisconnected]
          split <;> exact nothing rfl
      | socket socket task =>
          cases task with
          | receive =>
              left
              simp only [State.begin, State.socketTask]
              split
              · exact nothing rfl
              · exact fun task => late_afterRead (by simp)
          | start =>
              cases opened : (s.sockets socket).isOpen with
              | false =>
                  exact .inl (nothing (by
                    simp [State.begin, State.socketTask, TcpSocket.start, opened]))
              | true =>
                  exact .inr (.inr ⟨socket, rfl, opened, by
                    simp [State.begin, State.socketTask, TcpSocket.start, opened]⟩)
          | close => exact .inl (nothing rfl)
          | disconnected =>
              refine .inl (single rfl fun owner number staged => ?_)
              simpa using (Prod.ext_iff.mp (Option.some.inj staged)).2.symm
      | rearm =>
          left
          simp only [State.begin, State.doAccept]
          split
          · split <;> exact nothing rfl
          · exact nothing rfl
      | stop =>
          left
          simp only [State.begin, State.stopServer]
          split
          · split
            · intro task posted
              obtain ⟨socket, -, -, rfl⟩ := State.mem_stopAll posted
              exact late_of_none rfl
            · exact nothing rfl
          · exact nothing rfl
      | stopClient id =>
          left
          simp only [State.begin, State.stopSocket]
          split
          · exact fun task => late_stop
          · exact nothing rfl
  | resume operation completion =>
      left
      cases operation with
      | accept generation =>
          simp only [State.begin, State.afterAccept]
          split
          · split
            · split
              · exact single rfl (late_of_none rfl)
              · exact nothing rfl
            · exact nothing rfl
          · exact nothing rfl
      | receive socket => exact fun task => late_afterRead fun _ => late_noticePosts
      | call socket call frame => exact fun task => late_noticePosts
      | await frame => exact nothing rfl

private theorem posts_act (posted : task ∈ (s.act frame call).posts) : Late (.task task) := by
  refine late_of_none ?_
  cases call with
  | start =>
      simp only [State.act, State.start] at posted
      split at posted
      · simp at posted
      · obtain rfl : task = _ := by simpa using posted
        rfl
  | stop | stopClient | runAsync =>
      obtain rfl : task = _ := by simpa [State.act] using posted
      rfl
  | call id call =>
      simp only [State.act, State.callSocket] at posted
      split at posted
      · simp at posted
      · split at posted <;> simp at posted
  | leave =>
      simp only [State.act] at posted
      cases handler : frame.handler with
      | data socket id payload =>
          obtain rfl : task = _ := by simpa [handler, State.returned] using posted
          rfl
      | disconnected socket id =>
          simp only [handler, State.returned, State.releaseSocket] at posted
          split at posted
          · split at posted <;> simp at posted
          · simp [State.undefinedBehaviour] at posted
      | task | listening | connected | stopped => simp [handler, State.returned] at posted
  | await | throw => simp [State.act] at posted

private theorem work_of_stage {items : Multiset Work} {number : Nat}
    (member : .queued entry ∈ items)
    (staged : stage entry = some (socket, number)) :
    number = 0 ∧ 0 < (s.connection items socket).work .connected ∨
      number = 1 ∧ 0 < (s.connection items socket).work .receive ∨
        number = 2 ∧ 0 < (s.connection items socket).disconnects := by
  have work (place : Place) (here : place.selects socket (.queued entry) = true) :
      0 < (s.connection items socket).work place :=
    Item.count_pos_of_mem member here
  unfold stage at staged
  split at staged
  next owner =>
    obtain ⟨rfl, rfl⟩ : owner = socket ∧ 0 = number := by simpa using staged
    exact .inl ⟨rfl, work .connected (by simp [Place.task])⟩
  next owner =>
    obtain ⟨rfl, rfl⟩ : owner = socket ∧ 1 = number := by simpa using staged
    exact .inr (.inl ⟨rfl, work .receive (by simp [Place.task])⟩)
  next owner =>
    obtain ⟨rfl, rfl⟩ : owner = socket ∧ 2 = number := by simpa using staged
    have noticed := work .disconnected (by simp [Place.task])
    exact .inr (.inr ⟨rfl, by unfold Connection.disconnects; omega⟩)
  next owner =>
    obtain ⟨rfl, rfl⟩ : owner = socket ∧ 2 = number := by simpa using staged
    have due := work .release (by simp [Place.task])
    exact .inr (.inr ⟨rfl, by unfold Connection.disconnects; omega⟩)
  next => simp at staged

/-- A connection that has just been accepted has no entries of its own. -/
theorem no_stage_of_accepted {items : Multiset Work} {number : Nat}
    (sound : (s.connection items socket).Sound)
    (accepted : .queued (.task (.accepted socket)) ∈ items)
    (member : .queued entry ∈ items) : stage entry ≠ some (socket, number) := by
  intro staged
  have waits : 0 < (s.connection items socket).work .accepted :=
    Item.count_pos_of_mem accepted (by simp [Place.task])
  obtain ⟨loop, ends, -, -, announced⟩ := sound.unregistered (sound.unclosed waits).1
  simp only [Connection.loop] at loop
  rcases work_of_stage (s := s) member staged with ⟨-, some⟩ | ⟨-, some⟩ | ⟨-, some⟩ <;> omega

private theorem stage_of_restart {items : Multiset Work} {number : Nat}
    (sound : (s.connection items socket).Sound) (reported : (s.connection items socket).Reported)
    (restarts : .queued (.task (.socket socket .start)) ∈ items)
    (opened : (s.sockets socket).isOpen = true) (member : .queued entry ∈ items)
    (staged : stage entry = some (socket, number)) : number ≤ 1 := by
  have loop : 0 < (s.connection items socket).loop := by
    have waits : 0 < (s.connection items socket).work .start :=
      Item.count_pos_of_mem restarts (by simp [Place.task])
    unfold Connection.loop
    omega
  rcases work_of_stage (s := s) member staged with ⟨rfl, -⟩ | ⟨rfl, -⟩ | ⟨-, due⟩
  · exact Nat.zero_le 1
  · exact Nat.le_refl 1
  · cases stopped : (s.sockets socket).stopped with
    | true =>
        have shut : (s.sockets socket).isOpen = false := sound.stopped stopped
        simp [shut] at opened
    | false =>
        have ceased := reported.ceased stopped due
        omega

/-- The tasks of a move take their places behind what is in the queue. -/
theorem posts_precede {move : ServerMove}
    (connections : Connections Connection.Reported s (move.consumed + rest))
    (defined : s.undefined = false) :
    ((program.posts s rest move).map Entry.task).Pairwise Precedes ∧
      ∀ task ∈ program.posts s rest move, ∀ entry, .queued entry ∈ rest →
        Precedes entry (.task task) := by
  have late {posts : List Task} (late : ∀ task ∈ posts, Late (.task task)) :
      (posts.map Entry.task).Pairwise Precedes ∧
        ∀ task ∈ posts, ∀ entry, .queued entry ∈ rest → Precedes entry (.task task) := by
    refine ⟨?_, fun task posted entry _ => (late task posted).precedes⟩
    rw [List.pairwise_map]
    exact List.pairwise_of_forall_mem_list fun _ _ task posted => (late task posted).precedes
  cases move with
  | post | complete | deliver => exact late (by simp [Program.posts])
  | act frame call => exact late fun task => posts_act
  | begin choice entry =>
      have consumed : .queued entry ∈ Move.consumed (.begin choice entry : ServerMove) + rest :=
        Multiset.mem_cons_self _ rest
      rcases posts_begin s rest choice entry with all | ⟨socket, rfl, posts⟩ |
        ⟨socket, rfl, opened, posts⟩
      · exact late all
      · obtain ⟨sound, -⟩ := connections.each defined socket
        have unstaged {other : Entry Task Operation Completion} (member : .queued other ∈ rest)
            (number : Nat) : stage other ≠ some (socket, number) :=
          no_stage_of_accepted sound consumed (Multiset.mem_add.mpr (.inr member))
        simp only [Program.posts]
        rw [show (program.begin choice s rest (.task (.accepted socket))).posts = _ from posts]
        constructor
        · cases opened : (s.sockets socket).isOpen with
          | false => simp [TcpSocket.start, opened, Precedes, stage]
          | true =>
              simp [TcpSocket.start, opened, Precedes, stage]
              intro owner first second _ zero _ one
              omega
        · intro task posted other member owner first second staged last
          have own : owner = socket := by
            have cases' : task = .connected socket ∨ task = .socket socket .receive ∨
                task = .rearm := by
              simp only [TcpSocket.start] at posted
              split at posted <;> simp at posted <;> tauto
            rcases cases' with rfl | rfl | rfl <;> simp [stage] at last
            · exact last.1.symm
            · exact last.1.symm
          exact absurd (own ▸ staged) (unstaged member first)
      · obtain ⟨sound, reported⟩ := connections.each defined socket
        simp only [Program.posts]
        rw [show (program.begin choice s rest (.task (.socket socket .start))).posts = _ from posts]
        refine ⟨by simp, fun task posted other member owner first second staged last => ?_⟩
        obtain rfl : task = _ := by simpa using posted
        obtain ⟨rfl, rfl⟩ : socket = owner ∧ 1 = second := by simpa [stage] using last
        exact stage_of_restart sound reported consumed opened
          (Multiset.mem_add.mpr (.inr member)) staged

end Queue

private theorem moment_reads {s : State} {move : ServerMove} {socket : SocketId}
    (here : s.moment move = some (socket, .reads)) :
    ∃ choice, move = .begin choice (.task (.socket socket .receive)) := by
  unfold State.moment at here
  split at here <;> (try split at here) <;> (try split at here) <;> simp_all

theorem moment_raises {s : State} {move : ServerMove} {socket : SocketId}
    (here : s.moment move = some (socket, .raises)) :
    ∃ choice, move = .begin choice (.task (.release socket)) := by
  unfold State.moment at here
  split at here <;> (try split at here) <;> (try split at here) <;> simp_all

theorem moment_returns {s : State} {move : ServerMove} {socket : SocketId}
    (here : s.moment move = some (socket, .returns)) : ∃ choice call frame completion,
      move = .begin choice (.resume (.call socket call frame) completion) := by
  unfold State.moment at here
  split at here <;> (try split at here) <;> (try split at here) <;> simp_all

/-- A step meets a condition when the connection that it is about does. -/
theorem during_meets {s : Server} {action : ServerAction}
    {condition : Moment → Connection → Prop} (enabled : program.Enabled s action)
    (meets : ∀ move rest socket moment, s.effect action = some (move, rest) →
      s.state.moment move = some (socket, moment) →
        condition moment (s.state.connection s.items socket)) :
    s.During (Meets condition) action := by
  have simulated := Strand.step_simulates enabled
  unfold Strand.During
  split
  next move rest effect =>
    rw [effect] at simulated
    unfold Meets
    split
    next socket moment here =>
      rw [← simulated.2.1]
      exact meets move rest socket moment effect here
    next => trivial
  next => trivial

/-- The queue of a server that reports its connections in order. -/
structure InOrder (s : Server) : Prop where
  ordered : s.pending.Pairwise Precedes
  connections : Connections Connection.Reported s.state s.items

namespace InOrder

variable {s : Server} {action : ServerAction}

/-- What has to be done before the first read, and the reads that are to begin,
stand in the queue. -/
theorem stage_of_work {socket : SocketId} {place : Place} {number : Nat}
    (early : place = .connected ∧ number = 0 ∨ place = .receive ∧ number = 1)
    (work : 0 < Item.count (place.selects socket) s.items) :
    ∃ entry ∈ s.pending, stage entry = some (socket, number) := by
  obtain ⟨item, member, chosen⟩ := Item.count_pos.mp work
  rcases early with ⟨rfl, rfl⟩ | ⟨rfl, rfl⟩
  · obtain rfl := Place.eq_of_connected chosen
    exact ⟨_, Strand.queued_mem_items.mp member, rfl⟩
  · obtain rfl := Place.eq_of_receive chosen
    exact ⟨_, Strand.queued_mem_items.mp member, rfl⟩

theorem no_work_of_begin (inOrder : InOrder s) {entry : Entry Task Operation Completion}
    {entries : List (Entry Task Operation Completion)} {socket : SocketId} {place : Place}
    {number later : Nat} (first : s.queue = entry :: entries)
    (staged : stage entry = some (socket, later)) (less : number < later)
    (early : place = .connected ∧ number = 0 ∨ place = .receive ∧ number = 1) :
    Item.count (place.selects socket) s.items = 0 := by
  refine Nat.eq_zero_of_not_pos fun work => ?_
  obtain ⟨other, waits, earlier⟩ := stage_of_work early work
  have ordered := inOrder.ordered
  simp only [Strand.pending, first, List.cons_append] at ordered waits
  rcases List.mem_cons.mp waits with rfl | behind
  · rw [staged] at earlier
    exact absurd (Prod.ext_iff.mp (Option.some.inj earlier)).2 less.ne'
  · have between :=
      (List.pairwise_cons.mp ordered).1 other behind socket later number staged earlier
    exact absurd less (Nat.not_lt.mpr between)

theorem inTurn (inOrder : InOrder s) (enabled : program.Enabled s action) :
    s.During (Meets InTurn) action := by
  refine during_meets enabled fun move rest socket moment effect here => ?_
  cases moment with
  | reads =>
      obtain ⟨choice, rfl⟩ := moment_reads here
      obtain ⟨entries, first⟩ := Strand.queue_of_begin effect
      exact inOrder.no_work_of_begin first rfl (by decide) (.inl ⟨rfl, rfl⟩)
  | raises =>
      obtain ⟨choice, rfl⟩ := moment_raises here
      obtain ⟨entries, first⟩ := Strand.queue_of_begin effect
      exact ⟨inOrder.no_work_of_begin first rfl (by decide) (.inl ⟨rfl, rfl⟩),
        inOrder.no_work_of_begin first rfl (by decide) (.inr ⟨rfl, rfl⟩)⟩
  | accepts | returns | restarts | dataThrows | disconnectedThrows => trivial

theorem sequenced (inOrder : InOrder s) (enabled : program.Enabled s action)
    (orderly : s.During (Meets Orderly) action) : s.During Sequenced action :=
  (during_defined enabled).and (Meets.and orderly (inOrder.inTurn enabled))

theorem step (inOrder : InOrder s) (enabled : program.Enabled s action)
    (orderly : s.During (Meets Orderly) action) : InOrder (program.step s action) := by
  have defined := defined_of_enabled enabled
  refine ⟨Strand.ordered_step inOrder.ordered enabled ?_ ?_ ?_, ?_⟩
  · rintro task other rfl
    exact ⟨(late_of_none rfl).precedes, fun owner first second staged => by simp [stage] at staged⟩
  · intro operation result other
    exact ⟨(late_of_none rfl).precedes, fun owner first second staged => by simp [stage] at staged⟩
  · have simulated := Strand.step_simulates enabled
    unfold Strand.During
    split
    next move rest effect =>
      rw [effect] at simulated
      exact posts_precede (simulated.2.1 ▸ inOrder.connections) defined
    next => trivial
  · exact Strand.bag_step preserves_reported s action inOrder.connections enabled
      (inOrder.sequenced enabled orderly)

end InOrder

theorem inOrder_initial (maxConnections : Nat) : InOrder (initial maxConnections) :=
  ⟨List.Pairwise.nil, connections_initial Connection.reported_unused⟩

theorem everyStep_sequenced {maxConnections : Nat} {actions : List ServerAction}
    (legal : program.system.Legal (initial maxConnections) actions)
    (orderly : program.system.EveryStep (Strand.During (Meets Orderly)) (initial maxConnections)
      actions) :
    program.system.EveryStep (Strand.During Sequenced) (initial maxConnections) actions :=
  ActionSystem.everyStep_of_invariant (fun _ _ inOrder => inOrder.step)
    (fun _ _ inOrder => inOrder.sequenced) (inOrder_initial maxConnections) legal orderly

end TcpServer

end FlatAsync
