import FlatAsync.EventOrder

/-!
# The life cycle of a server

A server raises `on_stopped_` when it is stopped and its last client has been
released.  This is the end of its record until it is started again, provided
that the connections have been reported in order and that `on_listening_` is not
still to be raised then.
-/

namespace FlatAsync

namespace TcpServer

namespace State

/-- The move raises `on_stopped_`: a `Stop` finds no client, or the last client
of a stopped server is released. -/
def raisesStopped (s : State) : ServerMove → Bool
  | .begin _ (.task .stop) => s.isRunning && s.getConnectedCount == 0
  | .act frame .leave =>
      match frame.handler with
      | .disconnected _ id =>
          !s.isRunning && (s.setSlot (getSocketIndex id) none).getConnectedCount == 0
      | .task | .listening | .connected .. | .data .. | .stopped => false
  | _ => false

/-- A call of `Start` that takes effect. -/
def starts (s : State) : ServerMove → Bool
  | .act _ .start => !s.isRunning
  | _ => false

end State

/-- When `on_stopped_` is raised, `on_listening_` is not still to be raised. -/
def ListeningTold (s : State) (rest : Multiset Work) (move : ServerMove) : Prop :=
  s.raisesStopped move = true → .queued (.task .listening) ∉ rest

instance (s : State) (rest : Multiset Work) (move : ServerMove) :
    Decidable (ListeningTold s rest move) :=
  inferInstanceAs (Decidable (_ → _))

def Continues (s : State) (_ : Multiset Work) (move : ServerMove) : Prop :=
  s.starts move = false

instance (s : State) (rest : Multiset Work) (move : ServerMove) :
    Decidable (Continues s rest move) :=
  inferInstanceAs (Decidable (_ = _))

/-- A stopped server without clients that has nothing left to announce. -/
structure Silent (s : State) (items : Multiset Work) : Prop where
  idle : s.isRunning = false
  empty : s.getConnectedCount = 0
  told : .queued (.task .listening) ∉ items

section Silent

variable {s : State} {rest : Multiset Work} {move : ServerMove} {choice : Choice}
variable {entry : Entry Task Operation Completion} {frame : Frame} {call : Call}

private theorem getConnectedCount_eq_zero :
    s.getConnectedCount = 0 ↔ ∀ socket, some socket ∉ s.clientConnections := by
  rw [State.getConnectedCount, List.countP_eq_zero]
  constructor
  · intro free socket slot
    simpa using free (some socket) slot
  · intro free slot member
    cases slot with
    | none => simp
    | some socket => exact absurd member (free socket)

/-- Code that leaves the server stopped, gives no slots away and posts no
`on_listening_`. -/
def KeepsStopped (s : State) (segment : Stretch) : Prop :=
  segment.state.isRunning = false ∧
    (∀ socket, some socket ∈ segment.state.clientConnections →
      some socket ∈ s.clientConnections) ∧
    Task.listening ∉ segment.posts

/-- Only `Start` makes a stopped server run, and slots are given away and
`on_listening_` is posted by a server that runs. -/
theorem KeepsStopped.of_steps {segment : Stretch} (state : StateStep s move segment.state)
    (tasks : ∀ task ∈ segment.posts, TaskStep s move task) (idle : s.isRunning = false)
    (continues : s.starts move = false) : KeepsStopped s segment := by
  refine ⟨?_, ?_, ?_⟩
  · generalize segment.state = after at state ⊢
    cases state with
    | started frame => simp [State.starts, idle] at continues
    | freedLast handler =>
        obtain ⟨events, same⟩ := State.raiseOnClosed_state _
        rw [same]
        exact idle
    | opened | registered | stops => simp [idle] at *
    | _ => exact idle
  · intro socket slot
    generalize segment.state = after at state slot
    cases state with
    | registered choice own running => simp [idle] at running
    | stops choice running => simp [idle] at running
    | freed handler running => simp [idle] at running
    | freedLast handler =>
        obtain ⟨events, same⟩ := State.raiseOnClosed_state _
        rw [same] at slot
        obtain ⟨place, -, found⟩ := mem_set_none.mp slot
        exact List.mem_of_getElem? found
    | _ => exact slot
  · intro posted
    cases tasks _ posted with
    | listening choice running => simp [idle] at running

private theorem keepsStopped_begin (idle : s.isRunning = false) :
    KeepsStopped s (s.begin choice rest entry) := by
  have tasks : ∀ task ∈ program.posts s rest (.begin choice entry),
      TaskStep s (.begin choice entry) task := fun _ => taskStep
  exact .of_steps (stateStep s rest (.begin choice entry)) tasks idle rfl

private theorem keepsStopped_act (idle : s.isRunning = false)
    (continues : s.starts (.act frame call) = false) : KeepsStopped s (s.act frame call) := by
  have tasks : ∀ task ∈ program.posts s 0 (.act frame call),
      TaskStep s (.act frame call) task := fun _ => taskStep
  exact .of_steps (stateStep s 0 (.act frame call)) tasks idle continues

namespace Silent

theorem after (silent : Silent s (move.consumed + rest)) (allowed : program.Allowed s move)
    (continues : Continues s rest move) :
    Silent (program.stateAfter s rest move) (program.itemsAfter s rest move) := by
  obtain ⟨idle, empty, told⟩ := silent
  have others : Item.queued (.task .listening) ∉ rest :=
    fun member => told (Multiset.mem_add.mpr (.inr member))
  have perform {segment : Stretch} (keeps : KeepsStopped s segment) :
      Silent segment.state (segment.outstanding rest) := by
    obtain ⟨stopped, slots, posts⟩ := keeps
    refine ⟨stopped, ?_, fun member => ?_⟩
    · rw [getConnectedCount_eq_zero] at empty ⊢
      exact fun socket slot => empty socket (slots socket slot)
    · rcases Segment.queued_mem_outstanding.mp member with posted | old
      · exact posts posted
      · exact others old
  cases move with
  | post task =>
      obtain rfl : task = .user := allowed
      exact ⟨idle, empty, by simpa [Program.itemsAfter] using others⟩
  | complete | deliver => exact ⟨idle, empty, by simpa [Program.itemsAfter] using others⟩
  | begin choice entry => exact perform (keepsStopped_begin idle)
  | act frame call => exact perform (keepsStopped_act idle continues)

private theorem no_cause (silent : Silent s (move.consumed + rest))
    (connections : Connections Connection.Reported s (move.consumed + rest))
    (defined : s.undefined = false) (inTurn : Meets InTurn s rest move) (event : Event) :
    ¬ Cause s move event := by
  intro cause
  have free := getConnectedCount_eq_zero.mp silent.empty
  -- No registered socket is unreported.
  have held (socket : SocketId) (registered : (s.sockets socket).id ≠ 0)
      (holds : s.raised socket = 0 ∨
        0 < (s.connection (move.consumed + rest) socket).work .freeing) : False :=
    free socket (of_decide_eq_true ((connections.each defined socket).2.slot registered holds))
  cases event with
  | listening =>
      obtain ⟨choice, rfl⟩ := cause
      exact silent.told (Multiset.mem_cons_self _ _)
  | connected socket id =>
      obtain ⟨-, choice, rfl⟩ := cause
      obtain ⟨sound, reported⟩ := connections.each defined socket
      have waits : 0 < (s.connection (Move.consumed (.begin choice
          (.task (.connected socket)) : ServerMove) + rest) socket).work .connected :=
        Item.count_pos_of_mem (Multiset.mem_cons_self _ _) (by simp [Place.task])
      refine held socket (fun zero => ?_) (.inl (reported.announced waits).1)
      exact absurd (sound.unregistered zero).2.2.2.2 waits.ne'
  | data socket id payload =>
      obtain ⟨registered, unreported, -⟩ := unreported_of_data connections defined inTurn cause
      exact held socket registered (.inl unreported)
  | disconnected socket id =>
      obtain ⟨-, choice, rfl⟩ := cause
      obtain ⟨sound, reported⟩ := connections.each defined socket
      have due : 0 < (s.connection (Move.consumed (.begin choice
          (.task (.release socket)) : ServerMove) + rest) socket).work .release :=
        Item.count_pos_of_mem (Multiset.mem_cons_self _ _) (by simp [Place.task])
      have once := reported.once
      refine held socket (fun zero => ?_) (.inl ?_)
      · have none := (sound.unregistered zero).2.1
        simp only [Connection.disconnects] at none
        omega
      · simp only [Connection.disconnects, State.connection_raised] at once
        omega
  | stopping =>
      obtain ⟨runs, -⟩ := cause
      simp [silent.idle] at runs
  | stopped =>
      obtain ⟨-, frame, socket, id, rfl, handler, -⟩ := cause
      have frees : 0 < (s.connection (Move.consumed
          (.act frame .leave : ServerMove) + rest) socket).work .freeing :=
        Item.count_pos_of_mem (Multiset.mem_cons_self _ _) (by simp [handler, Place.handler])
      refine held socket (fun zero => ?_) (.inr frees)
      exact absurd ((connections.each defined socket).1.unregistered zero).2.2.1 frees.ne'
  | written socket buffer =>
      obtain ⟨frame, id, -, found⟩ := cause
      exact free socket (State.mem_of_getSocket found)

/-- A server is silent when it has raised `on_stopped_`. -/
theorem of_stopped {logged : List Event} (told : ListeningTold s rest move)
    (events : (program.stateAfter s rest move).events = s.events ++ logged)
    (reasons : Logged s move logged) (stops : .stopped ∈ logged) :
    Silent (program.stateAfter s rest move) (program.itemsAfter s rest move) := by
  have changed : (program.stateAfter s rest move).events ≠ s.events := by
    rw [events]
    intro same
    rw [List.append_cancel_left (same.trans (List.append_nil s.events).symm)] at stops
    simp at stops
  rcases reasons with rfl | ⟨event, rfl, cause⟩ | ⟨rfl, ⟨running, choice, rfl⟩, empty⟩
  · simp at stops
  · obtain rfl := List.mem_singleton.mp stops
    obtain ⟨idle, frame, socket, id, rfl, handler, empty⟩ := cause
    have others := told (by simp [State.raisesStopped, handler, idle, empty])
    have released : program.act s frame .leave = s.releaseSocket id := by
      simp [program, State.act, handler, State.returned]
    simp only [Program.stateAfter, Program.itemsAfter] at changed ⊢
    have keeps : KeepsStopped s (s.act frame .leave) := keepsStopped_act idle rfl
    refine ⟨keeps.1, ?_, fun member => ?_⟩
    · rw [released] at changed ⊢
      rcases s.releaseSocket_state id with ⟨logged, state⟩ | state
      · rw [state]
        exact empty
      · simp [state] at changed
    · rcases Segment.queued_mem_outstanding.mp member with posted | old
      · exact keeps.2.2 posted
      · exact others old
  · have others := told (by simp [State.raisesStopped, running, empty])
    have stopping : program.begin choice s rest (.task .stop) = s.stopServer := rfl
    simp only [Program.stateAfter, Program.itemsAfter, stopping] at changed ⊢
    rcases s.stopServer_state with ⟨acceptor, logged, -, -, state⟩ | ⟨undefined, state⟩
    · refine ⟨by rw [state], ?_, fun member => ?_⟩
      · rw [state]
        exact empty
      · rcases Segment.queued_mem_outstanding.mp member with posted | old
        · have own : .listening ∈ program.posts s rest (.begin choice (.task .stop)) := posted
          cases taskStep own
        · exact others old
    · simp [state] at changed

end Silent

end Silent

/-! ### The end of the record -/

/-- What has been reported since `past` has no `on_stopped_`, or one that is the
last of it, raised by a server that is silent since. -/
def StoppedLast (past : List Event) (s : State) (items : Multiset Work) : Prop :=
  ∃ since, s.events = past ++ since ∧
    (.stopped ∉ since ∨
      Silent s items ∧ ∃ earlier, since = earlier ++ [.stopped] ∧ .stopped ∉ earlier)

/-- Since `past`, `on_stopped_` has been raised at most once and nothing after
it, and the server that has raised it is not running and has no clients. -/
def LifeCycle (past : List Event) (s : State) : Prop :=
  ∃ since, s.events = past ++ since ∧ ∀ before after, since = before ++ .stopped :: after →
    .stopped ∉ before ∧ after = [] ∧ s.isRunning = false ∧ s.getConnectedCount = 0

theorem StoppedLast.lifeCycle {past : List Event} {s : State} {items : Multiset Work}
    (last : StoppedLast past s items) : LifeCycle past s := by
  obtain ⟨since, events, none | ⟨silent, earlier, rfl, first⟩⟩ := last
  · refine ⟨since, events, fun before after split => ?_⟩
    simp [split] at none
  · refine ⟨_, events, fun before after split => ?_⟩
    rcases List.eq_nil_or_concat after with rfl | ⟨later, final, rfl⟩
    · obtain ⟨rfl, -⟩ := List.append_inj' split rfl
      exact ⟨first, rfl, silent.idle, silent.empty⟩
    · rw [List.concat_eq_append, ← List.cons_append, ← List.append_assoc] at split
      obtain ⟨rfl, -⟩ := List.append_inj' split rfl
      simp at first

theorem preserves_stoppedLast (past : List Event) : program.Preserves
    (fun s items => Recorded s items ∧ StoppedLast past s items)
    fun s rest move => Sequenced s rest move ∧ ListeningTold s rest move ∧
      Continues s rest move := by
  intro s rest move ⟨recorded, since, old, last⟩ allowed ⟨sequenced, told, continues⟩
  refine ⟨preserves_recorded s rest move recorded allowed sequenced, ?_⟩
  obtain ⟨logged, events, reasons⟩ := logged_move s rest move
  refine ⟨since ++ logged, by rw [events, old, List.append_assoc], ?_⟩
  have inTurn : Meets InTurn s rest move := sequenced.2.imp fun _ _ both => both.2
  rcases last with none | ⟨silent, earlier, rfl, first⟩
  · by_cases stops : .stopped ∈ logged
    · right
      refine ⟨Silent.of_stopped told events reasons stops, ?_⟩
      rcases reasons with rfl | ⟨event, rfl, -⟩ | ⟨rfl, -⟩
      · simp at stops
      · obtain rfl := List.mem_singleton.mp stops
        exact ⟨since, rfl, none⟩
      · exact ⟨since ++ [.stopping], by simp, by simp [none]⟩
    · exact .inl (by simp [none, stops])
  · right
    have quiet : logged = [] := by
      rcases reasons with rfl | ⟨event, rfl, cause⟩ | ⟨rfl, cause, -⟩
      · rfl
      · exact absurd cause (silent.no_cause recorded.1 sequenced.1 inTurn event)
      · exact absurd cause (silent.no_cause recorded.1 sequenced.1 inTurn .stopping)
    refine ⟨silent.after allowed continues, earlier, ?_, first⟩
    rw [quiet, List.append_nil]

/-- In a run of orderly moves, between two starts of the server `on_stopped_` is
raised at most once, by a server that is not running and has no clients, and
nothing is raised after it, provided that `on_listening_` is not still to be
raised then. -/
theorem stopped_last {maxConnections : Nat} {before after : List ServerAction}
    (legal : program.system.Legal (initial maxConnections) (before ++ after))
    (orderly : program.system.EveryStep (Strand.During (Meets Orderly)) (initial maxConnections)
      (before ++ after))
    (told : program.system.EveryStep (Strand.During ListeningTold)
      (program.system.run (initial maxConnections) before) after)
    (continues : program.system.EveryStep (Strand.During Continues)
      (program.system.run (initial maxConnections) before) after) :
    LifeCycle (program.system.run (initial maxConnections) before).state.events
      (program.system.run (initial maxConnections) (before ++ after)).state := by
  obtain ⟨legalBefore, legalAfter⟩ := ActionSystem.everyStep_append.mp legal
  have orderlyBefore := (ActionSystem.everyStep_append.mp orderly).1
  have sequenced := (ActionSystem.everyStep_append.mp (everyStep_sequenced legal orderly)).2
  have recorded := (everyState_recorded legalBefore orderlyBefore).last
  have states := Strand.everyState_of_bag (preserves_stoppedLast _)
    ⟨recorded, [], (List.append_nil _).symm, .inl (by simp)⟩ legalAfter
    ((sequenced.and (told.and continues)).imp fun s action met =>
      met.1.and (met.2.1.and met.2.2))
  rw [ActionSystem.run_append]
  exact states.last.2.lifeCycle

/-- A user starts a server. -/
def started : List ServerAction :=
  [.post .user, .begin {}, .act .start]

/-- The user stops it at once. -/
def stoppedAtOnce : List ServerAction :=
  [.flush, .act .stop, .flush, .act .leave, .begin {}, .flush, .begin {}, .act .leave, .begin {}]

/-- After `stoppedAtOnce` the server has raised `on_listening_` after
`on_stopped_`. -/
theorem not_stopped_last_stoppedAtOnce :
    program.system.Legal (initial 1) (started ++ stoppedAtOnce) ∧
      program.system.EveryStep (Strand.During Continues)
        (program.system.run (initial 1) started) stoppedAtOnce ∧
      ¬ LifeCycle (program.system.run (initial 1) started).state.events
        (program.system.run (initial 1) (started ++ stoppedAtOnce)).state := by
  refine ⟨by decide, by decide, ?_⟩
  rintro ⟨since, events, last⟩
  have record : (program.system.run (initial 1) (started ++ stoppedAtOnce)).state.events =
      (program.system.run (initial 1) started).state.events ++
        [.stopping, .stopped, .listening] := by decide
  obtain rfl := List.append_cancel_left (events.symm.trans record)
  obtain ⟨-, none, -⟩ := last [.stopping] [.listening] rfl
  simp at none

/-- The user stops the server while it has a client. -/
def stoppedWithClient : List ServerAction :=
  acceptedConnection.drop 3 ++
    [.post .user, .begin {}, .act .stop, .flush, .act .leave, .begin {}, .flush, .begin {},
      .deliver 0, .begin {}, .flush, .begin {}, .flush, .begin {}, .act .leave, .act .leave]

theorem stopped_last_stoppedWithClient :
    LifeCycle (program.system.run (initial 1) started).state.events
      (program.system.run (initial 1) (started ++ stoppedWithClient)).state :=
  stopped_last (by decide) (by decide) (by decide) (by decide)

end TcpServer

end FlatAsync
