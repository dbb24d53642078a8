import FlatAsync.ConnectionSteps
import FlatAsync.AcceptChain

/-!
# The end of a connection

A closed socket keeps its slot until somebody notices that it is closed: the
read loop, by a read that fails, or a call that has waited on the socket.  The
read loop can miss it.  When the socket is closed while the loop is between two
reads, `Start` returns at once and the loop is over; and when a subscriber of
`on_data_` throws, the loop is over as well.

A server that has come to rest holds no closed connection if whenever this
happens somebody else has noticed the end or is about to.
-/

namespace FlatAsync

namespace TcpServer

namespace Connection

/-- The tasks and subscribers on the way from a noticed end to the free slot. -/
def raising (c : Connection) : Nat :=
  c.work .disconnected + c.work .release + c.work .freeing

/-- The end of the connection was reported, and it has no slot. -/
def Released (c : Connection) : Prop :=
  c.slot = false ∧ 0 < c.raised

instance (c : Connection) : Decidable c.Released :=
  inferInstanceAs (Decidable (_ ∧ _))

/-- More than `beside` tasks and subscribers report the end of the connection,
or a call on the closed socket will notice it, or it is over. -/
def Attended (c : Connection) (beside : Nat) : Prop :=
  beside < c.raising ∨ c.socket.closedUnnoticed = true ∧ 0 < c.work .calling ∨ c.Released

instance (c : Connection) (beside : Nat) : Decidable (c.Attended beside) :=
  inferInstanceAs (Decidable (_ ∨ _ ∧ _ ∨ _))

/-- A registered connection has its read loop, or its end is attended to. -/
structure Watched (c : Connection) : Prop where
  watched : c.socket.id ≠ 0 → 0 < c.loop ∨ c.Attended 0
  noticed : c.socket.stopped = true → 0 < c.raising ∨ c.Released
  opened : 0 < c.work .accepted → c.socket.isOpen = true
  reported : c.work .freeing ≤ c.raised

end Connection

def AcceptsSucceed : Moment → Connection → Prop
  | .accepts success, _ => success = true
  | _, _ => True

instance : ∀ moment c, Decidable (AcceptsSucceed moment c)
  | .accepts success, _ => inferInstanceAs (Decidable (success = true))
  | .reads, _ | .returns, _ | .restarts, _ | .raises, _ | .dataThrows, _
  | .disconnectedThrows, _ =>
      inferInstanceAs (Decidable True)

/-- The read loop ends without a report only if the end of the connection is
attended to, and a subscriber to the disconnect throws only if it is beside
this subscriber. -/
def EndsAttended : Moment → Connection → Prop
  | .restarts, c => c.socket.isOpen = true ∨ c.Attended 0
  | .dataThrows, c => c.Attended 0
  | .disconnectedThrows, c => c.Attended 1
  | _, _ => True

instance : ∀ moment c, Decidable (EndsAttended moment c)
  | .restarts, _ => inferInstanceAs (Decidable (_ ∨ _))
  | .dataThrows, c => inferInstanceAs (Decidable (c.Attended 0))
  | .disconnectedThrows, c => inferInstanceAs (Decidable (c.Attended 1))
  | .accepts _, _ | .reads, _ | .returns, _ | .raises, _ => inferInstanceAs (Decidable True)

namespace Connection

variable {c d : Connection} {moment : Option Moment}

theorem opened_step (sound : c.Sound) (watched : c.Watched) (step : Step c moment d)
    (met : ∀ here, moment = some here → AcceptsSucceed here c) :
    0 < d.work .accepted → d.socket.isOpen = true := by
  have unclosed := sound.unclosed
  have once := sound.accepted
  have opened := watched.opened
  cases step with
  | accepted =>
      obtain rfl : _ = true := met _ rfl
      exact fun _ => rfl
  | ignored new =>
      intro some
      have shut := opened some
      simp [new] at shut
  | closes =>
      intro some
      have none := (unclosed some).2
      simp at none
  | registered | refused | dropped =>
      intro some
      simp [register] at once some
      omega
  | other | connected | reads | skips | fails | succeeds | received | ends | restarts | handled
  | dataThrows | disconnected | raises | freed | disconnectedThrows | calls | returns | stops =>
      simpa using opened

theorem Watched.keep (watched : c.Watched) (id : d.socket.id = c.socket.id)
    (stopped : d.socket.stopped = true → c.socket.stopped = true ∨ 0 < d.raising)
    (closed : c.socket.closedUnnoticed = true → 0 < c.work .calling →
      d.socket.closedUnnoticed = true ∧ 0 < d.work .calling ∨ 0 < d.raising)
    (loop : 0 < c.loop → 0 < d.loop ∨ d.Attended 0)
    (raising : 0 < c.raising → 0 < d.raising ∨ d.Released)
    (released : c.Released → d.Released)
    (opened : 0 < d.work .accepted → d.socket.isOpen = true)
    (reported : d.work .freeing ≤ d.raised) : d.Watched where
  watched registered := by
    rcases watched.watched (id ▸ registered) with reads | reports | ⟨shut, calls⟩ | ceased
    · exact loop reads
    · rcases raising reports with reports | ceased
      · exact .inr (.inl reports)
      · exact .inr (.inr (.inr ceased))
    · rcases closed shut calls with noticing | reports
      · exact .inr (.inr (.inl noticing))
      · exact .inr (.inl reports)
    · exact .inr (.inr (.inr (released ceased)))
  noticed marked := by
    rcases stopped marked with before | reports
    · rcases watched.noticed before with reports | ceased
      · exact raising reports
      · exact .inr (released ceased)
    · exact .inl reports
  opened := opened
  reported := reported

private theorem stopped_notice (marked : c.notice.socket.stopped = true) :
    c.socket.stopped = true ∨ c.socket.closedUnnoticed = true := by
  rw [notice_socket, TcpSocket.afterOperation_stopped] at marked
  cases stopped : c.socket.stopped with
  | true => exact .inl rfl
  | false => exact .inr (by simpa [TcpSocket.closedUnnoticed, stopped] using marked)

theorem raising_notice (unnoticed : c.socket.closedUnnoticed = true) : 0 < c.notice.raising := by
  simp only [raising, notice_work, unnoticed, if_true, Bool.toNat_true]
  omega

/-- A call or a read returns, and the first to find the socket closed reports
it. -/
theorem Watched.notice (watched : c.Watched) (id : d.socket = c.notice.socket)
    (loop : 0 < c.loop → 0 < d.loop ∨ d.Attended 0)
    (raising : c.notice.raising ≤ d.raising) (slot : d.slot = c.slot)
    (raised : d.raised = c.raised) (opened : 0 < d.work .accepted → d.socket.isOpen = true)
    (reported : d.work .freeing ≤ d.raised) : d.Watched := by
  have grows : c.raising ≤ c.notice.raising := by
    simp [Connection.raising]
  refine watched.keep (by simp [id]) (fun marked => ?_) (fun unnoticed _ => .inr ?_) loop
    (fun reports => .inl (by omega)) (fun ceased => ⟨slot ▸ ceased.1, raised ▸ ceased.2⟩) opened
    reported
  · rcases stopped_notice (id ▸ marked) with before | unnoticed
    · exact .inl before
    · have reports := raising_notice unnoticed
      exact .inr (by omega)
  · have reports := raising_notice unnoticed
    omega

theorem Watched.step (sound : c.Sound) (watched : c.Watched) (step : Step c moment d)
    (met : ∀ here, moment = some here → AcceptsSucceed here c ∧ EndsAttended here c) :
    d.Watched := by
  have opened := opened_step sound watched step fun here moment => (met here moment).1
  have reported := step.freeing_le watched.reported
  cases step with
  | other => exact watched
  | accepted new | ignored new =>
      exact ⟨fun registered => absurd rfl registered, fun marked => by simp at marked, opened,
        reported⟩
  | @registered c index new free =>
      have open' : c.socket.isOpen = true := watched.opened (by simp)
      refine ⟨fun _ => .inl (by simp [loop, open']), fun marked => ?_, opened, reported⟩
      have shut := sound.stopped (by simpa [register] using marked)
      simp [open'] at shut
  | refused | dropped | connected | reads | skips | fails | succeeds | handled | disconnected
  | calls | stops =>
      refine watched.keep rfl .inl (fun shut calls => .inl ⟨shut, ?_⟩) (fun reads => .inl ?_)
        (fun reports => .inl ?_) id opened reported <;>
          simp [loop, raising] at * <;> omega
  | closes =>
      refine watched.keep rfl .inl (fun shut calls => .inl ⟨?_, calls⟩) (fun reads => .inl ?_)
        (fun reports => .inl reports) id opened reported
      · simp_all [close, TcpSocket.close, TcpSocket.closedUnnoticed]
      · simp [loop, close, Place.aborted] at reads ⊢
        omega
  | raises =>
      refine watched.keep rfl .inl (fun shut calls => .inl ⟨shut, ?_⟩) (fun reads => .inl ?_)
        (fun reports => .inl ?_) (fun ceased => ⟨ceased.1, ?_⟩) opened reported <;>
          simp [loop, raising] at * <;> omega
  | freed =>
      have before := watched.reported
      refine watched.keep rfl .inl (fun shut calls => .inl ⟨shut, calls⟩) (fun reads => .inl reads)
        (fun _ => .inr ⟨rfl, ?_⟩) (fun ceased => ⟨rfl, ceased.2⟩) opened reported
      simp at before ⊢
      omega
  | received =>
      refine watched.notice rfl (fun _ => .inl ?_) ?_ rfl rfl opened reported <;>
        simp [loop, raising]
  | returns =>
      refine watched.notice rfl (fun reads => .inl ?_) ?_ rfl rfl opened reported
      · simpa [loop] using reads
      · simp [raising]
  | @ends c number closes =>
      refine watched.notice rfl (fun _ => .inr ?_) ?_ rfl rfl opened reported
      · -- The loop reports the end itself unless somebody has done so.
        cases stopped : c.notice.socket.stopped with
        | false =>
            left
            simp [raising]
        | true =>
            rcases stopped_notice stopped with before | unnoticed
            · rcases watched.noticed before with reports | ceased
              · left
                simp [raising] at reports ⊢
                omega
              · exact .inr (.inr ceased)
            · have reports := raising_notice unnoticed
              left
              simp [raising] at reports ⊢
              omega
      · simp [raising]
  | @restarts c =>
      refine watched.keep rfl .inl (fun shut calls => .inl ⟨shut, ?_⟩) (fun _ => ?_)
        (fun reports => .inl ?_) id opened reported
      · simpa using calls
      · rcases (met _ rfl).2 with open' | attended
        · left
          have open' : c.socket.isOpen = true := open'
          simp [loop, open']
        · right
          simpa [Attended, raising, Released] using attended
      · simpa [raising] using reports
  | dataThrows =>
      refine watched.keep rfl .inl (fun shut calls => .inl ⟨shut, ?_⟩) (fun _ => .inr ?_)
        (fun reports => .inl ?_) id opened reported
      · simpa using calls
      · have attended := (met _ rfl).2
        simpa [EndsAttended, Attended, raising, Released] using attended
      · simpa [raising] using reports
  | disconnectedThrows =>
      have attended : d.Attended 0 := by
        rcases (met _ rfl).2 with reports | noticing | ceased
        · left
          simp [raising] at reports ⊢
          omega
        · exact .inr (.inl ⟨noticing.1, by simpa using noticing.2⟩)
        · exact .inr (.inr ceased)
      refine ⟨fun _ => .inr attended, fun marked => ?_, opened, reported⟩
      rcases attended with reports | ⟨unnoticed, -⟩ | ceased
      · exact .inl reports
      · simp [TcpSocket.closedUnnoticed, marked] at unnoticed
      · exact .inr ceased

/-- A lost slot is no reason to stop watching. -/
theorem Watched.evicted (watched : c.Watched) : Watched { c with slot := false } :=
  watched.keep rfl .inl (fun shut calls => .inl ⟨shut, calls⟩) .inl .inl
    (fun ceased => ⟨rfl, ceased.2⟩) watched.opened watched.reported

end Connection

theorem preserves_watched : program.Preserves (Connections Connection.Watched)
    fun s rest move => s.undefined = false ∧
      Meets (fun moment c => AcceptsSucceed moment c ∧ EndsAttended moment c) s rest move :=
  preserves_connections (fun _ _ _ sound watched step met => watched.step sound step met)
    fun _ _ _ socket all defined _ => ((all.each defined socket).2).evicted

/-! ### A stopped server -/

/-- The last `Stop` that took effect has not been followed by `on_stopped_`. -/
def unanswered (events : List Event) : Bool :=
  events.foldl (fun waits event =>
    match event with
    | .stopping => true
    | .stopped => false
    | _ => waits) false

/-- While `on_stopped_` is still to come, there is a client. -/
def Answered (s : State) (_ : Multiset Work) : Prop :=
  s.isRunning = false → unanswered s.events = true → ∃ socket, some socket ∈ s.clientConnections

theorem unanswered_log (s : State) (event : Event) : unanswered (s.log event).events =
    match event with
    | .stopping => true
    | .stopped => false
    | _ => unanswered s.events := by
  cases event <;> simp [unanswered, State.log]

namespace Answered

variable {s after : State} {rest items : Multiset Work}

theorem keep (answered : Answered s rest)
    (running : after.isRunning = false → s.isRunning = false)
    (slots : ∀ socket, some socket ∈ s.clientConnections → some socket ∈ after.clientConnections)
    (events : unanswered after.events = unanswered s.events) : Answered after items := by
  intro idle waits
  obtain ⟨socket, slot⟩ := answered (running idle) (events ▸ waits)
  exact ⟨socket, slots socket slot⟩

/-- `RaiseOnClosed` either raises `on_stopped_` or finds a client. -/
theorem raiseOnClosed (s : State) : Answered s.raiseOnClosed.1 items := by
  intro _ waits
  unfold State.raiseOnClosed at waits ⊢
  split at waits
  · rw [unanswered_log] at waits
    simp at waits
  next some =>
    rw [if_neg some]
    obtain ⟨slot, member, occupied⟩ := List.countP_pos_iff.mp (Nat.pos_of_ne_zero some)
    obtain ⟨socket, rfl⟩ := Option.isSome_iff_exists.mp occupied
    exact ⟨socket, member⟩

end Answered

theorem preserves_answered : program.Preserves Answered fun _ _ _ => True := by
  intro s rest move answered _ _
  have change := stateStep s rest move
  generalize program.stateAfter s rest move = after at change ⊢
  cases change with
  | stops | freedLast => exact Answered.raiseOnClosed _
  | started frame idle =>
      intro stopped
      simp at stopped
  | registered choice socket running found =>
      intro stopped
      exact absurd (stopped.symm.trans running) (by decide)
  | freed handler running =>
      intro stopped
      exact absurd (stopped.symm.trans running) (by decide)
  | listening | connected | disconnected | overrun | written =>
      exact answered.keep id (fun _ slot => slot) (unanswered_log _ _)
  | read choice socket completion payload =>
      have noticed : Answered (s.notice socket) rest := answered
      exact noticed.keep id (fun _ slot => slot) (unanswered_log _ _)
  | _ => exact answered

/-! ### Servers at rest -/

/-- Nothing is outstanding but pending reads and pending accepts. -/
structure Quiescent (s : Server) : Prop where
  defined : s.state.undefined = false
  queue : s.queue = []
  outbox : s.outbox = []
  current : s.current = none
  waiting : ∀ operation result, (operation, result) ∈ s.waiting → result = none ∧
    ((∃ socket, operation = .receive socket) ∨ ∃ generation, operation = .accept generation)

/-- The socket of an occupied slot is open and read from, a closed connection
has been reported and released, and a stopped server without clients has raised
`on_stopped_`. -/
structure NoZombies (s : Server) : Prop where
  occupied : ∀ socket, some socket ∈ s.state.clientConnections →
    (s.state.sockets socket).isOpen = true ∧ (.receive socket, none) ∈ s.waiting
  released : ∀ socket, (s.state.sockets socket).id ≠ 0 →
    (s.state.sockets socket).isOpen = false →
      (∃ id, .disconnected socket id ∈ s.state.events) ∧
        ¬ some socket ∈ s.state.clientConnections
  answered : s.state.isRunning = false → s.state.getConnectedCount = 0 →
    unanswered s.state.events = false

namespace Quiescent

variable {s : Server} {socket : SocketId}

private theorem reading_of_work (quiescent : Quiescent s) {place : Place}
    (some : 0 < Item.count (place.selects socket) s.items) :
    place = .reading ∧ (.receive socket, none) ∈ s.waiting := by
  obtain ⟨item, member, chosen⟩ := Item.count_pos.mp some
  simp only [Strand.items, quiescent.queue, quiescent.outbox, quiescent.current, List.map_nil,
    List.nil_append, Option.toList_none, List.append_nil, Multiset.mem_coe, List.mem_map] at member
  obtain ⟨⟨operation, result⟩, waits, rfl⟩ := member
  obtain ⟨rfl, ⟨owner, rfl⟩ | ⟨generation, rfl⟩⟩ := quiescent.waiting operation result waits
  · cases place <;> simp [Place.operation] at chosen
    exact ⟨rfl, chosen ▸ waits⟩
  · cases place <;> simp [Place.operation] at chosen

theorem noZombies (quiescent : Quiescent s)
    (connections : Connections Connection.Watched s.state s.items)
    (answered : Answered s.state s.items) : NoZombies s := by
  have settled (socket : SocketId) (registered : (s.state.sockets socket).id ≠ 0) :
      ((s.state.sockets socket).isOpen = true ∧ (.receive socket, none) ∈ s.waiting) ∨
        (s.state.connection s.items socket).Released := by
    have idle {place : Place} (other : place ≠ .reading) :
        Item.count (place.selects socket) s.items = 0 :=
      Nat.eq_zero_of_not_pos fun some => other (quiescent.reading_of_work some).1
    obtain ⟨sound, watched⟩ := connections.each quiescent.defined socket
    rcases watched.watched registered with reads | reports | ⟨-, calls⟩ | ceased
    · left
      have pending : 0 < Item.count (Place.reading.selects socket) s.items := by
        simpa [Connection.loop, idle] using reads
      exact ⟨sound.reading pending, (quiescent.reading_of_work pending).2⟩
    · simp [Connection.raising, idle] at reports
    · rw [State.connection_work, idle (by simp)] at calls
      exact absurd calls (Nat.lt_irrefl 0)
    · exact .inr ceased
  constructor
  · intro socket slot
    rcases settled socket (connections.sound.registered_of_slot slot) with reads | ceased
    · exact reads
    · exact absurd slot (of_decide_eq_false ceased.1)
  · intro socket registered shut
    rcases settled socket registered with reads | ceased
    · simp [shut] at reads
    · refine ⟨?_, of_decide_eq_false ceased.1⟩
      obtain ⟨event, logged, reports⟩ := List.countP_pos_iff.mp ceased.2
      cases event with
      | disconnected owner id =>
          obtain rfl : owner = socket := by simpa [Event.reports] using reports
          exact ⟨id, logged⟩
      | listening | connected | data | stopping | stopped | written =>
          simp [Event.reports] at reports
  · intro idle empty
    cases waits : unanswered s.state.events with
    | false => rfl
    | true =>
        obtain ⟨socket, slot⟩ := answered idle waits
        have free := List.countP_eq_zero.mp empty (some socket) slot
        simp at free

end Quiescent

/-- In a run in which every accept succeeds, a server at rest has no zombies, if
the read loop of a closed connection ends only when the end of the connection
is attended to, and the subscribers to it return. -/
theorem no_zombies {maxConnections : Nat} {actions : List ServerAction}
    (legal : program.system.Legal (initial maxConnections) actions)
    (accepts : program.system.EveryStep (Strand.During (Meets AcceptsSucceed))
      (initial maxConnections) actions)
    (attended : program.system.EveryStep (Strand.During (Meets EndsAttended))
      (initial maxConnections) actions) :
    program.system.EveryState (fun s => Quiescent s → NoZombies s) (initial maxConnections)
      actions := by
  have both := everyState_of_connections preserves_watched
    ⟨fun registered => absurd rfl registered, fun stopped => by simp at stopped,
      fun accepted => by simp at accepted, Nat.le_refl 0⟩ legal
    ((accepts.and attended).imp fun s action met => Meets.and met.1 met.2)
  have anything : program.system.EveryStep (Strand.During fun _ _ _ => True)
      (initial maxConnections) actions :=
    Strand.everyStep_of_forall fun _ _ _ => trivial
  have answers := Strand.everyState_of_bag preserves_answered
    (fun _ waits => by simp [initial, unanswered] at waits) legal anything
  exact (both.and answers).imp fun s holds quiescent => quiescent.noZombies holds.1 holds.2

/-- The data subscriber stops the server: the close task runs between `Start`
and its lambda. -/
def stopInData : List ServerAction :=
  acceptedConnection ++
    [.complete 0 ⟨.success, [104, 105]⟩, .deliver 0, .begin {}, .act .stop, .flush, .act .leave,
      .flush, .begin {}, .flush, .begin {}, .flush, .begin {}, .begin {}, .act .leave, .flush,
      .begin {}, .deliver 0, .begin {}]

/-- After `stopInData` the server is at rest, and its slot holds a closed socket
whose end nobody has reported. -/
theorem zombie_stopInData :
    program.system.Legal (initial 1) stopInData ∧
      program.system.EveryStep (Strand.During (Meets AcceptsSucceed)) (initial 1) stopInData ∧
      ¬ program.system.EveryState (fun s => Quiescent s → NoZombies s) (initial 1)
        stopInData := by
  refine ⟨by decide, by decide, fun holds => ?_⟩
  have rests : Quiescent (program.system.run (initial 1) stopInData) := by
    refine ⟨by decide, by decide, by decide, by decide, fun operation result waits => ?_⟩
    have nobody : (program.system.run (initial 1) stopInData).waiting = [] := by decide
    simp [nobody] at waits
  have opened := ((holds.last rests).occupied 0 (by decide)).1
  exact absurd opened (by decide)

/-- The client goes before the server is stopped. -/
def stopAfterClient : List ServerAction :=
  acceptedConnection ++
    [.complete 0 ⟨.eof, []⟩, .deliver 0, .begin {}, .flush, .begin {}, .act .leave, .post .user,
      .begin {}, .act .stop, .flush, .act .leave, .begin {}, .act .leave, .deliver 0, .begin {}]

theorem no_zombies_stopAfterClient :
    program.system.EveryState (fun s => Quiescent s → NoZombies s) (initial 1)
      stopAfterClient :=
  no_zombies (by decide) (by decide) (by decide)

end TcpServer

end FlatAsync
