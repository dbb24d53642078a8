import FlatAsync.TcpServer

/-!
# The sockets of a server

What holds of each socket in every run of a server, whatever its users do: how
the slot table and the ids fit together, that a socket is accepted once, has
one read loop at most and is left alone before it is registered.
-/

namespace FlatAsync

namespace TcpServer

/-- What pending work may be for a socket: a place of its read loop, a step of
the way from a noticed disconnect to the free slot, an operation on the socket,
the task that will run `OnAccepted` for it, or the task that closes it. -/
inductive Role
  | loop
  | raising
  | inFlight
  | accepting
  | closing
  deriving DecidableEq, Repr

namespace Role

def task (socket : SocketId) : Role → Task → Bool
  | loop, .socket owner .receive | loop, .socket owner .start => owner = socket
  | raising, .socket owner .disconnected | raising, .release owner => owner = socket
  | accepting, .accepted owner => owner = socket
  | closing, .socket owner .close => owner = socket
  | _, _ => false

def handler (socket : SocketId) : Role → Handler → Bool
  | loop, .data owner _ _ => owner = socket
  | raising, .disconnected owner _ => owner = socket
  | _, _ => false

def operation (socket : SocketId) : Role → Operation → Bool
  | loop, .receive owner | inFlight, .receive owner | inFlight, .call owner _ _ =>
      owner = socket
  | role, .call _ _ frame | role, .await frame => role.handler socket frame.handler
  | _, _ => false

def selects (socket : SocketId) (role : Role) : Work → Bool
  | .queued (.task task) => role.task socket task
  | .queued (.resume operation _) | .waiting operation _ => role.operation socket operation
  | .running frame => role.handler socket frame.handler

/-- The number of items that have the role for the socket. -/
def count (role : Role) (socket : SocketId) (items : Multiset Work) : Nat :=
  Item.count (role.selects socket) items

end Role

/-- What holds of a single socket and the work that is pending for it. -/
structure SocketSound (value : TcpSocket) (count : Role → Nat) : Prop where
  stopped : value.stopped = true → value.isOpen = false
  single : count .loop ≤ 1
  once : count .accepting ≤ 1
  unregistered : value.id = 0 → count .loop = 0 ∧ count .raising = 0 ∧ count .inFlight = 0
  accepted : 0 < count .accepting → value.id = 0 ∧ count .closing = 0

structure Sound (s : State) (items : Multiset Work) : Prop where
  ids : ∀ index socket, s.clientConnections[index]? = some (some socket) →
    (s.sockets socket).id = index + 1
  fresh : ∀ socket, s.created ≤ socket →
    s.sockets socket = {} ∧ Role.accepting.count socket items = 0 ∧
      Role.closing.count socket items = 0
  each : ∀ socket, SocketSound (s.sockets socket) fun role => role.count socket items

namespace SocketSound

variable {value after : TcpSocket} {count next : Role → Nat}

theorem mono (sound : SocketSound value count) (id : after.id = value.id)
    (stopped : after.stopped = true → after.isOpen = false)
    (loop : next .loop ≤ count .loop) (accepting : next .accepting ≤ count .accepting)
    (raising : next .raising ≤ count .raising ∨ value.id ≠ 0)
    (inFlight : next .inFlight ≤ count .inFlight ∨ value.id ≠ 0)
    (closing : next .closing ≤ count .closing ∨ value.id ≠ 0 ∨ next .accepting = 0) :
    SocketSound after next where
  stopped := stopped
  single := Nat.le_trans loop sound.single
  once := Nat.le_trans accepting sound.once
  unregistered zero := by
    rw [id] at zero
    obtain ⟨noLoop, noRaising, noInFlight⟩ := sound.unregistered zero
    have still : next .raising ≤ count .raising ∧ next .inFlight ≤ count .inFlight :=
      ⟨raising.resolve_right (· zero), inFlight.resolve_right (· zero)⟩
    omega
  accepted some := by
    obtain ⟨zero, noClosing⟩ := sound.accepted (by omega)
    refine ⟨id.trans zero, ?_⟩
    rcases closing with fewer | registered | none
    · omega
    · exact absurd zero registered
    · omega

end SocketSound

private theorem blind_selects (role : Role) (socket : SocketId) :
    Item.Blind (role.selects socket) :=
  fun _ _ => rfl

section Selects

variable {role : Role} {socket : SocketId} {task : Task} {operation : Operation}
variable {completion : Completion} {result : Option Completion} {frame : Frame}

@[simp]
theorem selects_task : role.selects socket (.queued (.task task)) = role.task socket task :=
  rfl

@[simp]
theorem selects_resume :
    role.selects socket (.queued (.resume operation completion)) =
      role.operation socket operation :=
  rfl

@[simp]
theorem selects_waiting :
    role.selects socket (.waiting operation result) = role.operation socket operation :=
  rfl

@[simp]
theorem selects_running :
    role.selects socket (.running frame) = role.handler socket frame.handler :=
  rfl

@[simp]
theorem handler_inFlight (handler : Handler) : Role.inFlight.handler socket handler = false := by
  cases handler <;> rfl

@[simp]
theorem handler_accepting (handler : Handler) : Role.accepting.handler socket handler = false := by
  cases handler <;> rfl

@[simp]
theorem handler_closing (handler : Handler) : Role.closing.handler socket handler = false := by
  cases handler <;> rfl

end Selects

/-- The work that a stretch of code adds for a socket, compared with the work it
has taken up. -/
structure Modest (value : TcpSocket) (used added : Role → Nat) : Prop where
  loop : added .loop ≤ used .loop
  accepting : added .accepting ≤ used .accepting
  raising : added .raising ≤ used .raising ∨ value.id ≠ 0
  inFlight : added .inFlight ≤ used .inFlight ∨ value.id ≠ 0
  closing : added .closing ≤ used .closing ∨ value.id ≠ 0 ∨
    0 < used .accepting ∧ added .accepting = 0

theorem Modest.quiet {value : TcpSocket} {used added : Role → Nat}
    (fewer : ∀ role, added role ≤ used role) : Modest value used added where
  loop := fewer .loop
  accepting := fewer .accepting
  raising := .inl (fewer .raising)
  inFlight := .inl (fewer .inFlight)
  closing := .inl (fewer .closing)

/-- Any work but that of accepting and of the loop may be added for a registered
socket. -/
theorem Modest.registered {value : TcpSocket} {used added : Role → Nat} (id : value.id ≠ 0)
    (loop : added .loop ≤ used .loop) (accepting : added .accepting ≤ used .accepting) :
    Modest value used added where
  loop := loop
  accepting := accepting
  raising := .inr id
  inFlight := .inr id
  closing := .inr (.inl id)

theorem Role.count_outstanding {role : Role} {socket : SocketId} {segment : Stretch}
    {rest : Multiset Work} : role.count socket (segment.outstanding rest) =
      segment.yield (role.selects socket) + role.count socket rest :=
  Segment.count_outstanding (blind_selects role socket)

theorem Role.count_cons {role : Role} {socket : SocketId} {item : Work} {rest : Multiset Work} :
    role.count socket (item ::ₘ rest) = role.count socket rest + (role.selects socket item).toNat :=
  Item.count_cons

namespace Sound

variable {s : State} {item : Work} {rest items : Multiset Work} {segment : Stretch}
variable {socket : SocketId}

theorem registered_of_slot (sound : Sound s items) (slot : some socket ∈ s.clientConnections) :
    (s.sockets socket).id ≠ 0 := by
  obtain ⟨index, here⟩ := List.mem_iff_getElem?.mp slot
  rw [sound.ids index socket here]
  exact Nat.succ_ne_zero index

theorem created_of_registered (sound : Sound s items) (registered : (s.sockets socket).id ≠ 0) :
    socket < s.created := by
  apply Nat.lt_of_not_le
  intro late
  rw [(sound.fresh socket late).1] at registered
  exact registered rfl

/-- A socket with a read loop, a disconnect under way or an operation is
registered. -/
theorem registered_of_work (sound : Sound s items)
    (work : 0 < Role.loop.count socket items ∨ 0 < Role.raising.count socket items ∨
      0 < Role.inFlight.count socket items) : (s.sockets socket).id ≠ 0 := by
  intro zero
  have none := (sound.each socket).unregistered zero
  omega

/-- Code that takes no slot, does not touch an id and adds work for registered
sockets only. -/
theorem perform (sound : Sound s (item ::ₘ rest))
    (table : ∀ (index : Nat) (socket : SocketId),
      segment.state.clientConnections[index]? = some (some socket) →
      s.clientConnections[index]? = some (some socket))
    (created : segment.state.created = s.created)
    (values : ∀ socket, segment.state.sockets socket = s.sockets socket ∨
      socket < s.created ∧ (segment.state.sockets socket).id = (s.sockets socket).id ∧
        ((segment.state.sockets socket).stopped = true →
          (segment.state.sockets socket).isOpen = false))
    (modest : ∀ socket, Modest (s.sockets socket)
      (fun role => (role.selects socket item).toNat)
        fun role => segment.yield (role.selects socket)) :
    Sound segment.state (segment.outstanding rest) where
  ids index socket slot := by
    have before := sound.ids index socket (table index socket slot)
    rcases values socket with same | ⟨-, id, -⟩
    · rw [same, before]
    · rw [id, before]
  fresh socket late := by
    obtain ⟨value, accepting, closing⟩ := sound.fresh socket (created ▸ late)
    have added := modest socket
    have accepted := added.accepting
    rw [Role.count_cons] at accepting closing
    refine ⟨?_, ?_, ?_⟩
    · rcases values socket with same | ⟨old, -, -⟩
      · rw [same, value]
      · exact absurd (created ▸ late) (Nat.not_le.mpr old)
    · rw [Role.count_outstanding]
      omega
    · rw [Role.count_outstanding]
      rcases added.closing with fewer | registered | ⟨used, -⟩
      · omega
      · simp [value] at registered
      · omega
  each socket := by
    have before := sound.each socket
    simp only [Role.count_cons] at before
    have added := modest socket
    have id : (segment.state.sockets socket).id = (s.sockets socket).id := by
      rcases values socket with same | ⟨-, id, -⟩
      · rw [same]
      · exact id
    have stopped : (segment.state.sockets socket).stopped = true →
        (segment.state.sockets socket).isOpen = false := by
      rcases values socket with same | ⟨-, -, stopped⟩
      · rw [same]
        exact before.stopped
      · exact stopped
    have loop := added.loop
    have accepting := added.accepting
    simp only [Role.count_outstanding]
    refine before.mono id stopped (by omega) (by omega) ?_ ?_ ?_
    · exact added.raising.imp_left fun fewer => by omega
    · exact added.inFlight.imp_left fun fewer => by omega
    · rcases added.closing with fewer | registered | ⟨accepted, none⟩
      · exact .inl (by omega)
      · exact .inr (.inl registered)
      · right
        right
        have once := before.once
        omega

theorem leave (sound : Sound s (item ::ₘ rest))
    (same : segment.state.clientConnections = s.clientConnections ∧
      segment.state.created = s.created ∧ segment.state.sockets = s.sockets)
    (modest : ∀ socket, Modest (s.sockets socket)
      (fun role => (role.selects socket item).toNat)
        fun role => segment.yield (role.selects socket)) :
    Sound segment.state (segment.outstanding rest) :=
  sound.perform (fun _ _ slot => same.1 ▸ slot) same.2.1
    (fun socket => .inl (congrFun same.2.2 socket)) modest

theorem stopServer (sound : Sound s (.queued (.task .stop) ::ₘ rest)) :
    Sound s.stopServer.state (s.stopServer.outstanding rest) := by
  refine sound.leave ?_ fun socket => ?_
  · rcases s.stopServer_state with ⟨acceptor, events, -, -, same⟩ | ⟨undefined, same⟩ <;>
      (rw [same]; exact ⟨rfl, rfl, rfl⟩)
  · have added (role : Role) : s.stopServer.yield (role.selects socket) ≤
        s.stopAll.countP fun task => role.selects socket (.queued (.task task)) := by
      rw [State.stopServer_yield]
      split <;> cases role <;> simp [Role.handler]
    by_cases slot : some socket ∈ s.clientConnections
    · have none (role : Role) (other : role ≠ .closing) :
          s.stopServer.yield (role.selects socket) = 0 := by
        have closes :
            (s.stopAll.countP fun task => role.selects socket (.queued (.task task))) = 0 :=
          State.countP_stopAll fun owner _ => by
            cases role <;> first | rfl | exact absurd rfl other
        exact Nat.le_zero.mp (closes ▸ added role)
      refine .registered (sound.registered_of_slot slot) ?_ ?_
      · simp [none .loop]
      · simp [none .accepting]
    · refine .quiet fun role => ?_
      have closes :
          (s.stopAll.countP fun task => role.selects socket (.queued (.task task))) = 0 :=
        State.countP_stopAll fun owner member => by
          have other : owner ≠ socket := fun same => slot (same ▸ member)
          cases role <;> simp [Role.task, other]
      have none := closes ▸ added role
      omega

theorem stopSocket {id : TcpServerId} {expired : TcpServerId}
    (sound : Sound s (.queued (.task (.stopClient id)) ::ₘ rest)) :
    Sound (s.stopSocket expired).state ((s.stopSocket expired).outstanding rest) := by
  unfold State.stopSocket
  cases found : s.getSocket expired with
  | none =>
      exact sound.leave ⟨rfl, rfl, rfl⟩ fun socket => .quiet fun role => by simp [Segment.yield]
  | some owner =>
      refine sound.leave ⟨rfl, rfl, rfl⟩ fun socket => ?_
      by_cases same : owner = socket
      · subst same
        refine .registered (sound.registered_of_slot (State.mem_of_getSocket found)) ?_ ?_
        · simp [Segment.yield, Role.task]
        · simp [Segment.yield, Role.task]
      · refine .quiet fun role => ?_
        cases role <;> simp [Segment.yield, Role.task, same]

theorem undefinedBehaviour (sound : Sound s (item ::ₘ rest)) :
    Sound s.undefinedBehaviour.state (s.undefinedBehaviour.outstanding rest) :=
  sound.leave ⟨rfl, rfl, rfl⟩ fun socket => .quiet fun role => by
    simp [State.undefinedBehaviour, Segment.yield]

theorem createSocket {opened : Bool} {posts : List Task}
    (sound : Sound s (item ::ₘ rest))
    (used : ∀ (role : Role) (socket : SocketId), role.selects socket item = false)
    (own : ∀ (role : Role) (socket : SocketId),
      (posts.countP fun task => role.selects socket (.queued (.task task))) ≤
        (decide (role = .accepting) && decide (socket = s.created)).toNat) :
    Sound (s.createSocket opened)
      (({ state := s.createSocket opened, posts := posts } : Stretch).outstanding rest) := by
  have count (role : Role) (socket : SocketId) : role.count socket
      (({ state := s.createSocket opened, posts := posts } : Stretch).outstanding rest) ≤
        (decide (role = .accepting) && decide (socket = s.created)).toNat +
          role.count socket (item ::ₘ rest) := by
    have added := own role socket
    rw [Role.count_outstanding, Role.count_cons, used]
    simp only [Segment.yield, After.items_finish, Item.count_zero, Bool.toNat_false]
    omega
  have other {socket : SocketId} (ne : socket ≠ s.created) :
      (s.createSocket opened).sockets socket = s.sockets socket := by
    simp [State.createSocket, State.setSocket, ne]
  constructor
  · intro index socket slot
    have id := sound.ids index socket slot
    have old : socket ≠ s.created := by
      rintro rfl
      rw [(sound.fresh _ (Nat.le_refl _)).1] at id
      simp at id
    rw [other old, id]
  · intro socket late
    have ne : socket ≠ s.created := by
      rintro rfl
      exact absurd late (by simp [State.createSocket])
    have before := sound.fresh socket (Nat.le_of_succ_le late)
    have accepting := count .accepting socket
    have closing := count .closing socket
    simp only [ne, decide_false, Bool.and_false, Bool.toNat_false] at accepting closing
    exact ⟨(other ne).trans before.1, by omega, by omega⟩
  · intro socket
    have before := sound.each socket
    have some (role : Role) := count role socket
    by_cases same : socket = s.created
    · subst same
      obtain ⟨value, accepting, closing⟩ := sound.fresh _ (Nat.le_refl s.created)
      obtain ⟨loop, raising, inFlight⟩ := before.unregistered (by rw [value])
      have new : (s.createSocket opened).sockets s.created = { isOpen := opened } := by
        simp [State.createSocket, State.setSocket]
      have atLoop := some .loop
      have atRaising := some .raising
      have atInFlight := some .inFlight
      have atAccepting := some .accepting
      have atClosing := some .closing
      simp at atLoop atRaising atInFlight atAccepting atClosing
      rw [new]
      exact ⟨fun stopped => by simp at stopped, by omega, by omega, fun _ => by omega,
        fun _ => ⟨rfl, by omega⟩⟩
    · have fewer (role : Role) : role.count socket _ ≤ _ := some role
      simp only [same, decide_false, Bool.and_false, Bool.toNat_false, Nat.zero_add] at fewer
      rw [other same]
      exact before.mono rfl before.stopped (fewer .loop) (fewer .accepting) (.inl (fewer .raising))
        (.inl (fewer .inFlight)) (.inl (fewer .closing))

theorem afterAccept {generation : Nat} {completion : Completion}
    (sound : Sound s (.queued (.resume (.accept generation) completion) ::ₘ rest)) :
    Sound (s.afterAccept generation completion).state
      ((s.afterAccept generation completion).outstanding rest) := by
  have used (role : Role) (socket : SocketId) :
      role.selects socket (.queued (.resume (.accept generation) completion)) = false := by
    cases role <;> rfl
  unfold State.afterAccept
  split
  · split
    · split
      · refine sound.createSocket used fun role socket => ?_
        have same : (s.created = socket) = (socket = s.created) := propext eq_comm
        cases role <;> cases here : decide (socket = s.created) <;>
          simp_all [Role.task]
      · exact sound.createSocket used fun role socket => by simp
    · exact sound.undefinedBehaviour
  · exact sound.undefinedBehaviour

theorem connect {index : Nat} (sound : Sound s (.queued (.task (.accepted socket)) ::ₘ rest)) :
    Sound (s.connect index socket).state ((s.connect index socket).outstanding rest) := by
  have value : (s.connect index socket).state.sockets socket =
      { s.sockets socket with id := index + 1 } := by
    simp [State.connect, State.register, State.setSocket]
  have other {owner : SocketId} (ne : owner ≠ socket) :
      (s.connect index socket).state.sockets owner = s.sockets owner := by
    simp [State.connect, State.register, State.setSocket, State.setSlot, ne]
  have added (role : Role) (owner : SocketId) :
      (s.connect index socket).yield (role.selects owner) ≤
        (decide (role = .loop) && decide (owner = socket)).toNat := by
    by_cases same : owner = socket
    · subst same
      cases opened : (s.sockets owner).isOpen <;> cases role <;>
        simp [State.connect, Segment.yield, Role.task, opened]
    · cases role <;> simp [State.connect, Segment.yield, Role.task, Ne.symm same]
  have accepting := (sound.each socket).once
  obtain ⟨unregistered, noClosing⟩ := (sound.each socket).accepted
    (Item.count_pos_of_mem (Multiset.mem_cons_self _ _) (by simp [Role.task]))
  rw [Role.count_cons] at accepting noClosing
  simp only [selects_task, Role.task, decide_true, Bool.toNat_true] at accepting noClosing
  constructor
  · intro place owner slot
    simp only [State.connect, State.register, State.setSocket, State.setSlot,
      List.getElem?_set] at slot
    split at slot
    next here =>
      obtain rfl : socket = owner := by
        split at slot <;> simp at slot
        exact slot
      rw [value, here]
    next =>
      have id := sound.ids place owner slot
      have ne : owner ≠ socket := by
        rintro rfl
        simp [unregistered] at id
      rw [other ne, id]
  · intro owner late
    have before := sound.fresh owner late
    have ne : owner ≠ socket := by
      rintro rfl
      have none := before.2.1
      simp [Role.count_cons, Role.task] at none
    have noAccepting := added .accepting owner
    have noClosing := added .closing owner
    simp only [Role.count_cons] at before
    simp at noAccepting noClosing
    refine ⟨(other ne).trans before.1, ?_, ?_⟩ <;>
      · rw [Role.count_outstanding]
        omega
  · intro owner
    have before := sound.each owner
    by_cases same : owner = socket
    · subst same
      obtain ⟨noLoop, -, -⟩ := before.unregistered unregistered
      rw [Role.count_cons] at noLoop
      have one := added .loop owner
      have none := added .accepting owner
      simp only [decide_true, Bool.and_self, Bool.toNat_true] at one
      simp at none
      simp only [value, Role.count_outstanding]
      refine ⟨before.stopped, by omega, by omega, fun zero => ?_, fun some => ?_⟩
      · simp at zero
      · omega
    · have fewer (role : Role) : role.count owner ((s.connect index socket).outstanding rest) ≤
          role.count owner (.queued (.task (.accepted socket)) ::ₘ rest) := by
        have none := added role owner
        simp only [same, decide_false, Bool.and_false, Bool.toNat_false] at none
        rw [Role.count_outstanding, Role.count_cons]
        omega
      rw [other same]
      exact before.mono rfl before.stopped (fewer .loop) (fewer .accepting) (.inl (fewer .raising))
        (.inl (fewer .inFlight)) (.inl (fewer .closing))

/-- `OnAccepted` begins the only read loop of a socket. -/
theorem onAccepted (sound : Sound s (.queued (.task (.accepted socket)) ::ₘ rest)) :
    Sound (s.onAccepted socket).state ((s.onAccepted socket).outstanding rest) := by
  unfold State.onAccepted
  split
  · split
    next =>
      -- The refused socket is closed.
      refine sound.leave ⟨rfl, rfl, rfl⟩ fun owner => ?_
      by_cases same : socket = owner
      · subst same
        refine ⟨?_, ?_, .inl ?_, .inl ?_, .inr (.inr ⟨?_, ?_⟩)⟩ <;>
          simp [Segment.yield, Role.task]
      · refine .quiet fun role => ?_
        cases role <;> simp [Segment.yield, Role.task, same]
    next index free => exact sound.connect
  · exact sound.leave ⟨rfl, rfl, rfl⟩ fun owner => .quiet fun role => by simp [Segment.yield]

theorem afterRead {entry : Entry Task Operation Completion} {posts : List Task} {buffer : Buffer}
    {error : ErrorType} {after : State}
    (sound : Sound s (.queued entry ::ₘ rest))
    (loop : Role.loop.selects socket (.queued entry) = true)
    (table : after.clientConnections = s.clientConnections) (created : after.created = s.created)
    (values : ∀ socket, after.sockets socket = s.sockets socket ∨
      socket < s.created ∧ (after.sockets socket).id = (s.sockets socket).id ∧
        ((after.sockets socket).stopped = true → (after.sockets socket).isOpen = false))
    (own : ∀ task ∈ posts, task = .socket socket .disconnected) :
    Sound (after.afterRead socket posts buffer error).state
      ((after.afterRead socket posts buffer error).outstanding rest) := by
  obtain ⟨events, state⟩ := after.afterRead_state socket posts buffer error
  refine sound.perform (by rw [state]; exact fun _ _ slot => table ▸ slot)
    (by rw [state]; exact created)
    (by rw [state]; exact values) fun owner => ?_
  clear state
  have raises (role : Role)
      (off : role.task owner (.socket socket .disconnected) = false) :
      (posts.countP fun task => role.selects owner (.queued (.task task))) = 0 := by
    rw [List.countP_eq_zero]
    intro task posted
    rw [own task posted]
    simp [off]
  by_cases same : socket = owner
  · subst same
    have id : (s.sockets socket).id ≠ 0 :=
      sound.registered_of_work (.inl (Item.count_pos_of_mem (Multiset.mem_cons_self _ _) loop))
    refine .registered id ?_ ?_
    · rw [loop, State.afterRead_yield, raises .loop rfl]
      cases error <;> simp [ErrorType.readOutcome, Role.task, Role.handler]
    · rw [State.afterRead_yield, raises .accepting rfl]
      cases error <;> simp [ErrorType.readOutcome, Role.task, Role.handler]
  · refine .quiet fun role => ?_
    rw [State.afterRead_yield, raises role (by cases role <;> simp [Role.task, same])]
    cases error <;> cases role <;> simp [ErrorType.readOutcome, Role.task, Role.handler, same]

/-- What a coroutine finds after an operation on a registered socket. -/
theorem notice_values (sound : Sound s items) (registered : (s.sockets socket).id ≠ 0)
    (owner : SocketId) : (s.notice socket).sockets owner = s.sockets owner ∨
      owner < s.created ∧ ((s.notice socket).sockets owner).id = (s.sockets owner).id ∧
        (((s.notice socket).sockets owner).stopped = true →
          ((s.notice socket).sockets owner).isOpen = false) := by
  by_cases same : owner = socket
  · subst same
    have value : (s.notice owner).sockets owner = (s.sockets owner).afterOperation.1 := by
      simp [State.notice, State.setSocket]
    refine .inr ⟨sound.created_of_registered registered, ?_, ?_⟩
    · simp [value]
    · rw [value, TcpSocket.afterOperation_stopped, TcpSocket.afterOperation_isOpen]
      have before := (sound.each owner).stopped
      cases opened : (s.sockets owner).isOpen with
      | false => simp
      | true => simpa [opened] using before
  · left
    simp [State.notice, State.setSocket, same]

theorem mem_noticePosts {task : Task} (posted : task ∈ s.noticePosts socket) :
    task = .socket socket .disconnected := by
  simp only [State.noticePosts, TcpSocket.afterOperation] at posted
  split at posted
  · simpa using posted
  · simp at posted

theorem received {completion : Completion} {choice : Choice}
    (sound : Sound s (.queued (.resume (.receive socket) completion) ::ₘ rest)) :
    Sound (s.begin choice rest (.resume (.receive socket) completion)).state
      ((s.begin choice rest (.resume (.receive socket) completion)).outstanding rest) := by
  have registered : (s.sockets socket).id ≠ 0 :=
    sound.registered_of_work (.inl (Item.count_pos_of_mem (Multiset.mem_cons_self _ _)
      (by simp [Role.operation])))
  exact sound.afterRead (by simp [Role.operation]) rfl rfl (sound.notice_values registered)
    fun task posted => mem_noticePosts posted

theorem called {call : SocketCall} {frame : Frame} {completion : Completion} {choice : Choice}
    (sound : Sound s (.queued (.resume (.call socket call frame) completion) ::ₘ rest)) :
    Sound (s.begin choice rest (.resume (.call socket call frame) completion)).state
      ((s.begin choice rest (.resume (.call socket call frame) completion)).outstanding rest) := by
  have registered : (s.sockets socket).id ≠ 0 :=
    sound.registered_of_work (.inr (.inr (Item.count_pos_of_mem (Multiset.mem_cons_self _ _)
      (by simp [Role.operation]))))
  refine sound.perform (fun _ _ slot => slot) rfl (sound.notice_values registered) fun owner => ?_
  by_cases same : socket = owner
  · subst same
    refine .registered registered ?_ ?_ <;>
      simp [State.begin, Segment.yield, Role.task, Role.operation]
  · refine .quiet fun role => ?_
    cases role <;> simp [State.begin, Segment.yield, Role.task, Role.operation, same]

theorem socketTask {task : SocketTask}
    (sound : Sound s (.queued (.task (.socket socket task)) ::ₘ rest)) :
    Sound (s.socketTask socket task).state ((s.socketTask socket task).outstanding rest) := by
  cases task with
  | receive =>
      have registered : (s.sockets socket).id ≠ 0 :=
        sound.registered_of_work (.inl (Item.count_pos_of_mem (Multiset.mem_cons_self _ _)
          (by simp [Role.task])))
      simp only [State.socketTask]
      split
      · refine sound.leave ⟨rfl, rfl, rfl⟩ fun owner => ?_
        by_cases same : socket = owner
        · subst same
          refine .registered registered ?_ ?_ <;> simp [Segment.yield, Role.task, Role.operation]
        · refine .quiet fun role => ?_
          cases role <;> simp [Segment.yield, Role.operation, same]
      · exact sound.afterRead (by simp [Role.task]) rfl rfl (fun _ => .inl rfl) (by simp)
  | start =>
      refine sound.leave ⟨rfl, rfl, rfl⟩ fun owner => .quiet fun role => ?_
      cases role <;> cases opened : (s.sockets socket).isOpen <;>
        simp [State.socketTask, Segment.yield, Role.task, opened]
  | close =>
      have old : socket < s.created := by
        apply Nat.lt_of_not_le
        intro late
        have none := (sound.fresh socket late).2.2
        simp [Role.count_cons, Role.task] at none
      refine sound.perform (fun _ _ slot => slot) rfl (fun owner => ?_)
        fun owner => .quiet fun role => ?_
      · by_cases same : owner = socket
        · subst same
          exact .inr ⟨old, by simp [State.socketTask, State.setSocket, TcpSocket.close],
            by simp [State.socketTask, State.setSocket, TcpSocket.close]⟩
        · exact .inl (by simp [State.socketTask, State.setSocket, same])
      · simp [State.socketTask, Segment.yield]
  | disconnected =>
      refine sound.leave ⟨rfl, rfl, rfl⟩ fun owner => .quiet fun role => ?_
      by_cases same : socket = owner <;> cases role <;>
        simp [State.socketTask, Segment.yield, Role.task, same]

theorem raise {frame : Frame} {task : Task} {after : State}
    (sound : Sound s (.queued (.task task) ::ₘ rest))
    (same : after.clientConnections = s.clientConnections ∧ after.created = s.created ∧
      after.sockets = s.sockets)
    (takes : ∀ (role : Role) (owner : SocketId),
      role.handler owner frame.handler = true → role.task owner task = true) :
    Sound after (({ state := after, after := .run frame } : Stretch).outstanding rest) := by
  let segment : Stretch := { state := after, after := .run frame }
  change Sound segment.state (segment.outstanding rest)
  refine sound.leave same fun owner => .quiet fun role => ?_
  have taken := takes role owner
  cases runs : role.handler owner frame.handler with
  | false => simp [segment, Segment.yield, runs]
  | true => simp [segment, Segment.yield, runs, taken runs]

theorem doAccept (sound : Sound s (item ::ₘ rest)) :
    Sound s.doAccept.state (s.doAccept.outstanding rest) := by
  unfold State.doAccept
  split
  · refine sound.leave ⟨rfl, rfl, rfl⟩ fun socket => .quiet fun role => ?_
    cases role <;> simp [Segment.yield, Role.operation]
  · exact sound.undefinedBehaviour

theorem startListening {choice : Choice} (sound : Sound s (item ::ₘ rest)) :
    Sound (s.startListening choice).state ((s.startListening choice).outstanding rest) := by
  unfold State.startListening
  split
  · split
    · refine sound.leave ⟨rfl, rfl, rfl⟩ fun socket => .quiet fun role => ?_
      cases role <;> simp [Segment.yield, Role.operation, Role.task]
    · exact sound.leave ⟨rfl, rfl, rfl⟩ fun socket => .quiet fun role => by simp [Segment.yield]
  · exact sound.leave ⟨rfl, rfl, rfl⟩ fun socket => .quiet fun role => by simp [Segment.yield]

theorem begin {choice : Choice} {entry : Entry Task Operation Completion}
    (sound : Sound s (.queued entry ::ₘ rest)) :
    Sound (s.begin choice rest entry).state ((s.begin choice rest entry).outstanding rest) := by
  cases entry with
  | task task =>
      cases task with
      | user => exact sound.raise ⟨rfl, rfl, rfl⟩ fun role _ runs => by cases role <;> cases runs
      | start => exact sound.startListening
      | listening =>
          exact sound.raise ⟨rfl, rfl, rfl⟩ fun role _ runs => by cases role <;> cases runs
      | accepted socket => exact sound.onAccepted
      | connected socket =>
          simp only [State.begin, State.raiseConnected]
          split
          · exact sound.raise ⟨rfl, rfl, rfl⟩ fun role _ runs => by cases role <;> cases runs
          · exact sound.undefinedBehaviour
      | socket socket task => exact sound.socketTask
      | release socket =>
          simp only [State.begin, State.raiseDisconnected]
          split
          · exact sound.raise ⟨rfl, rfl, rfl⟩ fun role _ runs => by
              cases role <;> exact runs
          · exact sound.undefinedBehaviour
      | rearm =>
          simp only [State.begin]
          split
          · exact sound.doAccept
          · exact sound.leave ⟨rfl, rfl, rfl⟩ fun socket => .quiet fun role => by
              simp [Segment.yield]
      | stop => exact sound.stopServer
      | stopClient id => exact sound.stopSocket
  | resume operation completion =>
      cases operation with
      | accept generation => exact sound.afterAccept
      | receive socket => exact sound.received
      | call socket call frame => exact sound.called
      | await frame =>
          refine sound.leave ⟨rfl, rfl, rfl⟩ fun socket => .quiet fun role => ?_
          cases role <;> simp [State.begin, Segment.yield, Role.operation]

theorem callSocket {frame next : Frame} {id : Nat} {call : SocketCall}
    (sound : Sound s (.running frame ::ₘ rest)) (same : next.handler = frame.handler) :
    Sound (s.callSocket next id call).state ((s.callSocket next id call).outstanding rest) := by
  obtain ⟨events, state⟩ := s.callSocket_state next id call
  refine sound.leave (by rw [state]; exact ⟨rfl, rfl, rfl⟩) fun socket => ?_
  clear state
  simp only [State.callSocket_yield]
  cases found : s.getSocket id with
  | none => exact .quiet fun role => by simp [same]
  | some owner =>
      dsimp only
      split
      · exact .quiet fun role => by simp [same]
      · by_cases other : owner = socket
        · subst other
          refine .registered (sound.registered_of_slot (State.mem_of_getSocket found)) ?_ ?_ <;>
            simp [Role.operation, same]
        · refine .quiet fun role => ?_
          cases role <;> simp [Role.operation, same, other]

theorem releaseSocket {frame : Frame} {id : Nat} (sound : Sound s (.running frame ::ₘ rest)) :
    Sound (s.releaseSocket id).state ((s.releaseSocket id).outstanding rest) := by
  have quiet (owner : SocketId) : Modest (s.sockets owner)
      (fun role => (role.selects owner (.running frame)).toNat)
        fun role => (s.releaseSocket id).yield (role.selects owner) := by
    refine .quiet fun role => ?_
    rw [State.releaseSocket_yield]
    cases role <;> simp [Role.handler]
  rcases s.releaseSocket_state id with ⟨events, state⟩ | state
  · refine sound.perform (fun index owner slot => ?_) (by rw [state]; rfl)
      (fun owner => .inl (by rw [state]; rfl)) quiet
    rw [state] at slot
    simp only [State.setSlot, List.getElem?_set] at slot
    split at slot
    · split at slot <;> simp at slot
    · exact slot
  · exact sound.leave (by rw [state]; exact ⟨rfl, rfl, rfl⟩) quiet

theorem act {frame : Frame} {call : Call} (sound : Sound s (.running frame ::ₘ rest)) :
    Sound (s.act frame call).state ((s.act frame call).outstanding rest) := by
  cases call with
  | start =>
      refine sound.leave ?_ fun socket => .quiet fun role => ?_
      · simp only [State.act, State.start]
        split <;> exact ⟨rfl, rfl, rfl⟩
      · simp only [State.act, State.start]
        split <;> cases role <;> simp [Segment.yield, Frame.next, Role.task]
  | call id call => exact sound.callSocket rfl
  | leave =>
      obtain ⟨handler, calls⟩ := frame
      cases handler with
      | disconnected socket id => exact sound.releaseSocket
      | data socket id payload =>
          refine sound.leave ⟨rfl, rfl, rfl⟩ fun owner => .quiet fun role => ?_
          by_cases same : socket = owner <;> cases role <;>
            simp [State.act, State.returned, Segment.yield, Role.task, Role.handler, same]
      | task | listening | connected | stopped =>
          exact sound.leave ⟨rfl, rfl, rfl⟩ fun owner => .quiet fun role => by
            simp [State.act, State.returned, Segment.yield]
  | stop | stopClient | runAsync | await | throw =>
      refine sound.leave ⟨rfl, rfl, rfl⟩ fun owner => .quiet fun role => ?_
      cases role <;> simp [State.act, Segment.yield, Frame.next, Role.task, Role.operation]

/-- Work that the roles do not see may be added, and any work may go. -/
theorem fewer (sound : Sound s items)
    (counts : ∀ (role : Role) (socket : SocketId),
      role.count socket rest ≤ role.count socket items) : Sound s rest where
  ids := sound.ids
  fresh socket late := by
    have before := sound.fresh socket late
    have accepting := counts .accepting socket
    have closing := counts .closing socket
    exact ⟨before.1, by omega, by omega⟩
  each socket :=
    (sound.each socket).mono rfl (sound.each socket).stopped (counts .loop socket)
      (counts .accepting socket) (.inl (counts .raising socket)) (.inl (counts .inFlight socket))
      (.inl (counts .closing socket))

end Sound

theorem preserves_sound : program.Preserves Sound fun _ _ _ => True := by
  intro s rest move sound allowed _
  cases move with
  | post task =>
      obtain rfl : task = .user := allowed
      refine sound.fewer fun role socket => ?_
      rw [Program.itemsAfter, Role.count_cons]
      cases role <;> simp [Move.consumed, Role.task]
  | complete operation completion | deliver operation completion =>
      refine sound.fewer fun role socket => ?_
      rw [Program.itemsAfter, Move.consumed, Multiset.singleton_add, Role.count_cons,
        Role.count_cons]
      simp
  | begin choice entry => exact Sound.begin sound
  | act frame call => exact Sound.act sound

theorem sound_initial (maxConnections : Nat) :
    Sound (initial maxConnections).state (initial maxConnections).items where
  ids index socket slot := by
    simp only [initial, List.getElem?_replicate] at slot
    split at slot <;> simp at slot
  fresh _ _ := ⟨rfl, rfl, rfl⟩
  each _ := ⟨fun stopped => absurd stopped (by simp [initial]), Nat.zero_le _, Nat.zero_le _,
    fun _ => ⟨rfl, rfl, rfl⟩,
    fun some => absurd some (by simp [Role.count, initial, Strand.items])⟩

end TcpServer

end FlatAsync
