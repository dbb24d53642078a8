import FlatAsync.ServerOrder

/-!
# The slot table

The slots of a server are numbered from 0 and its connections from 1, and a slot
is used again as soon as it is free.  This file shows which moves change the
table and how, that slots and ids fit together in every state, and when the end
of a connection frees no other slot than its own.
-/

namespace FlatAsync

namespace TcpServer

/-- How a move changes the table: an accepted socket takes the first free slot, or
the slot of a reported id is emptied. -/
inductive TableChange (s : State) : ServerMove → List (Option SocketId) → Prop
  | same {move : ServerMove} : TableChange s move s.clientConnections
  | taken {choice : Choice} {socket : SocketId} {index : Nat} (running : s.isRunning = true)
      (found : s.getNewConnectionIndex = some index) :
      TableChange s (.begin choice (.task (.accepted socket)))
        (s.clientConnections.set index (some socket))
  | freed {frame : Frame} {socket : SocketId} {id : TcpServerId}
      (handler : frame.handler = .disconnected socket id) :
      TableChange s (.act frame .leave) (s.clientConnections.set (getSocketIndex id) none)

section Changes

variable {s : State}

theorem tableChange (s : State) (rest : Multiset Work) (move : ServerMove) :
    TableChange s move (program.stateAfter s rest move).clientConnections := by
  have change := stateStep s rest move
  generalize program.stateAfter s rest move = after at change ⊢
  cases change with
  | registered choice socket running found => exact .taken running found
  | freed handler running => exact .freed handler
  | stops choice running present =>
      obtain ⟨events, same⟩ := State.raiseOnClosed_state _
      rw [same]
      exact .same
  | freedLast handler idle =>
      obtain ⟨events, same⟩ := State.raiseOnClosed_state _
      rw [same]
      exact .freed handler
  | _ => exact .same

theorem TableChange.length_eq {move : ServerMove} {slots : List (Option SocketId)}
    (change : TableChange s move slots) : slots.length = s.clientConnections.length := by
  cases change with
  | same => rfl
  | taken | freed => apply List.length_set

end Changes

/-- The table has `maxConnections` slots, the socket in slot `i` has the id `i + 1`
and no other slot, and `GetSocket` finds the sockets in the table by their ids and
nothing else. -/
structure SlotTable (maxConnections : Nat) (s : State) : Prop where
  length : s.clientConnections.length = maxConnections
  ids : ∀ (index : Nat) (socket : SocketId), s.clientConnections[index]? = some (some socket) →
    (s.sockets socket).id = index + 1
  once : ∀ (first second : Nat) (socket : SocketId),
    s.clientConnections[first]? = some (some socket) →
      s.clientConnections[second]? = some (some socket) → first = second
  found : ∀ id socket, s.getSocket id = some socket ↔
    some socket ∈ s.clientConnections ∧ (s.sockets socket).id = id
  outside : ∀ id, id = 0 ∨ maxConnections < id → s.getSocket id = none

/-- An accepted connection leaves the occupied slots alone.  A server that runs
gives it a free slot, or refuses it when all slots are occupied. -/
def AcceptsIntoFreeSlot (s : State) (rest : Multiset Work) : ServerMove → Prop
  | .begin choice (.task (.accepted socket)) =>
      let after := program.stateAfter s rest (.begin choice (.task (.accepted socket)))
      (∀ (index : Nat) (other : SocketId), s.clientConnections[index]? = some (some other) →
        after.clientConnections[index]? = some (some other)) ∧
      (s.isRunning = true →
        (∃ index : Nat, s.clientConnections[index]? = some none ∧
          after.clientConnections[index]? = some (some socket)) ∨
        after.clientConnections = s.clientConnections ∧ none ∉ s.clientConnections)
  | _ => True

namespace Sound

variable {s : State} {items : Multiset Work} {maxConnections : Nat}

theorem getSocket_iff (sound : Sound s items) (id : Nat) (socket : SocketId) :
    s.getSocket id = some socket ↔
      some socket ∈ s.clientConnections ∧ (s.sockets socket).id = id := by
  rw [State.getSocket_eq_some, slot_iff sound]
  constructor
  · rintro ⟨positive, slot⟩
    have own : (s.sockets socket).id = id := by
      have next := sound.ids (id - 1) socket slot
      omega
    rw [own]
    exact ⟨⟨by omega, slot⟩, rfl⟩
  · rintro ⟨⟨registered, slot⟩, rfl⟩
    exact ⟨by omega, slot⟩

theorem slotTable (sound : Sound s items) (length : s.clientConnections.length = maxConnections) :
    SlotTable maxConnections s where
  length := length
  ids := sound.ids
  once first second socket here there := by
    have one := sound.ids first socket here
    have two := sound.ids second socket there
    omega
  found := sound.getSocket_iff
  outside id range := by
    unfold State.getSocket getSocketIndex
    rcases range with rfl | large
    · rfl
    · have positive : ¬ id < 1 := by omega
      have beyond : s.clientConnections.length ≤ id - 1 := by omega
      simp [positive, beyond]

end Sound

private theorem none_notMem_of_index {s : State} (full : s.getNewConnectionIndex = none) :
    none ∉ s.clientConnections := by
  intro free
  have occupied := List.findIdx?_eq_none_iff.mp full none free
  simp at occupied

theorem acceptsIntoFreeSlot (s : State) (rest : Multiset Work) (move : ServerMove) :
    AcceptsIntoFreeSlot s rest move := by
  unfold AcceptsIntoFreeSlot
  split
  next choice socket =>
    simp only [Program.stateAfter, program, State.begin, State.onAccepted]
    cases running : s.isRunning with
    | false => exact ⟨fun _ _ slot => slot, by simp⟩
    | true =>
        cases found : s.getNewConnectionIndex with
        | none =>
            refine ⟨fun _ _ slot => slot, fun _ => ?_⟩
            exact .inr ⟨rfl, none_notMem_of_index found⟩
        | some index =>
            have free := free_of_index found
            have inside := (List.getElem?_eq_some_iff.mp free).1
            constructor
            · intro place other slot
              have different : index ≠ place := by
                rintro rfl
                simp [free] at slot
              simpa [State.connect, State.register, State.setSlot, State.setSocket, different]
                using slot
            · intro _
              refine .inl ⟨index, free, ?_⟩
              simp [State.connect, State.register, State.setSlot, State.setSocket, inside]
  · trivial

theorem everyState_slotTable {maxConnections : Nat} {actions : List ServerAction}
    (legal : program.system.Legal (initial maxConnections) actions) :
    program.system.EveryState (fun s => SlotTable maxConnections s.state) (initial maxConnections)
      actions := by
  have preserved : program.Preserves
      (fun s items => Sound s items ∧ s.clientConnections.length = maxConnections)
      fun _ _ _ => True := by
    intro s rest move holds allowed met
    refine ⟨preserves_sound s rest move holds.1 allowed met, ?_⟩
    exact (tableChange s rest move).length_eq.trans holds.2
  have anything : program.system.EveryStep (Strand.During fun _ _ _ => True)
      (initial maxConnections) actions :=
    Strand.everyStep_of_forall fun _ _ _ => trivial
  have first : Sound (initial maxConnections).state (initial maxConnections).items ∧
      (initial maxConnections).state.clientConnections.length = maxConnections :=
    ⟨sound_initial maxConnections, List.length_replicate⟩
  apply (Strand.everyState_of_bag preserved first legal anything).imp
  intro s holds
  exact holds.1.slotTable holds.2

/-- The slot table fits the ids in every state of every run of a server, and
accepted connections go to free slots. -/
theorem slot_table {maxConnections : Nat} {actions : List ServerAction}
    (legal : program.system.Legal (initial maxConnections) actions) :
    program.system.EveryState (fun s => SlotTable maxConnections s.state) (initial maxConnections)
        actions ∧
      program.system.EveryStep (Strand.During AcceptsIntoFreeSlot) (initial maxConnections)
        actions :=
  ⟨everyState_slotTable legal,
    Strand.everyStep_of_forall fun s rest move => acceptsIntoFreeSlot s rest move⟩

/-- One client takes the only slot and the next one is refused. -/
theorem slot_table_refusedConnection :
    program.system.EveryState (fun s => SlotTable 1 s.state) (initial 1) refusedConnection ∧
      program.system.EveryStep (Strand.During AcceptsIntoFreeSlot) (initial 1)
        refusedConnection :=
  slot_table (by decide)

/-! ### Disconnects -/

/-- A task that reports the end of a connection finds its socket alive and reports
its id, and after its subscribers it empties the slot of this socket. -/
def FreesOwnSlot (s : State) (rest : Multiset Work) : ServerMove → Prop
  | .begin choice (.task (.release socket)) =>
      s.Alive rest socket ∧ (s.sockets socket).id ≠ 0 ∧
        (program.stateAfter s rest (.begin choice (.task (.release socket)))).events =
          s.events ++ [.disconnected socket (s.sockets socket).id]
  | .act ⟨.disconnected socket id, calls⟩ .leave =>
      id = (s.sockets socket).id ∧
        s.clientConnections[getSocketIndex id]? = some (some socket) ∧
          (program.stateAfter s rest
            (.act ⟨.disconnected socket id, calls⟩ .leave)).clientConnections =
              s.clientConnections.set (getSocketIndex id) none
  | _ => True

private theorem slot_of_release {s : State} {rest : Multiset Work} {socket : SocketId}
    (connections : Connections Connection.Held s ({.queued (.task (.release socket))} + rest))
    (defined : s.undefined = false) :
    (s.sockets socket).id ≠ 0 ∧ some socket ∈ s.clientConnections := by
  obtain ⟨sound, held⟩ := connections.each defined socket
  have due : 0 < (s.connection ({.queued (.task (.release socket))} + rest) socket).work
      .release := by
    have member := Multiset.mem_cons_self (.queued (.task (.release socket)) : Work) rest
    exact Item.count_pos_of_mem member (by simp [Place.task])
  have once := held.ended.1
  unfold Connection.disconnects at once
  have registered : (s.sockets socket).id ≠ 0 := by
    intro zero
    have none := (sound.unregistered zero).2.1
    unfold Connection.disconnects at none
    omega
  exact ⟨registered, of_decide_eq_true (held.slot registered (.inl (by omega)))⟩

theorem freesOwnSlot {s : State} {rest : Multiset Work} {move : ServerMove}
    (connections : Connections Connection.Held s (move.consumed + rest))
    (defined : s.undefined = false) : FreesOwnSlot s rest move := by
  unfold FreesOwnSlot
  split
  next choice socket =>
    obtain ⟨registered, slot⟩ := slot_of_release connections defined
    have alive : s.Alive rest socket := .inl slot
    refine ⟨alive, registered, ?_⟩
    simp [Program.stateAfter, program, State.begin, State.raiseDisconnected, alive, State.log]
  next socket id calls =>
    obtain ⟨own, -, slot⟩ := slot_of_disconnected connections defined rfl
    refine ⟨own, slot, ?_⟩
    have inside := (List.getElem?_eq_some_iff.mp slot).1
    simp only [Program.stateAfter, program, State.act, State.returned, State.releaseSocket, inside,
      if_true]
    split
    · rfl
    · obtain ⟨events, same⟩ := (s.setSlot (getSocketIndex id) none).raiseOnClosed_state
      rw [same]
      rfl
  · trivial

theorem preserves_held : program.Preserves (Connections Connection.Held)
    fun s rest move => s.undefined = false ∧ Meets NoticedOnce s rest move :=
  preserves_connections (fun _ _ _ sound held step noticed => held.step sound step noticed)
    fun _ _ _ _ connections defined evicts => absurd evicts (not_evicts connections defined)

/-- In a run in which a call that returns reports the end of a connection only if
nobody has, every disconnect finds its socket alive, reports its id and frees its
slot and no other. -/
theorem frees_own_slot {maxConnections : Nat} {actions : List ServerAction}
    (legal : program.system.Legal (initial maxConnections) actions)
    (noticed : program.system.EveryStep (Strand.During (Meets NoticedOnce))
      (initial maxConnections) actions) :
    program.system.EveryStep (Strand.During FreesOwnSlot) (initial maxConnections) actions := by
  have unused : Connection.Held { socket := {}, slot := false, raised := 0, work := fun _ => 0 } :=
    Connection.reported_unused.held
  apply Strand.everyStep_of_bag preserves_held _ (connections_initial unused) legal
    ((legal.and noticed).imp fun s action both => (during_defined both.1).and both.2)
  intro s rest move connections met
  exact freesOwnSlot connections met.1

/-- A client goes, and the next one takes its slot. -/
def reusedSlot : List ServerAction :=
  acceptedConnection ++
    [.complete 0 ⟨.eof, []⟩, .deliver 0, .begin {}, .flush, .complete 0 ⟨.success, []⟩, .deliver 0,
      .begin {}, .act .leave, .begin {}, .flush, .begin {}]

theorem frees_own_slot_reusedSlot :
    program.system.EveryStep (Strand.During FreesOwnSlot) (initial 1) reusedSlot :=
  frees_own_slot (by decide) (by decide)

/-- The client goes while two tasks write to it and a third stops it.  The read loop
reports its end, and the first of the writes to return reports it again, after the
slot has become free; then the next client takes the slot. -/
def lateWrite : List ServerAction :=
  acceptedConnection ++
    [.post .user, .begin {}, .act (.call 1 (.write [1])), .post .user, .begin {},
      .act (.call 1 (.write [2])), .post .user, .begin {}, .act (.stopClient 1), .flush,
      .act .leave, .complete 0 ⟨.eof, []⟩, .deliver 0, .begin { expired := 1 }, .flush, .begin {},
      .flush, .begin {}, .deliver 1, .begin {}, .act .leave, .complete 0 ⟨.success, []⟩,
      .deliver 0, .begin {}, .flush, .act .leave, .begin {}, .flush, .begin {}, .flush, .begin {},
      .flush, .flush, .flush, .begin {}]

/-- After `lateWrite` the second report of the first client empties the slot of the
second. -/
theorem frees_other_slot_lateWrite :
    program.system.Legal (initial 1) (lateWrite ++ [.act .leave]) ∧
      (program.system.run (initial 1) lateWrite).state.clientConnections = [some 1] ∧
      (program.system.run (initial 1)
        (lateWrite ++ [.act .leave])).state.clientConnections = [none] ∧
      ¬ program.system.EveryStep (Strand.During FreesOwnSlot) (initial 1)
        (lateWrite ++ [.act .leave]) := by
  refine ⟨by decide, by decide, by decide, fun frees => ?_⟩
  have last := (ActionSystem.everyStep_append.mp frees).2.1
  exact absurd last.2.1 (by decide)

end TcpServer

end FlatAsync
