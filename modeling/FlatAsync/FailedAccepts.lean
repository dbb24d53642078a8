import FlatAsync.AcceptChain
import FlatAsync.ServerSlots

/-!
# Accepts that fail

`Accept` returns a new socket whether the operation has succeeded or not, and
`OnAccepted` does not look at it.  This file numbers the accepts of a server by the
sockets they have created, so that the slots and the events can be compared with
the outcomes.
-/

namespace FlatAsync

namespace TcpServer

def State.accepts (_ : State) : ServerMove → List ErrorType
  | .begin _ (.resume (.accept _) completion) => [completion.error]
  | _ => []

/-- A server with the outcomes of its accepts.  The one at place `n` belongs to
socket `n`. -/
def acceptSystem : ActionSystem (Server × List ErrorType) ServerAction :=
  program.system.recorded (Strand.observed State.accepts)

instance (s : Server × List ErrorType) (action : ServerAction) :
    Decidable (acceptSystem.enabled s action) :=
  inferInstanceAs (Decidable ((program.system.recorded _).enabled s action))

def AcceptFailed (seen : List ErrorType) (socket : SocketId) : Prop :=
  ∃ error ∈ seen[socket]?, error ≠ .success

instance (seen : List ErrorType) (socket : SocketId) : Decidable (AcceptFailed seen socket) :=
  inferInstanceAs (Decidable (∃ error ∈ seen[socket]?, _))

/-- The sockets in the slots, and those that were reported to be connected, come
from accepts that have succeeded. -/
structure SlotsAccepted (seen : List ErrorType) (s : State) : Prop where
  slots : ∀ socket, some socket ∈ s.clientConnections → seen[socket]? = some .success
  reported : ∀ socket id, .connected socket id ∈ s.events → seen[socket]? = some .success

/-- After a failed accept a running server that listens takes no slot, raises no
`on_connected_` and accepts again. -/
def FailureUndone (seen : List ErrorType) (s : State) (rest : Multiset Work) :
    ServerMove → Prop
  | .begin choice (.task (.accepted socket)) =>
      AcceptFailed seen socket → s.isRunning = true → s.isListening = true →
        (s.begin choice rest (.task (.accepted socket))).state.clientConnections =
            s.clientConnections ∧
          (∀ other, Task.connected other ∉
            (s.begin choice rest (.task (.accepted socket))).posts) ∧
          Task.rearm ∈ (s.begin choice rest (.task (.accepted socket))).posts
  | _ => True

/-- `OnAccepted` gets the socket of a failed accept only when the server is not
running, or when it neither listens nor has a free slot. -/
def AcceptedSucceeded (seen : List ErrorType) (s : State) (_ : Multiset Work) : ServerMove → Prop
  | .begin _ (.task (.accepted socket)) =>
      AcceptFailed seen socket → s.isRunning = true →
        s.getNewConnectionIndex = none ∧ s.isListening = false
  | _ => True

instance (seen : List ErrorType) (s : State) (rest : Multiset Work) :
    ∀ move, Decidable (AcceptedSucceeded seen s rest move)
  | .begin _ (.task (.accepted _)) => inferInstanceAs (Decidable (_ → _ → _))
  | .begin _ (.task .user) | .begin _ (.task .start) | .begin _ (.task .listening)
  | .begin _ (.task (.stopClient _)) | .begin _ (.task (.connected _))
  | .begin _ (.task (.socket ..)) | .begin _ (.task (.release _)) | .begin _ (.task .rearm)
  | .begin _ (.task .stop) | .begin _ (.resume ..) | .act .. | .post _ | .complete ..
  | .deliver .. => inferInstanceAs (Decidable True)

/-- What the outcomes tell about a server and its pending work. -/
structure AcceptLedger (seen : List ErrorType) (s : State) (items : Multiset Work) : Prop where
  accepted : SlotsAccepted seen s
  length : s.undefined = false → seen.length = s.created
  recorded : ∀ socket, .queued (.task (.accepted socket)) ∈ items → socket < seen.length
  told : ∀ socket, .queued (.task (.connected socket)) ∈ items → seen[socket]? = some .success

namespace AcceptLedger

variable {seen : List ErrorType} {s : State} {rest : Multiset Work} {move : ServerMove}
variable {socket : SocketId}

theorem initial (maxConnections : Nat) :
    AcceptLedger [] (TcpServer.initial maxConnections).state
      (TcpServer.initial maxConnections).items := by
  refine ⟨⟨?_, ?_⟩, ?_, ?_, ?_⟩ <;> simp [TcpServer.initial, Strand.items]

private theorem afterAccept_created {generation : Nat} {completion : Completion}
    (defined : (s.afterAccept generation completion).state.undefined = false) :
    (s.afterAccept generation completion).state.created = s.created + 1 := by
  unfold State.afterAccept at defined ⊢
  cases present : s.acceptor with
  | none => simp [present, State.undefinedBehaviour] at defined
  | some acceptor =>
      by_cases own : acceptor.generation = generation
      · cases opened : acceptor.isOpen <;> simp [own, opened, State.createSocket]
      · simp [present, own, State.undefinedBehaviour] at defined

theorem created_after (defined : (program.stateAfter s rest move).undefined = false) :
    (program.stateAfter s rest move).created = s.created + (s.accepts move).length := by
  unfold State.accepts
  split
  next choice generation completion => exact afterAccept_created defined
  next other =>
    have change := stateStep s rest move
    generalize program.stateAfter s rest move = after at change ⊢
    cases change with
    | created choice generation completion success =>
        exact absurd rfl (other choice generation completion)
    | stops choice running present =>
        obtain ⟨events, same⟩ := State.raiseOnClosed_state _
        rw [same]
        rfl
    | freedLast handler idle =>
        obtain ⟨events, same⟩ := State.raiseOnClosed_state _
        rw [same]
        rfl
    | _ => rfl

theorem kept {error : ErrorType} (before : seen[socket]? = some error) (later : List ErrorType) :
    (seen ++ later)[socket]? = some error := by
  obtain ⟨inside, here⟩ := List.getElem?_eq_some_iff.mp before
  rw [List.getElem?_append_left inside, before]

/-- A socket for which `OnAccepted` takes a slot comes from a successful accept. -/
theorem success (ledger : AcceptLedger seen s (move.consumed + rest)) {choice : Choice}
    {index : Nat} (accepts : move = .begin choice (.task (.accepted socket)))
    (running : s.isRunning = true) (found : s.getNewConnectionIndex = some index)
    (succeeds : AcceptedSucceeded seen s rest move) : seen[socket]? = some .success := by
  subst accepts
  have inside := ledger.recorded socket (by simp [Move.consumed])
  by_contra failed
  have full := (succeeds ⟨seen[socket], by simp [inside], fun same => failed (by simp [inside, same])⟩
    running).1
  simp [found] at full

theorem after (ledger : AcceptLedger seen s (move.consumed + rest))
    (allowed : program.Allowed s move) (defined : s.undefined = false)
    (succeeds : AcceptedSucceeded seen s rest move) :
    AcceptLedger (seen ++ s.accepts move) (program.stateAfter s rest move)
      (program.itemsAfter s rest move) := by
  refine ⟨⟨?_, ?_⟩, ?_, ?_, ?_⟩
  · intro socket slot
    have change := tableChange s rest move
    generalize (program.stateAfter s rest move).clientConnections = slots at change slot
    cases change with
    | same => exact kept (ledger.accepted.slots socket slot) _
    | freed handler =>
        obtain ⟨place, -, old⟩ := mem_set_none.mp slot
        exact kept (ledger.accepted.slots socket (List.mem_of_getElem? old)) _
    | taken running found =>
        rcases List.mem_or_eq_of_mem_set slot with old | same
        · exact kept (ledger.accepted.slots socket old) _
        · cases same
          exact kept (ledger.success rfl running found succeeds) _
  · intro socket id reported
    obtain ⟨logged, events, cause⟩ := logged_move s rest move
    rw [events] at reported
    rcases List.mem_append.mp reported with old | new
    · exact kept (ledger.accepted.reported socket id old) _
    · rcases cause with none | ⟨event, one, cause⟩ | ⟨both, -, -⟩
      · simp [none] at new
      · rw [one, List.mem_singleton] at new
        subst new
        obtain ⟨-, choice, rfl⟩ := cause
        exact kept (ledger.told socket (by simp [Move.consumed])) _
      · simp [both] at new
  · intro still
    rw [List.length_append, ledger.length defined, created_after still]
  · intro socket queued
    rw [List.length_append]
    rcases Program.queued_itemsAfter queued with rfl | posted | old
    · cases allowed
    · cases taskStep posted with
      | accepted choice generation completion =>
          rw [ledger.length defined]
          simp [State.accepts]
    · have before := ledger.recorded socket (Multiset.mem_add.mpr (.inr old))
      omega
  · intro socket queued
    rcases Program.queued_itemsAfter queued with rfl | posted | old
    · cases allowed
    · cases taskStep posted with
      | connected choice socket running found =>
          exact kept (ledger.success rfl running found succeeds) _
    · exact kept (ledger.told socket (Multiset.mem_add.mpr (.inr old))) _

/-- A failed accept that a running server gets either takes a slot or ends the
accepting. -/
theorem broken (ledger : AcceptLedger seen s (move.consumed + rest))
    (fails : ¬ AcceptedSucceeded seen s rest move) (undone : FailureUndone seen s rest move) :
    ¬ SlotsAccepted (seen ++ s.accepts move) (program.stateAfter s rest move) := by
  intro accepted
  unfold AcceptedSucceeded at fails
  split at fails
  next choice socket =>
    simp only [Classical.not_imp, not_and_or] at fails
    obtain ⟨failed, running, free⟩ := fails
    cases found : s.getNewConnectionIndex with
    | some index =>
        obtain ⟨error, outcome, wrong⟩ := failed
        obtain ⟨inside, -⟩ := List.findIdx?_eq_some_iff_getElem.mp found
        have slot : some socket ∈ (program.stateAfter s rest
            (.begin choice (.task (.accepted socket)))).clientConnections := by
          simp only [Program.stateAfter, program, State.begin, State.onAccepted, running, found,
            if_true]
          exact List.mem_set inside (some socket)
        have success := accepted.slots socket slot
        rw [kept outcome] at success
        exact wrong (Option.some.inj success)
    | none =>
        have listening : s.isListening = true := by simpa [found] using free
        have again := (undone failed running listening).2.2
        simp [State.begin, State.onAccepted, running, found] at again
  next => exact fails trivial

theorem undone (s : State) (rest : Multiset Work) (succeeds : AcceptedSucceeded seen s rest move) :
    FailureUndone seen s rest move := by
  unfold AcceptedSucceeded at succeeds
  unfold FailureUndone
  split
  next choice socket =>
    intro failed running listening
    have closed := (succeeds failed running).2
    simp [listening] at closed
  next => trivial

end AcceptLedger

/-- In every run of a server the failed accepts leave it as it was, and the slots
and reported connections are those of successful accepts, exactly if `OnAccepted`
never gets the socket of a failed accept while the server is running and has a free
slot or listens. -/
theorem failed_accepts_undone_iff {maxConnections : Nat} {actions : List ServerAction}
    (legal : acceptSystem.Legal (initial maxConnections, []) actions) :
    acceptSystem.EveryStep (fun s => s.1.During (FailureUndone s.2)) (initial maxConnections, [])
        actions ∧
      acceptSystem.EveryState (fun s => SlotsAccepted s.2 s.1.state)
        (initial maxConnections, []) actions ↔
    acceptSystem.EveryStep (fun s => s.1.During (AcceptedSucceeded s.2))
      (initial maxConnections, []) actions := by
  have holds : ∀ seen s items, AcceptLedger seen s items → SlotsAccepted seen s :=
    fun _ _ _ ledger => ledger.accepted
  apply Strand.recorded_iff holds _ _ _ (AcceptLedger.initial maxConnections) legal
  · intro seen s rest move ledger defined allowed succeeds
    exact ledger.after allowed defined succeeds
  · intro seen s rest move _ succeeds
    exact AcceptLedger.undone s rest succeeds
  · intro seen s rest move ledger fails undone
    exact ledger.broken fails undone

/-- A server for one client.  Its first accept fails. -/
def failedAccept : List ServerAction :=
  [.post .user, .begin {}, .act .start, .flush, .act .leave, .begin {}, .flush,
    .complete 0 { error := .other }, .deliver 0, .begin {}, .act .leave, .begin {}, .flush,
    .begin {}]

/-- In `failedAccept` the only slot is given to the socket of the failed accept. -/
theorem failed_accept_not_undone_failedAccept :
    acceptSystem.Legal (initial 1, []) failedAccept ∧
      ¬ (acceptSystem.EveryStep (fun s => s.1.During (FailureUndone s.2)) (initial 1, [])
            failedAccept ∧
          acceptSystem.EveryState (fun s => SlotsAccepted s.2 s.1.state) (initial 1, [])
            failedAccept) := by
  refine ⟨by decide, fun holds => ?_⟩
  exact absurd (holds.2.last.slots 0 (by decide)) (by decide)

/-- A client is accepted.  The next accept fails, and the server is stopped before
`OnAccepted` gets its socket. -/
def failedBeforeStop : List ServerAction :=
  acceptedConnection ++
    [.post .user, .complete 1 { error := .other }, .deliver 1, .begin {}, .act .stop, .flush,
      .act .leave, .begin {}, .flush, .begin {}, .flush, .begin {}]

theorem failed_accepts_undone_failedBeforeStop :
    acceptSystem.EveryStep (fun s => s.1.During (FailureUndone s.2)) (initial 1, [])
        failedBeforeStop ∧
      acceptSystem.EveryState (fun s => SlotsAccepted s.2 s.1.state) (initial 1, [])
        failedBeforeStop :=
  (failed_accepts_undone_iff (by decide)).mpr (by decide)

end TcpServer

end FlatAsync
