import FlatAsync.AcceptChain
import FlatAsync.ServerSteps

/-!
# Stopping one client

`StopClient` posts a lambda that reads the id from a parameter which is gone by
then, and looks up whoever holds this id at that time.  The lambdas run in the
order in which they were asked for, so that each can be compared with its
request: the id that was passed, and the connection that held it then.
-/

namespace FlatAsync

namespace TcpServer

/-- A call of `StopClient`: the id that it was passed, and the socket that held
this id. -/
structure StopRequest where
  id : TcpServerId
  target : Option SocketId
  deriving DecidableEq, Repr

/-- `StopClient` is called, or the lambda of its earliest call runs. -/
inductive RequestEvent
  | asked (request : StopRequest)
  | begun
  deriving DecidableEq, Repr

/-- The requests whose lambdas have not run yet. -/
def requests (seen : List RequestEvent) : List StopRequest :=
  seen.foldl (fun waiting event =>
    match event with
    | .asked request => waiting ++ [request]
    | .begun => waiting.tail) []

def State.requested (s : State) : ServerMove → List RequestEvent
  | .act _ (.stopClient id) => [.asked ⟨id, s.getSocket id⟩]
  | .begin _ (.task (.stopClient _)) => [.begun]
  | _ => []

/-- A server with the record of the calls of `StopClient`. -/
def stopSystem : ActionSystem (Server × List RequestEvent) ServerAction :=
  program.system.recorded (Strand.observed State.requested)

instance (s : Server × List RequestEvent) (action : ServerAction) :
    Decidable (stopSystem.enabled s action) :=
  inferInstanceAs (Decidable ((program.system.recorded _).enabled s action))

/-- The id that was passed to the call that has posted a lambda of `StopClient`. -/
def Task.stopId : Task → Option TcpServerId
  | .stopClient id => some id
  | .user | .start | .listening | .accepted _ | .connected _ | .socket .. | .release _ | .rearm
  | .stop => none

/-- What the lambda of a request should post: the task that closes the socket of
the request, if this one still has its id and is open. -/
def State.stopTarget (s : State) (request : StopRequest) : List Task :=
  match request.target with
  | some socket =>
      if s.getSocket request.id = some socket then
        (s.sockets socket).stop.map (.socket socket)
      else []
  | none => []

/-- A lambda of `StopClient` looks up the id of its request, and stops the socket
of its request and no other one. -/
def StopsAsked (seen : List RequestEvent) (s : State) (rest : Multiset Work) : ServerMove → Prop
  | .begin choice (.task (.stopClient id)) =>
      match requests seen with
      | request :: _ =>
          request.id = id ∧ choice.expired = id ∧
            (s.begin choice rest (.task (.stopClient id))).posts = s.stopTarget request
      | [] => False
  | _ => True

instance (seen : List RequestEvent) (s : State) (rest : Multiset Work) :
    ∀ move, Decidable (StopsAsked seen s rest move)
  | .begin _ (.task (.stopClient _)) =>
      match waiting : requests seen with
      | _ :: _ => decidable_of_iff (_ ∧ _ ∧ _) (by simp only [StopsAsked, waiting]; exact Iff.rfl)
      | [] => isFalse (by simp [StopsAsked, waiting])
  | .begin _ (.task .user) | .begin _ (.task .start) | .begin _ (.task .listening)
  | .begin _ (.task (.accepted _)) | .begin _ (.task (.connected _))
  | .begin _ (.task (.socket ..)) | .begin _ (.task (.release _)) | .begin _ (.task .rearm)
  | .begin _ (.task .stop) | .begin _ (.resume ..) | .act .. | .post _ | .complete ..
  | .deliver .. => inferInstanceAs (Decidable True)

/-- Where the lambda runs, the memory of the parameter still holds the id, and
the id has not passed on to another open socket. -/
def IdKept (seen : List RequestEvent) (s : State) (_ : Multiset Work) : ServerMove → Prop
  | .begin choice (.task (.stopClient id)) =>
      choice.expired = id ∧ ∀ socket ∈ s.getSocket id,
        (requests seen).head?.bind StopRequest.target = some socket ∨
          (s.sockets socket).isOpen = false
  | _ => True

instance (seen : List RequestEvent) (s : State) (rest : Multiset Work) :
    ∀ move, Decidable (IdKept seen s rest move)
  | .begin _ (.task (.stopClient _)) => inferInstanceAs (Decidable (_ ∧ _))
  | .begin _ (.task .user) | .begin _ (.task .start) | .begin _ (.task .listening)
  | .begin _ (.task (.accepted _)) | .begin _ (.task (.connected _))
  | .begin _ (.task (.socket ..)) | .begin _ (.task (.release _)) | .begin _ (.task .rearm)
  | .begin _ (.task .stop) | .begin _ (.resume ..) | .act .. | .post _ | .complete ..
  | .deliver .. => inferInstanceAs (Decidable True)

/-! ### The lambdas in their order -/

section Order

variable {s : State} {rest : Multiset Work} {move : ServerMove} {seen : List RequestEvent}

private theorem posts_stopId : (program.posts s rest move).filterMap Task.stopId =
    match move with
    | .act _ (.stopClient id) => [id]
    | _ => [] := by
  split
  · rfl
  next other =>
    rw [List.filterMap_eq_nil_iff]
    intro task posted
    cases taskStep posted with
    | stopClient frame id => exact absurd rfl (other frame id)
    | _ => rfl

private theorem taken_stopId : Strand.taken Task.stopId move =
    match move with
    | .begin _ (.task (.stopClient id)) => some id
    | _ => none := by
  split
  · rfl
  next other =>
    cases move with
    | begin choice entry =>
        cases entry with
        | resume => rfl
        | task task =>
            cases task with
            | stopClient id => exact absurd rfl (other choice id)
            | _ => rfl
    | post | complete | deliver | act => rfl

private theorem requests_append (event : RequestEvent) : requests (seen ++ [event]) =
    match event with
    | .asked request => requests seen ++ [request]
    | .begun => (requests seen).tail := by
  rw [requests, List.foldl_append]
  rfl

/-- The requests are those of the lambdas in the queue, in their order. -/
def Matched (s : Server × List RequestEvent) : Prop :=
  (requests s.2).map StopRequest.id = s.1.selected Task.stopId

theorem matched_initial (maxConnections : Nat) : Matched (initial maxConnections, []) :=
  rfl

theorem Matched.step {s : Server × List RequestEvent} {action : ServerAction}
    (matched : Matched s) (enabled : stopSystem.enabled s action) :
    Matched (stopSystem.next s action) := by
  have order := Strand.selected_step Task.stopId enabled (by rintro task rfl; rfl)
  unfold Matched at matched ⊢
  simp only [stopSystem, ActionSystem.recorded, Strand.observed]
  cases effect : s.1.effect action with
  | none =>
      rw [effect] at order
      have same : (program.system.next s.1 action).selected Task.stopId = _ := order
      simpa [same] using matched
  | some made =>
      obtain ⟨move, rest⟩ := made
      rw [effect] at order
      obtain ⟨others, before, after⟩ := order
      rw [before, taken_stopId] at matched
      rw [posts_stopId] at after
      refine Eq.trans ?_ after.symm
      simp only [State.requested]
      split
      next frame id => simpa [requests_append] using matched
      next choice id =>
        rw [requests_append, List.map_tail, matched]
        simp
      next calls runs =>
        split at matched
        next choice id => exact absurd rfl (runs choice id)
        next =>
          split
          next frame id _ => exact absurd rfl (calls frame id)
          next => simpa using matched

/-- A lambda of `StopClient` runs for the earliest request. -/
theorem Matched.head {s : Server × List RequestEvent} {action : ServerAction} {choice : Choice}
    {id : TcpServerId} (matched : Matched s) (enabled : stopSystem.enabled s action)
    (runs : s.1.effect action = some (.begin choice (.task (.stopClient id)), rest)) :
    ∃ request later, requests s.2 = request :: later ∧ request.id = id := by
  have order := Strand.selected_step Task.stopId enabled (by rintro task rfl; rfl)
  rw [runs] at order
  obtain ⟨others, before, -⟩ := order
  rw [Matched, before] at matched
  cases waiting : requests s.2 with
  | nil => simp [waiting, Strand.taken, Task.stopId] at matched
  | cons request later =>
      have same : request.id = id ∧ later.map StopRequest.id = others := by
        simpa [waiting, Strand.taken, Task.stopId] using matched
      exact ⟨request, later, rfl, same.1⟩

/-- The lambda stops whom it should exactly if the id that it reads is the one
that was asked for and has not passed on to another open socket. -/
theorem stopSocket_posts_iff {request : StopRequest} {choice : Choice}
    (expired : choice.expired = request.id) :
    (s.stopSocket choice.expired).posts = s.stopTarget request ↔
      ∀ socket ∈ s.getSocket request.id,
        request.target = some socket ∨ (s.sockets socket).isOpen = false := by
  rw [expired]
  unfold State.stopSocket State.stopTarget
  cases found : s.getSocket request.id with
  | none => cases request.target <;> simp
  | some owner =>
      have stops : (s.sockets owner).stop.map (Task.socket owner) = [] ↔
          (s.sockets owner).isOpen = false := by
        cases opened : (s.sockets owner).isOpen <;> simp [TcpSocket.stop, opened]
      cases asked : request.target with
      | none => simp [stops]
      | some socket =>
          by_cases same : owner = socket
          · simp [same]
          · simp [same, Ne.symm same, stops]

theorem stopsAsked_iff {s : Server × List RequestEvent} {action : ServerAction}
    (matched : Matched s) (enabled : stopSystem.enabled s action) :
    s.1.During (StopsAsked s.2) action ↔ s.1.During (IdKept s.2) action := by
  unfold Strand.During
  cases effect : s.1.effect action with
  | none => exact Iff.rfl
  | some made =>
      obtain ⟨move, rest⟩ := made
      simp only [StopsAsked]
      split
      next choice id =>
        obtain ⟨request, later, waiting, same⟩ := matched.head enabled effect
        simp only [IdKept, waiting, List.head?_cons, Option.bind_some, same, true_and]
        refine and_congr_right fun expired => ?_
        rw [← same] at expired ⊢
        exact stopSocket_posts_iff expired
      next other =>
        simp only [IdKept]

end Order

/-- In every run of a server, each lambda of `StopClient` looks up the id that was
passed to its call, and stops the connection that held this id then or nobody,
exactly if it always finds the id in the memory of the parameter, and never
another open connection under this id. -/
theorem stopClient_stops_asked_iff {maxConnections : Nat} {actions : List ServerAction}
    (legal : stopSystem.Legal (initial maxConnections, []) actions) :
    stopSystem.EveryStep (fun s => s.1.During (StopsAsked s.2)) (initial maxConnections, [])
        actions ↔
      stopSystem.EveryStep (fun s => s.1.During (IdKept s.2)) (initial maxConnections, [])
        actions := by
  have preserved : ∀ s action, Matched s → stopSystem.enabled s action →
      stopSystem.enabled s action → s.1.During (IdKept s.2) action →
        Matched (stopSystem.next s action) :=
    fun _ _ matched enabled _ _ => matched.step enabled
  apply ActionSystem.everyStep_congr _ preserved (matched_initial maxConnections) legal legal
  intro s action matched enabled _
  exact stopsAsked_iff matched enabled

/-- A client is connected, and a task asks to stop it.  When the lambda runs, the
memory of the parameter has been used for something else. -/
def stoppedTooLate : List ServerAction :=
  acceptedConnection ++
    [.post .user, .begin {}, .act (.stopClient 1), .flush, .act .leave, .begin { expired := 7 }]

/-- The lambda of `stoppedTooLate` does not look up the client. -/
theorem stopClient_not_stops_asked_stoppedTooLate :
    stopSystem.Legal (initial 1, []) stoppedTooLate ∧
      ¬ stopSystem.EveryStep (fun s => s.1.During (StopsAsked s.2)) (initial 1, [])
        stoppedTooLate := by
  decide

/-- Two requests for a client, and one for an id that nobody has; all three lambdas
read what they should. -/
def stoppedInTime : List ServerAction :=
  acceptedConnection ++
    [.post .user, .begin {}, .act (.stopClient 1), .flush, .act (.stopClient 2), .flush,
      .act (.stopClient 1), .flush, .act .leave, .begin { expired := 1 }, .flush,
      .begin { expired := 2 }, .begin { expired := 1 }, .flush, .begin {}, .begin {}]

theorem stopClient_stops_asked_stoppedInTime :
    stopSystem.EveryStep (fun s => s.1.During (StopsAsked s.2)) (initial 1, []) stoppedInTime :=
  (stopClient_stops_asked_iff (by decide)).mpr (by decide)

end TcpServer

end FlatAsync
