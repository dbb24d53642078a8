import FlatAsync.AcceptChain

/-!
# Starts that fail

`Start` sets `is_running_` at once and leaves the rest to a lambda, which may fail
to open, bind or listen.  Nothing takes the flag back then, and `Stop` relies on it
for its acceptor.  This file keeps a list of the attempts of the lambda, and shows
in which runs the flag, the acceptor and `on_listening_` agree.
-/

namespace FlatAsync

namespace TcpServer

/-- The acceptor can be opened, bound and listened on. -/
def Choice.succeeds (choice : Choice) : Bool :=
  choice.opens && choice.listens

def State.attempts (s : State) : ServerMove → List Choice
  | .begin choice (.task .start) => if s.isRunning then [choice] else []
  | _ => []

def startSystem : ActionSystem (Server × List Choice) ServerAction :=
  program.system.recorded (Strand.observed State.attempts)

instance (s : Server × List Choice) (action : ServerAction) :
    Decidable (startSystem.enabled s action) :=
  inferInstanceAs (Decidable ((program.system.recorded _).enabled s action))

/-- The server is as if it had not been started: `Stop` does nothing, and `Start`
makes an attempt. -/
structure NotStarted (s : State) : Prop where
  idle : s.isRunning = false
  noAcceptor : s.acceptor = none

instance (s : State) : Decidable (NotStarted s) :=
  decidable_of_iff (s.isRunning = false ∧ s.acceptor = none)
    ⟨fun both => ⟨both.1, both.2⟩, fun both => ⟨both.idle, both.noAcceptor⟩⟩

/-- An attempt that fails does not raise `on_listening_` and is undone, and a
lambda of `Stop` does not use an acceptor that does not exist. -/
def FailedStartUndone (_ : List Choice) (s : State) (rest : Multiset Work) : ServerMove → Prop
  | .begin choice (.task .start) =>
      s.isRunning = true → choice.succeeds = false →
        Task.listening ∉ (s.begin choice rest (.task .start)).posts ∧
          NotStarted (s.begin choice rest (.task .start)).state
  | .begin _ (.task .stop) => s.isRunning = true → s.acceptor.isSome = true
  | _ => True

instance (seen : List Choice) (s : State) (rest : Multiset Work) :
    ∀ move, Decidable (FailedStartUndone seen s rest move)
  | .begin _ (.task .start) => inferInstanceAs (Decidable (_ → _ → _ ∧ _))
  | .begin _ (.task .stop) => inferInstanceAs (Decidable (_ → _))
  | .begin _ (.task .user) | .begin _ (.task (.accepted _)) | .begin _ (.task .listening)
  | .begin _ (.task (.stopClient _)) | .begin _ (.task (.connected _))
  | .begin _ (.task (.socket ..)) | .begin _ (.task (.release _)) | .begin _ (.task .rearm)
  | .begin _ (.resume ..) | .act .. | .post _ | .complete .. | .deliver .. =>
      inferInstanceAs (Decidable True)

/-- `on_listening_` has been raised at most once for each successful attempt. -/
def ListeningEarned (seen : List Choice) (s : State) : Prop :=
  s.events.countP (· = .listening) ≤ seen.countP Choice.succeeds

/-- All attempts succeed, and a lambda of `Stop` that finds the server running
comes after one. -/
def StartsSucceed (seen : List Choice) (s : State) (_ : Multiset Work) : ServerMove → Prop
  | .begin choice (.task .start) => s.isRunning = true → choice.succeeds = true
  | .begin _ (.task .stop) => s.isRunning = true → ∃ attempt ∈ seen, attempt.opens = true
  | _ => True

instance (seen : List Choice) (s : State) (rest : Multiset Work) :
    ∀ move, Decidable (StartsSucceed seen s rest move)
  | .begin _ (.task .start) | .begin _ (.task .stop) => inferInstanceAs (Decidable (_ → _))
  | .begin _ (.task .user) | .begin _ (.task (.accepted _)) | .begin _ (.task .listening)
  | .begin _ (.task (.stopClient _)) | .begin _ (.task (.connected _))
  | .begin _ (.task (.socket ..)) | .begin _ (.task (.release _)) | .begin _ (.task .rearm)
  | .begin _ (.resume ..) | .act .. | .post _ | .complete .. | .deliver .. =>
      inferInstanceAs (Decidable True)

/-- The acceptor exists from the first attempt on that has opened one, and each
successful attempt pays for one `on_listening_`. -/
structure StartLedger (seen : List Choice) (s : State) (items : Multiset Work) : Prop where
  acceptor : s.acceptor.isSome = true ↔ ∃ attempt ∈ seen, attempt.opens = true
  told : s.events.countP (· = .listening) + Item.count (Item.isTask (· = .listening)) items ≤
    seen.countP Choice.succeeds

namespace StartLedger

variable {seen : List Choice} {s : State} {rest : Multiset Work} {move : ServerMove}
variable {choice : Choice}

theorem initial (maxConnections : Nat) :
    StartLedger [] (TcpServer.initial maxConnections).state
      (TcpServer.initial maxConnections).items := by
  constructor <;> simp [TcpServer.initial, Strand.items]

private theorem startListening_acceptor : (s.startListening choice).state.acceptor.isSome =
    (s.acceptor.isSome || s.isRunning && choice.opens) := by
  unfold State.startListening
  cases s.isRunning <;> cases choice.opens <;> simp

private theorem startListening_posts : (s.startListening choice).posts =
    if s.isRunning && choice.opens then [.listening] else [] := by
  unfold State.startListening
  cases s.isRunning <;> cases choice.opens <;> rfl

private theorem startListening_isRunning :
    (s.startListening choice).state.isRunning = s.isRunning := by
  unfold State.startListening
  cases running : s.isRunning <;> cases choice.opens <;> simp [running]

/-- Only the lambda of `Start` builds an acceptor, and nobody takes it away. -/
theorem acceptor_after (other : ∀ choice, move ≠ .begin choice (.task .start)) :
    (program.stateAfter s rest move).acceptor.isSome = s.acceptor.isSome := by
  have change := stateStep s rest move
  generalize program.stateAfter s rest move = after at change ⊢
  cases change with
  | opened choice running acceptor => exact absurd rfl (other choice)
  | stops choice running present =>
      obtain ⟨events, same⟩ := State.raiseOnClosed_state _
      rw [same, present]
      rfl
  | freedLast handler idle =>
      obtain ⟨events, same⟩ := State.raiseOnClosed_state _
      rw [same]
      rfl
  | _ => rfl

/-- And only this lambda posts the task that raises `on_listening_`. -/
theorem posts_listening (other : ∀ choice, move ≠ .begin choice (.task .start)) :
    (program.posts s rest move).countP (· = Task.listening) = 0 := by
  rw [List.countP_eq_zero]
  intro task posted
  cases taskStep posted with
  | listening choice running opens => exact absurd rfl (other choice)
  | _ => simp

theorem logged_listening {logged : List Event} (reasons : Logged s move logged) :
    logged.countP (· = Event.listening) ≤
      Item.count (Item.isTask (· = .listening)) (move.consumed : Multiset Work) := by
  rcases reasons with rfl | ⟨event, rfl, cause⟩ | ⟨rfl, -, -⟩
  · simp
  · by_cases told : event = .listening
    · subst told
      obtain ⟨choice, rfl⟩ := cause
      simp [Move.consumed, Item.isTask]
    · simp [told]
  · simp

theorem posts_le_attempts (succeeds : StartsSucceed seen s rest move) :
    (program.posts s rest move).countP (· = Task.listening) ≤
      (s.attempts move).countP Choice.succeeds := by
  by_cases starts : ∃ choice, move = .begin choice (.task .start)
  · obtain ⟨choice, rfl⟩ := starts
    have posts : program.posts s rest (.begin choice (.task .start)) = _ := startListening_posts
    rw [posts]
    cases running : s.isRunning with
    | false => simp
    | true =>
        have success : choice.succeeds = true := succeeds running
        cases choice.opens <;> simp [State.attempts, running, success]
  · rw [posts_listening fun choice same => starts ⟨choice, same⟩]
    exact Nat.zero_le _

theorem after (ledger : StartLedger seen s (move.consumed + rest))
    (allowed : program.Allowed s move) (succeeds : StartsSucceed seen s rest move) :
    StartLedger (seen ++ s.attempts move) (program.stateAfter s rest move)
      (program.itemsAfter s rest move) := by
  constructor
  · by_cases starts : ∃ choice, move = .begin choice (.task .start)
    · obtain ⟨choice, rfl⟩ := starts
      have acceptor : (program.stateAfter s rest
          (.begin choice (.task .start))).acceptor.isSome = _ := startListening_acceptor
      rw [acceptor]
      cases running : s.isRunning <;> simp [State.attempts, running, ledger.acceptor, or_and_right,
        exists_or]
    · have other : ∀ choice, move ≠ .begin choice (.task .start) :=
        fun choice same => starts ⟨choice, same⟩
      have none : s.attempts move = [] := by
        unfold State.attempts
        split
        next choice => exact absurd rfl (other choice)
        next => rfl
      rw [acceptor_after other, none, List.append_nil]
      exact ledger.acceptor
  · obtain ⟨logged, events, reasons⟩ := logged_move s rest move
    have outside : ∀ task, move = .post task → decide (task = Task.listening) = false := by
      rintro task rfl
      obtain rfl : task = .user := allowed
      rfl
    have before := ledger.told
    have told := logged_listening reasons
    have paid := posts_le_attempts succeeds
    rw [Item.count_add] at before
    rw [events, List.countP_append, List.countP_append, Program.count_isTask outside]
    omega

private theorem earned (ledger : StartLedger seen s rest) : ListeningEarned seen s :=
  (Nat.le_add_right ..).trans ledger.told

/-- A failed attempt leaves the server running, so that only a run without failures
keeps its promises. -/
theorem undone_iff (ledger : StartLedger seen s (move.consumed + rest)) :
    FailedStartUndone seen s rest move ↔ StartsSucceed seen s rest move := by
  cases move with
  | post | complete | deliver | act => exact Iff.rfl
  | begin choice entry =>
      cases entry with
      | resume => exact Iff.rfl
      | task task =>
          cases task with
          | start =>
              refine forall_congr' fun running => ?_
              have flag : (s.startListening choice).state.isRunning = s.isRunning :=
                startListening_isRunning
              rw [running] at flag
              constructor
              · intro undone
                by_contra failed
                have idle := (undone (by simpa using failed)).2.idle
                simp [State.begin, flag] at idle
              · intro success failed
                simp [success] at failed
          | stop => exact forall_congr' fun _ => ledger.acceptor
          | user | listening | accepted | connected | socket | release | rearm | stopClient =>
              exact Iff.rfl

end StartLedger

/-- In every run of a server a failed start is undone, `on_listening_` is raised for
successful starts only and no lambda of `Stop` meets a null acceptor, exactly if all
attempts to listen succeed, and the lambda of `Stop` never finds a running server
before the first of them. -/
theorem failed_starts_undone_iff {maxConnections : Nat} {actions : List ServerAction}
    (legal : startSystem.Legal (initial maxConnections, []) actions) :
    startSystem.EveryStep (fun s => s.1.During (FailedStartUndone s.2)) (initial maxConnections, [])
        actions ∧
      startSystem.EveryState (fun s => ListeningEarned s.2 s.1.state)
        (initial maxConnections, []) actions ↔
    startSystem.EveryStep (fun s => s.1.During (StartsSucceed s.2))
      (initial maxConnections, []) actions := by
  have holds : ∀ seen s items, StartLedger seen s items → ListeningEarned seen s :=
    fun _ _ _ ledger => ledger.earned
  apply Strand.recorded_iff holds _ _ _ (StartLedger.initial maxConnections) legal
  · intro seen s rest move ledger _ allowed succeeds
    exact ledger.after allowed succeeds
  · intro seen s rest move ledger succeeds
    exact ledger.undone_iff.mpr succeeds
  · intro seen s rest move ledger fails undone
    exact absurd (ledger.undone_iff.mp undone) fails

/-- A start fails to open, and the server is stopped. -/
def failedStart : List ServerAction :=
  [.post .user, .begin {}, .act .start, .flush, .act .leave, .begin { opens := false },
    .post .user, .begin {}, .act .stop, .flush, .act .leave, .begin {}]

/-- The lambda of `Stop` in `failedStart` uses a null acceptor. -/
theorem failed_start_not_undone_failedStart :
    startSystem.Legal (initial 1, []) failedStart ∧
      ¬ (startSystem.EveryStep (fun s => s.1.During (FailedStartUndone s.2)) (initial 1, [])
            failedStart ∧
          startSystem.EveryState (fun s => ListeningEarned s.2 s.1.state) (initial 1, [])
            failedStart) := by
  exact ⟨by decide, fun holds => absurd holds.1 (by decide)⟩

/-- A server is started, stopped and started again. -/
def startedTwice : List ServerAction :=
  acceptedConnection ++
    [.post .user, .begin {}, .act .stop, .flush, .act .leave, .begin {}, .flush, .begin {},
      .post .user, .begin {}, .act .start, .flush, .act .stop, .flush, .act .leave, .begin {},
      .flush, .begin {}]

theorem failed_starts_undone_startedTwice :
    startSystem.EveryStep (fun s => s.1.During (FailedStartUndone s.2)) (initial 1, [])
        startedTwice ∧
      startSystem.EveryState (fun s => ListeningEarned s.2 s.1.state) (initial 1, [])
        startedTwice :=
  (failed_starts_undone_iff (by decide)).mpr (by decide)

end TcpServer

end FlatAsync
