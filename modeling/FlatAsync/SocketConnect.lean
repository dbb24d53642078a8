import FlatAsync.TcpSocket
import Mathlib.Logic.Function.Basic

/-!
# Attempts to connect

`Connect` opens the socket, waits for the attempt, and takes a socket that is
closed afterwards for one that has lost its connection.  The error of the
attempt is thrown away, and a failed attempt leaves the socket open.

This file follows the attempts of any number of tasks on one socket, with the
tasks that `Stop` posts between them, and shows in which runs a failure can be
seen from outside.
-/

namespace FlatAsync

namespace SocketConnect

/-- A call of `Connect`: not made yet; waiting for the operation, or for its turn
once there is an `outcome`; returned because the socket was open; or returned
after its operation.  `before` counts the disconnects queued before the attempt
began. -/
inductive Attempt
  | unborn
  | underWay (outcome : Option ErrorType) (before : Nat)
  | skipped
  | finished (outcome : ErrorType)
  deriving DecidableEq, Repr

namespace Attempt

def outcome : Attempt → Option ErrorType
  | underWay outcome _ => outcome
  | finished outcome => some outcome
  | unborn | skipped => none

def waiting : Attempt → Bool
  | underWay none _ => true
  | unborn | underWay (some _) _ | skipped | finished _ => false

/-- The operation has completed, and the call has not gone on. -/
def done : Attempt → Bool
  | underWay (some _) _ => true
  | unborn | underWay none _ | skipped | finished _ => false

/-- Under way, and not yet known to succeed. -/
def undecided : Attempt → Bool
  | underWay outcome _ => outcome ≠ some .success
  | unborn | skipped | finished _ => false

def abort : Attempt → Attempt
  | underWay none before => underWay (some .operationAborted) before
  | attempt => attempt

end Attempt

/-- A socket with its attempts and the tasks posted for it.  `opener` is the
attempt that has opened the socket, if any has; a socket that is open at the
beginning is connected.  `disconnects` counts the tasks posted so far that raise
`on_disconnected_`. -/
structure State where
  socket : TcpSocket
  attempts : Nat → Attempt := fun _ => .unborn
  opener : Option Nat := none
  posted : List SocketTask := []
  disconnects : Nat := 0

/-- A task calls `Connect`; the operation of an attempt completes; the call goes
on; somebody calls `Stop`; a posted task runs. -/
inductive Action
  | connect (attempt : Nat)
  | complete (attempt : Nat) (outcome : ErrorType)
  | resume (attempt : Nat)
  | stop
  | task (task : SocketTask)
  deriving DecidableEq, Repr

namespace State

def setAttempt (s : State) (a : Nat) (attempt : Attempt) : State :=
  { s with attempts := Function.update s.attempts a attempt }

/-- `TcpSocket::Connect` up to where it waits. -/
def connect (s : State) (a : Nat) : State :=
  if s.socket.isOpen then s.setAttempt a .skipped
  else
    { s.setAttempt a (.underWay none s.disconnects) with
      socket := s.socket.connect
      opener := some a }

def complete (s : State) (a : Nat) (outcome : ErrorType) : State :=
  match s.attempts a with
  | .underWay _ before => s.setAttempt a (.underWay (some outcome) before)
  | .unborn | .skipped | .finished _ => s

/-- The rest of `TcpSocket::Connect`, which does not look at the outcome. -/
def resume (s : State) (a : Nat) : State :=
  match s.attempts a with
  | .underWay (some outcome) _ =>
      { s.setAttempt a (.finished outcome) with
        socket := s.socket.afterOperation.1
        posted := s.posted ++ s.socket.afterOperation.2
        disconnects :=
          s.disconnects + s.socket.afterOperation.2.countP (fun task => task = .disconnected) }
  | .underWay none _ | .unborn | .skipped | .finished _ => s

/-- A posted task: the lambda in `Stop` closes the socket under whoever waits. -/
def runTask (s : State) (task : SocketTask) : State :=
  match task with
  | .close =>
      { s with
        socket := s.socket.close
        attempts := fun a => (s.attempts a).abort
        posted := s.posted.erase task }
  | .receive | .start | .disconnected => { s with posted := s.posted.erase task }

def step (s : State) : Action → State
  | .connect a => s.connect a
  | .complete a outcome => s.complete a outcome
  | .resume a => s.resume a
  | .stop => { s with posted := s.posted ++ s.socket.stop }
  | .task task => s.runTask task

def Enabled (s : State) : Action → Prop
  | .connect a => s.attempts a = .unborn
  | .complete a _ => (s.attempts a).waiting = true
  | .resume a => (s.attempts a).done = true
  | .stop => True
  | .task task => task ∈ s.posted

def Established (s : State) : Prop :=
  ∀ a ∈ s.opener, (s.attempts a).outcome = some .success

/-- The socket has been opened by an attempt that is under way and not yet known
to succeed. -/
def openUndecided (s : State) : Bool :=
  s.socket.isOpen && s.opener.any fun a => (s.attempts a).undecided

instance (s : State) : ∀ action, Decidable (s.Enabled action)
  | .connect _ | .complete .. | .resume _ => inferInstanceAs (Decidable (_ = _))
  | .stop => inferInstanceAs (Decidable True)
  | .task task => inferInstanceAs (Decidable (task ∈ s.posted))

end State

/-- A socket that any number of tasks connect and stop. -/
def connectSystem : ActionSystem State Action where
  enabled := State.Enabled
  next := State.step

instance (s : State) (action : Action) : Decidable (connectSystem.enabled s action) :=
  inferInstanceAs (Decidable (s.Enabled action))

/-! ### What a caller sees -/

/-- A failed attempt, queued at a time when `before` disconnects had been, has
left the socket closed, a disconnect has been queued since, and another
`Connect` makes a new attempt. -/
structure FailureSeen (s : State) (before : Nat) : Prop where
  closed : s.socket.isOpen = false
  queued : before < s.disconnects
  again : ∀ a, s.Enabled (.connect a) → ((s.step (.connect a)).attempts a).waiting = true

/-- A call of `Connect` returns in the step. -/
def State.returns (s : State) : Action → Bool
  | .connect _ => s.socket.isOpen
  | .resume _ => true
  | .complete .. | .stop | .task _ => false

/-- Where a call of `Connect` returns, a failure of its attempt can be seen, and
an open socket is connected. -/
structure ConnectObservable (s : State) (action : Action) : Prop where
  failed : ∀ a before outcome, action = .resume a →
    s.attempts a = .underWay (some outcome) before → outcome ≠ .success →
      FailureSeen (s.step action) before
  connected : s.returns action = true → (s.step action).socket.isOpen = true →
    (s.step action).Established

/-- A failed attempt comes back to a socket that has been closed by `Stop`, and
no call is made or comes back while the socket is open through an attempt that
is still undecided. -/
def ComesBackClosed (s : State) : Action → Prop
  | .connect _ => s.openUndecided = false
  | .resume a =>
      ((s.attempts a).outcome = some .success ∨ s.socket.isOpen = false) ∧
        s.openUndecided = false
  | .complete .. | .stop | .task _ => True

instance (s : State) : ∀ action, Decidable (ComesBackClosed s action)
  | .connect _ => inferInstanceAs (Decidable (_ = _))
  | .resume _ => inferInstanceAs (Decidable (_ ∧ _))
  | .complete .. | .stop | .task _ => inferInstanceAs (Decidable True)

/-- The attempt that has opened the socket has not failed as long as the socket
is open, and a socket marked as stopped has queued a disconnect since each of
the attempts under way began. -/
structure ConnectInvariant (s : State) : Prop where
  opener : s.socket.isOpen = true → ∀ a ∈ s.opener,
    (∃ outcome before, s.attempts a = .underWay outcome before) ∨ s.attempts a = .finished .success
  noticed : s.socket.stopped = true → ∀ a outcome before,
    s.attempts a = .underWay outcome before → before < s.disconnects
  early : ∀ a outcome before, s.attempts a = .underWay outcome before → before ≤ s.disconnects

namespace ConnectInvariant

variable {s : State} {action : Action} {a : Nat} {outcome : ErrorType} {before : Nat}

theorem initial (socket : TcpSocket) : ConnectInvariant { socket := socket } := by
  constructor <;> simp

theorem established (inv : ConnectInvariant s) (opened : s.socket.isOpen = true) :
    s.Established ↔ s.openUndecided = false := by
  unfold State.Established State.openUndecided
  cases by_ : s.opener with
  | none => simp
  | some a =>
      rcases inv.opener opened a by_ with ⟨outcome, before, here⟩ | here
      · simp [opened, here, Attempt.outcome, Attempt.undecided]
      · simp [opened, here, Attempt.outcome, Attempt.undecided]

theorem connect (inv : ConnectInvariant s) (fresh : s.attempts a = .unborn) :
    ConnectInvariant (s.connect a) := by
  unfold State.connect
  split
  next opened =>
    constructor
    · intro _ b opener
      have other : b ≠ a := by
        rintro rfl
        rcases inv.opener opened b opener with ⟨outcome, before, here⟩ | here
        · simp [fresh] at here
        · simp [fresh] at here
      simpa [State.setAttempt, other] using inv.opener opened b opener
    · intro stopped b outcome before here
      by_cases same : b = a
      · simp [State.setAttempt, same] at here
      · exact inv.noticed stopped b outcome before (by simpa [State.setAttempt, same] using here)
    · intro b outcome before here
      by_cases same : b = a
      · simp [State.setAttempt, same] at here
      · exact inv.early b outcome before (by simpa [State.setAttempt, same] using here)
  next closed =>
    constructor
    · intro _ b opener
      cases opener
      exact .inl ⟨none, s.disconnects, by simp [State.setAttempt]⟩
    · intro stopped
      simp [TcpSocket.connect] at stopped
    · intro b outcome before here
      by_cases same : b = a
      · have now : none = outcome ∧ s.disconnects = before := by
          simpa [State.setAttempt, same] using here
        exact now.2.ge
      · exact inv.early b outcome before (by simpa [State.setAttempt, same] using here)

theorem complete (inv : ConnectInvariant s) : ConnectInvariant (s.complete a outcome) := by
  unfold State.complete
  split
  next old before here =>
    have was (b : Nat) (result : Option ErrorType) (count : Nat)
        (now : (s.setAttempt a (.underWay (some outcome) before)).attempts b =
          .underWay result count) :
        ∃ earlier, s.attempts b = .underWay earlier count := by
      by_cases same : b = a
      · subst same
        have equal : some outcome = result ∧ before = count := by
          simpa [State.setAttempt] using now
        exact ⟨old, equal.2 ▸ here⟩
      · exact ⟨result, by simpa [State.setAttempt, same] using now⟩
    constructor
    · intro opened b opener
      by_cases same : b = a
      · exact .inl ⟨some outcome, before, by simp [State.setAttempt, same]⟩
      · simpa [State.setAttempt, same] using inv.opener opened b opener
    · intro stopped b result count now
      obtain ⟨earlier, then_⟩ := was b result count now
      exact inv.noticed stopped b earlier count then_
    · intro b result count now
      obtain ⟨earlier, then_⟩ := was b result count now
      exact inv.early b earlier count then_
  · exact inv
  · exact inv
  · exact inv

theorem close (inv : ConnectInvariant s) : ConnectInvariant (s.runTask .close) := by
  have was (b : Nat) (result : Option ErrorType) (count : Nat)
      (now : (s.attempts b).abort = .underWay result count) :
      ∃ earlier, s.attempts b = .underWay earlier count := by
    cases attempt : s.attempts b with
    | unborn | skipped | finished => simp [attempt, Attempt.abort] at now
    | underWay outcome before =>
        cases outcome with
        | none =>
            have equal : some .operationAborted = result ∧ before = count := by
              simpa [attempt, Attempt.abort] using now
            exact ⟨none, by rw [equal.2]⟩
        | some outcome =>
            have equal : some outcome = result ∧ before = count := by
              simpa [attempt, Attempt.abort] using now
            exact ⟨some outcome, by rw [equal.2]⟩
  constructor
  · intro opened
    simp [State.runTask, TcpSocket.close] at opened
  · intro stopped b result count now
    obtain ⟨earlier, then_⟩ := was b result count now
    exact inv.noticed stopped b earlier count then_
  · intro b result count now
    obtain ⟨earlier, then_⟩ := was b result count now
    exact inv.early b earlier count then_

theorem runTask (inv : ConnectInvariant s) (task : SocketTask) :
    ConnectInvariant (s.runTask task) := by
  cases task with
  | close => exact inv.close
  | receive | start | disconnected => exact { inv with }

private theorem disconnects_resume (here : s.attempts a = .underWay (some outcome) before) :
    (s.resume a).disconnects = s.disconnects + s.socket.closedUnnoticed.toNat := by
  simp [State.resume, here]

/-- Where a call goes on with a closed socket, a disconnect has been queued since
any of the attempts under way began: by somebody else, or by this call. -/
theorem queued (inv : ConnectInvariant s) (here : s.attempts a = .underWay (some outcome) before)
    (closed : s.socket.isOpen = false) {b count : Nat} {result : Option ErrorType}
    (other : s.attempts b = .underWay result count) : count < (s.resume a).disconnects := by
  have early := inv.early b result count other
  rw [disconnects_resume here]
  cases stopped : s.socket.stopped with
  | true =>
      have already := inv.noticed stopped b result count other
      omega
  | false =>
      have unnoticed : s.socket.closedUnnoticed = true := by
        simp [TcpSocket.closedUnnoticed, closed, stopped]
      rw [unnoticed, Bool.toNat_true]
      omega

theorem resume (inv : ConnectInvariant s) (here : s.attempts a = .underWay (some outcome) before)
    (clean : outcome = .success ∨ s.socket.isOpen = false) : ConnectInvariant (s.resume a) := by
  have grows : s.disconnects ≤ (s.resume a).disconnects := by
    rw [disconnects_resume here]
    exact Nat.le_add_right ..
  have was (b : Nat) (result : Option ErrorType) (count : Nat)
      (now : (s.resume a).attempts b = .underWay result count) :
      b ≠ a ∧ s.attempts b = .underWay result count := by
    by_cases same : b = a
    · simp [State.resume, State.setAttempt, here, same] at now
    · exact ⟨same, by simpa [State.resume, State.setAttempt, here, same] using now⟩
  constructor
  · intro opened b opener
    have wasOpen : s.socket.isOpen = true := by simpa [State.resume, here] using opened
    have success : outcome = .success := clean.resolve_right (by simp [wasOpen])
    by_cases same : b = a
    · exact .inr (by simp [State.resume, State.setAttempt, here, same, success])
    · have old := inv.opener wasOpen b
        (by simpa [State.resume, State.setAttempt, here] using opener)
      simpa [State.resume, State.setAttempt, here, same] using old
  · intro stopped b result count now
    obtain ⟨other, old⟩ := was b result count now
    have marked : s.socket.stopped = true ∨ s.socket.isOpen = false := by
      simpa [State.resume, here, TcpSocket.afterOperation_stopped] using stopped
    rcases marked with already | closed
    · exact (inv.noticed already b result count old).trans_le grows
    · exact inv.queued here closed old
  · intro b result count now
    exact (inv.early b result count (was b result count now).2).trans grows

theorem done_attempt (done : (s.attempts a).done = true) :
    ∃ outcome before, s.attempts a = .underWay (some outcome) before := by
  cases attempt : s.attempts a with
  | unborn | skipped | finished => simp [attempt, Attempt.done] at done
  | underWay outcome before =>
      cases outcome with
      | none => simp [attempt, Attempt.done] at done
      | some outcome => exact ⟨outcome, before, rfl⟩

theorem step (inv : ConnectInvariant s) (enabled : s.Enabled action)
    (clean : ComesBackClosed s action) : ConnectInvariant (s.step action) := by
  cases action with
  | connect a => exact inv.connect enabled
  | complete a outcome => exact inv.complete
  | resume a =>
      obtain ⟨outcome, before, here⟩ := done_attempt enabled
      exact inv.resume here (by simpa [here, Attempt.outcome] using clean.1)
  | stop => exact { inv with }
  | task task => exact inv.runTask task

/-- Where the socket is closed another `Connect` makes a new attempt. -/
theorem again (closed : s.socket.isOpen = false) :
    ((s.step (.connect a)).attempts a).waiting = true := by
  simp [State.step, State.connect, closed, State.setAttempt, Attempt.waiting]

private theorem isOpen_of_returns (enabled : s.Enabled action) (returns : s.returns action = true) :
    (s.step action).socket.isOpen = s.socket.isOpen := by
  cases action with
  | connect a =>
      have opened : s.socket.isOpen = true := returns
      simp [State.step, State.connect, State.setAttempt, opened]
  | resume a =>
      obtain ⟨outcome, before, here⟩ := done_attempt enabled
      simp [State.step, State.resume, here]
  | complete | stop | task => cases returns

private theorem established_of_returns (enabled : s.Enabled action)
    (returns : s.returns action = true) :
    (s.step action).Established ↔ s.Established := by
  have same : (s.step action).opener = s.opener ∧
      ∀ b, ((s.step action).attempts b).outcome = (s.attempts b).outcome := by
    cases action with
    | connect a =>
        have opened : s.socket.isOpen = true := returns
        have fresh : s.attempts a = .unborn := enabled
        refine ⟨by simp [State.step, State.connect, State.setAttempt, opened], fun b => ?_⟩
        by_cases equal : b = a
        · simp [State.step, State.connect, State.setAttempt, opened, equal, fresh,
            Attempt.outcome]
        · simp [State.step, State.connect, State.setAttempt, opened, equal]
    | resume a =>
        obtain ⟨outcome, before, here⟩ := done_attempt enabled
        refine ⟨by simp [State.step, State.resume, State.setAttempt, here], fun b => ?_⟩
        by_cases equal : b = a
        · simp [State.step, State.resume, State.setAttempt, here, equal, Attempt.outcome]
        · simp [State.step, State.resume, State.setAttempt, here, equal]
    | complete | stop | task => cases returns
  simp [State.Established, same.1, same.2]

/-- Under the invariant the steps that show what happened are those that come
back closed. -/
theorem observable_iff (inv : ConnectInvariant s) (enabled : s.Enabled action) :
    ConnectObservable s action ↔ ComesBackClosed s action := by
  have connected : (s.returns action = true → (s.step action).socket.isOpen = true →
      (s.step action).Established) ↔ (s.returns action = true → s.openUndecided = false) := by
    apply forall_congr'
    intro returns
    rw [isOpen_of_returns enabled returns, established_of_returns enabled returns]
    cases opened : s.socket.isOpen with
    | true => simpa using inv.established opened
    | false => simp [State.openUndecided, opened]
  cases action with
  | complete | stop | task =>
      refine iff_of_true ⟨fun a before outcome resumed => ?_, connected.mpr ?_⟩ trivial
      · cases resumed
      · intro returns
        cases returns
  | connect a =>
      constructor
      · intro observable
        cases opened : s.socket.isOpen with
        | true => exact connected.mp observable.connected opened
        | false => simp [ComesBackClosed, State.openUndecided, opened]
      · intro clean
        refine ⟨fun a before outcome resumed => ?_, connected.mpr fun _ => clean⟩
        cases resumed
  | resume a =>
      obtain ⟨outcome, before, here⟩ := done_attempt enabled
      have unchanged := isOpen_of_returns enabled rfl
      constructor
      · intro observable
        refine ⟨?_, connected.mp observable.connected rfl⟩
        by_cases success : outcome = .success
        · exact .inl (by simp [here, Attempt.outcome, success])
        · right
          rw [← unchanged]
          exact (observable.failed a before outcome rfl here success).closed
      · intro clean
        refine ⟨?_, connected.mpr fun _ => clean.2⟩
        intro b count result resumed there failed
        cases resumed
        have equal : outcome = result ∧ before = count := by simpa [here] using there
        have closed : s.socket.isOpen = false := by
          refine clean.1.resolve_left fun success => failed ?_
          rw [← equal.1]
          simpa [here, Attempt.outcome] using success
        refine ⟨unchanged.trans closed, inv.queued here closed there, ?_⟩
        intro c _
        exact again (unchanged.trans closed)

end ConnectInvariant

/-- For every socket and every interleaving of calls of `Connect` and `Stop`: a
failed attempt can be seen where its call returns, and an open socket is then
connected, exactly as long as failed attempts come back to a closed socket and no
call meets an attempt of another one that is still undecided. -/
theorem connect_observable_iff {socket : TcpSocket} {actions : List Action}
    (legal : connectSystem.Legal { socket := socket } actions) :
    connectSystem.EveryStep ConnectObservable { socket := socket } actions ↔
      connectSystem.EveryStep ComesBackClosed { socket := socket } actions := by
  have preserved : ∀ s action, ConnectInvariant s → connectSystem.enabled s action →
      connectSystem.enabled s action → ComesBackClosed s action →
        ConnectInvariant (connectSystem.next s action) :=
    fun _ _ inv enabled _ clean => inv.step enabled clean
  apply ActionSystem.everyStep_congr _ preserved (ConnectInvariant.initial socket) legal legal
  intro s action inv enabled _
  exact inv.observable_iff enabled

/-- An attempt is refused, and the next call finds the socket open. -/
def refused : List Action :=
  [.connect 0, .complete 0 .other, .resume 0, .connect 1]

/-- Nothing is queued for the attempt of `refused`, and the second call makes no
attempt. -/
theorem connect_not_observable_refused :
    connectSystem.Legal { socket := {} } refused ∧
      ¬ connectSystem.EveryStep ConnectObservable { socket := {} } refused := by
  refine ⟨by decide, fun observable => ?_⟩
  have seen := observable.2.2.1.failed 0 0 .other rfl rfl (by decide)
  exact absurd seen.closed (by decide)

/-- An attempt is stopped while it is under way, and the next one succeeds. -/
def stoppedAttempt : List Action :=
  [.connect 0, .stop, .task .close, .resume 0, .task .disconnected, .connect 1,
    .complete 1 .success, .resume 1, .connect 2]

theorem connect_observable_stoppedAttempt :
    connectSystem.EveryStep ConnectObservable { socket := {} } stoppedAttempt :=
  (connect_observable_iff (by decide)).mpr (by decide)

end SocketConnect

end FlatAsync
