import FlatAsync.TcpSocket
import Mathlib.Data.List.Infix

/-!
# The buffers of read calls

A task reads from a `TcpSocket` by `ReadExact`, `ReadPartial` and `ReadUntil`, in
any order.  Each call hands its buffer to an asynchronous operation, and returns
what the buffer holds afterwards, or the buffer as it was created when the
socket is closed already.

This file keeps account of the bytes that the operations take from the stream
and of the buffers that are returned, and shows when the two agree.
-/

namespace FlatAsync

namespace ReadCalls

inductive ReadCall
  | readExact (size : Nat)
  | readPartial
  | readUntil (delimiter : Buffer)
  deriving DecidableEq, Repr

namespace ReadCall

def buffer : ReadCall → Buffer
  | readExact size => List.replicate size 0
  | readPartial => zeroBuffer
  | readUntil _ => []

/-- The operation writes at the beginning of the buffer; a `streambuf` grows as
it is written to. -/
def fill (call : ReadCall) (data : Buffer) : Buffer :=
  data ++ call.buffer.drop data.length

/-- `BufferIoHandler` resizes a buffer that is passed to it, if the operation has
succeeded. -/
def result (call : ReadCall) (completion : Completion) : Buffer :=
  match call with
  | readExact _ | readPartial =>
      if completion.error = .success then
        (call.fill completion.data).take completion.data.length
      else
        call.fill completion.data
  | readUntil _ => call.fill completion.data

/-- How the operations of asio complete. -/
def MayComplete : ReadCall → Completion → Prop
  | readExact size, completion =>
      if completion.error = .success then completion.data.length = size
      else completion.data.length < size
  | readPartial, completion =>
      if completion.error = .success then
        0 < completion.data.length ∧ completion.data.length ≤ maxBuffer
      else completion.data = []
  | readUntil delimiter, completion =>
      completion.error = .success → delimiter <:+: completion.data

instance : ∀ call completion, Decidable (MayComplete call completion)
  | readExact _, _ | readPartial, _ => inferInstanceAs (Decidable (ite ..))
  | readUntil _, _ => inferInstanceAs (Decidable (_ → _))

end ReadCall

/-- A call that waits for its operation, or for its turn after that. -/
structure Reading where
  call : ReadCall
  completion : Option Completion := none
  deriving DecidableEq, Repr

/-- The operation of the call is under way and may complete like this. -/
def Reading.Awaits (reading : Reading) (completion : Completion) : Prop :=
  reading.completion = none ∧ reading.call.MayComplete completion

instance (reading : Reading) (completion : Completion) : Decidable (reading.Awaits completion) :=
  inferInstanceAs (Decidable (_ ∧ _))

/-- A socket with the tasks that have been posted for it, and its one reader:
`arrived` is what the peer has sent so far, `taken` what the operations have
taken from it, and `returned` lists the buffers of the calls that are over. -/
structure State where
  socket : TcpSocket
  posted : List SocketTask := []
  reading : Option Reading := none
  arrived : Buffer := []
  taken : Buffer := []
  returned : List Buffer := []
  deriving DecidableEq, Repr

/-- The peer sends a chunk; the reader makes a call; its operation completes; the
call goes on; somebody calls `Stop`; a task runs. -/
inductive Action
  | arrive (chunk : Buffer)
  | call (call : ReadCall)
  | complete (completion : Completion)
  | resume
  | stop
  | task (task : SocketTask)
  deriving DecidableEq, Repr

namespace State

/-- The first part of a call, up to where it waits. -/
def begin (s : State) (call : ReadCall) : State :=
  if s.socket.isOpen then { s with reading := some { call := call } }
  else { s with returned := s.returned ++ [call.buffer] }

def complete (s : State) (completion : Completion) : State :=
  { s with
    reading := s.reading.map fun reading => { reading with completion := some completion }
    taken := s.taken ++ completion.data }

/-- The rest of a call after its operation. -/
def resume (s : State) : State :=
  match s.reading with
  | some { call := call, completion := some completion } =>
      { s with
        socket := s.socket.afterOperation.1
        posted := s.posted ++ s.socket.afterOperation.2
        reading := none
        returned := s.returned ++ [call.result completion] }
  | some { call := _, completion := none } | none => s

/-- A task that has been posted by `Stop` or by a call. -/
def runTask (s : State) (task : SocketTask) : State :=
  match task with
  | .close => { s with socket := s.socket.close, posted := s.posted.erase task }
  | .receive | .start | .disconnected => { s with posted := s.posted.erase task }

def step (s : State) : Action → State
  | .arrive chunk => { s with arrived := s.arrived ++ chunk }
  | .call call => s.begin call
  | .complete completion => s.complete completion
  | .resume => s.resume
  | .stop => { s with posted := s.posted ++ s.socket.stop }
  | .task task => s.runTask task

def Enabled (s : State) : Action → Prop
  | .arrive _ | .stop => True
  | .call _ => s.reading = none
  | .complete completion =>
      (∃ reading ∈ s.reading, reading.Awaits completion) ∧
        s.taken ++ completion.data <+: s.arrived
  | .resume => (s.reading.bind Reading.completion).isSome
  | .task task => task ∈ s.posted

instance (s : State) : ∀ action, Decidable (s.Enabled action)
  | .arrive _ | .stop => inferInstanceAs (Decidable True)
  | .call _ | .resume => inferInstanceAs (Decidable (_ = _))
  | .complete _ => inferInstanceAs (Decidable (_ ∧ _))
  | .task task => inferInstanceAs (Decidable (task ∈ s.posted))

end State

def readSystem : ActionSystem State Action where
  enabled := State.Enabled
  next := State.step

instance (s : State) (action : Action) : Decidable (readSystem.enabled s action) :=
  inferInstanceAs (Decidable (s.Enabled action))

/-! ### What is returned -/

/-- When no call is under way, the returned buffers are the bytes taken from the
stream. -/
def Accounted (s : State) : Prop :=
  s.reading = none → s.returned.flatten = s.taken ∧ s.taken <+: s.arrived

instance (s : State) : Decidable (Accounted s) :=
  inferInstanceAs (Decidable (_ → _))

/-- A call that creates a buffer with anything in it finds the socket open, and
its operation succeeds. -/
def KeepsAccount (s : State) : Action → Prop
  | .call call => s.socket.isOpen = true ∨ call.buffer = []
  | .resume => ∀ reading ∈ s.reading, ∀ completion ∈ reading.completion,
      completion.error = .success ∨ reading.call.buffer = []
  | .arrive _ | .complete _ | .stop | .task _ => True

instance (s : State) : ∀ action, Decidable (KeepsAccount s action)
  | .call _ => inferInstanceAs (Decidable (_ ∨ _))
  | .resume => inferInstanceAs (Decidable (∀ reading ∈ s.reading, _))
  | .arrive _ | .complete _ | .stop | .task _ => inferInstanceAs (Decidable True)

namespace ReadCall

variable {call : ReadCall} {completion : Completion}

/-- A call returns the bytes of its operation when this has succeeded, or when
there were no others in the buffer. -/
theorem result_eq_data (clean : completion.error = .success ∨ call.buffer = []) :
    call.result completion = completion.data := by
  have filled (empty : call.buffer = []) : call.fill completion.data = completion.data := by
    rw [fill, empty, List.drop_nil, List.append_nil]
  have resized : (call.fill completion.data).take completion.data.length = completion.data :=
    List.take_left
  cases call with
  | readUntil delimiter => exact filled rfl
  | readExact | readPartial =>
      unfold result
      rcases clean with success | empty
      · rw [if_pos success, resized]
      · rw [resized, filled empty, ite_self]

/-- After a failure a preallocated buffer comes back in its full length. -/
theorem length_data_lt (contract : call.MayComplete completion)
    (failed : completion.error ≠ .success) (allocated : call.buffer ≠ []) :
    completion.data.length < (call.result completion).length := by
  cases call with
  | readUntil delimiter => exact absurd rfl allocated
  | readExact size =>
      have short : completion.data.length < size := by simpa [MayComplete, failed] using contract
      simp [result, failed, fill, buffer]
      omega
  | readPartial =>
      have nothing : completion.data = [] := by simpa [MayComplete, failed] using contract
      simp [result, failed, fill, buffer, nothing, length_zeroBuffer, maxBuffer]

end ReadCall

/-- The bytes that the operation of the call under way has taken. -/
def State.carried (s : State) : Buffer :=
  match s.reading.bind Reading.completion with
  | some completion => completion.data
  | none => []

/-- The bytes taken are those returned and those still carried. -/
structure Account (s : State) : Prop where
  balance : s.taken = s.returned.flatten ++ s.carried
  received : s.taken <+: s.arrived
  contract : ∀ reading ∈ s.reading, ∀ completion ∈ reading.completion,
    reading.call.MayComplete completion

namespace Account

variable {s : State} {action : Action}

theorem initial (socket : TcpSocket) : Account { socket := socket } := by
  constructor <;> simp [State.carried]

theorem accounted (account : Account s) : Accounted s := by
  intro idle
  have balance := account.balance
  simp only [State.carried, idle, Option.bind_none, List.append_nil] at balance
  exact ⟨balance.symm, account.received⟩

theorem begin (account : Account s) {call : ReadCall} (idle : s.reading = none)
    (keeps : s.socket.isOpen = true ∨ call.buffer = []) : Account (s.begin call) := by
  have balance := account.balance
  simp only [State.carried, idle, Option.bind_none, List.append_nil] at balance
  unfold State.begin
  split
  · refine ⟨?_, account.received, ?_⟩
    · simpa [State.carried] using balance
    · simp
  next closed =>
    have empty : call.buffer = [] := keeps.resolve_left closed
    refine ⟨?_, account.received, account.contract⟩
    simpa [State.carried, idle, empty] using balance

theorem complete (account : Account s) {completion : Completion}
    (awaits : ∃ reading ∈ s.reading, reading.Awaits completion)
    (next : s.taken ++ completion.data <+: s.arrived) : Account (s.complete completion) := by
  obtain ⟨reading, found, waiting, contract⟩ := awaits
  have here : s.reading = some reading := found
  refine ⟨?_, next, ?_⟩
  · have balance := account.balance
    simp only [State.carried, here, Option.bind_some, waiting, List.append_nil] at balance
    simp [State.complete, State.carried, here, balance]
  · simpa [State.complete, here] using contract

theorem resume (account : Account s) (keeps : KeepsAccount s .resume) : Account s.resume := by
  unfold State.resume
  split
  next call completion here =>
    have balance := account.balance
    have result := call.result_eq_data
      (keeps _ here completion rfl)
    simp only [State.carried, here, Option.bind_some] at balance
    refine ⟨?_, account.received, by simp⟩
    simpa [State.carried, result] using balance
  · exact account
  · exact account

theorem runTask (account : Account s) (task : SocketTask) : Account (s.runTask task) := by
  cases task with
  | close | receive | start | disconnected => exact { account with }

theorem step (account : Account s) (enabled : s.Enabled action) (keeps : KeepsAccount s action) :
    Account (s.step action) := by
  cases action with
  | arrive chunk =>
      exact { account with received := account.received.trans (List.prefix_append ..) }
  | call call => exact account.begin enabled keeps
  | complete completion => exact account.complete enabled.1 enabled.2
  | resume => exact account.resume keeps
  | stop => exact { account with }
  | task task => exact account.runTask task

theorem broken (account : Account s) (enabled : s.Enabled action)
    (loses : ¬ KeepsAccount s action) : ¬ Accounted (s.step action) := by
  intro accounted
  cases action with
  | arrive | complete | stop | task => exact loses trivial
  | call call =>
      have idle : s.reading = none := enabled
      obtain ⟨closed, allocated⟩ := not_or.mp loses
      have same := (accounted (by simp [State.step, State.begin, closed, idle])).1
      have before := (account.accounted idle).1
      simp [State.step, State.begin, closed, before] at same
      exact allocated same
  | resume =>
      simp only [KeepsAccount, not_forall, not_or] at loses
      obtain ⟨⟨call, done⟩, here, completion, rfl, failed, allocated⟩ := loses
      have longer := ReadCall.length_data_lt (account.contract _ here completion rfl) failed
        allocated
      have found : s.reading = some ⟨call, some completion⟩ := here
      have same := (accounted (by simp [State.step, State.resume, found])).1
      have balance := account.balance
      simp only [State.carried, found, Option.bind_some] at balance
      simp [State.step, State.resume, found, balance] at same
      rw [same] at longer
      exact Nat.lt_irrefl _ longer

end Account

/-- For every sequence of read calls, every stream and every point at which the
operations fail or the socket is closed: the buffers returned are exactly the
bytes taken from the stream as long as each call other than `ReadUntil` finds the
socket open and its operation succeeds, and no longer. -/
theorem reads_accounted_iff {socket : TcpSocket} {actions : List Action}
    (legal : readSystem.Legal { socket := socket } actions) :
    readSystem.EveryState Accounted { socket := socket } actions ↔
      readSystem.EveryStep KeepsAccount { socket := socket } actions :=
  ActionSystem.everyState_iff_everyStep (fun _ => Account.accounted)
    (fun _ _ account enabled _ keeps => account.step enabled keeps)
    (fun _ _ account enabled _ loses => account.broken enabled loses)
    (Account.initial socket) legal legal

/-- The peer sends one byte and goes away, while three are asked for. -/
def shortMessage : List Action :=
  [.call (.readExact 3), .arrive [7], .complete ⟨.eof, [7]⟩, .resume]

/-- The call of `shortMessage` returns two bytes that nobody has sent. -/
theorem reads_not_accounted_shortMessage :
    readSystem.Legal { socket := { isOpen := true } } shortMessage ∧
      ¬ readSystem.EveryState Accounted { socket := { isOpen := true } } shortMessage := by
  refine ⟨by decide, fun accounted => ?_⟩
  exact absurd (accounted.last (by decide)).1 (by decide)

/-- A line and the beginning of the next one arrive in one chunk; the rest comes
when the socket has been stopped. -/
def lineAndRest : List Action :=
  [.call (.readUntil [10]), .arrive [1, 10, 2], .complete ⟨.success, [1, 10, 2]⟩, .stop,
    .resume, .call (.readExact 1), .arrive [3], .complete ⟨.success, [3]⟩, .resume,
    .call (.readUntil [10]), .arrive [4], .task .close, .complete ⟨.operationAborted, [4]⟩,
    .resume, .call (.readUntil [10])]

theorem reads_accounted_lineAndRest :
    readSystem.EveryState Accounted { socket := { isOpen := true } } lineAndRest :=
  (reads_accounted_iff (by decide)).mpr (by decide)

end ReadCalls

end FlatAsync
