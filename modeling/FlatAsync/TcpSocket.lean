import FlatAsync.Strand

/-!
# Sockets

The parts of `TcpSocket` that do not depend on who uses it: the tests that its
functions make, the tasks they post, and what the read loop of `Start` makes of
the outcome of a read.
-/

namespace FlatAsync

/-- `BufferType`, a string of bytes. -/
abbrev Buffer := List UInt8

/-- `TcpServerIdType` -/
abbrev TcpServerId := Nat

inductive ErrorType
  | success
  | eof
  | connectionReset
  | operationAborted
  | other
  deriving DecidableEq, Repr

/-- How an operation completes: its error code, and the bytes it has put into
the buffer. -/
structure Completion where
  error : ErrorType
  data : Buffer := []
  deriving DecidableEq, Repr

namespace Completion

def aborted : Completion where
  error := .operationAborted

def taken (completion : Completion) : Buffer :=
  if completion.error = .success then completion.data else []

end Completion

/-- `MAX_BUFFER` -/
def maxBuffer : Nat := 1024

/-- A buffer as `ReadPartial` creates it. -/
def zeroBuffer : Buffer := List.replicate maxBuffer 0

theorem length_zeroBuffer : zeroBuffer.length = maxBuffer :=
  List.length_replicate

/-- The buffer after `BufferIoHandler`, which shortens it to what was read. -/
def bufferIoHandler (buffer : Buffer) (completion : Completion) : Buffer :=
  if completion.error = .success then completion.data else buffer

/-- The tasks that a socket posts: the lambda in `Start`, the lambda that calls
`Start` again, the lambda in `Stop`, and the one that raises
`on_disconnected_`. -/
inductive SocketTask
  | receive
  | start
  | close
  | disconnected
  deriving DecidableEq, Repr

/-- The functions of a connected socket that wait for an operation. -/
inductive SocketCall
  | readExact (size : Nat)
  | readPartial
  | readUntil (delimiter : Buffer)
  | write (buffer : Buffer)
  deriving DecidableEq, Repr

structure TcpSocket where
  isOpen : Bool := false
  stopped : Bool := false
  id : Nat := 0
  deriving DecidableEq, Repr

/-- What `Start` makes of the result of `ReadPartial`. -/
inductive ReadOutcome
  | disconnected
  | failed
  | data (buffer : Buffer)
  deriving DecidableEq, Repr

def ErrorType.readOutcome (buffer : Buffer) : ErrorType → ReadOutcome
  | eof | connectionReset | operationAborted => .disconnected
  | other => .failed
  | success => .data buffer

namespace TcpSocket

/-- `TcpSocket::Start` -/
def start (socket : TcpSocket) : List SocketTask :=
  if socket.isOpen then [.receive] else []

/-- `TcpSocket::Stop` -/
def stop (socket : TcpSocket) : List SocketTask :=
  if socket.isOpen then [.close] else []

/-- The lambda in `Stop` -/
def close (socket : TcpSocket) : TcpSocket :=
  { socket with isOpen := false }

/-- The call returns at once: a read of a closed socket. -/
def skips (socket : TcpSocket) : SocketCall → Bool
  | .readExact _ | .readPartial | .readUntil _ => !socket.isOpen
  | .write _ => false

/-- `TcpSocket::Connect` on a closed socket, which `async_connect` opens. -/
def connect (socket : TcpSocket) : TcpSocket :=
  { socket with isOpen := true, stopped := false }

/-- The operation that the call waited for has left the socket closed, and
nobody has noticed yet. -/
def closedUnnoticed (socket : TcpSocket) : Bool :=
  !socket.isOpen && !socket.stopped

/-- The end of every call that has waited: the first to find the socket closed
raises the disconnect. -/
def afterOperation (socket : TcpSocket) : TcpSocket × List SocketTask :=
  if socket.closedUnnoticed then ({ socket with stopped := true }, [.disconnected])
  else (socket, [])

variable {socket : TcpSocket}

@[simp]
theorem afterOperation_isOpen : socket.afterOperation.1.isOpen = socket.isOpen := by
  unfold afterOperation
  split <;> rfl

@[simp]
theorem afterOperation_id : socket.afterOperation.1.id = socket.id := by
  unfold afterOperation
  split <;> rfl

theorem afterOperation_stopped :
    socket.afterOperation.1.stopped = (socket.stopped || !socket.isOpen) := by
  cases opened : socket.isOpen <;> cases noticed : socket.stopped <;>
    simp [afterOperation, closedUnnoticed, opened, noticed]

section Posts

variable (select : SocketTask → Bool)

@[simp]
theorem countP_start : socket.start.countP select = (socket.isOpen && select .receive).toNat := by
  unfold start
  cases socket.isOpen <;> cases chosen : select .receive <;> simp [chosen]

@[simp]
theorem countP_stop : socket.stop.countP select = (socket.isOpen && select .close).toNat := by
  unfold stop
  cases socket.isOpen <;> cases chosen : select .close <;> simp [chosen]

@[simp]
theorem countP_afterOperation : socket.afterOperation.2.countP select =
    (socket.closedUnnoticed && select .disconnected).toNat := by
  unfold afterOperation
  cases socket.closedUnnoticed <;> cases chosen : select .disconnected <;> simp [chosen]

end Posts

end TcpSocket

end FlatAsync
