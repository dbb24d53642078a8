import FlatAsync.TcpSocket

/-!
# A single connection

An abstract view of a connection of a server: its socket, whether a slot holds
it, how often its end has been reported, and how much work there is for it in
each of the places where such work can stand.

The steps say what may happen to a connection, whatever the other connections,
the users and the order of the queue do.
-/

namespace FlatAsync

namespace TcpServer

/-- Where the work for a connection stands.  The read loop is at `receive` or
`start` (its tasks), in a read that is pending, has failed or has succeeded, or
in the subscribers of `on_data_`.  The end of a connection goes from
`disconnected` and `release` (tasks) to `freeing`, the subscribers of the
server's `on_disconnected_`. -/
inductive Place
  | accepted
  | connected
  | receive
  | reading
  | failed
  | read
  | data
  | start
  | disconnected
  | release
  | freeing
  | calling
  | close
  deriving DecidableEq, Repr

def Place.aborted (work : Place → Nat) : Place → Nat
  | reading => 0
  | failed => work failed + work reading
  | place => work place

structure Connection where
  socket : TcpSocket
  slot : Bool
  raised : Nat
  work : Place → Nat

/-- Moments at which it matters how the connection stands: it is accepted, its
read loop is about to read, a call of user code on it returns, its `Start` is
called again, its end is reported, or a subscriber throws. -/
inductive Moment
  | accepts (success : Bool)
  | reads
  | returns
  | restarts
  | raises
  | dataThrows
  | disconnectedThrows
  deriving DecidableEq, Repr

namespace Connection

theorem ext {c d : Connection} (socket : c.socket = d.socket) (slot : c.slot = d.slot)
    (raised : c.raised = d.raised) (work : ∀ place, c.work place = d.work place) : c = d := by
  cases c
  cases d
  simp_all [funext_iff]

def add (c : Connection) (place : Place) (number : Nat) : Connection :=
  { c with work := fun other => c.work other + if place = other then number else 0 }

abbrev put (c : Connection) (place : Place) : Connection :=
  c.add place 1

def notice (c : Connection) : Connection :=
  { c.add .disconnected c.socket.closedUnnoticed.toNat with
    socket := c.socket.afterOperation.1 }

/-- The socket is closed, which aborts a pending read. -/
def close (c : Connection) : Connection :=
  { c with
    socket := c.socket.close
    work := Place.aborted c.work }

def register (c : Connection) (id : TcpServerId) : Connection :=
  { c with
    socket := { c.socket with id := id }
    slot := true }

def loop (c : Connection) : Nat :=
  c.work .receive + c.work .reading + c.work .failed + c.work .read + c.work .data +
    c.work .start

/-- The disconnects, those included that are still to be reported. -/
def disconnects (c : Connection) : Nat :=
  c.raised + c.work .disconnected + c.work .release

section Fields

variable {c : Connection} {place other : Place} {number : Nat}

@[simp]
theorem add_socket : (c.add place number).socket = c.socket :=
  rfl

@[simp]
theorem add_slot : (c.add place number).slot = c.slot :=
  rfl

@[simp]
theorem add_raised : (c.add place number).raised = c.raised :=
  rfl

@[simp]
theorem add_work :
    (c.add place number).work other = c.work other + if place = other then number else 0 :=
  rfl

@[simp]
theorem notice_socket : c.notice.socket = c.socket.afterOperation.1 :=
  rfl

@[simp]
theorem notice_slot : c.notice.slot = c.slot :=
  rfl

@[simp]
theorem notice_raised : c.notice.raised = c.raised :=
  rfl

@[simp]
theorem notice_work : c.notice.work place =
    c.work place + if .disconnected = place then c.socket.closedUnnoticed.toNat else 0 :=
  rfl

end Fields

inductive Step : Connection → Option Moment → Connection → Prop
  | other {c : Connection} : Step c none c
  | accepted {c : Connection} {success : Bool} (new : c.socket = {}) (unused : c.work .accepted = 0)
      (open' : c.work .close = 0) :
      Step c (some (.accepts success))
        ({ c with socket := { isOpen := success } }.put .accepted)
  | ignored {c : Connection} {success : Bool} (new : c.socket = {}) :
      Step c none { c with socket := { isOpen := success } }
  | registered {c : Connection} {index : Nat} (new : c.socket.id = 0) (free : c.slot = false) :
      Step (c.put .accepted) none
        (((c.register (index + 1)).put .connected).add .receive c.socket.isOpen.toNat)
  | refused {c : Connection} : Step (c.put .accepted) none (c.add .close c.socket.isOpen.toNat)
  | dropped {c : Connection} : Step (c.put .accepted) none c
  | connected {c : Connection} : Step (c.put .connected) none c
  | reads {c : Connection} (opened : c.socket.isOpen = true) :
      Step (c.put .receive) (some .reads) (c.put .reading)
  | skips {c : Connection} (closed : c.socket.isOpen = false) :
      Step (c.put .receive) (some .reads) (c.put .data)
  | fails {c : Connection} : Step (c.put .reading) none (c.put .failed)
  | succeeds {c : Connection} : Step (c.put .reading) none (c.put .read)
  | received {c : Connection} : Step (c.put .read) none (c.notice.put .data)
  | ends {c : Connection} {number : Nat} (closes : 0 < number → c.socket.isOpen = true) :
      Step (c.put .failed) none
        ((c.notice.add .release (!c.notice.socket.stopped).toNat).add .close number)
  | restarts {c : Connection} :
      Step (c.put .start) (some .restarts) (c.add .receive c.socket.isOpen.toNat)
  | handled {c : Connection} : Step (c.put .data) none (c.put .start)
  | dataThrows {c : Connection} : Step (c.put .data) (some .dataThrows) c
  | disconnected {c : Connection} : Step (c.put .disconnected) none (c.put .release)
  | raises {c : Connection} :
      Step (c.put .release) (some .raises) ({ c with raised := c.raised + 1 }.put .freeing)
  | freed {c : Connection} : Step (c.put .freeing) none { c with slot := false }
  | disconnectedThrows {c : Connection} : Step (c.put .freeing) (some .disconnectedThrows) c
  | calls {c : Connection} (slot : c.slot = true) : Step c none (c.put .calling)
  | returns {c : Connection} : Step (c.put .calling) (some .returns) c.notice
  | stops {c : Connection} {number : Nat}
      (opened : 0 < number → c.slot = true ∧ c.socket.isOpen = true) :
      Step c none (c.add .close number)
  | closes {c : Connection} : Step (c.put .close) none c.close

/-- Only those who have raised `on_disconnected_` free the slot. -/
theorem Step.freeing_le {c d : Connection} {moment : Option Moment} (step : Step c moment d)
    (reported : c.work .freeing ≤ c.raised) : d.work .freeing ≤ d.raised := by
  cases step with
  | closes => simpa [close, Place.aborted] using reported
  | accepted | registered | refused | raises | freed | disconnectedThrows =>
      simp [register] at *
      omega
  | other | ignored | dropped | connected | reads | skips | fails | succeeds | received | ends
  | restarts | handled | dataThrows | disconnected | calls | returns | stops =>
      simpa using reported

section Step

variable {c d : Connection} {moment : Option Moment}

theorem Step.id_of_registered (step : Step c moment d) (registered : c.socket.id ≠ 0) :
    d.socket.id = c.socket.id := by
  cases step with
  | accepted new | ignored new => simp [new] at registered
  | registered new => exact absurd new registered
  | other | refused | dropped | connected | reads | skips | fails | succeeds | received | ends
  | restarts | handled | dataThrows | disconnected | raises | freed | disconnectedThrows | calls
  | returns | stops | closes => simp [close, TcpSocket.close]

theorem Step.connected_of_registered (step : Step c moment d) (unregistered : c.socket.id = 0)
    (registered : d.socket.id ≠ 0) : 0 < d.work .connected := by
  cases step with
  | registered => simp
  | accepted | ignored => simp at registered
  | other | refused | dropped | connected | reads | skips | fails | succeeds | received | ends
  | restarts | handled | dataThrows | disconnected | raises | freed | disconnectedThrows | calls
  | returns | stops | closes =>
      simp [close, TcpSocket.close] at *
      contradiction

theorem Step.raised_le (step : Step c moment d) : c.raised ≤ d.raised := by
  cases step <;> simp [register, close]

end Step

structure Sound (c : Connection) : Prop where
  stopped : c.socket.stopped = true → c.socket.isOpen = false
  reading : 0 < c.work .reading → c.socket.isOpen = true
  slot : c.slot = true → c.socket.id ≠ 0
  single : c.loop ≤ 1
  accepted : c.work .accepted ≤ 1
  unclosed : 0 < c.work .accepted → c.socket.id = 0 ∧ c.work .close = 0
  unregistered : c.socket.id = 0 →
    c.loop = 0 ∧ c.disconnects = 0 ∧ c.work .freeing = 0 ∧ c.work .calling = 0 ∧
      c.work .connected = 0

namespace Sound

variable {c d : Connection} {moment : Option Moment}

theorem registered_of_loop (sound : c.Sound) (work : 0 < c.loop) : c.socket.id ≠ 0 := by
  intro zero
  have none := (sound.unregistered zero).1
  omega

private theorem flags_step (sound : c.Sound) (step : Step c moment d) :
    (d.socket.stopped = true → d.socket.isOpen = false) ∧
      (0 < d.work .reading → d.socket.isOpen = true) ∧ (d.slot = true → d.socket.id ≠ 0) := by
  obtain ⟨stopped, reading, slot, -, -, -, unregistered⟩ := sound
  cases step with
  | accepted new | ignored new =>
      simp only [loop] at unregistered
      simp_all
  | registered new free =>
      simp only [loop] at unregistered
      simp_all [register]
  | reads | calls | stops => simp_all
  | fails | succeeds => exact ⟨stopped, fun _ => reading (by simp), slot⟩
  | received | ends | returns => simp_all [TcpSocket.afterOperation_stopped, or_imp]
  | closes => simp_all [close, TcpSocket.close, Place.aborted]
  | freed => exact ⟨stopped, by simpa using reading, by simp⟩
  | other | refused | dropped | connected | skips | restarts | handled | dataThrows
  | disconnected | raises | disconnectedThrows =>
      simpa using ⟨stopped, reading, slot⟩

private theorem counts_step (sound : c.Sound) (step : Step c moment d) :
    d.loop ≤ 1 ∧ d.work .accepted ≤ 1 ∧
      (0 < d.work .accepted → d.socket.id = 0 ∧ d.work .close = 0) ∧
        (d.socket.id = 0 →
          d.loop = 0 ∧ d.disconnects = 0 ∧ d.work .freeing = 0 ∧ d.work .calling = 0 ∧
            d.work .connected = 0) := by
  obtain ⟨-, -, slot, single, accepted, unclosed, unregistered⟩ := sound
  have binary := Bool.toNat_le d.socket.isOpen
  simp only [loop, disconnects] at single unregistered ⊢
  cases step with
  | accepted new | ignored new => simp_all
  | stops opened =>
      have registered : 0 < _ → _ := fun some => slot (opened some).1
      simp at *
      omega
  | calls => simp_all
  | other | registered | refused | dropped | connected | reads | skips | fails | succeeds
  | received | ends | restarts | handled | dataThrows | disconnected | raises | freed
  | disconnectedThrows | returns | closes =>
      simp [register, close, TcpSocket.close, Place.aborted] at *
      omega

theorem step (sound : c.Sound) (step : Step c moment d) : d.Sound := by
  obtain ⟨stopped, reading, slot⟩ := sound.flags_step step
  obtain ⟨single, accepted, unclosed, unregistered⟩ := sound.counts_step step
  exact ⟨stopped, reading, slot, single, accepted, unclosed, unregistered⟩

end Sound

end Connection

end TcpServer

end FlatAsync
