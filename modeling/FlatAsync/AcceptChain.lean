import FlatAsync.ServerSteps

/-!
# The accept chain

A running server always has one link of its accept chain: a coroutine in
`Acceptor::Accept`, a task that will run `OnAccepted`, or the task posted last
in `OnAccepted`, which calls `DoAccept` again.

The branch of `OnAccepted` that refuses a connection posts no such task, so
that the chain ends with the first client beyond the limit.
-/

namespace FlatAsync

namespace TcpServer

def isLink : Work → Bool
  | .queued (.task (.accepted _)) | .queued (.task .rearm) => true
  | .queued (.resume (.accept _) _) | .waiting (.accept _) _ => true
  | _ => false

/-- A coroutine in `Accept` of another acceptor than the `generation`-th. -/
def isStale (generation : Nat) : Work → Bool
  | .queued (.resume (.accept other) _) | .waiting (.accept other) _ => other ≠ generation
  | _ => false

def State.isListening (s : State) : Bool :=
  s.acceptor.any Acceptor.isOpen

/-- A running server with an open acceptor has one link of the chain. -/
def OneLink (s : State) (items : Multiset Work) : Prop :=
  s.isRunning = true → s.isListening = true → Item.count isLink items = 1

instance (s : State) (items : Multiset Work) : Decidable (OneLink s items) :=
  inferInstanceAs (Decidable (_ → _ → _))

/-- `OnAccepted` of a listening server finds a free slot, and the lambda in
`Start` that opens an acceptor finds no link of an earlier chain. -/
def ChainKept (s : State) (rest : Multiset Work) : ServerMove → Prop
  | .begin _ (.task (.accepted _)) =>
      s.isRunning = true → s.isListening = true → s.getNewConnectionIndex.isSome = true
  | .begin choice (.task .start) =>
      s.isRunning = true → choice.opens = true → Item.count isLink rest = 0
  | _ => True

instance (s : State) (rest : Multiset Work) : ∀ move, Decidable (ChainKept s rest move)
  | .begin _ (.task (.accepted _)) => inferInstanceAs (Decidable (_ → _ → _))
  | .begin _ (.task .start) => inferInstanceAs (Decidable (_ → _ → _))
  | .begin _ (.task .user) | .begin _ (.task .listening) | .begin _ (.task (.connected _))
  | .begin _ (.task (.socket ..)) | .begin _ (.task (.release _)) | .begin _ (.task .rearm)
  | .begin _ (.task .stop) | .begin _ (.task (.stopClient _)) | .begin _ (.resume ..)
  | .post _ | .complete .. | .deliver .. | .act .. => inferInstanceAs (Decidable True)

/-- An open acceptor belongs to a running server and has one link, which is
its own. -/
def ChainInvariant (s : State) (items : Multiset Work) : Prop :=
  ∀ acceptor, s.acceptor = some acceptor → acceptor.isOpen = true →
    s.isRunning = true ∧ Item.count isLink items = 1 ∧
      Item.count (isStale acceptor.generation) items = 0

theorem blind_isLink : Item.Blind isLink := by
  intro operation result
  cases operation <;> rfl

theorem blind_isStale (generation : Nat) : Item.Blind (isStale generation) := by
  intro operation result
  cases operation <;> rfl

theorem isLink_of_isStale (generation : Nat) (item : Work)
    (stale : isStale generation item = true) : isLink item = true := by
  cases item with
  | queued entry =>
      cases entry with
      | task => simp [isStale] at stale
      | resume operation => cases operation <;> simp_all [isStale, isLink]
  | waiting operation => cases operation <;> simp_all [isStale, isLink]
  | running => simp [isStale] at stale

/-! ### Who adds links -/

def OffChain : Entry Task Operation Completion → Prop
  | .task (.accepted _) | .task .rearm | .task .start | .resume (.accept _) _ => False
  | _ => True

section Yield

variable {s : State} {rest : Multiset Work} {choice : Choice}
variable {entry : Entry Task Operation Completion} {frame : Frame} {call : Call}

theorem begin_yield_isLink (off : OffChain entry) : (s.begin choice rest entry).yield isLink = 0 := by
  cases entry with
  | task task =>
      cases task with
      | accepted | rearm | start => exact off.elim
      | user | listening => simp [State.begin, Segment.yield, isLink]
      | connected socket =>
          simp only [State.begin, State.raiseConnected]
          split <;> simp [Segment.yield, State.undefinedBehaviour, isLink]
      | socket socket task =>
          cases task with
          | receive =>
              simp only [State.begin, State.socketTask]
              split
              · simp [Segment.yield, isLink]
              · simp [State.afterRead_yield, ErrorType.readOutcome, isLink]
          | start | close | disconnected =>
              simp [State.begin, State.socketTask, Segment.yield, isLink]
      | release socket =>
          simp only [State.begin, State.raiseDisconnected]
          split <;> simp [Segment.yield, State.undefinedBehaviour, isLink]
      | stop =>
          have closes : s.stopAll.countP (fun task => isLink (.queued (.task task))) = 0 :=
            State.countP_stopAll fun _ _ => rfl
          simp only [State.begin, State.stopServer_yield, closes]
          simp [isLink]
      | stopClient id =>
          simp only [State.begin, State.stopSocket]
          split <;> simp [Segment.yield, isLink]
  | resume operation completion =>
      cases operation with
      | accept => exact off.elim
      | receive socket =>
          cases error : completion.error <;>
            simp [State.begin, State.afterRead_yield, ErrorType.readOutcome, isLink, error]
      | call socket call frame => simp [State.begin, Segment.yield, isLink]
      | await frame => simp [State.begin, Segment.yield, isLink]

theorem act_yield_isLink : (s.act frame call).yield isLink = 0 := by
  cases call with
  | start =>
      simp only [State.act, State.start]
      split <;> simp [Segment.yield, isLink]
  | call id call =>
      simp only [State.act, State.callSocket_yield]
      split
      · rfl
      · split <;> rfl
  | leave =>
      simp only [State.act]
      cases frame.handler with
      | disconnected socket id =>
          simp [State.returned, State.releaseSocket_yield, isLink]
      | data => simp [State.returned, Segment.yield, isLink]
      | task | listening | connected | stopped => simp [State.returned, Segment.yield]
  | stop | stopClient | runAsync | await | throw => simp [State.act, Segment.yield, isLink]

end Yield

/-! ### Who changes the acceptor -/

section Acceptor

variable {s : State}

/-- An acceptor that is open after a step was there before, in a running
server. -/
def KeepsAcceptor (s after : State) : Prop :=
  after.isListening = true →
    after.acceptor = s.acceptor ∧ (s.isRunning = true → after.isRunning = true)

theorem KeepsAcceptor.same {after : State} (acceptor : after.acceptor = s.acceptor)
    (running : after.isRunning = s.isRunning) : KeepsAcceptor s after :=
  fun _ => ⟨acceptor, fun before => running.trans before⟩

theorem keepsAcceptor (s : State) (rest : Multiset Work) (move : ServerMove)
    (opens : ∀ choice, move ≠ .begin choice (.task .start)) :
    KeepsAcceptor s (program.stateAfter s rest move) := by
  have change := stateStep s rest move
  generalize program.stateAfter s rest move = after at change ⊢
  cases change with
  | opened choice running acceptor => exact absurd rfl (opens choice)
  | stops choice running present =>
      intro listening
      obtain ⟨events, same⟩ := State.raiseOnClosed_state _
      rw [same] at listening
      simp [State.log, State.isListening] at listening
  | started frame idle => exact fun _ => ⟨rfl, fun _ => rfl⟩
  | freedLast handler idle =>
      obtain ⟨events, same⟩ := State.raiseOnClosed_state _
      rw [same]
      exact .same rfl rfl
  | _ => exact .same rfl rfl

end Acceptor

/-! ### The chain is kept -/

namespace ChainInvariant

variable {s : State} {rest : Multiset Work} {choice : Choice}
variable {entry : Entry Task Operation Completion} {frame : Frame} {call : Call}

theorem keep {after : State} {before items : Multiset Work} (chain : ChainInvariant s before)
    (keeps : KeepsAcceptor s after)
    (links : Item.count isLink items = Item.count isLink before)
    (stale : ∀ generation,
      Item.count (isStale generation) items ≤ Item.count (isStale generation) before) :
    ChainInvariant after items := by
  intro acceptor found opened
  obtain ⟨same, running⟩ := keeps (by simp [State.isListening, found, opened])
  obtain ⟨before, one, own⟩ := chain acceptor (same ▸ found) opened
  have left := stale acceptor.generation
  exact ⟨running before, links.trans one, by omega⟩

/-- Stale links are links, so that code that adds no link adds none of them. -/
theorem yield_isStale {segment : Stretch} (none : segment.yield isLink = 0) (generation : Nat) :
    segment.yield (isStale generation) = 0 := by
  have posts : segment.posts.countP (fun task => isStale generation (.queued (.task task))) ≤
      segment.posts.countP (fun task => isLink (.queued (.task task))) :=
    List.countP_mono_left fun task _ => isLink_of_isStale generation (.queued (.task task))
  have after : Item.count (isStale generation) segment.after.items ≤
      Item.count isLink segment.after.items :=
    Item.count_le_count (isLink_of_isStale generation)
  unfold Segment.yield at none ⊢
  omega

theorem perform {item : Work} {segment : Stretch} (chain : ChainInvariant s (item ::ₘ rest))
    (keeps : KeepsAcceptor s segment.state) (outside : isLink item = false)
    (none : segment.yield isLink = 0) :
    ChainInvariant segment.state (segment.outstanding rest) := by
  refine chain.keep keeps ?_ fun generation => ?_
  · simp [Segment.count_outstanding blind_isLink, none, outside]
  · simp [Segment.count_outstanding (blind_isStale generation), yield_isStale none]

theorem relink {item : Work} {segment : Stretch} (chain : ChainInvariant s (item ::ₘ rest))
    (link : isLink item = true) (keeps : KeepsAcceptor s segment.state)
    (next : ∀ acceptor, s.acceptor = some acceptor → acceptor.isOpen = true →
      s.isRunning = true → isStale acceptor.generation item = false →
        segment.yield isLink = 1 ∧ segment.yield (isStale acceptor.generation) = 0) :
    ChainInvariant segment.state (segment.outstanding rest) := by
  intro acceptor found opened
  obtain ⟨same, running⟩ := keeps (by simp [State.isListening, found, opened])
  obtain ⟨before, one, own⟩ := chain acceptor (same ▸ found) opened
  simp only [Item.count_cons, link, Bool.toNat_true] at one
  simp only [Item.count_cons, Nat.add_eq_zero_iff, Bool.toNat_eq_zero] at own
  obtain ⟨links, stale⟩ := next acceptor (same ▸ found) opened before own.2
  refine ⟨running before, ?_, ?_⟩
  · rw [Segment.count_outstanding blind_isLink]
    omega
  · rw [Segment.count_outstanding (blind_isStale _)]
    omega

theorem accepted {socket : SocketId}
    (chain : ChainInvariant s (.queued (.task (.accepted socket)) ::ₘ rest))
    (free : s.isRunning = true → s.isListening = true → s.getNewConnectionIndex.isSome = true) :
    ChainInvariant (s.onAccepted socket).state ((s.onAccepted socket).outstanding rest) := by
  have keeps := keepsAcceptor s rest (.begin {} (.task (.accepted socket))) (by simp)
  refine chain.relink rfl keeps fun acceptor found opened running _ => ?_
  have slot := free running (by simp [State.isListening, found, opened])
  obtain ⟨index, here⟩ := Option.isSome_iff_exists.mp slot
  simp [State.onAccepted, State.connect, running, here, Segment.yield, isLink, isStale]

theorem rearm (chain : ChainInvariant s (.queued (.task .rearm) ::ₘ rest)) :
    ChainInvariant (s.begin choice rest (.task .rearm)).state
      ((s.begin choice rest (.task .rearm)).outstanding rest) := by
  have keeps := keepsAcceptor s rest (.begin choice (.task .rearm)) (by simp)
  refine chain.relink rfl keeps fun acceptor found opened running _ => ?_
  simp [State.begin, State.doAccept, running, found, Segment.yield, isLink, isStale]

theorem afterAccept {generation : Nat} {completion : Completion}
    (chain : ChainInvariant s (.queued (.resume (.accept generation) completion) ::ₘ rest)) :
    ChainInvariant (s.afterAccept generation completion).state
      ((s.afterAccept generation completion).outstanding rest) := by
  have keeps := keepsAcceptor s rest (.begin {} (.resume (.accept generation) completion)) (by simp)
  refine chain.relink rfl keeps fun acceptor found opened running own => ?_
  obtain rfl : generation = acceptor.generation := by simpa [isStale] using own
  simp [State.afterAccept, found, opened, Segment.yield, isLink, isStale]

theorem startListening (chain : ChainInvariant s (.queued (.task .start) ::ₘ rest))
    (none : s.isRunning = true → choice.opens = true → Item.count isLink rest = 0) :
    ChainInvariant (s.startListening choice).state
      ((s.startListening choice).outstanding rest) := by
  cases running : s.isRunning with
  | false =>
      have idle : s.startListening choice = { state := s } := by
        simp [State.startListening, running]
      rw [idle]
      exact chain.perform (.same rfl rfl) rfl rfl
  | true =>
      cases opens : choice.opens with
      | false =>
          have failed : s.startListening choice = { state := s } := by
            simp [State.startListening, opens]
          rw [failed]
          exact chain.perform (.same rfl rfl) rfl rfl
      | true =>
          have alone := none running opens
          intro acceptor found opened
          have new : acceptor =
              { generation := s.nextGeneration, listening := choice.listens } := by
            simpa [State.startListening, running, opens, eq_comm] using found
          subst new
          have stale : Item.count (isStale s.nextGeneration) rest = 0 :=
            Nat.le_zero.mp (alone ▸ Item.count_le_count (isLink_of_isStale _))
          refine ⟨by simp [State.startListening, running, opens], ?_, ?_⟩
          · rw [Segment.count_outstanding blind_isLink, alone]
            simp [State.startListening, running, opens, Segment.yield, isLink]
          · rw [Segment.count_outstanding (blind_isStale _), stale]
            simp [State.startListening, running, opens, Segment.yield, isStale]

theorem begin (chain : ChainInvariant s (.queued entry ::ₘ rest))
    (kept : ChainKept s rest (.begin choice entry)) :
    ChainInvariant (s.begin choice rest entry).state
      ((s.begin choice rest entry).outstanding rest) := by
  have off : OffChain entry → isLink (.queued entry) = false →
      ChainInvariant (s.begin choice rest entry).state
        ((s.begin choice rest entry).outstanding rest) := by
    intro off outside
    have keeps := keepsAcceptor s rest (.begin choice entry) (by rintro _ ⟨⟩; exact off)
    exact chain.perform keeps outside (begin_yield_isLink off)
  cases entry with
  | task task =>
      cases task with
      | accepted socket => exact chain.accepted kept
      | rearm => exact chain.rearm
      | start => exact chain.startListening kept
      | user | listening | connected | socket | release | stop | stopClient =>
          exact off trivial rfl
  | resume operation completion =>
      cases operation with
      | accept generation => exact chain.afterAccept
      | receive | call | await => exact off trivial rfl

end ChainInvariant

namespace ChainInvariant

variable {s : State} {rest : Multiset Work} {choice : Choice}

theorem oneLink {items : Multiset Work} (chain : ChainInvariant s items) : OneLink s items := by
  intro _ listening
  obtain ⟨acceptor, found, opened⟩ : ∃ acceptor, s.acceptor = some acceptor ∧
      acceptor.isOpen = true := by simpa [State.isListening, Option.any_eq_true] using listening
  exact (chain acceptor found opened).2.1

/-- The branch that refuses a connection drops the chain. -/
theorem not_oneLink_of_refused {socket : SocketId}
    (chain : ChainInvariant s (.queued (.task (.accepted socket)) ::ₘ rest))
    (missed : ¬ ChainKept s rest (.begin choice (.task (.accepted socket)))) :
    ¬ OneLink (s.onAccepted socket).state ((s.onAccepted socket).outstanding rest) := by
  simp only [ChainKept, Classical.not_imp, Bool.not_eq_true, Option.isSome_eq_false_iff,
    Option.isNone_iff_eq_none] at missed
  obtain ⟨running, listening, full⟩ := missed
  have one := chain.oneLink running listening
  simp only [Item.count_cons, isLink, Bool.toNat_true] at one
  have refused : s.onAccepted socket =
      { state := s, posts := (s.sockets socket).stop.map (.socket socket) } := by
    simp [State.onAccepted, running, full]
  intro linked
  have still := linked (by rw [refused]; exact running) (by rw [refused]; exact listening)
  rw [Segment.count_outstanding blind_isLink, refused] at still
  simp [Segment.yield, isLink] at still
  omega

/-- A second acceptor begins a second chain. -/
theorem not_oneLink_of_restart
    (missed : ¬ ChainKept s rest (.begin choice (.task .start))) :
    ¬ OneLink (s.startListening choice).state ((s.startListening choice).outstanding rest) := by
  simp only [ChainKept, Classical.not_imp] at missed
  obtain ⟨running, opens, links⟩ := missed
  intro linked
  have still := linked (by simp [State.startListening, running, opens])
    (by simp [State.startListening, State.isListening, running, opens])
  rw [Segment.count_outstanding blind_isLink] at still
  simp [State.startListening, running, opens, Segment.yield, isLink] at still
  omega

end ChainInvariant

theorem preserves_chainInvariant : program.Preserves ChainInvariant ChainKept := by
  intro s rest move chain allowed kept
  cases move with
  | post task =>
      obtain rfl : task = .user := allowed
      rw [Move.consumed, zero_add] at chain
      exact chain.keep (.same rfl rfl) (by simp [Program.itemsAfter, isLink])
        fun generation => by simp [Program.itemsAfter, isStale]
  | complete operation completion =>
      exact chain.keep (.same rfl rfl)
        (by cases operation <;> simp [Move.consumed, Program.itemsAfter, isLink, Nat.add_comm])
        fun generation => by
          cases operation <;> simp [Move.consumed, Program.itemsAfter, isStale, Nat.add_comm]
  | deliver operation completion =>
      exact chain.keep (.same rfl rfl)
        (by cases operation <;> simp [Move.consumed, Program.itemsAfter, isLink, Nat.add_comm])
        fun generation => by
          cases operation <;> simp [Move.consumed, Program.itemsAfter, isStale, Nat.add_comm]
  | begin choice entry => exact ChainInvariant.begin chain kept
  | act frame call =>
      have keeps := keepsAcceptor s rest (.act frame call) (by simp)
      exact ChainInvariant.perform chain keeps rfl act_yield_isLink

/-- A running server with an open acceptor has exactly one link of the accept
chain in every state of a run exactly if `OnAccepted` finds a free slot
whenever the server listens, and no lambda in `Start` opens an acceptor while a
link of an earlier chain is left. -/
theorem one_link_iff {maxConnections : Nat} {actions : List ServerAction}
    (legal : program.system.Legal (initial maxConnections) actions) :
    program.system.EveryState (fun s => OneLink s.state s.items) (initial maxConnections)
        actions ↔
      program.system.EveryStep (Strand.During ChainKept) (initial maxConnections) actions := by
  refine Strand.everyState_iff_moves (fun s items chain => chain.oneLink)
    preserves_chainInvariant (fun s rest move chain _ missed => ?_) ?_ legal
  · cases move with
    | post | complete | deliver | act => exact absurd trivial missed
    | begin choice entry =>
        cases entry with
        | resume => exact absurd trivial missed
        | task task =>
            cases task with
            | accepted socket => exact chain.not_oneLink_of_refused missed
            | start => exact ChainInvariant.not_oneLink_of_restart missed
            | user | listening | connected | socket | release | rearm | stop | stopClient =>
                exact absurd trivial missed
  · intro acceptor found
    simp [initial] at found

/-- A server accepts a client and waits for the next one. -/
def acceptedConnection : List ServerAction :=
  [.post .user, .begin {}, .act .start, .flush, .act .leave, .begin {}, .flush,
    .complete 0 { error := .success }, .deliver 0, .begin {}, .act .leave, .begin {}, .flush,
    .begin {}, .flush, .flush, .flush, .begin {}, .act .leave, .begin {}, .begin {}]

theorem one_link_acceptedConnection :
    program.system.EveryState (fun s => OneLink s.state s.items) (initial 1)
      acceptedConnection :=
  (one_link_iff (by decide)).mpr (by decide)

/-- A server for one client, which refuses the second. -/
def refusedConnection : List ServerAction :=
  acceptedConnection ++
    [.complete 1 { error := .success }, .deliver 1, .begin {}, .flush, .begin {}]

/-- After `refusedConnection` the server is running and its acceptor is open,
but nobody accepts. -/
theorem no_link_refusedConnection :
    program.system.Legal (initial 1) refusedConnection ∧
      ¬ program.system.EveryState (fun s => OneLink s.state s.items) (initial 1)
        refusedConnection := by
  refine ⟨by decide, fun linked => ?_⟩
  exact absurd linked.last (by decide)

end TcpServer

end FlatAsync
