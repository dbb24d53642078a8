import FlatAsync.OtherTasks
import FlatAsync.Strand

/-!
# Programs on runners

A `Program` speaks of tasks that a strand runs one at a time.  In the library a task is
a runner, the strand is the scheduler it posts its closures to, and any number of
threads execute closures of this and of other schedulers.  This file puts a program on
runners: each stretch of its code is executed in the body of a runner, its tasks are
created by `RunAsync`, and an operation is one that the defer handler of a suspended
runner starts and whose completion calls its proceed handler.
-/

namespace FlatAsync

/-- The steps of a program on runners.  `post` is a `RunAsync` from outside and `launch`
one of the running code; `runner` is a step of the runners that the program does not
see. -/
inductive HostAction (Task Result Choice Call : Type*)
  | post (created : RunnerId) (task : Task)
  | launch (created : RunnerId)
  | begin (thread : ThreadId) (runner : RunnerId) (kind : ClosureKind) (choice : Choice)
  | act (call : Call)
  | complete (index : Nat) (result : Result)
  | deliver (index : Nat)
  | runner (action : Action)
  deriving DecidableEq, Repr

/-- The runners that execute a program, and all others.  `entry` says for a runner of
the program what its closure is to do; `taken` is the runner whose closure a thread has
taken up and not yet begun, and `body` the one whose code runs, with the way in which
its stretch of code ends. -/
structure Host (State Task Operation Result Frame : Type*) where
  state : State
  system : System := {}
  entry : RunnerId → Option (Entry Task Operation Result) := fun _ => none
  outbox : List Task := []
  waiting : List (RunnerId × Operation × Option Result) := []
  taken : Option RunnerId := none
  body : Option (RunnerId × After Operation Frame) := none

variable {State Task Operation Result Frame Choice Call : Type*}

namespace Host

variable (s : Host State Task Operation Result Frame)

def isMember (r : RunnerId) : Bool :=
  (s.entry r).isSome

/-- What the posted closures of the program are to do, in their order. -/
def posted : List (Entry Task Operation Result) :=
  s.system.posted.filterMap fun closure => s.entry closure.runner

/-- The strand that the program believes to be on. -/
def strand : Strand State Task Operation Result Frame where
  state := s.state
  queue := s.taken.toList.filterMap s.entry ++ s.posted
  outbox := s.outbox
  waiting := s.waiting.map Prod.snd
  current := s.body.bind fun body => body.2.running

/-- A stretch of code has run in the body of `r`. -/
def perform (r : RunnerId) (segment : Segment State Task Operation Result Frame) :
    Host State Task Operation Result Frame :=
  { s with
    state := segment.state
    outbox := s.outbox ++ segment.posts
    waiting :=
      s.waiting.map (fun operation => (operation.1, Strand.settle segment.settles operation.2)) ++
        match segment.after with
        | .suspend operation => [(r, operation, none)]
        | .finish | .run _ => []
    body := some (r, segment.after) }

def takes (action : Action) : Option RunnerId :=
  match action with
  | .dispatch _ closure => if s.isMember closure.runner then some closure.runner else s.taken
  | _ => s.taken

/-- The runner whose code runs, unless it leaves its body. -/
def leaves (action : Action) : Option (RunnerId × After Operation Frame) :=
  match action with
  | .defer _ r | .finish _ r => if s.body.map Prod.fst = some r then none else s.body
  | _ => s.body

/-- The code in the body of `r` has to wait. -/
def waitsIn (r : RunnerId) : Bool :=
  match s.body with
  | some (q, .suspend _) => q = r
  | _ => false

/-- The code in the body of `r` is over. -/
def endsIn (r : RunnerId) : Bool :=
  match s.body with
  | some (q, .finish) => q = r
  | _ => false

/-- The steps of the runners that the program does not see.  A runner of the program
yields when its code has to wait, and ends when its code is over; it does nothing else
that is not in the program. -/
def Unseen (action : Action) : Prop :=
  match action with
  | .dispatch .. | .onExit .. => True
  | .defer _ r => s.isMember r = true → s.outbox.isEmpty = true ∧ s.waitsIn r = true
  | .finish _ r => s.isMember r = true → s.outbox.isEmpty = true ∧ s.endsIn r = true
  | other => ∀ r, other.subject = some r → s.isMember r = false

instance (action : Action) : Decidable (s.Unseen action) :=
  have others : Decidable (∀ r, action.subject = some r → s.isMember r = false) :=
    match subject : action.subject with
    | none => isTrue nofun
    | some r => decidable_of_iff (s.isMember r = false) (by simp)
  match action with
  | .dispatch .. | .onExit .. => inferInstanceAs (Decidable True)
  | .defer .. | .finish .. => inferInstanceAs (Decidable (_ → _ ∧ _))
  | .runAsync .. | .runAsyncHere .. | .currentScheduler _ | .enter .. | .handleEvents ..
  | .disableEvents .. | .enableEvents .. | .switchTo .. | .enterGuard .. | .enterAccess ..
  | .leaveScope .. | .raise .. | .catchException .. | .callProceed .. | .returnHandler ..
  | .detach _ | .proceed _ | .setStatus .. | .reset _ => others

theorem waitsIn_eq_true {s : Host State Task Operation Result Frame} {r : RunnerId} :
    s.waitsIn r = true ↔ ∃ operation, s.body = some (r, .suspend operation) := by
  unfold waitsIn
  split
  next q operation runs => simp [runs, eq_comm]
  next other =>
    simp only [Bool.false_eq_true, false_iff, not_exists]
    exact fun operation runs => other r operation runs

theorem endsIn_eq_true {s : Host State Task Operation Result Frame} {r : RunnerId} :
    s.endsIn r = true ↔ s.body = some (r, .finish) := by
  unfold endsIn
  split
  next q runs => simp [runs, eq_comm]
  next other =>
    simp only [Bool.false_eq_true, false_iff]
    exact fun runs => other r runs

def runnerAction (home : SchedulerId) : HostAction Task Result Choice Call → Option Action
  | .post created _ | .launch created => some (.runAsync created home)
  | .begin t r kind _ => some (.enter t r kind)
  | .deliver index => (s.waiting[index]?).map fun operation => .proceed operation.1
  | .runner action => some action
  | .act _ | .complete .. => none

end Host

namespace Program

variable (program : Program State Task Operation Result Frame Choice Call)

/-- Where the code of a program allows each step.  An operation may complete as soon as the
code has to wait for it, although the defer handler that starts it runs later, after `OnExit`:
the result is seen by nobody before its delivery, which calls the proceed handler and
so has to wait until the defer handler has got it. -/
def HostGuard (s : Host State Task Operation Result Frame) :
    HostAction Task Result Choice Call → Prop
  | .post _ task => program.defined s.state ∧ program.mayPost task
  | .launch _ => program.defined s.state ∧ s.outbox.isEmpty = false
  | .begin _ r _ _ => program.defined s.state ∧ s.isMember r = true
  | .act _ => program.defined s.state ∧ s.outbox.isEmpty = true ∧
      (s.body.bind fun body => body.2.running).isSome = true
  | .complete index result => program.defined s.state ∧
      match s.waiting[index]? with
      | some (_, operation, none) => program.mayComplete s.state operation result
      | _ => False
  | .deliver index => program.defined s.state ∧
      ((s.waiting[index]?).bind fun operation => operation.2.2).isSome = true
  | .runner action => s.Unseen action

instance [DecidablePred program.defined] [DecidablePred program.mayPost]
    [∀ state operation result, Decidable (program.mayComplete state operation result)]
    (s : Host State Task Operation Result Frame) :
    ∀ action, Decidable (program.HostGuard s action)
  | .post .. | .launch _ | .begin .. | .deliver _ => inferInstanceAs (Decidable (_ ∧ _))
  | .act _ => inferInstanceAs (Decidable (_ ∧ _ ∧ _))
  | .complete index result =>
      have : Decidable (match s.waiting[index]? with
          | some (_, operation, none) => program.mayComplete s.state operation result
          | _ => False) :=
        match s.waiting[index]? with
        | some (_, operation, none) =>
            inferInstanceAs (Decidable (program.mayComplete s.state operation result))
        | some (_, _, some _) => inferInstanceAs (Decidable False)
        | none => inferInstanceAs (Decidable False)
      inferInstanceAs (Decidable (_ ∧ _))
  | .runner action => inferInstanceAs (Decidable (s.Unseen action))

structure HostEnabled (home : SchedulerId) (s : Host State Task Operation Result Frame)
    (action : HostAction Task Result Choice Call) : Prop where
  guard : program.HostGuard s action
  system : ∀ step, s.runnerAction home action = some step → s.system.Enabled step

instance [DecidablePred program.defined] [DecidablePred program.mayPost]
    [∀ state operation result, Decidable (program.mayComplete state operation result)]
    (home : SchedulerId) (s : Host State Task Operation Result Frame)
    (action : HostAction Task Result Choice Call) :
    Decidable (program.HostEnabled home s action) :=
  have : Decidable (∀ step, s.runnerAction home action = some step → s.system.Enabled step) :=
    match s.runnerAction home action with
    | none => isTrue nofun
    | some step => decidable_of_iff (s.system.Enabled step) (by simp)
  decidable_of_iff
    (program.HostGuard s action ∧
      ∀ step, s.runnerAction home action = some step → s.system.Enabled step)
    ⟨fun both => ⟨both.1, both.2⟩, fun enabled => ⟨enabled.guard, enabled.system⟩⟩

def hostStep (home : SchedulerId) (s : Host State Task Operation Result Frame) :
    HostAction Task Result Choice Call → Host State Task Operation Result Frame
  | .post created task =>
      { s with
        system := s.system.step (.runAsync created home)
        entry := Function.update s.entry created (some (.task task)) }
  | .launch created =>
      match s.outbox with
      | [] => s
      | task :: tasks =>
          { s with
            system := s.system.step (.runAsync created home)
            entry := Function.update s.entry created (some (.task task))
            outbox := tasks }
  | .begin t r kind choice =>
      match s.entry r with
      | some entry =>
          let others := { s with taken := none }
          { others with system := s.system.step (.enter t r kind) }.perform r
            (program.begin choice s.state others.strand.items entry)
      | none => s
  | .act call =>
      match s.body with
      | some (r, .run frame) => s.perform r (program.act s.state frame call)
      | _ => s
  | .complete index result =>
      match s.waiting[index]? with
      | some (r, operation, _) =>
          { s with
            state := program.completed s.state operation result
            waiting := s.waiting.set index (r, operation, some result) }
      | none => s
  | .deliver index =>
      match s.waiting[index]? with
      | some (r, operation, some result) =>
          { s with
            system := s.system.step (.proceed r)
            entry := Function.update s.entry r (some (.resume operation result))
            waiting := s.waiting.eraseIdx index }
      | _ => s
  | .runner action =>
      { s with
        system := s.system.step action
        taken := s.takes action
        body := s.leaves action }

theorem hostStep_system (s : Host State Task Operation Result Frame) (home : SchedulerId)
    (action : HostAction Task Result Choice Call) :
    (∃ step, s.runnerAction home action = some step ∧
        (program.hostStep home s action).system = s.system.step step) ∨
      (program.hostStep home s action).system = s.system := by
  cases action with
  | post | runner => exact .inl ⟨_, rfl, rfl⟩
  | launch created =>
      simp only [hostStep]
      split
      · exact .inr rfl
      · exact .inl ⟨_, rfl, rfl⟩
  | begin t r kind choice =>
      simp only [hostStep]
      split
      · exact .inl ⟨_, rfl, rfl⟩
      · exact .inr rfl
  | act call =>
      simp only [hostStep]
      split <;> exact .inr rfl
  | complete index result =>
      simp only [hostStep]
      split <;> exact .inr rfl
  | deliver index =>
      simp only [hostStep]
      split
      next r operation result waits =>
        exact .inl ⟨.proceed r, by simp [Host.runnerAction, waits], rfl⟩
      · exact .inr rfl

/-- A program whose tasks run on the strand `home`, beside any other tasks. -/
def hostSystem (home : SchedulerId) : ActionSystem (Host State Task Operation Result Frame)
    (HostAction Task Result Choice Call) where
  enabled := program.HostEnabled home
  next := program.hostStep home

instance [DecidablePred program.defined] [DecidablePred program.mayPost]
    [∀ state operation result, Decidable (program.mayComplete state operation result)]
    (home : SchedulerId) (s : Host State Task Operation Result Frame)
    (action : HostAction Task Result Choice Call) :
    Decidable ((program.hostSystem home).enabled s action) :=
  inferInstanceAs (Decidable (program.HostEnabled home s action))

end Program

/-- What asio promises about a strand: its closures are taken up in the order in which
they were posted, each when no other one is being executed. -/
def PostingOrder (home : SchedulerId) (s : System) : Action → Prop
  | .dispatch _ closure => closure.scheduler = home →
      s.posted.find? (fun other => other.scheduler == home) = some closure
  | _ => True

/-- How the runners are used: proceed handlers are called at most once for each
suspension, and `home` is a strand. -/
structure HostContract (home : SchedulerId) (s : Host State Task Operation Result Frame)
    (action : HostAction Task Result Choice Call) : Prop where
  proceeds : ∀ step, s.runnerAction home action = some step → ProceedContract s.system step
  exclusive : ∀ step, s.runnerAction home action = some step →
    StrandContract (fun scheduler => scheduler == home) s.system step
  ordered : ∀ step, s.runnerAction home action = some step → PostingOrder home s.system step

/-- The contract binds only steps that take up a closure or call a proceed handler. -/
def Action.isBound : Action → Bool
  | .dispatch .. | .proceed _ => true
  | _ => false

theorem HostContract.quiet {home : SchedulerId} {s : Host State Task Operation Result Frame}
    {action : HostAction Task Result Choice Call}
    (free : (s.runnerAction home action).all (fun step => !step.isBound) = true) :
    HostContract home s action := by
  have free {step : Action} (made : s.runnerAction home action = some step) :
      step.isBound = false := by
    simpa [made] using free
  constructor
  all_goals
    intro step made
    cases step with
    | dispatch | proceed => cases free made
    | _ => trivial

theorem HostContract.dispatch {home : SchedulerId} {s : Host State Task Operation Result Frame}
    {t : ThreadId} {closure : Closure}
    (exclusive : closure.scheduler = home → ∀ u, (s.system.threads u).pc ≠ .idle →
      (s.system.threads u).dispatchedBy ≠ closure.scheduler)
    (ordered : PostingOrder home s.system (.dispatch t closure)) :
    HostContract home s (.runner (.dispatch t closure) : HostAction Task Result Choice Call) where
  proceeds step made := by
    obtain rfl := Option.some.inj made
    trivial
  exclusive step made := by
    obtain rfl := Option.some.inj made
    exact fun strand => exclusive (by simpa using strand)
  ordered step made := by
    obtain rfl := Option.some.inj made
    exact ordered

/-- What the contract asks of a step of the runners while the threads from `bound` on do
nothing. -/
def PromisedBelow (bound : ThreadId) (home : SchedulerId) (s : System) : Action → Prop
  | .dispatch t closure => t < bound ∧ (closure.scheduler = home →
      (∀ u < bound, (s.threads u).pc ≠ .idle → (s.threads u).dispatchedBy ≠ home) ∧
        s.posted.find? (fun other => other.scheduler == home) = some closure)
  | .proceed r => (s.runners r).answer = .holders
  | _ => True

instance (bound : ThreadId) (home : SchedulerId) (s : System) :
    DecidablePred (PromisedBelow bound home s)
  | .dispatch .. => inferInstanceAs (Decidable (_ ∧ (_ → _ ∧ _)))
  | .proceed _ => inferInstanceAs (Decidable (_ = _))
  | .runAsync .. | .runAsyncHere .. | .currentScheduler _ | .enter .. | .handleEvents ..
  | .disableEvents .. | .enableEvents .. | .defer .. | .switchTo .. | .enterGuard ..
  | .enterAccess .. | .leaveScope .. | .raise .. | .catchException .. | .finish .. | .onExit ..
  | .callProceed .. | .returnHandler .. | .detach _ | .setStatus .. | .reset _ =>
      inferInstanceAs (Decidable True)

/-- The contract for a run on the threads below `bound`, which can be evaluated. -/
def HostContractBelow (bound : ThreadId) (home : SchedulerId)
    (s : Host State Task Operation Result Frame) (action : HostAction Task Result Choice Call) :
    Prop :=
  (s.runnerAction home action).all (fun step => PromisedBelow bound home s.system step) = true

instance (bound : ThreadId) (home : SchedulerId) (s : Host State Task Operation Result Frame)
    (action : HostAction Task Result Choice Call) :
    Decidable (HostContractBelow bound home s action) :=
  inferInstanceAs (Decidable (_ = _))

namespace HostContractBelow

variable {program : Program State Task Operation Result Frame Choice Call}
variable {bound : ThreadId} {home : SchedulerId} {s : Host State Task Operation Result Frame}
variable {action : HostAction Task Result Choice Call}

theorem promised (below : HostContractBelow bound home s action) {step : Action}
    (made : s.runnerAction home action = some step) : PromisedBelow bound home s.system step := by
  simpa [HostContractBelow, made] using below

theorem contract (below : HostContractBelow bound home s action)
    (rests : ∀ t, bound ≤ t → (s.system.threads t).pc = .idle) : HostContract home s action where
  proceeds step made := by
    have promised := below.promised made
    cases step with
    | proceed r => exact promised
    | _ => trivial
  exclusive step made := by
    have promised := below.promised made
    cases step with
    | dispatch t closure =>
        intro own u works
        have here : closure.scheduler = home := by simpa using own
        have used : u < bound := Nat.lt_of_not_le fun above => works (rests u above)
        rw [here]
        exact (promised.2 here).1 u used works
    | _ => trivial
  ordered step made := by
    have promised := below.promised made
    cases step with
    | dispatch t closure => exact fun here => (promised.2 here).2
    | _ => trivial

theorem rests (below : HostContractBelow bound home s action)
    (enabled : program.HostEnabled home s action)
    (rests : ∀ t, bound ≤ t → (s.system.threads t).pc = .idle) :
    ∀ t, bound ≤ t → ((program.hostStep home s action).system.threads t).pc = .idle := by
  intro t above
  rcases program.hostStep_system s home action with ⟨step, made, same⟩ | same
  · rw [same]
    refine System.idle_step (enabled.system step made).2 (rests t above) fun closure takes => ?_
    subst takes
    exact Nat.not_lt_of_le above (below.promised made).1
  · rw [same]
    exact rests t above

end HostContractBelow

/-- A run on a number of threads keeps the contract if each step does so as far as these
threads are concerned. -/
theorem hostContract_of_below {program : Program State Task Operation Result Frame Choice Call}
    {home : SchedulerId} {state : State} {actions : List (HostAction Task Result Choice Call)}
    (bound : ThreadId) (legal : (program.hostSystem home).Legal { state := state } actions)
    (below : (program.hostSystem home).EveryStep (HostContractBelow bound home) { state := state }
      actions) :
    (program.hostSystem home).EveryStep (HostContract home) { state := state } actions :=
  ActionSystem.everyStep_of_invariant
    (fun _ _ rests enabled below => below.rests enabled rests)
    (fun _ _ rests _ below => below.contract rests) (fun _ _ => rfl) legal below

namespace Host

def calls (_ : Host State Task Operation Result Frame) :
    HostAction Task Result Choice Call → List (StrandAction Task Result Choice Call)
  | .post _ task => [.post task]
  | .launch _ => [.flush]
  | .begin _ _ _ choice => [.begin choice]
  | .act call => [.act call]
  | .complete index result => [.complete index result]
  | .deliver index => [.deliver index]
  | .runner _ => []

end Host

/-! ### The tasks of the program -/

/-- A task that stays on its strand, holds no scope object and is never cancelled. -/
structure AsyncRunner.Plain (home : SchedulerId) (runner : AsyncRunner) : Prop where
  born : runner.stage ≠ .unborn
  scheduler : runner.scheduler = home
  opState : runner.opState = .normal
  scopes : runner.scopes = []
  unwinding : runner.unwinding = 0
  site : ∀ site, runner.coroHelper = .suspended site → site = .defer
  handler : runner.deferHandler ≠ some .proceedHandler

/-- The tasks that `members` picks are on the strand `home`. -/
structure Tended (home : SchedulerId) (members : RunnerId → Bool) (s : System) : Prop where
  life : LifeInvariant s
  single : OneAtATime (fun scheduler => scheduler == home) s
  plain : ∀ r, members r = true → (s.runners r).Plain home
  closures : ∀ closure ∈ s.posted, members closure.runner = true → closure.scheduler = home
  works : ∀ t r, members r = true → (s.threads t).WorksFor r → (s.threads t).dispatchedBy = home

namespace Tended

variable {home : SchedulerId} {members : RunnerId → Bool} {s after : System}
variable {t : ThreadId} {r : RunnerId}

theorem unique (tended : Tended home members s) {other : ThreadId} {q : RunnerId}
    (member : members r = true) (works : (s.threads t).WorksFor r) (also : members q = true)
    (alsoWorks : (s.threads other).WorksFor q) : other = t := by
  have busy {u : ThreadId} {p : RunnerId} (works : (s.threads u).WorksFor p) :
      (s.threads u).pc ≠ .idle := by
    rcases works with body | ⟨kind, entered⟩ <;> simp [*]
  have here := tended.works t r member works
  have there := tended.works other q also alsoWorks
  exact tended.single other t (busy alsoWorks) (busy works) (there.trans here.symm) (by simp [there])

theorem spare (tended : Tended home members s) (spares : System.Spares members s after)
    (life : LifeInvariant after) (single : OneAtATime (fun scheduler => scheduler == home) after) :
    Tended home members after where
  life := life
  single := single
  plain r member := by
    rw [spares.runners r member]
    exact tended.plain r member
  closures closure waiting member := by
    have kept : closure ∈ after.posted.filter fun closure => members closure.runner :=
      List.mem_filter.mpr ⟨waiting, member⟩
    rw [spares.posted] at kept
    exact tended.closures closure (List.mem_filter.mp kept).1 member
  works t r member works := by
    obtain ⟨pc, from_⟩ := spares.threads t r member (.inr works)
    rw [from_]
    refine tended.works t r member ?_
    simpa [Thread.WorksFor, pc] using works

theorem update (tended : Tended home members s) (acts : System.ActsOn t r s after)
    (life : LifeInvariant after) (single : OneAtATime (fun scheduler => scheduler == home) after)
    (plain : (after.runners r).Plain home)
    (closures : ∀ closure ∈ after.posted, closure ∈ s.posted ∨ closure.scheduler = home)
    (works : ∀ q, members q = true → (after.threads t).WorksFor q →
      (after.threads t).dispatchedBy = home) : Tended home members after where
  life := life
  single := single
  plain q member := by
    by_cases own : q = r
    · rw [own]
      exact plain
    · rw [acts.runners q own]
      exact tended.plain q member
  closures closure waiting member :=
    (closures closure waiting).elim (fun old => tended.closures closure old member) id
  works u q member works' := by
    by_cases own : u = t
    · subst own
      exact works q member works'
    · rw [acts.threads u own] at works' ⊢
      exact tended.works u q member works'

theorem create {others : RunnerId → Bool} (tended : Tended home members s)
    (fresh : (s.runners r).stage = .unborn) (same : ∀ q, q ≠ r → others q = members q)
    (life : LifeInvariant (s.create r home))
    (single : OneAtATime (fun scheduler => scheduler == home) (s.create r home)) :
    Tended home others (s.create r home) where
  life := life
  single := single
  plain q member := by
    by_cases own : q = r
    · rw [own]
      simp only [System.create, System.schedule, System.setRunner_runners, Function.update_self]
      exact ⟨by simp, rfl, rfl, rfl, rfl, by simp, by simp⟩
    · rw [(System.create_actsOn s 0 home).runners q own]
      exact tended.plain q (by rwa [← same q own])
  closures closure waiting member := by
    rcases List.mem_append.mp waiting with old | new
    · have other := (tended.life.phases.unreferenced_of_unborn fresh).1 closure old
      exact tended.closures closure old (by rwa [← same _ other])
    · obtain rfl : closure = ⟨.start, r, home⟩ := by simpa using new
      rfl
  works t q member works := by
    have other : q ≠ r := by
      rintro rfl
      have held := Thread.WorksFor.role works
      simp [System.create, System.schedule,
        (tended.life.phases.unreferenced_of_unborn fresh).2 t] at held
    exact tended.works t q (by rwa [← same q other]) works

end Tended

namespace AsyncRunner.Plain

variable {home : SchedulerId} {s : System} {t : ThreadId} {r : RunnerId}

theorem handleEvents (plain : (s.runners r).Plain home) : s.handleEvents t r = none := by
  simp [System.handleEvents, plain.opState]

theorem defer (plain : (s.runners r).Plain home) :
    s.step (.defer t r) = s.yield t r .defer .callable := by
  simp [System.step, System.defer, plain.handleEvents]

/-- A task that is not cancelled goes on after its `Defer`. -/
theorem resume (plain : (s.runners r).Plain home) {site : CallSite}
    (suspended : (s.runners r).coroHelper = .suspended site) :
    s.step (.enter t r .proceed) = s.wake t r := by
  obtain rfl := plain.site site suspended
  have calm : (s.wake t r).handleEvents t r = none := by
    simp [System.handleEvents, System.wake, plain.opState]
  simp [System.step, System.resume, suspended, System.afterYield, calm, System.returnFrom]

end AsyncRunner.Plain

namespace Tended

variable {home : SchedulerId} {members : RunnerId → Bool} {s : System} {t : ThreadId} {r : RunnerId}

theorem advance (tended : Tended home members s) {action : Action} (enabled : s.Enabled action)
    (proceeds : ProceedContract s action)
    (exclusive : StrandContract (fun scheduler => scheduler == home) s action) :
    LifeInvariant (s.step action) ∧
      OneAtATime (fun scheduler => scheduler == home) (s.step action) :=
  ⟨tended.life.step enabled proceeds,
    OneAtATime.rules.step tended.single enabled proceeds (fun _ _ => trivial) exclusive⟩

theorem move (tended : Tended home members s) {runner : AsyncRunner} {pc : Pc}
    (plain : runner.Plain home)
    (works : ∀ q, members q = true → Thread.WorksFor { s.threads t with pc := pc } q →
      (s.threads t).dispatchedBy = home)
    (life : LifeInvariant ((s.setRunner r runner).moveTo t pc))
    (single : OneAtATime (fun scheduler => scheduler == home)
      ((s.setRunner r runner).moveTo t pc)) :
    Tended home members ((s.setRunner r runner).moveTo t pc) := by
  refine tended.update (t := t) (r := r)
    ((System.ActsOn.setRunner s runner).trans (System.ActsOn.moveTo _ pc)) life single ?_ ?_ ?_
  · simpa using plain
  · exact fun closure waiting => .inl waiting
  · simpa using works

theorem enter (tended : Tended home members s) (member : members r = true) {kind : ClosureKind}
    (enabled : s.Enabled (.enter t r kind)) :
    Tended home members (s.step (.enter t r kind)) ∧
      ((s.step (.enter t r kind)).threads t).pc = .body r := by
  have entered : (s.threads t).pc = .entered r kind := enabled.2
  have plain := tended.plain r member
  have here : (s.threads t).dispatchedBy = home :=
    tended.works t r member (.inr ⟨kind, entered⟩)
  obtain ⟨life, single⟩ := tended.advance enabled trivial trivial
  cases kind with
  | start =>
      refine ⟨tended.move ?_ (fun _ _ _ => here) life single, by simp [System.step, System.start]⟩
      exact { plain with site := by simp }
  | proceed =>
      obtain ⟨site, suspended⟩ := tended.life.phases.suspended_of_entered entered
      rw [plain.resume suspended] at life single ⊢
      refine ⟨tended.move ?_ (fun _ _ _ => here) life single, by simp [System.wake]⟩
      exact { plain with site := by simp }

private theorem not_works_exiting {thread : Thread} {q other : RunnerId} :
    ¬ Thread.WorksFor { thread with pc := .exiting q } other := by
  simp [Thread.WorksFor]

theorem defer (tended : Tended home members s) (member : members r = true)
    (enabled : s.Enabled (.defer t r)) :
    Tended home members (s.step (.defer t r)) ∧
      ((s.step (.defer t r)).threads t).pc = .exiting r := by
  have plain := tended.plain r member
  obtain ⟨life, single⟩ := tended.advance enabled trivial trivial
  rw [plain.defer] at life single ⊢
  refine ⟨tended.move ?_ (fun _ _ works => absurd works not_works_exiting) life single,
    by simp [System.yield]⟩
  exact { plain with site := fun site same => (CoroHelper.suspended.inj same).symm, handler := by simp }

theorem finish (tended : Tended home members s) (member : members r = true)
    (enabled : s.Enabled (.finish t r)) :
    Tended home members (s.step (.finish t r)) ∧
      ((s.step (.finish t r)).threads t).pc = .exiting r := by
  have plain := tended.plain r member
  obtain ⟨life, single⟩ := tended.advance enabled trivial trivial
  refine ⟨tended.move ?_ (fun _ _ works => absurd works not_works_exiting) life single,
    by simp [System.step, System.finish]⟩
  exact { plain with site := by simp }

theorem onExit (tended : Tended home members s) (member : members r = true)
    (enabled : s.Enabled (.onExit t r)) : Tended home members (s.step (.onExit t r)) := by
  have plain := tended.plain r member
  obtain ⟨life, single⟩ := tended.advance enabled trivial trivial
  cases stored : (s.runners r).deferHandler with
  | some handler =>
      have takes : s.step (.onExit t r) = s.takeHandler t r handler := by
        simp [System.step, System.onExit, stored]
      rw [takes] at life single ⊢
      refine tended.move ?_ (fun _ _ works => ?_) life single
      · exact { plain with handler := by simp }
      · simp [Thread.WorksFor] at works
  | none =>
      have deletes : s.step (.onExit t r) = s.delete t r := by
        simp [System.step, System.onExit, stored]
      rw [deletes] at life single ⊢
      refine tended.move ?_ (fun _ _ works => ?_) life single
      · exact { plain with born := by simp }
      · simp [Thread.WorksFor] at works

theorem proceed (tended : Tended home members s) (member : members r = true)
    (enabled : s.Enabled (.proceed r)) (holds : (s.runners r).answer = .holders) :
    Tended home members (s.step (.proceed r)) := by
  have plain := tended.plain r member
  obtain ⟨life, single⟩ := tended.advance enabled holds trivial
  refine tended.update (t := 0) (r := r) (System.proceed_actsOn s 0) life single ?_ ?_ ?_
  · simp only [System.step, System.proceed, System.schedule, System.setRunner_runners,
      Function.update_self]
    exact { plain with }
  · intro closure waiting
    rw [System.step_posted] at waiting
    rcases List.mem_append.mp waiting with old | new
    · exact .inl old
    · obtain rfl : closure = ⟨.proceed, r, (s.runners r).scheduler⟩ := by simpa using new
      exact .inr plain.scheduler
  · exact fun q other works => tended.works 0 q other works

theorem dispatch (tended : Tended home members s) {closure : Closure}
    (member : members closure.runner = true) (enabled : s.Enabled (.dispatch t closure))
    (exclusive : StrandContract (fun scheduler => scheduler == home) s (.dispatch t closure)) :
    Tended home members (s.step (.dispatch t closure)) := by
  have here : closure.scheduler = home := tended.closures closure enabled.2.2 member
  obtain ⟨life, single⟩ := tended.advance enabled trivial exclusive
  refine tended.update (t := t) (r := closure.runner) ?_ life single ?_ ?_ ?_
  · exact s.step_actsOn (by simp [Action.thread]) (by simp [Action.runner])
  · exact tended.plain closure.runner member
  · intro other waiting
    rw [System.step_posted] at waiting
    exact .inl (List.mem_of_mem_erase waiting)
  · simp [System.step, System.onEnter, here]

/-- Nobody works for the tasks when a closure of the strand is taken up. -/
theorem idle_of_dispatch (tended : Tended home members s) {closure : Closure}
    (member : members closure.runner = true) (posted : closure ∈ s.posted)
    (exclusive : StrandContract (fun scheduler => scheduler == home) s (.dispatch t closure))
    {other : ThreadId} {q : RunnerId} (also : members q = true) :
    ¬ (s.threads other).WorksFor q := by
  intro works
  have here : closure.scheduler = home := tended.closures closure posted member
  have busy : (s.threads other).pc ≠ .idle := by
    rcases works with body | ⟨kind, entered⟩ <;> simp [*]
  refine exclusive (by simp [here]) other busy ?_
  rw [here]
  exact tended.works other q also works

end Tended

/-! ### The host -/

/-- The program and its runners agree on whose closure has been taken up and on whose
code runs. -/
structure Hosted (home : SchedulerId) (s : Host State Task Operation Result Frame) : Prop where
  tended : Tended home s.isMember s.system
  taken : ∀ r, s.taken = some r ↔
    s.isMember r = true ∧ ∃ t kind, (s.system.threads t).pc = .entered r kind
  body : ∀ r, s.body.map Prod.fst = some r ↔
    s.isMember r = true ∧ ∃ t, (s.system.threads t).pc = .body r
  idle : s.body = none → s.outbox = []
  waiting : ∀ operation ∈ s.waiting, s.isMember operation.1 = true

/-- No other thread than `t` works for the tasks. -/
def AloneAt (members : RunnerId → Bool) (t : ThreadId) (s : System) : Prop :=
  ∀ u q, members q = true → (s.threads u).WorksFor q → u = t

/-- The threads that work for the tasks are where they were. -/
def SamePlaces (members : RunnerId → Bool) (s after : System) : Prop :=
  ∀ t r, members r = true → (s.threads t).WorksFor r ∨ (after.threads t).WorksFor r →
    (after.threads t).pc = (s.threads t).pc

namespace SamePlaces

variable {members : RunnerId → Bool} {s after : System} {t : ThreadId} {r : RunnerId}

theorem entered (same : SamePlaces members s after) (member : members r = true)
    {kind : ClosureKind} :
    (after.threads t).pc = .entered r kind ↔ (s.threads t).pc = .entered r kind := by
  constructor
  · intro place
    rw [← same t r member (.inr (.inr ⟨kind, place⟩))]
    exact place
  · intro place
    rw [same t r member (.inl (.inr ⟨kind, place⟩))]
    exact place

theorem body (same : SamePlaces members s after) (member : members r = true) :
    (after.threads t).pc = .body r ↔ (s.threads t).pc = .body r := by
  constructor
  · intro place
    rw [← same t r member (.inr (.inl place))]
    exact place
  · intro place
    rw [same t r member (.inl (.inl place))]
    exact place

end SamePlaces

namespace AloneAt

variable {members : RunnerId → Bool} {s after : System} {t : ThreadId} {r : RunnerId}

theorem step {home : SchedulerId} (tended : Tended home members s) (member : members r = true)
    (works : (s.threads t).WorksFor r)
    (others : ∀ u, u ≠ t → after.threads u = s.threads u) : AloneAt members t after := by
  intro u q also there
  by_contra elsewhere
  rw [others u elsewhere] at there
  exact elsewhere (tended.unique member works also there)

theorem start (idle : ∀ u q, members q = true → ¬ (s.threads u).WorksFor q)
    (others : ∀ u, u ≠ t → after.threads u = s.threads u) : AloneAt members t after := by
  intro u q also there
  by_contra elsewhere
  rw [others u elsewhere] at there
  exact idle u q also there

end AloneAt

namespace Hosted

variable {home : SchedulerId} {s after : Host State Task Operation Result Frame}
variable {t : ThreadId} {r : RunnerId}

theorem keep (hosted : Hosted home s) (tended : Tended home after.isMember after.system)
    (same : SamePlaces s.isMember s.system after.system)
    (members : ∀ r, s.isMember r = true → after.isMember r = true)
    (added : ∀ t r, after.isMember r = true → (after.system.threads t).WorksFor r →
      s.isMember r = true)
    (taken : after.taken = s.taken) (body : after.body.map Prod.fst = s.body.map Prod.fst)
    (idle : after.body = none → after.outbox = [])
    (waiting : ∀ operation ∈ after.waiting, s.isMember operation.1 = true) :
    Hosted home after where
  tended := tended
  taken r := by
    rw [taken, hosted.taken r]
    constructor
    · rintro ⟨member, t, kind, place⟩
      exact ⟨members r member, t, kind, (same.entered member).mpr place⟩
    · rintro ⟨member, t, kind, place⟩
      have old := added t r member (.inr ⟨kind, place⟩)
      exact ⟨old, t, kind, (same.entered old).mp place⟩
  body r := by
    rw [body, hosted.body r]
    constructor
    · rintro ⟨member, t, place⟩
      exact ⟨members r member, t, (same.body member).mpr place⟩
    · rintro ⟨member, t, place⟩
      have old := added t r member (.inl place)
      exact ⟨old, t, (same.body old).mp place⟩
  idle := idle
  waiting operation member := members _ (waiting operation member)

theorem alone (tended : Tended home after.isMember after.system)
    (only : AloneAt after.isMember t after.system)
    (taken : ∀ r, after.taken = some r ↔ after.isMember r = true ∧
      ∃ kind, (after.system.threads t).pc = .entered r kind)
    (body : ∀ r, after.body.map Prod.fst = some r ↔ after.isMember r = true ∧
      (after.system.threads t).pc = .body r)
    (idle : after.body = none → after.outbox = [])
    (waiting : ∀ operation ∈ after.waiting, after.isMember operation.1 = true) :
    Hosted home after where
  tended := tended
  taken r := by
    rw [taken r]
    constructor
    · rintro ⟨member, kind, place⟩
      exact ⟨member, t, kind, place⟩
    · rintro ⟨member, u, kind, place⟩
      obtain rfl := only u r member (.inr ⟨kind, place⟩)
      exact ⟨member, kind, place⟩
  body r := by
    rw [body r]
    constructor
    · rintro ⟨member, place⟩
      exact ⟨member, t, place⟩
    · rintro ⟨member, u, place⟩
      obtain rfl := only u r member (.inl place)
      exact ⟨member, place⟩
  idle := idle
  waiting := waiting

theorem taken_of_entered (hosted : Hosted home s) (member : s.isMember r = true)
    {kind : ClosureKind} (entered : (s.system.threads t).pc = .entered r kind) :
    s.taken = some r :=
  (hosted.taken r).mpr ⟨member, t, kind, entered⟩

theorem free_of_entered (hosted : Hosted home s) (member : s.isMember r = true)
    {kind : ClosureKind} (entered : (s.system.threads t).pc = .entered r kind) :
    s.body = none := by
  cases runs : s.body with
  | none => rfl
  | some body =>
      obtain ⟨also, u, place⟩ := (hosted.body body.1).mp (by simp [runs])
      obtain rfl := hosted.tended.unique member (.inr ⟨kind, entered⟩) also (.inl place)
      cases entered.symm.trans place

theorem untaken_of_body (hosted : Hosted home s) (member : s.isMember r = true)
    (inside : (s.system.threads t).pc = .body r) : s.taken = none := by
  cases takes : s.taken with
  | none => rfl
  | some q =>
      obtain ⟨also, u, kind, place⟩ := (hosted.taken q).mp takes
      obtain rfl := hosted.tended.unique member (.inl inside) also (.inr ⟨kind, place⟩)
      cases inside.symm.trans place

end Hosted

end FlatAsync
