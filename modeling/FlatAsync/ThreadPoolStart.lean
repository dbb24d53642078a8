import FlatAsync.ActionSystem
import Mathlib.Algebra.BigOperators.Group.Multiset.Basic
import Mathlib.Algebra.Order.BigOperators.Group.Multiset
import Mathlib.Algebra.Order.Group.Nat
import Mathlib.Data.List.Perm.Basic

/-!
# The start of thread pools

The constructor of `ThreadPool` creates its threads one after the other.  Each of them gives
itself the name of the pool, the next number and the pool's io service, and waits at a
barrier for the others and for the constructor before it serves the io service.

This file embeds the constructor, `ThreadUtil::CreateThread` and the variables of
`thread_util.cc`, for any number of pools that start side by side.  Of `boost::barrier` it is
assumed that it lets everybody pass once as many have come as it was made for.
-/

namespace FlatAsync

abbrev PoolId := Nat

/-- The `thread_local` variables of `ThreadUtil`. -/
structure ThreadLocals where
  poolName : String := "default"
  threadInPoolNumber : Int32 := 0
  ioService : Option PoolId := none
  deriving DecidableEq, Repr

/-- `ThreadUtil::GetCurrentThreadId` -/
def ThreadLocals.threadId (thread : ThreadLocals) : String :=
  "[" ++ thread.poolName ++ ":" ++ toString thread.threadInPoolNumber.toInt ++ "]"

/-- A `boost::barrier`: for how many it is made, how many have still to come, and how often
it has opened. -/
structure Barrier where
  threshold : Nat
  count : Nat := threshold
  generation : Nat := 0
  deriving DecidableEq, Repr

/-- Somebody comes to `wait`.  The last one opens the barrier. -/
def Barrier.arrive (barrier : Barrier) : Barrier :=
  if barrier.count = 1 then
    { barrier with count := barrier.threshold, generation := barrier.generation + 1 }
  else { barrier with count := barrier.count - 1 }

/-- What a thread of a pool has done: it has been created, has set its name, number and io
service, waits at the barrier, and serves the io service. -/
inductive StartPhase
  | created
  | named
  | numbered
  | bound
  | waiting (generation : Nat)
  | running
  deriving DecidableEq, Repr

inductive ConstructorPhase
  | creating
  | waiting (generation : Nat)
  | constructed
  deriving DecidableEq, Repr

structure StartingThread where
  locals : ThreadLocals := {}
  phase : StartPhase := .created
  deriving DecidableEq, Repr

structure StartingPool where
  name : String
  threadCount : Nat
  barrier : Barrier
  threads : List StartingThread := []
  phase : ConstructorPhase := .creating
  deriving DecidableEq, Repr

/-- The pools that are being constructed or have been, and the counter of
`DefaultThreadCounterTag`. -/
structure Startup where
  counter : Int32 := 0
  pools : List StartingPool := []
  deriving DecidableEq, Repr

/-- The steps in a pool: the constructor creates a thread, comes to the barrier and passes
it, or a thread goes on. -/
inductive PoolStep
  | createThread
  | arrive
  | pass
  | thread (index : Nat)
  deriving DecidableEq, Repr

inductive StartAction
  | construct (name : String) (threadCount : Nat)
  | within (p : PoolId) (step : PoolStep)
  deriving DecidableEq, Repr

namespace StartPhase

def isNumbered : StartPhase → Bool
  | .created | .named => false
  | .numbered | .bound | .waiting _ | .running => true

def isBound : StartPhase → Bool
  | .created | .named | .numbered => false
  | .bound | .waiting _ | .running => true

def hasArrived : StartPhase → Bool
  | .created | .named | .numbered | .bound => false
  | .waiting _ | .running => true

def mayGoOn (generation : Nat) : StartPhase → Bool
  | .created | .named | .numbered | .bound => true
  | .waiting own => own ≠ generation
  | .running => false

def steps : StartPhase → Nat
  | .created => 0
  | .named => 1
  | .numbered => 2
  | .bound => 3
  | .waiting _ => 4
  | .running => 5

end StartPhase

namespace ConstructorPhase

def hasArrived : ConstructorPhase → Bool
  | .creating => false
  | .waiting _ | .constructed => true

/-- The constructor waits at a barrier that has opened since. -/
def mayPass (generation : Nat) : ConstructorPhase → Bool
  | .waiting own => own ≠ generation
  | .creating | .constructed => false

def steps : ConstructorPhase → Nat
  | .creating => 0
  | .waiting _ => 1
  | .constructed => 2

end ConstructorPhase

/-- `thread_count + 1u` as the `unsigned int` that a barrier is made for. -/
def barrierSize (threadCount : Nat) : Nat :=
  (threadCount + 1) % 2 ^ 32

namespace StartingPool

variable (pool : StartingPool)

def setThread (index : Nat) (thread : StartingThread) : StartingPool :=
  { pool with threads := pool.threads.set index thread }

/-- What a thread of the `p`-th pool does next, and what it makes of the counter. -/
def threadStep (p : PoolId) (counter : Int32) (index : Nat) (thread : StartingThread) :
    Int32 × StartingPool :=
  match thread.phase with
  | .created =>
      (counter, pool.setThread index
        { locals := { thread.locals with poolName := pool.name }, phase := .named })
  | .named =>
      (counter + 1, pool.setThread index
        { locals := { thread.locals with threadInPoolNumber := counter + 1 }
          phase := .numbered })
  | .numbered =>
      (counter, pool.setThread index
        { locals := { thread.locals with ioService := some p }, phase := .bound })
  | .bound =>
      (counter, { pool with barrier := pool.barrier.arrive }.setThread index
        { thread with phase := .waiting pool.barrier.generation })
  | .waiting _ => (counter, pool.setThread index { thread with phase := .running })
  | .running => (counter, pool)

def next (p : PoolId) (counter : Int32) : PoolStep → Int32 × StartingPool
  | .createThread => (counter, { pool with threads := pool.threads ++ [{}] })
  | .arrive =>
      (counter, { pool with
        barrier := pool.barrier.arrive
        phase := .waiting pool.barrier.generation })
  | .pass => (counter, { pool with phase := .constructed })
  | .thread index =>
      match pool.threads[index]? with
      | some thread => pool.threadStep p counter index thread
      | none => (counter, pool)

def Enabled : PoolStep → Prop
  | .createThread => pool.phase = .creating ∧ pool.threads.length < pool.threadCount
  | .arrive => pool.phase = .creating ∧ pool.threadCount ≤ pool.threads.length
  | .pass => pool.phase.mayPass pool.barrier.generation = true
  | .thread index =>
      ∃ thread ∈ pool.threads[index]?, thread.phase.mayGoOn pool.barrier.generation = true

instance : ∀ step, Decidable (pool.Enabled step)
  | .createThread | .arrive => inferInstanceAs (Decidable (_ ∧ _))
  | .pass => inferInstanceAs (Decidable (_ = true))
  | .thread index =>
      inferInstanceAs (Decidable (∃ thread ∈ pool.threads[index]?, _ = true))

end StartingPool

namespace Startup

variable (s : Startup)

def Enabled : StartAction → Prop
  | .construct .. => True
  | .within p step => ∃ pool ∈ s.pools[p]?, pool.Enabled step

instance : ∀ action, Decidable (s.Enabled action)
  | .construct .. => inferInstanceAs (Decidable True)
  | .within p step => inferInstanceAs (Decidable (∃ pool ∈ s.pools[p]?, pool.Enabled step))

/-- A barrier for nobody cannot be made: the constructor throws. -/
def step : StartAction → Startup
  | .construct name threadCount =>
      if barrierSize threadCount = 0 then s
      else
        { s with
          pools := s.pools ++
            [{ name := name
               threadCount := threadCount
               barrier := { threshold := barrierSize threadCount } }] }
  | .within p step =>
      match s.pools[p]? with
      | some pool =>
          { counter := (pool.next p s.counter step).1
            pools := s.pools.set p (pool.next p s.counter step).2 }
      | none => s

end Startup

def startSystem : ActionSystem Startup StartAction where
  enabled := Startup.Enabled
  next := Startup.step

instance (s : Startup) (action : StartAction) : Decidable (startSystem.enabled s action) :=
  inferInstanceAs (Decidable (s.Enabled action))

/-- The barrier can be made for the threads and the constructor. -/
def StartContract (_ : Startup) : StartAction → Prop
  | .construct _ threadCount => threadCount + 1 < 2 ^ 32
  | .within .. => True

instance (s : Startup) : ∀ action, Decidable (StartContract s action)
  | .construct _ threadCount => inferInstanceAs (Decidable (threadCount + 1 < 2 ^ 32))
  | .within .. => inferInstanceAs (Decidable True)

/-! ### One pool -/

/-- What a thread of the `p`-th pool has set, and where it is when the barrier has opened
`generation` times. -/
structure StartingThread.Fits (p : PoolId) (name : String) (generation : Nat)
    (thread : StartingThread) : Prop where
  named : thread.phase ≠ .created → thread.locals.poolName = name
  bound : thread.phase.isBound = true → thread.locals.ioService = some p
  waits : ∀ own, thread.phase = .waiting own → own = 0
  runs : thread.phase = .running → generation = 1

def StartingPool.arrived (pool : StartingPool) : Nat :=
  pool.threads.countP (fun thread => thread.phase.hasArrived) + pool.phase.hasArrived.toNat

/-- The barrier is closed until all threads and the constructor have come. -/
structure StartingPool.Sound (p : PoolId) (pool : StartingPool) : Prop where
  created : pool.threads.length ≤ pool.threadCount
  complete : pool.phase ≠ .creating → pool.threads.length = pool.threadCount
  threshold : pool.barrier.threshold = pool.threadCount + 1
  barrier : pool.barrier.generation = 0 ∧ 0 < pool.barrier.count ∧
      pool.barrier.count + pool.arrived = pool.threadCount + 1 ∨
    pool.barrier.generation = 1 ∧ pool.arrived = pool.threadCount + 1
  waits : ∀ own, pool.phase = .waiting own → own = 0
  constructed : pool.phase = .constructed → pool.barrier.generation = 1
  threads : ∀ thread ∈ pool.threads, thread.Fits p pool.name pool.barrier.generation

theorem countP_set_add {α : Type*} {entries : List α} {index : Nat} {old : α}
    (here : entries[index]? = some old) (new : α) (select : α → Bool) :
    (entries.set index new).countP select + (select old).toNat =
      entries.countP select + (select new).toNat := by
  induction entries generalizing index with
  | nil => simp at here
  | cons entry entries ih =>
      cases index with
      | zero =>
          obtain rfl : entry = old := by simpa using here
          rw [List.set_cons_zero, List.countP_cons, List.countP_cons]
          cases select new <;> cases select entry <;> simp
      | succ index =>
          rw [List.set_cons_succ, List.countP_cons, List.countP_cons]
          have rest := ih (by simpa using here)
          omega

namespace StartingPool.Sound

variable {p : PoolId} {pool : StartingPool} {counter : Int32} {index : Nat}
variable {thread new : StartingThread}

theorem initially (name : String) {threadCount : Nat} (few : threadCount + 1 < 2 ^ 32) :
    Sound p
      { name := name
        threadCount := threadCount
        barrier := { threshold := barrierSize threadCount } } where
  created := Nat.zero_le _
  complete creating := absurd rfl creating
  threshold := Nat.mod_eq_of_lt few
  barrier := by
    have size : barrierSize threadCount = threadCount + 1 := Nat.mod_eq_of_lt few
    left
    simp [arrived, ConstructorPhase.hasArrived, size]
  waits _ phase := by cases phase
  constructed phase := by cases phase
  threads _ member := by simp at member

theorem setThread (sound : pool.Sound p) (here : pool.threads[index]? = some thread)
    (same : new.phase.hasArrived = thread.phase.hasArrived)
    (fits : new.Fits p pool.name pool.barrier.generation) : (pool.setThread index new).Sound p := by
  have arrived : (pool.setThread index new).arrived = pool.arrived := by
    have count := countP_set_add here new fun thread => thread.phase.hasArrived
    rw [same] at count
    simp only [StartingPool.arrived, StartingPool.setThread]
    omega
  refine ⟨?_, fun phase => ?_, sound.threshold, ?_, sound.waits, sound.constructed, ?_⟩
  · simpa [StartingPool.setThread] using sound.created
  · simpa [StartingPool.setThread] using sound.complete phase
  · rw [arrived]
    exact sound.barrier
  · intro other member
    rcases List.mem_or_eq_of_mem_set member with old | rfl
    · exact sound.threads other old
    · exact fits

theorem closed (sound : pool.Sound p) (missing : pool.arrived < pool.threadCount + 1) :
    pool.barrier.generation = 0 ∧ 0 < pool.barrier.count ∧
      pool.barrier.count + pool.arrived = pool.threadCount + 1 := by
  rcases sound.barrier with closed | ⟨-, all⟩
  · exact closed
  · omega

theorem arrive {after : StartingPool} (sound : pool.Sound p)
    (missing : pool.arrived < pool.threadCount + 1) (name : after.name = pool.name)
    (threadCount : after.threadCount = pool.threadCount)
    (barrier : after.barrier = pool.barrier.arrive) (arrived : after.arrived = pool.arrived + 1)
    (length : after.threads.length = pool.threads.length)
    (complete : after.phase ≠ .creating → pool.threads.length = pool.threadCount)
    (waits : ∀ own, after.phase = .waiting own → own = 0)
    (constructed : after.phase ≠ .constructed)
    (threads : ∀ thread ∈ after.threads,
      thread.Fits p pool.name pool.barrier.generation ∧ thread.phase ≠ .running) :
    after.Sound p := by
  obtain ⟨generation, positive, sum⟩ := sound.closed missing
  refine ⟨?_, fun phase => ?_, ?_, ?_, waits, fun phase => absurd phase constructed, ?_⟩
  · rw [length, threadCount]
    exact sound.created
  · rw [length, threadCount]
    exact complete phase
  · rw [barrier, threadCount, Barrier.arrive]
    split <;> exact sound.threshold
  · rw [barrier, threadCount, arrived, Barrier.arrive]
    split
    next last =>
      right
      exact ⟨by rw [generation], by omega⟩
    next more =>
      left
      exact ⟨generation, by dsimp only; omega, by dsimp only; omega⟩
  · intro thread member
    obtain ⟨fits, resting⟩ := threads thread member
    rw [name]
    exact ⟨fits.named, fits.bound, fits.waits, fun running => absurd running resting⟩

private theorem not_running (sound : pool.Sound p) (closed : pool.barrier.generation = 0)
    (member : thread ∈ pool.threads) : thread.phase ≠ .running := by
  intro running
  have opened := (sound.threads thread member).runs running
  omega

private theorem missing_thread (sound : pool.Sound p) (member : thread ∈ pool.threads)
    (before : thread.phase.hasArrived = false) : pool.arrived < pool.threadCount + 1 := by
  have others : pool.threads.countP (fun thread => thread.phase.hasArrived) <
      pool.threads.length := by
    refine Nat.lt_of_le_of_ne List.countP_le_length fun all => ?_
    have own := List.countP_eq_length.mp all thread member
    rw [before] at own
    cases own
  have most := sound.created
  have one := Bool.toNat_le pool.phase.hasArrived
  unfold StartingPool.arrived
  omega

/-- The constructor that has not come to the barrier is missing there. -/
theorem missing_constructor (sound : pool.Sound p) (creating : pool.phase = .creating) :
    pool.arrived < pool.threadCount + 1 := by
  have most := sound.created
  have threads : pool.threads.countP (fun thread => thread.phase.hasArrived) ≤ _ :=
    List.countP_le_length
  simp only [StartingPool.arrived, creating, ConstructorPhase.hasArrived, Bool.toNat_false]
  omega

theorem threadStep (sound : pool.Sound p) (here : pool.threads[index]? = some thread)
    (goes : thread.phase.mayGoOn pool.barrier.generation = true) :
    (pool.threadStep p counter index thread).2.Sound p := by
  have member := List.mem_of_getElem? here
  have fits := sound.threads thread member
  cases phase : thread.phase with
  | created =>
      simp only [StartingPool.threadStep, phase]
      refine sound.setThread here (by simp [phase, StartPhase.hasArrived])
        ⟨fun _ => rfl, ?_, ?_, ?_⟩
      all_goals simp [StartPhase.isBound]
  | named =>
      simp only [StartingPool.threadStep, phase]
      refine sound.setThread here (by simp [phase, StartPhase.hasArrived])
        ⟨fun _ => fits.named (by simp [phase]), ?_, ?_, ?_⟩
      all_goals simp [StartPhase.isBound]
  | numbered =>
      simp only [StartingPool.threadStep, phase]
      refine sound.setThread here (by simp [phase, StartPhase.hasArrived])
        ⟨fun _ => fits.named (by simp [phase]), fun _ => rfl, ?_, ?_⟩
      all_goals simp
  | bound =>
      have missing := sound.missing_thread member (by rw [phase]; rfl)
      obtain ⟨generation, -, -⟩ := sound.closed missing
      simp only [StartingPool.threadStep, phase]
      refine sound.arrive missing rfl rfl rfl ?_ (List.length_set ..) sound.complete sound.waits
        ?_ ?_
      · have count : (pool.threads.set index
              { thread with phase := .waiting pool.barrier.generation }).countP
                (fun thread => thread.phase.hasArrived) + thread.phase.hasArrived.toNat =
            pool.threads.countP (fun thread => thread.phase.hasArrived) + 1 :=
          countP_set_add here _ _
        rw [phase, show StartPhase.bound.hasArrived.toNat = 0 from rfl] at count
        simp only [StartingPool.arrived, StartingPool.setThread]
        omega
      · intro opened
        have once := sound.constructed opened
        omega
      · intro other inside
        rcases List.mem_or_eq_of_mem_set inside with old | rfl
        · exact ⟨sound.threads other old, sound.not_running generation old⟩
        · refine ⟨⟨fun _ => fits.named (by simp [phase]),
            fun _ => fits.bound (by simp [phase, StartPhase.isBound]), ?_, ?_⟩, ?_⟩
          all_goals simp [generation]
  | waiting own =>
      have first := fits.waits own phase
      have opened : pool.barrier.generation = 1 := by
        rcases sound.barrier with ⟨closed, -⟩ | ⟨opened, -⟩
        · simp [phase, StartPhase.mayGoOn, first, closed] at goes
        · exact opened
      simp only [StartingPool.threadStep, phase]
      refine sound.setThread here (by simp [phase, StartPhase.hasArrived])
        ⟨fun _ => fits.named (by simp [phase]),
          fun _ => fits.bound (by simp [phase, StartPhase.isBound]), ?_, fun _ => opened⟩
      simp
  | running => simp [phase, StartPhase.mayGoOn] at goes

theorem next {step : PoolStep} (sound : pool.Sound p) (enabled : pool.Enabled step) :
    (pool.next p counter step).2.Sound p := by
  cases step with
  | createThread =>
      obtain ⟨creating, room⟩ := enabled
      refine ⟨?_, fun phase => absurd creating phase, sound.threshold, ?_, sound.waits,
        sound.constructed, ?_⟩
      · simp only [StartingPool.next, List.length_append, List.length_singleton]
        exact room
      · simpa [StartingPool.next, StartingPool.arrived, StartPhase.hasArrived] using sound.barrier
      · intro thread member
        rcases List.mem_append.mp member with old | new
        · exact sound.threads thread old
        · obtain rfl : thread = {} := by simpa using new
          refine ⟨fun phase => absurd rfl phase, ?_, ?_, ?_⟩ <;> simp [StartPhase.isBound]
  | arrive =>
      obtain ⟨creating, all⟩ := enabled
      have complete : pool.threads.length = pool.threadCount := Nat.le_antisymm sound.created all
      have missing := sound.missing_constructor creating
      obtain ⟨generation, -, -⟩ := sound.closed missing
      refine sound.arrive missing rfl rfl rfl ?_ rfl (fun _ => complete) ?_ ?_ ?_
      · simp [StartingPool.next, StartingPool.arrived, creating, ConstructorPhase.hasArrived]
      · intro own phase
        have same : pool.barrier.generation = own := by simpa [StartingPool.next] using phase
        omega
      · simp [StartingPool.next]
      · exact fun thread member =>
          ⟨sound.threads thread member, sound.not_running generation member⟩
  | pass =>
      cases phase : pool.phase with
      | creating | constructed =>
          simp [StartingPool.Enabled, phase, ConstructorPhase.mayPass] at enabled
      | waiting own =>
          have first := sound.waits own phase
          have moved : own ≠ pool.barrier.generation := by
            simpa [StartingPool.Enabled, phase, ConstructorPhase.mayPass] using enabled
          have opened : pool.barrier.generation = 1 ∧ pool.arrived = pool.threadCount + 1 := by
            rcases sound.barrier with ⟨closed, -⟩ | opened
            · omega
            · exact opened
          refine ⟨sound.created, fun _ => sound.complete (by simp [phase]), sound.threshold,
            .inr ⟨opened.1, ?_⟩, ?_, fun _ => opened.1, sound.threads⟩
          · have all := opened.2
            simp only [StartingPool.arrived, phase, ConstructorPhase.hasArrived] at all
            simpa [StartingPool.next, StartingPool.arrived, ConstructorPhase.hasArrived] using all
          · simp [StartingPool.next]
  | thread index =>
      obtain ⟨thread, here, goes⟩ := enabled
      have found : pool.threads[index]? = some thread := here
      simp only [StartingPool.next, found]
      exact sound.threadStep found goes

end StartingPool.Sound

/-! ### The numbers of threads -/

theorem sum_set_add {α : Type*} {entries : List α} {index : Nat} {old : α}
    (here : entries[index]? = some old) (new : α) (weigh : α → Nat) :
    (((entries.set index new : List α) : Multiset α).map weigh).sum + weigh old =
      ((entries : Multiset α).map weigh).sum + weigh new := by
  obtain ⟨inside, same⟩ := List.getElem?_eq_some_iff.mp here
  have before : List.Perm entries (old :: entries.eraseIdx index) := by
    rw [← same]
    exact (List.getElem_cons_eraseIdx_perm inside).symm
  have after := List.set_perm_cons_eraseIdx inside new
  rw [Multiset.coe_eq_coe.mpr before, Multiset.coe_eq_coe.mpr after, ← Multiset.cons_coe,
    ← Multiset.cons_coe, Multiset.map_cons, Multiset.map_cons, Multiset.sum_cons,
    Multiset.sum_cons]
  omega

def Startup.total (s : Startup) (weigh : StartingPool → Nat) : Nat :=
  ((s.pools : Multiset StartingPool).map weigh).sum

namespace StartingPool

def numbered (pool : StartingPool) : Nat :=
  pool.threads.countP fun thread => thread.phase.isNumbered

def HasNumber (pool : StartingPool) (index : Nat) (number : Int32) : Prop :=
  ∃ thread, pool.threads[index]? = some thread ∧ thread.phase.isNumbered = true ∧
    thread.locals.threadInPoolNumber = number

/-- Which numbers the threads of a pool have after a step: those that they had, and the next
one for a thread that takes it. -/
inductive NumberStep (pool : StartingPool) (counter : Int32) : Int32 → StartingPool → Prop
  | same {after : StartingPool} (count : after.numbered = pool.numbered)
      (kept : ∀ index number, after.HasNumber index number → pool.HasNumber index number) :
      NumberStep pool counter counter after
  | taken {after : StartingPool} (own : Nat) (count : after.numbered = pool.numbered + 1)
      (kept : ∀ index number, after.HasNumber index number →
        index = own ∧ number = counter + 1 ∨ pool.HasNumber index number) :
      NumberStep pool counter (counter + 1) after

variable {p : PoolId} {pool after : StartingPool} {counter : Int32} {index : Nat}
variable {thread : StartingThread}

private theorem hasNumber_setThread {new : StartingThread} {other : Nat} {number : Int32}
    (here : pool.threads[index]? = some thread)
    (has : (pool.setThread index new).HasNumber other number) :
    other = index ∧ new.phase.isNumbered = true ∧ new.locals.threadInPoolNumber = number ∨
      pool.HasNumber other number := by
  obtain ⟨inside, -⟩ := List.getElem?_eq_some_iff.mp here
  obtain ⟨found, there, numbered, same⟩ := has
  by_cases own : other = index
  · subst own
    obtain rfl : new = found := by simpa [setThread, inside] using there
    exact .inl ⟨rfl, numbered, same⟩
  · rw [setThread, List.getElem?_set_ne (Ne.symm own)] at there
    exact .inr ⟨found, there, numbered, same⟩

theorem numberStep_setThread (here : pool.threads[index]? = some thread) (new : StartingThread)
    (same : new.phase.isNumbered = thread.phase.isNumbered)
    (number : new.locals.threadInPoolNumber = thread.locals.threadInPoolNumber)
    (threads : after.threads = (pool.setThread index new).threads) :
    NumberStep pool counter counter after := by
  refine .same ?_ fun other found has => ?_
  · have count := countP_set_add here new fun thread => thread.phase.isNumbered
    rw [same] at count
    rw [StartingPool.numbered, threads]
    exact Nat.add_right_cancel count
  · have changed : (pool.setThread index new).HasNumber other found := by
      rw [HasNumber, ← threads]
      exact has
    rcases hasNumber_setThread here changed with ⟨rfl, numbered, own⟩ | old
    · exact ⟨thread, here, same ▸ numbered, number ▸ own⟩
    · exact old

private theorem numberStep_threadStep (here : pool.threads[index]? = some thread) :
    NumberStep pool counter (pool.threadStep p counter index thread).1
      (pool.threadStep p counter index thread).2 := by
  cases phase : thread.phase with
  | created =>
      simp only [threadStep, phase]
      refine numberStep_setThread here _ ?_ ?_ rfl
      · simp [phase, StartPhase.isNumbered]
      · rfl
  | named =>
      simp only [threadStep, phase]
      refine .taken index ?_ fun other number has => ?_
      · have count : (pool.threads.set index
                { locals := { thread.locals with threadInPoolNumber := counter + 1 }
                  phase := .numbered }).countP (fun thread => thread.phase.isNumbered) +
              thread.phase.isNumbered.toNat =
            pool.threads.countP (fun thread => thread.phase.isNumbered) + 1 :=
          countP_set_add here _ _
        rw [phase] at count
        exact count
      · rcases hasNumber_setThread here has with ⟨own, -, taken⟩ | old
        · exact .inl ⟨own, taken.symm⟩
        · exact .inr old
  | numbered =>
      simp only [threadStep, phase]
      refine numberStep_setThread here _ ?_ ?_ rfl
      · simp [phase, StartPhase.isNumbered]
      · rfl
  | bound =>
      simp only [threadStep, phase]
      exact numberStep_setThread here { thread with phase := .waiting pool.barrier.generation }
        (by simp [phase, StartPhase.isNumbered]) rfl rfl
  | waiting own =>
      simp only [threadStep, phase]
      exact numberStep_setThread here { thread with phase := .running }
        (by simp [phase, StartPhase.isNumbered]) rfl rfl
  | running =>
      simp only [threadStep, phase]
      exact .same rfl fun _ _ has => has

private theorem numberStep_next {step : PoolStep} (enabled : pool.Enabled step) :
    NumberStep pool counter (pool.next p counter step).1 (pool.next p counter step).2 := by
  cases step with
  | createThread =>
      refine .same (by simp [next, numbered, StartPhase.isNumbered]) ?_
      rintro other number ⟨found, inside, numbered, same⟩
      simp only [next, List.getElem?_append] at inside
      split at inside
      · exact ⟨found, inside, numbered, same⟩
      · obtain ⟨-, rfl⟩ : _ ∧ {} = found := by simpa [List.getElem?_singleton] using inside
        cases numbered
  | arrive | pass => exact .same rfl fun _ _ has => has
  | thread index =>
      obtain ⟨thread, here, -⟩ := enabled
      have found : pool.threads[index]? = some thread := here
      simp only [next, found]
      exact numberStep_threadStep found

end StartingPool

/-- The order in which the threads have taken their numbers. -/
structure Startup.Numbering (s : Startup) (order : List (PoolId × Nat)) : Prop where
  counter : s.counter = Int32.ofNat order.length
  count : order.length = s.total StartingPool.numbered
  placed : ∀ p pool index number, s.pools[p]? = some pool → pool.HasNumber index number →
    ∃ k, order[k]? = some (p, index) ∧ number = Int32.ofNat (k + 1)

namespace Startup.Numbering

variable {s : Startup} {order : List (PoolId × Nat)}

theorem initially : ({} : Startup).Numbering [] where
  counter := rfl
  count := rfl
  placed p pool index number here := by simp at here

theorem construct (numbering : s.Numbering order) {pool : StartingPool} (none : pool.threads = []) :
    ({ s with pools := s.pools ++ [pool] } : Startup).Numbering order where
  counter := numbering.counter
  count := by
    rw [numbering.count, Startup.total, Startup.total, ← Multiset.coe_add, Multiset.map_add,
      Multiset.sum_add]
    simp [StartingPool.numbered, none]
  placed p other index number here has := by
    rw [List.getElem?_append] at here
    split at here
    · exact numbering.placed p other index number here has
    · obtain ⟨-, rfl⟩ : _ ∧ pool = other := by simpa [List.getElem?_singleton] using here
      obtain ⟨thread, inside, -⟩ := has
      simp [none] at inside

theorem within (numbering : s.Numbering order) {p : PoolId} {pool after : StartingPool}
    {counter : Int32} (here : s.pools[p]? = some pool)
    (change : StartingPool.NumberStep pool s.counter counter after) :
    ∃ order, ({ counter := counter, pools := s.pools.set p after } : Startup).Numbering order := by
  have inside := (List.getElem?_eq_some_iff.mp here).1
  have sum := sum_set_add here after StartingPool.numbered
  have count := numbering.count
  unfold Startup.total at count
  cases change with
  | same same kept =>
      refine ⟨order, numbering.counter, ?_, fun q other index number found has => ?_⟩
      · unfold Startup.total
        dsimp only
        omega
      · rw [List.getElem?_set] at found
        split at found
        next own =>
          subst own
          obtain rfl : after = other := by simpa [inside] using found
          exact numbering.placed p pool index number here (kept index number has)
        next => exact numbering.placed q other index number found has
  | taken own more kept =>
      refine ⟨order ++ [(p, own)], ?_, ?_, fun q other index number found has => ?_⟩
      · rw [numbering.counter, List.length_append, List.length_singleton, Int32.ofNat_add]
        rfl
      · unfold Startup.total
        rw [List.length_append, List.length_singleton]
        dsimp only
        omega
      · have earlier (old : ∃ k, order[k]? = some (q, index) ∧ number = Int32.ofNat (k + 1)) :
            ∃ k, (order ++ [(p, own)])[k]? = some (q, index) ∧ number = Int32.ofNat (k + 1) := by
          obtain ⟨k, place, same⟩ := old
          refine ⟨k, ?_, same⟩
          rw [List.getElem?_append_left (List.getElem?_eq_some_iff.mp place).1]
          exact place
        rw [List.getElem?_set] at found
        split at found
        next same =>
          subst same
          obtain rfl : after = other := by simpa [inside] using found
          rcases kept index number has with ⟨rfl, rfl⟩ | old
          · refine ⟨order.length, by simp, ?_⟩
            rw [numbering.counter, Int32.ofNat_add]
            rfl
          · exact earlier (numbering.placed p pool index number here old)
        next => exact earlier (numbering.placed q other index number found has)

end Startup.Numbering

/-! ### The steps of a pool -/

namespace StartingPool

/-- How many steps have been taken in a pool: one to create each thread, those of the
threads, and those of the constructor. -/
def steps (pool : StartingPool) : Nat :=
  pool.phase.steps +
    ((pool.threads : Multiset StartingThread).map fun thread => thread.phase.steps + 1).sum

variable {p : PoolId} {pool : StartingPool} {counter : Int32} {index : Nat}
variable {thread : StartingThread}

private theorem steps_setThread {new : StartingThread} (here : pool.threads[index]? = some thread)
    (one : new.phase.steps = thread.phase.steps + 1) {after : StartingPool}
    (phase : after.phase = pool.phase)
    (threads : after.threads = (pool.setThread index new).threads) :
    after.steps = pool.steps + 1 := by
  have sum := sum_set_add here new fun thread => thread.phase.steps + 1
  unfold steps
  rw [phase, threads, setThread]
  dsimp only
  omega

private theorem steps_next {step : PoolStep} (enabled : pool.Enabled step) :
    (pool.next p counter step).2.steps = pool.steps + 1 := by
  cases step with
  | createThread =>
      simp only [steps, next, ← Multiset.coe_add, Multiset.map_add, Multiset.sum_add]
      simp [StartPhase.steps, Nat.add_assoc]
  | arrive =>
      simp only [steps, next, enabled.1, ConstructorPhase.steps]
      omega
  | pass =>
      cases phase : pool.phase with
      | creating | constructed => simp [Enabled, phase, ConstructorPhase.mayPass] at enabled
      | waiting own =>
          simp only [steps, next, phase, ConstructorPhase.steps]
          omega
  | thread index =>
      obtain ⟨thread, here, goes⟩ := enabled
      have found : pool.threads[index]? = some thread := here
      simp only [next, found]
      cases phase : thread.phase with
      | running => simp [phase, StartPhase.mayGoOn] at goes
      | created | named | numbered | bound | waiting own =>
          simp only [threadStep, phase]
          exact steps_setThread found (by simp [phase, StartPhase.steps]) rfl rfl

/-- A pool takes two steps for the constructor and six for each thread. -/
theorem Sound.steps_le (sound : pool.Sound p) : pool.steps ≤ 6 * pool.threadCount + 2 := by
  have constructor : pool.phase.steps ≤ 2 := by cases pool.phase <;> simp [ConstructorPhase.steps]
  have each : ∀ thread ∈ (pool.threads : Multiset StartingThread), thread.phase.steps + 1 ≤ 6 := by
    intro thread _
    cases thread.phase <;> simp [StartPhase.steps]
  have threads := Multiset.sum_map_le_sum_map _ (fun _ => 6) each
  rw [Multiset.map_const', Multiset.sum_replicate, Multiset.coe_card, Nat.nsmul_eq_mul] at threads
  have most := sound.created
  unfold steps
  omega

theorem Sound.opened (sound : pool.Sound p) (creating : pool.phase ≠ .creating)
    (come : ∀ thread ∈ pool.threads, thread.phase.hasArrived = true) :
    pool.barrier.generation = 1 := by
  have threads : pool.threads.countP (fun thread => thread.phase.hasArrived) =
      pool.threads.length :=
    List.countP_eq_length.mpr come
  have own : pool.phase.hasArrived = true := by
    cases phase : pool.phase with
    | creating => exact absurd phase creating
    | waiting | constructed => rfl
  have all : pool.arrived = pool.threadCount + 1 := by
    rw [arrived, threads, sound.complete creating, own, Bool.toNat_true]
  rcases sound.barrier with ⟨-, positive, sum⟩ | ⟨opened, -⟩
  · omega
  · exact opened

theorem Sound.goes (sound : pool.Sound p) :
    pool.phase = .constructed ∧ (∀ thread ∈ pool.threads, thread.phase = .running) ∨
      ∃ step, pool.Enabled step := by
  by_cases creating : pool.phase = .creating
  · right
    by_cases room : pool.threads.length < pool.threadCount
    · exact ⟨.createThread, creating, room⟩
    · exact ⟨.arrive, creating, Nat.le_of_not_lt room⟩
  by_cases late : ∃ thread ∈ pool.threads, thread.phase.hasArrived = false
  · obtain ⟨thread, member, before⟩ := late
    obtain ⟨index, here⟩ := List.getElem?_of_mem member
    refine .inr ⟨.thread index, thread, here, ?_⟩
    cases phase : thread.phase <;> simp [phase, StartPhase.hasArrived] at before <;> rfl
  have opened : pool.barrier.generation = 1 := by
    refine sound.opened creating fun thread member => ?_
    by_contra before
    exact late ⟨thread, member, by simpa using before⟩
  cases phase : pool.phase with
  | creating => exact absurd phase creating
  | waiting own =>
      have first := sound.waits own phase
      refine .inr ⟨.pass, ?_⟩
      simp [Enabled, phase, ConstructorPhase.mayPass, first, opened]
  | constructed =>
      by_cases waits : ∃ thread ∈ pool.threads, thread.phase ≠ .running
      · obtain ⟨thread, member, resting⟩ := waits
        obtain ⟨index, here⟩ := List.getElem?_of_mem member
        refine .inr ⟨.thread index, thread, here, ?_⟩
        cases own : thread.phase with
        | running => exact absurd own resting
        | waiting generation =>
            have first := (sound.threads thread member).waits generation own
            simp [StartPhase.mayGoOn, first, opened]
        | created | named | numbered | bound => rfl
      · refine .inl ⟨rfl, fun thread member => ?_⟩
        by_contra resting
        exact waits ⟨thread, member, resting⟩

theorem Sound.together (sound : pool.Sound p)
    (passed : pool.phase = .constructed ∨ ∃ thread ∈ pool.threads, thread.phase = .running) :
    pool.threads.length = pool.threadCount ∧
      pool.phase.hasArrived = true ∧ ∀ thread ∈ pool.threads, thread.phase.hasArrived = true := by
  have opened : pool.barrier.generation = 1 := by
    rcases passed with constructed | ⟨thread, member, running⟩
    · exact sound.constructed constructed
    · exact (sound.threads thread member).runs running
  have all : pool.arrived = pool.threadCount + 1 := by
    rcases sound.barrier with ⟨closed, -⟩ | ⟨-, all⟩
    · omega
    · exact all
  have most := sound.created
  have threads : pool.threads.countP (fun thread => thread.phase.hasArrived) ≤ _ :=
    List.countP_le_length
  have own := Bool.toNat_le pool.phase.hasArrived
  unfold arrived at all
  refine ⟨by omega, ?_, List.countP_eq_length.mp (by omega)⟩
  exact Bool.toNat_eq_one.mp (by omega)

end StartingPool

/-! ### Thread ids -/

private theorem toString_int_ne_colon {number : Int} {c : Char}
    (member : c ∈ (toString number).toList) :
    c ≠ ':' := by
  have digit (value : Nat) (digits : c ∈ value.repr.toList) : c ≠ ':' := by
    rw [Nat.toList_repr] at digits
    have isDigit := Nat.isDigit_of_mem_toDigits (by decide) (by decide) digits
    rintro rfl
    simp [Char.isDigit] at isDigit
  cases number with
  | ofNat value => exact digit value member
  | negSucc value =>
      have split : toString (Int.negSucc value) = "-" ++ (value + 1).repr := rfl
      rw [split, String.toList_append] at member
      rcases List.mem_append.mp member with minus | digits
      · obtain rfl : c = '-' := by simpa using minus
        decide
      · exact digit (value + 1) digits

theorem repr_injective {first second : Nat} (same : first.repr = second.repr) :
    first = second := by
  have digits : Nat.toDigits 10 first = Nat.toDigits 10 second := by
    rw [← Nat.toList_repr, ← Nat.toList_repr, same]
  rw [← Nat.ofDigitChars_ten_toDigits (n := first), digits, Nat.ofDigitChars_ten_toDigits]

theorem toString_int_injective {first second : Int} (same : toString first = toString second) :
    first = second := by
  have minus (value digits : Nat) : value.repr ≠ "-" ++ digits.repr := by
    intro same
    have member : '-' ∈ Nat.toDigits 10 value := by
      rw [← Nat.toList_repr, same, String.toList_append]
      simp
    have isDigit := Nat.isDigit_of_mem_toDigits (by decide) (by decide) member
    simp [Char.isDigit] at isDigit
  cases first with
  | ofNat value =>
      cases second with
      | ofNat other => exact congrArg Int.ofNat (repr_injective same)
      | negSucc other => exact absurd same (minus value (other + 1))
  | negSucc value =>
      cases second with
      | ofNat other => exact absurd same.symm (minus other (value + 1))
      | negSucc other =>
          have digits : (value + 1).repr = (other + 1).repr :=
            (String.append_right_inj "-").mp same
          rw [Nat.succ.inj (repr_injective digits)]

theorem ThreadLocals.threadId_injective {first second : ThreadLocals}
    (same : first.threadId = second.threadId) :
    first.threadInPoolNumber = second.threadInPoolNumber := by
  -- What follows the last colon is the number.
  have tail (thread : ThreadLocals) :
      thread.threadId.toList.reverse.takeWhile (· ≠ ':') =
        ']' :: (toString thread.threadInPoolNumber.toInt).toList.reverse := by
    have digits : ∀ c ∈ ']' :: (toString thread.threadInPoolNumber.toInt).toList.reverse,
        decide (c ≠ ':') = true := by
      intro c member
      rcases List.mem_cons.mp member with rfl | digit
      · rfl
      · exact decide_eq_true (toString_int_ne_colon (List.mem_reverse.mp digit))
    have split : thread.threadId.toList.reverse =
        (']' :: (toString thread.threadInPoolNumber.toInt).toList.reverse) ++
          ':' :: (thread.poolName.toList.reverse ++ ['[']) := by
      simp [threadId]
    rw [split, List.takeWhile_append_of_pos digits, List.takeWhile_cons_of_neg (by simp),
      List.append_nil]
  have texts := tail first
  rw [same, tail second] at texts
  have digits := List.reverse_injective (List.cons.inj texts).2
  have numbers := toString_int_injective (String.toList_inj.mp digits)
  exact (Int32.toInt_inj.mp numbers).symm

/-- Numbers below `2 ^ 32` are different as values of an `int`. -/
theorem int32_ofNat_injective {first second : Nat} (small : first < 2 ^ 32)
    (other : second < 2 ^ 32) (same : Int32.ofNat first = Int32.ofNat second) :
    first = second := by
  have bits := congrArg Int32.toBitVec same
  rw [Int32.toBitVec_ofNat', Int32.toBitVec_ofNat'] at bits
  have values := congrArg BitVec.toNat bits
  rw [BitVec.toNat_ofNat, BitVec.toNat_ofNat, Nat.mod_eq_of_lt small, Nat.mod_eq_of_lt other]
    at values
  exact values

/-! ### All pools -/

def StartAction.isWithin : StartAction → Bool
  | .construct .. => false
  | .within .. => true

namespace Startup

/-- How pools start.  A thread that comes to the barrier has the name and the io service of
its pool.  As long as fewer than `2 ^ 32` threads have been created, no two threads have the
same id.  The constructor and the threads of a pool pass its barrier only when all threads
have been created and all have come, and a pool that has not started can go on. -/
structure Started (s : Startup) : Prop where
  located : ∀ (p : PoolId) (pool : StartingPool), s.pools[p]? = some pool →
    ∀ thread ∈ pool.threads, thread.phase.isBound = true →
      thread.locals.poolName = pool.name ∧ thread.locals.ioService = some p
  distinct : s.total (fun pool => pool.threads.length) < 2 ^ 32 →
    ∀ (p q : PoolId) (pool other : StartingPool) (i j : Nat) (first second : StartingThread),
      s.pools[p]? = some pool → s.pools[q]? = some other → pool.threads[i]? = some first →
        other.threads[j]? = some second → first.phase.isNumbered = true →
          second.phase.isNumbered = true → first.locals.threadId = second.locals.threadId →
            p = q ∧ i = j
  together : ∀ pool ∈ s.pools,
    (pool.phase = .constructed ∨ ∃ thread ∈ pool.threads, thread.phase = .running) →
      pool.threads.length = pool.threadCount ∧ pool.phase.hasArrived = true ∧
        ∀ thread ∈ pool.threads, thread.phase.hasArrived = true
  goes : ∀ (p : PoolId) (pool : StartingPool), s.pools[p]? = some pool →
    pool.phase = .constructed ∧ (∀ thread ∈ pool.threads, thread.phase = .running) ∨
      ∃ step, s.Enabled (.within p step)

structure Sound (s : Startup) : Prop where
  pools : ∀ (p : PoolId) (pool : StartingPool), s.pools[p]? = some pool → pool.Sound p
  numbers : ∃ order, s.Numbering order

variable {s : Startup} {action : StartAction}

theorem Sound.step (sound : s.Sound) (enabled : s.Enabled action)
    (contract : StartContract s action) : (s.step action).Sound := by
  obtain ⟨order, numbering⟩ := sound.numbers
  cases action with
  | construct name threadCount =>
      have size : barrierSize threadCount ≠ 0 := by
        have small : threadCount + 1 < 2 ^ 32 := contract
        rw [barrierSize, Nat.mod_eq_of_lt small]
        omega
      simp only [Startup.step, if_neg size]
      refine ⟨fun p pool here => ?_, order, numbering.construct rfl⟩
      rw [List.getElem?_append] at here
      split at here
      · exact sound.pools p pool here
      · obtain ⟨-, rfl⟩ : _ ∧ _ = pool := by simpa [List.getElem?_singleton] using here
        exact .initially name contract
  | within p step =>
      obtain ⟨pool, here, goes⟩ := enabled
      have found : s.pools[p]? = some pool := here
      simp only [Startup.step, found]
      refine ⟨fun q other member => ?_, numbering.within found (StartingPool.numberStep_next goes)⟩
      rw [List.getElem?_set] at member
      split at member
      next own =>
        subst own
        have inside := (List.getElem?_eq_some_iff.mp found).1
        obtain rfl : (pool.next p s.counter step).2 = other := by simpa [inside] using member
        exact (sound.pools p pool found).next goes
      next => exact sound.pools q other member

private theorem total_steps (enabled : s.Enabled action) :
    (s.step action).total StartingPool.steps =
      s.total StartingPool.steps + action.isWithin.toNat := by
  cases action with
  | construct name threadCount =>
      simp only [Startup.step]
      split
      · rfl
      · simp [total, ← Multiset.coe_add, StartingPool.steps, ConstructorPhase.steps,
          StartAction.isWithin]
  | within p step =>
      obtain ⟨pool, here, goes⟩ := enabled
      have found : s.pools[p]? = some pool := here
      have sum := sum_set_add found (pool.next p s.counter step).2 StartingPool.steps
      rw [StartingPool.steps_next goes] at sum
      have all : (s.step (.within p step)).total StartingPool.steps + pool.steps =
          s.total StartingPool.steps + (pool.steps + 1) := by
        simp only [Startup.step, found]
        exact sum
      rw [StartAction.isWithin, Bool.toNat_true]
      omega

theorem Sound.started (sound : s.Sound) : s.Started where
  located p pool here thread member bound := by
    have fits := (sound.pools p pool here).threads thread member
    refine ⟨fits.named fun created => ?_, fits.bound bound⟩
    simp [created, StartPhase.isBound] at bound
  distinct few p q pool other i j first second here there before behind numbered also same := by
    obtain ⟨order, numbering⟩ := sound.numbers
    obtain ⟨k, place, number⟩ := numbering.placed p pool i _ here ⟨first, before, numbered, rfl⟩
    obtain ⟨l, position, value⟩ := numbering.placed q other j _ there ⟨second, behind, also, rfl⟩
    have threads : order.length ≤ s.total (fun pool => pool.threads.length) := by
      rw [numbering.count]
      exact Multiset.sum_map_le_sum_map _ _ fun pool _ => List.countP_le_length
    have inside := (List.getElem?_eq_some_iff.mp place).1
    have within := (List.getElem?_eq_some_iff.mp position).1
    have numbers : Int32.ofNat (k + 1) = Int32.ofNat (l + 1) := by
      rw [← number, ← value, ThreadLocals.threadId_injective same]
    obtain rfl := Nat.succ.inj (int32_ofNat_injective (by omega) (by omega) numbers)
    exact Prod.mk.inj (Option.some.inj (place.symm.trans position))
  together pool member passed := by
    obtain ⟨p, here⟩ := List.getElem?_of_mem member
    exact (sound.pools p pool here).together passed
  goes p pool here := by
    rcases (sound.pools p pool here).goes with started | ⟨step, enabled⟩
    · exact .inl started
    · exact .inr ⟨step, pool, here, enabled⟩

end Startup

/-- However many pools start side by side, and however the steps of their constructors and
threads interleave: the threads of a pool serve its io service under its name and with ids
of their own, none before all have come, and no constructor returns earlier.  A pool never
hangs, and it has started after at most six steps for each thread and two for the
constructor. -/
theorem pools_start {actions : List StartAction} (legal : startSystem.Legal {} actions)
    (contract : startSystem.EveryStep StartContract {} actions) :
    startSystem.EveryState Startup.Started {} actions ∧
      actions.countP StartAction.isWithin ≤
        (startSystem.run {} actions).total fun pool => 6 * pool.threadCount + 2 := by
  have initially : ({} : Startup).Sound :=
    ⟨fun p pool here => by simp at here, [], Startup.Numbering.initially⟩
  have kept (s : Startup) (action : StartAction) (sound : s.Sound) (enabled : s.Enabled action)
      (met : StartContract s action) : (s.step action).Sound :=
    sound.step enabled met
  have states : startSystem.EveryState Startup.Sound {} actions :=
    ActionSystem.everyState_of_invariant kept initially legal contract
  refine ⟨states.imp fun s sound => sound.started, ?_⟩
  have steps : (startSystem.run {} actions).total StartingPool.steps =
      ({} : Startup).total StartingPool.steps + actions.countP StartAction.isWithin :=
    ActionSystem.countP_of_invariant (fun s : Startup => s.total StartingPool.steps)
      StartAction.isWithin kept (fun s action _ enabled _ => Startup.total_steps enabled)
      initially legal contract
  have nothing : ({} : Startup).total StartingPool.steps = 0 := rfl
  rw [nothing, Nat.zero_add] at steps
  rw [← steps]
  refine Multiset.sum_map_le_sum_map _ _ fun pool member => ?_
  obtain ⟨p, here⟩ := List.getElem?_of_mem (Multiset.mem_coe.mp member)
  exact (states.last.pools p pool here).steps_le

/-- The pools of the launcher start side by side: one thread each has come to its barrier
when the last ones are created. -/
def launcherPools : List StartAction :=
  List.flatten
    [[.construct "main" 2, .construct "net" 2, .within 0 .createThread, .within 1 .createThread],
      List.flatten (List.replicate 4 [.within 0 (.thread 0), .within 1 (.thread 0)]),
      [.within 0 .createThread, .within 1 .createThread, .within 1 .arrive, .within 0 .arrive],
      List.replicate 4 (.within 1 (.thread 1)),
      List.replicate 4 (.within 0 (.thread 1)),
      [.within 0 .pass, .within 1 .pass, .within 0 (.thread 0), .within 0 (.thread 1),
        .within 1 (.thread 1), .within 1 (.thread 0)]]

theorem pools_start_launcherPools :
    startSystem.EveryState Startup.Started {} launcherPools ∧
      launcherPools.countP StartAction.isWithin ≤
        (startSystem.run {} launcherPools).total fun pool => 6 * pool.threadCount + 2 :=
  pools_start (by decide) (by decide)

end FlatAsync
