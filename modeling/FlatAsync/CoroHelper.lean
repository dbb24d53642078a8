import FlatAsync.ActionSystem
import Mathlib.Data.List.Nodup
import Mathlib.Logic.Function.Basic

/-!
# Nested coroutines

A `CoroHelper` owns a coroutine.  A thread keeps a pointer to the coroutine it
is in, which the free functions `Yield` and `IsInsideCoroutine` read.  On the
first run of a body the pointer is set by a guard on the stack of the coroutine
and cleared when this stack is gone; later runs are entered through `Resume`,
which exchanges the pointer before and after.

This file embeds the calls that enter and leave coroutines, for any number of
objects and threads and for any nesting, and shows in which programs the
pointer names the coroutine a thread is in.
-/

namespace FlatAsync

abbrev CoroId := Nat

/-- A `CoroHelper` object: without a coroutine, with one that a thread is in, with
a suspended one, with one that has ended, or destroyed.  In the first run of a
body `coro_` is not `assigned` yet. -/
inductive Coroutine
  | empty
  | active (assigned : Bool)
  | suspended
  | finished
  | destroyed
  deriving DecidableEq, Repr

/-- Why a thread is on the stack of a coroutine: `Start` runs the body for the
first time, `Resume` runs it again, the destructor unwinds the stack, or `Start`
unwinds it before it runs the new body. -/
inductive CallKind
  | start
  | resume
  | unwind
  | restart
  deriving DecidableEq, Repr

/-- The call executes the body and not only the destructors on its stack. -/
def CallKind.runsBody : CallKind → Bool
  | .start | .resume => true
  | .unwind | .restart => false

/-- A call into a coroutine that has not returned.  `before` is the pointer at
the time of the call; only `Resume` reads it again. -/
structure CoroCall where
  kind : CallKind
  coro : CoroId
  before : Option CoroId
  deriving DecidableEq, Repr

/-- `pointer` is `thrd_ptr_coro_helper`; `stack` lists the calls the thread is in,
the latest first. -/
structure CoroThread where
  pointer : Option CoroId := none
  stack : List CoroCall := []
  deriving DecidableEq, Repr

/-- `undefined` is set by a `Yield` that does not reach the coroutine it is called
in. -/
structure CoroState where
  coros : CoroId → Coroutine := fun _ => .empty
  threads : Nat → CoroThread := fun _ => {}
  undefined : Bool := false

namespace CoroState

/-- Thread `t` and object `c` are changed. -/
def put (s : CoroState) (t : Nat) (thread : CoroThread) (c : CoroId) (coro : Coroutine) :
    CoroState :=
  { s with
    threads := Function.update s.threads t thread
    coros := Function.update s.coros c coro }

section Simp

variable (s : CoroState) (t : Nat) (thread : CoroThread) (c : CoroId) (coro : Coroutine)

@[simp] theorem put_threads :
    (s.put t thread c coro).threads = Function.update s.threads t thread := rfl
@[simp] theorem put_coros : (s.put t thread c coro).coros = Function.update s.coros c coro := rfl
@[simp] theorem put_undefined : (s.put t thread c coro).undefined = s.undefined := rfl

end Simp

/-- `IsInsideCoroutine` -/
def isInsideCoroutine (s : CoroState) (t : Nat) : Bool :=
  (s.threads t).pointer.isSome

/-- Thread `t` gets on the stack of coroutine `c`. -/
def enter (s : CoroState) (t : Nat) (kind : CallKind) (c : CoroId) (pointer : Option CoroId)
    (assigned : Bool) : CoroState :=
  s.put t
    { pointer := pointer
      stack := ⟨kind, c, (s.threads t).pointer⟩ :: (s.threads t).stack }
    c (.active assigned)

/-- Control leaves the stack of the coroutine of `call`. -/
def leave (s : CoroState) (t : Nat) (call : CoroCall) (rest : List CoroCall)
    (pointer : Option CoroId) (coro : Coroutine) : CoroState :=
  s.put t { pointer := pointer, stack := rest } call.coro coro

/-- `CoroHelper::Start`, also as part of the constructor: a suspended coroutine is
unwound first; then the guard of the new one sets the pointer. -/
def start (s : CoroState) (t : Nat) (c : CoroId) : CoroState :=
  match s.coros c with
  | .suspended => s.enter t .restart c (s.threads t).pointer false
  | .empty | .active _ | .finished | .destroyed => s.enter t .start c (some c) false

/-- `CoroHelper::Resume` -/
def resume (s : CoroState) (t : Nat) (c : CoroId) : CoroState :=
  match s.coros c with
  | .suspended => s.enter t .resume c (some c) true
  | .empty | .active _ | .finished | .destroyed => s

/-- `CoroHelper::~CoroHelper` -/
def destroy (s : CoroState) (t : Nat) (c : CoroId) : CoroState :=
  match s.coros c with
  | .suspended => s.enter t .unwind c (s.threads t).pointer true
  | .empty | .active _ | .finished | .destroyed => s.put t (s.threads t) c .destroyed

/-- `CoroHelper::Yield` of the coroutine that thread `t` is in: control returns to
`Start`, or to `Resume`, which exchanges the pointers again. -/
def yieldCoro (s : CoroState) (t : Nat) : CoroState :=
  match (s.threads t).stack with
  | [] => s
  | call :: rest =>
      match call.kind with
      | .resume => s.leave t call rest call.before .suspended
      | .start | .unwind | .restart => s.leave t call rest (s.threads t).pointer .suspended

/-- The free function `Yield`, which calls `CoroHelper::Yield` through the
pointer.  What happens on a null pointer or in a foreign coroutine is not
defined. -/
def yield (s : CoroState) (t : Nat) : CoroState :=
  if (s.threads t).pointer = ((s.threads t).stack.head?.map (·.coro)) then
    s.yieldCoro t
  else
    { s with undefined := true }

/-- The body returns: the guard clears the pointer, and `Resume` restores it. -/
def finish (s : CoroState) (t : Nat) : CoroState :=
  match (s.threads t).stack with
  | [] => s
  | call :: rest =>
      match call.kind with
      | .resume => s.leave t call rest call.before .finished
      | .start | .unwind | .restart => s.leave t call rest none .finished

/-- An exception leaves the body and goes on in the caller: the guard clears the
pointer, and the second exchange in `Resume` is skipped. -/
def throw (s : CoroState) (t : Nat) : CoroState :=
  match (s.threads t).stack with
  | [] => s
  | call :: rest =>
      match call.kind with
      | .resume => s.leave t call rest none .finished
      | .start | .unwind | .restart => s.leave t call rest none .empty

/-- The stack of a coroutine is gone, and with it the guard, which clears the
pointer.  `Start` goes on with the new body. -/
def unwound (s : CoroState) (t : Nat) : CoroState :=
  match (s.threads t).stack with
  | [] => s
  | call :: rest =>
      match call.kind with
      | .restart =>
          s.put t
            { pointer := some call.coro, stack := ⟨.start, call.coro, call.before⟩ :: rest }
            call.coro (.active false)
      | .start | .resume | .unwind => s.leave t call rest none .destroyed

end CoroState

/-- `yieldCoro` is `CoroHelper::Yield`, `yield` the free function `Yield`. -/
inductive CoroAction
  | start (thread : Nat) (coro : CoroId)
  | resume (thread : Nat) (coro : CoroId)
  | destroy (thread : Nat) (coro : CoroId)
  | yield (thread : Nat)
  | yieldCoro (thread : Nat)
  | finish (thread : Nat)
  | throw (thread : Nat)
  | unwound (thread : Nat)
  deriving DecidableEq, Repr

namespace CoroState

/-- The kind of the latest call of thread `t`, if it is in a coroutine. -/
def kind (s : CoroState) (t : Nat) : Option CallKind :=
  (s.threads t).stack.head?.map (·.kind)

/-- The body of a coroutine is executed by thread `t`. -/
def inBody (s : CoroState) (t : Nat) : Bool :=
  (s.kind t).any CallKind.runsBody

/-- Calls are made on objects that exist and whose coroutine no thread is in;
`Resume` in the first run of the coroutine finds `coro_` empty.  Bodies yield
and end. -/
def Guard (s : CoroState) : CoroAction → Prop
  | .start _ c | .destroy _ c =>
      s.coros c ≠ .active false ∧ s.coros c ≠ .active true ∧ s.coros c ≠ .destroyed
  | .resume _ c => s.coros c ≠ .active true ∧ s.coros c ≠ .destroyed
  | .yield t | .yieldCoro t | .finish t | .throw t => s.inBody t = true
  | .unwound t => s.kind t = some .unwind ∨ s.kind t = some .restart

instance (s : CoroState) : ∀ action, Decidable (s.Guard action)
  | .start .. | .destroy .. | .resume .. => inferInstanceAs (Decidable (_ ∧ _))
  | .yield _ | .yieldCoro _ | .finish _ | .throw _ => inferInstanceAs (Decidable (_ = _))
  | .unwound _ => inferInstanceAs (Decidable (_ ∨ _))

def Enabled (s : CoroState) (action : CoroAction) : Prop :=
  s.undefined = false ∧ s.Guard action

instance (s : CoroState) (action : CoroAction) : Decidable (s.Enabled action) :=
  inferInstanceAs (Decidable (_ ∧ _))

def step (s : CoroState) : CoroAction → CoroState
  | .start t c => s.start t c
  | .resume t c => s.resume t c
  | .destroy t c => s.destroy t c
  | .yield t => s.yield t
  | .yieldCoro t => s.yieldCoro t
  | .finish t => s.finish t
  | .throw t => s.throw t
  | .unwound t => s.unwound t

end CoroState

def coroSystem : ActionSystem CoroState CoroAction where
  enabled := CoroState.Enabled
  next := CoroState.step

instance (s : CoroState) (action : CoroAction) : Decidable (coroSystem.enabled s action) :=
  inferInstanceAs (Decidable (s.Enabled action))

/-! ### The discipline -/

/-- Where a call returns, normally or by an exception, the pointer is what it was
before the call. -/
def PointerRestored (s : CoroState) (action : CoroAction) : Prop :=
  ∀ t call rest, (s.threads t).stack = call :: rest →
    ((s.step action).threads t).stack = rest →
      ((s.step action).threads t).pointer = call.before

/-- The free function `Yield` suspends the coroutine it is called in and returns
control to the caller of the latest `Start` or `Resume` of this coroutine. -/
def YieldSuspends (s : CoroState) (action : CoroAction) : Prop :=
  ∀ t call rest, action = .yield t → (s.threads t).stack = call :: rest →
    (s.step action).coros call.coro = .suspended ∧ ((s.step action).threads t).stack = rest

/-- A thread outside all coroutines knows that it is. -/
def OutsideAtTopLevel (s : CoroState) : Prop :=
  ∀ t, (s.threads t).stack = [] → s.isInsideCoroutine t = false

/-- The coroutine whose body a thread executes; unwinding a stack enters none. -/
def currentCoro : List CoroCall → Option CoroId
  | [] => none
  | call :: rest => if call.kind.runsBody then some call.coro else currentCoro rest

/-- The step clears the pointer, or leaves it behind, only where this is right:
no body yields in its first run, and a first run ends, an exception leaves a
body and a destroyed stack is gone only in calls made outside all coroutines. -/
def NestsCleanly (s : CoroState) : CoroAction → Prop
  | .yield t | .yieldCoro t => s.kind t = some .resume
  | .finish t => s.kind t = some .resume ∨ currentCoro (s.threads t).stack.tail = none
  | .throw t => currentCoro (s.threads t).stack.tail = none
  | .unwound t => s.kind t = some .restart ∨ currentCoro (s.threads t).stack.tail = none
  | .start .. | .resume .. | .destroy .. => True

instance (s : CoroState) : ∀ action, Decidable (NestsCleanly s action)
  | .yield _ | .yieldCoro _ | .throw _ => inferInstanceAs (Decidable (_ = _))
  | .finish _ | .unwound _ => inferInstanceAs (Decidable (_ ∨ _))
  | .start .. | .resume .. | .destroy .. => inferInstanceAs (Decidable True)

/-! ### The pointer names the current coroutine -/

/-- Each call was made from the coroutine that is current in the calls below. -/
def Nested : List CoroCall → Prop
  | [] => True
  | call :: rest => call.before = currentCoro rest ∧ Nested rest

def CoroThread.coros (thread : CoroThread) : List CoroId :=
  thread.stack.map (·.coro)

private theorem currentCoro_mem {calls : List CoroCall} {c : CoroId}
    (current : currentCoro calls = some c) :
    c ∈ calls.map (·.coro) := by
  induction calls with
  | nil => cases current
  | cons call rest ih =>
      unfold currentCoro at current
      split at current
      · cases current
        simp
      · exact List.mem_cons_of_mem _ (ih current)

structure CallsApart (s : CoroState) : Prop where
  active : ∀ t, ∀ c ∈ (s.threads t).coros, ∃ assigned, s.coros c = .active assigned
  nodup : ∀ t, (s.threads t).coros.Nodup
  apart : ∀ t u, ∀ c ∈ (s.threads t).coros, c ∈ (s.threads u).coros → t = u

namespace CallsApart

variable {s : CoroState} {t : Nat} {c : CoroId} {call : CoroCall} {rest : List CoroCall}

theorem enter (calls : CallsApart s) (inactive : ∀ assigned, s.coros c ≠ .active assigned)
    {kind : CallKind} {pointer : Option CoroId} (assigned : Bool) :
    CallsApart (s.enter t kind c pointer assigned) := by
  have outside : ∀ u, c ∉ (s.threads u).coros := by
    intro u member
    obtain ⟨assigned, active⟩ := calls.active u c member
    exact inactive assigned active
  have old : ∀ u, ∀ other ∈ ((s.enter t kind c pointer assigned).threads u).coros,
      other = c ∧ u = t ∨ other ≠ c ∧ other ∈ (s.threads u).coros := by
    intro u other member
    by_cases here : u = t
    · subst here
      have split : other = c ∨ other ∈ (s.threads u).coros := by
        simpa [CoroState.enter, CoroThread.coros] using member
      rcases split with rfl | before
      · exact .inl ⟨rfl, rfl⟩
      · exact .inr ⟨fun same => outside u (same ▸ before), before⟩
    · have before : other ∈ (s.threads u).coros := by
        simpa [CoroState.enter, here] using member
      exact .inr ⟨fun same => outside u (same ▸ before), before⟩
  constructor
  · intro u other member
    rcases old u other member with ⟨rfl, -⟩ | ⟨different, before⟩
    · exact ⟨assigned, by simp [CoroState.enter]⟩
    · simpa [CoroState.enter, different] using calls.active u other before
  · intro u
    by_cases here : u = t
    · subst here
      simpa [CoroState.enter, CoroThread.coros] using
        And.intro (outside u) (calls.nodup u)
    · simpa [CoroState.enter, here] using calls.nodup u
  · intro u v other member also
    rcases old u other member with ⟨rfl, rfl⟩ | ⟨different, before⟩
    · rcases old v other also with ⟨-, rfl⟩ | ⟨different, -⟩
      · rfl
      · exact absurd rfl different
    · rcases old v other also with ⟨rfl, -⟩ | ⟨-, after⟩
      · exact absurd rfl different
      · exact calls.apart u v other before after

/-- The coroutine on top of the stack of a thread is not entered below. -/
theorem fresh (calls : CallsApart s) (top : (s.threads t).stack = call :: rest) :
    call.coro ∉ rest.map (·.coro) := by
  have unique := calls.nodup t
  simp only [CoroThread.coros, top, List.map_cons] at unique
  exact (List.nodup_cons.mp unique).1

theorem leave (calls : CallsApart s) (top : (s.threads t).stack = call :: rest)
    {pointer : Option CoroId} (coro : Coroutine) :
    CallsApart (s.leave t call rest pointer coro) := by
  have here : (s.threads t).coros = call.coro :: rest.map (·.coro) := by
    simp [CoroThread.coros, top]
  have fresh := calls.fresh top
  have unique := (List.nodup_cons.mp (here ▸ calls.nodup t)).2
  have old : ∀ u, ∀ other ∈ ((s.leave t call rest pointer coro).threads u).coros,
      other ≠ call.coro ∧ other ∈ (s.threads u).coros := by
    intro u other member
    by_cases same : u = t
    · subst same
      have below : other ∈ rest.map (·.coro) := by
        simpa [CoroState.leave, CoroThread.coros] using member
      exact ⟨fun equal => fresh (equal ▸ below), here ▸ List.mem_cons_of_mem _ below⟩
    · have before : other ∈ (s.threads u).coros := by
        simpa [CoroState.leave, same] using member
      refine ⟨?_, before⟩
      rintro rfl
      exact same (calls.apart u t _ before (here ▸ List.mem_cons_self))
  constructor
  · intro u other member
    obtain ⟨different, before⟩ := old u other member
    simpa [CoroState.leave, different] using calls.active u other before
  · intro u
    by_cases same : u = t
    · subst same
      simpa [CoroState.leave, CoroThread.coros] using unique
    · simpa [CoroState.leave, same] using calls.nodup u
  · intro u v other member also
    exact calls.apart u v other (old u other member).2 (old v other also).2

/-- The new body of a restarted coroutine takes the place of the old stack. -/
theorem rerun (calls : CallsApart s) (top : (s.threads t).stack = call :: rest) :
    CallsApart
      (s.put t { pointer := some call.coro, stack := ⟨.start, call.coro, call.before⟩ :: rest }
        call.coro (.active false)) := by
  have coros : ∀ u, ((s.put t
      { pointer := some call.coro, stack := ⟨.start, call.coro, call.before⟩ :: rest }
        call.coro (.active false)).threads u).coros = (s.threads u).coros := by
    intro u
    by_cases same : u = t
    · subst same
      simp [CoroThread.coros, top]
    · simp [same]
  constructor
  · intro u other member
    rw [coros] at member
    by_cases same : other = call.coro
    · exact ⟨false, by simp [same]⟩
    · simpa [same] using calls.active u other member
  · intro u
    rw [coros]
    exact calls.nodup u
  · intro u v other
    rw [coros, coros]
    exact calls.apart u v other

theorem discard (calls : CallsApart s) (inactive : ∀ assigned, s.coros c ≠ .active assigned) :
    CallsApart (s.put t (s.threads t) c .destroyed) := by
  have threads : (s.put t (s.threads t) c .destroyed).threads = s.threads := by simp
  constructor
  · rw [threads]
    intro u other member
    obtain ⟨assigned, active⟩ := calls.active u other member
    have different : other ≠ c := by
      rintro rfl
      exact inactive assigned active
    exact ⟨assigned, by simpa [different] using active⟩
  · rw [threads]
    exact calls.nodup
  · rw [threads]
    exact calls.apart

end CallsApart

/-- The pointer of every thread names its current coroutine, and no coroutine is
entered twice. -/
structure CoroInvariant (s : CoroState) : Prop where
  pointer : ∀ t, (s.threads t).pointer = currentCoro (s.threads t).stack
  nested : ∀ t, Nested (s.threads t).stack
  active : ∀ t, ∀ c ∈ (s.threads t).coros, ∃ assigned, s.coros c = .active assigned
  nodup : ∀ t, (s.threads t).coros.Nodup
  apart : ∀ t u, ∀ c ∈ (s.threads t).coros, c ∈ (s.threads u).coros → t = u

namespace CoroInvariant

variable {s : CoroState} {action : CoroAction} {t : Nat} {c : CoroId}
variable {call : CoroCall} {rest : List CoroCall}

theorem initial : CoroInvariant {} where
  pointer _ := rfl
  nested _ := trivial
  active _ _ member := by cases member
  nodup _ := List.nodup_nil
  apart _ _ _ member := by cases member

theorem calls (inv : CoroInvariant s) : CallsApart s :=
  ⟨inv.active, inv.nodup, inv.apart⟩

theorem enter (inv : CoroInvariant s) (inactive : ∀ assigned, s.coros c ≠ .active assigned)
    {kind : CallKind} {pointer : Option CoroId} (assigned : Bool)
    (current : pointer = if kind.runsBody then some c else currentCoro (s.threads t).stack) :
    CoroInvariant (s.enter t kind c pointer assigned) := by
  obtain ⟨active, nodup, apart⟩ := inv.calls.enter inactive assigned
  refine ⟨fun u => ?_, fun u => ?_, active, nodup, apart⟩
  · by_cases here : u = t
    · subst here
      simpa [CoroState.enter, currentCoro] using current
    · simpa [CoroState.enter, here] using inv.pointer u
  · by_cases here : u = t
    · subst here
      simpa [CoroState.enter, Nested] using And.intro (inv.pointer u) (inv.nested u)
    · simpa [CoroState.enter, here] using inv.nested u

theorem leave (inv : CoroInvariant s) (top : (s.threads t).stack = call :: rest)
    {pointer : Option CoroId} (coro : Coroutine) (current : pointer = currentCoro rest) :
    CoroInvariant (s.leave t call rest pointer coro) := by
  obtain ⟨active, nodup, apart⟩ := inv.calls.leave top coro
  refine ⟨fun u => ?_, fun u => ?_, active, nodup, apart⟩
  · by_cases same : u = t
    · subst same
      simpa [CoroState.leave] using current
    · simpa [CoroState.leave, same] using inv.pointer u
  · by_cases same : u = t
    · subst same
      have nested := inv.nested u
      rw [top] at nested
      simpa [CoroState.leave] using nested.2
    · simpa [CoroState.leave, same] using inv.nested u

/-- The new body of a restarted coroutine takes the place of the old stack. -/
theorem rerun (inv : CoroInvariant s) (top : (s.threads t).stack = call :: rest) :
    CoroInvariant
      (s.put t { pointer := some call.coro, stack := ⟨.start, call.coro, call.before⟩ :: rest }
        call.coro (.active false)) := by
  obtain ⟨active, nodup, apart⟩ := inv.calls.rerun top
  refine ⟨fun u => ?_, fun u => ?_, active, nodup, apart⟩
  · by_cases same : u = t
    · subst same
      simp [currentCoro, CallKind.runsBody]
    · simpa [same] using inv.pointer u
  · by_cases same : u = t
    · subst same
      have nested := inv.nested u
      rw [top] at nested
      simpa [Nested] using nested
    · simpa [same] using inv.nested u

theorem discard (inv : CoroInvariant s) (inactive : ∀ assigned, s.coros c ≠ .active assigned) :
    CoroInvariant (s.put t (s.threads t) c .destroyed) := by
  have threads : (s.put t (s.threads t) c .destroyed).threads = s.threads := by simp
  obtain ⟨active, nodup, apart⟩ := inv.calls.discard inactive
  refine ⟨?_, ?_, active, nodup, apart⟩
  · rw [threads]
    exact inv.pointer
  · rw [threads]
    exact inv.nested

/-- The coroutine on top of the stack of a thread is not current below. -/
theorem below (inv : CoroInvariant s) (top : (s.threads t).stack = call :: rest) :
    currentCoro rest ≠ some call.coro := by
  intro current
  exact inv.calls.fresh top (currentCoro_mem current)

theorem before (inv : CoroInvariant s) (top : (s.threads t).stack = call :: rest) :
    call.before = currentCoro rest := by
  have nested := inv.nested t
  rw [top] at nested
  exact nested.1

end CoroInvariant

namespace CoroState

variable {s : CoroState} {action : CoroAction} {t : Nat} {call : CoroCall} {rest : List CoroCall}

theorem inBody_top (body : s.inBody t = true) : ∃ call rest, (s.threads t).stack = call :: rest ∧
    (call.kind = .start ∨ call.kind = .resume) := by
  cases top : (s.threads t).stack with
  | nil => simp [inBody, kind, top] at body
  | cons call rest =>
      refine ⟨call, rest, rfl, ?_⟩
      cases same : call.kind with
      | start => exact .inl rfl
      | resume => exact .inr rfl
      | unwind | restart => simp [inBody, kind, top, same, CallKind.runsBody] at body

theorem kind_top {kind : CallKind} (same : s.kind t = some kind) :
    ∃ call rest, (s.threads t).stack = call :: rest ∧ call.kind = kind := by
  cases top : (s.threads t).stack with
  | nil => simp [CoroState.kind, top] at same
  | cons call rest => exact ⟨call, rest, rfl, by simpa [CoroState.kind, top] using same⟩

theorem restored_of_longer
    (longer : ∀ u, (s.threads u).stack.length ≤ ((s.step action).threads u).stack.length) :
    PointerRestored s action := by
  intro u call rest top after
  have length := longer u
  rw [top, after, List.length_cons] at length
  omega

theorem length_put {thread : CoroThread} {c : CoroId} {coro : Coroutine}
    (longer : (s.threads t).stack.length ≤ thread.stack.length) (u : Nat) :
    (s.threads u).stack.length ≤ ((s.put t thread c coro).threads u).stack.length := by
  by_cases here : u = t
  · subst here
    simpa using longer
  · simp [here]

theorem length_enter {kind : CallKind} {c : CoroId} {pointer : Option CoroId} {assigned : Bool}
    (u : Nat) : (s.threads u).stack.length ≤
      ((s.enter t kind c pointer assigned).threads u).stack.length :=
  length_put (by simp) u

/-- A call of a member function of a coroutine takes no call off a stack. -/
theorem length_call {c : CoroId}
    (calls : action = .start t c ∨ action = .resume t c ∨ action = .destroy t c) (u : Nat) :
    (s.threads u).stack.length ≤ ((s.step action).threads u).stack.length := by
  rcases calls with rfl | rfl | rfl
  · simp only [step, start]
    split <;> exact length_enter u
  · cases coro : s.coros c <;> simp only [step, resume, coro]
    case suspended => exact length_enter u
    all_goals exact Nat.le_refl _
  · cases coro : s.coros c <;> simp only [step, destroy, coro]
    case suspended => exact length_enter u
    all_goals exact length_put (Nat.le_refl _) u

/-- A step that takes a call off a stack restores the pointer when it sets it to
what it was before this call. -/
theorem restored_iff_of_leave {pointer : Option CoroId} {coro : Coroutine}
    (top : (s.threads t).stack = call :: rest)
    (leaves : s.step action = s.leave t call rest pointer coro) :
    PointerRestored s action ↔ pointer = call.before := by
  constructor
  · intro restored
    simpa [leaves, leave] using restored t call rest top (by simp [leaves, leave])
  · intro same u other below found after
    by_cases here : u = t
    · subst here
      cases top.symm.trans found
      simpa [leaves, leave] using same
    · simp only [leaves, leave, put_threads, Function.update_of_ne here] at after
      have impossible := congrArg List.length (found.symm.trans after)
      simp at impossible

end CoroState

namespace CoroInvariant

variable {s : CoroState} {action : CoroAction} {t : Nat} {c : CoroId}
variable {call : CoroCall} {rest : List CoroCall}

theorem inactive (notFirst : s.coros c ≠ .active false) (notLater : s.coros c ≠ .active true) :
    ∀ assigned, s.coros c ≠ .active assigned := by
  intro assigned
  cases assigned
  · exact notFirst
  · exact notLater

/-- In a body the free function `Yield` reaches the coroutine it is called in. -/
theorem yield_eq (inv : CoroInvariant s) (body : s.inBody t = true) :
    s.yield t = s.yieldCoro t := by
  obtain ⟨call, rest, top, kind⟩ := CoroState.inBody_top body
  have pointer := inv.pointer t
  have runs : call.kind.runsBody = true := by
    rcases kind with kind | kind <;> simp [kind, CallKind.runsBody]
  rw [top, currentCoro, if_pos runs] at pointer
  rw [CoroState.yield, if_pos (by simp [top, pointer])]

theorem resumed_yieldCoro (top : (s.threads t).stack = call :: rest) (kind : call.kind = .resume) :
    s.yieldCoro t = s.leave t call rest call.before .suspended := by
  simp [CoroState.yieldCoro, top, kind]

theorem started_yieldCoro (top : (s.threads t).stack = call :: rest) (kind : call.kind = .start) :
    s.yieldCoro t = s.leave t call rest (s.threads t).pointer .suspended := by
  simp [CoroState.yieldCoro, top, kind]

theorem yieldCoro (inv : CoroInvariant s) (clean : s.kind t = some .resume) :
    CoroInvariant (s.yieldCoro t) := by
  obtain ⟨call, rest, top, kind⟩ := CoroState.kind_top clean
  rw [resumed_yieldCoro top kind]
  exact inv.leave top .suspended (inv.before top)

theorem step (inv : CoroInvariant s) (enabled : s.Enabled action) (clean : NestsCleanly s action) :
    CoroInvariant (s.step action) := by
  have guard := enabled.2
  cases action with
  | start t c =>
      have idle := inactive guard.1 guard.2.1
      cases coro : s.coros c with
      | suspended =>
          simp only [CoroState.step, CoroState.start, coro]
          exact inv.enter idle false (by simpa [CallKind.runsBody] using inv.pointer t)
      | empty | finished | active | destroyed =>
          simp only [CoroState.step, CoroState.start, coro]
          exact inv.enter idle false (by simp [CallKind.runsBody])
  | resume t c =>
      cases coro : s.coros c with
      | suspended =>
          simp only [CoroState.step, CoroState.resume, coro]
          exact inv.enter (by simp [coro]) true (by simp [CallKind.runsBody])
      | empty | finished | active | destroyed => simpa [CoroState.step, CoroState.resume, coro]
  | destroy t c =>
      have idle := inactive guard.1 guard.2.1
      cases coro : s.coros c with
      | suspended =>
          simp only [CoroState.step, CoroState.destroy, coro]
          exact inv.enter idle true (by simpa [CallKind.runsBody] using inv.pointer t)
      | empty | finished | active | destroyed =>
          simp only [CoroState.step, CoroState.destroy, coro]
          exact inv.discard idle
  | yield t =>
      rw [CoroState.step, inv.yield_eq guard]
      exact inv.yieldCoro clean
  | yieldCoro t => exact inv.yieldCoro clean
  | finish t =>
      obtain ⟨call, rest, top, kind | kind⟩ := CoroState.inBody_top guard
      · have outside : currentCoro rest = none := by
          simpa [NestsCleanly, CoroState.kind, top, kind] using clean
        simp only [CoroState.step, CoroState.finish, top, kind]
        exact inv.leave top .finished outside.symm
      · simp only [CoroState.step, CoroState.finish, top, kind]
        exact inv.leave top .finished (inv.before top)
  | throw t =>
      obtain ⟨call, rest, top, kind⟩ := CoroState.inBody_top guard
      have outside : currentCoro rest = none := by
        simpa [NestsCleanly, top] using clean
      rcases kind with kind | kind <;> simp only [CoroState.step, CoroState.throw, top, kind]
      · exact inv.leave top .empty outside.symm
      · exact inv.leave top .finished outside.symm
  | unwound t =>
      rcases guard with unwinds | restarts
      · obtain ⟨call, rest, top, kind⟩ := CoroState.kind_top unwinds
        have outside : currentCoro rest = none := by
          simpa [NestsCleanly, CoroState.kind, top, kind] using clean
        simp only [CoroState.step, CoroState.unwound, top, kind]
        exact inv.leave top .destroyed outside.symm
      · obtain ⟨call, rest, top, kind⟩ := CoroState.kind_top restarts
        simp only [CoroState.step, CoroState.unwound, top, kind]
        exact inv.rerun top

/-- A step whose only call off a stack is that of `leaves` restores the pointer
exactly when the pointer it sets is the current coroutine below. -/
theorem restored_iff (inv : CoroInvariant s) {pointer : Option CoroId} {coro : Coroutine}
    (top : (s.threads t).stack = call :: rest)
    (leaves : s.step action = s.leave t call rest pointer coro) :
    PointerRestored s action ↔ pointer = currentCoro rest := by
  rw [CoroState.restored_iff_of_leave top leaves, inv.before top]

/-- A coroutine that yields in its first run leaves its own name behind. -/
theorem yield_restored_iff (inv : CoroInvariant s) (body : s.inBody t = true)
    (yields : s.step action = s.yieldCoro t) :
    PointerRestored s action ↔ s.kind t = some .resume := by
  obtain ⟨call, rest, top, kind⟩ := CoroState.inBody_top body
  rcases kind with kind | kind
  · rw [started_yieldCoro top kind] at yields
    rw [inv.restored_iff top yields, inv.pointer t, top, currentCoro]
    simp [kind, CallKind.runsBody, CoroState.kind, top, Ne.symm (inv.below top)]
  · rw [resumed_yieldCoro top kind] at yields
    rw [inv.restored_iff top yields]
    simp [CoroState.kind, top, kind, inv.before top]

/-- The free function `Yield` suspends its coroutine wherever the pointers are
right. -/
theorem yieldSuspends (inv : CoroInvariant s) (enabled : s.Enabled action) :
    YieldSuspends s action := by
  rintro t call rest rfl top
  have body : s.inBody t = true := enabled.2
  obtain ⟨other, below, found, kind⟩ := CoroState.inBody_top body
  cases top.symm.trans found
  rw [CoroState.step, inv.yield_eq body]
  rcases kind with kind | kind
  · rw [started_yieldCoro top kind]
    simp [CoroState.leave]
  · rw [resumed_yieldCoro top kind]
    simp [CoroState.leave]

/-- Where the pointers are right, the clean steps are those that restore them. -/
theorem restored_iff_clean (inv : CoroInvariant s) (enabled : s.Enabled action) :
    PointerRestored s action ↔ NestsCleanly s action := by
  have guard := enabled.2
  cases action with
  | start t c =>
      exact iff_of_true (CoroState.restored_of_longer (CoroState.length_call (.inl rfl))) trivial
  | resume t c =>
      exact iff_of_true
        (CoroState.restored_of_longer (CoroState.length_call (.inr (.inl rfl)))) trivial
  | destroy t c =>
      exact iff_of_true
        (CoroState.restored_of_longer (CoroState.length_call (.inr (.inr rfl)))) trivial
  | yield t => exact inv.yield_restored_iff guard (inv.yield_eq guard)
  | yieldCoro t => exact inv.yield_restored_iff guard rfl
  | finish t =>
      obtain ⟨call, rest, top, kind | kind⟩ := CoroState.inBody_top guard
      · have leaves : s.step (.finish t) = s.leave t call rest none .finished := by
          simp [CoroState.step, CoroState.finish, top, kind]
        rw [inv.restored_iff top leaves]
        simp [NestsCleanly, CoroState.kind, top, kind, eq_comm]
      · have leaves : s.step (.finish t) = s.leave t call rest call.before .finished := by
          simp [CoroState.step, CoroState.finish, top, kind]
        rw [inv.restored_iff top leaves]
        simp [NestsCleanly, CoroState.kind, top, kind, inv.before top]
  | throw t =>
      obtain ⟨call, rest, top, kind⟩ := CoroState.inBody_top guard
      have leaves : ∃ coro, s.step (.throw t) = s.leave t call rest none coro := by
        rcases kind with kind | kind
        · exact ⟨.empty, by simp [CoroState.step, CoroState.throw, top, kind]⟩
        · exact ⟨.finished, by simp [CoroState.step, CoroState.throw, top, kind]⟩
      obtain ⟨coro, leaves⟩ := leaves
      rw [inv.restored_iff top leaves]
      simp [NestsCleanly, top, eq_comm]
  | unwound t =>
      rcases guard with unwinds | restarts
      · obtain ⟨call, rest, top, kind⟩ := CoroState.kind_top unwinds
        have leaves : s.step (.unwound t) = s.leave t call rest none .destroyed := by
          simp [CoroState.step, CoroState.unwound, top, kind]
        rw [inv.restored_iff top leaves]
        simp [NestsCleanly, CoroState.kind, top, kind, eq_comm]
      · refine iff_of_true (CoroState.restored_of_longer ?_) (.inl restarts)
        obtain ⟨call, rest, top, kind⟩ := CoroState.kind_top restarts
        simp only [CoroState.step, CoroState.unwound, top, kind]
        exact CoroState.length_put (by simp [top])

theorem outside (inv : CoroInvariant s) : OutsideAtTopLevel s := by
  intro t top
  simp [CoroState.isInsideCoroutine, inv.pointer t, top, currentCoro]

end CoroInvariant

/-- A run is disciplined exactly when every step of it nests cleanly. -/
theorem disciplined_iff_clean {actions : List CoroAction} (legal : coroSystem.Legal {} actions) :
    (coroSystem.EveryStep (fun s action => PointerRestored s action ∧ YieldSuspends s action)
        {} actions ∧ coroSystem.EveryState OutsideAtTopLevel {} actions) ↔
      coroSystem.EveryStep NestsCleanly {} actions := by
  refine ActionSystem.everyStep_and_everyState_iff
    (fun state (inv : CoroInvariant state) => inv.outside) ?_ ?_ ?_ CoroInvariant.initial legal
  · exact fun _ _ inv enabled clean => inv.step enabled clean
  · exact fun _ _ inv enabled clean =>
      ⟨(inv.restored_iff_clean enabled).mpr clean, inv.yieldSuspends enabled⟩
  · -- A call that is not clean does not restore the pointer, whatever it leaves behind.
    intro state action inv enabled unclean disciplined
    exact absurd ((inv.restored_iff_clean enabled).mp disciplined.1) unclean

/-! ### What is left of the discipline -/

/-- No body yields, and a body ends only where its thread is in no other call
into a coroutine. -/
def EndsAtTopLevel (s : CoroState) : CoroAction → Prop
  | .yield _ | .yieldCoro _ => False
  | .finish t | .throw t => (s.threads t).stack.tail = []
  | .start .. | .resume .. | .destroy .. | .unwound _ => True

instance (s : CoroState) : ∀ action, Decidable (EndsAtTopLevel s action)
  | .yield _ | .yieldCoro _ => inferInstanceAs (Decidable False)
  | .finish _ | .throw _ => inferInstanceAs (Decidable (_ = _))
  | .start .. | .resume .. | .destroy .. | .unwound _ => inferInstanceAs (Decidable True)

/-- As a coroutine is suspended for the first time in its first run, clean runs
have first runs only. -/
structure FirstRuns (s : CoroState) : Prop where
  unsuspended : ∀ c, s.coros c ≠ .suspended
  started : ∀ t, ∀ call ∈ (s.threads t).stack, call.kind = .start

namespace FirstRuns

variable {s : CoroState} {action : CoroAction} {t : Nat}

theorem initial : FirstRuns {} where
  unsuspended _ := nofun
  started _ _ member := by cases member

theorem kind_eq (first : FirstRuns s) {kind : CallKind} (same : s.kind t = some kind) :
    kind = .start := by
  obtain ⟨call, rest, top, rfl⟩ := CoroState.kind_top same
  exact first.started t call (by simp [top])

private theorem currentCoro_eq_none {calls : List CoroCall}
    (started : ∀ call ∈ calls, call.kind = .start) :
    currentCoro calls = none ↔ calls = [] := by
  cases calls with
  | nil => simp [currentCoro]
  | cons call rest => simp [currentCoro, started call, CallKind.runsBody]

private theorem clean_iff (first : FirstRuns s) (enabled : s.Enabled action) :
    NestsCleanly s action ↔ EndsAtTopLevel s action := by
  have outside : ∀ t, currentCoro (s.threads t).stack.tail = none ↔ (s.threads t).stack.tail = [] :=
    fun t => currentCoro_eq_none fun call member =>
      first.started t call (List.mem_of_mem_tail member)
  cases action with
  | start t c | resume t c | destroy t c => exact Iff.rfl
  | yield t | yieldCoro t =>
      refine iff_of_false (fun clean => ?_) id
      cases first.kind_eq clean
  | finish t =>
      constructor
      · rintro (resumed | ended)
        · cases first.kind_eq resumed
        · exact (outside t).mp ended
      · exact fun ended => .inr ((outside t).mpr ended)
  | throw t => exact outside t
  | unwound t =>
      rcases enabled.2 with unwinds | restarts
      · cases first.kind_eq unwinds
      · cases first.kind_eq restarts

theorem put (first : FirstRuns s) {thread : CoroThread} {c : CoroId} {coro : Coroutine}
    (unsuspended : coro ≠ .suspended) (started : ∀ call ∈ thread.stack, call.kind = .start) :
    FirstRuns (s.put t thread c coro) where
  unsuspended other := by
    by_cases same : other = c
    · simpa [same] using unsuspended
    · simpa [same] using first.unsuspended other
  started u := by
    by_cases same : u = t
    · simpa [same] using started
    · simpa [same] using first.started u

theorem step (first : FirstRuns s) (enabled : s.Enabled action) (ends : EndsAtTopLevel s action) :
    FirstRuns (s.step action) := by
  have guard := enabled.2
  cases action with
  | start t c =>
      have runs : s.step (.start t c) = s.enter t .start c (some c) false := by
        cases coro : s.coros c with
        | suspended => exact absurd coro (first.unsuspended c)
        | empty | active | finished | destroyed => simp [CoroState.step, CoroState.start, coro]
      rw [runs, CoroState.enter]
      apply first.put (by simp)
      intro call member
      rcases List.mem_cons.mp member with rfl | below
      · rfl
      · exact first.started t call below
  | resume t c =>
      cases coro : s.coros c with
      | suspended => exact absurd coro (first.unsuspended c)
      | empty | active | finished | destroyed => simpa [CoroState.step, CoroState.resume, coro]
  | destroy t c =>
      have discards : s.step (.destroy t c) = s.put t (s.threads t) c .destroyed := by
        cases coro : s.coros c with
        | suspended => exact absurd coro (first.unsuspended c)
        | empty | active | finished | destroyed => simp [CoroState.step, CoroState.destroy, coro]
      rw [discards]
      exact first.put nofun (first.started t)
  | yield t | yieldCoro t => exact ends.elim
  | finish t =>
      obtain ⟨call, rest, top, -⟩ := CoroState.inBody_top guard
      have kind := first.started t call (by simp [top])
      have leaves : s.step (.finish t) = s.leave t call rest none .finished := by
        simp [CoroState.step, CoroState.finish, top, kind]
      rw [leaves]
      exact first.put nofun fun below member => first.started t below (by simp [top, member])
  | throw t =>
      obtain ⟨call, rest, top, -⟩ := CoroState.inBody_top guard
      have kind := first.started t call (by simp [top])
      have leaves : s.step (.throw t) = s.leave t call rest none .empty := by
        simp [CoroState.step, CoroState.throw, top, kind]
      rw [leaves]
      exact first.put nofun fun below member => first.started t below (by simp [top, member])
  | unwound t =>
      rcases guard with unwinds | restarts
      · cases first.kind_eq unwinds
      · cases first.kind_eq restarts

end FirstRuns

/-- In every run, for any nesting of coroutines on any number of threads, `Yield`
suspends the coroutine it is called in, every call into a coroutine restores the
pointer and no thread is inside a coroutine at top level, exactly when no body
ever yields and every body that ends was started outside all coroutines. -/
theorem coroutine_nesting_iff {actions : List CoroAction} (legal : coroSystem.Legal {} actions) :
    (coroSystem.EveryStep (fun s action => PointerRestored s action ∧ YieldSuspends s action)
        {} actions ∧ coroSystem.EveryState OutsideAtTopLevel {} actions) ↔
      coroSystem.EveryStep EndsAtTopLevel {} actions := by
  rw [disciplined_iff_clean legal]
  have preserved : ∀ state action, FirstRuns state → coroSystem.enabled state action →
      coroSystem.enabled state action → EndsAtTopLevel state action →
        FirstRuns (coroSystem.next state action) :=
    fun _ _ first enabled _ ends => first.step enabled ends
  apply ActionSystem.everyStep_congr _ preserved FirstRuns.initial legal legal
  intro state action first enabled _
  exact first.clean_iff enabled

/-- A coroutine is started at top level and yields. -/
def yieldInFirstRun : List CoroAction :=
  [.start 0 0, .yield 0]

/-- After `yieldInFirstRun` the thread believes to be inside a coroutine. -/
theorem coroutine_nesting_fails_yieldInFirstRun :
    coroSystem.Legal {} yieldInFirstRun ∧
      ¬ coroSystem.EveryStep PointerRestored {} yieldInFirstRun ∧
        ¬ coroSystem.EveryState OutsideAtTopLevel {} yieldInFirstRun := by
  refine ⟨by decide, fun restored => ?_, fun outside => ?_⟩
  · exact absurd (restored.2.1 0 ⟨.start, 0, none⟩ [] (by decide) (by decide)) (by decide)
  · exact absurd (outside.last 0 (by decide)) (by decide)

/-- Two coroutines run to their end one after the other, the second one by an
exception, and a third one is left in its body. -/
def runsToTheEnd : List CoroAction :=
  [.start 0 0, .start 1 2, .finish 0, .start 0 1, .resume 0 0, .throw 0, .destroy 0 0]

theorem coroutine_nesting_runsToTheEnd :
    coroSystem.EveryStep (fun s action => PointerRestored s action ∧ YieldSuspends s action)
        {} runsToTheEnd ∧ coroSystem.EveryState OutsideAtTopLevel {} runsToTheEnd :=
  (coroutine_nesting_iff (by decide)).mpr (by decide)

end FlatAsync
