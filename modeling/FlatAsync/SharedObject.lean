import FlatAsync.ActionSystem
import Mathlib.Algebra.BigOperators.Group.List.Basic
import Mathlib.Algebra.Ring.Int.Defs
import Mathlib.Data.List.Pairwise
import Mathlib.Logic.Function.Basic

/-!
# Shared objects

A shared object holds a value that any number of parties read and write without
a lock.  A call reads the value in one step and, if what it has read asks for
it, writes a new one in a second step.  Between the two, other calls go on.

The calls that have returned are linearizable if their answers and the value
are those of some sequential execution which keeps the order of calls that did
not overlap.  This file shows that the order of the returns is such an order as
long as each write finds the value that its call has read.
-/

namespace FlatAsync

/-- An object in the hands of a single party: what an operation answers at a
value, and what it writes, if it writes. -/
structure SharedObject (Value Operation Answer : Type*) where
  answer : Operation → Value → Answer
  write : Operation → Value → Option Value

abbrev CallId := Nat

structure ReturnedCall (Operation Answer : Type*) where
  call : CallId
  operation : Operation
  answer : Answer
  deriving DecidableEq, Repr

inductive CallEvent (Operation Answer : Type*)
  | invoked (call : CallId) (operation : Operation)
  | returned (record : ReturnedCall Operation Answer)
  deriving DecidableEq, Repr

/-- A call has not begun, or it has read a value and will write, or it has
returned. -/
inductive CallPhase (Value Operation : Type*)
  | unused
  | reading (operation : Operation) (seen : Value)
  | finished
  deriving DecidableEq, Repr

/-- A shared value, the calls on it and the record of what they did. -/
structure Shared (Value Operation Answer : Type*) where
  value : Value
  calls : CallId → CallPhase Value Operation := fun _ => .unused
  history : List (CallEvent Operation Answer) := []

inductive CallAction (Operation : Type*)
  | read (call : CallId) (operation : Operation)
  | write (call : CallId)
  deriving DecidableEq, Repr

variable {Value Operation Answer : Type*}

/-! ### Histories -/

namespace CallEvent

def record? : CallEvent Operation Answer → Option (ReturnedCall Operation Answer)
  | invoked .. => none
  | returned record => some record

end CallEvent

/-- The calls that have returned, in the order in which they did. -/
def returnedCalls (history : List (CallEvent Operation Answer)) :
    List (ReturnedCall Operation Answer) :=
  history.filterMap CallEvent.record?

/-- One call had returned before the other was invoked. -/
def PrecededBy (history : List (CallEvent Operation Answer)) (later earlier : CallId) : Prop :=
  ∃ before after, history = before ++ after ∧
    (∃ record, record.call = earlier ∧ .returned record ∈ before) ∧
      ∃ operation, .invoked later operation ∈ after

section History

variable {history : List (CallEvent Operation Answer)} {later earlier call : CallId}
variable {operation : Operation} {record : ReturnedCall Operation Answer}

private theorem mem_returnedCalls :
    record ∈ returnedCalls history ↔ .returned record ∈ history := by
  simp only [returnedCalls, List.mem_filterMap]
  constructor
  · rintro ⟨event, member, found⟩
    cases event with
    | invoked => simp [CallEvent.record?] at found
    | returned other => exact Option.some.inj found ▸ member
  · exact fun member => ⟨_, member, rfl⟩

@[simp]
theorem returnedCalls_invoked :
    returnedCalls (history ++ [.invoked call operation]) = returnedCalls history := by
  simp [returnedCalls, CallEvent.record?]

@[simp]
theorem returnedCalls_returned :
    returnedCalls (history ++ [.returned record]) = returnedCalls history ++ [record] := by
  simp [returnedCalls, CallEvent.record?]

/-- A call that precedes another after one more event has done so before, unless
the event is the invocation of the other. -/
theorem PrecededBy.of_append {event : CallEvent Operation Answer}
    (preceded : PrecededBy (history ++ [event]) later earlier)
    (different : ∀ operation, event ≠ .invoked later operation) :
    PrecededBy history later earlier := by
  obtain ⟨before, after, split, returned, operation, invoked⟩ := preceded
  rcases List.eq_nil_or_concat after with rfl | ⟨rest, last, rfl⟩
  · simp at invoked
  · rw [List.concat_eq_append, ← List.append_assoc] at split
    obtain ⟨rfl, same⟩ := List.append_inj' split rfl
    obtain rfl := List.singleton_inj.mp same
    refine ⟨before, rest, rfl, returned, operation, ?_⟩
    rw [List.concat_eq_append, List.mem_append, List.mem_singleton] at invoked
    exact invoked.resolve_right (different operation).symm

private theorem not_precededBy_last
    (fresh : ∀ other, .returned other ∈ history → other.call ≠ record.call) :
    ¬ PrecededBy (history ++ [.returned record]) later record.call := by
  intro preceded
  obtain ⟨before, after, rfl, ⟨other, same, returned⟩, -⟩ := preceded.of_append (by simp)
  exact fresh other (List.mem_append_left after returned) same

end History

/-! ### Sequential executions -/

namespace SharedObject

variable (object : SharedObject Value Operation Answer)

def leaves (operation : Operation) (value : Value) : Value :=
  (object.write operation value).getD value

/-- The calls lead from the value to `final` when they are made one after the
other. -/
def Executes (value : Value) : List (ReturnedCall Operation Answer) → Value → Prop
  | [], final => final = value
  | record :: records, final =>
      record.answer = object.answer record.operation value ∧
        Executes (object.leaves record.operation value) records final

variable {object} {value final : Value} {record : ReturnedCall Operation Answer}
variable {records others : List (ReturnedCall Operation Answer)}

theorem executes_append : object.Executes value (records ++ others) final ↔
    ∃ middle, object.Executes value records middle ∧ object.Executes middle others final := by
  induction records generalizing value with
  | nil => simp [Executes]
  | cons record records ih => simp [Executes, ih, and_assoc]

/-- A quantity of the value that every operation changes by what its answer says
has changed by the sum of what the answers say. -/
theorem Executes.balance {potential : Value → Int} {charge : Operation → Answer → Int}
    (balanced : ∀ operation value, potential (object.leaves operation value) =
      potential value + charge operation (object.answer operation value))
    (executes : object.Executes value records final) :
    potential final =
      potential value + (records.map fun record => charge record.operation record.answer).sum := by
  induction records generalizing value with
  | nil =>
      obtain rfl : final = value := executes
      simp
  | cons record records ih =>
      obtain ⟨answer, rest⟩ := executes
      rw [ih rest, balanced, List.map_cons, List.sum_cons, answer, Int.add_assoc]

/-! ### Concurrent executions -/

/-- A call that has read `seen` writes. -/
def writes (object : SharedObject Value Operation Answer) (s : Shared Value Operation Answer)
    (call : CallId) (operation : Operation) (seen : Value) : Shared Value Operation Answer where
  value := object.leaves operation seen
  calls := Function.update s.calls call .finished
  history := s.history ++ [.returned ⟨call, operation, object.answer operation seen⟩]

/-- A call reads.  It returns at once if it has nothing to write. -/
def reads (object : SharedObject Value Operation Answer) (s : Shared Value Operation Answer)
    (call : CallId) (operation : Operation) : Shared Value Operation Answer :=
  match object.write operation s.value with
  | some _ =>
      { s with
        calls := Function.update s.calls call (.reading operation s.value)
        history := s.history ++ [.invoked call operation] }
  | none =>
      { s with
        calls := Function.update s.calls call .finished
        history := s.history ++ [.invoked call operation] ++
          [.returned ⟨call, operation, object.answer operation s.value⟩] }

def callStep (object : SharedObject Value Operation Answer)
    (s : Shared Value Operation Answer) :
    CallAction Operation → Shared Value Operation Answer
  | .read call operation => object.reads s call operation
  | .write call =>
      match s.calls call with
      | .reading operation seen => object.writes s call operation seen
      | .unused | .finished => s

/-- A call reads once and writes after it has read. -/
def CallEnabled (s : Shared Value Operation Answer) : CallAction Operation → Prop
  | .read call _ =>
      match s.calls call with
      | .unused => True
      | .reading .. | .finished => False
  | .write call =>
      match s.calls call with
      | .reading .. => True
      | .unused | .finished => False

instance (s : Shared Value Operation Answer) : ∀ action, Decidable (CallEnabled s action)
  | .read call _ =>
      match here : s.calls call with
      | .unused => isTrue (by simp [CallEnabled, here])
      | .reading .. | .finished => isFalse (by simp [CallEnabled, here])
  | .write call =>
      match here : s.calls call with
      | .reading .. => isTrue (by simp [CallEnabled, here])
      | .unused | .finished => isFalse (by simp [CallEnabled, here])

/-- Any number of calls on a shared object, interleaved step by step. -/
def calls (object : SharedObject Value Operation Answer) :
    ActionSystem (Shared Value Operation Answer) (CallAction Operation) where
  enabled := CallEnabled
  next := object.callStep

instance (object : SharedObject Value Operation Answer) (s : Shared Value Operation Answer)
    (action : CallAction Operation) : Decidable (object.calls.enabled s action) :=
  inferInstanceAs (Decidable (CallEnabled s action))

/-- The answers of the calls that have returned, and the value, are those of the
sequential execution in this order, which respects the order of calls that did
not overlap. -/
structure Linearizes (object : SharedObject Value Operation Answer) (initial : Value)
    (s : Shared Value Operation Answer) (order : List (ReturnedCall Operation Answer)) :
    Prop where
  complete : order.Perm (returnedCalls s.history)
  sequential : object.Executes initial order s.value
  realTime : order.Pairwise fun first second =>
    ¬ PrecededBy s.history first.call second.call

/-- A call that writes finds the value that it has read. -/
def Undisturbed (s : Shared Value Operation Answer) : CallAction Operation → Prop
  | .read .. => True
  | .write call =>
      match s.calls call with
      | .reading _ seen => seen = s.value
      | .unused | .finished => True

instance [DecidableEq Value] (s : Shared Value Operation Answer) :
    ∀ action, Decidable (Undisturbed s action)
  | .read .. => inferInstanceAs (Decidable True)
  | .write call =>
      match here : s.calls call with
      | .reading _ seen => decidable_of_iff (seen = s.value) (by simp [Undisturbed, here])
      | .unused | .finished => isTrue (by simp [Undisturbed, here])

/-- Some sequential execution explains the calls that have returned. -/
def Linearizable (object : SharedObject Value Operation Answer) (initial : Value)
    (s : Shared Value Operation Answer) : Prop :=
  ∃ order, object.Linearizes initial s order

/-- A quantity of the value that an operation changes by what its answer tells. -/
def Balanced (object : SharedObject Value Operation Answer) (potential : Value → Int) : Prop :=
  ∃ charge : Operation → Answer → Int, ∀ operation value,
    potential (object.leaves operation value) =
      potential value + charge operation (object.answer operation value)

/-- The order of the returns explains the calls, and only calls that are over
have returned. -/
structure InReturnOrder (object : SharedObject Value Operation Answer) (initial : Value)
    (s : Shared Value Operation Answer) : Prop where
  finished : ∀ record ∈ returnedCalls s.history, s.calls record.call = .finished
  linearizes : object.Linearizes initial s (returnedCalls s.history)

section Steps

variable {initial : Value} {s : Shared Value Operation Answer} {call : CallId}
variable {operation : Operation} {seen : Value} {action : CallAction Operation}

theorem InReturnOrder.update {phase : CallPhase Value Operation}
    (ordered : object.InReturnOrder initial s) (going : s.calls call ≠ .finished) :
    ∀ record ∈ returnedCalls s.history,
      Function.update s.calls call phase record.call = .finished := by
  intro record member
  have finished := ordered.finished record member
  have different : record.call ≠ call := by
    rintro rfl
    exact going finished
  rwa [Function.update_of_ne different]

theorem InReturnOrder.invoke (ordered : object.InReturnOrder initial s)
    (unused : s.calls call = .unused) (operation : Operation) (seen : Value) :
    object.InReturnOrder initial
      { s with
        calls := Function.update s.calls call (.reading operation seen)
        history := s.history ++ [.invoked call operation] } := by
  have going : s.calls call ≠ .finished := by simp [unused]
  obtain ⟨-, sequential, realTime⟩ := ordered.linearizes
  refine ⟨by simpa using ordered.update going, ?_⟩
  constructor
  · exact List.Perm.refl _
  · simpa using sequential
  · rw [returnedCalls_invoked]
    refine realTime.imp_of_mem fun {first second} here _ apart preceded => ?_
    refine apart (preceded.of_append fun other same => going ?_)
    rw [(CallEvent.invoked.inj same).1]
    exact ordered.finished first here

theorem InReturnOrder.return (ordered : object.InReturnOrder initial s)
    (going : s.calls call ≠ .finished) (operation : Operation) :
    object.InReturnOrder initial
      { value := object.leaves operation s.value
        calls := Function.update s.calls call .finished
        history :=
          s.history ++ [.returned ⟨call, operation, object.answer operation s.value⟩] } := by
  obtain ⟨-, sequential, realTime⟩ := ordered.linearizes
  constructor
  · intro record member
    rw [returnedCalls_returned, List.mem_append, List.mem_singleton] at member
    rcases member with old | rfl
    · exact ordered.update going record old
    · exact Function.update_self ..
  constructor
  · exact List.Perm.refl _
  · rw [returnedCalls_returned, executes_append]
    exact ⟨s.value, sequential, rfl, rfl⟩
  · rw [returnedCalls_returned, List.pairwise_append]
    refine ⟨?_, List.pairwise_singleton .., ?_⟩
    · exact realTime.imp fun apart preceded => apart (preceded.of_append (by simp))
    · intro first _ last new
      obtain rfl := List.mem_singleton.mp new
      refine not_precededBy_last fun other returned same => going ?_
      have finished := ordered.finished other (mem_returnedCalls.mpr returned)
      rwa [same] at finished

/-- The order of returns explains one step more if the step is undisturbed. -/
theorem InReturnOrder.step (ordered : object.InReturnOrder initial s)
    (enabled : CallEnabled s action) (undisturbed : Undisturbed s action) :
    object.InReturnOrder initial (object.callStep s action) := by
  cases action with
  | read call operation =>
      have unused : s.calls call = .unused := by
        cases phase : s.calls call <;> simp_all [CallEnabled]
      simp only [callStep, reads]
      cases writes : object.write operation s.value with
      | some value => exact ordered.invoke unused operation s.value
      | none =>
          have invoked := ordered.invoke unused operation s.value
          have going :
              Function.update s.calls call (.reading operation s.value) call ≠ .finished := by
            simp
          have returned := invoked.return going operation
          simpa [leaves, writes] using returned
  | write call =>
      cases phase : s.calls call with
      | unused => simp [CallEnabled, phase] at enabled
      | finished => simp [CallEnabled, phase] at enabled
      | reading operation seen =>
          obtain rfl : seen = s.value := by simpa [Undisturbed, phase] using undisturbed
          have going : s.calls call ≠ .finished := by simp [phase]
          simpa [callStep, phase, writes] using ordered.return going operation

/-- What the answers of the calls that have returned tell about a balanced
quantity is true. -/
theorem Linearizable.balance {potential : Value → Int} {charge : Operation → Answer → Int}
    (balanced : ∀ operation value, potential (object.leaves operation value) =
      potential value + charge operation (object.answer operation value))
    (explained : object.Linearizable initial s) :
    potential s.value = potential initial + ((returnedCalls s.history).map fun record =>
      charge record.operation record.answer).sum := by
  obtain ⟨order, complete, sequential, -⟩ := explained
  rw [sequential.balance balanced, (complete.map _).sum_eq]

/-- If the calls can still be explained after a write, no balanced quantity
tells the value that the write has found from the one that its call had read. -/
theorem Linearizable.found (explained : object.Linearizable initial s)
    (after : object.Linearizable initial (object.writes s call operation seen))
    {potential : Value → Int} (balanced : object.Balanced potential) :
    potential seen = potential s.value := by
  obtain ⟨charge, balanced⟩ := balanced
  have before := explained.balance balanced
  have later := after.balance balanced
  simp only [writes, returnedCalls_returned, List.map_append, List.map_cons, List.map_nil,
    List.sum_append, List.sum_singleton, balanced] at later
  omega

end Steps

/-- The calls on an object whose balanced quantities tell its values apart can
be explained by a sequential execution in every state of a run exactly when
every write of the run finds what its call has read. -/
theorem linearizable_iff {initial : Value} {actions : List (CallAction Operation)}
    (apart : ∀ first second, (∀ potential, object.Balanced potential →
      potential first = potential second) → first = second)
    (legal : object.calls.Legal { value := initial } actions) :
    object.calls.EveryState (object.Linearizable initial) { value := initial } actions ↔
      object.calls.EveryStep Undisturbed { value := initial } actions := by
  have initially : object.InReturnOrder initial { value := initial } :=
    ⟨by simp [returnedCalls], List.Perm.refl _, rfl, List.Pairwise.nil⟩
  have anything : object.calls.EveryStep (fun _ _ => True) { value := initial } actions :=
    ActionSystem.everyStep_of_forall fun _ _ => trivial
  refine ActionSystem.everyState_iff_everyStep (fun s ordered => ⟨_, ordered.linearizes⟩)
    (fun s action ordered enabled _ undisturbed => ordered.step enabled undisturbed) ?_
    initially legal anything
  intro s action ordered enabled _ disturbed after
  cases action with
  | read => exact disturbed trivial
  | write call =>
      cases phase : s.calls call with
      | unused => simp [Undisturbed, phase] at disturbed
      | finished => simp [Undisturbed, phase] at disturbed
      | reading operation seen =>
          have later : object.Linearizable initial (object.writes s call operation seen) := by
            simpa [calls, callStep, phase] using after
          have found : seen = s.value := apart _ _ fun potential balanced =>
            Linearizable.found ⟨_, ordered.linearizes⟩ later balanced
          exact disturbed (by simpa [Undisturbed, phase] using found)

end SharedObject

end FlatAsync
