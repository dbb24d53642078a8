import FlatAsync.AsyncRunner
import FlatAsync.SharedObject

/-!
# The status of an operation

All copies of an `AsyncOpState` share one status, which `Cancel`, `Timedout` and
`Reset` read and then write without a lock.  In the runner system each of these
calls is one step; here they are the two steps they consist of.

The first event wins in every sequential execution.  With steps interleaved, the
calls are those of a sequential execution exactly as long as no status is written
between the read and the write of another call.
-/

namespace FlatAsync

/-- The member functions of `AsyncOpState` that change the status. -/
inductive StatusCall
  | cancel
  | timedout
  | reset
  deriving DecidableEq, Repr

/-- What they return: whether the status has been changed, or the old status. -/
inductive StatusAnswer
  | changed (done : Bool)
  | old (status : AsyncOpStatus)
  deriving DecidableEq, Repr

namespace AsyncOpState

/-- `AsyncOpState::SetStatus`: what it returns and what it writes. -/
def setStatus (status current : AsyncOpStatus) : Bool × Option AsyncOpStatus :=
  if current ≠ .normal then (false, none) else (true, some status)

/-- `AsyncOpState::Reset` -/
def reset (current : AsyncOpStatus) : AsyncOpStatus × Option AsyncOpStatus :=
  (current, some .normal)

end AsyncOpState

/-- The status that all copies of an `AsyncOpState` share. -/
def asyncOpState : SharedObject AsyncOpStatus StatusCall StatusAnswer where
  answer
    | .cancel, current => .changed (AsyncOpState.setStatus .cancelled current).1
    | .timedout, current => .changed (AsyncOpState.setStatus .timedout current).1
    | .reset, current => .old (AsyncOpState.reset current).1
  write
    | .cancel, current => (AsyncOpState.setStatus .cancelled current).2
    | .timedout, current => (AsyncOpState.setStatus .timedout current).2
    | .reset, current => (AsyncOpState.reset current).2

def StatusCall.status : StatusCall → AsyncOpStatus
  | cancel => .cancelled
  | timedout => .timedout
  | reset => .normal

abbrev StatusRecord := ReturnedCall StatusCall StatusAnswer

def StatusRecord.won (record : StatusRecord) : Bool :=
  record.answer = .changed true

def StatusRecord.isReset (record : StatusRecord) : Bool :=
  record.operation = .reset

theorem leaves_setStatus (s : System) (r : RunnerId) :
    ((s.setStatus r .cancelled).runners r).opState =
        asyncOpState.leaves .cancel (s.runners r).opState ∧
      ((s.setStatus r .timedout).runners r).opState =
        asyncOpState.leaves .timedout (s.runners r).opState ∧
          ((s.resetStatus r).runners r).opState =
            asyncOpState.leaves .reset (s.runners r).opState := by
  refine ⟨?_, ?_, ?_⟩
  · cases status : (s.runners r).opState <;>
      simp [System.setStatus, SharedObject.leaves, asyncOpState, AsyncOpState.setStatus, status]
  · cases status : (s.runners r).opState <;>
      simp [System.setStatus, SharedObject.leaves, asyncOpState, AsyncOpState.setStatus, status]
  · simp [System.resetStatus, SharedObject.leaves, asyncOpState, AsyncOpState.reset]

/-! ### The first event wins -/

/-- Between two calls of `Reset` one call at most changes the status, and this
status is what the next `Reset` returns, or the final one if there is none. -/
structure FirstEventWins (order : List StatusRecord) (final : AsyncOpStatus) : Prop where
  single : ∀ before between after, order = before ++ between ++ after →
    (∀ record ∈ between, record.operation ≠ .reset) →
      between.countP StatusRecord.won ≤ 1
  reported : ∀ before record after, order = before ++ record :: after → record.won = true →
    match after.find? StatusRecord.isReset with
    | some next => next.answer = .old record.operation.status
    | none => final = record.operation.status

section Sequential

variable {value final : AsyncOpStatus} {record : StatusRecord} {records : List StatusRecord}

/-- A call that wins finds the status `Normal` and sets its own. -/
theorem leaves_of_won (answered : record.answer = asyncOpState.answer record.operation value)
    (won : record.won = true) : value = .normal ∧ record.operation.status ≠ .normal ∧
      asyncOpState.leaves record.operation value = record.operation.status := by
  obtain ⟨call, operation, answer⟩ := record
  obtain rfl : answer = asyncOpState.answer operation value := answered
  cases operation <;> cases value <;>
    simp [StatusRecord.won, asyncOpState, AsyncOpState.setStatus, AsyncOpState.reset,
      SharedObject.leaves, StatusCall.status] at won ⊢

/-- A status other than `Normal` stays until it is reset. -/
theorem leaves_of_event (event : value ≠ .normal) (other : record.operation ≠ .reset) :
    asyncOpState.leaves record.operation value = value := by
  obtain ⟨call, operation, answer⟩ := record
  cases operation <;> cases value <;>
    simp [asyncOpState, AsyncOpState.setStatus, SharedObject.leaves] at event other ⊢

/-- Calls that reset nothing change the status once, and only if it is `Normal`. -/
theorem countP_won_le (executes : asyncOpState.Executes value records final)
    (others : ∀ record ∈ records, record.operation ≠ .reset) :
    records.countP StatusRecord.won ≤ if value = .normal then 1 else 0 := by
  induction records generalizing value with
  | nil => exact Nat.zero_le _
  | cons record records ih =>
      obtain ⟨answered, rest⟩ := executes
      have later := ih rest fun other member => others other (List.mem_cons_of_mem _ member)
      rw [List.countP_cons]
      cases won : record.won with
      | true =>
          obtain ⟨normal, event, leaves⟩ := leaves_of_won answered won
          rw [leaves, if_neg event] at later
          simp only [normal, if_true]
          omega
      | false =>
          by_cases normal : value = .normal
          · rw [if_pos normal]
            split at later <;> simp <;> omega
          · rw [leaves_of_event normal (others record List.mem_cons_self)] at later
            simpa using later

/-- An event is what the next `Reset` reports, or it is there in the end. -/
theorem reported_of_event (event : value ≠ .normal)
    (executes : asyncOpState.Executes value records final) :
    match records.find? StatusRecord.isReset with
    | some next => next.answer = .old value
    | none => final = value := by
  induction records generalizing value with
  | nil => exact executes
  | cons record records ih =>
      obtain ⟨answered, rest⟩ := executes
      by_cases resets : record.operation = .reset
      · have found : record.isReset = true := by simp [StatusRecord.isReset, resets]
        rw [List.find?_cons_of_pos found]
        rw [resets] at answered
        exact answered
      · have passed : ¬ record.isReset = true := by simp [StatusRecord.isReset, resets]
        rw [List.find?_cons_of_neg passed]
        rw [leaves_of_event event resets] at rest
        exact ih event rest

theorem firstEventWins (executes : asyncOpState.Executes value records final) :
    FirstEventWins records final := by
  constructor
  · rintro before between after rfl others
    rw [SharedObject.executes_append] at executes
    obtain ⟨middle, executes, -⟩ := executes
    rw [SharedObject.executes_append] at executes
    obtain ⟨start, -, executes⟩ := executes
    have bound := countP_won_le executes others
    split at bound <;> omega
  · rintro before record after rfl won
    rw [SharedObject.executes_append] at executes
    obtain ⟨middle, -, answered, rest⟩ := executes
    obtain ⟨-, event, leaves⟩ := leaves_of_won answered won
    rw [leaves] at rest
    exact reported_of_event event rest

end Sequential

/-! ### Interleaved calls -/

/-- One for the status and nothing for the others. -/
def indicator (status current : AsyncOpStatus) : Int :=
  if current = status then 1 else 0

theorem balanced_indicator (status : AsyncOpStatus) (event : status ≠ .normal) :
    asyncOpState.Balanced (indicator status) := by
  refine ⟨fun operation answer =>
    match answer with
    | .changed done => if done = true ∧ operation.status = status then 1 else 0
    | .old old => if old = status then -1 else 0, ?_⟩
  intro operation value
  cases status <;> cases operation <;> cases value <;>
    simp [indicator, asyncOpState, AsyncOpState.setStatus, AsyncOpState.reset,
      SharedObject.leaves, StatusCall.status] at event ⊢

abbrev SharedStatus := Shared AsyncOpStatus StatusCall StatusAnswer

/-- A sequential order explains the calls, and in this order the first event
wins. -/
def StatusLinearizable (s : SharedStatus) : Prop :=
  ∃ order, asyncOpState.Linearizes .normal s order ∧ FirstEventWins order s.value

/-- In every run of any number of calls, the calls that have returned and the
status are those of a sequential execution in every state exactly when no call
writes a status that has changed since it was read. -/
theorem status_linearizable_iff {actions : List (CallAction StatusCall)}
    (legal : asyncOpState.calls.Legal { value := .normal } actions) :
    asyncOpState.calls.EveryState StatusLinearizable { value := .normal } actions ↔
      asyncOpState.calls.EveryStep SharedObject.Undisturbed { value := .normal } actions := by
  have apart (first second : AsyncOpStatus)
      (alike : ∀ potential, asyncOpState.Balanced potential → potential first = potential second) :
      first = second := by
    have cancelled := alike _ (balanced_indicator .cancelled (by decide))
    have timedout := alike _ (balanced_indicator .timedout (by decide))
    cases first <;> cases second <;> simp [indicator] at cancelled timedout ⊢
  rw [← SharedObject.linearizable_iff apart legal]
  constructor
  · refine ActionSystem.EveryState.imp fun s explained => ?_
    obtain ⟨order, linearizes, -⟩ := explained
    exact ⟨order, linearizes⟩
  · refine ActionSystem.EveryState.imp fun s explained => ?_
    obtain ⟨order, linearizes⟩ := explained
    exact ⟨order, linearizes, firstEventWins linearizes.sequential⟩

/-- A `Cancel` and the end of a `Timeout` both find the status `Normal`. -/
def cancelAgainstTimeout : List (CallAction StatusCall) :=
  [.read 0 .cancel, .read 1 .timedout, .write 0, .write 1]

/-- Both calls have returned true, and there was no `Reset`. -/
theorem status_not_linearizable_cancelAgainstTimeout :
    asyncOpState.calls.Legal { value := .normal } cancelAgainstTimeout ∧
      ¬ asyncOpState.calls.EveryState StatusLinearizable { value := .normal }
        cancelAgainstTimeout := by
  refine ⟨by decide, fun linearizable => ?_⟩
  obtain ⟨order, linearizes, wins⟩ := linearizable.last
  have returned : returnedCalls (asyncOpState.calls.run { value := .normal }
      cancelAgainstTimeout).history =
        [⟨0, .cancel, .changed true⟩, ⟨1, .timedout, .changed true⟩] := by decide
  have complete := linearizes.complete
  rw [returned] at complete
  have one := wins.single [] order [] (by simp) fun record member => by
    have found := complete.mem_iff.mp member
    rcases List.mem_pair.mp found with rfl | rfl <;> decide
  rw [complete.countP_eq] at one
  exact absurd one (by decide)

/-- A `Cancel` wins, a `Timeout` ends while a `Reset` is under way. -/
def timeoutDuringReset : List (CallAction StatusCall) :=
  [.read 0 .cancel, .write 0, .read 1 .reset, .read 2 .timedout, .write 1]

theorem status_linearizable_timeoutDuringReset :
    asyncOpState.calls.EveryState StatusLinearizable { value := .normal } timeoutDuringReset :=
  (status_linearizable_iff (by decide)).mpr (by decide)

end FlatAsync
