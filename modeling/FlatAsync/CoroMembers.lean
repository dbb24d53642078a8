import FlatAsync.ActionSystem
import Mathlib.Tactic.Common

/-!
# The members of a coroutine helper

A `CoroHelper` stores the body of its coroutine in `handler_` and the coroutine in
`coro_`.  As the body runs inside of the closure in `handler_`, this closure must
stay as long as there are locals on the stack of the coroutine.  This file embeds
`Start`, `Resume`, `Yield` and the destructor statement by statement, and says when
the stack of a suspended coroutine is unwound while the closure is still there.
-/

namespace FlatAsync

/-- The closures that are given to a helper are numbered in the order of the calls of
`Start`. -/
abbrev ClosureId := Nat

/-- What `coro_` points to: nothing, or a coroutine that is suspended, is running or
has ended. -/
inductive PullType
  | none
  | suspended
  | active
  | complete
  deriving DecidableEq, Repr

/-- What `Start` and the destructor do, one after the other. -/
inductive Effect
  | assignHandler (closure : ClosureId)
  | clearYield
  | resetCoro
  | makeCoro
  | destroyHandler
  deriving DecidableEq, Repr

/-- `CoroHelper::Start`, also as part of the constructor. -/
def startCode (closure : ClosureId) : List Effect :=
  [.assignHandler closure, .clearYield, .resetCoro, .makeCoro]

/-- `CoroHelper::~CoroHelper`, after which the members are destroyed, the last one
first. -/
def destructorCode : List Effect :=
  [.clearYield, .resetCoro, .destroyHandler]

/-- Where a helper is: no code of it is being executed, it executes `Start` or the
destructor, it is in the body, a stack is being unwound before `rest` goes on, or it
is no more. -/
inductive Control
  | outside
  | code (rest : List Effect)
  | body
  | unwinding (rest : List Effect)
  | destroyed
  deriving DecidableEq, Repr

/-- `frames` lists the closures with locals on a stack of the helper, the latest first,
and `given` counts the calls of `Start`.  A handler that has been destroyed is `none`;
`ptrYield` tells whether `ptr_yield_` points to something. -/
structure HelperState where
  handler : Option ClosureId := none
  ptrYield : Bool := false
  coro : PullType := .none
  frames : List ClosureId := []
  control : Control := .outside
  given : Nat := 0
  deriving DecidableEq, Repr

/-- The calls of the member functions and what the code in between does: `effect` is
the next statement of `Start` or the destructor, `finish` and `throw` are the ends of
the body, `unwound` is the end of an unwinding. -/
inductive HelperAction
  | start
  | resume
  | destroy
  | effect
  | yield
  | finish
  | throw
  | unwound
  deriving DecidableEq, Repr

namespace Control

/-- The code goes on with `rest`, or returns. -/
def goOn : List Effect → Control
  | [] => .outside
  | effect :: rest => .code (effect :: rest)

def isCode : Control → Bool
  | code _ => true
  | outside | body | unwinding _ | destroyed => false

def isUnwinding : Control → Bool
  | unwinding _ => true
  | outside | code _ | body | destroyed => false

end Control

namespace HelperState

/-- The effects.  A coroutine that is made runs at once, and sets `ptr_yield_` before
it calls the handler. -/
def perform (s : HelperState) (rest : List Effect) : Effect → HelperState
  | .assignHandler closure => { s with handler := some closure, control := .goOn rest }
  | .clearYield => { s with ptrYield := false, control := .goOn rest }
  | .resetCoro =>
      { s with
        coro := .none
        control := if s.coro = .suspended then .unwinding rest else .goOn rest }
  | .makeCoro =>
      { s with ptrYield := true, frames := s.handler.toList ++ s.frames, control := .body }
  | .destroyHandler => { s with handler := none, control := .destroyed }

def effect (s : HelperState) : HelperState :=
  match s.control with
  | .code (effect :: rest) => s.perform rest effect
  | .code [] | .outside | .body | .unwinding _ | .destroyed => s

/-- `CoroHelper::Start` is called. -/
def start (s : HelperState) : HelperState :=
  { s with control := .code (startCode s.given), given := s.given + 1 }

/-- `CoroHelper::Resume`.  `Yield`, which returns in the coroutine, interrupts the body
if `ptr_yield_` has been cleared. -/
def resume (s : HelperState) : HelperState :=
  if s.coro = .suspended then
    { s with coro := .active, control := if s.ptrYield then .body else .unwinding [] }
  else s

/-- The destructor is called. -/
def destroy (s : HelperState) : HelperState :=
  { s with control := .code destructorCode }

/-- `CoroHelper::Yield`, called by the body or by the destructor of one of its locals.
It leaves the stack, unless `ptr_yield_` is null. -/
def yield (s : HelperState) : HelperState :=
  if s.ptrYield then
    match s.control with
    | .unwinding rest => { s with control := .goOn rest }
    | .body | .outside | .code _ | .destroyed => { s with coro := .suspended, control := .outside }
  else s

/-- The body returns. -/
def finish (s : HelperState) : HelperState :=
  { s with coro := .complete, frames := s.frames.tail, control := .outside }

/-- An exception leaves the body and the constructor of the coroutine, which is not
assigned then, or `Resume`. -/
def throw (s : HelperState) : HelperState :=
  { s with
    coro := if s.coro = .active then .complete else .none
    frames := s.frames.tail
    control := .outside }

/-- The last local is destroyed. -/
def unwound (s : HelperState) : HelperState :=
  match s.control with
  | .unwinding rest =>
      { s with
        coro := if s.coro = .active then .complete else s.coro
        frames := s.frames.tail
        control := .goOn rest }
  | .outside | .code _ | .body | .destroyed => s

/-- `Start`, `Resume` and the destructor are called from outside; `Resume` also by code
that runs in the coroutine before it is assigned to `coro_`. -/
def Guard (s : HelperState) : HelperAction → Prop
  | .start | .destroy => s.control = .outside
  | .resume => s.control = .outside ∨ s.control = .body ∧ s.coro = .none
  | .effect => s.control.isCode = true
  | .yield => s.control = .body ∨ s.control.isUnwinding = true
  | .finish | .throw => s.control = .body
  | .unwound => s.control.isUnwinding = true

instance (s : HelperState) : ∀ action, Decidable (s.Guard action)
  | .start | .destroy | .effect | .finish | .throw | .unwound => inferInstanceAs (Decidable (_ = _))
  | .resume | .yield => inferInstanceAs (Decidable (_ ∨ _))

def step (s : HelperState) : HelperAction → HelperState
  | .start => s.start
  | .resume => s.resume
  | .destroy => s.destroy
  | .effect => s.effect
  | .yield => s.yield
  | .finish => s.finish
  | .throw => s.throw
  | .unwound => s.unwound

end HelperState

def helperSystem : ActionSystem HelperState HelperAction where
  enabled := HelperState.Guard
  next := HelperState.step

instance (s : HelperState) (action : HelperAction) : Decidable (helperSystem.enabled s action) :=
  inferInstanceAs (Decidable (s.Guard action))

/-! ### Closures and stacks -/

namespace HelperState

/-- While a stack is unwound, the closure of its body is the one in `handler_`. -/
def SeesCaptures (s : HelperState) : Prop :=
  s.control.isUnwinding = true → ∀ closure ∈ s.frames, s.handler = some closure

/-- When a body is about to start, nothing is left of another one. -/
def BodyWaits (s : HelperState) : Prop :=
  ∀ rest, s.control = .code (.makeCoro :: rest) → s.frames = []

/-- `Start` does not reset a suspended coroutine. -/
def NoRestart (s : HelperState) : HelperAction → Prop
  | .effect => s.control = .code [.resetCoro, .makeCoro] → s.coro ≠ .suspended
  | _ => True

instance (s : HelperState) : ∀ action, Decidable (NoRestart s action)
  | .effect => inferInstanceAs (Decidable (_ → _))
  | .start | .resume | .destroy | .yield | .finish | .throw | .unwound =>
      inferInstanceAs (Decidable True)

/-- No coroutine runs, and the helper has a stack while its coroutine is suspended. -/
structure Idle (s : HelperState) : Prop where
  inactive : s.coro ≠ .active
  bare : s.coro ≠ .suspended → s.frames = []
  occupied : s.coro = .suspended → ∃ closure < s.given, s.frames = [closure]

/-- The closures on the stacks are in `handler_`. -/
def Own (s : HelperState) : Prop :=
  ∀ closure ∈ s.frames, s.handler = some closure

/-- The closure in `handler_` is a new one. -/
def Replaced (s : HelperState) : Prop :=
  ∃ closure < s.given, s.handler = some closure ∧ closure ∉ s.frames

structure Runs (s : HelperState) (closure : ClosureId) : Prop where
  given : closure < s.given
  frames : s.frames = [closure]

inductive Placed (s : HelperState) : Prop
  | outside (control : s.control = .outside) (idle : s.Idle) (own : s.Own)
      (yields : s.coro = .suspended → s.ptrYield = true)
  | starting {closure : ClosureId} (control : s.control = .code (startCode closure))
      (idle : s.Idle) (last : closure + 1 = s.given) (old : ∀ other ∈ s.frames, other < closure)
  | assigned (control : s.control = .code [.clearYield, .resetCoro, .makeCoro]) (idle : s.Idle)
      (replaced : s.Replaced)
  | cleared (control : s.control = .code [.resetCoro, .makeCoro]) (idle : s.Idle)
      (replaced : s.Replaced) (silent : s.ptrYield = false)
  | reset (control : s.control = .code [.makeCoro]) (replaced : s.Replaced)
      (none : s.coro = .none) (bare : s.frames = [])
  | running {closure : ClosureId} (control : s.control = .body) (runs : s.Runs closure)
      (own : s.handler = some closure) (yields : s.ptrYield = true)
      (coro : s.coro = .none ∨ s.coro = .active)
  | restarting {closure : ClosureId} (control : s.control = .unwinding [.makeCoro])
      (runs : s.Runs closure) (replaced : s.Replaced) (silent : s.ptrYield = false)
      (none : s.coro = .none)
  | destroying (control : s.control = .code destructorCode) (idle : s.Idle) (own : s.Own)
  | silenced (control : s.control = .code [.resetCoro, .destroyHandler]) (idle : s.Idle)
      (own : s.Own) (silent : s.ptrYield = false)
  | unwinding {closure : ClosureId} (control : s.control = .unwinding [.destroyHandler])
      (runs : s.Runs closure) (own : s.handler = some closure) (silent : s.ptrYield = false)
      (none : s.coro = .none)
  | bare (control : s.control = .code [.destroyHandler]) (frames : s.frames = [])
  | destroyed (control : s.control = .destroyed)

variable {s : HelperState} {action : HelperAction} {rest : List Effect} {closure : ClosureId}

/-! ### What can happen at a place -/

theorem guard_code (control : s.control = .code rest) (guard : s.Guard action) :
    action = .effect := by
  cases action <;> simp [Guard, control, Control.isUnwinding] at guard ⊢

private theorem guard_unwinding (control : s.control = .unwinding rest) (guard : s.Guard action) :
    action = .yield ∨ action = .unwound := by
  cases action <;> simp [Guard, control, Control.isCode] at guard ⊢

private theorem guard_body (control : s.control = .body) (guard : s.Guard action) :
    action = .resume ∧ s.coro = .none ∨ action = .yield ∨ action = .finish ∨ action = .throw := by
  cases action <;> simp [Guard, control, Control.isCode, Control.isUnwinding] at guard ⊢
  exact guard

private theorem guard_outside (control : s.control = .outside) (guard : s.Guard action) :
    action = .start ∨ action = .resume ∨ action = .destroy := by
  cases action <;> simp [Guard, control, Control.isCode, Control.isUnwinding] at guard ⊢

theorem step_effect {effect : Effect} (control : s.control = .code (effect :: rest)) :
    s.step .effect = s.perform rest effect := by
  simp [step, HelperState.effect, control]

/-! ### One step -/

/-- Where `ptr_yield_` is null, `Yield` returns at once. -/
theorem step_silent_yield (silent : s.ptrYield = false) : s.step .yield = s := by
  simp [step, yield, silent]

theorem step_unwound (control : s.control = .unwinding rest) (none : s.coro = .none) :
    s.step .unwound = { s with frames := s.frames.tail, control := .goOn rest } := by
  simp [step, unwound, control, none]

theorem Runs.tail (runs : s.Runs closure) : s.frames.tail = [] := by
  rw [runs.frames]
  rfl

theorem Runs.own (runs : s.Runs closure) (same : s.handler = some closure) : s.Own := by
  intro other member
  rw [runs.frames, List.mem_singleton] at member
  rw [member]
  exact same

theorem own_of_bare (bare : s.frames = []) : s.Own := by
  intro other member
  simp [bare] at member

namespace Placed

theorem ended (control : s.control = .outside) (bare : s.frames = [])
    (gone : s.coro = .none ∨ s.coro = .complete) : s.Placed := by
  have inactive : s.coro ≠ .active := by rcases gone with none | complete <;> simp [*]
  have present : s.coro ≠ .suspended := by rcases gone with none | complete <;> simp [*]
  refine .outside control ⟨inactive, fun _ => bare, fun suspended => absurd suspended present⟩ ?_ ?_
  · exact own_of_bare bare
  · exact fun suspended => absurd suspended present

theorem initial : Placed {} :=
  ended rfl rfl (.inl rfl)

theorem start (idle : s.Idle) : Placed s.start := by
  refine .starting rfl ⟨idle.inactive, idle.bare, fun suspended => ?_⟩ rfl ?_
  · obtain ⟨closure, given, frames⟩ := idle.occupied suspended
    exact ⟨closure, Nat.lt_succ_of_lt given, frames⟩
  · intro other member
    by_cases suspended : s.coro = .suspended
    · obtain ⟨closure, given, frames⟩ := idle.occupied suspended
      obtain rfl : other = closure := by simpa [HelperState.start, frames] using member
      exact given
    · simp [HelperState.start, idle.bare suspended] at member

theorem resume (control : s.control = .outside) (idle : s.Idle) (own : s.Own)
    (yields : s.coro = .suspended → s.ptrYield = true) : Placed s.resume := by
  by_cases suspended : s.coro = .suspended
  · obtain ⟨closure, given, frames⟩ := idle.occupied suspended
    have resumes : s.resume = { s with coro := .active, control := .body } := by
      simp [HelperState.resume, suspended, yields suspended]
    rw [resumes]
    exact .running rfl ⟨given, frames⟩ (own closure (by simp [frames])) (yields suspended)
      (.inr rfl)
  · rw [HelperState.resume, if_neg suspended]
    exact .outside control idle own yields

theorem yield (control : s.control = .body) (runs : s.Runs closure)
    (own : s.handler = some closure) (yields : s.ptrYield = true) : Placed s.yield := by
  have suspends : s.yield = { s with coro := .suspended, control := .outside } := by
    simp [HelperState.yield, yields, control]
  rw [suspends]
  refine .outside rfl ⟨by simp, by simp, fun _ => ⟨closure, runs.given, runs.frames⟩⟩ ?_ ?_
  · exact runs.own own
  · exact fun _ => yields

/-- `coro_.reset()` unwinds a suspended coroutine. -/
theorem reset_suspended (suspended : s.coro = .suspended) :
    s.perform rest .resetCoro = { s with coro := .none, control := .unwinding rest } := by
  simp [perform, suspended]

theorem reset_other (other : s.coro ≠ .suspended) :
    s.perform rest .resetCoro = { s with coro := .none, control := .goOn rest } := by
  simp [perform, other]

theorem step (placed : s.Placed) (guard : s.Guard action) : (s.step action).Placed := by
  cases placed with
  | outside control idle own yields =>
      rcases guard_outside control guard with rfl | rfl | rfl
      · exact start idle
      · exact resume control idle own yields
      · exact .destroying rfl ⟨idle.inactive, idle.bare, idle.occupied⟩ own
  | starting control idle last old =>
      rename_i closure
      obtain rfl := guard_code control guard
      rw [step_effect control]
      refine .assigned rfl ⟨idle.inactive, idle.bare, idle.occupied⟩ ⟨closure, ?_, rfl, ?_⟩
      · change closure < s.given
        exact last ▸ Nat.lt_succ_self closure
      · exact fun member => Nat.lt_irrefl closure (old closure member)
  | assigned control idle replaced =>
      obtain rfl := guard_code control guard
      rw [step_effect control]
      exact .cleared rfl ⟨idle.inactive, idle.bare, idle.occupied⟩ replaced rfl
  | cleared control idle replaced silent =>
      obtain rfl := guard_code control guard
      rw [step_effect control]
      by_cases suspended : s.coro = .suspended
      · obtain ⟨closure, given, frames⟩ := idle.occupied suspended
        rw [reset_suspended suspended]
        exact .restarting rfl ⟨given, frames⟩ replaced silent rfl
      · rw [reset_other suspended]
        exact .reset rfl replaced rfl (idle.bare suspended)
  | reset control replaced none bare =>
      obtain rfl := guard_code control guard
      rw [step_effect control]
      obtain ⟨closure, given, handler, -⟩ := replaced
      exact .running rfl ⟨given, by simp [perform, handler, bare]⟩ handler rfl (.inl none)
  | running control runs own yields coro =>
      rename_i closure
      rcases guard_body control guard with ⟨rfl, none⟩ | rfl | rfl | rfl
      · rw [HelperState.step, HelperState.resume, if_neg (by simp [none])]
        exact .running control runs own yields coro
      · exact yield control runs own yields
      · exact ended rfl runs.tail (.inr rfl)
      · refine ended rfl runs.tail ?_
        simp only [HelperState.step, throw]
        split
        · exact .inr rfl
        · exact .inl rfl
  | restarting control runs replaced silent none =>
      rcases guard_unwinding control guard with rfl | rfl
      · rw [step_silent_yield silent]
        exact .restarting control runs replaced silent none
      · rw [step_unwound control none]
        obtain ⟨other, given, handler, -⟩ := replaced
        exact .reset rfl ⟨other, given, handler, by simp [runs.tail]⟩ none runs.tail
  | destroying control idle own =>
      obtain rfl := guard_code control guard
      rw [step_effect control]
      exact .silenced rfl ⟨idle.inactive, idle.bare, idle.occupied⟩ own rfl
  | silenced control idle own silent =>
      obtain rfl := guard_code control guard
      rw [step_effect control]
      by_cases suspended : s.coro = .suspended
      · obtain ⟨closure, given, frames⟩ := idle.occupied suspended
        rw [reset_suspended suspended]
        exact .unwinding rfl ⟨given, frames⟩ (own closure (by simp [frames])) silent rfl
      · rw [reset_other suspended]
        exact .bare rfl (idle.bare suspended)
  | unwinding control runs own silent none =>
      rcases guard_unwinding control guard with rfl | rfl
      · rw [step_silent_yield silent]
        exact .unwinding control runs own silent none
      · rw [step_unwound control none]
        exact .bare rfl runs.tail
  | bare control frames =>
      obtain rfl := guard_code control guard
      rw [step_effect control]
      exact .destroyed rfl
  | destroyed control =>
      cases action <;> simp [Guard, control, Control.isCode, Control.isUnwinding] at guard

theorem bodyWaits (placed : s.Placed) : s.BodyWaits := by
  intro rest makes
  cases placed with
  | reset control replaced none bare => exact bare
  | outside control | starting control | assigned control | cleared control | running control
  | restarting control | destroying control | silenced control | unwinding control | bare control
  | destroyed control => simp [makes, startCode, destructorCode] at control

theorem yields (placed : s.Placed)
    (lives : s.control = .body ∨ s.control = .outside ∧ s.coro = .suspended) :
    s.ptrYield = true := by
  cases placed with
  | running control runs own yields => exact yields
  | outside control idle own yields =>
      apply yields
      simpa [control] using lives
  | starting control | assigned control | cleared control | reset control | restarting control
  | destroying control | silenced control | unwinding control | bare control
  | destroyed control => simp [control, startCode, destructorCode] at lives

theorem seesCaptures (placed : s.Placed) (calm : s.control ≠ .unwinding [.makeCoro]) :
    s.SeesCaptures := by
  intro unwinds
  cases placed with
  | restarting control => exact absurd control calm
  | unwinding control runs own => exact runs.own own
  | outside control | starting control | assigned control | cleared control | running control
  | reset control | destroying control | silenced control | bare control | destroyed control =>
      simp [control, Control.isUnwinding] at unwinds

/-- `Start` has given the helper another closure when it unwinds the stack. -/
theorem not_seesCaptures (placed : s.Placed) (control : s.control = .code [.resetCoro, .makeCoro])
    (suspended : s.coro = .suspended) : ¬ (s.step .effect).SeesCaptures := by
  intro sees
  rw [step_effect control, reset_suspended suspended] at sees
  cases placed with
  | cleared _ idle replaced =>
      obtain ⟨other, -, handler, fresh⟩ := replaced
      obtain ⟨closure, -, frames⟩ := idle.occupied suspended
      have kept : s.handler = some closure := sees rfl closure (by simp [frames])
      obtain rfl := Option.some.inj (handler.symm.trans kept)
      simp [frames] at fresh
  | outside place | starting place | assigned place | running place | restarting place
  | reset place | destroying place | silenced place | unwinding place | bare place
  | destroyed place => simp [control, startCode, destructorCode] at place

end Placed

theorem goOn_ne_unwinding {others : List Effect} : Control.goOn rest ≠ .unwinding others := by
  cases rest <;> simp [Control.goOn]

/-- `Start` gets to unwind a stack only by resetting a suspended coroutine. -/
theorem restarting_of_step (unwinds : (s.step action).control = .unwinding [.makeCoro]) :
    s.control = .unwinding [.makeCoro] ∨ ¬ NoRestart s action := by
  cases action with
  | start | destroy | finish | throw => cases unwinds
  | resume =>
      simp only [step, resume] at unwinds
      split at unwinds
      · split at unwinds <;> simp at unwinds
      · exact .inl unwinds
  | effect =>
      simp only [step, HelperState.effect] at unwinds
      split at unwinds
      next effect rest control =>
        right
        cases effect with
        | resetCoro =>
            simp only [perform] at unwinds
            split at unwinds
            next suspended =>
              obtain rfl : rest = [.makeCoro] := by simpa using unwinds
              simp [NoRestart, control, suspended]
            next => exact absurd unwinds goOn_ne_unwinding
        | assignHandler | clearYield => exact absurd unwinds goOn_ne_unwinding
        | makeCoro | destroyHandler => cases unwinds
      all_goals exact .inl unwinds
  | yield =>
      simp only [step, yield] at unwinds
      split at unwinds
      · split at unwinds
        · exact absurd unwinds goOn_ne_unwinding
        all_goals cases unwinds
      · exact .inl unwinds
  | unwound =>
      simp only [step, unwound] at unwinds
      split at unwinds
      · exact absurd unwinds goOn_ne_unwinding
      all_goals exact .inl unwinds

end HelperState

/-- In the life of a helper every stack is unwound while the closure of its body is in
`handler_`, and every body starts when nothing is left of the one before, exactly if
`Start` never resets a suspended coroutine. -/
theorem closure_outlives_stack_iff {actions : List HelperAction}
    (legal : helperSystem.Legal {} actions) :
    helperSystem.EveryState (fun s => s.SeesCaptures ∧ s.BodyWaits) {} actions ↔
      helperSystem.EveryStep HelperState.NoRestart {} actions := by
  refine ActionSystem.everyState_iff_everyStep
    (fun s (inv : s.Placed ∧ s.control ≠ .unwinding [.makeCoro]) =>
      ⟨inv.1.seesCaptures inv.2, inv.1.bodyWaits⟩)
    ?_ ?_ ⟨HelperState.Placed.initial, by simp⟩ legal
    (ActionSystem.everyStep_of_forall fun _ _ => trivial)
  · intro s action inv guard (_ : True) calm
    refine ⟨inv.1.step guard, fun unwinds => ?_⟩
    rcases HelperState.restarting_of_step unwinds with before | restarts
    · exact inv.2 before
    · exact restarts calm
  · intro s action inv guard _ restarts both
    cases action with
    | effect =>
        simp only [HelperState.NoRestart, Classical.not_imp, not_not] at restarts
        exact inv.1.not_seesCaptures restarts.1 restarts.2 both.1
    | start | resume | destroy | yield | finish | throw | unwound => exact restarts trivial

/-- A coroutine yields and is started again. -/
def startedTwice : List HelperAction :=
  [.start, .effect, .effect, .effect, .effect, .yield, .start, .effect, .effect, .effect]

/-- The second closure is in `handler_` when the stack of the first body is unwound. -/
theorem closure_not_outlives_startedTwice :
    helperSystem.Legal {} startedTwice ∧
      ¬ helperSystem.EveryState (fun s => s.SeesCaptures ∧ s.BodyWaits) {} startedTwice := by
  refine ⟨by decide, fun states => ?_⟩
  have kept := states.last.1 rfl 0 (by decide)
  exact absurd kept (by decide)

/-- A coroutine yields and is resumed, a second one is destroyed in the middle of its
body. -/
def destroyedInBody : List HelperAction :=
  [.start, .effect, .effect, .effect, .effect, .yield, .resume, .finish, .start, .effect, .effect,
    .effect, .effect, .yield, .destroy, .effect, .effect, .yield, .unwound, .effect]

theorem closure_outlives_destroyedInBody :
    helperSystem.EveryState (fun s => s.SeesCaptures ∧ s.BodyWaits) {} destroyedInBody :=
  (closure_outlives_stack_iff (by decide)).mpr (by decide)

end FlatAsync
