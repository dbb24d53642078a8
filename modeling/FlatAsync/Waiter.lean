import FlatAsync.JoinOutcome

/-!
# Waiter

A `Waiter` keeps the token of the present round in `proceeder_`.  `RunAsync`
copies it into the closure of a child, the callable of `Wait` moves it out, and
`init` makes the token of the next round; `~Waiter` silences the deleter and
releases the copy.

This file puts the `Waiter` objects beside the joins.  An operation of a
`Waiter` is at most one step of the joins, on the token of the present round.
-/

namespace FlatAsync

abbrev WaiterId := Nat

inductive WaiterStage
  | unborn
  | alive
  | destroyed
  deriving DecidableEq, Repr

/-- `token` is the join `proceeder_` was last set to by `init`, and `past` lists
those of earlier rounds.  `waiting` holds from the yield inside `Wait` to the
end of `Wait`; `launched` lists the tasks of all calls of `RunAsync`. -/
structure Waiter where
  stage : WaiterStage := .unborn
  owner : RunnerId := 0
  token : JoinId := 0
  past : List JoinId := []
  waiting : Bool := false
  launched : List RunnerId := []
  deriving DecidableEq, Repr

def Waiter.tokens (waiter : Waiter) : List JoinId :=
  if waiter.stage = .unborn then [] else waiter.token :: waiter.past

variable {T : Type}

/-- The joins and the `Waiter` objects. -/
structure WaiterState (T : Type) where
  joins : JoinState T := {}
  waiters : WaiterId → Waiter := fun _ => {}

/-- The steps of a `Waiter`, all of them taken by the body of its owner; `init`
is the rest of `Wait` after its `Defer` has returned.  `other` steps concern no
`Waiter`. -/
inductive WaiterAction (T : Type)
  | other (action : JoinAction T)
  | construct (thread : ThreadId) (runner : RunnerId) (waiter : WaiterId) (token : JoinId)
  | runAsync (thread : ThreadId) (waiter : WaiterId) (created : RunnerId)
  | wait (thread : ThreadId) (waiter : WaiterId)
  | init (thread : ThreadId) (waiter : WaiterId) (token : JoinId)
  | destroy (thread : ThreadId) (waiter : WaiterId)
  deriving Repr

/-- The step is no operation of a `Waiter`. -/
def JoinAction.plain : JoinAction T → Bool
  | .makeWaiter .. | .waiterRunAsync .. | .waiterWait .. | .dropWaiter .. => false
  | .runner .. | .defer .. | .userCall .. | .join .. | .launch .. | .endLoop ..
  | .childReturns .. | .childThrows .. | .increment .. | .callProceed .. => true

namespace WaiterState

variable (s : WaiterState T)

/-- `proceeder_`, which is null from the step in which the callable of `Wait` moves
it out and releases the copy, `endLoop` of the token, to the next `init`. -/
def proceeder (w : WaiterId) : Option JoinId :=
  if (s.joins.table.joins (s.waiters w).token).looping = true then some (s.waiters w).token
  else none

/-- `proceeder_.unique()` -/
def unique (w : WaiterId) : Bool :=
  match s.proceeder w with
  | some j => (s.joins.table.joins j).holders = []
  | none => false

/-- The step of the joins that is part of a step of a `Waiter`. -/
def joinAction : WaiterAction T → Option (JoinAction T)
  | .other action => some action
  | .construct t r _ j => some (.makeWaiter t r j)
  | .runAsync t w created =>
      match s.proceeder w with
      | some j => some (.waiterRunAsync t (s.waiters w).owner j created)
      | none => some (.runner (.runAsyncHere t created))
  | .wait t w =>
      match s.proceeder w with
      | some j => some (.waiterWait t (s.waiters w).owner j)
      | none => some (.defer t (s.waiters w).owner 0)
  | .init t w j => some (.makeWaiter t (s.waiters w).owner j)
  | .destroy t w =>
      match s.proceeder w with
      | some j => some (.dropWaiter t (s.waiters w).owner j)
      | none => none

/-- The owner of `Waiter` `w` executes its own code on thread `t`. -/
def Used (t : ThreadId) (w : WaiterId) : Prop :=
  (s.waiters w).stage = .alive ∧ s.joins.BodyOf t (s.waiters w).owner

/-- Where each step is allowed: the owner of a `Waiter` does nothing else with it
between the start and the end of `Wait`. -/
def Guard : WaiterAction T → Prop
  | .other action => action.plain = true
  | .construct _ _ w _ => (s.waiters w).stage = .unborn
  | .runAsync t w _ | .wait t w | .destroy t w => s.Used t w ∧ (s.waiters w).waiting = false
  | .init t w _ => s.Used t w ∧ (s.waiters w).waiting = true

instance (t : ThreadId) (w : WaiterId) : Decidable (s.Used t w) :=
  inferInstanceAs (Decidable (_ ∧ _))

instance : ∀ action, Decidable (s.Guard action)
  | .other .. | .construct .. => inferInstanceAs (Decidable (_ = _))
  | .runAsync .. | .wait .. | .destroy .. | .init .. => inferInstanceAs (Decidable (_ ∧ _))

def Permits : Option (JoinAction T) → Prop
  | some step => s.joins.Enabled step
  | none => True

instance : ∀ step, Decidable (s.Permits step)
  | some step => inferInstanceAs (Decidable (s.joins.Enabled step))
  | none => inferInstanceAs (Decidable True)

def Enabled (action : WaiterAction T) : Prop :=
  s.Guard action ∧ s.Permits (s.joinAction action)

instance (action : WaiterAction T) : Decidable (s.Enabled action) :=
  inferInstanceAs (Decidable (_ ∧ _))

/-- `Wait` stores its callable and yields. -/
def suspends (t : ThreadId) (w : WaiterId) : Bool :=
  !s.unique w && (s.joins.system.handleEvents t (s.waiters w).owner).isNone

/-- A `Wait` whose `Defer` finds an event when it is resumed ends with an
exception. -/
def afterOther : JoinAction T → WaiterId → Waiter
  | .runner (.enter t r .proceed), w =>
      if (s.waiters w).owner = r ∧ (s.joins.system.handleEvents t r).isSome then
        { s.waiters w with waiting := false }
      else
        s.waiters w
  | _, w => s.waiters w

def afterWaiters : WaiterAction T → WaiterId → Waiter
  | .other action => s.afterOther action
  | .construct _ r w j =>
      Function.update s.waiters w { stage := .alive, owner := r, token := j }
  | .runAsync _ w created =>
      Function.update s.waiters w
        { s.waiters w with launched := created :: (s.waiters w).launched }
  | .wait t w =>
      Function.update s.waiters w { s.waiters w with waiting := s.suspends t w }
  | .init _ w j =>
      Function.update s.waiters w
        { s.waiters w with
          token := j, past := (s.waiters w).token :: (s.waiters w).past, waiting := false }
  | .destroy _ w => Function.update s.waiters w { s.waiters w with stage := .destroyed }

def step (action : WaiterAction T) : WaiterState T where
  joins :=
    match s.joinAction action with
    | some step => s.joins.step step
    | none => s.joins
  waiters := s.afterWaiters action

/-- The part of a step that belongs to the joins keeps the contract. -/
def Keeps : Option (JoinAction T) → Prop
  | some step => UserContract s.joins step
  | none => True

instance : ∀ step, Decidable (s.Keeps step)
  | some step => inferInstanceAs (Decidable (UserContract s.joins step))
  | none => inferInstanceAs (Decidable True)

def Contract (action : WaiterAction T) : Prop := s.Keeps (s.joinAction action)

instance (action : WaiterAction T) : Decidable (s.Contract action) :=
  inferInstanceAs (Decidable (s.Keeps _))

end WaiterState

/-- Any number of `Waiter` objects and tasks. -/
def waiterSystem (T : Type) : ActionSystem (WaiterState T) (WaiterAction T) where
  enabled := WaiterState.Enabled
  next := WaiterState.step

instance (s : WaiterState T) (action : WaiterAction T) :
    Decidable ((waiterSystem T).enabled s action) :=
  inferInstanceAs (Decidable (s.Enabled action))

/-! ### Tokens -/

/-- The `Wait` of a token has yielded. -/
def JoinPhase.Called (phase : JoinPhase) : Prop :=
  phase = .stored ∨ phase = .begun ∨ phase = .answered

/-- The step ends the round of token `k`. -/
def JoinAction.endsRound (k : JoinId) : JoinAction T → Bool
  | .waiterWait _ _ j | .dropWaiter _ _ j => j = k
  | _ => false

namespace JoinRoll

variable {s : JoinState T} {action : JoinAction T} {j : JoinId}

/-- The `Waiter` keeps its copy of a token until it ends the round. -/
theorem idle_step (inv : JoinRoll s) (enabled : s.Enabled action)
    (idle : (s.table.joins j).phase = .idle) (stays : action.endsRound j = false) :
    ((s.step action).table.joins j).phase = .idle ∧
      ((s.step action).table.joins j).looping = (s.table.joins j).looping ∧
        ((s.step action).table.joins j).proceed = (s.table.joins j).proceed := by
  have notHandler {t : ThreadId} : ¬ s.HandlerOf t j := by
    rintro ⟨defers, runs, -⟩
    rcases (inv.inv.fits.running t _ j defers runs).2 with begun | answered
    · simp [idle] at begun
    · simp [idle] at answered
  cases inv.changes enabled j with
  | same _ same => simp [same, idle]
  | made _ unused => simp [idle] at unused
  | suspends _ _ _ waits =>
      obtain ⟨t, r, rfl⟩ := waits
      simp [JoinAction.endsRound] at stays
  | begins _ stored => simp [idle] at stored
  | answered _ begun => simp [idle] at begun
  | launches _ _ created launches same => simp [same, idle]
  | releasesLoop _ _ proceed releases =>
      rcases releases with ⟨t, rfl, -⟩ | ⟨t, r, rfl, -⟩
      · exact absurd enabled.2.1.1 notHandler
      · simp [JoinAction.endsRound] at stays
  | releasesChild _ _ _ _ _ _ _ same =>
      have release := Join.afterRelease_same (T := T)
      rw [same, (release _).phase, (release _).looping, (release _).proceed]
      exact ⟨idle, rfl, rfl⟩
  | returns _ _ _ _ _ value _ _ _ _ same =>
      have counts := (s.table.joins j).tryProceed_same (some value)
      rw [same, counts.phase, counts.looping, counts.proceed]
      exact ⟨idle, rfl, rfl⟩
  | counts _ _ _ index _ _ same =>
      have counts := (s.table.joins j).tryIndex_same index
      rw [same, counts.phase, counts.looping, counts.proceed]
      exact ⟨idle, rfl, rfl⟩

/-- A token whose round has ended goes on to its answer, and keeps its proceed
handler. -/
theorem called_step (inv : JoinRoll s) (enabled : s.Enabled action)
    (called : (s.table.joins j).phase.Called) :
    ((s.step action).table.joins j).phase.Called ∧
      ((s.step action).table.joins j).proceed = (s.table.joins j).proceed ∧
        ((s.table.joins j).phase = .answered →
          ((s.step action).table.joins j).phase = .answered) := by
  cases inv.changes enabled j with
  | same _ same | launches _ _ _ _ same => rw [same]; exact ⟨called, rfl, id⟩
  | made _ unused => simp [JoinPhase.Called, unused] at called
  | suspends _ idle => simp [JoinPhase.Called, idle] at called
  | begins _ stored same => simp [same, JoinPhase.Called, stored]
  | answered _ begun same => simp [same, JoinPhase.Called]
  | releasesLoop _ _ proceed releases same =>
      have release := Join.afterRelease_same (T := T)
      rw [same, (release _).phase, (release _).proceed]
      refine ⟨called, ?_, id⟩
      rcases releases with ⟨t, -, kept⟩ | ⟨t, r, rfl, -⟩
      · exact kept
      · simp [JoinPhase.Called, enabled.2.1.2.2.2.1] at called
  | releasesChild _ _ _ _ _ _ _ same =>
      have release := Join.afterRelease_same (T := T)
      rw [same, (release _).phase, (release _).proceed]
      exact ⟨called, rfl, id⟩
  | returns _ _ _ _ _ value _ _ _ _ same =>
      have counts := (s.table.joins j).tryProceed_same (some value)
      rw [same, counts.phase, counts.proceed]
      exact ⟨called, rfl, id⟩
  | counts _ _ _ index _ _ same =>
      have counts := (s.table.joins j).tryIndex_same index
      rw [same, counts.phase, counts.proceed]
      exact ⟨called, rfl, id⟩

theorem released_of_answered (inv : JoinRoll s) (kind : (s.table.joins j).kind = .waiter)
    (answered : (s.table.joins j).phase = .answered) :
    (s.table.joins j).looping = false ∧ (s.table.joins j).holders = [] := by
  by_contra unreleased
  have unclaimed : (s.table.joins j).claimed = false := by
    simpa [Join.claimed, kind, Decidable.or_iff_not_imp_left] using unreleased
  exact (inv.inv.ledger.unclaimed j unclaimed).1 answered

theorem released_step (inv : JoinRoll s) (enabled : s.Enabled action)
    (used : (s.table.joins j).phase ≠ .unused) (looping : (s.table.joins j).looping = false)
    (holders : (s.table.joins j).holders = []) :
    ((s.step action).table.joins j).looping = false ∧
      ((s.step action).table.joins j).holders = [] := by
  cases inv.changes enabled j with
  | same _ same | suspends _ _ _ _ same | begins _ _ same | answered _ _ same =>
      simp [same, looping, holders]
  | made _ unused => exact absurd unused used
  | launches _ more | releasesLoop _ more => simp [looping] at more
  | releasesChild _ _ _ _ _ _ _ same =>
      have release := Join.afterRelease_same (T := T)
      rw [same, (release _).looping, (release _).holders]
      exact ⟨looping, by simp [holders]⟩
  | returns _ _ _ _ _ value _ _ _ _ same =>
      have counts := (s.table.joins j).tryProceed_same (some value)
      rw [same, counts.looping, counts.holders]
      exact ⟨looping, holders⟩
  | counts _ _ _ index _ _ same =>
      have counts := (s.table.joins j).tryIndex_same index
      rw [same, counts.looping, counts.holders]
      exact ⟨looping, holders⟩

end JoinRoll

end FlatAsync
