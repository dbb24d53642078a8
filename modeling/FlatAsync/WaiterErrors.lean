import FlatAsync.WaiterBarrier

/-!
# A Waiter after an exception

`Wait` throws when `Cancel` or `Timedout` was called on its task: before the
yield, where `proceeder_` is still in place, or on resumption, where the
callable has moved it out and `init` is skipped.  This file shows that a
`Waiter` works on after every exception of the first kind and after none of the
second.
-/

namespace FlatAsync

variable {T : Type}

namespace WaiterState

/-- Outside `Wait`, `Waiter` `w` holds the token of a round that has not ended, with
the proceed handler in place. -/
def HoldsLiveToken (s : WaiterState T) (w : WaiterId) : Prop :=
  (s.waiters w).stage = .alive → (s.waiters w).waiting = false →
    s.proceeder w = some (s.waiters w).token ∧
      (s.joins.table.joins (s.waiters w).token).phase = .idle ∧
        (s.joins.table.joins (s.waiters w).token).proceed = true

instance (s : WaiterState T) (w : WaiterId) : Decidable (s.HoldsLiveToken w) :=
  inferInstanceAs (Decidable (_ → _ → _))

/-- A `Wait` on `w` that suspends leaves its token with tasks that have not been
deleted. -/
def SuspendsForTasks (s : WaiterState T) (w : WaiterId) (action : WaiterAction T) : Prop :=
  ∀ t, action = .wait t w → s.suspends t w = true →
    ((s.step action).joins.table.joins (s.waiters w).token).phase = .stored ∧
      ∃ r child, (s.step action).joins.table.child r = some child ∧
        child.join = (s.waiters w).token ∧ (s.joins.system.runners r).stage ≠ .deleted

/-- What users of `Waiter` `w` rely on in each step: a new task counts for the next
`Wait`, `Wait` returns when all tasks launched before have ended, and it suspends
only where a task will resume it. -/
structure Serves (s : WaiterState T) (w : WaiterId) (action : WaiterAction T) : Prop where
  counts : ∀ t created, action = .runAsync t w created → CountsForNextWait s w action created
  returns : s.WaitReturns w action → ∀ r ∈ (s.waiters w).launched, s.joins.ended r = true
  suspends : s.SuspendsForTasks w action

end WaiterState

namespace WaiterInvariant

variable {s : WaiterState T} {action : WaiterAction T} {w : WaiterId}

theorem holdsLiveToken (inv : WaiterInvariant s) (steady : (s.waiters w).Steady s.joins.table) :
    s.HoldsLiveToken w := by
  intro alive rests
  have idle := steady.idle alive rests
  rcases (inv.sound w).resting alive rests with ⟨-, looping, proceed⟩ | answered
  · exact ⟨by simp [WaiterState.proceeder, looping], idle, proceed⟩
  · simp [idle] at answered

/-- A resumption with an event pending ends `Wait` while `proceeder_` is null. -/
theorem not_holdsLiveToken (inv : WaiterInvariant s) (enabled : s.Enabled action)
    (loud : ¬ s.ResumesQuietly w action) : ¬ (s.step action).HoldsLiveToken w := by
  obtain ⟨⟨t, r⟩, resumes, alive, waits, owner, event⟩ :
      ∃ call ∈ action.resumption, (s.waiters w).stage = .alive ∧ (s.waiters w).waiting = true ∧
        (s.waiters w).owner = call.2 ∧ s.joins.system.handleEvents call.1 call.2 ≠ none := by
    simpa [WaiterState.ResumesQuietly] using loud
  obtain rfl : action = .other (.runner (.enter t r .proceed)) := by
    unfold WaiterAction.resumption at resumes
    split at resumes
    · cases resumes
      rfl
    · cases resumes
  subst owner
  have permitted : s.joins.Enabled (.runner (.enter t (s.waiters w).owner .proceed)) := enabled.2
  have works : (s.joins.system.threads t).WorksFor (s.waiters w).owner :=
    .inr ⟨.proceed, permitted.2.2.1⟩
  have answered := inv.answered_of_works alive waits works
  have thrown : (s.step (.other (.runner (.enter t (s.waiters w).owner .proceed)))).waiters w =
      { s.waiters w with waiting := false } := by
    simp [WaiterState.step, WaiterState.afterWaiters, WaiterState.afterOther,
      Option.isSome_iff_ne_none, event]
  intro holds
  have idle := (holds (by rw [thrown]; exact alive) (by rw [thrown])).2.1
  rw [thrown] at idle
  have stays := (inv.roll.called_step permitted (.inr (.inr answered))).2.2 answered
  exact absurd (stays.symm.trans idle) (by simp)

/-- A `Wait` suspends while some task launched in its round is still there. -/
theorem suspendsForTasks (inv : WaiterInvariant s) (steady : (s.waiters w).Steady s.joins.table)
    (enabled : s.Enabled action) : s.SuspendsForTasks w action := by
  rintro t rfl suspends
  have used : s.Used t w := enabled.1.1
  have held := inv.held_of_steady used enabled.1.2 steady
  obtain ⟨shared, calm⟩ : (s.joins.table.joins (s.waiters w).token).holders ≠ [] ∧
      s.joins.system.handleEvents t (s.waiters w).owner = none := by
    simpa [WaiterState.suspends, WaiterState.unique, held] using suspends
  have after : (s.step (.wait t w)).joins.table =
      s.joins.table.deferJoin (s.waiters w).owner (s.waiters w).token := by
    simp only [WaiterState.step, WaiterState.joinAction, held]
    rw [waiterWait_table, if_pos ⟨shared, calm⟩]
  have remaining : ∃ r child, s.joins.table.child r = some child ∧
      child.join = (s.waiters w).token ∧ (s.joins.system.runners r).stage ≠ .deleted := by
    by_contra none
    push Not at none
    exact shared (inv.roll.holders_eq_nil_iff.mpr none)
  rw [after]
  exact ⟨by simp [JoinTable.deferJoin], remaining⟩

theorem serves (inv : WaiterInvariant s) (steady : (s.waiters w).Steady s.joins.table)
    (enabled : s.Enabled action) : s.Serves w action where
  counts t created same := by
    subst same
    exact inv.countsForNextWait enabled steady
  returns returned r member := by
    obtain ⟨child, found, own⟩ := steady.enlisted r member
    exact inv.ended_of_released found (inv.released_of_returns enabled returned _ own)
  suspends := inv.suspendsForTasks steady enabled

end WaiterInvariant

/-- A `Waiter` holds a live token whenever it is outside `Wait`, also after an
exception, and serves its users in every later round, exactly when no event is
pending where a suspended `Wait` is resumed. -/
theorem waiter_restored_iff {actions : List (WaiterAction T)}
    (legal : (waiterSystem T).Legal {} actions)
    (contract : (waiterSystem T).EveryStep WaiterState.Contract {} actions) (w : WaiterId) :
    ((waiterSystem T).EveryState (fun s => s.HoldsLiveToken w) {} actions ∧
      (waiterSystem T).EveryStep (fun s action => s.Serves w action) {} actions ∧
      (waiterSystem T).EveryState (fun s => (s.waiters w).stage = .alive →
        (s.waiters w).waiting = true → WaitsForAnswer s.joins (s.waiters w).token) {} actions) ↔
    (waiterSystem T).EveryStep (fun s action => s.ResumesQuietly w action) {} actions := by
  have preserved : ∀ (s : WaiterState T) (action : WaiterAction T),
      (WaiterInvariant s ∧ (s.waiters w).Steady s.joins.table) → s.Enabled action →
        s.Contract action → s.ResumesQuietly w action → WaiterInvariant (s.step action) ∧
          ((s.step action).waiters w).Steady (s.step action).joins.table :=
    fun s action invs enabled kept quiet =>
      ⟨invs.1.step enabled kept, invs.1.steady_step enabled quiet invs.2⟩
  have first : WaiterInvariant ({} : WaiterState T) ∧
      (({} : WaiterState T).waiters w).Steady ({} : WaiterState T).joins.table :=
    ⟨WaiterInvariant.initial, ⟨nofun, nofun⟩⟩
  have holds : ∀ s : WaiterState T, (WaiterInvariant s ∧ (s.waiters w).Steady s.joins.table) →
      s.HoldsLiveToken w := fun s invs => invs.1.holdsLiveToken invs.2
  have broken : ∀ (s : WaiterState T) (action : WaiterAction T),
      (WaiterInvariant s ∧ (s.waiters w).Steady s.joins.table) → s.Enabled action →
        s.Contract action → ¬ s.ResumesQuietly w action → ¬ (s.step action).HoldsLiveToken w :=
    fun s action invs enabled _ loud => invs.1.not_holdsLiveToken enabled loud
  have held := ActionSystem.everyState_iff_everyStep holds preserved broken first legal contract
  constructor
  · rintro ⟨states, -, -⟩
    exact held.mp states
  · intro quiet
    refine ⟨held.mpr quiet, ?_, ?_⟩
    · apply WaiterInvariant.everyStep legal contract quiet
      intro s action inv steady enabled
      exact inv.serves steady enabled
    · apply (WaiterInvariant.everyState legal contract).imp
      intro s inv alive waits
      exact inv.waitsForAnswer alive waits

/-- `Cancel` comes before `Wait`, which throws.  Task 0 catches the exception, resets
its status and waits again until the task it launched is gone. -/
def cancelledBeforeYield : List (WaiterAction Nat) :=
  [.other (.runner (.runAsync 0 1)), .other (.runner (.dispatch 0 ⟨.start, 0, 1⟩)),
    .other (.runner (.enter 0 0 .start)), .construct 0 0 0 0, .runAsync 0 0 1,
    .other (.runner (.setStatus 0 .cancelled)), .wait 0 0,
    .other (.runner (.catchException 0 0)), .other (.runner (.reset 0)), .wait 0 0,
    .other (.runner (.onExit 0 0)), .other (.endLoop 0 0), .other (.runner (.returnHandler 0 0)),
    .other (.runner (.detach 0)), .other (.runner (.dispatch 1 ⟨.start, 1, 1⟩)),
    .other (.runner (.enter 1 1 .start)), .other (.childReturns 1 1 none),
    .other (.runner (.finish 1 1)), .other (.runner (.onExit 1 1)), .other (.callProceed 1 0),
    .other (.runner (.detach 1)), .other (.runner (.dispatch 0 ⟨.proceed, 0, 1⟩)),
    .other (.runner (.enter 0 0 .proceed)), .init 0 0 1, .runAsync 0 0 2]

theorem waiter_restored_cancelledBeforeYield :
    (waiterSystem Nat).EveryState (fun s => s.HoldsLiveToken 0) {} cancelledBeforeYield :=
  ((waiter_restored_iff (by decide +kernel) (by decide +kernel) 0).mpr (by decide +kernel)).1

/-- `Cancel` comes while `Wait` is suspended, and `Wait` throws when it is resumed.
Task 0 catches the exception and resets its status. -/
def cancelledOnResumption : List (WaiterAction Nat) :=
  [.other (.runner (.runAsync 0 1)), .other (.runner (.dispatch 0 ⟨.start, 0, 1⟩)),
    .other (.runner (.enter 0 0 .start)), .construct 0 0 0 0, .runAsync 0 0 1, .wait 0 0,
    .other (.runner (.onExit 0 0)), .other (.endLoop 0 0), .other (.runner (.returnHandler 0 0)),
    .other (.runner (.detach 0)), .other (.runner (.setStatus 0 .cancelled)),
    .other (.runner (.dispatch 1 ⟨.start, 1, 1⟩)), .other (.runner (.enter 1 1 .start)),
    .other (.childReturns 1 1 none), .other (.runner (.finish 1 1)),
    .other (.runner (.onExit 1 1)), .other (.callProceed 1 0), .other (.runner (.detach 1)),
    .other (.runner (.dispatch 0 ⟨.proceed, 0, 1⟩)), .other (.runner (.enter 0 0 .proceed)),
    .other (.runner (.catchException 0 0)), .other (.runner (.reset 0))]

/-- The `Waiter` is left without a token: the next task is not counted, and the
next `Wait` suspends although no task holds a token. -/
theorem waiter_unrestored_cancelledOnResumption :
    (waiterSystem Nat).Legal {} (cancelledOnResumption ++ [.runAsync 0 0 2, .wait 0 0]) ∧
      (waiterSystem Nat).EveryStep WaiterState.Contract {}
        (cancelledOnResumption ++ [.runAsync 0 0 2, .wait 0 0]) ∧
      ((waiterSystem Nat).run {} cancelledOnResumption).proceeder 0 = none ∧
      (((waiterSystem Nat).run {} cancelledOnResumption).joins.system.runners 0).opState =
        .normal ∧
      (((waiterSystem Nat).run {} cancelledOnResumption).joins.system.threads 0).uncaught = 0 ∧
      ((waiterSystem Nat).run {}
        (cancelledOnResumption ++ [.runAsync 0 0 2])).joins.table.child 2 = none ∧
      ((waiterSystem Nat).run {}
        (cancelledOnResumption ++ [.runAsync 0 0 2])).suspends 0 0 = true ∧
      ¬ (waiterSystem Nat).EveryState (fun s => s.HoldsLiveToken 0) {} cancelledOnResumption := by
  refine ⟨by decide +kernel, by decide +kernel, by decide +kernel, by decide +kernel,
    by decide +kernel, by decide +kernel, by decide +kernel, fun states => ?_⟩
  exact absurd states.last (by decide +kernel)

end FlatAsync
