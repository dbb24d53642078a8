import FlatAsync.WaiterRounds

/-!
# The lifetime of a Waiter

The deleter of a token refers to its `Waiter`, and the last copy of the token
may be released by a child that outlives the `Waiter`.  This file shows that a
destroyed `Waiter` is left alone when no child holds a copy of its token at the
time of `~Waiter`, and that otherwise the deleter reads it.
-/

namespace FlatAsync

variable {T : Type}

namespace WaiterState

/-- The step reads `Waiter` `w` or calls its proceed handler: the deletion of a
child releases the last copy of a token, the callable of `Wait` runs, or the
deleter goes on to the call. -/
def UsesWaiter (s : WaiterState T) (w : WaiterId) : WaiterAction T → Prop
  | .other (.runner (.onExit _ r)) =>
      (s.joins.system.runners r).deferHandler = none ∧
        ∃ child, s.joins.table.child r = some child ∧ child.join ∈ (s.waiters w).tokens ∧
          (s.joins.table.joins child.join).looping = false ∧
            (s.joins.table.joins child.join).holders.erase r = []
  | .other (.endLoop _ k) | .other (.callProceed _ k) => k ∈ (s.waiters w).tokens
  | _ => False

/-- `~Waiter` runs when `proceeder_` is null or the only copy of its token. -/
def DestroysUnshared (s : WaiterState T) : WaiterAction T → Prop
  | .destroy _ w => s.proceeder w = none ∨ s.unique w = true
  | _ => True

instance (s : WaiterState T) : ∀ action, Decidable (s.DestroysUnshared action)
  | .destroy .. => inferInstanceAs (Decidable (_ ∨ _))
  | .other _ | .construct .. | .runAsync .. | .wait .. | .init .. =>
      inferInstanceAs (Decidable True)

/-- No copy of a token of a destroyed `Waiter` is left. -/
def Buried (s : WaiterState T) : Prop :=
  ∀ w, (s.waiters w).stage = .destroyed → ∀ k ∈ (s.waiters w).tokens,
    (s.joins.table.joins k).looping = false ∧ (s.joins.table.joins k).holders = []

private theorem step_joins (s : WaiterState T) (action : WaiterAction T) :
    (s.joinAction action = none ∧ (s.step action).joins = s.joins) ∨
      ∃ step, s.joinAction action = some step ∧ (s.step action).joins = s.joins.step step := by
  cases part : s.joinAction action with
  | none => exact .inl ⟨rfl, by simp [step, part]⟩
  | some step => exact .inr ⟨step, rfl, by simp [WaiterState.step, part]⟩

end WaiterState

namespace WaiterInvariant

variable {s : WaiterState T} {action : WaiterAction T} {w : WaiterId}

theorem released_step (inv : WaiterInvariant s) (enabled : s.Enabled action) {k : JoinId}
    (member : k ∈ (s.waiters w).tokens)
    (released : (s.joins.table.joins k).looping = false ∧ (s.joins.table.joins k).holders = []) :
    ((s.step action).joins.table.joins k).looping = false ∧
      ((s.step action).joins.table.joins k).holders = [] := by
  have permitted := enabled.2
  rcases s.step_joins action with ⟨-, same⟩ | ⟨step, part, same⟩
  · rw [same]
    exact released
  · rw [part] at permitted
    rw [same]
    exact inv.roll.released_step permitted ((inv.sound w).known k member).2.2 released.1 released.2

/-- A `Waiter` that is destroyed after a step was destroyed before and keeps its
tokens, or the step destroys it. -/
theorem destroyed_step (enabled : s.Enabled action)
    (destroyed : ((s.step action).waiters w).stage = .destroyed) :
    ((s.waiters w).stage = .destroyed ∧
        ((s.step action).waiters w).tokens = (s.waiters w).tokens) ∨
      ∃ t, action = .destroy t w := by
  have guard := enabled.1
  change (s.afterWaiters action w).stage = .destroyed at destroyed
  change (_ ∧ (s.afterWaiters action w).tokens = _) ∨ _
  cases action with
  | other action =>
      left
      simp only [WaiterState.afterWaiters] at destroyed ⊢
      rcases afterOther_eq s action w with same | ⟨_, _, _, same⟩
      · rw [same] at destroyed ⊢
        exact ⟨destroyed, rfl⟩
      · rw [same] at destroyed ⊢
        exact ⟨destroyed, rfl⟩
  | construct t r v j | init t v j | runAsync t v created | wait t v =>
      simp only [WaiterState.afterWaiters] at destroyed ⊢
      by_cases here : w = v
      · subst here
        simp [WaiterState.Guard, WaiterState.Used] at guard
        simp [guard] at destroyed
      · rw [Function.update_of_ne here] at destroyed ⊢
        exact .inl ⟨destroyed, rfl⟩
  | destroy t v =>
      simp only [WaiterState.afterWaiters] at destroyed ⊢
      by_cases here : w = v
      · subst here
        exact .inr ⟨t, rfl⟩
      · rw [Function.update_of_ne here] at destroyed ⊢
        exact .inl ⟨destroyed, rfl⟩

/-- After `~Waiter` on an unshared token no copy of any token is left. -/
theorem buried_destroy (inv : WaiterInvariant s) {t : ThreadId}
    (enabled : s.Enabled (.destroy t w)) (unshared : s.DestroysUnshared (.destroy t w)) :
    ∀ k ∈ ((s.step (.destroy t w)).waiters w).tokens,
      ((s.step (.destroy t w)).joins.table.joins k).looping = false ∧
        ((s.step (.destroy t w)).joins.table.joins k).holders = [] := by
  intro k member
  have used : s.Used t w := enabled.1.1
  have born : (s.waiters w).stage ≠ .unborn := by simp [used.1]
  have split : k = (s.waiters w).token ∨ k ∈ (s.waiters w).past := by
    simpa [WaiterState.step, WaiterState.afterWaiters, Waiter.tokens] using member
  have answered {k : JoinId} (own : k ∈ (s.waiters w).tokens)
      (done : (s.joins.table.joins k).phase = .answered) :=
    inv.released_step enabled own (inv.roll.released_of_answered ((inv.sound w).known k own).1 done)
  rcases split with rfl | past
  · cases held : s.proceeder w with
    | none => exact answered (Waiter.token_mem born) (inv.answered_of_null used enabled.1.2 held)
    | some j =>
        obtain ⟨rfl, -⟩ := proceeder_eq s held
        have kind := ((inv.sound w).known _ (Waiter.token_mem born)).1
        have unique : (s.joins.table.joins (s.waiters w).token).holders = [] := by
          simpa [WaiterState.DestroysUnshared, WaiterState.unique, held] using unshared
        simp [WaiterState.step, WaiterState.joinAction, held, dropWaiter_joins, kind, unique]
  · exact answered (Waiter.past_mem born past) ((inv.sound w).past born k past)

theorem buried_step (inv : WaiterInvariant s) (enabled : s.Enabled action)
    (unshared : s.DestroysUnshared action) (buried : s.Buried) : (s.step action).Buried := by
  intro w destroyed
  rcases destroyed_step enabled destroyed with ⟨before, tokens⟩ | ⟨t, rfl⟩
  · intro k member
    rw [tokens] at member
    exact inv.released_step enabled member (buried w before k member)
  · exact inv.buried_destroy enabled unshared

/-- A destroyed `Waiter` without copies of its tokens is left alone. -/
theorem unused_of_buried (inv : WaiterInvariant s) (enabled : s.Enabled action)
    (buried : s.Buried) (destroyed : (s.waiters w).stage = .destroyed) :
    ¬ s.UsesWaiter w action := by
  have permitted := enabled.2
  intro uses
  unfold WaiterState.UsesWaiter at uses
  split at uses
  next t r =>
    obtain ⟨-, child, found, member, -, -⟩ := uses
    have empty := (buried w destroyed child.join member).2
    rcases inv.roll.inv.fits.children r child found with deleted | holds
    · have alive := (inv.roll.inv.life.phases.exiting permitted.2.2.1).1
      exact absurd (alive.symm.trans deleted) nofun
    · simp [empty] at holds
  next t k =>
    have looping : (s.joins.table.joins k).looping = true := permitted.2.1.1.2.2
    simp [(buried w destroyed k uses).1] at looping
  next t k =>
    have begun := (inv.roll.inv.ledger.owed t k permitted.2.1).1
    have born : (s.waiters w).stage ≠ .unborn := by simp [destroyed]
    have split : k = (s.waiters w).token ∨ k ∈ (s.waiters w).past := by
      simpa [Waiter.tokens, born] using uses
    rcases split with rfl | past
    · rcases (inv.sound w).destroyed destroyed with ⟨idle, -⟩ | answered
      · simp [idle] at begun
      · simp [answered] at begun
    · simp [(inv.sound w).past born k past] at begun
  · exact uses

end WaiterInvariant

/-- In every run in which no `Waiter` is destroyed while a child holds a copy of
its token, no step uses a destroyed `Waiter`. -/
theorem destroyed_waiter_unused {actions : List (WaiterAction T)}
    (legal : (waiterSystem T).Legal {} actions)
    (contract : (waiterSystem T).EveryStep WaiterState.Contract {} actions)
    (unshared : (waiterSystem T).EveryStep WaiterState.DestroysUnshared {} actions) :
    (waiterSystem T).EveryStep (fun s action => ∀ w, (s.waiters w).stage = .destroyed →
      ¬ s.UsesWaiter w action) {} actions := by
  have preserved : ∀ (s : WaiterState T) (action : WaiterAction T),
      (WaiterInvariant s ∧ s.Buried) → s.Enabled action →
        (s.Contract action ∧ s.DestroysUnshared action) →
          WaiterInvariant (s.step action) ∧ (s.step action).Buried :=
    fun s action invs enabled conditions =>
      ⟨invs.1.step enabled conditions.1, invs.1.buried_step enabled conditions.2 invs.2⟩
  have first : WaiterInvariant ({} : WaiterState T) ∧ ({} : WaiterState T).Buried :=
    ⟨WaiterInvariant.initial, nofun⟩
  refine ActionSystem.everyStep_of_invariant preserved (fun s action invs enabled _ => ?_) first
    legal (contract.and unshared)
  exact fun w destroyed => invs.1.unused_of_buried enabled invs.2 destroyed

/-- Task 0 launches a task through a `Waiter` and destroys the `Waiter` when the
task is gone, without calling `Wait`. -/
def destroyedAfterChild : List (WaiterAction Nat) :=
  [.other (.runner (.runAsync 0 1)), .other (.runner (.dispatch 0 ⟨.start, 0, 1⟩)),
    .other (.runner (.enter 0 0 .start)), .construct 0 0 0 0, .runAsync 0 0 1,
    .other (.runner (.dispatch 1 ⟨.start, 1, 1⟩)), .other (.runner (.enter 1 1 .start)),
    .other (.childReturns 1 1 none), .other (.runner (.finish 1 1)),
    .other (.runner (.onExit 1 1)), .destroy 0 0, .other (.runner (.finish 0 0))]

theorem destroyed_waiter_unused_destroyedAfterChild :
    (waiterSystem Nat).EveryStep (fun s action => ∀ w, (s.waiters w).stage = .destroyed →
      ¬ s.UsesWaiter w action) {} destroyedAfterChild :=
  destroyed_waiter_unused (by decide +kernel) (by decide +kernel) (by decide +kernel)

/-- Task 0 launches a task through a `Waiter` and destroys the `Waiter` while the
task runs. -/
def destroyedBeforeChild : List (WaiterAction Nat) :=
  [.other (.runner (.runAsync 0 1)), .other (.runner (.dispatch 0 ⟨.start, 0, 1⟩)),
    .other (.runner (.enter 0 0 .start)), .construct 0 0 0 0, .runAsync 0 0 1,
    .other (.runner (.dispatch 1 ⟨.start, 1, 1⟩)), .other (.runner (.enter 1 1 .start)),
    .destroy 0 0, .other (.childReturns 1 1 none), .other (.runner (.finish 1 1))]

/-- The deletion of the task releases the last copy, and the deleter reads the
destroyed `Waiter`. -/
theorem destroyed_waiter_used_destroyedBeforeChild :
    (waiterSystem Nat).Legal {}
        (destroyedBeforeChild ++ [.other (.runner (.onExit 1 1))]) ∧
      (waiterSystem Nat).EveryStep WaiterState.Contract {}
        (destroyedBeforeChild ++ [.other (.runner (.onExit 1 1))]) ∧
      ¬ (waiterSystem Nat).EveryStep (fun s action => ∀ w,
        (s.waiters w).stage = .destroyed → ¬ s.UsesWaiter w action) {}
          (destroyedBeforeChild ++ [.other (.runner (.onExit 1 1))]) := by
  refine ⟨by decide +kernel, by decide +kernel, fun unused => ?_⟩
  refine (ActionSystem.everyStep_append.mp unused).2.1 0 (by decide +kernel)
    ⟨by decide +kernel, ⟨0, 0, true⟩, ?_⟩
  decide +kernel

end FlatAsync
