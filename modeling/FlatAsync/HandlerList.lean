import FlatAsync.RunAsyncAnyWait

/-!
# The handler list of RunAsyncAnyWait

The launch loop and the children of `RunAsyncAnyWait` refer to the handlers and
to `index` in the frame of the caller.  This file shows that they never do so
after the caller has returned when each caller is resumed only after its last
child, and that otherwise they may.
-/

namespace FlatAsync

variable {T : Type}

namespace JoinState

/-- Runner `r` is suspended in join `j`: what the call keeps in the frame of its
caller is alive. -/
structure Waits (s : JoinState T) (r : RunnerId) (j : JoinId) : Prop where
  alive : (s.system.runners r).stage = .alive
  suspended : (s.system.runners r).coroHelper = .suspended .defer
  join : s.table.suspension r = some j

/-- All handlers of join `j` have been launched, and all children have ended. -/
structure AllOver (s : JoinState T) (j : JoinId) : Prop where
  launched : (s.table.joins j).launched = (s.table.joins j).handlers
  ended : ∀ r child, s.table.child r = some child → child.join = j → child.ended = true

/-- The caller of a `RunAsyncAnyWait` is resumed only after its last child. -/
def LeavesLast (s : JoinState T) : JoinAction T → Prop
  | .runner (.enter _ r .proceed) =>
      ∀ j, s.Waits r j → (s.table.joins j).kind = .anyWait → s.AllOver j
  | _ => True

end JoinState

namespace JoinRoll

variable {s : JoinState T} {action : JoinAction T} {r : RunnerId} {j : JoinId}

private theorem suspension_step (enabled : s.Enabled action) (r : RunnerId) :
    (s.step action).table.suspension r = s.table.suspension r ∨
      ∃ t, (s.system.threads t).pc = .body r := by
  have guard := enabled.2.1
  change (s.afterTable action).suspension r = s.table.suspension r ∨ _
  have released {t : ThreadId} {k : JoinId} {join : Join T} :
      ((s.table.setJoin k join).releaseIfLast t k).suspension = s.table.suspension :=
    (CounterBlind.suspension _).releaseIfLast rfl
  have defers {t : ThreadId} {q : RunnerId} {table : JoinTable T} {suspension : Option JoinId}
      (runs : (s.system.threads t).pc = .body q)
      (replaced : table.suspension = Function.update s.table.suspension q suspension) :
      (s.ifCalm t q table).suspension r = s.table.suspension r ∨
        ∃ t, (s.system.threads t).pc = .body r := by
    by_cases here : r = q
    · exact .inr ⟨t, here ▸ runs⟩
    · left
      unfold JoinState.ifCalm
      split
      · rfl
      · simp [replaced, here]
  cases action with
  | runner action =>
      cases action with
      | onExit t q =>
          left
          simp only [JoinState.afterTable, JoinState.afterRunner]
          split
          · unfold JoinTable.beginHandler
            split <;> rfl
          · rfl
          · unfold JoinTable.releaseChild
            split
            · exact congrFun released r
            · rfl
      | _ => exact .inl rfl
  | defer t q calls => exact defers guard.1 rfl
  | join t q k kind handlers => exact defers guard.1.1 rfl
  | userCall | launch | makeWaiter | waiterRunAsync | callProceed => exact .inl rfl
  | endLoop t k => exact .inl (congrFun released r)
  | dropWaiter t q k =>
      simp only [JoinState.afterTable, JoinTable.releaseLoop, JoinTable.setJoin_setJoin]
      exact .inl (congrFun released r)
  | waiterWait t q k =>
      simp only [JoinState.afterTable]
      split
      · exact .inl rfl
      · exact defers guard.1.1 rfl
  | childReturns t q value =>
      left
      simp only [JoinState.afterTable]
      split
      · exact congrFun ((CounterBlind.suspension _).childReturns rfl value) r
      · rfl
  | childThrows t q =>
      left
      simp only [JoinState.afterTable]
      split <;> rfl
  | increment t k index => exact .inl (congrFun ((CounterBlind.suspension _).increment rfl index) r)

private theorem enter_of_runnerAction {t : ThreadId} {kind : ClosureKind}
    (part : s.runnerAction action = some (.enter t r kind)) :
    action = .runner (.enter t r kind) := by
  cases action with
  | runner action =>
      obtain rfl := Option.some.inj part
      rfl
  | userCall t created => cases created <;> cases part
  | waiterWait t q k =>
      simp only [JoinState.runnerAction] at part
      split at part <;> cases part
  | defer | join | launch | endLoop | makeWaiter | waiterRunAsync | dropWaiter | childReturns
  | childThrows | increment | callProceed => cases part

private theorem waits_step (inv : JoinRoll s) (enabled : s.Enabled action) (waits : s.Waits r j)
    (stays : ∀ t kind, action ≠ .runner (.enter t r kind)) : (s.step action).Waits r j := by
  have suspended : ((s.step action).system.runners r).stage = .alive ∧
      ((s.step action).system.runners r).coroHelper = .suspended .defer := by
    have permitted := enabled.2.2.1
    simp only [JoinState.step]
    cases part : s.runnerAction action with
    | none => exact ⟨waits.alive, waits.suspended⟩
    | some step =>
        rw [part] at permitted
        refine System.suspended_step inv.inv.life.phases permitted waits.alive waits.suspended
          fun t kind same => ?_
        subst same
        exact stays t kind (enter_of_runnerAction part)
  refine ⟨suspended.1, suspended.2, ?_⟩
  rcases suspension_step enabled r with same | ⟨t, runs⟩
  · rw [same, waits.join]
  · have running := System.running_of_body inv.inv.life.phases runs
    simp [waits.suspended] at running

private theorem join_waits (inv : JoinRoll s) {t : ThreadId} {kind : JoinKind} {handlers : Nat}
    (enabled : s.Enabled (.join t r j kind handlers))
    (silent : s.system.handleEvents t r = none) :
    (s.step (.join t r j kind handlers)).Waits r j := by
  have plays : (s.system.threads t).pc.role r = some .body := by
    simp [Pc.role, enabled.2.1.1.1]
  have alive : (s.system.runners r).stage = .alive :=
    ((inv.inv.life.phases r).held_of_role (t := t) plays).2.1
  constructor <;>
    simp [JoinState.step, JoinState.runnerAction, System.step, System.defer, System.yield, silent,
      alive, JoinState.afterTable, JoinState.ifCalm, JoinTable.deferJoin]

private theorem allOver_step (inv : JoinRoll s) (enabled : s.Enabled action)
    (next : JoinRoll (s.step action))
    (used : (s.table.joins j).phase ≠ .unused) (notWaiter : (s.table.joins j).kind ≠ .waiter)
    (ceased : s.AllOver j) : (s.step action).AllOver j := by
  have call := inv.sameCall_step enabled used
  have bounded := next.roll.bounded j (by rwa [call.kind])
  have launched : ((s.step action).table.joins j).launched =
      ((s.step action).table.joins j).handlers := by
    rw [call.handlers] at bounded ⊢
    cases inv.changes enabled j with
    | same _ same | suspends _ _ _ _ same | begins _ _ same | answered _ _ same =>
        rw [same]
        exact ceased.launched
    | made _ unused => exact absurd unused used
    | launches _ _ _ _ same =>
        rw [same] at bounded
        simp only [ceased.launched] at bounded
        exact absurd bounded (Nat.not_succ_le_self _)
    | releasesLoop _ _ _ _ same | releasesChild _ _ _ _ _ _ _ same =>
        rw [same, (Join.afterRelease_same _).launched]
        exact ceased.launched
    | returns _ _ _ _ _ _ _ _ _ _ same =>
        rw [same, (Join.tryProceed_same _ _).launched]
        exact ceased.launched
    | counts _ _ _ _ _ _ same =>
        rw [same, (Join.tryIndex_same _ _).launched]
        exact ceased.launched
  refine ⟨launched, fun r child found own => ?_⟩
  cases inv.childChanges enabled r with
  | same same => exact ceased.ended r child (same ▸ found) own
  | launched _ k same =>
      obtain rfl : _ = child := Option.some.inj (same.symm.trans found)
      have small := next.roll.index r _ found
      obtain rfl : k = j := own
      rw [launched, call.handlers, ← ceased.launched] at small
      exact absurd small (Nat.lt_irrefl _)
  | ended _ _ _ _ _ same =>
      obtain rfl : _ = child := Option.some.inj (same.symm.trans found)
      rfl

end JoinRoll

/-! ### The frame of the caller -/

/-- A caller that has left a `RunAsyncAnyWait` has left it after the last
child. -/
def FrameKept (s : JoinState T) : Prop :=
  ∀ j, (s.table.joins j).kind = .anyWait → (s.table.joins j).phase ≠ .unused →
    s.Waits (s.table.joins j).owner j ∨ s.AllOver j

theorem FrameKept.step {s : JoinState T} {action : JoinAction T} (kept : FrameKept s)
    (inv : JoinRoll s) (enabled : s.Enabled action) (contract : UserContract s action)
    (last : s.LeavesLast action) : FrameKept (s.step action) := by
  intro j any used
  have next := inv.step enabled contract
  by_cases new : (s.table.joins j).phase = .unused
  · obtain ⟨kind, owner, handlers, phase, -, makes, same⟩ := inv.made_of_used enabled new used
    simp only [same] at any ⊢
    rcases makes with waiter | ⟨t, rfl, silent⟩
    · simp [waiter] at any
    · exact .inl (inv.join_waits enabled silent)
  · have call := inv.sameCall_step enabled new
    rw [call.kind] at any
    rw [call.owner]
    have ceased (before : s.AllOver j) : (s.step action).AllOver j :=
      inv.allOver_step enabled next new (by simp [any]) before
    rcases kept j any new with waits | before
    · by_cases enters : ∃ t kind, action = .runner (.enter t (s.table.joins j).owner kind)
      · obtain ⟨t, kind, rfl⟩ := enters
        cases kind with
        | start =>
            have plays : (s.system.threads t).pc.role (s.table.joins j).owner =
                some (.entered .start) := by
              simp [Pc.role, show (s.system.threads t).pc = _ from enabled.2.2.1]
            have fits := ((inv.inv.life.phases _).held_of_role (t := t) plays).2.2
            exact absurd (waits.suspended.symm.trans fits.1) (by simp)
        | proceed => exact .inr (ceased (last j waits any))
      · exact .inl (inv.waits_step enabled waits fun t kind same => enters ⟨t, kind, same⟩)
    · exact .inr (ceased before)

end FlatAsync
