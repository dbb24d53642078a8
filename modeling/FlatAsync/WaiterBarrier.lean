import FlatAsync.WaiterRounds

/-!
# Waiting with a Waiter

`Wait` returns at once when the `Waiter` holds the only copy of its token, and
otherwise when the proceed handler has been called.  This file shows that in
both cases all tasks launched so far have ended, that a suspended `Wait` gets
one call, and that later tasks belong to later rounds.
-/

namespace FlatAsync

variable {T : Type}

/-- The step is the call of the proceed handler of token `k`. -/
def WaiterAction.answers (k : JoinId) : WaiterAction T → Bool
  | .other action => action.answers k
  | .construct .. | .runAsync .. | .wait .. | .init .. | .destroy .. => false

/-- The thread and the runner of a `Resume` of a coroutine. -/
def WaiterAction.resumption : WaiterAction T → Option (ThreadId × RunnerId)
  | .other (.runner (.enter t r .proceed)) => some (t, r)
  | _ => none

namespace WaiterState

/-- A call of `Wait` on `w` returns. -/
def WaitReturns (s : WaiterState T) (w : WaiterId) : WaiterAction T → Prop
  | .wait _ v => v = w ∧ s.unique w = true
  | .init _ v _ => v = w
  | .other _ | .construct .. | .runAsync .. | .destroy .. => False

/-- Neither `Cancel` nor `Timedout` has been called on the owner of `w`. -/
def NoStatus (s : WaiterState T) (w : WaiterId) : Prop :=
  (s.waiters w).stage = .alive →
    (s.joins.system.runners (s.waiters w).owner).opState = .normal

instance (s : WaiterState T) (w : WaiterId) : Decidable (s.NoStatus w) :=
  inferInstanceAs (Decidable (_ → _))

/-- The step does not resume the coroutine suspended inside `Wait` on `w` with an
event pending. -/
def ResumesQuietly (s : WaiterState T) (w : WaiterId) (action : WaiterAction T) : Prop :=
  ∀ call ∈ action.resumption, (s.waiters w).stage = .alive → (s.waiters w).waiting = true →
    (s.waiters w).owner = call.2 → s.joins.system.handleEvents call.1 call.2 = none

instance (s : WaiterState T) (w : WaiterId) (action : WaiterAction T) :
    Decidable (s.ResumesQuietly w action) :=
  inferInstanceAs (Decidable (∀ call ∈ action.resumption, _ → _ → _ → _))

end WaiterState

/-- A task launched by `RunAsync` is a child of the token whose `Wait` has not
been called, and all other tokens stay as they are. -/
structure CountsForNextWait (s : WaiterState T) (w : WaiterId) (action : WaiterAction T)
    (created : RunnerId) : Prop where
  idle : (s.joins.table.joins (s.waiters w).token).phase = .idle
  enlisted : ∃ child, (s.step action).joins.table.child created = some child ∧
    child.join = (s.waiters w).token
  others : ∀ k, k ≠ (s.waiters w).token →
    (s.step action).joins.table.joins k = s.joins.table.joins k

theorem System.handleEvents_of_normal {s : System} {t : ThreadId} {r : RunnerId}
    (normal : (s.runners r).opState = .normal) : s.handleEvents t r = none := by
  simp [System.handleEvents, normal]

theorem WaiterState.resumesQuietly_of_noStatus {s : WaiterState T} {w : WaiterId}
    (calm : s.NoStatus w) (action : WaiterAction T) : s.ResumesQuietly w action := by
  rintro ⟨t, r⟩ - alive - rfl
  exact System.handleEvents_of_normal (calm alive)

/-- Unless an event is pending when `Wait` is resumed, a `Waiter` holds its token
between two calls of `Wait`, and its tasks are children of its tokens. -/
structure Waiter.Steady (waiter : Waiter) (table : JoinTable T) : Prop where
  idle : waiter.stage = .alive → waiter.waiting = false →
    (table.joins waiter.token).phase = .idle
  enlisted : ∀ r ∈ waiter.launched, ∃ child, table.child r = some child ∧
    child.join ∈ waiter.tokens

namespace Waiter.Steady

variable {waiter : Waiter} {s : JoinState T} {action : JoinAction T}

theorem enlisted_step (steady : waiter.Steady s.table) (roll : JoinRoll s)
    (enabled : s.Enabled action) : ∀ r ∈ waiter.launched, ∃ child,
      (s.step action).table.child r = some child ∧ child.join ∈ waiter.tokens := by
  intro r member
  obtain ⟨child, found, own⟩ := steady.enlisted r member
  obtain ⟨after, present, same, -⟩ := roll.child_step enabled found
  exact ⟨after, present, same ▸ own⟩

/-- A step of the joins that ends no round of the `Waiter`. -/
theorem frame (steady : waiter.Steady s.table) (roll : JoinRoll s) (enabled : s.Enabled action)
    (stays : waiter.stage = .alive → action.endsRound waiter.token = false) :
    waiter.Steady (s.step action).table where
  idle alive rests := (roll.idle_step enabled (steady.idle alive rests) (stays alive)).1
  enlisted := steady.enlisted_step roll enabled

end Waiter.Steady

namespace WaiterInvariant

variable {s : WaiterState T} {action : WaiterAction T} {w : WaiterId}

/-- Operations of other `Waiter` objects end no round of `w`. -/
theorem stays_of_ne (inv : WaiterInvariant s) {v : WaiterId} (different : v ≠ w)
    (alive : (s.waiters v).stage = .alive) {j : JoinId} (held : s.proceeder v = some j)
    (own : (s.waiters w).stage = .alive) : j ≠ (s.waiters w).token := by
  obtain ⟨rfl, -⟩ := proceeder_eq s held
  intro same
  have mine : (s.waiters w).token ∈ (s.waiters w).tokens := Waiter.token_mem (by simp [own])
  exact inv.not_shared mine v different (same ▸ Waiter.token_mem (by simp [alive]))

theorem held_of_steady (inv : WaiterInvariant s) {t : ThreadId} (used : s.Used t w)
    (rests : (s.waiters w).waiting = false) (steady : (s.waiters w).Steady s.joins.table) :
    s.proceeder w = some (s.waiters w).token := by
  have idle := steady.idle used.1 rests
  cases held : s.proceeder w with
  | none => simp [inv.answered_of_null used rests held] at idle
  | some j => rw [(proceeder_eq s held).1]

theorem steady_other (inv : WaiterInvariant s) {action : JoinAction T}
    (enabled : s.joins.Enabled action) (quiet : s.ResumesQuietly w (.other action))
    (plain : action.plain = true)
    (steady : (s.waiters w).Steady s.joins.table) :
    (s.afterOther action w).Steady (s.joins.step action).table := by
  have framed := steady.frame inv.roll enabled fun _ => by
    cases action <;> first | rfl | cases plain
  rcases afterOther_eq s action w with same | ⟨t, rfl, event, same⟩
  · rw [same]
    exact framed
  · rw [same]
    refine ⟨fun alive _ => ?_, framed.enlisted⟩
    cases waits : (s.waiters w).waiting with
    | false => exact framed.idle alive waits
    | true => simp [quiet (t, (s.waiters w).owner) rfl alive waits rfl] at event

theorem steady_runAsync (inv : WaiterInvariant s) {t : ThreadId} {created : RunnerId}
    (used : s.Used t w)
    (enabled : s.joins.Enabled
      (.waiterRunAsync t (s.waiters w).owner (s.waiters w).token created))
    (steady : (s.waiters w).Steady s.joins.table) :
    ({ s.waiters w with launched := created :: (s.waiters w).launched } : Waiter).Steady
      (s.joins.step (.waiterRunAsync t (s.waiters w).owner (s.waiters w).token created)).table := by
  have framed := steady.frame inv.roll enabled fun _ => rfl
  refine ⟨framed.idle, fun r member => ?_⟩
  rcases List.mem_cons.mp member with rfl | old
  · refine ⟨{ join := (s.waiters w).token,
              index := (s.joins.table.joins (s.waiters w).token).launched }, ?_, ?_⟩
    · simp [JoinState.step, JoinState.afterTable, JoinTable.launch]
    · exact Waiter.token_mem (by simp [used.1])
  · exact framed.enlisted r old

theorem steady_wait (inv : WaiterInvariant s) {t : ThreadId} (used : s.Used t w)
    (rests : (s.waiters w).waiting = false)
    (enabled : s.joins.Enabled (.waiterWait t (s.waiters w).owner (s.waiters w).token))
    (steady : (s.waiters w).Steady s.joins.table) :
    ({ s.waiters w with waiting := s.suspends t w } : Waiter).Steady
      (s.joins.step (.waiterWait t (s.waiters w).owner (s.waiters w).token)).table := by
  have held := inv.held_of_steady used rests steady
  refine ⟨fun alive stays => ?_, steady.enlisted_step inv.roll enabled⟩
  have returns : ¬ ((s.joins.table.joins (s.waiters w).token).holders ≠ [] ∧
      s.joins.system.handleEvents t (s.waiters w).owner = none) := by
    intro yields
    simp [WaiterState.suspends, WaiterState.unique, held, yields.1, yields.2] at stays
  rw [waiterWait_table, if_neg returns]
  exact steady.idle alive rests

theorem steady_step (inv : WaiterInvariant s) (enabled : s.Enabled action)
    (quiet : s.ResumesQuietly w action) (steady : (s.waiters w).Steady s.joins.table) :
    ((s.step action).waiters w).Steady (s.step action).joins.table := by
  obtain ⟨guard, permitted⟩ := enabled
  cases action with
  | other action => exact inv.steady_other permitted quiet guard steady
  | construct t r v j =>
      simp only [WaiterState.step, WaiterState.afterWaiters, WaiterState.joinAction]
      by_cases here : w = v
      · subst here
        rw [Function.update_self]
        exact ⟨fun _ _ => by simp [makeWaiter_joins], by simp⟩
      · rw [Function.update_of_ne here]
        exact steady.frame inv.roll permitted fun _ => rfl
  | init t v j =>
      simp only [WaiterState.step, WaiterState.afterWaiters, WaiterState.joinAction]
      by_cases here : w = v
      · subst here
        rw [Function.update_self]
        refine ⟨fun _ _ => by simp [makeWaiter_joins], fun r member => ?_⟩
        obtain ⟨child, found, own⟩ := steady.enlisted_step inv.roll permitted r member
        have alive : (s.waiters w).stage = .alive := guard.1.1
        refine ⟨child, found, ?_⟩
        simpa [Waiter.tokens, alive] using Or.inr (by simpa [Waiter.tokens, alive] using own)
      · rw [Function.update_of_ne here]
        exact steady.frame inv.roll permitted fun _ => rfl
  | runAsync t v created =>
      simp only [WaiterState.step, WaiterState.afterWaiters]
      by_cases here : w = v
      · subst here
        have held := inv.held_of_steady guard.1 guard.2 steady
        simp only [WaiterState.joinAction, held, Function.update_self] at permitted ⊢
        exact inv.steady_runAsync guard.1 permitted steady
      · rw [Function.update_of_ne here]
        cases held : s.proceeder v <;> simp only [WaiterState.joinAction, held] at permitted ⊢ <;>
          exact steady.frame inv.roll permitted fun _ => rfl
  | wait t v =>
      simp only [WaiterState.step, WaiterState.afterWaiters]
      by_cases here : w = v
      · subst here
        have held := inv.held_of_steady guard.1 guard.2 steady
        simp only [WaiterState.joinAction, held, Function.update_self] at permitted ⊢
        exact inv.steady_wait guard.1 guard.2 permitted steady
      · rw [Function.update_of_ne here]
        cases held : s.proceeder v with
        | none =>
            simp only [WaiterState.joinAction, held] at permitted ⊢
            exact steady.frame inv.roll permitted fun _ => rfl
        | some j =>
            simp only [WaiterState.joinAction, held] at permitted ⊢
            refine steady.frame inv.roll permitted fun alive => ?_
            simpa [JoinAction.endsRound] using
              inv.stays_of_ne (Ne.symm here) guard.1.1 held alive
  | destroy t v =>
      simp only [WaiterState.step, WaiterState.afterWaiters]
      by_cases here : w = v
      · subst here
        have held := inv.held_of_steady guard.1 guard.2 steady
        have alive : (s.waiters w).stage = .alive := guard.1.1
        simp only [WaiterState.joinAction, held, Function.update_self] at permitted ⊢
        refine ⟨by simp, fun r member => ?_⟩
        obtain ⟨child, found, own⟩ := steady.enlisted_step inv.roll permitted r member
        exact ⟨child, found, by simpa [Waiter.tokens, alive] using own⟩
      · rw [Function.update_of_ne here]
        cases held : s.proceeder v with
        | none =>
            simp only [WaiterState.joinAction, held]
            exact steady
        | some j =>
            simp only [WaiterState.joinAction, held] at permitted ⊢
            refine steady.frame inv.roll permitted fun alive => ?_
            simpa [JoinAction.endsRound] using
              inv.stays_of_ne (Ne.symm here) guard.1.1 held alive

theorem answers_step (inv : WaiterInvariant s) (enabled : s.Enabled action) (k : JoinId) :
    ((s.step action).joins.table.joins k).phase.answers =
      (s.joins.table.joins k).phase.answers + (action.answers k).toNat := by
  have permitted := enabled.2
  simp only [WaiterState.step]
  cases part : s.joinAction action with
  | none =>
      cases action with
      | destroy => rfl
      | other | construct | init => cases part
      | runAsync t w created | wait t w =>
          simp only [WaiterState.joinAction] at part
          split at part <;> cases part
  | some step =>
      rw [part] at permitted
      have same : step.answers k = action.answers k := by
        cases action with
        | other | construct | init =>
            obtain rfl := Option.some.inj part
            rfl
        | runAsync t w created | wait t w =>
            simp only [WaiterState.joinAction] at part
            split at part <;>
              (obtain rfl := Option.some.inj part
               rfl)
        | destroy t w =>
            simp only [WaiterState.joinAction] at part
            split at part
            · obtain rfl := Option.some.inj part
              rfl
            · cases part
      rw [← same]
      exact inv.roll.answers_step permitted k

theorem ended_of_released (inv : WaiterInvariant s) {r : RunnerId} {child : Child}
    (found : s.joins.table.child r = some child)
    (holders : (s.joins.table.joins child.join).holders = []) : s.joins.ended r = true := by
  have deleted := inv.roll.holders_eq_nil_iff.mp holders r child found rfl
  simpa [JoinState.ended, found] using inv.roll.ended_of_deleted found deleted

/-- When `Wait` returns, the copies of all tokens are gone. -/
theorem released_of_returns (inv : WaiterInvariant s) (enabled : s.Enabled action)
    (returns : s.WaitReturns w action) : ∀ k ∈ (s.waiters w).tokens,
      (s.joins.table.joins k).holders = [] := by
  intro k member
  have kind := ((inv.sound w).known k member).1
  have old (born : (s.waiters w).stage ≠ .unborn) (past : k ∈ (s.waiters w).past) :
      (s.joins.table.joins k).holders = [] :=
    (inv.roll.released_of_answered kind ((inv.sound w).past born k past)).2
  cases action with
  | wait t v =>
      obtain ⟨rfl, unique⟩ := returns
      have born : (s.waiters v).stage ≠ .unborn := by simp [enabled.1.1.1]
      have split : k = (s.waiters v).token ∨ k ∈ (s.waiters v).past := by
        simpa [Waiter.tokens, born] using member
      rcases split with rfl | past
      · unfold WaiterState.unique at unique
        split at unique
        next j held =>
          obtain ⟨rfl, -⟩ := proceeder_eq s held
          simpa using unique
        · cases unique
      · exact old born past
  | init t v j =>
      obtain rfl : v = w := returns
      have born : (s.waiters v).stage ≠ .unborn := by simp [enabled.1.1.1]
      have split : k = (s.waiters v).token ∨ k ∈ (s.waiters v).past := by
        simpa [Waiter.tokens, born] using member
      rcases split with rfl | past
      · have answered := inv.answered_of_works enabled.1.1.1 enabled.1.2
          (.inl enabled.1.1.2.1)
        exact (inv.roll.released_of_answered kind answered).2
      · exact old born past
  | other | construct | runAsync | destroy => exact returns.elim

theorem waitsForAnswer (inv : WaiterInvariant s) (alive : (s.waiters w).stage = .alive)
    (waits : (s.waiters w).waiting = true) : WaitsForAnswer s.joins (s.waiters w).token := by
  have member : (s.waiters w).token ∈ (s.waiters w).tokens := Waiter.token_mem (by simp [alive])
  obtain ⟨kind, -, used⟩ := (inv.sound w).known _ member
  have called := (inv.sound w).waiting alive waits
  refine ⟨inv.roll.callerRests, fun running gone => inv.roll.resumed running used ?_ ?_⟩
  · simpa [Join.claimed, kind, gone.1] using inv.roll.holders_eq_nil_iff.mpr gone.2
  · exact (inv.sound w).proceed _ member called

theorem countsForNextWait (inv : WaiterInvariant s) {t : ThreadId} {created : RunnerId}
    (enabled : s.Enabled (.runAsync t w created))
    (steady : (s.waiters w).Steady s.joins.table) :
    CountsForNextWait s w (.runAsync t w created) created := by
  have held := inv.held_of_steady enabled.1.1 enabled.1.2 steady
  have idle := steady.idle enabled.1.1.1 enabled.1.2
  let index := (s.joins.table.joins (s.waiters w).token).launched
  refine ⟨idle, ⟨⟨(s.waiters w).token, index, false⟩, ?_, rfl⟩, fun k other => ?_⟩
  · simp [WaiterState.step, WaiterState.joinAction, held, JoinState.step, JoinState.afterTable,
      JoinTable.launch, index]
  · simp [WaiterState.step, WaiterState.joinAction, held, JoinState.step, JoinState.afterTable,
      JoinTable.launch, other]

theorem everyState {actions : List (WaiterAction T)} (legal : (waiterSystem T).Legal {} actions)
    (contract : (waiterSystem T).EveryStep WaiterState.Contract {} actions) :
    (waiterSystem T).EveryState WaiterInvariant {} actions :=
  ActionSystem.everyState_of_invariant (fun _ _ inv enabled => inv.step enabled) initial legal
    contract

theorem count_answers {actions : List (WaiterAction T)}
    (legal : (waiterSystem T).Legal {} actions)
    (contract : (waiterSystem T).EveryStep WaiterState.Contract {} actions) (k : JoinId) :
    actions.countP (·.answers k) =
      (((waiterSystem T).run {} actions).joins.table.joins k).phase.answers := by
  have count := ActionSystem.countP_of_invariant
    (fun s : WaiterState T => (s.joins.table.joins k).phase.answers) (·.answers k)
    (fun _ _ (inv : WaiterInvariant _) enabled => inv.step enabled)
    (fun s action inv (enabled : s.Enabled action) _ => inv.answers_step enabled k) initial legal
    contract
  simpa [JoinPhase.answers] using count.symm

/-- What the invariant and the steadiness of one `Waiter` make true of a step is
true of every step of a run in which its `Wait` is resumed without events. -/
theorem everyStep {actions : List (WaiterAction T)} (legal : (waiterSystem T).Legal {} actions)
    (contract : (waiterSystem T).EveryStep WaiterState.Contract {} actions)
    (quiet : (waiterSystem T).EveryStep (fun s action => s.ResumesQuietly w action) {} actions)
    {consequence : WaiterState T → WaiterAction T → Prop}
    (consequent : ∀ s action, WaiterInvariant s → (s.waiters w).Steady s.joins.table →
      s.Enabled action → consequence s action) :
    (waiterSystem T).EveryStep consequence {} actions := by
  have preserved : ∀ (s : WaiterState T) (action : WaiterAction T),
      (WaiterInvariant s ∧ (s.waiters w).Steady s.joins.table) → s.Enabled action →
        (s.Contract action ∧ s.ResumesQuietly w action) → WaiterInvariant (s.step action) ∧
          ((s.step action).waiters w).Steady (s.step action).joins.table :=
    fun s action invs enabled conditions =>
      ⟨invs.1.step enabled conditions.1, invs.1.steady_step enabled conditions.2 invs.2⟩
  have first : WaiterInvariant ({} : WaiterState T) ∧
      (({} : WaiterState T).waiters w).Steady ({} : WaiterState T).joins.table :=
    ⟨initial, ⟨nofun, nofun⟩⟩
  exact ActionSystem.everyStep_of_invariant preserved
    (fun s action invs enabled _ => consequent s action invs.1 invs.2 enabled) first legal
    (contract.and quiet)

end WaiterInvariant

/-- In every run without events for the owner of a `Waiter`, each call of `Wait`
returns when all tasks launched before have ended; one that has suspended has
been answered once by then and is not left behind before; a proceed handler is
called once at most for each token; and a new task counts for the next `Wait`. -/
theorem waiter_barrier {actions : List (WaiterAction T)}
    (legal : (waiterSystem T).Legal {} actions)
    (contract : (waiterSystem T).EveryStep WaiterState.Contract {} actions) {w : WaiterId}
    (calm : (waiterSystem T).EveryStep (fun s _ => s.NoStatus w) {} actions) :
    (waiterSystem T).EveryStep (fun s action => s.WaitReturns w action →
        ∀ r ∈ (s.waiters w).launched, s.joins.ended r = true) {} actions ∧
      (∀ before t j after, actions = before ++ .init t w j :: after →
        before.countP (·.answers (((waiterSystem T).run {} before).waiters w).token) = 1) ∧
      (waiterSystem T).EveryState (fun s => (s.waiters w).stage = .alive →
        (s.waiters w).waiting = true → WaitsForAnswer s.joins (s.waiters w).token) {} actions ∧
      (∀ k, actions.countP (·.answers k) =
        (((waiterSystem T).run {} actions).joins.table.joins k).phase.answers) ∧
      (waiterSystem T).EveryStep (fun s action => ∀ t created, action = .runAsync t w created →
        CountsForNextWait s w action created) {} actions := by
  have quiet : (waiterSystem T).EveryStep (fun s action => s.ResumesQuietly w action) {} actions :=
    calm.imp fun s action normal => WaiterState.resumesQuietly_of_noStatus normal action
  refine ⟨WaiterInvariant.everyStep legal contract quiet fun s action inv steady enabled => ?_,
    fun before t j after split => ?_,
    (WaiterInvariant.everyState legal contract).imp fun s inv alive waits =>
      inv.waitsForAnswer alive waits,
    WaiterInvariant.count_answers legal contract,
    WaiterInvariant.everyStep legal contract quiet fun s action inv steady enabled => ?_⟩
  · intro returns r member
    obtain ⟨child, found, own⟩ := steady.enlisted r member
    exact inv.ended_of_released found (inv.released_of_returns enabled returns _ own)
  · subst split
    obtain ⟨legalBefore, rest⟩ := ActionSystem.everyStep_append.mp legal
    have contractBefore := (ActionSystem.everyStep_append.mp contract).1
    have inv := (WaiterInvariant.everyState legalBefore contractBefore).last
    obtain ⟨⟨used, waits⟩, -⟩ := rest.1
    rw [WaiterInvariant.count_answers legalBefore contractBefore,
      inv.answered_of_works used.1 waits (.inl used.2.1)]
    rfl
  · rintro t created rfl
    exact inv.countsForNextWait enabled steady

/-- Task 0 launches two tasks through a `Waiter`.  The first one ends before
`Wait` is called; the second one throws while `Wait` is suspended. -/
def twoTasks : List (WaiterAction Nat) :=
  [.other (.runner (.runAsync 0 1)), .other (.runner (.dispatch 0 ⟨.start, 0, 1⟩)),
    .other (.runner (.enter 0 0 .start)), .construct 0 0 0 0, .runAsync 0 0 1, .runAsync 0 0 2,
    .other (.runner (.dispatch 1 ⟨.start, 1, 1⟩)), .other (.runner (.enter 1 1 .start)),
    .other (.childReturns 1 1 none), .other (.runner (.finish 1 1)),
    .other (.runner (.onExit 1 1)), .other (.runner (.detach 1)), .wait 0 0,
    .other (.runner (.onExit 0 0)), .other (.endLoop 0 0), .other (.runner (.returnHandler 0 0)),
    .other (.runner (.detach 0)), .other (.runner (.dispatch 1 ⟨.start, 2, 1⟩)),
    .other (.runner (.enter 1 2 .start)), .other (.runner (.raise 1 2)),
    .other (.childThrows 1 2), .other (.runner (.finish 1 2)), .other (.runner (.onExit 1 2)),
    .other (.callProceed 1 0), .other (.runner (.detach 1)),
    .other (.runner (.dispatch 0 ⟨.proceed, 0, 1⟩)), .other (.runner (.enter 0 0 .proceed))]

theorem waiter_barrier_twoTasks :
    twoTasks.countP (·.answers (((waiterSystem Nat).run {} twoTasks).waiters 0).token) = 1 :=
  (waiter_barrier (w := 0) (by decide +kernel) (by decide +kernel) (by decide +kernel)).2.1
    twoTasks 0 1 [.runAsync 0 0 3] rfl

end FlatAsync
