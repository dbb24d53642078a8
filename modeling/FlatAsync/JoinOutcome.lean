import FlatAsync.JoinChildren

/-!
# What becomes of a join

Every join goes through the same phases.  This file shows how one step moves a
join, that the proceed handler of a call is called once at most, and what is
known of the children of a join whose copies are all gone.

The caller of `RunAsyncWait` is resumed by the deleter of a token of which the
launch loop and every child hold a copy, so that the call is a barrier: the
deleter runs once, after all handlers have ended, and it does run when all
children are gone.
-/

namespace FlatAsync

variable {T : Type}

/-- The step is the call of the proceed handler of join `j`. -/
def JoinAction.answers (j : JoinId) : JoinAction T → Bool
  | .callProceed _ other => other = j
  | _ => false

/-- How often the proceed handler of a join in this phase has been called. -/
def JoinPhase.answers : JoinPhase → Nat
  | .answered => 1
  | .unused | .idle | .stored | .begun => 0

/-! ### One step of a join -/

namespace JoinTable

variable (table : JoinTable T) (t : ThreadId) (r : RunnerId) (j : JoinId)

theorem settle_joins (join : Join T) (proceeds : Bool) :
    (table.settle t j join proceeds).joins = Function.update table.joins j join := by
  unfold settle
  split <;> rfl

theorem setJoin_releaseIfLast_joins (join : Join T) :
    ((table.setJoin j join).releaseIfLast t j).joins =
      Function.update table.joins j join.afterRelease := by
  simp [releaseIfLast, settle_joins]

end JoinTable

/-- Two versions of a join that is in use: the same call of the library. -/
structure Join.SameCall (join old : Join T) : Prop where
  kind : join.kind = old.kind
  owner : join.owner = old.owner
  handlers : join.handlers = old.handlers
  used : join.phase ≠ .unused

theorem Join.SameCall.trans {first second third : Join T} (later : third.SameCall second)
    (earlier : second.SameCall first) : third.SameCall first :=
  ⟨later.kind.trans earlier.kind, later.owner.trans earlier.owner,
    later.handlers.trans earlier.handlers, later.used⟩

theorem Join.SameButCounter.sameCall {join old : Join T} (same : join.SameButCounter old)
    (used : old.phase ≠ .unused) : join.SameCall old :=
  ⟨same.kind, same.owner, same.handlers, fun unused => used (same.phase ▸ unused)⟩

/-- What a step makes of join `j`. -/
inductive JoinState.Changes (s : JoinState T) (j : JoinId) (action : JoinAction T)
    (after : Join T) : Prop
  | same (quiet : action.answers j = false) (same : after = s.table.joins j)
  | made (quiet : action.answers j = false) (unused : (s.table.joins j).phase = .unused)
      (kind : JoinKind) (owner : RunnerId) (handlers : Nat) (phase : JoinPhase)
      (starts : phase = .idle ∨ phase = .stored) (some : kind = .anyWait → 0 < handlers)
      (makes : kind = .waiter ∨ ∃ t, action = .join t owner j kind handlers ∧
        s.system.handleEvents t owner = none)
      (same : after =
        { kind := kind, owner := owner, handlers := handlers, looping := true, phase := phase })
  | suspends (quiet : action.answers j = false) (idle : (s.table.joins j).phase = .idle)
      (looping : (s.table.joins j).looping = true)
      (waits : ∃ t r, action = .waiterWait t r j)
      (same : after = { s.table.joins j with phase := .stored })
  | begins (quiet : action.answers j = false) (stored : (s.table.joins j).phase = .stored)
      (same : after = { s.table.joins j with phase := .begun })
  | answered (answers : action.answers j = true) (begun : (s.table.joins j).phase = .begun)
      (same : after = { s.table.joins j with phase := .answered })
  | launches (quiet : action.answers j = false)
      (looping : (s.table.joins j).looping = true) (created : RunnerId)
      (launches : (∃ t, action = .launch t j created) ∨
        ∃ t r, action = .waiterRunAsync t r j created)
      (same : after = { s.table.joins j with
        launched := (s.table.joins j).launched + 1
        holders := created :: (s.table.joins j).holders })
  | releasesLoop (quiet : action.answers j = false)
      (looping : (s.table.joins j).looping = true) (proceed : Bool)
      (releases : (∃ t, action = .endLoop t j ∧ proceed = (s.table.joins j).proceed) ∨
        ∃ t r, action = .dropWaiter t r j ∧ proceed = false)
      (same : after =
        Join.afterRelease { s.table.joins j with proceed := proceed, looping := false })
  | releasesChild (quiet : action.answers j = false) (t : ThreadId) (r : RunnerId)
      (child : Child) (exits : action = .runner (.onExit t r))
      (found : s.table.child r = some child) (own : child.join = j)
      (same : after = Join.afterRelease
        { s.table.joins j with holders := (s.table.joins j).holders.erase r })
  | returns (quiet : action.answers j = false) (kind : (s.table.joins j).kind = .anyResult)
      (t : ThreadId) (r : RunnerId) (child : Child) (value : T)
      (returned : action = .childReturns t r (some value))
      (found : s.table.child r = some child) (own : child.join = j) (runs : child.ended = false)
      (same : after = (s.table.joins j).tryProceed (some value))
  | counts (quiet : action.answers j = false) (kind : (s.table.joins j).kind = .anyWait)
      (t : ThreadId) (index : Nat) (counted : action = .increment t j index)
      (counting : s.table.counting t = some (j, index))
      (same : after = (s.table.joins j).tryIndex index)

/-- What a step makes of the entry of runner `r`. -/
inductive JoinState.ChildChanges (s : JoinState T) (r : RunnerId) (action : JoinAction T)
    (after : Option Child) : Prop
  | same (same : after = s.table.child r)
  | launched (new : s.table.child r = none) (j : JoinId)
      (same : after = some { join := j, index := (s.table.joins j).launched })
  | ended (child : Child) (found : s.table.child r = some child) (runs : child.ended = false)
      (t : ThreadId)
      (ends : (∃ value, action = .childReturns t r value) ∨ action = .childThrows t r)
      (same : after = some { child with ended := true })

theorem CounterBlind.child (entries : RunnerId → Option Child) :
    CounterBlind fun table : JoinTable T => table.child = entries :=
  ⟨id, id, fun _ holds => holds⟩

theorem CounterBlind.suspension (suspensions : RunnerId → Option JoinId) :
    CounterBlind fun table : JoinTable T => table.suspension = suspensions :=
  ⟨id, id, fun _ holds => holds⟩

namespace JoinRoll

variable {s : JoinState T} {action : JoinAction T} {j : JoinId}

/-- `OnExit` begins the handler of a join, or releases a copy. -/
theorem changes_onExit (inv : JoinRoll s) {t : ThreadId} {r : RunnerId} :
    s.Changes j (.runner (.onExit t r)) ((s.afterRunner (.onExit t r)).joins j) := by
  cases handler : (s.system.runners r).deferHandler with
  | none =>
      simp only [JoinState.afterRunner, handler, JoinTable.releaseChild]
      split
      next child found =>
        rw [JoinTable.setJoin_releaseIfLast_joins]
        by_cases here : j = child.join
        · exact .releasesChild rfl t r child rfl found here.symm (by simp [here])
        · exact .same rfl (by simp [here])
      next => exact .same rfl rfl
  | some stored =>
      cases stored with
      | proceedHandler =>
          simp only [JoinState.afterRunner, handler]
          exact .same rfl rfl
      | callable =>
          simp only [JoinState.afterRunner, handler, JoinTable.beginHandler]
          split
          · exact .same rfl rfl
          next k code =>
            by_cases here : j = k
            · exact .begins rfl (here ▸ (inv.inv.fits.handlers r k handler code).1)
                (by simp [here])
            · exact .same rfl (by simp [here])

theorem changes (inv : JoinRoll s) (enabled : s.Enabled action) (j : JoinId) :
    s.Changes j action ((s.step action).table.joins j) := by
  have guard := enabled.2.1
  change s.Changes j action ((s.afterTable action).joins j)
  have calm {t : ThreadId} {r : RunnerId} {table : JoinTable T}
      (quiet : action.answers j = false)
      (moved : s.system.handleEvents t r = none → s.Changes j action (table.joins j)) :
      s.Changes j action ((s.ifCalm t r table).joins j) := by
    unfold JoinState.ifCalm
    split
    · exact .same quiet rfl
    next silent => exact moved silent
  cases action with
  | runner action =>
      cases action with
      | onExit t r => exact inv.changes_onExit
      | _ => exact .same rfl rfl
  | defer t r calls => exact calm rfl fun _ => .same rfl rfl
  | userCall t created => exact .same rfl rfl
  | join t r k kind handlers =>
      refine calm rfl fun silent => ?_
      by_cases here : j = k
      · subst here
        exact .made rfl guard.2.1 kind r handlers .stored (.inr rfl) guard.2.2.2
          (.inr ⟨t, rfl, silent⟩) (by simp [JoinTable.deferJoin, JoinTable.newJoin])
      · exact .same rfl (by simp [JoinTable.deferJoin, JoinTable.newJoin, here])
  | launch t k created =>
      by_cases here : j = k
      · subst here
        exact .launches rfl guard.1.2.2 created (.inl ⟨t, rfl⟩)
          (by simp [JoinState.afterTable, JoinTable.launch])
      · exact .same rfl (by simp [JoinState.afterTable, JoinTable.launch, here])
  | endLoop t k =>
      simp only [JoinState.afterTable, JoinTable.releaseLoop,
        JoinTable.setJoin_releaseIfLast_joins]
      by_cases here : j = k
      · subst here
        exact .releasesLoop rfl guard.1.2.2 (s.table.joins j).proceed (.inl ⟨t, rfl, rfl⟩) (by simp)
      · exact .same rfl (by simp [here])
  | makeWaiter t r k =>
      by_cases here : j = k
      · subst here
        exact .made rfl guard.2 .waiter r 0 .idle (.inl rfl) (by simp) (.inl rfl)
          (by simp [JoinState.afterTable, JoinTable.newJoin])
      · exact .same rfl (by simp [JoinState.afterTable, JoinTable.newJoin, here])
  | waiterRunAsync t r k created =>
      by_cases here : j = k
      · subst here
        exact .launches rfl guard.2.2.2.2 created (.inr ⟨t, r, rfl⟩)
          (by simp [JoinState.afterTable, JoinTable.launch])
      · exact .same rfl (by simp [JoinState.afterTable, JoinTable.launch, here])
  | waiterWait t r k =>
      simp only [JoinState.afterTable]
      split
      · exact .same rfl rfl
      · refine calm rfl fun _ => ?_
        by_cases here : j = k
        · subst here
          exact .suspends rfl guard.2.2.2.1 guard.2.2.2.2 ⟨t, r, rfl⟩
            (by simp [JoinTable.deferJoin])
        · exact .same rfl (by simp [JoinTable.deferJoin, here])
  | dropWaiter t r k =>
      simp only [JoinState.afterTable, JoinTable.releaseLoop, JoinTable.setJoin_setJoin,
        JoinTable.setJoin_releaseIfLast_joins]
      by_cases here : j = k
      · subst here
        exact .releasesLoop rfl guard.2.2.2.2 false (.inr ⟨t, r, rfl, rfl⟩) (by simp)
      · exact .same rfl (by simp [here])
  | childReturns t r value =>
      simp only [JoinState.afterTable]
      split
      next child found =>
        rcases s.table.childReturns_cases t r child value with
          ⟨kind, result, rfl, same⟩ | ⟨-, same⟩ | ⟨-, -, same⟩ <;> rw [same]
        · rw [JoinTable.tryProceed, JoinTable.settle_joins]
          by_cases here : j = child.join
          · refine .returns rfl (here ▸ kind) t r child result rfl found here.symm ?_
              (by simp [here])
            simpa [JoinState.ended, found] using guard.2.1.2
          · exact .same rfl (by simp [here])
        · exact .same rfl rfl
        · exact .same rfl rfl
      next => exact .same rfl rfl
  | childThrows t r =>
      simp only [JoinState.afterTable]
      split <;> exact .same rfl rfl
  | increment t k index =>
      simp only [JoinState.afterTable, JoinTable.increment, JoinTable.tryIndex,
        JoinTable.settle_joins]
      by_cases here : j = k
      · subst here
        exact .counts rfl (inv.inv.ledger.counting t j index guard.1).1 t index rfl guard.1
          (by simp)
      · exact .same rfl (by simp [here])
  | callProceed t k =>
      by_cases here : j = k
      · subst here
        exact .answered (by simp [JoinAction.answers]) (inv.inv.ledger.owed t j guard).1
          (by simp [JoinState.afterTable, JoinTable.pay])
      · exact .same (by simpa [JoinAction.answers] using Ne.symm here)
          (by simp [JoinState.afterTable, JoinTable.pay, here])

theorem used_of_looping (inv : JoinRoll s) (looping : (s.table.joins j).looping = true) :
    (s.table.joins j).phase ≠ .unused := by
  intro unused
  simp [inv.inv.ledger.unused j unused] at looping

theorem made_of_used (inv : JoinRoll s) (enabled : s.Enabled action)
    (unused : (s.table.joins j).phase = .unused)
    (used : ((s.step action).table.joins j).phase ≠ .unused) :
    ∃ kind owner handlers phase, (phase = .idle ∨ phase = .stored) ∧
      (kind = .waiter ∨ ∃ t, action = .join t owner j kind handlers ∧
        s.system.handleEvents t owner = none) ∧
      (s.step action).table.joins j =
        { kind := kind, owner := owner, handlers := handlers, looping := true, phase := phase } := by
  cases inv.changes enabled j with
  | made _ _ kind owner handlers phase starts _ makes same =>
      exact ⟨kind, owner, handlers, phase, starts, makes, same⟩
  | same _ same => exact absurd (same ▸ unused) used
  | suspends _ idle => simp [idle] at unused
  | begins _ stored => simp [stored] at unused
  | answered _ begun => simp [begun] at unused
  | launches _ looping | releasesLoop _ looping =>
      exact absurd unused (inv.used_of_looping looping)
  | releasesChild _ _ r child _ found own | returns _ _ _ r child _ _ found own =>
      exact absurd unused (own ▸ inv.inv.ledger.known r child found)
  | counts _ _ t index _ counting =>
      rcases (inv.inv.ledger.counting t j index counting).2 with phase | phase <;>
        simp [phase] at unused

theorem sameCall_step (inv : JoinRoll s) (enabled : s.Enabled action)
    (used : (s.table.joins j).phase ≠ .unused) :
    ((s.step action).table.joins j).SameCall (s.table.joins j) := by
  cases inv.changes enabled j with
  | same _ same | launches _ _ _ _ same => rw [same]; exact ⟨rfl, rfl, rfl, used⟩
  | made _ unused => exact absurd unused used
  | suspends _ _ _ _ same | begins _ _ same | answered _ _ same =>
      rw [same]; exact ⟨rfl, rfl, rfl, nofun⟩
  | releasesLoop _ _ _ _ same | releasesChild _ _ _ _ _ _ _ same =>
      rw [same]
      refine ((Join.afterRelease_same _).sameCall ?_).trans ⟨rfl, rfl, rfl, used⟩
      exact used
  | returns _ _ _ _ _ value _ _ _ _ same =>
      rw [same]
      exact ((s.table.joins j).tryProceed_same (some value)).sameCall used
  | counts _ _ _ index _ _ same =>
      rw [same]
      exact ((s.table.joins j).tryIndex_same index).sameCall used

theorem sameCall_run (inv : JoinRoll s) {actions : List (JoinAction T)}
    (legal : (joinSystem T).Legal s actions)
    (contract : (joinSystem T).EveryStep UserContract s actions)
    (used : (s.table.joins j).phase ≠ .unused) :
    (((joinSystem T).run s actions).table.joins j).SameCall (s.table.joins j) := by
  induction actions generalizing s with
  | nil => exact ⟨rfl, rfl, rfl, used⟩
  | cons action actions ih =>
      have first := inv.sameCall_step legal.1 used
      exact (ih (inv.step legal.1 contract.1) legal.2 contract.2 first.used).trans first

end JoinRoll

/-- A `Defer` that finds an event leaves all of the table alone, and one that finds none
leaves alone what its table leaves alone. -/
theorem JoinState.ifCalm_same {Part : Type*} (s : JoinState T) (part : JoinTable T → Part)
    {t : ThreadId} {r : RunnerId} {table : JoinTable T} (same : part table = part s.table) :
    part (s.ifCalm t r table) = part s.table := by
  unfold ifCalm
  split
  · rfl
  · exact same

namespace JoinRoll

variable {s : JoinState T} {action : JoinAction T} {j : JoinId}

theorem childChanges (inv : JoinRoll s) (enabled : s.Enabled action) (r : RunnerId) :
    s.ChildChanges r action ((s.step action).table.child r) := by
  have permitted := enabled.2.2.1
  change s.ChildChanges r action ((s.afterTable action).child r)
  have launch (j : JoinId) {created : RunnerId}
      (unborn : (s.system.runners created).stage = .unborn) :
      s.ChildChanges r action ((s.table.launch j created).child r) := by
    by_cases here : r = created
    · subst here
      exact .launched (inv.child_of_unborn unborn) j (by simp [JoinTable.launch])
    · exact .same (by simp [JoinTable.launch, here])
  cases action with
  | runner action =>
      cases action with
      | onExit t q =>
          refine .same (congrFun ?_ r)
          simp only [JoinState.afterTable, JoinState.afterRunner]
          split
          · unfold JoinTable.beginHandler
            split <;> rfl
          · rfl
          · unfold JoinTable.releaseChild
            split
            · exact (CounterBlind.child _).releaseIfLast rfl
            · rfl
      | _ => exact .same rfl
  | defer t q calls | join t q k kind handlers =>
      refine .same (congrFun (s.ifCalm_same JoinTable.child ?_) r)
      rfl
  | userCall t created => exact .same rfl
  | launch t k created | waiterRunAsync t q k created => exact launch k permitted.1
  | endLoop t k | dropWaiter t q k =>
      exact .same (congrFun ((CounterBlind.child _).releaseIfLast rfl) r)
  | makeWaiter t q k => exact .same rfl
  | waiterWait t q k =>
      simp only [JoinState.afterTable]
      split
      · exact .same rfl
      · refine .same (congrFun (s.ifCalm_same JoinTable.child ?_) r)
        rfl
  | childReturns t q value =>
      obtain ⟨child, found⟩ := Option.isSome_iff_exists.mp enabled.2.1.2.1.1
      have runs : child.ended = false := by simpa [JoinState.ended, found] using enabled.2.1.2.1.2
      simp only [JoinState.afterTable, found]
      rw [(CounterBlind.child _).childReturns rfl value]
      by_cases here : r = q
      · subst here
        exact .ended child found runs t (.inl ⟨value, rfl⟩) (by simp)
      · exact .same (by simp [here])
  | childThrows t q =>
      obtain ⟨child, found⟩ := Option.isSome_iff_exists.mp enabled.2.1.2.1.1
      have runs : child.ended = false := by simpa [JoinState.ended, found] using enabled.2.1.2.1.2
      simp only [JoinState.afterTable, found]
      by_cases here : r = q
      · subst here
        exact .ended child found runs t (.inr rfl) (by simp)
      · exact .same (by simp [here])
  | increment t k index => exact .same (congrFun ((CounterBlind.child _).increment rfl index) r)
  | callProceed t k => exact .same rfl

theorem child_step (inv : JoinRoll s) (enabled : s.Enabled action) {r : RunnerId} {child : Child}
    (found : s.table.child r = some child) :
    ∃ after, (s.step action).table.child r = some after ∧ after.join = child.join ∧
      after.index = child.index ∧ (child.ended = true → after.ended = true) := by
  cases inv.childChanges enabled r with
  | same same => exact ⟨child, same.trans found, rfl, rfl, id⟩
  | launched new => simp [new] at found
  | ended other also _ _ _ same =>
      obtain rfl : other = child := Option.some.inj (also.symm.trans found)
      exact ⟨_, same, rfl, rfl, fun _ => rfl⟩

/-! ### Answers -/

theorem answers_step (inv : JoinRoll s) (enabled : s.Enabled action) (j : JoinId) :
    ((s.step action).table.joins j).phase.answers =
      (s.table.joins j).phase.answers + (action.answers j).toNat := by
  cases inv.changes enabled j with
  | same quiet same | launches quiet _ _ _ same => simp [same, quiet]
  | made quiet unused _ _ _ phase starts _ _ same =>
      rcases starts with rfl | rfl <;> simp [same, unused, quiet, JoinPhase.answers]
  | suspends quiet idle _ _ same => simp [same, idle, quiet, JoinPhase.answers]
  | begins quiet stored same => simp [same, stored, quiet, JoinPhase.answers]
  | answered answers begun same => simp [same, begun, answers, JoinPhase.answers]
  | releasesLoop quiet _ _ _ same | releasesChild quiet _ _ _ _ _ _ same =>
      simp [same, (Join.afterRelease_same _).phase, quiet]
  | returns quiet _ _ _ _ _ _ _ _ _ same =>
      simp [same, (Join.tryProceed_same _ _).phase, quiet]
  | counts quiet _ _ _ _ _ same => simp [same, (Join.tryIndex_same _ _).phase, quiet]

theorem begun_of_answers (inv : JoinRoll s) (enabled : s.Enabled action)
    (answers : action.answers j = true) : (s.table.joins j).phase = .begun := by
  cases inv.changes enabled j with
  | answered _ begun => exact begun
  | same quiet | made quiet | suspends quiet | begins quiet | launches quiet
  | releasesLoop quiet | releasesChild quiet | returns quiet | counts quiet =>
      simp [quiet] at answers

/-- The invariant holds in every state of a run that keeps the contract. -/
theorem everyState {actions : List (JoinAction T)} (legal : (joinSystem T).Legal {} actions)
    (contract : (joinSystem T).EveryStep UserContract {} actions) :
    (joinSystem T).EveryState JoinRoll {} actions :=
  ActionSystem.everyState_of_invariant (fun _ _ inv enabled => inv.step enabled) initial legal
    contract

/-- What the invariant makes true of a step is true of every step of a run. -/
theorem everyStep {actions : List (JoinAction T)} (legal : (joinSystem T).Legal {} actions)
    (contract : (joinSystem T).EveryStep UserContract {} actions)
    {consequence : JoinState T → JoinAction T → Prop}
    (consequent : ∀ s action, JoinRoll s → s.Enabled action → consequence s action) :
    (joinSystem T).EveryStep consequence {} actions :=
  ActionSystem.everyStep_of_invariant (fun _ _ inv enabled => inv.step enabled)
    (fun s action inv enabled _ => consequent s action inv enabled) initial legal contract

/-- A relation between the state and what the steps have shown so far. -/
theorem trace {Event : Type*} {observe : JoinState T → JoinAction T → List Event}
    {relates : JoinState T → List Event → Prop}
    (preserved : ∀ s seen action, JoinRoll s → relates s seen → s.Enabled action →
      UserContract s action → relates (s.step action) (seen ++ observe s action))
    (initially : relates {} []) {actions : List (JoinAction T)}
    (legal : (joinSystem T).Legal {} actions)
    (contract : (joinSystem T).EveryStep UserContract {} actions) :
    relates ((joinSystem T).run {} actions) ((joinSystem T).trace observe {} actions) := by
  have both : ∀ (s : JoinState T) (seen : List Event) (action : JoinAction T),
      (JoinRoll s ∧ relates s seen) → (joinSystem T).enabled s action → UserContract s action →
        JoinRoll ((joinSystem T).next s action) ∧
          relates ((joinSystem T).next s action) (seen ++ observe s action) :=
    fun s seen action invs enabled keeps =>
      ⟨invs.1.step enabled keeps, preserved s seen action invs.1 invs.2 enabled keeps⟩
  simpa using (ActionSystem.trace_invariant both ⟨initial, initially⟩ legal contract).2

/-- In every run the proceed handler of a join has been called once if the join
is answered, and not at all otherwise. -/
theorem count_answers {actions : List (JoinAction T)} (legal : (joinSystem T).Legal {} actions)
    (contract : (joinSystem T).EveryStep UserContract {} actions) (j : JoinId) :
    actions.countP (·.answers j) =
      (((joinSystem T).run {} actions).table.joins j).phase.answers := by
  have count := ActionSystem.countP_of_invariant
    (fun s : JoinState T => (s.table.joins j).phase.answers) (·.answers j)
    (fun _ _ (inv : JoinRoll _) enabled => inv.step enabled)
    (fun s action inv (enabled : s.Enabled action) _ => inv.answers_step enabled j) initial legal
    contract
  simpa [JoinPhase.answers] using count.symm

end JoinRoll

/-! ### Suspended callers and ended handlers -/

namespace JoinState

/-- Handler number `i` of join `j` has been launched once, and has ended. -/
def HandlerEnded (s : JoinState T) (j : JoinId) (i : Nat) : Prop :=
  ∃ r, s.table.child r = some { join := j, index := i, ended := true } ∧
    ∀ other child, s.table.child other = some child → child.join = j → child.index = i →
      other = r

/-- All handlers of join `j` have been launched once, and have ended. -/
def AllEnded (s : JoinState T) (j : JoinId) : Prop :=
  (s.table.joins j).launched = (s.table.joins j).handlers ∧
    ∀ i < (s.table.joins j).handlers, s.HandlerEnded j i

/-- The launch loop of join `j` is over, and all children are deleted. -/
def AllGone (s : JoinState T) (j : JoinId) : Prop :=
  (s.table.joins j).looping = false ∧
    ∀ r child, s.table.child r = some child → child.join = j →
      (s.system.runners r).stage = .deleted

/-- The proceed handler of join `j` has been called, or a thread is about to
call it. -/
def Resumed (s : JoinState T) (j : JoinId) : Prop :=
  (s.table.joins j).phase = .answered ∨ ∃ t, s.Enabled (.callProceed t j)

/-- Nobody executes code of the caller of join `j`. -/
def CallerRests (s : JoinState T) (j : JoinId) : Prop :=
  ∀ t, ¬ (s.system.threads t).WorksFor (s.table.joins j).owner

end JoinState

/-- The caller of join `j` executes nothing before its proceed handler is
called, and it is not left behind when all children are gone. -/
structure WaitsForAnswer (s : JoinState T) (j : JoinId) : Prop where
  rests : (s.table.joins j).phase = .stored ∨ (s.table.joins j).phase = .begun → s.CallerRests j
  resumed : s.system.terminated = false → s.AllGone j → s.Resumed j

namespace JoinRoll

variable {s : JoinState T} {j : JoinId} {r : RunnerId}

theorem holders_eq_nil_iff (inv : JoinRoll s) : (s.table.joins j).holders = [] ↔
    ∀ r child, s.table.child r = some child → child.join = j →
      (s.system.runners r).stage = .deleted := by
  constructor
  · intro empty r child found own
    have holds := inv.inv.fits.children r child found
    simpa [own, empty] using holds
  · intro gone
    by_contra some
    obtain ⟨r, holds⟩ := List.exists_mem_of_ne_nil _ some
    obtain ⟨present, child, found, own⟩ := inv.enrolled.holds j r holds
    exact present (gone r child found own)

theorem ended_of_deleted (inv : JoinRoll s) {child : Child} (found : s.table.child r = some child)
    (deleted : (s.system.runners r).stage = .deleted) : child.ended = true :=
  inv.enrolled.ends r child found ((inv.inv.life.phases r).ended_of_deleted deleted)

/-- When all copies of the shared pointer are released, all handlers have
ended. -/
theorem allEnded (inv : JoinRoll s) (used : (s.table.joins j).phase ≠ .unused)
    (notWaiter : (s.table.joins j).kind ≠ .waiter)
    (looping : (s.table.joins j).looping = false) (empty : (s.table.joins j).holders = []) :
    s.AllEnded j := by
  have full := inv.roll.looped j used notWaiter looping
  refine ⟨full, fun i small => ?_⟩
  obtain ⟨r, child, found, own, index⟩ := inv.roll.present j i (full ▸ small)
  have ended := inv.ended_of_deleted found (inv.holders_eq_nil_iff.mp empty r child found own)
  refine ⟨r, ?_, fun other another also sameJoin sameIndex => ?_⟩
  · obtain ⟨join, place, ceased⟩ := child
    simp only at own index ended
    rw [found, own, index, ended]
  · exact inv.roll.distinct other r another child also found (sameJoin.trans own.symm)
      (sameIndex.trans index.symm)

theorem callerRests (inv : JoinRoll s)
    (open_ : (s.table.joins j).phase = .stored ∨ (s.table.joins j).phase = .begun) :
    s.CallerRests j := by
  intro t works
  obtain ⟨role, plays⟩ := Option.isSome_iff_exists.mp works.role
  rcases open_ with stored | begun
  · obtain ⟨-, handler, -⟩ := inv.inv.fits.stored j stored
    have inside : role ≠ .exiting := by
      rcases works with body | ⟨kind, entered⟩
      · simp only [body, Pc.role, if_true, Option.some.injEq] at plays
        simp [← plays]
      · simp only [entered, Pc.role, if_true, Option.some.injEq] at plays
        simp [← plays]
    rw [inv.inv.life.phases.deferHandler_of_role plays inside] at handler
    cases handler
  · obtain ⟨-, unheld⟩ := inv.inv.life.phases.unheld_of_answer (inv.inv.fits.begun j begun).1
    simp [unheld t] at plays

theorem claimed_of_answers (inv : JoinRoll s) {action : JoinAction T} (enabled : s.Enabled action)
    (answers : action.answers j = true) : (s.table.joins j).claimed = true := by
  cases action with
  | callProceed t k =>
      obtain rfl : k = j := by simpa [JoinAction.answers] using answers
      by_contra unclaimed
      exact (inv.inv.ledger.unclaimed k (by simpa using unclaimed)).2 t enabled.2.1
  | runner | defer | userCall | join | launch | endLoop | makeWaiter | waiterRunAsync
  | waiterWait | dropWaiter | childReturns | childThrows | increment => cases answers

/-- A join whose proceed handler is due is answered, or is about to be. -/
theorem resumed (inv : JoinRoll s) (running : s.system.terminated = false)
    (used : (s.table.joins j).phase ≠ .unused) (claimed : (s.table.joins j).claimed = true)
    (proceed : (s.table.joins j).proceed = true) : s.Resumed j := by
  rcases inv.due.claimed j used claimed proceed with ⟨t, owes⟩ | answered
  · exact .inr ⟨t, running, owes, trivial, id⟩
  · exact .inl answered

end JoinRoll

/-! ### RunAsyncWait -/

/-- In every run, the proceed handler of a `RunAsyncWait` is called once at
most, after its loop has launched each handler once and all of them have ended;
until then the caller rests, and once all children are gone the call is made or
about to be made. -/
theorem run_async_wait_barrier {actions : List (JoinAction T)}
    (legal : (joinSystem T).Legal {} actions)
    (contract : (joinSystem T).EveryStep UserContract {} actions) :
    (joinSystem T).EveryStep (fun s action => ∀ j, (s.table.joins j).kind = .wait →
        action.answers j = true → (s.table.joins j).looping = false ∧ s.AllEnded j) {} actions ∧
      (joinSystem T).EveryState (fun s => ∀ j, (s.table.joins j).kind = .wait →
        (s.table.joins j).phase ≠ .unused → WaitsForAnswer s j) {} actions ∧
      ∀ j, actions.countP (·.answers j) =
        (((joinSystem T).run {} actions).table.joins j).phase.answers := by
  refine ⟨JoinRoll.everyStep legal contract fun s action inv enabled j kind answers => ?_,
    (JoinRoll.everyState legal contract).imp fun s inv j kind used => ?_,
    JoinRoll.count_answers legal contract⟩
  · have claimed := inv.claimed_of_answers enabled answers
    have begun := inv.begun_of_answers enabled answers
    simp only [Join.claimed, kind, Bool.and_eq_true, Bool.not_eq_true', List.isEmpty_iff] at claimed
    exact ⟨claimed.1, inv.allEnded (by simp [begun]) (by simp [kind]) claimed.1 claimed.2⟩
  · refine ⟨inv.callerRests, fun running gone => inv.resumed running used ?_ ?_⟩
    · simpa [Join.claimed, kind, gone.1] using inv.holders_eq_nil_iff.mpr gone.2
    · exact inv.inv.ledger.proceed j (by simp [kind])

/-- Task 0 waits for two tasks.  The first one throws while thread 0 is still
in the launch loop, the second one ends last. -/
def throwingChild : List (JoinAction Nat) :=
  [.runner (.runAsync 0 1), .runner (.dispatch 0 ⟨.start, 0, 1⟩),
    .runner (.enter 0 0 .start), .join 0 0 0 .wait 2, .runner (.onExit 0 0), .launch 0 0 1,
    .runner (.dispatch 1 ⟨.start, 1, 1⟩), .runner (.enter 1 1 .start), .runner (.raise 1 1),
    .childThrows 1 1, .runner (.finish 1 1), .runner (.onExit 1 1), .runner (.detach 1),
    .launch 0 0 2, .endLoop 0 0, .runner (.dispatch 1 ⟨.start, 2, 1⟩),
    .runner (.enter 1 2 .start), .childReturns 1 2 none, .runner (.finish 1 2),
    .runner (.onExit 1 2), .callProceed 1 0]

theorem run_async_wait_barrier_throwingChild :
    throwingChild.countP (·.answers 0) =
      (((joinSystem Nat).run {} throwingChild).table.joins 0).phase.answers :=
  (run_async_wait_barrier (by decide) (by decide)).2.2 0

end FlatAsync
