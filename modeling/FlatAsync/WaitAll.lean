import FlatAsync.RunnerSteps
import Mathlib.Data.BitVec

/-!
# Waiting for all runners

The constructor of `AsyncRunner` raises a global counter before the runner is
scheduled; the body of its destructor lowers it before the members are
destroyed, the coroutine with the handler of the task among them.  `WaitAll`
returns when it reads the counter as 0.

This file splits the creation and the deletion of a runner into these parts and
shows when a counter of 0 means that all tasks are over.
-/

namespace FlatAsync

/-! ### Stages of runners and places of threads -/

/-- The runner a thread executes code of: its coroutine, `OnEnter` or `OnExit`
on it, or its defer handler. -/
def Pc.runner : Pc → Option RunnerId
  | .entered r _ | .body r | .exiting r | .deferring r _ => some r
  | .idle | .leaving => none

def System.deletes (s : System) : Action → Option RunnerId
  | .onExit _ r => if (s.runners r).deferHandler = none then some r else none
  | _ => none

namespace System

variable {s : System} {t : ThreadId} {r : RunnerId} {site : CallSite} {dst : SchedulerId}

theorem deletes_eq_some {action : Action} (deletes : s.deletes action = some r) :
    (∃ t, action = .onExit t r) ∧ (s.runners r).deferHandler = none := by
  cases action with
  | onExit t q =>
      by_cases missing : (s.runners q).deferHandler = none
      · have same : q = r := by
          simpa [System.deletes, missing] using deletes
        subst same
        exact ⟨⟨t, rfl⟩, missing⟩
      · simp [System.deletes, missing] at deletes
  | _ => cases deletes

/-- A runner is created and deleted by the actions meant for it, and its stage
never changes otherwise. -/
theorem step_stage (s : System) (action : Action) (r : RunnerId) :
    ((s.step action).runners r).stage =
      if action.creates = some r then .alive
      else if s.deletes action = some r then .deleted
      else (s.runners r).stage := by
  have change := s.step_runner action r
  generalize (s.step action).runners r = new at change ⊢
  cases change with
  | other elsewhere =>
      have uncreated : action.creates ≠ some r := by
        cases action <;> simp_all [Action.creates, Action.runner]
      have undeleted : s.deletes action ≠ some r := by
        cases action <;> simp_all [deletes, Action.runner]
      rw [if_neg uncreated, if_neg undeleted]
  | created scheduler creates => rw [if_pos creates]
  | handlerTaken t stored => simp [Action.creates, deletes, stored]
  | deleted t missing => simp [Action.creates, deletes, missing]
  | switched t switch | accessed t switch | leftAccess t scopes switch =>
      simpa [Action.creates, deletes] using switch.stage
  | _ =>
      simp [Action.creates, deletes, AsyncRunner.raised, AsyncRunner.yielded, AsyncRunner.woken]

private theorem escape_pc : ((s.escape t r site).threads t).pc = (s.threads t).pc := by
  cases site <;> simp [escape, raise]

private theorem returnFrom_threads : (s.returnFrom r site).threads = s.threads := by
  cases site <;> rfl

theorem defer_pc {handler : DeferHandler} :
    ((s.defer t r site handler).threads t).pc = (s.threads t).pc ∨
      ((s.defer t r site handler).threads t).pc = .exiting r := by
  unfold defer
  split
  · exact .inl escape_pc
  · exact .inr (by simp [yield])

theorem switchTo_pc : ((s.switchTo t r site dst).threads t).pc = (s.threads t).pc ∨
    ((s.switchTo t r site dst).threads t).pc = .exiting r := by
  unfold switchTo
  split
  · exact .inl (by rw [returnFrom_threads])
  · exact defer_pc

theorem resume_pc : ((s.resume t r).threads t).pc = .body r ∨
    ((s.resume t r).threads t).pc = .exiting r := by
  unfold resume
  split
  · apply Or.inl
    unfold afterYield
    split
    · rw [escape_pc]
      simp [wake]
    · rw [returnFrom_threads]
      simp [wake]
  · exact .inr (by simp)

theorem step_deferring {action : Action}
    (defers : ((s.step action).threads t).pc = .deferring r .callable) :
    (s.threads t).pc = .deferring r .callable ∨ action = .onExit t r := by
  by_cases own : action.thread = some t
  · cases action with
    | runAsync | proceed | setStatus | reset => cases own
    | runAsyncHere u q | currentScheduler u =>
        obtain rfl := Option.some.inj own
        exact .inl defers
    | dispatch u closure =>
        obtain rfl := Option.some.inj own
        simp [step, onEnter] at defers
    | enter u q kind =>
        obtain rfl := Option.some.inj own
        cases kind with
        | start => simp [step, start] at defers
        | proceed =>
            rcases resume_pc (s := s) with body | exits
            · cases body.symm.trans defers
            · cases exits.symm.trans defers
    | handleEvents u q =>
        obtain rfl := Option.some.inj own
        simp only [step] at defers
        split at defers
        · exact .inl (by simpa [System.raise] using defers)
        · exact .inl defers
    | disableEvents u q =>
        obtain rfl := Option.some.inj own
        simp only [step, disableEvents] at defers
        split at defers <;> exact .inl (by simpa [System.raise] using defers)
    | enableEvents u q =>
        obtain rfl := Option.some.inj own
        simp only [step, enableEvents] at defers
        split at defers <;> exact .inl (by simpa [System.raise, allowEvents] using defers)
    | enterGuard u q =>
        obtain rfl := Option.some.inj own
        simp only [step, makeGuard] at defers
        split at defers <;> exact .inl (by simpa [System.raise] using defers)
    | defer u q =>
        obtain rfl := Option.some.inj own
        rcases defer_pc with same | exits
        · exact .inl (same.symm.trans defers)
        · cases exits.symm.trans defers
    | switchTo u q dst | enterAccess u q dst =>
        obtain rfl := Option.some.inj own
        rcases switchTo_pc with same | exits
        · exact .inl (same.symm.trans defers)
        · cases exits.symm.trans defers
    | leaveScope u q =>
        obtain rfl := Option.some.inj own
        simp only [step, leaveScope] at defers
        split at defers
        · exact .inl defers
        · unfold destroyGuard at defers
          split at defers <;> exact .inl (by simpa [allowEvents] using defers)
        · rcases switchTo_pc with same | exits
          · exact .inl (by simpa using same.symm.trans defers)
          · cases exits.symm.trans defers
    | raise u q | catchException u q =>
        obtain rfl := Option.some.inj own
        exact .inl (by simpa [step, System.raise, System.catchException] using defers)
    | onExit u q =>
        obtain rfl := Option.some.inj own
        simp only [step, onExit] at defers
        split at defers
        next handler stored =>
          have same : q = r := by
            have place : Pc.deferring q handler = .deferring r .callable := by
              simpa [takeHandler] using defers
            cases place
            rfl
          exact .inr (by rw [same])
        next missing => simp [delete] at defers
    | finish u q | callProceed u q | returnHandler u q | detach u =>
        obtain rfl := Option.some.inj own
        simp [step, System.finish, System.detach] at defers
  · rw [step_threads s own] at defers
    exact .inl defers

end System

/-! ### The runner counter -/

/-- The runner system with the counter behind `RunnerCountTag`, an
`std::atomic<int>`.  `created` lists the runners whose constructor has been
called; `destroying` tells for each thread the runner whose members it is still
destroying. -/
structure CountedState where
  system : System := {}
  count : BitVec 32 := 0
  created : List RunnerId := []
  destroying : ThreadId → Option RunnerId := fun _ => none

/-- `construct` is the constructor of `AsyncRunner`; the rest of
`AsyncRunner::Create` is the step `runAsync` or `runAsyncHere` of the runner
system.  `onExit` of the runner system includes the body of the destructor, and
`destroyMembers` the destruction of the members.  `waitAll` is the test in the
loop of `WaitAll`. -/
inductive CountedAction
  | runner (action : Action)
  | construct (runner : RunnerId)
  | destroyMembers (thread : ThreadId)
  | waitAll
  deriving DecidableEq, Repr

namespace CountedState

/-- What the runner system does not know: a runner is constructed before it is
started, and a thread leaves `OnExit` after the deletion. -/
def Ready (s : CountedState) : Action → Prop
  | .runAsync created _ | .runAsyncHere _ created => created ∈ s.created
  | .detach t => s.destroying t = none
  | _ => True

instance (s : CountedState) : ∀ action, Decidable (s.Ready action)
  | .runAsync .. | .runAsyncHere .. => inferInstanceAs (Decidable (_ ∈ _))
  | .detach _ => inferInstanceAs (Decidable (_ = _))
  | .currentScheduler .. | .dispatch .. | .enter .. | .handleEvents .. | .disableEvents ..
  | .enableEvents .. | .defer .. | .switchTo .. | .enterGuard .. | .enterAccess ..
  | .leaveScope .. | .raise .. | .catchException .. | .finish .. | .onExit .. | .callProceed ..
  | .returnHandler .. | .proceed .. | .setStatus .. | .reset .. =>
      inferInstanceAs (Decidable True)

def Guard (s : CountedState) : CountedAction → Prop
  | .runner action => s.system.Guard action ∧ s.Ready action
  | .construct r => r ∉ s.created
  | .destroyMembers t => (s.destroying t).isSome = true
  | .waitAll => True

instance (s : CountedState) : ∀ action, Decidable (s.Guard action)
  | .runner _ => inferInstanceAs (Decidable (_ ∧ _))
  | .construct _ => inferInstanceAs (Decidable (_ ∉ _))
  | .destroyMembers _ => inferInstanceAs (Decidable (_ = _))
  | .waitAll => inferInstanceAs (Decidable True)

def Enabled (s : CountedState) (action : CountedAction) : Prop :=
  s.system.terminated = false ∧ s.Guard action

instance (s : CountedState) (action : CountedAction) : Decidable (s.Enabled action) :=
  inferInstanceAs (Decidable (_ ∧ _))

/-- `AsyncRunner::AsyncRunner` -/
def construct (s : CountedState) (r : RunnerId) : CountedState :=
  { s with count := s.count + 1, created := r :: s.created }

/-- The body of `AsyncRunner::~AsyncRunner`, after which thread `t` destroys the
members. -/
def destruct (s : CountedState) (t : ThreadId) (r : RunnerId) : CountedState :=
  { s with count := s.count - 1, destroying := Function.update s.destroying t (some r) }

def step (s : CountedState) : CountedAction → CountedState
  | .runner action =>
      let after := { s with system := s.system.step action }
      match action with
      | .onExit t r => if (s.system.runners r).deferHandler = none then after.destruct t r else after
      | _ => after
  | .construct r => s.construct r
  | .destroyMembers t => { s with destroying := Function.update s.destroying t none }
  | .waitAll => s

end CountedState

/-- Any number of tasks and a caller of `WaitAll`. -/
def countedSystem : ActionSystem CountedState CountedAction where
  enabled := CountedState.Enabled
  next := CountedState.step

instance (s : CountedState) (action : CountedAction) :
    Decidable (countedSystem.enabled s action) :=
  inferInstanceAs (Decidable (s.Enabled action))

/-- The contract of proceed handlers. -/
def CountedContract (s : CountedState) : CountedAction → Prop
  | .runner action => ProceedContract s.system action
  | .construct _ | .destroyMembers _ | .waitAll => True

instance (s : CountedState) : ∀ action, Decidable (CountedContract s action)
  | .runner action => inferInstanceAs (Decidable (ProceedContract s.system action))
  | .construct _ | .destroyMembers _ | .waitAll => inferInstanceAs (Decidable True)

namespace CountedState

/-- The runners that have been constructed and not yet destroyed. -/
def live (s : CountedState) : Nat :=
  s.created.countP fun r => (s.system.runners r).stage != .deleted

/-- Nothing of task `r` is scheduled, executed or being destroyed. -/
structure Over (s : CountedState) (r : RunnerId) : Prop where
  unscheduled : ∀ closure ∈ s.system.posted, closure.runner ≠ r
  unexecuted : ∀ t, (s.system.threads t).pc.runner ≠ some r
  destroyed : ∀ t, s.destroying t ≠ some r

/-- What a caller of `WaitAll` relies on: every body has run to its end, its
handler is destroyed, nothing is scheduled or executed, and this stays so for the
present tasks whatever happens later. -/
structure Quiescent (s : CountedState) : Prop where
  ended : ∀ r ∈ s.created, (s.system.runners r).stage = .deleted ∧
    (s.system.runners r).coroHelper = .finished
  unscheduled : s.system.posted = []
  unexecuted : ∀ t, (s.system.threads t).pc.runner = none
  destroyed : ∀ t, s.destroying t = none
  forever : ∀ future, countedSystem.Legal s future →
    countedSystem.EveryStep CountedContract s future →
      countedSystem.EveryState (fun later => ∀ r ∈ s.created, later.Over r) s future

end CountedState

/-- When `WaitAll` reads 0, all is quiet. -/
def WaitAllQuiescent (s : CountedState) (action : CountedAction) : Prop :=
  action = .waitAll → s.count = 0 → s.Quiescent

/-- When `WaitAll` reads 0, no thread is between the body of a destructor and the
end of the destruction, no thread executes a defer handler that the library has
not made, and there are fewer runners than the counter can count. -/
def WaitAllUndisturbed (s : CountedState) (action : CountedAction) : Prop :=
  action = .waitAll → s.count = 0 →
    (∀ t, s.destroying t = none) ∧ (∀ t r, (s.system.threads t).pc ≠ .deferring r .callable) ∧
      s.live < 2 ^ 32

/-! ### What the counter counts -/

theorem AllPhases.unreferenced {s : System} {r : RunnerId} (phases : AllPhases s)
    (dead : (s.runners r).stage ≠ .alive) :
    (∀ closure ∈ s.posted, closure.runner ≠ r) ∧ ∀ t, (s.threads t).pc.role r = none := by
  constructor
  · rintro closure waiting rfl
    have member : closure ∈ (s.view closure.runner).closures :=
      List.mem_filter.mpr ⟨waiting, by simp⟩
    exact dead ((phases closure.runner).posted_of_mem member).2.1
  · intro t
    cases plays : (s.threads t).pc.role r with
    | none => rfl
    | some role => exact absurd ((phases r).held_of_role (t := t) plays).2.1 dead

/-- The only code that can outlive a runner is a defer handler of the user. -/
theorem AllPhases.unexecuted {s : System} {t : ThreadId} {r : RunnerId} (phases : AllPhases s)
    (dead : (s.runners r).stage ≠ .alive) (quiet : (s.threads t).pc ≠ .deferring r .callable) :
    (s.threads t).pc.runner ≠ some r := by
  intro executes
  have unplayed := (phases.unreferenced dead).2 t
  cases pc : (s.threads t).pc with
  | idle | leaving => simp [pc, Pc.runner] at executes
  | entered q kind | body q | exiting q =>
      simp only [pc, Pc.runner, Option.some.injEq] at executes
      simp [pc, executes, Pc.role] at unplayed
  | deferring q handler =>
      simp only [pc, Pc.runner, Option.some.injEq] at executes
      subst executes
      cases handler with
      | proceedHandler => simp [pc, Pc.role] at unplayed
      | callable => exact quiet pc

private theorem countP_remove {α : Type*} {before after : α → Bool} {items : List α} {gone : α}
    (nodup : items.Nodup) (member : gone ∈ items) (counted : before gone = true)
    (uncounted : after gone = false)
    (same : ∀ item ∈ items, item ≠ gone → after item = before item) :
    items.countP before = items.countP after + 1 := by
  induction items with
  | nil => cases member
  | cons item items ih =>
      obtain ⟨fresh, nodup⟩ := List.nodup_cons.mp nodup
      by_cases here : item = gone
      · subst here
        have rest : items.countP after = items.countP before := by
          apply List.countP_congr
          intro other inside
          rw [same other (by simp [inside]) (by rintro rfl; exact fresh inside)]
        simp [counted, uncounted, rest]
      · have inside : gone ∈ items := by
          simpa [Ne.symm here] using member
        have smaller := ih nodup inside fun other found => same other (by simp [found])
        have equal := same item (by simp) here
        rw [List.countP_cons, List.countP_cons, equal]
        omega

/-- The counter counts the runners whose destructor has not begun. -/
structure CounterInvariant (s : CountedState) : Prop where
  life : LifeInvariant s.system
  nodup : s.created.Nodup
  born : ∀ r, (s.system.runners r).stage ≠ .unborn → r ∈ s.created
  count : s.count = BitVec.ofNat 32 s.live

namespace CounterInvariant

variable {s : CountedState} {action : CountedAction}

theorem initial : CounterInvariant {} where
  life := LifeInvariant.initial
  nodup := List.nodup_nil
  born _ born := absurd rfl born
  count := rfl

theorem construct (counter : CounterInvariant s) {r : RunnerId} (fresh : r ∉ s.created) :
    CounterInvariant (s.construct r) where
  life := counter.life
  nodup := List.nodup_cons.mpr ⟨fresh, counter.nodup⟩
  born other born := List.mem_cons_of_mem r (counter.born other born)
  count := by
    have unborn : (s.system.runners r).stage = .unborn := by
      by_contra born
      exact fresh (counter.born r born)
    have counted : (s.construct r).live = s.live + 1 := by
      simp [CountedState.live, CountedState.construct, unborn]
    rw [counted, BitVec.ofNat_add, ← counter.count]
    rfl

/-- What a step of the runner system creates has been constructed before. -/
theorem ready_creates {action : Action} {r : RunnerId} (guard : s.system.Guard action)
    (ready : s.Ready action) (creates : action.creates = some r) :
    r ∈ s.created ∧ (s.system.runners r).stage = .unborn := by
  cases action with
  | runAsync created scheduler =>
      obtain rfl := Option.some.inj creates
      exact ⟨ready, guard⟩
  | runAsyncHere t created =>
      obtain rfl := Option.some.inj creates
      exact ⟨ready, guard.1⟩
  | _ => cases creates

theorem born_step (counter : CounterInvariant s) {action : Action}
    (guard : s.system.Guard action) (ready : s.Ready action) (r : RunnerId)
    (born : ((s.system.step action).runners r).stage ≠ .unborn) : r ∈ s.created := by
  by_cases creates : action.creates = some r
  · exact (ready_creates guard ready creates).1
  · apply counter.born
    intro unborn
    rw [System.step_stage, if_neg creates] at born
    split at born
    next deletes =>
      obtain ⟨⟨t, rfl⟩, -⟩ := System.deletes_eq_some deletes
      exact absurd (unborn.symm.trans (counter.life.phases.exiting guard).1) nofun
    next => exact born unborn

/-- A step of the runner system that deletes nobody leaves the count as it is. -/
theorem undeleted (counter : CounterInvariant s) {action : Action}
    (enabled : s.system.Enabled action) (ready : s.Ready action)
    (contract : ProceedContract s.system action) (keeps : s.system.deletes action = none) :
    CounterInvariant { s with system := s.system.step action } where
  life := counter.life.step enabled contract
  nodup := counter.nodup
  born := counter.born_step enabled.2 ready
  count := by
    rw [counter.count]
    apply congrArg
    apply List.countP_congr
    intro r _
    by_cases creates : action.creates = some r
    · have unborn := (ready_creates enabled.2 ready creates).2
      simp [System.step_stage, creates, unborn]
    · simp [System.step_stage, creates, keeps]

theorem deleted (counter : CounterInvariant s) {t : ThreadId} {r : RunnerId}
    (enabled : s.system.Enabled (.onExit t r))
    (missing : (s.system.runners r).deferHandler = none) :
    CounterInvariant
      (CountedState.destruct { s with system := s.system.step (.onExit t r) } t r) where
  life := counter.life.step enabled trivial
  nodup := counter.nodup
  born := counter.born_step enabled.2 trivial
  count := by
    have alive := (counter.life.phases.exiting enabled.2).1
    have member : r ∈ s.created := by
      apply counter.born
      simp [alive]
    have fewer : s.live = CountedState.live
        (CountedState.destruct { s with system := s.system.step (.onExit t r) } t r) + 1 := by
      apply countP_remove counter.nodup member
      · simp [alive]
      · simp [CountedState.destruct, System.step_stage, Action.creates, System.deletes, missing]
      · intro other _ different
        simp [CountedState.destruct, System.step_stage, Action.creates, System.deletes, missing,
          Ne.symm different]
    have before := counter.count
    rw [fewer, BitVec.ofNat_add] at before
    exact (congrArg (· - 1) before).trans (BitVec.add_sub_cancel _ _)

theorem step (counter : CounterInvariant s) (enabled : s.Enabled action)
    (contract : CountedContract s action) : CounterInvariant (s.step action) := by
  obtain ⟨running, guard⟩ := enabled
  cases action with
  | runner action =>
      cases action with
      | onExit t r =>
          simp only [CountedState.step]
          split
          next missing => exact counter.deleted ⟨running, guard.1⟩ missing
          next stored =>
            apply counter.undeleted ⟨running, guard.1⟩ guard.2 contract
            simp [System.deletes, stored]
      | _ => exact counter.undeleted ⟨running, guard.1⟩ guard.2 contract rfl
  | construct r => exact counter.construct guard
  | destroyMembers t => exact ⟨counter.life, counter.nodup, counter.born, counter.count⟩
  | waitAll => exact counter

/-- When the counter has not wrapped, a counter of 0 means that every runner is
deleted. -/
theorem deleted_of_zero (counter : CounterInvariant s) (zero : s.count = 0)
    (bounded : s.live < 2 ^ 32) {r : RunnerId} (created : r ∈ s.created) :
    (s.system.runners r).stage = .deleted := by
  have none : s.live = 0 := by
    have value : s.live % 2 ^ 32 = 0 := by
      simpa using congrArg BitVec.toNat (counter.count.symm.trans zero)
    omega
  have uncounted := List.countP_eq_zero.mp none r created
  simpa using uncounted

end CounterInvariant

/-! ### Tasks that are over -/

/-- The runners in `old` are deleted, with everything that belongs to them. -/
structure AllOver (old : List RunnerId) (s : CountedState) : Prop where
  counter : CounterInvariant s
  deleted : ∀ r ∈ old, (s.system.runners r).stage = .deleted
  quiet : ∀ r ∈ old, ∀ t, (s.system.threads t).pc ≠ .deferring r .callable
  destroyed : ∀ r ∈ old, ∀ t, s.destroying t ≠ some r

namespace AllOver

variable {old : List RunnerId} {s : CountedState} {action : CountedAction}

theorem isOver (all : AllOver old s) {r : RunnerId} (member : r ∈ old) : s.Over r := by
  have dead : (s.system.runners r).stage ≠ .alive := by simp [all.deleted r member]
  exact
    { unscheduled := (all.counter.life.phases.unreferenced dead).1
      unexecuted := fun t => all.counter.life.phases.unexecuted dead (all.quiet r member t)
      destroyed := all.destroyed r member }

/-- Nothing brings a task back that is over. -/
theorem step (all : AllOver old s) (enabled : s.Enabled action)
    (contract : CountedContract s action) : AllOver old (s.step action) := by
  have counter := all.counter.step enabled contract
  obtain ⟨running, guard⟩ := enabled
  cases action with
  | runner action =>
      have stays : ∀ r ∈ old, ((s.system.step action).runners r).stage = .deleted := by
        intro r member
        have deleted := all.deleted r member
        rw [System.step_stage, if_neg, deleted, ite_self]
        intro creates
        have unborn := (CounterInvariant.ready_creates guard.1 guard.2 creates).2
        exact absurd (unborn.symm.trans deleted) nofun
      have quiet : ∀ r ∈ old, ∀ t,
          ((s.system.step action).threads t).pc ≠ .deferring r .callable := by
        intro r member t defers
        rcases System.step_deferring defers with before | rfl
        · exact all.quiet r member t before
        · have alive := (all.counter.life.phases.exiting guard.1).1
          exact absurd (alive.symm.trans (all.deleted r member)) nofun
      cases action with
      | onExit t q =>
          by_cases missing : (s.system.runners q).deferHandler = none
          · simp only [CountedState.step, if_pos missing] at counter ⊢
            refine ⟨counter, stays, quiet, fun r member other => ?_⟩
            by_cases here : other = t
            · subst here
              have alive := (all.counter.life.phases.exiting guard.1).1
              have different : q ≠ r := by
                rintro rfl
                exact absurd (alive.symm.trans (all.deleted q member)) nofun
              simpa [CountedState.destruct] using different
            · simpa [CountedState.destruct, here] using all.destroyed r member other
          · simp only [CountedState.step, if_neg missing] at counter ⊢
            exact ⟨counter, stays, quiet, all.destroyed⟩
      | _ => exact ⟨counter, stays, quiet, all.destroyed⟩
  | construct q => exact ⟨counter, all.deleted, all.quiet, all.destroyed⟩
  | destroyMembers t =>
      refine ⟨counter, all.deleted, all.quiet, fun r member other => ?_⟩
      by_cases here : other = t
      · simp [CountedState.step, here]
      · simpa [CountedState.step, here] using all.destroyed r member other
  | waitAll => exact all

end AllOver

namespace CounterInvariant

variable {s : CountedState} {action : CountedAction}

/-- Where `WaitAll` is not disturbed, a counter of 0 means that all is quiet. -/
theorem quiescent (counter : CounterInvariant s) (zero : s.count = 0)
    (destroyed : ∀ t, s.destroying t = none)
    (quiet : ∀ t r, (s.system.threads t).pc ≠ .deferring r .callable)
    (bounded : s.live < 2 ^ 32) : s.Quiescent := by
  have deleted : ∀ r ∈ s.created, (s.system.runners r).stage = .deleted :=
    fun r => counter.deleted_of_zero zero bounded
  have dead : ∀ r, (s.system.runners r).stage ≠ .alive := by
    intro r alive
    have created : r ∈ s.created := counter.born r (by simp [alive])
    exact absurd (alive.symm.trans (deleted r created)) nofun
  constructor
  · exact fun r created =>
      ⟨deleted r created, (counter.life.phases r).ended_of_deleted (deleted r created)⟩
  · apply List.eq_nil_iff_forall_not_mem.mpr
    intro closure waiting
    exact (counter.life.phases.unreferenced (dead _)).1 closure waiting rfl
  · intro t
    apply Option.eq_none_iff_forall_ne_some.mpr
    exact fun r => counter.life.phases.unexecuted (dead r) (quiet t r)
  · exact destroyed
  · intro future legal contract
    have all : AllOver s.created s :=
      { counter := counter
        deleted := deleted
        quiet := fun r _ t => quiet t r
        destroyed := fun r _ t => by simp [destroyed t] }
    have preserved : ∀ state action, AllOver s.created state →
        countedSystem.enabled state action → CountedContract state action →
          AllOver s.created (countedSystem.next state action) :=
      fun _ _ all enabled contract => all.step enabled contract
    have invariant := ActionSystem.everyState_of_invariant preserved all legal contract
    have stays : ∀ state, AllOver s.created state → ∀ r ∈ s.created, state.Over r :=
      fun _ all _ created => all.isOver created
    exact invariant.imp stays

/-- `WaitAll` finds all quiet exactly where it is not disturbed. -/
theorem waitAll_iff (counter : CounterInvariant s) :
    WaitAllQuiescent s action ↔ WaitAllUndisturbed s action := by
  constructor
  · intro promise reads zero
    have quiescent := promise reads zero
    refine ⟨quiescent.destroyed, fun t r defers => ?_, ?_⟩
    · have unexecuted := quiescent.unexecuted t
      simp [defers, Pc.runner] at unexecuted
    · have none : s.live = 0 := by
        apply List.countP_eq_zero.mpr
        intro r created
        simp [(quiescent.ended r created).1]
      omega
  · intro calm reads zero
    obtain ⟨destroyed, quiet, bounded⟩ := calm reads zero
    exact counter.quiescent zero destroyed quiet bounded

end CounterInvariant

/-- In every run with any number of tasks on any number of threads, `WaitAll`
returns only when all tasks are over for good, exactly when it never reads 0
while a thread destroys the members of a runner or executes a defer handler, and
not more runners exist than the counter can count. -/
theorem wait_all_quiescent_iff {actions : List CountedAction}
    (legal : countedSystem.Legal {} actions)
    (contract : countedSystem.EveryStep CountedContract {} actions) :
    countedSystem.EveryStep WaitAllQuiescent {} actions ↔
      countedSystem.EveryStep WaitAllUndisturbed {} actions := by
  have preserved : ∀ state action, CounterInvariant state → countedSystem.enabled state action →
      CountedContract state action → WaitAllUndisturbed state action →
        CounterInvariant (countedSystem.next state action) :=
    fun _ _ counter enabled contract _ => counter.step enabled contract
  apply ActionSystem.everyStep_congr _ preserved CounterInvariant.initial legal contract
  intro state action counter _ _
  exact counter.waitAll_iff

/-- `WaitAll` reads 0 after the body of the destructor of the only runner and
before the members of the runner are destroyed. -/
def readBeforeMembers : List CountedAction :=
  [.construct 0, .runner (.runAsync 0 1), .runner (.dispatch 0 ⟨.start, 0, 1⟩),
    .runner (.enter 0 0 .start), .runner (.finish 0 0), .runner (.onExit 0 0), .waitAll,
    .destroyMembers 0, .runner (.detach 0)]

theorem wait_all_fails_readBeforeMembers :
    countedSystem.Legal {} readBeforeMembers ∧
      countedSystem.EveryStep CountedContract {} readBeforeMembers ∧
        ¬ countedSystem.EveryStep WaitAllQuiescent {} readBeforeMembers := by
  refine ⟨by decide, by decide, fun quiescent => ?_⟩
  obtain ⟨-, -, -, -, -, -, reads, -⟩ := quiescent
  exact absurd ((reads rfl (by decide)).destroyed 0) (by decide)

/-- A task creates a second one; `WaitAll` reads the counter while both exist,
and again when everything is destroyed. -/
def readAfterMembers : List CountedAction :=
  [.construct 0, .runner (.runAsync 0 1), .runner (.dispatch 0 ⟨.start, 0, 1⟩),
    .runner (.enter 0 0 .start), .construct 1, .runner (.runAsyncHere 0 1), .waitAll,
    .runner (.finish 0 0), .runner (.onExit 0 0), .destroyMembers 0, .runner (.detach 0),
    .runner (.dispatch 0 ⟨.start, 1, 1⟩), .runner (.enter 0 1 .start), .runner (.finish 0 1),
    .runner (.onExit 0 1), .destroyMembers 0, .runner (.detach 0), .waitAll]

theorem wait_all_quiescent_readAfterMembers :
    countedSystem.EveryStep WaitAllQuiescent {} readAfterMembers := by
  refine (wait_all_quiescent_iff (by decide) (by decide)).mpr ?_
  refine ⟨nofun, nofun, nofun, nofun, nofun, nofun, fun _ zero => absurd zero (by decide), nofun,
    nofun, nofun, nofun, nofun, nofun, nofun, nofun, nofun, nofun, fun _ _ => ⟨?_, ?_, by decide⟩,
    trivial⟩
  · intro t
    cases t with
    | zero => decide
    | succ t => rfl
  · intro t r
    cases t with
    | zero => exact nofun
    | succ t => exact nofun

end FlatAsync
